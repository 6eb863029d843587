import BuildMatrix.CommandLine.Output
import BuildMatrix.Blueprint

/-! The subtools, which list what is known about a project and change nothing. -/

set_option autoImplicit false

namespace BuildMatrix.CommandLine

/-! ### Options -/

def nameWidth : Nat := ((OptionKey.all.map fun k => k.name.length).max?).getD 0

/-- One option with its value, and where the value comes from. -/
def optionLine (k : OptionKey) (value : Option Text) (origin : Text) : Text :=
  Text.alignLeft nameWidth k.name ++ "  " ++ Text.alignLeft 10 (value.getD []) ++ "  " ++
    Text.alignLeft 8 origin ++ "  since " ++ k.since.text

def defaultLine (k : OptionKey) : Output := .line (optionLine k k.default "default")

def settingLine (p : Project) (k : OptionKey) : Output :=
  if p.isSet k then .line (optionLine k (p.value? k) "set") else defaultLine k

def unrecognizedLine (line : Text) : Output := .line (Text.trim line ++ "  (unrecognized)")

/-- All options with their values, or with their defaults where there is no project. -/
def listOptions (disk : Disk) (a : Arguments) : Ending :=
  match projectFile? disk a with
  | none => .success (OptionKey.all.map defaultLine)
  | some file => withFile disk file fun p _ =>
      .success (OptionKey.all.map (settingLine p) ++ p.unrecognized.map unrecognizedLine)

/-! ### Files, dependencies and targets -/

def listFiles (disk : Disk) (a : Arguments) : Ending :=
  withProject disk a fun p ws =>
    .success <| Output.warnings (.tool .files) Project.Warning.message ws ++
      p.files.map .line ++ p.debugFiles.map fun f => .line (f ++ " (debug)")

def listDependencies (disk : Disk) (a : Arguments) : Ending :=
  withProject disk a fun p _ =>
    match p.rcFile with
    | none => .success [.message .info (.tool .deps) "No resource script in this project."]
    | some script =>
      let s := Resource.scan disk p.dir script
      .success <| Output.ofScan p.dir s ++
        Output.warnings (.tool .deps) Resource.Warning.message s.warnings ++
        .line (script ++ ":") :: s.dependencies.map fun f => .line ("    " ++ f)

def listTargets (disk : Disk) (a : Arguments) : Ending :=
  withProject disk a fun p _ =>
    let s := p.selection
    let targetLine (t : Target) : Output :=
      .line (t.makeName ++ ": " ++ Path.join a.buildDir t.scriptName ++ " -> " ++ p.binaryPath t)
    .success <|
      s.unknownCompilers.map (fun n => .warn (.tool .targets) (Project.unknownCompilerMessage n)) ++
        s.targets.map targetLine

/-! ### Choosing a subtool -/

def toolLine (t : Tool) : Output := .line ('\t' :: Text.alignLeft 8 t.name ++ "  " ++ t.help)

def listTools : Ending := .success (.line "Subtools:" :: Tool.all.map toolLine)

def runTool (disk : Disk) (a : Arguments) (name : Text) : Ending :=
  match Tool.ofName? name with
  | some .options => listOptions disk a
  | some .files => listFiles disk a
  | some .deps => listDependencies disk a
  | some .targets => listTargets disk a
  | some .list => listTools
  | none => ⟨[], some ("Unknown subtool " ++ Text.quoted name ++ ", use -t list to list them")⟩

end BuildMatrix.CommandLine
