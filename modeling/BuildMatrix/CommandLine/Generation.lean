import BuildMatrix.CommandLine.Output
import BuildMatrix.Makefile
import BuildMatrix.Update

/-! Generating all build scripts of a project. A problem with one target is reported and the others
are still generated; only a file that cannot be written ends the run. -/

set_option autoImplicit false

namespace BuildMatrix.CommandLine

def updateMode (a : Arguments) : Update.Mode := ⟨a.has .dryRun, a.has .force⟩

/-- How far a run has come. -/
structure Progress where
  disk : Disk
  output : List Output
  /-- The targets whose scripts are generated. -/
  generated : List Target
  /-- Whether any file was written. -/
  changed : Bool
  failure : Option Update.Failure

namespace Progress

def start (disk : Disk) : Progress := ⟨disk, [], [], false, none⟩

/-- What is printed about a file. -/
def outcomeOutput (path : Text) : Update.Outcome → List Output
  | .created => [.info ("Created " ++ path)]
  | .updated => [.info ("Updated " ++ path)]
  | .unchanged => [.debug .update (Text.quoted path ++ " is up to date"),
      .debug .program (path ++ " is up to date")]
  | .wouldCreate => [.info ("Would create " ++ path)]
  | .wouldUpdate diff => [.info ("Would update " ++ path), .result diff.text]

/-- Write a file, and go on with `next` if that succeeds. -/
def write (g : Progress) (mode : Update.Mode) (path : Text) (content : Script) : Progress :=
  match Update.run g.disk path content mode with
  | (d, .error f) => { g with disk := d, failure := some f }
  | (d, .ok outcome) =>
    { g with
      disk := d
      output := g.output ++ outcomeOutput path outcome
      changed := g.changed || outcome.isChange }

/-- Generate the script of one target. -/
def target (b : Blueprint) (mode : Update.Mode) (g : Progress) (t : Target) : Progress :=
  if g.failure.isSome then g
  else match b.script t with
    | .error e =>
      { g with output := g.output ++ [.warn .program (t.title ++ ": " ++ e.message)] }
    | .ok s =>
      let written := g.write mode (Pathname.join b.project.dir (b.scriptPath t)) s
      { written with generated := g.generated ++ [t] }

/-- Generate the makefile, if it is asked for. -/
def makefile (b : Blueprint) (a : Arguments) (g : Progress) : Progress :=
  let path := Pathname.join b.project.dir Makefile.fileName
  if g.failure.isSome then g
  else if a.has .makefile || Makefile.isWanted b.project (g.disk.exists? path) then
    g.write (updateMode a) path (Makefile.script b.project g.generated b.scriptDir)
  else g

def ending (a : Arguments) (g : Progress) : Ending :=
  match g.failure with
  | some f => ⟨g.output, some f.message⟩
  | none =>
    if g.changed || a.has .dryRun then .success g.output
    else .success (g.output ++ [.info "All build scripts are up to date."])

end Progress

/-- Generate the scripts of some targets, and the makefile. -/
def generateTargets (disk : Disk) (a : Arguments) (b : Blueprint) (ts : List Target) : Progress :=
  .makefile b a (ts.foldl (.target b (updateMode a)) (.start disk))

/-- What is said about targets before any of them is generated. -/
def selectionOutput (s : Project.Selection) : List Output :=
  s.unknownCompilers.map (fun n => .warn .program (Project.unknownCompilerMessage n)) ++
    if s.targets = [] then [.warn .program "No build targets selected"] else []

/-- The files the resource script depends on, and what is said about them. -/
def resourceFiles (disk : Disk) (p : Project) : List Text × List Output :=
  match p.rcFile with
  | none => ([], [])
  | some script =>
    let s := Resource.scan disk p.dir script
    (s.dependencies,
      Output.ofScan p.dir s ++ Output.warnings .program Resource.Warning.message s.warnings)

def librariesOutput (s : Library.Search) : List Output :=
  s.log.map .ofLibraryEvent ++ s.problems.map fun e => .warn .program e.message

/-- Generate the build scripts of a project that was read. -/
def generateProject (disk : Disk) (e : Environment) (a : Arguments) (p : Project)
    (ws : List (Located Project.Warning)) : Disk × Ending :=
  let selected := p.selection
  let (files, filesOutput) := resourceFiles disk p
  let found := Library.search disk p
  let b : Blueprint := ⟨p, a.buildDir, e, files, found.libraries⟩
  let g := generateTargets disk a b selected.targets
  (g.disk, (g.ending a).after <|
    Output.warnings .program Project.Warning.message ws ++ selectionOutput selected ++
      filesOutput ++ librariesOutput found)

/-- Generate all build scripts. -/
def generate (disk : Disk) (e : Environment) (a : Arguments) : Disk × Ending :=
  match projectFile? disk a with
  | none => (disk, ⟨[], some notFoundMessage⟩)
  | some file =>
    let reading := Project.read disk file
    match reading.result with
    | .error err => (disk, ⟨Output.ofReading reading, some err.message⟩)
    | .ok p =>
      let (d, ending) := generateProject disk e a p reading.warnings
      (d, ending.after (Output.ofReading reading))

end BuildMatrix.CommandLine
