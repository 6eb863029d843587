import BuildMatrix.CommandLine.Arguments
import BuildMatrix.Library
import BuildMatrix.Resource.Scan

/-! What the command line prints: results, and messages about them. A message that informs is shown
as it is; others show their level and the part of the program they come from. -/

set_option autoImplicit false

namespace BuildMatrix.CommandLine

inductive Tool where
  | options
  | files
  | deps
  | targets
  | list
  deriving DecidableEq

namespace Tool

def all : List Tool := [.options, .files, .deps, .targets, .list]

def name : Tool → Text
  | .options => "options"
  | .files => "files"
  | .deps => "deps"
  | .targets => "targets"
  | .list => "list"

def help : Tool → Text
  | .options => "all options, with their values and defaults"
  | .files => "the files of the project, after expanding patterns"
  | .deps => "the files the resource script depends on"
  | .targets => "the selected build targets and their outputs"
  | .list => "this list"

def ofName? (t : Text) : Option Tool := all.find? fun s => s.name == t

end Tool

inductive Level where
  | error
  | warn
  | info
  | debug
  deriving DecidableEq

def Level.name : Level → Text
  | .error => "ERROR"
  | .warn => "WARN"
  | .info => "INFO"
  | .debug => "DEBUG"

/-- The part of the program that a message comes from. -/
inductive Origin where
  | program
  | reader
  | scan
  | libraries
  | update
  | tool (t : Tool)

def Origin.name : Origin → Text
  | .program => "ninjgen"
  | .reader => "ninjgen::project::read"
  | .scan => "ninjgen::deps"
  | .libraries => "ninjgen::generate::libs"
  | .update => "ninjgen::write"
  | .tool t => "ninjgen::subtools::" ++ t.name

inductive Output where
  /-- A piece of the result. -/
  | result (text : Text)
  | message (level : Level) (origin : Origin) (text : Text)

namespace Output

def line (t : Text) : Output := .result (t ++ ['\n'])

def info (t : Text) : Output := .message .info .program t

def warn (origin : Origin) (t : Text) : Output := .message .warn origin t

def debug (origin : Origin) (t : Text) : Output := .message .debug origin t

/-- Details are shown on demand only. -/
def isShown (details : Bool) : Output → Bool
  | .message .debug _ _ => details
  | _ => true

def resultText : Output → Text
  | .result t => t
  | .message _ _ _ => []

def messageText : Output → Text
  | .result _ => []
  | .message .info _ t => t ++ ['\n']
  | .message level origin t =>
    '[' :: level.name ++ "] " ++ origin.name ++ ": " ++ t ++ ['\n']

/-! ### What other parts report -/

def warnings {α : Type} (origin : Origin) (message : α → Text) (ws : List (Located α)) :
    List Output :=
  ws.map fun w => warn origin (w.position.message (message w.problem))

def ofReading (r : Project.Reading) : List Output := r.log.map fun e => debug .reader e.message

def ofScan (dir : Text) (s : Resource.Scan) : List Output :=
  s.opened.map fun f => debug .scan ("Scanning " ++ Text.quoted (Pathname.join dir f))

def ofLibraryEvent (e : Library.Event) : Output :=
  match e with
  | .reading _ => debug .reader e.message
  | .warning _ | .found _ _ => debug .libraries e.message

end Output

/-- What a command printed, and the error that ended it, if any. -/
structure Ending where
  output : List Output
  error : Option Text

def Ending.success (output : List Output) : Ending := ⟨output, none⟩

/-- Output that came before. -/
def Ending.after (before : List Output) (e : Ending) : Ending :=
  { e with output := before ++ e.output }

/-! ### The project that a command is about

It is the file given as an argument, or the one found around the current directory. -/

def notFoundMessage : Text :=
  "Unable to find " ++ projectFileName ++ " in the current directory"

/-- The project file, if there is one. -/
def projectFile? (disk : Disk) (a : Arguments) : Option Text :=
  match a.value? .file with
  | some f => some f
  | none => (Project.locate disk ".").map Project.Found.file

/-- Read a project file and go on with the project and the warnings about it. -/
def withFile (disk : Disk) (file : Text)
    (use : Project → List (Located Project.Warning) → Ending) : Ending :=
  let reading := Project.read disk file
  .after (Output.ofReading reading) <| match reading.result with
    | .error e => ⟨[], some e.message⟩
    | .ok p => use p reading.warnings

def withProject (disk : Disk) (a : Arguments)
    (use : Project → List (Located Project.Warning) → Ending) : Ending :=
  match projectFile? disk a with
  | none => ⟨[], some notFoundMessage⟩
  | some file => withFile disk file use

end BuildMatrix.CommandLine
