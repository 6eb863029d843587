import BuildMatrix.Disk.Pathname
import BuildMatrix.Path
import BuildMatrix.Schema

/-! Projects: the options a project sets and the files it consists of. File names are relative to
the directory of the project file and in normal form. No file is in both lists, and none is in one
list twice. -/

set_option autoImplicit false

namespace BuildMatrix

/-- The file name under which projects are found. -/
def projectFileName : Text := ".srcfiles.yaml"

/-- What kind of binary a project builds. -/
inductive ExeType where
  | window
  | console
  | lib
  | dll
  | ocx
  deriving DecidableEq

namespace ExeType

def all : List ExeType := [.window, .console, .lib, .dll, .ocx]

def name : ExeType → Text
  | .window => "window"
  | .console => "console"
  | .lib => "lib"
  | .dll => "dll"
  | .ocx => "ocx"

def ofName? (t : Text) : Option ExeType :=
  all.find? fun e => e.name == Text.lowerAscii (Text.trim t)

def isExecutable : ExeType → Bool
  | .window | .console => true
  | .lib | .dll | .ocx => false

end ExeType

/-- The value a project gives to an option, and the comment after it. -/
structure Setting where
  value : Text
  comment : Option Text
  deriving DecidableEq

/-- Files that are converted before they are compiled. -/
inductive PairKind where
  | gzip
  | xpm
  | png
  deriving DecidableEq

/-- In which builds files take part. -/
inductive Scope where
  | everyBuild
  | debugOnly
  deriving DecidableEq

structure Project where
  file : Text
  /-- The directory of the project file. -/
  dir : Text
  /-- The version the file asks for. -/
  requiredVersion : Option Version
  settings : OptionKey → Option Setting
  /-- Lines of unknown options, as written. -/
  unrecognized : List Text
  files : List Text
  debugFiles : List Text
  rcFile : Option Text
  helpFile : Option Text
  idlFiles : List Text
  /-- The entries as written, before patterns and included projects are expanded. -/
  declared : Scope → List Text
  /-- Sources with their destinations. -/
  pairs : PairKind → List (Text × Text)

namespace Project

def bare (file : Text) : Project where
  file := file
  dir := Pathname.directory file
  requiredVersion := none
  settings := fun _ => none
  unrecognized := []
  files := []
  debugFiles := []
  rcFile := none
  helpFile := none
  idlFiles := []
  declared := fun _ => []
  pairs := fun _ => []

variable (p : Project)

/-- The value of an option, or its default. -/
def value? (k : OptionKey) : Option Text :=
  match p.settings k with
  | some s => some s.value
  | none => k.default

/-- The value of an option, empty without one. -/
def valueD (k : OptionKey) : Text := (p.value? k).getD []

/-- The value of an option unless it is empty. -/
def filled? (k : OptionKey) : Option Text := (p.value? k).filter (· ≠ [])

def hasValue (k : OptionKey) : Bool := (p.filled? k).isSome

def isSet (k : OptionKey) : Bool := (p.settings k).isSome

def comment? (k : OptionKey) : Option Text := (p.settings k).bind Setting.comment

/-- Whether a flag is on. -/
def isOn (k : OptionKey) : Bool :=
  match p.value? k with
  | some v => isYes v
  | none => false

/-- Whether an option has a value, up to the case of ASCII letters. -/
def holds (k : OptionKey) (value : Text) : Bool :=
  match p.value? k with
  | some v => Text.sameLetters (Text.trim v) value
  | none => false

/-- The form in which a value is stored. -/
def storedValue (k : OptionKey) (value : Text) : Text :=
  if k.isFlag then flagText (isYes value) else Text.trim value

def withSetting (k : OptionKey) (s : Option Setting) : Project :=
  { p with settings := fun l => if l = k then s else p.settings l }

/-- Set a value and keep the comment. -/
def set (k : OptionKey) (value : Text) : Project :=
  p.withSetting k (some ⟨storedValue k value, p.comment? k⟩)

/-- Set the comment of an option that is set. -/
def setComment (k : OptionKey) (comment : Option Text) : Project :=
  match p.settings k with
  | some s => p.withSetting k (some { s with comment := comment })
  | none => p

def clear (k : OptionKey) : Project := p.withSetting k none

/-- Set a value together with its comment. -/
def assign (k : OptionKey) (value : Text) (comment : Option Text) : Project :=
  (p.set k value).setComment k comment

def addUnrecognized (line : Text) : Project :=
  { p with unrecognized := p.unrecognized ++ [line] }

/-- The settings in the order of the keys. -/
def settingList : List (OptionKey × Setting) :=
  OptionKey.all.filterMap fun k => (p.settings k).map fun s => (k, s)

/-- The version that knows all options the project sets. -/
def versionRequired : Version := OptionKey.newestSince (OptionKey.all.filter p.isSet)

def name : Text := p.valueD .project

def exeType? : Option ExeType := (p.value? .exeType).bind ExeType.ofName?

def addNew (f : Text) (fs : List Text) : List Text := if f ∈ fs then fs else fs ++ [f]

/-- Add a file for every build. The first resource script counts, the help project added last,
and all interface files. -/
def addFile (file : Text) : Project :=
  let f := Path.canonical file
  let e := Path.extension f
  { p with
    rcFile := if e = some "rc" ∧ p.rcFile = none then some f else p.rcFile
    idlFiles := if e = some "idl" then addNew f p.idlFiles else p.idlFiles
    helpFile := if e = some "hhp" then some f else p.helpFile
    debugFiles := p.debugFiles.filter (· ≠ f)
    files := addNew f p.files }

/-- Add a file for debug builds, unless every build has it. -/
def addDebugFile (file : Text) : Project :=
  let f := Path.canonical file
  if f ∈ p.files then p else { p with debugFiles := addNew f p.debugFiles }

def add : Scope → Text → Project
  | .everyBuild, f => p.addFile f
  | .debugOnly, f => p.addDebugFile f

/-- Whether adding a file would make a list longer. -/
def isNew (scope : Scope) (file : Text) : Bool :=
  let f := Path.canonical file
  f ∉ p.files && (scope = .everyBuild || f ∉ p.debugFiles)

def declare (scope : Scope) (entry : Text) : Project :=
  { p with declared := fun s => if s = scope then p.declared s ++ [entry] else p.declared s }

/-- Replace the destination of a source in its place, or add both at the end. -/
def insertPair (source destination : Text) : List (Text × Text) → List (Text × Text)
  | [] => [(source, destination)]
  | (s, d) :: rest =>
    if s = source then (source, destination) :: rest
    else (s, d) :: insertPair source destination rest

def addPair (kind : PairKind) (source destination : Text) : Project :=
  { p with pairs := fun k =>
      if k = kind then insertPair source destination (p.pairs k) else p.pairs k }

def pchHeader? : Option Text := p.filled? .pch

/-- The source that compiles the precompiled header: the one that is set, or the first source
file with the name of the header, or one next to the header. -/
def pchSource? : Option Text :=
  match p.pchHeader? with
  | none => none
  | some header =>
    match p.filled? .pchSource with
    | some source => some (Path.canonical source)
    | none =>
      let named (f : Text) := Path.isSource f && Text.sameLetters (Path.stem f) (Path.stem header)
      match p.files.find? named with
      | some f => some f
      | none => some (Path.withExtension (Path.canonical header) "cpp")

/-- The source files to compile in a configuration. -/
def sourceFiles (c : Configuration) : List Text :=
  (p.files ++ match c with
    | .debug => p.debugFiles
    | .release => []).filter Path.isSource

/-- The items of a list option. Semicolons separate them if there are any, so that items may hold
blanks; otherwise blanks do. -/
def items (k : OptionKey) : List Text :=
  let v := p.valueD k
  if ';' ∈ v then ((v.splitOn ';').map Text.trim).filter (· ≠ []) else Text.words v

end Project

end BuildMatrix
