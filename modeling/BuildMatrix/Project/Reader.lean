import BuildMatrix.Project.Entry

/-! Reading a project: the items of its file change the project one after the other, and what the
file leaves out, a name and a list of files, comes from its directory. -/

set_option autoImplicit false

namespace BuildMatrix.Project

/-- The end of a reading, with what happened on the way. -/
structure Reading where
  log : List Event
  result : Except ReadError Project

def Reading.warnings (r : Reading) : List (Located Warning) := r.log.filterMap Event.warning?

def warn (position : Position) (w : Warning) : List Event := [.warning ⟨position, w⟩]

/-- An option line: the option it sets, or a line to keep, or no option at all. -/
def readOption (p : Project) (position : Position) (line : Text) : Project × List Event :=
  match Line.option? line with
  | none => (p, warn position (.missingSeparator (Text.trim line)))
  | some parts =>
    match OptionKey.ofName? parts.name with
    | some k => (p.assign k parts.value parts.comment, [])
    | none => (p.addUnrecognized line, warn position (.unknownOption parts.name))

/-- An option that was commented out. It counts again if it is known by now. -/
def readCommentedOption (p : Project) (position : Position) (line : Text) :
    Project × List Event :=
  match Line.option? line with
  | none => (p.addUnrecognized line, [])
  | some parts =>
    if (OptionKey.ofName? parts.name).isSome then
      let (q, events) := readOption p position line
      (q, .reviving parts.name :: events)
    else (p.addUnrecognized line, [])

def readPair (p : Project) (kind : PairKind) (position : Position) (line : Text) :
    Project × List Event :=
  match Line.pair? line with
  | none => (p, warn position (.missingSeparator line))
  | some (source, destination) => (p.addPair kind source destination, [])

/-- What an entry of the project file itself contributes. -/
def entryContribution [PatternLanguage] (disk : Disk) (file : Text) (n : Nat) (entry : Text) :
    Contribution :=
  contribution disk (Pathname.directory file) [disk.identity file] [] (.ofLine file n)
    (Entry.ofText entry)

def addPaths (p : Project) (scope : Scope) (paths : List Text) : Project :=
  paths.foldl (fun q f => q.add scope f) p

/-- The effect of an item at line `n`. -/
def readItem [PatternLanguage] (disk : Disk) (p : Project) (n : Nat) : Item → Project × List Event
  | .requires v => ({ p with requiredVersion := some v }, [])
  | .badVersion word => (p, warn (.ofLine p.file n) (.invalidVersion word))
  | .unknownSection name => (p, warn (.ofLine p.file n) (.unknownSection name))
  | .stray => (p, warn (.ofLine p.file n) .noSection)
  | .option line => readOption p (.ofLine p.file n) line
  | .commentedOption line => readCommentedOption p (.ofLine p.file n) line
  | .entry scope entry =>
    let c := entryContribution disk p.file n entry
    ((p.declare scope entry).addPaths scope c.paths, c.log)
  | .pair kind line => readPair p kind (.ofLine p.file n) line

/-- The version that makes a file too new for this tool. -/
def Item.tooNew? : Item → Option Version
  | .requires v => if v.newerThan toolVersion then some v else none
  | _ => none

/-- The items one after the other, up to one that asks for a newer version. -/
def readItems [PatternLanguage] (disk : Disk) (p : Project) (log : List Event) :
    List (Nat × Item) → Reading
  | [] => ⟨log, .ok p⟩
  | (n, item) :: rest =>
    match item.tooNew? with
    | some v => ⟨log, .error (.versionTooNew p.file v toolVersion)⟩
    | none =>
      let (q, events) := readItem disk p n item
      readItems disk q (log ++ events) rest

/-- The name of a directory, or of the one around it if it is one for sources. -/
def nameOfDirectories : List Text → Option Text
  | [] => none
  | name :: around =>
    if Text.sameLetters name "src" ∨ Text.sameLetters name "source" then around.head?
    else some name

/-- The name for a project in a directory: from where the directory is on the disk, or else from
its own name. -/
def nameFor? (disk : Disk) (dir : Text) : Option Text :=
  match disk.identity dir with
  | .at a => nameOfDirectories a.reverse
  | .named _ =>
    match Pathname.last? dir with
    | none => none
    | some name =>
      nameOfDirectories (name :: ((Pathname.parent? dir).bind Pathname.last?).toList)

/-- The source files in the directory of a project. -/
def sourcesAround (disk : Disk) (dir : Text) : List Text :=
  match disk.fileNames dir with
  | .error _ => []
  | .ok names => Text.sort (names.filter Path.isSource)

def deriveName (disk : Disk) (p : Project) : Project × List Event :=
  if p.hasValue .project then (p, [])
  else match nameFor? disk p.dir with
    | none => (p, [])
    | some name => (p.set .project name, [.derivedName name])

def deriveFiles (disk : Disk) (p : Project) : Project × List Event :=
  if p.declared .everyBuild = [] ∧ p.files = [] then
    let sources := sourcesAround disk p.dir
    (p.addPaths .everyBuild sources, [.derivedFiles sources])
  else (p, [])

/-- Add the name and the files that a project does not give. -/
def derive (disk : Disk) (p : Project) : Project × List Event :=
  let (q, named) := deriveName disk p
  let (r, listed) := deriveFiles disk q
  (r, named ++ listed)

/-- Read a text as the project file `file`. Listed files and included projects are looked for where
that file is. -/
def readText [PatternLanguage] (disk : Disk) (file source : Text) : Reading :=
  let r := readItems disk (bare file) [] (Item.ofText source)
  match r.result with
  | .error _ => r
  | .ok p =>
    let (q, events) := derive disk p
    ⟨r.log ++ events, .ok q⟩

def read [PatternLanguage] (disk : Disk) (file : Text) : Reading :=
  match disk.readText file with
  | .error e => ⟨[], .error (.unreadable file e)⟩
  | .ok source => readText disk file source

/-- Subdirectories in which a project file may lie. -/
def usualDirectories : List Text := ["src", "source", ".private", "bld"]

/-- Where the project of a directory is: in it, or in a usual subdirectory. -/
structure Found where
  /-- The subdirectory, empty for the directory itself. -/
  inner : Text
  file : Text
  address : Address

def findIn (disk : Disk) (inner dir : Text) : Option Found :=
  let file := Pathname.join dir projectFileName
  (disk.file? file).map fun a => ⟨inner, file, a⟩

def locate (disk : Disk) (dir : Text) : Option Found :=
  match findIn disk [] dir with
  | some f => some f
  | none => usualDirectories.findSome? fun inner => findIn disk inner (Pathname.join dir inner)

end BuildMatrix.Project
