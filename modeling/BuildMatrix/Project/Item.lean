import BuildMatrix.Project.Line
import BuildMatrix.Text.Lines

/-! What the lines of a project file mean. The meaning of a line depends on the section it is in,
which the headers before it decide, and on nothing else. -/

set_option autoImplicit false

namespace BuildMatrix.Project

inductive Section where
  /-- Before the first header. -/
  | preamble
  | options
  | files (scope : Scope)
  | pairs (kind : PairKind)
  | unknown
  deriving DecidableEq

inductive Item where
  /-- A version is asked for. -/
  | requires (version : Version)
  | badVersion (word : Text)
  | unknownSection (name : Text)
  /-- A line outside of all sections. -/
  | stray
  | option (line : Text)
  /-- An option that was commented out because it was not known. -/
  | commentedOption (line : Text)
  | entry (scope : Scope) (entry : Text)
  | pair (kind : PairKind) (line : Text)
  deriving DecidableEq

def Section.ofName? (name : Text) : Option Section :=
  if name = "options" then some .options
  else if name = "files" then some (.files .everyBuild)
  else if name = "debugfiles" then some (.files .debugOnly)
  else if name = "gzip" then some (.pairs .gzip)
  else if name = "xpm" then some (.pairs .xpm)
  else if name = "png" then some (.pairs .png)
  else none

/-- The section that a header line names before its first colon. -/
def Section.ofHeader? (line : Text) : Option Section :=
  Section.ofName? (Text.lowerAscii (Text.trim (line.takeWhile (· ≠ ':'))))

/-- The name of an unknown section, as messages show it. -/
def headerName (line : Text) : Text := (line.reverse.dropWhile (· == ':')).reverse

def Item.ofComment (line : Text) : Section → Option Item
  | .preamble =>
    match Line.versionWord? line with
    | none => none
    | some word =>
      match Version.ofText? word with
      | some v => some (.requires v)
      | none => some (.badVersion word)
  | .options =>
    (Text.trimEnd Line.unrecognizedMark).isPrefixOf? line |>.map fun raw =>
      .commentedOption (Text.trimStart raw)
  | _ => none

def Item.ofContent (line : Text) : Section → Option Item
  | .preamble => some .stray
  | .unknown => none
  | .options => some (.option line)
  | .files scope => some (.entry scope (Line.entry line))
  | .pairs kind => some (.pair kind line)

/-- The meaning of a line in a section, and the section of the next line. -/
def Item.ofLine (current : Section) (raw : Text) : Section × Option Item :=
  let line := Text.trimEnd raw
  let content := Text.trimStart line
  if content = [] then (current, none)
  else if content.head? = some '#' then (current, Item.ofComment content current)
  else if Line.isHeader line then
    match Section.ofHeader? line with
    | some s => (s, none)
    | none => (.unknown, some (.unknownSection (headerName line)))
  else (current, Item.ofContent content current)

/-- The items of numbered lines. -/
def Item.ofLines (current : Section) : List (Nat × Text) → List (Nat × Item)
  | [] => []
  | (n, l) :: rest =>
    let (next, item) := Item.ofLine current l
    (item.toList.map fun i => (n, i)) ++ Item.ofLines next rest

/-- The items of a project file, with their line numbers. -/
def Item.ofText (t : Text) : List (Nat × Item) :=
  Item.ofLines .preamble (Text.numbered (Text.lines t))

/-- The entries in the sections for every build, read without regard to anything else. -/
def Item.listedIn (inFiles : Bool) : List (Nat × Text) → List (Nat × Text)
  | [] => []
  | (n, raw) :: rest =>
    let content := Text.trim raw
    if content = [] ∨ content.head? = some '#' then Item.listedIn inFiles rest
    else if Line.isHeader raw then
      Item.listedIn (Section.ofHeader? raw == some (.files .everyBuild)) rest
    else if inFiles then (n, Line.entry content) :: Item.listedIn inFiles rest
    else Item.listedIn inFiles rest

/-- The entries that an including project takes over, with their line numbers. -/
def Item.listed (t : Text) : List (Nat × Text) :=
  Item.listedIn false (Text.numbered (Text.lines t))

end BuildMatrix.Project
