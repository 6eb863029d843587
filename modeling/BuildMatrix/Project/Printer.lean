import BuildMatrix.Project.Line
import BuildMatrix.Text.Utf8

/-! Writing a project as a project file: the version it needs, its options in the order of the
schema with their comments in one column, unknown options commented out, and the lists as they were
declared. -/

set_option autoImplicit false

namespace BuildMatrix.Project

def indent : Text := "    "

/-- A value as it is written. -/
def writtenValue (value : Text) : Text :=
  if Line.needsQuotes value then '"' :: value ++ ['"'] else value

/-- The column for comments, counted in bytes. -/
def valueWidth (settings : List (OptionKey × Setting)) : Nat :=
  ((settings.filter fun s => s.2.comment.isSome).map fun s =>
    Text.byteCount (writtenValue s.2.value)).foldl max 0

def nameWidth (settings : List (OptionKey × Setting)) : Nat :=
  (settings.map fun s => Text.byteCount s.1.name + 1).foldl max 0

/-- The line of an option, with its columns padded by characters. -/
def optionLine (names values : Nat) (k : OptionKey) (s : Setting) : Text :=
  let name := Text.alignLeft names (k.name ++ [':'])
  let value := writtenValue s.value
  let line := match s.comment with
    | some c => name ++ ' ' :: Text.alignLeft values value ++ "  # " ++ c
    | none => name ++ ' ' :: value
  indent ++ Text.trimEnd line

def optionLines (p : Project) : List Text :=
  let settings := p.settingList
  if settings = [] ∧ p.unrecognized = [] then []
  else
    [] :: "Options:" ::
      (settings.map fun s => optionLine (nameWidth settings) (valueWidth settings) s.1 s.2) ++
      p.unrecognized.map fun line => indent ++ Line.unrecognizedMark ++ line

/-- A section, unless it has no lines. -/
def sectionLines (header : Text) (ls : List Text) : List Text :=
  if ls = [] then [] else [] :: (header ++ [':']) :: ls.map (indent ++ ·)

/-- The entries to write: those declared, or else the files there are. -/
def entries (p : Project) : Scope → List Text
  | .everyBuild =>
    if p.declared .everyBuild = [] then p.files else p.declared .everyBuild
  | .debugOnly =>
    if p.declared .debugOnly = [] then p.debugFiles else p.declared .debugOnly

def pairLines (p : Project) (kind : PairKind) : List Text :=
  (p.pairs kind).map fun (source, destination) => source ++ ": " ++ destination

def lines (p : Project) : List Text :=
  [Line.versionHeader p.versionRequired] ++ optionLines p ++
    sectionLines "Files" (p.entries .everyBuild) ++
    sectionLines "DebugFiles" (p.entries .debugOnly) ++
    sectionLines "GZIP" (p.pairLines .gzip) ++
    sectionLines "XPM" (p.pairLines .xpm) ++
    sectionLines "PNG" (p.pairLines .png)

def text (p : Project) : Text := Text.ofLines p.lines

end BuildMatrix.Project
