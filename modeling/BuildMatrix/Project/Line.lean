import BuildMatrix.Project.Basic

/-! Single lines of a project file: options, file entries, pairs, section headers and the header
that asks for a version. Blanks around a line never count. -/

set_option autoImplicit false

namespace BuildMatrix.Project.Line

/-- The parts of an option line. -/
structure OptionParts where
  name : Text
  value : Text
  comment : Option Text
  deriving DecidableEq

/-- The text before the first `#` outside quotes, and the rest from there on. -/
def cutComment (inQuotes : Bool) : Text → Text × Text
  | [] => ([], [])
  | c :: r =>
    if c = '#' ∧ !inQuotes then ([], c :: r)
    else
      let (a, b) := cutComment (if c = '"' then !inQuotes else inQuotes) r
      (c :: a, b)

def isCommentOrEmpty : Text → Bool
  | [] => true
  | c :: _ => c == '#'

/-- The text between the quotes and what follows, if only a comment follows. -/
def fullyQuoted? : Text → Option (Text × Text)
  | '"' :: r =>
    match Text.cutFirst (· == '"') r with
    | none => none
    | some (inner, rest) =>
      let rest := Text.trimStart rest
      if isCommentOrEmpty rest then some (inner, rest) else none
  | _ => none

/-- A value and what follows it, which starts with `#` if there is anything. -/
def valueAndRest (t : Text) : Text × Text :=
  match fullyQuoted? t with
  | some split => split
  | none =>
    let (v, r) := cutComment false t
    (Text.trim v, r)

/-- The comment in what follows a value, unless it is blank. -/
def comment? (rest : Text) : Option Text :=
  match Text.trimStart rest with
  | '#' :: c => if Text.trim c = [] then none else some (Text.trim c)
  | _ => none

def isOptionName (name : Text) : Bool :=
  name ≠ [] && !name.any Text.isBlank && name.head? ≠ some '#'

/-- Split `name: value # comment`. A value in double quotes may hold `#`, and the quotes do not
belong to it; in any other value the quotes stay. -/
def option? (line : Text) : Option OptionParts :=
  match Text.cutFirst (fun c => c == ':' || c == '=') (Text.trim line) with
  | none => none
  | some (before, after) =>
    let name := Text.trim before
    if isOptionName name then
      let (value, rest) := valueAndRest (Text.trimStart after)
      some ⟨name, value, comment? rest⟩
    else none

/-- The text before the first `#` that follows a blank of the ASCII range. -/
def beforeComment (afterBlank : Bool) : Text → Text
  | [] => []
  | c :: r =>
    if c = '#' ∧ afterBlank then [] else c :: beforeComment (Text.isBlankAscii c) r

/-- A file entry without its comment. -/
def entry (line : Text) : Text := Text.trimEnd (beforeComment false (Text.trim line))

def isSlash (c : Char) : Bool := c == '/' || c == '\\'

/-- The texts before and after the first colon that does not follow a drive letter. -/
def cutPair : Text → Option (Text × Text)
  | a :: ':' :: s :: r =>
    if a.isAlpha ∧ isSlash s then
      (Text.cutFirst (· == ':') (s :: r)).map fun (x, y) => (a :: ':' :: x, y)
    else Text.cutFirst (· == ':') (a :: ':' :: s :: r)
  | t => Text.cutFirst (· == ':') t

/-- Split `source: destination`, both not blank. -/
def pair? (line : Text) : Option (Text × Text) :=
  match cutPair (entry line) with
  | none => none
  | some (a, b) =>
    if Text.trim a ≠ [] ∧ Text.trim b ≠ [] then some (Text.trim a, Text.trim b) else none

/-- The word for the version in a comment that asks for one. -/
def versionWord? (line : Text) : Option Text :=
  match Text.trim line with
  | '#' :: t =>
    match Text.words t with
    | requires :: _ :: version :: word :: _ =>
      if Text.sameLetters requires "requires" ∧ Text.sameLetters version "version" then some word
      else none
    | _ => none
  | _ => none

/-- The comment that asks for a version. -/
def versionHeader (v : Version) : Text :=
  "# Requires ninjgen version " ++ v.text ++ " or higher to process"

/-- What stands before an option that an older version did not know. -/
def unrecognizedMark : Text := "# [unrecognized] "

/-- Whether an entry is a pattern. -/
def isPattern (entry : Text) : Bool := entry.any fun c => c == '*' || c == '?' || c == '['

/-- Whether a value has to be quoted to be read back. One that holds a quote is never quoted. -/
def needsQuotes (value : Text) : Bool :=
  '"' ∉ value && ('#' ∈ value || Text.trim value ≠ value)

/-- A section header starts with a letter, not indented. -/
def isHeader : Text → Bool
  | [] => false
  | c :: _ => c.isAlpha

end BuildMatrix.Project.Line
