import BuildMatrix.Path

/-! What the lines of a resource script, or of a header, refer to. A header in double quotes may
refer to further files; a file that a resource statement uses is taken as it is. Headers in angle
brackets, and those that come with every platform, are no part of a project. -/

set_option autoImplicit false

namespace BuildMatrix.Resource

inductive Kind where
  | header
  | resource
  deriving DecidableEq

structure Reference where
  kind : Kind
  name : Text
  deriving DecidableEq

namespace Reference

/-- Resource types whose statements name a file. -/
def keywords : List Text :=
  ["ICON", "CURSOR", "FONT", "HTML", "BITMAP", "RCDATA", "TYPELIB", "MESSAGETABLE"]

/-- Flags between the type of a resource and its file. -/
def memoryFlags : List Text :=
  ["DISCARDABLE", "PRELOAD", "LOADONCALL", "MOVEABLE", "FIXED", "PURE", "IMPURE"]

/-- Headers that come with the compiler. -/
def platformHeaders : List Text :=
  ["afxres.h", "commctrl.h", "dlgs.h", "richedit.h", "verrsrc.h", "winres.h", "winresrc.h",
    "windows.h", "winuser.h", "winver.h"]

/-- Whether a word is in a list, whatever its letter case. -/
def isAmong (ws : List Text) (word : Text) : Bool := ws.any fun w => Text.sameLetters w word

def isPlatformHeader (name : Text) : Bool := isAmong platformHeaders (Path.fileName name)

/-- The text between double quotes at the start, if there is any. -/
def quoted? : Text → Option Text
  | '"' :: r =>
    match Text.cutFirst (· == '"') r with
    | some (name, _) => if name = [] then none else some name
    | none => none
  | _ => none

/-- The header that a trimmed line includes. -/
def include? (line : Text) : Option Text :=
  match line with
  | '#' :: r =>
    (("include" : Text).isPrefixOf? (Text.trimStart r)).bind fun rest =>
      quoted? (Text.trimStart rest)
  | _ => none

/-- The first word of a text, empty if a blank comes first. -/
def firstWord (t : Text) : Text := t.takeWhile fun c => !Text.isBlank c

/-- The text after the first word and the blanks that follow it. -/
def afterWord (t : Text) : Text := Text.trimStart (t.dropWhile fun c => !Text.isBlank c)

theorem length_afterWord_lt {t : Text} (h : firstWord t ≠ []) :
    (afterWord t).length < t.length := by
  have cut := List.takeWhile_append_dropWhile (p := fun c => !Text.isBlank c) (l := t)
  have lengths := congrArg List.length cut
  rw [List.length_append] at lengths
  have := List.length_pos_iff.2 h
  have := List.dropWhile_sublist Text.isBlank (l := t.dropWhile fun c => !Text.isBlank c)
    |>.length_le
  unfold firstWord at *
  unfold afterWord Text.trimStart
  omega

/-- What follows the memory flags. -/
def afterFlags (t : Text) : Text :=
  if isAmong memoryFlags (firstWord t) then afterFlags (afterWord t) else t
termination_by t.length
decreasing_by
  refine length_afterWord_lt fun none => ?_
  simp_all [isAmong, memoryFlags, Text.sameLetters, Text.lowerAscii]

/-- The file that a trimmed line uses as a resource: an identifier and a type come before it, and
it has an extension. -/
def statement? (line : Text) : Option Text :=
  if ("//" : Text).isPrefixOf line then none
  else
    let r := afterWord line
    if isAmong keywords (firstWord r) then
      (quoted? (afterFlags (afterWord r))).filter fun name => (Path.extension name).isSome
    else none

/-- What a line refers to. A line that includes a header is no statement. -/
def ofLine? (line : Text) : Option Reference :=
  let l := Text.trim line
  match include? l with
  | some name => if isPlatformHeader name then none else some ⟨.header, name⟩
  | none => (statement? l).map fun name => ⟨.resource, name⟩

end Reference

end BuildMatrix.Resource
