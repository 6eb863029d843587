import BuildMatrix.Text.Basic
import BuildMatrix.Text.Lines

/-! The text of a generated file, kept in a normal form: no line ends in blank characters, and no
blank line comes first or follows another. Two files with the same normal form differ in
formatting noise only. -/

set_option autoImplicit false

namespace BuildMatrix

/-- The lines appended so far. A blank line at the end is not yet part of the script. -/
structure Script where
  appended : List Text
  deriving DecidableEq

namespace Script

def empty : Script := ⟨[]⟩

/-- What remains of lines that follow other lines, `afterBlank` saying whether those are none or
end in a blank line. -/
def normalize (afterBlank : Bool) : List Text → List Text
  | [] => []
  | l :: r =>
    let line := Text.trimEnd l
    if line = [] ∧ afterBlank then normalize true r
    else line :: normalize (line = []) r

/-- Whether a further blank line would be dropped. -/
def endsBlank (s : Script) : Bool :=
  match s.appended.getLast? with
  | none => true
  | some l => l = []

def append (s : Script) (ls : List Text) : Script :=
  ⟨s.appended ++ normalize s.endsBlank ls⟩

/-- Append a text, cut at its line feeds. -/
def push (s : Script) (t : Text) : Script := s.append (t.splitOn '\n')

def blank (s : Script) : Script := s.push []

def pushAll (s : Script) (ts : List Text) : Script := ts.foldl push s

def ofText (t : Text) : Script := empty.pushAll (Text.lines t)

/-- Paragraphs of texts, with blank lines between them. -/
def ofParagraphs (ps : List (List Text)) : Script :=
  ps.foldl (fun s p => s.blank.pushAll p) empty

/-- The lines, without a blank one at the end. -/
def lines (s : Script) : List Text :=
  if s.appended.getLast? = some [] then s.appended.dropLast else s.appended

def isEmpty (s : Script) : Bool := s.lines.isEmpty

def text (s : Script) : Text := Text.ofLines s.lines

end Script

end BuildMatrix
