import BuildMatrix.Text.Basic

/-! The lines of a text, and problems tied to them. A line ends at a line feed, and a carriage
return right before the line feed belongs to the ending. What follows the last line feed is a line
only if it is not empty, and a carriage return there is kept. Files are read to the end even when
some lines are wrong, so every problem keeps the file and, where there is one, the line. -/

set_option autoImplicit false

namespace BuildMatrix

namespace Text

def dropReturn (l : Text) : Text := if l.getLast? = some '\r' then l.dropLast else l

/-- The lines of pieces that were separated by line feeds. -/
def linesOfPieces : List Text → List Text
  | [] => []
  | [last] => if last = [] then [] else [last]
  | p :: q :: r => dropReturn p :: linesOfPieces (q :: r)

def lines (t : Text) : List Text := linesOfPieces (t.splitOn '\n')

/-- Things with their line numbers, which start at one. -/
def numbered {α : Type} (ls : List α) : List (Nat × α) :=
  (ls.zipIdx 1).map fun (l, n) => (n, l)

end Text

/-- A file, and a line in it, counted from one. -/
structure Position where
  file : Text
  line : Option Nat
  deriving DecidableEq

/-- Line numbers are kept from 1 up to 2 ^ 32 - 1. -/
def Position.ofLine (file : Text) (n : Nat) : Position :=
  ⟨file, if 0 < n ∧ n < 4294967296 then some n else none⟩

def Position.ofFile (file : Text) : Position := ⟨file, none⟩

structure Located (α : Type) where
  position : Position
  problem : α

/-- The file, the line if known, and the message. -/
def Position.message (p : Position) (message : Text) : Text :=
  match p.line with
  | some n => p.file ++ ':' :: Text.ofNat n ++ ": " ++ message
  | none => p.file ++ ": " ++ message

end BuildMatrix
