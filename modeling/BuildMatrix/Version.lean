import BuildMatrix.Text.Basic

/-! Version numbers of three parts, each below 65536. Reading takes one to three parts, and missing
ones are zero. The order is that of the parts, the first difference deciding. -/

set_option autoImplicit false

namespace BuildMatrix

structure Version where
  major : UInt16
  minor : UInt16
  patch : UInt16
  deriving DecidableEq

namespace Version

/-- A number that orders versions as their parts do. -/
def key (v : Version) : Nat :=
  (v.major.toNat * 65536 + v.minor.toNat) * 65536 + v.patch.toNat

def newerThan (a b : Version) : Bool := b.key < a.key

def newest (a b : Version) : Version := if b.newerThan a then b else a

def text (v : Version) : Text :=
  Text.ofNat v.major.toNat ++ '.' :: Text.ofNat v.minor.toNat ++
    '.' :: Text.ofNat v.patch.toNat

/-- The value of a row of decimal digits. -/
def digitsValue (digits : Text) : Nat :=
  digits.foldl (fun n c => n * 10 + (c.toNat - '0'.toNat)) 0

/-- One part: decimal digits, perhaps after a plus sign, of a value below 65536. -/
def part? (t : Text) : Option UInt16 :=
  let digits := match t with
    | '+' :: r => r
    | _ => t
  if digits ≠ [] ∧ digits.all Char.isDigit ∧ digitsValue digits < 65536 then
    some (UInt16.ofNat (digitsValue digits))
  else none

def ofParts? : List UInt16 → Option Version
  | [a] => some ⟨a, 0, 0⟩
  | [a, b] => some ⟨a, b, 0⟩
  | [a, b, c] => some ⟨a, b, c⟩
  | _ => none

/-- The version a text gives, up to blank characters around it. -/
def ofText? (t : Text) : Option Version :=
  (((Text.trim t).splitOn '.').mapM part?).bind ofParts?

end Version

end BuildMatrix
