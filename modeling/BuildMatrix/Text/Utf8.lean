import BuildMatrix.Text.Basic

/-! Texts as bytes. Writing is plain UTF-8. Reading never fails: bytes that are no UTF-8 give one
replacement character for each longest run that could still have started a character. -/

set_option autoImplicit false

namespace BuildMatrix.Text

abbrev Bytes := List UInt8

def toUtf8 (t : Text) : Bytes := t.flatMap String.utf8EncodeChar

/-- The length of a text in UTF-8. -/
def byteCount : Text → Nat
  | [] => 0
  | c :: r => c.utf8Size + byteCount r

theorem length_le_byteCount (t : Text) : t.length ≤ byteCount t := by
  induction t with
  | nil => exact Nat.zero_le _
  | cons c r ih =>
    have := c.utf8Size_pos
    simp only [List.length_cons, byteCount]
    omega

/-- The character that stands for bytes that cannot be read. -/
def replacement : Char := '\ufffd'

/-- A character begun: its bits so far, how many bytes are owed, and the range of the next one. -/
structure Begun where
  bits : Nat
  owed : Nat
  low : UInt8
  high : UInt8

/-- What a byte means where a character starts. -/
inductive Start where
  | whole (c : Char)
  | begun (b : Begun)
  | invalid

/-- The first byte of a character. The range of the second byte keeps out longer spellings than
needed, surrogates, and numbers above the last code point. -/
def start (b : UInt8) : Start :=
  if b < 0x80 then .whole (Char.ofNat b.toNat)
  else if b < 0xC2 then .invalid
  else if b < 0xE0 then .begun ⟨b.toNat % 32, 1, 0x80, 0xBF⟩
  else if b = 0xE0 then .begun ⟨0, 2, 0xA0, 0xBF⟩
  else if b = 0xED then .begun ⟨13, 2, 0x80, 0x9F⟩
  else if b < 0xF0 then .begun ⟨b.toNat % 16, 2, 0x80, 0xBF⟩
  else if b = 0xF0 then .begun ⟨0, 3, 0x90, 0xBF⟩
  else if b < 0xF4 then .begun ⟨b.toNat % 8, 3, 0x80, 0xBF⟩
  else if b = 0xF4 then .begun ⟨4, 3, 0x80, 0x8F⟩
  else .invalid

/-- Characters completed by one byte, and the character it leaves begun. -/
def Start.emit : Start → Text × Option Begun
  | .whole c => ([c], none)
  | .begun b => ([], some b)
  | .invalid => ([replacement], none)

def byteStep : Option Begun → UInt8 → Text × Option Begun
  | none, b => (start b).emit
  | some p, b =>
    if p.low ≤ b ∧ b ≤ p.high then
      let bits := p.bits * 64 + b.toNat % 64
      if p.owed ≤ 1 then ([Char.ofNat bits], none)
      else ([], some ⟨bits, p.owed - 1, 0x80, 0xBF⟩)
    else
      let (out, next) := (start b).emit
      (replacement :: out, next)

def ofUtf8From : Option Begun → Bytes → Text
  | none, [] => []
  | some _, [] => [replacement]
  | p, b :: r => (byteStep p b).1 ++ ofUtf8From (byteStep p b).2 r

def ofUtf8 (bytes : Bytes) : Text := ofUtf8From none bytes

end BuildMatrix.Text
