import BuildMatrix.Text.Utf8
import Mathlib.Tactic.IntervalCases

/-! Reading back what was written as UTF-8. Bytes of a text are no runs that cannot be read, so no
replacement character comes of them, and every text is read back as it was.

The first byte of a character says how many bytes follow and from which range the second one is;
the ranges are those of the spellings that are not longer than needed and spell no surrogate. -/

set_option autoImplicit false

namespace BuildMatrix.Text

variable {low high b : UInt8} {bits n : Nat} {c : Char} {rest : Bytes}

/-! ### Bytes that go on with a character -/

/-- A byte that holds six more bits. -/
def further (n : Nat) : UInt8 := UInt8.ofNat (n % 64 + 0x80)

theorem toNat_further (n : Nat) : (further n).toNat = n % 64 + 0x80 :=
  UInt8.toNat_ofNat_of_lt' (by simp only [UInt8.size]; omega)

theorem further_in_range (n : Nat) : 0x80 ≤ further n ∧ further n ≤ 0xBF := by
  rw [UInt8.le_iff_toNat_le, UInt8.le_iff_toNat_le, toNat_further]
  simp only [UInt8.reduceToNat]
  omega

theorem ofUtf8From_last (inside : low ≤ further n ∧ further n ≤ high) :
    ofUtf8From (some ⟨bits, 1, low, high⟩) (further n :: rest) =
      Char.ofNat (bits * 64 + n % 64) :: ofUtf8From none rest := by
  have value : (further n).toNat % 64 = n % 64 := by
    rw [toNat_further]
    omega
  simp [ofUtf8From, byteStep, inside, value]

theorem ofUtf8From_further {owed : Nat} (inside : low ≤ further n ∧ further n ≤ high) :
    ofUtf8From (some ⟨bits, owed + 2, low, high⟩) (further n :: rest) =
      ofUtf8From (some ⟨bits * 64 + n % 64, owed + 1, 0x80, 0xBF⟩) rest := by
  have value : (further n).toNat % 64 = n % 64 := by
    rw [toNat_further]
    omega
  simp [ofUtf8From, byteStep, inside, value]

/-! ### First bytes -/

theorem ofUtf8From_whole (h : start b = .whole c) :
    ofUtf8From none (b :: rest) = c :: ofUtf8From none rest := by
  rw [ofUtf8From, byteStep, h]
  rfl

theorem ofUtf8From_begun {p : Begun} (h : start b = .begun p) :
    ofUtf8From none (b :: rest) = ofUtf8From (some p) rest := by
  rw [ofUtf8From, byteStep, h]
  rfl

theorem start_one (small : n ≤ 0x7F) : start (UInt8.ofNat n) = .whole (Char.ofNat n) := by
  have value : (UInt8.ofNat n).toNat = n :=
    UInt8.toNat_ofNat_of_lt' (by simp only [UInt8.size]; omega)
  have below : UInt8.ofNat n < 0x80 := by
    rw [UInt8.lt_iff_toNat_lt, value]
    simp only [UInt8.reduceToNat]
    omega
  rw [start, if_pos below, value]

theorem start_two (large : 2 ≤ n) (small : n < 32) :
    start (UInt8.ofNat (n + 0xC0)) = .begun ⟨n, 1, 0x80, 0xBF⟩ := by
  interval_cases n <;> rfl

theorem start_three (small : n < 16) :
    start (UInt8.ofNat (n + 0xE0)) =
      .begun ⟨n, 2, if n = 0 then 0xA0 else 0x80, if n = 13 then 0x9F else 0xBF⟩ := by
  interval_cases n <;> rfl

theorem start_four (small : n < 5) :
    start (UInt8.ofNat (n + 0xF0)) =
      .begun ⟨n, 3, if n = 0 then 0x90 else 0x80, if n = 4 then 0x8F else 0xBF⟩ := by
  interval_cases n <;> rfl

/-! ### Characters -/

theorem ofUtf8_char (c : Char) (rest : Bytes) :
    ofUtf8From none (String.utf8EncodeChar c ++ rest) = c :: ofUtf8From none rest := by
  have same : Char.ofNat c.val.toNat = c := Char.ofNat_toNat c
  have valid : c.val.toNat < 0xD800 ∨ 0xDFFF < c.val.toNat ∧ c.val.toNat < 0x110000 := c.valid
  unfold String.utf8EncodeChar
  generalize c.val.toNat = v at same valid
  dsimp only
  split
  · rename_i one
    rw [List.singleton_append, ofUtf8From_whole (start_one one), same]
  split
  · rename_i _ two
    have first := start_two (n := v / 64 % 32) (by omega) (by omega)
    have whole : v / 64 % 32 * 64 + v % 64 = v := by omega
    rw [List.cons_append, ofUtf8From_begun first, List.singleton_append]
    exact (ofUtf8From_last (further_in_range v)).trans (by rw [whole, same])
  split
  · rename_i _ _ three
    have first := start_three (n := v / 4096 % 16) (by omega)
    have whole : (v / 4096 % 16 * 64 + v / 64 % 64) * 64 + v % 64 = v := by omega
    -- neither a spelling that is too long nor a surrogate
    have inside : (if v / 4096 % 16 = 0 then 0xA0 else 0x80) ≤ further (v / 64) ∧
        further (v / 64) ≤ if v / 4096 % 16 = 13 then 0x9F else 0xBF := by
      rw [UInt8.le_iff_toNat_le, UInt8.le_iff_toNat_le, toNat_further]
      constructor <;> split <;> simp only [UInt8.reduceToNat] <;> omega
    rw [List.cons_append, ofUtf8From_begun first, List.cons_append, List.singleton_append]
    refine (ofUtf8From_further inside).trans ?_
    exact (ofUtf8From_last (further_in_range v)).trans (by rw [whole, same])
  · rename_i _ _ more
    have first := start_four (n := v / 262144 % 8) (by omega)
    have whole : ((v / 262144 % 8 * 64 + v / 4096 % 64) * 64 + v / 64 % 64) * 64 + v % 64 = v := by
      omega
    -- neither a spelling that is too long nor a number that is too high
    have inside : (if v / 262144 % 8 = 0 then 0x90 else 0x80) ≤ further (v / 4096) ∧
        further (v / 4096) ≤ if v / 262144 % 8 = 4 then 0x8F else 0xBF := by
      rw [UInt8.le_iff_toNat_le, UInt8.le_iff_toNat_le, toNat_further]
      constructor <;> split <;> simp only [UInt8.reduceToNat] <;> omega
    simp only [List.cons_append, List.nil_append]
    rw [ofUtf8From_begun first]
    refine (ofUtf8From_further inside).trans ?_
    refine (ofUtf8From_further (further_in_range (v / 64))).trans ?_
    exact (ofUtf8From_last (further_in_range v)).trans (by rw [whole, same])

theorem ofUtf8_toUtf8 (t : Text) : ofUtf8 (toUtf8 t) = t := by
  rw [ofUtf8]
  induction t with
  | nil => rfl
  | cons c t ih => rw [toUtf8, List.flatMap_cons, ofUtf8_char, ← toUtf8, ih]

end BuildMatrix.Text
