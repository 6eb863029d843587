/-! A text is the sequence of its characters. This module holds what all formats share: string
literals as texts, ASCII letter case, white space, cutting at a character, decimal numbers, padding
and the order of texts. Unicode letter case is in `Text.LetterCase`. -/

set_option autoImplicit false

namespace BuildMatrix

/-- A sequence of Unicode scalar values. -/
abbrev Text := List Char

instance : Coe String Text := ⟨String.toList⟩

/-- Texts that test as equal are equal. -/
instance : LawfulBEq Text := inferInstanceAs (LawfulBEq (List Char))

namespace Text

/-- ASCII letters in lower case; every other character stays. -/
def lowerAscii (t : Text) : Text := t.map Char.toLower

/-- Equality up to the case of ASCII letters. -/
def sameLetters (a b : Text) : Bool := lowerAscii a == lowerAscii b

/-- Whether a number lies in one of some ranges, which include both ends. -/
def inRanges (n : Nat) (ranges : List (Nat × Nat)) : Bool :=
  ranges.any fun r => r.1 ≤ n && n ≤ r.2

/-! ### White space

Blank characters are those with the Unicode property White_Space. Trimming and splitting into words
go by this class; a zero-width space or a byte order mark is not blank. -/

def isBlank (c : Char) : Bool :=
  let n := c.toNat
  (0x09 ≤ n && n ≤ 0x0D) || n == 0x20 || n == 0x85 || n == 0xA0 || n == 0x1680 ||
    (0x2000 ≤ n && n ≤ 0x200A) || n == 0x2028 || n == 0x2029 || n == 0x202F || n == 0x205F ||
    n == 0x3000

def trimStart (t : Text) : Text := t.dropWhile isBlank

def trimEnd (t : Text) : Text := (t.reverse.dropWhile isBlank).reverse

def trim (t : Text) : Text := trimEnd (trimStart t)

/-- The longest runs of characters that are not blank. -/
def words (t : Text) : List Text := (t.splitOnP isBlank).filter (· ≠ [])

/-- The blank characters of the ASCII range, without the vertical tab. -/
def isBlankAscii (c : Char) : Bool :=
  c == ' ' || c == '\t' || c == '\n' || c == '\x0c' || c == '\r'

/-! ### Cutting -/

/-- The texts before and after the first character that satisfies `q`. -/
def cutFirst (q : Char → Bool) : Text → Option (Text × Text)
  | [] => none
  | c :: r => if q c then some ([], r) else (cutFirst q r).map fun (a, b) => (c :: a, b)

theorem cutFirst_eq_none_iff {q : Char → Bool} {t : Text} :
    cutFirst q t = none ↔ ∀ x ∈ t, q x = false := by
  induction t with
  | nil => simp [cutFirst]
  | cons c r ih =>
    cases hit : q c with
    | true => simp [cutFirst, hit]
    | false => simp [cutFirst, hit, ih]

theorem cutFirst_eq_some_iff {q : Char → Bool} {t a b : Text} :
    cutFirst q t = some (a, b) ↔ ∃ c, t = a ++ c :: b ∧ q c = true ∧ ∀ x ∈ a, q x = false := by
  induction t generalizing a with
  | nil => simp [cutFirst]
  | cons c r ih =>
    cases hit : q c with
    | true =>
      rw [cutFirst, if_pos hit, Option.some.injEq, Prod.mk.injEq]
      constructor
      · rintro ⟨rfl, rfl⟩
        exact ⟨c, rfl, hit, by simp⟩
      · rintro ⟨d, split, -, free⟩
        cases a with
        | nil => simpa using (List.cons.inj split).2
        | cons x y =>
          have other := free x List.mem_cons_self
          rw [← (List.cons.inj split).1, hit] at other
          cases other
    | false =>
      rw [cutFirst, if_neg (by simp [hit]), Option.map_eq_some_iff]
      constructor
      · rintro ⟨⟨x, y⟩, found, same⟩
        cases same
        obtain ⟨d, rfl, sep, free⟩ := ih.1 found
        exact ⟨d, rfl, sep, by simpa [hit] using free⟩
      · rintro ⟨d, split, sep, free⟩
        cases a with
        | nil =>
          rw [(List.cons.inj split).1, sep] at hit
          cases hit
        | cons x y =>
          obtain ⟨rfl, rest⟩ := List.cons.inj split
          have found := ih.2 ⟨d, rest, sep, fun z member => free z (List.mem_cons_of_mem _ member)⟩
          exact ⟨(y, b), found, rfl⟩

theorem cutFirst_char_eq_none_iff {c : Char} {t : Text} : cutFirst (· == c) t = none ↔ c ∉ t := by
  rw [cutFirst_eq_none_iff]
  exact ⟨fun free member => by simpa using free c member, fun free x member =>
    beq_false_of_ne fun same => free (same ▸ member)⟩

/-- The text before the first `c` is the one without it. -/
theorem cutFirst_char_eq_some_iff {c : Char} {t a b : Text} :
    cutFirst (· == c) t = some (a, b) ↔ t = a ++ c :: b ∧ c ∉ a := by
  rw [cutFirst_eq_some_iff]
  constructor
  · rintro ⟨d, split, same, free⟩
    rw [beq_iff_eq.1 same] at split
    exact ⟨split, fun member => by simpa using free c member⟩
  · rintro ⟨split, free⟩
    exact ⟨c, split, beq_self_eq_true c, fun x member =>
      beq_false_of_ne fun same => free (same ▸ member)⟩

/-- The texts before and after the last character that satisfies `q`. -/
def cutLast (q : Char → Bool) : Text → Option (Text × Text)
  | [] => none
  | c :: r =>
    match cutLast q r with
    | some (a, b) => some (c :: a, b)
    | none => if q c then some ([], r) else none

/-- No piece of a text holds a character at which it was cut. -/
theorem eq_false_of_mem_splitOnP {q : Char → Bool} {t piece : Text} (h : piece ∈ t.splitOnP q) :
    ∀ c ∈ piece, q c = false := by
  induction t generalizing piece with
  | nil => simp [List.splitOnP_nil] at h; simp [h]
  | cons y ys ih =>
    rw [List.splitOnP_cons_eq_if_modifyHead] at h
    split at h
    · rcases List.mem_cons.1 h with rfl | h
      · simp
      · exact ih h
    · rename_i hy
      obtain ⟨r, rs, hr⟩ := List.exists_cons_of_ne_nil (List.splitOnP_ne_nil q ys)
      rw [hr, List.modifyHead_cons] at h
      rcases List.mem_cons.1 h with rfl | h
      · intro x hx
        rcases List.mem_cons.1 hx with rfl | hx
        · simpa using hy
        · exact ih (hr ▸ List.mem_cons_self) x hx
      · exact ih (hr ▸ List.mem_cons_of_mem _ h)

/-! ### Numbers, columns and order -/

/-- The decimal digits of a number. -/
def ofNat (n : Nat) : Text := Nat.toDigits 10 n

/-- Spaces on the left up to a width. -/
def alignRight (width : Nat) (t : Text) : Text := t.leftpad width ' '

/-- Spaces on the right up to a width. -/
def alignLeft (width : Nat) (t : Text) : Text := t.rightpad width ' '

/-- Texts in a row, separated by one space. -/
def spaced (ts : List Text) : Text := [' '].intercalate ts

theorem cons_spaced {ts : List Text} (some : ts ≠ []) :
    ' ' :: spaced ts = ts.flatMap (' ' :: ·) := by
  induction ts with
  | nil => exact absurd rfl some
  | cons t ts ih =>
    cases ts with
    | nil => simp [spaced]
    | cons u us =>
      rw [List.flatMap_cons, ← ih (List.cons_ne_nil u us), spaced, spaced,
        List.intercalate_cons_cons]
      simp

theorem mem_spaced {ts : List Text} {c : Char} (member : c ∈ spaced ts) :
    c = ' ' ∨ ∃ t ∈ ts, c ∈ t := by
  have some : ts ≠ [] := by
    rintro rfl
    cases member
  have inside : c ∈ ' ' :: spaced ts := List.mem_cons_of_mem _ member
  rw [cons_spaced some] at inside
  obtain ⟨t, listed, here⟩ := List.mem_flatMap.1 inside
  exact (List.mem_cons.1 here).imp_right fun here => ⟨t, listed, here⟩

/-- Every line followed by a line feed. -/
def ofLines (ls : List Text) : Text := ls.flatMap (· ++ ['\n'])

/-- Order by code points, first difference first. -/
def precedes : Text → Text → Bool
  | [], _ => true
  | _ :: _, [] => false
  | a :: r, b :: s => if a = b then precedes r s else a.val < b.val

/-- Ascending order by code points; equal texts stay in place. -/
def sort (ts : List Text) : List Text := ts.mergeSort precedes

end Text

end BuildMatrix
