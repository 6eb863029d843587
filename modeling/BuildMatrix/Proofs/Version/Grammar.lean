import BuildMatrix.Proofs.Text.Trimming
import BuildMatrix.Version
import Mathlib.Data.List.Forall2
import Mathlib.Data.List.Induction

/-! The notation of versions, said without the code that reads it: one to three numbers with periods
between them, each of them decimal digits, perhaps after a plus sign, of a value that has 16 bits.
Reading accepts just these texts, with blanks around them, and what a version is written as is one
of them. -/

set_option autoImplicit false

namespace BuildMatrix.Version

open Text

/-- Decimal digits and their value. Leading zeros add nothing to it. -/
inductive Numeral : Text → Nat → Prop where
  | digit {d : Nat} : d < 10 → Numeral [d.digitChar] d
  | next {t : Text} {n d : Nat} :
      Numeral t n → d < 10 → Numeral (t ++ [d.digitChar]) (10 * n + d)

/-- One part of a version. -/
inductive IsPart : Text → UInt16 → Prop where
  | plain {t : Text} {n : Nat} : Numeral t n → n ≤ 65535 → IsPart t (.ofNat n)
  | signed {t : Text} {n : Nat} : Numeral t n → n ≤ 65535 → IsPart ('+' :: t) (.ofNat n)

/-- One to three parts with periods between them. Missing ones are zero. -/
inductive Spells : Text → Version → Prop where
  | one {a : Text} {x : UInt16} : IsPart a x → Spells a ⟨x, 0, 0⟩
  | two {a b : Text} {x y : UInt16} : IsPart a x → IsPart b y → Spells (a ++ '.' :: b) ⟨x, y, 0⟩
  | three {a b c : Text} {x y z : UInt16} :
      IsPart a x → IsPart b y → IsPart c z → Spells (a ++ '.' :: b ++ '.' :: c) ⟨x, y, z⟩

/-- A text that gives a version, with blanks around it. -/
def IsVersion (t : Text) (v : Version) : Prop :=
  ∃ before core after, Blanks before ∧ Blanks after ∧ t = before ++ core ++ after ∧ Spells core v

variable {t : Text} {n : Nat} {x : UInt16} {v : Version} {c : Char}

/-! ### Numerals -/

theorem digitsValue_eq (t : Text) : digitsValue t = Nat.ofDigitChars 10 t 0 := by
  simp only [digitsValue, Nat.ofDigitChars_eq_foldl, Nat.mul_comm 10]

theorem digitsValue_concat (t : Text) {d : Nat} (digit : d < 10) :
    digitsValue (t ++ [d.digitChar]) = 10 * digitsValue t + d := by
  rw [digitsValue_eq, digitsValue_eq, Nat.ofDigitChars_append,
    Nat.ofDigitChars_cons_digitChar_of_lt_ten digit, Nat.ofDigitChars_nil]

theorem exists_digitChar (digit : c.isDigit = true) : ∃ d < 10, d.digitChar = c := by
  obtain ⟨least, greatest⟩ : 48 ≤ c.toNat ∧ c.toNat ≤ 57 := Char.isDigit_iff_toNat.1 digit
  refine ⟨c.toNat - 48, by omega, Char.toNat_inj.1 ?_⟩
  rw [Nat.toNat_digitChar_of_lt_ten (by omega)]
  omega

/-- A row of digits is a numeral for its value, and nothing else is one. -/
theorem numeral_iff :
    Numeral t n ↔ t ≠ [] ∧ (∀ c ∈ t, c.isDigit = true) ∧ digitsValue t = n := by
  constructor
  · intro numeral
    induction numeral with
    | @digit d digit =>
      have value : digitsValue ([] ++ [d.digitChar]) = d :=
        (digitsValue_concat [] digit).trans (Nat.zero_add d)
      exact ⟨List.cons_ne_nil _ _, by simp [Nat.isDigit_digitChar, digit], value⟩
    | @next t n d numeral digit ih =>
      obtain ⟨-, digits, value⟩ := ih
      refine ⟨by simp, ?_, by rw [digitsValue_concat t digit, value]⟩
      exact List.forall_mem_append.2 ⟨digits, by simp [Nat.isDigit_digitChar, digit]⟩
  · rintro ⟨filled, digits, rfl⟩
    -- the last digit was written last
    induction t using List.reverseRecOn with
    | nil => exact absurd rfl filled
    | append_singleton t c ih =>
      obtain ⟨before, last⟩ := List.forall_mem_append.1 digits
      obtain ⟨d, digit, rfl⟩ := exists_digitChar (last c List.mem_cons_self)
      rw [digitsValue_concat t digit]
      by_cases first : t = []
      · rw [first]
        have single : Numeral [d.digitChar] d := .digit digit
        simpa [digitsValue] using single
      · exact (ih first before).next digit

theorem numeral_ofNat (n : Nat) : Numeral (Text.ofNat n) n :=
  numeral_iff.2 ⟨Nat.toDigits_ne_nil,
    fun _ member => Nat.isDigit_of_mem_toDigits (by decide) (by decide) member,
    (digitsValue_eq _).trans Nat.ofDigitChars_ten_toDigits⟩

/-! ### Parts -/

/-- A number without a sign. -/
def number? (t : Text) : Option UInt16 :=
  if t ≠ [] ∧ t.all Char.isDigit ∧ digitsValue t < 65536 then some (.ofNat (digitsValue t))
  else none

theorem part?_sign (t : Text) : part? ('+' :: t) = number? t := rfl

theorem part?_of_head? (unsigned : t.head? ≠ some '+') : part? t = number? t := by
  unfold part?
  dsimp only
  split
  · exact absurd rfl unsigned
  · rfl

theorem number?_eq_some_iff :
    number? t = some x ↔ ∃ n, Numeral t n ∧ n ≤ 65535 ∧ .ofNat n = x := by
  constructor
  · intro read
    obtain ⟨⟨filled, digits, small⟩, same⟩ := Option.ite_none_right_eq_some.1 read
    exact ⟨digitsValue t, numeral_iff.2 ⟨filled, List.all_eq_true.1 digits, rfl⟩,
      Nat.le_of_lt_succ small, Option.some.inj same⟩
  · rintro ⟨n, numeral, small, rfl⟩
    obtain ⟨filled, digits, rfl⟩ := numeral_iff.1 numeral
    exact if_pos ⟨filled, List.all_eq_true.2 digits, Nat.lt_succ_of_le small⟩

/-- A digit is no sign. -/
theorem Numeral.head?_ne (numeral : Numeral t n) : t.head? ≠ some '+' := by
  intro sign
  have digit := (numeral_iff.1 numeral).2.1 '+' (List.mem_of_mem_head? sign)
  exact absurd digit (by decide)

theorem part?_eq_some_iff : part? t = some x ↔ IsPart t x := by
  constructor
  · intro read
    by_cases sign : t.head? = some '+'
    · obtain ⟨r, rfl⟩ := List.head?_eq_some_iff.1 sign
      rw [part?_sign] at read
      obtain ⟨n, numeral, small, rfl⟩ := number?_eq_some_iff.1 read
      exact .signed numeral small
    · rw [part?_of_head? sign] at read
      obtain ⟨n, numeral, small, rfl⟩ := number?_eq_some_iff.1 read
      exact .plain numeral small
  · intro part
    cases part with
    | plain numeral small =>
      rw [part?_of_head? numeral.head?_ne]
      exact number?_eq_some_iff.2 ⟨_, numeral, small, rfl⟩
    | signed numeral small =>
      rw [part?_sign]
      exact number?_eq_some_iff.2 ⟨_, numeral, small, rfl⟩

theorem IsPart.sign_or_digit (part : IsPart t x) : ∀ c ∈ t, c = '+' ∨ c.isDigit = true := by
  intro c member
  cases part with
  | plain numeral => exact .inr ((numeral_iff.1 numeral).2.1 c member)
  | signed numeral => exact (List.mem_cons.1 member).imp_right ((numeral_iff.1 numeral).2.1 c)

theorem IsPart.period_not_mem (part : IsPart t x) : '.' ∉ t :=
  fun member => absurd (part.sign_or_digit '.' member) (by decide)

theorem isPart_ofNat (x : UInt16) : IsPart (Text.ofNat x.toNat) x := by
  have part := IsPart.plain (numeral_ofNat x.toNat) (Nat.le_of_lt_succ x.toNat_lt)
  rwa [UInt16.ofNat_toNat] at part

/-! ### Versions -/

theorem mapM_part?_eq_some_iff {ps : List Text} {xs : List UInt16} :
    ps.mapM part? = some xs ↔ List.Forall₂ IsPart ps xs := by
  induction ps generalizing xs with
  | nil => simp [List.forall₂_nil_left_iff, eq_comm]
  | cons p ps ih =>
    simp only [List.mapM_cons, Option.bind_eq_bind, Option.pure_def, Option.bind_eq_some_iff,
      Option.some.injEq, part?_eq_some_iff, ih]
    constructor
    · rintro ⟨x, here, rest, later, rfl⟩
      exact .cons here later
    · rintro (_ | ⟨here, later⟩)
      exact ⟨_, here, _, later, rfl⟩

/-- What a text spells is what its parts give. -/
theorem spells_iff :
    Spells t v ↔ ∃ ps xs, ['.'].intercalate ps = t ∧ List.Forall₂ IsPart ps xs ∧
      ofParts? xs = some v := by
  constructor
  · intro spells
    cases spells with
    | @one a x p => exact ⟨[t], [x], by simp, by simp [p], rfl⟩
    | @two a b x y p q => exact ⟨[a, b], [x, y], by simp, by simp [p, q], rfl⟩
    | @three a b c x y z p q r =>
      exact ⟨[a, b, c], [x, y, z], by simp, by simp [p, q, r], rfl⟩
  · rintro ⟨ps, xs, rfl, parts, version⟩
    unfold ofParts? at version
    split at version
    · cases version
      obtain _ | ⟨p, _ | _⟩ := parts
      simpa using Spells.one p
    · cases version
      obtain _ | ⟨p, _ | ⟨q, _ | _⟩⟩ := parts
      simpa using Spells.two p q
    · cases version
      obtain _ | ⟨p, _ | ⟨q, _ | ⟨r, _ | _⟩⟩⟩ := parts
      simpa using Spells.three p q r
    · cases version

theorem spells_iff_splitOn :
    Spells t v ↔ ((t.splitOn '.').mapM part?).bind ofParts? = some v := by
  rw [spells_iff]
  simp only [Option.bind_eq_some_iff, mapM_part?_eq_some_iff]
  constructor
  · rintro ⟨ps, xs, rfl, parts, version⟩
    have free : ∀ p ∈ ps, '.' ∉ p := by
      intro p member
      obtain ⟨i, bound, rfl⟩ := List.getElem_of_mem member
      exact (parts.get bound (parts.length_eq ▸ bound)).period_not_mem
    have some : ps ≠ [] := by
      rintro rfl
      cases parts
      cases version
    rw [List.splitOn_intercalate '.' free some]
    exact ⟨xs, parts, version⟩
  · rintro ⟨xs, parts, version⟩
    exact ⟨t.splitOn '.', xs, List.intercalate_splitOn '.', parts, version⟩

theorem IsPart.solid (part : IsPart t x) : ∀ c ∈ t, isBlank c = false := by
  intro c member
  rcases part.sign_or_digit c member with rfl | digit
  · rfl
  · exact isBlank_of_isDigit digit

/-- No blank stands in what a version is spelled with. -/
theorem Spells.solid (spells : Spells t v) : ∀ c ∈ t, isBlank c = false := by
  have period : isBlank '.' = false := rfl
  cases spells with
  | one p => exact p.solid
  | two p q => simpa [or_imp, forall_and, period] using ⟨p.solid, q.solid⟩
  | three p q r => simpa [or_imp, forall_and, period] using ⟨p.solid, q.solid, r.solid⟩

/-- The texts that give a version are just those in its notation. -/
theorem ofText?_eq_some_iff : ofText? t = some v ↔ IsVersion t v := by
  rw [ofText?, ← spells_iff_splitOn]
  constructor
  · intro spells
    obtain ⟨before, after, first, last, split⟩ := exists_trim t
    exact ⟨before, trim t, after, first, last, split, spells⟩
  · rintro ⟨before, core, after, first, last, rfl, spells⟩
    have trimmed : Trimmed core :=
      ⟨fun c here => spells.solid c (List.mem_of_mem_head? here),
        fun c here => spells.solid c (List.mem_of_mem_getLast? here)⟩
    rwa [trim_append_blanks last, trim_blanks_append first, trimmed.trim_eq]

/-! ### What versions are written as -/

theorem spells_text (v : Version) : Spells v.text v :=
  .three (isPart_ofNat v.major) (isPart_ofNat v.minor) (isPart_ofNat v.patch)

theorem ofText?_text (v : Version) : ofText? v.text = some v :=
  ofText?_eq_some_iff.2 ⟨[], v.text, [], List.forall_mem_nil _, List.forall_mem_nil _, by simp,
    spells_text v⟩

/-- Zeros in front do not count, and a number that does not fit is none. -/
example : ofText? " +01.65535\t" = some ⟨1, 65535, 0⟩ ∧ ofText? "1.65536" = none := by
  decide +kernel

end BuildMatrix.Version
