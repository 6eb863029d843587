import BuildMatrix.Text.Basic
import Mathlib.Data.List.DropRight

/-! Trimming as a normal form. A text is trimmed if no blank stands at either end. `trim` makes any
text trimmed and leaves a trimmed one as it is, and blanks next to a text never reach the result. -/

set_option autoImplicit false

namespace BuildMatrix.Text

/-- No blank stands at either end. -/
structure Trimmed (t : Text) : Prop where
  first : ∀ c ∈ t.head?, isBlank c = false
  last : ∀ c ∈ t.getLast?, isBlank c = false

def Blanks (t : Text) : Prop := ∀ c ∈ t, isBlank c = true

variable {a b t : Text} {c : Char}

theorem blanks_replicate (n : Nat) : Blanks (List.replicate n ' ') := by
  intro c member
  rw [List.eq_of_mem_replicate member]
  rfl

theorem blanks_spaces (t : Text) (n : Nat) : ∃ b, Blanks b ∧ alignLeft n t = t ++ b :=
  ⟨_, blanks_replicate _, rfl⟩

theorem mem_alignLeft {n : Nat} (member : c ∈ alignLeft n t) : c ∈ t ∨ c = ' ' := by
  rcases List.mem_append.1 member with member | member
  · exact .inl member
  · exact .inr (List.eq_of_mem_replicate member)

theorem isBlank_of_isAlpha (letter : c.isAlpha = true) : isBlank c = false := by
  have either : 65 ≤ c.toNat ∧ c.toNat ≤ 90 ∨ 97 ≤ c.toNat ∧ c.toNat ≤ 122 := by
    rcases Bool.or_eq_true_iff.1 letter with upper | lower
    · exact .inl (of_decide_eq_true upper)
    · obtain ⟨low, high⟩ := Bool.and_eq_true_iff.1 lower
      exact .inr ⟨of_decide_eq_true low, of_decide_eq_true high⟩
  simp only [isBlank, Bool.or_eq_false_iff, Bool.and_eq_false_iff, decide_eq_false_iff_not,
    beq_eq_false_iff_ne]
  omega

theorem isBlank_of_isDigit (digit : c.isDigit = true) : isBlank c = false := by
  obtain ⟨least, greatest⟩ : 48 ≤ c.toNat ∧ c.toNat ≤ 57 := Char.isDigit_iff_toNat.1 digit
  simp only [isBlank, Bool.or_eq_false_iff, Bool.and_eq_false_iff, decide_eq_false_iff_not,
    beq_eq_false_iff_ne]
  omega

theorem toLower_of_isBlank (blank : isBlank c = true) : c.toLower = c := by
  refine dif_neg fun upper => ?_
  have letter : c.isAlpha = true := Bool.or_eq_true_iff.2 (.inl (decide_eq_true upper))
  rw [isBlank_of_isAlpha letter] at blank
  cases blank

/-! ### The left end -/

theorem trimStart_eq_self (first : ∀ c ∈ t.head?, isBlank c = false) : trimStart t = t := by
  cases t with
  | nil => rfl
  | cons c r => simp [trimStart, first c rfl]

theorem isBlank_head?_trimStart (t : Text) : ∀ c ∈ (trimStart t).head?, isBlank c = false := by
  intro c here
  have stopped := List.head?_dropWhile_not isBlank t
  rw [trimStart] at here
  rw [Option.mem_def.1 here] at stopped
  exact stopped

theorem trimStart_blanks_append (blank : Blanks b) : trimStart (b ++ a) = trimStart a := by
  induction b with
  | nil => rfl
  | cons c r ih =>
    have first := blank c List.mem_cons_self
    have rest := ih fun d member => blank d (List.mem_cons_of_mem _ member)
    simpa [trimStart, first] using rest

theorem trimStart_append (more : trimStart a ≠ []) : trimStart (a ++ b) = trimStart a ++ b := by
  rw [trimStart, List.dropWhile_append, if_neg]
  · rfl
  · simpa [trimStart] using more

theorem exists_trimStart (t : Text) : ∃ b, Blanks b ∧ t = b ++ trimStart t :=
  ⟨t.takeWhile isBlank, fun _ member => List.mem_takeWhile_imp member,
    List.takeWhile_append_dropWhile.symm⟩

theorem trimStart_eq_nil_iff : trimStart t = [] ↔ Blanks t := by
  simp [trimStart, Blanks]

theorem mem_of_mem_trimStart (member : c ∈ trimStart t) : c ∈ t :=
  List.dropWhile_subset _ member

/-! ### The right end -/

theorem trimEnd_eq_rdropWhile (t : Text) : trimEnd t = t.rdropWhile isBlank := rfl

theorem trimEnd_eq_self (last : ∀ c ∈ t.getLast?, isBlank c = false) : trimEnd t = t := by
  rw [trimEnd_eq_rdropWhile, List.rdropWhile_eq_self_iff]
  intro some
  simp [last _ (List.getLast?_eq_some_getLast some)]

theorem isBlank_getLast?_trimEnd (t : Text) : ∀ c ∈ (trimEnd t).getLast?, isBlank c = false := by
  intro c here
  have some : t.rdropWhile isBlank ≠ [] := fun none => by simp [trimEnd_eq_rdropWhile, none] at here
  have stopped := List.rdropWhile_last_not isBlank t some
  rw [trimEnd_eq_rdropWhile, List.getLast?_eq_some_getLast some] at here
  cases here
  simpa using stopped

theorem trimEnd_append_blanks (blank : Blanks b) : trimEnd (a ++ b) = trimEnd a := by
  induction b using List.reverseRecOn with
  | nil => simp
  | append_singleton r c ih =>
    have last : isBlank c = true := blank c (by simp)
    rw [← List.append_assoc, trimEnd_eq_rdropWhile, List.rdropWhile_concat_pos _ _ _ last]
    exact ih fun d member => blank d (List.mem_append_left _ member)

theorem exists_trimEnd (t : Text) : ∃ b, Blanks b ∧ t = trimEnd t ++ b :=
  ⟨t.rtakeWhile isBlank, fun _ member => List.mem_rtakeWhile_imp member,
    (List.rdropWhile_append_rtakeWhile ..).symm⟩

theorem trimEnd_append_cons (a b : Text) (solid : isBlank c = false) :
    trimEnd (a ++ c :: b) = a ++ c :: trimEnd b := by
  obtain ⟨blanks, blank, split⟩ := exists_trimEnd b
  -- the last character that is left is one of the trimmed text, or the solid one itself
  have last : ∀ d ∈ (a ++ c :: trimEnd b).getLast?, isBlank d = false := by
    intro d here
    by_cases none : trimEnd b = []
    · simp [none] at here
      rwa [← here]
    · refine isBlank_getLast?_trimEnd b d ?_
      rw [List.getLast?_append, List.getLast?_cons_of_ne_nil none] at here
      simpa [List.getLast?_eq_some_getLast none] using here
  calc trimEnd (a ++ c :: b)
      = trimEnd ((a ++ c :: trimEnd b) ++ blanks) := by
        rw [List.append_assoc, List.cons_append, ← split]
    _ = a ++ c :: trimEnd b := by rw [trimEnd_append_blanks blank, trimEnd_eq_self last]

/-- What stands before a solid character is kept. -/
theorem trimEnd_append (a : Text) (member : c ∈ b) (solid : isBlank c = false) :
    trimEnd (a ++ b) = a ++ trimEnd b := by
  obtain ⟨front, back, rfl⟩ := List.append_of_mem member
  rw [← List.append_assoc, trimEnd_append_cons _ _ solid, trimEnd_append_cons _ _ solid,
    List.append_assoc]

/-- Whoever skips spaces does not see one that a text begins with. -/
theorem dropWhile_trimEnd_cons {q : Char → Bool} (skips : q ' ' = true) (t : Text) :
    (trimEnd (' ' :: t)).dropWhile q = (trimEnd t).dropWhile q := by
  obtain ⟨b, blank, split⟩ := exists_trimEnd t
  have shorter : trimEnd (' ' :: t) = trimEnd (' ' :: trimEnd t) := by
    conv_lhs => rw [split, ← List.cons_append, trimEnd_append_blanks blank]
  rw [shorter]
  by_cases none : trimEnd t = []
  · rw [none]
    rfl
  · have last : ∀ c ∈ (' ' :: trimEnd t).getLast?, isBlank c = false := by
      rw [List.getLast?_cons_of_ne_nil none]
      exact isBlank_getLast?_trimEnd t
    rw [trimEnd_eq_self last, List.dropWhile_cons_of_pos skips]

theorem mem_of_mem_trimEnd (member : c ∈ trimEnd t) : c ∈ t :=
  (List.rdropWhile_prefix isBlank t).subset member

/-! ### Both ends -/

theorem Trimmed.trim_eq (h : t.Trimmed) : trim t = t := by
  rw [trim, trimStart_eq_self h.first, trimEnd_eq_self h.last]

theorem head?_trimEnd_of_solid (first : ∀ c ∈ t.head?, isBlank c = false) :
    (trimEnd t).head? = t.head? := by
  cases t with
  | nil => rfl
  | cons c r =>
    have kept := trimEnd_append_cons [] r (first c rfl)
    simp only [List.nil_append] at kept
    rw [kept]
    rfl

theorem trimmed_trim (t : Text) : Trimmed (trim t) where
  first := by
    rw [trim, head?_trimEnd_of_solid (isBlank_head?_trimStart t)]
    exact isBlank_head?_trimStart t
  last := isBlank_getLast?_trimEnd _

theorem mem_of_mem_trim (member : c ∈ trim t) : c ∈ t :=
  mem_of_mem_trimStart (mem_of_mem_trimEnd member)

theorem exists_trim (t : Text) : ∃ a b, Blanks a ∧ Blanks b ∧ t = a ++ trim t ++ b := by
  obtain ⟨a, before, start⟩ := exists_trimStart t
  obtain ⟨b, after, rest⟩ := exists_trimEnd (trimStart t)
  refine ⟨a, b, before, after, ?_⟩
  rw [List.append_assoc, trim, ← rest, ← start]

theorem trim_isInfix (t : Text) : trim t <:+: t :=
  (List.rdropWhile_prefix ..).isInfix.trans (List.dropWhile_suffix _).isInfix

theorem trim_eq_nil_iff : trim t = [] ↔ Blanks t := by
  constructor
  · intro none
    obtain ⟨b, blank, split⟩ := exists_trimEnd (trimStart t)
    have gone : Blanks (trimStart t) := by
      rw [trim] at none
      rwa [split, none]
    obtain ⟨a, before, whole⟩ := exists_trimStart t
    intro c member
    rw [whole] at member
    exact (List.mem_append.1 member).elim (before c) (gone c)
  · intro blank
    rw [trim, trimStart_eq_nil_iff.2 blank]
    rfl

theorem trim_blanks_append (blank : Blanks b) : trim (b ++ a) = trim a := by
  rw [trim, trimStart_blanks_append blank, trim]

/-- The ends can be trimmed in either order. -/
theorem trimStart_trimEnd (t : Text) : trimStart (trimEnd t) = trim t := by
  obtain ⟨blanks, blank, split⟩ := exists_trimStart t
  by_cases none : trimStart t = []
  · have gone : trimEnd ([] ++ blanks) = [] := trimEnd_append_blanks blank
    rw [none, List.append_nil] at split
    rw [trim, none, split]
    simp only [List.nil_append] at gone
    rw [gone]
    rfl
  · obtain ⟨c, r, shape⟩ := List.exists_cons_of_ne_nil none
    have solid : isBlank c = false := isBlank_head?_trimStart t c (by simp [shape])
    have whole : trimEnd (c :: r) = c :: trimEnd r := trimEnd_append_cons [] r solid
    rw [trim, shape, whole]
    rw [shape] at split
    rw [split, trimEnd_append_cons _ _ solid, trimStart_blanks_append blank,
      trimStart_eq_self (by simpa using solid)]

theorem trim_append_blanks (blank : Blanks b) : trim (a ++ b) = trim a := by
  rw [← trimStart_trimEnd, trimEnd_append_blanks blank, trimStart_trimEnd]

theorem trimEnd_eq_trim (first : ∀ c ∈ t.head?, isBlank c = false) : trimEnd t = trim t := by
  rw [trim, trimStart_eq_self first]

/-! ### Words -/

theorem words_append_cons (blank : isBlank c = true) (a b : Text) :
    words (a ++ c :: b) = words a ++ words b := by
  rw [words, List.splitOnP_append_cons a b blank, List.filter_append, words, words]

theorem words_of_solid (filled : t ≠ []) (solid : ∀ c ∈ t, isBlank c = false) :
    words t = [t] := by
  rw [words, List.splitOnP_eq_singleton solid, List.filter_cons_of_pos (by simpa using filled),
    List.filter_nil]

end BuildMatrix.Text
