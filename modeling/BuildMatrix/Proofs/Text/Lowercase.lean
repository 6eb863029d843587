import BuildMatrix.Text.Basic
import BuildMatrix.Text.LetterCase

/-! Lower case component by component. A slash is neither cased nor ignorable, so the letters around
a capital sigma are looked for within its component, and no other character becomes a slash or a
dot. -/

set_option autoImplicit false

namespace BuildMatrix.Text

variable {a b before : Text} {c d : Char}

theorem startsCased_append_separator (a b : Text) :
    startsCased (a ++ '/' :: b) = startsCased a := by
  have solid : isCaseIgnorable '/' = false := by decide +kernel
  have caseless : isCased '/' = false := by decide +kernel
  induction a with
  | nil => simp [startsCased, solid, caseless]
  | cons c r ih =>
    cases skipped : isCaseIgnorable c with
    | true => simpa [startsCased, skipped] using ih
    | false => simp [startsCased, skipped]

theorem lowercaseAfter_separator (before rest : Text) :
    lowercaseAfter (a ++ '/' :: before) rest = lowercaseAfter a rest := by
  -- the letters passed stand in reverse, so the separator stays behind those after it
  induction rest generalizing a with
  | nil => rfl
  | cons c r ih =>
    have later := ih (a := c :: a)
    rw [List.cons_append] at later
    rw [lowercaseAfter, lowercaseAfter, later, sigmaBetween, sigmaBetween,
      startsCased_append_separator]

theorem lowercaseAfter_append_separator (before a b : Text) :
    lowercaseAfter before (a ++ '/' :: b) = lowercaseAfter before a ++ '/' :: lowercase b := by
  induction a generalizing before with
  | nil =>
    have rest := lowercaseAfter_separator (a := []) before b
    have slash : lowerChar '/' = ['/'] := by decide +kernel
    have other : ('/' == 'Σ') = false := by decide
    have first : lowercaseAfter before ('/' :: b) = '/' :: lowercaseAfter ('/' :: before) b := by
      rw [lowercaseAfter, other, if_neg Bool.false_ne_true, slash]
      rfl
    exact first.trans (congrArg (List.cons '/') rest)
  | cons c r ih =>
    rw [List.cons_append, lowercaseAfter, lowercaseAfter, ih, sigmaBetween, sigmaBetween,
      startsCased_append_separator, List.append_assoc]

theorem lowercase_append_separator (a b : Text) :
    lowercase (a ++ '/' :: b) = lowercase a ++ '/' :: lowercase b :=
  lowercaseAfter_append_separator [] a b

/-! ### Characters below the letters -/

/-- All that runs shift lies above the letters of the ASCII range, and is a character. -/
theorem lowerRuns_bounds : ∀ r ∈ lowerRuns,
    65 ≤ r.first + r.shift ∧ (r.last + r.shift < 0xD800 ∨
      0xDFFF < r.first + r.shift ∧ r.last + r.shift < 0x110000) := by
  decide +kernel

/-- Lower case makes no character below the letters. -/
theorem eq_of_mem_lowerChar (member : d ∈ lowerChar c) (low : d.toNat < 65) : c = d := by
  unfold lowerChar at member
  split at member
  · simp only [List.mem_cons, List.not_mem_nil, or_false] at member
    rcases member with rfl | rfl
    · exact absurd low (by decide)
    · exact absurd low (by decide)
  rw [List.mem_singleton.1 member] at low ⊢
  unfold lowerCodePoint at low ⊢
  cases found : lowerRuns.find? (·.covers c.toNat) with
  -- what no run covers stays as it is, and what a run shifts is no longer low
  | none => exact (Char.ofNat_toNat c).symm
  | some r =>
    obtain ⟨above, valid⟩ := lowerRuns_bounds r (List.mem_of_find?_eq_some found)
    have covered := List.find?_some found
    simp only [CaseRun.covers, Bool.and_eq_true, decide_eq_true_eq] at covered
    have isChar : ((c.toNat + r.shift).toNat).isValidChar := by
      unfold Nat.isValidChar
      omega
    have code : (Char.ofNat (c.toNat + r.shift).toNat).toNat = (c.toNat + r.shift).toNat := by
      rw [Char.ofNat, dif_pos isChar]
      rfl
    rw [found] at low
    dsimp only at low
    omega

theorem exists_cons_lowerChar (c : Char) : ∃ d r, lowerChar c = d :: r := by
  unfold lowerChar
  split
  · exact ⟨_, _, rfl⟩
  · exact ⟨_, _, rfl⟩

theorem lowerChar_of_low (member : d ∈ lowerChar c) (low : d.toNat < 65) : lowerChar c = [c] := by
  have same := eq_of_mem_lowerChar member low
  unfold lowerChar at member ⊢
  split at member
  · rename_i capital
    rw [beq_iff_eq.1 capital] at same
    rw [← same] at low
    exact absurd low (by decide)
  · rename_i plain
    rw [if_neg plain, ← List.mem_singleton.1 member, same]

theorem mem_of_mem_lowercaseAfter {t : Text} (member : d ∈ lowercaseAfter before t)
    (low : d.toNat < 65) : d ∈ t := by
  induction t generalizing before with
  | nil => cases member
  | cons c r ih =>
    rw [lowercaseAfter] at member
    rcases List.mem_append.1 member with here | later
    · split at here
      · -- neither form of the small sigma is that low
        have small : 65 ≤ d.toNat := by
          rw [List.mem_singleton.1 here, sigmaBetween]
          split <;> decide
        omega
      · rw [eq_of_mem_lowerChar here low]
        exact List.mem_cons_self
    · exact List.mem_cons_of_mem _ (ih later)

theorem lowercaseAfter_of_low {t : Text} (low : ∀ d ∈ lowercaseAfter before t, d.toNat < 65) :
    lowercaseAfter before t = t := by
  induction t generalizing before with
  | nil => rfl
  | cons c r ih =>
    rw [lowercaseAfter] at low ⊢
    have rest := ih fun d member => low d (List.mem_append_right _ member)
    have first := fun d member => low d (List.mem_append_left _ member)
    rw [rest]
    split
    · rename_i sigma
      rw [if_pos sigma] at first
      have small := first _ (List.mem_singleton_self _)
      rw [sigmaBetween] at small
      split at small <;> exact absurd small (by decide)
    · rename_i other
      rw [if_neg other] at first
      obtain ⟨d, more, shape⟩ := exists_cons_lowerChar c
      have member : d ∈ lowerChar c := by simp [shape]
      rw [lowerChar_of_low member (first d member)]
      rfl

theorem head?_of_head?_lowercase {t : Text} (here : (lowercase t).head? = some d)
    (low : d.toNat < 65) : t.head? = some d := by
  cases t with
  | nil => cases here
  | cons c r =>
    rw [lowercase, lowercaseAfter] at here
    split at here
    · rw [sigmaBetween] at here
      split at here <;> cases here <;> exact absurd low (by decide)
    · obtain ⟨e, more, shape⟩ := exists_cons_lowerChar c
      have first : e ∈ lowerChar c := by simp [shape]
      rw [shape] at here
      cases here
      rw [eq_of_mem_lowerChar first low]
      rfl

/-- Only the text itself becomes a text without letters. -/
theorem eq_of_lowercase_eq_low {t : Text} (same : lowercase t = a) (low : ∀ d ∈ a, d.toNat < 65) :
    t = a := by
  rw [← same]
  refine (lowercaseAfter_of_low fun d member => low d ?_).symm
  rw [← same]
  exact member

/-- The components of a text in lower case are those of the text, in lower case. -/
theorem splitOn_lowercase (t : Text) :
    (lowercase t).splitOn '/' = (t.splitOn '/').map lowercase := by
  have free : ∀ a : Text, '/' ∉ a → '/' ∉ lowercase a := fun a free inside =>
    free (mem_of_mem_lowercaseAfter inside (by decide))
  cases cut : cutFirst (· == '/') t with
  | none =>
    have none : '/' ∉ t := cutFirst_char_eq_none_iff.1 cut
    rw [List.splitOn_eq_singleton none, List.splitOn_eq_singleton (free t none)]
    rfl
  | some parts =>
    obtain ⟨a, b⟩ := parts
    obtain ⟨shape, none⟩ := cutFirst_char_eq_some_iff.1 cut
    rw [shape, lowercase_append_separator,
      List.splitOn_append_cons_self_of_not_mem none,
      List.splitOn_append_cons_self_of_not_mem (free a none), splitOn_lowercase b]
    rfl
termination_by t.length
decreasing_by
  have length := congrArg List.length shape
  rw [List.length_append, List.length_cons] at length
  omega

end BuildMatrix.Text
