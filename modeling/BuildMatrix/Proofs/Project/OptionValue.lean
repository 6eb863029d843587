import BuildMatrix.Project.Printer
import BuildMatrix.Proofs.Text.Trimming

/-! Values of options, as they are written and read back. A value without quotes is put in quotes
when that is needed. A value that holds quotes stands as it is, and then the line is read back only
if its quotes do not hide the comment and the value is not taken for one in quotes: `Bare` says so.
Main statement: `Faithful.valueAndRest_written` reads back what is written, and
`faithful_of_valueAndRest` says that every value that was read can be written. -/

set_option autoImplicit false

namespace BuildMatrix.Project.Line

open Text

variable {a b r t v : Text} {q : Bool}

/-! ### Comments and quotes -/

/-- Whether a text ends inside quotes. -/
def quoteAfter (inQuotes : Bool) : Text → Bool
  | [] => inQuotes
  | c :: r => quoteAfter (if c = '"' then !inQuotes else inQuotes) r

/-- No `#` stands outside quotes. -/
def Sealed (inQuotes : Bool) (t : Text) : Prop := (cutComment inQuotes t).2 = []

/-- The state of the quotes after one more character. -/
def quoteStep (inQuotes : Bool) (c : Char) : Bool := if c = '"' then !inQuotes else inQuotes

theorem cutComment_cons_kept {c : Char} (kept : ¬ (c = '#' ∧ (!q) = true)) (r : Text) :
    cutComment q (c :: r) =
      (c :: (cutComment (quoteStep q c) r).1, (cutComment (quoteStep q c) r).2) := by
  rw [cutComment, if_neg kept]
  rfl

theorem sealed_cons {c : Char} {r : Text} :
    Sealed q (c :: r) ↔ ¬ (c = '#' ∧ (!q) = true) ∧ Sealed (quoteStep q c) r := by
  by_cases cut : c = '#' ∧ (!q) = true
  · rw [Sealed, cutComment, if_pos cut]
    simp [cut]
  · rw [Sealed, cutComment_cons_kept cut]
    exact (and_iff_right cut).symm

theorem quoteAfter_cons (q : Bool) (c : Char) (r : Text) :
    quoteAfter q (c :: r) = quoteAfter (quoteStep q c) r := rfl

theorem quoteAfter_append (q : Bool) (a b : Text) :
    quoteAfter q (a ++ b) = quoteAfter (quoteAfter q a) b := by
  induction a generalizing q with
  | nil => rfl
  | cons c r ih => simp only [List.cons_append, quoteAfter_cons, ih]

theorem quoteAfter_of_not_mem (free : '"' ∉ t) : quoteAfter q t = q := by
  induction t with
  | nil => rfl
  | cons c r ih =>
    have other : ¬ c = '"' := fun same => free (same ▸ List.mem_cons_self)
    rw [quoteAfter, if_neg other, ih fun member => free (List.mem_cons_of_mem _ member)]

theorem cutComment_append (q : Bool) (t : Text) : (cutComment q t).1 ++ (cutComment q t).2 = t := by
  induction t generalizing q with
  | nil => rfl
  | cons c r ih =>
    by_cases cut : c = '#' ∧ (!q) = true
    · rw [cutComment, if_pos cut, List.nil_append]
    · rw [cutComment_cons_kept cut]
      simp [ih]

theorem sealed_cutComment (q : Bool) (t : Text) : Sealed q (cutComment q t).1 := by
  induction t generalizing q with
  | nil => rfl
  | cons c r ih =>
    by_cases cut : c = '#' ∧ (!q) = true
    · rw [cutComment, if_pos cut]
      rfl
    · rw [cutComment_cons_kept cut]
      exact sealed_cons.2 ⟨cut, ih _⟩

theorem cutComment_rest (q : Bool) (t : Text) :
    (cutComment q t).2 = [] ∨
      quoteAfter q (cutComment q t).1 = false ∧ ∃ x, (cutComment q t).2 = '#' :: x := by
  -- the first hash sign outside quotes is where the rest begins
  induction t generalizing q with
  | nil => exact .inl rfl
  | cons c r ih =>
    by_cases cut : c = '#' ∧ (!q) = true
    · right
      rw [cutComment, if_pos cut]
      exact ⟨by simpa [quoteAfter] using cut.2, r, by rw [cut.1]⟩
    · rw [cutComment_cons_kept cut]
      exact ih _

theorem cutComment_append_sealed (closed : Sealed q a) :
    cutComment q (a ++ b) =
      (a ++ (cutComment (quoteAfter q a) b).1, (cutComment (quoteAfter q a) b).2) := by
  induction a generalizing q with
  | nil => rfl
  | cons c r ih =>
    obtain ⟨kept, rest⟩ := sealed_cons.1 closed
    rw [List.cons_append, cutComment_cons_kept kept, ih rest]
    rfl

theorem Sealed.left (closed : Sealed q (a ++ b)) : Sealed q a := by
  induction a generalizing q with
  | nil => rfl
  | cons c r ih =>
    obtain ⟨kept, rest⟩ := sealed_cons.1 closed
    exact sealed_cons.2 ⟨kept, ih rest⟩

theorem sealed_of_not_mem (free : '#' ∉ t) : Sealed q t := by
  induction t generalizing q with
  | nil => rfl
  | cons c r ih =>
    refine sealed_cons.2 ⟨fun same => free (same.1 ▸ List.mem_cons_self), ?_⟩
    exact ih fun member => free (List.mem_cons_of_mem _ member)

theorem not_mem_blanks {c : Char} (blank : Blanks b) (solid : isBlank c = false) : c ∉ b := by
  intro member
  rw [blank c member] at solid
  cases solid

theorem quoteAfter_append_blanks (blank : Blanks b) : quoteAfter q (a ++ b) = quoteAfter q a := by
  rw [quoteAfter_append, quoteAfter_of_not_mem (not_mem_blanks blank rfl)]

/-! ### Values in quotes -/

theorem fullyQuoted?_eq_some_iff {inner rest : Text} :
    fullyQuoted? t = some (inner, rest) ↔
      ∃ after, t = '"' :: (inner ++ '"' :: after) ∧ '"' ∉ inner ∧ rest = trimStart after ∧
        isCommentOrEmpty rest = true := by
  constructor
  · intro h
    unfold fullyQuoted? at h
    split at h
    · -- the inner text ends at the next quote
      split at h
      · cases h
      · rename_i cut
        obtain ⟨rfl, free⟩ := cutFirst_char_eq_some_iff.1 cut
        obtain ⟨ends, same⟩ := Option.ite_none_right_eq_some.1 h
        cases same
        exact ⟨_, rfl, free, rfl, ends⟩
    · cases h
  · rintro ⟨after, rfl, free, rfl, ends⟩
    simp only [fullyQuoted?, cutFirst_char_eq_some_iff.2 ⟨rfl, free⟩]
    exact if_pos ends

theorem trimStart_of_isCommentOrEmpty (ends : isCommentOrEmpty r = true) : trimStart r = r := by
  apply trimStart_eq_self
  intro c here
  cases r with
  | nil => cases here
  | cons d r =>
    cases here
    have same : c = '#' := by simpa [isCommentOrEmpty] using ends
    rw [same]
    rfl

/-- Blanks and a comment after a text do not change whether a comment or nothing follows. -/
theorem isCommentOrEmpty_trimStart_append (t : Text) (blank : Blanks b)
    (ends : isCommentOrEmpty r = true) :
    isCommentOrEmpty (trimStart (t ++ (b ++ r))) = isCommentOrEmpty (trimStart t) := by
  by_cases none : trimStart t = []
  · have blanks := trimStart_eq_nil_iff.1 none
    rw [trimStart_blanks_append blanks, trimStart_blanks_append blank,
      trimStart_of_isCommentOrEmpty ends, ends, none]
    rfl
  · obtain ⟨c, s, shape⟩ := List.exists_cons_of_ne_nil none
    rw [trimStart_append none, shape]
    rfl

theorem fullyQuoted?_append_isSome (blank : Blanks b) (ends : isCommentOrEmpty r = true)
    (h : (fullyQuoted? v).isSome) : (fullyQuoted? (v ++ (b ++ r))).isSome := by
  obtain ⟨⟨inner, rest⟩, found⟩ := Option.isSome_iff_exists.1 h
  obtain ⟨after, rfl, free, rfl, closes⟩ := fullyQuoted?_eq_some_iff.1 found
  refine Option.isSome_iff_exists.2 ⟨(inner, trimStart (after ++ (b ++ r))), ?_⟩
  refine fullyQuoted?_eq_some_iff.2 ⟨after ++ (b ++ r), by simp, free, rfl, ?_⟩
  rw [isCommentOrEmpty_trimStart_append after blank ends, closes]

/-- A quote opens the quotes, and without another one they stay open. -/
theorem quoteAfter_opened (free : '"' ∉ t) : quoteAfter false ('"' :: t) = true :=
  quoteAfter_of_not_mem free

/-- Blanks and a comment do not begin with a quote. -/
theorem blanks_append_ne_quote (blank : Blanks b) (ends : isCommentOrEmpty r = true) (t : Text) :
    b ++ r ≠ '"' :: t := by
  intro same
  cases b with
  | nil =>
    rw [List.nil_append] at same
    rw [same] at ends
    simp [isCommentOrEmpty] at ends
  | cons c b =>
    have first := blank c List.mem_cons_self
    rw [(List.cons.inj same).1] at first
    exact absurd first (by decide)

/-- A value whose quotes are all closed is not taken for one in quotes because of what follows. -/
theorem fullyQuoted?_append_eq_none (blank : Blanks b) (ends : isCommentOrEmpty r = true)
    (closed : quoteAfter false v = false) (h : fullyQuoted? v = none) :
    fullyQuoted? (v ++ (b ++ r)) = none := by
  by_contra some
  obtain ⟨⟨inner, rest⟩, found⟩ := Option.ne_none_iff_exists'.1 some
  obtain ⟨after, split, free, rfl, closes⟩ := fullyQuoted?_eq_some_iff.1 found
  cases v with
  | nil => exact blanks_append_ne_quote blank ends _ split
  | cons c v =>
    rw [List.cons_append] at split
    obtain ⟨rfl, tails⟩ := List.cons.inj split
    -- the second quote stands after the value, which is then open, or within it
    rcases List.append_eq_append_iff.1 tails with ⟨more, rfl, -⟩ | ⟨more, rfl, tail⟩
    · rw [quoteAfter_opened fun member => free (List.mem_append_left _ member)] at closed
      cases closed
    · cases more with
      | nil =>
        rw [List.append_nil, quoteAfter_opened free] at closed
        cases closed
      | cons d more =>
        rw [List.cons_append] at tail
        obtain ⟨rfl, rfl⟩ := List.cons.inj tail
        rw [isCommentOrEmpty_trimStart_append more blank ends] at closes
        have quoted := fullyQuoted?_eq_some_iff.2 ⟨more, rfl, free, rfl, closes⟩
        rw [h] at quoted
        cases quoted

theorem valueAndRest_quoted (free : '"' ∉ v) (blank : Blanks b) (ends : isCommentOrEmpty r = true) :
    valueAndRest ('"' :: (v ++ '"' :: (b ++ r))) = (v, r) := by
  have rest : trimStart (b ++ r) = r := by
    rw [trimStart_blanks_append blank, trimStart_of_isCommentOrEmpty ends]
  have found := fullyQuoted?_eq_some_iff.2 ⟨b ++ r, rfl, free, rest.symm, ends⟩
  rw [valueAndRest, found]

/-! ### Values as they stand -/

/-- A value that is read back when it is written as it stands, a comment after it or not. -/
structure Bare (v : Text) (comment : Option Text) : Prop where
  unquoted : fullyQuoted? v = none
  closed : Sealed false v
  even : comment.isSome = true → quoteAfter false v = false

theorem bare_of_not_mem (noQuote : '"' ∉ v) (noHash : '#' ∉ v) (comment : Option Text) :
    Bare v comment where
  unquoted := by
    by_contra some
    obtain ⟨⟨inner, rest⟩, found⟩ := Option.ne_none_iff_exists'.1 some
    obtain ⟨after, rfl, -⟩ := fullyQuoted?_eq_some_iff.1 found
    exact noQuote List.mem_cons_self
  closed := sealed_of_not_mem noHash
  even := fun _ => quoteAfter_of_not_mem noQuote

/-- What can follow a value: nothing, or blanks and the comment. -/
def Follows (comment : Option Text) (b r : Text) : Prop :=
  match comment with
  | none => b = [] ∧ r = []
  | some _ => Blanks b ∧ ∃ x, r = '#' :: x

theorem Follows.blanks {comment : Option Text} (h : Follows comment b r) : Blanks b := by
  cases comment with
  | none => simp [h.1, Blanks]
  | some c => exact h.1

theorem Follows.ends {comment : Option Text} (h : Follows comment b r) :
    isCommentOrEmpty r = true := by
  cases comment with
  | none => rw [h.2]; rfl
  | some c =>
    obtain ⟨-, x, rfl⟩ := h
    rfl

theorem Bare.valueAndRest_eq {comment : Option Text} (h : Bare v comment) (trimmed : v.Trimmed)
    (follows : Follows comment b r) : valueAndRest (v ++ (b ++ r)) = (v, r) := by
  cases comment with
  | none =>
    obtain ⟨rfl, rfl⟩ := follows
    have all : (cutComment false v).1 = v := by
      have whole := cutComment_append false v
      rwa [h.closed, List.append_nil] at whole
    simp only [List.append_nil, valueAndRest, h.unquoted, all, trimmed.trim_eq]
    rw [h.closed]
  | some c =>
    have even := h.even rfl
    obtain ⟨blank, x, rfl⟩ := follows
    have unquoted := fullyQuoted?_append_eq_none (r := '#' :: x) blank rfl even h.unquoted
    have noHash : Sealed (quoteAfter false v) b := sealed_of_not_mem (not_mem_blanks blank rfl)
    have outside : quoteAfter (quoteAfter false v) b = false := by
      rw [quoteAfter_of_not_mem (not_mem_blanks blank rfl), even]
    have cut : cutComment false ('#' :: x) = ([], '#' :: x) := rfl
    have parts : cutComment false (v ++ (b ++ '#' :: x)) = (v ++ b, '#' :: x) := by
      rw [cutComment_append_sealed h.closed, cutComment_append_sealed noHash, outside, cut,
        List.append_nil]
    rw [valueAndRest, unquoted]
    simp only [parts, trim_append_blanks blank, trimmed.trim_eq]

/-! ### Writing and reading -/

/-- A value and a comment that can be written on one line and read back. -/
structure Faithful (v : Text) (comment : Option Text) : Prop where
  trimmed : v.Trimmed
  bare : '"' ∈ v → Bare v comment
  remark : ∀ c ∈ comment, c.Trimmed ∧ c ≠ []

theorem writtenValue_of_quote (quote : '"' ∈ v) : writtenValue v = v := by
  have plain : needsQuotes v = false := by simp [needsQuotes, quote]
  rw [writtenValue, plain]
  rfl

theorem Faithful.valueAndRest_written {comment : Option Text} (h : Faithful v comment)
    (follows : Follows comment b r) : valueAndRest (writtenValue v ++ (b ++ r)) = (v, r) := by
  by_cases quote : '"' ∈ v
  · rw [writtenValue_of_quote quote]
    exact (h.bare quote).valueAndRest_eq h.trimmed follows
  · by_cases hash : '#' ∈ v
    · have quoted : needsQuotes v = true := by simp [needsQuotes, quote, hash]
      rw [writtenValue, quoted, if_pos rfl]
      simpa using valueAndRest_quoted quote follows.blanks follows.ends
    · have plain : needsQuotes v = false := by simp [needsQuotes, hash, h.trimmed.trim_eq]
      rw [writtenValue, plain]
      exact (bare_of_not_mem quote hash comment).valueAndRest_eq h.trimmed follows

theorem comment?_eq (c : Text) (trimmed : c.Trimmed) (some : c ≠ []) :
    comment? ('#' :: ' ' :: c) = Option.some c := by
  have inner : trim (' ' :: c) = c := by
    rw [← List.singleton_append, trim_blanks_append (by simp [Blanks]; rfl), trimmed.trim_eq]
  have outer : trimStart ('#' :: ' ' :: c) = '#' :: ' ' :: c := trimStart_eq_self (by simp; rfl)
  simp only [comment?, outer, inner, if_neg some]

theorem comment?_trimmed (r : Text) : ∀ c ∈ comment? r, c.Trimmed ∧ c ≠ [] := by
  intro c here
  unfold comment? at here
  split at here
  · split at here
    · cases here
    · rename_i some
      cases here
      exact ⟨trimmed_trim _, some⟩
  · cases here

theorem comment?_nil : comment? [] = none := rfl

/-! ### The parts of a line that was read -/

theorem subset_valueAndRest (t : Text) : (valueAndRest t).1 ⊆ t ∧ (valueAndRest t).2 ⊆ t := by
  cases found : fullyQuoted? t with
  | some parts =>
    obtain ⟨inner, rest⟩ := parts
    obtain ⟨after, rfl, -, rfl, -⟩ := fullyQuoted?_eq_some_iff.1 found
    rw [valueAndRest, found]
    constructor
    · intro c member
      exact List.mem_cons_of_mem _ (List.mem_append_left _ member)
    · intro c member
      have inside := mem_of_mem_trimStart member
      exact List.mem_cons_of_mem _ (List.mem_append_right _ (List.mem_cons_of_mem _ inside))
  | none =>
    have whole := cutComment_append false t
    rw [valueAndRest, found]
    constructor
    · intro c member
      rw [← whole]
      exact List.mem_append_left _ (mem_of_mem_trim member)
    · intro c member
      rw [← whole]
      exact List.mem_append_right _ member

theorem subset_comment? {rest remark : Text} (h : comment? rest = some remark) : remark ⊆ rest := by
  unfold comment? at h
  split at h
  · rename_i x start
    split at h
    · cases h
    · cases h
      intro c member
      apply mem_of_mem_trimStart
      rw [start]
      exact List.mem_cons_of_mem _ (mem_of_mem_trim member)
  · cases h

theorem option?_eq_some {line : Text} {parts : OptionParts} (h : option? line = some parts) :
    ∃ before sep after, trim line = before ++ sep :: after ∧
      parts = ⟨trim before, (valueAndRest (trimStart after)).1,
        comment? (valueAndRest (trimStart after)).2⟩ := by
  unfold option? at h
  split at h
  · cases h
  · rename_i before after cut
    obtain ⟨sep, split, -⟩ := cutFirst_eq_some_iff.1 cut
    dsimp only at h
    split at h
    · exact ⟨before, sep, after, split, (Option.some.inj h).symm⟩
    · cases h

/-- A value that is not in quotes as a whole is what comes before the comment, up to blanks at its
end. -/
theorem bare_cutComment (first : ∀ c ∈ t.head?, isBlank c = false) (plain : fullyQuoted? t = none) :
    Bare (trim (cutComment false t).1) (comment? (cutComment false t).2) := by
  have whole := cutComment_append false t
  have closed := sealed_cutComment false t
  have rest := cutComment_rest false t
  generalize (cutComment false t).1 = a at whole closed rest
  generalize (cutComment false t).2 = r at whole rest
  have start : ∀ c ∈ a.head?, isBlank c = false := by
    intro c here
    apply first
    rw [← whole, List.head?_append, Option.mem_def.1 here]
    rfl
  obtain ⟨b, blank, split⟩ := exists_trimEnd a
  rw [trimEnd_eq_trim start] at split
  generalize trim a = v at split
  subst split
  have ends : isCommentOrEmpty r = true := by
    rcases rest with rfl | ⟨-, x, rfl⟩ <;> rfl
  refine ⟨?_, closed.left, fun commented => ?_⟩
  · -- in quotes by itself, it would have been so with the comment after it
    by_contra some
    have again := fullyQuoted?_append_isSome blank ends (Option.isSome_iff_ne_none.2 some)
    rw [← List.append_assoc, whole, plain] at again
    cases again
  · rcases rest with rfl | ⟨even, -⟩
    · rw [comment?_nil] at commented
      cases commented
    · rwa [quoteAfter_append_blanks blank] at even

/-- Whatever value a line gives, it can be written and read back with its comment. -/
theorem faithful_of_valueAndRest (first : ∀ c ∈ t.head?, isBlank c = false) :
    Faithful (trim (valueAndRest t).1) (comment? (valueAndRest t).2) where
  trimmed := trimmed_trim _
  remark := comment?_trimmed _
  bare := by
    intro quote
    cases found : fullyQuoted? t with
    | some parts =>
      obtain ⟨inner, rest⟩ := parts
      obtain ⟨after, -, free, -⟩ := fullyQuoted?_eq_some_iff.1 found
      rw [valueAndRest, found] at quote
      exact absurd (mem_of_mem_trim quote) free
    | none =>
      have parts : valueAndRest t = (trim (cutComment false t).1, (cutComment false t).2) := by
        rw [valueAndRest, found]
      rw [parts, (trimmed_trim _).trim_eq]
      exact bare_cutComment first found

end BuildMatrix.Project.Line
