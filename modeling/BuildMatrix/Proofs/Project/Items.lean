import BuildMatrix.Project.Printer
import BuildMatrix.Project.Item
import BuildMatrix.Proofs.Text.Lines

/-! The items of a project file. Whatever the text is, its items are well formed: their texts are
trimmed and without line feeds, and an entry holds no comment. Lines of a section that are written
with indentation are read as items of that section again. -/

set_option autoImplicit false

namespace BuildMatrix.Project

open Text Line

variable {t l p : Text} {s : Section} {after : Bool}

/-- What a line of a section can hold: text without blanks around it that is not a comment. -/
structure IsContent (t : Text) : Prop where
  trimmed : t.Trimmed
  filled : t ≠ []
  plain : t.head? ≠ some '#'
  noFeed : '\n' ∉ t

theorem IsContent.exists_cons (h : IsContent t) :
    ∃ c r, t = c :: r ∧ isBlank c = false ∧ c ≠ '#' := by
  obtain ⟨c, r, rfl⟩ := List.exists_cons_of_ne_nil h.filled
  exact ⟨c, r, rfl, h.trimmed.first c rfl, fun same => h.plain (by rw [same]; rfl)⟩

/-! ### Entries -/

theorem prefix_beforeComment (after : Bool) (t : Text) : beforeComment after t <+: t := by
  induction t generalizing after with
  | nil => exact List.prefix_rfl
  | cons c r ih =>
    rw [beforeComment]
    split
    · exact List.nil_prefix
    · exact List.cons_prefix_cons.2 ⟨rfl, ih _⟩

theorem beforeComment_stable (whole : beforeComment after t = t) (start : p <+: t) :
    beforeComment after p = p := by
  induction t generalizing after p with
  | nil => rw [List.prefix_nil.1 start]; rfl
  | cons c r ih =>
    rw [beforeComment] at whole
    split at whole
    · cases whole
    · rename_i kept
      cases p with
      | nil => rfl
      | cons d q =>
        obtain ⟨rfl, rest⟩ := List.cons_prefix_cons.1 start
        rw [beforeComment, if_neg kept, ih (List.cons.inj whole).2 rest]

theorem beforeComment_beforeComment (after : Bool) (t : Text) :
    beforeComment after (beforeComment after t) = beforeComment after t := by
  induction t generalizing after with
  | nil => rfl
  | cons c r ih =>
    by_cases cut : c = '#' ∧ after
    · rw [beforeComment, if_pos cut]
      rfl
    · rw [beforeComment, if_neg cut, beforeComment, if_neg cut, ih]

/-- An entry that has no comment left. -/
structure IsEntry (e : Text) : Prop extends IsContent e where
  kept : Line.entry e = e

theorem isEntry_entry (h : IsContent t) : IsEntry (Line.entry t) := by
  obtain ⟨c, r, rfl, solid, plain⟩ := h.exists_cons
  have inside : beforeComment false (c :: r) = c :: beforeComment (isBlankAscii c) r := by
    simp [beforeComment]
  have shape : Line.entry (c :: r) = c :: trimEnd (beforeComment (isBlankAscii c) r) := by
    rw [Line.entry, h.trimmed.trim_eq, inside]
    exact trimEnd_append_cons [] _ solid
  -- trimming shortens what comes before the comment, and so leaves no comment in it
  have start : Line.entry (c :: r) <+: beforeComment false (c :: r) := by
    rw [Line.entry, h.trimmed.trim_eq]
    exact List.rdropWhile_prefix ..
  have trimmed : (Line.entry (c :: r)).Trimmed := by
    constructor
    · rw [shape]
      rintro d ⟨⟩
      exact solid
    · exact isBlank_getLast?_trimEnd _
  refine ⟨⟨trimmed, ?_, ?_, ?_⟩, ?_⟩
  · rw [shape]
    exact List.cons_ne_nil _ _
  · rw [shape]
    simpa using plain
  · intro feed
    exact h.noFeed ((start.trans (prefix_beforeComment _ _)).subset feed)
  · have whole := beforeComment_stable (beforeComment_beforeComment false (c :: r)) start
    calc Line.entry (Line.entry (c :: r))
        = trimEnd (beforeComment false (Line.entry (c :: r))) := by
          rw [Line.entry, trimmed.trim_eq]
      _ = Line.entry (c :: r) := by rw [whole, trimEnd_eq_self trimmed.last]

/-! ### Headers -/

/-- Blanks at its end do not make a line a header, or another one. -/
theorem isHeader_trimEnd (filled : trim t ≠ []) : Line.isHeader (trimEnd t) = Line.isHeader t := by
  obtain ⟨blanks, -, split⟩ := exists_trimEnd t
  cases line : trimEnd t with
  | nil =>
    rw [← trimStart_trimEnd, line] at filled
    exact absurd rfl filled
  | cons c r =>
    rw [split, line]
    rfl

theorem Section.ofHeader?_trimEnd (t : Text) : ofHeader? (trimEnd t) = ofHeader? t := by
  obtain ⟨blanks, blank, split⟩ := exists_trimEnd t
  have name : trim (t.takeWhile (· ≠ ':')) = trim ((trimEnd t).takeWhile (· ≠ ':')) := by
    conv_lhs => rw [split, List.takeWhile_append]
    split
    · rename_i whole
      have kept := (List.takeWhile_prefix (· ≠ ':')).eq_of_length whole
      rw [kept, trim_append_blanks fun c member => blank c (List.takeWhile_subset _ member)]
    · rfl
  rw [ofHeader?, ofHeader?, name]

/-! ### Well-formed items -/

def Item.WellFormed : Item → Prop
  | .option line => IsContent line
  | .commentedOption line => line.Trimmed ∧ '\n' ∉ line
  | .entry _ e => IsEntry e
  | .pair _ line => IsContent line
  | _ => True

theorem Item.ofLine_eq (s : Section) (raw : Text) :
    Item.ofLine s raw =
      if trim raw = [] then (s, none)
      else if (trim raw).head? = some '#' then (s, Item.ofComment (trim raw) s)
      else if Line.isHeader (trimEnd raw) then
        match Section.ofHeader? (trimEnd raw) with
        | some next => (next, none)
        | none => (.unknown, some (.unknownSection (headerName (trimEnd raw))))
      else (s, Item.ofContent (trim raw) s) := by
  rw [← trimStart_trimEnd]
  rfl

theorem Item.wellFormed_ofComment (trimmed : t.Trimmed) (noFeed : '\n' ∉ t) :
    ∀ i ∈ Item.ofComment t s, i.WellFormed := by
  intro i here
  cases s with
  | preamble =>
    simp only [Item.ofComment] at here
    split at here
    · cases here
    · split at here <;> cases here <;> trivial
  | options =>
    obtain ⟨raw, cut, rfl⟩ := Option.map_eq_some_iff.1 here
    have rest : trimEnd unrecognizedMark ++ raw = t := List.isPrefixOf?_eq_some_iff_append_eq.1 cut
    refine ⟨⟨isBlank_head?_trimStart raw, fun c last => ?_⟩, fun feed => ?_⟩
    · -- what is left after the mark ends as the comment does
      obtain ⟨blanks, -, split⟩ := exists_trimStart raw
      apply trimmed.last c
      rw [← rest, split, ← List.append_assoc, List.getLast?_append, Option.mem_def.1 last]
      rfl
    · exact noFeed (rest ▸ List.mem_append_right _ (mem_of_mem_trimStart feed))
  | _ => cases here

theorem Item.wellFormed_ofContent (h : IsContent t) : ∀ i ∈ Item.ofContent t s, i.WellFormed := by
  intro i here
  cases s with
  | unknown => cases here
  | preamble => cases here; trivial
  | options => cases here; exact h
  | files scope => cases here; exact isEntry_entry h
  | pairs kind => cases here; exact h

theorem Item.wellFormed_ofLine {raw : Text} (noFeed : '\n' ∉ raw) :
    ∀ i ∈ (Item.ofLine s raw).2, i.WellFormed := by
  have free : '\n' ∉ trim raw := fun feed => noFeed (mem_of_mem_trim feed)
  intro i
  rw [Item.ofLine_eq]
  split
  · simp
  rename_i filled
  split
  · exact Item.wellFormed_ofComment (trimmed_trim raw) free i
  rename_i plain
  split
  · split
    · simp
    · rintro ⟨⟩
      trivial
  · exact Item.wellFormed_ofContent ⟨trimmed_trim raw, filled, plain, free⟩ i

/-! ### The items of several lines -/

/-- The items of lines without their numbers. -/
def Item.inLines (s : Section) : List Text → List Item
  | [] => []
  | l :: rest => (Item.ofLine s l).2.toList ++ Item.inLines (Item.ofLine s l).1 rest

/-- The section that lines lead to. -/
def Item.sectionAfter (s : Section) : List Text → Section
  | [] => s
  | l :: rest => Item.sectionAfter (Item.ofLine s l).1 rest

/-- The items of a project file without their line numbers. -/
def Item.inText (t : Text) : List Item := Item.inLines .preamble (Text.lines t)

theorem Item.ofLines_map_snd (s : Section) (ls : List (Nat × Text)) :
    (Item.ofLines s ls).map Prod.snd = Item.inLines s (ls.map Prod.snd) := by
  -- a line may lead to another section, so the section is not fixed in the induction
  induction ls generalizing s with
  | nil => rfl
  | cons l rest ih =>
    obtain ⟨n, l⟩ := l
    simp only [Item.ofLines, List.map_append, List.map_map, List.map_cons, Item.inLines]
    rw [ih]
    congr 1
    exact List.map_id _

theorem Item.ofText_map_snd (t : Text) : (Item.ofText t).map Prod.snd = Item.inText t := by
  rw [Item.ofText, Item.ofLines_map_snd, Text.numbered_map_snd, Item.inText]

theorem Item.inLines_append (s : Section) (a b : List Text) :
    Item.inLines s (a ++ b) = Item.inLines s a ++ Item.inLines (Item.sectionAfter s a) b := by
  induction a generalizing s with
  | nil => rfl
  | cons l rest ih =>
    rw [List.cons_append, Item.inLines, Item.inLines, Item.sectionAfter, ih, List.append_assoc]

theorem Item.sectionAfter_append (s : Section) (a b : List Text) :
    Item.sectionAfter s (a ++ b) = Item.sectionAfter (Item.sectionAfter s a) b := by
  induction a generalizing s with
  | nil => rfl
  | cons l rest ih => exact ih _

theorem Item.ofLines_cons (s : Section) (n : Nat) (l : Text) (rest : List (Nat × Text)) :
    Item.ofLines s ((n, l) :: rest) =
      (Item.ofLine s l).2.toList.map (n, ·) ++ Item.ofLines (Item.ofLine s l).1 rest := rfl

theorem Item.ofLines_append (s : Section) (a b : List (Nat × Text)) :
    Item.ofLines s (a ++ b) =
      Item.ofLines s a ++ Item.ofLines (Item.sectionAfter s (a.map Prod.snd)) b := by
  induction a generalizing s with
  | nil => rfl
  | cons x rest ih =>
    obtain ⟨n, l⟩ := x
    rw [List.cons_append, Item.ofLines_cons, Item.ofLines_cons, ih, List.append_assoc]
    rfl

/-- The numbers of the lines are those of their items. -/
theorem Item.ofLines_map_fst (f : Nat → Nat) (s : Section) (ls : List (Nat × Text)) :
    Item.ofLines s (ls.map fun x => (f x.1, x.2)) =
      (Item.ofLines s ls).map fun x => (f x.1, x.2) := by
  induction ls generalizing s with
  | nil => rfl
  | cons x rest ih =>
    obtain ⟨n, l⟩ := x
    rw [List.map_cons, Item.ofLines_cons, Item.ofLines_cons, List.map_append, ← ih, List.map_map]
    rfl

/-- An item comes from a line with its number. -/
theorem Item.exists_of_mem_ofLines {ls : List (Nat × Text)} {x : Nat × Item}
    (member : x ∈ Item.ofLines s ls) :
    ∃ a l b, ls = a ++ (x.1, l) :: b ∧
      x.2 ∈ (Item.ofLine (Item.sectionAfter s (a.map Prod.snd)) l).2 := by
  induction ls generalizing s with
  | nil => cases member
  | cons y rest ih =>
    obtain ⟨n, l⟩ := y
    rcases List.mem_append.1 member with here | later
    · obtain ⟨i, this, rfl⟩ := List.mem_map.1 here
      exact ⟨[], l, rest, rfl, Option.mem_toList.1 this⟩
    · obtain ⟨a, k, b, split, this⟩ := ih later
      exact ⟨(n, l) :: a, k, b, by rw [split]; rfl, this⟩

theorem Item.wellFormed_inLines {ls : List Text} (free : ∀ l ∈ ls, '\n' ∉ l) :
    ∀ i ∈ Item.inLines s ls, i.WellFormed := by
  induction ls generalizing s with
  | nil => simp [Item.inLines]
  | cons l rest ih =>
    intro i member
    rcases List.mem_append.1 member with here | later
    · exact Item.wellFormed_ofLine (free l List.mem_cons_self) i (Option.mem_toList.1 here)
    · exact ih (fun m inside => free m (List.mem_cons_of_mem _ inside)) i later

theorem Item.wellFormed_inText (t : Text) : ∀ i ∈ Item.inText t, i.WellFormed :=
  Item.wellFormed_inLines fun _ member => feed_not_mem_of_mem_lines member

/-! ### Written lines -/

theorem blanks_indent : Blanks indent := blanks_replicate 4

/-- An indented line is no header. -/
theorem isHeader_trimEnd_indent (t : Text) : Line.isHeader (trimEnd (indent ++ t)) = false := by
  have start : trimEnd (indent ++ t) <+: ' ' :: (' ' :: ' ' :: ' ' :: t) :=
    List.rdropWhile_prefix ..
  cases line : trimEnd (indent ++ t) with
  | nil => rfl
  | cons c r =>
    rw [line] at start
    rw [(List.cons_prefix_cons.1 start).1]
    rfl

end BuildMatrix.Project
