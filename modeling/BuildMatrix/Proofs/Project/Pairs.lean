import BuildMatrix.Proofs.Project.RoundTrip
import BuildMatrix.Proofs.Project.Separators

/-! Pairs. A pair is written with one blank after its colon. Both texts of a pair that was read hold
no comment of their own, and the source ends where the next colon stands, so the written pair is cut
in the same place. Only a destination that starts with `#` is lost: after that blank it is a
comment, and the line is reported as one without a separator. -/

set_option autoImplicit false

namespace BuildMatrix.Project

open Text Line

variable {disk : Disk} {p m : Project} {file source a b t u : Text} {q : Text × Text}
  {ps qs : List (Text × Text)} {kind : PairKind} {after : Bool}

/-! ### Texts without a comment -/

/-- Whether a comment can start after a text: whether a blank of the ASCII range ends it. -/
def blankAfter (after : Bool) : Text → Bool
  | [] => after
  | c :: r => blankAfter (isBlankAscii c) r

def Uncommented (after : Bool) (t : Text) : Prop := beforeComment after t = t

theorem uncommented_cons {c : Char} {r : Text} :
    Uncommented after (c :: r) ↔ ¬ (c = '#' ∧ after) ∧ Uncommented (isBlankAscii c) r := by
  by_cases cut : c = '#' ∧ after
  · simp [Uncommented, beforeComment, cut]
  · rw [Uncommented, Uncommented, beforeComment, if_neg cut, List.cons.injEq]
    simp [cut]

theorem beforeComment_append (kept : Uncommented after a) (b : Text) :
    beforeComment after (a ++ b) = a ++ beforeComment (blankAfter after a) b := by
  -- the state between two characters is whether the first one was a blank
  induction a generalizing after with
  | nil => rfl
  | cons c r ih =>
    obtain ⟨plain, rest⟩ := uncommented_cons.1 kept
    rw [List.cons_append, beforeComment, if_neg plain, ih rest]
    rfl

/-- A comment starts more easily after a blank. -/
theorem Uncommented.of_blank (h : Uncommented after t) : Uncommented false t := by
  cases t with
  | nil => rfl
  | cons c r => exact uncommented_cons.2 ⟨by simp, (uncommented_cons.1 h).2⟩

theorem Uncommented.of_head? (h : Uncommented after t) (plain : t.head? ≠ some '#') (blank : Bool) :
    Uncommented blank t := by
  cases t with
  | nil => rfl
  | cons c r =>
    refine uncommented_cons.2 ⟨fun hash => plain ?_, (uncommented_cons.1 h).2⟩
    rw [hash.1]
    rfl

theorem Uncommented.of_append (h : Uncommented after (a ++ b)) :
    Uncommented (blankAfter after a) b := by
  have kept : Uncommented after a := beforeComment_stable h (List.prefix_append a b)
  have whole := beforeComment_append kept b
  rw [h] at whole
  exact (List.append_cancel_left whole).symm

theorem Uncommented.of_isInfix (h : Uncommented after u) (inside : t <:+: u) :
    Uncommented false t := by
  obtain ⟨x, y, rfl⟩ := inside
  -- what follows does not count, and what comes before counts by its last character
  have upTo : Uncommented after (x ++ t) := beforeComment_stable h (List.prefix_append _ y)
  exact upTo.of_append.of_blank

theorem IsEntry.uncommented {e : Text} (h : IsEntry e) : Uncommented false e := by
  have trimmed : trimEnd (beforeComment false e) = e := by
    rw [← h.trimmed.trim_eq]
    exact h.kept.trans h.trimmed.trim_eq.symm
  -- what is cut off twice and left over is all of it
  have inner : e <+: beforeComment false e := by
    nth_rewrite 1 [← trimmed]
    exact List.rdropWhile_prefix ..
  exact (prefix_beforeComment false e).sublist.antisymm inner.sublist

/-! ### Where a pair is cut -/

/-- A pair with this source is cut after it: it has no colon, or only that of a drive. -/
def EndsAtColon (t : Text) : Prop :=
  ':' ∉ t ∨ ∃ d s r, t = d :: ':' :: s :: r ∧ d.isAlpha = true ∧ isSlash s = true ∧ ':' ∉ r

theorem colon_ne_slash {s : Char} (slash : isSlash s = true) : s ≠ ':' := by
  rintro rfl
  exact absurd slash (by decide)

theorem solid_of_slash {s : Char} (slash : isSlash s = true) : isBlank s = false := by
  simp only [isSlash, Bool.or_eq_true, beq_iff_eq] at slash
  rcases slash with rfl | rfl <;> rfl

theorem endsAtColon_of_cutPair (cut : cutPair t = some (a, b)) : EndsAtColon a := by
  unfold cutPair at cut
  split at cut
  · rename_i d s r
    split at cut
    · rename_i drive
      obtain ⟨⟨x, y⟩, found, same⟩ := Option.map_eq_some_iff.1 cut
      cases same
      have apart : (s == ':') = false := beq_eq_false_iff_ne.2 (colon_ne_slash drive.2)
      have free := (cutFirst_char_eq_some_iff.1 found).2
      simp only [Text.cutFirst, apart, Bool.false_eq_true, if_false] at found
      obtain ⟨⟨x', y'⟩, -, same⟩ := Option.map_eq_some_iff.1 found
      cases same
      exact .inr
        ⟨d, s, x', rfl, drive.1, drive.2, fun member => free (List.mem_cons_of_mem _ member)⟩
    · exact .inl (cutFirst_char_eq_some_iff.1 cut).2
  · exact .inl (cutFirst_char_eq_some_iff.1 cut).2

theorem EndsAtColon.trim (h : EndsAtColon t) (first : ∀ c ∈ t.head?, isBlank c = false) :
    EndsAtColon (Text.trim t) := by
  rcases h with free | ⟨d, s, r, rfl, letter, slash, free⟩
  · exact .inl fun member => free (mem_of_mem_trim member)
  · have kept : Text.trim (d :: ':' :: s :: r) = d :: ':' :: s :: trimEnd r := by
      rw [Text.trim, trimStart_eq_self first]
      exact trimEnd_append_cons [d, ':'] r (solid_of_slash slash)
    rw [kept]
    exact .inr ⟨d, s, _, rfl, letter, slash, fun member => free (mem_of_mem_trimEnd member)⟩

theorem EndsAtColon.cutPair_eq (h : EndsAtColon t) (apart : ∀ c ∈ u.head?, isSlash c = false) :
    cutPair (t ++ ':' :: u) = some (t, u) := by
  rcases h with free | ⟨d, s, r, rfl, letter, slash, free⟩
  · have plain : Text.cutFirst (· == ':') (t ++ ':' :: u) = some (t, u) :=
      cutFirst_char_eq_some_iff.2 ⟨rfl, free⟩
    unfold cutPair
    split
    · rename_i d s r same
      rw [same] at plain
      split
      · -- a slash after the first colon is not what is written
        rename_i drive
        exfalso
        match t, same with
        | [], same =>
          obtain ⟨rfl, -⟩ := List.cons.inj same
          exact absurd drive.1 (by decide)
        | [c], same =>
          obtain ⟨-, rest⟩ := List.cons.inj same
          obtain ⟨-, rfl⟩ := List.cons.inj rest
          rw [apart s rfl] at drive
          exact absurd drive.2 (by decide)
        | c :: x :: l, same =>
          obtain ⟨-, rest⟩ := List.cons.inj same
          obtain ⟨rfl, -⟩ := List.cons.inj rest
          exact free (by simp)
      · exact plain
    · exact plain
  · have rest : ':' ∉ s :: r := by
      rintro member
      rcases List.mem_cons.1 member with same | member
      · exact colon_ne_slash slash same.symm
      · exact free member
    have cut : Text.cutFirst (· == ':') (s :: (r ++ ':' :: u)) = some (s :: r, u) :=
      cutFirst_char_eq_some_iff.2 ⟨rfl, rest⟩
    simp [cutPair, letter, slash, cut]

/-! ### Pairs that were read -/

/-- What a line gives as a pair. -/
structure IsReadPair (q : Text × Text) : Prop extends IsPair q where
  uncommented : Uncommented false q.1 ∧ Uncommented false q.2
  ends : EndsAtColon q.1

theorem isReadPair_of_pair? {line : Text} (h : IsContent line) (found : Line.pair? line = some q) :
    IsReadPair q := by
  have entry := isEntry_entry h
  have pair := isPair_of_pair? h found
  obtain ⟨a, b, cut, -, -, rfl⟩ := pair?_eq_some found
  have split := cutPair_eq_some cut
  have whole := entry.uncommented
  have left : a <+: Line.entry line := by
    rw [split]
    exact List.prefix_append ..
  have right : b <:+ Line.entry line := by
    rw [split]
    exact (List.suffix_cons ..).trans (List.suffix_append ..)
  refine ⟨pair, ⟨whole.of_isInfix ((trim_isInfix a).trans left.isInfix),
    whole.of_isInfix ((trim_isInfix b).trans right.isInfix)⟩, ?_⟩
  apply (endsAtColon_of_cutPair cut).trim
  intro c here
  apply entry.trimmed.first c
  rw [split]
  exact List.mem_head?_append_of_mem_head? here

/-- The line that a pair is written as, without its indentation. -/
def pairText (q : Text × Text) : Text := q.1 ++ ": " ++ q.2

/-- The destination of the pair starts like a comment, and is written where one can start. -/
def Hidden (q : Text × Text) : Prop := q.2.head? = some '#'

instance : DecidablePred Hidden := fun q => inferInstanceAs (Decidable (q.2.head? = some '#'))

theorem IsReadPair.isContent_pairText (h : IsReadPair q) : IsContent (pairText q) := h.isContent

/-- What is left of the line before a comment in it. -/
theorem IsReadPair.beforeComment_pairText (h : IsReadPair q) :
    beforeComment false (pairText q) = q.1 ++ ':' :: ' ' :: beforeComment true q.2 := by
  rw [pairText, List.append_assoc, beforeComment_append h.uncommented.1]
  rfl

/-- A written pair is read as itself, unless its destination is taken for a comment. -/
theorem IsReadPair.pair?_pairText (h : IsReadPair q) :
    Line.pair? (pairText q) = if Hidden q then none else some q := by
  have content := h.isContent_pairText
  have before := h.beforeComment_pairText
  split
  · -- the destination is cut off, and what is left ends with the colon
    rename_i hidden
    have cut : beforeComment true q.2 = [] := by
      cases destination : q.2 with
      | nil => rfl
      | cons c r =>
        rw [Hidden, destination] at hidden
        cases hidden
        rfl
    have entry : Line.entry (pairText q) = q.1 ++ [':'] := by
      rw [Line.entry, content.trimmed.trim_eq, before, cut, trimEnd_append_cons _ _ rfl]
      rfl
    have blank : trim ([] : Text) = [] := rfl
    simp [Line.pair?, entry, h.ends.cutPair_eq (u := []) (by simp), blank]
  · -- all of it is kept, and the blank after the colon is trimmed
    rename_i shown
    have kept : Uncommented true q.2 := h.uncommented.2.of_head? shown true
    have text : pairText q = q.1 ++ ':' :: ' ' :: q.2 := by
      rw [pairText, List.append_assoc]
      rfl
    have entry : Line.entry (pairText q) = q.1 ++ ':' :: ' ' :: q.2 := by
      rw [Line.entry, content.trimmed.trim_eq, before, kept, ← text,
        trimEnd_eq_self content.trimmed.last]
    have apart : ∀ c ∈ (' ' :: q.2).head?, isSlash c = false := by
      rintro c ⟨⟩
      rfl
    have destination : trim (' ' :: q.2) = q.2 := by
      have gap : Blanks ([' '] : Text) := fun c member => List.mem_singleton.1 member ▸ rfl
      exact (trim_blanks_append gap).trans h.destination.trim_eq
    simp [Line.pair?, entry, h.ends.cutPair_eq apart, h.source.trimmed.trim_eq, destination,
      h.source.filled, h.filled]

/-! ### Lists of pairs -/

theorem mem_keys_insertPair {x : Text} (a b : Text) (ps : List (Text × Text)) :
    x ∈ (insertPair a b ps).map Prod.fst ↔ x = a ∨ x ∈ ps.map Prod.fst := by
  induction ps with
  | nil => simp [insertPair]
  | cons first rest ih =>
    obtain ⟨s, d⟩ := first
    unfold insertPair
    split
    · rename_i same
      simp [same]
    · rw [List.map_cons, List.mem_cons, ih, List.map_cons, List.mem_cons]
      tauto

theorem nodup_insertPair (distinct : (ps.map Prod.fst).Nodup) (a b : Text) :
    ((insertPair a b ps).map Prod.fst).Nodup := by
  induction ps with
  | nil => simp [insertPair]
  | cons first rest ih =>
    obtain ⟨s, d⟩ := first
    obtain ⟨fresh, later⟩ := List.nodup_cons.1 distinct
    unfold insertPair
    split
    · -- a source that is known keeps its place
      rename_i same
      rw [← same]
      exact distinct
    · rename_i other
      refine List.nodup_cons.2 ⟨fun member => ?_, ih later⟩
      rcases (mem_keys_insertPair a b rest).1 member with same | member
      · exact other same
      · exact fresh member

theorem insertPair_of_not_mem (fresh : a ∉ ps.map Prod.fst) (b : Text) :
    insertPair a b ps = ps ++ [(a, b)] := by
  induction ps with
  | nil => rfl
  | cons first rest ih =>
    obtain ⟨s, d⟩ := first
    rw [List.map_cons, List.mem_cons, not_or] at fresh
    rw [insertPair, if_neg (Ne.symm fresh.1), ih fresh.2, List.cons_append]

theorem insertPairs_concat (ps qs : List (Text × Text)) (q : Text × Text) :
    insertPairs ps (qs ++ [q]) = insertPair q.1 q.2 (insertPairs ps qs) := by
  simp [insertPairs]

theorem nodup_insertPairs (qs : List (Text × Text)) :
    ((insertPairs [] qs).map Prod.fst).Nodup := by
  induction qs using List.reverseRecOn with
  | nil => exact List.nodup_nil
  | append_singleton qs q ih =>
    rw [insertPairs_concat]
    exact nodup_insertPair ih q.1 q.2

/-- Pairs with different sources are all kept. -/
theorem insertPairs_of_nodup (distinct : (qs.map Prod.fst).Nodup) : insertPairs [] qs = qs := by
  induction qs using List.reverseRecOn with
  | nil => rfl
  | append_singleton qs q ih =>
    rw [List.map_append, List.nodup_append] at distinct
    obtain ⟨before, -, apart⟩ := distinct
    rw [insertPairs_concat, ih before]
    exact insertPair_of_not_mem (fun member => apart _ member _ (by simp) rfl) q.2

/-! ### Written projects -/

/-- The lines of pairs that are written but not read. -/
def hiddenLines (p : Project) (kind : PairKind) : List Text :=
  ((p.pairs kind).filter Hidden).map pairText

theorem pairLines_eq (p : Project) (kind : PairKind) :
    p.pairLines kind = (p.pairs kind).map pairText := rfl

theorem ofIndented_pairText (h : IsReadPair q) (kind : PairKind) :
    Item.ofIndented (.pairs kind) (pairText q) = some (.pair kind (pairText q)) :=
  Item.ofIndented_of_content h.isContent_pairText (.pairs kind)

theorem pairOf?_inText_text (unbroken : Unbroken p) (read : ∀ q ∈ p.pairs kind, IsReadPair q) :
    (Item.inText p.text).filterMap (Item.pairOf? kind) =
      (p.pairs kind).filter fun q => ¬ Hidden q := by
  have written : Section.pairs kind ∈ writtenSections.map Prod.snd := by cases kind <;> decide
  have line : ∀ q ∈ p.pairs kind,
      ((Item.ofIndented (.pairs kind) (pairText q)).bind (Item.pairOf? kind)) =
        Option.guard (fun q => ¬ Hidden q) q := by
    intro q member
    rw [ofIndented_pairText (read q member), Option.bind_some, Item.pairOf?, if_pos rfl,
      (read q member).pair?_pairText, Option.guard]
    by_cases hidden : Hidden q <;> simp [hidden]
  rw [filterMap_inText_text unbroken written fun _ => Item.pairOf?_of_origin, bodies, pairLines_eq,
    List.filterMap_map, ← List.filterMap_eq_filter]
  exact List.filterMap_congr line

theorem Item.separatorless?_of_files {i : Item} {scope : Scope} (h : i.origin = .files scope) :
    i.separatorless? = none := by
  cases i with
  | option line => cases h
  | pair kind line => cases h
  | _ => rfl

theorem Item.separatorless?_ofComment {i : Item} (h : Item.ofComment t .options = some i) :
    i.separatorless? = none := by
  obtain ⟨_, -, rfl⟩ := Option.map_eq_some_iff.1 h
  rfl

/-- Every line that is written for an option has a separator. -/
theorem separatorless?_optionBodies (p : Project) :
    p.optionBodies.filterMap (fun l => (Item.ofIndented .options l).bind Item.separatorless?) =
      [] := by
  rw [List.filterMap_eq_nil_iff]
  intro l member
  rw [Item.ofIndented_eq]
  split
  · rfl
  split
  · cases found : Item.ofComment (trim l) .options with
    | none => rfl
    | some i => exact Item.separatorless?_ofComment found
  · rename_i plain
    rcases List.mem_append.1 member with set | unknown
    · obtain ⟨s, -, rfl⟩ := List.mem_map.1 set
      have option := option?_optionLine_ne_none (nameWidth p.settingList)
        (valueWidth p.settingList) s.1 s.2
      rw [optionLine_columns, trim_blanks_append blanks_indent] at option
      simp only [Item.ofContent, Option.bind_some, Item.separatorless?, if_neg option]
    · obtain ⟨line, -, rfl⟩ := List.mem_map.1 unknown
      exact absurd (head?_trim_unrecognized line) plain

theorem separatorless?_inText_text (unbroken : Unbroken p)
    (read : ∀ kind, ∀ q ∈ p.pairs kind, IsReadPair q) :
    (Item.inText p.text).filterMap Item.separatorless? =
      p.hiddenLines .gzip ++ p.hiddenLines .xpm ++ p.hiddenLines .png := by
  have entries (scope : Scope) (ls : List Text) :
      ls.filterMap (fun l => (Item.ofIndented (.files scope) l).bind Item.separatorless?) = [] := by
    rw [List.filterMap_eq_nil_iff]
    intro l _
    cases found : Item.ofIndented (.files scope) l with
    | none => rfl
    | some i => exact Item.separatorless?_of_files (Item.origin_of_ofIndented found)
  have pairs (kind : PairKind) :
      (p.pairLines kind).filterMap
        (fun l => (Item.ofIndented (.pairs kind) l).bind Item.separatorless?) =
      p.hiddenLines kind := by
    rw [pairLines_eq, List.filterMap_map, hiddenLines, ← List.filterMap_eq_map,
      List.filterMap_filter]
    refine List.filterMap_congr fun q member => ?_
    have line := (read kind q member).pair?_pairText
    by_cases hidden : Hidden q <;>
      simp [ofIndented_pairText (read kind q member), Item.separatorless?, line, hidden]
  have version : Item.separatorless? (.requires p.versionRequired) = none := rfl
  rw [inText_text_eq unbroken, List.filterMap_cons_none version, List.filterMap_flatMap]
  simp only [List.filterMap_filterMap]
  simp [writtenSections, bodies, separatorless?_optionBodies, entries, pairs]

theorem isReadPair_of_mem (accepted : (readText disk file source).result = .ok m) :
    ∀ kind, ∀ q ∈ m.pairs kind, IsReadPair q := by
  intro kind q member
  rw [readText_pairs accepted] at member
  rcases mem_insertPairs member with none | said
  · cases none
  · obtain ⟨i, inside, found⟩ := List.mem_filterMap.1 said
    cases i with
    | pair k line =>
      obtain ⟨-, same⟩ := Option.ite_none_right_eq_some.1 found
      exact isReadPair_of_pair? (Item.wellFormed_inText source _ inside) same
    | _ => cases found

/-- Pairs that were read and written come back in the same order, all of them exactly if no
destination starts with `#`. The pairs with such a destination are left out, and their lines are
those that the reading finds no separator in. -/
theorem pairs_readText_text (accepted : (readText disk file source).result = .ok m)
    (name : '\n' ∉ m.name) (entries : ∀ e ∈ m.entries .everyBuild, '\n' ∉ e)
    (disk' : Disk) (file' : Text) :
    ∃ again, (readText disk' file' m.text).result = .ok again ∧
      ((∀ kind, again.pairs kind = m.pairs kind) ∧
          (readText disk' file' m.text).separatorless = [] ↔
        ∀ kind, ∀ q ∈ m.pairs kind, ¬ Hidden q) ∧
      (∀ kind, again.pairs kind = (m.pairs kind).filter fun q => ¬ Hidden q) ∧
      (readText disk' file' m.text).separatorless =
        m.hiddenLines .gzip ++ m.hiddenLines .xpm ++ m.hiddenLines .png := by
  have unbroken := unbroken_readText accepted name entries
  have read := isReadPair_of_mem accepted
  have again : (readText disk' file' m.text).result =
      .ok (derive disk' (run disk' (bare file') (Item.inText m.text))).1 :=
    readText_eq_ok_iff.2 ⟨tooNew?_inText_text unbroken, rfl⟩
  have kept (kind : PairKind) :
      (derive disk' (run disk' (bare file') (Item.inText m.text))).1.pairs kind =
        (m.pairs kind).filter fun q => ¬ Hidden q := by
    -- the sources are distinct, so no pair that is read again replaces another one
    have distinct : ((m.pairs kind).map Prod.fst).Nodup := by
      rw [readText_pairs accepted]
      exact nodup_insertPairs _
    rw [readText_pairs again, pairOf?_inText_text unbroken (read kind)]
    exact insertPairs_of_nodup (distinct.sublist (List.filter_sublist.map _))
  have reported := readText_separatorless again
  rw [separatorless?_inText_text unbroken read] at reported
  have all (kind : PairKind) : (m.pairs kind).filter (fun q => ¬ Hidden q) = m.pairs kind ↔
      ∀ q ∈ m.pairs kind, ¬ Hidden q := by
    simp [List.filter_eq_self]
  refine ⟨_, again, ⟨?_, ?_⟩, kept, reported⟩
  · rintro ⟨same, -⟩ kind
    exact (all kind).1 ((kept kind).symm.trans (same kind))
  · intro shown
    have none (kind : PairKind) : m.hiddenLines kind = [] := by
      rw [hiddenLines, List.map_eq_nil_iff, List.filter_eq_nil_iff]
      simpa using shown kind
    refine ⟨fun kind => (kept kind).trans ((all kind).2 (shown kind)), ?_⟩
    rw [reported, none, none, none]
    rfl

/-- A drive, a hash inside of a text, a comment, and a destination that starts with a hash. -/
def pairsText : Text :=
  "GZIP:\n  c:\\site.css : a#b.gz # packed\n  page:#1\nPNG:\n  x y.bmp: x.png\n"

theorem pairs_readText_text_drive :
    ∃ m, (readText bareDisk "p.yaml" pairsText).result = .ok m ∧ '\n' ∉ m.name ∧
      (∀ e ∈ m.entries .everyBuild, '\n' ∉ e) ∧
      ∃ again, (readText sampleDisk "q.yaml" m.text).result = .ok again ∧
        ((∀ kind, again.pairs kind = m.pairs kind) ∧
            (readText sampleDisk "q.yaml" m.text).separatorless = [] ↔
          ∀ kind, ∀ q ∈ m.pairs kind, ¬ Hidden q) ∧
        (∀ kind, again.pairs kind = (m.pairs kind).filter fun q => ¬ Hidden q) ∧
        (readText sampleDisk "q.yaml" m.text).separatorless =
          m.hiddenLines .gzip ++ m.hiddenLines .xpm ++ m.hiddenLines .png := by
  let m := (derive bareDisk (run bareDisk (bare "p.yaml") (Item.inText pairsText))).1
  have accepted : (readText bareDisk "p.yaml" pairsText).result = .ok m :=
    readText_eq_ok_iff.2 ⟨by decide +kernel, rfl⟩
  have name : '\n' ∉ m.name := by decide +kernel
  have entries : ∀ e ∈ m.entries .everyBuild, '\n' ∉ e := by decide +kernel
  exact ⟨m, accepted, name, entries,
    pairs_readText_text accepted name entries sampleDisk "q.yaml"⟩

/-- The pairs of a project do not come back after it was read from a text and written. -/
def PairsChange (disk : Disk) (file source : Text) : Prop :=
  ∃ m again, (readText disk file source).result = .ok m ∧
    (readText disk file m.text).result = .ok again ∧ ¬ ∀ kind, again.pairs kind = m.pairs kind

/-- A file whose name goes on in a second line, with a pair there. -/
def brokenFileDisk : Disk :=
  { top := [("x\nPNG:\n a: b.c", .file [] ⟨0⟩)], current := [], now := ⟨0⟩ }

/-- A directory with such a name. -/
def brokenNameDisk : Disk :=
  { top := [("x\nPNG:\n a: b", .directory [])], current := ["x\nPNG:\n a: b"], now := ⟨0⟩ }

/-- A destination is lost, and names that are derived bring a pair. -/
theorem pairs_change :
    PairsChange bareDisk "p.yaml" "GZIP:\n    a:#x\n" ∧ PairsChange brokenFileDisk "p.yaml" [] ∧
      PairsChange brokenNameDisk "p.yaml" [] := by
  have change : ∀ {disk : Disk} {source : Text} (kind : PairKind),
      let m := (derive disk (run disk (bare "p.yaml") (Item.inText source))).1
      let again := (derive disk (run disk (bare "p.yaml") (Item.inText m.text))).1
      (Item.inText source).findSome? Item.tooNew? = none →
      (Item.inText m.text).findSome? Item.tooNew? = none → again.pairs kind ≠ m.pairs kind →
      PairsChange disk "p.yaml" source :=
    fun kind known knownAgain differ => ⟨_, _, readText_eq_ok_iff.2 ⟨known, rfl⟩,
      readText_eq_ok_iff.2 ⟨knownAgain, rfl⟩, fun same => differ (same kind)⟩
  exact ⟨change .gzip (by decide +kernel) (by decide +kernel) (by decide +kernel),
    change .png (by decide +kernel) (by decide +kernel) (by decide +kernel),
    change .png (by decide +kernel) (by decide +kernel) (by decide +kernel)⟩

end BuildMatrix.Project
