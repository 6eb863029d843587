import BuildMatrix.Proofs.Project.Deriving
import BuildMatrix.Proofs.Project.Interleaving
import BuildMatrix.Proofs.Project.Warnings
import BuildMatrix.Proofs.Text.Rows
import Mathlib.Data.List.InsertIdx

/-! Lines that cannot be read. Such a line gets a warning and nothing else: without it the text is
read as the same project, with the same warnings but that one, and the lines after it have moved up
by one. The invariant behind it is that an item says where it stands only in the places of its
warnings, and that what it includes lies in other files. -/

set_option autoImplicit false

namespace BuildMatrix.Project

open Text

variable {disk : Disk} {m p : Project} {file source dir base : Text} {n k : Nat} {s : Section}
  {i : Item} {x : Nat × Item} {w : Warning} {reading : List Disk.Identity} {position : Position}

/-- Whether a warning is about a line that is not read at all. -/
def Warning.isOfLine : Warning → Bool
  | .noSection | .missingSeparator _ | .invalidVersion _ => true
  | .unknownOption _ | .unknownSection _ | .unreadableInclude _ _ | .includeCycle _
  | .invalidPattern _ _ _ | .unlistedDirectory _ _ => false

/-- The text without line `n`. -/
def withoutLine (n : Nat) (source : Text) : Text := ((rows source).eraseIdx (n - 1)).flatten

/-- The number of a line once line `n` is gone. -/
def closeGap (n k : Nat) : Nat := if n < k then k - 1 else k

/-- A place once line `n` of the file is gone. -/
def placeWithout (file : Text) (n : Nat) (position : Position) : Position :=
  if position.file = file then { position with line := position.line.map (closeGap n) }
  else position

def warningWithout (file : Text) (n : Nat) (w : Located Warning) : Located Warning :=
  ⟨placeWithout file n w.position, w.problem⟩

/-! ### Numbered lines -/

theorem lines_withoutLine (n : Nat) (source : Text) :
    Text.lines (withoutLine n source) = (Text.lines source).eraseIdx (n - 1) := by
  have left := (areRows_rows source).sublist (List.eraseIdx_sublist (rows source) (n - 1))
  rw [withoutLine, lines_flatten left, lines_eq_map_rows, List.eraseIdx_map]

theorem numbered_eraseIdx {α : Type} (xs : List α) (i : Nat) :
    numbered (xs.eraseIdx i) =
      ((numbered xs).eraseIdx i).map fun x => (closeGap (i + 1) x.1, x.2) := by
  refine List.ext_getElem? fun j => ?_
  rw [getElem?_numbered, List.getElem?_map, List.getElem?_eraseIdx, List.getElem?_eraseIdx]
  by_cases before : j < i
  · have stays : closeGap (i + 1) (j + 1) = j + 1 := if_neg (by omega)
    rw [if_pos before, if_pos before, getElem?_numbered, Option.map_map]
    simp [Function.comp_def, stays]
  · have moves : closeGap (i + 1) (j + 1 + 1) = j + 1 := if_pos (by omega)
    rw [if_neg before, if_neg before, getElem?_numbered, Option.map_map]
    simp [Function.comp_def, moves]

theorem le_of_mem_ofText (member : x ∈ Item.ofText source) :
    0 < x.1 ∧ x.1 ≤ (Text.lines source).length := by
  obtain ⟨a, l, b, split, -⟩ := Item.exists_of_mem_ofLines member
  have length := congrArg List.length split
  rw [numbered, List.length_map, List.length_zipIdx, List.length_append, List.length_cons] at length
  have number := fst_of_numbered split
  dsimp only at number
  omega

/-- An item that does not come from a header can be taken out with its line. -/
theorem ofText_withoutLine (member : x ∈ Item.ofText source)
    (inside : ∀ name, x.2 ≠ .unknownSection name) :
    ∃ before after, Item.ofText source = before ++ x :: after ∧
      Item.ofText (withoutLine x.1 source) =
        (before ++ after).map fun y => (closeGap x.1 y.1, y.2) := by
  obtain ⟨a, l, b, split, here⟩ := Item.exists_of_mem_ofLines member
  have number := fst_of_numbered split
  have plain : isHeading l = false := by
    by_contra headed
    rw [Item.ofLine_of_isHeading (Bool.not_eq_false _ ▸ headed)] at here
    split at here
    · cases here
    · exact inside _ (Option.some.inj here).symm
  have stays := (Item.ofLine_of_plain plain (Item.sectionAfter .preamble (a.map Prod.snd))).1
  refine ⟨Item.ofLines .preamble a,
    Item.ofLines (Item.sectionAfter .preamble (a.map Prod.snd)) b, ?_, ?_⟩
  · rw [Item.ofText, split, Item.ofLines_append, Item.ofLines_cons, stays, Option.mem_def.1 here]
    rfl
  · have rest : (numbered (Text.lines source)).eraseIdx (x.1 - 1) = a ++ b := by
      rw [split, number, Nat.add_sub_cancel, List.eraseIdx_append_of_length_le (Nat.le_refl _),
        Nat.sub_self, List.eraseIdx_cons_zero]
    rw [Item.ofText, lines_withoutLine, numbered_eraseIdx, rest, Nat.sub_add_cancel (by omega),
      Item.ofLines_map_fst, Item.ofLines_append]

/-! ### Items that are wrong by themselves -/

theorem Item.ne_entry_of_problem? (wrong : i.problem? = some w) (scope : Scope) (e : Text) :
    i ≠ .entry scope e := by
  rintro rfl
  cases wrong

theorem Item.tooNew?_of_problem? (wrong : i.problem? = some w) : i.tooNew? = none := by
  cases i with
  | requires v => cases wrong
  | _ => rfl

theorem Item.ne_unknownSection (wrong : i.problem? = some w) (bad : w.isOfLine = true)
    (name : Text) : i ≠ .unknownSection name := by
  rintro rfl
  cases wrong
  cases bad

/-- What is not read leaves the project as it is. -/
theorem step_of_isOfLine (wrong : i.problem? = some w) (bad : w.isOfLine = true) :
    step disk p i = p := by
  cases i with
  | option line =>
    rw [Item.problem?, optionProblem?] at wrong
    rw [step_option, lineSetting?]
    cases parted : Line.option? line with
    | none => rfl
    | some parts =>
      rw [parted] at wrong
      obtain ⟨-, same⟩ := Option.ite_none_left_eq_some.1 wrong
      cases same
      cases bad
  | pair kind line =>
    obtain ⟨none, -⟩ := Option.ite_none_right_eq_some.1 wrong
    rw [step_pair, none]
  | badVersion word => rfl
  | stray => rfl
  | unknownSection name => rfl
  | requires v => cases wrong
  | commentedOption line => cases wrong
  | entry scope e => cases wrong

/-! ### Places -/

theorem placeWithout_ofLine (file : Text) (named : 0 < n) (first : 0 < k)
    (last : k < 4294967296) :
    placeWithout file n (.ofLine file k) = .ofLine file (closeGap n k) := by
  have stays : 0 < closeGap n k ∧ closeGap n k < 4294967296 := by
    rw [closeGap]
    split <;> omega
  have here : (Position.ofLine file k).file = file := rfl
  rw [placeWithout, if_pos here, Position.ofLine, Position.ofLine, if_pos ⟨first, last⟩,
    if_pos stays]
  rfl

/-- What is said in an included file, or behind it, is said in files that were not being read. -/
theorem not_mem_reading {w : Located Warning} (fresh : disk.identity file ∉ reading)
    (said : w.position = .ofLine file n ∨
      disk.identity w.position.file ∉ disk.identity file :: reading) :
    disk.identity w.position.file ∉ reading := by
  rcases said with here | later
  · rw [here]
    exact fresh
  · exact fun known => later (List.mem_cons_of_mem _ known)

theorem Arises.position_or {w : Located Warning} (h : Arises disk reading position w) :
    w.position = position ∨ disk.identity w.position.file ∉ reading := by
  induction h with
  | own => exact .inl rfl
  | within fresh _ ih => exact .inr (not_mem_reading fresh ih)

theorem not_mem_of_fileContribution {target : Text} {content : Text.Bytes}
    (fresh : disk.identity (Pathname.join dir target) ∉ reading) :
    ∀ w ∈ (fileContribution disk dir reading target content).log.filterMap Event.warning?,
      disk.identity w.position.file ∉ reading := by
  intro w member
  obtain ⟨event, inside, said⟩ := List.mem_filterMap.1 member
  rcases List.mem_cons.1 inside with rfl | inside
  · cases said
  · obtain ⟨c, among, logged⟩ := List.mem_flatMap.1 inside
    obtain ⟨x, -, rfl⟩ := List.mem_map.1 among
    have arises := arises_of_contribution _ _ _ _ _ _ w
      (List.mem_filterMap.2 ⟨event, logged, said⟩)
    exact not_mem_reading fresh arises.position_or

/-- An entry says the same from another place, but for the place itself. -/
theorem filterMap_contribution {a b : Position} {move : Position → Position} (here : move a = b)
    (away : ∀ q, disk.identity q.file ∉ reading → move q = q) (dir base : Text) (e : Entry) :
    (contribution disk dir reading base b e).log.filterMap Event.warning? =
      ((contribution disk dir reading base a e).log.filterMap Event.warning?).map
        fun w => ⟨move w.position, w.problem⟩ := by
  have one (w : Warning) : (Contribution.ofWarning b w).log.filterMap Event.warning? =
      ((Contribution.ofWarning a w).log.filterMap Event.warning?).map
        fun w => ⟨move w.position, w.problem⟩ := by
    rw [← here]
    rfl
  cases e with
  | nothing | path => rfl
  | pattern p =>
    rw [contribution_pattern, contribution_pattern]
    cases expandPattern disk (Pathname.join dir base) p with
    | ok files => rfl
    | error w => exact one w
  | «include» p =>
    rw [contribution_include, contribution_include]
    split
    · exact one _
    · rename_i fresh
      split
      · exact one _
      · -- what an included file says does not depend on where it was included
        refine ((List.map_congr_left fun w member => ?_).trans (List.map_id _)).symm
        rw [away _ (not_mem_of_fileContribution fresh w member), id]

/-! ### Readings -/

/-- The warnings of an item with the number of its line. -/
def Item.warnings (disk : Disk) (file : Text) (x : Nat × Item) : List (Located Warning) :=
  (x.2.events disk file x.1).filterMap Event.warning?

/-- Whatever an item says, it says from the place where its line has moved. -/
theorem warnings_closeGap (disk : Disk) (i : Item) (named : 0 < n) (first : 0 < k)
    (last : k < 4294967296) :
    Item.warnings disk file (closeGap n k, i) =
      (Item.warnings disk file (k, i)).map (warningWithout file n) := by
  rw [Item.warnings, Item.warnings]
  have moved := placeWithout_ofLine file named first last
  by_cases entry : ∃ scope e, i = .entry scope e
  · obtain ⟨scope, e, rfl⟩ := entry
    refine filterMap_contribution moved (fun q other => if_neg fun same => ?_) _ _ _
    exact other (same ▸ List.mem_singleton_self _)
  · have single : ∀ scope e, i ≠ .entry scope e := fun scope e same => entry ⟨scope, e, same⟩
    rw [filterMap_events_of_ne_entry disk file _ single,
      filterMap_events_of_ne_entry disk file _ single, Item.warning?, Item.warning?, ← moved]
    cases i.problem? <;> rfl

theorem flatMap_warnings_closeGap {items : List (Nat × Item)} (named : 0 < n)
    (range : ∀ x ∈ items, 0 < x.1 ∧ x.1 < 4294967296) :
    (items.map fun x => (closeGap n x.1, x.2)).flatMap (Item.warnings disk file) =
      (items.flatMap (Item.warnings disk file)).map (warningWithout file n) := by
  rw [List.flatMap_map, List.map_flatMap]
  exact List.flatMap_congr fun x member =>
    warnings_closeGap disk x.2 named (range x member).1 (range x member).2

/-- The warnings that are not about entries come from the items themselves. -/
theorem mem_warnings_iff {r : Located Warning} (own : r.problem.isOfEntry = false)
    (accepted : (readText disk file source).result = .ok m) :
    r ∈ (readText disk file source).warnings ↔
      ∃ x ∈ Item.ofText source, Item.warning? file x = some r := by
  rw [readText_warnings accepted, List.mem_flatMap]
  refine exists_congr fun x => and_congr_right fun _ => ?_
  by_cases entry : ∃ scope e, x.2 = .entry scope e
  · obtain ⟨scope, e, shape⟩ := entry
    rw [Item.warning?, shape]
    refine iff_of_false (fun member => ?_) fun none => by cases none
    have other := (arises_of_contribution _ _ _ _ _ _ r member).isOfEntry
    rw [own] at other
    cases other
  · rw [filterMap_events_of_ne_entry disk file x.1 fun scope e same => entry ⟨scope, e, same⟩,
      Option.mem_toList]

/-- A warning that a line cannot be read comes from that line. -/
theorem exists_item_of_reported (accepted : (readText disk file source).result = .ok m)
    (short : (Text.lines source).length < 4294967296)
    (reported : ⟨⟨file, some n⟩, w⟩ ∈ (readText disk file source).warnings)
    (bad : w.isOfLine = true) :
    ∃ i, (n, i) ∈ Item.ofText source ∧ i.problem? = some w ∧
      Item.warnings disk file (n, i) = [⟨⟨file, some n⟩, w⟩] := by
  have own : w.isOfEntry = false := by
    cases w <;> first | rfl | cases bad
  obtain ⟨⟨k, i⟩, member, said⟩ := (mem_warnings_iff own accepted).1 reported
  obtain ⟨u, wrong, same⟩ := Option.map_eq_some_iff.1 said
  obtain ⟨place, rfl⟩ := Located.mk.inj same
  have range := le_of_mem_ofText member
  obtain rfl : k = n := by
    rw [Position.ofLine, if_pos (by omega)] at place
    exact Option.some.inj (Position.mk.inj place).2
  refine ⟨i, member, wrong, ?_⟩
  rw [Item.warnings, filterMap_events_of_ne_entry disk file k (Item.ne_entry_of_problem? wrong),
    said]
  rfl

/-- Items that are not read can be left out. -/
theorem result_without (wrong : i.problem? = some w) (bad : w.isOfLine = true) {rest : Text}
    {before after : List (Nat × Item)} (whole : Item.ofText source = before ++ (k, i) :: after)
    (left : Item.ofText rest = (before ++ after).map fun x => (closeGap k x.1, x.2)) :
    (readText disk file rest).result = (readText disk file source).result := by
  have items : Item.inText source = before.map Prod.snd ++ i :: after.map Prod.snd := by
    rw [← Item.ofText_map_snd, whole, List.map_append, List.map_cons]
  have others : Item.inText rest = before.map Prod.snd ++ after.map Prod.snd := by
    rw [← Item.ofText_map_snd, left, List.map_map, ← List.map_append]
    rfl
  have asked : (Item.inText rest).findSome? Item.tooNew? =
      (Item.inText source).findSome? Item.tooNew? := by
    rw [others, items, List.findSome?_append, List.findSome?_append, List.findSome?_cons,
      Item.tooNew?_of_problem? wrong]
  have ends : run disk (bare file) (Item.inText rest) =
      run disk (bare file) (Item.inText source) := by
    rw [others, items, run, run, List.foldl_append, List.foldl_append, List.foldl_cons,
      step_of_isOfLine wrong bad]
  rw [readText_result, readText_result, asked, ends]

/-- A line with a warning that it cannot be read harms nothing else. Without it the text is read as
the same project, with the same warnings but that one, at places that moved up behind it. -/
theorem readText_withoutLine {problem : Warning}
    (accepted : (readText disk file source).result = .ok m)
    (short : (Text.lines source).length < 4294967296)
    (reported : ⟨⟨file, some n⟩, problem⟩ ∈ (readText disk file source).warnings)
    (bad : problem.isOfLine = true) :
    (readText disk file (withoutLine n source)).result = .ok m ∧
      ∃ before after,
        (readText disk file source).warnings = before ++ ⟨⟨file, some n⟩, problem⟩ :: after ∧
        (readText disk file (withoutLine n source)).warnings =
          (before ++ after).map (warningWithout file n) := by
  obtain ⟨i, member, wrong, single⟩ := exists_item_of_reported accepted short reported bad
  have range : ∀ x ∈ Item.ofText source, 0 < x.1 ∧ x.1 < 4294967296 := by
    intro x inside
    have numbered := le_of_mem_ofText inside
    omega
  obtain ⟨before, after, whole, rest⟩ :=
    ofText_withoutLine member (Item.ne_unknownSection wrong bad)
  have result : (readText disk file (withoutLine n source)).result = .ok m :=
    (result_without wrong bad whole rest).trans accepted
  have still : ∀ x ∈ before ++ after, x ∈ Item.ofText source := fun x inside => by
    rw [whole]
    exact (List.mem_append.1 inside).elim (List.mem_append_left _)
      fun later => List.mem_append_right _ (List.mem_cons_of_mem _ later)
  refine ⟨result, before.flatMap (Item.warnings disk file), after.flatMap (Item.warnings disk file),
    ?_, ?_⟩
  · have all : (readText disk file source).warnings =
        (before ++ (n, i) :: after).flatMap (Item.warnings disk file) :=
      whole ▸ readText_warnings accepted
    rw [all, List.flatMap_append, List.flatMap_cons, single]
    rfl
  · have left : (readText disk file (withoutLine n source)).warnings =
        ((before ++ after).map fun y => (closeGap n y.1, y.2)).flatMap (Item.warnings disk file) :=
      rest ▸ readText_warnings result
    rw [left, ← List.flatMap_append]
    exact flatMap_warnings_closeGap (range _ member).1 fun x inside => range x (still x inside)

/-- An option without a separator, between a stray line and a project that includes itself. -/
theorem readText_withoutLine_separator :
    let source : Text := "  stray\nOptions:\n  warn: 3\n  warn 4\nFiles:\n  .include p.yaml\n"
    ∃ m, (readText bareDisk "p.yaml" source).result = .ok m ∧
      (readText bareDisk "p.yaml"
        "  stray\nOptions:\n  warn: 3\nFiles:\n  .include p.yaml\n").result = .ok m ∧
      ∃ before after,
        (readText bareDisk "p.yaml" source).warnings =
          before ++ ⟨⟨"p.yaml", some 4⟩, .missingSeparator "warn 4"⟩ :: after ∧
        (readText bareDisk "p.yaml"
            "  stray\nOptions:\n  warn: 3\nFiles:\n  .include p.yaml\n").warnings =
          (before ++ after).map (warningWithout "p.yaml" 4) := by
  intro source
  have accepted : (readText bareDisk "p.yaml" source).result = .ok _ :=
    readText_eq_ok_iff.2 ⟨by decide +kernel, rfl⟩
  have reported : ⟨⟨"p.yaml", some 4⟩, .missingSeparator "warn 4"⟩ ∈
      (readText bareDisk "p.yaml" source).warnings :=
    (mem_warnings_iff rfl accepted).2 ⟨(4, .option "warn 4"), by decide +kernel, rfl⟩
  have left : withoutLine 4 source =
      "  stray\nOptions:\n  warn: 3\nFiles:\n  .include p.yaml\n" := by decide +kernel
  have short : (Text.lines source).length < 4294967296 := by decide +kernel
  have harmless := readText_withoutLine accepted short reported rfl
  rw [left] at harmless
  exact ⟨_, accepted, harmless⟩

end BuildMatrix.Project
