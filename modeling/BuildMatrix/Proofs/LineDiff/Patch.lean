import BuildMatrix.LineDiff
import BuildMatrix.Text.Lines
import Mathlib.Data.List.InsertIdx

/-! Line differences as patches. What is reported as removed are lines of the old text, what is
reported as added are lines of the new one, and without these lines both texts are the same. So
either text can be made from the other one and the changes. The walk reports lines by their
positions, and each of them is there. -/

set_option autoImplicit false

namespace BuildMatrix

namespace LineChange

/-- The number and the text of a line that is gone. -/
def removed? : LineChange → Option (Nat × Text)
  | .removed n l => some (n, l)
  | .added _ _ => none

/-- The number and the text of a line that is new. -/
def added? : LineChange → Option (Nat × Text)
  | .removed _ _ => none
  | .added n l => some (n, l)

end LineChange

namespace LineDiff

def removed (cs : List LineChange) : List (Nat × Text) := cs.filterMap LineChange.removed?

def added (cs : List LineChange) : List (Nat × Text) := cs.filterMap LineChange.added?

/-- Lines as they are numbered in a text, in ascending order. -/
structure IsExcerpt (part : List (Nat × Text)) (ls : List Text) : Prop where
  ascending : part.Pairwise fun a b => a.1 < b.1
  lines : ∀ a ∈ part, 0 < a.1 ∧ ls[a.1 - 1]? = some a.2

/-- The lines of a text whose numbers are not those of the part. -/
def without (part : List (Nat × Text)) (ls : List Text) : List Text :=
  ((Text.numbered ls).filter fun a => a.1 ∉ part.map Prod.fst).map Prod.snd

/-- A text with more lines, each of them inserted where its number says. -/
def inserted (part : List (Nat × Text)) (ls : List Text) : List Text :=
  part.foldl (fun ls a => ls.insertIdx (a.1 - 1) a.2) ls

/-- Changes that lead from the old text to the new one, and back. -/
structure IsPatch (old new : List Text) (cs : List LineChange) : Prop where
  ofOld : IsExcerpt (removed cs) old
  ofNew : IsExcerpt (added cs) new
  common : without (removed cs) old = without (added cs) new
  forth : inserted (added cs) (without (removed cs) old) = new
  back : inserted (removed cs) (without (added cs) new) = old

/-! ### Lines that are taken out -/

/-- Lines with their numbers, the first one with number `i + 1`. -/
def numberedFrom (i : Nat) (ls : List Text) : List (Nat × Text) :=
  (ls.zipIdx (i + 1)).map fun (l, n) => (n, l)

/-- Taking `part` out of the lines, the first one with number `i + 1`, leaves `rest`. -/
inductive Leaves : Nat → List Text → List (Nat × Text) → List Text → Prop where
  | nil (i : Nat) : Leaves i [] [] []
  | keep {i : Nat} {ls : List Text} {part : List (Nat × Text)} {rest : List Text} (l : Text) :
      Leaves (i + 1) ls part rest → Leaves i (l :: ls) part (l :: rest)
  | take {i : Nat} {ls : List Text} {part : List (Nat × Text)} {rest : List Text} (l : Text) :
      Leaves (i + 1) ls part rest → Leaves i (l :: ls) ((i + 1, l) :: part) rest

variable {i j : Nat} {l : Text} {ls rest old new : List Text} {part : List (Nat × Text)}

theorem numberedFrom_cons (i : Nat) (l : Text) (ls : List Text) :
    numberedFrom i (l :: ls) = (i + 1, l) :: numberedFrom (i + 1) ls := rfl

theorem lt_of_mem_numberedFrom {a : Nat × Text} (member : a ∈ numberedFrom i ls) : i < a.1 := by
  obtain ⟨b, inside, rfl⟩ := List.mem_map.1 member
  exact List.le_snd_of_mem_zipIdx inside

theorem Leaves.sublist (h : Leaves i ls part rest) : part.Sublist (numberedFrom i ls) := by
  induction h with
  | nil i => exact .slnil
  | keep l _ ih => exact ih.cons _
  | take l _ ih => exact ih.cons_cons _

theorem Leaves.lt_of_mem (h : Leaves i ls part rest) : ∀ a ∈ part, i < a.1 :=
  fun _ member => lt_of_mem_numberedFrom (h.sublist.subset member)

/-- The first `n` lines are taken out, and of the others what was taken out before. -/
theorem Leaves.skip {n : Nat} (bound : n ≤ ls.length) (h : Leaves (i + n) (ls.drop n) part rest) :
    Leaves i ls (numberedFrom i (ls.take n) ++ part) rest := by
  induction n generalizing i ls with
  | zero => exact h
  | succ n ih =>
    cases ls with
    | nil => cases bound
    | cons l tail =>
      rw [← Nat.add_assoc, Nat.add_right_comm] at h
      exact (ih (Nat.le_of_succ_le_succ bound) h).take l

theorem Leaves.all (i : Nat) (ls : List Text) : Leaves i ls (numberedFrom i ls) [] := by
  have last : Leaves (i + ls.length) (ls.drop ls.length) [] [] := by
    rw [List.drop_length]
    exact .nil _
  simpa using last.skip (Nat.le_refl _)

theorem Leaves.isExcerpt (h : Leaves 0 ls part rest) : IsExcerpt part ls where
  ascending := by
    have numbers : (numberedFrom 0 ls).map Prod.fst = List.range' 1 ls.length := by
      rw [numberedFrom, List.map_map]
      exact List.zipIdx_map_snd 1 ls
    have sorted : ((numberedFrom 0 ls).map Prod.fst).Pairwise (· < ·) := by
      rw [numbers]
      exact List.pairwise_lt_range' 1
    exact (List.pairwise_map.1 sorted).sublist h.sublist
  lines := by
    intro a member
    obtain ⟨b, inside, rfl⟩ := List.mem_map.1 (h.sublist.subset member)
    exact List.mem_zipIdx_iff_le_and_getElem?_sub.1 inside

theorem Leaves.filter_eq (h : Leaves i ls part rest) :
    ((numberedFrom i ls).filter fun a => a.1 ∉ part.map Prod.fst).map Prod.snd = rest := by
  induction h with
  | nil i => rfl
  | @keep i ls part rest l h ih =>
    -- the numbers that are taken out later are higher ones
    have other : i + 1 ∉ part.map Prod.fst := by
      intro member
      obtain ⟨a, inside, same⟩ := List.mem_map.1 member
      exact absurd (h.lt_of_mem a inside) (by omega)
    rw [numberedFrom_cons, List.filter_cons_of_pos (by simpa using other), List.map_cons, ih]
  | @take i ls part rest l h ih =>
    have higher : ∀ a ∈ numberedFrom (i + 1) ls,
        decide (a.1 ∉ ((i + 1, l) :: part).map Prod.fst) = decide (a.1 ∉ part.map Prod.fst) := by
      intro a member
      have other : a.1 ≠ i + 1 := (Nat.ne_of_lt (lt_of_mem_numberedFrom member)).symm
      simp only [List.map_cons, List.mem_cons, other, false_or]
    rw [numberedFrom_cons, List.filter_cons_of_neg (by simp), List.filter_congr higher, ih]

theorem Leaves.without_eq (h : Leaves 0 ls part rest) : without part ls = rest := h.filter_eq

/-- Lines with higher numbers are inserted behind a line. -/
theorem foldl_insertIdx_cons (higher : ∀ a ∈ part, i + 1 < a.1) (l : Text) (ls : List Text) :
    part.foldl (fun ls a => ls.insertIdx (a.1 - (i + 1)) a.2) (l :: ls) =
      l :: part.foldl (fun ls a => ls.insertIdx (a.1 - (i + 2)) a.2) ls := by
  induction part generalizing ls with
  | nil => rfl
  | cons a part ih =>
    have first : a.1 - (i + 1) = a.1 - (i + 2) + 1 := by
      have := higher a List.mem_cons_self
      omega
    rw [List.foldl_cons, List.foldl_cons, first, List.insertIdx_succ_cons]
    exact ih (fun b member => higher b (List.mem_cons_of_mem _ member)) _

theorem Leaves.foldl_eq (h : Leaves i ls part rest) :
    part.foldl (fun ls a => ls.insertIdx (a.1 - (i + 1)) a.2) rest = ls := by
  induction h with
  | nil i => rfl
  | keep l h ih => rw [foldl_insertIdx_cons h.lt_of_mem, ih]
  | take l h ih =>
    rw [List.foldl_cons, Nat.sub_self, List.insertIdx_zero, foldl_insertIdx_cons h.lt_of_mem, ih]

theorem Leaves.inserted_eq (h : Leaves 0 ls part rest) : inserted part rest = ls := h.foldl_eq

/-! ### The walk -/

theorem lt_of_meets {d : Nat × Nat} (h : meets old new d = true) :
    d.1 < old.length ∧ d.2 < new.length := by
  unfold meets at h
  split at h
  · rename_i here there
    exact ⟨(List.getElem?_eq_some_iff.1 here).1, (List.getElem?_eq_some_iff.1 there).1⟩
  · cases h

/-- At a difference, no more lines are reported than there are. -/
theorem skip_le (someOld : old ≠ []) (someNew : new ≠ []) :
    (skip old new).1 ≤ old.length ∧ (skip old new).2 ≤ new.length := by
  unfold skip
  cases found : resync old new with
  | none => exact ⟨List.length_pos_iff.2 someOld, List.length_pos_iff.2 someNew⟩
  | some d =>
    obtain ⟨inOld, inNew⟩ := lt_of_meets (List.find?_some found)
    exact ⟨Nat.le_of_lt inOld, Nat.le_of_lt inNew⟩

theorem removed_append (cs ds : List LineChange) : removed (cs ++ ds) = removed cs ++ removed ds :=
  List.filterMap_append

theorem added_append (cs ds : List LineChange) : added (cs ++ ds) = added cs ++ added ds :=
  List.filterMap_append

theorem removed_removals (i : Nat) (ls : List Text) :
    removed (removals i ls) = numberedFrom i ls := by
  rw [removed, removals, List.filterMap_map, numberedFrom, ← List.filterMap_eq_map]
  rfl

theorem added_removals (i : Nat) (ls : List Text) : added (removals i ls) = [] := by
  rw [added, removals, List.filterMap_map, List.filterMap_eq_nil_iff]
  exact fun _ _ => rfl

theorem added_additions (j : Nat) (ls : List Text) :
    added (additions j ls) = numberedFrom j ls := by
  rw [added, additions, List.filterMap_map, numberedFrom, ← List.filterMap_eq_map]
  rfl

theorem removed_additions (j : Nat) (ls : List Text) : removed (additions j ls) = [] := by
  rw [removed, additions, List.filterMap_map, List.filterMap_eq_nil_iff]
  exact fun _ _ => rfl

/-- What is removed and what is added leave the same lines. -/
theorem exists_leaves_walk (i j : Nat) (old new : List Text) :
    ∃ common, Leaves i old (removed (walk i j old new)) common ∧
      Leaves j new (added (walk i j old new)) common := by
  fun_induction walk i j old new with
  | case1 i j new =>
    rw [removed_additions, added_additions]
    exact ⟨[], .nil i, .all j new⟩
  | case2 i j old _ =>
    rw [removed_removals, added_removals]
    exact ⟨[], .all i old, .nil j⟩
  | case3 i j as b bs ih =>
    obtain ⟨common, inOld, inNew⟩ := ih
    exact ⟨b :: common, inOld.keep b, inNew.keep b⟩
  | case4 i j a as b bs _ d ih =>
    obtain ⟨common, inOld, inNew⟩ := ih
    obtain ⟨boundOld, boundNew⟩ : d.1 ≤ (a :: as).length ∧ d.2 ≤ (b :: bs).length :=
      skip_le (List.cons_ne_nil a as) (List.cons_ne_nil b bs)
    refine ⟨common, ?_, ?_⟩
    · simpa [removed_append, removed_removals, removed_additions] using inOld.skip boundOld
    · simpa [added_append, added_removals, added_additions] using inNew.skip boundNew

/-- Where there is a difference, one is reported. -/
theorem eq_of_walk_eq_nil (h : walk i j old new = []) : old = new := by
  obtain ⟨common, inOld, inNew⟩ := exists_leaves_walk i j old new
  rw [h] at inOld inNew
  exact inOld.foldl_eq.symm.trans inNew.foldl_eq

theorem walk_self (i j : Nat) (ls : List Text) : walk i j ls ls = [] := by
  induction ls generalizing i j with
  | nil =>
    rw [walk]
    rfl
  | cons l rest ih => rw [walk, if_pos rfl, ih]

/-! ### Positions -/

/-- The reports on lines at positions, if all of them are there. -/
def reports? (report : Nat → Text → LineChange) (ls : List Text) (start count : Nat) :
    Option (List LineChange) :=
  (List.range' start count).mapM fun i => ls[i]?.map (report (i + 1))

/-- The walk with a position in each text in place of what remains of it. There is no result if a
line is reported that is not there. -/
def walkAt? (old new : List Text) (i j : Nat) : Option (List LineChange) :=
  if h : i < old.length ∧ j < new.length then
    if old[i] = new[j] then walkAt? old new (i + 1) (j + 1)
    else
      let d := skip (old.drop i) (new.drop j)
      do
        let gone ← reports? .removed old i d.1
        let fresh ← reports? .added new j d.2
        let later ← walkAt? old new (i + d.1) (j + d.2)
        return gone ++ fresh ++ later
  else do
    let gone ← reports? .removed old i (old.length - i)
    let fresh ← reports? .added new j (new.length - j)
    return gone ++ fresh
termination_by (old.length - i) + (new.length - j)
decreasing_by
  all_goals have := skip_pos (old.drop i) (new.drop j)
  all_goals omega

theorem reports?_eq (report : Nat → Text → LineChange) {start count : Nat}
    (bound : start + count ≤ ls.length) :
    reports? report ls start count =
      some ((numberedFrom start ((ls.drop start).take count)).map fun a => report a.1 a.2) := by
  induction count generalizing start with
  | zero => rfl
  | succ count ih =>
    have here : start < ls.length := by omega
    have later := ih (show start + 1 + count ≤ ls.length by omega)
    rw [reports?] at later ⊢
    rw [List.range'_succ, List.mapM_cons, later, List.getElem?_eq_getElem here,
      List.drop_eq_getElem_cons here]
    rfl

theorem removals_eq (i : Nat) (ls : List Text) :
    removals i ls = (numberedFrom i ls).map fun a => .removed a.1 a.2 := by
  rw [removals, numberedFrom, List.map_map]
  rfl

theorem additions_eq (j : Nat) (ls : List Text) :
    additions j ls = (numberedFrom j ls).map fun a => .added a.1 a.2 := by
  rw [additions, numberedFrom, List.map_map]
  rfl

theorem reports?_rest (report : Nat → Text → LineChange) {start : Nat} (bound : start ≤ ls.length) :
    reports? report ls start (ls.length - start) =
      some ((numberedFrom start (ls.drop start)).map fun a => report a.1 a.2) := by
  rw [reports?_eq report (by omega), List.take_of_length_le (Nat.le_of_eq List.length_drop)]

/-- Once a text is at its end, all that is left of the other one is reported. -/
theorem walk_of_nil (ended : old = [] ∨ new = []) (i j : Nat) :
    walk i j old new = removals i old ++ additions j new := by
  cases old with
  | nil =>
    rw [walk]
    rfl
  | cons a as =>
    obtain rfl := ended.resolve_left (List.cons_ne_nil a as)
    rw [walk]
    · exact (List.append_nil _).symm
    · exact List.cons_ne_nil a as

/-- The walk by positions finds every line, and reports what the walk does. -/
theorem walkAt?_eq (inOld : i ≤ old.length) (inNew : j ≤ new.length) :
    walkAt? old new i j = some (walk i j (old.drop i) (new.drop j)) := by
  fun_induction walkAt? old new i j with
  | case1 i j h same ih =>
    rw [ih h.1 h.2, List.drop_eq_getElem_cons h.1, List.drop_eq_getElem_cons h.2, walk,
      if_pos same]
  | case2 i j h other d ih =>
    have headOld := List.drop_eq_getElem_cons h.1
    have headNew := List.drop_eq_getElem_cons h.2
    have bound : d.1 ≤ (old.drop i).length ∧ d.2 ≤ (new.drop j).length :=
      skip_le (headOld ▸ List.cons_ne_nil _ _) (headNew ▸ List.cons_ne_nil _ _)
    rw [List.length_drop, List.length_drop] at bound
    have boundOld : i + d.1 ≤ old.length := by omega
    have boundNew : j + d.2 ≤ new.length := by omega
    have round : walk i j (old.drop i) (new.drop j) =
        removals i ((old.drop i).take d.1) ++ additions j ((new.drop j).take d.2) ++
          walk (i + d.1) (j + d.2) (old.drop (i + d.1)) (new.drop (j + d.2)) := by
      rw [← List.drop_drop, ← List.drop_drop]
      simp only [d, headOld, headNew]
      rw [walk, if_neg other]
    rw [reports?_eq .removed boundOld, reports?_eq .added boundNew, ih boundOld boundNew, round,
      removals_eq, additions_eq]
    rfl
  | case3 i j h =>
    have ended : old.drop i = [] ∨ new.drop j = [] :=
      (not_and_or.1 h).imp (fun past => List.drop_eq_nil_of_le (by omega))
        fun past => List.drop_eq_nil_of_le (by omega)
    rw [reports?_rest .removed inOld, reports?_rest .added inNew, walk_of_nil ended, removals_eq,
      additions_eq]
    rfl

/-- Whatever the two texts are, the walk ends with a patch between them, every line it reports is
there, and it reports nothing exactly if the texts are the same. -/
theorem between_isPatch (path : Text) (old new : List Text) :
    walkAt? old new 0 0 = some (between path old new).changes ∧
      IsPatch old new (between path old new).changes ∧
      ((between path old new).isEmpty = true ↔ old = new) := by
  obtain ⟨common, inOld, inNew⟩ := exists_leaves_walk 0 0 old new
  refine ⟨walkAt?_eq (Nat.zero_le _) (Nat.zero_le _), ?_, ?_⟩
  · exact
      { ofOld := inOld.isExcerpt
        ofNew := inNew.isExcerpt
        common := inOld.without_eq.trans inNew.without_eq.symm
        forth := (congrArg _ inOld.without_eq).trans inNew.inserted_eq
        back := (congrArg _ inNew.without_eq).trans inOld.inserted_eq }
  · rw [isEmpty, List.isEmpty_iff]
    constructor
    · exact eq_of_walk_eq_nil
    · rintro rfl
      exact walk_self 0 0 old

end LineDiff

end BuildMatrix
