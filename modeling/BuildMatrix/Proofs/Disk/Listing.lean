import BuildMatrix.Proofs.Disk.Following

/-! The order in which directories are listed. It is the one thing about a disk that following names
does not depend on: what a name finds, and why it finds nothing, is a matter of what the addresses
hold. So two disks that hold the same find the same, and the names that they list for a directory
are the same names, which are in one order once they are sorted. -/

set_option autoImplicit false

namespace BuildMatrix

/-! ### Ascending order -/

namespace Text

variable {s t u : Text} {ts us : List Text}

theorem precedes_total (s t : Text) : (precedes s t || precedes t s) = true := by
  induction s generalizing t with
  | nil => rfl
  | cons a s ih =>
    cases t with
    | nil => rfl
    | cons b t =>
      by_cases same : a = b
      · simpa [precedes, same] using ih t
      · have other : a.val ≠ b.val := fun h => same (Char.ext h)
        simpa [precedes, same, Ne.symm same] using UInt32.lt_or_lt_of_ne other

theorem precedes_antisymm (one : precedes s t = true) (other : precedes t s = true) : s = t := by
  induction s generalizing t with
  | nil =>
    cases t with
    | nil => rfl
    | cons b t => cases other
  | cons a s ih =>
    cases t with
    | nil => cases one
    | cons b t =>
      by_cases same : a = b
      · subst same
        simp only [precedes, if_true] at one other
        rw [ih one other]
      · simp only [precedes, same, Ne.symm same, if_false, decide_eq_true_eq] at one other
        exact absurd (UInt32.lt_trans one other) (UInt32.lt_irrefl _)

theorem precedes_trans (one : precedes s t = true) (other : precedes t u = true) :
    precedes s u = true := by
  induction s generalizing t u with
  | nil => rfl
  | cons a s ih =>
    cases t with
    | nil => cases one
    | cons b t =>
      cases u with
      | nil => cases other
      | cons c u =>
        unfold precedes at one other ⊢
        grind

theorem sort_perm (ts : List Text) : (sort ts).Perm ts := List.mergeSort_perm ts precedes

theorem pairwise_sort (ts : List Text) : (sort ts).Pairwise fun s t => precedes s t = true :=
  List.pairwise_mergeSort (fun s t u => @precedes_trans s t u) precedes_total ts

/-- What is sorted counts, and not in which order it was given. -/
theorem sort_eq_of_perm (h : ts.Perm us) : sort ts = sort us :=
  ((sort_perm ts).trans (h.trans (sort_perm us).symm)).eq_of_pairwise
    (fun _ _ _ _ => precedes_antisymm) (pairwise_sort ts) (pairwise_sort us)

end Text

/-! ### What a directory lists -/

namespace Tree

variable {t u : Tree} {c : Text} {content : Text.Bytes} {m : Timestamp} {es fs : List (Text × Tree)}

theorem node_eq_file : t.node = .file content m ↔ t = .file content m := by
  cases t <;> simp [node]

theorem lookup_eq_some_iff_mem (names : (es.map Prod.fst).Nodup) :
    es.lookup c = some t ↔ (c, t) ∈ es := by
  induction es with
  | nil => simp
  | cons e es ih =>
    obtain ⟨x, u⟩ := e
    obtain ⟨fresh, names⟩ := List.nodup_cons.1 names
    rw [List.lookup_cons, List.mem_cons]
    split
    · rename_i same
      obtain rfl : c = x := eq_of_beq same
      have none : (c, t) ∉ es := fun member => fresh (List.mem_map.2 ⟨_, member, rfl⟩)
      simp [none, eq_comm]
    · rename_i other
      have other : c ≠ x := by simpa using other
      simp [ih names, other]

/-- The files that a directory lists are the ones that their names lead to. -/
theorem mem_fileNames (distinct : t.distinct = true) :
    c ∈ t.fileNames ↔ ∃ content m, t.child? c = some (.file content m) := by
  simp only [child?, lookup_eq_some_iff_mem (nodup_names distinct), fileNames, List.mem_filterMap]
  constructor
  · rintro ⟨⟨x, u⟩, member, listed⟩
    cases u with
    | directory es => cases listed
    | file content m =>
      cases listed
      exact ⟨content, m, member⟩
  · rintro ⟨content, m, member⟩
    exact ⟨_, member, rfl⟩

/-- Entries in another order hold the same. -/
theorem node?_directory_of_perm (h : es.Perm fs) (names : (es.map Prod.fst).Nodup) (a : Address) :
    (directory es).node? a = (directory fs).node? a := by
  cases a with
  | nil => rfl
  | cons c r =>
    have child : (directory es).child? c = (directory fs).child? c := by
      refine Option.ext fun t => ?_
      rw [child?, child?, entries, entries, lookup_eq_some_iff_mem names,
        lookup_eq_some_iff_mem ((h.map Prod.fst).nodup_iff.1 names), h.mem_iff]
    rw [node?_cons, node?_cons, child]

end Tree

namespace Disk

variable {d e : Disk} {a : Address} {c p : Text}

theorem mem_fileNamesAt :
    c ∈ d.fileNamesAt a ↔ ∃ content m, d.node? (a ++ [c]) = some (.file content m) := by
  unfold fileNamesAt node? Tree.node?
  rw [Tree.at?_concat]
  cases there : d.root.at? a with
  | none => simp [tree?, there]
  | some t =>
    simp [tree?, there, Tree.mem_fileNames (Tree.distinct_of_at? d.distinct there),
      Tree.node_eq_file]

/-! ### Following names by what addresses hold -/

/-- One component further from an address. -/
def stepAt (d : Disk) (a : Address) (c : Text) : Except IoError Address :=
  match d.node? a with
  | none => .error .notFound
  | some (.file _ _) => .error .notADirectory
  | some .directory =>
    if Pathname.isFiller c then .ok a
    else if c = ".." then
      if a = [] ∧ d.above = .nothing then .error .notFound else .ok a.dropLast
    else if longestName < Text.byteCount c then .error .nameTooLong
    else .ok (a ++ [c])

theorem Place.map_address_step (x : Place d) (c : Text) :
    (x.step c).map Place.address = d.stepAt x.address c := by
  have top : x.trail = [] ↔ x.address = [] := by simp [Place.address]
  rw [stepAt, ← x.map_node_tree, Place.step]
  cases x.tree with
  | none => rfl
  | some t =>
    cases t with
    | file content m => rfl
    | directory es =>
      simp only [Option.map_some, Tree.node, top]
      repeat' split
      all_goals simp [Except.map]

theorem Place.map_address_follow (x : Place d) (cs : List Text) :
    (x.follow cs).map Place.address = cs.foldlM d.stepAt x.address := by
  induction cs generalizing x with
  | nil => rfl
  | cons c cs ih =>
    rw [Place.follow, List.foldlM_cons, List.foldlM_cons, ← x.map_address_step c]
    cases x.step c with
    | error e => rfl
    | ok y => exact ih y

/-- The address at which a name of any length arrives. -/
def arrive (d : Disk) (p : Text) : Except IoError Address := do
  checkName p
  (Pathname.components p).foldlM d.stepAt (d.startOf p)

theorem map_address_locateAny (d : Disk) (p : Text) :
    (d.locateAny p).map Place.address = d.arrive p := by
  rw [arrive, ← address_origin, ← Place.map_address_follow, locateAny]
  cases checkName p <;> rfl

/-- What is found, and why nothing is, can be said without places. -/
theorem findAny_eq_arrive (d : Disk) (p : Text) :
    d.findAny p =
      (do
        let a ← d.arrive p
        match d.node? a with
        | none => .error .notFound
        | some n => .ok (a, n)) := by
  rw [← map_address_locateAny, findAny]
  cases d.locateAny p with
  | error w => rfl
  | ok x =>
    simp only [Except.map, bind, Except.bind, ← x.map_node_tree, Place.held]
    cases x.tree <;> rfl

theorem find_eq_findAny (d : Disk) (p : Text) :
    d.find p =
      (do
        checkName p
        checkLength p
        d.findAny p) := by
  unfold find locate
  cases checkName p with
  | error w => rfl
  | ok _ => cases checkLength p <;> rfl

/-! ### Disks that list in different orders -/

/-- Two disks that hold the same. Only the order in which they list it can differ. -/
structure Alike (d e : Disk) : Prop where
  above : e.above = d.above
  current : e.current = d.current
  node? : ∀ a, e.node? a = d.node? a

/-- The root can be listed in any order. -/
theorem alike_of_perm (h : e.top.Perm d.top) (above : e.above = d.above)
    (current : e.current = d.current) : Alike d e where
  above := above
  current := current
  node? := Tree.node?_directory_of_perm h (Tree.nodup_names e.distinct)

namespace Alike

variable (h : Alike d e)
include h

theorem stepAt : e.stepAt = d.stepAt := by
  funext a c
  rw [Disk.stepAt, Disk.stepAt, h.node?, h.above]

theorem arrive (p : Text) : e.arrive p = d.arrive p := by
  rw [Disk.arrive, Disk.arrive, h.stepAt, startOf, startOf, h.current]

theorem findAny (p : Text) : e.findAny p = d.findAny p := by
  simp only [findAny_eq_arrive, h.arrive, h.node?]

theorem find (p : Text) : e.find p = d.find p := by
  rw [find_eq_findAny, find_eq_findAny, h.findAny]

theorem identity (p : Text) : e.identity p = d.identity p := by
  rw [Disk.identity, Disk.identity, canonicalize?, canonicalize?, h.findAny, startOf, startOf,
    h.current]

theorem findFile (p : Text) : e.findFile p = d.findFile p := by
  rw [Disk.findFile, Disk.findFile, h.find]

theorem readText (p : Text) : e.readText p = d.readText p := by
  rw [Disk.readText, Disk.readText, Disk.read, Disk.read, h.findFile]

theorem perm_fileNamesAt (a : Address) : (e.fileNamesAt a).Perm (d.fileNamesAt a) := by
  rw [List.perm_ext_iff_of_nodup (e.nodup_fileNamesAt a) (d.nodup_fileNamesAt a)]
  intro c
  rw [mem_fileNamesAt, mem_fileNamesAt, h.node?]

/-- A directory is listed with the same names, or it cannot be listed for the same reason. -/
theorem fileNames (p : Text) :
    (∃ w, d.fileNames p = .error w ∧ e.fileNames p = .error w) ∨
      ∃ ds es, d.fileNames p = .ok ds ∧ e.fileNames p = .ok es ∧ es.Perm ds := by
  rw [Disk.fileNames, Disk.fileNames, h.find]
  cases d.find p with
  | error w => exact .inl ⟨w, rfl, rfl⟩
  | ok found =>
    obtain ⟨a, n⟩ := found
    cases n with
    | file content m => exact .inl ⟨_, rfl, rfl⟩
    | directory => exact .inr ⟨_, _, rfl, rfl, h.perm_fileNamesAt a⟩

end Alike

end Disk

end BuildMatrix
