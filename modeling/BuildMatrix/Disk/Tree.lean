import BuildMatrix.Text.Utf8
import BuildMatrix.Timestamp

/-! Directories and files as a tree, and what its addresses hold. Main statements: `node?_put` says
what a change at one address does to all of them, `mem_contents` that a listing of the tree leaves
nothing out, and `distinct_put` that changes keep the names in every directory distinct. -/

set_option autoImplicit false

namespace BuildMatrix

/-- The names that lead from the root to a place. -/
abbrev Address := List Text

inductive Node where
  | directory
  | file (content : Text.Bytes) (modified : Timestamp)
  deriving DecidableEq

/-- A file, or a directory with all that lies in it. -/
inductive Tree where
  | file (content : Text.Bytes) (modified : Timestamp)
  | directory (entries : List (Text × Tree))

namespace Tree

/-- The tree itself, without what lies in it. -/
def node : Tree → Node
  | .file content t => .file content t
  | .directory _ => .directory

/-- A file, or an empty directory. -/
def ofNode : Node → Tree
  | .file content t => .file content t
  | .directory => .directory []

def entries : Tree → List (Text × Tree)
  | .file _ _ => []
  | .directory es => es

def child? (t : Tree) (c : Text) : Option Tree := t.entries.lookup c

def at? : Tree → Address → Option Tree
  | t, [] => some t
  | t, c :: r => (t.child? c).bind fun u => u.at? r

def node? (t : Tree) (a : Address) : Option Node := (t.at? a).map node

/-- Entries with a name leading to `t`, in place of what it led to. -/
def putEntry (c : Text) (t : Tree) : List (Text × Tree) → List (Text × Tree)
  | [] => [(c, t)]
  | e :: r => if e.1 = c then (c, t) :: r else e :: putEntry c t r

/-- Put a file or an empty directory at an address. Directories are made on the way. -/
def put (n : Node) : Tree → Address → Tree
  | _, [] => ofNode n
  | t, c :: r => .directory (putEntry c (put n ((t.child? c).getD (.directory [])) r) t.entries)

/-- The names of the files in a directory. -/
def fileNames (t : Tree) : List Text :=
  t.entries.filterMap fun
    | (c, .file _ _) => some c
    | (_, .directory _) => none

mutual

/-- All that is in a tree, with its address; a directory comes before what lies in it. -/
def contents : Tree → List (Address × Node)
  | .file content t => [([], .file content t)]
  | .directory es => ([], .directory) :: contentsOf es

def contentsOf : List (Text × Tree) → List (Address × Node)
  | [] => []
  | e :: r => contentsOfEntry e ++ contentsOf r

def contentsOfEntry : Text × Tree → List (Address × Node)
  | (c, t) => t.contents.map fun e => (c :: e.1, e.2)

end

mutual

/-- No directory has two entries with one name. -/
def distinct : Tree → Bool
  | .file _ _ => true
  | .directory es => decide (es.map Prod.fst).Nodup && distinctIn es

def distinctIn : List (Text × Tree) → Bool
  | [] => true
  | e :: r => distinctEntry e && distinctIn r

def distinctEntry : Text × Tree → Bool
  | (_, t) => t.distinct

end

/-! ### What an address holds -/

theorem at?_append (t : Tree) (a b : Address) : t.at? (a ++ b) = (t.at? a).bind (·.at? b) := by
  induction a generalizing t with
  | nil => rfl
  | cons c r ih =>
    simp only [List.cons_append, at?]
    cases t.child? c with
    | none => rfl
    | some u => exact ih u

theorem at?_concat (t : Tree) (a : Address) (c : Text) :
    t.at? (a ++ [c]) = (t.at? a).bind (·.child? c) := by
  rw [at?_append]
  congr 1
  funext u
  simp [at?]

theorem node?_cons (t : Tree) (c : Text) (r : Address) :
    t.node? (c :: r) = (t.child? c).bind (·.node? r) := by
  unfold node?
  rw [at?]
  cases t.child? c <;> rfl

theorem node_of_child? {t u : Tree} {c : Text} (h : t.child? c = some u) : t.node = .directory := by
  cases t with
  | file content m => cases h
  | directory es => rfl

theorem lookup_putEntry (c d : Text) (u : Tree) (es : List (Text × Tree)) :
    (putEntry c u es).lookup d = if d = c then some u else es.lookup d := by
  induction es with
  | nil =>
    rw [putEntry, List.lookup_cons]
    split <;> simp_all
  | cons e r ih =>
    obtain ⟨x, t⟩ := e
    unfold putEntry
    by_cases here : x = c
    · subst here
      rw [if_pos rfl, List.lookup_cons, List.lookup_cons]
      split <;> simp_all
    · rw [if_neg here, List.lookup_cons, List.lookup_cons, ih]
      split
      · rename_i same
        rw [eq_of_beq same, if_neg here]
      · rfl

theorem child?_put (n : Node) (t : Tree) (c d : Text) (r : Address) :
    (put n t (c :: r)).child? d =
      if d = c then some (put n ((t.child? c).getD (.directory [])) r) else t.child? d :=
  lookup_putEntry c d _ _

@[simp] theorem node_ofNode (n : Node) : (ofNode n).node = n := by cases n <;> rfl

@[simp] theorem child?_ofNode (n : Node) (c : Text) : (ofNode n).child? c = none := by
  cases n <;> rfl

theorem node?_ofNode (n : Node) (b : Address) :
    (ofNode n).node? b = if b = [] then some n else none := by
  cases b with
  | nil => simp [node?, at?]
  | cons c r => simp [node?_cons]

/-- Whatever something lies in is a directory. -/
theorem node_of_node?_cons {t : Tree} {c : Text} {r : Address} {n : Node}
    (below : t.node? (c :: r) = some n) : t.node = .directory := by
  rw [node?_cons] at below
  obtain ⟨u, child, -⟩ := Option.bind_eq_some_iff.1 below
  exact node_of_child? child

/-- Nothing lies below what is no directory. -/
theorem node?_of_below {t : Tree} {a s : Address} (h : t.node? a ≠ some .directory)
    (more : s ≠ []) : t.node? (a ++ s) = none := by
  obtain ⟨c, r, rfl⟩ := List.exists_cons_of_ne_nil more
  refine Option.eq_none_iff_forall_ne_some.2 fun n there => ?_
  rw [node?, at?_append] at there
  cases found : t.at? a with
  | none => simp [found] at there
  | some u =>
    rw [found] at there
    exact h (by rw [node?, found, Option.map_some, node_of_node?_cons there])

/-- In a directory, what is put in place of a file or of nothing changes no other address. -/
theorem node?_put {n : Node} {t : Tree} {a : Address} (named : a ≠ [])
    (inside : t.node? a.dropLast = some .directory) (free : t.node? a ≠ some .directory)
    (b : Address) : (put n t a).node? b = if b = a then some n else t.node? b := by
  induction a generalizing t b with
  | nil => exact absurd rfl named
  | cons c r ih =>
    cases b with
    | nil =>
      have root : t.node = .directory := by
        cases r with
        | nil => exact Option.some.inj inside
        | cons c' r' => exact node_of_node?_cons inside
      rw [if_neg (by simp), node?, node?, at?, at?, Option.map_some, Option.map_some, root]
      rfl
    | cons d s =>
      by_cases along : d = c
      case neg => rw [node?_cons, child?_put, if_neg along, if_neg (by simp [along]), node?_cons]
      subst along
      rw [node?_cons, child?_put, if_pos rfl, Option.bind_some]
      cases r with
      | nil =>
        rw [put, node?_ofNode]
        by_cases here : s = []
        · rw [if_pos here, if_pos (by rw [here])]
        · have below : t.node? (d :: s) = none := node?_of_below (a := [d]) free here
          rw [if_neg here, if_neg (by simp [here]), below]
      | cons c' r' =>
        rw [List.dropLast_cons_of_ne_nil (by simp), node?_cons] at inside
        obtain ⟨u, child, below⟩ := Option.bind_eq_some_iff.1 inside
        rw [node?_cons, child, Option.bind_some] at free
        rw [child, Option.getD_some, ih (by simp) below free, node?_cons, child, Option.bind_some]
        simp

/-! ### Listing a tree -/

theorem contentsOf_eq_flatMap (es : List (Text × Tree)) :
    contentsOf es = es.flatMap contentsOfEntry := by
  induction es with
  | nil => rfl
  | cons e r ih => rw [contentsOf, ih, List.flatMap_cons]

theorem mem_contents_of_at? {t u : Tree} {a : Address} (h : t.at? a = some u) :
    (a, u.node) ∈ t.contents := by
  induction a generalizing t with
  | nil =>
    cases h
    cases u <;> simp [contents, node]
  | cons c r ih =>
    rw [at?] at h
    obtain ⟨v, child, below⟩ := Option.bind_eq_some_iff.1 h
    cases t with
    | file content m => cases child
    | directory es =>
      obtain ⟨front, back, split, -⟩ := List.lookup_eq_some_iff.1 child
      have listed : (c, v) ∈ (directory es).entries :=
        split ▸ List.mem_append_right _ List.mem_cons_self
      rw [contents, contentsOf_eq_flatMap]
      refine List.mem_cons_of_mem _ (List.mem_flatMap.2 ⟨(c, v), listed, ?_⟩)
      rw [contentsOfEntry]
      exact List.mem_map.2 ⟨(r, u.node), ih below, rfl⟩

theorem mem_contents {t : Tree} {a : Address} {n : Node} (h : t.node? a = some n) :
    (a, n) ∈ t.contents := by
  obtain ⟨u, there, rfl⟩ := Option.map_eq_some_iff.1 h
  exact mem_contents_of_at? there

/-! ### Names are distinct -/

theorem distinctIn_iff {es : List (Text × Tree)} :
    distinctIn es = true ↔ ∀ e ∈ es, e.2.distinct = true := by
  induction es with
  | nil => simp [distinctIn]
  | cons e r ih =>
    obtain ⟨c, t⟩ := e
    simp [distinctIn, distinctEntry, ih]

theorem distinct_directory {es : List (Text × Tree)} :
    (directory es).distinct = true ↔ (es.map Prod.fst).Nodup ∧ ∀ e ∈ es, e.2.distinct = true := by
  rw [distinct, Bool.and_eq_true, decide_eq_true_eq, distinctIn_iff]

theorem distinct_directory_entries {t : Tree} (h : t.distinct = true) :
    (directory t.entries).distinct = true := by
  cases t with
  | file content m => rfl
  | directory es => exact h

theorem nodup_names {t : Tree} (h : t.distinct = true) : (t.entries.map Prod.fst).Nodup := by
  cases t with
  | file content m => exact List.nodup_nil
  | directory es => exact (distinct_directory.1 h).1

theorem fileNames_sublist (t : Tree) : t.fileNames.Sublist (t.entries.map Prod.fst) := by
  unfold fileNames
  induction t.entries with
  | nil => exact .slnil
  | cons e r ih =>
    obtain ⟨c, u⟩ := e
    cases u with
    | file content m => exact ih.cons_cons c
    | directory es => exact ih.cons c

theorem nodup_fileNames {t : Tree} (h : t.distinct = true) : t.fileNames.Nodup :=
  (fileNames_sublist t).nodup (nodup_names h)

theorem distinct_of_mem_entries {t : Tree} {e : Text × Tree} (h : t.distinct = true)
    (mem : e ∈ t.entries) : e.2.distinct = true := by
  cases t with
  | file content m => cases mem
  | directory es => exact (distinct_directory.1 h).2 e mem

theorem distinct_of_child? {t u : Tree} {c : Text} (h : t.distinct = true)
    (child : t.child? c = some u) : u.distinct = true := by
  obtain ⟨front, back, split, -⟩ := List.lookup_eq_some_iff.1 child
  exact distinct_of_mem_entries (e := (c, u)) h (by simp [split])

theorem distinct_of_at? {t u : Tree} {a : Address} (h : t.distinct = true)
    (there : t.at? a = some u) : u.distinct = true := by
  induction a generalizing t with
  | nil => cases there; exact h
  | cons c r ih =>
    rw [at?] at there
    obtain ⟨v, child, below⟩ := Option.bind_eq_some_iff.1 there
    exact ih (distinct_of_child? h child) below

theorem mem_putEntry {c : Text} {u : Tree} {es : List (Text × Tree)} {e : Text × Tree}
    (h : e ∈ putEntry c u es) : e = (c, u) ∨ e ∈ es := by
  induction es with
  | nil => exact .inl (List.mem_singleton.1 h)
  | cons x r ih =>
    unfold putEntry at h
    split at h <;> rcases List.mem_cons.1 h with rfl | h
    · exact .inl rfl
    · exact .inr (List.mem_cons_of_mem _ h)
    · exact .inr List.mem_cons_self
    · exact (ih h).imp_right (List.mem_cons_of_mem _)

theorem nodup_putEntry {c : Text} {u : Tree} {es : List (Text × Tree)}
    (h : (es.map Prod.fst).Nodup) : ((putEntry c u es).map Prod.fst).Nodup := by
  induction es with
  | nil => simp [putEntry]
  | cons x r ih =>
    rw [List.map_cons, List.nodup_cons] at h
    unfold putEntry
    split
    · rename_i same
      rw [List.map_cons, List.nodup_cons]
      exact same ▸ h
    · rename_i other
      rw [List.map_cons, List.nodup_cons]
      refine ⟨fun mem => ?_, ih h.2⟩
      obtain ⟨e, listed, name⟩ := List.mem_map.1 mem
      rcases mem_putEntry listed with rfl | old
      · exact other name.symm
      · exact h.1 (List.mem_map.2 ⟨e, old, name⟩)

theorem distinct_put {n : Node} {t : Tree} {a : Address} (h : t.distinct = true) :
    (put n t a).distinct = true := by
  induction a generalizing t with
  | nil => cases n <;> rfl
  | cons c r ih =>
    rw [put, distinct_directory]
    refine ⟨nodup_putEntry (nodup_names h), fun e mem => ?_⟩
    rcases mem_putEntry mem with rfl | old
    · refine ih ?_
      cases child : t.child? c with
      | none => rfl
      | some u => exact distinct_of_child? h child
    · exact distinct_of_mem_entries h old

end Tree

end BuildMatrix
