import BuildMatrix.Proofs.Disk.Following
import BuildMatrix.Proofs.Text.Lowercase
import Mathlib.Data.Bool.AllAny

/-! Disks on which letter case does not matter: no two things on them differ only in the case of
their addresses. There the names of existing things tell as much in lower case as they do as they
are spelled. -/

set_option autoImplicit false

namespace BuildMatrix.Disk

/-- No two existing things have addresses that differ only in letter case. -/
def CaseDistinct (d : Disk) : Prop :=
  ∀ e ∈ d.root.contents, ∀ f ∈ d.root.contents,
    e.1.map Text.lowercase = f.1.map Text.lowercase → e.1 = f.1

instance (d : Disk) : Decidable d.CaseDistinct :=
  inferInstanceAs (Decidable (∀ e ∈ d.root.contents, ∀ f ∈ d.root.contents,
    e.1.map Text.lowercase = f.1.map Text.lowercase → e.1 = f.1))

variable {d : Disk}

namespace Place

variable {p q r : Place d} {c : Text} {cs ds : List Text}

/-- One component leads nowhere, up, or down to what has its name. -/
theorem step_eq_ok (h : p.step c = .ok q) :
    p.tree.isSome ∧ ((c = "" ∨ c = ".") ∧ q = p ∨ c = ".." ∧ q = p.up ∨
      (c ≠ "" ∧ c ≠ "." ∧ c ≠ "..") ∧ q = p.down c) := by
  unfold step at h
  split at h <;> try contradiction
  rename_i there
  refine ⟨by simp [there], ?_⟩
  have filler : Pathname.isFiller c = true ↔ c = "" ∨ c = "." := by simp [Pathname.isFiller]
  by_cases stays : c = "" ∨ c = "."
  · rw [if_pos (filler.2 stays)] at h
    exact .inl ⟨stays, (Except.ok.inj h).symm⟩
  rw [if_neg (mt filler.1 stays)] at h
  by_cases up : c = ".."
  · rw [if_pos up] at h
    split at h
    · cases h
    · exact .inr (.inl ⟨up, (Except.ok.inj h).symm⟩)
  · rw [if_neg up] at h
    split at h
    · cases h
    · obtain ⟨some, here⟩ := not_or.1 stays
      exact .inr (.inr ⟨⟨some, here, up⟩, (Except.ok.inj h).symm⟩)

theorem eq_down_of_step (h : p.step c = .ok q) (name : ¬ (c = "" ∨ c = "." ∨ c = "..")) :
    q = p.down c := by
  obtain ⟨-, ⟨stays, -⟩ | ⟨up, -⟩ | ⟨-, down⟩⟩ := step_eq_ok h
  · exact absurd (stays.imp_right .inl) name
  · exact absurd (.inr (.inr up)) name
  · exact down

/-- What lies on the way to something exists. -/
theorem isSome_of_follow (h : p.follow cs = .ok q) (there : q.tree.isSome) : p.tree.isSome := by
  cases cs with
  | nil =>
    cases h
    exact there
  | cons c cs =>
    obtain ⟨m, first, -⟩ := follow_cons.1 h
    exact (step_eq_ok first).1

theorem exists_mem_contents (there : p.tree.isSome) : ∃ n, (p.address, n) ∈ d.root.contents := by
  obtain ⟨t, tree⟩ := Option.isSome_iff_exists.1 there
  have node := p.map_node_tree
  rw [tree] at node
  exact ⟨t.node, Tree.mem_contents node.symm⟩

end Place

namespace CaseDistinct

variable {p q r : Place d} {c e : Text} {cs ds : List Text}

theorem down_eq (h : d.CaseDistinct) (one : (p.down c).tree.isSome) (other : (p.down e).tree.isSome)
    (same : Text.lowercase c = Text.lowercase e) : c = e := by
  obtain ⟨m, first⟩ := Place.exists_mem_contents one
  obtain ⟨n, second⟩ := Place.exists_mem_contents other
  rw [Place.address_down] at first second
  have equal := h _ first _ second (by simp [same])
  simpa using equal

/-- Components that are no names have no letters. -/
theorem eq_of_special (special : c = "" ∨ c = "." ∨ c = "..")
    (same : Text.lowercase e = Text.lowercase c) : e = c := by
  have kept : Text.lowercase c = c ∧ c.all (fun x => x.toNat < 65) = true := by
    rcases special with rfl | rfl | rfl <;> decide +kernel
  rw [kept.1] at same
  exact Text.eq_of_lowercase_eq_low same (List.all_iff_forall_prop.1 kept.2)

/-- Two ways from one place to existing things that differ only in letter case are one way. -/
theorem follow_eq (h : d.CaseDistinct) (one : p.follow cs = .ok q) (there : q.tree.isSome)
    (other : p.follow ds = .ok r) (here : r.tree.isSome)
    (same : cs.map Text.lowercase = ds.map Text.lowercase) : cs = ds := by
  -- both ways are at the same place as long as their components are equal
  induction cs generalizing p ds with
  | nil => exact (List.map_eq_nil_iff.1 same.symm).symm
  | cons c cs ih =>
    cases ds with
    | nil => cases same
    | cons e ds =>
      obtain ⟨letters, rest⟩ := List.cons.inj same
      obtain ⟨m, first, later⟩ := Place.follow_cons.1 one
      obtain ⟨n, second, last⟩ := Place.follow_cons.1 other
      have equal : c = e := by
        by_cases special : c = "" ∨ c = "." ∨ c = ".."
        · exact (eq_of_special special letters.symm).symm
        by_cases special' : e = "" ∨ e = "." ∨ e = ".."
        · exact eq_of_special special' letters
        -- two names: what they lead down to exists, since the ways go on from there
        have one := Place.isSome_of_follow later there
        have two := Place.isSome_of_follow last here
        rw [Place.eq_down_of_step first special] at one
        rw [Place.eq_down_of_step second special'] at two
        exact h.down_eq one two letters
      subst equal
      rw [first] at second
      cases second
      rw [ih later last rest]

theorem isRooted_eq {p q : Text} (same : Text.lowercase p = Text.lowercase q) :
    Pathname.isRooted p = Pathname.isRooted q := by
  have one : ∀ {p q : Text}, Text.lowercase p = Text.lowercase q → Pathname.isRooted p = true →
      Pathname.isRooted q = true := by
    intro p q same rooted
    cases p with
    | nil => cases rooted
    | cons c t =>
      have slash : c = '/' := by simpa [Pathname.isRooted] using rooted
      have split := Text.lowercase_append_separator [] t
      rw [List.nil_append, ← slash, same] at split
      have first : (Text.lowercase q).head? = some '/' := by
        rw [split, slash]
        rfl
      simp [Pathname.isRooted, Text.head?_of_head?_lowercase first (by decide)]
  rw [Bool.eq_iff_iff]
  exact ⟨one same, one same.symm⟩

/-- No two names of files differ only in letter case. -/
theorem eq_of_isFile (h : d.CaseDistinct) {p q : Text} (one : d.isFile p) (other : d.isFile q)
    (same : Text.lowercase p = Text.lowercase q) : p = q := by
  -- a file is reached from the place where its path starts
  have reached : ∀ {p : Text}, d.isFile p → ∃ place : Place d,
      (d.origin p).follow (Pathname.components p) = .ok place ∧ place.tree.isSome := by
    intro p file
    obtain ⟨a, found⟩ := Option.isSome_iff_exists.1 file
    obtain ⟨content, found⟩ := file?_eq_some.1 found
    obtain ⟨place, located, here, t, there⟩ := findFile_eq_ok.1 found
    obtain ⟨-, -, reached⟩ := bind_eq_ok.1 (locate_eq_ok.1 located).2
    have held := place.map_node_tree
    rw [here, there] at held
    obtain ⟨u, tree, -⟩ := Option.map_eq_some_iff.1 held
    exact ⟨place, reached, by simp [tree]⟩
  obtain ⟨x, first, there⟩ := reached one
  obtain ⟨y, second, here⟩ := reached other
  have origin : d.origin q = d.origin p := by
    rw [origin, origin, startOf, startOf, isRooted_eq same]
  rw [origin] at second
  have components : (Pathname.components p).map Text.lowercase =
      (Pathname.components q).map Text.lowercase := by
    rw [Pathname.components, Pathname.components, ← Text.splitOn_lowercase,
      ← Text.splitOn_lowercase, same]
  have equal := h.follow_eq first there second here components
  have joined := congrArg ['/'].intercalate equal
  rwa [Pathname.components, Pathname.components, List.intercalate_splitOn,
    List.intercalate_splitOn] at joined

theorem lowercase_join {dir p q : Text} (same : Text.lowercase p = Text.lowercase q) :
    Text.lowercase (Pathname.join dir p) = Text.lowercase (Pathname.join dir q) := by
  unfold Pathname.join
  rw [isRooted_eq same]
  split
  · exact same
  · split
    · rename_i last
      obtain ⟨front, rfl⟩ := List.getLast?_eq_some_iff.1 last
      rw [List.append_assoc, List.append_assoc, List.singleton_append, List.singleton_append,
        Text.lowercase_append_separator, Text.lowercase_append_separator, same]
    · rw [Text.lowercase_append_separator, Text.lowercase_append_separator, same]

/-- Files in a directory that have one key have one normal form. -/
theorem eq_of_foldCase_eq (h : d.CaseDistinct) (dir : Text) {p q : Text}
    (one : d.isFile (Pathname.join dir (Path.canonical p)))
    (other : d.isFile (Pathname.join dir (Path.canonical q)))
    (same : Path.foldCase p = Path.foldCase q) : Path.canonical p = Path.canonical q := by
  have joined := h.eq_of_isFile one other (lowercase_join same)
  have rooted := isRooted_eq same
  unfold Pathname.join at joined
  rw [rooted] at joined
  split at joined
  · exact joined
  · split at joined
    · exact List.append_cancel_left joined
    · exact (List.cons.inj (List.append_cancel_left joined)).2

end CaseDistinct

end BuildMatrix.Disk
