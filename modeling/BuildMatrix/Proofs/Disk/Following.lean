import BuildMatrix.Disk.Basic
import BuildMatrix.Proofs.Path.Canonical
import Mathlib.Data.List.Induction

/-! Following names by addresses. There are no links, so the components of a name alone say which
address it leads to, and the disk says only whether the way is open. Whatever is said about names
here is said in these two parts: the destination, and the open way to it. -/

set_option autoImplicit false

namespace BuildMatrix

def Address.along (a : Address) (cs : List Text) : Address := cs.foldl Address.follow a

namespace Address

variable {a b : Address} {c : Text} {cs ds names : List Text}

@[simp] theorem along_nil (a : Address) : Address.along a [] = a := rfl

@[simp] theorem along_cons (a : Address) (c : Text) (cs : List Text) :
    Address.along a (c :: cs) = Address.along (Address.follow a c) cs := rfl

theorem along_append (a : Address) (cs ds : List Text) :
    Address.along a (cs ++ ds) = Address.along (Address.along a cs) ds :=
  List.foldl_append ..

theorem follow_filler (h : Pathname.isFiller c = true) : Address.follow a c = a := if_pos h

theorem follow_up (a : Address) : Address.follow a ".." = a.dropLast := rfl

theorem isFiller_of_isName (h : Path.IsName c) : Pathname.isFiller c = false := by
  simp only [Pathname.isFiller, Bool.or_eq_false_iff, beq_eq_false_iff_ne]
  exact ⟨h.1, h.2.1⟩

theorem follow_name (h : Path.IsName c) : Address.follow a c = a ++ [c] := by
  rw [Address.follow, if_neg (by simp [isFiller_of_isName h]), if_neg h.2.2.1]

theorem along_names (plain : ∀ c ∈ names, Path.IsName c) : Address.along a names = a ++ names := by
  induction names generalizing a with
  | nil => simp
  | cons c rest ih =>
    rw [along_cons, follow_name (plain c List.mem_cons_self),
      ih fun d member => plain d (List.mem_cons_of_mem _ member), List.append_assoc]
    rfl

theorem along_ups_above (a : Address) (n : Nat) :
    Address.along a (List.replicate n "..") <+: a := by
  induction n generalizing a with
  | zero => exact List.prefix_rfl
  | succ n ih =>
    rw [List.replicate_succ, along_cons, follow_up]
    exact (ih _).trans (List.dropLast_prefix a)

end Address

namespace Disk

variable {d e : Disk} {a b : Address} {c p q : Text} {cs ds : List Text}

/-- Components that can be followed from an address, if it is a directory. -/
def Takes (d : Disk) (a : Address) (c : Text) : Prop :=
  (c = ".." → a = [] → d.above = .root) ∧ Text.byteCount c ≤ longestName

/-- Every component leads on from a directory. What the last one leads to need not exist. -/
def Passable (d : Disk) : Address → List Text → Prop
  | _, [] => True
  | a, c :: cs => d.node? a = some .directory ∧ d.Takes a c ∧ d.Passable (Address.follow a c) cs

theorem passable_append :
    d.Passable a (cs ++ ds) ↔ d.Passable a cs ∧ d.Passable (Address.along a cs) ds := by
  induction cs generalizing a with
  | nil => simp [Passable]
  | cons c cs ih => simp only [List.cons_append, Passable, ih, Address.along_cons, and_assoc]

/-- What was passed is a directory. -/
theorem Passable.directory (h : d.Passable a (cs ++ c :: ds)) :
    d.node? (Address.along a cs) = some .directory :=
  (passable_append.1 h).2.1

/-- A way stays open where the directories on it are there. -/
theorem Passable.transfer (h : d.Passable a cs) (above : e.above = d.above)
    (there : ∀ front c back, cs = front ++ c :: back →
      e.node? (Address.along a front) = some .directory) : e.Passable a cs := by
  induction cs generalizing a with
  | nil => trivial
  | cons c cs ih =>
    obtain ⟨-, takes, rest⟩ := h
    refine ⟨there [] c cs rfl, ⟨fun up top => above.trans (takes.1 up top), takes.2⟩, ?_⟩
    refine ih rest fun front x back split => ?_
    exact there (c :: front) x back (by rw [split, List.cons_append])

/-! ### Directories around what exists -/

theorem node?_dropLast (there : (d.node? a).isSome) : d.node? a.dropLast = some .directory := by
  rcases List.eq_nil_or_concat a with rfl | ⟨r, c, rfl⟩
  · rfl
  · obtain ⟨n, held⟩ := Option.isSome_iff_exists.1 there
    rw [List.concat_eq_append] at held ⊢
    rw [node?, Tree.node?, Tree.at?_concat] at held
    obtain ⟨t, below, -⟩ := Option.map_eq_some_iff.1 held
    obtain ⟨u, around, child⟩ := Option.bind_eq_some_iff.1 below
    rw [List.dropLast_concat, node?, Tree.node?, around, Option.map_some,
      Tree.node_of_child? child]

theorem node?_of_prefix (there : (d.node? a).isSome) (inside : b <+: a) (other : b ≠ a) :
    d.node? b = some .directory := by
  -- from the innermost directory outwards, until the prefix is met
  induction a using List.reverseRecOn with
  | nil => exact absurd (List.prefix_nil.1 inside) other
  | append_singleton r c ih =>
    have around := node?_dropLast there
    rw [List.dropLast_concat] at around
    rcases List.prefix_concat_iff.1 inside with same | inside
    · exact absurd (same.trans (List.concat_eq_append ..).symm) (by simpa using other)
    · by_cases same : b = r
      · rw [same, around]
      · exact ih (by rw [around]; rfl) inside same

/-! ### Places by their addresses -/

theorem Traced.unique {r s : List (Text × Option Tree)} (one : d.Traced r) (other : d.Traced s)
    (same : r.map Prod.fst = s.map Prod.fst) : r = s := by
  induction r generalizing s with
  | nil => exact (List.map_eq_nil_iff.1 same.symm).symm
  | cons x r ih =>
    cases s with
    | nil => cases same
    | cons y s =>
      have rest := ih one.2 other.2 (List.cons.inj same).2
      have held : x.2 = y.2 := by rw [one.1, other.1, same]
      rw [rest, Prod.ext (List.cons.inj same).1 held]

/-- Only the address tells places apart. -/
theorem Place.ext {x y : Place d} (same : x.address = y.address) : x = y := by
  obtain ⟨r, one⟩ := x
  obtain ⟨s, other⟩ := y
  obtain rfl := Traced.unique one other (List.reverse_inj.1 same)
  rfl

theorem Place.node?_eq_directory {x : Place d} :
    d.node? x.address = some .directory ↔ ∃ es, x.tree = some (.directory es) := by
  rw [← x.map_node_tree]
  cases x.tree with
  | none => simp
  | some t => cases t <;> simp [Tree.node]

section

variable {x y : Place d} {es : List (Text × Tree)} (directory : x.tree = some (.directory es))
include directory

theorem Place.step_filler (filler : Pathname.isFiller c = true) :
    x.step c = .ok y ↔ d.Takes x.address c ∧ y.address = Address.follow x.address c := by
  have stays : c = "" ∨ c = "." := (Bool.or_eq_true_iff.1 filler).imp eq_of_beq eq_of_beq
  have takes : d.Takes x.address c := by
    rcases stays with rfl | rfl <;> exact ⟨by simp, by decide⟩
  rw [Place.step, directory]
  dsimp only
  rw [if_pos filler, Address.follow_filler filler, Except.ok.injEq]
  constructor
  · rintro rfl
    exact ⟨takes, rfl⟩
  · rintro ⟨-, same⟩
    exact (Place.ext same).symm

theorem Place.step_up :
    x.step ".." = .ok y ↔ d.Takes x.address ".." ∧ y.address = Address.follow x.address ".." := by
  have top : x.trail = [] ↔ x.address = [] := by simp [Place.address]
  -- only the root can have nothing above it
  have takes : d.Takes x.address ".." ↔ ¬ (x.trail = [] ∧ d.above = .nothing) := by
    have short : Text.byteCount ['.', '.'] ≤ longestName := by decide
    rw [top, Takes]
    cases d.above <;> simp [short]
  rw [Place.step, directory, takes, Address.follow_up, ← Place.address_up]
  dsimp only
  rw [if_neg (by decide), if_pos rfl]
  split
  · rename_i out
    simp [out]
  · rename_i inside
    rw [Except.ok.injEq]
    exact ⟨fun same => ⟨inside, by rw [same]⟩, fun same => (Place.ext same.2).symm⟩

theorem Place.step_down (filler : ¬ Pathname.isFiller c = true) (up : c ≠ "..") :
    x.step c = .ok y ↔ d.Takes x.address c ∧ y.address = Address.follow x.address c := by
  have takes : d.Takes x.address c ↔ ¬ longestName < Text.byteCount c := by
    rw [Takes, Nat.not_lt]
    exact and_iff_right fun h => absurd h up
  rw [Place.step, directory, takes, Address.follow, if_neg filler, if_neg up, ← Place.address_down]
  dsimp only
  rw [if_neg filler, if_neg up]
  split
  · rename_i long
    simp [long]
  · rename_i short
    rw [Except.ok.injEq]
    exact ⟨fun same => ⟨short, by rw [same]⟩, fun same => (Place.ext same.2).symm⟩

end

theorem Place.follow_cons {x y : Place d} :
    x.follow (c :: cs) = .ok y ↔ ∃ m, x.step c = .ok m ∧ m.follow cs = .ok y := by
  unfold follow
  rw [List.foldlM_cons]
  cases x.step c <;> simp [bind, Except.bind]

theorem Place.step_eq_ok_iff {x y : Place d} :
    x.step c = .ok y ↔
      d.node? x.address = some .directory ∧ d.Takes x.address c ∧
        y.address = Address.follow x.address c := by
  rw [Place.node?_eq_directory]
  cases tree : x.tree with
  | none => simp [Place.step, tree]
  | some t =>
    cases t with
    | file content m => simp [Place.step, tree]
    | directory es =>
      rw [and_iff_right ⟨es, rfl⟩]
      by_cases filler : Pathname.isFiller c = true
      · exact Place.step_filler tree filler
      · by_cases up : c = ".."
        · rw [up]
          exact Place.step_up tree
        · exact Place.step_down tree filler up

theorem Place.follow_eq_ok_iff {x y : Place d} :
    x.follow cs = .ok y ↔ d.Passable x.address cs ∧ y.address = Address.along x.address cs := by
  induction cs generalizing x with
  | nil =>
    constructor
    · rintro ⟨⟩
      exact ⟨trivial, rfl⟩
    · rintro ⟨-, same⟩
      rw [Place.ext same]
      rfl
  | cons c cs ih =>
    rw [Place.follow_cons]
    constructor
    · rintro ⟨m, first, rest⟩
      obtain ⟨directory, takes, reached⟩ := Place.step_eq_ok_iff.1 first
      obtain ⟨passable, last⟩ := ih.1 rest
      rw [reached] at passable last
      exact ⟨⟨directory, takes, passable⟩, last⟩
    · rintro ⟨⟨directory, takes, passable⟩, last⟩
      have reached : (Place.atAddress d (Address.follow x.address c)).address =
          Address.follow x.address c := Place.address_atAddress _
      refine ⟨Place.atAddress d (Address.follow x.address c),
        Place.step_eq_ok_iff.2 ⟨directory, takes, reached⟩, ih.2 ?_⟩
      rw [reached]
      exact ⟨passable, last⟩

/-! ### Whole names -/

/-- The address a name leads to, whether or not anything is there. -/
def destination (d : Disk) (p : Text) : Address :=
  Address.along (d.startOf p) (Pathname.components p)

/-- Names that a disk takes at all. -/
structure IsPathname (p : Text) : Prop where
  noNul : '\x00' ∉ p
  filled : p ≠ []
  short : Text.byteCount p ≤ longestPathname

/-- The way to the destination of a name is open. -/
structure Reaches (d : Disk) (p : Text) : Prop where
  pathname : IsPathname p
  passable : d.Passable (d.startOf p) (Pathname.components p)

theorem address_origin (d : Disk) (p : Text) : (d.origin p).address = d.startOf p :=
  Place.address_atAddress _

theorem checkName_eq_ok : checkName p = .ok () ↔ '\x00' ∉ p ∧ p ≠ [] := by
  unfold checkName
  by_cases nul : '\x00' ∈ p
  · simp [nul]
  · by_cases empty : p = [] <;> simp [nul, empty]

theorem checkLength_eq_ok : checkLength p = .ok () ↔ Text.byteCount p ≤ longestPathname := by
  unfold checkLength
  split
  · simp only [reduceCtorEq, false_iff]
    omega
  · simp only [true_iff]
    omega

theorem locateAny_eq_ok_iff {x : Place d} :
    d.locateAny p = .ok x ↔ ('\x00' ∉ p ∧ p ≠ []) ∧
      d.Passable (d.startOf p) (Pathname.components p) ∧ x.address = d.destination p := by
  rw [locateAny, bind_eq_ok, ← checkName_eq_ok]
  constructor
  · rintro ⟨⟨⟩, name, followed⟩
    rw [Place.follow_eq_ok_iff, address_origin] at followed
    exact ⟨name, followed⟩
  · rintro ⟨name, followed⟩
    refine ⟨(), name, ?_⟩
    rw [Place.follow_eq_ok_iff, address_origin]
    exact followed

theorem findAny_eq_ok_iff {n : Node} :
    d.findAny p = .ok (a, n) ↔ ('\x00' ∉ p ∧ p ≠ []) ∧
      d.Passable (d.startOf p) (Pathname.components p) ∧ d.destination p = a ∧
        d.node? a = some n := by
  rw [findAny_eq_ok]
  constructor
  · rintro ⟨x, located, rfl, there⟩
    obtain ⟨name, passable, here⟩ := locateAny_eq_ok_iff.1 located
    exact ⟨name, passable, here.symm, there⟩
  · rintro ⟨name, passable, rfl, there⟩
    have here := Place.address_atAddress (d := d) (d.destination p)
    exact ⟨.atAddress d (d.destination p), locateAny_eq_ok_iff.2 ⟨name, passable, here⟩, here,
      there⟩

/-- Only the length of its name keeps from opening what a name leads to. -/
theorem find_eq_ok_iff_findAny {n : Node} :
    d.find p = .ok (a, n) ↔ Text.byteCount p ≤ longestPathname ∧ d.findAny p = .ok (a, n) := by
  rw [find_eq_ok, findAny_eq_ok, ← checkLength_eq_ok]
  simp only [locate_eq_ok, and_assoc, exists_and_left]

theorem find_eq_ok_iff {n : Node} :
    d.find p = .ok (a, n) ↔ d.Reaches p ∧ d.destination p = a ∧ d.node? a = some n := by
  rw [find_eq_ok_iff_findAny, findAny_eq_ok_iff]
  constructor
  · rintro ⟨short, ⟨noNul, filled⟩, passable, led⟩
    exact ⟨⟨⟨noNul, filled, short⟩, passable⟩, led⟩
  · rintro ⟨⟨⟨noNul, filled, short⟩, passable⟩, led⟩
    exact ⟨short, ⟨noNul, filled⟩, passable, led⟩

theorem findFile_eq_ok_iff {content : Text.Bytes} :
    d.findFile p = .ok (a, content) ↔
      d.Reaches p ∧ d.destination p = a ∧ ∃ t, d.node? a = some (.file content t) := by
  constructor
  · intro found
    obtain ⟨x, located, here, t, there⟩ := findFile_eq_ok.1 found
    obtain ⟨reaches, led, there⟩ := find_eq_ok_iff.1 (find_eq_ok.2 ⟨x, located, here, there⟩)
    exact ⟨reaches, led, t, there⟩
  · rintro ⟨reaches, led, t, there⟩
    obtain ⟨x, located, here, there⟩ := find_eq_ok.1 (find_eq_ok_iff.2 ⟨reaches, led, there⟩)
    exact findFile_eq_ok.2 ⟨x, located, here, t, there⟩

theorem destination_of_file? (found : d.file? p = some a) : d.destination p = a := by
  obtain ⟨content, found⟩ := file?_eq_some.1 found
  exact (findFile_eq_ok_iff.1 found).2.1

theorem read_eq_ok_iff {content : Text.Bytes} :
    d.read p = .ok content ↔
      d.Reaches p ∧ ∃ t, d.node? (d.destination p) = some (.file content t) := by
  unfold read
  constructor
  · intro found
    cases file : d.findFile p with
    | error e => rw [file] at found; cases found
    | ok r =>
      obtain ⟨a, bytes⟩ := r
      rw [file] at found
      cases found
      obtain ⟨reaches, rfl, there⟩ := findFile_eq_ok_iff.1 file
      exact ⟨reaches, there⟩
  · rintro ⟨reaches, there⟩
    rw [findFile_eq_ok_iff.2 ⟨reaches, rfl, there⟩]
    rfl

theorem readText_eq_ok_iff {t : Text} :
    d.readText p = .ok t ↔
      ∃ a content, d.findFile p = .ok (a, content) ∧ Text.ofUtf8 content = t := by
  unfold readText read
  cases d.findFile p with
  | error e => simp [Except.map]
  | ok found => simp [Except.map, Prod.ext_iff]

theorem exists?_iff : d.exists? p = true ↔ d.Reaches p ∧ (d.node? (d.destination p)).isSome := by
  unfold exists?
  constructor
  · intro found
    cases here : d.find p with
    | error e => rw [here] at found; cases found
    | ok r =>
      obtain ⟨a, n⟩ := r
      obtain ⟨reaches, rfl, there⟩ := find_eq_ok_iff.1 here
      exact ⟨reaches, by rw [there]; rfl⟩
  · rintro ⟨reaches, there⟩
    obtain ⟨n, held⟩ := Option.isSome_iff_exists.1 there
    rw [find_eq_ok_iff.2 ⟨reaches, rfl, held⟩]
    rfl

end Disk

end BuildMatrix
