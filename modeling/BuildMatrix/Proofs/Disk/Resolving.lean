import BuildMatrix.Disk.Writing
import BuildMatrix.Proofs.Disk.Following
import BuildMatrix.Proofs.Disk.Naming

/-! What names resolve to. A name that leads to something resolves to its address, unless a name
from the root on the way is too long. Then the name stands for itself, by its parts, and these still
say where it leads: whatever has one identity is in one place, `destination_of_identity_eq`. What is
in one place has one identity where names resolve, and a disk without long addresses resolves every
name. -/

set_option autoImplicit false

namespace BuildMatrix

namespace Pathname

variable {p q : Text}

/-- The parts of a name say whether it starts at the root, and which way it goes. -/
theorem way_of_parts (p : Text) :
    (isRooted p = true ↔ (parts p).head? = some ['/']) ∧
      (components p).filter (fun c => !isFiller c) =
        (parts p).filter fun c => !isFiller c && c != ['/'] := by
  obtain ⟨first, rest, shape⟩ := List.exists_cons_of_ne_nil (List.splitOn_ne_nil '/' p)
  have whole : components p = first :: rest := shape
  have named : ∀ c ∈ components p, c ≠ ['/'] := fun c member same =>
    slash_not_mem member (same ▸ List.mem_singleton.2 rfl)
  rw [whole] at named
  have later : (rest.filter fun c => !isFiller c).filter (fun c => !isFiller c && c != ['/']) =
      rest.filter fun c => !isFiller c := by
    refine List.filter_eq_self.2 fun c member => ?_
    obtain ⟨listed, leads⟩ := List.mem_filter.1 member
    simp [leads, named c (List.mem_cons_of_mem _ listed)]
  rw [isRooted_iff whole, parts, whole]
  dsimp only
  by_cases empty : first = []
  · by_cases none : rest = []
    · subst empty none
      have relative : isRooted p ≠ true := fun rooted => ((isRooted_iff whole).1 rooted).2 rfl
      simp [relative, isFiller]
    · have rooted : isRooted p = true := (isRooted_iff whole).2 ⟨empty, none⟩
      subst empty
      refine ⟨by simp [rooted, none], ?_⟩
      rw [if_neg (by simp), if_pos rooted, List.filter_append, later]
      simp [isFiller]
  · have other := named first List.mem_cons_self
    refine ⟨by simp [empty, other], ?_⟩
    simp only [ne_eq, empty, not_false_eq_true, if_true, List.singleton_append, List.filter_cons,
      later]
    by_cases leads : isFiller first <;> simp [leads, other]

end Pathname

namespace Disk

variable {d : Disk} {a : Address} {n : Node} {p q : Text} {cs : List Text}

theorem canonicalize?_eq_some_iff :
    d.canonicalize? p = some a ↔
      isNameable (d.startOf p) (Pathname.components p) = true ∧ ∃ n, d.findAny p = .ok (a, n) := by
  unfold canonicalize?
  cases d.findAny p with
  | error w => simp
  | ok found =>
    obtain ⟨b, n⟩ := found
    by_cases nameable : isNameable (d.startOf p) (Pathname.components p) = true
    · simp [nameable]
    · simp [nameable]

theorem identity_eq_at_iff : d.identity p = .at a ↔ d.canonicalize? p = some a := by
  unfold identity
  cases d.canonicalize? p <;> simp

/-! ### Names with the same parts -/

theorem along_filter (a : Address) (cs : List Text) :
    Address.along a (cs.filter fun c => !Pathname.isFiller c) = Address.along a cs := by
  induction cs generalizing a with
  | nil => rfl
  | cons c cs ih =>
    cases filler : Pathname.isFiller c with
    | true => simp [filler, ih, Address.follow_filler filler]
    | false => simp [filler, ih]

theorem isNameable_filter (a : Address) (cs : List Text) :
    isNameable a (cs.filter fun c => !Pathname.isFiller c) = isNameable a cs := by
  induction cs generalizing a with
  | nil => rfl
  | cons c cs ih =>
    cases filler : Pathname.isFiller c with
    | true => simp [filler, isNameable, ih, Address.follow_filler filler]
    | false => simp [filler, isNameable, ih]

/-- Names with the same parts start in one place and go one way. -/
theorem startOf_of_parts_eq (d : Disk) (same : Pathname.parts p = Pathname.parts q) :
    d.startOf p = d.startOf q := by
  have rooted : Pathname.isRooted p = Pathname.isRooted q := by
    rw [Bool.eq_iff_iff, (Pathname.way_of_parts p).1, (Pathname.way_of_parts q).1, same]
  rw [startOf, startOf, rooted]

theorem destination_of_parts_eq (d : Disk) (same : Pathname.parts p = Pathname.parts q) :
    d.destination p = d.destination q := by
  rw [destination, destination, startOf_of_parts_eq d same,
    ← along_filter _ (Pathname.components p), ← along_filter _ (Pathname.components q),
    (Pathname.way_of_parts p).2, (Pathname.way_of_parts q).2, same]

/-- What has one identity is in one place. -/
theorem destination_of_identity_eq (same : d.identity p = d.identity q) :
    d.destination p = d.destination q := by
  have resolved {x : Text} {a : Address} (some : d.canonicalize? x = some a) :
      d.destination x = a := by
    obtain ⟨-, n, found⟩ := canonicalize?_eq_some_iff.1 some
    exact (findAny_eq_ok_iff.1 found).2.2.1
  unfold identity at same
  cases one : d.canonicalize? p with
  | some a =>
    cases other : d.canonicalize? q with
    | some b =>
      rw [one, other] at same
      cases same
      rw [resolved one, resolved other]
    | none => simp [one, other] at same
  | none =>
    cases other : d.canonicalize? q with
    | some b => simp [one, other] at same
    | none =>
      rw [one, other] at same
      exact destination_of_parts_eq d (Identity.named.inj same)

/-- What is spelled with the same parts has one identity, if it exists by both spellings. -/
theorem identity_of_parts_eq {m : Node} {b : Address} (same : Pathname.parts p = Pathname.parts q)
    (one : d.findAny p = .ok (a, n)) (other : d.findAny q = .ok (b, m)) :
    d.identity p = d.identity q := by
  obtain rfl : a = b := by
    rw [← (findAny_eq_ok_iff.1 one).2.2.1, ← (findAny_eq_ok_iff.1 other).2.2.1,
      destination_of_parts_eq d same]
  have nameable : isNameable (d.startOf p) (Pathname.components p) =
      isNameable (d.startOf q) (Pathname.components q) := by
    rw [startOf_of_parts_eq d same, ← isNameable_filter _ (Pathname.components p),
      ← isNameable_filter _ (Pathname.components q), (Pathname.way_of_parts p).2,
      (Pathname.way_of_parts q).2, same]
  rw [identity, identity, canonicalize?, canonicalize?, one, other, nameable, same]

/-! ### Names that resolve -/

/-- Whatever a name of any length leads to is what it resolves to. -/
def Resolves (d : Disk) (p : Text) : Prop :=
  ∀ a n, d.findAny p = .ok (a, n) → d.canonicalize? p = some a

theorem Resolves.identity (h : d.Resolves p) (found : d.findAny p = .ok (a, n)) :
    d.identity p = .at a :=
  identity_eq_at_iff.2 (h a n found)

/-- Names that resolve have one identity exactly if they lead to one thing. -/
theorem identity_eq_iff (one : d.Resolves p) (other : d.Resolves q)
    (found : d.findAny p = .ok (a, n)) :
    d.identity q = d.identity p ↔ d.findAny q = .ok (a, n) := by
  rw [one.identity found]
  refine ⟨fun same => ?_, other.identity⟩
  obtain ⟨-, m, there⟩ := canonicalize?_eq_some_iff.1 (identity_eq_at_iff.1 same)
  have held := (findAny_eq_ok_iff.1 found).2.2.2
  rw [(findAny_eq_ok_iff.1 there).2.2.2] at held
  rw [there, Option.some.inj held]

/-- A disk on which no address is too long. -/
def Shallow (d : Disk) : Prop := ∀ e ∈ d.root.contents, Address.byteCount e.1 ≤ longestPathname

instance (d : Disk) : Decidable d.Shallow :=
  inferInstanceAs (Decidable (∀ e ∈ d.root.contents, Address.byteCount e.1 ≤ longestPathname))

theorem Shallow.isNameable (h : d.Shallow) (passable : d.Passable a cs)
    (there : (d.node? (Address.along a cs)).isSome) : isNameable a cs = true := by
  induction cs generalizing a with
  | nil => rfl
  | cons c cs ih =>
    -- what is entered exists: it is the end of the way, or the way leads on from it
    obtain ⟨n, entered⟩ : ∃ n, d.node? (a.follow c) = some n := by
      cases cs with
      | nil => exact Option.isSome_iff_exists.1 there
      | cons e cs => exact ⟨_, passable.2.2.1⟩
    have short := h _ (Tree.mem_contents entered)
    simp [Disk.isNameable, short, ih passable.2.2 there]

/-- There every name resolves. -/
theorem Shallow.resolves (h : d.Shallow) (p : Text) : d.Resolves p := fun a n found => by
  obtain ⟨-, passable, rfl, there⟩ := findAny_eq_ok_iff.1 found
  exact canonicalize?_eq_some_iff.2
    ⟨h.isNameable passable (by rw [← destination, there]; rfl), n, found⟩

/-- A directory far below the root. -/
def deepDirectory : Address := List.replicate 15 (List.replicate 250 'd') ++ [("a" : Text)]

/-- Two names that lead from there to a directory with a byte too many to be named from the root. -/
def deepWay : List Text := [List.replicate 150 'b', List.replicate 177 'c']

/-- A name that leads to the way's end and back again. -/
def deepDetour : Text := ['/'].intercalate (deepWay ++ [(".." : Text), ".."])

/-- A file far below the root, seen from the directory it lies in. -/
def deepDisk (file content : Text) : Disk :=
  ((Disk.bare deepDirectory ⟨0⟩).withFile (deepDirectory ++ [file])
    (Text.toUtf8 content)).withDirectory (deepDirectory ++ deepWay)

end Disk

end BuildMatrix
