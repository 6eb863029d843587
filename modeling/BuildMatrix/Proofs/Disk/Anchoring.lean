import BuildMatrix.Proofs.Disk.Changes

/-! Names inside a directory. A path in normal form first leads up from the directory and then down,
so the way to it passes directories around that one, and then addresses that lie above the
destination. What is made on such a way therefore always lies above the destination, and what is
there can be reached wherever it is there. -/

set_option autoImplicit false

namespace BuildMatrix

open BuildMatrix.Path (Route)

/-- Where a route leads from an address. -/
def Address.route (a : Address) (r : Route) : Address :=
  Address.along (if r.rooted then [] else a) (List.replicate r.ups "..") ++ r.names

/-! ### Ways -/

namespace Address

variable {a b : Address} {cs front names : List Text} {n : Nat}

theorem along_fillers (fillers : ∀ c ∈ cs, Pathname.isFiller c = true) (a : Address) :
    Address.along a cs = a := by
  induction cs generalizing a with
  | nil => rfl
  | cons c cs ih =>
    rw [along_cons, follow_filler (fillers c List.mem_cons_self)]
    exact ih (fun d member => fillers d (List.mem_cons_of_mem _ member)) a

/-- Going up, every address on the way lies above the first one. -/
theorem along_prefix_of_ups (inside : front <+: List.replicate n (".." : Text)) (a : Address) :
    Address.along a front <+: a := by
  rw [List.prefix_iff_eq_take, List.take_replicate] at inside
  rw [inside]
  exact along_ups_above a _

/-- Going down, every address on the way lies above the last one. -/
theorem along_prefix_of_names (plain : ∀ c ∈ names, Path.IsName c) (inside : front <+: names)
    (a : Address) : Address.along a front <+: a ++ names := by
  rw [along_names fun c member => plain c (inside.subset member)]
  exact (List.prefix_append_right_inj a).2 inside

end Address

namespace Disk

variable {d e : Disk} {a b : Address} {p dir file : Text} {r : Route} {made : Address → Prop}
  {written : List Address}

/-- A name that leads to a directory on an open way. -/
structure Rests (d : Disk) (p : Text) : Prop where
  passable : d.Passable (d.startOf p) (Pathname.components p)
  directory : d.node? (d.destination p) = some .directory

/-- A name on whose way there are directories, and addresses above its destination. -/
def Anchored (d : Disk) (p : Text) : Prop :=
  ∀ front, front <+: Pathname.components p →
    d.node? (Address.along (d.startOf p) front) = some .directory ∨
      Address.along (d.startOf p) front <+: d.destination p

/-- The address from which a route is followed that is named inside a directory. -/
def baseOf (d : Disk) (dir : Text) (r : Route) : Address :=
  if r.rooted then [] else d.destination dir

/-- A route is followed from its base. What comes before leads along the directory. -/
theorem exists_lead (h : Pathname.Spells p r) (d : Disk) (dir : Text) :
    ∃ lead rest, Pathname.components (Pathname.join dir p) = lead ++ r.components ++ rest ∧
      (∀ c ∈ rest, Pathname.isFiller c = true) ∧
      Address.along (d.startOf (Pathname.join dir p)) lead = d.baseOf dir r ∧
      ∀ front, front <+: lead →
        Address.along (d.startOf (Pathname.join dir p)) front = d.baseOf dir r ∨
          d.startOf (Pathname.join dir p) = d.startOf dir ∧
            front <+: Pathname.components dir := by
  obtain ⟨⟨pad, rest, text, pads, rests⟩, rooted⟩ := h
  by_cases root : r.rooted = true
  · -- a rooted path takes no notice of the directory
    have whole : Pathname.join dir p = p := Pathname.join_rooted (rooted.trans root) dir
    have base : d.startOf p = d.baseOf dir r := by
      rw [startOf, baseOf, rooted, if_pos root, if_pos root]
    rw [whole]
    refine ⟨pad, rest, text, rests, by rw [Address.along_fillers pads, base],
      fun front inside => ?_⟩
    exact .inl (by rw [Address.along_fillers fun c member => pads c (inside.subset member), base])
  · rw [Bool.not_eq_true] at root
    obtain ⟨front, blank, whole, blanks, joined, start⟩ :=
      Pathname.components_join_relative dir (rooted.trans root)
    have start : d.startOf (Pathname.join dir p) = d.startOf dir := by rw [startOf, startOf, start]
    have base : Address.along (d.startOf dir) front = d.baseOf dir r := by
      rw [baseOf, root, if_neg Bool.false_ne_true, destination, whole, Address.along_append,
        Address.along_fillers blanks]
    rw [start]
    refine ⟨front ++ pad, rest, by rw [joined, text]; simp, rests, ?_, fun part inside => ?_⟩
    · rw [Address.along_append, Address.along_fillers pads, base]
    · rcases List.prefix_or_prefix_of_prefix inside (List.prefix_append front pad) with
        before | ⟨more, rfl⟩
      · -- still among the components of the directory itself
        exact .inr ⟨rfl, before.trans (by rw [whole]; exact List.prefix_append _ _)⟩
      · rw [List.prefix_append_right_inj] at inside
        refine .inl ?_
        rw [Address.along_append,
          Address.along_fillers fun c member => pads c (inside.subset member), base]

/-- The destination of a route that is named in a directory. -/
theorem destination_join (h : r.Normal) (spells : Pathname.Spells p r) (d : Disk) (dir : Text) :
    d.destination (Pathname.join dir p) = (d.destination dir).route r := by
  obtain ⟨lead, rest, whole, rests, base, -⟩ := exists_lead spells d dir
  rw [destination, whole, Address.along_append, Address.along_append, base,
    Address.along_fillers rests, Route.components, Address.along_append,
    Address.along_names h.names]
  rfl

theorem destination_join_canonical (d : Disk) (dir p : Text) :
    d.destination (Pathname.join dir (Path.canonical p)) =
      (d.destination dir).route (Path.route p) := by
  refine destination_join (Path.route_normal p) ?_ d dir
  by_cases empty : p = []
  · rw [empty]
    exact Pathname.spells_nil
  · rw [Path.canonical_eq_text empty]
    exact Pathname.spells_text (Path.route_normal p)

theorem Rests.stage {front : List Text} (h : d.Rests p) (inside : front <+: Pathname.components p) :
    d.node? (Address.along (d.startOf p) front) = some .directory := by
  obtain ⟨more, whole⟩ := inside
  cases more with
  | nil =>
    rw [List.append_nil] at whole
    rw [whole]
    exact h.directory
  | cons c back =>
    have passable := h.passable
    rw [← whole] at passable
    exact passable.directory

/-- Along a route there are directories on the way up, and on the way down addresses above its
end. -/
theorem node?_along_components {front : List Text} (h : r.Normal)
    (base : d.node? a = some .directory) (inside : front <+: r.components) :
    d.node? (Address.along a front) = some .directory ∨
      Address.along a front <+: Address.along a (List.replicate r.ups "..") ++ r.names := by
  rw [Route.components] at inside
  rcases List.prefix_or_prefix_of_prefix inside (List.prefix_append _ r.names) with
    up | ⟨down, rfl⟩
  · have above := Address.along_prefix_of_ups up a
    by_cases same : Address.along a front = a
    · rw [same]
      exact .inl base
    · exact .inl <| node?_of_prefix (by rw [base]; rfl) above same
  · rw [List.prefix_append_right_inj] at inside
    rw [Address.along_append]
    exact .inr (Address.along_prefix_of_names h.names inside _)

theorem anchored_join (rests : d.Rests dir) (h : r.Normal) (spells : Pathname.Spells p r) :
    d.Anchored (Pathname.join dir p) := by
  obtain ⟨lead, rest, whole, fillers, base, leads⟩ := exists_lead spells d dir
  have directory : d.node? (d.baseOf dir r) = some .directory := by
    rw [baseOf]
    split
    · rfl
    · exact rests.directory
  intro front inside
  rw [destination_join h spells]
  rw [whole, List.append_assoc] at inside
  rcases List.prefix_or_prefix_of_prefix inside (List.prefix_append lead _) with
    before | ⟨more, rfl⟩
  · -- on the way to where the route starts, which is known to be passable
    refine .inl ?_
    rcases leads front before with same | ⟨start, before⟩
    · rw [same, directory]
    · rw [start]
      exact rests.stage before
  rw [List.prefix_append_right_inj] at inside
  rw [Address.along_append, base]
  rcases List.prefix_or_prefix_of_prefix inside (List.prefix_append _ rest) with
    before | ⟨end', rfl⟩
  · exact node?_along_components h directory before
  · -- what follows leads nowhere
    rw [List.prefix_append_right_inj] at inside
    rw [Route.components, Address.along_append,
      Address.along_fillers fun c member => fillers c (inside.subset member),
      Address.along_append, Address.along_names h.names]
    exact .inr List.prefix_rfl

/-! ### What an anchored name leads to -/

/-- What is made on the way lies above the destination. -/
theorem Anchored.prefix_of_onWay (h : d.Anchored p) (way : d.OnWay p b) (none : d.node? b = none) :
    b <+: d.destination p := by
  obtain ⟨front, inside, rfl⟩ := way
  rcases h front inside with there | above
  · rw [none] at there
    cases there
  · exact above

/-- What is there and can be reached later could be reached before. -/
theorem Anchored.reaches (h : d.Anchored p) (altered : Altered d e made written)
    (there : (d.node? (d.destination p)).isSome) (later : e.Reaches p) : d.Reaches p := by
  refine ⟨later.pathname, ?_⟩
  have passable := later.passable
  rw [altered.startOf] at passable
  refine passable.transfer altered.above.symm fun front c back split => ?_
  rw [split] at passable
  have directory := passable.directory
  rcases h front (split ▸ List.prefix_append _ _) with was | above
  · exact was
  by_cases same : Address.along (d.startOf p) front = d.destination p
  · -- a file would not have become a directory
    rw [same] at directory ⊢
    have unwritten : d.destination p ∉ written := fun member => by
      obtain ⟨-, content, t, file⟩ := altered.file _ member
      rw [file] at directory
      cases directory
    rcases altered.node _ unwritten with kept | ⟨none, -, -⟩
    · rw [← kept, directory]
    · simp [none] at there
  · exact node?_of_prefix there above same

theorem Altered.anchored (altered : Altered d e made written) (h : d.Anchored p) :
    e.Anchored p := by
  intro front inside
  rw [altered.startOf, altered.destination]
  exact (h front inside).imp_left altered.directory

/-- A name exists after changes exactly if it existed before, unless it was written or made. -/
theorem Anchored.exists?_eq (h : d.Anchored p) (altered : Altered d e made written)
    (unwritten : d.destination p ∉ written)
    (unmade : d.node? (d.destination p) = none → ¬ made (d.destination p)) :
    e.exists? p = d.exists? p := by
  rw [Bool.eq_iff_iff, exists?_iff, exists?_iff, altered.destination]
  rcases altered.node _ unwritten with same | ⟨none, -, here⟩
  · rw [same]
    constructor
    · rintro ⟨reaches, there⟩
      exact ⟨h.reaches altered there reaches, there⟩
    · rintro ⟨reaches, there⟩
      exact ⟨altered.reaches reaches, there⟩
  · exact absurd here (unmade none)

/-- A file that is read after changes was there before, unless it was written. -/
theorem Anchored.read (h : d.Anchored p) (altered : Altered d e made written)
    (unwritten : d.destination p ∉ written) {content : Text.Bytes}
    (later : e.read p = .ok content) :
    d.read p = .ok content := by
  obtain ⟨reaches, t, there⟩ := read_eq_ok_iff.1 later
  rw [altered.destination] at there
  have there := altered.before unwritten there
  exact read_eq_ok_iff.2 ⟨h.reaches altered (by simp [there]) reaches, t, there⟩

/-! ### The directory of a file -/

theorem rests_of_passable {c : Text} {back : List Text} (start : d.startOf p = a)
    (h : d.Passable a (Pathname.components p ++ c :: back)) : d.Rests p := by
  obtain ⟨passable, directory, -⟩ := passable_append.1 h
  rw [← start] at passable directory
  exact ⟨passable, directory⟩

/-- What stands before a name can be entered if the name can be reached. -/
theorem Reaches.rests_parent (h : d.Reaches file) (first : Pathname.parent? file = some dir)
    (filled : dir ≠ []) : d.Rests dir := by
  have passable := h.passable
  obtain ⟨rooted, ⟨c, back, whole⟩ | rfl⟩ :=
    Pathname.ancestor_components (Pathname.mem_ancestors_of_parent? first) filled
  · rw [whole] at passable
    exact rests_of_passable (by rw [startOf, startOf, rooted]) passable
  · have takes : d.Takes [] [] := ⟨fun up => absurd up (by decide), by decide⟩
    exact ⟨⟨rfl, takes, rfl, takes, trivial⟩, rfl⟩

/-- A relative name is followed from a directory. -/
theorem Reaches.rests_here (h : d.Reaches file) (relative : Pathname.isRooted file = false) :
    d.Rests "." := by
  have passable := h.passable
  obtain ⟨c, rest, whole⟩ := List.exists_cons_of_ne_nil (List.splitOn_ne_nil '/' file)
  have start : d.startOf file = d.startOf "." := by rw [startOf, startOf, relative]; rfl
  rw [Pathname.components, whole, start] at passable
  exact ⟨⟨passable.1, ⟨fun up => absurd up (by decide), by decide⟩, trivial⟩, passable.1⟩

/-- A file lies in a directory. -/
theorem Reaches.rests_directory (h : d.Reaches file)
    (other : d.node? (d.destination file) ≠ some .directory) :
    d.Rests (Pathname.directory file) := by
  -- the directory is one of its ancestors, or the one from which a bare name is followed
  cases parent : (Pathname.parent? file).filter (· ≠ []) with
  | some dir =>
    obtain ⟨first, filled⟩ := Option.filter_eq_some_iff.1 parent
    have filled : dir ≠ [] := by simpa using filled
    have named : Pathname.directory file = dir := by
      rw [Pathname.directory, first]
      exact if_neg filled
    exact named ▸ h.rests_parent first filled
  | none =>
    have named : Pathname.directory file = "." := by
      rw [Pathname.directory]
      cases first : Pathname.parent? file with
      | none => rfl
      | some dir =>
        rw [first, Option.filter_some] at parent
        have empty : dir = [] := by simpa using parent
        exact if_pos empty
    have relative : Pathname.isRooted file = false := by
      by_contra rooted
      rw [Bool.not_eq_false] at rooted
      have fillers := Pathname.fillers_of_parent? rooted parent
      refine other ?_
      rw [destination, startOf, if_pos rooted, Address.along_fillers fillers]
      rfl
    exact named ▸ h.rests_here relative

end Disk

end BuildMatrix
