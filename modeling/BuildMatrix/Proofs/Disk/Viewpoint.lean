import BuildMatrix.Proofs.Disk.Directories

/-! Directories as seen from another one. A directory that is named inside a directory, inside a
further one and so on is reached from the first one by a single route, the normal form of all the
names together. The route leads to the same directory, its way is open wherever that of the names
was, and its text is not longer. -/

set_option autoImplicit false

namespace BuildMatrix

open BuildMatrix.Path (Route)

/-! ### Routes by steps -/

namespace Path

variable {r b : Route} {p t : Text} {cs : List Text}

theorem components_eq_pathname (free : '\\' ∉ t) : components t = Pathname.components t := by
  rw [components, Pathname.components, List.splitOn_eq_splitOnP]
  induction t with
  | nil => rfl
  | cons x t ih =>
    obtain ⟨other, rest⟩ := not_or.1 (mt List.mem_cons.2 free)
    have same : isSeparator x = (x == '/') := by simp [isSeparator, Ne.symm other]
    rw [List.splitOnP_cons_eq_if_modifyHead, List.splitOnP_cons_eq_if_modifyHead, same, ih rest]

theorem isRooted_eq_pathname (free : '\\' ∉ t) : isRooted t = Pathname.isRooted t := by
  cases t with
  | nil => rfl
  | cons x t =>
    have other : x ≠ '\\' := fun same => free (by simp [same])
    simp [isRooted, isSeparator, Pathname.isRooted, other]

theorem foldl_fillers (fillers : ∀ c ∈ cs, Pathname.isFiller c = true) (r : Route) :
    cs.foldl Route.follow r = r := by
  induction cs with
  | nil => rfl
  | cons c cs ih =>
    obtain ⟨first, rest⟩ := List.forall_mem_cons.1 fillers
    have stays : c = "" ∨ c = "." := by simpa [Pathname.isFiller] using first
    rw [List.foldl_cons, Route.follow, if_pos stays, ih rest]

/-- Without backslashes, a path is followed along the components that the disk sees. -/
theorem route_eq_components (free : '\\' ∉ t) :
    route t = (Pathname.components t).foldl Route.follow ⟨Pathname.isRooted t, 0, []⟩ := by
  rw [route, components_eq_pathname free, isRooted_eq_pathname free]

/-- A slash at the end of a path leads nowhere. -/
theorem foldl_steps (t : Text) (r : Route) :
    (Pathname.steps t).foldl Route.follow r = (Pathname.components t).foldl Route.follow r := by
  rcases Pathname.components_eq_steps t with same | same
  · rw [same]
  · rw [same, List.foldl_append]
    rfl

theorem route_eq_steps (free : '\\' ∉ t) :
    route t = (Pathname.steps t).foldl Route.follow ⟨Pathname.isRooted t, 0, []⟩ := by
  rw [route_eq_components free, foldl_steps]

theorem rooted_route (free : '\\' ∉ t) : (route t).rooted = Pathname.isRooted t := by
  rw [route_eq_components free, Route.rooted_foldl]

/-- A relative path goes on from a route along its components. -/
theorem join_route (free : '\\' ∉ t) (relative : Pathname.isRooted t = false) (b : Route) :
    b.join (route t) = (Pathname.components t).foldl Route.follow b := by
  have plain : ∀ c ∈ Pathname.components t, ∀ x ∈ c, isSeparator x = false :=
    components_eq_pathname free ▸ fun c => not_isSeparator_of_mem_components
  rw [route_eq_components free, relative, Route.join_foldl ⟨by simp, by simp⟩ rfl plain,
    Route.join_start]

/-- A name in a directory, where the directory is written as the disk takes it. -/
theorem route_pathname_join {c : Text} (filled : t ≠ []) (free : '\\' ∉ t) (name : IsName c) :
    route (Pathname.join t c) = (route t).join (route c) := by
  have unrooted := isRooted_name name
  have backslash : '\\' ∉ c := fun member => by simpa [isSeparator] using name.2.2.2 _ member
  have whole : '\\' ∉ Pathname.join t c := fun member =>
    backslash ((Pathname.mem_join_iff (by decide) free).1 member)
  rw [join_route backslash unrooted, route_eq_components whole, route_eq_steps free,
    Pathname.components_join filled unrooted, Pathname.isRooted_join filled unrooted,
    List.foldl_append]

end Path

namespace Pathname

variable {p dir c : Text}

theorem byteCount_join_nil_eq (filled : p ≠ []) :
    Text.byteCount (join p []) = ((steps p).map fun c => Text.byteCount c + 1).sum := by
  have whole (s : Text) : Text.byteCount (s ++ ['/']) =
      ((components s).map fun c => Text.byteCount c + 1).sum := by
    have text : ['/'].intercalate (components s) = s := List.intercalate_splitOn '/'
    have some : components s ≠ [] := List.splitOn_ne_nil '/' s
    rw [← Path.byteCount_intercalate some, text, Path.byteCount_append]
    rfl
  rw [join_nil filled, steps, ← whole]
  split
  · rename_i slash
    obtain ⟨front, rfl⟩ := List.getLast?_eq_some_iff.1 slash
    rw [List.dropLast_concat]
  · rfl

theorem exists_steps_of_rooted (rooted : isRooted p = true) : ∃ rest, steps p = [] :: rest := by
  obtain ⟨first, rest, shape⟩ := List.exists_cons_of_ne_nil (steps_ne_nil p)
  refine ⟨rest, ?_⟩
  rcases components_eq_steps p with same | same
  · rw [shape] at same
    rw [shape, ((isRooted_iff same).1 rooted).1]
  · rw [shape, List.cons_append] at same
    rw [shape, ((isRooted_iff same).1 rooted).1]

theorem mem_join_left {x : Char} (relative : isRooted c = false) (member : x ∈ p) :
    x ∈ join p c := by
  have filled : p ≠ [] := List.ne_nil_of_mem member
  rw [join_relative relative, join_nil filled]
  split <;> simp [member]

/-- The directory of a name is not longer than what stands before the name. -/
theorem byteCount_directory_le (filled : dir ≠ []) (name : Path.IsName c) :
    Text.byteCount (join (directory (join dir c)) []) + Text.byteCount c ≤
      Text.byteCount (join dir c) := by
  obtain ⟨-, fillers, -, whole⟩ := exists_steps_directory_join filled name
  have right := byteCount_join (Path.isRooted_name name) dir
  rw [byteCount_join_nil_eq filled, whole, List.map_append, List.sum_append] at right
  rw [byteCount_join_nil_eq (trimmed_directory _).ne_nil]
  omega

/-- What is left out of the way to a name in a directory, up to that directory, leads nowhere. -/
theorem exists_fillers_directory_join (filled : dir ≠ []) (relative : isRooted p = false)
    (name : Path.IsName c) :
    ∃ left, (∀ c ∈ left, isFiller c = true) ∧
      steps dir ++ components p = steps (directory (join (join dir p) c)) ++ left := by
  obtain ⟨-, fillers, fills, whole⟩ := exists_steps_directory_join (join_ne_nil filled p) name
  rw [← components_join filled relative]
  rcases components_eq_steps (join dir p) with same | same
  · exact ⟨fillers, fills, same.trans whole⟩
  · refine ⟨fillers ++ [[]], ?_, by rw [same, whole, List.append_assoc]⟩
    exact List.forall_mem_append.2 ⟨fills, by decide⟩

/-- From the root, the directory of a name is not shorter than its route. -/
theorem weight_route_le (rooted : isRooted p = true) (free : '\\' ∉ p) (name : Path.IsName c) :
    (Path.route p).weight ≤ Text.byteCount (join (directory (join p c)) []) := by
  have filled : p ≠ [] := by
    rintro rfl
    cases rooted
  obtain ⟨root, fillers, fills, whole⟩ := exists_steps_directory_join filled name
  obtain ⟨rest, shape⟩ := exists_steps_of_rooted (root.trans rooted)
  have cut : Path.route p = rest.foldl Route.follow ⟨true, 0, []⟩ := by
    rw [Path.route_eq_steps free, rooted, whole, List.foldl_append, Path.foldl_fillers fills,
      shape, List.foldl_cons]
    rfl
  have weight := Path.weight_foldl_le ⟨true, 0, []⟩ rest
  have start : (Route.mk true 0 []).weight = 1 := rfl
  have empty : Text.byteCount [] = 0 := rfl
  rw [byteCount_join_nil_eq (trimmed_directory _).ne_nil, cut, shape, List.map_cons,
    List.sum_cons, empty]
  omega

end Pathname

/-! ### Going up -/

namespace Address

theorem length_along_ups (a : Address) (n : Nat) :
    (Address.along a (List.replicate n "..")).length = a.length - n := by
  induction n generalizing a with
  | zero => rfl
  | succ n ih =>
    rw [List.replicate_succ, along_cons, follow_up, ih, List.length_dropLast]
    omega

end Address

namespace Disk

variable {d : Disk} {a : Address} {b r : Route} {p t x dir inner c : Text} {cs : List Text}

/-- A step does not lead further up than the disk goes, where going up from the root is an error. -/
theorem ups_follow_le (nothing : d.above = .nothing) (takes : d.Takes (a.route r) c)
    (inside : r.ups ≤ a.length) : (r.follow c).ups ≤ a.length := by
  unfold Route.follow
  split
  · exact inside
  split
  · rename_i up
    split
    · exact inside
    rename_i none
    split
    · exact inside
    rename_i relative
    have here : a.route r = Address.along a (List.replicate r.ups "..") := by
      rw [Address.route, if_neg relative, not_not.1 none, List.append_nil]
    have left : (a.route r).length ≠ 0 := fun top => by
      have root := takes.1 up (List.length_eq_zero_iff.1 top)
      rw [nothing] at root
      cases root
    rw [here, Address.length_along_ups] at left
    dsimp only
    omega
  · exact inside

theorem ups_foldl_le (nothing : d.above = .nothing) (passable : d.Passable (a.route r) cs)
    (inside : r.ups ≤ a.length) : (cs.foldl Route.follow r).ups ≤ a.length := by
  induction cs generalizing r with
  | nil => exact inside
  | cons c cs ih =>
    obtain ⟨-, takes, rest⟩ := passable
    rw [← Address.route_follow] at rest
    exact ih rest (ups_follow_le nothing takes inside)

theorem passable_ups {n : Nat} (directory : d.node? a = some .directory)
    (climbs : d.above = .nothing → n ≤ a.length) :
    d.Passable a (List.replicate n "..") := by
  induction n generalizing a with
  | zero => trivial
  | succ n ih =>
    refine ⟨directory, ⟨fun _ top => ?_, by decide⟩, ih ?_ fun nothing => ?_⟩
    · cases above : d.above with
      | root => rfl
      | nothing => simp [top] at climbs; exact absurd above climbs
    · rw [Address.follow_up]
      exact node?_dropLast (by rw [directory]; rfl)
    · have enough := climbs nothing
      rw [Address.follow_up, List.length_dropLast]
      omega

theorem passable_names {names : List Text} (plain : ∀ n ∈ names, Path.IsName n)
    (short : ∀ n ∈ names, Text.byteCount n ≤ longestName)
    (there : d.node? (a ++ names) = some .directory) : d.Passable a names := by
  induction names generalizing a with
  | nil => trivial
  | cons n names ih =>
    obtain ⟨name, plain⟩ := List.forall_mem_cons.1 plain
    obtain ⟨first, short⟩ := List.forall_mem_cons.1 short
    refine ⟨?_, ⟨fun up => absurd up name.2.2.1, first⟩, ih plain short ?_⟩
    · exact node?_of_prefix (by rw [there]; rfl) (List.prefix_append _ _) (by simp)
    · rwa [Address.follow_name name, List.append_assoc, List.singleton_append]

/-- The way of a route between directories is open. -/
theorem passable_of_spells (h : r.Normal) (spells : Pathname.Spells p r)
    (start : d.node? a = some .directory) (there : d.node? (a.route r) = some .directory)
    (short : ∀ n ∈ r.names, Text.byteCount n ≤ longestName)
    (climbs : d.above = .nothing → r.ups ≤ a.length) :
    d.Passable (if r.rooted then [] else a) (Pathname.components p) := by
  obtain ⟨⟨pad, rest, whole, pads, fillers⟩, -⟩ := spells
  have base : d.node? (if r.rooted then [] else a) = some .directory := by
    split
    · rfl
    · exact start
  have up : d.Passable (if r.rooted then [] else a) (List.replicate r.ups "..") := by
    refine passable_ups base fun nothing => ?_
    cases rooted : r.rooted with
    | true => exact (h.rooted rooted).le.trans (Nat.zero_le _)
    | false => exact climbs nothing
  rw [whole, passable_append, passable_append, Address.along_append, Address.along_fillers pads,
    Route.components, passable_append, Address.along_append, Address.along_names h.names]
  exact ⟨⟨passable_fillers pads base, up, passable_names h.names short there⟩,
    passable_fillers fillers there⟩

/-! ### A directory by the normal form of its name -/

theorem destination_join_route (free : '\\' ∉ p) (d : Disk) (dir : Text) :
    d.destination (Pathname.join dir p) = (d.destination dir).route (Path.route p) := by
  cases rooted : Pathname.isRooted p with
  | true =>
    rw [Pathname.join_rooted rooted, destination, startOf, if_pos rooted,
      Path.route_eq_components free, rooted, Address.route_foldl]
    rfl
  | false =>
    rw [destination_join_relative rooted, Path.route_eq_components free, rooted,
      Address.route_foldl]
    simp [Address.route]

theorem destination_join_place (free : '\\' ∉ p) (d : Disk) (dir : Text) :
    d.destination (Pathname.join dir (Path.route p).place) =
      d.destination (Pathname.join dir p) := by
  have normal := Path.route_normal p
  rw [destination_join normal (Pathname.spells_place normal), destination_join_route free]

/-- The way that a name goes back and forth is open where it leads, too. -/
theorem Passable.place (free : '\\' ∉ p) (start : d.node? a = some .directory)
    (there : d.node? (a.route (Path.route p)) = some .directory)
    (passable : d.Passable (if Pathname.isRooted p then [] else a) (Pathname.components p)) :
    d.Passable (if Pathname.isRooted p then [] else a)
      (Pathname.components (Path.route p).place) := by
  have normal := Path.route_normal p
  have followed := Path.route_eq_components free
  have short : ∀ n ∈ (Path.route p).names, Text.byteCount n ≤ longestName := fun n member => by
    rw [followed] at member
    exact passable.short n ((Path.mem_names_foldl member).resolve_left List.not_mem_nil)
  have climbs : d.above = .nothing → (Path.route p).ups ≤ a.length := fun nothing => by
    cases rooted : Pathname.isRooted p with
    | true => exact (normal.rooted ((Path.rooted_route free).trans rooted)).le.trans (Nat.zero_le _)
    | false =>
      rw [rooted, if_neg Bool.false_ne_true] at passable
      have here : a.route ⟨false, 0, []⟩ = a := List.append_nil a
      rw [followed, rooted]
      exact ups_foldl_le nothing (here.symm ▸ passable) (Nat.zero_le _)
  rw [← Path.rooted_route free]
  exact passable_of_spells normal (Pathname.spells_place normal) start there short climbs

theorem Rests.place (free : '\\' ∉ p) (rests : d.Rests (Pathname.join dir p)) :
    d.Rests (Pathname.join dir (Path.route p).place) := by
  have root : Pathname.isRooted (Path.route p).place = Pathname.isRooted p :=
    (Pathname.spells_place (Path.route_normal p)).rooted.trans (Path.rooted_route free)
  have passable := rests.passable
  have there := rests.directory
  refine ⟨?_, destination_join_place free d dir ▸ there⟩
  rw [destination_join_route free] at there
  cases rooted : Pathname.isRooted p with
  | true =>
    -- the directory outside does not count
    have top : Address.route [] (Path.route p) = (d.destination dir).route (Path.route p) := by
      simp [Address.route, Path.rooted_route free, rooted]
    have place := Passable.place (a := []) free rfl (top ▸ there)
    rw [rooted, if_pos rfl] at place
    rw [Pathname.join_rooted rooted, startOf, if_pos rooted] at passable
    rw [Pathname.join_rooted (root.trans rooted), startOf, if_pos (root.trans rooted)]
    exact place passable
  | false =>
    have outer := rests_of_passable_join rooted passable
    have place := Passable.place free outer.directory there
    rw [rooted, if_neg Bool.false_ne_true] at place
    rw [passable_join_iff outer rooted] at passable
    rw [passable_join_iff outer (root.trans rooted)]
    exact place passable

/-! ### A directory as seen from another one -/

/-- `inner` names the directory to which the route `b` leads from `dir`. What is named in it is not
shorter than what is named along the route. -/
structure Seen (d : Disk) (dir : Text) (b : Route) (inner : Text) : Prop where
  rests : d.Rests inner
  filled : inner ≠ []
  noNul : '\x00' ∉ inner
  normal : b.Normal
  plain : ∀ n ∈ b.names, '\x00' ∉ n
  short : ∀ n ∈ b.names, Text.byteCount n ≤ longestName
  climbs : d.above = .nothing → b.ups ≤ (d.destination dir).length
  destination : d.destination inner = (d.destination dir).route b
  long : (if b.rooted then 0 else Text.byteCount (Pathname.join dir [])) + b.weight ≤
    Text.byteCount (Pathname.join inner [])

theorem seen_start (rests : d.Rests dir) (filled : dir ≠ []) (noNul : '\x00' ∉ dir) :
    d.Seen dir ⟨false, 0, []⟩ dir where
  rests := rests
  filled := filled
  noNul := noNul
  normal := ⟨by simp, by simp⟩
  plain := by simp
  short := by simp
  climbs _ := Nat.zero_le _
  destination := by simp [Address.route]
  long := Nat.le_refl _

/-- The way to a name in a directory is open step by step. -/
theorem Rests.passable_steps (rests : d.Rests inner) (filled : p ≠ []) (name : Path.IsName c)
    (reaches : d.Reaches (Pathname.join (Pathname.join inner p) c)) :
    d.Passable (if Pathname.isRooted p then [] else d.destination inner) (Pathname.steps p) := by
  have unrooted := Path.isRooted_name name
  have root := Pathname.isRooted_join filled unrooted
  rw [← Pathname.join_join unrooted] at reaches
  have whole := Pathname.components_join filled unrooted
  cases rooted : Pathname.isRooted p with
  | true =>
    have passable := reaches.passable
    rw [Pathname.join_rooted (root.trans rooted), startOf, if_pos (root.trans rooted), whole]
      at passable
    exact (passable_append.1 passable).1
  | false =>
    have passable := ((reaches_join_iff rests (root.trans rooted)).1 reaches).2
    rw [whole] at passable
    exact (passable_append.1 passable).1

namespace Seen

variable (h : d.Seen dir b inner)
include h

/-- The route to a directory around a file grows at most as much as its name does, unless the
file's directory is spelled like the one that it was looked for from. -/
theorem long_enter (free : '\\' ∉ p) (name : Path.IsName c)
    (elsewhere : Pathname.parts (Pathname.directory (Pathname.join (Pathname.join inner p) c)) ≠
      Pathname.parts inner) :
    (if (b.join (Path.route p)).rooted then 0 else Text.byteCount (Pathname.join dir [])) +
        (b.join (Path.route p)).weight ≤
      Text.byteCount
        (Pathname.join (Pathname.directory (Pathname.join (Pathname.join inner p) c)) []) := by
  have routed := Path.rooted_route free
  cases rooted : Pathname.isRooted p with
  | true =>
    -- nothing before the name counts
    have weight := Pathname.weight_route_le rooted free name
    rw [rooted] at routed
    rw [Route.join_rooted routed, routed, if_pos rfl, Pathname.join_rooted rooted]
    omega
  | false =>
    rw [rooted] at routed
    rw [Route.rooted_join_relative routed, Path.join_route free rooted,
      Pathname.byteCount_join_nil_eq (Pathname.trimmed_directory _).ne_nil]
    obtain ⟨left, fillers, split⟩ := Pathname.exists_fillers_directory_join h.filled rooted name
    rcases List.append_eq_append_iff.1 split with ⟨cs, shape, parts⟩ | ⟨cs, shape, parts⟩
    · have weight := Path.weight_foldl_le b cs
      have long := h.long
      rw [Pathname.byteCount_join_nil_eq h.filled] at long
      rw [parts, List.foldl_append, Path.foldl_fillers fillers, shape, List.map_append,
        List.sum_append]
      omega
    · -- the name leads nowhere
      have root := (Pathname.exists_steps_directory_join
        (Pathname.join_ne_nil h.filled p) name).1
      rw [Pathname.isRooted_join h.filled rooted] at root
      refine absurd (Pathname.parts_eq_of_steps shape (fun c member => ?_) root.symm).symm elsewhere
      exact fillers c (by simp [parts, member])

/-- The directory of a file that is named in a directory inside the one that is seen. -/
theorem enter (free : '\\' ∉ p) (filled : p ≠ []) (name : Path.IsName c)
    (reaches : d.Reaches (Pathname.join (Pathname.join inner p) c))
    (file : d.node? (d.destination (Pathname.join (Pathname.join inner p) c)) ≠ some .directory)
    (elsewhere : Pathname.parts (Pathname.directory (Pathname.join (Pathname.join inner p) c)) ≠
      Pathname.parts inner) :
    d.Seen dir (b.join (Path.route p))
      (Pathname.directory (Pathname.join (Pathname.join inner p) c)) := by
  have place := Pathname.join_ne_nil h.filled p
  have unrooted := Path.isRooted_name name
  have noNul := reaches.pathname.noNul
  have passable := h.rests.passable_steps filled name reaches
  refine
    { rests := reaches.rests_directory file
      filled := (Pathname.trimmed_directory _).ne_nil
      noNul := fun nul => ?_
      normal := h.normal.join (Path.route_normal p)
      plain := (Route.forall_names_join (Path.route_normal p) h.plain).2 fun n member nul => ?_
      short := (Route.forall_names_join (Path.route_normal p) h.short).2 fun n member => ?_
      climbs := fun nothing => ?_
      destination := ?_
      long := h.long_enter free name elsewhere }
  · have elsewhere := (Pathname.mem_directory nul).resolve_left (by decide)
    exact noNul (elsewhere.resolve_left (by decide))
  · rw [← Pathname.join_join unrooted, Pathname.mem_join_iff (by decide) h.noNul] at noNul
    exact noNul (Pathname.mem_join_left unrooted (Path.mem_of_mem_names member nul))
  · rw [Path.route_eq_steps free] at member
    exact passable.short n ((Path.mem_names_foldl member).resolve_left List.not_mem_nil)
  · cases rooted : Pathname.isRooted p with
    | true =>
      have routed := (Path.rooted_route free).trans rooted
      rw [Route.join_rooted routed, (Path.route_normal p).rooted routed]
      exact Nat.zero_le _
    | false =>
      rw [rooted, if_neg Bool.false_ne_true, h.destination] at passable
      rw [Path.join_route free rooted, ← Path.foldl_steps]
      exact ups_foldl_le nothing passable (h.climbs nothing)
  · rw [destination_directory_join place name, destination_join_route free, h.destination,
      Address.route_join _ b (Path.route_normal p)]

/-- The directory is found by its own name. -/
theorem find_inner (short : Text.byteCount inner ≤ longestPathname) :
    d.find inner = .ok (d.destination inner, .directory) :=
  find_eq_ok_iff.2 ⟨⟨⟨h.noNul, h.filled, short⟩, h.rests.passable⟩, rfl, h.rests.directory⟩

/-- It is found by the text of the route, too. -/
theorem find_text (spells : Pathname.Spells p b) (outer : d.Rests dir) (filled : dir ≠ [])
    (noNul : '\x00' ∉ Pathname.join dir p)
    (short : Text.byteCount (Pathname.join dir p) ≤ longestPathname) :
    d.find (Pathname.join dir p) = .ok (d.destination inner, .directory) := by
  have there := h.rests.directory
  rw [h.destination] at there
  have passable := passable_of_spells h.normal spells outer.directory there h.short h.climbs
  have pathname : IsPathname (Pathname.join dir p) :=
    ⟨noNul, Pathname.join_ne_nil filled p, short⟩
  have led : d.destination (Pathname.join dir p) = d.destination inner := by
    rw [destination_join h.normal spells, h.destination]
  refine find_eq_ok_iff.2 ⟨?_, led, h.rests.directory⟩
  cases rooted : b.rooted with
  | true =>
    have root := spells.rooted.trans rooted
    rw [rooted, if_pos rfl] at passable
    rw [Pathname.join_rooted root] at pathname ⊢
    exact ⟨pathname, by rwa [startOf, if_pos root]⟩
  | false =>
    rw [rooted, if_neg Bool.false_ne_true] at passable
    exact (reaches_join_iff outer (spells.rooted.trans rooted)).2 ⟨pathname, passable⟩

end Seen

theorem spells_canonical (t : Text) : Pathname.Spells (Path.canonical t) (Path.route t) := by
  by_cases empty : t = []
  · rw [empty]
    exact Pathname.spells_nil
  · rw [Path.canonical_eq_text empty]
    exact Pathname.spells_text (Path.route_normal t)

/-- The text of the route to a directory is at most as long as the directory's own name. -/
theorem Seen.byteCount_le (h : d.Seen dir (Path.route t) inner) :
    Text.byteCount (Pathname.join dir (Path.canonical t)) ≤
      Text.byteCount (Pathname.join inner []) + 1 := by
  have long := h.long
  have root := (spells_canonical t).rooted
  have text : Text.byteCount (Path.canonical t) ≤ (Path.route t).weight + 1 := by
    by_cases empty : t = []
    · rw [empty]
      decide
    rw [Path.canonical_eq_text empty]
    by_cases none : (Path.route t).components = []
    · rw [Path.byteCount_text_of_nil none]
      omega
    · have whole := Path.byteCount_text none
      omega
  cases rooted : (Path.route t).rooted with
  | true =>
    rw [rooted] at root long
    rw [Pathname.join_rooted root]
    simp only [if_true] at long
    omega
  | false =>
    rw [rooted] at root long
    rw [Pathname.byteCount_join root]
    simp only [Bool.false_eq_true, if_false] at long
    omega

/-- Both names of the directory find it, if there is room for some more. -/
theorem Seen.find_canonical (h : d.Seen dir (Path.route t) inner) (outer : d.Rests dir)
    (filled : dir ≠ []) (noNul : '\x00' ∉ dir)
    (fits : Text.byteCount (Pathname.join inner []) < longestPathname) :
    d.find (Pathname.join dir (Path.canonical t)) = .ok (d.destination inner, .directory) ∧
      d.find inner = .ok (d.destination inner, .directory) := by
  have bytes := h.byteCount_le
  have free : '\x00' ∉ Pathname.join dir (Path.canonical t) := by
    rw [Pathname.mem_join_iff (by decide) noNul]
    intro nul
    by_cases empty : t = []
    · rw [empty] at nul
      cases nul
    · rw [Path.canonical_eq_text empty,
        Path.mem_text_iff h.normal (by decide) (by decide)] at nul
      obtain ⟨n, member, here⟩ := nul
      exact h.plain n member here
  have own : Text.byteCount inner ≤ Text.byteCount (Pathname.join inner []) := by
    rw [Pathname.join_nil h.filled]
    split
    · exact Nat.le_refl _
    · rw [Path.byteCount_append]
      exact Nat.le_add_right _ _
  exact ⟨h.find_text (spells_canonical t) outer filled free (by omega), h.find_inner (by omega)⟩

/-- What is named in the directory is named along the route, in one normal form. -/
theorem Seen.destination_join (h : d.Seen dir (Path.route t) inner)
    (drive : Path.hasDrive x = false) :
    d.destination (Pathname.join dir (Path.join t x)) =
      d.destination (Pathname.join inner (Path.canonical x)) := by
  rw [← Path.canonical_join, destination_join_canonical, destination_join_canonical,
    Path.route_join_eq drive, Address.route_join _ _ (Path.route_normal x), h.destination]

end Disk

end BuildMatrix
