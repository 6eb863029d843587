import BuildMatrix.Proofs.Disk.Anchoring

/-! A directory under two names. It can be named inside another directory, by a route that leads
to it, or on its own; a name that is followed from it leads to one address either way, and what is
found there is the same. Only the length of the whole name can differ, and the normal form of a
name is never the longer one. -/

set_option autoImplicit false

namespace BuildMatrix

open BuildMatrix.Path (Route)

/-! ### Addresses along routes -/

namespace Address

variable {a : Address} {b r : Route} {c : Text}

theorem along_ups_root (n : Nat) : Address.along [] (List.replicate n "..") = [] :=
  List.prefix_nil.1 (along_ups_above [] n)

/-- Following a route on the disk, a component at a time. -/
theorem route_follow (a : Address) (r : Route) (c : Text) :
    a.route (r.follow c) = (a.route r).follow c := by
  obtain ⟨rooted, ups, names⟩ := r
  have filler : Pathname.isFiller c = true ↔ c = "" ∨ c = "." := by simp [Pathname.isFiller]
  unfold Route.follow
  by_cases stays : c = "" ∨ c = "."
  · rw [if_pos stays, follow_filler (filler.2 stays)]
  rw [if_neg stays]
  by_cases up : c = ".."
  · rw [if_pos up, up, follow_up]
    rcases List.eq_nil_or_concat names with rfl | ⟨front, n, rfl⟩
    · have still : ¬ (([] : List Text) ≠ []) := not_not_intro rfl
      rw [if_neg still]
      cases rooted with
      | true =>
        have top : a.route ⟨true, ups, []⟩ = [] := (List.append_nil _).trans (along_ups_root ups)
        rw [if_pos rfl, top]
        rfl
      | false =>
        rw [if_neg Bool.false_ne_true, route, route, List.append_nil, List.append_nil]
        dsimp only
        rw [List.replicate_succ', along_append]
        rfl
    · simp [route]
  · rw [if_neg up, follow, if_neg (mt filler.1 stays), if_neg up]
    simp [route]

theorem route_foldl (a : Address) (r : Route) (cs : List Text) :
    a.route (cs.foldl Route.follow r) = (a.route r).along cs := by
  induction cs generalizing r with
  | nil => rfl
  | cons c cs ih => rw [List.foldl_cons, ih, route_follow, along_cons]

/-- One route after another leads on from where the first one leads. -/
theorem route_join (a : Address) (b : Route) (h : r.Normal) :
    a.route (b.join r) = (a.route b).route r := by
  cases rooted : r.rooted with
  | true => rw [Route.join_rooted rooted, route, route, rooted, if_pos rfl, if_pos rfl]
  | false =>
    have next (a : Address) : a.route r = a.along r.components := by
      rw [route, rooted, if_neg Bool.false_ne_true, Route.components, along_append,
        along_names h.names]
    rw [Route.join_relative rooted, route_foldl, next]

end Address

namespace Pathname

variable {p dir c : Text} {x : Char}

theorem mem_components_join (member : c ∈ components (join dir p)) :
    c ∈ components dir ∨ c ∈ components p := by
  cases rooted : isRooted p with
  | true => exact .inr (join_rooted rooted dir ▸ member)
  | false =>
    obtain ⟨front, blank, whole, -, joined, -⟩ := components_join_relative dir rooted
    rw [joined] at member
    rw [whole]
    exact (List.mem_append.1 member).imp_left (List.mem_append_left _)

theorem mem_join_right (member : x ∈ p) : x ∈ join dir p := by
  unfold join
  repeat' split
  all_goals simp [member]

theorem mem_join_iff (slash : x ≠ '/') (free : x ∉ dir) : x ∈ join dir p ↔ x ∈ p := by
  unfold join
  repeat' split
  all_goals simp [slash, free]

end Pathname

namespace Disk

variable {d : Disk} {a : Address} {b r : Route} {p dir inner x y c : Text} {cs : List Text}

/-! ### Open ways -/

theorem Passable.short (h : d.Passable a cs) : ∀ c ∈ cs, Text.byteCount c ≤ longestName := by
  induction cs generalizing a with
  | nil => simp
  | cons c cs ih => exact List.forall_mem_cons.2 ⟨h.2.1.2, ih h.2.2⟩

theorem short_filler (h : Pathname.isFiller c = true) : Text.byteCount c ≤ longestName := by
  rcases (Bool.or_eq_true_iff.1 h).imp eq_of_beq eq_of_beq with rfl | rfl <;> decide

/-- Fillers stay in a directory. -/
theorem passable_fillers (fillers : ∀ c ∈ cs, Pathname.isFiller c = true)
    (directory : d.node? a = some .directory) : d.Passable a cs := by
  induction cs with
  | nil => trivial
  | cons c cs ih =>
    obtain ⟨first, rest⟩ := List.forall_mem_cons.1 fillers
    have still : c ≠ ".." := fun up => by
      rw [up] at first
      cases first
    have takes : d.Takes a c := ⟨fun up => absurd up still, short_filler first⟩
    refine ⟨directory, takes, ?_⟩
    rw [Address.follow_filler first]
    exact ih rest

/-- Where the root is its own parent, directories are all that it takes. -/
theorem passable_of_directories (above : d.above = .root)
    (short : ∀ c ∈ cs, Text.byteCount c ≤ longestName)
    (there : ∀ front, front <+: cs → d.node? (a.along front) = some .directory) :
    d.Passable a cs := by
  induction cs generalizing a with
  | nil => trivial
  | cons c cs ih =>
    obtain ⟨first, rest⟩ := List.forall_mem_cons.1 short
    refine ⟨there [] List.nil_prefix, ⟨fun _ _ => above, first⟩, ih rest fun front inside => ?_⟩
    exact there (c :: front) (List.cons_prefix_cons.2 ⟨rfl, inside⟩)

/-- A place in a directory is a directory if its address holds one and its names are short. -/
theorem rests_join_iff (above : d.above = .root) (rests : d.Rests dir) (h : r.Normal)
    (spells : Pathname.Spells p r) :
    d.Rests (Pathname.join dir p) ↔
      d.node? ((d.destination dir).route r) = some .directory ∧
        ∀ n ∈ r.names, Text.byteCount n ≤ longestName := by
  have destination := destination_join h spells d dir
  obtain ⟨⟨pad, rest, whole, pads, fillers⟩, -⟩ := id spells
  constructor
  · intro there
    refine ⟨destination ▸ there.directory, fun n member => there.passable.short n ?_⟩
    obtain ⟨lead, back, whole, -⟩ := exists_lead spells d dir
    rw [whole]
    exact List.mem_append_left _ (List.mem_append_right _ (List.mem_append_right _ member))
  · rintro ⟨directory, short⟩
    refine ⟨passable_of_directories above (fun c member => ?_) fun front inside => ?_,
      destination ▸ directory⟩
    · rcases Pathname.mem_components_join member with outer | member
      · exact rests.passable.short c outer
      · rw [whole] at member
        simp only [List.mem_append, Route.components] at member
        rcases member with (member | up | member) | member
        · exact short_filler (pads c member)
        · rw [List.eq_of_mem_replicate up]
          decide
        · exact short c member
        · exact short_filler (fillers c member)
    · -- what is not known to be a directory lies above the destination, which is one
      rcases anchored_join rests h spells front inside with there | above
      · exact there
      by_cases same : (d.startOf (Pathname.join dir p)).along front =
          d.destination (Pathname.join dir p)
      · rw [same, destination, directory]
      · exact node?_of_prefix (by rw [destination, directory]; rfl) above same

/-! ### What is named in a directory -/

theorem destination_join_relative (relative : Pathname.isRooted p = false) (dir : Text) :
    d.destination (Pathname.join dir p) = (d.destination dir).along (Pathname.components p) := by
  obtain ⟨front, blank, whole, blanks, joined, start⟩ :=
    Pathname.components_join_relative dir relative
  rw [destination, destination, startOf, startOf, start, joined, whole, Address.along_append,
    Address.along_append, Address.along_fillers blanks]

theorem passable_join_iff (rests : d.Rests dir) (relative : Pathname.isRooted p = false) :
    d.Passable (d.startOf (Pathname.join dir p)) (Pathname.components (Pathname.join dir p)) ↔
      d.Passable (d.destination dir) (Pathname.components p) := by
  obtain ⟨front, blank, whole, blanks, joined, start⟩ :=
    Pathname.components_join_relative dir relative
  have start : d.startOf (Pathname.join dir p) = d.startOf dir := by rw [startOf, startOf, start]
  have led : (d.startOf dir).along front = d.destination dir := by
    rw [destination, whole, Address.along_append, Address.along_fillers blanks]
  have open' : d.Passable (d.startOf dir) front := by
    have passable := rests.passable
    rw [whole] at passable
    exact (passable_append.1 passable).1
  rw [start, joined, passable_append, led, and_iff_right open']

theorem reaches_join_iff (rests : d.Rests dir) (relative : Pathname.isRooted p = false) :
    d.Reaches (Pathname.join dir p) ↔
      IsPathname (Pathname.join dir p) ∧
        d.Passable (d.destination dir) (Pathname.components p) := by
  rw [← passable_join_iff rests relative]
  exact ⟨fun h => ⟨h.pathname, h.passable⟩, fun h => ⟨h.1, h.2⟩⟩

/-- Whoever passes along a name in a directory passes the directory. -/
theorem rests_of_passable_join (relative : Pathname.isRooted p = false)
    (passable : d.Passable (d.startOf (Pathname.join dir p))
      (Pathname.components (Pathname.join dir p))) :
    d.Rests dir := by
  obtain ⟨front, blank, whole, blanks, joined, start⟩ :=
    Pathname.components_join_relative dir relative
  have start : d.startOf (Pathname.join dir p) = d.startOf dir := by rw [startOf, startOf, start]
  obtain ⟨first, more, shape⟩ := List.exists_cons_of_ne_nil (List.splitOn_ne_nil '/' p)
  rw [start, joined, Pathname.components, shape, passable_append] at passable
  obtain ⟨passable, directory, -⟩ := passable
  refine ⟨?_, ?_⟩
  · rw [whole, passable_append]
    exact ⟨passable, passable_fillers blanks directory⟩
  · rw [destination, whole, Address.along_append, Address.along_fillers blanks]
    exact directory

theorem Reaches.rests_of_join (name : Path.IsName c) (h : d.Reaches (Pathname.join dir c)) :
    d.Rests dir :=
  rests_of_passable_join (Path.isRooted_name name) h.passable

/-- Names in one directory find the same, however the directory is named. -/
theorem find_join_iff (one : d.Rests x) (other : d.Rests y)
    (same : d.destination x = d.destination y) (relative : Pathname.isRooted p = false)
    (pathname : IsPathname (Pathname.join x p) ↔ IsPathname (Pathname.join y p))
    {found : Address × Node} :
    d.find (Pathname.join x p) = .ok found ↔ d.find (Pathname.join y p) = .ok found := by
  obtain ⟨a, n⟩ := found
  rw [find_eq_ok_iff, find_eq_ok_iff, reaches_join_iff one relative,
    reaches_join_iff other relative, destination_join_relative relative,
    destination_join_relative relative, same, pathname]

theorem fileNames_iff_find {names : List Text} :
    d.fileNames p = .ok names ↔ ∃ a, d.find p = .ok (a, .directory) ∧ d.fileNamesAt a = names := by
  unfold fileNames
  rw [bind_eq_ok]
  constructor
  · rintro ⟨⟨a, n⟩, found, listed⟩
    cases n with
    | file content t => cases listed
    | directory => exact ⟨a, found, Except.ok.inj listed⟩
  · rintro ⟨a, found, rfl⟩
    exact ⟨_, found, rfl⟩

/-- A route without names leads up from a directory, to a directory. -/
theorem Rests.node?_route_of_ups (rests : d.Rests dir) (none : r.names = []) :
    d.node? ((d.destination dir).route r) = some .directory := by
  have directory : d.node? (if r.rooted then [] else d.destination dir) = some .directory := by
    split
    · rfl
    · exact rests.directory
  have above := Address.along_ups_above (if r.rooted then [] else d.destination dir) r.ups
  rw [Address.route, none, List.append_nil]
  by_cases same : Address.along (if r.rooted then [] else d.destination dir)
      (List.replicate r.ups "..") = if r.rooted then [] else d.destination dir
  · rw [same, directory]
  · exact node?_of_prefix (by rw [directory]; rfl) above same

/-- So a route to a file has names. -/
theorem Rests.names_ne_nil (rests : d.Rests dir) {content : Text.Bytes} {t : Timestamp}
    (file : d.node? ((d.destination dir).route r) = some (.file content t)) : r.names ≠ [] := by
  intro none
  have directory := rests.node?_route_of_ups none
  rw [file] at directory
  cases directory

/-- A file that is found by a route lies in a directory to which the route leads before. -/
theorem Rests.exists_place (rests : d.Rests dir) (free : '\x00' ∉ dir) (hr : r.Normal)
    {content : Text.Bytes} (found : d.findFile (Pathname.join dir r.text) = .ok (a, content)) :
    ∃ (up : Route) (c : Text), up.Normal ∧ Path.IsName c ∧
      r = { up with names := up.names ++ [c] } ∧ d.Rests (Pathname.join dir up.place) ∧
      ∀ n ∈ r.names, '\x00' ∉ n := by
  obtain ⟨reaches, led, t, file⟩ := findFile_eq_ok_iff.1 found
  rw [← led, destination_join hr (Pathname.spells_text hr)] at file
  have some := rests.names_ne_nil file
  have noNul := reaches.pathname.noNul
  rw [Pathname.mem_join_iff (by decide) free, Path.mem_text_iff hr (by decide) (by decide)] at noNul
  obtain ⟨up, c, hup, name, rfl⟩ := hr.exists_concat some
  rw [Path.text_concat hup name, Pathname.join_join (Path.isRooted_name name)] at reaches
  exact ⟨up, c, hup, name, rfl, reaches.rests_of_join name, fun n member nul =>
    noNul ⟨n, member, nul⟩⟩

/-! ### A directory inside another one -/

/-- `inner` names the directory to which the route `b` leads from `dir`. What is named in it is not
shorter than what is named along the route. -/
structure Inside (d : Disk) (dir : Text) (b : Route) (inner : Text) : Prop where
  above : d.above = .root
  outer : d.Rests dir
  rests : d.Rests inner
  outerFilled : dir ≠ []
  filled : inner ≠ []
  outerNoNul : '\x00' ∉ dir
  noNul : '\x00' ∉ inner
  normal : b.Normal
  plain : ∀ n ∈ b.names, '\x00' ∉ n
  short : ∀ n ∈ b.names, Text.byteCount n ≤ longestName
  destination : d.destination inner = (d.destination dir).route b
  long : (if b.rooted then 0 else Text.byteCount (Pathname.join dir [])) + b.weight ≤
    Text.byteCount (Pathname.join inner [])

namespace Inside

variable (h : d.Inside dir b inner)
include h

theorem destination_place (hr : r.Normal) :
    d.destination (Pathname.join dir (b.join r).place) =
      d.destination (Pathname.join inner r.place) := by
  have joined := h.normal.join hr
  rw [destination_join joined (Pathname.spells_place joined),
    destination_join hr (Pathname.spells_place hr), h.destination, Address.route_join _ b hr]

theorem rests_place_iff (hr : r.Normal) :
    d.Rests (Pathname.join dir (b.join r).place) ↔ d.Rests (Pathname.join inner r.place) := by
  have joined := h.normal.join hr
  rw [rests_join_iff h.above h.outer joined (Pathname.spells_place joined),
    rests_join_iff h.above h.rests hr (Pathname.spells_place hr), h.destination,
    Address.route_join _ b hr, Route.forall_names_join hr h.short]

/-- The normal form of a name in the outer directory is not the longer one. -/
theorem byteCount_text_le (hr : r.Normal) :
    Text.byteCount (Pathname.join dir (b.join r).text) ≤
      Text.byteCount (Pathname.join inner r.text) := by
  have joined := (Pathname.spells_text (h.normal.join hr)).rooted
  have last := (Pathname.spells_text hr).rooted
  have text := Path.byteCount_text_join_le hr b
  have long := h.long
  cases rooted : r.rooted with
  | true =>
    rw [rooted] at last
    rw [Route.join_rooted rooted, Pathname.join_rooted last, Pathname.join_rooted last]
  | false =>
    rw [rooted] at last text
    rw [Route.rooted_join_relative rooted] at joined
    rw [Pathname.byteCount_join last]
    cases first : b.rooted with
    | true =>
      rw [first] at joined long
      rw [Pathname.join_rooted joined]
      simp only [Bool.false_eq_true, if_false, if_true] at text long
      omega
    | false =>
      rw [first] at joined long
      rw [Pathname.byteCount_join joined]
      simp only [Bool.false_eq_true, if_false] at text long
      omega

theorem byteCount_place_le (hr : r.Normal) :
    Text.byteCount (Pathname.join (Pathname.join dir (b.join r).place) []) ≤
      Text.byteCount (Pathname.join (Pathname.join inner r.place) []) := by
  have weight := Path.weight_join_le b r
  have long := h.long
  rw [Pathname.byteCount_join_place (h.normal.join hr), Pathname.byteCount_join_place hr]
  cases rooted : r.rooted with
  | true => simp [Route.join_rooted rooted, rooted]
  | false =>
    rw [rooted] at weight
    rw [Route.rooted_join_relative rooted]
    simp only [Bool.false_eq_true, if_false] at weight ⊢
    omega

/-- What can be named in the inner directory can be named in the outer one. -/
theorem isPathname_text_iff (hr : r.Normal)
    (short : Text.byteCount (Pathname.join inner r.text) ≤ longestPathname) :
    IsPathname (Pathname.join dir (b.join r).text) ↔ IsPathname (Pathname.join inner r.text) := by
  have joined := h.normal.join hr
  have nul {r : Route} (hr : r.Normal) {dir : Text} (free : '\x00' ∉ dir) :
      '\x00' ∉ Pathname.join dir r.text ↔ ∀ n ∈ r.names, '\x00' ∉ n := by
    rw [Pathname.mem_join_iff (by decide) free, Path.mem_text_iff hr (by decide) (by decide)]
    simp
  have same : '\x00' ∉ Pathname.join dir (b.join r).text ↔ '\x00' ∉ Pathname.join inner r.text := by
    rw [nul joined h.outerNoNul, nul hr h.noNul,
      Route.forall_names_join hr h.plain]
  constructor
  · exact fun name => ⟨same.1 name.noNul, Pathname.join_ne_nil h.filled _, short⟩
  · exact fun name => ⟨same.2 name.noNul, Pathname.join_ne_nil h.outerFilled _,
      (h.byteCount_text_le hr).trans short⟩

/-- A file of the inner directory is found from the outer one. -/
theorem findFile_iff (hr : r.Normal)
    (short : Text.byteCount (Pathname.join inner r.text) ≤ longestPathname)
    {found : Address × Text.Bytes} :
    d.findFile (Pathname.join dir (b.join r).text) = .ok found ↔
      d.findFile (Pathname.join inner r.text) = .ok found := by
  have joined := h.normal.join hr
  obtain ⟨a, content⟩ := found
  have outer := destination_join joined (Pathname.spells_text joined) d dir
  rw [Address.route_join _ b hr, ← h.destination] at outer
  rw [findFile_eq_ok_iff, findFile_eq_ok_iff, outer,
    destination_join hr (Pathname.spells_text hr)]
  refine and_congr_left fun ⟨led, t, file⟩ => ?_
  have some := h.rests.names_ne_nil (led ▸ file)
  obtain ⟨up, c, hup, name, rfl⟩ := hr.exists_concat some
  have pathname := h.isPathname_text_iff hr short
  have unrooted := Path.isRooted_name name
  -- the last name is looked up in a directory that has two names
  rw [Route.join_name name] at pathname ⊢
  rw [Path.text_concat (h.normal.join hup) name, Path.text_concat hup name,
    Pathname.join_join unrooted, Pathname.join_join unrooted] at pathname ⊢
  by_cases rests : d.Rests (Pathname.join inner up.place)
  · rw [reaches_join_iff rests unrooted,
      reaches_join_iff ((h.rests_place_iff hup).2 rests) unrooted, pathname,
      h.destination_place hup]
  · exact iff_of_false
      (fun reaches => rests ((h.rests_place_iff hup).1 (reaches.rests_of_join name)))
      fun reaches => rests (reaches.rests_of_join name)

/-- What can be named in a place of the inner directory can be named from the outer one. -/
theorem isPathname_place_iff (hr : r.Normal) (plain : ∀ n ∈ r.names, '\x00' ∉ n)
    (relative : Pathname.isRooted p = false)
    (short : Text.byteCount (Pathname.join (Pathname.join inner r.place) p) ≤ longestPathname) :
    IsPathname (Pathname.join (Pathname.join dir (b.join r).place) p) ↔
      IsPathname (Pathname.join (Pathname.join inner r.place) p) := by
  have nul {r : Route} (hr : r.Normal) (plain : ∀ n ∈ r.names, '\x00' ∉ n) {dir : Text}
      (free : '\x00' ∉ dir) :
      '\x00' ∉ Pathname.join (Pathname.join dir r.place) p ↔ '\x00' ∉ p := by
    have place : '\x00' ∉ Pathname.join dir r.place := by
      rw [Pathname.mem_join_iff (by decide) free]
      exact Path.not_mem_place hr (by decide) (by decide) plain
    rw [Pathname.mem_join_iff (by decide) place]
  have same := (nul (h.normal.join hr) ((Route.forall_names_join hr h.plain).2 plain)
    h.outerNoNul).trans (nul hr plain h.noNul).symm
  have long := h.byteCount_place_le hr
  constructor
  · exact fun name => ⟨same.1 name.noNul,
      Pathname.join_ne_nil (Pathname.join_ne_nil h.filled r.place) p, short⟩
  · refine fun name => ⟨same.2 name.noNul,
      Pathname.join_ne_nil (Pathname.join_ne_nil h.outerFilled (b.join r).place) p, ?_⟩
    rw [Pathname.byteCount_join relative] at short ⊢
    omega

/-- What lies in a place of the inner directory is listed from the outer one. -/
theorem fileNames_iff (hr : r.Normal) (plain : ∀ n ∈ r.names, '\x00' ∉ n)
    (rests : d.Rests (Pathname.join inner r.place))
    (short : Text.byteCount (Pathname.join (Pathname.join inner r.place) p) ≤ longestPathname)
    {names : List Text} :
    d.fileNames (Pathname.join (Pathname.join dir (b.join r).place) p) = .ok names ↔
      d.fileNames (Pathname.join (Pathname.join inner r.place) p) = .ok names := by
  cases rooted : Pathname.isRooted p with
  | true => rw [Pathname.join_rooted rooted, Pathname.join_rooted rooted]
  | false =>
    simp only [fileNames_iff_find]
    refine exists_congr fun a => and_congr_left fun _ => ?_
    exact find_join_iff ((h.rests_place_iff hr).2 rests) rests (h.destination_place hr) rooted
      (h.isPathname_place_iff hr plain rooted short)

end Inside

theorem destination_join_nil (d : Disk) (dir : Text) :
    d.destination (Pathname.join dir []) = d.destination dir :=
  destination_join_relative rfl dir

/-- The directory of a file that is named in another directory. -/
theorem inside_directory (above : d.above = .root) (outer : d.Rests dir)
    (trimmed : Pathname.Trimmed dir) (outerNoNul : '\x00' ∉ dir) (hr : r.Normal)
    (name : Path.IsName c)
    (reaches : d.Reaches (Pathname.join (Pathname.join dir r.place) c))
    (file : d.node? (d.destination (Pathname.join (Pathname.join dir r.place) c)) ≠
      some .directory) :
    d.Inside dir r (Pathname.directory (Pathname.join (Pathname.join dir r.place) c)) := by
  have same := trimmed.directory_join_place hr name
  have place : d.Rests (Pathname.join dir r.place) := reaches.rests_of_join name
  have spells := Pathname.spells_place hr
  have noNul := reaches.pathname.noNul
  refine
    { above := above
      outer := outer
      rests := reaches.rests_directory file
      outerFilled := trimmed.ne_nil
      filled := (Pathname.trimmed_directory _).ne_nil
      outerNoNul := outerNoNul
      noNul := fun nul => ?_
      normal := hr
      plain := fun n member nul => ?_
      short := ((rests_join_iff above outer hr spells).1 place).2
      destination := ?_
      long := ?_ }
  · have elsewhere := (Pathname.mem_directory nul).resolve_left (by decide)
    exact noNul (elsewhere.resolve_left (by decide))
  · -- its characters are all in the name of the file
    rw [← Pathname.join_join (Path.isRooted_name name), ← Path.text_concat hr name,
      Pathname.mem_join_iff (by decide) outerNoNul,
      Path.mem_text_iff (hr.concat name) (by decide) (by decide)] at noNul
    exact noNul ⟨n, List.mem_append_left _ member, nul⟩
  · rw [← destination_join_nil, same, destination_join_nil, destination_join hr spells]
  · rw [same, Pathname.byteCount_join_place hr]

end Disk

end BuildMatrix
