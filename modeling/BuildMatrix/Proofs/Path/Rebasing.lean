import BuildMatrix.Proofs.Path.Joining
import BuildMatrix.Text.Utf8
import Mathlib.Algebra.GroupWithZero.Nat

/-! Paths as seen from another directory. Routes are followed one after the other, and that is what
joining paths does; since it is associative, a path inside a directory that is itself named inside
another one can be rebased in one step or in two. A drive letter is what breaks this: it makes a
path absolute only as long as nothing stands before it. -/

set_option autoImplicit false

namespace BuildMatrix.Path

/-- A route that goes on along another one from its end. -/
def Route.join (b r : Route) : Route :=
  if r.rooted then r else r.components.foldl Route.follow b

/-- The end of a route as a base for paths inside it, empty for where the route starts. -/
def Route.place (r : Route) : Text := if r.rooted = false ∧ r.components = [] then [] else r.text

namespace Route

variable {b r s : Route} {c : Text} {cs names : List Text}

@[simp] theorem rooted_follow (r : Route) (c : Text) : (r.follow c).rooted = r.rooted := by
  unfold follow
  repeat' split
  all_goals rfl

@[simp] theorem rooted_foldl (r : Route) (cs : List Text) :
    (cs.foldl follow r).rooted = r.rooted := by
  induction cs generalizing r with
  | nil => rfl
  | cons c cs ih => rw [List.foldl_cons, ih, rooted_follow]

theorem join_rooted (h : r.rooted = true) (b : Route) : b.join r = r := if_pos h

theorem join_relative (h : r.rooted = false) (b : Route) :
    b.join r = r.components.foldl follow b := if_neg (by simp [h])

theorem rooted_join_relative (h : r.rooted = false) (b : Route) : (b.join r).rooted = b.rooted := by
  rw [join_relative h, rooted_foldl]

theorem plain_components (h : r.Normal) : ∀ c ∈ r.components, ∀ x ∈ c, isSeparator x = false :=
  fun _ member => (h.component member).2.2

theorem Normal.join (hb : b.Normal) (hr : r.Normal) : (b.join r).Normal := by
  unfold Route.join
  split
  · exact hr
  · exact hb.foldl (plain_components hr)

theorem Normal.concat (h : r.Normal) (name : IsName c) :
    Normal { r with names := r.names ++ [c] } where
  names n member := by
    rcases List.mem_append.1 member with before | last
    · exact h.names n before
    · exact List.mem_singleton.1 last ▸ name
  rooted := h.rooted

/-- A route with names is one to a directory, and a name in it. -/
theorem Normal.exists_concat (h : r.Normal) (some : r.names ≠ []) :
    ∃ (up : Route) (c : Text), up.Normal ∧ IsName c ∧
      r = { up with names := up.names ++ [c] } := by
  obtain ⟨rooted, ups, names⟩ := r
  obtain ⟨front, c, rfl⟩ := (List.eq_nil_or_concat names).resolve_left some
  rw [List.concat_eq_append] at h
  exact ⟨⟨rooted, ups, front⟩, c, ⟨fun n member => h.names n (by simp [member]), h.rooted⟩,
    h.names c (by simp), by rw [List.concat_eq_append]⟩

/-! ### One route after another -/

/-- Whoever goes down and up again is back. -/
theorem follow_name_up (h : IsName c) (r : Route) : (r.follow c).follow ".." = r := by
  rw [follow_name h]
  simp [follow]

theorem join_follow (h : r.Normal) (relative : r.rooted = false) (b : Route) (c : Text) :
    b.join (r.follow c) = (b.join r).follow c := by
  rw [join_relative relative, join_relative (by simp [relative])]
  obtain ⟨rooted, ups, names⟩ := r
  obtain rfl : rooted = false := relative
  by_cases filler : c = "" ∨ c = "."
  · rw [follow, if_pos filler, follow, if_pos filler]
  by_cases up : c = ".."
  · subst up
    rcases List.eq_nil_or_concat names with rfl | ⟨front, n, rfl⟩
    · -- one level further up
      have step : follow ⟨false, ups, []⟩ ".." = ⟨false, ups + 1, []⟩ := rfl
      rw [step, components, components, List.append_nil, List.append_nil, List.replicate_succ',
        List.foldl_append]
      rfl
    · -- a name is taken back
      rw [List.concat_eq_append] at h ⊢
      have step : follow ⟨false, ups, front ++ [n]⟩ ".." = ⟨false, ups, front⟩ := by simp [follow]
      have written : components ⟨false, ups, front ++ [n]⟩ =
          components ⟨false, ups, front⟩ ++ [n] := by simp [components]
      rw [step, written, List.foldl_append, List.foldl_cons, List.foldl_nil,
        follow_name_up (h.names n (by simp))]
  · have step : follow ⟨false, ups, names⟩ c = ⟨false, ups, names ++ [c]⟩ := by
      rw [follow, if_neg filler, if_neg up]
    rw [step, components, components, ← List.append_assoc, List.foldl_append]
    rfl

theorem join_foldl (h : r.Normal) (relative : r.rooted = false)
    (plain : ∀ c ∈ cs, ∀ x ∈ c, isSeparator x = false) (b : Route) :
    b.join (cs.foldl follow r) = cs.foldl follow (b.join r) := by
  -- the route changes with every component, and it stays normal and relative
  induction cs generalizing r with
  | nil => rfl
  | cons c cs ih =>
    rw [List.foldl_cons, List.foldl_cons,
      ih (h.follow (plain c List.mem_cons_self)) (by simp [relative])
        fun d member => plain d (List.mem_cons_of_mem _ member),
      join_follow h relative]

theorem join_assoc (b : Route) (hr : r.Normal) (hs : s.Normal) :
    (b.join r).join s = b.join (r.join s) := by
  -- a rooted route forgets what came before it
  cases last : s.rooted with
  | true => rw [join_rooted last, join_rooted last, join_rooted last]
  | false =>
    rw [join_relative last, join_relative last]
    cases middle : r.rooted with
    | true => rw [join_rooted middle, join_rooted (by simp [middle])]
    | false => rw [join_foldl hr middle (plain_components hs)]

theorem join_start (b : Route) : b.join ⟨false, 0, []⟩ = b := rfl

/-- The last name of a route stays the last one. -/
theorem join_name (plain : IsName c) (b r : Route) :
    b.join { r with names := r.names ++ [c] } =
      { b.join r with names := (b.join r).names ++ [c] } := by
  unfold Route.join
  dsimp only
  split
  · rfl
  · rw [components, components, ← List.append_assoc, List.foldl_append, List.foldl_cons,
      List.foldl_nil, follow_name plain]

/-! ### The names on a route -/

theorem names_foldl_ups (b : Route) (n : Nat) :
    ((List.replicate n (".." : Text)).foldl follow b).names <+: b.names := by
  induction n generalizing b with
  | zero => exact List.prefix_rfl
  | succ n ih =>
    have step : (b.follow "..").names <+: b.names := by
      unfold follow
      rw [if_neg (by decide), if_pos rfl]
      repeat' split
      · exact List.dropLast_prefix _
      all_goals exact List.prefix_rfl
    rw [List.replicate_succ, List.foldl_cons]
    exact (ih _).trans step

/-- What is left of the names of the first route stands before those of the second one. -/
theorem exists_names_join (h : r.Normal) (b : Route) :
    ∃ front, front <+: b.names ∧ (b.join r).names = front ++ r.names := by
  unfold Route.join
  split
  · exact ⟨[], List.nil_prefix, rfl⟩
  · refine ⟨_, names_foldl_ups b r.ups, ?_⟩
    rw [components, List.foldl_append, foldl_names h.names]

theorem forall_names_join {P : Text → Prop} (h : r.Normal) (first : ∀ n ∈ b.names, P n) :
    (∀ n ∈ (b.join r).names, P n) ↔ ∀ n ∈ r.names, P n := by
  obtain ⟨front, inside, names⟩ := exists_names_join h b
  rw [names]
  constructor
  · exact fun all n member => all n (List.mem_append_right _ member)
  · intro second n member
    rcases List.mem_append.1 member with member | member
    · exact first n (inside.subset member)
    · exact second n member

end Route

/-! ### Characters -/

section

variable {b r : Route} {t : Text} {x : Char} {n : Text}

theorem mem_intercalate {cs : List Text} (member : x ∈ ['/'].intercalate cs) :
    x = '/' ∨ ∃ c ∈ cs, x ∈ c := by
  induction cs with
  | nil => cases member
  | cons c cs ih =>
    cases cs with
    | nil => exact .inr ⟨c, List.mem_cons_self, by simpa using member⟩
    | cons d cs =>
      rw [List.intercalate_cons_cons, List.append_assoc] at member
      simp only [List.mem_append, List.mem_singleton] at member
      rcases member with here | slash | later
      · exact .inr ⟨c, List.mem_cons_self, here⟩
      · exact .inl slash
      · exact (ih later).imp_right fun ⟨e, listed, here⟩ => ⟨e, List.mem_cons_of_mem _ listed, here⟩

theorem mem_text (h : x ∈ r.text) : x = '/' ∨ x = '.' ∨ ∃ n ∈ r.names, x ∈ n := by
  have body (member : x ∈ ['/'].intercalate r.components) :
      x = '/' ∨ x = '.' ∨ ∃ n ∈ r.names, x ∈ n := by
    refine (mem_intercalate member).imp_right fun ⟨c, listed, here⟩ => ?_
    rcases List.mem_append.1 listed with up | name
    · rw [List.eq_of_mem_replicate up] at here
      exact .inl (by simpa using here)
    · exact .inr ⟨c, name, here⟩
  unfold Route.text at h
  dsimp only at h
  split at h
  · exact (List.mem_cons.1 h).elim .inl body
  · split at h
    · exact .inr (.inl (by simpa using h))
    · exact body h

/-- What a route has as names after some components was a name before or is one of them. -/
theorem mem_names_foldl {cs : List Text} (h : n ∈ (cs.foldl Route.follow r).names) :
    n ∈ r.names ∨ n ∈ cs := by
  -- a step keeps names, takes back the last one or adds its own component
  induction cs generalizing r with
  | nil => exact .inl h
  | cons c cs ih =>
    rcases ih h with before | later
    · have step : n ∈ r.names ∨ n = c := by
        unfold Route.follow at before
        repeat' split at before
        · exact .inl before
        · exact .inl (List.dropLast_subset _ before)
        · exact .inl before
        · exact .inl before
        · simpa using before
      exact step.imp_right fun same => List.mem_cons.2 (.inl same)
    · exact .inr (List.mem_cons_of_mem _ later)

theorem mem_of_mem_splitOnP {q : Char → Bool} (piece : n ∈ t.splitOnP q) (here : x ∈ n) :
    x ∈ t := by
  induction t generalizing n with
  | nil =>
    rw [List.splitOnP_nil, List.mem_singleton] at piece
    rwa [piece] at here
  | cons y ys ih =>
    rw [List.splitOnP_cons_eq_if_modifyHead] at piece
    split at piece
    · rcases List.mem_cons.1 piece with rfl | later
      · cases here
      · exact List.mem_cons_of_mem _ (ih later here)
    · obtain ⟨first, rest, shape⟩ := List.exists_cons_of_ne_nil (List.splitOnP_ne_nil q ys)
      rw [shape] at ih piece
      rcases List.mem_cons.1 piece with rfl | later
      · exact (List.mem_cons.1 here).elim (fun same => same ▸ List.mem_cons_self)
          fun member => List.mem_cons_of_mem _ (ih List.mem_cons_self member)
      · exact List.mem_cons_of_mem _ (ih (List.mem_cons_of_mem _ later) here)

/-- The names on a route are made of the characters of the path. -/
theorem mem_of_mem_names (member : n ∈ (route t).names) (here : x ∈ n) : x ∈ t :=
  mem_of_mem_splitOnP ((mem_names_foldl member).resolve_left List.not_mem_nil) here

/-- A character of names is in a written route exactly if it is in one of the names. -/
theorem mem_text_iff (h : r.Normal) (slash : x ≠ '/') (dot : x ≠ '.') :
    x ∈ r.text ↔ ∃ n ∈ r.names, x ∈ n := by
  constructor
  · exact fun member => ((mem_text member).resolve_left slash).resolve_left dot
  · rintro ⟨n, member, here⟩
    rw [← route_text h] at member
    exact mem_of_mem_names member here

theorem mem_of_mem_canonical (member : x ∈ canonical t) : x = '/' ∨ x = '.' ∨ x ∈ t := by
  unfold canonical at member
  split at member
  · cases member
  · exact (mem_text member).imp_right
      (Or.imp_right fun ⟨_, named, here⟩ => mem_of_mem_names named here)

theorem hasDrive_eq_false (h : ':' ∉ t) : hasDrive t = false := by
  unfold hasDrive
  split
  · rename_i a c more
    have other : c ≠ ':' := fun colon => h (by simp [colon])
    simp [other]
  · rfl

end

/-! ### Directories as bases -/

section

variable {b r : Route} {dir t c : Text}

theorem not_mem_place {x : Char} (h : r.Normal) (slash : x ≠ '/') (dot : x ≠ '.')
    (free : ∀ n ∈ r.names, x ∉ n) : x ∉ r.place := by
  unfold Route.place
  split
  · exact List.not_mem_nil
  · rw [mem_text_iff h slash dot]
    exact fun ⟨n, member, here⟩ => free n member here

theorem route_place (h : r.Normal) : route r.place = r := by
  unfold Route.place
  split
  · rename_i start
    rw [Route.eq_start start.1 start.2]
    rfl
  · exact route_text h

/-- Joining paths follows one route after the other. -/
theorem route_join_eq (drive : hasDrive t = false) (dir : Text) :
    route (join dir t) = (route dir).join (route t) := by
  cases rooted : isRooted t with
  | true =>
    have whole : join dir t = canonical t := if_pos (.inr (.inr (by simp [isAbsolute, rooted])))
    have absolute : (route t).rooted = true := by rw [route, Route.rooted_foldl, rooted]
    rw [whole, route_canonical, Route.join_rooted absolute]
  | false =>
    have relative : route t = (components t).foldl Route.follow ⟨false, 0, []⟩ := by
      rw [route, rooted]
    rw [route_join (by simp [isAbsolute, rooted, drive]), relative,
      Route.join_foldl ⟨by simp, by simp⟩ rfl
        fun _ member => not_isSeparator_of_mem_components member,
      Route.join_start]

theorem join_place (h : r.Normal) (drive : hasDrive t = false) (filled : t ≠ []) :
    join r.place t = (r.join (route t)).text := by
  rw [join_eq_text filled, route_join_eq drive, route_place h]

/-- Rebasing twice is rebasing once. Of the outer directory only the route matters. -/
theorem join_join_place (hb : b.Normal) (hr : r.Normal) (outer : route dir = b)
    (plain : ∀ n ∈ r.names, ':' ∉ n) (colon : ':' ∉ t) (filled : t ≠ []) :
    join dir (join r.place t) = join (b.join r).place t := by
  have drive := hasDrive_eq_false colon
  have normal := hr.join (route_normal t)
  have inner : ':' ∉ (r.join (route t)).text := by
    rw [mem_text_iff normal (by decide) (by decide)]
    rintro ⟨n, member, here⟩
    refine (Route.forall_names_join (route_normal t) plain).2 (fun m listed colon' => ?_) n member
      here
    exact colon (mem_of_mem_names listed colon')
  rw [join_place hr drive filled, join_place (hb.join hr) drive filled,
    join_eq_text (text_ne_nil normal), route_join_eq (hasDrive_eq_false inner), outer,
    route_text normal, Route.join_assoc b hr (route_normal t)]

theorem colon_not_mem_join (outer : ':' ∉ dir) (inner : ':' ∉ t) : ':' ∉ join dir t := by
  have free {p : Text} (colon : ':' ∉ p) : ':' ∉ canonical p := fun member =>
    (mem_of_mem_canonical member).elim (by decide) (Or.rec (by decide) colon)
  unfold join
  split
  · exact free inner
  · exact free (by simp [outer, inner])

/-- A path can be rebased step by step, or at once by where the steps lead. -/
theorem join_join (base : ':' ∉ dir) (colon : ':' ∉ t) (filled : t ≠ []) (outer : Text) :
    join outer (join dir t) = join (join outer dir) t := by
  have some : join dir t ≠ [] := by
    rw [join_eq_text filled]
    exact text_ne_nil (route_normal _)
  have drive := hasDrive_eq_false (colon_not_mem_join base colon)
  calc join outer (join dir t)
      = (route (join outer (join dir t))).text := join_eq_text some outer
    _ = ((route outer).join ((route dir).join (route t))).text := by
        rw [route_join_eq drive, route_join_eq (hasDrive_eq_false colon)]
    _ = (((route outer).join (route dir)).join (route t)).text := by
        rw [Route.join_assoc _ (route_normal dir) (route_normal t)]
    _ = (route (join (join outer dir) t)).text := by
        rw [route_join_eq (hasDrive_eq_false colon), route_join_eq (hasDrive_eq_false base)]
    _ = join (join outer dir) t := (join_eq_text filled _).symm

/-- Only the place of a directory counts, not how it is written. -/
theorem join_canonical (dir : Text) (filled : t ≠ []) : join (canonical dir) t = join dir t := by
  cases absolute : isAbsolute t with
  | true =>
    have whole (base : Text) : join base t = canonical t := if_pos (.inr (.inr absolute))
    rw [whole, whole]
  | false =>
    rw [join_eq_text filled, route_join absolute, route_canonical, ← route_join absolute,
      ← join_eq_text filled]

/-! ### The last name -/

theorem isRooted_name (name : IsName c) : Pathname.isRooted c = false := by
  obtain ⟨x, more, rfl⟩ := List.exists_cons_of_ne_nil name.1
  have first := name.2.2.2 x List.mem_cons_self
  have slash : x ≠ '/' := fun same => by simp [isSeparator, same] at first
  simpa [Pathname.isRooted] using slash

theorem place_eq_text (some : r.components ≠ []) : r.place = r.text :=
  if_neg fun start => some start.2

/-- A place is the root, or where one is, or it is written as its route. -/
theorem place_cases (r : Route) :
    (r.rooted = true ∧ r.components = [] ∧ r.place = "/") ∨
      (r.rooted = false ∧ r.components = [] ∧ r.place = []) ∨
        (r.components ≠ [] ∧ r.place = r.text) := by
  by_cases none : r.components = []
  · cases rooted : r.rooted with
    | true => exact .inl ⟨rfl, none, by simp [Route.place, Route.text, rooted, none]⟩
    | false => exact .inr (.inl ⟨rfl, none, if_pos ⟨rooted, none⟩⟩)
  · exact .inr (.inr ⟨none, place_eq_text none⟩)

theorem getLast?_append_of_ne_nil {s : Text} (filled : s ≠ []) (t : Text) :
    (t ++ s).getLast? = s.getLast? := by
  rw [List.getLast?_append, List.getLast?_eq_some_getLast filled, Option.some_or]

/-- Only the root is written with a slash at its end. -/
theorem getLast?_text (h : r.Normal) (some : r.components ≠ []) :
    r.text.getLast? ≠ Option.some '/' := by
  obtain ⟨front, c, shape⟩ := (List.eq_nil_or_concat r.components).resolve_left some
  rw [List.concat_eq_append] at shape
  have member : c ∈ r.components := by simp [shape]
  obtain ⟨filled, -, plain⟩ := h.component member
  have slash : c.getLast? ≠ Option.some '/' := fun same =>
    absurd (plain _ (List.mem_of_getLast? same)) (by decide)
  have last : ∃ before, r.text = before ++ c := by
    rw [text_of_components some, shape]
    by_cases alone : front = []
    · exact ⟨_, by rw [alone, List.nil_append, List.intercalate_singleton]⟩
    · exact ⟨_, by rw [intercalate_concat alone, List.append_cons, ← List.append_assoc]⟩
  obtain ⟨before, whole⟩ := last
  rwa [whole, getLast?_append_of_ne_nil filled]

/-- A route with one more name is written as that name in the place before it. -/
theorem text_concat (h : r.Normal) (name : IsName c) :
    ({ r with names := r.names ++ [c] } : Route).text = Pathname.join r.place c := by
  have written : Route.components { r with names := r.names ++ [c] } = r.components ++ [c] := by
    simp [Route.components]
  rw [text_of_components (by simp [written]), written, Pathname.join, isRooted_name name]
  by_cases none : r.components = []
  · cases rooted : r.rooted <;> simp [Route.place, Route.text, rooted, none]
  · have filled : ¬ (false = true ∨ r.text = []) := by simp [text_ne_nil h]
    rw [place_eq_text none, if_neg filled, if_neg (getLast?_text h none),
      text_of_components none, intercalate_concat none, List.append_assoc]

theorem cutLast_eq_none {q : Char → Bool} {t : Text} (free : ∀ y ∈ t, q y = false) :
    Text.cutLast q t = none := by
  induction t with
  | nil => rfl
  | cons y t ih =>
    rw [Text.cutLast, ih fun z member => free z (List.mem_cons_of_mem _ member)]
    simp [free y List.mem_cons_self]

theorem cutLast_append {q : Char → Bool} {x : Char} {a b : Text} (sep : q x = true)
    (free : ∀ y ∈ b, q y = false) : Text.cutLast q (a ++ x :: b) = some (a, b) := by
  induction a with
  | nil => simp [Text.cutLast, cutLast_eq_none free, sep]
  | cons y a ih => simp [Text.cutLast, ih]

/-- Written after a place, a name is the last component, and the place is its directory. -/
theorem parent_fileName_text (h : r.Normal) (name : IsName c) :
    parent ({ r with names := r.names ++ [c] } : Route).text = r.place ∧
      fileName ({ r with names := r.names ++ [c] } : Route).text = c := by
  rw [text_concat h name, Pathname.join, isRooted_name name, parent, fileName]
  have free := name.2.2.2
  have slash : isSeparator '/' = true := rfl
  rcases place_cases r with ⟨-, -, place⟩ | ⟨-, -, place⟩ | ⟨some, place⟩
  · have cut : Text.cutLast isSeparator ('/' :: c) = Option.some ([], c) :=
      cutLast_append (a := []) slash free
    rw [place]
    simp [cut]
  · rw [place, if_pos (.inr rfl), cutLast_eq_none free]
    exact ⟨rfl, rfl⟩
  · have filled : ¬ (false = true ∨ r.text = []) := by simp [text_ne_nil h]
    rw [place, if_neg filled, if_neg (getLast?_text h some), cutLast_append slash free]
    exact ⟨if_neg (text_ne_nil h), rfl⟩

theorem parent_text (h : r.Normal) (name : IsName c) :
    parent ({ r with names := r.names ++ [c] } : Route).text = r.place :=
  (parent_fileName_text h name).1

theorem cutLast_cases (q : Char → Bool) (t : Text) :
    (Text.cutLast q t = none ∧ ∀ y ∈ t, q y = false) ∨
      ∃ a x b, Text.cutLast q t = some (a, b) ∧ t = a ++ x :: b ∧ q x = true ∧
        ∀ y ∈ b, q y = false := by
  induction t with
  | nil => exact .inl ⟨rfl, by simp⟩
  | cons y t ih =>
    rcases ih with ⟨none, free⟩ | ⟨a, x, b, cut, rfl, sep, free⟩
    · by_cases here : q y = true
      · exact .inr ⟨[], y, t, by simp [Text.cutLast, none, here], rfl, here, free⟩
      · refine .inl ⟨by simp [Text.cutLast, none, here], ?_⟩
        exact List.forall_mem_cons.2 ⟨by simpa using here, free⟩
    · exact .inr ⟨y :: a, x, b, by simp [Text.cutLast, cut], rfl, sep, free⟩

/-- A path is a file name alone, or a file name behind a separator. -/
theorem parent_fileName_cases (p : Text) :
    (parent p = [] ∧ fileName p = p) ∨
      ∃ a x, p = a ++ x :: fileName p ∧ isSeparator x = true ∧
        parent p = if a = [] then ['/'] else a := by
  unfold parent fileName
  rcases cutLast_cases isSeparator p with ⟨none, -⟩ | ⟨a, x, b, cut, whole, sep, -⟩
  · rw [none]
    exact .inl ⟨rfl, rfl⟩
  · rw [cut]
    exact .inr ⟨a, x, whole, sep, rfl⟩

theorem not_isSeparator_of_mem_fileName (p : Text) : ∀ x ∈ fileName p, isSeparator x = false := by
  unfold fileName
  rcases cutLast_cases isSeparator p with ⟨none, free⟩ | ⟨a, x, b, cut, -, -, free⟩
  · rwa [none]
  · rwa [cut]

theorem components_fileName (p : Text) : components (fileName p) = [fileName p] :=
  components_of_plain (not_isSeparator_of_mem_fileName p)

theorem components_eq_concat {a p : Text} {x : Char} (whole : p = a ++ x :: fileName p)
    (sep : isSeparator x = true) : components p = components a ++ [fileName p] :=
  calc components p
      = components (a ++ x :: fileName p) := congrArg components whole
    _ = components a ++ components (fileName p) := List.splitOnP_append_cons a _ sep
    _ = components a ++ [fileName p] := by rw [components_fileName]

/-- The route of a path goes on from that of its directory by the last component. -/
theorem route_eq_follow (p : Text) : route p = (route (parent p)).follow (fileName p) := by
  rcases parent_fileName_cases p with ⟨top, whole⟩ | ⟨a, x, whole, sep, dir⟩
  · have relative : isRooted p = false := by
      cases p with
      | nil => rfl
      | cons y more =>
        exact not_isSeparator_of_mem_fileName (y :: more) y (whole.symm ▸ List.mem_cons_self)
    have single := components_fileName p
    rw [whole] at single
    rw [top, whole, route, single, relative]
    rfl
  · rw [dir, route, components_eq_concat whole sep, List.foldl_append]
    by_cases empty : a = []
    · have rooted : isRooted p = true := by
        rw [whole, empty]
        exact sep
      rw [if_pos empty, empty, rooted]
      rfl
    · obtain ⟨y, more, rfl⟩ := List.exists_cons_of_ne_nil empty
      have root : isRooted p = isRooted (y :: more) := by
        rw [whole]
        rfl
      rw [if_neg empty, root]
      rfl

/-- The route of a path goes on from that of its directory by the last name. -/
theorem route_of_name (name : IsName (fileName t)) :
    route t = { route (parent t) with names := (route (parent t)).names ++ [fileName t] } := by
  rw [← follow_name name, ← route_eq_follow]

/-- Such a path has its directory in the normal form, too. -/
theorem route_parent_of_name (name : IsName (fileName t)) :
    route (parent t) = route (parent (join [] t)) := by
  have filled : t ≠ [] := fun empty => name.1 (by rw [empty]; rfl)
  have normal := route_normal (parent t)
  have here : join [] t = canonical t := if_pos (.inl rfl)
  rw [here, canonical_eq_text filled, route_of_name name, parent_text normal name,
    route_place normal]

theorem parent_name (name : IsName c) : parent c = [] := by
  rw [parent, cutLast_eq_none name.2.2.2]
  rfl

end

/-! ### Lengths -/

section

variable {b r : Route} {c dir p : Text} {cs : List Text}

/-- The bytes before what is written after a route. -/
def Route.weight (r : Route) : Nat :=
  (if r.rooted then 1 else 0) + (r.components.map fun c => Text.byteCount c + 1).sum

theorem byteCount_append (s t : Text) :
    Text.byteCount (s ++ t) = Text.byteCount s + Text.byteCount t := by
  induction s with
  | nil => simp [Text.byteCount]
  | cons x s ih =>
    rw [List.cons_append, Text.byteCount, ih, Text.byteCount, Nat.add_assoc]

theorem byteCount_slash (t : Text) : Text.byteCount ('/' :: t) = Text.byteCount t + 1 := by
  rw [Text.byteCount, Nat.add_comm]
  rfl

theorem byteCount_intercalate (some : cs ≠ []) :
    Text.byteCount (['/'].intercalate cs) + 1 = (cs.map fun c => Text.byteCount c + 1).sum := by
  induction cs with
  | nil => exact absurd rfl some
  | cons c cs ih =>
    by_cases last : cs = []
    · simp [last]
    · rw [List.intercalate_cons_of_ne_nil last, byteCount_append, byteCount_append, List.map_cons,
        List.sum_cons, ← ih last, byteCount_slash]
      have empty : Text.byteCount [] = 0 := rfl
      omega

theorem weight_follow_le (r : Route) (c : Text) :
    (r.follow c).weight ≤ r.weight + (Text.byteCount c + 1) := by
  obtain ⟨rooted, ups, names⟩ := r
  unfold Route.follow
  dsimp only
  split
  · exact Nat.le_add_right _ _
  split
  · rename_i up
    have bytes : Text.byteCount c = 2 := by
      rw [up]
      rfl
    split
    · -- a name is taken back
      rename_i some
      obtain ⟨front, n, rfl⟩ := (List.eq_nil_or_concat names).resolve_left some
      simp only [Route.weight, Route.components, List.concat_eq_append, List.dropLast_concat,
        List.map_append, List.sum_append]
      omega
    · split
      · -- above the root there is nothing
        exact Nat.le_add_right _ _
      · have level : Text.byteCount (".." : Text) = 2 := rfl
        simp only [Route.weight, Route.components, List.replicate_succ', List.map_append,
          List.sum_append, List.map_cons, List.map_nil, List.sum_singleton, bytes, level]
        omega
  · simp only [Route.weight, Route.components, List.map_append, List.sum_append, List.map_cons,
      List.map_nil, List.sum_singleton]
    omega

theorem weight_foldl_le (r : Route) (cs : List Text) :
    (cs.foldl Route.follow r).weight ≤
      r.weight + (cs.map fun c => Text.byteCount c + 1).sum := by
  induction cs generalizing r with
  | nil => exact Nat.le_add_right _ _
  | cons c cs ih =>
    have first := weight_follow_le r c
    have rest := ih (r.follow c)
    rw [List.foldl_cons, List.map_cons, List.sum_cons]
    omega

theorem weight_join_le (b r : Route) :
    (b.join r).weight ≤ (if r.rooted then 0 else b.weight) + r.weight := by
  cases rooted : r.rooted with
  | true => simp [Route.join_rooted rooted]
  | false =>
    have added := weight_foldl_le b r.components
    rw [Route.join_relative rooted]
    refine Nat.le_trans added (Nat.le_of_eq ?_)
    simp [Route.weight, rooted]

theorem byteCount_text (some : r.components ≠ []) : Text.byteCount r.text + 1 = r.weight := by
  rw [text_of_components some, byteCount_append, Nat.add_assoc, byteCount_intercalate some,
    Route.weight]
  cases r.rooted <;> rfl

theorem byteCount_text_of_nil (none : r.components = []) : Text.byteCount r.text = 1 := by
  unfold Route.text
  dsimp only
  rw [none]
  cases r.rooted <;> rfl

/-- The normal form of a joined path is not longer than what is joined. -/
theorem byteCount_text_join_le (h : r.Normal) (b : Route) :
    Text.byteCount (b.join r).text ≤
      (if r.rooted then 0 else b.weight) + Text.byteCount r.text := by
  have joined := weight_join_le b r
  have filled : 1 ≤ Text.byteCount r.text := by
    have characters := Text.length_le_byteCount r.text
    have some := List.length_pos_iff.2 (text_ne_nil h)
    omega
  have last : r.weight ≤ Text.byteCount r.text + 1 := by
    by_cases none : r.components = []
    · rw [byteCount_text_of_nil none, Route.weight, none]
      cases r.rooted <;> simp
    · exact Nat.le_of_eq (byteCount_text none).symm
  by_cases none : (b.join r).components = []
  · rw [byteCount_text_of_nil none]
    omega
  · have whole := byteCount_text none
    omega

end

end BuildMatrix.Path
