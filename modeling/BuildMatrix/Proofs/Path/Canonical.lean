import BuildMatrix.Disk.Pathname
import BuildMatrix.Path

/-! The normal form of a path as a text: it is read as the route it was written for, so that taking
the normal form twice changes nothing. -/

set_option autoImplicit false

namespace BuildMatrix

namespace Path

/-! ### Routes in normal form -/

/-- A component that a name can be. -/
def IsName (c : Text) : Prop := c ≠ "" ∧ c ≠ "." ∧ c ≠ ".." ∧ ∀ x ∈ c, isSeparator x = false

/-- Names are names, and nothing lies above a root. -/
structure Route.Normal (r : Route) : Prop where
  names : ∀ c ∈ r.names, IsName c
  rooted : r.rooted = true → r.ups = 0

theorem not_isSeparator_of_mem_components {p c : Text} (h : c ∈ components p) :
    ∀ x ∈ c, isSeparator x = false :=
  Text.eq_false_of_mem_splitOnP h

theorem Route.Normal.follow {r : Route} (h : r.Normal) {c : Text}
    (plain : ∀ x ∈ c, isSeparator x = false) : (r.follow c).Normal := by
  unfold Route.follow
  split
  · exact h
  · rename_i filler
    split
    · split
      · exact ⟨fun x hx => h.names x (List.dropLast_subset _ hx), h.rooted⟩
      · split
        · exact h
        · exact ⟨h.names, fun rooted => absurd rooted (by assumption)⟩
    · rename_i up
      refine ⟨fun x hx => ?_, h.rooted⟩
      rcases List.mem_append.1 hx with hx | hx
      · exact h.names x hx
      · rw [List.mem_singleton.1 hx]
        exact ⟨fun e => filler (.inl e), fun e => filler (.inr e), up, plain⟩

theorem Route.Normal.foldl {r : Route} (h : r.Normal) {cs : List Text}
    (plain : ∀ c ∈ cs, ∀ x ∈ c, isSeparator x = false) : (cs.foldl Route.follow r).Normal := by
  induction cs generalizing r with
  | nil => exact h
  | cons c cs ih =>
    exact ih (h.follow (plain c List.mem_cons_self)) fun d hd =>
      plain d (List.mem_cons_of_mem _ hd)

theorem route_normal (p : Text) : (route p).Normal :=
  Route.Normal.foldl ⟨by simp, by simp⟩ fun _ h => not_isSeparator_of_mem_components h

/-- What a written route is made of, levels up and names, leads somewhere. -/
theorem Route.Normal.component {r : Route} (h : r.Normal) {c : Text} (member : c ∈ r.components) :
    c ≠ "" ∧ c ≠ "." ∧ ∀ x ∈ c, isSeparator x = false := by
  rcases List.mem_append.1 member with up | name
  · rw [List.eq_of_mem_replicate up]
    exact ⟨by decide, by decide, by simp [isSeparator]⟩
  · obtain ⟨filled, here, -, plain⟩ := h.names c name
    exact ⟨filled, here, plain⟩

theorem text_of_components {r : Route} (some : r.components ≠ []) :
    r.text = (if r.rooted then ['/'] else []) ++ ['/'].intercalate r.components := by
  unfold Route.text
  dsimp only
  split <;> rfl

/-- A relative route without components stays where it starts. -/
theorem Route.eq_start {r : Route} (relative : r.rooted = false) (none : r.components = []) :
    r = ⟨false, 0, []⟩ := by
  obtain ⟨rooted, ups, names⟩ := r
  obtain ⟨flat, rfl⟩ := List.append_eq_nil_iff.1 none
  obtain rfl : ups = 0 := List.replicate_eq_nil_iff _ |>.1 flat
  rw [Route.mk.injEq]
  exact ⟨relative, rfl, rfl⟩

theorem text_of_rooted {r : Route} (h : r.Normal) (rooted : r.rooted = true) :
    r.text = '/' :: ['/'].intercalate r.names := by
  rw [Route.text, if_pos rooted, Route.components, h.rooted rooted]
  rfl

theorem not_mem_of_isName {c : Text} (h : IsName c) : '/' ∉ c := fun mem => by
  simpa [isSeparator] using h.2.2.2 _ mem

/-- The last component of a name made of several stands after a slash. -/
theorem intercalate_concat {cs : List Text} (some : cs ≠ []) (c : Text) :
    ['/'].intercalate (cs ++ [c]) = ['/'].intercalate cs ++ '/' :: c := by
  induction cs with
  | nil => exact absurd rfl some
  | cons d cs ih =>
    rw [List.cons_append, List.intercalate_cons_of_ne_nil (by simp)]
    by_cases last : cs = []
    · simp [last]
    · rw [ih last, List.intercalate_cons_of_ne_nil last, List.append_assoc _ _ ('/' :: c)]

variable {r : Route} {c : Text} {cs names : List Text}

/-! ### Components of written components -/

theorem components_of_plain (plain : ∀ x ∈ c, isSeparator x = false) : components c = [c] :=
  List.splitOnP_eq_singleton plain

theorem components_slash (plain : ∀ x ∈ c, isSeparator x = false) (rest : Text) :
    components (c ++ '/' :: rest) = c :: components rest :=
  List.splitOnP_append_cons_of_forall_mem plain '/' rfl rest

theorem components_intercalate (some : cs ≠ []) (plain : ∀ c ∈ cs, ∀ x ∈ c, isSeparator x = false) :
    components (['/'].intercalate cs) = cs := by
  induction cs with
  | nil => exact absurd rfl some
  | cons c rest ih =>
    have first := plain c List.mem_cons_self
    cases rest with
    | nil => simpa using components_of_plain first
    | cons d rest =>
      have later := ih (by simp) fun e member => plain e (List.mem_cons_of_mem _ member)
      simp only [List.intercalate_cons_cons, List.append_assoc, List.singleton_append]
      rw [components_slash first, later]

/-! ### Following a written route -/

theorem follow_name (h : IsName c) (r : Route) :
    r.follow c = { r with names := r.names ++ [c] } := by
  obtain ⟨some, here, up, -⟩ := h
  rw [Route.follow, if_neg (not_or.2 ⟨some, here⟩), if_neg up]

theorem foldl_names (plain : ∀ c ∈ names, IsName c) (r : Route) :
    names.foldl Route.follow r = { r with names := r.names ++ names } := by
  induction names generalizing r with
  | nil => simp
  | cons c rest ih =>
    rw [List.foldl_cons, follow_name (plain c List.mem_cons_self),
      ih fun d member => plain d (List.mem_cons_of_mem _ member)]
    simp

-- Upward steps add up only as long as there are no names to leave.
theorem foldl_ups (n ups : Nat) :
    (List.replicate n (".." : Text)).foldl Route.follow ⟨false, ups, []⟩ =
      ⟨false, ups + n, []⟩ := by
  induction n generalizing ups with
  | zero => rfl
  | succ n ih =>
    have step : Route.follow ⟨false, ups, []⟩ ".." = ⟨false, ups + 1, []⟩ := rfl
    rw [List.replicate_succ, List.foldl_cons, step, ih]
    congr 1
    omega

theorem isRooted_intercalate (filled : c ≠ []) (plain : ∀ x ∈ c, isSeparator x = false)
    (rest : List Text) : isRooted (['/'].intercalate (c :: rest)) = false := by
  obtain ⟨x, more, rfl⟩ := List.exists_cons_of_ne_nil filled
  have first := plain x List.mem_cons_self
  cases rest with
  | nil => simpa [isRooted] using first
  | cons d rest => simpa [isRooted] using first

theorem route_rooted (h : (Route.mk true 0 names).Normal) :
    route (Route.mk true 0 names).text = ⟨true, 0, names⟩ := by
  have text : (Route.mk true 0 names).text = [] ++ '/' :: ['/'].intercalate names :=
    text_of_rooted h rfl
  have split : components (Route.mk true 0 names).text =
      [] :: components (['/'].intercalate names) := by
    rw [text]
    exact components_slash (by simp) _
  have root : isRooted (Route.mk true 0 names).text = true := by
    rw [text]
    rfl
  have start : Route.follow ⟨true, 0, []⟩ [] = ⟨true, 0, []⟩ := rfl
  rw [route, split, root, List.foldl_cons, start]
  by_cases none : names = []
  · rw [none]
    rfl
  · have plain : ∀ c ∈ names, ∀ x ∈ c, isSeparator x = false := fun c member =>
      (h.names c member).2.2.2
    rw [components_intercalate none plain, foldl_names h.names]
    rfl

theorem route_relative {ups : Nat} (h : (Route.mk false ups names).Normal) :
    route (Route.mk false ups names).text = ⟨false, ups, names⟩ := by
  by_cases none : Route.components ⟨false, ups, names⟩ = []
  · -- nothing at all is written as a dot
    rw [Route.eq_start rfl none]
    decide
  · have text : (Route.mk false ups names).text =
        ['/'].intercalate (Route.components ⟨false, ups, names⟩) := text_of_components none
    have relative : isRooted (Route.mk false ups names).text = false := by
      obtain ⟨c, rest, shape⟩ := List.exists_cons_of_ne_nil none
      obtain ⟨filled, -, plain⟩ := h.component (shape ▸ List.mem_cons_self)
      rw [text, shape]
      exact isRooted_intercalate filled plain rest
    rw [route, relative, text, components_intercalate none fun c member => (h.component member).2.2,
      Route.components, List.foldl_append, foldl_ups, foldl_names h.names]
    simp

/-- A route is read back from its text. -/
theorem route_text (h : r.Normal) : route r.text = r := by
  obtain ⟨rooted, ups, names⟩ := r
  cases rooted with
  | true =>
    obtain rfl : ups = 0 := h.rooted rfl
    exact route_rooted h
  | false => exact route_relative h

theorem canonical_canonical (p : Text) : canonical (canonical p) = canonical p := by
  by_cases empty : p = []
  · rw [empty]
    rfl
  · have once : canonical p = (route p).text := if_neg empty
    by_cases gone : (route p).text = []
    · rw [once, gone]
      rfl
    · rw [once, canonical, if_neg gone, route_text (route_normal p)]

end Path

/-! ### Written routes as names of files -/

namespace Pathname

theorem components_intercalate {cs : List Text} (some : cs ≠ [])
    (plain : ∀ c ∈ cs, '/' ∉ c) : components (['/'].intercalate cs) = cs :=
  List.splitOn_intercalate '/' plain some

theorem components_body {r : Path.Route} (h : r.Normal) (some : r.components ≠ []) :
    components (['/'].intercalate r.components) = r.components :=
  components_intercalate some fun c member slash => by
    simpa [Path.isSeparator] using (h.component member).2.2 _ slash

end Pathname

end BuildMatrix
