import BuildMatrix.Proofs.Path.Canonical

/-! Joined paths as routes. A path that is named in a directory is followed from where the directory
leads, component by component, and nothing else about the directory matters. -/

set_option autoImplicit false

namespace BuildMatrix.Path

variable {dir p t : Text} {c : Text} {r : Route}

theorem text_ne_nil (h : r.Normal) : r.text ≠ [] := by
  rw [Route.text]
  split
  · exact List.cons_ne_nil _ _
  · split
    · decide
    · rename_i some
      obtain ⟨c, more, shape⟩ := List.exists_cons_of_ne_nil some
      have filled : c ≠ [] := (h.component (shape ▸ List.mem_cons_self)).1
      rw [shape]
      cases more <;> simp [filled]

theorem canonical_eq_text (filled : p ≠ []) : canonical p = (route p).text := if_neg filled

theorem route_canonical (p : Text) : route (canonical p) = route p := by
  by_cases empty : p = []
  · rw [empty]
    rfl
  · rw [canonical_eq_text empty, route_text (route_normal p)]

theorem components_slash_append (dir t : Text) :
    components (dir ++ '/' :: t) = components dir ++ components t :=
  List.splitOnP_append_cons dir t rfl

/-- Following a path inside a directory. -/
theorem route_join (relative : isAbsolute t = false) (dir : Text) :
    route (join dir t) = (components t).foldl Route.follow (route dir) := by
  have unrooted : isRooted t = false := (Bool.or_eq_false_iff.1 relative).1
  have here : route t = (components t).foldl Route.follow ⟨false, 0, []⟩ := by
    rw [route, unrooted]
  rw [join]
  by_cases empty : dir = ""
  · rw [if_pos (.inl empty), route_canonical, here, empty]
    rfl
  by_cases dot : dir = "."
  · rw [if_pos (.inr (.inl dot)), route_canonical, here, dot]
    rfl
  rw [if_neg (not_or.2 ⟨empty, not_or.2 ⟨dot, by simp [relative]⟩⟩), route_canonical]
  obtain ⟨x, more, rfl⟩ := List.exists_cons_of_ne_nil empty
  rw [route, components_slash_append, List.foldl_append]
  rfl

theorem join_eq_text (filled : t ≠ []) (dir : Text) :
    join dir t = (route (join dir t)).text := by
  rw [join]
  split
  · rw [route_canonical, canonical_eq_text filled]
  · rw [route_canonical, canonical_eq_text (by simp)]

theorem canonical_join (dir t : Text) : canonical (join dir t) = join dir t := by
  unfold join
  split <;> exact canonical_canonical _

/-- A name in a directory. -/
theorem route_join_name (h : IsName c) (relative : isAbsolute c = false) (dir : Text) :
    route (join dir c) = { route dir with names := (route dir).names ++ [c] } := by
  rw [route_join relative, components_of_plain h.2.2.2, List.foldl_cons, follow_name h,
    List.foldl_nil]

end BuildMatrix.Path
