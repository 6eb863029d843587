import BuildMatrix.Proofs.Path.Rebasing
import BuildMatrix.Proofs.Text.Trimming

/-! Directories that are written into a line and read back, with a name behind them. Whoever reads
the line skips what stands before a value, and blanks at the end of the line are gone. A normal form
that lost characters is no longer the same place, since no path has a normal form that is longer
than the path itself; and without a directory, the slash before the name becomes a root. -/

set_option autoImplicit false

namespace BuildMatrix.Path

open Text

variable {d v c : Text} {q : Char → Bool}

/-- A directory that is read as it was written, where `q` tells what is skipped before it. -/
structure Verbatim (q : Char → Bool) (d : Text) : Prop where
  filled : d ≠ []
  first : ∀ x ∈ d.head?, q x = false
  last : ∀ x ∈ d.getLast?, isBlank x = false

/-- What is read of a directory. -/
def seen (q : Char → Bool) (d : Text) : Text := (trimEnd d).dropWhile q

/-! ### Lengths -/

theorem byteCount_separator {x : Char} (slash : isSeparator x = true) (p : Text) :
    byteCount (x :: p) = byteCount p + 1 := by
  have separator : x = '/' ∨ x = '\\' := by simpa [isSeparator] using slash
  rcases separator with rfl | rfl <;> exact Nat.add_comm ..

theorem components_cons_separator {x : Char} (slash : isSeparator x = true) (p : Text) :
    components (x :: p) = [] :: components p := by
  rw [components, List.splitOnP_cons_eq_if_modifyHead, if_pos slash, components]

theorem byteCount_components (p : Text) :
    ((components p).map fun c => byteCount c + 1).sum = byteCount p + 1 := by
  induction p with
  | nil => rfl
  | cons x p ih =>
    by_cases slash : isSeparator x = true
    · rw [components_cons_separator slash, byteCount_separator slash, List.map_cons, List.sum_cons,
        ih, Nat.add_comm]
      rfl
    · obtain ⟨c, cs, shape⟩ := List.exists_cons_of_ne_nil (List.splitOnP_ne_nil isSeparator p)
      have whole : components (x :: p) = (x :: c) :: cs := by
        rw [components, List.splitOnP_cons_eq_if_modifyHead, if_neg slash, shape]
        rfl
      have more (t : Text) : byteCount (x :: t) = byteCount [x] + byteCount t :=
        byteCount_append [x] t
      rw [components, shape, List.map_cons, List.sum_cons] at ih
      rw [whole, List.map_cons, List.sum_cons, more, more p]
      omega

theorem weight_route_le (p : Text) : (route p).weight ≤ byteCount p + 1 := by
  cases rooted : isRooted p with
  | false =>
    have grown := weight_foldl_le ⟨false, 0, []⟩ (components p)
    rw [byteCount_components] at grown
    rw [route, rooted]
    exact grown.trans (Nat.le_of_eq (Nat.zero_add _))
  | true =>
    cases p with
    | nil => cases rooted
    | cons x p =>
    -- the root takes the place of the first slash
    have grown := weight_foldl_le ⟨true, 0, []⟩ (components p)
    have root : Route.weight ⟨true, 0, []⟩ = 1 := rfl
    rw [byteCount_components, root] at grown
    have slash : isSeparator x = true := rooted
    rw [route, rooted, components_cons_separator slash, byteCount_separator slash]
    exact grown.trans (Nat.le_of_eq (by omega))

/-- No normal form is longer than the path. -/
theorem byteCount_canonical_le (filled : v ≠ []) : byteCount (canonical v) ≤ byteCount v := by
  have weight := weight_route_le v
  have some : 1 ≤ byteCount v := by
    have characters := Text.length_le_byteCount v
    have length := List.length_pos_iff.2 filled
    omega
  rw [canonical_eq_text filled]
  by_cases none : (route v).components = []
  · rw [byteCount_text_of_nil none]
    exact some
  · have text := byteCount_text none
    omega

/-! ### A name behind a directory -/

theorem route_slash_name (filled : v ≠ []) (name : IsName c) :
    route (v ++ '/' :: c) = { route v with names := (route v).names ++ [c] } := by
  obtain ⟨x, v, rfl⟩ := List.exists_cons_of_ne_nil filled
  rw [route, components_slash_append, List.foldl_append, components_of_plain name.2.2.2,
    List.foldl_cons, List.foldl_nil, follow_name name]
  rfl

theorem infix_seen (q : Char → Bool) (d : Text) : seen q d <:+: d :=
  (List.dropWhile_suffix q).isInfix.trans (List.rdropWhile_prefix ..).isInfix

theorem byteCount_lt_of_infix (part : v <:+: d) (other : v ≠ d) : byteCount v < byteCount d := by
  obtain ⟨front, back, rfl⟩ := part
  have before := Text.length_le_byteCount front
  have after := Text.length_le_byteCount back
  rw [byteCount_append, byteCount_append]
  by_contra same
  have none : front = [] ∧ back = [] :=
    ⟨List.length_eq_zero_iff.1 (by omega), List.length_eq_zero_iff.1 (by omega)⟩
  exact other (by simp [none])

theorem seen_eq_self_iff : seen q d = d ↔
    (∀ x ∈ d.head?, q x = false) ∧ ∀ x ∈ d.getLast?, isBlank x = false := by
  constructor
  · intro same
    have start : trimEnd d <+: d := List.rdropWhile_prefix ..
    have shorter : (seen q d).length ≤ (trimEnd d).length := (List.dropWhile_suffix q).length_le
    have whole : trimEnd d = d :=
      start.eq_of_length (Nat.le_antisymm start.length_le (by rwa [same] at shorter))
    refine ⟨fun x first => ?_, whole ▸ isBlank_getLast?_trimEnd d⟩
    obtain ⟨rest, rfl⟩ := List.head?_eq_some_iff.1 first
    rw [seen, whole, List.dropWhile_cons] at same
    by_contra skipped
    rw [if_pos (by simpa using skipped)] at same
    have shorter : (rest.dropWhile q).length ≤ rest.length := (List.dropWhile_suffix q).length_le
    rw [same, List.length_cons] at shorter
    omega
  · rintro ⟨first, last⟩
    rw [seen, trimEnd_eq_self last]
    cases d with
    | nil => rfl
    | cons x rest => exact List.dropWhile_cons_of_neg (by simp [first x rfl])

theorem concat_names_inj {r s : Route} (same : ({ r with names := r.names ++ [c] } : Route) =
    { s with names := s.names ++ [c] }) : r = s := by
  obtain ⟨rooted, ups, names⟩ := r
  obtain ⟨rooted', ups', names'⟩ := s
  simpa using same

theorem seen_root (slash : q '/' = false) : seen q "/" = "/" :=
  seen_eq_self_iff.2 ⟨by simpa using slash, by rintro x ⟨⟩; rfl⟩

theorem route_root_name (name : IsName c) : route ('/' :: c) = ⟨true, 0, [c]⟩ := by
  rw [route, components_cons_separator rfl, components_of_plain name.2.2.2]
  exact follow_name name ⟨true, 0, []⟩

theorem eq_root_of_route (normal : canonical d = d) (root : route d = ⟨true, 0, []⟩) :
    d = "/" := by
  have filled : d ≠ [] := by
    rintro rfl
    cases root
  rw [← normal, canonical_eq_text filled, root]
  rfl

/-- Where nothing is read of a directory, the name behind it is in the root, and so the directory
is not in normal form: the root is read as it is. -/
theorem route_root_name_ne (normal : canonical d = d) (name : IsName c) (slash : q '/' = false)
    (empty : seen q d = []) :
    route ('/' :: c) ≠ { route d with names := (route d).names ++ [c] } := by
  rw [route_root_name name]
  intro same
  have place : route d = ⟨true, 0, []⟩ := (concat_names_inj (r := ⟨true, 0, []⟩) same).symm
  rw [eq_root_of_route normal place, seen_root slash] at empty
  cases empty

/-- Behind what is read of a directory, a name stands where it stands in the directory exactly if
the directory is read as it was written. -/
theorem canonical_seen_iff (normal : canonical d = d) (name : IsName c)
    (relative : isAbsolute c = false) (slash : q '/' = false) :
    canonical (seen q d ++ '/' :: c) = join d c ↔ Verbatim q d := by
  have behind : join d c = ({ route d with names := (route d).names ++ [c] } : Route).text := by
    rw [join_eq_text name.1, route_join_name name relative]
  have inDirectory := (route_normal d).concat name
  rw [behind, canonical_eq_text (by simp)]
  constructor
  · intro same
    have routes : route (seen q d ++ '/' :: c) =
        { route d with names := (route d).names ++ [c] } := by
      rw [← route_text (route_normal _), same, route_text inDirectory]
    have some : seen q d ≠ [] := by
      intro empty
      rw [empty] at routes
      exact route_root_name_ne normal name slash empty routes
    rw [route_slash_name some name] at routes
    have filled : d ≠ [] := by
      rintro rfl
      exact some rfl
    have spelled : canonical (seen q d) = d := by
      rw [canonical_eq_text some, concat_names_inj routes, ← canonical_eq_text filled, normal]
    have whole : seen q d = d := by
      by_contra other
      have shorter := byteCount_lt_of_infix (infix_seen q d) other
      have longer := byteCount_canonical_le some
      rw [spelled] at longer
      omega
    exact ⟨filled, (seen_eq_self_iff.1 whole).1, (seen_eq_self_iff.1 whole).2⟩
  · intro verbatim
    rw [seen_eq_self_iff.2 ⟨verbatim.first, verbatim.last⟩, route_slash_name verbatim.filled name]

end BuildMatrix.Path
