import BuildMatrix.LineDiff

/-! The search for equal lines ahead of a difference. It goes through all pairs of distances within
the lookahead, nearer ones first, so that it finds the nearest pair of equal lines, and none only if
there is none. -/

set_option autoImplicit false

namespace BuildMatrix.LineDiff

/-- Equal lines ahead of two positions, both within the lookahead. -/
structure IsMatch (old new : List Text) (i j : Nat) (d : Nat × Nat) : Prop where
  aheadOld : d.1 ≤ lookahead
  aheadNew : d.2 ≤ lookahead
  inOld : i + d.1 < old.length
  inNew : j + d.2 < new.length
  same : old[i + d.1] = new[j + d.2]

/-- The smaller sum is the nearer one, and of equal sums the smaller distance in the old text. -/
def Nearer (d e : Nat × Nat) : Prop :=
  d.1 + d.2 < e.1 + e.2 ∨ d.1 + d.2 = e.1 + e.2 ∧ d.1 < e.1

variable {old new : List Text} {i j : Nat} {d e : Nat × Nat}

theorem Nearer.not_nearer (h : Nearer d e) : ¬ Nearer e d := by
  unfold Nearer at *
  omega

/-! ### The distances -/

/-- The pairs with one sum, the smaller distance in the old text first. -/
def distancesOf (sum : Nat) : List (Nat × Nat) :=
  (List.range (min sum lookahead + 1)).filterMap fun di =>
    if sum - di ≤ lookahead then some (di, sum - di) else none

theorem distances_eq :
    distances = (List.range (2 * lookahead)).flatMap fun k => distancesOf (k + 1) := rfl

theorem mem_distancesOf_iff {sum : Nat} :
    d ∈ distancesOf sum ↔ d.1 ≤ lookahead ∧ d.2 ≤ lookahead ∧ d.1 + d.2 = sum := by
  obtain ⟨di, dj⟩ := d
  simp only [distancesOf, List.mem_filterMap, List.mem_range, Option.ite_none_right_eq_some,
    Option.some.injEq, Prod.mk.injEq]
  constructor
  · rintro ⟨x, inside, ahead, rfl, rfl⟩
    omega
  · rintro ⟨aheadOld, aheadNew, rfl⟩
    exact ⟨di, by omega, by omega, rfl, by omega⟩

theorem pairwise_distancesOf (sum : Nat) : (distancesOf sum).Pairwise fun d e => d.1 < e.1 := by
  rw [distancesOf, List.pairwise_filterMap]
  refine List.pairwise_lt_range.imp fun less d here e there => ?_
  obtain ⟨-, same⟩ := Option.ite_none_right_eq_some.1 here
  obtain ⟨-, same'⟩ := Option.ite_none_right_eq_some.1 there
  cases same
  cases same'
  exact less

/-- Every pair of distances within the lookahead is tried, but not the difference itself. -/
theorem mem_distances_iff :
    d ∈ distances ↔ d.1 ≤ lookahead ∧ d.2 ≤ lookahead ∧ d ≠ (0, 0) := by
  have origin : d ≠ (0, 0) ↔ 0 < d.1 + d.2 := by
    rw [ne_eq, Prod.ext_iff]
    omega
  simp only [distances_eq, List.mem_flatMap, List.mem_range, mem_distancesOf_iff, origin]
  constructor
  · rintro ⟨k, -, aheadOld, aheadNew, sum⟩
    exact ⟨aheadOld, aheadNew, by omega⟩
  · rintro ⟨aheadOld, aheadNew, other⟩
    exact ⟨d.1 + d.2 - 1, by omega, aheadOld, aheadNew, by omega⟩

/-- Nearer ones come first. -/
theorem pairwise_distances : distances.Pairwise Nearer := by
  rw [distances_eq, List.pairwise_flatMap]
  constructor
  · intro k _
    refine (pairwise_distancesOf (k + 1)).imp_of_mem fun here there less => .inr ⟨?_, less⟩
    rw [(mem_distancesOf_iff.1 here).2.2, (mem_distancesOf_iff.1 there).2.2]
  · refine List.pairwise_lt_range.imp fun less d here e there => .inl ?_
    rw [(mem_distancesOf_iff.1 here).2.2, (mem_distancesOf_iff.1 there).2.2]
    omega

/-! ### The search -/

/-- In an ordered list the first hit stands before all others. -/
theorem before_of_find? {α : Type} {r : α → α → Prop} {q : α → Bool} {l : List α} {a b : α}
    (ordered : l.Pairwise r) (found : l.find? q = some a) (member : b ∈ l) (hit : q b = true)
    (other : b ≠ a) : r a b := by
  obtain ⟨-, before, after, rfl, missed⟩ := List.find?_eq_some_iff_append.1 found
  rcases List.mem_append.1 member with earlier | later
  · have none := missed b earlier
    rw [hit] at none
    cases none
  · have inside := (List.mem_cons.1 later).resolve_left other
    exact (List.pairwise_cons.1 (List.pairwise_append.1 ordered).2.1).1 b inside

theorem meets_drop_iff :
    meets (old.drop i) (new.drop j) d = true ↔
      ∃ (inOld : i + d.1 < old.length) (inNew : j + d.2 < new.length),
        old[i + d.1] = new[j + d.2] := by
  unfold meets
  rw [List.getElem?_drop, List.getElem?_drop]
  by_cases inOld : i + d.1 < old.length
  · by_cases inNew : j + d.2 < new.length
    · simp [inOld, inNew]
    · simp [inOld, inNew]
  · simp [inOld]

theorem IsMatch.meets (h : IsMatch old new i j d) : meets (old.drop i) (new.drop j) d = true :=
  meets_drop_iff.2 ⟨h.inOld, h.inNew, h.same⟩

/-- At a difference, a match is another pair than the difference itself. -/
theorem IsMatch.mem_distances (inOld : i < old.length) (inNew : j < new.length)
    (differ : old[i] ≠ new[j]) (h : IsMatch old new i j d) : d ∈ distances := by
  refine mem_distances_iff.2 ⟨h.aheadOld, h.aheadNew, ?_⟩
  rintro rfl
  exact differ h.same

theorem match_of_resync (found : resync (old.drop i) (new.drop j) = some d) :
    IsMatch old new i j d ∧ d ≠ (0, 0) := by
  obtain ⟨aheadOld, aheadNew, other⟩ := mem_distances_iff.1 (List.mem_of_find?_eq_some found)
  obtain ⟨inOld, inNew, same⟩ := meets_drop_iff.1 (List.find?_some found)
  exact ⟨⟨aheadOld, aheadNew, inOld, inNew, same⟩, other⟩

/-- Wherever a line of the old text differs from one of the new text, the search from there on finds
a pair of distances exactly if there are equal lines within the lookahead. What it finds is the
nearest such pair, and never the difference itself. -/
theorem resync_nearest (inOld : i < old.length) (inNew : j < new.length)
    (differ : old[i] ≠ new[j]) :
    ((∃ d, resync (old.drop i) (new.drop j) = some d) ↔ ∃ d, IsMatch old new i j d) ∧
    ∀ d, resync (old.drop i) (new.drop j) = some d ↔
      d ≠ (0, 0) ∧ IsMatch old new i j d ∧ ∀ e, IsMatch old new i j e → e ≠ d → Nearer d e := by
  have complete : ∀ e, IsMatch old new i j e → ∃ d, resync (old.drop i) (new.drop j) = some d := by
    intro e equal
    have tried := equal.mem_distances inOld inNew differ
    exact Option.isSome_iff_exists.1 (List.find?_isSome.2 ⟨e, tried, equal.meets⟩)
  have nearest : ∀ d, resync (old.drop i) (new.drop j) = some d →
      ∀ e, IsMatch old new i j e → e ≠ d → Nearer d e := by
    intro d found e equal other
    have tried := equal.mem_distances inOld inNew differ
    exact before_of_find? pairwise_distances found tried equal.meets other
  refine ⟨⟨fun ⟨d, found⟩ => ⟨d, (match_of_resync found).1⟩, fun ⟨e, equal⟩ => complete e equal⟩,
    fun d => ⟨fun found => ?_, ?_⟩⟩
  · obtain ⟨equal, other⟩ := match_of_resync found
    exact ⟨other, equal, nearest d found⟩
  · rintro ⟨-, equal, least⟩
    obtain ⟨e, found⟩ := complete d equal
    -- were another pair found, each would be nearer than the other
    by_cases same : d = e
    · rw [same, found]
    · have before := least e (match_of_resync found).1 (Ne.symm same)
      exact absurd (nearest e found d equal same) before.not_nearer

/-- Two matches with the same sum, near the ends of both texts. -/
theorem resync_nearest_tied :
    IsMatch ["p", "q", "r"] ["x", "r", "q"] 0 0 (1, 2) ∧
      IsMatch ["p", "q", "r"] ["x", "r", "q"] 0 0 (2, 1) ∧ Nearer (1, 2) (2, 1) := by
  have other : IsMatch ["p", "q", "r"] ["x", "r", "q"] 0 0 (2, 1) :=
    ⟨by decide, by decide, by decide, by decide, rfl⟩
  obtain ⟨-, nearest⟩ :=
    @resync_nearest ["p", "q", "r"] ["x", "r", "q"] 0 0 (by decide) (by decide) (by decide)
  obtain ⟨-, equal, least⟩ := (nearest (1, 2)).1 (by decide)
  exact ⟨equal, other, least (2, 1) other (by decide)⟩

end BuildMatrix.LineDiff
