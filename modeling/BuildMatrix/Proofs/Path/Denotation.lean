import BuildMatrix.Proofs.Path.Rebasing
import Mathlib.Data.List.Induction

/-! What a path denotes, said without the code that reads it: backslashes count as slashes, and the
components are evaluated from left to right. Every path denotes one place, and so does its normal
form. Two paths have the same normal form exactly if they denote the same. -/

set_option autoImplicit false

namespace BuildMatrix.Path

variable {p q : Text} {cs names : List Text} {ups : Nat} {rooted : Bool} {r : Route}

/-- Where components lead from a root or a directory: levels up, and names from there down. -/
inductive Evaluates (rooted : Bool) : List Text → Nat → List Text → Prop where
  | start : Evaluates rooted [] 0 []
  | ignore {cs : List Text} {ups : Nat} {names : List Text} {c : Text} :
      Evaluates rooted cs ups names → c = "" ∨ c = "." → Evaluates rooted (cs ++ [c]) ups names
  | down {cs : List Text} {ups : Nat} {names : List Text} {c : Text} :
      Evaluates rooted cs ups names → ¬(c = "" ∨ c = ".") → c ≠ ".." →
        Evaluates rooted (cs ++ [c]) ups (names ++ [c])
  /-- The last name is taken back. -/
  | back {cs : List Text} {ups : Nat} {names : List Text} {n : Text} :
      Evaluates rooted cs ups (names ++ [n]) →
        Evaluates rooted (cs ++ [(".." : Text)]) ups names
  /-- Nothing lies above a root. -/
  | absorb {cs : List Text} {ups : Nat} :
      Evaluates rooted cs ups [] → rooted = true →
        Evaluates rooted (cs ++ [(".." : Text)]) ups []
  | up {cs : List Text} {ups : Nat} :
      Evaluates rooted cs ups [] → rooted = false →
        Evaluates rooted (cs ++ [(".." : Text)]) (ups + 1) []

/-- A path with slashes only. -/
def slashed (p : Text) : Text := p.map fun x => if x = '\\' then '/' else x

structure Denotes (p : Text) (r : Route) : Prop where
  root : r.rooted = true ↔ (slashed p).head? = some '/'
  evaluates : Evaluates r.rooted ((slashed p).splitOn '/') r.ups r.names

/-- Components as a normal form has them. -/
structure Reduced (cs : List Text) : Prop where
  some : cs ≠ []
  filled : ∀ c ∈ cs, c ≠ "" ∧ c ≠ "."
  plain : ∀ c ∈ cs, '/' ∉ c ∧ '\\' ∉ c
  /-- Whoever goes up did not go down before. -/
  ups : cs.Pairwise fun c d => d = (".." : Text) → c = (".." : Text)

inductive IsNormalForm : Text → Prop where
  | root : IsNormalForm "/"
  | here : IsNormalForm "."
  | absolute {cs : List Text} :
      Reduced cs → (".." : Text) ∉ cs → IsNormalForm ('/' :: ['/'].intercalate cs)
  | relative {cs : List Text} : Reduced cs → IsNormalForm (['/'].intercalate cs)

/-! ### Evaluation -/

theorem evaluates_foldl (rooted : Bool) (cs : List Text) :
    Evaluates rooted cs (cs.foldl Route.follow ⟨rooted, 0, []⟩).ups
      (cs.foldl Route.follow ⟨rooted, 0, []⟩).names := by
  induction cs using List.reverseRecOn with
  | nil => exact .start
  | append_singleton cs c ih =>
    rw [List.foldl_append, List.foldl_cons, List.foldl_nil]
    have start : (cs.foldl Route.follow ⟨rooted, 0, []⟩).rooted = rooted := Route.rooted_foldl ..
    generalize cs.foldl Route.follow ⟨rooted, 0, []⟩ = r at ih start
    obtain ⟨rooted', ups, names⟩ := r
    obtain rfl : rooted' = rooted := start
    by_cases filler : c = "" ∨ c = "."
    · rw [Route.follow, if_pos filler]
      exact ih.ignore filler
    by_cases up : c = ".."
    · subst up
      rcases List.eq_nil_or_concat names with rfl | ⟨front, n, rfl⟩
      · cases rooted' with
        | true => exact ih.absorb rfl
        | false => exact ih.up rfl
      · rw [List.concat_eq_append] at ih ⊢
        have step : Route.follow ⟨rooted', ups, front ++ [n]⟩ ".." = ⟨rooted', ups, front⟩ := by
          simp [Route.follow]
        rw [step]
        exact ih.back
    · rw [Route.follow, if_neg filler, if_neg up]
      exact ih.down filler up

theorem foldl_of_evaluates (h : Evaluates rooted cs ups names) :
    cs.foldl Route.follow ⟨rooted, 0, []⟩ = ⟨rooted, ups, names⟩ := by
  induction h with
  | start => rfl
  | ignore _ filler ih =>
    rw [List.foldl_append, ih, List.foldl_cons, List.foldl_nil, Route.follow, if_pos filler]
  | down _ filler up ih =>
    rw [List.foldl_append, ih, List.foldl_cons, List.foldl_nil, Route.follow, if_neg filler,
      if_neg up]
  | back _ ih =>
    rw [List.foldl_append, ih]
    simp [Route.follow]
  | absorb _ root ih =>
    rw [List.foldl_append, ih, root]
    rfl
  | up _ root ih =>
    rw [List.foldl_append, ih, root]
    rfl

/-! ### Components -/

theorem head?_slashed (p : Text) : (slashed p).head? = some '/' ↔ isRooted p = true := by
  cases p with
  | nil => simp [slashed, isRooted]
  | cons x p =>
    by_cases back : x = '\\'
    · simp [slashed, isRooted, isSeparator, back]
    · simp [slashed, isRooted, isSeparator, back]

/-- Cut at its slashes, a path has the components that it has with backslashes, too. -/
theorem splitOn_slashed (p : Text) : (slashed p).splitOn '/' = components p := by
  rw [List.splitOn_eq_splitOnP, components]
  induction p with
  | nil => rfl
  | cons x p ih =>
    have shape : slashed (x :: p) = (if x = '\\' then '/' else x) :: slashed p := rfl
    rw [shape, List.splitOnP_cons_eq_if_modifyHead, List.splitOnP_cons_eq_if_modifyHead, ih]
    by_cases back : x = '\\'
    · simp [back, isSeparator]
    · simp [back, isSeparator]

theorem denotes_iff : Denotes p r ↔ route p = r := by
  constructor
  · rintro ⟨root, evaluates⟩
    rw [splitOn_slashed] at evaluates
    rw [head?_slashed, Bool.coe_iff_coe] at root
    rw [route, ← root]
    exact foldl_of_evaluates evaluates
  · rintro rfl
    have rooted : (route p).rooted = isRooted p := Route.rooted_foldl ..
    refine ⟨by rw [rooted, head?_slashed], ?_⟩
    rw [splitOn_slashed, rooted]
    exact evaluates_foldl (isRooted p) (components p)

/-! ### Normal forms -/

theorem reduced_components (h : r.Normal) (some : r.components ≠ []) : Reduced r.components where
  some := some
  filled c member := ⟨(h.component member).1, (h.component member).2.1⟩
  plain := by
    intro c member
    have plain := (h.component member).2.2
    exact ⟨fun slash => absurd (plain _ slash) (by decide),
      fun back => absurd (plain _ back) (by decide)⟩
  ups := by
    rw [Route.components, List.pairwise_append]
    refine ⟨?_, ?_, ?_⟩
    · exact List.pairwise_replicate.2 (.inr fun same => same)
    · exact List.pairwise_of_forall_mem_list fun c _ d name up => absurd up (h.names d name).2.2.1
    · exact fun c up _ _ _ => List.eq_of_mem_replicate up

theorem isNormalForm_text (h : r.Normal) : IsNormalForm r.text := by
  obtain ⟨rooted, ups, names⟩ := r
  by_cases none : Route.components ⟨rooted, ups, names⟩ = []
  · cases rooted with
    | true =>
      have text : Route.text ⟨true, ups, names⟩ = "/" := by simp [Route.text, none]
      exact text ▸ .root
    | false =>
      have text : Route.text ⟨false, ups, names⟩ = "." := by simp [Route.text, none]
      exact text ▸ .here
  have reduced := reduced_components h none
  rw [text_of_components none]
  cases rooted with
  | true =>
    refine .absolute reduced fun up => ?_
    obtain rfl : ups = 0 := h.rooted rfl
    exact (h.names _ up).2.2.1 rfl
  | false => exact .relative reduced

theorem canonical_eq_iff (hp : p ≠ []) (hq : q ≠ []) :
    canonical p = canonical q ↔ route p = route q := by
  constructor
  · intro same
    rw [← route_canonical p, same, route_canonical]
  · intro same
    rw [canonical_eq_text hp, canonical_eq_text hq, same]

/-- The normal form of a path denotes the one place that the path denotes, and the paths that denote
it are those with that normal form. -/
theorem canonical_complete (filled : p ≠ []) :
    (∃! r, Denotes p r) ∧ (∀ r, Denotes (canonical p) r ↔ Denotes p r) ∧
      (∀ q, q ≠ [] → (canonical p = canonical q ↔ ∀ r, Denotes p r ↔ Denotes q r)) ∧
      canonical (canonical p) = canonical p ∧ IsNormalForm (canonical p) := by
  refine ⟨⟨route p, denotes_iff.2 rfl, fun r here => (denotes_iff.1 here).symm⟩, fun r => ?_,
    fun q others => ?_, canonical_canonical p, ?_⟩
  · rw [denotes_iff, denotes_iff, route_canonical]
  · simp only [denotes_iff, canonical_eq_iff filled others]
    exact ⟨fun same r => by rw [same], fun same => ((same _).1 rfl).symm⟩
  · rw [canonical_eq_text filled]
    exact isNormalForm_text (route_normal p)

/-- Two ways to write a file beside the project's directory, and a path from the root that has the
same names. -/
theorem canonical_complete_beside :
    canonical "..\\res\\.\\..\\app.ico" = canonical "x/..//../app.ico" ∧
      canonical "..\\res\\.\\..\\app.ico" ≠ canonical "/../app.ico" := by
  obtain ⟨-, -, complete, -⟩ :=
    canonical_complete (p := "..\\res\\.\\..\\app.ico") (by decide)
  constructor
  · have place : route "..\\res\\.\\..\\app.ico" = route "x/..//../app.ico" := by
      decide +kernel
    refine (complete _ (by decide)).2 fun r => ?_
    rw [denotes_iff, denotes_iff, place]
  · intro same
    have here := ((complete _ (by decide)).1 same ⟨false, 1, ["app.ico"]⟩).1 <|
      denotes_iff.2 (by decide +kernel)
    exact absurd (denotes_iff.1 here) (by decide +kernel)

end BuildMatrix.Path
