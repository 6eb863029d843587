import BuildMatrix.Proofs.Path.Denotation

/-! Whether a path is absolute, and whether its normal form is. A root stays: nothing lies above it.
A drive letter is a name like any other to the route, so an upward step takes it back, and a step
that comes to nothing before it uncovers one. -/

set_option autoImplicit false

namespace BuildMatrix.Path

variable {p : Text} {cs : List Text}

/-- A route that leads down along a drive letter first. -/
def Route.OnDrive (r : Route) : Prop :=
  r.rooted = false ∧ r.ups = 0 ∧ ∃ n ∈ r.names.head?, hasDrive n = true

/-! ### Roots -/

theorem rooted_route_eq (p : Text) : (route p).rooted = isRooted p := Route.rooted_foldl ..

theorem isRooted_canonical (p : Text) : isRooted (canonical p) = isRooted p := by
  rw [← rooted_route_eq, route_canonical, rooted_route_eq]

/-! ### Drive letters -/

/-- A drive letter stands in the first component. -/
theorem hasDrive_append_separator {x : Char} (h : isSeparator x = true) (c rest : Text) :
    hasDrive (c ++ x :: rest) = hasDrive c := by
  have slash : x = '/' ∨ x = '\\' := by simpa [isSeparator] using h
  cases c with
  | nil => rcases slash with rfl | rfl <;> cases rest <;> rfl
  | cons a c =>
    cases c with
    | nil => rcases slash with rfl | rfl <;> simp [hasDrive]
    | cons b c => rfl

theorem isRooted_of_hasDrive (drive : hasDrive p = true) : isRooted p = false := by
  cases p with
  | nil => rfl
  | cons x rest =>
    cases root : isSeparator x with
    | false => exact root
    | true =>
      have none : hasDrive (x :: rest) = false := hasDrive_append_separator root [] rest
      rw [none] at drive
      cases drive

theorem hasDrive_intercalate (c : Text) (cs : List Text) :
    hasDrive (['/'].intercalate (c :: cs)) = hasDrive c := by
  cases cs with
  | nil => simp
  | cons d cs =>
    rw [List.intercalate_cons_cons, List.append_assoc]
    exact hasDrive_append_separator rfl c _

theorem hasDrive_text (r : Route) : hasDrive r.text = true ↔ r.OnDrive := by
  obtain ⟨rooted, ups, names⟩ := r
  cases rooted with
  | true =>
    have root : hasDrive (Route.text ⟨true, ups, names⟩) = false :=
      hasDrive_append_separator (x := '/') rfl [] _
    simp [root, Route.OnDrive]
  | false =>
    cases ups with
    | succ ups =>
      have up : Route.text ⟨false, ups + 1, names⟩ =
          ['/'].intercalate ((".." : Text) :: (List.replicate ups (".." : Text) ++ names)) := rfl
      have none : hasDrive (Route.text ⟨false, ups + 1, names⟩) = false := by
        rw [up, hasDrive_intercalate]
        rfl
      simp [none, Route.OnDrive]
    | zero =>
      cases names with
      | nil =>
        have none : hasDrive (Route.text ⟨false, 0, []⟩) = false := rfl
        simp [none, Route.OnDrive]
      | cons n names =>
        have down : Route.text ⟨false, 0, n :: names⟩ = ['/'].intercalate (n :: names) := rfl
        simp [down, hasDrive_intercalate, Route.OnDrive]

theorem hasDrive_canonical (p : Text) : hasDrive (canonical p) = true ↔ (route p).OnDrive := by
  by_cases empty : p = []
  · rw [empty]
    exact hasDrive_text (route [])
  · rw [canonical_eq_text empty, hasDrive_text]

theorem exists_drive_component (drive : hasDrive p = true) :
    ∃ c cs, components p = c :: cs ∧ IsName c ∧ hasDrive c = true := by
  unfold hasDrive at drive
  split at drive
  · rename_i a x rest
    obtain ⟨letter, colon⟩ := Bool.and_eq_true_iff.1 drive
    obtain rfl : x = ':' := beq_iff_eq.1 colon
    have plain : isSeparator a = false := by
      rw [Bool.eq_false_iff]
      intro slash
      have one : a = '/' ∨ a = '\\' := by simpa [isSeparator] using slash
      rcases one with rfl | rfl <;> exact absurd letter (by decide)
    obtain ⟨c, cs, shape⟩ := List.exists_cons_of_ne_nil (List.splitOnP_ne_nil isSeparator rest)
    have split : components (a :: ':' :: rest) = (a :: ':' :: c) :: cs := by
      rw [components, List.splitOnP_cons_eq_if_modifyHead, plain,
        List.splitOnP_cons_eq_if_modifyHead, shape]
      rfl
    have inside : ∀ x ∈ a :: ':' :: c, isSeparator x = false :=
      not_isSeparator_of_mem_components (split ▸ List.mem_cons_self)
    have dot : a :: ':' :: c ≠ "." := by simp
    have up : a :: ':' :: c ≠ ".." := by simp
    exact ⟨_, cs, split, ⟨List.cons_ne_nil _ _, dot, up, inside⟩, drive⟩
  · cases drive

/-- Without an upward step a route only gets longer. -/
theorem foldl_down (down : (".." : Text) ∉ cs) (r : Route) :
    (cs.foldl Route.follow r).ups = r.ups ∧ r.names <+: (cs.foldl Route.follow r).names := by
  induction cs generalizing r with
  | nil => exact ⟨rfl, List.prefix_rfl⟩
  | cons c cs ih =>
    obtain ⟨other, later⟩ := not_or.1 (List.mem_cons.not.1 down)
    have step : (r.follow c).ups = r.ups ∧ r.names <+: (r.follow c).names := by
      unfold Route.follow
      rw [if_neg (Ne.symm other)]
      split
      · exact ⟨rfl, List.prefix_rfl⟩
      · exact ⟨rfl, List.prefix_append _ _⟩
    obtain ⟨ups, names⟩ := ih later (r.follow c)
    exact ⟨ups.trans step.1, step.2.trans names⟩

theorem onDrive_route (drive : hasDrive p = true) (down : (".." : Text) ∉ components p) :
    (route p).OnDrive := by
  obtain ⟨c, cs, split, name, first⟩ := exists_drive_component drive
  have relative := isRooted_of_hasDrive drive
  rw [split] at down
  obtain ⟨ups, names⟩ :=
    foldl_down (fun up => down (List.mem_cons_of_mem _ up)) (Route.follow ⟨false, 0, []⟩ c)
  rw [follow_name name] at ups names
  refine ⟨by rw [rooted_route_eq, relative], ?_, c, ?_, first⟩
  · rw [route, split, relative, List.foldl_cons, follow_name name]
    exact ups
  · obtain ⟨more, shape⟩ := names
    rw [route, split, relative, List.foldl_cons, follow_name name, ← shape]
    rfl

/-! ### Absolute paths -/

theorem isAbsolute_canonical_iff (p : Text) :
    isAbsolute (canonical p) = true ↔ isRooted p = true ∨ (route p).OnDrive := by
  rw [isAbsolute, Bool.or_eq_true, isRooted_canonical, hasDrive_canonical]

/-- The normal form of a path is absolute if the path is, and only then, save for drive letters that
its upward steps take back or uncover. -/
theorem isAbsolute_canonical {r : Route} (denotes : Denotes p r) (dir : Text) :
    isRooted (canonical p) = isRooted p ∧
    (isAbsolute (canonical p) = isAbsolute p ↔
      isRooted p = true ∨ (hasDrive p = true ↔ r.OnDrive)) ∧
    (isAbsolute p = true → (isAbsolute (join dir p) = true ↔ isRooted p = true ∨ r.OnDrive)) ∧
    (':' ∉ p → isAbsolute (canonical p) = isAbsolute p) ∧
    (hasDrive p = true → (".." : Text) ∉ components p → isAbsolute (canonical p) = true) := by
  obtain rfl := denotes_iff.1 denotes
  refine ⟨isRooted_canonical p, ?_, fun absolute => ?_, fun colon => ?_, fun drive down => ?_⟩
  · rw [← Bool.coe_iff_coe, isAbsolute_canonical_iff, isAbsolute, Bool.or_eq_true]
    by_cases root : isRooted p = true
    · simp [root]
    · simp [root, iff_comm]
  · have whole : join dir p = canonical p := if_pos (.inr (.inr absolute))
    rw [whole, isAbsolute_canonical_iff]
  · have free : ':' ∉ canonical p := fun member =>
      (mem_of_mem_canonical member).elim (by decide) (Or.rec (by decide) colon)
    rw [isAbsolute, isAbsolute, isRooted_canonical, hasDrive_eq_false colon,
      hasDrive_eq_false free]
  · exact (isAbsolute_canonical_iff p).2 (.inr (onDrive_route drive down))

/-- A drive letter that an upward step leaves alone, and a root that one does not get above. -/
theorem isAbsolute_canonical_mixed :
    isAbsolute (canonical "C:\\lib\\..\\x.cpp") = isAbsolute "C:\\lib\\..\\x.cpp" ∧
      isAbsolute (join "sub" "C:\\lib\\..\\x.cpp") = true ∧
      isAbsolute (canonical "\\..\\x.cpp") = isAbsolute "\\..\\x.cpp" ∧
      isAbsolute (canonical "C:/./x.cpp") = true := by
  have here : Denotes "C:\\lib\\..\\x.cpp" ⟨false, 0, ["C:", "x.cpp"]⟩ :=
    denotes_iff.2 (by decide +kernel)
  have top : Denotes "\\..\\x.cpp" ⟨true, 0, ["x.cpp"]⟩ := denotes_iff.2 (by decide +kernel)
  have below : Denotes "C:/./x.cpp" ⟨false, 0, ["C:", "x.cpp"]⟩ :=
    denotes_iff.2 (by decide +kernel)
  have drive : Route.OnDrive ⟨false, 0, ["C:", "x.cpp"]⟩ := ⟨rfl, rfl, "C:", rfl, by decide⟩
  obtain ⟨-, kept, joined, -⟩ := isAbsolute_canonical here "sub"
  obtain ⟨-, -, -, plain, -⟩ := isAbsolute_canonical top "sub"
  obtain ⟨-, -, -, -, down⟩ := isAbsolute_canonical below "sub"
  exact ⟨kept.2 (.inr (iff_of_true (by decide) drive)), (joined (by decide)).2 (.inr drive),
    plain (by decide), down (by decide) (by decide +kernel)⟩

/-- One level up from a drive letter is where no drive is, and a drive letter below the directory is
a name that the normal form begins with. -/
theorem isAbsolute_changes :
    (isAbsolute "C:/../x.cpp" = true ∧ isAbsolute (canonical "C:/../x.cpp") = false ∧
        isAbsolute (join "sub" "C:/../x.cpp") = false) ∧
      isAbsolute "./C:/x.cpp" = false ∧ isAbsolute (canonical "./C:/x.cpp") = true := by
  decide +kernel

end BuildMatrix.Path
