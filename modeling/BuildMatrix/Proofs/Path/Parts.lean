import BuildMatrix.Proofs.Path.FileName

/-! The parts of a path: its directory and its last component, and the stem and the extension of
that. Joined again, the first two are the path. With another extension, the directory and the stem
stay. -/

set_option autoImplicit false

namespace BuildMatrix.Path

variable {p e : Text}

/-! ### The last component -/

theorem getLast?_components (p : Text) : (components p).getLast? = some (fileName p) := by
  rcases parent_fileName_cases p with ⟨-, whole⟩ | ⟨a, x, whole, sep, -⟩
  · have single := components_fileName p
    rw [whole] at single
    rw [single, whole]
    rfl
  · rw [components_eq_concat whole sep, List.getLast?_concat]

theorem isAbsolute_fileName (colon : ':' ∉ fileName p) : isAbsolute (fileName p) = false := by
  have unrooted : isRooted (fileName p) = false := by
    cases shape : fileName p with
    | nil => rfl
    | cons y more =>
      exact not_isSeparator_of_mem_fileName p y (shape ▸ List.mem_cons_self)
  rw [isAbsolute, unrooted, hasDrive_eq_false colon]
  rfl

/-- The last component, named in the directory, is the path. -/
theorem join_parent_fileName (filled : fileName p ≠ []) (colon : ':' ∉ fileName p) :
    join (parent p) (fileName p) = canonical p := by
  have some : p ≠ [] := fun empty => filled (by rw [empty]; rfl)
  calc join (parent p) (fileName p)
      = (route (join (parent p) (fileName p))).text := join_eq_text filled _
    _ = ((route (parent p)).follow (fileName p)).text := by
        rw [route_join (isAbsolute_fileName colon), components_fileName]
        rfl
    _ = (route p).text := by rw [← route_eq_follow]
    _ = canonical p := (canonical_eq_text some).symm

/-! ### Another extension -/

/-- What may stand as an extension. -/
structure IsExtension (e : Text) : Prop where
  filled : e ≠ []
  dot : '.' ∉ e
  slash : '/' ∉ e
  backslash : '\\' ∉ e

theorem isSeparator_stem_append (h : IsExtension e) :
    ∀ x ∈ stem p ++ '.' :: e, isSeparator x = false := by
  have before : ∀ x ∈ stem p, isSeparator x = false := fun x member =>
    not_isSeparator_of_mem_fileName p x ((stem_isPrefix p).subset member)
  have after : ∀ x ∈ e, isSeparator x = false := by
    intro x member
    have slash : x ≠ '/' := fun same => h.slash (same ▸ member)
    have backslash : x ≠ '\\' := fun same => h.backslash (same ▸ member)
    simp [isSeparator, slash, backslash]
  exact List.forall_mem_append.2 ⟨before, List.forall_mem_cons.2 ⟨rfl, after⟩⟩

theorem parent_fileName_withExtension (h : IsExtension e) :
    parent (withExtension p e) = parent p ∧ fileName (withExtension p e) = stem p ++ '.' :: e := by
  have plain := isSeparator_stem_append (p := p) h
  have slash : isSeparator '/' = true := rfl
  unfold withExtension
  dsimp only
  split
  · rename_i top
    rw [parent, fileName, cutLast_eq_none plain, top]
    exact ⟨rfl, rfl⟩
  split
  · rename_i root
    have cut : Text.cutLast isSeparator ('/' :: (stem p ++ '.' :: e)) =
        some ([], stem p ++ '.' :: e) := cutLast_append (a := []) slash plain
    rw [parent, fileName, cut, root]
    exact ⟨rfl, rfl⟩
  · rename_i inside _
    rw [parent, fileName, cutLast_append slash plain]
    exact ⟨if_neg inside, rfl⟩

theorem cutLast_stem_append (h : IsExtension e) :
    Text.cutLast (· == '.') (stem p ++ '.' :: e) = some (stem p, e) := by
  refine cutLast_append rfl fun x member => ?_
  have other : x ≠ '.' := fun same => h.dot (same ▸ member)
  simpa using other

theorem stem_withExtension (filled : fileName p ≠ []) (h : IsExtension e) :
    stem (withExtension p e) = stem p := by
  rw [stem, (parent_fileName_withExtension h).2, cutLast_stem_append h]
  exact if_neg (stem_ne_nil filled)

theorem extension_withExtension (filled : fileName p ≠ []) (h : IsExtension e) :
    extension (withExtension p e) = some (Text.lowerAscii e) := by
  have named := stem_ne_nil filled
  have other : stem p ++ '.' :: e ≠ ".." := by
    intro up
    have short : (stem p ++ '.' :: e).length = 2 := by
      rw [up]
      rfl
    have before := List.length_pos_iff.2 named
    have after := List.length_pos_iff.2 h.filled
    rw [List.length_append, List.length_cons] at short
    omega
  rw [extension, (parent_fileName_withExtension h).2, if_neg other, cutLast_stem_append h]
  exact if_neg named

/-- A path that does not end in a separator is its last component in its directory, as long as no
colon could make a drive of that component. And an extension put in place of the old one is the
extension then, in lower case, while directory and stem stay. -/
theorem parts_rebuild (filled : fileName p ≠ []) :
    (components p).getLast? = some (fileName p) ∧
    (':' ∉ fileName p → join (parent p) (fileName p) = canonical p) ∧
    ∀ e, IsExtension e →
      parent (withExtension p e) = parent p ∧ stem (withExtension p e) = stem p ∧
        extension (withExtension p e) = some (Text.lowerAscii e) :=
  ⟨getLast?_components p, join_parent_fileName filled, fun _ h =>
    ⟨(parent_fileName_withExtension h).1, stem_withExtension filled h,
      extension_withExtension filled h⟩⟩

/-- One level up from a directory, which is a last component with a stem of its own. -/
theorem parts_rebuild_upward :
    join (parent "res\\..") (fileName "res\\..") = canonical "res\\.." ∧
      parent (withExtension "res\\.." "OBJ") = parent "res\\.." ∧
      stem (withExtension "res\\.." "OBJ") = stem "res\\.." ∧
      extension (withExtension "res\\.." "OBJ") = some "obj" := by
  obtain ⟨-, joined, replaced⟩ := parts_rebuild (p := "res\\..") (by decide)
  exact ⟨joined (by decide), replaced "OBJ" ⟨by decide, by decide, by decide, by decide⟩⟩

end BuildMatrix.Path
