import BuildMatrix.Proofs.Path.Rebasing

/-! The last component of a path. The normal form of a path keeps it if it is a name, and only names
have extensions; so a source file stays a source file in normal form. -/

set_option autoImplicit false

namespace BuildMatrix.Path

variable {p t a b : Text} {q : Char → Bool} {x : Char}

/-- Only a name has an extension. -/
theorem isName_of_extension (some : extension p ≠ none) : IsName (fileName p) := by
  unfold extension at some
  split at some
  · exact absurd rfl some
  rename_i up
  refine ⟨fun empty => ?_, fun dot => ?_, up, not_isSeparator_of_mem_fileName p⟩
  · rw [empty] at some
    exact some rfl
  · rw [dot] at some
    exact some rfl

theorem fileName_canonical (name : IsName (fileName p)) : fileName (canonical p) = fileName p := by
  have filled : p ≠ [] := fun empty => name.1 (by rw [empty]; rfl)
  rw [canonical_eq_text filled, route_of_name name]
  exact (parent_fileName_text (route_normal (parent p)) name).2

/-- In a directory, a name stands behind the normal form of the directory. -/
theorem join_name {c : Text} (name : IsName c) (colon : ':' ∉ c) (dir : Text) :
    join dir c = Pathname.join (route dir).place c := by
  obtain ⟨x, more, shape⟩ := List.exists_cons_of_ne_nil name.1
  have unrooted : isRooted c = false := by
    rw [shape]
    exact name.2.2.2 x (by simp [shape])
  have relative : isAbsolute c = false := by
    rw [isAbsolute, unrooted, hasDrive_eq_false colon]
    rfl
  rw [join_eq_text name.1, route_join_name name relative, text_concat (route_normal dir) name]

theorem fileName_join_name {c : Text} (name : IsName c) (colon : ':' ∉ c) (dir : Text) :
    fileName (join dir c) = c := by
  rw [join_name name colon, ← text_concat (route_normal dir) name]
  exact (parent_fileName_text (route_normal dir) name).2

theorem extension_canonical (some : extension p ≠ none) :
    extension (canonical p) = extension p := by
  unfold extension
  rw [fileName_canonical (isName_of_extension some)]

theorem isSource_canonical (source : isSource p = true) : isSource (canonical p) = true := by
  have some : extension p ≠ none := fun none => by simp [isSource, none] at source
  unfold isSource
  rw [extension_canonical some]
  exact source

/-! ### The end of a path -/

theorem fileName_suffix (p : Text) : fileName p <:+ p := by
  rcases parent_fileName_cases p with ⟨-, whole⟩ | ⟨a, x, whole, -, -⟩
  · exact ⟨[], whole⟩
  · exact ⟨a ++ [x], by rw [List.append_assoc, List.singleton_append, ← whole]⟩

theorem mem_of_mem_parent (member : x ∈ parent p) : x = '/' ∨ x ∈ p := by
  rcases parent_fileName_cases p with ⟨top, -⟩ | ⟨a, y, whole, -, dir⟩
  · rw [top] at member
    cases member
  · rw [dir] at member
    split at member
    · exact .inl (List.mem_singleton.1 member)
    · exact .inr (whole ▸ List.mem_append_left _ member)

theorem stem_isPrefix (p : Text) : stem p <+: fileName p := by
  unfold stem
  rcases cutLast_cases (· == '.') (fileName p) with ⟨none, -⟩ | ⟨a, y, b, cut, shape, -, -⟩
  · simp [none]
  · rw [cut]
    dsimp only
    split
    · exact List.prefix_rfl
    · exact shape ▸ List.prefix_append a _

theorem stem_ne_nil (filled : fileName p ≠ []) : stem p ≠ [] := by
  unfold stem
  split
  · exact filled
  · split
    · exact filled
    · assumption

theorem mem_of_mem_stem (member : x ∈ stem p) : x ∈ p :=
  (fileName_suffix p).subset ((stem_isPrefix p).subset member)

/-- A file with an extension ends as the extension does. -/
theorem getLast?_of_extension {e : Text} (some : e ≠ []) (found : extension p = .some e) :
    p.getLast?.map Char.toLower = e.getLast? := by
  unfold extension at found
  split at found
  · cases found
  rcases cutLast_cases (· == '.') (fileName p) with ⟨none, -⟩ | ⟨a, y, b, cut, shape, -, -⟩
  · rw [none] at found
    cases found
  · rw [cut] at found
    obtain ⟨-, same⟩ := Option.ite_none_left_eq_some.1 found
    obtain rfl : Text.lowerAscii b = e := Option.some.inj same
    have filled : b ≠ [] := fun empty => some (by rw [empty]; rfl)
    obtain ⟨front, whole⟩ : b <:+ p :=
      (shape ▸ (List.suffix_cons y b).trans (List.suffix_append a _) : b <:+ fileName p).trans
        (fileName_suffix p)
    rw [← whole, getLast?_append_of_ne_nil filled, Text.lowerAscii, List.getLast?_map]

end BuildMatrix.Path
