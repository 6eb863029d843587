import BuildMatrix.Proofs.Text.Lines
import BuildMatrix.Script

/-! The normal form of generated files. A script that was put together text by text is its own
normal form, so the text it is written to reads back as the same lines: a file that was just
written never differs from the script it was written from. -/

set_option autoImplicit false

namespace BuildMatrix.Script

variable {after : Bool} {s : Script} {l : Text} {ls ms : List Text}

/-- Lines that normalizing leaves as they are, if they follow other lines. -/
def Tidy : Bool → List Text → Prop
  | _, [] => True
  | after, l :: r => Text.trimEnd l = l ∧ ¬(l = [] ∧ after = true) ∧ Tidy (l = []) r

theorem tidy_normalize (after : Bool) (ls : List Text) : Tidy after (normalize after ls) := by
  induction ls generalizing after with
  | nil => trivial
  | cons l r ih =>
    rw [normalize]
    split
    · rename_i dropped
      rw [dropped.2]
      exact ih true
    · rename_i kept
      exact ⟨Text.trimEnd_eq_self (Text.isBlank_getLast?_trimEnd l), kept, ih _⟩

theorem normalize_of_tidy (h : Tidy after ls) : normalize after ls = ls := by
  induction ls generalizing after with
  | nil => rfl
  | cons l r ih =>
    obtain ⟨trimmed, kept, rest⟩ := h
    rw [normalize, trimmed, if_neg kept, ih rest]

theorem Tidy.append_left (h : Tidy after (ls ++ ms)) : Tidy after ls := by
  induction ls generalizing after with
  | nil => trivial
  | cons l r ih => exact ⟨h.1, h.2.1, ih h.2.2⟩

theorem Tidy.trimEnd (h : Tidy after ls) (member : l ∈ ls) : Text.trimEnd l = l := by
  induction ls generalizing after with
  | nil => cases member
  | cons m r ih =>
    rcases List.mem_cons.1 member with rfl | member
    · exact h.1
    · exact ih h.2.2 member

/-- No blank line stands before a blank one. -/
theorem Tidy.last_before_blank (h : Tidy after (ls ++ [[]])) : ls.getLast? ≠ some [] := by
  induction ls generalizing after with
  | nil => simp
  | cons l r ih =>
    obtain ⟨-, -, rest⟩ := h
    cases r with
    | nil =>
      intro blank
      obtain rfl : l = [] := by simpa using blank
      exact rest.2.1 ⟨rfl, rfl⟩
    | cons m r =>
      rw [List.getLast?_cons_cons]
      exact ih rest

/-! ### Appending -/

theorem append_cons (s : Script) (l : Text) (ls : List Text) :
    s.append (l :: ls) = (s.append [l]).append ls := by
  by_cases dropped : Text.trimEnd l = [] ∧ s.endsBlank = true
  · have same : s.append [l] = s := by
      simp only [append, normalize, if_pos dropped, List.append_nil]
    rw [same, append, append, normalize, if_pos dropped, dropped.2]
  · have ends : endsBlank ⟨s.appended ++ [Text.trimEnd l]⟩ = decide (Text.trimEnd l = []) := by
      simp [endsBlank]
    simp only [append, normalize, if_neg dropped, ends, List.append_assoc, List.singleton_append]

theorem append_append (s : Script) (ls ms : List Text) :
    (s.append ls).append ms = s.append (ls ++ ms) := by
  induction ls generalizing s with
  | nil => simp [append, normalize]
  | cons l ls ih => rw [append_cons, ih, List.cons_append, ← append_cons]

theorem pushAll_eq_append (s : Script) (ts : List Text) :
    s.pushAll ts = s.append (ts.flatMap (·.splitOn '\n')) := by
  induction ts generalizing s with
  | nil => simp [pushAll, append, normalize]
  | cons t ts ih =>
    rw [List.flatMap_cons, ← append_append]
    exact ih (s.push t)

theorem empty_append (ls : List Text) : empty.append ls = ⟨normalize true ls⟩ := rfl

/-! ### Reading back -/

/-- What putting a script together makes of it. -/
structure Assembled (s : Script) : Prop where
  noFeed : ∀ l ∈ s.appended, '\n' ∉ l
  tidy : Tidy true s.appended

theorem feed_not_mem_normalize (free : ∀ l ∈ ls, '\n' ∉ l) :
    ∀ l ∈ normalize after ls, '\n' ∉ l := by
  induction ls generalizing after with
  | nil => simp [normalize]
  | cons l r ih =>
    have rest : ∀ m ∈ normalize (decide (Text.trimEnd l = [])) r, '\n' ∉ m :=
      ih fun m member => free m (List.mem_cons_of_mem _ member)
    rw [normalize]
    split
    · exact ih fun m member => free m (List.mem_cons_of_mem _ member)
    · intro m member
      rcases List.mem_cons.1 member with rfl | member
      · exact fun feed => free l List.mem_cons_self (Text.mem_of_mem_trimEnd feed)
      · exact rest m member

theorem assembled_pushAll (ts : List Text) : (empty.pushAll ts).Assembled := by
  rw [pushAll_eq_append, empty_append]
  refine ⟨feed_not_mem_normalize fun l member => ?_, tidy_normalize _ _⟩
  obtain ⟨t, -, piece⟩ := List.mem_flatMap.1 member
  exact Text.not_mem_of_mem_splitOn piece

theorem ofParagraphs_eq_pushAll (ps : List (List Text)) :
    ofParagraphs ps = empty.pushAll (ps.flatMap ([] :: ·)) := by
  rw [pushAll, List.foldl_flatMap]
  rfl

theorem assembled_ofParagraphs (ps : List (List Text)) : (ofParagraphs ps).Assembled := by
  rw [ofParagraphs_eq_pushAll]
  exact assembled_pushAll _

theorem ofText_eq (t : Text) : ofText t = ⟨normalize true (Text.lines t)⟩ := by
  rw [ofText, pushAll_eq_append, empty_append]
  -- a line is not cut again
  have whole : (Text.lines t).flatMap (·.splitOn '\n') = (Text.lines t).flatMap ([·]) :=
    List.flatMap_congr fun l member =>
      List.splitOn_eq_singleton (Text.feed_not_mem_of_mem_lines member)
  rw [whole, List.flatMap_singleton']

/-- What is left out of the lines of a script is one blank line at the end. -/
theorem appended_eq (s : Script) :
    s.appended = s.lines ∧ s.lines.getLast? ≠ some [] ∨ s.appended = s.lines ++ [[]] := by
  unfold lines
  split
  · rename_i blank
    obtain ⟨front, whole⟩ := List.getLast?_eq_some_iff.1 blank
    rw [whole]
    simp
  · rename_i solid
    exact .inl ⟨rfl, solid⟩

/-- A script that is written reads back with the same lines. -/
theorem lines_ofText_text (h : s.Assembled) : (ofText s.text).lines = s.lines := by
  obtain ⟨tidy, last, listed⟩ : Tidy true s.lines ∧ s.lines.getLast? ≠ some [] ∧
      s.lines ⊆ s.appended := by
    rcases s.appended_eq with ⟨same, last⟩ | same
    · exact ⟨same ▸ h.tidy, last, same ▸ List.Subset.refl _⟩
    · have tidy := h.tidy
      rw [same] at tidy
      exact ⟨tidy.append_left, tidy.last_before_blank, same ▸ List.subset_append_left _ _⟩
  have isLine : ∀ l ∈ s.lines, Text.IsLine l := fun l member =>
    Text.isLine_of_solid (h.noFeed l (listed member)) <|
      tidy.trimEnd member ▸ Text.isBlank_getLast?_trimEnd l
  rw [ofText_eq, text, Text.lines_ofLines isLine, normalize_of_tidy tidy, lines, if_neg last]

end BuildMatrix.Script
