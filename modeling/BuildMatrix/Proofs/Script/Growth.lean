import BuildMatrix.Proofs.Script.NormalForm

/-! How scripts grow. What was appended stays, and a solid text without line feeds becomes the next
line; so the lines of a script stand in the order of the texts that it was put together from. -/

set_option autoImplicit false

namespace BuildMatrix.Script

open Text

variable {s : Script} {l : Text} {ls : List Text}

/-- A text that becomes one line, and not a blank one. -/
structure Single (l : Text) : Prop where
  noFeed : '\n' ∉ l
  filled : trimEnd l ≠ []

theorem pushAll_append (s : Script) (ts us : List Text) :
    s.pushAll (ts ++ us) = (s.pushAll ts).pushAll us := List.foldl_append

theorem ofParagraphs_append (ps qs : List (List Text)) :
    ofParagraphs (ps ++ qs) = (ofParagraphs ps).pushAll (qs.flatMap ([] :: ·)) := by
  rw [ofParagraphs_eq_pushAll, ofParagraphs_eq_pushAll, List.flatMap_append, pushAll_append]

theorem ofParagraphs_concat (ps : List (List Text)) (p : List Text) :
    ofParagraphs (ps ++ [p]) = (ofParagraphs ps).blank.pushAll p := by
  rw [ofParagraphs_append, List.flatMap_singleton]
  rfl

theorem push_single (h : Single l) (s : Script) : s.push l = ⟨s.appended ++ [trimEnd l]⟩ := by
  rw [push, List.splitOn_eq_singleton h.noFeed]
  simp [append, normalize, h.filled]

theorem pushAll_single (h : ∀ l ∈ ls, Single l) (s : Script) :
    s.pushAll ls = ⟨s.appended ++ ls.map trimEnd⟩ := by
  induction ls generalizing s with
  | nil => simp [pushAll]
  | cons l ls ih =>
    obtain ⟨first, rest⟩ := List.forall_mem_cons.1 h
    have step : s.pushAll (l :: ls) = (s.push l).pushAll ls := rfl
    rw [step, ih rest, push_single first]
    simp

theorem endsBlank_pushAll_single (some : ls ≠ []) (h : ∀ l ∈ ls, Single l) (s : Script) :
    (s.pushAll ls).endsBlank = false := by
  have last : ls.getLast some ∈ ls := List.getLast_mem some
  rw [pushAll_single h, endsBlank]
  simp [List.getLast?_append, List.getLast?_map, List.getLast?_eq_some_getLast some,
    (h _ last).filled]

theorem blank_of_endsBlank (h : s.endsBlank = false) : s.blank = ⟨s.appended ++ [[]]⟩ := by
  have nothing : trimEnd [] = [] := rfl
  simp [blank, push, append, normalize, nothing, h]

theorem mem_normalize {after : Bool} (member : l ∈ normalize after ls) :
    ∃ m ∈ ls, l = trimEnd m := by
  induction ls generalizing after with
  | nil => cases member
  | cons m ls ih =>
    have later {after : Bool} (member : l ∈ normalize after ls) : ∃ n ∈ m :: ls, l = trimEnd n :=
      (ih member).imp fun n here => ⟨List.mem_cons_of_mem m here.1, here.2⟩
    rw [normalize] at member
    split at member
    · exact later member
    · rcases List.mem_cons.1 member with rfl | member
      · exact ⟨m, List.mem_cons_self, rfl⟩
      · exact later member

/-- What stands before a solid line is not left out, and more lines come from more texts. -/
theorem exists_lines_pushAll (h : s.endsBlank = false) (ts : List Text) :
    ∃ rest, (s.pushAll ts).lines = s.appended ++ rest ∧
      ∀ l ∈ rest, ∃ t ∈ ts, ∃ m ∈ t.splitOn '\n', l = trimEnd m := by
  have whole : s.pushAll ts =
      ⟨s.appended ++ normalize s.endsBlank (ts.flatMap (·.splitOn '\n'))⟩ := by
    rw [pushAll_eq_append, append]
  have origin : ∀ l ∈ normalize s.endsBlank (ts.flatMap (·.splitOn '\n')),
      ∃ t ∈ ts, ∃ m ∈ t.splitOn '\n', l = trimEnd m := by
    intro l member
    obtain ⟨m, inside, same⟩ := mem_normalize member
    obtain ⟨t, listed, piece⟩ := List.mem_flatMap.1 inside
    exact ⟨t, listed, m, piece, same⟩
  rw [whole, lines]
  generalize normalize s.endsBlank (ts.flatMap (·.splitOn '\n')) = more at origin
  dsimp only
  split
  · rename_i blank
    have later : more ≠ [] := by
      rintro rfl
      rw [List.append_nil] at blank
      simp [endsBlank, blank] at h
    rw [List.dropLast_append_of_ne_nil later]
    exact ⟨_, rfl, fun l member => origin l (List.dropLast_subset _ member)⟩
  · exact ⟨_, rfl, origin⟩

theorem lines_of_endsBlank (h : s.endsBlank = false) : s.lines = s.appended := by
  refine if_neg fun blank => ?_
  simp [endsBlank, blank] at h

/-- Paragraphs of single lines, each below a blank one. -/
theorem lines_pushAll_paragraphs {ps : List (List Text)} (h : s.endsBlank = false)
    (single : ∀ p ∈ ps, p ≠ [] ∧ ∀ l ∈ p, Single l) :
    (s.pushAll (ps.flatMap ([] :: ·))).lines =
      s.appended ++ ps.flatMap fun p => [] :: p.map trimEnd := by
  induction ps generalizing s with
  | nil => simpa [pushAll] using lines_of_endsBlank h
  | cons p ps ih =>
    obtain ⟨⟨some, each⟩, later⟩ := List.forall_mem_cons.1 single
    have step : s.pushAll ((p :: ps).flatMap ([] :: ·)) =
        (s.blank.pushAll p).pushAll (ps.flatMap ([] :: ·)) := by
      rw [List.flatMap_cons, pushAll_append]
      rfl
    rw [step, ih (endsBlank_pushAll_single some each _) later, pushAll_single each,
      blank_of_endsBlank h]
    simp

end BuildMatrix.Script
