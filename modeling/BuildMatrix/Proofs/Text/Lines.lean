import BuildMatrix.Proofs.Text.Trimming
import BuildMatrix.Text.Lines

/-! Writing lines and reading them. A line has no line feed, and lines without line feeds and
without a carriage return at the end are read back from the text they are written to. -/

set_option autoImplicit false

namespace BuildMatrix.Text

/-- A text that a line feed can follow: it is read back as one line. -/
structure IsLine (t : Text) : Prop where
  noFeed : '\n' ∉ t
  noReturn : t.getLast? ≠ some '\r'

theorem isLine_of_solid {t : Text} (noFeed : '\n' ∉ t)
    (last : ∀ c ∈ t.getLast?, isBlank c = false) : IsLine t where
  noFeed := noFeed
  noReturn := fun here => by
    have solid := last '\r' here
    revert solid
    decide

theorem not_mem_of_mem_splitOn {c : Char} {t l : Text} (member : l ∈ t.splitOn c) : c ∉ l := by
  intro inside
  rw [List.splitOn_eq_splitOnP] at member
  simpa using eq_false_of_mem_splitOnP member c inside

theorem dropReturn_subset (l : Text) : dropReturn l ⊆ l := by
  unfold dropReturn
  split
  · exact List.dropLast_subset l
  · exact List.Subset.refl l

/-- A carriage return at the end of a line is a blank there. -/
theorem trimEnd_dropReturn (l : Text) : trimEnd (dropReturn l) = trimEnd l := by
  unfold dropReturn
  split
  · rename_i last
    have blank : Blanks (['\r'] : Text) := fun _ member => List.mem_singleton.1 member ▸ rfl
    obtain ⟨front, rfl⟩ : ∃ front, l = front ++ ['\r'] :=
      ⟨l.dropLast, (List.dropLast_append_getLast? _ last).symm⟩
    rw [List.dropLast_concat, trimEnd_append_blanks blank]
  · rfl

theorem linesOfPieces_free {c : Char} {pieces : List Text} (free : ∀ p ∈ pieces, c ∉ p) :
    ∀ l ∈ linesOfPieces pieces, c ∉ l := by
  induction pieces with
  | nil => simp [linesOfPieces]
  | cons p rest ih =>
    have later := ih fun q member => free q (List.mem_cons_of_mem _ member)
    intro l member
    cases rest with
    | nil =>
      unfold linesOfPieces at member
      split at member
      · cases member
      · exact List.mem_singleton.1 member ▸ free p List.mem_cons_self
    | cons q rest =>
      rw [linesOfPieces, List.mem_cons] at member
      rcases member with rfl | member
      · exact fun inside => free p List.mem_cons_self (dropReturn_subset p inside)
      · exact later l member

theorem feed_not_mem_of_mem_lines {t l : Text} (member : l ∈ lines t) : '\n' ∉ l :=
  linesOfPieces_free (fun _ piece => not_mem_of_mem_splitOn piece) l member

/-- The text up to a line feed is the first line. -/
theorem lines_feed {l : Text} (free : '\n' ∉ l) (t : Text) :
    lines (l ++ '\n' :: t) = dropReturn l :: lines t := by
  obtain ⟨piece, pieces, shape⟩ := List.exists_cons_of_ne_nil (List.splitOn_ne_nil '\n' t)
  rw [lines, lines, List.splitOn_append_cons_self_of_not_mem free, shape, linesOfPieces]

theorem ofLines_cons (l : Text) (ls : List Text) : ofLines (l :: ls) = l ++ '\n' :: ofLines ls := by
  simp [ofLines]

/-- Lines without line feeds come back but for a carriage return at the end. -/
theorem lines_ofLines_eq_map {ls : List Text} (free : ∀ l ∈ ls, '\n' ∉ l) :
    lines (ofLines ls) = ls.map dropReturn := by
  induction ls with
  | nil => rfl
  | cons l rest ih =>
    obtain ⟨first, later⟩ := List.forall_mem_cons.1 free
    rw [ofLines_cons, lines_feed first, ih later, List.map_cons]

theorem lines_ofLines {ls : List Text} (h : ∀ l ∈ ls, IsLine l) : lines (ofLines ls) = ls := by
  rw [lines_ofLines_eq_map fun l member => (h l member).noFeed]
  refine (List.map_congr_left fun l member => ?_).trans (List.map_id ls)
  rw [dropReturn, if_neg (h l member).noReturn, id]

/-! ### Line numbers -/

section

variable {α β : Type}

theorem numbered_map_snd (xs : List α) : (numbered xs).map Prod.snd = xs := by
  rw [numbered, List.map_map]
  exact List.zipIdx_map_fst 1 _

theorem numbered_map (f : α → β) (xs : List α) :
    numbered (xs.map f) = (numbered xs).map fun x => (x.1, f x.2) := by
  simp only [numbered, List.zipIdx_map, List.map_map]
  rfl

theorem getElem?_numbered (xs : List α) (i : Nat) :
    (numbered xs)[i]? = xs[i]?.map fun x => (i + 1, x) := by
  rw [numbered, List.getElem?_map, List.getElem?_zipIdx, Option.map_map, Nat.add_comm]
  rfl

/-- Whatever things become, they keep their numbers. -/
theorem numbered_map_numbered (f : Nat × α → β) (xs : List α) :
    numbered ((numbered xs).map f) = (numbered xs).map fun x => (x.1, f x) := by
  refine List.ext_getElem? fun i => ?_
  rw [getElem?_numbered, List.getElem?_map, List.getElem?_map, getElem?_numbered]
  cases xs[i]? <;> rfl

theorem fst_of_numbered {xs : List α} {before after : List (Nat × α)} {x : Nat × α}
    (split : numbered xs = before ++ x :: after) : x.1 = before.length + 1 := by
  have here : (numbered xs)[before.length]? = some x := by
    rw [split, List.getElem?_append_right (Nat.le_refl _), Nat.sub_self, List.getElem?_cons_zero]
  rw [getElem?_numbered] at here
  obtain ⟨_, -, rfl⟩ := Option.map_eq_some_iff.1 here
  rfl

end

end BuildMatrix.Text
