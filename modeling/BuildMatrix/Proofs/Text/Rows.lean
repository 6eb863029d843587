import BuildMatrix.Proofs.Text.Lines

/-! Lines with their line feeds. A text is the sequence of its rows; when rows are taken out of it,
or written on in front, the lines of the text that is left are those of the rows that are left. -/

set_option autoImplicit false

namespace BuildMatrix.Text

variable {t mark : Text} {pieces rs ss : List Text}

/-- The rows of pieces that were separated by line feeds. -/
def rowsOfPieces : List Text → List Text
  | [] => []
  | [last] => if last = [] then [] else [last]
  | p :: q :: r => (p ++ ['\n']) :: rowsOfPieces (q :: r)

/-- The lines of a text, each with the line feed that ends it. -/
def rows (t : Text) : List Text := rowsOfPieces (t.splitOn '\n')

/-- The line of a row. -/
def lineOfRow (r : Text) : Text :=
  if r.getLast? = some '\n' then dropReturn r.dropLast else r

/-- Rows one after the other: only the last one can lack a line feed. -/
structure AreRows (rs : List Text) : Prop where
  row : ∀ r ∈ rs, r ≠ [] ∧ '\n' ∉ r.dropLast
  ended : rs.Pairwise fun r _ => r.getLast? = some '\n'

/-! ### The rows of a text -/

theorem flatten_rowsOfPieces (pieces : List Text) :
    (rowsOfPieces pieces).flatten = ['\n'].intercalate pieces := by
  induction pieces with
  | nil => rfl
  | cons p rest ih =>
    cases rest with
    | nil =>
      rw [rowsOfPieces]
      split <;> simp_all
    | cons q rest => rw [rowsOfPieces, List.flatten_cons, ih, List.intercalate_cons_cons]

theorem flatten_rows (t : Text) : (rows t).flatten = t := by
  rw [rows, flatten_rowsOfPieces]
  exact List.intercalate_splitOn '\n'

theorem areRows_rowsOfPieces (free : ∀ p ∈ pieces, '\n' ∉ p) : AreRows (rowsOfPieces pieces) := by
  induction pieces with
  | nil => exact ⟨List.forall_mem_nil _, .nil⟩
  | cons p rest ih =>
    obtain ⟨first, later⟩ := List.forall_mem_cons.1 free
    cases rest with
    | nil =>
      rw [rowsOfPieces]
      split
      · exact ⟨List.forall_mem_nil _, .nil⟩
      · rename_i filled
        refine ⟨List.forall_mem_singleton.2 ⟨filled, ?_⟩, List.pairwise_singleton _ _⟩
        exact fun feed => first (List.dropLast_subset p feed)
    | cons q rest =>
      have after := ih later
      rw [rowsOfPieces]
      refine ⟨List.forall_mem_cons.2 ⟨⟨by simp, ?_⟩, after.row⟩,
        List.pairwise_cons.2 ⟨fun _ _ => List.getLast?_concat, after.ended⟩⟩
      rwa [List.dropLast_concat]

theorem areRows_rows (t : Text) : AreRows (rows t) :=
  areRows_rowsOfPieces fun _ => not_mem_of_mem_splitOn

/-! ### The lines of rows -/

theorem lines_flatten (h : AreRows rs) : lines rs.flatten = rs.map lineOfRow := by
  induction rs with
  | nil => rfl
  | cons r rest ih =>
    obtain ⟨⟨filled, free⟩, row⟩ := List.forall_mem_cons.1 h.row
    obtain ⟨ended, later⟩ := List.pairwise_cons.1 h.ended
    rw [List.flatten_cons, List.map_cons, lineOfRow]
    by_cases feed : r.getLast? = some '\n'
    · obtain ⟨l, rfl⟩ := List.getLast?_eq_some_iff.1 feed
      rw [List.dropLast_concat] at free
      rw [if_pos feed, List.dropLast_concat, List.append_assoc, List.singleton_append,
        lines_feed free, ih ⟨row, later⟩]
    · -- a row without a line feed is the last one
      have last : rest = [] :=
        List.eq_nil_iff_forall_not_mem.2 fun s member => feed (ended s member)
      have none : '\n' ∉ r := by
        intro inside
        rw [← List.dropLast_append_getLast filled, List.mem_append, List.mem_singleton] at inside
        rcases inside with inside | same
        · exact free inside
        · exact feed (by rw [List.getLast?_eq_some_getLast filled, same])
      rw [if_neg feed, last, List.flatten_nil, List.append_nil, lines,
        List.splitOn_eq_singleton none, linesOfPieces, if_neg filled]
      rfl

theorem lines_eq_map_rows (t : Text) : lines t = (rows t).map lineOfRow := by
  conv_lhs => rw [← flatten_rows t]
  exact lines_flatten (areRows_rows t)

/-! ### Other texts from some of the rows -/

/-- What is left when rows are taken out are rows. -/
theorem AreRows.sublist (h : AreRows rs) (inside : ss.Sublist rs) : AreRows ss where
  row r member := h.row r (inside.subset member)
  ended := h.ended.sublist inside

/-- What is left when a mark is set in front of some rows are rows. -/
theorem AreRows.marked (h : AreRows rs) (free : '\n' ∉ mark) {α : Type} {xs : List α}
    {row : α → Text} (whole : xs.map row = rs) (q : α → Bool) :
    AreRows (xs.map fun x => if q x then mark ++ row x else row x) := by
  subst whole
  have last (x : α) (ended : (row x).getLast? = some '\n') :
      (if q x then mark ++ row x else row x).getLast? = some '\n' := by
    split
    · rw [List.getLast?_append, ended, Option.some_or]
    · exact ended
  refine ⟨List.forall_mem_map.2 fun x member => ?_, ?_⟩
  · obtain ⟨filled, inner⟩ := h.row _ (List.mem_map_of_mem member)
    split
    · rw [List.dropLast_append_of_ne_nil filled, List.mem_append, not_or]
      exact ⟨List.append_ne_nil_of_right_ne_nil mark filled, free, inner⟩
    · exact ⟨filled, inner⟩
  · exact List.pairwise_map.2 ((List.pairwise_map.1 h.ended).imp fun ended => last _ ended)

/-! ### Rows with a mark in front -/

theorem dropReturn_append (keeps : mark.getLast? ≠ some '\r') (t : Text) :
    dropReturn (mark ++ t) = mark ++ dropReturn t := by
  cases t using List.reverseRecOn with
  | nil => rw [List.append_nil, dropReturn, if_neg keeps]; exact (List.append_nil mark).symm
  | append_singleton front c =>
    rw [dropReturn, dropReturn, ← List.append_assoc, List.getLast?_concat, List.getLast?_concat]
    split
    · rw [List.dropLast_concat, List.dropLast_concat]
    · rw [List.append_assoc]

theorem lineOfRow_append (keeps : mark.getLast? ≠ some '\r') {r : Text} (filled : r ≠ []) :
    lineOfRow (mark ++ r) = mark ++ lineOfRow r := by
  have last : (mark ++ r).getLast? = r.getLast? := by
    rw [List.getLast?_append, List.getLast?_eq_some_getLast filled, Option.some_or]
  rw [lineOfRow, lineOfRow, last]
  split
  · rw [List.dropLast_append_of_ne_nil filled, dropReturn_append keeps]
  · rfl

end BuildMatrix.Text
