import BuildMatrix.Disk.Basic

/-! Why walks from file to file end. A disk takes no name that is too long, so finitely many names
open a file. A walk that marks what it opens, and goes on only where it finds a mark that it did not
know, has ever fewer of them before it: `unmet_cons_lt`. -/

set_option autoImplicit false

namespace BuildMatrix

namespace Text

def characters : List Char := (List.range 0x110000).map Char.ofNat

theorem mem_characters (c : Char) : c ∈ characters := by
  refine List.mem_map.2 ⟨c.toNat, List.mem_range.2 ?_, Char.ofNat_toNat c⟩
  have valid := c.valid
  unfold UInt32.isValidChar Nat.isValidChar at valid
  unfold Char.toNat
  omega

/-- All texts of at most `n` characters. -/
def upTo : Nat → List Text
  | 0 => [[]]
  | n + 1 => [] :: (upTo n).flatMap fun t => characters.map (· :: t)

theorem mem_upTo {n : Nat} {t : Text} (short : t.length ≤ n) : t ∈ upTo n := by
  induction n generalizing t with
  | zero => exact List.mem_singleton.2 (List.eq_nil_of_length_eq_zero (Nat.le_zero.1 short))
  | succ n ih =>
    cases t with
    | nil => exact List.mem_cons_self
    | cons c r =>
      refine List.mem_cons_of_mem _ (List.mem_flatMap.2 ⟨r, ih (Nat.le_of_succ_le_succ short), ?_⟩)
      exact List.mem_map.2 ⟨c, mem_characters c, rfl⟩

end Text

theorem Pathname.length_le_length_join (dir p : Text) : p.length ≤ (join dir p).length := by
  unfold join
  split
  · exact Nat.le_refl _
  · split <;> simp only [List.length_append, List.length_cons] <;> omega

namespace Disk

variable {α : Type} [DecidableEq α] {d : Disk} {dir x : Text} {mark : Text → α} {known : List α}

theorem length_le_of_isFile {p : Text} (opens : d.isFile p) : p.length ≤ longestPathname := by
  obtain ⟨a, found⟩ := Option.isSome_iff_exists.1 opens
  obtain ⟨content, found⟩ := file?_eq_some.1 found
  obtain ⟨place, located, -⟩ := findFile_eq_ok.1 found
  have short := (locate_eq_ok.1 located).1
  unfold checkLength at short
  split at short <;> try contradiction
  have := Text.length_le_byteCount p
  omega

theorem isFile_of_findFile {p : Text} {a : Address} {content : Text.Bytes}
    (found : d.findFile p = .ok (a, content)) : d.isFile p = true := by
  rw [isFile, file?_eq_some.2 ⟨content, found⟩]
  rfl

/-- How many names inside `dir` open a file whose mark is not known. -/
def unmet (d : Disk) (dir : Text) (mark : Text → α) (known : List α) : Nat :=
  ((Text.upTo longestPathname).filter fun x =>
    decide (mark x ∉ known) && d.isFile (Pathname.join dir x)).length

/-- They are fewer as soon as one more mark is known. -/
theorem unmet_cons_lt (opens : d.isFile (Pathname.join dir x)) (fresh : mark x ∉ known) :
    d.unmet dir mark (mark x :: known) < d.unmet dir mark known := by
  have split : (fun y => decide (mark y ∉ mark x :: known) && d.isFile (Pathname.join dir y)) =
      fun y => decide (mark y ≠ mark x) &&
        (decide (mark y ∉ known) && d.isFile (Pathname.join dir y)) := by
    funext y
    rw [← Bool.and_assoc, ← Bool.decide_and]
    simp only [List.mem_cons, not_or]
  have short := Nat.le_trans (Pathname.length_le_length_join dir x) (length_le_of_isFile opens)
  unfold unmet
  rw [split, ← List.filter_filter, List.length_filter_lt_length_iff_exists]
  refine ⟨x, List.mem_filter.2 ⟨Text.mem_upTo short, ?_⟩, by simp⟩
  simp [fresh, opens]

end Disk

end BuildMatrix
