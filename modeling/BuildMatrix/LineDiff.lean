import BuildMatrix.Timestamp

/-! Line by line differences between two lists of lines. Both are walked together; where they
differ, the nearest pair of equal lines ahead is looked for, and what lies before it is reported as
removed and added. -/

set_option autoImplicit false

namespace BuildMatrix

/-- A line of the old text that is gone, or one of the new text that is new, with its number
there. -/
inductive LineChange where
  | removed (line : Nat) (text : Text)
  | added (line : Nat) (text : Text)
  deriving DecidableEq

namespace LineDiff

/-- How many lines ahead of a difference a match may be. -/
def lookahead : Nat := 8

/-- Pairs of distances ahead, by their sum, then by the first. -/
def distances : List (Nat × Nat) :=
  (List.range (2 * lookahead)).flatMap fun k =>
    (List.range (min (k + 1) lookahead + 1)).filterMap fun di =>
      if k + 1 - di ≤ lookahead then some (di, k + 1 - di) else none

/-- Whether the lines at these distances exist and are equal. -/
def meets (old new : List Text) (d : Nat × Nat) : Bool :=
  match old[d.1]?, new[d.2]? with
  | some a, some b => a == b
  | _, _ => false

/-- The nearest pair of equal lines ahead. -/
def resync (old new : List Text) : Option (Nat × Nat) := distances.find? (meets old new)

/-- How many lines of each side to report at a difference: those before the nearest pair of equal
lines, or one of each. -/
def skip (old new : List Text) : Nat × Nat := (resync old new).getD (1, 1)

theorem distances_pos : ∀ d ∈ distances, 0 < d.1 + d.2 := by decide

theorem skip_pos (old new : List Text) : 0 < (skip old new).1 + (skip old new).2 := by
  unfold skip
  cases h : resync old new with
  | none => decide
  | some d => exact distances_pos d (List.mem_of_find?_eq_some h)

/-- Lines removed, the first one with number `i + 1`. -/
def removals (i : Nat) (ls : List Text) : List LineChange :=
  (ls.zipIdx (i + 1)).map fun (l, n) => .removed n l

/-- Lines added, the first one with number `j + 1`. -/
def additions (j : Nat) (ls : List Text) : List LineChange :=
  (ls.zipIdx (j + 1)).map fun (l, n) => .added n l

/-- The differences between what remains of both sides after `i` and `j` lines. -/
def walk (i j : Nat) (old new : List Text) : List LineChange :=
  match old, new with
  | [], new => additions j new
  | old, [] => removals i old
  | a :: as, b :: bs =>
    if a = b then walk (i + 1) (j + 1) as bs
    else
      let d := skip (a :: as) (b :: bs)
      removals i ((a :: as).take d.1) ++ additions j ((b :: bs).take d.2) ++
        walk (i + d.1) (j + d.2) ((a :: as).drop d.1) ((b :: bs).drop d.2)
termination_by old.length + new.length
decreasing_by
  all_goals have := skip_pos (a :: as) (b :: bs)
  all_goals simp only [List.length_drop, List.length_cons]; omega

end LineDiff

/-- The differences between a file and the text that is to replace it. -/
structure LineDiff where
  path : Text
  modified : Option Timestamp
  changes : List LineChange

namespace LineDiff

def between (path : Text) (old new : List Text) : LineDiff :=
  ⟨path, none, walk 0 0 old new⟩

def isEmpty (d : LineDiff) : Bool := d.changes.isEmpty

def changeText : LineChange → Text
  | .removed n l => '-' :: Text.alignRight 5 (Text.ofNat n) ++ ": " ++ l
  | .added n l => '+' :: Text.alignRight 5 (Text.ofNat n) ++ ": " ++ l

def text (d : LineDiff) : Text :=
  let time : Text := match d.modified with
    | some t => " (modified " ++ t.text ++ ")"
    | none => ""
  Text.ofLines <|
    ("--- " ++ d.path ++ time) :: ("+++ " ++ d.path ++ " (generated)") ::
      d.changes.map changeText

end LineDiff

end BuildMatrix
