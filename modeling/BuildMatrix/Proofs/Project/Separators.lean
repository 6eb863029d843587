import BuildMatrix.Proofs.Project.Warnings

/-! Missing separators. A reading warns of every option line and every pair that lacks a separator,
and of no other line: the texts it warns about are those of such items, in their order, and included
files add none. -/

set_option autoImplicit false

namespace BuildMatrix.Project

variable {disk : Disk} {m : Project} {file source : Text}

def Warning.separatorless? : Warning → Option Text
  | .missingSeparator line => some line
  | _ => none

/-- The texts that a reading finds no separator in. -/
def Reading.separatorless (r : Reading) : List Text :=
  r.warnings.filterMap fun w => w.problem.separatorless?

/-- The text of an item that lacks its separator. -/
def Item.separatorless? : Item → Option Text
  | .option line => if Line.option? line = none then some (Text.trim line) else none
  | .pair _ line => if Line.pair? line = none then some line else none
  | _ => none

theorem Item.separatorless?_eq (i : Item) :
    i.problem?.bind Warning.separatorless? = i.separatorless? := by
  cases i with
  | option line =>
    simp only [Item.problem?, optionProblem?, Item.separatorless?]
    cases Line.option? line with
    | none => rfl
    | some parts =>
      dsimp only
      split <;> rfl
  | pair kind line =>
    simp only [Item.problem?, Item.separatorless?]
    split <;> rfl
  | _ => rfl

/-- A reading warns of the items without a separator. -/
theorem readText_separatorless (accepted : (readText disk file source).result = .ok m) :
    (readText disk file source).separatorless =
      (Item.inText source).filterMap Item.separatorless? := by
  have own : ∀ w : Located Warning, w.problem.isOfEntry = true →
      w.problem.separatorless? = none := by
    rintro ⟨_, w⟩ here
    cases w with
    | missingSeparator line => cases here
    | _ => rfl
  rw [Reading.separatorless, filterMap_warnings_readText own accepted, ← Item.ofText_map_snd,
    List.filterMap_map]
  refine List.filterMap_congr fun x _ => ?_
  rw [Function.comp_apply, ← Item.separatorless?_eq, Item.warning?, Option.bind_map]
  rfl

end BuildMatrix.Project
