import BuildMatrix.Proofs.LineDiff.Patch
import BuildMatrix.Proofs.Update.Effects

/-! What can be relied on when files are updated. An update settles its file, so that repeating it
does nothing; a dry run touches nothing and foretells the update; and a failing update has written
no file. -/

set_option autoImplicit false

namespace BuildMatrix

namespace Update

variable {d : Disk} {path : Text} {content : Script} {old : Option Script} {force : Bool}

/-- What a dry run says where an update does something. -/
inductive Foretells : Outcome → Outcome → Prop where
  | created : Foretells .wouldCreate .created
  | updated {diff : LineDiff} : diff.isEmpty = false → Foretells (.wouldUpdate diff) .updated
  | unchanged : Foretells .unchanged .unchanged

theorem isEmpty_differences {s : Script} (other : s.lines ≠ content.lines) :
    (differences d path s content).isEmpty = false := by
  have found : LineDiff.walk 0 0 s.lines content.lines ≠ [] := fun none =>
    other (LineDiff.eq_of_walk_eq_nil none)
  exact List.isEmpty_eq_false_iff.2 found

theorem foretells_outcomeFor :
    Foretells (outcomeFor d path content ⟨true, force⟩ old)
      (outcomeFor d path content ⟨false, false⟩ old) := by
  cases old with
  | none => exact .created
  | some s =>
    rw [outcomeFor, outcomeFor]
    by_cases same : s.lines = content.lines
    · rw [if_pos ⟨same, .inl rfl⟩, if_pos ⟨same, .inr (by simp)⟩]
      exact .unchanged
    · rw [if_neg (mt And.left same), if_neg (mt And.left same)]
      exact .updated (isEmpty_differences same)

/-- What holds of all updates of one file with one script. -/
structure Faithful (d : Disk) (path : Text) (content : Script) : Prop where
  /-- After an update the file has the lines of the script, and a further update does nothing. -/
  settles : ∀ force e o, run d path content ⟨false, force⟩ = (e, .ok o) →
    (∃ t, e.readText path = .ok t ∧ (Script.ofText t).lines = content.lines) ∧
      run e path content ⟨false, false⟩ = (e, .ok .unchanged)
  /-- A dry run leaves everything as it is. -/
  dry : ∀ force, (run d path content ⟨true, force⟩).1 = d
  /-- A dry run says what the update comes to. -/
  foretells : ∀ force e o, run d path content ⟨false, false⟩ = (e, .ok o) →
    ∃ p, (run d path content ⟨true, force⟩).2 = .ok p ∧ Foretells p o
  /-- After a failing update the same files hold the same bytes. -/
  harmless : ∀ mode e f, run d path content mode = (e, .error f) →
    ∀ a bytes t, e.node? a = some (.file bytes t) ↔ d.node? a = some (.file bytes t)

/-- Updates are faithful on every disk, for every path and for every script that was put together
from texts. -/
theorem faithful (d : Disk) (path : Text) (ts : List Text) :
    Faithful d path (Script.empty.pushAll ts) where
  settles force e o h := by
    have holds := holds_of_run (Script.assembled_pushAll ts) rfl h
    refine ⟨?_, run_of_holds holds (.inr (by simp))⟩
    obtain ⟨s, there, same⟩ := holds
    obtain ⟨bytes, read, rfl⟩ := present_eq_some.1 there
    exact ⟨_, by rw [Disk.readText, read]; rfl, same⟩
  dry force := by rw [run_dry rfl]
  foretells force e o h := by
    obtain ⟨old, there, rfl, -⟩ := run_eq_ok h
    exact ⟨_, by rw [run_dry rfl, there]; rfl, foretells_outcomeFor⟩
  harmless mode e f h a bytes t := by
    rcases (run_eq_error h).node a (by simp) with same | ⟨none, new, -⟩
    · rw [same]
    · simp [none, new]

/-- A file with another line is updated once, and a dry run before that shows the difference. -/
theorem faithful_over_other_line :
    let d := (Disk.bare [] ⟨0⟩).withFile ["f"] (Text.toUtf8 "old")
    let content := Script.empty.pushAll ["new"]
    ∃ e, run d "f" content ⟨false, false⟩ = (e, .ok .updated) ∧
      run e "f" content ⟨false, false⟩ = (e, .ok .unchanged) ∧
      ∃ p, (run d "f" content ⟨true, true⟩).2 = .ok p ∧ Foretells p .updated := by
  intro d content
  have faithful := faithful d "f" ["new"]
  have updated : run d "f" content ⟨false, false⟩ =
      ((run d "f" content ⟨false, false⟩).1, .ok .updated) := by rfl
  exact ⟨_, updated, (faithful.settles _ _ _ updated).2, faithful.foretells true _ _ updated⟩

end Update

end BuildMatrix
