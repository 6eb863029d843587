import BuildMatrix.Proofs.Disk.Changes
import BuildMatrix.Proofs.Script.NormalForm
import BuildMatrix.Proofs.Text.Utf8
import BuildMatrix.Update

/-! What an update does to the disk. It makes directories on the way to its file and writes that
one file, or it leaves the disk; a failing one writes no file. Main statement: after an update that
is no dry run the file holds the script, and a file that holds a script is not written again. -/

set_option autoImplicit false

namespace BuildMatrix.Update

open Disk (Altered)

variable {d e : Disk} {path : Text} {content s : Script} {old : Option Script} {mode : Mode}
  {f : Failure} {o : Outcome} {made : Address → Prop} {written : List Address}

/-! ### The script in a file -/

theorem present_eq_some :
    present d path = .ok (some s) ↔
      ∃ bytes, d.read path = .ok bytes ∧ s = .ofText (Text.ofUtf8 bytes) := by
  unfold present Disk.readText
  cases d.read path with
  | ok bytes => simp [Except.map, eq_comm]
  | error err => cases err <;> simp [Except.map]

/-- The file at a path holds a script, up to formatting noise. -/
def Holds (d : Disk) (path : Text) (content : Script) : Prop :=
  ∃ s, present d path = .ok (some s) ∧ s.lines = content.lines

theorem holds_of_read (assembled : content.Assembled)
    (there : d.read path = .ok (Text.toUtf8 content.text)) : Holds d path content := by
  refine ⟨.ofText content.text, present_eq_some.2 ⟨_, there, ?_⟩,
    Script.lines_ofText_text assembled⟩
  rw [Text.ofUtf8_toUtf8]

/-- Writing other files does not change what a file holds. -/
theorem Holds.of_altered (h : Holds d path content) (altered : Altered d e made written)
    (other : d.destination path ∉ written) : Holds e path content := by
  obtain ⟨s, there, same⟩ := h
  obtain ⟨bytes, read, rfl⟩ := present_eq_some.1 there
  exact ⟨_, present_eq_some.2 ⟨bytes, altered.read other read, rfl⟩, same⟩

/-! ### Outcomes -/

theorem isChange_outcomeFor_dry (dry : mode.dryRun = true) :
    (outcomeFor d path content mode old).isChange = false := by
  cases old with
  | none => rw [outcomeFor, if_pos dry, Outcome.isChange]
  | some s =>
    rw [outcomeFor]
    split <;> rfl

/-- Without a dry run only what holds the script already is left alone. -/
theorem lines_eq_of_not_isChange (real : mode.dryRun = false)
    (h : (outcomeFor d path content mode old).isChange = false) :
    ∃ s, old = some s ∧ s.lines = content.lines := by
  cases old with
  | none => simp [outcomeFor, real, Outcome.isChange] at h
  | some s =>
    rw [outcomeFor] at h
    split at h
    · rename_i same
      exact ⟨s, rfl, same.1⟩
    · simp [real, Outcome.isChange] at h

/-! ### Writing whatever the file holds -/

theorem altered_prepare (d : Disk) (path : Text) :
    Altered d (prepare d path).1 (d.OnWay path) [] := by
  unfold prepare
  cases named : (Pathname.parent? path).filter (· ≠ []) with
  | none => exact .refl _ _
  | some dir =>
    obtain ⟨parent, filled⟩ := Option.filter_eq_some_iff.1 named
    have filled : dir ≠ [] := by simpa using filled
    have around := (Disk.altered_makeDirectories (d := d) filled).mono fun b =>
      Disk.OnWay.of_ancestor (Pathname.mem_ancestors_of_parent? parent) filled
    dsimp only
    cases chain : d.makeDirectories dir with
    | mk after result =>
      rw [chain] at around
      cases result <;> exact around

theorem overwrite_eq_ok (h : overwrite d path content = (e, .ok ())) :
    ∃ after, prepare d path = (after, .ok ()) ∧
      after.write path (Text.toUtf8 content.text) = .ok e := by
  unfold overwrite at h
  split at h
  · cases h
  · rename_i after prepared
    split at h
    · rename_i written
      cases h
      exact ⟨after, prepared, written⟩
    · cases h

/-- If writing fails, the directories were made all the same. -/
theorem overwrite_eq_error (h : overwrite d path content = (e, .error f)) :
    (prepare d path).1 = e := by
  unfold overwrite at h
  split at h
  · rename_i prepared
    cases h
    rw [prepared]
  · rename_i prepared
    split at h
    · cases h
    · cases h
      rw [prepared]

theorem altered_overwrite_error (h : overwrite d path content = (e, .error f)) :
    Altered d e (d.OnWay path) [] :=
  overwrite_eq_error h ▸ altered_prepare d path

theorem altered_overwrite (h : overwrite d path content = (e, .ok ())) :
    Altered d e (d.OnWay path) [d.destination path] ∧
      e.read path = .ok (Text.toUtf8 content.text) := by
  obtain ⟨after, first, written⟩ := overwrite_eq_ok h
  have prepared := altered_prepare d path
  rw [first] at prepared
  -- the file lies where it would have been before its directories were made
  have put := (Disk.altered_write (d.OnWay path) written).1
  rw [prepared.destination] at put
  exact ⟨prepared.trans put, Disk.read_write written⟩

/-! ### Updates -/

/-- An update looks at the file, and then it writes it or leaves the disk. -/
theorem run_of_present (there : present d path = .ok old) :
    run d path content mode =
      if (outcomeFor d path content mode old).isChange then
        ((overwrite d path content).1,
          (overwrite d path content).2.map fun _ => outcomeFor d path content mode old)
      else (d, .ok (outcomeFor d path content mode old)) := by
  rw [run, there]
  dsimp only
  split
  · obtain ⟨after, result⟩ := overwrite d path content
    cases result <;> rfl
  · rfl

theorem run_eq_ok (h : run d path content mode = (e, .ok o)) :
    ∃ old, present d path = .ok old ∧ o = outcomeFor d path content mode old ∧
      if o.isChange then overwrite d path content = (e, .ok ()) else e = d := by
  cases there : present d path with
  | error f =>
    rw [run, there] at h
    cases h
  | ok old =>
    rw [run_of_present there] at h
    refine ⟨old, rfl, ?_⟩
    split at h
    · rename_i change
      cases done : overwrite d path content with
      | mk after result =>
        rw [done] at h
        cases result with
        | error f => cases h
        | ok _ =>
          cases h
          exact ⟨rfl, by rw [if_pos change]⟩
    · rename_i same
      cases h
      exact ⟨rfl, by rw [if_neg same]⟩

theorem run_eq_error (h : run d path content mode = (e, .error f)) :
    Altered d e (d.OnWay path) [] := by
  cases there : present d path with
  | error f =>
    rw [run, there] at h
    cases h
    exact .refl _ _
  | ok old =>
    rw [run_of_present there] at h
    split at h
    · cases done : overwrite d path content with
      | mk after result =>
        rw [done] at h
        cases result with
        | ok _ => cases h
        | error g =>
          cases h
          exact altered_overwrite_error done
    · cases h

/-- An update that succeeds writes its own file or none. -/
theorem altered_run (h : run d path content mode = (e, .ok o)) :
    Altered d e (d.OnWay path) (if o.isChange then [d.destination path] else []) := by
  obtain ⟨old, -, -, after⟩ := run_eq_ok h
  split at after
  · rename_i change
    rw [if_pos change]
    exact (altered_overwrite after).1
  · rename_i same
    rw [if_neg same, after]
    exact .refl _ _

theorem run_dry (dry : mode.dryRun = true) :
    run d path content mode =
      (d, (present d path).map (outcomeFor d path content mode)) := by
  cases there : present d path with
  | error f => rw [run, there]; rfl
  | ok old =>
    rw [run_of_present there, if_neg (by simp [isChange_outcomeFor_dry dry])]
    rfl

theorem holds_of_run (assembled : content.Assembled) (real : mode.dryRun = false)
    (h : run d path content mode = (e, .ok o)) : Holds e path content := by
  obtain ⟨old, there, rfl, after⟩ := run_eq_ok h
  split at after
  · exact holds_of_read assembled (altered_overwrite after).2
  · rename_i same
    obtain ⟨s, rfl, lines⟩ := lines_eq_of_not_isChange real (by simpa using same)
    rw [after]
    exact ⟨s, there, lines⟩

/-- An update of one file leaves what another one holds. -/
theorem Holds.of_run {other : Text} {also : Script} (h : Holds d path content)
    (ran : run d other also mode = (e, .ok o))
    (apart : d.destination path ≠ d.destination other) : Holds e path content := by
  refine h.of_altered (altered_run ran) fun member => ?_
  split at member
  · exact apart (List.mem_singleton.1 member)
  · cases member

theorem run_of_holds (h : Holds d path content)
    (unforced : mode.dryRun = true ∨ ¬mode.force = true) :
    run d path content mode = (d, .ok .unchanged) := by
  obtain ⟨s, there, same⟩ := h
  have outcome : outcomeFor d path content mode (some s) = .unchanged := by
    rw [outcomeFor, if_pos ⟨same, unforced⟩]
  rw [run_of_present there, outcome]
  rfl

end BuildMatrix.Update
