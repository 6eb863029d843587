import BuildMatrix.Proofs.CommandLine.Generating
import BuildMatrix.Proofs.Path.Rebasing

/-! The paths of scripts. The list of targets names each script from the directory as it was given,
and a run that generates the scripts has that directory in normal form. Both lead to the same file,
since joining paths composes and looks at a directory only for the place it denotes. -/

set_option autoImplicit false

namespace BuildMatrix

namespace CommandLine

variable {disk d : Disk} {e : Environment} {a : Arguments} {p : Project}

/-- Messages are no results, whether they are shown or not. -/
theorem flatMap_resultText_filter (details : Bool) (os : List Output) :
    (os.filter (·.isShown details)).flatMap Output.resultText =
      os.flatMap Output.resultText := by
  induction os with
  | nil => rfl
  | cons o rest ih =>
    cases shown : o.isShown details with
    | true => rw [List.filter_cons_of_pos shown, List.flatMap_cons, List.flatMap_cons, ih]
    | false =>
      have silent : o.resultText = [] := by
        cases o with
        | result t => cases shown
        | message level origin t => rfl
      rw [List.filter_cons_of_neg (by simp [shown]), List.flatMap_cons, silent, ih,
        List.nil_append]

theorem results_ofEnding (details : Bool) (ending : Ending) :
    (Report.ofEnding details ending).results = ending.output.flatMap Output.resultText := by
  have shown := flatMap_resultText_filter details ending.output
  unfold Report.ofEnding
  cases ending.error with
  | none => exact shown
  | some t =>
    rw [Report.results, List.flatMap_append, shown]
    simp [Output.resultText]

/-- What the list of targets says of one of them. -/
def targetText (p : Project) (t : Target) (script : Text) : Text :=
  t.makeName ++ ": " ++ script ++ " -> " ++ p.binaryPath t ++ ['\n']

theorem results_listTargets {file : Text} (found : projectFile? d a = some file)
    (reading : (Project.read d file).result = .ok p) :
    (listTargets d a).output.flatMap Output.resultText =
      p.selection.targets.flatMap fun t =>
        targetText p t (Path.join a.buildDir t.scriptName) := by
  have log : (Output.ofReading (Project.read d file)).flatMap Output.resultText = [] :=
    List.flatMap_eq_nil_iff.2 (List.forall_mem_map.2 fun _ _ => rfl)
  have unknown : (p.selection.unknownCompilers.map fun n =>
      Output.warn (.tool .targets) (Project.unknownCompilerMessage n)).flatMap
        Output.resultText = [] :=
    List.flatMap_eq_nil_iff.2 (List.forall_mem_map.2 fun _ _ => rfl)
  simp only [listTargets, withProject, found, withFile, reading, Ending.after, Ending.success,
    List.flatMap_append, log, unknown, List.nil_append, List.flatMap_map]
  rfl

theorem results_targets (tool : a.value? .tool = some "targets")
    (h : subject? disk a = some (d, p)) (e : Environment) :
    (run disk e a).2.results = p.selection.targets.flatMap fun t =>
      targetText p t (Path.join a.buildDir t.scriptName) := by
  obtain ⟨entered, file, found, reading⟩ := exists_of_subject? h
  have listed : execute d e a = (d, listTargets d a) := by
    rw [execute, tool]
    rfl
  rw [run, entered]
  simp only
  rw [results_ofEnding, listed, ← results_listTargets found reading]
  rfl

/-- Rebasing composes, a directory counts only by its place, and so the list of targets shows the
paths to which the scripts are written. -/
theorem rebasing_composes :
    (∀ a b c : Text, c ≠ [] → ':' ∉ b → ':' ∉ c →
      Path.join a (Path.join b c) = Path.join (Path.join a b) c) ∧
    (∀ dir q : Text, q ≠ [] → Path.join dir q = Path.join (Path.canonical dir) q) ∧
    ∀ (disk d : Disk) (e : Environment) (a : Arguments) (p : Project),
      a.value? .tool = some "targets" → subject? disk a = some (d, p) →
        ∀ b : Blueprint, b.buildDir = a.buildDir →
          (run disk e a).2.results =
            p.selection.targets.flatMap fun t => targetText p t (b.scriptPath t) := by
  refine ⟨fun a b c filled base colon => Path.join_join base colon filled a,
    fun dir q filled => (Path.join_canonical dir filled).symm, ?_⟩
  intro disk d e a p tool subject b same
  rw [results_targets tool subject e]
  refine List.flatMap_congr fun t _ => ?_
  rw [Blueprint.scriptPath, Blueprint.scriptDir, same,
    Path.join_canonical a.buildDir t.isName_scriptName.1]

/-- Arguments that ask for the targets and give a directory with backslashes. -/
def listing : Arguments := ⟨[], [(.tool, "targets"), (.buildDir, "..\\out\\.")]⟩

theorem rebasing_composes_smallDisk :
    Path.join "lib\\net" (Path.join ".." "../../x.cpp") =
        Path.join (Path.join "lib\\net" "..") "../../x.cpp" ∧
      Path.join "..\\out\\." "x.ninja" = Path.join (Path.canonical "..\\out\\.") "x.ninja" ∧
      ∃ p : Project, p.selection.targets ≠ [] ∧ (run smallDisk .empty listing).2.results =
        p.selection.targets.flatMap fun t =>
          targetText p t ((blueprint smallDisk .empty listing p).scriptPath t) := by
  obtain ⟨⟨d, p⟩, subject⟩ : ∃ x, subject? smallDisk listing = some x :=
    Option.isSome_iff_exists.1 (by decide +kernel)
  have some : (subject? smallDisk listing).map (fun x => x.2.selection.targets.isEmpty) =
      some false := by decide +kernel
  rw [subject] at some
  obtain ⟨composes, place, lists⟩ := rebasing_composes
  refine ⟨composes _ _ _ (by decide) (by decide) (by decide), place _ _ (by decide), p, ?_,
    lists _ _ _ _ _ rfl subject _ rfl⟩
  simpa using some

end CommandLine

end BuildMatrix
