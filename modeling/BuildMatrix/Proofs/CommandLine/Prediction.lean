import BuildMatrix.Proofs.CommandLine.Generating
import Mathlib.Data.List.Nodup

/-! A dry run next to a run. The dry run looks at the disk as it was, the run at what it has made of
it so far. They come to the same decisions: a file is looked at once, nothing that the run has
written or made by then is on its way, and the makefile comes last. So a dry run forecasts the
changes that a run reports, and those are the changes it makes. -/

set_option autoImplicit false

namespace BuildMatrix

namespace Update

open Disk (Altered)

variable {d e f : Disk} {path : Text} {content : Script} {x y : Option Script} {o : Outcome}
  {made : Address → Prop} {written : List Address} {force : Bool}

/-- A file that was not written since is found as it was before. -/
theorem present_unique (altered : Altered d e made written) (anchored : d.Anchored path)
    (unwritten : d.destination path ∉ written) (before : present d path = .ok x)
    (after : present e path = .ok y) : x = y := by
  cases x with
  | some s =>
    obtain ⟨bytes, read, rfl⟩ := present_eq_some.1 before
    have same := present_eq_some.2 ⟨bytes, altered.read unwritten read, rfl⟩
    rw [after] at same
    exact (Except.ok.inj same).symm
  | none =>
    cases y with
    | none => rfl
    | some s =>
      obtain ⟨bytes, read, rfl⟩ := present_eq_some.1 after
      have same := present_eq_some.2 ⟨bytes, anchored.read altered unwritten read, rfl⟩
      rw [before] at same
      cases same

/-- A file that an update writes is not what it was. -/
theorem node?_ne_of_run (assembled : content.Assembled) (anchored : d.Anchored path)
    (ran : run d path content ⟨false, false⟩ = (e, .ok o)) (change : o.isChange = true)
    {bytes : Text.Bytes} {t : Timestamp}
    (after : e.node? (d.destination path) = some (.file bytes t)) :
    d.node? (d.destination path) ≠ some (.file bytes t) := by
  intro before
  obtain ⟨old, there, rfl, done⟩ := run_eq_ok ran
  rw [if_pos change] at done
  obtain ⟨altered, read⟩ := altered_overwrite done
  -- what was written is what was there, and it could be read
  obtain ⟨reaches, m, written⟩ := Disk.read_eq_ok_iff.1 read
  rw [altered.destination, after] at written
  cases written
  have reaches := anchored.reaches altered (by simp [before]) reaches
  obtain ⟨s, found, same⟩ := holds_of_read assembled (Disk.read_eq_ok_iff.2 ⟨reaches, t, before⟩)
  rw [there] at found
  cases found
  rw [outcomeFor, if_pos ⟨same, .inr (by simp)⟩] at change
  cases change

end Update

namespace CommandLine

open Disk (Altered)

variable {disk d after : Disk} {e : Environment} {a : Arguments} {b : Blueprint} {p : Project}
  {mode : Update.Mode} {g dry real : Progress} {t : Target} {ts : List Target} {path : Text}
  {s : Script} {made : Address → Prop} {force : Bool}

/-- A dry run expects what an update does, if both find the same. -/
theorem expectedBy?_outcomeFor (d e : Disk) (path : Text) (s : Script) (old : Option Script) :
    Change.expectedBy? (Update.outcomeFor d path s ⟨true, force⟩ old) =
      Change.madeBy? (Update.outcomeFor e path s ⟨false, false⟩ old) := by
  cases old with
  | none => rfl
  | some r =>
    rw [Update.outcomeFor, Update.outcomeFor]
    by_cases same : r.lines = s.lines
    · rw [if_pos ⟨same, .inl rfl⟩, if_pos ⟨same, .inr (by simp)⟩]
      rfl
    · rw [if_neg (mt And.left same), if_neg (mt And.left same)]
      rfl

namespace Progress

def forecasts (g : Progress) : List (Change × Text) := g.output.filterMap Output.forecast?

theorem forecasts_updated (g : Progress) (d : Disk) (path : Text) (o : Update.Outcome) :
    (g.updated d path o).forecasts =
      g.forecasts ++ (Change.expectedBy? o).toList.map (·, path) := by
  rw [forecasts, updated, List.filterMap_append, forecasts_outcomeOutput]
  rfl

theorem forecasts_refused (g : Progress) (t : Target) (e : Blueprint.Problem) :
    (g.refused t e).forecasts = g.forecasts := by
  rw [forecasts, refused, List.filterMap_append]
  exact List.append_nil _

/-- A dry run and a run that have come equally far. -/
structure Alongside (d : Disk) (made : Address → Prop) (dry real : Progress) : Prop where
  disk : dry.disk = d
  honest : Honest d made real
  same : dry.forecasts = real.reports
  /-- What was written is not what was there. -/
  fresh : ∀ x ∈ written d real, ∀ bytes m,
    real.disk.node? x = some (.file bytes m) → d.node? x ≠ some (.file bytes m)

theorem alongside_start (d : Disk) (made : Address → Prop) :
    Alongside d made (start d) (start d) :=
  ⟨rfl, honest_start d made, rfl, fun x member => absurd member (by simp [written, reports, start])⟩

theorem Alongside.refused (h : Alongside d made dry real) (t : Target) (e : Blueprint.Problem) :
    Alongside d made (dry.refused t e) (real.refused t e) := by
  refine ⟨h.disk, ?_, ?_, ?_⟩
  · rw [Honest, written_refused]
    exact h.honest
  · rw [forecasts_refused, reports_refused, h.same]
  · rw [written_refused]
    exact h.fresh

/-- Both come to the same decision about a file that was not written yet. -/
theorem Alongside.updated {one two : Disk} {o u : Update.Outcome} (h : Alongside d made dry real)
    (anchored : d.Anchored path) (unwritten : d.destination path ∉ written d real)
    (assembled : s.Assembled)
    (foretold : Update.run dry.disk path s ⟨true, force⟩ = (one, .ok o))
    (ran : Update.run real.disk path s ⟨false, false⟩ = (two, .ok u))
    (way : ∀ x, d.OnWay path x → made x) :
    Alongside d made (dry.updated one path o) (real.updated two path u) := by
  obtain ⟨x, before, expected, kept⟩ := Update.run_eq_ok foretold
  obtain ⟨y, found, decided, -⟩ := Update.run_eq_ok ran
  rw [h.disk] at before kept
  rw [expected, if_neg (by simp [Update.isChange_outcomeFor_dry])] at kept
  obtain rfl := Update.present_unique h.honest anchored unwritten before found
  refine ⟨kept, h.honest.updated ran way, ?_, fun z member bytes m there => ?_⟩
  · rw [forecasts_updated, reports_updated, h.same, expected, decided, expectedBy?_outcomeFor]
  have step := Update.altered_run ran
  rw [written_updated] at member
  rcases List.mem_append.1 member with old | new
  · -- what was written before stays
    have other : z ≠ d.destination path := fun same => unwritten (same ▸ old)
    have unchanged : z ∉ if u.isChange then [real.disk.destination path] else [] := by
      rw [h.honest.destination]
      split <;> simp [other]
    exact h.fresh z old bytes m (step.before unchanged there)
  · obtain ⟨change, rfl⟩ : u.isChange = true ∧ z = d.destination path := by
      split at new
      · exact ⟨by assumption, List.mem_singleton.1 new⟩
      · cases new
    rw [← h.honest.destination] at there
    have differs := Update.node?_ne_of_run assembled (h.honest.anchored anchored) ran change there
    rw [h.honest.destination] at differs
    exact fun before => differs (h.honest.kept unwritten before)

/-! ### Rows of targets -/

theorem places_foldl (h : (ts.foldl (target b mode) (start d)).failure = none) :
    ∀ c ∈ (ts.foldl (target b mode) (start d)).reports, ∃ t ∈ ts, c.2 = b.scriptFile t := by
  induction ts using List.reverseRecOn with
  | nil => exact fun c member => absurd member (by simp [reports, start])
  | append_singleton ts t ih =>
    rw [foldl_concat] at h ⊢
    intro c member
    have earlier (old : c ∈ (ts.foldl (target b mode) (start d)).reports) :
        ∃ u ∈ ts ++ [t], c.2 = b.scriptFile u := by
      obtain ⟨u, listed, place⟩ := ih (failure_of_target h) c old
      exact ⟨u, List.mem_append_left _ listed, place⟩
    obtain ⟨e, -, here⟩ | ⟨s, after, o, -, -, here⟩ := target_cases h
    · rw [here, reports_refused] at member
      exact earlier member
    · rw [here, reports_completed, reports_updated] at member
      rcases List.mem_append.1 member with old | new
      · exact earlier old
      · obtain ⟨k, -, rfl⟩ := List.mem_map.1 new
        exact ⟨t, by simp, rfl⟩

theorem alongside_foldl (made : Address → Prop) (rests : d.Rests b.project.dir)
    (distinct : ts.Nodup)
    (way : ∀ t ∈ ts, ∀ x, d.OnWay (b.scriptFile t) x → made x)
    (foretold : (ts.foldl (target b ⟨true, force⟩) (start d)).failure = none)
    (done : (ts.foldl (target b ⟨false, false⟩) (start d)).failure = none) :
    Alongside d made (ts.foldl (target b ⟨true, force⟩) (start d))
      (ts.foldl (target b ⟨false, false⟩) (start d)) := by
  induction ts using List.reverseRecOn with
  | nil => exact alongside_start d made
  | append_singleton ts t ih =>
    rw [foldl_concat] at foretold done ⊢
    rw [foldl_concat]
    obtain ⟨distinct, -, apart⟩ := List.nodup_append.1 distinct
    have before := ih distinct (fun u member => way u (List.mem_append_left _ member))
      (failure_of_target foretold) (failure_of_target done)
    have places := places_foldl (failure_of_target done)
    obtain ⟨e, planned, one⟩ | ⟨s, d1, o, planned, dry, one⟩ := target_cases foretold <;>
      obtain ⟨e', planned', two⟩ | ⟨s', d2, u, planned', real, two⟩ := target_cases done <;>
      rw [planned] at planned' <;> cases planned'
    · rw [one, two]
      exact before.refused t e
    · rw [one, two]
      -- its script was not written yet
      have unwritten : d.destination (b.scriptFile t) ∉
          written d (ts.foldl (target b ⟨false, false⟩) (start d)) := by
        intro member
        obtain ⟨c, listed, same⟩ := List.mem_map.1 member
        obtain ⟨v, earlier, place⟩ := places c listed
        rw [place] at same
        exact apart v earlier t (by simp) (Blueprint.eq_of_destination_scriptFile same)
      have step := before.updated (Blueprint.anchored_scriptFile rests t) unwritten
        (Blueprint.assembled_script planned) dry real (way t (by simp))
      exact ⟨step.disk, step.honest, step.same, step.fresh⟩

/-- What the run has changed is what it has written. -/
theorem Alongside.changed_iff (h : Alongside d made dry real) {x : Address} :
    (∃ bytes t, real.disk.node? x = some (.file bytes t) ∧ d.node? x ≠ some (.file bytes t)) ↔
      x ∈ written d real := by
  constructor
  · rintro ⟨bytes, m, there, differs⟩
    by_contra unwritten
    exact differs (h.honest.before unwritten there)
  · intro member
    obtain ⟨-, content, m, there⟩ := h.honest.file x member
    exact ⟨content, m, there, h.fresh x member content m there⟩

/-! ### The makefile -/

/-- A run that writes a makefile finds none exactly if there was none before. -/
theorem alongside_makefile {b' : Arguments} (rests : d.Rests b.project.dir)
    (h : Alongside d made dry real) (unwritten : d.destination b.makefile ∉ written d real)
    (unmade : d.node? (d.destination b.makefile) = none → ¬ made (d.destination b.makefile))
    (generated : dry.generated = real.generated) (switch : b'.has .makefile = a.has .makefile)
    (dryMode : updateMode b' = ⟨true, force⟩) (realMode : updateMode a = ⟨false, false⟩)
    (foretold : (makefile b b' dry).failure = none) (done : (makefile b a real).failure = none) :
    Alongside d (fun _ => True) (makefile b b' dry) (makefile b a real) := by
  have anchored := Blueprint.anchored_makefile rests
  have wants : wantsMakefile b b' dry.disk = wantsMakefile b a real.disk := by
    rw [wantsMakefile, wantsMakefile, switch, h.disk,
      anchored.exists?_eq h.honest unwritten unmade]
  have wide : Alongside d (fun _ => True) dry real :=
    ⟨h.disk, h.honest.mono fun _ _ => trivial, h.same, h.fresh⟩
  obtain ⟨unwanted, one⟩ | ⟨wanted, d1, o, foreseen, one⟩ := makefile_cases foretold <;>
    obtain ⟨unwanted', two⟩ | ⟨wanted', d2, u, ran, two⟩ := makefile_cases done <;>
    rw [one, two]
  · exact wide
  · rw [wants, wanted'] at unwanted
    cases unwanted
  · rw [wants, unwanted'] at wanted
    cases wanted
  · rw [dryMode, generated] at foreseen
    rw [realMode] at ran
    exact wide.updated anchored unwritten (Script.assembled_ofParagraphs _) foreseen ran
      fun _ _ => trivial

end Progress

/-! ### Whole runs -/

/-- The arguments with the switch for a dry run. -/
def Arguments.preview (a : Arguments) : Arguments := { a with switches := .dryRun :: a.switches }

theorem nodup_selection (p : Project) : p.selection.targets.Nodup :=
  List.Nodup.filter _ (by decide)

open Progress in
theorem alongside_generation (rests : d.Rests p.dir) (real : a.has .dryRun = false)
    (unforced : a.has .force = false)
    (apart : ¬ d.destination (Pathname.join p.dir Makefile.fileName) <+:
      d.destination (Pathname.join p.dir (Path.canonical a.buildDir)))
    (foretold : (generation d e a.preview p).failure = none)
    (done : (generation d e a p).failure = none) :
    Alongside d (fun _ => True) (generation d e a.preview p) (generation d e a p) := by
  have dryMode : updateMode a.preview = ⟨true, a.preview.has .force⟩ := by
    simp [updateMode, Arguments.has, Arguments.preview]
  have realMode : updateMode a = ⟨false, false⟩ := by rw [updateMode, real, unforced]
  have same : blueprint d e a.preview p = blueprint d e a p := rfl
  unfold generation generateTargets at foretold done ⊢
  rw [same] at foretold ⊢
  have foretold' := failure_of_makefile foretold
  have done' := failure_of_makefile done
  rw [dryMode] at foretold foretold' ⊢
  rw [realMode] at done done' ⊢
  have rests : d.Rests (blueprint d e a p).project.dir := rests
  have before := alongside_foldl (fun x => ∃ t, d.OnWay ((blueprint d e a p).scriptFile t) x) rests
    (nodup_selection p) (fun t _ x here => ⟨t, here⟩) foretold' done'
  have generated := (generated_foldl foretold').trans (generated_foldl done').symm
  have switch : a.preview.has .makefile = a.has .makefile := by
    simp [Arguments.has, Arguments.preview]
  refine alongside_makefile rests before (fun member => ?_) (fun none => ?_) generated switch
    dryMode realMode foretold done
  · -- no script is called like the makefile
    obtain ⟨c, listed, place⟩ := List.mem_map.1 member
    obtain ⟨t, -, named⟩ := places_foldl done' c listed
    rw [named] at place
    exact Blueprint.destination_makefile_ne d _ t place.symm
  · -- and the directories of the scripts are not made there
    rintro ⟨t, way⟩
    have above := (Blueprint.anchored_scriptFile rests t).prefix_of_onWay way none
    rw [Blueprint.destination_scriptFile] at above
    rcases List.prefix_concat_iff.1 above with same | inside
    · rw [← List.concat_eq_append, List.concat_eq_append,
        ← Blueprint.destination_scriptFile] at same
      exact Blueprint.destination_makefile_ne d _ t same
    · exact apart inside

theorem filterMap_shown {create update : Text} (details : Bool) (os : List Output) :
    (os.filter (·.isShown details)).filterMap (Output.mentioned? create update) =
      os.filterMap (Output.mentioned? create update) := by
  rw [List.filterMap_filter]
  refine List.filterMap_congr fun o _ => ?_
  cases o with
  | result t => rfl
  | message level origin t =>
    cases level with
    | debug => exact ite_self none
    | _ => rfl

/-- The changes that a run which succeeds says are those it reports about files. -/
theorem mentioned_ofEnding (create update : Text) (details : Bool) {quiet : List Output}
    (quiets : ∀ o ∈ quiet, Output.isQuiet o = true) (working : g.failure = none)
    (closing : Output.mentioned? create update (.info "All build scripts are up to date.") = none) :
    (Report.ofEnding details ((g.ending a).after quiet)).output.filterMap
        (Output.mentioned? create update) =
      g.output.filterMap (Output.mentioned? create update) := by
  have silent : quiet.filterMap (Output.mentioned? create update) = [] :=
    List.filterMap_eq_nil_iff.2 fun o member => mentioned?_of_isQuiet (quiets o member)
  have said (os : List Output) :
      (Report.ofEnding details ((Ending.success os).after quiet)).output.filterMap
          (Output.mentioned? create update) = os.filterMap (Output.mentioned? create update) := by
    refine (filterMap_shown details (quiet ++ os)).trans ?_
    rw [List.filterMap_append, silent, List.nil_append]
  rw [Progress.ending, working]
  dsimp only
  split
  · exact said _
  · rw [said, List.filterMap_append, List.filterMap_cons, closing, List.filterMap_nil,
      List.append_nil]

theorem forecasts_run (noTool : a.value? .tool = none) (subject : subject? disk a = some (d, p))
    (working : (generation d e a p).failure = none) :
    (run disk e a).2.output.filterMap Output.forecast? = (generation d e a p).forecasts := by
  obtain ⟨r, ran⟩ := run_eq (e := e) noTool subject
  rw [ran]
  exact mentioned_ofEnding _ _ (a.has .debug) (isQuiet_preliminaries d p r) working rfl

theorem reports_run (noTool : a.value? .tool = none) (subject : subject? disk a = some (d, p))
    (working : (generation d e a p).failure = none) :
    (run disk e a).2.output.filterMap Output.report? = (generation d e a p).reports := by
  obtain ⟨r, ran⟩ := run_eq (e := e) noTool subject
  rw [ran]
  exact mentioned_ofEnding _ _ (a.has .debug) (isQuiet_preliminaries d p r) working rfl

/-- If a dry run and a run that starts like it both succeed, then the dry run leaves everything as
it is, and what it says would be created and updated is what the run says it created and updated,
in the same order. The run changes exactly those files, and whatever else was there stays. -/
theorem dryRun_predicts (noTool : a.value? .tool = none) (real : a.has .dryRun = false)
    (unforced : a.has .force = false) (subject : subject? disk a = some (d, p))
    (apart : ¬ d.destination (Pathname.join p.dir Makefile.fileName) <+:
      d.destination (Pathname.join p.dir (Path.canonical a.buildDir)))
    (foretold : (run disk e a.preview).2.code = 0) (done : (run disk e a).2.code = 0) :
    let after := (run disk e a).1
    let reports := (run disk e a).2.output.filterMap Output.report?
    (run disk e a.preview).1.top = disk.top ∧
      (run disk e a.preview).2.output.filterMap Output.forecast? = reports ∧
      (∀ x, (∃ bytes t, after.node? x = some (.file bytes t) ∧
          disk.node? x ≠ some (.file bytes t)) ↔ ∃ c ∈ reports, d.destination c.2 = x) ∧
      ∀ x n, disk.node? x = some n → (∀ c ∈ reports, d.destination c.2 ≠ x) →
        after.node? x = some n := by
  -- both runs read the same project from the same directory, and then generate
  have subject' : subject? disk a.preview = some (d, p) := subject
  have entered := enterDirectory_eq_ok (exists_of_subject? subject).1
  rw [code_run (a := a.preview) noTool subject'] at foretold
  rw [code_run noTool subject] at done
  have both := alongside_generation (rests_of_subject? subject) real unforced apart foretold done
  have node (x : Address) : d.node? x = disk.node? x := by rw [entered]; rfl
  obtain ⟨r, dry⟩ := run_eq (e := e) (a := a.preview) noTool subject'
  obtain ⟨r', ran⟩ := run_eq (e := e) noTool subject
  have top : (run disk e a.preview).1.top = disk.top := by rw [dry, both.disk, entered]
  have after : (run disk e a).1 = (generation d e a p).disk := by rw [ran]
  dsimp only
  rw [forecasts_run (a := a.preview) noTool subject' foretold, reports_run noTool subject done,
    after]
  refine ⟨top, both.same, fun x => ?_, fun x n there other => ?_⟩
  · have changed := both.changed_iff (x := x)
    rw [node] at changed
    exact changed.trans List.mem_map
  · have unwritten : x ∉ Progress.written d (generation d e a p) := by
      intro member
      obtain ⟨c, listed, place⟩ := List.mem_map.1 member
      exact other c listed place
    exact both.honest.kept unwritten ((node x).trans there)

theorem dryRun_predicts_smallDisk :
    let after := (run smallDisk .empty .empty).1
    let reports := (run smallDisk .empty .empty).2.output.filterMap Output.report?
    after.top ≠ smallDisk.top ∧
      (run smallDisk .empty Arguments.empty.preview).1.top = smallDisk.top ∧
      (run smallDisk .empty Arguments.empty.preview).2.output.filterMap Output.forecast? =
        reports ∧
      (∀ x, (∃ bytes t, after.node? x = some (.file bytes t) ∧
          smallDisk.node? x ≠ some (.file bytes t)) ↔
        ∃ c ∈ reports, smallDisk.destination c.2 = x) ∧
      ∀ x n, smallDisk.node? x = some n → (∀ c ∈ reports, smallDisk.destination c.2 ≠ x) →
        after.node? x = some n := by
  have subject : subject? smallDisk .empty = some (smallDisk, smallApp) :=
    subject?_smallDisk rfl rfl
  refine ⟨fun kept => ?_, dryRun_predicts rfl rfl rfl subject (by decide +kernel)
    (by decide +kernel) (by decide +kernel)⟩
  have listed := congrArg List.length kept
  revert listed
  decide +kernel

/-- A directory for the build scripts that is the makefile by another name: the directory above the
root is the root. -/
def makefileDirectory : Arguments := ⟨[], [(.buildDir, "../makefile")]⟩

/-- The makefile is a link to a script that is not there yet. -/
def makefileLink (path : Text) : Text :=
  if path = "./makefile" then "./build/gcc_release64.ninja" else path

/-- A makefile is said to be created that the run does not write: where the directory for the
scripts is the makefile by another name, and where the makefile is a link to a script, it is there
when the run comes to it. -/
theorem dryRun_misses_makefile :
    ((run smallDisk .empty makefileDirectory.preview).2.code = 0 ∧
      (run smallDisk .empty makefileDirectory).2.code = 0 ∧
      (run smallDisk .empty makefileDirectory.preview).2.output.filterMap Output.forecast? =
        (run smallDisk .empty makefileDirectory).2.output.filterMap Output.report? ++
          [(Change.created, ("./makefile" : Text))]) ∧
    (let dry := generationBehind makefileLink smallDisk .empty Arguments.empty.preview smallApp
      let real := generationBehind makefileLink smallDisk .empty .empty smallApp
      dry.failure = none ∧ real.failure = none ∧
        dry.forecasts = real.reports ++ [(Change.created, ("./makefile" : Text))]) := by
  have subject : subject? smallDisk makefileDirectory = some (smallDisk, smallApp) :=
    subject?_smallDisk rfl rfl
  have subject' : subject? smallDisk makefileDirectory.preview = some (smallDisk, smallApp) :=
    subject?_smallDisk rfl rfl
  constructor
  · have foretold : (generation smallDisk .empty makefileDirectory.preview smallApp).failure =
        none := by decide +kernel
    have done : (generation smallDisk .empty makefileDirectory smallApp).failure = none := by
      decide +kernel
    refine ⟨(code_run rfl subject').2 foretold, (code_run rfl subject).2 done, ?_⟩
    rw [forecasts_run rfl subject' foretold, reports_run rfl subject done, generation, generation,
      blueprint_of_no_items items_smallApp, blueprint_of_no_items items_smallApp]
    decide +kernel
  · dsimp only
    rw [generationBehind, generationBehind, blueprint_of_no_items items_smallApp,
      blueprint_of_no_items items_smallApp]
    decide +kernel

end CommandLine

end BuildMatrix
