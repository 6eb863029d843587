import BuildMatrix.Proofs.CommandLine.Generating
import BuildMatrix.Proofs.Project.OptionLine

/-! Generating again. A run settles every file it is about: it holds its script, whether the run
wrote it or not. A further run that reads the same things finds all files settled, so it writes
nothing and says so. -/

set_option autoImplicit false

namespace BuildMatrix

/-- Projects are compared key by key. -/
theorem Project.eq_iff {p q : Project} :
    p = q ↔ (p.file = q.file ∧ p.dir = q.dir ∧ p.requiredVersion = q.requiredVersion) ∧
      (∀ k ∈ OptionKey.all, p.settings k = q.settings k) ∧
      (p.unrecognized = q.unrecognized ∧ p.files = q.files ∧ p.debugFiles = q.debugFiles) ∧
      (p.rcFile = q.rcFile ∧ p.helpFile = q.helpFile ∧ p.idlFiles = q.idlFiles) ∧
      (∀ s ∈ [Scope.everyBuild, .debugOnly], p.declared s = q.declared s) ∧
      ∀ k ∈ [PairKind.gzip, .xpm, .png], p.pairs k = q.pairs k := by
  constructor
  · rintro rfl
    simp
  · obtain ⟨_, _, _, settings, _, _, _, _, _, _, declared, pairs⟩ := p
    obtain ⟨_, _, _, settings', _, _, _, _, _, _, declared', pairs'⟩ := q
    rintro ⟨⟨rfl, rfl, rfl⟩, set, ⟨rfl, rfl, rfl⟩, ⟨rfl, rfl, rfl⟩, listed, paired⟩
    obtain rfl : settings = settings' := funext fun k => set k k.mem_all
    obtain rfl : declared = declared' := funext fun s => listed s (by cases s <;> simp)
    obtain rfl : pairs = pairs' := funext fun k => paired k (by cases k <;> simp)
    rfl

instance : DecidableEq Project := fun _ _ => decidable_of_iff _ Project.eq_iff.symm

deriving instance DecidableEq for Library

/-- A disk as it is used from another directory at another time. -/
def Disk.seenFrom (d : Disk) (current : Address) (now : Timestamp) : Disk :=
  { d with current := current, now := now }

namespace CommandLine

open Update (Holds)

variable {disk d f : Disk} {e : Environment} {a : Arguments} {b : Blueprint} {p : Project}
  {mode : Update.Mode} {g : Progress} {t : Target} {ts : List Target} {s : Script}

/-- All scripts that some targets have are there. -/
def ScriptsHeld (d : Disk) (b : Blueprint) (ts : List Target) : Prop :=
  ∀ t ∈ ts, ∀ s, b.script t = .ok s → Holds d (b.scriptFile t) s

/-! ### The first run -/

namespace Progress

theorem scriptsHeld_foldl (real : mode.dryRun = false)
    (h : (ts.foldl (target b mode) (start d)).failure = none) :
    ScriptsHeld (ts.foldl (target b mode) (start d)).disk b ts := by
  induction ts using List.reverseRecOn with
  | nil => exact fun t member => absurd member (by simp)
  | append_singleton ts t ih =>
    rw [foldl_concat] at h ⊢
    have before := ih (failure_of_target h)
    obtain ⟨e, planned, here⟩ | ⟨s, after, o, planned, ran, here⟩ := target_cases h
    · rw [here]
      intro u member r other
      rcases List.mem_append.1 member with member | member
      · exact before u member r other
      · rw [List.mem_singleton.1 member, planned] at other
        cases other
    · rw [here]
      intro u member r other
      by_cases same : u = t
      · rw [same, planned] at other
        cases other
        rw [same]
        exact Update.holds_of_run (Blueprint.assembled_script planned) real ran
      · have earlier : u ∈ ts := by simpa [same] using member
        refine (before u earlier r other).of_run ran fun equal => same ?_
        exact Blueprint.eq_of_destination_scriptFile equal

/-- After a run all scripts are there, and the makefile, unless none was wanted. -/
theorem settled_makefile (real : a.has .dryRun = false) (h : (makefile b a g).failure = none)
    (scripts : ScriptsHeld g.disk b ts) :
    ScriptsHeld (makefile b a g).disk b ts ∧
      (wantsMakefile b a (makefile b a g).disk = false ∨
        Holds (makefile b a g).disk b.makefile
          (Makefile.script b.project g.generated b.scriptDir)) := by
  obtain ⟨unwanted, here⟩ | ⟨-, after, o, ran, here⟩ := makefile_cases h
  · rw [here]
    exact ⟨scripts, .inl unwanted⟩
  · rw [here]
    refine ⟨fun t member s planned => ?_, .inr ?_⟩
    · refine (scripts t member s planned).of_run ran fun equal => ?_
      exact b.destination_makefile_ne g.disk t equal.symm
    · exact Update.holds_of_run (Script.assembled_ofParagraphs _) real ran

/-! ### Another run -/

/-- A run that has written nothing so far. -/
structure Idle (d : Disk) (g : Progress) : Prop where
  disk : g.disk = d
  changed : g.changed = false
  failure : g.failure = none

theorem idle_write (h : Idle d g) {path : Text} (holds : Holds d path s)
    (unforced : mode.force = false) : Idle d (g.write mode path s) := by
  have ran : Update.run g.disk path s mode = (d, .ok .unchanged) := by
    rw [h.disk]
    exact Update.run_of_holds holds (.inr (by simp [unforced]))
  rw [write_of_run ran]
  exact ⟨rfl, by rw [updated, h.changed]; rfl, h.failure⟩

theorem idle_foldl (unforced : mode.force = false) (scripts : ScriptsHeld d b ts) :
    Idle d (ts.foldl (target b mode) (start d)) := by
  induction ts using List.reverseRecOn with
  | nil => exact ⟨rfl, rfl, rfl⟩
  | append_singleton ts t ih =>
    have before := ih fun u member => scripts u (List.mem_append_left _ member)
    rw [foldl_concat]
    cases planned : b.script t with
    | error e =>
      rw [target_of_error before.failure planned]
      exact ⟨before.disk, before.changed, before.failure⟩
    | ok s =>
      have written := idle_write before (scripts t (by simp) s planned) unforced
      rw [target_of_ok before.failure planned]
      exact ⟨written.disk, written.changed, written.failure⟩

theorem idle_makefile (h : Idle d g) (unforced : a.has .force = false)
    (settled : wantsMakefile b a d = false ∨
      Holds d b.makefile (Makefile.script b.project g.generated b.scriptDir)) :
    Idle d (makefile b a g) := by
  cases wanted : wantsMakefile b a d with
  | false =>
    rw [← h.disk] at wanted
    rwa [makefile_of_unwanted h.failure wanted]
  | true =>
    have holds := settled.resolve_left (by simp [wanted])
    rw [← h.disk] at wanted
    rw [makefile_of_wanted h.failure wanted]
    exact idle_write h holds unforced

end Progress

/-! ### Whole runs -/

/-- What a run reads before it looks at any file it generates. -/
def inputs? (disk : Disk) (a : Arguments) : Option (Project × List Text × List Library) :=
  (subject? disk a).map fun (d, p) =>
    (p, (resourceFiles d p).1, (Library.search d p).libraries)

/-- The arguments without the switch that has everything written anew. -/
def Arguments.unforced (a : Arguments) : Arguments :=
  { a with switches := a.switches.filter (· ≠ .force) }

theorem Arguments.has_unforced {x : Switch} (other : x ≠ .force) :
    a.unforced.has x = a.has x := by
  simp [Arguments.has, Arguments.unforced, other]

theorem Arguments.unforced_force (a : Arguments) : a.unforced.has .force = false := by
  simp [Arguments.has, Arguments.unforced]

/-- Later the disk is the same. -/
theorem altered_seenFrom (d : Disk) (now : Timestamp) :
    Disk.Altered d (d.seenFrom d.current now) (fun _ => True) [] :=
  ⟨rfl, rfl, by simp, fun _ _ => .inl rfl⟩

/-- Whether files exist does not depend on the time. -/
theorem exists?_seenFrom (d : Disk) (now : Timestamp) (path : Text) :
    (d.seenFrom d.current now).exists? path = d.exists? path := by
  have later := altered_seenFrom d now
  have earlier : Disk.Altered (d.seenFrom d.current now) d (fun _ => True) [] :=
    ⟨rfl, rfl, by simp, fun _ _ => .inl rfl⟩
  rw [Bool.eq_iff_iff, Disk.exists?_iff, Disk.exists?_iff]
  exact ⟨fun ⟨reaches, there⟩ => ⟨earlier.reaches reaches, there⟩,
    fun ⟨reaches, there⟩ => ⟨later.reaches reaches, there⟩⟩

theorem holds_seenFrom {path : Text} (h : Holds d path s) (now : Timestamp) :
    Holds (d.seenFrom d.current now) path s :=
  h.of_altered (altered_seenFrom d now) (by simp)

open Progress in
/-- What a run leaves keeps another run from writing. -/
theorem idle_generation (real : a.has .dryRun = false)
    (done : (generation d e a p).failure = none) (now : Timestamp)
    (same : blueprint (f.seenFrom f.current now) e a.unforced p = blueprint d e a p)
    (after : (generation d e a p).disk = f) :
    Idle (f.seenFrom f.current now) (generation (f.seenFrom f.current now) e a.unforced p) := by
  unfold generation generateTargets at done after
  have first := scriptsHeld_foldl real (failure_of_makefile done)
  have generated := generated_foldl (failure_of_makefile done)
  have settled := settled_makefile real done first
  rw [after, generated] at settled
  obtain ⟨scripts, makefile⟩ := settled
  have unforced : (updateMode a.unforced).force = false := a.unforced_force
  have again : Idle _ _ := idle_foldl unforced
    fun t member s planned => holds_seenFrom (scripts t member s planned) now
  unfold generation generateTargets
  rw [same]
  refine idle_makefile again a.unforced_force ?_
  rw [generated_foldl again.failure]
  refine makefile.imp (fun unwanted => ?_) fun holds => holds_seenFrom holds now
  unfold wantsMakefile at unwanted ⊢
  rwa [exists?_seenFrom, Arguments.has_unforced (by decide)]

theorem ending_of_idle (h : Progress.Idle d g) (real : a.has .dryRun = false) :
    g.ending a = .success (g.output ++ [.info "All build scripts are up to date."]) := by
  rw [Progress.ending, h.failure]
  dsimp only
  rw [if_neg (by simp [h.changed, real])]

/-- Once a run has succeeded, a further run that is not forced and reads the same project, the same
resource files and the same libraries from what the first one left, leaves everything as it is,
succeeds, and says that all is up to date. -/
theorem run_settles (noTool : a.value? .tool = none) (real : a.has .dryRun = false)
    (done : (run disk e a).2.code = 0) (now : Timestamp)
    (same : inputs? ((run disk e a).1.seenFrom disk.current now) a = inputs? disk a) :
    let after := (run disk e a).1
    let again := run (after.seenFrom disk.current now) e a.unforced
    again.1.top = after.top ∧ again.2.code = 0 ∧
      Output.info "All build scripts are up to date." ∈ again.2.output := by
  obtain ⟨d, p, subject⟩ := exists_subject noTool done
  obtain ⟨r, ran⟩ := run_eq (e := e) noTool subject
  rw [ran] at done same ⊢
  rw [code_ofEnding, Ending.after, error_ending] at done
  generalize left : (generation d e a p).disk = f at same ⊢
  -- what was written did not move the working directory
  have current : f.current = workingDirectory disk a := by
    have honest := honest_generation d (fun _ => True) (by simp) (by simp) done
    rw [← left, honest.current, enterDirectory_eq_ok (exists_of_subject? subject).1]
  -- the second run works in the same directory and makes scripts from the same things
  obtain ⟨g, q, subject', inputs⟩ : ∃ g q,
      subject? (f.seenFrom disk.current now) a = some (g, q) ∧
        (q, (resourceFiles g q).1, (Library.search g q).libraries) =
          (p, (resourceFiles d p).1, (Library.search d p).libraries) := by
    rw [inputs?, inputs?, subject] at same
    obtain ⟨⟨g, q⟩, found, equal⟩ := Option.map_eq_some_iff.1 same
    exact ⟨g, q, found, equal⟩
  obtain rfl : g = f.seenFrom f.current now := by
    rw [enterDirectory_eq_ok (exists_of_subject? subject').1, workingDirectory_eq rfl, current]
    rfl
  simp only [Prod.mk.injEq] at inputs
  obtain ⟨rfl, files, libraries⟩ := inputs
  have blueprints : blueprint (f.seenFrom f.current now) e a.unforced q = blueprint d e a q := by
    rw [blueprint, files, libraries]
    rfl
  have idle := idle_generation real done now blueprints left
  have dry : a.unforced.has .dryRun = false := by rw [Arguments.has_unforced (by decide), real]
  obtain ⟨r', ran'⟩ := run_eq (e := e) (a := a.unforced) noTool subject'
  dsimp only
  rw [ran', ending_of_idle idle dry]
  refine ⟨by rw [idle.disk]; rfl, rfl, ?_⟩
  refine List.mem_filter.2 ⟨?_, rfl⟩
  simp [Ending.success, Ending.after]

theorem inputs?_of_no_items
    (h : (subject? disk a).map (fun x => x.2.items .buildLibs) = some []) :
    inputs? disk a = (subject? disk a).map fun x => (x.2, (resourceFiles x.1 x.2).1, []) := by
  obtain ⟨⟨d, p⟩, subject, none⟩ := Option.map_eq_some_iff.1 h
  rw [inputs?, subject]
  simp only [Option.map_some, libraries_of_no_items none]

theorem run_settles_smallDisk :
    let after := (run smallDisk .empty .empty).1
    let again := run (after.seenFrom [] ⟨1⟩) .empty Arguments.empty.unforced
    after.top ≠ smallDisk.top ∧ again.1.top = after.top ∧ again.2.code = 0 ∧
      Output.info "All build scripts are up to date." ∈ again.2.output := by
  have same : inputs? ((run smallDisk .empty .empty).1.seenFrom [] ⟨1⟩) .empty =
      inputs? smallDisk .empty := by
    rw [inputs?_of_no_items (by decide +kernel), inputs?_of_no_items (by decide +kernel)]
    decide +kernel
  refine ⟨fun kept => ?_, run_settles rfl rfl (by decide +kernel) ⟨1⟩ same⟩
  have listed := congrArg List.length kept
  revert listed
  decide +kernel

/-- One script is a link to another one. -/
def scriptLink (path : Text) : Text :=
  if path = "./build/gcc_release64.ninja" then "./build/gcc_debug64.ninja" else path

/-- A run where two scripts are one file, and another one that finds what the first one left. -/
def linkedRun : Progress := generationBehind scriptLink smallDisk .empty .empty smallApp

def linkedDisk : Disk := linkedRun.disk.seenFrom [] ⟨1⟩

def linkedAgain : Progress := generationBehind scriptLink linkedDisk .empty .empty smallApp

/-- Who asks for the version is not told that all is up to date, however often. And where two
scripts are one file, each run writes both of them again. -/
theorem run_unsettled :
    ((runWords smallDisk .empty ["--version".toList]).2.code = 0 ∧
      Output.info "All build scripts are up to date." ∉
        (runWords (runWords smallDisk .empty ["--version".toList]).1 .empty
          ["--version".toList]).2.output) ∧
      linkedRun.failure = none ∧ inputs? linkedDisk .empty = inputs? smallDisk .empty ∧
      linkedAgain.failure = none ∧ linkedAgain.reports =
        [(Change.updated, "./build/gcc_debug64.ninja".toList),
          (.updated, "./build/gcc_release64.ninja")] := by
  rw [linkedAgain, linkedDisk, linkedRun, generationBehind, generationBehind,
    blueprint_of_no_items items_smallApp, blueprint_of_no_items items_smallApp]
  refine ⟨⟨rfl, fun said => ?_⟩, by decide +kernel, ?_, by decide +kernel, by decide +kernel⟩
  · cases List.mem_singleton.1 said
  rw [inputs?_of_no_items (by decide +kernel), inputs?_of_no_items (by decide +kernel)]
  decide +kernel

end CommandLine

end BuildMatrix
