import BuildMatrix.CommandLine.Run
import BuildMatrix.Proofs.Disk.Anchoring
import BuildMatrix.Proofs.Path.Joining
import BuildMatrix.Proofs.Project.Reading
import BuildMatrix.Proofs.Update.Effects

/-! Runs that generate files. Every target has a script of its own, and the makefile lies apart
from all of them, so what is done about one file never touches another. A run that succeeds is a
row of updates, each of which succeeds. -/

set_option autoImplicit false

namespace BuildMatrix

/-! ### Names of generated files -/

namespace Target

theorem mem_all (t : Target) : t ∈ all := by
  obtain ⟨c, b, k⟩ := t
  cases c <;> cases b <;> cases k <;> decide

theorem scriptName_injective {t u : Target} (same : t.scriptName = u.scriptName) : t = u := by
  have each : ∀ t ∈ all, ∀ u ∈ all, t.scriptName = u.scriptName → t = u := by decide +kernel
  exact each t t.mem_all u u.mem_all same

theorem isName_scriptName (t : Target) : Path.IsName t.scriptName := by
  have each : ∀ t ∈ all, t.scriptName ≠ "" ∧ t.scriptName ≠ "." ∧ t.scriptName ≠ ".." ∧
      t.scriptName.all (fun x => !Path.isSeparator x) = true := by decide +kernel
  obtain ⟨empty, dot, up, plain⟩ := each t t.mem_all
  exact ⟨empty, dot, up, fun x member => by simpa using List.all_eq_true.1 plain x member⟩

theorem isAbsolute_scriptName (t : Target) : Path.isAbsolute t.scriptName = false := by
  have each : ∀ t ∈ all, Path.isAbsolute t.scriptName = false := by decide +kernel
  exact each t t.mem_all

theorem scriptName_ne_makefile (t : Target) : t.scriptName ≠ Makefile.fileName := by
  have each : ∀ t ∈ all, t.scriptName ≠ Makefile.fileName := by decide +kernel
  exact each t t.mem_all

end Target

namespace Blueprint

variable {d : Disk} {b : Blueprint} {t u : Target} {s : Script}

/-- The directory for the scripts, as the disk takes it. -/
def scriptPlace (b : Blueprint) : Text := Pathname.join b.project.dir b.scriptDir

/-- The script of a target, as the disk takes it. -/
def scriptFile (b : Blueprint) (t : Target) : Text :=
  Pathname.join b.project.dir (b.scriptPath t)

/-- The makefile, as the disk takes it. -/
def makefile (b : Blueprint) : Text := Pathname.join b.project.dir Makefile.fileName

theorem scriptFile_eq (b : Blueprint) (t : Target) :
    b.scriptFile t = Pathname.join b.project.dir (Path.route (b.scriptPath t)).text := by
  rw [scriptFile, scriptPath]
  exact congrArg _ (Path.join_eq_text t.isName_scriptName.1 _)

theorem makefile_eq (b : Blueprint) :
    b.makefile = Pathname.join b.project.dir (Path.route Makefile.fileName).text := rfl

theorem destination_scriptFile (d : Disk) (b : Blueprint) (t : Target) :
    d.destination (b.scriptFile t) = d.destination b.scriptPlace ++ [t.scriptName] := by
  have normal := Path.route_normal (b.scriptPath t)
  rw [scriptFile_eq, Disk.destination_join normal (Pathname.spells_text normal), scriptPath,
    Path.route_join_name t.isName_scriptName t.isAbsolute_scriptName, scriptPlace, scriptDir,
    Disk.destination_join_canonical, Path.route_canonical]
  simp [Address.route]

theorem destination_makefile (d : Disk) (b : Blueprint) :
    d.destination b.makefile = d.destination b.project.dir ++ [Makefile.fileName] := by
  rw [makefile_eq,
    Disk.destination_join (Path.route_normal _) (Pathname.spells_text (Path.route_normal _))]
  rfl

/-- Scripts of different targets are different files. -/
theorem eq_of_destination_scriptFile
    (same : d.destination (b.scriptFile t) = d.destination (b.scriptFile u)) : t = u := by
  rw [destination_scriptFile, destination_scriptFile] at same
  exact Target.scriptName_injective (by simpa using same)

theorem destination_makefile_ne (d : Disk) (b : Blueprint) (t : Target) :
    d.destination b.makefile ≠ d.destination (b.scriptFile t) := by
  rw [destination_scriptFile, destination_makefile]
  intro same
  have last := congrArg List.getLast? same
  rw [List.getLast?_concat, List.getLast?_concat, Option.some.injEq] at last
  exact t.scriptName_ne_makefile last.symm

theorem anchored_scriptFile (rests : d.Rests b.project.dir) (t : Target) :
    d.Anchored (b.scriptFile t) := by
  rw [scriptFile_eq]
  exact Disk.anchored_join rests (Path.route_normal _) (Pathname.spells_text (Path.route_normal _))

theorem anchored_makefile (rests : d.Rests b.project.dir) : d.Anchored b.makefile := by
  rw [makefile_eq]
  exact Disk.anchored_join rests (Path.route_normal _) (Pathname.spells_text (Path.route_normal _))

theorem assembled_script (h : b.script t = .ok s) : s.Assembled := by
  unfold script at h
  cases planned : b.plan t with
  | error err =>
    rw [planned] at h
    cases h
  | ok ps =>
    rw [planned] at h
    cases h
    exact Script.assembled_ofParagraphs _

end Blueprint

namespace CommandLine

variable {disk d : Disk} {e : Environment} {a : Arguments} {b : Blueprint} {p : Project}
  {mode : Update.Mode} {g : Progress} {t : Target} {ts : List Target} {path : Text}
  {content : Script}

/-! ### Reports -/

/-- What happens to a file that is written. -/
inductive Change where
  | created
  | updated
  deriving DecidableEq

/-- The change of a file that a message is about, by the words it begins with. -/
def Output.mentioned? (create update : Text) : Output → Option (Change × Text)
  | .message .info .program t =>
    ((t.dropPrefix? create).map (Change.created, ·)).or
      ((t.dropPrefix? update).map (Change.updated, ·))
  | _ => none

/-- A change that was made. -/
def Output.report? : Output → Option (Change × Text) := mentioned? "Created " "Updated "

/-- A change that a dry run does not make. -/
def Output.forecast? : Output → Option (Change × Text) :=
  mentioned? "Would create " "Would update "

/-- The change that an update made. -/
def Change.madeBy? : Update.Outcome → Option Change
  | .created => some .created
  | .updated => some .updated
  | .unchanged | .wouldCreate | .wouldUpdate _ => none

/-- The change that an update would have made. -/
def Change.expectedBy? : Update.Outcome → Option Change
  | .wouldCreate => some .created
  | .wouldUpdate _ => some .updated
  | .unchanged | .created | .updated => none

/-- Messages that do not inform about files. -/
def Output.isQuiet : Output → Bool
  | .message .info _ _ => false
  | _ => true

theorem mentioned?_of_isQuiet {create update : Text} {o : Output} (h : Output.isQuiet o = true) :
    Output.mentioned? create update o = none := by
  cases o with
  | result t => rfl
  | message level origin t =>
    cases level with
    | info => cases h
    | _ => rfl

theorem dropPrefix?_append (word t : Text) : (word ++ t).dropPrefix? word = some t :=
  List.dropPrefix?_eq_some_iff.2 ⟨word, rfl, beq_self_eq_true word⟩

theorem dropPrefix?_of_other {word other : Text} (long : word.length ≤ other.length)
    (apart : other.take word.length ≠ word) (t : Text) : (other ++ t).dropPrefix? word = none := by
  rw [Option.eq_none_iff_forall_ne_some]
  intro rest found
  obtain ⟨front, split, same⟩ := List.dropPrefix?_eq_some_iff.1 found
  obtain rfl := eq_of_beq same
  refine apart ?_
  have start := congrArg (List.take front.length) split
  rwa [List.take_append_of_le_length long, List.take_left] at start

theorem mentioned?_created (create update t : Text) :
    Output.mentioned? create update (.info (create ++ t)) = some (.created, t) := by
  simp only [Output.mentioned?, Output.info, dropPrefix?_append]
  rfl

theorem mentioned?_updated {create update : Text} (long : create.length ≤ update.length)
    (apart : update.take create.length ≠ create) (t : Text) :
    Output.mentioned? create update (.info (update ++ t)) = some (.updated, t) := by
  simp only [Output.mentioned?, Output.info, dropPrefix?_append, dropPrefix?_of_other long apart]
  rfl

/-- What is printed about a file reports its change. -/
theorem reports_outcomeOutput (path : Text) (o : Update.Outcome) :
    (Progress.outcomeOutput path o).filterMap Output.report? =
      (Change.madeBy? o).toList.map (·, path) := by
  cases o with
  | created =>
    rw [Progress.outcomeOutput, List.filterMap_cons, Output.report?, mentioned?_created]
    rfl
  | updated =>
    rw [Progress.outcomeOutput, List.filterMap_cons, Output.report?,
      mentioned?_updated (by decide) (by decide)]
    rfl
  | _ => rfl

/-- What a dry run prints about a file forecasts its change. -/
theorem forecasts_outcomeOutput (path : Text) (o : Update.Outcome) :
    (Progress.outcomeOutput path o).filterMap Output.forecast? =
      (Change.expectedBy? o).toList.map (·, path) := by
  cases o with
  | wouldCreate =>
    rw [Progress.outcomeOutput, List.filterMap_cons, Output.forecast?, mentioned?_created]
    rfl
  | wouldUpdate diff =>
    rw [Progress.outcomeOutput, List.filterMap_cons, Output.forecast?,
      mentioned?_updated (by decide) (by decide)]
    rfl
  | _ => rfl

/-! ### Steps of a run -/

namespace Progress

/-- What a successful update adds to a run. -/
def updated (g : Progress) (d : Disk) (path : Text) (o : Update.Outcome) : Progress :=
  { g with
    disk := d
    output := g.output ++ outcomeOutput path o
    changed := g.changed || o.isChange }

theorem write_of_run {o : Update.Outcome} (ran : Update.run g.disk path content mode = (d, .ok o)) :
    g.write mode path content = g.updated d path o := by
  rw [write, ran]
  rfl

theorem exists_of_write (h : (g.write mode path content).failure = none) :
    ∃ d o, Update.run g.disk path content mode = (d, .ok o) := by
  unfold write at h
  cases ran : Update.run g.disk path content mode with
  | mk after result =>
    rw [ran] at h
    cases result with
    | error f => cases h
    | ok o => exact ⟨after, o, rfl⟩

/-- The message about a target that has no script. -/
def refused (g : Progress) (t : Target) (e : Blueprint.Problem) : Progress :=
  { g with output := g.output ++ [.warn .program (t.title ++ ": " ++ e.message)] }

def completed (g : Progress) (t : Target) : Progress :=
  { g with generated := g.generated ++ [t] }

theorem target_of_error {e : Blueprint.Problem} (working : g.failure = none)
    (planned : b.script t = .error e) : target b mode g t = g.refused t e := by
  rw [target, if_neg (by simp [working]), planned]
  rfl

theorem target_of_ok (working : g.failure = none) (planned : b.script t = .ok content) :
    target b mode g t =
      { g.write mode (b.scriptFile t) content with generated := g.generated ++ [t] } := by
  rw [target, if_neg (by simp [working]), planned]
  rfl

theorem failure_of_target (h : (target b mode g t).failure = none) : g.failure = none := by
  cases failed : g.failure with
  | none => rfl
  | some f =>
    rw [target, if_pos (by rw [failed]; rfl), failed] at h
    exact h

theorem target_cases (h : (target b mode g t).failure = none) :
    (∃ e, b.script t = .error e ∧ target b mode g t = g.refused t e) ∨
      ∃ s d o, b.script t = .ok s ∧ Update.run g.disk (b.scriptFile t) s mode = (d, .ok o) ∧
        target b mode g t = (g.updated d (b.scriptFile t) o).completed t := by
  have working := failure_of_target h
  cases planned : b.script t with
  | error e => exact .inl ⟨e, rfl, target_of_error working planned⟩
  | ok s =>
    rw [target_of_ok working planned] at h ⊢
    obtain ⟨d, o, ran⟩ := exists_of_write h
    exact .inr ⟨s, d, o, rfl, ran, by rw [write_of_run ran]; rfl⟩

/-- Whether the makefile is generated, on a disk. -/
def wantsMakefile (b : Blueprint) (a : Arguments) (d : Disk) : Bool :=
  a.has .makefile || Makefile.isWanted b.project (d.exists? b.makefile)

theorem makefile_of_wanted (working : g.failure = none) (wanted : wantsMakefile b a g.disk = true) :
    makefile b a g =
      g.write (updateMode a) b.makefile (Makefile.script b.project g.generated b.scriptDir) := by
  unfold makefile
  dsimp only
  rw [if_neg (by simp [working])]
  exact if_pos wanted

theorem makefile_of_unwanted (working : g.failure = none)
    (unwanted : wantsMakefile b a g.disk = false) : makefile b a g = g := by
  unfold makefile
  dsimp only
  rw [if_neg (by simp [working])]
  exact if_neg (by rw [Bool.not_eq_true]; exact unwanted)

theorem failure_of_makefile (h : (makefile b a g).failure = none) : g.failure = none := by
  cases failed : g.failure with
  | none => rfl
  | some f =>
    rw [makefile, if_pos (by rw [failed]; rfl), failed] at h
    exact h

theorem makefile_cases (h : (makefile b a g).failure = none) :
    wantsMakefile b a g.disk = false ∧ makefile b a g = g ∨
      wantsMakefile b a g.disk = true ∧ ∃ d o,
        Update.run g.disk b.makefile (Makefile.script b.project g.generated b.scriptDir)
          (updateMode a) = (d, .ok o) ∧
        makefile b a g = g.updated d b.makefile o := by
  have working := failure_of_makefile h
  cases wanted : wantsMakefile b a g.disk with
  | false => exact .inl ⟨rfl, makefile_of_unwanted working wanted⟩
  | true =>
    rw [makefile_of_wanted working wanted] at h ⊢
    obtain ⟨d, o, ran⟩ := exists_of_write h
    exact .inr ⟨rfl, d, o, ran, write_of_run ran⟩

theorem foldl_concat (g : Progress) (ts : List Target) (t : Target) :
    (ts ++ [t]).foldl (target b mode) g = target b mode (ts.foldl (target b mode) g) t := by
  rw [List.foldl_append]
  rfl

/-- The targets that have scripts. -/
def scripted (b : Blueprint) (ts : List Target) : List Target :=
  ts.filter fun t => (b.script t).toOption.isSome

theorem generated_foldl (h : (ts.foldl (target b mode) (start d)).failure = none) :
    (ts.foldl (target b mode) (start d)).generated = scripted b ts := by
  induction ts using List.reverseRecOn with
  | nil => rfl
  | append_singleton ts t ih =>
    rw [foldl_concat] at h ⊢
    -- the last target was worked on, so nothing failed before it
    have before := ih (failure_of_target h)
    rw [scripted, List.filter_append, ← scripted, ← before]
    obtain ⟨e, planned, here⟩ | ⟨s, d, o, planned, -, here⟩ := target_cases h
    · rw [here]
      simp [refused, planned, Except.toOption]
    · rw [here]
      simp [completed, updated, planned, Except.toOption]

/-! ### What a run does to the disk -/

def reports (g : Progress) : List (Change × Text) := g.output.filterMap Output.report?

/-- Where the files lie that a run says it wrote. -/
def written (d : Disk) (g : Progress) : List Address := g.reports.map fun c => d.destination c.2

theorem reports_updated (g : Progress) (d : Disk) (path : Text) (o : Update.Outcome) :
    (g.updated d path o).reports = g.reports ++ (Change.madeBy? o).toList.map (·, path) := by
  rw [reports, updated, List.filterMap_append, reports_outcomeOutput]
  rfl

theorem reports_refused (g : Progress) (t : Target) (e : Blueprint.Problem) :
    (g.refused t e).reports = g.reports := by
  rw [reports, refused, List.filterMap_append]
  exact List.append_nil _

@[simp] theorem reports_completed (g : Progress) (t : Target) :
    (g.completed t).reports = g.reports := rfl

theorem written_updated (d : Disk) (g : Progress) (after : Disk) (path : Text)
    (o : Update.Outcome) :
    written d (g.updated after path o) =
      written d g ++ if o.isChange then [d.destination path] else [] := by
  rw [written, reports_updated, List.map_append]
  cases o <;> rfl

theorem written_refused (d : Disk) (g : Progress) (t : Target) (e : Blueprint.Problem) :
    written d (g.refused t e) = written d g := by
  rw [written, reports_refused, written]

/-- A run has written what it says it wrote. -/
def Honest (d : Disk) (made : Address → Prop) (g : Progress) : Prop :=
  Disk.Altered d g.disk made (written d g)

theorem honest_start (d : Disk) (made : Address → Prop) : Honest d made (start d) := .refl d made

theorem Honest.updated {after : Disk} {o : Update.Outcome} {made : Address → Prop}
    (h : Honest d made g) (ran : Update.run g.disk path content mode = (after, .ok o))
    (way : ∀ x, d.OnWay path x → made x) : Honest d made (g.updated after path o) := by
  have step := (Update.altered_run ran).mono fun x here => way x (h.onWay.1 here)
  have all := h.trans step
  rwa [h.destination, ← written_updated d g after] at all

theorem honest_foldl {made : Address → Prop}
    (way : ∀ t ∈ ts, ∀ x, d.OnWay (b.scriptFile t) x → made x)
    (h : (ts.foldl (target b mode) (start d)).failure = none) :
    Honest d made (ts.foldl (target b mode) (start d)) := by
  induction ts using List.reverseRecOn with
  | nil => exact honest_start d made
  | append_singleton ts t ih =>
    rw [foldl_concat] at h ⊢
    have before := ih (fun u member => way u (List.mem_append_left _ member)) (failure_of_target h)
    obtain ⟨e, -, here⟩ | ⟨s, after, o, -, ran, here⟩ := target_cases h
    · -- a target without a script changes neither the disk nor what was said of it
      rw [here, Honest, written_refused]
      exact before
    · rw [here]
      exact before.updated ran (way t (by simp))

theorem honest_makefile {made : Address → Prop} (before : Honest d made g)
    (way : ∀ x, d.OnWay b.makefile x → made x) (h : (makefile b a g).failure = none) :
    Honest d made (makefile b a g) := by
  obtain ⟨-, here⟩ | ⟨-, after, o, ran, here⟩ := makefile_cases h
  · rwa [here]
  · rw [here]
    exact before.updated ran way

end Progress

/-! ### What a run is about -/

/-- The disk as seen from the directory of a run, and the project it is about. -/
def subject? (disk : Disk) (a : Arguments) : Option (Disk × Project) :=
  match enterDirectory disk a with
  | .error _ => none
  | .ok d =>
    match projectFile? d a with
    | none => none
    | some file =>
      match (Project.read d file).result with
      | .error _ => none
      | .ok p => some (d, p)

theorem exists_of_subject? (h : subject? disk a = some (d, p)) :
    enterDirectory disk a = .ok d ∧ ∃ file, projectFile? d a = some file ∧
      (Project.read d file).result = .ok p := by
  unfold subject? at h
  cases entered : enterDirectory disk a with
  | error m => rw [entered] at h; cases h
  | ok d' =>
    rw [entered] at h
    dsimp only at h
    cases found : projectFile? d' a with
    | none => rw [found] at h; cases h
    | some file =>
      rw [found] at h
      dsimp only at h
      cases reading : (Project.read d' file).result with
      | error m => rw [reading] at h; cases h
      | ok q =>
        rw [reading] at h
        cases h
        exact ⟨rfl, file, found, reading⟩

/-- What the scripts are made from. -/
def blueprint (d : Disk) (e : Environment) (a : Arguments) (p : Project) : Blueprint :=
  ⟨p, a.buildDir, e, (resourceFiles d p).1, (Library.search d p).libraries⟩

/-- All that a run does about files. -/
def generation (d : Disk) (e : Environment) (a : Arguments) (p : Project) : Progress :=
  generateTargets d a (blueprint d e a p) p.selection.targets

/-! ### Generated files behind links

A disk has no links. A run in which the names of generated files are links does behind each name
what it would do there: `link` says where a name leads. -/

section

variable (link : Text → Text)

namespace Progress

def writeBehind (g : Progress) (mode : Update.Mode) (path : Text) (content : Script) : Progress :=
  match Update.run g.disk (link path) content mode with
  | (d, .error f) => { g with disk := d, failure := some f }
  | (d, .ok outcome) => g.updated d path outcome

def targetBehind (b : Blueprint) (mode : Update.Mode) (g : Progress) (t : Target) : Progress :=
  if g.failure.isSome then g
  else match b.script t with
    | .error e => g.refused t e
    | .ok s =>
      { g.writeBehind link mode (b.scriptFile t) s with generated := g.generated ++ [t] }

def makefileBehind (b : Blueprint) (a : Arguments) (g : Progress) : Progress :=
  if g.failure.isSome then g
  else if a.has .makefile || Makefile.isWanted b.project (g.disk.exists? (link b.makefile)) then
    g.writeBehind link (updateMode a) b.makefile
      (Makefile.script b.project g.generated b.scriptDir)
  else g

end Progress

def generationBehind (d : Disk) (e : Environment) (a : Arguments) (p : Project) : Progress :=
  .makefileBehind link (blueprint d e a p) a <|
    p.selection.targets.foldl (.targetBehind link (blueprint d e a p) (updateMode a)) (.start d)

end

theorem Progress.targetBehind_id (b : Blueprint) (mode : Update.Mode) :
    targetBehind id b mode = target b mode := by
  funext g t
  rw [targetBehind, target]
  rfl

/-- Where no name is a link, that is the run as it is. -/
theorem generationBehind_id (d : Disk) (e : Environment) (a : Arguments) (p : Project) :
    generationBehind id d e a p = generation d e a p := by
  rw [generationBehind, generation, generateTargets, Progress.targetBehind_id,
    Progress.makefileBehind, Progress.makefile]
  rfl

theorem honest_generation (d : Disk) (made : Address → Prop)
    (scripts : ∀ t ∈ p.selection.targets, ∀ x,
      d.OnWay ((blueprint d e a p).scriptFile t) x → made x)
    (makefile : ∀ x, d.OnWay (blueprint d e a p).makefile x → made x)
    (done : (generation d e a p).failure = none) :
    Progress.Honest d made (generation d e a p) :=
  Progress.honest_makefile
    (Progress.honest_foldl scripts (Progress.failure_of_makefile done)) makefile done

/-- The directory that a run works in. -/
def workingDirectory (disk : Disk) (a : Arguments) : Address :=
  match a.value? .directory with
  | none => disk.current
  | some dir => disk.destination dir

theorem enterDirectory_eq_ok (h : enterDirectory disk a = .ok d) :
    d = { disk with current := workingDirectory disk a } := by
  unfold enterDirectory at h
  unfold workingDirectory
  cases asked : a.value? .directory with
  | none =>
    rw [asked] at h
    exact (Except.ok.inj h).symm
  | some dir =>
    rw [asked] at h
    dsimp only at h ⊢
    unfold Disk.enter at h
    cases found : disk.find dir with
    | error m => rw [found] at h; cases h
    | ok r =>
      obtain ⟨x, n⟩ := r
      rw [found] at h
      obtain ⟨-, rfl, -⟩ := Disk.find_eq_ok_iff.1 found
      cases n with
      | file bytes m => cases h
      | directory => exact (Except.ok.inj h).symm

theorem workingDirectory_eq {disk other : Disk} (same : other.current = disk.current)
    (a : Arguments) : workingDirectory other a = workingDirectory disk a := by
  unfold workingDirectory Disk.destination Disk.startOf
  rw [same]

/-- A project lies in a directory. -/
theorem rests_of_subject? (h : subject? disk a = some (d, p)) : d.Rests p.dir := by
  obtain ⟨-, file, -, reading⟩ := exists_of_subject? h
  obtain ⟨⟨source, text⟩, place⟩ := Project.exists_of_read reading
  unfold Disk.readText at text
  cases bytes : d.read file with
  | error m => rw [bytes] at text; cases text
  | ok content =>
    obtain ⟨reaches, m, there⟩ := Disk.read_eq_ok_iff.1 bytes
    rw [place]
    exact reaches.rests_directory (by simp [there])

theorem code_ofEnding {details : Bool} {ending : Ending} :
    (Report.ofEnding details ending).code = 0 ↔ ending.error = none := by
  unfold Report.ofEnding
  cases ending.error <;> simp

theorem error_ending : (g.ending a).error = none ↔ g.failure = none := by
  unfold Progress.ending
  cases g.failure with
  | some f => simp
  | none =>
    dsimp only
    split <;> simp [Ending.success]

/-- What is said before any file is looked at. -/
def preliminaries (d : Disk) (p : Project) (r : Project.Reading) : List Output :=
  [.debug .program "Debug messages enabled."] ++ (Output.ofReading r ++
    (Output.warnings .program Project.Warning.message r.warnings ++ selectionOutput p.selection ++
      (resourceFiles d p).2 ++ librariesOutput (Library.search d p)))

theorem isQuiet_preliminaries (d : Disk) (p : Project) (r : Project.Reading) :
    ∀ o ∈ preliminaries d p r, Output.isQuiet o = true := by
  have warned {α : Type} (origin : Origin) (message : α → Text) (ws : List (Located α)) :
      ∀ o ∈ Output.warnings origin message ws, Output.isQuiet o = true :=
    List.forall_mem_map.2 fun _ _ => rfl
  have selected : ∀ o ∈ selectionOutput p.selection, Output.isQuiet o = true := by
    refine List.forall_mem_append.2 ⟨List.forall_mem_map.2 fun _ _ => rfl, ?_⟩
    split
    · exact List.forall_mem_singleton.2 rfl
    · exact List.forall_mem_nil _
  have resources : ∀ o ∈ (resourceFiles d p).2, Output.isQuiet o = true := by
    unfold resourceFiles
    split
    · exact List.forall_mem_nil _
    · exact List.forall_mem_append.2 ⟨List.forall_mem_map.2 fun _ _ => rfl, warned _ _ _⟩
  have libraries : ∀ o ∈ librariesOutput (Library.search d p), Output.isQuiet o = true := by
    refine List.forall_mem_append.2 ⟨List.forall_mem_map.2 fun event _ => ?_,
      List.forall_mem_map.2 fun _ _ => rfl⟩
    cases event <;> rfl
  have read : ∀ o ∈ Output.ofReading r, Output.isQuiet o = true :=
    List.forall_mem_map.2 fun _ _ => rfl
  simp only [preliminaries, List.forall_mem_append, List.forall_mem_singleton]
  exact ⟨rfl, read, ⟨⟨warned _ _ _, selected⟩, resources⟩, libraries⟩

theorem exists_subject (noTool : a.value? .tool = none) (done : (run disk e a).2.code = 0) :
    ∃ d p, subject? disk a = some (d, p) := by
  unfold run execute generate at done
  unfold subject?
  cases entered : enterDirectory disk a with
  | error m => simp [entered, Report.ofEnding] at done
  | ok d =>
    rw [entered, noTool] at done
    dsimp only at done ⊢
    cases found : projectFile? d a with
    | none => simp [found, Report.ofEnding, Ending.after] at done
    | some file =>
      rw [found] at done
      dsimp only at done ⊢
      cases reading : (Project.read d file).result with
      | error m => simp [reading, Report.ofEnding, Ending.after] at done
      | ok p => exact ⟨d, p, rfl⟩

theorem run_eq (noTool : a.value? .tool = none) (h : subject? disk a = some (d, p)) :
    ∃ r, run disk e a = ((generation d e a p).disk,
      .ofEnding (a.has .debug) (((generation d e a p).ending a).after (preliminaries d p r))) := by
  obtain ⟨entered, file, found, reading⟩ := exists_of_subject? h
  refine ⟨Project.read d file, ?_⟩
  rw [run, entered]
  dsimp only
  rw [execute, noTool]
  dsimp only
  rw [generate, found]
  dsimp only
  rw [reading]
  simp only [generateProject, Ending.after, preliminaries, List.append_assoc]
  rfl

theorem code_run (noTool : a.value? .tool = none) (h : subject? disk a = some (d, p)) :
    (run disk e a).2.code = 0 ↔ (generation d e a p).failure = none := by
  obtain ⟨r, ran⟩ := run_eq (e := e) noTool h
  rw [ran, code_ofEnding, Ending.after, error_ending]

theorem subject?_congr {a' : Arguments} (directory : a'.value? .directory = a.value? .directory)
    (file : a'.value? .file = a.value? .file) : subject? disk a' = subject? disk a := by
  simp only [subject?, enterDirectory, projectFile?, directory, file]

/-- A project that names no libraries is generated without any. -/
theorem libraries_of_no_items (none : p.items .buildLibs = []) :
    (Library.search d p).libraries = [] := by
  rw [Library.search, Library.Search.visits, none, List.map_nil, Library.Search.run]
  rfl

theorem blueprint_of_no_items (none : p.items .buildLibs = []) :
    blueprint d e a p = ⟨p, a.buildDir, e, (resourceFiles d p).1, []⟩ := by
  rw [blueprint, libraries_of_no_items none]

/-- A project of one source for one compiler. -/
def smallDisk : Disk where
  top := [(".srcfiles.yaml", .file (Text.toUtf8
    "Options:\n  Project: app\n  compilers: gcc\nFiles:\n  main.cpp\n") ⟨0⟩)]
  current := []
  now := ⟨0⟩

def smallApp : Project := ((subject? smallDisk .empty).map Prod.snd).getD (.bare [])

theorem subject?_smallDisk (directory : a.value? .directory = none)
    (file : a.value? .file = none) : subject? smallDisk a = some (smallDisk, smallApp) := by
  obtain ⟨⟨d, p⟩, subject⟩ : ∃ x, subject? smallDisk .empty = some x :=
    Option.isSome_iff_exists.1 (by decide +kernel)
  obtain rfl := enterDirectory_eq_ok (exists_of_subject? subject).1
  have same : subject? smallDisk a = subject? smallDisk .empty := subject?_congr directory file
  rw [same, smallApp, subject]
  rfl

theorem items_smallApp : smallApp.items .buildLibs = [] := by decide +kernel

end CommandLine

end BuildMatrix
