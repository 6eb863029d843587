import BuildMatrix.Proofs.Resource.Reachability
import Mathlib.Computability.StateTransition

/-! What a scan accounts for. It is a walk with mentions still to follow, and the walk ends. On the
way every line of an opened file that mentions something is settled once: what it mentions is found,
or there is one warning about it. So the warnings so far and those that are still to come are
together what all the lines of the opened files give rise to. -/

set_option autoImplicit false

namespace BuildMatrix.Resource

open StateTransition (Reaches eval)

def Warning.isMissing : Warning → Bool
  | .missing _ => true
  | .unreadable _ _ => false

namespace Scan

/-- The warnings about files that were not found. -/
def missing (s : Scan) : List (Located Warning) := s.warnings.filter fun w => w.problem.isMissing

/-- Follow the first of the mentions that are still to follow. -/
def next (disk : Disk) (dir scriptDir : Text) : Scan × List Mention → Option (Scan × List Mention)
  | (_, []) => none
  | (s, m :: rest) =>
    match resolve? disk dir scriptDir m with
    | none => some (s.warn m.position (.missing (Path.join m.dir m.reference.name)), rest)
    | some file =>
      if Path.foldCase file ∈ s.visited then some (s, rest)
      else match m.reference.kind with
        | .resource => some (s.add file, rest)
        | .header =>
          let opening := openFile disk dir (s.add file) file
          some (opening.1, opening.2 ++ rest)

end Scan

section

variable (disk : Disk) (dir script : Text)

/-- The lines of a file with their numbers, none if it cannot be read. -/
def linesOf (file : Text) : List (Text × Nat) :=
  match disk.readText (Pathname.join dir file) with
  | .ok content => (Text.lines content).zipIdx 1
  | .error _ => []

/-- What a line of a file mentions. -/
def mentionAt? (file : Text) (line : Text × Nat) : Option Mention :=
  (Reference.ofLine? line.1).map fun r =>
    ⟨.ofLine (Pathname.join dir file) line.2, Path.parent file, r⟩

/-- The warning about a mention that leads nowhere. -/
def missing? (m : Mention) : Option (Located Warning) :=
  if target? disk dir script m = none then
    some ⟨m.position, .missing (Path.join m.dir m.reference.name)⟩
  else none

/-- The warnings that the lines of opened files give rise to. -/
def missingIn (files : List Text) : List (Located Warning) :=
  files.flatMap fun f => (linesOf disk dir f).filterMap fun l =>
    (mentionAt? dir f l).bind (missing? disk dir script)

/-- What is known in the middle of a scan about its warnings and the files it opened. -/
structure Accounted (s : Scan) (pending : List Mention) : Prop where
  missing : (s.missing ++ pending.filterMap (missing? disk dir script)).Perm
    (missingIn disk dir script s.opened)
  opened : s.opened.Sublist (Path.canonical script :: s.dependencies)

/-- What a finished scan is held to. -/
structure Sound (s : Scan) : Prop where
  canonical : ∀ f ∈ s.dependencies, Path.canonical f = f
  isFile : ∀ f ∈ s.dependencies, disk.isFile (Pathname.join dir f) = true
  /-- Neither the script nor another dependency has the key of a dependency. -/
  distinct : ((Path.canonical script :: s.dependencies).map Path.foldCase).Nodup
  /-- No two files that were opened have one key. -/
  openedOnce : (s.opened.map Path.foldCase).Nodup
  /-- What a line of an opened file leads to has the key of the script or of a dependency. -/
  settled : ∀ f ∈ s.opened, ∀ l ∈ linesOf disk dir f, ∀ m, mentionAt? dir f l = some m →
    ∀ g, target? disk dir script m = some g →
      ∃ k ∈ Path.canonical script :: s.dependencies, Path.foldCase g = Path.foldCase k
  /-- Every line that leads nowhere gives one warning, and nothing else does. -/
  missing : s.missing.Perm (missingIn disk dir script s.opened)

end

variable {disk : Disk} {dir script base : Text} {s t : Scan} {m : Mention}
  {rest pending : List Mention} {g : Text}

/-! ### Lines and mentions -/

theorem mentionsOf_eq (disk : Disk) (dir file : Text) :
    mentionsOf disk dir file = (linesOf disk dir file).filterMap (mentionAt? dir file) := by
  unfold mentionsOf linesOf
  cases disk.readText (Pathname.join dir file) <;> rfl

theorem missingIn_append_singleton (disk : Disk) (dir script : Text) (files : List Text)
    (g : Text) : missingIn disk dir script (files ++ [g]) =
      missingIn disk dir script files ++
        (mentionsOf disk dir g).filterMap (missing? disk dir script) := by
  rw [missingIn, List.flatMap_append, List.flatMap_singleton, mentionsOf_eq,
    List.filterMap_filterMap]
  rfl

theorem missing?_of_some (found : target? disk dir script m = some g) :
    missing? disk dir script m = none := by
  rw [missing?, found]
  exact if_neg (by simp)

theorem missing_warn (s : Scan) (position : Position) (w : Warning) :
    (s.warn position w).missing = s.missing ++ if w.isMissing then [⟨position, w⟩] else [] := by
  rw [Scan.missing, Scan.warn, List.filter_append, List.filter_singleton]
  cases w.isMissing <;> rfl

/-- A file that cannot be read is not missing. -/
theorem openFile_accounts (disk : Disk) (dir : Text) (s : Scan) (file : Text) :
    (Scan.openFile disk dir s file).1.missing = s.missing ∧
      (Scan.openFile disk dir s file).1.opened = s.opened ++ [file] ∧
      (Scan.openFile disk dir s file).1.dependencies = s.dependencies ∧
      (Scan.openFile disk dir s file).2 = mentionsOf disk dir file := by
  unfold Scan.openFile mentionsOf
  cases disk.readText (Pathname.join dir file) with
  | ok content => exact ⟨rfl, rfl, rfl, rfl⟩
  | error e =>
    refine ⟨?_, rfl, rfl, rfl⟩
    exact (missing_warn _ _ _).trans (List.append_nil _)

/-! ### Steps -/

/-- A mention that leads nowhere gives its warning. -/
theorem Accounted.nowhere (h : Accounted disk dir script s (m :: rest))
    (none : target? disk dir script m = none) :
    Accounted disk dir script
      (s.warn m.position (.missing (Path.join m.dir m.reference.name))) rest where
  missing := by
    have before := h.missing
    rw [List.filterMap_cons, missing?, if_pos none] at before
    rw [missing_warn, List.append_assoc]
    exact before
  opened := h.opened

/-- A mention that leads somewhere gives no warning. -/
theorem Accounted.somewhere (h : Accounted disk dir script s (m :: rest))
    (found : target? disk dir script m = some g) : Accounted disk dir script s rest where
  missing := by
    have before := h.missing
    rwa [List.filterMap_cons, missing?_of_some found] at before
  opened := h.opened

theorem Accounted.add (h : Accounted disk dir script s rest) (g : Text) :
    Accounted disk dir script (s.add g) rest where
  missing := h.missing
  opened := h.opened.trans (List.sublist_append_left (_ :: s.dependencies) [g])

/-- The warnings of a file that is opened are all still to come. -/
theorem Accounted.open (h : Accounted disk dir script s rest) (g : Text) :
    Accounted disk dir script (Scan.openFile disk dir (s.add g) g).1
      ((Scan.openFile disk dir (s.add g) g).2 ++ rest) := by
  obtain ⟨missing, opened, dependencies, mentions⟩ := openFile_accounts disk dir (s.add g) g
  constructor
  · rw [missing, opened, mentions, missingIn_append_singleton, List.filterMap_append]
    have later := h.missing.append_right
      ((mentionsOf disk dir g).filterMap (missing? disk dir script))
    rw [List.append_assoc] at later
    exact (List.perm_append_comm.append_left _).trans later
  · rw [opened, dependencies]
    exact h.opened.append (List.Sublist.refl [g])

/-! ### Runs -/

theorem Accounted.explore (h : Accounted disk dir script s pending) :
    Accounted disk dir script
      (Scan.explore disk dir (Path.parent (Path.canonical script)) s pending) [] := by
  fun_induction Scan.explore disk dir (Path.parent (Path.canonical script)) s pending with
  | case1 s => exact h
  | case2 s m rest none ih => exact ih (h.nowhere none)
  | case3 s m rest file found known ih => exact ih (h.somewhere found)
  | case4 s m rest file found fresh kind ih => exact ih ((h.somewhere found).add file)
  | case5 s m rest file found fresh kind opening ih => exact ih ((h.somewhere found).open file)

theorem accounted_scan (disk : Disk) (dir script : Text) :
    Accounted disk dir script (scan disk dir script) [] := by
  apply Accounted.explore
  obtain ⟨missing, opened, dependencies, mentions⟩ :=
    openFile_accounts disk dir (.start (Path.canonical script)) (Path.canonical script)
  constructor
  · rw [missing, opened, mentions]
    have whole := missingIn_append_singleton disk dir script [] (Path.canonical script)
    exact .of_eq whole.symm
  · rw [opened, dependencies]
    exact List.Sublist.refl _

/-- The walk comes to its end, whatever the files mention. -/
theorem reaches_explore (disk : Disk) (dir base : Text) (s : Scan) (pending : List Mention) :
    Reaches (Scan.next disk dir base) (s, pending) (Scan.explore disk dir base s pending, []) := by
  fun_induction Scan.explore disk dir base s pending with
  | case1 s => exact .refl
  | case2 s m rest none ih =>
    refine .head ?_ ih
    simp [Scan.next, none]
  | case3 s m rest file found known ih =>
    refine .head ?_ ih
    simp [Scan.next, found, known]
  | case4 s m rest file found fresh kind ih =>
    refine .head ?_ ih
    simp [Scan.next, found, fresh, kind]
  | case5 s m rest file found fresh kind opening ih =>
    refine .head ?_ ih
    simp [Scan.next, found, fresh, kind, opening]

/-! ### Main result -/

/-- A scan ends after finitely many steps, and then it has found files that exist, none of them
twice or under two letter cases, has read none twice, and has settled every line that it read. -/
theorem scan_sound (disk : Disk) (dir script : Text) :
    (scan disk dir script, []) ∈
        eval (Scan.next disk dir (Path.parent (Path.canonical script)))
          (Scan.openFile disk dir (.start (Path.canonical script)) (Path.canonical script)) ∧
      Sound disk dir script (scan disk dir script) := by
  have progress := progress_scan disk dir script
  have accounted := accounted_scan disk dir script
  refine ⟨StateTransition.mem_eval.2 ⟨reaches_explore .., rfl⟩, ?_⟩
  constructor
  case canonical => exact fun f member => (progress.found f member).isFile.2
  case isFile => exact fun f member => (progress.found f member).isFile.1
  case distinct => exact progress.distinct
  case openedOnce => exact (accounted.opened.map Path.foldCase).nodup progress.distinct
  case settled =>
    intro f opened l line m mention g found
    have member : m ∈ mentionsOf disk dir f := by
      rw [mentionsOf_eq]
      exact List.mem_filterMap.2 ⟨l, line, mention⟩
    rcases progress.closed f opened m member with waiting | done
    · cases waiting
    · exact (progress.visited _).1 (done g found)
  case missing =>
    have all := accounted.missing
    rwa [List.filterMap_nil, List.append_nil] at all

end BuildMatrix.Resource
