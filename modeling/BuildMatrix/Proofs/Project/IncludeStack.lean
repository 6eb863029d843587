import BuildMatrix.Proofs.Disk.Resolving
import BuildMatrix.Proofs.Project.Warnings
import BuildMatrix.Proofs.Steps
import Mathlib.Data.List.Perm.Subperm

/-! The files that are being read, as a stack. A reading is done here step by step, with the tasks
that are left: to read an item or an entry, or to leave an included file. The steps end where the
recursion does. On the way nothing is on the stack twice, and an entry is refused as a cycle exactly
if what it includes is on the stack. The stack holds what tells files apart; it is a stack of files
where their names resolve. Main statement: `exists_traced`. -/

set_option autoImplicit false

namespace BuildMatrix.Project

open StateTransition (Reaches eval)

/-- What a reading made so far. -/
structure Reader where
  project : Project
  log : List Event
  /-- The files being read, the innermost one first. -/
  reading : List Disk.Identity
  refused : Option ReadError

namespace Reader

/-- What a reading has yet to do. -/
inductive Task where
  /-- Read an item of the project file itself. -/
  | item (n : Nat) (item : Item)
  /-- Read an entry, declared in a file whose directory is `base` as seen from the project. -/
  | entry (scope : Scope) (base : Text) (position : Position) (entry : Entry)
  /-- Go on with the file that included this one. -/
  | leave (file : Text)

def note (r : Reader) (events : List Event) : Reader := { r with log := r.log ++ events }

/-- Add what an entry contributes. -/
def take (r : Reader) (scope : Scope) (c : Contribution) : Reader :=
  { r with project := r.project.addPaths scope c.paths, log := r.log ++ c.log }

/-- The tasks that an included file brings. -/
def tasksIn (scope : Scope) (base included source : Text) : List Task :=
  (Item.listed source).map fun (n, e) =>
    .entry scope base (.ofLine included n) (Entry.ofText e)

section

variable (disk : Disk) (file : Text)

/-- The file that an entry includes in the project file `file`. -/
def target (base p : Text) : Text :=
  Pathname.join (Pathname.directory file) (Path.join base p)

/-- Begin with an included file. -/
def push (r : Reader) (included : Text) : Reader :=
  { r with
    log := r.log ++ [.including included]
    reading := disk.identity included :: r.reading }

/-- Begin with the file of an entry, unless it is being read, or cannot be read. -/
def enter (r : Reader) (scope : Scope) (base : Text) (position : Position) (p : Text) :
    Reader × List Task :=
  let path := Path.join base p
  let included := target file base p
  if disk.identity included ∈ r.reading then (r.note (warn position (.includeCycle path)), [])
  else
    match disk.findFile included with
    | .error e => (r.note (warn position (.unreadableInclude path e)), [])
    | .ok (_, content) =>
      (r.push disk included,
        tasksIn scope (Path.parent path) included (Text.ofUtf8 content) ++ [.leave included])

/-- Do the first of the tasks that are left. -/
def next : Reader × List Task → Option (Reader × List Task)
  | (_, []) => none
  | (r, .leave _ :: rest) => some ({ r with reading := r.reading.tail }, rest)
  | (r, .entry scope base position e :: rest) =>
    match e with
    | .nothing => some (r, rest)
    | .path p => some (r.take scope (.ofPaths [Path.join base p]), rest)
    | .pattern p =>
      match expandPattern disk (Pathname.join (Pathname.directory file) base) p with
      | .ok files => some (r.take scope (.ofPaths (files.map (Path.join base))), rest)
      | .error w => some (r.note (warn position w), rest)
    | .include p =>
      let entering := enter disk file r scope base position p
      some (entering.1, entering.2 ++ rest)
  | (r, .item n i :: rest) =>
    match i.tooNew? with
    | some v => some ({ r with refused := some (.versionTooNew file v toolVersion) }, [])
    | none =>
      match i with
      | .entry scope e =>
        some ({ r with project := r.project.declare scope e },
          .entry scope [] (.ofLine file n) (Entry.ofText e) :: rest)
      | _ =>
        let read := readItem disk r.project n i
        some ({ r with project := read.1, log := r.log ++ read.2 }, rest)

def start (source : Text) : Reader × List Task :=
  (⟨bare file, [], [disk.identity file], none⟩,
    (Item.ofText source).map fun (n, i) => .item n i)

/-- The end of a reading, before what it leaves out is derived. -/
def outcome (r : Reader) : Reading :=
  ⟨r.log, match r.refused with
    | some e => .error e
    | none => .ok r.project⟩

/-- The included files that were not left yet, the innermost one first. -/
def opened (tasks : List Task) : List Text :=
  tasks.filterMap fun
    | .leave f => some f
    | _ => none

/-- The names of the files on the stack, the innermost one first. -/
def stack (tasks : List Task) : List Text := opened tasks ++ [file]

/-- The file that is included if the first task is to include one. -/
def included? : List Task → Option Text
  | .entry _ base _ (.include p) :: _ => some (target file base p)
  | _ => none

/-- The warning that is due when the first task is to include a file that is being read. -/
def cycleAt : Reader × List Task → List (Located Warning)
  | (r, .entry _ base position (.include p) :: _) =>
    if disk.identity (target file base p) ∈ r.reading then
      [⟨position, .includeCycle (Path.join base p)⟩]
    else []
  | _ => []

end

def isCycle (w : Located Warning) : Bool :=
  match w.problem with
  | .includeCycle _ => true
  | _ => false

/-- The warnings about cycles in a log. -/
def cycles (log : List Event) : List (Located Warning) :=
  (log.filterMap Event.warning?).filter isCycle

variable {disk : Disk} {file source base p included : Text} {r s t : Reader}
  {pending more rest : List Task} {scope : Scope} {position : Position} {e : Entry}
  {reading : List Disk.Identity}

/-! ### The steps do what the recursion does -/

theorem enter_of_known (known : disk.identity (target file base p) ∈ r.reading) :
    enter disk file r scope base position p =
      (r.note (warn position (.includeCycle (Path.join base p))), []) := if_pos known

theorem enter_of_error {e : IoError} (fresh : disk.identity (target file base p) ∉ r.reading)
    (unreadable : disk.findFile (target file base p) = .error e) :
    enter disk file r scope base position p =
      (r.note (warn position (.unreadableInclude (Path.join base p) e)), []) := by
  rw [enter, if_neg fresh, unreadable]

theorem enter_of_ok {a : Address} {content : Text.Bytes}
    (fresh : disk.identity (target file base p) ∉ r.reading)
    (readable : disk.findFile (target file base p) = .ok (a, content)) :
    enter disk file r scope base position p =
      (r.push disk (target file base p),
        tasksIn scope (Path.parent (Path.join base p)) (target file base p)
          (Text.ofUtf8 content) ++ [.leave (target file base p)]) := by
  rw [enter, if_neg fresh, readable]

theorem next_include (disk : Disk) (file : Text) (r : Reader) (scope : Scope) (base : Text)
    (position : Position) (p : Text) (rest : List Task) :
    next disk file (r, .entry scope base position (.include p) :: rest) =
      some ((enter disk file r scope base position p).1,
        (enter disk file r scope base position p).2 ++ rest) := rfl

theorem take_join_nil (r : Reader) (scope : Scope) : r.take scope (.join []) = r := by
  simp [take, Contribution.join, addPaths]

theorem take_join_cons (r : Reader) (scope : Scope) (c : Contribution) (cs : List Contribution) :
    r.take scope (.join (c :: cs)) = (r.take scope c).take scope (.join cs) := by
  simp [take, Contribution.join, addPaths]

/-- Entries of one file contribute one after the other. -/
theorem reaches_entries (entries : List (Nat × Text)) (rest : List Task)
    (same : r.reading = reading)
    (each : ∀ (n : Nat) (e : Text) {t : Reader} {rest : List Task}, t.reading = reading →
      Reaches (next disk file) (t, .entry scope base (.ofLine included n) (Entry.ofText e) :: rest)
        (t.take scope (contribution disk (Pathname.directory file) reading base
          (.ofLine included n) (Entry.ofText e)), rest)) :
    Reaches (next disk file)
      (r, (entries.map fun (n, e) =>
        .entry scope base (.ofLine included n) (Entry.ofText e)) ++ rest)
      (r.take scope (.join (entries.map fun (n, e) => contribution disk (Pathname.directory file)
        reading base (.ofLine included n) (Entry.ofText e))), rest) := by
  induction entries generalizing r with
  | nil =>
    rw [List.map_nil, List.map_nil, take_join_nil]
    exact .refl
  | cons entry entries ih =>
    rw [List.map_cons, List.map_cons, take_join_cons]
    exact .trans (each entry.1 entry.2 same) (ih same)

/-- An entry is read with all that it includes, and then the stack is as before. -/
theorem reaches_entry (same : r.reading = reading) :
    Reaches (next disk file) (r, .entry scope base position e :: rest)
      (r.take scope (contribution disk (Pathname.directory file) reading base position e),
        rest) := by
  induction reading, base, position, e
      using entry_induction disk (Pathname.directory file) generalizing r rest with
  | nothing reading base position =>
    refine .single ?_
    simp [next, contribution_nothing, take, Contribution.ofPaths, addPaths]
  | path reading base position q => exact .single rfl
  | pattern reading base position q =>
    refine .single ?_
    rw [contribution_pattern]
    cases listed : expandPattern disk (Pathname.join (Pathname.directory file) base) q with
    | ok files => simp [next, listed]
    | error w =>
      simp [next, listed, take, note, Contribution.ofWarning, Contribution.ofEvent, addPaths, warn]
  | «include» reading base position q ih =>
    rw [contribution_include]
    split
    · rename_i known
      rw [← same] at known
      refine .single ?_
      rw [next_include, enter_of_known known]
      rfl
    rename_i fresh
    cases readable : disk.findFile (target file base q) with
    | error e =>
      refine .single ?_
      rw [next_include, enter_of_error (same ▸ fresh) readable]
      rw [target] at readable
      rw [readable]
      rfl
    | ok found =>
      have inside : (r.push disk (target file base q)).reading =
          disk.identity (target file base q) :: reading :=
        congrArg (disk.identity (target file base q) :: ·) same
      refine .head (next_include ..) ?_
      rw [enter_of_ok (same ▸ fresh) readable, List.append_assoc]
      have entries := ih found.1 found.2 fresh readable
      rw [target] at readable
      rw [readable]
      dsimp only
      rw [fileContribution, take_join_cons]
      exact .tail (reaches_entries _ _ inside fun n e => entries n e) rfl

/-- The effect of an item of the project file. -/
def readNext (disk : Disk) (r : Reader) (n : Nat) (i : Item) : Reader :=
  { r with
    project := (readItem disk r.project n i).1
    log := r.log ++ (readItem disk r.project n i).2 }

theorem next_item {n : Nat} {i : Item} (accepted : i.tooNew? = none)
    (other : ∀ scope e, i ≠ .entry scope e) :
    next disk file (r, .item n i :: rest) = some (r.readNext disk n i, rest) := by
  unfold next
  dsimp only
  rw [accepted]
  dsimp only
  split
  · rename_i scope e
    exact absurd rfl (other scope e)
  · rfl

theorem reaches_item {n : Nat} {i : Item} (accepted : i.tooNew? = none)
    (top : r.reading = [disk.identity file]) (named : r.project.file = file) :
    Reaches (next disk file) (r, .item n i :: rest) (r.readNext disk n i, rest) := by
  cases i with
  | entry scope e =>
    have declared : Reaches (next disk file)
        ({ r with project := r.project.declare scope e },
          .entry scope [] (.ofLine file n) (Entry.ofText e) :: rest) _ := reaches_entry top
    rw [readNext, readItem, named]
    exact .head rfl declared
  | _ => exact .single (next_item accepted (by simp))

/-- The project file is read as far as it is accepted, and then it is the only one on the stack. -/
theorem exists_reaches_items (items : List (Nat × Item)) (accepted : r.refused = none)
    (top : r.reading = [disk.identity file]) (named : r.project.file = file) :
    ∃ t : Reader, Reaches (next disk file) (r, items.map fun (n, i) => .item n i) (t, []) ∧
      t.reading = [disk.identity file] ∧ readItems disk r.project r.log items = t.outcome := by
  induction items generalizing r with
  | nil =>
    refine ⟨r, .refl, top, ?_⟩
    rw [readItems, outcome, accepted]
  | cons item items ih =>
    obtain ⟨n, i⟩ := item
    cases asked : i.tooNew? with
    | some v =>
      refine ⟨{ r with refused := some (.versionTooNew file v toolVersion) }, .single ?_, top, ?_⟩
      · simp [next, asked]
      · simp [readItems, asked, outcome, named]
    | none =>
      obtain ⟨t, reaches, last, read⟩ := ih (r := r.readNext disk n i) accepted top (by
        rw [readNext, readItem_fst, step_file, named])
      refine ⟨t, .trans (reaches_item asked top named) reaches, last, ?_⟩
      rw [readItems, asked]
      exact read

theorem exists_reaches_start (disk : Disk) (file source : Text) :
    ∃ t : Reader, Reaches (next disk file) (start disk file source) (t, []) ∧
      t.reading = [disk.identity file] ∧
      readItems disk (bare file) [] (Item.ofText source) = t.outcome :=
  exists_reaches_items (Item.ofText source) rfl rfl rfl

/-! ### What a step can do -/

theorem opened_append (tasks rest : List Task) :
    opened (tasks ++ rest) = opened tasks ++ opened rest := List.filterMap_append ..

theorem opened_tasksIn (scope : Scope) (base included source : Text) :
    opened (tasksIn scope base included source) = [] := by
  simp [opened, tasksIn, List.filterMap_map]

/-- What a step does to the stack of files. -/
inductive Moves (disk : Disk) (x y : Reader × List Task) : Prop where
  | stay (reading : y.1.reading = x.1.reading) (refused : y.1.refused = x.1.refused)
      (opened : opened y.2 = opened x.2)
  | push (f : Text) (opens : disk.isFile f) (fresh : disk.identity f ∉ x.1.reading)
      (reading : y.1.reading = disk.identity f :: x.1.reading)
      (refused : y.1.refused = x.1.refused) (opened : opened y.2 = f :: opened x.2)
  | leave (f : Text) (reading : y.1.reading = x.1.reading.tail)
      (refused : y.1.refused = x.1.refused) (opened : opened x.2 = f :: opened y.2)
  | refuse (reading : y.1.reading = x.1.reading) (refused : y.1.refused ≠ none) (done : y.2 = [])

theorem moves_enter (disk : Disk) (file : Text) (r : Reader) (scope : Scope) (base : Text)
    (position : Position) (p : Text) (rest : List Task) :
    Moves disk (r, .entry scope base position (.include p) :: rest)
      ((enter disk file r scope base position p).1,
        (enter disk file r scope base position p).2 ++ rest) := by
  by_cases known : disk.identity (target file base p) ∈ r.reading
  · rw [enter_of_known known]
    exact .stay rfl rfl rfl
  cases found : disk.findFile (target file base p) with
  | error e =>
    rw [enter_of_error known found]
    exact .stay rfl rfl rfl
  | ok file =>
    rw [enter_of_ok known found]
    refine .push _ (Disk.isFile_of_findFile found) known rfl rfl ?_
    rw [opened_append, opened_append, opened_tasksIn]
    rfl

theorem moves_next {x y : Reader × List Task} (step : y ∈ next disk file x) : Moves disk x y := by
  obtain ⟨r, pending⟩ := x
  cases pending with
  | nil => cases step
  | cons task rest =>
    cases task with
    | leave f =>
      cases step
      exact .leave f rfl rfl rfl
    | entry scope base position e =>
      cases e with
      | nothing | path =>
        cases step
        exact .stay rfl rfl rfl
      | pattern p =>
        unfold next at step
        dsimp only at step
        split at step <;> cases step <;> exact .stay rfl rfl rfl
      | «include» p =>
        cases step
        exact moves_enter ..
    | item n i =>
      unfold next at step
      dsimp only at step
      split at step
      · cases step
        exact .refuse rfl (Option.some_ne_none _) rfl
      · split at step <;> cases step <;> exact .stay rfl rfl rfl

/-- What is known of the stack in the middle of a reading. -/
structure Stacked (disk : Disk) (file : Text) (x : Reader × List Task) : Prop where
  distinct : x.1.reading.Nodup
  opened : x.1.refused = none → x.1.reading = (stack file x.2).map disk.identity
  refused : x.1.refused ≠ none → x.2 = []
  files : ∀ f ∈ Reader.opened x.2, disk.isFile f

theorem Stacked.next {x y : Reader × List Task} (h : Stacked disk file x)
    (step : y ∈ next disk file x) : Stacked disk file y := by
  -- a reading that was refused has no step left
  have accepted : x.1.refused = none := by
    by_contra refused
    obtain ⟨r, pending⟩ := x
    obtain rfl : pending = [] := h.refused refused
    cases step
  cases moves_next step with
  | stay reading refused same =>
    refine ⟨reading ▸ h.distinct, fun _ => ?_, fun other => absurd (refused ▸ accepted) other,
      same ▸ h.files⟩
    rw [reading, stack, same]
    exact h.opened accepted
  | push f opens fresh reading refused pushed =>
    refine ⟨?_, fun _ => ?_, fun other => absurd (refused ▸ accepted) other, ?_⟩
    · rw [reading]
      exact h.distinct.cons fresh
    · rw [reading, stack, pushed, h.opened accepted]
      rfl
    · rw [pushed]
      exact List.forall_mem_cons.2 ⟨opens, h.files⟩
  | leave f reading refused left =>
    refine ⟨?_, fun _ => ?_, fun other => absurd (refused ▸ accepted) other, fun g member => ?_⟩
    · rw [reading]
      exact h.distinct.tail
    · rw [reading, h.opened accepted, stack, left]
      rfl
    · exact h.files g (left ▸ List.mem_cons_of_mem _ member)
  | refuse reading refused done =>
    refine ⟨reading ▸ h.distinct, fun other => absurd other refused, fun _ => done, ?_⟩
    rw [done]
    exact fun f member => nomatch member

theorem stacked_start (disk : Disk) (file source : Text) :
    Stacked disk file (start disk file source) := by
  have none : Reader.opened (start disk file source).2 = [] := by
    simp [start, Reader.opened, List.filterMap_map]
  refine ⟨List.nodup_singleton _, fun _ => ?_, fun refused => absurd rfl refused, ?_⟩
  · rw [stack, none]
    rfl
  · rw [none]
    exact fun f member => nomatch member

/-! ### The stack as one of files -/

/-- The names of all files that matter in a state resolve: of those on the stack, and of the file
that is to be included. -/
def Resolving (disk : Disk) (file : Text) (x : Reader × List Task) : Prop :=
  (∀ f ∈ stack file x.2, disk.Resolves f) ∧ ∀ f ∈ included? file x.2, disk.Resolves f

/-- What the stack of a state says about files. -/
structure Faithful (disk : Disk) (file : Text) (x : Reader × List Task) : Prop where
  distinct : ((stack file x.2).map disk.destination).Nodup
  /-- No more files are nested than there are. -/
  depth : (stack file x.2).length ≤ disk.files.length
  /-- An entry is refused as a cycle exactly if the file that it includes is on the stack. -/
  cycle : ∀ f ∈ included? file x.2, cycleAt disk file x ≠ [] ↔
    ∃ a n, disk.findAny f = .ok (a, n) ∧ a ∈ (stack file x.2).map disk.destination

theorem exists_of_mem_included? {f : Text} {tasks : List Task} (member : f ∈ included? file tasks) :
    ∃ scope base position p rest,
      tasks = .entry scope base position (.include p) :: rest ∧ target file base p = f := by
  unfold included? at member
  split at member <;> cases member
  exact ⟨_, _, _, _, _, rfl, rfl⟩

theorem exists_findAny_of_isFile {f : Text} (opens : disk.isFile f) :
    disk.destination f ∈ disk.files ∧ ∃ n, disk.findAny f = .ok (disk.destination f, n) := by
  obtain ⟨a, found⟩ := Option.isSome_iff_exists.1 opens
  obtain ⟨content, found⟩ := Disk.file?_eq_some.1 found
  obtain ⟨reaches, rfl, t, there⟩ := Disk.findFile_eq_ok_iff.1 found
  have name := reaches.pathname
  exact ⟨Disk.mem_files_of_findFile found, _, Disk.findAny_eq_ok_iff.2
    ⟨⟨name.noNul, name.filled⟩, reaches.passable, rfl, there⟩⟩

section

variable {x : Reader × List Task} (h : Stacked disk file x) (there : disk.isFile file)
include h there

theorem Stacked.isFile_of_mem_stack {f : Text} (onStack : f ∈ stack file x.2) :
    disk.isFile f := by
  rcases List.mem_append.1 onStack with inner | root
  · exact h.files f inner
  · rw [List.mem_singleton.1 root]
    exact there

theorem Stacked.identity_of_mem_stack (resolving : Resolving disk file x) {f : Text}
    (onStack : f ∈ stack file x.2) : disk.identity f = .at (disk.destination f) := by
  obtain ⟨-, n, found⟩ := exists_findAny_of_isFile (h.isFile_of_mem_stack there onStack)
  exact (resolving.1 f onStack).identity found

theorem Stacked.nodup_destination (resolving : Resolving disk file x) :
    ((stack file x.2).map disk.destination).Nodup := by
  by_cases accepted : x.1.refused = none
  · have identities := h.distinct
    rw [h.opened accepted,
      List.map_congr_left fun f => h.identity_of_mem_stack there resolving] at identities
    exact .of_map Disk.Identity.at (by rwa [List.map_map])
  · rw [h.refused accepted]
    exact List.nodup_singleton _

/-- Where names resolve, what is known to be read is a file on the stack. -/
theorem Stacked.identity_mem_iff (resolving : Resolving disk file x) {f : Text}
    (member : f ∈ included? file x.2) :
    disk.identity f ∈ (stack file x.2).map disk.identity ↔
      ∃ a n, disk.findAny f = .ok (a, n) ∧ a ∈ (stack file x.2).map disk.destination := by
  constructor
  · intro known
    obtain ⟨g, onStack, same⟩ := List.mem_map.1 known
    obtain ⟨-, n, found⟩ := exists_findAny_of_isFile (h.isFile_of_mem_stack there onStack)
    have led := (Disk.identity_eq_iff (resolving.1 g onStack) (resolving.2 f member) found).1
      same.symm
    exact ⟨_, n, led, List.mem_map_of_mem onStack⟩
  · rintro ⟨a, n, found, listed⟩
    obtain ⟨g, onStack, rfl⟩ := List.mem_map.1 listed
    have same := h.identity_of_mem_stack there resolving onStack
    exact List.mem_map.2 ⟨g, onStack, same.trans ((resolving.2 f member).identity found).symm⟩

theorem Stacked.faithful_of_resolving (resolving : Resolving disk file x) :
    Faithful disk file x := by
  have distinct := h.nodup_destination there resolving
  refine ⟨distinct, ?_, fun f member => ?_⟩
  · have listed : (stack file x.2).map disk.destination ⊆ disk.files := fun a member => by
      obtain ⟨f, onStack, rfl⟩ := List.mem_map.1 member
      exact (exists_findAny_of_isFile (h.isFile_of_mem_stack there onStack)).1
    exact (List.length_map _).symm.trans_le (distinct.subperm listed).length_le
  · rw [← h.identity_mem_iff there resolving member]
    obtain ⟨r, pending⟩ := x
    obtain ⟨scope, base, position, p, rest, rfl, rfl⟩ := exists_of_mem_included? member
    -- an entry is left, so the reading goes on, and the stack is what is being read
    have accepted : r.refused = none := by
      by_contra refused
      exact List.cons_ne_nil _ _ (h.refused refused)
    rw [cycleAt, ← h.opened accepted]
    exact ⟨fun warned => by_contra fun fresh => warned (if_neg fresh),
      fun known => by rw [if_pos known]; exact List.cons_ne_nil _ _⟩

end

/-! ### Warnings about cycles -/

theorem cycles_append (one other : List Event) :
    cycles (one ++ other) = cycles one ++ cycles other := by
  rw [cycles, List.filterMap_append, List.filter_append, ← cycles, ← cycles]

theorem cycles_warn (position : Position) (w : Warning) :
    cycles (warn position w) = [⟨position, w⟩].filter isCycle := rfl

/-- An item of another kind than an entry gives no such warning. -/
theorem cycles_readItem (disk : Disk) (q : Project) (n : Nat) {i : Item}
    (other : ∀ scope e, i ≠ .entry scope e) : cycles (readItem disk q n i).2 = [] := by
  have option (position : Position) (line : Text) : cycles (readOption q position line).2 = [] := by
    unfold readOption
    repeat' split
    all_goals rfl
  cases i with
  | entry scope e => exact absurd rfl (other scope e)
  | option line => exact option ..
  | commentedOption line =>
    have revived := option (.ofLine q.file n) line
    rw [readItem, readCommentedOption]
    repeat' split
    · rfl
    · rename_i read
      rw [read] at revived
      exact revived
    · rfl
  | pair kind line =>
    rw [readItem, readPair]
    split <;> rfl
  | _ => rfl

theorem isCycle_of_expandPattern {dir pattern : Text} {w : Warning}
    (failed : expandPattern disk dir pattern = .error w) (position : Position) :
    isCycle ⟨position, w⟩ = false := by
  obtain ⟨e, rfl⟩ | ⟨e, rfl⟩ := expandPattern_eq_error failed <;> rfl

theorem cycles_enter (disk : Disk) (file : Text) (r : Reader) (scope : Scope) (base : Text)
    (position : Position) (p : Text) (rest : List Task) :
    cycles (enter disk file r scope base position p).1.log =
      cycles r.log ++ cycleAt disk file (r, .entry scope base position (.include p) :: rest) := by
  rw [cycleAt]
  by_cases known : disk.identity (target file base p) ∈ r.reading
  · rw [enter_of_known known, if_pos known, note, cycles_append]
    rfl
  rw [if_neg known]
  cases found : disk.findFile (target file base p) with
  | error e =>
    rw [enter_of_error known found, note, cycles_append]
    rfl
  | ok file =>
    rw [enter_of_ok known found, push, cycles_append]
    rfl

/-- A step warns about a cycle exactly if it is to include a file that is on the stack. -/
theorem cycles_next {x y : Reader × List Task} (step : y ∈ next disk file x) :
    cycles y.1.log = cycles x.1.log ++ cycleAt disk file x := by
  obtain ⟨r, pending⟩ := x
  cases pending with
  | nil => cases step
  | cons task rest =>
    cases task with
    | leave f =>
      cases step
      exact (List.append_nil _).symm
    | entry scope base position e =>
      cases e with
      | nothing =>
        cases step
        exact (List.append_nil _).symm
      | path q =>
        cases step
        exact cycles_append ..
      | pattern q =>
        unfold next at step
        dsimp only at step
        split at step <;> cases step
        · exact cycles_append ..
        · rename_i failed
          rw [note, cycles_append, cycles_warn, List.filter_cons_of_neg]
          · rfl
          · simp [isCycle_of_expandPattern failed]
      | «include» q =>
        cases step
        exact cycles_enter ..
    | item n i =>
      unfold next at step
      dsimp only at step
      split at step
      · cases step
        exact (List.append_nil _).symm
      · split at step <;> cases step
        · exact (List.append_nil _).symm
        · rename_i other
          rw [cycles_append, cycles_readItem disk r.project n other]
          rfl

theorem cycles_readText (disk : Disk) (file source : Text) :
    (readText disk file source).warnings.filter isCycle =
      cycles (readItems disk (bare file) [] (Item.ofText source)).log := by
  have derived (q : Project) : cycles (derive disk q).2 = [] := by
    rw [cycles, warnings_derive]
    rfl
  rw [readText]
  dsimp only
  split
  · rfl
  · exact (cycles_append ..).trans (by rw [derived, List.append_nil])

/-! ### Whole readings -/

theorem cycles_of_isChain {x : Reader × List Task} {trace : List (Reader × List Task)}
    (steps : (x :: trace).IsChain fun x y => y ∈ next disk file x)
    (last : (x :: trace).getLast? = some (t, [])) :
    cycles t.log = cycles x.1.log ++ (x :: trace).flatMap (cycleAt disk file) := by
  induction trace generalizing x with
  | nil =>
    cases last
    exact (List.append_nil _).symm
  | cons y trace ih =>
    obtain ⟨step, steps⟩ := List.isChain_cons_cons.1 steps
    rw [ih steps last, cycles_next step, List.append_assoc]
    rfl

/-- A reading ends as as many steps do that leave nothing to do. -/
theorem readItems_eq_advance {disk : Disk} {file source : Text} (n : Nat)
    (done : ((Steps.advance (next disk file))^[n] (start disk file source)).2 = []) :
    readItems disk (bare file) [] (Item.ofText source) =
      ((Steps.advance (next disk file))^[n] (start disk file source)).1.outcome := by
  obtain ⟨t, reaches, -, read⟩ := exists_reaches_start disk file source
  have ended (x : Reader × List Task) (none : x.2 = []) : next disk file x = .none := by
    rw [← Prod.eta x, none]
    rfl
  rw [read, ← Steps.eq_advance reaches rfl n (ended _ done)]

/-- If the next item of the project file is an entry, begin with the entry. -/
def beginItem (file : Text) : List Task → List Task
  | .item n (.entry scope e) :: rest =>
    .entry scope [] (.ofLine file n) (Entry.ofText e) :: rest
  | tasks => tasks

/-- When an entry and all that it includes was read, the stack is as before. -/
theorem exists_reaches_entry (disk : Disk) (file : Text) (r : Reader) (scope : Scope)
    (base : Text) (position : Position) (e : Entry) (rest : List Task) :
    ∃ t : Reader, t.reading = r.reading ∧
      Reaches (next disk file) (r, .entry scope base position e :: rest) (t, rest) :=
  ⟨r.take scope (contribution disk (Pathname.directory file) r.reading base position e), rfl,
    reaches_entry rfl⟩

theorem exists_reaches_beginItem (disk : Disk) (file : Text) (r : Reader) (rest : List Task) :
    ∃ t : Reader, t.reading = r.reading ∧
      Reaches (next disk file) (r, rest) (t, beginItem file rest) := by
  unfold beginItem
  split
  · rename_i scope e rest
    exact ⟨{ r with project := r.project.declare scope e }, rfl, .single rfl⟩
  · exact ⟨r, rfl, .refl⟩

theorem cycleAt_of_fresh (fresh : disk.identity (target file base p) ∉ r.reading) :
    cycleAt disk file (r, .entry scope base position (.include p) :: rest) = [] := if_neg fresh

/-- A reading, step by step, from its beginning to its end. -/
structure Traced (disk : Disk) (file source : Text) (trace : List (Reader × List Task)) : Prop where
  first : trace.head? = some (start disk file source)
  steps : trace.IsChain fun x y => y ∈ next disk file x
  /-- The steps end as the reading does, when the project file is the only one on the stack. -/
  last : ∃ r, trace.getLast? = some (r, []) ∧ r.reading = [disk.identity file] ∧
    readItems disk (bare file) [] (Item.ofText source) = r.outcome
  distinct : ∀ x ∈ trace, x.1.reading.Nodup
  /-- The stack has the project file and the included files that were not left yet. -/
  opened : ∀ x ∈ trace, x.1.refused = none → x.1.reading = (stack file x.2).map disk.identity
  /-- So it says what it should about files, wherever their names resolve. -/
  inFiles : ∀ x ∈ trace, Resolving disk file x → Faithful disk file x
  /-- A cycle is warned of at each entry that includes a file on the stack, and nowhere else. -/
  cycles : (readText disk file source).warnings.filter isCycle =
    trace.flatMap (cycleAt disk file)
  /-- When a file was included that is not on the stack, it can be included right after it again
  without a warning. -/
  again : ∀ r scope base position p rest,
    (r, .entry scope base position (.include p) :: rest) ∈ trace →
    disk.identity (target file base p) ∉ r.reading →
    ∀ scope' base' position' p' more,
      beginItem file rest = .entry scope' base' position' (.include p') :: more →
      disk.identity (target file base' p') = disk.identity (target file base p) →
      ∃ t, (t, beginItem file rest) ∈ trace ∧ t.reading = r.reading ∧
        cycleAt disk file (r, .entry scope base position (.include p) :: rest) = [] ∧
        cycleAt disk file (t, beginItem file rest) = []

/-- Reading a project file that exists comes to its end for every text, whatever the included files
include in turn. -/
theorem exists_traced (disk : Disk) (file source : Text) (there : disk.isFile file = true) :
    ∃ trace, Traced disk file source trace := by
  obtain ⟨r, reaches, top, read⟩ := exists_reaches_start disk file source
  obtain ⟨rest, steps, ends⟩ := List.exists_isChain_cons_of_relationReflTransGen reaches
  have last : (start disk file source :: rest).getLast? = some (r, []) := by
    rw [← ends]
    exact List.getLast?_eq_some_getLast _
  have stacked : ∀ x ∈ start disk file source :: rest, Stacked disk file x :=
    steps.induction _ _ (fun _ _ step h => h.next step) fun _ => stacked_start disk file source
  refine ⟨start disk file source :: rest, rfl, steps, ⟨r, last, top, read⟩,
    fun x member => (stacked x member).distinct, fun x member => (stacked x member).opened,
    fun x member => (stacked x member).faithful_of_resolving there, ?_, ?_⟩
  · rw [cycles_readText, read]
    exact cycles_of_isChain steps last
  · intro s scope base position p pending member fresh scope' base' position' p' more follows same
    obtain ⟨before, kept, included⟩ :=
      exists_reaches_entry disk file s scope base position (.include p) pending
    obtain ⟨t, still, begun⟩ := exists_reaches_beginItem disk file before pending
    have stack : t.reading = s.reading := still.trans kept
    refine ⟨t, Steps.mem_of_reaches steps last rfl member (included.trans begun), stack,
      cycleAt_of_fresh fresh, ?_⟩
    rw [follows]
    exact cycleAt_of_fresh (by rwa [same, stack])

/-- An application that includes a file twice. This file includes a file by two ways, and a file
that includes the first one again; the last one includes the application. -/
def ringDisk : Disk where
  top := [
    ("app", .directory [
      (".srcfiles.yaml", .file (Text.toUtf8
        "Files:\n  .include ../lib/a.yaml\n  .include ../lib/a.yaml\n  main.cpp\n") ⟨0⟩)]),
    ("lib", .directory [
      ("a.yaml", .file (Text.toUtf8 "Files:\n  .include b.yaml\n  .include c.yaml\n") ⟨0⟩),
      ("b.yaml", .file (Text.toUtf8 "Files:\n  .include a.yaml\n  .include c.yaml\n") ⟨0⟩),
      ("c.yaml", .file (Text.toUtf8
        "Files:\n  c.cpp\n  .include ../app/.srcfiles.yaml\n") ⟨0⟩)])]
  current := []
  now := ⟨0⟩

def ringSource : Text :=
  "Files:\n  .include ../lib/a.yaml\n  .include ../lib/a.yaml\n  main.cpp\n"

/-- The positions of entries that would go on in a circle. -/
def ringCycles : List Position := [
  .ofLine "app/../lib/b.yaml" 2,
  .ofLine "app/../lib/c.yaml" 3,
  .ofLine "app/../lib/c.yaml" 3]

theorem exists_traced_ring :
    ringDisk.isFile "app/.srcfiles.yaml" = true ∧
      ∃ trace, Traced ringDisk "app/.srcfiles.yaml" ringSource trace ∧
        (∀ x ∈ trace, Faithful ringDisk "app/.srcfiles.yaml" x) ∧
        (trace.flatMap (cycleAt ringDisk "app/.srcfiles.yaml")).map Located.position =
          ringCycles ++ ringCycles := by
  have there : ringDisk.isFile "app/.srcfiles.yaml" = true := by decide +kernel
  have shallow : ringDisk.Shallow := by decide +kernel
  obtain ⟨trace, traced⟩ := exists_traced ringDisk "app/.srcfiles.yaml" ringSource there
  refine ⟨there, trace, traced, fun x member => traced.inFiles x member
    ⟨fun f _ => shallow.resolves f, fun f _ => shallow.resolves f⟩, ?_⟩
  rw [← traced.cycles, readText, readItems_eq_advance 31 (by decide +kernel)]
  decide +kernel

def selfSource : Text := "Files:\n  .include ../a/.srcfiles.yaml\n"

/-- A project file far below the root that includes itself. -/
def selfDisk : Disk := .deepDisk projectFileName selfSource

/-- Its name, by a way that does not resolve. -/
def selfFile : Text := Pathname.join Disk.deepDetour projectFileName

/-- Its entry is not refused as a cycle. The file is read again, by the name that it is included
by, and only there the entry is refused. -/
theorem readText_cycles_selfFile :
    let included := target selfFile [] "../a/.srcfiles.yaml"
    selfDisk.isFile selfFile = true ∧
      selfDisk.file? included = selfDisk.file? selfFile ∧
      ((readText selfDisk selfFile selfSource).warnings.filter isCycle).map Located.position =
        [.ofLine included 2] := by
  refine ⟨by decide +kernel, by decide +kernel, ?_⟩
  rw [readText, readItems_eq_advance 6 (by decide +kernel)]
  decide +kernel

end Reader

end BuildMatrix.Project
