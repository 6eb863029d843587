import BuildMatrix.Proofs.Project.Reviving

/-! The name of a project that was read. It is the last name that the text gives, or else it comes
from the directories around the project file. Those do not always have one: above a relative
directory that is not there nothing is known, the root has no name, and the name of a directory can
consist of blanks. Then the project has no name. -/

set_option autoImplicit false

namespace BuildMatrix.Project

open Text

variable {disk : Disk} {p m : Project} {file source name : Text} {names : List Text}

/-- The names of the directories around a project, innermost first: all up to the root if its
directory is there, and otherwise the last two that the name itself shows. -/
def namesAround (disk : Disk) (dir : Text) : List Text :=
  match disk.identity dir with
  | .at a => a.reverse
  | .named _ =>
    match Pathname.last? dir with
    | none => []
    | some name => name :: ((Pathname.parent? dir).bind Pathname.last?).toList

def IsSourceDirectory (name : Text) : Prop :=
  sameLetters name "src" = true ∨ sameLetters name "source" = true

/-- Directories that give no name to a project. -/
inductive Nameless : List Text → Prop where
  | nowhere : Nameless []
  | blank {name : Text} {around : List Text} : Blanks name → Nameless (name :: around)
  | sources {name : Text} {around : List Text} : IsSourceDirectory name →
      (∀ outer ∈ around.head?, Blanks outer) → Nameless (name :: around)

/-! ### Names of directories -/

theorem Blanks.not_isSourceDirectory (blank : Blanks name) : ¬ IsSourceDirectory name := by
  -- letters in lower case are what blanks would have to be
  have kept : lowerAscii name = name := by
    rw [lowerAscii]
    exact (List.map_congr_left fun c member => toLower_of_isBlank (blank c member)).trans
      (List.map_id name)
  rintro (same | same)
  all_goals
    rw [sameLetters, kept, beq_iff_eq] at same
    have first := blank 's' (by rw [same]; decide)
    revert first
    decide

theorem nameFor?_eq (disk : Disk) (dir : Text) :
    nameFor? disk dir = nameOfDirectories (namesAround disk dir) := by
  rw [nameFor?, namesAround]
  cases disk.identity dir with
  | «at» a => rfl
  | named parts => cases Pathname.last? dir <;> rfl

theorem nameless_iff :
    Nameless names ↔ ∀ name ∈ nameOfDirectories names, Blanks name := by
  cases names with
  | nil => exact iff_of_true .nowhere nofun
  | cons name around =>
    by_cases sources : IsSourceDirectory name
    · have outer : nameOfDirectories (name :: around) = around.head? := if_pos sources
      rw [outer]
      refine ⟨?_, .sources sources⟩
      rintro (_ | blank | ⟨-, blank⟩)
      · exact absurd sources (Blanks.not_isSourceDirectory blank)
      · exact blank
    · have own : nameOfDirectories (name :: around) = some name := if_neg sources
      rw [own]
      refine ⟨?_, fun blank => .blank (blank name rfl)⟩
      rintro (_ | blank | ⟨here, -⟩) _ ⟨⟩
      · exact blank
      · exact absurd here sources

/-! ### Names of projects -/

theorem name_eq_nil_iff : p.name = [] ↔ ∀ s ∈ p.settings .project, s.value = [] := by
  rw [name, valueD, value?]
  cases p.settings .project with
  | none => simp [OptionKey.default]
  | some s => simp

theorem name_deriveName_iff (disk : Disk) (p : Project) :
    (deriveName disk p).1.name = [] ↔ p.name = [] ∧ Nameless (namesAround disk p.dir) := by
  rw [nameless_iff, ← nameFor?_eq]
  by_cases named : p.hasValue .project = true
  · have given : p.name ≠ [] := by
      obtain ⟨s, set, filled⟩ := hasValue_project_iff.1 named
      exact fun none => filled (name_eq_nil_iff.1 none s set)
    rw [deriveName_of_hasValue named]
    exact iff_of_false given fun h => given h.1
  · have missing : p.name = [] := by
      rw [name_eq_nil_iff]
      intro s set
      by_contra filled
      exact named (hasValue_project_iff.2 ⟨s, set, filled⟩)
    rw [deriveName, if_neg named, and_iff_right missing]
    cases nameFor? disk p.dir with
    | none => exact iff_of_true missing fun _ given => by cases given
    | some name =>
      have stored : (p.set .project name).name = trim name := by
        simp [Project.name, valueD, value?, Project.set, withSetting, storedValue, OptionKey.isFlag]
      simp [stored, trim_eq_nil_iff]

/-- A project that was read has no name exactly if the last name in its text is empty, or there is
none, and the directories around it give none. -/
theorem name_readText_eq_nil_iff (accepted : (readText disk file source).result = .ok m) :
    m.name = [] ↔ (∀ s ∈ (occurrences .project source).getLast?, s.value = []) ∧
      Nameless (namesAround disk (Pathname.directory file)) := by
  obtain ⟨-, rfl⟩ := readText_eq_ok_iff.1 accepted
  have dir : (run disk (bare file) (Item.inText source)).dir = Pathname.directory file :=
    congrArg Prod.snd (run_place disk (bare file) (Item.inText source))
  have read := name_deriveName_iff disk (run disk (bare file) (Item.inText source))
  rw [name_eq_nil_iff, ← settings_derive] at read
  rw [name_eq_nil_iff, read, name_eq_nil_iff, run_settings_bare, dir]

/-- A directory for sources that is not there, and a name that a later line takes back. -/
theorem name_readText_eq_nil_iff_unplaced :
    ∃ m, (readText bareDisk "src/p.yaml" "Options:\n  Project: app\n  Project: \" \"\n").result =
      .ok m ∧ m.name = [] := by
  have accepted : (readText bareDisk "src/p.yaml"
      "Options:\n  Project: app\n  Project: \" \"\n").result = .ok _ :=
    readText_eq_ok_iff.2 ⟨by decide +kernel, rfl⟩
  have around : namesAround bareDisk (Pathname.directory "src/p.yaml") = ["src"] := by
    decide +kernel
  refine ⟨_, accepted, (name_readText_eq_nil_iff accepted).2 ⟨by decide +kernel, ?_⟩⟩
  rw [around]
  exact .sources (.inl (by decide)) nofun

/-- A project in a directory whose name is a blank. -/
def blankDisk : Disk where
  top := [(" ", .directory [(".srcfiles.yaml", .file [] ⟨0⟩)])]
  current := []
  now := ⟨0⟩

/-- Projects without a name, below a directory that is there and below one that is not. -/
theorem read_unnamed :
    (∃ m, (read blankDisk " /.srcfiles.yaml").result = .ok m ∧ m.name = []) ∧
      ∃ m, (readText bareDisk "src/.srcfiles.yaml" []).result = .ok m ∧ m.name = [] := by
  have found : blankDisk.readText " /.srcfiles.yaml" = .ok [] := by decide +kernel
  have accepted : (readText blankDisk " /.srcfiles.yaml" []).result = .ok _ :=
    readText_eq_ok_iff.2 ⟨by decide +kernel, rfl⟩
  have relative : (readText bareDisk "src/.srcfiles.yaml" []).result = .ok _ :=
    readText_eq_ok_iff.2 ⟨by decide +kernel, rfl⟩
  have through : read blankDisk " /.srcfiles.yaml" = readText blankDisk " /.srcfiles.yaml" [] := by
    rw [read, found]
  rw [through]
  exact ⟨⟨_, accepted, by decide +kernel⟩, _, relative, by decide +kernel⟩

end BuildMatrix.Project
