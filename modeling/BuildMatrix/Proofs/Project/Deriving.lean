import BuildMatrix.Proofs.Project.Reading

/-! What a project has once it was read. Its directory gives the name and the files that its file
leaves out, and nothing else; so the lists of the project that comes out are settled by the entries
of its file, or, where it lists no files for every build, by the sources in its directory. -/

set_option autoImplicit false

namespace BuildMatrix.Project

variable {disk : Disk} {p m : Project} {added debug : List Text} {file source f : Text}

/-- The entries of a scope, in the order in which a text lists them. -/
def entriesIn (scope : Scope) (source : Text) : List Text :=
  (Item.inText source).filterMap (Item.entryIn? scope)

/-! ### What is derived -/

/-- The sources that stand in for the files of a project without any. -/
def standIns (disk : Disk) (p : Project) : List Text :=
  if p.declared .everyBuild = [] ∧ p.files = [] then sourcesAround disk p.dir else []

theorem deriveFiles_fst (disk : Disk) (p : Project) :
    (deriveFiles disk p).1 = p.addPaths .everyBuild (standIns disk p) := by
  unfold deriveFiles standIns
  split <;> rfl

/-- A name is derived or it is not, and nothing else changes. -/
theorem deriveName_cases (disk : Disk) (p : Project) :
    (deriveName disk p).1 = p ∨ ∃ name, (deriveName disk p).1 = p.set .project name := by
  unfold deriveName
  split
  · exact .inl rfl
  · split
    · exact .inl rfl
    · exact .inr ⟨_, rfl⟩

theorem derive_fst (disk : Disk) (p : Project) :
    (derive disk p).1 = (deriveName disk p).1.addPaths .everyBuild (standIns disk p) := by
  have listed : (derive disk p).1 = (deriveFiles disk (deriveName disk p).1).1 := rfl
  rw [listed, deriveFiles_fst]
  -- the name has no part in which files stand in
  obtain same | ⟨name, same⟩ := deriveName_cases disk p
  · rw [same]
  · rw [same]
    rfl

/-- All but the settings and the lists stays as it is. -/
theorem derive_frame (disk : Disk) (p : Project) :
    { (derive disk p).1.withoutFiles with settings := p.settings } = p.withoutFiles := by
  rw [derive_fst, withoutFiles_addPaths]
  obtain same | ⟨name, same⟩ := deriveName_cases disk p
  · rw [same]
    rfl
  · rw [same]
    rfl

theorem settings_derive (disk : Disk) (p : Project) :
    (derive disk p).1.settings = (deriveName disk p).1.settings := by
  have same := congrArg Project.settings
    (withoutFiles_addPaths (deriveName disk p).1 .everyBuild (standIns disk p))
  rw [derive_fst]
  exact same

theorem settings_deriveName_of_ne {k : OptionKey} (other : k ≠ .project) :
    (deriveName disk p).1.settings k = p.settings k := by
  obtain same | ⟨name, same⟩ := deriveName_cases disk p
  · rw [same]
  · rw [same]
    exact if_neg other

/-- The name has no default. -/
theorem hasValue_project_iff :
    p.hasValue .project = true ↔ ∃ s ∈ p.settings .project, s.value ≠ [] := by
  rw [hasValue, filled?, value?]
  cases p.settings .project with
  | none => simp [OptionKey.default]
  | some s => simp

theorem deriveName_of_hasValue (named : p.hasValue .project = true) :
    deriveName disk p = (p, []) := if_pos named

/-- Only the value of the name is new, and its comment is kept. -/
theorem settings_derive_cases {k : OptionKey} {s : Setting}
    (here : s ∈ (derive disk p).1.settings k) :
    s ∈ p.settings k ∨ k = .project ∧ s.comment = p.comment? .project := by
  rw [settings_derive] at here
  obtain same | ⟨name, same⟩ := deriveName_cases disk p
  · rw [same] at here
    exact .inl here
  · rw [same, set, withSetting] at here
    dsimp only at here
    split at here
    · rename_i project
      cases here
      exact .inr ⟨project, rfl⟩
    · exact .inl here

theorem Consists.derive (h : Consists p added debug) (disk : Disk) :
    Consists (derive disk p).1 (added ++ (standIns disk p).map Path.canonical) debug := by
  have named : Consists (deriveName disk p).1 added debug := by
    obtain same | ⟨name, same⟩ := deriveName_cases disk p
    · rwa [same]
    · rw [same]
      exact h.of_files ⟨rfl, rfl, rfl, rfl, rfl⟩
  rw [derive_fst]
  exact named.addFiles _

theorem Consists.mem_files (h : Consists p added debug) : f ∈ p.files ↔ f ∈ added := by
  rw [h.files, mem_distinct]

theorem Consists.mem_debugFiles (h : Consists p added debug) :
    f ∈ p.debugFiles ↔ f ∈ debug ∧ f ∉ added := by
  simp [h.debugFiles, mem_distinct]

/-! ### What was read -/

/-- The files that reading a text adds for every build: those listed, or else those in the directory
of the project file. -/
def everyFile (disk : Disk) (file source : Text) : List Text :=
  if entriesIn .everyBuild source = [] then
    (sourcesAround disk (Pathname.directory file)).map Path.canonical
  else listedFiles disk file (entriesIn .everyBuild source)

theorem consists_readText (accepted : (readText disk file source).result = .ok m) :
    Consists m (everyFile disk file source)
      (listedFiles disk file (entriesIn .debugOnly source)) := by
  obtain ⟨-, rfl⟩ := readText_eq_ok_iff.1 accepted
  have read := consists_run disk file (Item.inText source)
  have declared := run_declared disk (bare file) (Item.inText source) .everyBuild
  have dir : (run disk (bare file) (Item.inText source)).dir = Pathname.directory file :=
    congrArg Prod.snd (run_place disk (bare file) (Item.inText source))
  have derived := read.derive disk
  by_cases none : entriesIn .everyBuild source = []
  · -- without entries there are no files yet, and the sources of the directory stand in
    have empty : (Item.inText source).filterMap (Item.entryIn? .everyBuild) = [] := none
    have unlisted : (run disk (bare file) (Item.inText source)).declared .everyBuild = [] := by
      rw [declared, empty]
      rfl
    have missing : (run disk (bare file) (Item.inText source)).files = [] := by
      rw [read.files, empty]
      rfl
    rw [standIns, if_pos ⟨unlisted, missing⟩, dir, empty] at derived
    rw [everyFile, if_pos none]
    exact derived
  · have listed : (run disk (bare file) (Item.inText source)).declared .everyBuild ≠ [] := by
      rw [declared]
      exact none
    rw [standIns, if_neg fun h => listed h.1, List.map_nil, List.append_nil] at derived
    rw [everyFile, if_neg none]
    exact derived

/-- Where entries are listed that stand for nothing, nothing stands in for the files. -/
theorem files_eq_nil (accepted : (readText disk file source).result = .ok m)
    (listed : entriesIn .everyBuild source ≠ [])
    (nothing : ∀ e ∈ entriesIn .everyBuild source, entryPaths disk file e = []) :
    m.files = [] := by
  refine List.eq_nil_iff_forall_not_mem.2 fun f member => ?_
  rw [(consists_readText accepted).mem_files, everyFile, if_neg listed, listedFiles,
    List.flatMap_eq_nil_iff.2 nothing] at member
  cases member

theorem readText_frame (accepted : (readText disk file source).result = .ok m) :
    { m.withoutFiles with settings := (run disk (bare file) (Item.inText source)).settings } =
      (run disk (bare file) (Item.inText source)).withoutFiles := by
  obtain ⟨-, rfl⟩ := readText_eq_ok_iff.1 accepted
  exact derive_frame disk _

theorem readText_declared (accepted : (readText disk file source).result = .ok m) (scope : Scope) :
    m.declared scope = entriesIn scope source := by
  have same := congrArg declared (readText_frame accepted)
  exact (congrFun same scope).trans (run_declared disk (bare file) _ scope)

theorem readText_unrecognized (accepted : (readText disk file source).result = .ok m) :
    m.unrecognized = (run disk (bare file) (Item.inText source)).unrecognized := by
  have same := congrArg unrecognized (readText_frame accepted)
  exact same

theorem readText_pairs (accepted : (readText disk file source).result = .ok m) (kind : PairKind) :
    m.pairs kind = insertPairs [] ((Item.inText source).filterMap (Item.pairOf? kind)) := by
  have same := congrArg pairs (readText_frame accepted)
  exact (congrFun same kind).trans (run_pairs disk (bare file) _ kind)

/-- Without entries for debug builds there are no files for them alone. -/
theorem debugFiles_eq_nil (accepted : (readText disk file source).result = .ok m)
    (none : m.declared .debugOnly = []) : m.debugFiles = [] := by
  rw [readText_declared accepted] at none
  rw [(consists_readText accepted).debugFiles, none]
  rfl

/-- A disk with a project file alone, from which nothing can be derived. -/
def bareDisk : Disk := { top := [("p.yaml", .file [] ⟨0⟩)], current := [], now := ⟨0⟩ }

/-- An entry that is read as an include of a file that is not there. -/
theorem entryPaths_includes : entryPaths bareDisk "p.yaml" ".includes.c" = [] := by
  have missing : (bareDisk.findFile (Pathname.join (Pathname.directory "p.yaml")
      (Path.join [] "s.c"))).toOption = none := by decide +kernel
  rw [entryPaths, entryContribution, show Entry.ofText ".includes.c" = .include "s.c" by decide]
  refine contribution_include_of_error fun found opened => ?_
  rw [opened] at missing
  cases missing

end BuildMatrix.Project
