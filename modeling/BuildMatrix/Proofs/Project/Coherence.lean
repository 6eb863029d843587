import BuildMatrix.Proofs.Path.Canonical
import BuildMatrix.Proofs.Project.RoundTrip
import Mathlib.Data.List.Nodup

/-! Coherent projects. The lists of a project repeat each other in part: the interface files, the
resource script and the help project are also in the list of all files, and a file for every build
is none for debug builds alone. Whatever reading and editing lead to, these parts agree, and every
value is in the form in which its option stores it. -/

set_option autoImplicit false

namespace BuildMatrix.Project

variable {disk : Disk} {p : Project} {added debug : List Text} {file source f : Text}

/-! ### Projects in memory -/

/-- A change to a project in memory. -/
inductive Edit where
  | set (k : OptionKey) (value : Text)
  | setComment (k : OptionKey) (comment : Option Text)
  | clear (k : OptionKey)
  | assign (k : OptionKey) (value : Text) (comment : Option Text)
  | addUnrecognized (line : Text)
  | add (scope : Scope) (file : Text)
  deriving DecidableEq

def edit (p : Project) : Edit → Project
  | .set k value => p.set k value
  | .setComment k comment => p.setComment k comment
  | .clear k => p.clear k
  | .assign k value comment => p.assign k value comment
  | .addUnrecognized line => p.addUnrecognized line
  | .add scope file => p.add scope file

/-- What edits lead to from an empty project or from one that was read. -/
inductive Reachable : Project → Prop where
  | bare (file : Text) : Reachable (bare file)
  | read {disk : Disk} {file source : Text} {p : Project} :
      (readText disk file source).result = .ok p → Reachable p
  | edit {p : Project} (e : Edit) : Reachable p → Reachable (p.edit e)

/-- The form in which an option stores its values. -/
def InForm (k : OptionKey) (value : Text) : Prop :=
  if k.isFlag then value = "true" ∨ value = "false" else value.Trimmed

structure Coherent (p : Project) : Prop where
  nodup : (p.files ++ p.debugFiles).Nodup
  normal : ∀ f ∈ p.files ++ p.debugFiles, Path.canonical f = f
  idlFiles : p.idlFiles = p.files.filter (hasExtension "idl")
  rcFile : p.rcFile = p.files.find? (hasExtension "rc")
  helpFile_eq_none : p.helpFile = none ↔ ∀ f ∈ p.files, Path.extension f ≠ some ("hhp" : Text)
  helpFile : ∀ f ∈ p.helpFile, f ∈ p.files ∧ Path.extension f = some ("hhp" : Text)
  settings : ∀ k, ∀ s ∈ p.settings k, InForm k s.value
  sources_prefix : p.sourceFiles .release <+: p.sourceFiles .debug
  nodup_sources : ∀ c, (p.sourceFiles c).Nodup

/-! ### Files without repeats -/

theorem nodup_addNew {fs : List Text} (h : fs.Nodup) (f : Text) : (addNew f fs).Nodup := by
  unfold addNew
  split
  · exact h
  · rename_i new
    rw [List.nodup_append]
    refine ⟨h, List.nodup_singleton f, ?_⟩
    rintro g known _ last rfl
    exact new (List.mem_singleton.1 last ▸ known)

theorem nodup_distinct (fs : List Text) : (distinct fs).Nodup := by
  induction fs using List.reverseRecOn with
  | nil => exact List.nodup_nil
  | append_singleton fs f ih =>
    rw [distinct_concat]
    exact nodup_addNew ih f

theorem filter_addNew (q : Text → Bool) (f : Text) (fs : List Text) :
    (addNew f fs).filter q = if q f then addNew f (fs.filter q) else fs.filter q := by
  by_cases known : f ∈ fs
  · by_cases hit : q f <;> simp [addNew, known, hit]
  · by_cases hit : q f <;> simp [addNew, known, hit, List.filter_append]

theorem distinct_filter (q : Text → Bool) (fs : List Text) :
    distinct (fs.filter q) = (distinct fs).filter q := by
  induction fs using List.reverseRecOn with
  | nil => rfl
  | append_singleton fs f ih =>
    rw [distinct_concat, filter_addNew, List.filter_append, ← ih]
    by_cases hit : q f <;> simp [hit, distinct_concat]

theorem head?_distinct (fs : List Text) : (distinct fs).head? = fs.head? := by
  induction fs using List.reverseRecOn with
  | nil => rfl
  | append_singleton fs f ih =>
    rw [distinct_concat, List.head?_append, ← ih]
    unfold addNew
    split
    · rename_i known
      obtain ⟨g, rest, shape⟩ := List.exists_cons_of_ne_nil (List.ne_nil_of_mem known)
      rw [shape]
      rfl
    · rw [List.head?_append]

/-- Repeats do not change what is found first. -/
theorem find?_distinct (q : Text → Bool) (fs : List Text) :
    (distinct fs).find? q = fs.find? q := by
  rw [← List.head?_filter, ← distinct_filter, head?_distinct, List.head?_filter]

/-! ### Lists -/

theorem exists_consists_edit (h : Consists p added debug)
    (normal : ∀ f ∈ added ++ debug, Path.canonical f = f) (e : Edit) :
    ∃ added debug, Consists (p.edit e) added debug ∧
      ∀ f ∈ added ++ debug, Path.canonical f = f := by
  cases e with
  | add scope file =>
    -- what is added is brought into normal form first
    have last := Path.canonical_canonical file
    cases scope with
    | everyBuild =>
      refine ⟨_, _, h.addFile file, ?_⟩
      simp only [List.mem_append, List.mem_singleton] at normal ⊢
      rintro f ((before | rfl) | only)
      · exact normal f (.inl before)
      · exact last
      · exact normal f (.inr only)
    | debugOnly =>
      refine ⟨_, _, h.addDebugFile file, ?_⟩
      simp only [List.mem_append, List.mem_singleton] at normal ⊢
      rintro f (before | only | rfl)
      · exact normal f (.inl before)
      · exact normal f (.inr only)
      · exact last
  | setComment k comment =>
    refine ⟨added, debug, h.of_files ?_, normal⟩
    unfold edit setComment
    dsimp only
    split <;> exact ⟨rfl, rfl, rfl, rfl, rfl⟩
  | assign k value comment =>
    refine ⟨added, debug, h.of_files ?_, normal⟩
    simp only [edit, assign_eq]
    exact ⟨rfl, rfl, rfl, rfl, rfl⟩
  | _ => exact ⟨added, debug, h.of_files ⟨rfl, rfl, rfl, rfl, rfl⟩, normal⟩

theorem canonical_of_mem_listedFiles {entries : List Text}
    (member : f ∈ listedFiles disk file entries) : Path.canonical f = f := by
  obtain ⟨g, -, rfl⟩ := List.mem_map.1 member
  exact Path.canonical_canonical g

theorem canonical_of_mem_everyFile (member : f ∈ everyFile disk file source) :
    Path.canonical f = f := by
  unfold everyFile at member
  split at member
  · obtain ⟨g, -, rfl⟩ := List.mem_map.1 member
    exact Path.canonical_canonical g
  · exact canonical_of_mem_listedFiles member

/-- The lists of a reachable project hold what was added, in normal form. -/
theorem Reachable.exists_consists (h : Reachable p) :
    ∃ added debug, Consists p added debug ∧ ∀ f ∈ added ++ debug, Path.canonical f = f := by
  induction h with
  | bare file => exact ⟨[], [], consists_bare file, by simp⟩
  | read accepted =>
    refine ⟨_, _, consists_readText accepted, fun f member => ?_⟩
    rcases List.mem_append.1 member with every | only
    · exact canonical_of_mem_everyFile every
    · exact canonical_of_mem_listedFiles only
  | edit e _ ih =>
    obtain ⟨added, debug, consists, normal⟩ := ih
    exact exists_consists_edit consists normal e

theorem Consists.nodup (h : Consists p added debug) : (p.files ++ p.debugFiles).Nodup := by
  rw [List.nodup_append, h.files, h.debugFiles]
  refine ⟨nodup_distinct added, (nodup_distinct debug).filter _, ?_⟩
  rintro f every _ only rfl
  rw [mem_distinct] at every
  simp [every] at only

theorem Consists.idlFiles_eq (h : Consists p added debug) :
    p.idlFiles = p.files.filter (hasExtension "idl") := by
  rw [h.idlFiles, h.files, distinct_filter]

theorem Consists.rcFile_eq (h : Consists p added debug) :
    p.rcFile = p.files.find? (hasExtension "rc") := by
  rw [h.rcFile, h.files, find?_distinct]

theorem Consists.helpFile_eq_none_iff (h : Consists p added debug) :
    p.helpFile = none ↔ ∀ f ∈ p.files, Path.extension f ≠ some ("hhp" : Text) := by
  simp only [h.helpFile, List.find?_eq_none, List.mem_reverse, hasExtension_iff, h.mem_files, ne_eq]

theorem Consists.of_mem_helpFile (h : Consists p added debug) (help : f ∈ p.helpFile) :
    f ∈ p.files ∧ Path.extension f = some ("hhp" : Text) := by
  rw [Option.mem_def, h.helpFile] at help
  have listed := List.mem_reverse.1 (List.mem_of_find?_eq_some help)
  exact ⟨h.mem_files.2 listed, hasExtension_iff.1 (List.find?_some help)⟩

/-! ### Sources -/

theorem sourceFiles_prefix (p : Project) : p.sourceFiles .release <+: p.sourceFiles .debug := by
  simp [sourceFiles, List.filter_append]

theorem nodup_sourceFiles (h : (p.files ++ p.debugFiles).Nodup) (c : Configuration) :
    (p.sourceFiles c).Nodup := by
  cases c with
  | debug => exact h.filter _
  | release =>
    apply List.Nodup.filter
    simpa using h.of_append_left

/-! ### Values -/

theorem inForm_storedValue (k : OptionKey) (value : Text) : InForm k (storedValue k value) := by
  unfold InForm storedValue
  split
  · cases isYes value with
    | true => exact .inl rfl
    | false => exact .inr rfl
  · exact Text.trimmed_trim value

theorem inForm_withSetting (h : ∀ k, ∀ s ∈ p.settings k, InForm k s.value) {l : OptionKey}
    {t : Option Setting} (new : ∀ s ∈ t, InForm l s.value) (k : OptionKey) :
    ∀ s ∈ (p.withSetting l t).settings k, InForm k s.value := by
  intro s here
  rw [withSetting] at here
  dsimp only at here
  split at here
  · rename_i same
    exact same ▸ new s here
  · exact h k s here

theorem inForm_edit (h : ∀ k, ∀ s ∈ p.settings k, InForm k s.value) (e : Edit) (k : OptionKey) :
    ∀ s ∈ (p.edit e).settings k, InForm k s.value := by
  cases e with
  | set l value =>
    apply inForm_withSetting h
    rintro _ ⟨⟩
    exact inForm_storedValue l value
  | setComment l comment =>
    unfold edit setComment
    dsimp only
    split
    · rename_i s here
      apply inForm_withSetting h
      rintro _ ⟨⟩
      exact h l s here
    · exact h k
  | clear l => exact inForm_withSetting h (by simp) k
  | assign l value comment =>
    unfold edit
    dsimp only
    rw [assign_eq]
    apply inForm_withSetting h
    rintro _ ⟨⟩
    exact inForm_storedValue l value
  | addUnrecognized line => exact h k
  | add scope file =>
    have same := congrArg Project.settings (withoutFiles_add p scope file)
    exact fun s here => h k s (congrFun same k ▸ here)

theorem Reachable.inForm (h : Reachable p) : ∀ k, ∀ s ∈ p.settings k, InForm k s.value := by
  induction h with
  | bare file =>
    intro k s here
    cases here
  | @read disk file source p accepted =>
    obtain ⟨-, rfl⟩ := readText_eq_ok_iff.1 accepted
    have read : ∀ k, ∀ s ∈ (run disk (Project.bare file) (Item.inText source)).settings k,
        InForm k s.value := by
      intro k s here
      rw [← (isSetting_run disk file (Item.wellFormed_inText source) k s here).stored]
      exact inForm_storedValue k s.value
    -- the name that is derived is set like any other value
    intro k
    rw [settings_derive]
    obtain same | ⟨name, same⟩ :=
      deriveName_cases disk (run disk (Project.bare file) (Item.inText source))
    · rw [same]
      exact read k
    · rw [same]
      exact inForm_edit read (.set .project name) k
  | edit e _ ih => exact inForm_edit ih e

/-! ### Coherence -/

/-- Whatever a project was read from and however it was edited since, its parts agree. -/
theorem Reachable.coherent (h : Reachable p) : Coherent p := by
  obtain ⟨added, debug, consists, normal⟩ := h.exists_consists
  exact
    { nodup := consists.nodup
      normal := by
        intro f member
        apply normal
        rcases List.mem_append.1 member with every | only
        · exact List.mem_append_left _ (consists.mem_files.1 every)
        · exact List.mem_append_right _ (consists.mem_debugFiles.1 only).1
      idlFiles := consists.idlFiles_eq
      rcFile := consists.rcFile_eq
      helpFile_eq_none := consists.helpFile_eq_none_iff
      helpFile := fun _ => consists.of_mem_helpFile
      settings := h.inForm
      sources_prefix := sourceFiles_prefix p
      nodup_sources := nodup_sourceFiles consists.nodup }

/-- A script, an interface, and a source for debug builds alone. -/
def mixedText : Text := "Files:\n  app.rc\n  a.idl\nDebugFiles:\n  trace.cpp\n"

/-- The source becomes one for every build. -/
theorem Reachable.coherent_moved :
    ∃ p, (readText bareDisk "p.yaml" mixedText).result = .ok p ∧
      Reachable (p.edit (.add .everyBuild ".\\trace.cpp")) ∧
      Coherent (p.edit (.add .everyBuild ".\\trace.cpp")) ∧
      (p.edit (.add .everyBuild ".\\trace.cpp")).files =
        ["app.rc".toList, "a.idl".toList, "trace.cpp".toList] := by
  have accepted : (readText bareDisk "p.yaml" mixedText).result =
      .ok (derive bareDisk (run bareDisk (Project.bare "p.yaml") (Item.inText mixedText))).1 :=
    readText_eq_ok_iff.2 ⟨by decide +kernel, rfl⟩
  have moved := (Reachable.read accepted).edit (.add .everyBuild ".\\trace.cpp")
  exact ⟨_, accepted, moved, moved.coherent, by decide +kernel⟩

end BuildMatrix.Project
