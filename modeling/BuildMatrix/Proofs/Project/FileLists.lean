import BuildMatrix.Project.Entry
import BuildMatrix.Project.Reader
import Mathlib.Data.List.Induction

/-! The file lists of a project. Each of them is settled by the two sequences of files that were
added, those for every build and those for debug builds, and the order in which the two sequences
were interleaved does not show. -/

set_option autoImplicit false

namespace BuildMatrix.Project

/-- Files without later repeats. -/
def distinct (fs : List Text) : List Text := fs.foldl (fun seen f => addNew f seen) []

theorem distinct_concat (fs : List Text) (f : Text) :
    distinct (fs ++ [f]) = addNew f (distinct fs) := by
  simp [distinct]

theorem mem_addNew {f g : Text} {fs : List Text} : g ∈ addNew f fs ↔ g = f ∨ g ∈ fs := by
  unfold addNew
  by_cases known : f ∈ fs
  · rw [if_pos known]
    constructor
    · exact .inr
    · rintro (rfl | member)
      · exact known
      · exact member
  · rw [if_neg known, List.mem_append, List.mem_singleton, or_comm]

theorem mem_distinct {g : Text} {fs : List Text} : g ∈ distinct fs ↔ g ∈ fs := by
  induction fs using List.reverseRecOn with
  | nil => rfl
  | append_singleton fs f ih => simp [distinct_concat, mem_addNew, ih, or_comm]

theorem distinct_eq_eraseDups (fs : List Text) : distinct fs = fs.eraseDups := by
  induction fs using List.reverseRecOn with
  | nil => rfl
  | append_singleton fs f ih =>
    rw [distinct_concat, ih, addNew, List.eraseDups_append, List.cons_removeAll]
    by_cases known : f ∈ fs
    · simp [known]
    · simp [known, List.eraseDups_cons]

def hasExtension (e f : Text) : Bool := decide (Path.extension f = some e)

theorem hasExtension_iff {e f : Text} : hasExtension e f = true ↔ Path.extension f = some e :=
  decide_eq_true_iff

/-- What the lists of a project hold once `added` was added for every build and `debug` for debug
builds. All paths are in normal form. -/
structure Consists (p : Project) (added debug : List Text) : Prop where
  files : p.files = distinct added
  debugFiles : p.debugFiles = (distinct debug).filter (· ∉ added)
  rcFile : p.rcFile = added.find? (hasExtension "rc")
  helpFile : p.helpFile = added.reverse.find? (hasExtension "hhp")
  idlFiles : p.idlFiles = distinct (added.filter (hasExtension "idl"))

variable {p q : Project} {added debug : List Text}

theorem consists_bare (file : Text) : Consists (bare file) [] [] :=
  ⟨rfl, rfl, rfl, rfl, rfl⟩

/-! ### Adding files -/

theorem Consists.addFile (h : Consists p added debug) (file : Text) :
    Consists (p.addFile file) (added ++ [Path.canonical file]) debug where
  files := by
    rw [distinct_concat, ← h.files]
    rfl
  debugFiles := by
    have kept : (p.addFile file).debugFiles = p.debugFiles.filter (· ≠ Path.canonical file) := rfl
    rw [kept, h.debugFiles, List.filter_filter]
    congr 1
    funext f
    simp [Bool.and_comm]
  rcFile := by
    rw [List.find?_append, ← h.rcFile, Project.addFile]
    dsimp only
    -- the first resource script stays
    cases p.rcFile with
    | some f => simp
    | none =>
      by_cases hit : hasExtension "rc" (Path.canonical file)
      · rw [List.find?_cons_of_pos hit]
        exact if_pos ⟨hasExtension_iff.1 hit, rfl⟩
      · rw [List.find?_cons_of_neg hit]
        exact if_neg fun e => hit (hasExtension_iff.2 e.1)
  helpFile := by
    -- the last help project counts, which is the first one from behind
    rw [List.reverse_append, List.find?_append, ← h.helpFile, Project.addFile]
    dsimp only
    by_cases hit : hasExtension "hhp" (Path.canonical file)
    · rw [List.reverse_singleton, List.find?_cons_of_pos hit]
      exact if_pos (hasExtension_iff.1 hit)
    · rw [List.reverse_singleton, List.find?_cons_of_neg hit]
      exact if_neg (mt hasExtension_iff.2 hit)
  idlFiles := by
    rw [List.filter_append, Project.addFile]
    dsimp only
    by_cases hit : hasExtension "idl" (Path.canonical file)
    · rw [List.filter_cons_of_pos hit, List.filter_nil, distinct_concat, ← h.idlFiles]
      exact if_pos (hasExtension_iff.1 hit)
    · rw [List.filter_cons_of_neg hit, List.filter_nil, List.append_nil, ← h.idlFiles]
      exact if_neg (mt hasExtension_iff.2 hit)

theorem Consists.addDebugFile (h : Consists p added debug) (file : Text) :
    Consists (p.addDebugFile file) added (debug ++ [Path.canonical file]) := by
  have known : Path.canonical file ∈ p.files ↔ Path.canonical file ∈ added := by
    rw [h.files, mem_distinct]
  unfold Project.addDebugFile
  by_cases member : Path.canonical file ∈ added
  · rw [if_pos (known.2 member)]
    refine { h with debugFiles := ?_ }
    rw [h.debugFiles, distinct_concat, addNew]
    split
    · rfl
    · simp [List.filter_append, member]
  · rw [if_neg (mt known.1 member)]
    refine { h with debugFiles := ?_ }
    have seen : Path.canonical file ∈ p.debugFiles ↔ Path.canonical file ∈ distinct debug := by
      simp [h.debugFiles, member]
    rw [distinct_concat]
    simp only [addNew, seen]
    split
    · exact h.debugFiles
    · simp [List.filter_append, member, h.debugFiles]

theorem Consists.addFiles (h : Consists p added debug) (files : List Text) :
    Consists (p.addPaths .everyBuild files) (added ++ files.map Path.canonical) debug := by
  induction files generalizing p added with
  | nil => simpa [Project.addPaths] using h
  | cons f rest ih => simpa [Project.addPaths, Project.add] using ih (h.addFile f)

theorem Consists.addDebugFiles (h : Consists p added debug) (files : List Text) :
    Consists (p.addPaths .debugOnly files) added (debug ++ files.map Path.canonical) := by
  induction files generalizing p debug with
  | nil => simpa [Project.addPaths] using h
  | cons f rest ih => simpa [Project.addPaths, Project.add] using ih (h.addDebugFile f)

/-- Adding files changes nothing but the lists. -/
def withoutFiles (p : Project) : Project :=
  { p with files := [], debugFiles := [], rcFile := none, helpFile := none, idlFiles := [] }

theorem withoutFiles_add (p : Project) (scope : Scope) (file : Text) :
    (p.add scope file).withoutFiles = p.withoutFiles := by
  cases scope with
  | everyBuild => rfl
  | debugOnly =>
    simp only [Project.add, Project.addDebugFile]
    split <;> rfl

theorem withoutFiles_addPaths (p : Project) (scope : Scope) (files : List Text) :
    (p.addPaths scope files).withoutFiles = p.withoutFiles := by
  induction files generalizing p with
  | nil => rfl
  | cons f rest ih =>
    rw [Project.addPaths, List.foldl_cons]
    exact (ih _).trans (withoutFiles_add p scope f)

theorem exists_addPaths_debugOnly (p : Project) (files : List Text) :
    ∃ fs, p.addPaths .debugOnly files = { p with debugFiles := fs } := by
  induction files generalizing p with
  | nil => exact ⟨p.debugFiles, rfl⟩
  | cons f rest ih =>
    have first : ∃ fs, p.addDebugFile f = { p with debugFiles := fs } := by
      by_cases known : Path.canonical f ∈ p.files
      · exact ⟨p.debugFiles, if_pos known⟩
      · exact ⟨addNew (Path.canonical f) p.debugFiles, if_neg known⟩
    obtain ⟨fs, eq⟩ := first
    obtain ⟨gs, added⟩ := ih (p.addDebugFile f)
    refine ⟨gs, ?_⟩
    rw [Project.addPaths, List.foldl_cons]
    refine added.trans ?_
    rw [eq]

end BuildMatrix.Project
