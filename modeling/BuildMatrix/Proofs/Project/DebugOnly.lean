import BuildMatrix.Proofs.Path.FileName
import BuildMatrix.Proofs.Project.Deriving

/-! Files for debug builds alone. The entries of a project file keep them apart from the files for
every build, in whatever order the sections stand. Only a project that lists no file for every build
can release such a file: the sources of its directory then stand in, and the ones that are listed
for debug builds are not left out. -/

set_option autoImplicit false

namespace BuildMatrix.Project

variable {disk : Disk} {m : Project} {file source f : Text}

/-- Entries for debug builds contribute the path, and no entry for every build does. -/
structure DebugOnly (disk : Disk) (file source f : Text) : Prop where
  debug : f ∈ listedFiles disk file (entriesIn .debugOnly source)
  other : f ∉ listedFiles disk file (entriesIn .everyBuild source)

/-- The text lists nothing for every build, and the path is a source in its directory. -/
structure StandsIn (disk : Disk) (file source f : Text) : Prop where
  unlisted : entriesIn .everyBuild source = []
  around : f ∈ (sourcesAround disk (Pathname.directory file)).map Path.canonical

theorem isSource_of_mem_sourcesAround {dir name : Text} (member : name ∈ sourcesAround disk dir) :
    Path.isSource name = true := by
  unfold sourcesAround at member
  split at member
  · cases member
  · rw [Text.sort, List.mem_mergeSort] at member
    exact (List.mem_filter.1 member).2

theorem StandsIn.isSource (h : StandsIn disk file source f) : Path.isSource f = true := by
  obtain ⟨name, around, rfl⟩ := List.mem_map.1 h.around
  exact Path.isSource_canonical (isSource_of_mem_sourcesAround around)

/-- A path that no entry for every build contributes is built everywhere only if it stands in. -/
theorem mem_everyFile_iff (other : f ∉ listedFiles disk file (entriesIn .everyBuild source)) :
    f ∈ everyFile disk file source ↔ StandsIn disk file source f := by
  unfold everyFile
  split
  · rename_i unlisted
    exact ⟨fun around => ⟨unlisted, around⟩, StandsIn.around⟩
  · rename_i listed
    exact ⟨fun member => absurd member other, fun h => absurd h.unlisted listed⟩

/-- A file for debug builds alone is compiled for release exactly if it stands in for the files of a
project that lists none for every build. Otherwise it stays a file for debug builds. -/
theorem debugOnly_released_iff (accepted : (readText disk file source).result = .ok m)
    (h : DebugOnly disk file source f) :
    (f ∈ m.sourceFiles .release ↔ StandsIn disk file source f) ∧
      (f ∈ m.debugFiles ↔ ¬ StandsIn disk file source f) := by
  have consists := consists_readText accepted
  have every : f ∈ m.files ↔ StandsIn disk file source f := by
    rw [consists.mem_files, mem_everyFile_iff h.other]
  constructor
  · have released : f ∈ m.sourceFiles .release ↔ f ∈ m.files ∧ Path.isSource f = true := by
      simp [sourceFiles]
    -- only sources stand in, so nothing is left out for its extension
    rw [released, every]
    exact and_iff_left_of_imp StandsIn.isSource
  · rw [consists.mem_debugFiles, mem_everyFile_iff h.other]
    exact and_iff_right h.debug

/-- Resources, and a source that is of use in debug builds. -/
def tracedDisk : Disk :=
  { top := [("app.rc", .file [] ⟨0⟩), ("trace.cpp", .file [] ⟨0⟩)], current := [], now := ⟨0⟩ }

theorem debugOnly_released_iff_listed :
    DebugOnly tracedDisk "p.yaml" "DebugFiles:\n  t*.cpp\nFiles:\n  app.rc\n" "trace.cpp" ∧
      ∃ m, (readText tracedDisk "p.yaml" "DebugFiles:\n  t*.cpp\nFiles:\n  app.rc\n").result =
          .ok m ∧
        "trace.cpp".toList ∉ m.sourceFiles .release ∧ "trace.cpp".toList ∈ m.debugFiles := by
  have only : DebugOnly tracedDisk "p.yaml" "DebugFiles:\n  t*.cpp\nFiles:\n  app.rc\n"
      "trace.cpp" := ⟨by decide +kernel, by decide +kernel⟩
  have listed : ¬ StandsIn tracedDisk "p.yaml" "DebugFiles:\n  t*.cpp\nFiles:\n  app.rc\n"
      "trace.cpp" := fun h => absurd h.unlisted (by decide +kernel)
  have accepted : (readText tracedDisk "p.yaml"
      "DebugFiles:\n  t*.cpp\nFiles:\n  app.rc\n").result = .ok _ :=
    readText_eq_ok_iff.2 ⟨by decide +kernel, rfl⟩
  have released := debugOnly_released_iff accepted only
  exact ⟨only, _, accepted, mt released.1.1 listed, released.2.2 listed⟩

/-- The file is listed for debug builds alone, and compiled for release all the same. -/
theorem debugOnly_released :
    DebugOnly tracedDisk "p.yaml" "DebugFiles:\n  trace.cpp\n" "trace.cpp" ∧
      ∃ m, (readText tracedDisk "p.yaml" "DebugFiles:\n  trace.cpp\n").result = .ok m ∧
        "trace.cpp".toList ∈ m.sourceFiles .release ∧ m.debugFiles = [] := by
  refine ⟨⟨by decide +kernel, by decide +kernel⟩, _, readText_eq_ok_iff.2 ⟨by decide +kernel, rfl⟩,
    by decide +kernel, by decide +kernel⟩

end BuildMatrix.Project
