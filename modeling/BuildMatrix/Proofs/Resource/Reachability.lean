import BuildMatrix.Proofs.Disk.CaseDistinct
import BuildMatrix.Proofs.Path.Joining
import BuildMatrix.Resource.Scan
import Mathlib.Data.List.Nodup

/-! What a scan finds, in terms of the graph of references. The files to scan are the script and, in
turn, the headers that they include; the files to find are all that they refer to. A scan finds
nothing else. It may miss something, since one set holds what was met: a header that a resource
statement mentions first is taken for a resource, and is not opened when it is included later. -/

set_option autoImplicit false

namespace BuildMatrix.Resource

section

variable (disk : Disk) (dir script : Text)

/-- What a file mentions, nothing if it cannot be read. -/
def mentionsOf (file : Text) : List Mention :=
  match disk.readText (Pathname.join dir file) with
  | .ok content => Scan.mentions dir file content
  | .error _ => []

/-- The file that a mention leads to, next to where it stands or next to the script. -/
def target? (m : Mention) : Option Text :=
  Scan.resolve? disk dir (Path.parent (Path.canonical script)) m

def RefersTo (kind : Kind) (f g : Text) : Prop :=
  ∃ m ∈ mentionsOf disk dir f, m.reference.kind = kind ∧ target? disk dir script m = some g

/-- The script, and every header that a file to scan includes. -/
inductive Scanned : Text → Prop where
  | script : Scanned (Path.canonical script)
  | header {f g : Text} : Scanned f → RefersTo disk dir script .header f g → Scanned g

/-- What a file to scan refers to, as a header or as a resource. -/
def Reached (g : Text) : Prop :=
  ∃ f kind, Scanned disk dir script f ∧ RefersTo disk dir script kind f g

/-- What is known in the middle of a scan, with mentions still to follow. -/
structure Progress (s : Scan) (pending : List Mention) : Prop where
  visited : ∀ x, x ∈ s.visited ↔ ∃ f ∈ Path.canonical script :: s.dependencies, x = Path.foldCase f
  distinct : ((Path.canonical script :: s.dependencies).map Path.foldCase).Nodup
  found : ∀ f ∈ s.dependencies, Reached disk dir script f
  opened : ∀ f ∈ s.opened, Scanned disk dir script f
  waiting : ∀ m ∈ pending, ∃ f, Scanned disk dir script f ∧ m ∈ mentionsOf disk dir f
  /-- Whatever an opened file mentions was found or is still to be followed. -/
  closed : ∀ f ∈ s.opened, ∀ m ∈ mentionsOf disk dir f,
    m ∈ pending ∨ ∀ g, target? disk dir script m = some g → Path.foldCase g ∈ s.visited
  /-- What was not opened was met as a resource. -/
  unopened : ∀ f ∈ s.dependencies, f ∉ s.opened →
    ∃ e, Scanned disk dir script e ∧ RefersTo disk dir script .resource e f
  start : Path.canonical script ∈ s.opened

end

variable {disk : Disk} {dir script : Text} {s : Scan} {m : Mention} {rest pending : List Mention}
  {f g base : Text}

/-! ### Steps -/

theorem explore_known (found : Scan.resolve? disk dir base m = some g)
    (known : Path.foldCase g ∈ s.visited) :
    Scan.explore disk dir base s (m :: rest) = Scan.explore disk dir base s rest := by
  rw [Scan.explore]
  split
  · rename_i none
    rw [found] at none
    cases none
  · rename_i file there
    rw [found] at there
    cases there
    rw [dif_pos known]

theorem explore_resource (found : Scan.resolve? disk dir base m = some g)
    (fresh : Path.foldCase g ∉ s.visited) (kind : m.reference.kind = .resource) :
    Scan.explore disk dir base s (m :: rest) = Scan.explore disk dir base (s.add g) rest := by
  rw [Scan.explore]
  split
  · rename_i none
    rw [found] at none
    cases none
  · rename_i file there
    rw [found] at there
    cases there
    rw [dif_neg fresh, kind]

theorem openFile_eq (disk : Disk) (dir : Text) (s : Scan) (file : Text) :
    ∃ ws, Scan.openFile disk dir s file =
      ({ s with opened := s.opened ++ [file], warnings := ws }, mentionsOf disk dir file) := by
  unfold Scan.openFile mentionsOf
  cases disk.readText (Pathname.join dir file) with
  | ok content => exact ⟨_, rfl⟩
  | error e => exact ⟨_, rfl⟩

theorem target?_isFile (h : target? disk dir script m = some g) :
    disk.isFile (Pathname.join dir g) = true := by
  unfold target? at h
  exact Scan.isFile_of_resolve? h

theorem target?_canonical (h : target? disk dir script m = some g) : Path.canonical g = g := by
  unfold target? Scan.resolve? at h
  have candidate := List.mem_of_find?_eq_some h
  simp only [Scan.candidates, List.mem_cons, List.not_mem_nil, or_false] at candidate
  rcases candidate with rfl | rfl <;> exact Path.canonical_join ..

/-- A mention that leads nowhere, or to what was met before, changes nothing but the warnings. -/
theorem Progress.skip (h : Progress disk dir script s (m :: rest))
    (known : ∀ g, target? disk dir script m = some g → Path.foldCase g ∈ s.visited)
    (ws : List (Located Warning)) :
    Progress disk dir script { s with warnings := ws } rest where
  visited := h.visited
  distinct := h.distinct
  found := h.found
  opened := h.opened
  waiting := fun n member => h.waiting n (List.mem_cons_of_mem _ member)
  closed := by
    intro f member n mention
    rcases h.closed f member n mention with waiting | done
    · rcases List.mem_cons.1 waiting with rfl | later
      · exact .inr known
      · exact .inl later
    · exact .inr done
  unopened := h.unopened
  start := h.start

theorem Progress.reached (h : Progress disk dir script s (m :: rest))
    (found : target? disk dir script m = some g) : ∃ e, Scanned disk dir script e ∧
      RefersTo disk dir script m.reference.kind e g := by
  obtain ⟨e, scanned, mention⟩ := h.waiting m List.mem_cons_self
  exact ⟨e, scanned, m, mention, rfl, found⟩

theorem Progress.visited_add (h : Progress disk dir script s pending) (g x : Text) :
    x ∈ (s.add g).visited ↔
      ∃ f ∈ Path.canonical script :: (s.add g).dependencies, x = Path.foldCase f := by
  have before := h.visited x
  simp only [Scan.add, List.mem_cons, before, List.mem_append, List.not_mem_nil, or_false]
  constructor
  · rintro (rfl | ⟨f, member, rfl⟩)
    · exact ⟨g, .inr (.inr rfl), rfl⟩
    · exact ⟨f, member.imp_right .inl, rfl⟩
  · rintro ⟨f, rfl | member | rfl, rfl⟩
    · exact .inr ⟨_, .inl rfl, rfl⟩
    · exact .inr ⟨f, .inr member, rfl⟩
    · exact .inl rfl

theorem Progress.distinct_add (h : Progress disk dir script s pending)
    (fresh : Path.foldCase g ∉ s.visited) :
    ((Path.canonical script :: (s.add g).dependencies).map Path.foldCase).Nodup := by
  have split : Path.canonical script :: (s.add g).dependencies =
      (Path.canonical script :: s.dependencies) ++ [g] := rfl
  rw [split, List.map_append, List.nodup_append]
  refine ⟨h.distinct, by simp, ?_⟩
  rintro x before y after rfl
  obtain ⟨f, member, rfl⟩ := List.mem_map.1 before
  have same : Path.foldCase f = Path.foldCase g := by simpa using after
  exact fresh ((h.visited _).2 ⟨f, member, same.symm⟩)

theorem Progress.found_add (h : Progress disk dir script s (m :: rest))
    (found : target? disk dir script m = some g) :
    ∀ f ∈ (s.add g).dependencies, Reached disk dir script f := by
  intro f member
  rcases List.mem_append.1 member with before | new
  · exact h.found f before
  · obtain ⟨e, scanned, refers⟩ := h.reached found
    rw [List.mem_singleton.1 new]
    exact ⟨e, _, scanned, refers⟩

/-- Once the file of the first mention is added, that mention need not wait any more. -/
theorem Progress.closed_add (h : Progress disk dir script s (m :: rest))
    (found : target? disk dir script m = some g) :
    ∀ f ∈ s.opened, ∀ n ∈ mentionsOf disk dir f, n ∈ rest ∨
      ∀ k, target? disk dir script n = some k → Path.foldCase k ∈ (s.add g).visited := by
  intro f member n mention
  rcases h.closed f member n mention with waiting | done
  · rcases List.mem_cons.1 waiting with rfl | later
    · refine .inr fun k there => ?_
      rw [found] at there
      cases there
      exact List.mem_cons_self
    · exact .inl later
  · exact .inr fun k there => List.mem_cons_of_mem _ (done k there)

/-- A file that is met as a resource is added. -/
theorem Progress.resource (h : Progress disk dir script s (m :: rest))
    (found : target? disk dir script m = some g) (fresh : Path.foldCase g ∉ s.visited)
    (kind : m.reference.kind = .resource) : Progress disk dir script (s.add g) rest := by
  obtain ⟨e, scanned, refers⟩ := h.reached found
  rw [kind] at refers
  constructor
  case visited => exact h.visited_add g
  case distinct => exact h.distinct_add fresh
  case found => exact h.found_add found
  case opened => exact h.opened
  case waiting => exact fun n member => h.waiting n (List.mem_cons_of_mem _ member)
  case closed => exact h.closed_add found
  case unopened =>
    intro f member closed
    rcases List.mem_append.1 member with before | new
    · exact h.unopened f before closed
    · rw [List.mem_singleton.1 new]
      exact ⟨e, scanned, refers⟩
  case start => exact h.start

/-- A header that is met first is added and opened. -/
theorem Progress.header (h : Progress disk dir script s (m :: rest))
    (found : target? disk dir script m = some g) (fresh : Path.foldCase g ∉ s.visited)
    (kind : m.reference.kind = .header) :
    Progress disk dir script (Scan.openFile disk dir (s.add g) g).1
      ((Scan.openFile disk dir (s.add g) g).2 ++ rest) := by
  obtain ⟨e, scanned, refers⟩ := h.reached found
  rw [kind] at refers
  obtain ⟨ws, opening⟩ := openFile_eq disk dir (s.add g) g
  have scannedG : Scanned disk dir script g := .header scanned refers
  rw [opening]
  constructor
  case visited => exact h.visited_add g
  case distinct => exact h.distinct_add fresh
  case found => exact h.found_add found
  case opened =>
    intro f member
    rcases List.mem_append.1 member with before | new
    · exact h.opened f before
    · rw [List.mem_singleton.1 new]
      exact scannedG
  case waiting =>
    intro n member
    rcases List.mem_append.1 member with inside | later
    · exact ⟨g, scannedG, inside⟩
    · exact h.waiting n (List.mem_cons_of_mem _ later)
  case closed =>
    intro f member n mention
    rcases List.mem_append.1 member with before | new
    · exact (h.closed_add found f before n mention).imp_left (List.mem_append_right _)
    · -- all mentions of the file that was just opened come first
      rw [List.mem_singleton.1 new] at mention
      exact .inl (List.mem_append_left _ mention)
  case unopened =>
    intro f member closed
    rcases List.mem_append.1 member with before | new
    · exact h.unopened f before fun inside => closed (List.mem_append_left _ inside)
    · exact absurd (List.mem_append_right _ new) closed
  case start => exact List.mem_append_left _ h.start

/-! ### Runs -/

theorem Progress.explore (h : Progress disk dir script s pending) :
    Progress disk dir script
      (Scan.explore disk dir (Path.parent (Path.canonical script)) s pending) [] := by
  fun_induction Scan.explore disk dir (Path.parent (Path.canonical script)) s pending with
  | case1 s => exact h
  | case2 s m rest none ih =>
    refine ih (h.skip (fun g found => ?_) _)
    rw [target?, none] at found
    cases found
  | case3 s m rest file found known ih =>
    refine ih (h.skip (fun g there => ?_) s.warnings)
    rw [target?, found] at there
    cases there
    exact known
  | case4 s m rest file found fresh kind ih => exact ih (h.resource found fresh kind)
  | case5 s m rest file found fresh kind opening ih => exact ih (h.header found fresh kind)

theorem progress_scan (disk : Disk) (dir script : Text) :
    Progress disk dir script (scan disk dir script) [] := by
  apply Progress.explore
  obtain ⟨ws, opening⟩ :=
    openFile_eq disk dir (.start (Path.canonical script)) (Path.canonical script)
  have opened : ∀ f ∈ (Scan.start (Path.canonical script)).opened ++ [Path.canonical script],
      f = Path.canonical script := by
    intro f member
    simpa [Scan.start] using member
  rw [opening]
  constructor
  case visited =>
    intro x
    simp [Scan.start]
  case distinct => simp [Scan.start]
  case found => simp [Scan.start]
  case opened =>
    intro f member
    rw [opened f member]
    exact .script
  case waiting => exact fun m member => ⟨_, .script, member⟩
  case closed =>
    intro f member m mention
    rw [opened f member] at mention
    exact .inl mention
  case unopened => simp [Scan.start]
  case start => simp

/-! ### Main results -/

theorem isFile_of_mention (mention : m ∈ mentionsOf disk dir f) :
    disk.isFile (Pathname.join dir f) = true := by
  unfold mentionsOf Disk.readText Disk.read at mention
  unfold Disk.isFile Disk.file?
  cases found : disk.findFile (Pathname.join dir f) with
  | error e =>
    rw [found] at mention
    cases mention
  | ok there => rfl

/-- Unless the script can be read, it is all there is to scan. -/
theorem Scanned.eq_or_isFile (h : Scanned disk dir script f) :
    f = Path.canonical script ∨
      disk.isFile (Pathname.join dir (Path.canonical script)) = true := by
  induction h with
  | script => exact .inl rfl
  | header scanned refers ih =>
    refine .inr ?_
    rcases ih with rfl | file
    · obtain ⟨m, mention, -⟩ := refers
      exact isFile_of_mention mention
    · exact file

theorem Reached.isFile_script (h : Reached disk dir script g) :
    disk.isFile (Pathname.join dir (Path.canonical script)) = true := by
  obtain ⟨f, kind, scanned, m, mention, -⟩ := h
  rcases scanned.eq_or_isFile with rfl | file
  · exact isFile_of_mention mention
  · exact file

theorem Reached.isFile (h : Reached disk dir script g) :
    disk.isFile (Pathname.join dir g) = true ∧ Path.canonical g = g := by
  obtain ⟨f, kind, scanned, m, mention, -, found⟩ := h
  exact ⟨target?_isFile found, target?_canonical found⟩

/-- Files with the key of something that was met were met. -/
theorem mem_of_foldCase_mem (distinct : disk.CaseDistinct) (reached : Reached disk dir script g)
    (key : Path.foldCase g ∈ (scan disk dir script).visited) :
    g = Path.canonical script ∨ g ∈ (scan disk dir script).dependencies := by
  have progress := progress_scan disk dir script
  obtain ⟨f, member, same⟩ := (progress.visited _).1 key
  obtain ⟨file, canonical⟩ := reached.isFile
  have other : disk.isFile (Pathname.join dir f) = true ∧ Path.canonical f = f := by
    rcases List.mem_cons.1 member with rfl | found
    · exact ⟨reached.isFile_script, Path.canonical_canonical script⟩
    · exact (progress.found f found).isFile
  have equal : Path.canonical g = Path.canonical f := by
    apply distinct.eq_of_foldCase_eq dir _ _ same
    · rw [canonical]
      exact file
    · rw [other.2]
      exact other.1
  rw [canonical, other.2] at equal
  rw [equal]
  exact List.mem_cons.1 member

/-- A file to scan that the scan took for a resource, and did not open. -/
def Overlooked (disk : Disk) (dir script f : Text) : Prop :=
  Scanned disk dir script f ∧ f ∈ (scan disk dir script).dependencies ∧
    f ∉ (scan disk dir script).opened

section

-- what overlooked headers refer to was found anyway
variable (distinct : disk.CaseDistinct)
  (harmless : ∀ f, Overlooked disk dir script f → ∀ kind g, RefersTo disk dir script kind f g →
    g = Path.canonical script ∨ g ∈ (scan disk dir script).dependencies)
include distinct harmless

/-- Then everything that a known file to scan refers to is known as well. -/
theorem scanned_mem (known : f = Path.canonical script ∨ f ∈ (scan disk dir script).dependencies)
    (scanned : Scanned disk dir script f) {kind : Kind}
    (refers : RefersTo disk dir script kind f g) :
    g = Path.canonical script ∨ g ∈ (scan disk dir script).dependencies := by
  have progress := progress_scan disk dir script
  by_cases opened : f ∈ (scan disk dir script).opened
  · have reached : Reached disk dir script g := ⟨f, kind, scanned, refers⟩
    obtain ⟨m, mention, -, found⟩ := refers
    rcases progress.closed f opened m mention with waiting | done
    · cases waiting
    · exact mem_of_foldCase_mem distinct reached (done g found)
  · rcases known with rfl | member
    · exact absurd progress.start opened
    · exact harmless f ⟨scanned, member, opened⟩ kind g refers

theorem known_of_scanned (scanned : Scanned disk dir script f) :
    f = Path.canonical script ∨ f ∈ (scan disk dir script).dependencies := by
  induction scanned with
  | script => exact .inl rfl
  | header scanned refers ih => exact scanned_mem distinct harmless ih scanned refers

theorem mem_of_reached (reached : Reached disk dir script g)
    (other : g ≠ Path.canonical script) : g ∈ (scan disk dir script).dependencies := by
  obtain ⟨f, kind, scanned, refers⟩ := reached
  have known := known_of_scanned distinct harmless scanned
  exact (scanned_mem distinct harmless known scanned refers).resolve_left other

end

theorem nodup_dependencies_scan (disk : Disk) (dir script : Text) :
    (scan disk dir script).dependencies.Nodup ∧
      Path.canonical script ∉ (scan disk dir script).dependencies := by
  have keys := (progress_scan disk dir script).distinct
  rw [List.map_cons, List.nodup_cons] at keys
  refine ⟨List.Nodup.of_map _ keys.2, fun member => keys.1 ?_⟩
  exact List.mem_map.2 ⟨_, member, rfl⟩

theorem reached_of_mem (member : g ∈ (scan disk dir script).dependencies) :
    Reached disk dir script g ∧ g ≠ Path.canonical script := by
  refine ⟨(progress_scan disk dir script).found g member, ?_⟩
  rintro rfl
  exact (nodup_dependencies_scan disk dir script).2 member

theorem resource_of_overlooked (h : Overlooked disk dir script f) :
    ∃ e, Scanned disk dir script e ∧ RefersTo disk dir script .resource e f :=
  (progress_scan disk dir script).unopened f h.2.1 h.2.2

/-- The dependencies that a scan finds are files that the script or its headers refer to, each of
them once. They are all of these exactly if no header that was taken for a resource refers to
anything else, and such a header is one that a resource statement refers to as well. -/
theorem dependencies_scan_complete_iff (distinct : disk.CaseDistinct) :
    (scan disk dir script).dependencies.Nodup ∧
      (∀ g ∈ (scan disk dir script).dependencies,
        Reached disk dir script g ∧ g ≠ Path.canonical script) ∧
      ((∀ g, g ∈ (scan disk dir script).dependencies ↔
          Reached disk dir script g ∧ g ≠ Path.canonical script) ↔
        ∀ f, Overlooked disk dir script f → ∀ kind g, RefersTo disk dir script kind f g →
          g = Path.canonical script ∨ g ∈ (scan disk dir script).dependencies) ∧
      ∀ f, Overlooked disk dir script f →
        ∃ e, Scanned disk dir script e ∧ RefersTo disk dir script .resource e f := by
  refine ⟨(nodup_dependencies_scan disk dir script).1, fun g member => reached_of_mem member,
    ⟨?_, ?_⟩, fun f overlooked => resource_of_overlooked overlooked⟩
  · intro complete f overlooked kind g refers
    by_cases same : g = Path.canonical script
    · exact .inl same
    · exact .inr ((complete g).2 ⟨⟨f, kind, overlooked.1, refers⟩, same⟩)
  · intro harmless g
    constructor
    · exact fun member => reached_of_mem member
    · rintro ⟨reached, other⟩
      exact mem_of_reached distinct harmless reached other

/-- A script that uses a header as a resource and then includes it. -/
def mixedDisk : Disk :=
  { top := [("a.rc", .file (Text.toUtf8 "1 RCDATA \"b.h\"\n#include \"b.h\"\n") ⟨0⟩),
      ("b.h", .file (Text.toUtf8 "#include \"c.h\"\n") ⟨0⟩), ("c.h", .file [] ⟨0⟩)]
    above := .nothing, current := [], now := ⟨0⟩ }

theorem dependencies_scan_complete_iff_mixed :
    mixedDisk.CaseDistinct ∧
      ((∀ g, g ∈ (scan mixedDisk "." "a.rc").dependencies ↔
          Reached mixedDisk "." "a.rc" g ∧ g ≠ Path.canonical "a.rc") ↔
        ∀ f, Overlooked mixedDisk "." "a.rc" f → ∀ kind g, RefersTo mixedDisk "." "a.rc" kind f g →
          g = Path.canonical "a.rc" ∨ g ∈ (scan mixedDisk "." "a.rc").dependencies) := by
  have distinct : mixedDisk.CaseDistinct := by decide +kernel
  exact ⟨distinct, (dependencies_scan_complete_iff distinct).2.2.1⟩

theorem dependencies_scan_mixed : (scan mixedDisk "." "a.rc").dependencies = ["b.h"] := by
  have mentions : mentionsOf mixedDisk "." "a.rc" =
      [⟨.ofLine "./a.rc" 1, "", .resource, "b.h"⟩, ⟨.ofLine "./a.rc" 2, "", .header, "b.h"⟩] := by
    with_unfolding_all rfl
  obtain ⟨ws, opening⟩ := openFile_eq mixedDisk "." (.start "a.rc") "a.rc"
  rw [mentions] at opening
  have script : Path.canonical "a.rc" = "a.rc" := by decide
  have fresh : Path.foldCase "b.h" ∉ [Path.foldCase "a.rc"] := by decide +kernel
  rw [scan]
  simp only [script, opening]
  rw [explore_resource (g := "b.h") (by decide +kernel) fresh rfl,
    explore_known (g := "b.h") (by decide +kernel) List.mem_cons_self, Scan.explore]
  rfl

/-- The header is not opened any more when it is included, and what it includes is missed. -/
theorem scan_mixed_incomplete :
    mixedDisk.CaseDistinct ∧ mixedDisk.above = .nothing ∧
      mixedDisk.isFile (Pathname.join "." "a.rc") = true ∧
      ¬ ∀ g, g ∈ (scan mixedDisk "." "a.rc").dependencies ↔
        Reached mixedDisk "." "a.rc" g ∧ g ≠ Path.canonical "a.rc" := by
  have toB : RefersTo mixedDisk "." "a.rc" .header "a.rc" "b.h" := by
    unfold RefersTo
    decide +kernel
  have toC : RefersTo mixedDisk "." "a.rc" .header "b.h" "c.h" := by
    unfold RefersTo
    decide +kernel
  have reached : Reached mixedDisk "." "a.rc" "c.h" :=
    ⟨"b.h", .header, .header .script toB, toC⟩
  refine ⟨by decide +kernel, rfl, by decide +kernel, fun complete => ?_⟩
  have found := (complete "c.h").2 ⟨reached, by decide⟩
  rw [dependencies_scan_mixed] at found
  revert found
  decide

/-- A scan is complete if no header to scan is used as a resource as well. -/
theorem mem_dependencies_scan_iff (distinct : disk.CaseDistinct)
    (apart : ∀ e f, Scanned disk dir script e → RefersTo disk dir script .resource e f →
      ¬ Scanned disk dir script f) :
    g ∈ (scan disk dir script).dependencies ↔
      Reached disk dir script g ∧ g ≠ Path.canonical script := by
  have harmless : ∀ f, Overlooked disk dir script f → ∀ kind g,
      RefersTo disk dir script kind f g →
        g = Path.canonical script ∨ g ∈ (scan disk dir script).dependencies := by
    intro f overlooked
    obtain ⟨e, origin, refers⟩ := resource_of_overlooked overlooked
    exact absurd overlooked.1 (apart e f origin refers)
  constructor
  · exact fun member => reached_of_mem member
  · rintro ⟨reached, other⟩
    exact mem_of_reached distinct harmless reached other

end BuildMatrix.Resource
