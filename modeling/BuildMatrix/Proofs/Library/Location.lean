import BuildMatrix.Proofs.Disk.Viewpoint
import BuildMatrix.Proofs.Library.Walk

/-! Where libraries lie, as seen from the project that is built. A library is looked for from the
directory of the project that names it, and its directory is written down as a path from the root,
which is computed without the disk. Main statement: `search_sited`, both lead to one place. -/

set_option autoImplicit false

namespace BuildMatrix.Library

open StateTransition (Reaches)

/-- A text that is read in paths as the disk reads it: no backslash separates its components, and
nothing in it can be taken for a drive. -/
def Uniform (t : Text) : Prop := '\\' ∉ t ∧ ':' ∉ t

instance (t : Text) : Decidable (Uniform t) := inferInstanceAs (Decidable (_ ∧ _))

/-- The libraries that a project names, and where its binaries go, are written uniformly. -/
structure IsUniform (q : Project) : Prop where
  items : ∀ dir ∈ q.items .buildLibs, Uniform dir
  binaryDirs : ∀ b, ∀ dir ∈ q.filled? (.targetDir b), Uniform dir
  name : Uniform q.name

theorem isUniform_iff {q : Project} : IsUniform q ↔ (∀ dir ∈ q.items .buildLibs, Uniform dir) ∧
    (∀ b ∈ [Bitness.bits64, .bits32], ∀ dir ∈ q.filled? (.targetDir b), Uniform dir) ∧
      Uniform q.name := by
  refine ⟨fun h => ⟨h.items, fun b _ => h.binaryDirs b, h.name⟩, fun ⟨items, dirs, name⟩ =>
    ⟨items, fun b => ?_, name⟩⟩
  cases b <;> exact dirs _ (by simp)

instance (q : Project) : Decidable (IsUniform q) := decidable_of_iff _ isUniform_iff.symm

/-- What is named of a project that was found: the item, with the subdirectory it was found in. -/
def Search.item (dir : Text) (f : Project.Found) : Text :=
  if f.inner = [] then dir else Pathname.join dir f.inner

section

variable (disk : Disk) (p : Project)

/-- The directory of a library is seen from the root as it was written down, and its name leaves
room for names in it. -/
structure Sited (l : Library) : Prop where
  seen : disk.Seen p.dir (Path.route l.dir) l.project.dir
  fits : Text.byteCount (Pathname.join l.project.dir []) < Disk.longestPathname
  canonical : Path.canonical l.dir = l.dir

/-- A visit starts from a directory that is seen from the root, and was visited. -/
structure Visible (s : Search) (base : Text) (user : Project) (dir : Text) : Prop where
  seen : disk.Seen p.dir (Path.route base) user.dir
  visited : disk.identity user.dir ∈ s.visited
  filled : dir ≠ []
  uniform : Uniform dir

/-- All that a search found, and all that it starts from, is where it was written down to be. -/
structure Survey (s : Search) (pending : List Task) : Prop where
  found : ∀ l, l ∈ s.libraries ∨ .add l ∈ pending → Sited disk p l
  visits : ∀ base user dir, .visit base user dir ∈ pending → Visible disk p s base user dir

end

variable {disk : Disk} {p q user : Project} {s t : Search} {pending more rest : List Task}
  {l : Library} {f : Project.Found} {base dir inner : Text}

/-! ### Items -/

theorem isName_of_usual (usual : inner ∈ Project.usualDirectories) :
    Path.IsName inner ∧ Uniform inner := by
  have all : ∀ c ∈ Project.usualDirectories, (c ≠ "" ∧ c ≠ "." ∧ c ≠ "..") ∧
      (c.all fun x => !Path.isSeparator x) = true ∧ Uniform c := by decide
  obtain ⟨⟨filled, here, up⟩, plain, uniform⟩ := all inner usual
  exact ⟨⟨filled, here, up, fun x member => by simpa using List.all_eq_true.1 plain x member⟩,
    uniform⟩

theorem Search.inner_cases (filled : dir ≠ []) (found : Search.locate disk user dir = some f) :
    f.inner = [] ∨ f.inner ∈ Project.usualDirectories := by
  obtain ⟨-, -, -, -, ⟨none, -⟩ | ⟨usual, -⟩⟩ := Search.exists_place filled found
  · exact .inl none
  · exact .inr usual

theorem Search.item_of_inner (none : f.inner = []) : Search.item dir f = dir := if_pos none

theorem Search.item_of_usual (usual : f.inner ∈ Project.usualDirectories) :
    Search.item dir f = Pathname.join dir f.inner := if_neg (isName_of_usual usual).1.1

theorem Search.item_ne_nil (filled : dir ≠ []) : Search.item dir f ≠ [] := by
  unfold Search.item
  split
  · exact filled
  · exact Pathname.join_ne_nil filled _

/-- A project file lies in what was named, from the directory of the project that named it. -/
theorem Search.file_eq (filled : dir ≠ []) (found : Search.locate disk user dir = some f) :
    f.file = Pathname.join (Pathname.join user.dir (Search.item dir f)) projectFileName ∧
      disk.file? f.file = some f.address := by
  obtain ⟨place, -, file, address, ⟨none, rfl⟩ | ⟨usual, rfl⟩⟩ := Search.exists_place filled found
  · rw [Search.item_of_inner none]
    exact ⟨file, address⟩
  · have name := (isName_of_usual usual).1
    rw [Search.item_of_usual usual, Pathname.join_join (Path.isRooted_name name)]
    exact ⟨file, address⟩

theorem Search.backslash_not_mem_item (filled : dir ≠ [])
    (found : Search.locate disk user dir = some f) (uniform : Uniform dir) :
    '\\' ∉ Search.item dir f := by
  rcases Search.inner_cases filled found with none | usual
  · rw [Search.item_of_inner none]
    exact uniform.1
  · obtain ⟨name, inner⟩ := isName_of_usual usual
    rw [Search.item_of_usual usual, Pathname.mem_join_iff (by decide) uniform.1]
    exact inner.1

/-- The directory that is written down goes on from that of the project by the item. -/
theorem Search.route_libraryDir (filled : dir ≠ [])
    (found : Search.locate disk user dir = some f) (uniform : Uniform dir) (base : Text) :
    Path.route (Search.libraryDir base dir f) =
      (Path.route base).join (Path.route (Search.item dir f)) := by
  have drive := Path.hasDrive_eq_false uniform.2
  rw [Search.libraryDir]
  rcases Search.inner_cases filled found with none | usual
  · rw [none, Path.route_join_eq rfl, Path.route_join_eq drive, Search.item_of_inner none]
    rfl
  · obtain ⟨name, inner⟩ := isName_of_usual usual
    rw [Path.route_join_eq (Path.hasDrive_eq_false inner.2), Path.route_join_eq drive,
      Search.item_of_usual usual, Path.route_pathname_join filled uniform.1 name,
      Path.Route.join_assoc _ (Path.route_normal dir) (Path.route_normal _)]

/-! ### Steps -/

/-- A project that is found for the first time lies where it is written down to be. -/
theorem Visible.sited (h : Visible disk p s base user dir)
    (found : Search.locate disk user dir = some f) (fresh : Search.place disk f.file ∉ s.visited)
    (read : (Project.read disk f.file).result = .ok q) :
    Sited disk p ⟨Search.libraryDir base dir f, q⟩ := by
  obtain ⟨file, there⟩ := Search.file_eq h.filled found
  obtain ⟨content, opened⟩ := Disk.file?_eq_some.1 there
  obtain ⟨reaches, led, t, node⟩ := Disk.findFile_eq_ok_iff.1 opened
  have free := Search.backslash_not_mem_item h.filled found h.uniform
  have filled : Search.item dir f ≠ [] := Search.item_ne_nil h.filled
  have name := isName_projectFileName
  have place := Pathname.join_ne_nil h.seen.filled (Search.item dir f)
  have lies : q.dir = Pathname.directory f.file := (Project.exists_of_read read).2
  -- the directory of the project that names it was visited, so this one is spelled otherwise
  have elsewhere : Pathname.parts (Pathname.directory f.file) ≠ Pathname.parts user.dir :=
    fun same => by
      obtain ⟨rests, noNul, -⟩ := Search.directory_of_locate h.filled found
      have one := rests.findAny noNul (Pathname.trimmed_directory _).ne_nil
      have other := h.seen.rests.findAny h.seen.noNul h.seen.filled
      rw [Search.place, Disk.identity_of_parts_eq same one other] at fresh
      exact fresh h.visited
  have byFile : disk.node? (disk.destination f.file) ≠ some .directory := by
    rw [led, node]
    simp
  have short := reaches.pathname.short
  rw [file] at reaches byFile short elsewhere
  have fits := Pathname.byteCount_directory_le place name
  refine ⟨?_, ?_, Path.canonical_join _ _⟩
  · rw [lies, file, Search.route_libraryDir h.filled found h.uniform]
    exact h.seen.enter free filled name reaches byFile elsewhere
  · have bytes : Text.byteCount projectFileName = 14 := by decide
    rw [lies, file]
    unfold Disk.longestPathname at short ⊢
    omega

theorem Survey.of_subset (h : Survey disk p s pending)
    (found : ∀ l, l ∈ t.libraries ∨ .add l ∈ more → l ∈ s.libraries ∨ .add l ∈ pending)
    (visits : ∀ base user dir, .visit base user dir ∈ more → .visit base user dir ∈ pending)
    (visited : s.visited ⊆ t.visited) : Survey disk p t more where
  found l member := h.found l (found l member)
  visits base user dir member :=
    let seen := h.visits base user dir (visits base user dir member)
    { seen with visited := visited seen.visited }

theorem Survey.enter (h : Survey disk p s (.visit base user dir :: rest))
    (found : Search.locate disk user dir = some f) (fresh : Search.place disk f.file ∉ s.visited)
    (uniform : ∀ l, .add l ∈
        (Search.enter disk (s.mark disk f) (Search.libraryDir base dir f) f).2 →
      IsUniform l.project) :
    Survey disk p (Search.enter disk (s.mark disk f) (Search.libraryDir base dir f) f).1
      ((Search.enter disk (s.mark disk f) (Search.libraryDir base dir f) f).2 ++ rest) := by
  have here := h.visits base user dir List.mem_cons_self
  have before : Survey disk p (s.mark disk f) rest :=
    h.of_subset (fun l member => member.imp_right (List.mem_cons_of_mem _))
      (fun _ _ _ member => List.mem_cons_of_mem _ member) (List.subset_cons_self ..)
  unfold Search.enter at uniform ⊢
  dsimp only at uniform ⊢
  split at uniform <;> rename_i q read
  · exact before.of_subset (fun _ => id) (fun _ _ _ => id) (List.Subset.refl _)
  · have sited := here.sited found fresh read
    have uniform : IsUniform q := uniform ⟨Search.libraryDir base dir f, q⟩ (by simp)
    constructor
    · intro l member
      rw [List.mem_append, List.mem_append] at member
      rcases member with added | (visit | last) | later
      · exact before.found l (.inl added)
      · obtain ⟨d, -, same⟩ := List.mem_map.1 visit
        cases same
      · cases List.mem_singleton.1 last
        exact sited
      · exact before.found l (.inr later)
    · intro base' user' dir' member
      rw [List.mem_append, List.mem_append] at member
      rcases member with (visit | last) | later
      · obtain ⟨d, item, same⟩ := List.mem_map.1 visit
        cases same
        refine ⟨sited.seen, ?_, Project.ne_nil_of_mem_items item, uniform.items _ item⟩
        rw [(Project.exists_of_read read).2]
        exact List.mem_cons_self
      · cases List.mem_singleton.1 last
      · exact { before.visits _ _ _ later with }

theorem Survey.next (h : Survey disk p s pending)
    (step : (t, more) ∈ Search.next disk (s, pending))
    (uniform : ∀ l, .add l ∈ more → IsUniform l.project) : Survey disk p t more := by
  cases Search.step_of_next step with
  | add l =>
    refine h.of_subset (fun m member => ?_) (fun _ _ _ => List.mem_cons_of_mem _)
      (List.Subset.refl _)
    rcases member with added | waits
    · rcases List.mem_append.1 added with before | last
      · exact .inl before
      · cases List.mem_singleton.1 last
        exact .inr List.mem_cons_self
    · exact .inr (List.mem_cons_of_mem _ waits)
  | nowhere =>
    exact h.of_subset (fun _ member => member.imp_right (List.mem_cons_of_mem _))
      (fun _ _ _ => List.mem_cons_of_mem _) (List.Subset.refl _)
  | known =>
    exact h.of_subset (fun _ member => member.imp_right (List.mem_cons_of_mem _))
      (fun _ _ _ => List.mem_cons_of_mem _) (List.Subset.refl _)
  | enter found fresh =>
    exact h.enter found fresh fun l member => uniform l (List.mem_append_left _ member)

/-- A library that was added or waits is kept. -/
theorem kept_next (step : (t, more) ∈ Search.next disk (s, pending))
    (member : l ∈ s.libraries ∨ .add l ∈ pending) : l ∈ t.libraries ∨ .add l ∈ more := by
  have later {base : Text} {user : Project} {dir : Text} {rest : List Task}
      (waits : .add l ∈ Task.visit base user dir :: rest) : .add l ∈ rest :=
    (List.mem_cons.1 waits).resolve_left (by simp)
  cases Search.step_of_next step with
  | add m =>
    rcases member with before | waits
    · exact .inl (List.mem_append_left _ before)
    · rcases List.mem_cons.1 waits with same | later
      · cases same
        exact .inl (List.mem_append_right _ List.mem_cons_self)
      · exact .inr later
  | nowhere => exact member.imp_right later
  | known => exact member.imp_right later
  | enter =>
    rw [Search.libraries_enter]
    exact member.imp_right fun waits => List.mem_append_right _ (later waits)

theorem mem_libraries_of_reaches {a b : Search × List Task}
    (run : Reaches (Search.next disk) a b) (last : b.2 = [])
    (member : l ∈ a.1.libraries ∨ .add l ∈ a.2) : l ∈ b.1.libraries := by
  induction run using Relation.ReflTransGen.head_induction_on with
  | refl =>
    rw [last] at member
    exact member.resolve_right List.not_mem_nil
  | head step _ ih => exact ih (kept_next step member)

theorem Survey.reaches {a b : Search × List Task} (h : Survey disk p a.1 a.2)
    (run : Reaches (Search.next disk) a b) (last : b.2 = [])
    (uniform : ∀ l ∈ b.1.libraries, IsUniform l.project) : Survey disk p b.1 b.2 := by
  induction run using Relation.ReflTransGen.head_induction_on with
  | refl => exact h
  | head step rest ih =>
    exact ih (h.next step fun l waits =>
      uniform l (mem_libraries_of_reaches rest last (.inr waits)))

theorem survey_start (reaches : disk.Reaches p.dir)
    (directory : disk.node? (disk.destination p.dir) = some .directory)
    (uniform : ∀ dir ∈ p.items .buildLibs, Uniform dir) :
    Survey disk p (Search.start disk p) (Search.visits [] p) where
  found l member := by
    rcases member with added | waits
    · cases added
    · obtain ⟨d, -, same⟩ := List.mem_map.1 waits
      cases same
  visits base user dir member := by
    obtain ⟨d, item, same⟩ := List.mem_map.1 member
    cases same
    have rests : disk.Rests p.dir := ⟨reaches.passable, directory⟩
    have name := reaches.pathname
    exact ⟨Disk.seen_start rests name.filled name.noNul, List.mem_cons_self,
      Project.ne_nil_of_mem_items item, uniform _ item⟩

/-! ### Binaries -/

theorem IsUniform.colon_not_mem_binaryFile (h : IsUniform q) (t : Target) :
    ':' ∉ q.binaryFile t := by
  have stem : ':' ∉ q.binaryStem t := by
    have digits : ∀ b : Bitness, ':' ∉ b.digits := fun b => by cases b <;> decide
    unfold Project.binaryStem
    simp only [List.mem_append, not_or]
    refine ⟨⟨h.name.2, ?_⟩, ?_⟩ <;> split
    · exact digits _
    · exact List.not_mem_nil
    · decide
    · exact List.not_mem_nil
  unfold Project.binaryFile
  dsimp only
  split <;> simp [stem]

theorem IsUniform.hasDrive_binaryPath (h : IsUniform q) (t : Target) :
    Path.hasDrive (q.binaryPath t) = false := by
  refine Path.hasDrive_eq_false fun colon => ?_
  have dirs : ':' ∉ (q.filled? (.targetDir t.bitness)).getD (q.usualBinaryDir t.bitness) := by
    cases filled : q.filled? (.targetDir t.bitness) with
    | some dir => exact (h.binaryDirs _ dir filled).2
    | none =>
      unfold Project.usualBinaryDir
      dsimp only [Option.getD_none]
      cases t.bitness <;> dsimp only <;> split <;> decide
  have file := h.colon_not_mem_binaryFile t
  unfold Project.binaryPath Path.join at colon
  split at colon <;>
    have member := ((Path.mem_of_mem_canonical colon).resolve_left (by decide)).resolve_left
      (by decide)
  · exact file member
  · rcases List.mem_append.1 member with dir | later
    · exact dirs dir
    · exact (List.mem_cons.1 later).elim (by decide) file

/-- The directory of every library that is found is written down as seen from the root. From the
root, its name leads to the directory that the library was read from; and the name of each of its
binaries leads to where the binary is named in that directory. -/
theorem search_sited (disk : Disk) (p : Project) (there : disk.isDirectory p.dir = true)
    (root : ∀ dir ∈ p.items .buildLibs, Uniform dir)
    (uniform : ∀ l ∈ (search disk p).libraries, IsUniform l.project) :
    ∀ l ∈ (search disk p).libraries,
      (∃ a, disk.find (Pathname.join p.dir l.dir) = .ok (a, .directory) ∧
        disk.find l.project.dir = .ok (a, .directory)) ∧
      ∀ t, disk.destination (Pathname.join p.dir (l.binaryPath t)) =
        disk.destination (Pathname.join l.project.dir (l.project.binaryPath t)) := by
  obtain ⟨a, found⟩ : ∃ a, disk.find p.dir = .ok (a, .directory) := by
    unfold Disk.isDirectory at there
    split at there
    · rename_i a found
      exact ⟨a, found⟩
    · cases there
  obtain ⟨reaches, led, directory⟩ := Disk.find_eq_ok_iff.1 found
  rw [← led] at directory
  have survey := (survey_start reaches directory root).reaches
    (Search.reaches_run disk _ _) rfl uniform
  intro l member
  have sited := survey.found l (.inl member)
  refine ⟨⟨disk.destination l.project.dir, ?_⟩, fun t => ?_⟩
  · have name := reaches.pathname
    rw [← sited.canonical]
    exact sited.seen.find_canonical ⟨reaches.passable, directory⟩ name.filled name.noNul sited.fits
  · have normal : Path.canonical (l.project.binaryPath t) = l.project.binaryPath t :=
      Path.canonical_join _ _
    rw [binaryPath, sited.seen.destination_join ((uniform l member).hasDrive_binaryPath t), normal]

/-- An application below the current directory, with a library next to it that is in a
subdirectory and names another one above it, and with a library that is named from the root. -/
def spreadDisk : Disk where
  top := [
    ("work", .directory [
      ("app", .directory [
        (".srcfiles.yaml", .file (Text.toUtf8
          "Options:\n  build_libs: ../ui/./; /opt/core\n") ⟨0⟩)]),
      ("ui", .directory [
        ("src", .directory [
          (".srcfiles.yaml", .file (Text.toUtf8
            "Options:\n  build_libs: ../../../net\n  target_dir64: ../out\n") ⟨0⟩)])])]),
    ("net", .directory [
      (".srcfiles.yaml", .file (Text.toUtf8 "Options:\n  Project: net\n") ⟨0⟩)]),
    ("opt", .directory [
      ("core", .directory [
        (".srcfiles.yaml", .file (Text.toUtf8 "Options:\n  exe_type: lib\n") ⟨0⟩)])])]
  current := ["work"]
  now := ⟨0⟩

def spreadApp : Project :=
  (Project.readText spreadDisk "app/.srcfiles.yaml"
    "Options:\n  build_libs: ../ui/./; /opt/core\n").result.toOption.getD (.bare [])

theorem search_sited_spreadApp :
    spreadDisk.isDirectory spreadApp.dir = true ∧
      (∀ dir ∈ spreadApp.items .buildLibs, Uniform dir) ∧
      (search spreadDisk spreadApp).libraries.map Library.dir =
        [("../../net" : Text), "../ui/src", "/opt/core"] ∧
      (∀ l ∈ (search spreadDisk spreadApp).libraries, IsUniform l.project) ∧
      ∀ l ∈ (search spreadDisk spreadApp).libraries,
        (∃ a, spreadDisk.find (Pathname.join spreadApp.dir l.dir) = .ok (a, .directory) ∧
          spreadDisk.find l.project.dir = .ok (a, .directory)) ∧
        ∀ t, spreadDisk.destination (Pathname.join spreadApp.dir (l.binaryPath t)) =
          spreadDisk.destination (Pathname.join l.project.dir (l.project.binaryPath t)) := by
  have there : spreadDisk.isDirectory spreadApp.dir = true := by decide +kernel
  have root : ∀ dir ∈ spreadApp.items .buildLibs, Uniform dir := by decide +kernel
  have steps : search spreadDisk spreadApp = _ := search_eq_advance 6 (by decide +kernel)
  have uniform : ∀ l ∈ (search spreadDisk spreadApp).libraries, IsUniform l.project := by
    rw [steps]
    decide +kernel
  refine ⟨there, root, ?_, uniform, search_sited spreadDisk spreadApp there root uniform⟩
  rw [steps]
  decide +kernel

end BuildMatrix.Library
