import BuildMatrix.Library
import BuildMatrix.Proofs.Disk.Directories
import BuildMatrix.Proofs.Disk.Resolving
import BuildMatrix.Proofs.Project.Reading
import BuildMatrix.Proofs.Steps
import Mathlib.Data.Bool.AllAny

/-! The search for libraries as a walk with tasks still to do. The walk ends; on the way the tasks
are stacked as the projects refer to each other, and every directory in which a project was found is
that of the root, or of one library, or of a project that cannot be read. -/

set_option autoImplicit false

namespace BuildMatrix

theorem Project.ne_nil_of_mem_items {p : Project} {k : OptionKey} {item : Text}
    (member : item ∈ p.items k) : item ≠ [] := by
  unfold Project.items at member
  dsimp only at member
  split at member
  · simpa using (List.mem_filter.1 member).2
  · simpa using (List.mem_filter.1 member).2

namespace Library

open Relation (ReflTransGen TransGen)
open StateTransition (Reaches eval)

section

variable (disk : Disk)

/-- A project names another one as a library, which can be read. -/
def References (q r : Project) : Prop :=
  ∃ dir ∈ q.items .buildLibs, ∃ f, Search.locate disk q dir = some f ∧
    (Project.read disk f.file).result = .ok r

/-- There is a project file in a directory, and it cannot be read. -/
def Unreadable (i : Disk.Identity) : Prop :=
  ∃ (user : Project) (dir : Text) (f : Project.Found), dir ≠ [] ∧
    Search.locate disk user dir = some f ∧ Search.place disk f.file = i ∧
    ∀ r, (Project.read disk f.file).result ≠ .ok r

/-- The directory of a library, as the disk identifies it. -/
def home (l : Library) : Disk.Identity := disk.identity l.project.dir

/-- The project that a task is done for. -/
def Task.user : Task → Project
  | .visit _ user _ => user
  | .add l => l.project

/-- What a task for a project that is reached from `p` has to do with it. -/
def Task.Due (p : Project) : Task → Prop
  | .visit _ user dir => ReflTransGen (References disk) p user ∧ dir ∈ user.items .buildLibs
  | .add l => TransGen (References disk) p l.project

/-- A task comes before another one, which is done for a project that it was reached from. -/
def Task.Inside (t u : Task) : Prop :=
  match t with
  | .visit _ user _ => ReflTransGen (References disk) u.user user
  | .add l => TransGen (References disk) u.user l.project

/-- The libraries that wait for those they need, the innermost one first. -/
def waiting (pending : List Task) : List Library :=
  pending.filterMap fun
    | .add l => some l
    | .visit .. => none

/-- The directories of the root and of all libraries that were read so far. -/
def homes (p : Project) (s : Search) (pending : List Task) : List Disk.Identity :=
  disk.identity p.dir :: (s.libraries ++ waiting pending).map (home disk)

/-- What is known in the middle of a search, with tasks still to do. -/
structure Walk (p : Project) (s : Search) (pending : List Task) : Prop where
  due : ∀ t ∈ pending, t.Due disk p
  nested : pending.Pairwise (Task.Inside disk)
  reached : ∀ l ∈ s.libraries, TransGen (References disk) p l.project
  distinct : (homes disk p s pending).Nodup
  met : ∀ i ∈ homes disk p s pending, i ∈ s.visited
  known : ∀ i ∈ s.visited, i ∈ homes disk p s pending ∨ Unreadable disk i
  /-- Whatever a waiting library names was found before or is still to be looked for. -/
  ahead : ∀ l ∈ waiting pending, ∀ dir ∈ l.project.items .buildLibs,
    (∃ base, .visit base l.project dir ∈ pending) ∨
      ∀ f, Search.locate disk l.project dir = some f → Search.place disk f.file ∈ s.visited

end

/-- Do the first of the tasks that are still to do. -/
def Search.next (disk : Disk) : Search × List Task → Option (Search × List Task)
  | (_, []) => none
  | (s, .add l :: rest) => some ({ s with libraries := s.libraries ++ [l] }, rest)
  | (s, .visit base user dir :: rest) =>
    match locate disk user dir with
    | none => some (s.report (.notFound (Path.join base dir)), rest)
    | some f =>
      if place disk f.file ∈ s.visited then some (s, rest)
      else
        let entering := enter disk (s.mark disk f) (libraryDir base dir f) f
        some (entering.1, entering.2 ++ rest)

variable {disk : Disk} {p q r user : Project} {s : Search} {pending rest : List Task}
  {l m : Library}
  {f g : Project.Found} {base dir : Text} {i : Disk.Identity}

/-- What a step can do: add the library whose turn it is, or visit a directory, where there is no
project, or one that was visited before, or one to enter. -/
inductive Search.Step (disk : Disk) (s : Search) : List Task → Search → List Task → Prop where
  | add (l : Library) (rest : List Task) :
      Step disk s (.add l :: rest) { s with libraries := s.libraries ++ [l] } rest
  | nowhere {base : Text} {user : Project} {dir : Text} {rest : List Task}
      (none : locate disk user dir = none) :
      Step disk s (.visit base user dir :: rest) (s.report (.notFound (Path.join base dir))) rest
  | known {base : Text} {user : Project} {dir : Text} {rest : List Task} {f : Project.Found}
      (found : locate disk user dir = some f) (known : place disk f.file ∈ s.visited) :
      Step disk s (.visit base user dir :: rest) s rest
  | enter {base : Text} {user : Project} {dir : Text} {rest : List Task} {f : Project.Found}
      (found : locate disk user dir = some f) (fresh : place disk f.file ∉ s.visited) :
      Step disk s (.visit base user dir :: rest)
        (enter disk (s.mark disk f) (libraryDir base dir f) f).1
        ((enter disk (s.mark disk f) (libraryDir base dir f) f).2 ++ rest)

theorem Search.step_of_next {t : Search} {more : List Task}
    (step : (t, more) ∈ Search.next disk (s, pending)) : Search.Step disk s pending t more := by
  unfold Search.next at step
  split at step
  · cases step
  · rename_i same
    cases same
    cases step
    exact .add _ _
  · rename_i same
    cases same
    split at step
    · rename_i none
      cases step
      exact .nowhere none
    · rename_i found
      split at step <;> cases step
      · rename_i known
        exact .known found known
      · rename_i fresh
        exact .enter found fresh

/-- The search comes to its end, whatever the projects name. -/
theorem Search.reaches_run (disk : Disk) (s : Search) (pending : List Task) :
    Reaches (Search.next disk) (s, pending) (Search.run disk s pending, []) := by
  fun_induction Search.run disk s pending with
  | case1 s => exact .refl
  | case2 s l rest ih => exact .head rfl ih
  | case3 s base user dir rest none ih =>
    refine .head ?_ ih
    simp [Search.next, none]
  | case4 s base user dir rest f found known ih =>
    refine .head ?_ ih
    simp [Search.next, found, known]
  | case5 s base user dir rest f found fresh entering ih =>
    refine .head ?_ ih
    simp [Search.next, found, fresh, entering]

/-- A search is over after as many steps as leave nothing to do. -/
theorem search_eq_advance {disk : Disk} {p : Project} (n : Nat)
    (done : ((Steps.advance (Search.next disk))^[n]
      (Search.start disk p, Search.visits [] p)).2 = []) :
    search disk p = ((Steps.advance (Search.next disk))^[n]
      (Search.start disk p, Search.visits [] p)).1 := by
  have ended (x : Search × List Task) (none : x.2 = []) : Search.next disk x = .none := by
    rw [← Prod.eta x, none]
    rfl
  exact congrArg Prod.fst
    (Steps.eq_advance (Search.reaches_run disk _ _) rfl n (ended _ done))

/-! ### Where projects are found -/

theorem isName_projectFileName : Path.IsName projectFileName :=
  ⟨by decide, by decide, by decide, List.all_iff_forall_prop.1 (by decide)⟩

/-- A project is found in the directory that is named, or in a usual one inside it. -/
theorem Search.exists_place (filled : dir ≠ []) (found : Search.locate disk user dir = some f) :
    ∃ place, place ≠ [] ∧ f.file = Pathname.join place projectFileName ∧
      disk.file? f.file = some f.address ∧
      (f.inner = [] ∧ place = Pathname.join user.dir dir ∨
        f.inner ∈ Project.usualDirectories ∧
          place = Pathname.join (Pathname.join user.dir dir) f.inner) := by
  have named : Pathname.join user.dir dir ≠ [] := by
    unfold Pathname.join
    repeat' split
    all_goals simp [filled]
  have findIn {inner place : Text} (h : Project.findIn disk inner place = some f) :
      f.inner = inner ∧ f.file = Pathname.join place projectFileName ∧
        disk.file? f.file = some f.address := by
    unfold Project.findIn at h
    obtain ⟨a, there, rfl⟩ := Option.map_eq_some_iff.1 h
    exact ⟨rfl, rfl, there⟩
  unfold Search.locate Project.locate at found
  split at found
  · rename_i here
    obtain ⟨inner, file, address⟩ := findIn (here.trans found)
    exact ⟨_, named, file, address, .inl ⟨inner, rfl⟩⟩
  · obtain ⟨sub, usual, there⟩ := List.exists_of_findSome?_eq_some found
    obtain ⟨rfl, file, address⟩ := findIn there
    exact ⟨_, Pathname.join_ne_nil named _, file, address, .inr ⟨usual, rfl⟩⟩

/-- The directory of a project that was found can be opened, and the file lies in it. -/
theorem Search.directory_of_locate (filled : dir ≠ [])
    (found : Search.locate disk user dir = some f) :
    disk.Rests (Pathname.directory f.file) ∧ '\x00' ∉ Pathname.directory f.file ∧
      f.address = disk.destination (Pathname.directory f.file) ++ [projectFileName] := by
  obtain ⟨place, some, file, address, -⟩ := Search.exists_place filled found
  rw [file] at address ⊢
  obtain ⟨led, rests, free⟩ := Disk.directory_of_file? isName_projectFileName address
  exact ⟨rests, free, by rw [Disk.destination_directory_join some isName_projectFileName, led]⟩

/-- A project that is referred to lies where its file was found. -/
theorem References.exists_found (h : References disk q r) :
    ∃ (dir : Text) (f : Project.Found), dir ≠ [] ∧ Search.locate disk q dir = some f ∧
      (Project.read disk f.file).result = .ok r ∧ r.dir = Pathname.directory f.file := by
  obtain ⟨dir, item, f, found, read⟩ := h
  exact ⟨dir, f, Project.ne_nil_of_mem_items item, found, read, (Project.exists_of_read read).2⟩

@[simp] theorem waiting_add : waiting (.add l :: rest) = l :: waiting rest := rfl

@[simp] theorem waiting_visits_append (base : Text) (user : Project) (rest : List Task) :
    waiting (Search.visits base user ++ rest) = waiting rest := by
  simp [waiting, Search.visits, List.filterMap_map]

theorem homes_begin (disk : Disk) (p : Project) (s : Search) (f : Project.Found) (l : Library)
    (rest : List Task) :
    (homes disk p (s.mark disk f) (Search.visits l.dir l.project ++ .add l :: rest)).Perm
      (home disk l :: homes disk p s rest) := by
  rw [homes, waiting_visits_append, waiting_add]
  exact ((List.perm_middle.map _).cons _).trans (.swap ..)

/-- A visit is over once what it looks for was visited, or is nowhere. -/
theorem Walk.skip (h : Walk disk p s (.visit base user dir :: rest))
    (done : ∀ f, Search.locate disk user dir = some f → Search.place disk f.file ∈ s.visited)
    (problems : List Problem) : Walk disk p { s with problems := problems } rest where
  due t member := h.due t (List.mem_cons_of_mem _ member)
  nested := (List.pairwise_cons.1 h.nested).2
  reached := h.reached
  distinct := h.distinct
  met := h.met
  known := h.known
  ahead l member dir' item := by
    rcases h.ahead l member dir' item with ⟨base', visit⟩ | found
    · rcases List.mem_cons.1 visit with same | later
      · cases same
        exact .inr done
      · exact .inl ⟨base', later⟩
    · exact .inr found

theorem Walk.add (h : Walk disk p s (.add l :: rest)) :
    Walk disk p { s with libraries := s.libraries ++ [l] } rest := by
  have moved : homes disk p { s with libraries := s.libraries ++ [l] } rest =
      homes disk p s (.add l :: rest) := by
    rw [homes, homes, waiting_add, List.append_assoc, List.singleton_append]
  constructor
  case due => exact fun t member => h.due t (List.mem_cons_of_mem _ member)
  case nested => exact (List.pairwise_cons.1 h.nested).2
  case reached =>
    intro m member
    rcases List.mem_append.1 member with before | last
    · exact h.reached m before
    · rw [List.mem_singleton.1 last]
      exact h.due _ List.mem_cons_self
  case distinct => exact moved ▸ h.distinct
  case met => exact moved ▸ h.met
  case known => exact moved ▸ h.known
  case ahead =>
    intro m member dir item
    rcases h.ahead m (List.mem_cons_of_mem _ member) dir item with ⟨base, visit⟩ | found
    · rcases List.mem_cons.1 visit with same | later
      · cases same
      · exact .inl ⟨base, later⟩
    · exact .inr found

/-- What the walk says depends on nothing but the directories and libraries so far. -/
theorem Walk.of_eq {t : Search} (h : Walk disk p s pending) (visited : t.visited = s.visited)
    (libraries : t.libraries = s.libraries) : Walk disk p t pending := by
  have same : homes disk p t pending = homes disk p s pending := by rw [homes, homes, libraries]
  constructor
  case due => exact h.due
  case nested => exact h.nested
  case reached => exact libraries ▸ h.reached
  case distinct => exact same ▸ h.distinct
  case met => exact same ▸ visited ▸ h.met
  case known => exact same ▸ visited ▸ h.known
  case ahead => exact visited ▸ h.ahead

/-- Once a directory is visited, those that wait for it need not look for it any more. -/
theorem Walk.step_ahead (h : Walk disk p s (.visit base user dir :: rest))
    (found : Search.locate disk user dir = some f) :
    ∀ l ∈ waiting rest, ∀ d ∈ l.project.items .buildLibs,
      (∃ b, .visit b l.project d ∈ rest) ∨
        ∀ g, Search.locate disk l.project d = some g →
          Search.place disk g.file ∈ (s.mark disk f).visited := by
  intro l member d item
  rcases h.ahead l member d item with ⟨b, visit⟩ | before
  · rcases List.mem_cons.1 visit with same | later
    · cases same
      refine .inr fun g there => ?_
      rw [Option.some.inj (there.symm.trans found)]
      exact List.mem_cons_self
    · exact .inl ⟨b, later⟩
  · exact .inr fun g there => List.mem_cons_of_mem _ (before g there)

/-- A directory whose project cannot be read brings nothing. -/
theorem Walk.refuse (h : Walk disk p s (.visit base user dir :: rest)) (filled : dir ≠ [])
    (found : Search.locate disk user dir = some f)
    (unread : ∀ r, (Project.read disk f.file).result ≠ .ok r) :
    Walk disk p (s.mark disk f) rest where
  due t member := h.due t (List.mem_cons_of_mem _ member)
  nested := (List.pairwise_cons.1 h.nested).2
  reached := h.reached
  distinct := h.distinct
  met i member := List.mem_cons_of_mem _ (h.met i member)
  known i member := by
    rcases List.mem_cons.1 member with rfl | before
    · exact .inr ⟨user, dir, f, filled, found, rfl, unread⟩
    · exact h.known i before
  ahead := h.step_ahead found

/-- A library that can be read waits for those it names. -/
theorem Walk.begin (h : Walk disk p s (.visit base user dir :: rest))
    (found : Search.locate disk user dir = some f)
    (fresh : Search.place disk f.file ∉ s.visited)
    (read : (Project.read disk f.file).result = .ok q) (seen : Text) :
    Walk disk p (s.mark disk f) (Search.visits seen q ++ .add ⟨seen, q⟩ :: rest) := by
  obtain ⟨inside, rests⟩ := List.pairwise_cons.1 h.nested
  obtain ⟨reached, item⟩ := h.due _ List.mem_cons_self
  have named : References disk user q := ⟨dir, item, f, found, read⟩
  have read_at : home disk ⟨seen, q⟩ = Search.place disk f.file := by
    rw [home, (Project.exists_of_read read).2, Search.place]
  have homes := homes_begin disk p s f ⟨seen, q⟩ rest
  rw [read_at] at homes
  constructor
  case due =>
    intro t member
    rcases List.mem_append.1 member with visit | member
    · obtain ⟨d, item, rfl⟩ := List.mem_map.1 visit
      exact ⟨reached.tail named, item⟩
    · rcases List.mem_cons.1 member with rfl | later
      · exact .tail' reached named
      · exact h.due t (List.mem_cons_of_mem _ later)
  case nested =>
    refine List.pairwise_append.2 ⟨?_, List.pairwise_cons.2 ⟨?_, rests⟩, ?_⟩
    · exact List.pairwise_map.2 (List.pairwise_of_forall fun _ _ => .refl)
    · exact fun t later => .tail' (inside t later) named
    · intro t visit u member
      obtain ⟨d, -, rfl⟩ := List.mem_map.1 visit
      rcases List.mem_cons.1 member with rfl | later
      · exact .refl
      · exact (inside u later).tail named
  case reached => exact h.reached
  case distinct =>
    rw [homes.nodup_iff, List.nodup_cons]
    exact ⟨fun old => fresh (h.met _ old), h.distinct⟩
  case met =>
    intro i member
    rcases List.mem_cons.1 (homes.mem_iff.1 member) with rfl | old
    · exact List.mem_cons_self
    · exact List.mem_cons_of_mem _ (h.met i old)
  case known =>
    intro i member
    rcases List.mem_cons.1 member with rfl | before
    · exact .inl (homes.mem_iff.2 List.mem_cons_self)
    · exact (h.known i before).imp_left fun old => homes.mem_iff.2 (List.mem_cons_of_mem _ old)
  case ahead =>
    rw [waiting_visits_append, waiting_add]
    intro l member dir' item'
    rcases List.mem_cons.1 member with rfl | later
    · exact .inl ⟨seen, List.mem_append_left _ (List.mem_map.2 ⟨dir', item', rfl⟩)⟩
    · refine (h.step_ahead found l later dir' item').imp_left fun ⟨base', visit⟩ => ?_
      exact ⟨base', List.mem_append_right _ (List.mem_cons_of_mem _ visit)⟩

theorem Walk.enter (h : Walk disk p s (.visit base user dir :: rest))
    (found : Search.locate disk user dir = some f)
    (fresh : Search.place disk f.file ∉ s.visited) (seen : Text) :
    Walk disk p (Search.enter disk (s.mark disk f) seen f).1
      ((Search.enter disk (s.mark disk f) seen f).2 ++ rest) := by
  unfold Search.enter
  dsimp only
  split
  · rename_i e refused
    have filled := Project.ne_nil_of_mem_items (h.due _ List.mem_cons_self).2
    exact (h.refuse filled found fun r read => nomatch refused.symm.trans read).of_eq rfl rfl
  · rename_i q read
    rw [List.append_assoc]
    exact (h.begin found fresh read seen).of_eq rfl rfl

theorem Search.libraries_enter (disk : Disk) (s : Search) (dir : Text) (f : Project.Found) :
    (Search.enter disk s dir f).1.libraries = s.libraries := by
  unfold Search.enter
  dsimp only
  split <;> rfl

end Library

end BuildMatrix
