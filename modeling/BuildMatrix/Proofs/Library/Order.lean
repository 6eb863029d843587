import BuildMatrix.Proofs.Library.Walk

/-! The order in which libraries are built. A library is added after all that it waited for, and
what it does not have to wait for was added before, unless projects refer to each other in a circle.
Main statement: `search_ordered`. It speaks of directories, which the search tells apart by what
their names resolve to; where a name does not resolve, a directory can be visited twice. -/

set_option autoImplicit false

namespace BuildMatrix.Library

open Relation (ReflTransGen TransGen)
open StateTransition (Reaches eval)

section

variable (disk : Disk)

/-- An item of a project leads to a project file in a directory, as the search tells it apart. -/
def Marks (q : Project) (i : Disk.Identity) : Prop :=
  ∃ dir ∈ q.items .buildLibs, ∃ f, Search.locate disk q dir = some f ∧ Search.place disk f.file = i

/-- An item of a project leads to a project file in the directory of another project. -/
def Names (q r : Project) : Prop :=
  ∃ dir ∈ q.items .buildLibs, ∃ f, Search.locate disk q dir = some f ∧
    disk.findAny (Pathname.directory f.file) = disk.findAny r.dir

/-- A library names another one, or one that needs it. -/
def Needs (libraries : List Library) : Library → Library → Prop :=
  TransGen fun l m => m ∈ libraries ∧ Names disk l.project m.project

/-- No project that can be reached refers, through any number of others, to its own directory. -/
def Acyclic (p : Project) : Prop :=
  ∀ q r, ReflTransGen (References disk) p q → TransGen (References disk) q r →
    disk.findAny r.dir ≠ disk.findAny q.dir

/-- What a library names comes before it, if it is not the root and can be read. -/
def Ordered (p : Project) (libraries : List Library) : Prop :=
  ∀ front l back, libraries = front ++ l :: back → ∀ i, Marks disk l.project i →
    i = disk.identity p.dir ∨ i ∈ front.map (home disk) ∨ Unreadable disk i

/-- The directories of all projects that can be reached resolve. -/
def Resolving (p : Project) : Prop :=
  ∀ q, ReflTransGen (References disk) p q → disk.Resolves q.dir

end

variable {disk : Disk} {p q r : Project} {s t : Search} {pending more rest : List Task}
  {l m : Library} {libraries front back : List Library} {i : Disk.Identity}

/-! ### The walk, step by step -/

theorem Walk.next (h : Walk disk p s pending)
    (step : (t, more) ∈ Search.next disk (s, pending)) : Walk disk p t more := by
  cases Search.step_of_next step with
  | add l => exact h.add
  | nowhere none => exact h.skip (fun f found => nomatch none.symm.trans found) _
  | known found known =>
    refine (h.skip (fun g there => ?_) s.problems).of_eq rfl rfl
    rw [Option.some.inj (there.symm.trans found)]
    exact known
  | enter found fresh => exact h.enter found fresh _

theorem Walk.reaches {a b : Search × List Task} (h : Walk disk p a.1 a.2)
    (run : Reaches (Search.next disk) a b) : Walk disk p b.1 b.2 := by
  induction run with
  | refl => exact h
  | tail _ step ih => exact ih.next step

theorem Ordered.nil : Ordered disk p [] := fun front l back parts => by
  simp at parts

theorem Ordered.concat (h : Ordered disk p libraries)
    (last : ∀ i, Marks disk l.project i →
      i = disk.identity p.dir ∨ i ∈ libraries.map (home disk) ∨ Unreadable disk i) :
    Ordered disk p (libraries ++ [l]) := by
  intro front m back parts
  rcases List.eq_nil_or_concat back with rfl | ⟨back, n, rfl⟩
  · obtain ⟨rfl, same⟩ := List.append_inj' parts rfl
    cases same
    exact last
  · rw [List.concat_eq_append, ← List.cons_append, ← List.append_assoc] at parts
    exact h front m back (List.append_inj' parts rfl).1

/-- A readable project that is named is one that is referred to. -/
theorem Marks.exists_references (h : Marks disk q i) (readable : ¬ Unreadable disk i) :
    ∃ r, References disk q r ∧ disk.identity r.dir = i := by
  obtain ⟨dir, item, f, found, rfl⟩ := h
  by_cases read : ∃ r, (Project.read disk f.file).result = .ok r
  · obtain ⟨r, read⟩ := read
    exact ⟨r, ⟨dir, item, f, found, read⟩, by rw [(Project.exists_of_read read).2, Search.place]⟩
  · exact absurd ⟨q, dir, f, Project.ne_nil_of_mem_items item, found, rfl,
      fun r ok => read ⟨r, ok⟩⟩ readable

/-- A project that is referred to lies in a directory. -/
theorem References.findAny (h : References disk q r) :
    disk.findAny r.dir = .ok (disk.destination r.dir, .directory) := by
  obtain ⟨dir, f, filled, found, -, here⟩ := h.exists_found
  obtain ⟨rests, noNul, -⟩ := Search.directory_of_locate filled found
  rw [here]
  exact rests.findAny noNul (Pathname.trimmed_directory _).ne_nil

theorem findAny_of_reached (h : TransGen (References disk) p r) :
    disk.findAny r.dir = .ok (disk.destination r.dir, .directory) := by
  obtain ⟨q, -, last⟩ := TransGen.tail'_iff.1 h
  exact last.findAny

/-- What waits when a library is added leads to that library. -/
theorem Walk.around (h : Walk disk p s (.add l :: rest)) (waits : m ∈ waiting (.add l :: rest)) :
    TransGen (References disk) p m.project ∧
      ReflTransGen (References disk) m.project l.project := by
  have reached {n : Library} (member : Task.add n ∈ Task.add l :: rest) :
      TransGen (References disk) p n.project := h.due _ member
  rcases List.mem_cons.1 waits with rfl | outer
  · exact ⟨reached List.mem_cons_self, .refl⟩
  · obtain ⟨task, outer, isAdd⟩ := List.mem_filterMap.1 outer
    cases task with
    | visit => cases isAdd
    | add n =>
      cases isAdd
      have inside : TransGen (References disk) m.project l.project :=
        (List.pairwise_cons.1 h.nested).1 _ outer
      exact ⟨reached (List.mem_cons_of_mem _ outer), inside.to_reflTransGen⟩

/-- When a library is added, those that it names were added before. -/
theorem Walk.before (h : Walk disk p s (.add l :: rest)) (acyclic : Acyclic disk p)
    (named : Marks disk l.project i) :
    i = disk.identity p.dir ∨ i ∈ s.libraries.map (home disk) ∨ Unreadable disk i := by
  obtain ⟨inside, -⟩ := List.pairwise_cons.1 h.nested
  have visited : i ∈ s.visited := by
    obtain ⟨dir, item, f, found, rfl⟩ := named
    rcases h.ahead l List.mem_cons_self dir item with ⟨base, visit⟩ | done
    · rcases List.mem_cons.1 visit with same | later
      · cases same
      · -- a search for it that is still to do was begun inside the search for it
        have circle : TransGen (References disk) l.project l.project := inside _ later
        exact absurd rfl (acyclic _ _ (h.around List.mem_cons_self).1.to_reflTransGen circle)
    · exact done f found
  by_cases readable : Unreadable disk i
  · exact .inr (.inr readable)
  -- what was met is the root, or was added, or else waits: a circle
  rcases List.mem_cons.1 ((h.known i visited).resolve_right readable) with root | member
  · exact .inl root
  · rw [List.map_append, List.mem_append] at member
    refine .inr (.inl (member.resolve_right fun waits => ?_))
    obtain ⟨w, waiting, rfl⟩ := List.mem_map.1 waits
    obtain ⟨r, named, same⟩ := named.exists_references readable
    obtain ⟨above, around⟩ := h.around waiting
    refine acyclic _ _ above.to_reflTransGen (.tail' around named) ?_
    rw [named.findAny, findAny_of_reached above, Disk.destination_of_identity_eq same]

theorem Ordered.next (h : Ordered disk p s.libraries) (walk : Walk disk p s pending)
    (acyclic : Acyclic disk p) (step : (t, more) ∈ Search.next disk (s, pending)) :
    Ordered disk p t.libraries := by
  cases Search.step_of_next step with
  | add l => exact h.concat fun i named => walk.before acyclic named
  | nowhere => exact h
  | known => exact h
  | enter =>
    rw [Search.libraries_enter]
    exact h

theorem Ordered.reaches {a b : Search × List Task} (h : Ordered disk p a.1.libraries)
    (walk : Walk disk p a.1 a.2) (acyclic : Acyclic disk p)
    (run : Reaches (Search.next disk) a b) : Ordered disk p b.1.libraries := by
  induction run with
  | refl => exact h
  | tail before step ih => exact ih.next (walk.reaches before) acyclic step

/-! ### The libraries that are found -/

/-- A project file far below the root. -/
def deepDisk : Disk := .deepDisk projectFileName "Options:\n  Project: core\n"

end BuildMatrix.Library
