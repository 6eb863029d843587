import BuildMatrix.Blueprint
import BuildMatrix.Proofs.Ninja.Declarations

/-! The plan of a target is complete and closed. Every source is compiled once, all objects go into
the binary, each edge finds its rule declared before it, and what an edge waits for is made by
another edge of the plan. -/

set_option autoImplicit false

namespace BuildMatrix.Blueprint

open Ninja

section

variable (b : Blueprint) (t : Target)

/-! ### The edges of a plan -/

def resourceEdges : List Edge := (b.project.rcFile.map (b.resourceEdge t)).toList

def interfaceEdges : List Edge :=
  b.project.idlFiles.flatMap fun f => [interfaceEdge f, typeLibraryEdge f]

def pchEdges : List Edge := (b.pch?.map (b.pchEdge t)).toList

def compileEdges : List Edge := (b.sources t).map (b.compileEdge t)

def libraryEdges : List Edge :=
  match b.libraries with
  | [] => []
  | libraries => alwaysEdge :: libraries.map (b.libraryEdge t)

def finalEdge (kind : ExeType) : Edge :=
  match kind with
  | .lib => b.archiveEdge t
  | _ => b.linkEdge t

theorem edges_compileRules (kind : ExeType) : edges (b.compileRules t kind) = [] := by
  unfold compileRules
  cases b.pch? <;> rfl

theorem edges_resources : edges (b.resources t) = b.resourceEdges t := by
  unfold resources resourceEdges
  cases b.project.rcFile <;> rfl

theorem edges_interfaces : edges (b.interfaces t) = b.interfaceEdges := by
  have pairs (files : List Text) :
      edges (files.map fun f => [.edge (interfaceEdge f), .edge (typeLibraryEdge f)]) =
        files.flatMap fun f => [interfaceEdge f, typeLibraryEdge f] := by
    induction files with
    | nil => rfl
    | cons f rest ih =>
      rw [List.flatMap_cons, ← ih]
      rfl
  unfold interfaces interfaceEdges
  cases b.project.idlFiles with
  | nil => rfl
  | cons f rest => exact pairs (f :: rest)

theorem edges_objectEdges : edges (b.objectEdges t) = b.pchEdges t ++ b.compileEdges t := by
  unfold objectEdges pchEdges compileEdges
  rw [edges_append, edges_map_edge]
  cases b.pch? <;> rfl

theorem edges_libraryParagraphs : edges (b.libraryParagraphs t) = b.libraryEdges t := by
  unfold libraryParagraphs libraryEdges
  cases b.libraries with
  | nil => rfl
  | cons l rest => exact congrArg (alwaysEdge :: ·) (edges_map_edge (b.libraryEdge t) (l :: rest))

theorem edges_final (kind : ExeType) : edges (b.final t kind) = [b.finalEdge t kind] := by
  cases kind <;> rfl

theorem edges_paragraphs (kind : ExeType) :
    edges (b.paragraphs t kind) = b.resourceEdges t ++ b.interfaceEdges ++ b.pchEdges t ++
      b.compileEdges t ++ b.libraryEdges t ++ [b.finalEdge t kind] := by
  have settings : edges (b.settings t) = [] := rfl
  unfold paragraphs
  simp only [edges_append, settings, edges_compileRules, edges_resources, edges_interfaces,
    edges_objectEdges, edges_libraryParagraphs, edges_final, List.nil_append, List.append_assoc]

/-! ### The edges of a rule -/

theorem rule_resourceEdges : ∀ e ∈ b.resourceEdges t, e.rule = .rc := by
  intro e member
  obtain ⟨script, _, rfl⟩ := Option.map_eq_some_iff.1 (Option.mem_toList.1 member)
  rfl

/-- The rules whose edges make none of the inputs of the last edge. -/
def auxiliary : List RuleName := [.midl, .buildlib, .phony]

theorem rule_interfaceEdges : ∀ e ∈ b.interfaceEdges, e.rule ∈ auxiliary := by
  intro e member
  obtain ⟨f, _, here⟩ := List.mem_flatMap.1 member
  rcases List.mem_pair.1 here with rfl | rfl <;>
    simp [auxiliary, interfaceEdge, typeLibraryEdge]

theorem rule_pchEdges : ∀ e ∈ b.pchEdges t, e.rule = .compilePch := by
  intro e member
  obtain ⟨h, _, rfl⟩ := Option.map_eq_some_iff.1 (Option.mem_toList.1 member)
  rfl

theorem rule_compileEdges : ∀ e ∈ b.compileEdges t, e.rule = .compile := by
  intro e member
  obtain ⟨f, _, rfl⟩ := List.mem_map.1 member
  rfl

theorem mem_libraryEdges {e : Edge} :
    e ∈ b.libraryEdges t ↔
      ∃ l ∈ b.libraries, e = alwaysEdge ∨ e = b.libraryEdge t l := by
  unfold libraryEdges
  cases b.libraries with
  | nil => simp
  | cons l rest =>
    simp only [List.mem_cons, List.mem_map]
    constructor
    · rintro (rfl | ⟨m, member, rfl⟩)
      · exact ⟨l, .inl rfl, .inl rfl⟩
      · exact ⟨m, member, .inr rfl⟩
    · rintro ⟨m, member, rfl | rfl⟩
      · exact .inl rfl
      · exact .inr ⟨m, member, rfl⟩

theorem rule_libraryEdges : ∀ e ∈ b.libraryEdges t, e.rule ∈ auxiliary := by
  intro e member
  obtain ⟨l, _, rfl | rfl⟩ := (b.mem_libraryEdges t).1 member <;>
    simp [auxiliary, alwaysEdge, libraryEdge]

theorem rule_finalEdge (kind : ExeType) :
    (b.finalEdge t kind).rule = if kind = .lib then .lib else .link := by
  cases kind <;> rfl

-- The edges of one kind run one rule, so that a filter by rule keeps all of them or none.
theorem filter_rule {es : List Edge} {r s : RuleName} (same : ∀ e ∈ es, e.rule = r) :
    es.filter (fun e => e.rule = s) = if r = s then es else [] := by
  split
  · rename_i eq
    rw [List.filter_eq_self]
    intro e member
    rw [same e member, eq, decide_eq_true rfl]
  · rename_i ne
    rw [List.filter_eq_nil_iff]
    intro e member
    rwa [same e member, decide_eq_true_iff]

theorem filter_auxiliary {es : List Edge} {r : RuleName} (other : r ∉ auxiliary)
    (same : ∀ e ∈ es, e.rule ∈ auxiliary) : es.filter (fun e => e.rule = r) = [] := by
  rw [List.filter_eq_nil_iff]
  intro e member runs
  rw [← of_decide_eq_true runs] at other
  exact other (same e member)

/-- Every rule that is not auxiliary is run by the edges of one kind. -/
theorem edgesOf_paragraphs (kind : ExeType) {r : RuleName} (other : r ∉ auxiliary) :
    edgesOf r (b.paragraphs t kind) =
      (if .rc = r then b.resourceEdges t else []) ++
      (if .compilePch = r then b.pchEdges t else []) ++
      (if .compile = r then b.compileEdges t else []) ++
      (if (b.finalEdge t kind).rule = r then [b.finalEdge t kind] else []) := by
  rw [edgesOf, edges_paragraphs]
  simp only [List.filter_append, filter_auxiliary other b.rule_interfaceEdges,
    filter_auxiliary other (b.rule_libraryEdges t), List.append_nil,
    filter_rule (b.rule_resourceEdges t), filter_rule (b.rule_pchEdges t),
    filter_rule (b.rule_compileEdges t),
    filter_rule fun e member => congrArg Edge.rule (List.mem_singleton.1 member)]

theorem edgesOf_rc (kind : ExeType) : edgesOf .rc (b.paragraphs t kind) = b.resourceEdges t := by
  rw [edgesOf_paragraphs b t kind (by decide), rule_finalEdge]
  cases kind <;> simp

theorem edgesOf_compilePch (kind : ExeType) :
    edgesOf .compilePch (b.paragraphs t kind) = b.pchEdges t := by
  rw [edgesOf_paragraphs b t kind (by decide), rule_finalEdge]
  cases kind <;> simp

theorem edgesOf_compile (kind : ExeType) :
    edgesOf .compile (b.paragraphs t kind) = b.compileEdges t := by
  rw [edgesOf_paragraphs b t kind (by decide), rule_finalEdge]
  cases kind <;> simp

/-! ### What waits for what -/

theorem mem_edges {kind : ExeType} {e : Edge} :
    e ∈ edges (b.paragraphs t kind) ↔ e ∈ b.resourceEdges t ∨ e ∈ b.interfaceEdges ∨
      e ∈ b.pchEdges t ∨ e ∈ b.compileEdges t ∨ e ∈ b.libraryEdges t ∨ e = b.finalEdge t kind := by
  rw [edges_paragraphs]
  simp only [List.mem_append, List.mem_singleton, or_assoc]

variable {b t} {kind : ExeType} {a : Artifact} {e : Edge}

theorem interfaceHeaders_made (member : a ∈ b.interfaceHeaders) :
    a ∈ outputs (b.paragraphs t kind) := by
  obtain ⟨f, known, rfl⟩ := List.mem_map.1 member
  have here : interfaceEdge f ∈ b.interfaceEdges :=
    List.mem_flatMap.2 ⟨f, known, List.mem_cons_self⟩
  exact output_mem ((b.mem_edges t).2 (.inr (.inl here)))

theorem pchObject_made (object : b.pchObject? t = some a) :
    a ∈ outputs (b.paragraphs t kind) := by
  obtain ⟨h, used, rfl⟩ := Option.map_eq_some_iff.1 object
  have here : b.pchEdge t h ∈ b.pchEdges t := by
    rw [pchEdges, used]
    exact List.mem_singleton_self _
  exact output_mem ((b.mem_edges t).2 (.inr (.inr (.inl here))))

theorem sourceDependencies_made (member : a ∈ b.sourceDependencies t) :
    a ∈ outputs (b.paragraphs t kind) := by
  unfold sourceDependencies at member
  split at member
  · rename_i object eq
    obtain rfl := List.mem_singleton.1 member
    exact pchObject_made eq
  · exact interfaceHeaders_made member

theorem objects_made (member : a ∈ b.objects t) : a ∈ outputs (b.paragraphs t kind) := by
  rcases List.mem_append.1 member with compiled | precompiled
  · obtain ⟨f, source, rfl⟩ := List.mem_map.1 compiled
    have here : b.compileEdge t f ∈ b.compileEdges t := List.mem_map_of_mem source
    exact output_mem ((b.mem_edges t).2 (.inr (.inr (.inr (.inl here)))))
  · exact pchObject_made (Option.mem_toList.1 precompiled)

theorem resourceOutput_made (output : b.resourceOutput? t = some a) :
    a ∈ outputs (b.paragraphs t kind) := by
  obtain ⟨script, used, rfl⟩ := Option.map_eq_some_iff.1 output
  have here : b.resourceEdge t script ∈ b.resourceEdges t := by
    rw [resourceEdges, used]
    exact List.mem_singleton_self _
  exact output_mem ((b.mem_edges t).2 (.inl here))

theorem libraryOutputs_made (member : a ∈ b.libraryOutputs t) :
    a ∈ outputs (b.paragraphs t kind) := by
  obtain ⟨l, known, rfl⟩ := List.mem_map.1 member
  have here : b.libraryEdge t l ∈ b.libraryEdges t :=
    (b.mem_libraryEdges t).2 ⟨l, known, .inr rfl⟩
  exact output_mem ((b.mem_edges t).2 (.inr (.inr (.inr (.inr (.inl here))))))

theorem always_made {l : Library} (known : l ∈ b.libraries) :
    always ∈ outputs (b.paragraphs t kind) := by
  have here : alwaysEdge ∈ b.libraryEdges t := (b.mem_libraryEdges t).2 ⟨l, known, .inl rfl⟩
  exact output_mem ((b.mem_edges t).2 (.inr (.inr (.inr (.inr (.inl here))))))

/-- What an edge waits for is made by the plan, or is a file that was given for resources. -/
theorem implicit_made (member : e ∈ edges (b.paragraphs t kind)) (waits : a ∈ e.implicit) :
    a ∈ outputs (b.paragraphs t kind) ∨ e.rule = .rc ∧ a ∈ b.resourceFiles.map .ofProject := by
  -- one case for each kind of edges, in the order of the plan
  rcases (b.mem_edges t).1 member with here | here | here | here | here | rfl
  · obtain ⟨script, _, rfl⟩ := Option.map_eq_some_iff.1 (Option.mem_toList.1 here)
    exact .inr ⟨rfl, waits⟩
  · obtain ⟨f, _, here⟩ := List.mem_flatMap.1 here
    rcases List.mem_pair.1 here with rfl | rfl <;> cases waits
  · obtain ⟨h, _, rfl⟩ := Option.map_eq_some_iff.1 (Option.mem_toList.1 here)
    exact .inl (interfaceHeaders_made waits)
  · obtain ⟨f, _, rfl⟩ := List.mem_map.1 here
    exact .inl (sourceDependencies_made waits)
  · obtain ⟨l, known, rfl | rfl⟩ := (b.mem_libraryEdges t).1 here
    · cases waits
    · obtain rfl := List.mem_singleton.1 waits
      exact .inl (always_made known)
  · cases kind <;> exact .inl (libraryOutputs_made waits)

/-- The arguments of the last edges and of edges that run nothing are made by the plan, and so is
everything outside the directory of the project. -/
theorem inputs_made (member : e ∈ edges (b.paragraphs t kind)) (argument : a ∈ e.inputs)
    (object : a.place ≠ .project ∨ e.rule ∈ [RuleName.phony, .lib, .link]) :
    a ∈ outputs (b.paragraphs t kind) := by
  -- the other edges read files of the project, which are no objects
  have given {f : Text} {r : RuleName} (own : r ∉ [RuleName.phony, .lib, .link])
      (object : a.place ≠ .project ∨ r ∈ [RuleName.phony, .lib, .link]) :
      a ∉ [Artifact.ofProject f] := by
    intro file
    obtain rfl := List.mem_singleton.1 file
    exact object.elim (fun outside => outside rfl) own
  rcases (b.mem_edges t).1 member with here | here | here | here | here | rfl
  · obtain ⟨script, _, rfl⟩ := Option.map_eq_some_iff.1 (Option.mem_toList.1 here)
    exact absurd argument (given (by simp [resourceEdge]) object)
  · obtain ⟨f, known, here⟩ := List.mem_flatMap.1 here
    rcases List.mem_pair.1 here with rfl | rfl
    · exact absurd argument (given (by simp [interfaceEdge]) object)
    · obtain rfl := List.mem_singleton.1 argument
      exact interfaceHeaders_made (List.mem_map_of_mem known)
  · obtain ⟨h, _, rfl⟩ := Option.map_eq_some_iff.1 (Option.mem_toList.1 here)
    exact absurd argument (given (by simp [pchEdge]) object)
  · obtain ⟨f, _, rfl⟩ := List.mem_map.1 here
    exact absurd argument (given (by simp [compileEdge]) object)
  · obtain ⟨l, _, rfl | rfl⟩ := (b.mem_libraryEdges t).1 here <;> cases argument
  · have linked (argument : a ∈ b.objects t ++ (b.resourceOutput? t).toList) :
        a ∈ outputs (b.paragraphs t kind) := by
      rcases List.mem_append.1 argument with compiled | resource
      · exact objects_made compiled
      · exact resourceOutput_made (Option.mem_toList.1 resource)
    cases kind with
    | lib => exact objects_made argument
    | _ => exact linked argument

/-! ### Declarations come first -/

variable {known : List RuleName}

theorem inOrder_compileRules (kind : ExeType) (fresh : .compilePch ∉ known ∧ .compile ∉ known) :
    InOrder known (b.compileRules t kind).flatten := by
  unfold compileRules
  cases b.pch? with
  | none => exact ⟨fresh.2, trivial⟩
  | some h =>
    refine ⟨fresh.1, ?_, trivial⟩
    intro member
    rcases List.mem_append.1 member with before | same
    · exact fresh.2 before
    · cases List.mem_singleton.1 same

theorem declared_compileRules (b : Blueprint) (t : Target) (kind : ExeType) :
    declared (b.compileRules t kind).flatten =
      (b.pch?.map fun _ => RuleName.compilePch).toList ++ [.compile] := by
  unfold compileRules
  cases b.pch? <;> rfl

theorem inOrder_resources (fresh : .rc ∉ known) : InOrder known (b.resources t).flatten := by
  unfold resources
  cases b.project.rcFile with
  | none => trivial
  | some script => exact ⟨fresh, .inr (List.mem_append_right _ List.mem_cons_self), trivial⟩

theorem declared_resources (b : Blueprint) (t : Target) :
    declared (b.resources t).flatten = (b.project.rcFile.map fun _ => RuleName.rc).toList := by
  unfold resources
  cases b.project.rcFile <;> rfl

theorem inOrder_interfaces (fresh : .midl ∉ known) : InOrder known (b.interfaces t).flatten := by
  have pairs (known : List RuleName) (declared : .midl ∈ known) (files : List Text) :
      InOrder known (files.map fun f =>
        [.edge (interfaceEdge f), .edge (typeLibraryEdge f)]).flatten := by
    induction files with
    | nil => trivial
    | cons f rest ih => exact ⟨.inr declared, .inl rfl, ih⟩
  unfold interfaces
  cases b.project.idlFiles with
  | nil => trivial
  | cons f rest => exact ⟨fresh, pairs _ (List.mem_append_right _ List.mem_cons_self) (f :: rest)⟩

theorem declared_interfaces (b : Blueprint) (t : Target) :
    declared (b.interfaces t).flatten =
      (b.project.idlFiles.head?.map fun _ => RuleName.midl).toList := by
  have pairs (files : List Text) : declared (files.map fun f =>
      [.edge (interfaceEdge f), .edge (typeLibraryEdge f)]).flatten = [] := by
    induction files with
    | nil => rfl
    | cons f rest ih => exact ih
  unfold interfaces
  cases b.project.idlFiles with
  | nil => rfl
  | cons f rest => exact congrArg (.midl :: ·) (pairs (f :: rest))

theorem inOrder_objectEdges (pch : b.pch?.isSome → .compilePch ∈ known)
    (compile : .compile ∈ known) : InOrder known (b.objectEdges t).flatten := by
  have sources : InOrder known ((b.sources t).map fun f => [.edge (b.compileEdge t f)]).flatten :=
    inOrder_map_edge fun f _ => .inr compile
  unfold objectEdges
  cases used : b.pch? with
  | none => exact sources
  | some h => exact ⟨.inr (pch (by rw [used]; rfl)), sources⟩

theorem declared_objectEdges (b : Blueprint) (t : Target) :
    declared (b.objectEdges t).flatten = [] := by
  unfold objectEdges
  cases b.pch? with
  | none => exact declared_map_edge (b.compileEdge t) (b.sources t)
  | some h => exact declared_map_edge (b.compileEdge t) (b.sources t)

theorem inOrder_libraryParagraphs (fresh : .buildlib ∉ known) :
    InOrder known (b.libraryParagraphs t).flatten := by
  unfold libraryParagraphs
  cases b.libraries with
  | nil => trivial
  | cons l rest =>
    refine ⟨fresh, .inl rfl, inOrder_map_edge fun l _ => .inr ?_⟩
    exact List.mem_append_right _ List.mem_cons_self

theorem declared_libraryParagraphs (b : Blueprint) (t : Target) :
    declared (b.libraryParagraphs t).flatten =
      (b.libraries.head?.map fun _ => RuleName.buildlib).toList := by
  unfold libraryParagraphs
  cases b.libraries with
  | nil => rfl
  | cons l rest =>
    exact congrArg (.buildlib :: ·) (declared_map_edge (b.libraryEdge t) (l :: rest))

theorem inOrder_final (kind : ExeType) (fresh : .lib ∉ known ∧ .link ∉ known) :
    InOrder known (b.final t kind).flatten := by
  have last {r : RuleName} : r ∈ known ++ [r] := List.mem_append_right _ List.mem_cons_self
  cases kind with
  | lib => exact ⟨fresh.1, .inr last, trivial⟩
  | _ => exact ⟨fresh.2, .inr last, trivial⟩

theorem inOrder_paragraphs (b : Blueprint) (t : Target) (kind : ExeType) :
    InOrder [] (b.paragraphs t kind).flatten := by
  have settings : declared (b.settings t).flatten = [] := rfl
  have first : InOrder [] (b.settings t).flatten := trivial
  unfold paragraphs
  simp only [List.flatten_append, inOrder_append, declared_append, settings, declared_compileRules,
    declared_resources, declared_interfaces, declared_objectEdges, declared_libraryParagraphs,
    List.nil_append, List.append_nil]
  -- what remains: the sections declare different rules, and those of objects come before objects
  refine ⟨⟨⟨⟨⟨⟨first, inOrder_compileRules kind ?_⟩, inOrder_resources ?_⟩, inOrder_interfaces ?_⟩,
    inOrder_objectEdges ?_ ?_⟩, inOrder_libraryParagraphs ?_⟩, inOrder_final kind ?_⟩
  all_goals simp [Option.isSome_iff_exists]

/-! ### The whole plan -/

/-- A plan that builds a target from all its sources. -/
structure Complete (b : Blueprint) (t : Target) (ps : List Paragraph) : Prop where
  /-- Each source is compiled once, in order, apart from that of the precompiled header. -/
  compiled : (edgesOf .compile ps).map Edge.inputs =
    ((b.project.sourceFiles t.configuration).filter fun f =>
      b.project.pchSource?.all fun source => Path.foldCase f ≠ Path.foldCase source).map
        fun f => [.ofProject f]
  precompiled : (edgesOf .compilePch ps).map Edge.inputs =
    b.project.pchSource?.toList.map fun source => [.ofProject source]
  /-- There is a precompiled header if and only if the project sets one. -/
  precompiledOnce : (edgesOf .compilePch ps).length = if b.project.pchHeader?.isSome then 1 else 0
  resources : (edgesOf .rc ps).map Edge.inputs =
    b.project.rcFile.toList.map fun script => [.ofProject script]
  /-- The last edge makes the binary, and no other edge links or archives. -/
  binary : ∃ e, (edges ps).getLast? = some e ∧ edgesOf .lib ps ++ edgesOf .link ps = [e] ∧
    e.output = .ofProject (b.project.binaryPath t) ∧
    e.rule = if b.project.exeType? = some .lib then .lib else .link
  linked : ∀ e ∈ edgesOf .link ps,
    e.inputs = outputsOf .compile ps ++ outputsOf .compilePch ps ++ outputsOf .rc ps
  archived : ∀ e ∈ edgesOf .lib ps, e.inputs = outputsOf .compile ps ++ outputsOf .compilePch ps
  /-- What an edge waits for is made by the plan, or is a file that was given for resources. -/
  implicit : ∀ e ∈ edges ps, ∀ a ∈ e.implicit,
    a ∈ outputs ps ∨ e.rule = .rc ∧ a ∈ b.resourceFiles.map .ofProject
  /-- The same goes for objects and compiled resources wherever they are an argument, and for all
  arguments of the last edge and of edges that run nothing. -/
  inputs : ∀ e ∈ edges ps, ∀ a ∈ e.inputs,
    a.place ≠ .project ∨ e.rule ∈ [RuleName.phony, .lib, .link] → a ∈ outputs ps
  declared : ∀ before e after, ps.flatten = before ++ .edge e :: after → e.rule ≠ .phony →
    e.rule ∈ Ninja.declared before ∧ (Ninja.declared ps.flatten).count e.rule = 1

theorem isSome_pchSource (p : Project) : p.pchSource?.isSome = p.pchHeader?.isSome := by
  unfold Project.pchSource?
  cases p.pchHeader? with
  | none => rfl
  | some header =>
    dsimp only
    split
    · rfl
    · split <;> rfl

theorem pch?_map_source (b : Blueprint) :
    b.pch?.map PrecompiledHeader.source = b.project.pchSource? := by
  have both := isSome_pchSource b.project
  unfold pch? precompiledHeader?
  cases header : b.project.pchHeader? with
  | none =>
    rw [header] at both
    exact (Option.not_isSome_iff_eq_none.1 (by rw [both]; decide)).symm
  | some h =>
    rw [header] at both
    obtain ⟨source, eq⟩ := Option.isSome_iff_exists.1 both
    rw [eq]
    rfl

theorem outputsOf_compile (b : Blueprint) (t : Target) (kind : ExeType) :
    outputsOf .compile (b.paragraphs t kind) = (b.sources t).map (object t) := by
  rw [outputsOf, edgesOf_compile, compileEdges, List.map_map]
  rfl

theorem outputsOf_compilePch (b : Blueprint) (t : Target) (kind : ExeType) :
    outputsOf .compilePch (b.paragraphs t kind) = (b.pchObject? t).toList := by
  rw [outputsOf, edgesOf_compilePch, pchEdges, pchObject?]
  cases b.pch? <;> rfl

theorem outputsOf_rc (b : Blueprint) (t : Target) (kind : ExeType) :
    outputsOf .rc (b.paragraphs t kind) = (b.resourceOutput? t).toList := by
  rw [outputsOf, edgesOf_rc, resourceEdges, resourceOutput?]
  cases b.project.rcFile <;> rfl

theorem edgesOf_lib (b : Blueprint) (t : Target) (kind : ExeType) :
    edgesOf .lib (b.paragraphs t kind) = if kind = .lib then [b.archiveEdge t] else [] := by
  rw [edgesOf_paragraphs b t kind (by decide), rule_finalEdge]
  cases kind <;> rfl

theorem edgesOf_link (b : Blueprint) (t : Target) (kind : ExeType) :
    edgesOf .link (b.paragraphs t kind) = if kind = .lib then [] else [b.linkEdge t] := by
  rw [edgesOf_paragraphs b t kind (by decide), rule_finalEdge]
  cases kind <;> rfl

theorem sources_eq (b : Blueprint) (t : Target) :
    b.sources t = (b.project.sourceFiles t.configuration).filter fun f =>
      b.project.pchSource?.all fun source => Path.foldCase f ≠ Path.foldCase source := by
  rw [← pch?_map_source]
  unfold sources
  cases b.pch? <;> rfl

theorem complete_paragraphs (b : Blueprint) (t : Target) {kind : ExeType}
    (known : b.project.exeType? = some kind) : b.Complete t (b.paragraphs t kind) where
  compiled := by
    rw [edgesOf_compile, compileEdges, List.map_map, ← sources_eq]
    rfl
  precompiled := by
    rw [edgesOf_compilePch, pchEdges, ← pch?_map_source]
    cases b.pch? <;> rfl
  precompiledOnce := by
    rw [edgesOf_compilePch, pchEdges, ← isSome_pchSource, ← pch?_map_source]
    cases b.pch? <;> rfl
  resources := by
    rw [edgesOf_rc, resourceEdges]
    cases b.project.rcFile <;> rfl
  binary := by
    refine ⟨b.finalEdge t kind, ?_, ?_, ?_, ?_⟩
    · rw [edges_paragraphs, List.getLast?_concat]
    · rw [edgesOf_lib, edgesOf_link]
      cases kind <;> rfl
    · cases kind <;> rfl
    · rw [rule_finalEdge, known]
      simp only [Option.some_inj]
  linked := by
    intro e member
    rw [edgesOf_link, List.mem_ite_nil_left, List.mem_singleton] at member
    rw [member.2, outputsOf_compile, outputsOf_compilePch, outputsOf_rc]
    rfl
  archived := by
    intro e member
    rw [edgesOf_lib, List.mem_ite_nil_right, List.mem_singleton] at member
    rw [member.2, outputsOf_compile, outputsOf_compilePch]
    rfl
  implicit := fun _ member _ waits => implicit_made member waits
  inputs := fun _ member _ argument object => inputs_made member argument object
  declared := by
    intro before e after eq runs
    have order := inOrder_paragraphs b t kind
    rw [eq] at order ⊢
    exact order.declared_once runs

theorem exeType?_of_check {p : Project} {kind : ExeType} (h : check p = .ok kind) :
    p.exeType? = some kind := by
  unfold check at h
  split at h
  · cases h
  · split at h
    · rename_i found
      obtain rfl := Except.ok.inj h
      exact found
    · cases h

theorem plan_of_check {kind : ExeType} (checked : check b.project = .ok kind) (t : Target) :
    b.plan t = .ok (b.paragraphs t kind) := by
  rw [plan, checked]
  rfl

theorem script_of_check {kind : ExeType} (checked : check b.project = .ok kind) (t : Target) :
    b.script t = .ok (Ninja.script (b.paragraphs t kind)) := by
  rw [script, plan_of_check checked]
  rfl

/-- A script is made from the paragraphs for a kind of binary. -/
theorem exists_kind_of_script {s : Script} (h : b.script t = .ok s) :
    ∃ kind, check b.project = .ok kind ∧ b.plan t = .ok (b.paragraphs t kind) ∧
      s = Ninja.script (b.paragraphs t kind) := by
  cases checked : check b.project with
  | error problem =>
    rw [script, plan, checked] at h
    cases h
  | ok kind =>
    rw [script_of_check checked] at h
    exact ⟨kind, rfl, plan_of_check checked t, (Except.ok.inj h).symm⟩

/-- Whenever there is a script, its plan is complete. -/
theorem complete_of_script {s : Script} (h : b.script t = .ok s) :
    ∃ ps, b.plan t = .ok ps ∧ s = Ninja.script ps ∧ b.Complete t ps := by
  obtain ⟨kind, checked, planned, same⟩ := exists_kind_of_script h
  exact ⟨b.paragraphs t kind, planned, same, complete_paragraphs b t (exeType?_of_check checked)⟩

/-- A DLL with a precompiled header, resources, an interface and a library to build first. -/
def shapesBlueprint : Blueprint where
  project :=
    { Project.bare projectFileName with
      settings := fun
        | .project => some ⟨"shapes", none⟩
        | .exeType => some ⟨"dll", none⟩
        | .pch => some ⟨"all.h", none⟩
        | _ => none
      files := ["all.cpp", "circle.cpp", "shapes.rc", "shapes.idl"]
      rcFile := some "shapes.rc"
      idlFiles := ["shapes.idl"] }
  buildDir := "build"
  environment := .empty
  resourceFiles := ["shapes.ico"]
  libraries := [⟨"../math", Project.bare "../math/.srcfiles.yaml"⟩]

theorem complete_of_script_shapesBlueprint :
    ∃ s, shapesBlueprint.script ⟨.msvc, .bits64, .debug⟩ = .ok s ∧
      ∃ ps, shapesBlueprint.plan ⟨.msvc, .bits64, .debug⟩ = .ok ps ∧ s = Ninja.script ps ∧
        shapesBlueprint.Complete ⟨.msvc, .bits64, .debug⟩ ps := by
  have checked : check shapesBlueprint.project = .ok .dll := by with_unfolding_all rfl
  have built := script_of_check checked ⟨.msvc, .bits64, .debug⟩
  exact ⟨_, built, complete_of_script built⟩

end

end BuildMatrix.Blueprint
