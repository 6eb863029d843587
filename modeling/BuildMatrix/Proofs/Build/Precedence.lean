import BuildMatrix.Proofs.Build.Closure
import Mathlib.Logic.Relation

/-! What a build waits for. The edges of a plan say which artifacts have to be there before another
one is made. Objects wait for the headers of all interfaces, by way of the precompiled header if
there is one, and the binary waits for all that goes into it and for the libraries. -/

set_option autoImplicit false

namespace BuildMatrix

namespace Ninja

variable {ps : List Paragraph} {e : Edge} {a c : Artifact}

/-- An edge makes `a`, and needs `c` for it. -/
def Needs (ps : List Paragraph) (a c : Artifact) : Prop :=
  ∃ e ∈ edges ps, e.output = a ∧ c ∈ e.inputs ++ e.implicit

/-- Nothing makes `a` before `c` is there, which is needed for it or for something that is. -/
def Awaits (ps : List Paragraph) : Artifact → Artifact → Prop := Relation.TransGen (Needs ps)

theorem awaits_of_input (member : e ∈ edges ps) (argument : c ∈ e.inputs) :
    Awaits ps e.output c :=
  .single ⟨e, member, rfl, List.mem_append_left _ argument⟩

theorem awaits_of_implicit (member : e ∈ edges ps) (waits : c ∈ e.implicit) :
    Awaits ps e.output c :=
  .single ⟨e, member, rfl, List.mem_append_right _ waits⟩

end Ninja

namespace Blueprint

open Ninja

/-- The plan makes nothing too early. -/
structure Ordered (b : Blueprint) (t : Target) (ps : List Paragraph) : Prop where
  /-- Each interface file is made into a header. -/
  interfaces : ∀ f ∈ b.project.idlFiles, ∃ e ∈ edgesOf .midl ps,
    e.inputs = [.ofProject f] ∧ e.output = .ofProject (Path.withExtension f "h")
  objects : ∀ a ∈ outputsOf .compile ps ++ outputsOf .compilePch ps,
    ∀ f ∈ b.project.idlFiles, Awaits ps a (.ofProject (Path.withExtension f "h"))
  precompiled : b.project.pchHeader?.isSome = true → ∃ h, outputsOf .compilePch ps = [h] ∧
    ∀ a ∈ outputsOf .compile ps, Awaits ps a h
  typeLibraries : ∀ f ∈ b.project.idlFiles,
    Awaits ps (.ofProject (Path.withExtension f "tlb")) (.ofProject (Path.withExtension f "h"))
  /-- The last edge is the one that makes the binary. -/
  binary : ∃ e, (edges ps).getLast? = some e ∧ e.output = .ofProject (b.project.binaryPath t) ∧
    (∀ a ∈ outputsOf .compile ps ++ outputsOf .compilePch ps, Awaits ps e.output a) ∧
    (∀ l ∈ b.libraries, Awaits ps e.output (.ofProject (l.binaryPath t))) ∧
    (b.project.exeType? ≠ some .lib → ∀ a ∈ outputsOf .rc ps, Awaits ps e.output a)

section

variable {b : Blueprint} {t : Target} {kind : ExeType} {a : Artifact} {f : Text}

/-! ### Objects -/

theorem awaits_of_sourceDependencies {o : Artifact}
    (compiled : o ∈ outputsOf .compile (b.paragraphs t kind))
    (member : a ∈ b.sourceDependencies t) : Awaits (b.paragraphs t kind) o a := by
  rw [outputsOf_compile] at compiled
  obtain ⟨source, known, rfl⟩ := List.mem_map.1 compiled
  have here : b.compileEdge t source ∈ b.compileEdges t := List.mem_map_of_mem known
  exact awaits_of_implicit ((b.mem_edges t).2 (.inr (.inr (.inr (.inl here))))) member

theorem awaits_of_precompiled {o : Artifact}
    (precompiled : o ∈ outputsOf .compilePch (b.paragraphs t kind))
    (member : a ∈ b.interfaceHeaders) : Awaits (b.paragraphs t kind) o a := by
  rw [outputsOf_compilePch, Option.mem_toList, pchObject?] at precompiled
  obtain ⟨h, used, rfl⟩ := Option.map_eq_some_iff.1 precompiled
  have here : b.pchEdge t h ∈ b.pchEdges t := by
    rw [pchEdges, used]
    exact List.mem_singleton_self _
  exact awaits_of_implicit ((b.mem_edges t).2 (.inr (.inr (.inl here)))) member

/-- Every object waits for the headers of all interfaces. -/
theorem awaits_interfaceHeaders {o : Artifact}
    (object : o ∈ outputsOf .compile (b.paragraphs t kind) ++
      outputsOf .compilePch (b.paragraphs t kind))
    (member : a ∈ b.interfaceHeaders) : Awaits (b.paragraphs t kind) o a := by
  rcases List.mem_append.1 object with compiled | precompiled
  · have waits := fun c => awaits_of_sourceDependencies (a := c) compiled
    unfold sourceDependencies at waits
    cases pch : b.pchObject? t with
    | none =>
      rw [pch] at waits
      exact waits a member
    | some h =>
      -- the headers are awaited by the precompiled header, which all others wait for
      rw [pch] at waits
      have made : h ∈ outputsOf .compilePch (b.paragraphs t kind) := by
        rw [outputsOf_compilePch, pch]
        exact List.mem_singleton_self h
      exact (waits h (List.mem_singleton_self h)).trans (awaits_of_precompiled made member)
  · exact awaits_of_precompiled precompiled member

/-! ### Interfaces -/

theorem interfaceEdges_mem_edges (known : f ∈ b.project.idlFiles) :
    ∀ e ∈ [interfaceEdge f, typeLibraryEdge f], e ∈ edges (b.paragraphs t kind) :=
  fun _ member => (b.mem_edges t).2 (.inr (.inl (List.mem_flatMap.2 ⟨f, known, member⟩)))

/-! ### The binary -/

theorem finalEdge_mem_edges : b.finalEdge t kind ∈ edges (b.paragraphs t kind) :=
  (b.mem_edges t).2 (.inr (.inr (.inr (.inr (.inr rfl)))))

theorem objects_eq : b.objects t =
    outputsOf .compile (b.paragraphs t kind) ++ outputsOf .compilePch (b.paragraphs t kind) := by
  rw [outputsOf_compile, outputsOf_compilePch]
  rfl

theorem objects_subset_inputs : b.objects t ⊆ (b.finalEdge t kind).inputs := by
  cases kind with
  | lib => exact List.Subset.refl _
  | _ => exact List.subset_append_left _ _

theorem libraryOutputs_eq_implicit : (b.finalEdge t kind).implicit = b.libraryOutputs t := by
  cases kind <;> rfl

theorem resourceOutput_mem_inputs (linked : kind ≠ .lib)
    (member : a ∈ outputsOf .rc (b.paragraphs t kind)) : a ∈ (b.finalEdge t kind).inputs := by
  rw [outputsOf_rc] at member
  cases kind with
  | lib => exact absurd rfl linked
  | _ => exact List.mem_append_right _ member

/-! ### The whole plan -/

theorem ordered_paragraphs (b : Blueprint) (t : Target) {kind : ExeType}
    (known : b.project.exeType? = some kind) : b.Ordered t (b.paragraphs t kind) where
  interfaces := by
    intro f member
    have here : ∀ e ∈ [interfaceEdge f, typeLibraryEdge f], e ∈ edges (b.paragraphs t kind) :=
      interfaceEdges_mem_edges member
    refine ⟨interfaceEdge f, ?_, rfl, rfl⟩
    exact List.mem_filter.2 ⟨here _ List.mem_cons_self, rfl⟩
  objects := fun _ object _ member => awaits_interfaceHeaders object (List.mem_map_of_mem member)
  precompiled := by
    intro header
    rw [← isSome_pchSource, ← pch?_map_source, Option.isSome_map] at header
    obtain ⟨h, used⟩ := Option.isSome_iff_exists.1 header
    have made : b.pchObject? t = some (object t h.source) := by
      rw [pchObject?, used]
      rfl
    refine ⟨object t h.source, ?_, fun a compiled => ?_⟩
    · rw [outputsOf_compilePch, made]
      rfl
    · apply awaits_of_sourceDependencies compiled
      rw [sourceDependencies, made]
      exact List.mem_singleton_self _
  typeLibraries := by
    intro f member
    have here : ∀ e ∈ [interfaceEdge f, typeLibraryEdge f], e ∈ edges (b.paragraphs t kind) :=
      interfaceEdges_mem_edges member
    exact awaits_of_input (here (typeLibraryEdge f) (by simp)) (List.mem_singleton_self _)
  binary := by
    have last : b.finalEdge t kind ∈ edges (b.paragraphs t kind) := finalEdge_mem_edges
    refine ⟨b.finalEdge t kind, ?_, ?_, fun a object => ?_, fun l member => ?_,
      fun linked a made => ?_⟩
    · rw [edges_paragraphs, List.getLast?_concat]
    · cases kind <;> rfl
    · rw [← objects_eq] at object
      exact awaits_of_input last (objects_subset_inputs object)
    · apply awaits_of_implicit last
      rw [libraryOutputs_eq_implicit]
      exact List.mem_map_of_mem member
    · rw [known] at linked
      exact awaits_of_input last (resourceOutput_mem_inputs (fun lib => linked (lib ▸ rfl)) made)

/-- Whenever there is a script, its plan makes nothing too early. -/
theorem ordered_of_script {s : Script} (h : b.script t = .ok s) :
    ∃ ps, b.plan t = .ok ps ∧ s = Ninja.script ps ∧ b.Ordered t ps := by
  obtain ⟨kind, checked, planned, same⟩ := exists_kind_of_script h
  exact ⟨b.paragraphs t kind, planned, same, ordered_paragraphs b t (exeType?_of_check checked)⟩

theorem ordered_of_script_shapesBlueprint :
    ∃ s, shapesBlueprint.script ⟨.gcc, .bits32, .release⟩ = .ok s ∧
      ∃ ps, shapesBlueprint.plan ⟨.gcc, .bits32, .release⟩ = .ok ps ∧ s = Ninja.script ps ∧
        shapesBlueprint.Ordered ⟨.gcc, .bits32, .release⟩ ps := by
  have checked : check shapesBlueprint.project = .ok .dll := by with_unfolding_all rfl
  have built := script_of_check checked ⟨.gcc, .bits32, .release⟩
  exact ⟨_, built, ordered_of_script built⟩

end

end Blueprint

end BuildMatrix
