import BuildMatrix.Ninja.Statement
import Mathlib.Data.List.Nodup

/-! What the statements of a script make, and which rules they declare and use. -/

set_option autoImplicit false

namespace BuildMatrix.Ninja

/-! ### Edges -/

theorem edges_append (ps qs : List Paragraph) : edges (ps ++ qs) = edges ps ++ edges qs := by
  rw [edges, List.flatten_append, List.filterMap_append]
  rfl

theorem edges_map_edge {α : Type} (f : α → Edge) (xs : List α) :
    edges (xs.map fun x => [.edge (f x)]) = xs.map f := by
  induction xs with
  | nil => rfl
  | cons x rest ih =>
    rw [List.map_cons, List.map_cons, ← ih]
    rfl

/-- The edges that run a rule. -/
def edgesOf (r : RuleName) (ps : List Paragraph) : List Edge :=
  (edges ps).filter fun e => e.rule = r

def outputs (ps : List Paragraph) : List Artifact := (edges ps).map Edge.output

theorem output_mem {ps : List Paragraph} {e : Edge} (member : e ∈ edges ps) :
    e.output ∈ outputs ps := List.mem_map_of_mem member

def outputsOf (r : RuleName) (ps : List Paragraph) : List Artifact :=
  (edgesOf r ps).map Edge.output

/-! ### Declarations -/

section

variable {known : List RuleName} {ss before after : List Statement} {e : Edge}

/-- The rules that are declared, in order. -/
def declared (ss : List Statement) : List RuleName :=
  ss.filterMap fun
    | .rule r => some r.name
    | _ => none

theorem declared_append (ss ts : List Statement) :
    declared (ss ++ ts) = declared ss ++ declared ts := List.filterMap_append

theorem declared_map_edge {α : Type} (f : α → Edge) (xs : List α) :
    declared (xs.map fun x => [.edge (f x)]).flatten = [] := by
  induction xs with
  | nil => rfl
  | cons x rest ih => exact ih

/-- No rule is declared again, and edges use rules that are known by then. -/
def InOrder (known : List RuleName) : List Statement → Prop
  | [] => True
  | .rule r :: rest => r.name ∉ known ∧ InOrder (known ++ [r.name]) rest
  | .edge e :: rest => (e.rule = .phony ∨ e.rule ∈ known) ∧ InOrder known rest
  | .comment _ :: rest => InOrder known rest
  | .binding _ _ :: rest => InOrder known rest

theorem inOrder_append (ss ts : List Statement) :
    InOrder known (ss ++ ts) ↔ InOrder known ss ∧ InOrder (known ++ declared ss) ts := by
  -- what is known grows along the list, as it does in the definition
  induction ss generalizing known with
  | nil =>
    change InOrder known ts ↔ True ∧ InOrder (known ++ []) ts
    rw [List.append_nil, true_and]
  | cons s rest ih =>
    cases s with
    | comment t => exact ih
    | binding name value => exact ih
    | edge e =>
      change (_ ∧ InOrder known (rest ++ ts)) ↔ (_ ∧ InOrder known rest) ∧ _
      rw [ih, and_assoc]
      rfl
    | rule r =>
      change (_ ∧ InOrder (known ++ [r.name]) (rest ++ ts)) ↔
        (_ ∧ InOrder (known ++ [r.name]) rest) ∧ InOrder (known ++ r.name :: declared rest) ts
      rw [ih, and_assoc, List.append_assoc]
      rfl

theorem inOrder_map_edge {α : Type} {f : α → Edge} {xs : List α}
    (uses : ∀ x ∈ xs, (f x).rule = .phony ∨ (f x).rule ∈ known) :
    InOrder known (xs.map fun x => [.edge (f x)]).flatten := by
  induction xs with
  | nil => trivial
  | cons x rest ih =>
    obtain ⟨first, others⟩ := List.forall_mem_cons.1 uses
    exact ⟨first, ih others⟩

theorem InOrder.nodup (h : InOrder known ss) (distinct : known.Nodup) :
    (known ++ declared ss).Nodup := by
  induction ss generalizing known with
  | nil =>
    change (known ++ []).Nodup
    rwa [List.append_nil]
  | cons s rest ih =>
    cases s with
    | comment t => exact ih h distinct
    | binding name value => exact ih h distinct
    | edge e => exact ih h.2 distinct
    | rule r =>
      have longer : (known ++ [r.name]).Nodup := List.nodup_append.2
        ⟨distinct, List.nodup_singleton _, by
          intro x member y same
          rw [List.mem_singleton.1 same]
          rintro rfl
          exact h.1 member⟩
      have tail := ih h.2 longer
      rwa [List.append_assoc] at tail

/-- A rule that an edge uses is declared exactly once, and before the edge. -/
theorem InOrder.declared_once (h : InOrder [] (before ++ .edge e :: after))
    (runs : e.rule ≠ .phony) :
    e.rule ∈ declared before ∧ (declared (before ++ .edge e :: after)).count e.rule = 1 := by
  have used : e.rule ∈ declared before := by
    have here := ((inOrder_append before (.edge e :: after)).1 h).2.1
    rw [List.nil_append] at here
    exact here.resolve_left runs
  refine ⟨used, List.count_eq_one_of_mem ?_ ?_⟩
  · exact h.nodup List.nodup_nil
  · rw [declared_append]
    exact List.mem_append_left _ used

end

end BuildMatrix.Ninja
