import BuildMatrix.Blueprint
import BuildMatrix.Proofs.Build.Closure
import BuildMatrix.Proofs.Ninja.Reading
import BuildMatrix.Proofs.Path.FileName
import BuildMatrix.Proofs.Project.Coherence
import BuildMatrix.Proofs.Script.Growth

/-! The files that resources depend on, as ninja reads them from a build script. Escaping keeps them
apart whatever their names are, but a script cuts the blanks at the end of each line, and that is
where the last of the files stands. -/

set_option autoImplicit false

namespace BuildMatrix

open Text

/-! ### Statements as lines -/

namespace Ninja

variable {st : Statement} {l : Text}

/-- A statement of one line stands behind what comes before it in the plan. -/
theorem lines_script (before after : List Paragraph) (texts : st.texts = [l])
    (single : Script.Single l) :
    ∃ rest, (script (before ++ [st] :: after)).lines =
      (script before).blank.appended ++ trimEnd l :: rest := by
  have paragraph : [st].flatMap Statement.texts = [l] := by rw [List.flatMap_singleton, texts]
  have lone : ∀ m ∈ [l], Script.Single m := by simpa using single
  have grown : script (before ++ [[st]]) = (script before).blank.pushAll [l] := by
    rw [script, List.map_append, List.map_singleton, paragraph, Script.ofParagraphs_concat]
    rfl
  have whole : script (before ++ [st] :: after) = (script (before ++ [[st]])).pushAll
      ((after.map (·.flatMap Statement.texts)).flatMap ([] :: ·)) := by
    rw [List.append_cons, script, List.map_append, Script.ofParagraphs_append]
    rfl
  obtain ⟨rest, lines, -⟩ := Script.exists_lines_pushAll
    (Script.endsBlank_pushAll_single (List.cons_ne_nil l []) lone (script before).blank)
    ((after.map (·.flatMap Statement.texts)).flatMap ([] :: ·))
  refine ⟨rest, ?_⟩
  rw [whole, grown, lines, Script.pushAll_single lone]
  simp

end Ninja

namespace Project

variable {p : Project} {f : Text}

theorem Reachable.extension_rcFile (h : Reachable p) (has : p.rcFile = some f) :
    Path.extension f = some ("rc" : Text) := by
  obtain ⟨added, debug, consists, -⟩ := h.exists_consists
  rw [consists.rcFile_eq] at has
  exact hasExtension_iff.1 (List.find?_some has)

/-- A resource script does not end in a blank, since its name ends in a letter. -/
theorem Reachable.isBlank_rcFile (h : Reachable p) (has : p.rcFile = some f) :
    ∀ c ∈ f.getLast?, isBlank c = false := by
  intro c last
  have ends := Path.getLast?_of_extension (by decide) (h.extension_rcFile has)
  rw [Option.mem_def.1 last] at ends
  have letter : c.toLower = 'c' := Option.some.inj ends
  rw [Bool.eq_false_iff]
  intro blank
  rw [toLower_of_isBlank blank] at letter
  rw [letter] at blank
  cases blank

end Project

namespace Blueprint

open Ninja

variable {b : Blueprint} {t : Target} {s : Script} {script : Text}

/-- A path that a build line can hold. -/
structure Writable (p : Text) : Prop where
  filled : p ≠ []
  noBar : '|' ∉ p
  noFeed : '\n' ∉ p

/-- The line that stands in a script where the plan has the edge for the resources. -/
def ResourceLine (b : Blueprint) (t : Target) (script : Text) (s : Script) (line : Text) : Prop :=
  ∃ before after rest, b.plan t = .ok (before ++ [.edge (b.resourceEdge t script)] :: after) ∧
    s.lines = (Ninja.script before).blank.appended ++ line :: rest

theorem not_mem_resourceOutput {c : Char} (free : c ∉ script)
    (other : c ∉ (".res" : Text) ∧ c ∉ ("_rc.o" : Text)) : c ∉ (resourceOutput t script).path := by
  rw [resourceOutput, List.mem_append, not_or]
  refine ⟨fun member => free (Path.mem_of_mem_stem member), ?_⟩
  split
  · exact other.1
  · exact other.2

theorem nameable_resourceEdge (own : Writable script)
    (others : ∀ p ∈ b.resourceFiles, Writable p) : (b.resourceEdge t script).Nameable where
  output := by
    refine ⟨?_, not_mem_resourceOutput own.noBar (by decide)⟩
    refine List.append_ne_nil_of_right_ne_nil _ ?_
    split <;> decide
  inputs := by
    rintro a member
    obtain rfl := List.mem_singleton.1 member
    exact ⟨own.filled, own.noBar⟩
  implicit := List.forall_mem_map.2 fun p member =>
    ⟨(others p member).filled, (others p member).noBar⟩

theorem single_resourceEdge (own : Writable script) (others : ∀ p ∈ b.resourceFiles, Writable p) :
    Script.Single (b.resourceEdge t script).line := by
  have nameable : (b.resourceEdge t script).Nameable := nameable_resourceEdge own others
  refine ⟨feed_not_mem_line nameable ?_, ?_⟩
  · refine List.forall_mem_cons.2 ⟨not_mem_resourceOutput own.noFeed (by decide), ?_⟩
    refine List.forall_mem_cons.2 ⟨own.noFeed, List.forall_mem_map.2 fun p member => ?_⟩
    exact (others p member).noFeed
  · rw [trimEnd_line nameable]
    exact List.append_ne_nil_of_left_ne_nil (by decide) _

theorem resourceLine_of_script (built : b.script t = .ok s)
    (has : b.project.rcFile = some script) (own : Writable script)
    (others : ∀ p ∈ b.resourceFiles, Writable p) :
    b.ResourceLine t script s (trimEnd (b.resourceEdge t script).line) := by
  obtain ⟨kind, -, planned, rfl⟩ := exists_kind_of_script built
  have parts : b.paragraphs t kind =
      (b.settings t ++ b.compileRules t kind ++ [[.rule (rcRule b.project t)]]) ++
        [.edge (b.resourceEdge t script)] :: (b.interfaces t ++ b.objectEdges t ++
          b.libraryParagraphs t ++ b.final t kind) := by
    simp [paragraphs, resources, has]
  have texts : (Statement.edge (b.resourceEdge t script)).texts =
      [(b.resourceEdge t script).line] := rfl
  obtain ⟨rest, lines⟩ := lines_script
    (b.settings t ++ b.compileRules t kind ++ [[.rule (rcRule b.project t)]])
    (b.interfaces t ++ b.objectEdges t ++ b.libraryParagraphs t ++ b.final t kind)
    texts (single_resourceEdge own others)
  exact ⟨_, _, rest, parts ▸ planned, parts ▸ lines⟩

theorem lastPath_resourceEdge (b : Blueprint) (t : Target) (script : Text) :
    (b.resourceEdge t script).lastPath = b.resourceFiles.getLast?.getD script := by
  rw [Edge.lastPath, resourceEdge, List.singleton_append, List.getLast?_cons, List.getLast?_map]
  cases b.resourceFiles.getLast? <;> rfl

theorem meaning_resourceEdge (b : Blueprint) (t : Target) (script : Text) (scope : Bindings) :
    (b.resourceEdge t script).meaning scope =
      ⟨[scope "resout" ++ '/' :: (resourceOutput t script).path], "rc", [script],
        b.resourceFiles⟩ := by
  have files : (b.resourceFiles.map Artifact.ofProject).map (Artifact.value scope) =
      b.resourceFiles := by
    rw [List.map_map]
    exact List.map_id b.resourceFiles
  have output : (resourceOutput t script).value scope =
      scope "resout" ++ '/' :: (resourceOutput t script).path := by
    simp [Artifact.value, resourceOutput, Place.pieces, evaluate, Piece.text]
  rw [Edge.meaning, resourceEdge, files, output]
  rfl

/-- The resource script and the files it depends on are read from a build script as they are,
whatever their names are, as long as the last of them does not end in a blank. If it ends in a
space, the line ends in a lone dollar sign and is no build line. -/
theorem resourceFiles_read_iff (reached : Project.Reachable b.project)
    (built : b.script t = .ok s) (has : b.project.rcFile = some script)
    (free : ∀ p ∈ script :: b.resourceFiles, '|' ∉ p ∧ '\n' ∉ p)
    (filled : ∀ p ∈ b.resourceFiles, p ≠ []) :
    ∃ line, b.ResourceLine t script s line ∧ ∀ scope,
      (BuildLine.read scope line = some
          ⟨[scope "resout" ++ '/' :: (resourceOutput t script).path], "rc", [script],
            b.resourceFiles⟩ ↔
        ∀ p ∈ b.resourceFiles.getLast?, ∀ c ∈ p.getLast?, isBlank c = false) ∧
      ((∃ p ∈ b.resourceFiles.getLast?, p.getLast? = some ' ') →
        BuildLine.read scope line = none) := by
  obtain ⟨own, others⟩ := List.forall_mem_cons.1 free
  have some : script ≠ [] := by
    rintro rfl
    cases reached.extension_rcFile has
  have writable : Writable script := ⟨some, own.1, own.2⟩
  have each : ∀ p ∈ b.resourceFiles, Writable p := fun p member =>
    ⟨filled p member, (others p member).1, (others p member).2⟩
  have nameable : (b.resourceEdge t script).Nameable := nameable_resourceEdge writable each
  refine ⟨_, resourceLine_of_script built has writable each, fun scope => ⟨?_, ?_⟩⟩
  · rw [← meaning_resourceEdge, BuildLine.read_trimEnd_iff nameable, lastPath_resourceEdge]
    cases b.resourceFiles.getLast? with
    | none => simpa using reached.isBlank_rcFile has
    | some p => simp
  · rintro ⟨p, last, space⟩
    refine BuildLine.read_trimEnd_eq_none nameable ?_ scope
    rw [lastPath_resourceEdge, Option.mem_def.1 last]
    exact space

/-- An application with icons, the files of which are given. -/
def iconApp (files : List Text) : Blueprint where
  project := ((Project.bare projectFileName).edit (.add .everyBuild "app.rc")).edit
    (.set .project "icons")
  buildDir := "build"
  environment := .empty
  resourceFiles := files
  libraries := []

theorem script_iconApp (files : List Text) (t : Target) :
    (iconApp files).script t = .ok (Ninja.script ((iconApp files).paragraphs t .window)) := by
  have checked : check (iconApp files).project = .ok .window := by with_unfolding_all rfl
  exact script_of_check checked t

theorem reachable_iconApp (files : List Text) : (iconApp files).project.Reachable :=
  ((Project.Reachable.bare projectFileName).edit (.add .everyBuild "app.rc")).edit
    (.set .project "icons")

/-- A list that is read, though its names hold spaces, colons and dollar signs, and one that is
not. -/
theorem resourceFiles_read_iff_iconApp :
    (∃ s, (iconApp [" a b .ico ", "c:$d.h"]).script ⟨.gcc, .bits64, .release⟩ = .ok s ∧
      ∃ line, (iconApp [" a b .ico ", "c:$d.h"]).ResourceLine ⟨.gcc, .bits64, .release⟩ "app.rc" s
          line ∧
        BuildLine.read (fun _ => "out") line =
          some ⟨["out/app_rc.o"], "rc", ["app.rc"], [" a b .ico ", "c:$d.h"]⟩) ∧
    ∃ s, (iconApp ["b.h", "a.h "]).script ⟨.gcc, .bits64, .release⟩ = .ok s ∧
      ∃ line, (iconApp ["b.h", "a.h "]).ResourceLine ⟨.gcc, .bits64, .release⟩ "app.rc" s line ∧
        BuildLine.read (fun _ => "out") line = none := by
  have built := fun files => script_iconApp files ⟨.gcc, .bits64, .release⟩
  obtain ⟨line, here, reading⟩ := resourceFiles_read_iff (reachable_iconApp _)
    (built [" a b .ico ", "c:$d.h"]) rfl (by decide) (by decide)
  obtain ⟨other, there, unread⟩ := resourceFiles_read_iff (reachable_iconApp _)
    (built ["b.h", "a.h "]) rfl (by decide) (by decide)
  exact ⟨⟨_, built _, line, here, (reading _).1.2 (by rintro p ⟨⟩ c ⟨⟩; rfl)⟩,
    ⟨_, built _, other, there, (unread _).2 ⟨"a.h ", rfl, rfl⟩⟩⟩

/-- The space at the end of the last name is gone, and the dollar sign before it is not. -/
theorem resourceLine_unreadable :
    ∃ s, (iconApp ["b.h", "a.h "]).script ⟨.gcc, .bits64, .release⟩ = .ok s ∧
      (iconApp ["b.h", "a.h "]).ResourceLine ⟨.gcc, .bits64, .release⟩ "app.rc" s
        "build $resout/app_rc.o : rc app.rc | b.h a.h$" ∧
      ∀ scope, BuildLine.read scope "build $resout/app_rc.o : rc app.rc | b.h a.h$" = none := by
  have built := script_iconApp ["b.h", "a.h "] ⟨.gcc, .bits64, .release⟩
  have has : (iconApp ["b.h", "a.h "]).project.rcFile = some ("app.rc" : Text) := rfl
  have each : ∀ p ∈ (["b.h", "a.h "] : List Text), p ≠ [] ∧ '|' ∉ p ∧ '\n' ∉ p := by decide
  have line := resourceLine_of_script built has ⟨by decide, by decide, by decide⟩
    fun p member => ⟨(each p member).1, (each p member).2.1, (each p member).2.2⟩
  have text : trimEnd ((iconApp ["b.h", "a.h "]).resourceEdge ⟨.gcc, .bits64, .release⟩
      "app.rc").line = "build $resout/app_rc.o : rc app.rc | b.h a.h$" := by decide
  have lexed : lex .text "$resout/app_rc.o : rc app.rc | b.h a.h$" = none := by decide
  have split : ("build $resout/app_rc.o : rc app.rc | b.h a.h$" : Text) =
      ("build " : Text) ++ ("$resout/app_rc.o : rc app.rc | b.h a.h$" : Text) := by decide
  have unread (scope : Bindings) : BuildLine.read scope
      (("build " : Text) ++ ("$resout/app_rc.o : rc app.rc | b.h a.h$" : Text)) = none := by
    rw [BuildLine.read_build, lexed, Option.bind_none]
  rw [text] at line
  exact ⟨_, built, line, fun scope => (congrArg (BuildLine.read scope) split).trans (unread scope)⟩

end Blueprint

end BuildMatrix
