import BuildMatrix.Proofs.Project.Sections
import BuildMatrix.Proofs.Project.VersionGate

/-! The version that a project is written with. It stands in the first line, no other line before
the first header asks for one, and it is none that this tool refuses. What is written as a version
is read as that version, and what is read as one is in the notation of versions. -/

set_option autoImplicit false

namespace BuildMatrix.Project

open Text

/-- Written sections begin with an empty line and a header. -/
theorem flatMap_sectionLines_cases {ws : List (Text × Section)}
    (written : ∀ w ∈ ws, w ∈ writtenSections) (body : Text × Section → List Text) :
    ws.flatMap (fun w => sectionLines w.1 (body w)) = [] ∨
      ∃ w ∈ writtenSections, ∃ rest,
        ws.flatMap (fun w => sectionLines w.1 (body w)) = [] :: (w.1 ++ [':']) :: rest := by
  induction ws with
  | nil => exact .inl rfl
  | cons w ws ih =>
    rw [List.flatMap_cons, sectionLines]
    split
    · exact ih fun v member => written v (List.mem_cons_of_mem w member)
    · exact .inr ⟨w, written w List.mem_cons_self, _, rfl⟩

theorem dropReturn_versionHeader (v : Version) :
    dropReturn (Line.versionHeader v) = Line.versionHeader v := by
  rw [dropReturn, getLast?_versionHeader]
  rfl

theorem isHeading_versionHeader (v : Version) : isHeading (Line.versionHeader v) = false := by
  rw [isHeading, trimEnd_eq_self (trimmed_versionHeader v).last, versionHeader_eq]
  rfl

/-- The lines of a written project: its version, and then nothing or an empty line and a header. -/
theorem lines_text_cases (p : Project) :
    Text.lines p.text = [Line.versionHeader p.versionRequired] ∨
      ∃ h rest, Text.lines p.text = Line.versionHeader p.versionRequired :: [] :: h :: rest ∧
        isHeading h = true := by
  have noFeed := noFeed_versionHeader p.versionRequired
  have headers : ∀ w ∈ writtenSections,
      '\n' ∉ w.1 ++ [':'] ∧ isHeading (dropReturn (w.1 ++ [':'])) = true := by
    decide
  rw [Project.text, lines_eq, ofLines_cons, lines_feed noFeed, dropReturn_versionHeader]
  rcases flatMap_sectionLines_cases (fun w member => member) (fun w => p.bodies w.2) with
    none | ⟨w, member, rest, shape⟩
  · rw [none]
    exact .inl rfl
  · obtain ⟨free, heading⟩ := headers w member
    rw [shape, ofLines_cons, lines_feed List.not_mem_nil, ofLines_cons, lines_feed free]
    exact .inr ⟨_, _, rfl, heading⟩

/-- A written project asks for the version it needs, and for no other one. -/
theorem demands_text (p : Project) : demands p.text = [(1, p.versionRequired.text)] := by
  have plain := isHeading_versionHeader p.versionRequired
  have word := versionWord?_versionHeader p.versionRequired
  have empty : isHeading [] = false ∧ Line.versionWord? [] = none := by decide
  rcases lines_text_cases p with only | ⟨h, rest, shape, heading⟩
  · simp [demands, openingLines, Text.numbered, only, plain, word]
  · simp [demands, openingLines, Text.numbered, shape, plain, word, empty, heading]

theorem demanded_text (p : Project) : demanded p.text = [p.versionRequired] := by
  rw [demanded, demands_text]
  simp [Version.ofText?_text]

/-- No option needs a version above that of the tool. -/
theorem not_below_versionRequired (p : Project) : ¬ toolVersion.Below p.versionRequired := by
  rw [← Version.newerThan_iff, newerThan_of_known (versionRequired_mem p)]
  exact Bool.false_ne_true

/-- The texts that are read as versions are those in the notation of versions, and the version is
the one they spell. What a version is written as is read as that version, alone and in the comment
that asks for it. And what is written for a project asks in its first line for a version that is not
above that of the tool, and no other line before a header asks for one. -/
theorem versions_read_written :
    (∀ t v, Version.ofText? t = some v ↔ Version.IsVersion t v) ∧
    (∀ v : Version, Version.ofText? v.text = some v) ∧
    (∀ v, (Line.versionWord? (Line.versionHeader v)).map Version.ofText? = some (some v)) ∧
    ∀ p : Project, (Text.lines p.text).head? = some (Line.versionHeader p.versionRequired) ∧
      demanded p.text = [p.versionRequired] ∧ ¬ toolVersion.Below p.versionRequired := by
  refine ⟨fun t v => Version.ofText?_eq_some_iff, Version.ofText?_text, fun v => ?_, fun p =>
    ⟨?_, demanded_text p, not_below_versionRequired p⟩⟩
  · rw [versionWord?_versionHeader, Option.map_some, Version.ofText?_text]
  · rcases lines_text_cases p with only | ⟨h, rest, shape, -⟩
    · rw [only, List.head?_cons]
    · rw [shape, List.head?_cons]

end BuildMatrix.Project
