import BuildMatrix.Proofs.Build.Closure
import BuildMatrix.Proofs.Makefile.Reading
import BuildMatrix.Proofs.Ninja.Bindings

/-! The directory for the scripts, as make and ninja read it. The makefile and every script put it
into a line and a slash behind it, and that is where the scripts are if the line keeps the directory
as it is. A line keeps no blanks at its ends, and without a directory the slash is a root. -/

set_option autoImplicit false

namespace BuildMatrix

open Text

namespace Target

theorem isName_suffix (t : Target) : Path.IsName t.suffix := by
  have dot : '.' ∉ t.suffix := not_mem_suffix rfl t
  have filled : t.suffix ≠ [] := List.append_ne_nil_of_left_ne_nil
    (List.append_ne_nil_of_right_ne_nil _ (List.cons_ne_nil _ _)) _
  refine ⟨filled, fun same => ?_, fun same => ?_, fun c member => ?_⟩
  · exact dot (same ▸ (by decide : '.' ∈ ("." : Text)))
  · exact dot (same ▸ (by decide : '.' ∈ (".." : Text)))
  · rw [Bool.eq_false_iff]
    intro separator
    have either : c = '/' ∨ c = '\\' := by simpa [Path.isSeparator] using separator
    rcases either with rfl | rfl
    · exact not_mem_suffix rfl t member
    · exact not_mem_suffix rfl t member

theorem isAbsolute_suffix (t : Target) : Path.isAbsolute t.suffix = false := by
  have each : ∀ t ∈ all, Path.isAbsolute t.suffix = false := by decide
  exact each t t.mem_all

theorem isNameChar_suffix (t : Target) : ∀ c ∈ t.suffix, Ninja.isNameChar c = true :=
  fun c member => Bool.or_eq_true_iff.2 (.inl (t.isLetter_suffix c member))

end Target

namespace Blueprint

open Ninja

variable {b : Blueprint} {t : Target} {ts : List Target} {s : Script} {kind : ExeType}

/-- What stands below the settings. -/
def inner (b : Blueprint) (t : Target) (kind : ExeType) : List Paragraph :=
  b.compileRules t kind ++ b.resources t ++ b.interfaces t ++ b.objectEdges t ++
    b.libraryParagraphs t ++ b.final t kind

theorem paragraphs_eq (b : Blueprint) (t : Target) (kind : ExeType) :
    b.paragraphs t kind = b.settings t ++ b.inner t kind := by
  simp only [paragraphs, inner, List.append_assoc]

theorem isInner_inner (b : Blueprint) (t : Target) (kind : ExeType) :
    ∀ p ∈ b.inner t kind, p.all Statement.isInner = true := by
  rw [← List.all_eq_true]
  have compile : (b.compileRules t kind).all (·.all Statement.isInner) = true := by
    unfold compileRules
    cases b.pch? <;> rfl
  have resources : (b.resources t).all (·.all Statement.isInner) = true := by
    unfold resources
    cases b.project.rcFile <;> rfl
  have interfaces : (b.interfaces t).all (·.all Statement.isInner) = true := by
    unfold interfaces
    cases b.project.idlFiles <;> simp [Statement.isInner]
  have objects : (b.objectEdges t).all (·.all Statement.isInner) = true := by
    unfold objectEdges
    cases b.pch? <;> simp [Statement.isInner]
  have libraries : (b.libraryParagraphs t).all (·.all Statement.isInner) = true := by
    unfold libraryParagraphs
    cases b.libraries <;> simp [Statement.isInner]
  have last : (b.final t kind).all (·.all Statement.isInner) = true := by
    cases kind <;> rfl
  simp only [inner, List.all_append, compile, resources, interfaces, objects, libraries, last,
    Bool.and_self]

/-! ### The lines of the settings -/

theorem not_mem_scriptDir {c : Char} (free : c ∉ b.buildDir) (other : c ≠ '/' ∧ c ≠ '.') :
    c ∉ b.scriptDir := fun member =>
  (Path.mem_of_mem_canonical member).elim other.1 fun member => member.elim other.2 free

/-- The texts of the paragraph that binds the directories. -/
def directoryTexts (b : Blueprint) (t : Target) : List Text :=
  [bindingText ("builddir", b.scriptDir), bindingText ("outdir", ("$builddir/" : Text) ++ t.suffix),
    bindingText ("resout", "$outdir/res")]

theorem single_bindingText {name value : Text} (noFeed : '\n' ∉ name ∧ '\n' ∉ value) :
    Script.Single (bindingText (name, value)) where
  noFeed := by
    rw [bindingText, List.mem_append, List.mem_append, not_or, not_or]
    exact ⟨⟨noFeed.1, by decide⟩, noFeed.2⟩
  filled := by
    rw [trimEnd_bindingText]
    exact List.append_ne_nil_of_right_ne_nil _ (List.cons_ne_nil _ _)

theorem single_directoryTexts (noFeed : '\n' ∉ b.scriptDir) (t : Target) :
    ∀ l ∈ b.directoryTexts t, Script.Single l := by
  have suffix : '\n' ∉ ("$builddir/" : Text) ++ t.suffix := fun member =>
    (List.mem_append.1 member).elim (by decide) fun member =>
      absurd (t.isNameChar_suffix _ member) (by decide)
  refine List.forall_mem_cons.2 ⟨single_bindingText ⟨by decide, noFeed⟩, ?_⟩
  refine List.forall_mem_cons.2 ⟨single_bindingText ⟨by decide, suffix⟩, ?_⟩
  exact List.forall_mem_singleton.2 (single_bindingText ⟨by decide, by decide⟩)

theorem script_settings (b : Blueprint) (t : Target) :
    ∃ before : Script, Ninja.script (b.settings t) = before.pushAll (b.directoryTexts t) := by
  have last : b.settings t = (b.settings t).take 2 ++ [[.binding "builddir" b.scriptDir,
    .binding "outdir" ("$builddir/" ++ t.suffix), .binding "resout" "$outdir/res"]] := rfl
  rw [last, Ninja.script, List.map_append, List.map_singleton, Script.ofParagraphs_concat]
  exact ⟨_, rfl⟩

theorem endsBlank_settings (noFeed : '\n' ∉ b.scriptDir) (t : Target) :
    (Ninja.script (b.settings t)).endsBlank = false := by
  obtain ⟨before, grown⟩ := b.script_settings t
  rw [grown]
  exact Script.endsBlank_pushAll_single (List.cons_ne_nil _ _) (single_directoryTexts noFeed t) _

/-- Whatever stands above them, the last settings bind the directories. -/
theorem outdir_settings (noFeed : '\n' ∉ b.scriptDir) (noDollar : '$' ∉ b.scriptDir) (t : Target) :
    Bindings.ofLines (Ninja.script (b.settings t)).lines "outdir" =
      Path.seen Ninja.isSpace b.scriptDir ++ '/' :: t.suffix := by
  obtain ⟨before, grown⟩ := b.script_settings t
  have lines : (Ninja.script (b.settings t)).lines =
      before.appended ++ (b.directoryTexts t).map trimEnd := by
    rw [Script.lines_of_endsBlank (endsBlank_settings noFeed t), grown,
      Script.pushAll_single (single_directoryTexts noFeed t)]
  rw [lines, Bindings.ofLines_append]
  exact outdir_after noDollar t.isNameChar_suffix _

/-! ### The lines of the script -/

theorem exists_lines_of_script (noFeed : '\n' ∉ b.scriptDir) (built : b.script t = .ok s) :
    ∃ kind rest, b.plan t = .ok (b.settings t ++ b.inner t kind) ∧
      s.lines = (Ninja.script (b.settings t)).lines ++ rest ∧
      ((∀ p ∈ b.inner t kind, ∀ st ∈ p, ∀ l ∈ st.texts, '\n' ∉ l) →
        ∀ l ∈ rest, binding? l = none) := by
  obtain ⟨kind, -, planned, rfl⟩ := exists_kind_of_script built
  have solid := endsBlank_settings noFeed t
  obtain ⟨rest, lines, origin⟩ := Script.exists_lines_pushAll solid
    (((b.inner t kind).map (·.flatMap Statement.texts)).flatMap ([] :: ·))
  have whole : Ninja.script (b.paragraphs t kind) = (Ninja.script (b.settings t)).pushAll
      (((b.inner t kind).map (·.flatMap Statement.texts)).flatMap ([] :: ·)) := by
    rw [paragraphs_eq, Ninja.script, List.map_append, Script.ofParagraphs_append]
    rfl
  refine ⟨kind, rest, b.paragraphs_eq t kind ▸ planned, ?_, fun free l member => ?_⟩
  · rw [whole, lines, Script.lines_of_endsBlank solid]
  · obtain ⟨text, pushed, m, piece, rfl⟩ := origin l member
    obtain ⟨texts, listed, here⟩ := List.mem_flatMap.1 pushed
    obtain ⟨p, planned, rfl⟩ := List.mem_map.1 listed
    rcases List.mem_cons.1 here with rfl | here
    · rw [List.mem_singleton.1 piece]
      rfl
    · obtain ⟨st, stated, here⟩ := List.mem_flatMap.1 here
      rw [List.splitOn_eq_singleton (free p planned st stated text here)] at piece
      rw [List.mem_singleton.1 piece]
      exact binding?_texts (List.all_eq_true.1 (b.isInner_inner t kind p planned) st stated) here

/-! ### Where the scripts are -/

/-- Make gives ninja the script where it was written, and ninja puts the files of a target into the
directory beside it, exactly if the lines that hold the directory keep it as it is. -/
theorem scriptDir_read_iff {dir : Text} (built : b.script t = .ok s)
    (plain : '\n' ∉ b.buildDir ∧ '$' ∉ b.buildDir ∧ '#' ∉ b.buildDir) (member : t ∈ ts)
    (same : Path.canonical dir = b.scriptDir) :
    ((Makefile.ninjaFile? t.makeName (Makefile.script b.project ts dir).lines).map
        Path.canonical = some (b.scriptPath t) ↔ Path.Verbatim Makefile.isSpace b.scriptDir) ∧
    ∃ kind rest, b.plan t = .ok (b.settings t ++ b.inner t kind) ∧
      s.lines = (Ninja.script (b.settings t)).lines ++ rest ∧
      (Path.canonical (Bindings.ofLines (Ninja.script (b.settings t)).lines "outdir") =
        Path.join b.buildDir t.suffix ↔ Path.Verbatim Ninja.isSpace b.scriptDir) ∧
      ((∀ p ∈ b.inner t kind, ∀ st ∈ p, ∀ l ∈ st.texts, '\n' ∉ l) →
        Bindings.ofLines s.lines = Bindings.ofLines (Ninja.script (b.settings t)).lines) := by
  have noFeed : '\n' ∉ b.scriptDir := not_mem_scriptDir plain.1 (by decide)
  have noDollar : '$' ∉ b.scriptDir := not_mem_scriptDir plain.2.1 (by decide)
  have noComment : '#' ∉ b.scriptDir := not_mem_scriptDir plain.2.2 (by decide)
  have normal : Path.canonical b.scriptDir = b.scriptDir := Path.canonical_canonical _
  constructor
  · rw [Makefile.ninjaFile?_script (same ▸ noFeed) (same ▸ noComment) member, Option.map_some,
      Option.some.injEq, same]
    exact Path.canonical_seen_iff normal t.isName_scriptName t.isAbsolute_scriptName rfl
  · obtain ⟨kind, rest, planned, lines, inner⟩ := exists_lines_of_script noFeed built
    refine ⟨kind, rest, planned, lines, ?_, fun noFeeds => ?_⟩
    · rw [outdir_settings noFeed noDollar,
        ← Path.join_canonical b.buildDir t.isName_suffix.1]
      exact Path.canonical_seen_iff normal t.isName_suffix t.isAbsolute_suffix rfl
    · rw [lines, Bindings.ofLines_append, Bindings.foldl_after_of_none (inner noFeeds)]

/-- A DLL with its scripts in some directory. -/
def shapesIn (dir : Text) : Blueprint := { shapesBlueprint with buildDir := dir }

theorem script_shapesIn (dir : Text) (t : Target) :
    (shapesIn dir).script t = .ok (Ninja.script ((shapesIn dir).paragraphs t .dll)) := by
  have checked : check (shapesIn dir).project = .ok .dll := by with_unfolding_all rfl
  exact script_of_check checked t

/-- A directory with blanks inside, outside of the project. -/
theorem scriptDir_read_iff_outside :
    '\n' ∉ (shapesIn "../out put/./x").buildDir ∧ '$' ∉ (shapesIn "../out put/./x").buildDir ∧
      '#' ∉ (shapesIn "../out put/./x").buildDir ∧
    (Makefile.ninjaFile? "gcc" (Makefile.script (shapesIn "../out put/./x").project
      [⟨.gcc, .bits64, .release⟩] "../out put/./x").lines).map Path.canonical =
        some ("../out put/x/gcc_release64.ninja" : Text) ∧
    Path.canonical (Bindings.ofLines (Ninja.script ((shapesIn "../out put/./x").settings
      ⟨.gcc, .bits64, .release⟩)).lines "outdir") = ("../out put/x/gcc_release64" : Text) := by
  have plain : '\n' ∉ (shapesIn "../out put/./x").buildDir ∧
      '$' ∉ (shapesIn "../out put/./x").buildDir ∧
      '#' ∉ (shapesIn "../out put/./x").buildDir := by decide
  have dir : (shapesIn "../out put/./x").scriptDir = "../out put/x" := by decide +kernel
  have same : Path.canonical "../out put/./x" = (shapesIn "../out put/./x").scriptDir := rfl
  have filled : (shapesIn "../out put/./x").scriptDir ≠ [] := by
    rw [dir]
    decide
  have last : ∀ c ∈ (shapesIn "../out put/./x").scriptDir.getLast?, isBlank c = false := by
    rw [dir]
    rintro c ⟨⟩
    rfl
  obtain ⟨made, -, -, -, -, bound, -⟩ := scriptDir_read_iff
    (script_shapesIn "../out put/./x" ⟨.gcc, .bits64, .release⟩) plain
    (List.mem_singleton_self _) same
  refine ⟨plain.1, plain.2.1, plain.2.2, made.2 ⟨filled, ?_, last⟩, bound.2 ⟨filled, ?_, last⟩⟩
  · rw [dir]
    rintro c ⟨⟩
    rfl
  · rw [dir]
    rintro c ⟨⟩
    rfl

/-- Without a directory, everything is looked for below the root; and a blank that a directory
begins with once it is in normal form is lost. -/
theorem scriptDir_misread :
    (∃ s rest, (shapesIn "").script ⟨.gcc, .bits64, .release⟩ = .ok s ∧
      s.lines = (Ninja.script ((shapesIn "").settings ⟨.gcc, .bits64, .release⟩)).lines ++ rest ∧
      Bindings.ofLines (Ninja.script ((shapesIn "").settings ⟨.gcc, .bits64, .release⟩)).lines
        "outdir" = ("/gcc_release64" : Text)) ∧
    Path.join "" (Target.suffix ⟨.gcc, .bits64, .release⟩) = ("gcc_release64" : Text) ∧
    Makefile.ninjaFile? "gcc" (Makefile.script (shapesIn "").project
      [⟨.gcc, .bits64, .release⟩] "").lines = some ("/gcc_release64.ninja" : Text) ∧
    (shapesIn "").scriptPath ⟨.gcc, .bits64, .release⟩ = ("gcc_release64.ninja" : Text) ∧
    Makefile.ninjaFile? "gcc" (Makefile.script (shapesIn "./ x").project
      [⟨.gcc, .bits64, .release⟩] "./ x").lines = some ("x/gcc_release64.ninja" : Text) ∧
    (shapesIn "./ x").scriptPath ⟨.gcc, .bits64, .release⟩ = (" x/gcc_release64.ninja" : Text) := by
  have built := script_shapesIn "" ⟨.gcc, .bits64, .release⟩
  have nowhere {c : Char} : c ∉ (shapesIn "").scriptDir := List.not_mem_nil
  have made (dir : Text) (noFeed : '\n' ∉ Path.canonical dir)
      (noComment : '#' ∉ Path.canonical dir) :=
    Makefile.ninjaFile?_script noFeed noComment
      (List.mem_singleton_self (⟨.gcc, .bits64, .release⟩ : Target)) (shapesIn dir).project
  obtain ⟨-, rest, -, lines, -⟩ := exists_lines_of_script nowhere built
  exact ⟨⟨_, rest, built, lines, outdir_settings nowhere nowhere _⟩, by decide +kernel,
    made "" nowhere nowhere, by decide +kernel, made "./ x" (by decide +kernel) (by decide +kernel),
    by decide +kernel⟩

end Blueprint

end BuildMatrix
