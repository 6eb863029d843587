import BuildMatrix.Proofs.CommandLine.Generating
import BuildMatrix.Proofs.Path.Written
import BuildMatrix.Proofs.Script.Growth

/-! How make reads the lines of a makefile. A variable has its last value wherever it stands, and a
target has its last recipe. Values are put in as they are, since those without dollar signs stand
for themselves; conditions and definitions of several lines are not read. -/

set_option autoImplicit false

namespace BuildMatrix

open Text

/-! ### Names of targets -/

namespace Target

/-- The characters that names of targets are made of. -/
def isLetter (c : Char) : Bool := c.isAlphanum || c == '_'

variable {t u : Target} {c : Char}

theorem isLetter_suffix (t : Target) : ∀ c ∈ t.suffix, isLetter c = true := by
  have each : all.all (·.suffix.all isLetter) = true := by decide
  exact List.all_eq_true.1 (List.all_eq_true.1 each t t.mem_all)

theorem isLetter_makeName (t : Target) : ∀ c ∈ t.makeName, isLetter c = true := by
  have each : all.all (·.makeName.all isLetter) = true := by decide
  exact List.all_eq_true.1 (List.all_eq_true.1 each t t.mem_all)

theorem makeName_ne (t : Target) : t.makeName ≠ [] ∧ t.makeName ≠ "clean" := by
  have each : ∀ t ∈ all, t.makeName ≠ [] ∧ t.makeName ≠ "clean" := by decide
  exact each t t.mem_all

theorem makeName_injective (same : t.makeName = u.makeName) : t = u := by
  have each : ∀ t ∈ all, ∀ u ∈ all, t.makeName = u.makeName → t = u := by decide
  exact each t t.mem_all u u.mem_all same

theorem not_mem_suffix (other : isLetter c = false) (t : Target) : c ∉ t.suffix := fun member =>
  absurd (t.isLetter_suffix c member) (by simp [other])

theorem not_mem_makeName (other : isLetter c = false) (t : Target) : c ∉ t.makeName :=
  fun member => absurd (t.isLetter_makeName c member) (by simp [other])

end Target

namespace Makefile

def isSpace (c : Char) : Bool := c == ' ' || (0x09 ≤ c.toNat && c.toNat ≤ 0x0D)

def isRecipe (l : Text) : Bool := l.head? == some '\t'

/-- The name and the value that a line defines. A number sign begins a comment. -/
def definition? (line : Text) : Option (Text × Text) :=
  if isRecipe line then none
  else (cutFirst (· == '=') (line.takeWhile (· != '#'))).map fun (name, value) =>
    ((name.dropWhile isSpace).rdropWhile isSpace, value.dropWhile isSpace)

def value (name : Text) (ls : List Text) : Text :=
  ((ls.filterMap definition?).reverse.lookup name).getD []

def isHeader (name l : Text) : Bool := (name ++ ":").isPrefixOf l

/-- The lines of a recipe, which stand below the last header of a target. -/
def recipes (name : Text) (ls : List Text) : List Text :=
  if ls.any (isHeader name) then (ls.rtakeWhile (!isHeader name ·)).takeWhile isRecipe else []

/-- Where a reader is: in text, behind a dollar sign, or in the name of a variable. -/
inductive Mode where
  | text
  | dollar
  | name (n : Text)

def expand (scope : Text → Text) : Mode → Text → Option Text
  | .text, [] => some []
  | .text, c :: r =>
    if c = '$' then expand scope .dollar r else (expand scope .text r).map (c :: ·)
  | .dollar, c :: r =>
    if c = '$' then (expand scope .text r).map ('$' :: ·)
    else if c = '(' then expand scope (.name []) r
    else (expand scope .text r).map (scope [c] ++ ·)
  | .name n, c :: r =>
    if c = ')' then (expand scope .text r).map (scope n ++ ·)
    else expand scope (.name (n ++ [c])) r
  | _, [] => none

/-- The script that a command gives to ninja. -/
def scriptArgument? (command : Text) : Option Text :=
  (("\tninja -f " : Text).isPrefixOf? command).map (·.takeWhile (· ≠ ' '))

/-- The script that ninja is given for a target. -/
def ninjaFile? (name : Text) (ls : List Text) : Option Text :=
  match recipes name ls with
  | [r] => (scriptArgument? r).bind (expand (value · ls) .text)
  | _ => none

variable {name v l : Text} {ls front back : List Text} {scope : Text → Text} {t u : Target}
  {ts : List Target} {p : Project} {dir : Text}

/-! ### Single lines -/

theorem definition?_of_no_equals (plain : '=' ∉ l) : definition? l = none := by
  have before : cutFirst (· == '=') (l.takeWhile (· != '#')) = none :=
    cutFirst_char_eq_none_iff.2 fun member => plain (List.takeWhile_subset _ member)
  rw [definition?, before]
  exact ite_self _

theorem expand_of_no_dollar (plain : '$' ∉ v) : expand scope .text v = some v := by
  induction v with
  | nil => rfl
  | cons c r ih =>
    obtain ⟨first, rest⟩ := not_or.1 (List.mem_cons.not.1 plain)
    rw [expand, if_neg (Ne.symm first), ih rest]
    rfl

theorem expand_directory (plain : '$' ∉ v) :
    expand scope .text ("$(BUILD_DIR)/" ++ v) = some (scope "BUILD_DIR" ++ '/' :: v) := by
  have opened : expand scope .text ("$(BUILD_DIR)/" ++ v) =
      (expand scope .text ('/' :: v)).map (scope "BUILD_DIR" ++ ·) := rfl
  have tail : '$' ∉ '/' :: v := by simpa using plain
  rw [opened, expand_of_no_dollar tail]
  rfl

/-! ### Rows of lines -/

theorem value_eq (here : definition? l = some (name, v))
    (later : ∀ m ∈ back, definition? m = none) : value name (front ++ l :: back) = v := by
  have none : back.filterMap definition? = [] := List.filterMap_eq_nil_iff.2 later
  rw [value, List.filterMap_append, List.filterMap_cons_some here, none, List.reverse_append,
    List.reverse_singleton, List.singleton_append, List.lookup_cons_self]
  rfl

theorem recipes_eq {r : Text} (header : isHeader name l = true) (command : isRecipe r = true)
    (stops : ∀ m ∈ back.head?, isRecipe m = false)
    (later : ∀ m ∈ r :: back, isHeader name m = false) :
    recipes name (front ++ l :: r :: back) = [r] := by
  have found : (front ++ l :: r :: back).any (isHeader name) = true := by simp [header]
  have below : (front ++ l :: r :: back).rtakeWhile (!isHeader name ·) = r :: back := by
    have free : ∀ m ∈ (r :: back).reverse, (!isHeader name m) = true := fun m member => by
      rw [later m (List.mem_reverse.1 member)]
      rfl
    have stop : (l :: front.reverse).takeWhile (!isHeader name ·) = [] :=
      List.takeWhile_cons_of_neg (by simp [header])
    have reversed : (front ++ l :: r :: back).reverse =
        (r :: back).reverse ++ l :: front.reverse := by simp
    rw [List.rtakeWhile, reversed, List.takeWhile_append_of_pos free, stop, List.append_nil,
      List.reverse_reverse]
  have lone : back.takeWhile isRecipe = [] := by
    cases back with
    | nil => rfl
    | cons m ms => exact List.takeWhile_cons_of_neg (by simp [stops m rfl])
  rw [recipes, if_pos found, below, List.takeWhile_cons_of_pos command, lone]

theorem isRecipe_head?_paragraphs (qs : List (List Text)) :
    ∀ m ∈ (qs.flatMap fun q => [] :: q.map trimEnd).head?, isRecipe m = false := by
  cases qs with
  | nil => simp
  | cons q qs =>
    rintro m ⟨⟩
    rfl

/-! ### The makefile of a project -/

def defaultRule (ts : List Target) : List (List Text) :=
  match default? ts with
  | some t => [["all: " ++ t.makeName]]
  | none => []

/-- What stands below the definition of the directory. -/
def rules (ts : List Target) : List (List Text) :=
  defaultRule ts ++ ts.map buildParagraph ++ [cleanParagraph ts, [phonyLine ts]]

def directoryLine (dir : Text) : Text := "BUILD_DIR = " ++ Path.canonical dir

/-- A text that neither ends a line nor defines anything. -/
structure Inert (t : Text) : Prop where
  noFeed : '\n' ∉ t
  noEquals : '=' ∉ t

/-- A line that defines nothing. -/
structure IsRuleLine (l : Text) : Prop extends Inert l where
  solid : ∃ c ∈ l, isBlank c = false

theorem IsRuleLine.single (h : IsRuleLine l) : Script.Single l where
  noFeed := h.noFeed
  filled := by
    obtain ⟨c, member, solid⟩ := h.solid
    obtain ⟨a, b, rfl⟩ := List.append_of_mem member
    rw [trimEnd_append_cons a b solid]
    exact List.append_ne_nil_of_right_ne_nil _ (List.cons_ne_nil _ _)

theorem Inert.append {a b : Text} (h : Inert a) (h' : Inert b) : Inert (a ++ b) where
  noFeed := List.mem_append.not.2 (not_or.2 ⟨h.noFeed, h'.noFeed⟩)
  noEquals := List.mem_append.not.2 (not_or.2 ⟨h.noEquals, h'.noEquals⟩)

theorem inert_spaced (each : ∀ n ∈ ls, Inert n) : Inert (spaced ls) := by
  refine ⟨fun member => ?_, fun member => ?_⟩
  · rcases mem_spaced member with space | ⟨n, listed, here⟩
    · cases space
    · exact (each n listed).noFeed here
  · rcases mem_spaced member with space | ⟨n, listed, here⟩
    · cases space
    · exact (each n listed).noEquals here

theorem inert_makeName (t : Target) : Inert t.makeName :=
  ⟨Target.not_mem_makeName rfl t, Target.not_mem_makeName rfl t⟩

theorem inert_recipe (t : Target) : Inert (recipe t) := by
  have command : Inert "\tninja -f $(BUILD_DIR)/" := ⟨by decide, by decide⟩
  have suffix : Inert t.suffix := ⟨Target.not_mem_suffix rfl t, Target.not_mem_suffix rfl t⟩
  have extension : Inert ".ninja" := ⟨by decide, by decide⟩
  exact command.append (suffix.append extension)

theorem isRuleLine_recipe (t : Target) :
    IsRuleLine (recipe t) ∧ IsRuleLine (recipe t ++ " -t clean") := by
  have clean : Inert " -t clean" := ⟨by decide, by decide⟩
  have inside : 'n' ∈ recipe t := List.mem_append_left _ (by decide)
  exact ⟨⟨inert_recipe t, 'n', inside, rfl⟩,
    ⟨(inert_recipe t).append clean, 'n', List.mem_append_left _ inside, rfl⟩⟩

theorem isRuleLine_phony (ts : List Target) : IsRuleLine (phonyLine ts) := by
  have all : Inert "all" := ⟨by decide, by decide⟩
  have clean : Inert "clean" := ⟨by decide, by decide⟩
  have start : Inert ".PHONY: " := ⟨by decide, by decide⟩
  have names : ∀ n ∈ ("all" : Text) :: ts.map Target.makeName ++ [("clean" : Text)], Inert n := by
    intro n listed
    rcases List.mem_append.1 listed with listed | last
    · rcases List.mem_cons.1 listed with rfl | listed
      · exact all
      · obtain ⟨t, -, rfl⟩ := List.mem_map.1 listed
        exact inert_makeName t
    · rw [List.mem_singleton.1 last]
      exact clean
  exact ⟨start.append (inert_spaced names), '.', List.mem_cons_self, rfl⟩

theorem isRuleLine_defaultRule {q : List Text} (member : q ∈ defaultRule ts) :
    q ≠ [] ∧ ∀ l ∈ q, IsRuleLine l := by
  unfold defaultRule at member
  split at member
  · rename_i t _
    have all : Inert "all: " := ⟨by decide, by decide⟩
    have line : IsRuleLine ("all: " ++ t.makeName) :=
      ⟨all.append (inert_makeName t), 'a', List.mem_cons_self, rfl⟩
    rw [List.mem_singleton.1 member]
    exact ⟨List.cons_ne_nil _ _, List.forall_mem_singleton.2 line⟩
  · cases member

theorem isRuleLine_rules (ts : List Target) :
    ∀ q ∈ rules ts, q ≠ [] ∧ ∀ l ∈ q, IsRuleLine l := by
  have colon : Inert ":" := ⟨by decide, by decide⟩
  have header (t : Target) : IsRuleLine (t.makeName ++ ":") :=
    ⟨(inert_makeName t).append colon, ':', List.mem_append_right _ (by decide), rfl⟩
  have clean : IsRuleLine "clean:" := ⟨⟨by decide, by decide⟩, ':', by decide, rfl⟩
  intro q member
  rcases List.mem_append.1 member with member | last
  · rcases List.mem_append.1 member with first | member
    · exact isRuleLine_defaultRule first
    · obtain ⟨t, -, rfl⟩ := List.mem_map.1 member
      exact ⟨List.cons_ne_nil _ _, List.forall_mem_cons.2
        ⟨header t, List.forall_mem_singleton.2 (isRuleLine_recipe t).1⟩⟩
  · rcases List.mem_cons.1 last with rfl | last
    · refine ⟨List.cons_ne_nil _ _, List.forall_mem_cons.2 ⟨clean, List.forall_mem_map.2 ?_⟩⟩
      exact fun t _ => (isRuleLine_recipe t).2
    · rw [List.mem_singleton.1 last]
      exact ⟨List.cons_ne_nil _ _, List.forall_mem_singleton.2 (isRuleLine_phony ts)⟩

theorem trimEnd_directoryLine (dir : Text) : trimEnd (directoryLine dir) =
    ("BUILD_DIR " : Text) ++ '=' :: trimEnd (' ' :: Path.canonical dir) :=
  trimEnd_append_cons ("BUILD_DIR " : Text) _ rfl

/-- The name of a project stands above the directory, and may be more than a line. -/
theorem exists_lines_script (noFeed : '\n' ∉ Path.canonical dir) (p : Project) (ts : List Target) :
    ∃ front, (script p ts dir).lines = front ++ trimEnd (directoryLine dir) ::
      (rules ts).flatMap fun q => [] :: q.map trimEnd := by
  have single : Script.Single (directoryLine dir) := by
    refine ⟨List.mem_append.not.2 (not_or.2 ⟨by decide, noFeed⟩), ?_⟩
    rw [trimEnd_directoryLine]
    exact List.append_ne_nil_of_right_ne_nil _ (List.cons_ne_nil _ _)
  have lone : ∀ l ∈ [directoryLine dir], Script.Single l := List.forall_mem_singleton.2 single
  have parts : paragraphs p ts dir =
      ([["# " ++ Blueprint.generatedNote, "# " ++ p.name]] ++ [[directoryLine dir]]) ++
        rules ts := by
    rw [paragraphs, rules]
    simp only [List.append_assoc]
    rfl
  have below : ∀ q ∈ rules ts, q ≠ [] ∧ ∀ l ∈ q, Script.Single l := fun q member =>
    (isRuleLine_rules ts q member).imp_right fun each l inside => (each l inside).single
  refine ⟨(Script.ofParagraphs [["# " ++ Blueprint.generatedNote, "# " ++ p.name]]).blank.appended,
    ?_⟩
  rw [script, parts, Script.ofParagraphs_append, Script.ofParagraphs_concat,
    Script.lines_pushAll_paragraphs
      (Script.endsBlank_pushAll_single (List.cons_ne_nil _ _) lone _) below,
    Script.pushAll_single lone]
  simp

/-! ### What make reads in it -/

theorem definition?_directoryLine (plain : '#' ∉ Path.canonical dir) :
    definition? (trimEnd (directoryLine dir)) =
      some (("BUILD_DIR" : Text), Path.seen isSpace (Path.canonical dir)) := by
  have free : '#' ∉ trimEnd (directoryLine dir) := fun member =>
    (List.mem_append.1 (mem_of_mem_trimEnd member)).elim (by decide) plain
  have whole : (trimEnd (directoryLine dir)).takeWhile (· != '#') =
      trimEnd (directoryLine dir) := by
    refine List.takeWhile_eq_self_iff.2 fun c member => ?_
    rw [bne_iff_ne]
    rintro rfl
    exact free member
  have cut : cutFirst (· == '=') (trimEnd (directoryLine dir)) =
      some (("BUILD_DIR " : Text), trimEnd (' ' :: Path.canonical dir)) :=
    cutFirst_char_eq_some_iff.2 ⟨trimEnd_directoryLine dir, by decide⟩
  have line : isRecipe (trimEnd (directoryLine dir)) = false := by
    rw [trimEnd_directoryLine]
    rfl
  have name : (("BUILD_DIR " : Text).dropWhile isSpace).rdropWhile isSpace = "BUILD_DIR" := by
    decide
  rw [definition?, line, whole, cut, Path.seen, ← dropWhile_trimEnd_cons rfl, ← name]
  rfl

theorem value_script (noFeed : '\n' ∉ Path.canonical dir) (plain : '#' ∉ Path.canonical dir)
    (p : Project) (ts : List Target) :
    value "BUILD_DIR" (script p ts dir).lines = Path.seen isSpace (Path.canonical dir) := by
  obtain ⟨front, lines⟩ := exists_lines_script noFeed p ts
  rw [lines]
  refine value_eq (definition?_directoryLine plain) fun m member => ?_
  obtain ⟨q, listed, inside⟩ := List.mem_flatMap.1 member
  rcases List.mem_cons.1 inside with rfl | inside
  · rfl
  · obtain ⟨l, here, rfl⟩ := List.mem_map.1 inside
    exact definition?_of_no_equals fun equals =>
      ((isRuleLine_rules ts q listed).2 l here).noEquals (mem_of_mem_trimEnd equals)

/-- The header of another target begins with another name. -/
theorem isHeader_colon (other : ':' ∉ v) : isHeader name (v ++ ":") = true ↔ name = v := by
  rw [isHeader, List.isPrefixOf_iff_prefix]
  constructor
  · rintro ⟨r, same⟩
    rw [List.append_assoc] at same
    have split : v ++ ':' :: [] = name ++ ':' :: r := same.symm
    exact ((List.append_cons_inj_of_notMem other List.not_mem_nil).1 split).1.symm
  · rintro rfl
    exact List.prefix_rfl

/-- A header begins with a letter. -/
theorem isHeader_of_head? (first : ∀ c ∈ l.head?, Target.isLetter c = false) (t : Target) :
    isHeader t.makeName l = false := by
  obtain ⟨c, n, name⟩ := List.exists_cons_of_ne_nil t.makeName_ne.1
  have letter : Target.isLetter c = true := t.isLetter_makeName c (name ▸ List.mem_cons_self)
  rw [isHeader, name, Bool.eq_false_iff, ne_eq, List.isPrefixOf_iff_prefix]
  rintro ⟨r, rfl⟩
  rw [first c rfl] at letter
  cases letter

theorem isHeader_trimEnd (other : isHeader name l = false) : isHeader name (trimEnd l) = false := by
  rw [Bool.eq_false_iff, ne_eq, isHeader, List.isPrefixOf_iff_prefix] at other ⊢
  exact fun header => other (header.trans (List.rdropWhile_prefix isBlank l))

/-- What stands below the last recipe of a target is not about it. -/
theorem isHeader_below (absent : t ∉ ts) (us : List Target) :
    ∀ l ∈ (ts.map buildParagraph ++ [cleanParagraph us, [phonyLine us]]).flatMap
      fun q => [] :: q.map trimEnd, isHeader t.makeName l = false := by
  have command (u : Target) (r : Text) : isHeader t.makeName (recipe u ++ r) = false :=
    isHeader_of_head? (by rintro c ⟨⟩; rfl) t
  have header {v : Text} (colon : ':' ∉ v) (other : t.makeName ≠ v) :
      isHeader t.makeName (v ++ ":") = false :=
    Bool.eq_false_iff.2 fun same => other ((isHeader_colon colon).1 same)
  intro l member
  obtain ⟨q, listed, inside⟩ := List.mem_flatMap.1 member
  rcases List.mem_cons.1 inside with rfl | inside
  · exact isHeader_of_head? (by simp) t
  obtain ⟨m, here, rfl⟩ := List.mem_map.1 inside
  apply isHeader_trimEnd
  rcases List.mem_append.1 listed with listed | listed
  · obtain ⟨u, among, rfl⟩ := List.mem_map.1 listed
    rcases List.mem_cons.1 here with rfl | here
    · exact header (Target.not_mem_makeName rfl u)
        fun same => absent (Target.makeName_injective same ▸ among)
    · rw [List.mem_singleton.1 here, ← List.append_nil (recipe u)]
      exact command u []
  · rcases List.mem_cons.1 listed with rfl | listed
    · rcases List.mem_cons.1 here with rfl | here
      · exact header (v := "clean") (by decide) t.makeName_ne.2
      · obtain ⟨u, -, rfl⟩ := List.mem_map.1 here
        exact command u _
    · rw [List.mem_singleton.1 listed] at here
      rw [List.mem_singleton.1 here]
      exact isHeader_of_head? (by rintro c ⟨⟩; rfl) t

theorem trimEnd_recipe (t : Target) : trimEnd (recipe t) = recipe t := by
  have text : recipe t = (("\tninja -f $(BUILD_DIR)/" : Text) ++ t.suffix) ++ (".ninja" : Text) :=
    (List.append_assoc ..).symm
  have last : trimEnd (".ninja" : Text) = ".ninja" := by decide
  rw [text, trimEnd_append (c := '.') _ (by decide) rfl, last]

theorem scriptArgument?_recipe (t : Target) :
    scriptArgument? (recipe t) = some (("$(BUILD_DIR)/" : Text) ++ t.scriptName) := by
  have split : recipe t = ("\tninja -f " : Text) ++
      (("$(BUILD_DIR)/" : Text) ++ t.scriptName) := rfl
  have space : ' ' ∉ ("$(BUILD_DIR)/" : Text) ++ t.scriptName := by
    rw [Target.scriptName, List.mem_append, List.mem_append, not_or, not_or]
    exact ⟨by decide, Target.not_mem_suffix rfl t, by decide⟩
  have word : (("$(BUILD_DIR)/" : Text) ++ t.scriptName).takeWhile (· ≠ ' ') =
      ("$(BUILD_DIR)/" : Text) ++ t.scriptName :=
    List.takeWhile_eq_self_iff.2 fun c member => decide_eq_true fun same => space (same ▸ member)
  have argument (r : Text) : scriptArgument? (("\tninja -f " : Text) ++ r) =
      some (r.takeWhile (· ≠ ' ')) := rfl
  rw [split, argument, word]

theorem recipes_script (noFeed : '\n' ∉ Path.canonical dir) (member : t ∈ ts) (p : Project) :
    recipes t.makeName (script p ts dir).lines = [recipe t] := by
  obtain ⟨front, lines⟩ := exists_lines_script noFeed p ts
  -- a target may be listed twice, and its last recipe counts
  obtain ⟨later, earlier, reversed, absent⟩ :=
    List.eq_append_cons_of_mem (List.mem_reverse.2 member)
  have order : ts = earlier.reverse ++ t :: later.reverse := by
    rw [← List.reverse_reverse ts, reversed]
    simp
  have built : ts.map buildParagraph = earlier.reverse.map buildParagraph ++
      buildParagraph t :: later.reverse.map buildParagraph := by
    rw [order, List.map_append, List.map_cons]
  let below := later.reverse.map buildParagraph ++ [cleanParagraph ts, [phonyLine ts]]
  have parts : rules ts = (defaultRule ts ++ earlier.reverse.map buildParagraph) ++
      buildParagraph t :: below := by
    rw [rules, built]
    simp only [below, List.append_assoc, List.cons_append]
  have paragraph : [] :: (buildParagraph t).map trimEnd =
      [[], trimEnd (t.makeName ++ ":"), recipe t] := by
    rw [buildParagraph, List.map_cons, List.map_cons, trimEnd_recipe, List.map_nil]
  have split : (script p ts dir).lines =
      (front ++ trimEnd (directoryLine dir) ::
        (defaultRule ts ++ earlier.reverse.map buildParagraph).flatMap
          (fun q => [] :: q.map trimEnd) ++ [[]]) ++
        trimEnd (t.makeName ++ ":") :: recipe t ::
          below.flatMap fun q => [] :: q.map trimEnd := by
    rw [lines, parts, List.flatMap_append, List.flatMap_cons, paragraph]
    simp only [List.append_assoc, List.cons_append, List.nil_append]
  rw [split]
  have colon : ':' ∉ t.makeName := Target.not_mem_makeName rfl t
  have trimmed : trimEnd (t.makeName ++ ":") = t.makeName ++ ":" :=
    trimEnd_append_cons t.makeName [] rfl
  have header : isHeader t.makeName (trimEnd (t.makeName ++ ":")) = true := by
    rw [trimmed, isHeader_colon colon]
  have command : isHeader t.makeName (recipe t) = false :=
    isHeader_of_head? (by rintro c ⟨⟩; rfl) t
  exact recipes_eq header rfl (isRecipe_head?_paragraphs below) (List.forall_mem_cons.2
    ⟨command, isHeader_below (fun listed => absent (List.mem_reverse.1 listed)) ts⟩)

/-- What ninja is given for a target: what make sees of the directory, and the name of the
script behind it. -/
theorem ninjaFile?_script (noFeed : '\n' ∉ Path.canonical dir)
    (noComment : '#' ∉ Path.canonical dir) (member : t ∈ ts) (p : Project) :
    ninjaFile? t.makeName (script p ts dir).lines =
      some (Path.seen isSpace (Path.canonical dir) ++ '/' :: t.scriptName) := by
  have plain : '$' ∉ t.scriptName :=
    List.mem_append.not.2 (not_or.2 ⟨Target.not_mem_suffix rfl t, by decide⟩)
  rw [ninjaFile?, recipes_script noFeed member p]
  dsimp only
  rw [scriptArgument?_recipe, Option.bind_some, expand_directory plain]
  exact congrArg (fun d => some (d ++ '/' :: t.scriptName)) (value_script noFeed noComment p ts)

end Makefile

end BuildMatrix
