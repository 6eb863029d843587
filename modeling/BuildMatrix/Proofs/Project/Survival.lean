import BuildMatrix.Proofs.Project.RoundTrip
import Mathlib.Algebra.Group.Nat.Even

/-! Values that survive writing. A value without quotes always does. One with quotes is written as
it stands, and then the quotes must neither enclose it nor let a `#` in it begin a comment, and they
must be closed where a comment follows. For every value and comment that an option can have, this is
exactly when its line is read as that value and that comment again. -/

set_option autoImplicit false

namespace BuildMatrix.Project

open Text Line

variable {a b r t v : Text} {q : Bool} {comment : Option Text}

namespace Line

/-- A text in quotes, and after it nothing or, behind blanks, a `#`. -/
def Enclosed (v : Text) : Prop :=
  ∃ inner after, v = '"' :: (inner ++ '"' :: after) ∧ '"' ∉ inner ∧
    ∀ c ∈ (trimStart after).head?, c = '#'

/-- A value that comes back when it is written with this comment or without one. -/
def Survives (v : Text) (comment : Option Text) : Prop :=
  '"' ∉ v ∨
    ¬ Enclosed v ∧ (∀ a b, v = a ++ '#' :: b → ¬ Even (a.count '"')) ∧
      (comment = none ∨ Even (v.count '"'))

/-! ### Quotes by number -/

theorem quoteAfter_eq_self_iff (q : Bool) (t : Text) :
    quoteAfter q t = q ↔ Even (t.count '"') := by
  induction t generalizing q with
  | nil => simp [quoteAfter]
  | cons c r ih =>
    rw [quoteAfter_cons, quoteStep]
    by_cases quote : c = '"'
    · -- one more quote turns the state around, and the number from even to odd
      rw [if_pos quote, quote, List.count_cons_self, Nat.even_add_one, ← ih (!q)]
      cases q <;> simp
    · rw [if_neg quote, List.count_cons_of_ne quote, ih]

theorem sealed_iff : Sealed q t ↔ ∀ a b, t = a ++ '#' :: b → quoteAfter q a = true := by
  induction t generalizing q with
  | nil => simp [Sealed, cutComment]
  | cons c r ih =>
    rw [sealed_cons, ih]
    constructor
    · rintro ⟨kept, rest⟩ (_ | ⟨d, a⟩) b split
      · obtain ⟨rfl, -⟩ := List.cons.inj split
        simpa [quoteAfter] using kept
      · obtain ⟨rfl, tail⟩ := List.cons.inj split
        exact rest a b tail
    · intro inside
      refine ⟨?_, fun a b split => inside (c :: a) b (congrArg (c :: ·) split)⟩
      rintro ⟨rfl, outside⟩
      have open' : q = true := inside [] r rfl
      rw [open'] at outside
      cases outside

theorem fullyQuoted?_isSome_iff : (fullyQuoted? v).isSome ↔ Enclosed v := by
  have ends (t : Text) : isCommentOrEmpty t = true ↔ ∀ c ∈ t.head?, c = '#' := by
    cases t <;> simp [isCommentOrEmpty]
  constructor
  · intro some
    obtain ⟨⟨inner, rest⟩, found⟩ := Option.isSome_iff_exists.1 some
    obtain ⟨after, split, free, rfl, closes⟩ := fullyQuoted?_eq_some_iff.1 found
    exact ⟨inner, after, split, free, (ends _).1 closes⟩
  · rintro ⟨inner, after, split, free, closes⟩
    exact Option.isSome_iff_exists.2
      ⟨_, fullyQuoted?_eq_some_iff.2 ⟨after, split, free, rfl, (ends _).2 closes⟩⟩

theorem survives_iff : Survives v comment ↔ ('"' ∈ v → Bare v comment) := by
  have enclosed : fullyQuoted? v = none ↔ ¬ Enclosed v := by
    rw [← fullyQuoted?_isSome_iff, Option.not_isSome_iff_eq_none]
  have outside (a : Text) : quoteAfter false a = true ↔ ¬ Even (a.count '"') := by
    rw [← quoteAfter_eq_self_iff false, Bool.not_eq_false]
  have remark : (comment.isSome = true → quoteAfter false v = false) ↔
      comment = none ∨ Even (v.count '"') := by
    rw [quoteAfter_eq_self_iff]
    cases comment <;> simp
  have bare : Bare v comment ↔ ¬ Enclosed v ∧ (∀ a b, v = a ++ '#' :: b → ¬ Even (a.count '"')) ∧
      (comment = none ∨ Even (v.count '"')) := by
    rw [← enclosed, ← remark]
    simp only [← outside]
    rw [← sealed_iff]
    exact ⟨fun h => ⟨h.unquoted, h.closed, h.even⟩, fun ⟨unquoted, closed, even⟩ =>
      ⟨unquoted, closed, even⟩⟩
  rw [Survives, bare, Decidable.imp_iff_not_or]

instance (v : Text) (comment : Option Text) : Decidable (Bare v comment) :=
  decidable_of_iff (fullyQuoted? v = none ∧ (cutComment false v).2 = [] ∧
      (comment.isSome = true → quoteAfter false v = false))
    ⟨fun ⟨unquoted, closed, even⟩ => ⟨unquoted, closed, even⟩,
      fun h => ⟨h.unquoted, h.closed, h.even⟩⟩

instance (v : Text) (comment : Option Text) : Decidable (Survives v comment) :=
  decidable_of_iff _ survives_iff.symm

/-! ### From the line back to the value -/

theorem length_trim_le (t : Text) : (trim t).length ≤ t.length := (trim_isInfix t).length_le

/-- What is cut off as a comment stands behind a value that comes back. -/
theorem sealed_of_trim_cutComment (same : trim (cutComment false (v ++ b)).1 = v) :
    Sealed false v := by
  have closed := sealed_cutComment false (v ++ b)
  rcases List.append_eq_append_iff.1 (cutComment_append false (v ++ b)) with
    ⟨more, split, -⟩ | ⟨more, split, -⟩
  · have short := length_trim_le (cutComment false (v ++ b)).1
    rw [same] at short
    have none : more = [] := by
      have long := congrArg List.length split
      rw [List.length_append] at long
      exact List.eq_nil_of_length_eq_zero (by omega)
    rw [split, none, List.append_nil]
    exact closed
  · rw [split] at closed
    exact closed.left

/-- If the quotes of a value are open, they hide the comment after it. -/
theorem quoteAfter_of_trim_cutComment {x : Text} (blank : Blanks b) (filled : v ≠ [])
    (trimmed : v.Trimmed) (closed : Sealed false v)
    (same : trim (cutComment false (v ++ (b ++ '#' :: x))).1 = v) : quoteAfter false v = false := by
  by_contra odd
  rw [Bool.not_eq_false] at odd
  have noHash : Sealed true b := sealed_of_not_mem (not_mem_blanks blank rfl)
  have inside : quoteAfter true b = true := quoteAfter_of_not_mem (not_mem_blanks blank rfl)
  have taken : (cutComment false (v ++ (b ++ '#' :: x))).1 =
      v ++ b ++ '#' :: (cutComment true x).1 := by
    rw [cutComment_append_sealed closed, odd, cutComment_append_sealed noHash, inside,
      cutComment_cons_kept (by simp), List.append_assoc]
    rfl
  have solid : ∀ c ∈ (v ++ b ++ '#' :: (cutComment true x).1).head?, isBlank c = false := by
    rw [List.append_assoc, List.head?_append_of_ne_nil _ filled]
    exact trimmed.first
  rw [taken, ← trimEnd_eq_trim solid, trimEnd_append_cons _ _ rfl] at same
  have long := congrArg List.length same
  simp at long

/-- A value with quotes comes back only if it is written as it stands and read so. -/
theorem bare_of_valueAndRest (trimmed : v.Trimmed) (quote : '"' ∈ v) (follows : Follows comment b r)
    (same : trim (valueAndRest (v ++ (b ++ r))).1 = v) : Bare v comment := by
  have plain : fullyQuoted? (v ++ (b ++ r)) = none := by
    by_contra some
    obtain ⟨⟨inner, rest⟩, found⟩ := Option.ne_none_iff_exists'.1 some
    obtain ⟨-, -, free, -⟩ := fullyQuoted?_eq_some_iff.1 found
    -- what is read would be the text between two quotes
    rw [valueAndRest, found] at same
    rw [← same] at quote
    exact free (mem_of_mem_trim quote)
  have value : trim (cutComment false (v ++ (b ++ r))).1 = v := by
    rw [valueAndRest, plain] at same
    rwa [(trimmed_trim _).trim_eq] at same
  have closed := sealed_of_trim_cutComment value
  refine ⟨?_, closed, fun commented => ?_⟩
  · by_contra some
    have whole := fullyQuoted?_append_isSome follows.blanks follows.ends
      (Option.isSome_iff_ne_none.2 some)
    rw [plain] at whole
    cases whole
  · obtain ⟨c, rfl⟩ := Option.isSome_iff_exists.1 commented
    obtain ⟨blank, x, rfl⟩ := follows
    exact quoteAfter_of_trim_cutComment blank (List.ne_nil_of_mem quote) trimmed closed value

end Line

/-! ### The line of an option -/

section

variable {p : Project} {k : OptionKey} {s : Setting} {x : Text} {names values : Nat}

theorem storedValue_eq_trim (quote : '"' ∈ storedValue k x) : storedValue k x = trim x := by
  have free : '"' ∉ flagText (isYes x) := by cases isYes x <;> decide
  unfold storedValue at quote ⊢
  split at quote
  · exact absurd quote free
  · rename_i text
    rw [if_neg text]

theorem trimmed_storedValue (k : OptionKey) (x : Text) : (storedValue k x).Trimmed := by
  have flag : Faithful (flagText (isYes x)) none := faithful_flagText _ (by simp)
  unfold storedValue
  split
  · exact flag.trimmed
  · exact trimmed_trim x

theorem lineSetting?_optionLine_eq (names values : Nat) (k : OptionKey) (s : Setting) :
    lineSetting? (trim (optionLine names values k s)) =
      some (k, ⟨storedValue k (valueAndRest (trim (settingText values s))).1,
        Line.comment? (valueAndRest (trim (settingText values s))).2⟩) := by
  rw [lineSetting?, option?_optionLine_eq]
  simp [OptionKey.ofName?_name]

/-- An option line is read as what it was written for exactly if the value survives. -/
theorem lineSetting?_optionLine_iff (stored : s.value = storedValue k x)
    (remarks : ∀ c ∈ s.comment, c.Trimmed ∧ c ≠ []) :
    lineSetting? (trim (optionLine names values k s)) = some (k, s) ↔
      Survives s.value s.comment := by
  have trimmed : s.value.Trimmed := stored ▸ trimmed_storedValue k x
  rw [survives_iff]
  constructor
  · intro read quote
    rw [lineSetting?_optionLine_eq, Option.some.injEq, Prod.mk.injEq] at read
    have value := congrArg Setting.value read.2
    obtain ⟨b, r, follows, -, written⟩ := trim_settingText trimmed remarks values
    dsimp only at value
    -- the value holds a quote, so the key is no flag, and the value was written as it stands
    rw [storedValue_eq_trim (by rwa [value]), written, writtenValue_of_quote quote] at value
    exact bare_of_valueAndRest trimmed quote follows value
  · intro bare
    have faithful : Faithful s.value s.comment := ⟨trimmed, bare, remarks⟩
    have again : storedValue k s.value = s.value := by rw [stored, storedValue_storedValue]
    exact lineSetting?_of_faithful faithful again names values

/-! ### The line in its project -/

/-- The line that sets this option. -/
def Item.lineOf? (k : OptionKey) : Item → Option Text
  | .option line => if (lineSetting? line).map Prod.fst = some k then some line else none
  | _ => none

theorem Item.lineOf?_of_origin {i : Item} (other : i.origin ≠ .options) :
    i.lineOf? k = none := by
  cases i with
  | option line => exact absurd rfl other
  | _ => rfl

/-- The line of each setting of a project sets that option. -/
theorem lineOf?_optionContent (p : Project) (q : OptionKey × Setting) (k : OptionKey) :
    Item.lineOf? k (.option (optionContent p q)) =
      if q.1 = k then some (optionContent p q) else none := by
  rw [Item.lineOf?, optionContent, lineSetting?_optionLine_eq]
  simp

/-- What is commented out is no option line. -/
theorem lineOf?_unrecognized (line : Text) :
    (Item.ofIndented .options (unrecognizedMark ++ line)).bind (Item.lineOf? k) = none := by
  have hash := head?_trim_unrecognized line
  have filled : trim (unrecognizedMark ++ line) ≠ [] := by
    intro empty
    rw [empty] at hash
    cases hash
  rw [Item.ofIndented_eq, if_neg filled, if_pos hash, Option.bind_eq_none_iff]
  intro i here
  obtain ⟨_, -, rfl⟩ := Option.map_eq_some_iff.1 here
  rfl

theorem filterMap_settingList {α : Type} (set : p.settings k = some s)
    (f : OptionKey × Setting → α) :
    p.settingList.filterMap (fun q => if q.1 = k then some (f q) else none) = [f (k, s)] := by
  have once : OptionKey.all.filter (· = k) = [k] := by
    have each : ∀ k ∈ OptionKey.all, OptionKey.all.filter (· = k) = [k] := by decide +kernel
    exact each k (OptionKey.mem_all k)
  have here : ∀ l, ((p.settings l).map fun t => (l, t)).bind
      (fun q => if q.1 = k then some (f q) else none) =
        if decide (l = k) = true then some (f (k, s)) else none := by
    intro l
    by_cases same : l = k
    · rw [same, set]
      simp
    · cases p.settings l <;> simp [same]
  rw [settingList, List.filterMap_filterMap, List.filterMap_congr fun l _ => here l,
    ← List.filterMap_filter, once]
  rfl

/-- A project that is written has one line for each of its options, whatever else it holds. -/
theorem lineOf?_inText_text (unbroken : Unbroken p) (set : p.settings k = some s) :
    (Item.inText p.text).filterMap (Item.lineOf? k) = [optionContent p (k, s)] := by
  have options : Section.options ∈ writtenSections.map Prod.snd := by decide
  have unknown : (p.unrecognized.map (unrecognizedMark ++ ·)).filterMap
      (fun l => (Item.ofIndented .options l).bind (Item.lineOf? k)) = [] := by
    rw [List.filterMap_map, List.filterMap_eq_nil_iff]
    exact fun line _ => lineOf?_unrecognized line
  rw [filterMap_inText_text unbroken options fun _ => Item.lineOf?_of_origin, bodies, optionBodies,
    List.filterMap_append, unknown, List.append_nil, List.filterMap_map,
    ← filterMap_settingList set (optionContent p)]
  refine List.filterMap_congr fun q _ => ?_
  rw [Function.comp_apply, ofIndented_settingLine, Option.bind_some]
  exact lineOf?_optionContent p q k

/-- The one line that a project is written with for an option gives back the value and the comment
exactly if the value survives. -/
theorem reads_back_iff_survives (unbroken : Unbroken p) (set : p.settings k = some s)
    (stored : ∃ x, s.value = storedValue k x) (remarks : ∀ c ∈ s.comment, c.Trimmed ∧ c ≠ []) :
    ∃ line, (Item.inText p.text).filterMap (Item.lineOf? k) = [line] ∧
      (lineSetting? line = some (k, s) ↔ Survives s.value s.comment) := by
  obtain ⟨x, stored⟩ := stored
  exact ⟨_, lineOf?_inText_text unbroken set, lineSetting?_optionLine_iff stored remarks⟩

/-- A project whose name is in quotes, and whose flags hold a quoted `#`. -/
def quotingApp : Project :=
  ((bare "p.yaml").withSetting .project (some ⟨"\"tool\"", none⟩)).withSetting
    (.flags .cflags .common) (some ⟨"-DMARK=\"#1\" -DTOOL", some "the first mark"⟩)

theorem unbroken_quotingApp : Unbroken quotingApp := by
  have lines : ∀ k, ∀ s ∈ quotingApp.settings k, '\n' ∉ s.value ∧ ∀ c ∈ s.comment, '\n' ∉ c := by
    intro k s here
    simp only [quotingApp, withSetting, bare, Option.mem_def] at here
    split at here
    · cases here
      decide
    · split at here <;> cases here
      decide
  refine ⟨fun k s here => (lines k s here).1, fun k s here => (lines k s here).2, ?_, ?_, ?_⟩
  · exact fun _ member => absurd member List.not_mem_nil
  · rintro (_ | _) e member <;> cases member
  · exact fun _ _ member => absurd member List.not_mem_nil

/-- The flags are read back, and the name is not. -/
theorem reads_back_iff_survives_quotingApp :
    (∃ line, (Item.inText quotingApp.text).filterMap (Item.lineOf? (.flags .cflags .common)) =
        [line] ∧ lineSetting? line = some (.flags .cflags .common,
          ⟨"-DMARK=\"#1\" -DTOOL", some "the first mark"⟩)) ∧
      ∃ line, (Item.inText quotingApp.text).filterMap (Item.lineOf? .project) = [line] ∧
        lineSetting? line ≠ some (.project, ⟨"\"tool\"", none⟩) := by
  have remarks : ∀ c ∈ some ("the first mark" : Text), Text.Trimmed c ∧ c ≠ [] := by
    rintro c ⟨⟩
    have same : trim "the first mark" = "the first mark" := by decide
    exact ⟨same ▸ trimmed_trim _, by decide⟩
  have survives : Survives "-DMARK=\"#1\" -DTOOL" (some "the first mark") := by decide
  have enclosed : ¬ Survives "\"tool\"" none := by decide
  obtain ⟨flags, only, kept⟩ := reads_back_iff_survives (k := .flags .cflags .common)
    (s := ⟨"-DMARK=\"#1\" -DTOOL", some "the first mark"⟩) unbroken_quotingApp rfl
    ⟨"-DMARK=\"#1\" -DTOOL", by decide⟩ remarks
  obtain ⟨name, once, lost⟩ := reads_back_iff_survives (k := .project) (s := ⟨"\"tool\"", none⟩)
    unbroken_quotingApp rfl ⟨"\"tool\"", by decide⟩ (fun _ none => nomatch none)
  exact ⟨⟨flags, only, kept.2 survives⟩, name, once, mt lost.1 enclosed⟩

end

end BuildMatrix.Project
