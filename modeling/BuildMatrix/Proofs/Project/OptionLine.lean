import BuildMatrix.Proofs.Project.Items
import BuildMatrix.Proofs.Project.OptionValue
import Mathlib.Data.Bool.AllAny

/-! Written option lines. The name, the value and the comment come back from the line, whatever the
widths of its columns are. -/

set_option autoImplicit false

namespace BuildMatrix

namespace OptionKey

theorem mem_all (k : OptionKey) : k ∈ all := by
  cases k with
  | flags f l => cases f <;> rcases l with _ | _ | _ <;> decide
  | crt c => cases c <;> decide
  | targetDir b => cases b <;> decide
  | build b => cases b <;> decide
  | bitSuffix b => cases b <;> decide
  | _ => decide

theorem name_ne_nil (k : OptionKey) : k.name ≠ [] := by
  have each : ∀ k ∈ all, k.name ≠ [] := by decide
  exact each k (mem_all k)

/-- No name holds a character that ends it, a blank for one. -/
theorem of_mem_name {k : OptionKey} {c : Char} (member : c ∈ k.name) :
    Text.isBlank c = false ∧ c ≠ ':' ∧ c ≠ '=' ∧ c ≠ '#' := by
  have each : ∀ k ∈ all, k.name.all (fun c =>
      Text.isBlank c = false ∧ c ≠ ':' ∧ c ≠ '=' ∧ c ≠ '#') = true := by decide +kernel
  exact List.all_iff_forall_prop.1 (each k (mem_all k)) c member

theorem ofName?_name (k : OptionKey) : ofName? k.name = some k := by
  have each : ∀ k ∈ all, ofName? k.name = some k := by decide +kernel
  exact each k (mem_all k)

theorem name_trimmed (k : OptionKey) : k.name.Trimmed where
  first := fun _ here => (of_mem_name (List.mem_of_mem_head? here)).1
  last := fun _ here => (of_mem_name (List.mem_of_mem_getLast? here)).1

theorem isOptionName_name (k : OptionKey) : Project.Line.isOptionName k.name = true := by
  have blank : k.name.any Text.isBlank = false := by
    simpa using fun c member => (of_mem_name member).1
  have hash : k.name.head? ≠ some '#' := fun here =>
    (of_mem_name (List.mem_of_mem_head? here)).2.2.2 rfl
  simp [Project.Line.isOptionName, blank, hash, name_ne_nil]

end OptionKey

namespace Project

open Text Line

variable {k : OptionKey} {s : Setting} {names values : Nat}

/-- What an option line holds after the name. -/
def settingText (values : Nat) (s : Setting) : Text :=
  match s.comment with
  | some c => alignLeft values (writtenValue s.value) ++ "  # " ++ c
  | none => writtenValue s.value

theorem optionLine_columns (names values : Nat) (k : OptionKey) (s : Setting) :
    optionLine names values k s =
      indent ++ trimEnd (alignLeft names (k.name ++ [':']) ++ ' ' :: settingText values s) := by
  unfold optionLine settingText
  cases s.comment <;> simp

theorem optionLine_eq (names values : Nat) (k : OptionKey) (s : Setting) :
    ∃ b, Blanks b ∧ optionLine names values k s =
      indent ++ (k.name ++ ':' :: trimEnd (b ++ settingText values s)) := by
  obtain ⟨pad, blank, name⟩ := blanks_spaces (k.name ++ [':']) names
  refine ⟨pad ++ [' '], ?_, ?_⟩
  · intro c member
    rcases List.mem_append.1 member with member | member
    · exact blank c member
    · rw [List.mem_singleton.1 member]
      rfl
  · have colon : k.name ++ [':'] ++ pad ++ ' ' :: settingText values s =
        k.name ++ ':' :: (pad ++ [' '] ++ settingText values s) := by simp
    rw [optionLine_columns, name, colon, trimEnd_append_cons _ _ rfl]

theorem trim_optionLine (names values : Nat) (k : OptionKey) (s : Setting) :
    ∃ b, Blanks b ∧ trim (optionLine names values k s) =
      k.name ++ ':' :: trimEnd (b ++ settingText values s) := by
  obtain ⟨b, blank, line⟩ := optionLine_eq names values k s
  refine ⟨b, blank, ?_⟩
  have first : ∀ c ∈ (k.name ++ ':' :: trimEnd (b ++ settingText values s)).head?,
      isBlank c = false := by
    intro c here
    rw [List.head?_append_of_ne_nil _ (OptionKey.name_ne_nil k)] at here
    exact (OptionKey.name_trimmed k).first c here
  rw [line, trim_blanks_append blanks_indent, trim, trimStart_eq_self first,
    trimEnd_append_cons _ _ rfl]
  congr 2
  exact trimEnd_eq_self (isBlank_getLast?_trimEnd _)

/-! ### The value and the comment -/

theorem writtenValue_trimmed (h : s.value.Trimmed) : (writtenValue s.value).Trimmed := by
  unfold writtenValue
  split
  · constructor
    · intro c here
      cases here
      rfl
    · intro c here
      rw [List.getLast?_append] at here
      cases here
      rfl
  · exact h

/-- A comment that is written with a gap before it ends as it does by itself. -/
theorem isBlank_getLast?_remark {c : Text} (trimmed : c.Trimmed) (some : c ≠ []) (a : Text) :
    ∀ d ∈ (a ++ '#' :: ' ' :: c).getLast?, isBlank d = false := by
  intro d here
  apply trimmed.last d
  rw [List.getLast?_append, List.getLast?_cons_cons, List.getLast?_cons_of_ne_nil some] at here
  simpa [List.getLast?_eq_some_getLast some] using here

/-- A value with a comment behind it, once blanks are cut off at both ends. -/
theorem trim_remark {v gap c : Text} (written : v.Trimmed) (blank : Blanks gap)
    (trimmed : c.Trimmed) (some : c ≠ []) :
    ∃ b, Blanks b ∧ trim (v ++ (gap ++ '#' :: ' ' :: c)) = v ++ (b ++ '#' :: ' ' :: c) := by
  have last := isBlank_getLast?_remark trimmed some
  -- without a value the line goes on with the comment, and the gap before it is trimmed
  by_cases empty : v = []
  · refine ⟨[], by simp [Blanks], ?_⟩
    rw [empty, List.nil_append, trim_blanks_append blank]
    exact Trimmed.trim_eq ⟨by simp; rfl, last []⟩
  · refine ⟨gap, blank, Trimmed.trim_eq ⟨fun d here => ?_, ?_⟩⟩
    · rw [List.head?_append_of_ne_nil _ empty] at here
      exact written.first d here
    · rw [← List.append_assoc]
      exact last _

theorem trim_settingText (valueTrimmed : s.value.Trimmed)
    (remarks : ∀ c ∈ s.comment, c.Trimmed ∧ c ≠ []) (values : Nat) :
    ∃ b r, Follows s.comment b r ∧ Line.comment? r = s.comment ∧
      trim (settingText values s) = writtenValue s.value ++ (b ++ r) := by
  have written := writtenValue_trimmed valueTrimmed
  unfold settingText
  cases commented : s.comment with
  | none =>
    refine ⟨[], [], ⟨rfl, rfl⟩, comment?_nil, ?_⟩
    simpa using written.trim_eq
  | some c =>
    obtain ⟨trimmed, some⟩ := remarks c commented
    obtain ⟨pad, blank, value⟩ := blanks_spaces (writtenValue s.value) values
    have gap : Blanks (pad ++ [' ', ' ']) := by
      intro d member
      rcases List.mem_append.1 member with member | member
      · exact blank d member
      · simp only [List.mem_cons, List.not_mem_nil, or_false, or_self] at member
        rw [member]
        rfl
    have text : alignLeft values (writtenValue s.value) ++ "  # " ++ c =
        writtenValue s.value ++ (pad ++ [' ', ' '] ++ '#' :: ' ' :: c) := by
      rw [value]
      simp
    obtain ⟨b, blanks, cut⟩ := trim_remark written gap trimmed some
    exact ⟨b, _, ⟨blanks, _, rfl⟩, comment?_eq c trimmed some, (congrArg trim text).trans cut⟩

/-- An option line is one line if its value and its comment are. -/
theorem noFeed_optionLine (value : '\n' ∉ s.value) (comment : ∀ c ∈ s.comment, '\n' ∉ c)
    (names values : Nat) (k : OptionKey) : '\n' ∉ optionLine names values k s := by
  have name : '\n' ∉ k.name := by
    intro member
    simpa [isBlank] using (OptionKey.of_mem_name member).1
  have written : '\n' ∉ writtenValue s.value := by
    unfold writtenValue
    split <;> simp [value]
  have padded : ∀ (n : Nat) (t : Text), '\n' ∉ t → '\n' ∉ alignLeft n t := by
    intro n t free inside
    rcases mem_alignLeft inside with inside | inside
    · exact free inside
    · cases inside
  have setting : '\n' ∉ settingText values s := by
    unfold settingText
    cases commented : s.comment with
    | none => exact written
    | some c => simp [padded values _ written, comment c commented]
  have label := padded names (k.name ++ [':']) (by simp [name])
  have indented : '\n' ∉ indent := by decide
  rw [optionLine_columns]
  intro inside
  rcases List.mem_append.1 inside with inside | inside
  · exact indented inside
  rcases List.mem_append.1 (mem_of_mem_trimEnd inside) with inside | inside
  · exact label inside
  · rcases List.mem_cons.1 inside with same | inside
    · cases same
    · exact setting inside

/-- The first separator of a written option line follows the name. -/
theorem cutFirst_optionLine (names values : Nat) (k : OptionKey) (s : Setting) :
    ∃ b, Blanks b ∧ Text.cutFirst (fun c => c == ':' || c == '=')
      (trim (trim (optionLine names values k s))) =
        some (k.name, trimEnd (b ++ settingText values s)) := by
  obtain ⟨b, blank, line⟩ := trim_optionLine names values k s
  have free : ∀ c ∈ k.name, (c == ':' || c == '=') = false := by
    intro c member
    obtain ⟨-, colon, equals, -⟩ := OptionKey.of_mem_name member
    simp [colon, equals]
  refine ⟨b, blank, ?_⟩
  rw [(trimmed_trim _).trim_eq, line, cutFirst_eq_some_iff]
  exact ⟨':', rfl, rfl, free⟩

/-- A written option line is read as an option of that name. The value and the comment are those
that are found after the name. -/
theorem option?_optionLine_eq (names values : Nat) (k : OptionKey) (s : Setting) :
    Line.option? (trim (optionLine names values k s)) =
      some ⟨k.name, (valueAndRest (trim (settingText values s))).1,
        Line.comment? (valueAndRest (trim (settingText values s))).2⟩ := by
  obtain ⟨b, blank, cut⟩ := cutFirst_optionLine names values k s
  have setting : trimStart (trimEnd (b ++ settingText values s)) = trim (settingText values s) := by
    rw [trimStart_trimEnd, trim_blanks_append blank]
  unfold Line.option?
  simp only [cut, (OptionKey.name_trimmed k).trim_eq, OptionKey.isOptionName_name, setting, if_true]

/-- If the value and the comment can be read back, they are. -/
theorem option?_optionLine (h : Faithful s.value s.comment) :
    Line.option? (trim (optionLine names values k s)) = some ⟨k.name, s.value, s.comment⟩ := by
  obtain ⟨gap, rest, follows, remark, setting⟩ := trim_settingText h.trimmed h.remark values
  rw [option?_optionLine_eq, setting, h.valueAndRest_written follows, remark]

/-- Whatever the value is, the line is read as some option. -/
theorem option?_optionLine_ne_none (names values : Nat) (k : OptionKey) (s : Setting) :
    Line.option? (trim (optionLine names values k s)) ≠ none := by
  rw [option?_optionLine_eq]
  exact Option.some_ne_none _

end Project

end BuildMatrix
