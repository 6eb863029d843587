import BuildMatrix.Proofs.Project.Interleaving
import BuildMatrix.Proofs.Project.Warnings
import BuildMatrix.Proofs.Text.Rows

/-! Options that were commented out. A line that sets a known option can have the mark of
unrecognized options in front of it: the text is read as it was, with the same warnings. So of all
lines that set an option the last one counts, with the mark or without it. -/

set_option autoImplicit false

namespace BuildMatrix.Project

open Text

variable {disk : Disk} {p m : Project} {file source l : Text} {before : List Text} {n : Nat}
  {s : Section} {k : OptionKey} {picked : Nat → Bool} {i : Item}

/-- The section behind some lines: that of the last header among them. -/
def lastSection (before : List Text) : Section :=
  match (before.filter isHeading).getLast? with
  | none => .preamble
  | some header => (Section.ofHeader? (trimEnd header)).getD .unknown

/-- A line, not a header, with an option that is known. -/
structure IsKnownOption (l : Text) : Prop where
  plain : isHeading l = false
  known : ∃ parts k, Line.option? l = some parts ∧ OptionKey.ofName? parts.name = some k

/-- Line `n` lies in a section for options and sets a known one. -/
def SetsOption (source : Text) (n : Nat) : Prop :=
  ∃ before l after, Text.lines source = before ++ l :: after ∧ n = before.length + 1 ∧
    lastSection before = .options ∧ IsKnownOption l

/-- The text with the mark of unrecognized options in front of the lines with these numbers. -/
def commentOut (picked : Nat → Bool) (source : Text) : Text :=
  ((numbered (rows source)).map fun x =>
    if picked x.1 then Line.unrecognizedMark ++ x.2 else x.2).flatten

/-- The lines of the sections for options. -/
def optionBody (source : Text) : List Text :=
  ((chapters source).filter (·.origin = .options)).flatMap (·.body.1)

/-- The option that a line sets, with the mark of unrecognized options or without it. -/
def heldSetting? (l : Text) : Option (OptionKey × Setting) :=
  match (trimEnd Line.unrecognizedMark).isPrefixOf? (trim l) with
  | some option => lineSetting? option
  | none => lineSetting? l

/-- What the lines of a text set an option to, one after the other. -/
def occurrences (k : OptionKey) (source : Text) : List Setting :=
  (optionBody source).filterMap fun l =>
    (heldSetting? l).bind fun held => if held.1 = k then some held.2 else none

/-! ### Single lines -/

theorem option?_trim (l : Text) : Line.option? (trim l) = Line.option? l := by
  rw [Line.option?, Line.option?, (trimmed_trim l).trim_eq]

theorem option?_trimStart (l : Text) : Line.option? (trimStart l) = Line.option? l := by
  obtain ⟨b, blank, split⟩ := exists_trimStart l
  rw [← option?_trim l, ← option?_trim (trimStart l)]
  conv_rhs => rw [split, trim_blanks_append blank]

/-- What sets an option is no comment. -/
theorem head?_of_option? {parts : Line.OptionParts} (found : Line.option? l = some parts) :
    trim l ≠ [] ∧ (trim l).head? ≠ some '#' := by
  unfold Line.option? at found
  split at found
  · cases found
  rename_i before after cut
  obtain ⟨sep, split, separates, -⟩ := cutFirst_eq_some_iff.1 cut
  dsimp only at found
  split at found
  · rename_i named
    simp only [Line.isOptionName, Bool.and_eq_true, decide_eq_true_eq] at named
    refine ⟨by simp [split], fun hash => ?_⟩
    cases before with
    | nil => exact named.1.1 rfl
    | cons c r =>
      rw [split] at hash
      obtain rfl : c = '#' := Option.some.inj hash
      have first : ∀ c ∈ ('#' :: r : Text).head?, isBlank c = false := by
        rintro c ⟨⟩
        rfl
      apply named.2
      rw [trim, trimStart_eq_self first, head?_trimEnd_of_solid first]
      rfl
  · cases found

theorem lineSetting?_congr {a b : Text} (same : Line.option? a = Line.option? b) :
    lineSetting? a = lineSetting? b := by
  rw [lineSetting?, lineSetting?, same]

theorem IsKnownOption.isSome (h : IsKnownOption l) : (lineSetting? (trim l)).isSome = true := by
  obtain ⟨parts, k, parted, known⟩ := h.known
  rw [lineSetting?, option?_trim, parted]
  simp [known]

/-! ### Items with a mark -/

/-- The item of a line with the mark in front of it, if the mark is set and the line sets a known
option. -/
def Item.marked (set : Bool) : Item → Item
  | .option line =>
    if set ∧ (lineSetting? line).isSome then .commentedOption line else .option line
  | i => i

theorem Item.marked_cases (set : Bool) (i : Item) :
    i.marked set = i ∨ ∃ line, i = .option line ∧ i.marked set = .commentedOption line ∧
      (lineSetting? line).isSome = true := by
  cases i with
  | option line =>
    rw [marked]
    split
    · rename_i known
      exact .inr ⟨line, rfl, rfl, known.2⟩
    · exact .inl rfl
  | _ => exact .inl rfl

theorem ofLine_of_isKnownOption (h : IsKnownOption l) :
    Item.ofLine .options l = (.options, some (.option (trim l))) := by
  obtain ⟨parts, k, parted, -⟩ := h.known
  obtain ⟨filled, plain⟩ := head?_of_option? parted
  have header := h.plain
  rw [isHeading] at header
  rw [Item.ofLine_eq, if_neg filled, if_neg plain, header, if_neg Bool.false_ne_true]
  rfl

theorem ofLine_mark_of_isKnownOption (h : IsKnownOption l) :
    Item.ofLine .options (Line.unrecognizedMark ++ l) =
      (.options, (Item.ofLine .options l).2.map (Item.marked true)) := by
  have revived : Item.ofLine .options (Line.unrecognizedMark ++ l) = _ :=
    ofLine_mark (List.forall_mem_nil _) l
  rw [revived, ofLine_of_isKnownOption h]
  simp [Item.marked, h.isSome]

theorem lastSection_concat (before : List Text) (l : Text) :
    lastSection (before ++ [l]) =
      if isHeading l then (Section.ofHeader? (trimEnd l)).getD .unknown
      else lastSection before := by
  rw [lastSection, List.filter_append]
  cases headed : isHeading l with
  | true =>
    rw [List.filter_cons_of_pos headed, List.filter_nil, List.getLast?_concat]
    rfl
  | false =>
    rw [List.filter_cons_of_neg (by simp [headed]), List.filter_nil, List.append_nil]
    rfl

theorem sectionAfter_preamble (before : List Text) :
    Item.sectionAfter .preamble before = lastSection before := by
  induction before using List.reverseRecOn with
  | nil => rfl
  | append_singleton before l ih =>
    rw [Item.sectionAfter_append, ih, lastSection_concat, Item.sectionAfter, Item.sectionAfter]
    cases headed : isHeading l with
    | true =>
      rw [Item.ofLine_of_isHeading headed]
      cases Section.ofHeader? (trimEnd l) <;> rfl
    | false => exact (Item.ofLine_of_plain headed _).1

/-- The number of an item decides whether its line has the mark. -/
theorem ofLines_marked {ls : List (Nat × Text)}
    (known : ∀ before x after, ls = before ++ x :: after → picked x.1 = true →
      Item.sectionAfter s (before.map Prod.snd) = .options ∧ IsKnownOption x.2) :
    Item.ofLines s
        (ls.map fun x => (x.1, if picked x.1 then Line.unrecognizedMark ++ x.2 else x.2)) =
      (Item.ofLines s ls).map fun x => (x.1, x.2.marked (picked x.1)) := by
  -- a line may lead to another section, so the section is not fixed in the induction
  induction ls generalizing s with
  | nil => rfl
  | cons x rest ih =>
    obtain ⟨n, l⟩ := x
    have later := ih (s := (Item.ofLine s l).1) fun before y after split marked =>
      known ((n, l) :: before) y after (by rw [split]; rfl) marked
    have here : Item.ofLine s (if picked n then Line.unrecognizedMark ++ l else l) =
        ((Item.ofLine s l).1, (Item.ofLine s l).2.map (Item.marked (picked n))) := by
      cases marked : picked n with
      | false =>
        have kept : Item.marked false = id := by
          funext i
          cases i <;> rfl
        rw [kept, Option.map_id]
        rfl
      | true =>
        obtain ⟨inside, option⟩ := known [] (n, l) rest rfl marked
        obtain rfl : s = .options := inside
        rw [if_pos rfl, ofLine_mark_of_isKnownOption option, ofLine_of_isKnownOption option]
    rw [List.map_cons, Item.ofLines, Item.ofLines, here, List.map_append, ← later]
    simp [Option.toList_map]

/-! ### Texts with marks -/

theorem lines_commentOut (picked : Nat → Bool) (source : Text) :
    Text.lines (commentOut picked source) =
      (numbered (Text.lines source)).map fun x =>
        if picked x.1 then Line.unrecognizedMark ++ x.2 else x.2 := by
  have whole : (numbered (rows source)).map Prod.snd = rows source := numbered_map_snd _
  have free : '\n' ∉ Line.unrecognizedMark := by decide
  have apart := (areRows_rows source).marked free whole fun x => picked x.1
  rw [commentOut, lines_flatten apart, lines_eq_map_rows, numbered_map, List.map_map, List.map_map]
  refine List.map_congr_left fun x member => ?_
  have filled := ((areRows_rows source).row x.2 (whole ▸ List.mem_map_of_mem member)).1
  dsimp only [Function.comp_apply]
  split
  · exact lineOfRow_append (by decide) filled
  · rfl

/-- A line with its number is that line of the text. -/
theorem SetsOption.of_numbered {x : Nat × Text} {after before : List (Nat × Text)}
    (split : numbered (Text.lines source) = before ++ x :: after) (h : SetsOption source x.1) :
    Item.sectionAfter .preamble (before.map Prod.snd) = .options ∧ IsKnownOption x.2 := by
  obtain ⟨ls, l, rest, shape, number, inside, option⟩ := h
  have text : Text.lines source = before.map Prod.snd ++ x.2 :: after.map Prod.snd := by
    rw [← numbered_map_snd (Text.lines source), split, List.map_append, List.map_cons]
  have place : x.1 = before.length + 1 := fst_of_numbered split
  have length : (before.map Prod.snd).length = ls.length := by
    rw [List.length_map]
    omega
  obtain ⟨rfl, same⟩ := List.append_inj (text.symm.trans shape) length
  obtain ⟨rfl, -⟩ := List.cons.inj same
  exact ⟨(sectionAfter_preamble _).trans inside, option⟩

theorem ofText_commentOut (known : ∀ n, picked n = true → SetsOption source n) :
    Item.ofText (commentOut picked source) =
      (Item.ofText source).map fun x => (x.1, x.2.marked (picked x.1)) := by
  rw [Item.ofText, Item.ofText, lines_commentOut, numbered_map_numbered]
  exact ofLines_marked fun _ x _ split marked => (known x.1 marked).of_numbered split

theorem inText_commentOut (known : ∀ n, picked n = true → SetsOption source n) :
    Item.inText (commentOut picked source) =
      (Item.ofText source).map fun x => x.2.marked (picked x.1) := by
  rw [← Item.ofText_map_snd, ofText_commentOut known, List.map_map]
  rfl

/-! ### Readings -/

theorem settingOf?_marked (set : Bool) (i : Item) (k : OptionKey) :
    (i.marked set).settingOf? k = i.settingOf? k := by
  obtain same | ⟨line, rfl, same, -⟩ := i.marked_cases set
  · rw [same]
  · rw [same]
    rfl

theorem tooNew?_marked (set : Bool) (i : Item) : (i.marked set).tooNew? = i.tooNew? := by
  obtain same | ⟨line, rfl, same, -⟩ := i.marked_cases set
  · rw [same]
  · rw [same]
    rfl

theorem step_marked (disk : Disk) (p : Project) (set : Bool) (i : Item) :
    step disk p (i.marked set) = step disk p i := by
  obtain same | ⟨line, rfl, same, known⟩ := i.marked_cases set
  · rw [same]
  · obtain ⟨option, here⟩ := Option.isSome_iff_exists.1 known
    rw [same, step_commentedOption, step_option, here]

/-- Either way nothing is wrong with an option that is known. -/
theorem warnings_marked (disk : Disk) (file : Text) (n : Nat) (set : Bool) (i : Item) :
    ((i.marked set).events disk file n).filterMap Event.warning? =
      (i.events disk file n).filterMap Event.warning? := by
  obtain same | ⟨line, rfl, same, known⟩ := i.marked_cases set
  · rw [same]
  · obtain ⟨parts, parted, named⟩ : ∃ parts, Line.option? line = some parts ∧
        (OptionKey.ofName? parts.name).isSome = true := by
      unfold lineSetting? at known
      split at known
      · cases known
      · rename_i parts parted
        exact ⟨parts, parted, by simpa using known⟩
    simp only [same, Item.events, readItem, readCommentedOption_snd, readOption_snd, optionProblem?,
      parted, named, if_true]
    rfl

/-- Reading goes on from the same project, and the logs differ in what is no warning. -/
theorem readItems_marked (picked : Nat → Bool) (disk : Disk) (p : Project)
    (log other : List Event) (same : log.filterMap Event.warning? = other.filterMap Event.warning?)
    (items : List (Nat × Item)) :
    let marked := readItems disk p log (items.map fun x => (x.1, x.2.marked (picked x.1)))
    marked.result = (readItems disk p other items).result ∧
      marked.warnings = (readItems disk p other items).warnings := by
  -- the project and the logs are whatever the items before made of them
  induction items generalizing p log other with
  | nil => exact ⟨rfl, same⟩
  | cons x rest ih =>
    obtain ⟨n, i⟩ := x
    rw [List.map_cons, readItems, readItems]
    dsimp only
    rw [tooNew?_marked]
    cases i.tooNew? with
    | some v => exact ⟨rfl, same⟩
    | none =>
      dsimp only
      rw [readItem_fst, readItem_fst, readItem_snd, readItem_snd, step_marked]
      refine ih _ _ _ ?_
      rw [List.filterMap_append, List.filterMap_append, same, warnings_marked]

theorem readText_marked (known : ∀ n, picked n = true → SetsOption source n) (disk : Disk)
    (file : Text) :
    (readText disk file (commentOut picked source)).result = (readText disk file source).result ∧
      (readText disk file (commentOut picked source)).warnings =
        (readText disk file source).warnings := by
  obtain ⟨result, warnings⟩ :=
    readItems_marked picked disk (bare file) [] [] rfl (Item.ofText source)
  rw [← ofText_commentOut known] at result warnings
  rw [readText, readText]
  dsimp only
  rw [result]
  cases ends : (readItems disk (bare file) [] (Item.ofText source)).result with
  | error e => exact ⟨result, warnings⟩
  | ok p =>
    refine ⟨rfl, ?_⟩
    rw [Reading.warnings, Reading.warnings, List.filterMap_append, List.filterMap_append]
    exact congrArg (· ++ _) warnings

/-! ### Occurrences -/

theorem settingOf?_eq (k : OptionKey) (i : Item) :
    i.settingOf? k = i.setting?.bind fun held => if held.1 = k then some held.2 else none := by
  rw [Item.settingOf?]
  cases i.setting? <;> rfl

theorem setting?_of_origin (other : i.origin ≠ .options) : i.setting? = none := by
  cases i with
  | option line => exact absurd rfl other
  | commentedOption line => exact absurd rfl other
  | _ => rfl

/-- What a line of a section for options sets. -/
theorem setting?_ofLine (plain : isHeading l = false) :
    (Item.ofLine .options l).2.bind Item.setting? = heldSetting? l := by
  rw [isHeading] at plain
  rw [Item.ofLine_eq, plain, if_neg Bool.false_ne_true, heldSetting?]
  have none_of (shape : trim l = [] ∨ (trim l).head? = some '#') : lineSetting? l = none := by
    cases found : Line.option? l with
    | none => rw [lineSetting?, found]
    | some parts =>
      obtain ⟨filled, text⟩ := head?_of_option? found
      exact absurd shape (not_or.2 ⟨filled, text⟩)
  split
  · rename_i empty
    rw [none_of (.inl empty), empty]
    rfl
  split
  · rename_i hash
    rw [none_of (.inr hash), Item.ofComment]
    cases (trimEnd Line.unrecognizedMark).isPrefixOf? (trim l) with
    | none => rfl
    | some raw => exact lineSetting?_congr (option?_trimStart raw)
  · rename_i text
    cases found : (trimEnd Line.unrecognizedMark).isPrefixOf? (trim l) with
    | none => exact lineSetting?_congr (option?_trim l)
    | some raw =>
      rw [← List.append_eq_of_isPrefixOf?_eq_some found] at text
      exact absurd rfl text

theorem filterMap_settingOf? (k : OptionKey) (source : Text) :
    (Item.inText source).filterMap (Item.settingOf? k) = occurrences k source := by
  have only : ∀ i : Item, i.origin ≠ .options → i.settingOf? k = none := by
    intro i other
    rw [settingOf?_eq, setting?_of_origin other]
    rfl
  rw [filterMap_inText (s := .options) nofun only, occurrences, optionBody, List.filterMap_flatMap]
  refine List.flatMap_congr fun c member => ?_
  have here : c.origin = .options := of_decide_eq_true (List.mem_filter.1 member).2
  rw [Chapter.items_of_origin (s := .options) nofun here, List.filterMap_filterMap]
  refine List.filterMap_congr fun l inside => ?_
  rw [← setting?_ofLine (c.body.2 l inside), Option.bind_assoc]
  exact congrArg _ (funext fun i => settingOf?_eq k i)

theorem run_settings_bare (disk : Disk) (file source : Text) (k : OptionKey) :
    (run disk (bare file) (Item.inText source)).settings k = (occurrences k source).getLast? := by
  rw [run_settings, filterMap_settingOf?]
  exact Option.or_none

/-- The last occurrence counts, unless it leaves the name to the directory. -/
theorem readText_settings (accepted : (readText disk file source).result = .ok m)
    (named : k = .project → ∃ s ∈ (occurrences .project source).getLast?, s.value ≠ []) :
    m.settings k = (occurrences k source).getLast? := by
  obtain ⟨-, rfl⟩ := readText_eq_ok_iff.1 accepted
  rw [settings_derive, ← run_settings_bare disk file]
  by_cases project : k = .project
  · have given := named project
    rw [← run_settings_bare disk file] at given
    rw [deriveName_of_hasValue (hasValue_project_iff.2 given)]
  · exact settings_deriveName_of_ne project

theorem occurrences_commentOut (known : ∀ n, picked n = true → SetsOption source n)
    (k : OptionKey) : occurrences k (commentOut picked source) = occurrences k source := by
  rw [← filterMap_settingOf?, ← filterMap_settingOf?, inText_commentOut known,
    ← Item.ofText_map_snd source, List.filterMap_map, List.filterMap_map]
  exact List.filterMap_congr fun x _ => settingOf?_marked _ x.2 k

/-- A text is read the same after the mark of unrecognized options was set in front of lines that
set known options. The last line that sets an option counts, with the mark or without it. -/
theorem readText_commentOut (disk : Disk) (file : Text)
    (known : ∀ n, picked n = true → SetsOption source n) :
    (readText disk file (commentOut picked source)).result = (readText disk file source).result ∧
      (readText disk file (commentOut picked source)).warnings =
        (readText disk file source).warnings ∧
      (∀ k, occurrences k (commentOut picked source) = occurrences k source) ∧
      ∀ m k, (readText disk file (commentOut picked source)).result = .ok m →
        (k = .project → ∃ s ∈ (occurrences .project source).getLast?, s.value ≠ []) →
          m.settings k = (occurrences k source).getLast? := by
  obtain ⟨result, warnings⟩ := readText_marked known disk file
  refine ⟨result, warnings, occurrences_commentOut known, fun m k accepted named => ?_⟩
  rw [result] at accepted
  exact readText_settings accepted named

/-- The level is set twice, and the later line, in quotes and with a comment, gets the mark. -/
theorem readText_commentOut_level :
    ∃ m, (readText bareDisk "p.yaml"
        "Options:\n  warn: 3\n# [unrecognized]  \twarn= \"2 \" # low\r\nFiles:\n").result = .ok m ∧
      m.settings .warn = some ⟨"2", some "low"⟩ ∧
      (readText bareDisk "p.yaml"
        "Options:\n  warn: 3\n# [unrecognized]  \twarn= \"2 \" # low\r\nFiles:\n").result =
        (readText bareDisk "p.yaml"
          "Options:\n  warn: 3\n \twarn= \"2 \" # low\r\nFiles:\n").result := by
  have marked : commentOut (· == 3) "Options:\n  warn: 3\n \twarn= \"2 \" # low\r\nFiles:\n" =
      "Options:\n  warn: 3\n# [unrecognized]  \twarn= \"2 \" # low\r\nFiles:\n" := by
    decide +kernel
  have sets : ∀ n, (n == 3) = true →
      SetsOption "Options:\n  warn: 3\n \twarn= \"2 \" # low\r\nFiles:\n" n := by
    intro n third
    obtain rfl := eq_of_beq third
    exact ⟨["Options:", "  warn: 3"], " \twarn= \"2 \" # low", ["Files:"], by decide +kernel, rfl,
      by decide +kernel, by decide +kernel, _, .warn, rfl, by decide +kernel⟩
  obtain ⟨same, -, -, last⟩ := readText_commentOut bareDisk "p.yaml" sets
  rw [marked] at same last
  have accepted : (readText bareDisk "p.yaml"
      "Options:\n  warn: 3\n# [unrecognized]  \twarn= \"2 \" # low\r\nFiles:\n").result = .ok _ :=
    readText_eq_ok_iff.2 ⟨by decide +kernel, rfl⟩
  refine ⟨_, accepted, ?_, same⟩
  rw [last _ .warn accepted nofun]
  decide +kernel

end BuildMatrix.Project
