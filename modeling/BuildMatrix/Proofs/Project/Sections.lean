import BuildMatrix.Proofs.Project.Printing

/-! Written sections. A project is written as one section after the other, all of them with indented
lines. If no line feed stands inside these lines, each section is read as what its own lines mean,
and the lines around them do not change that. If moreover each line is one that its section can
hold, the items are those that the project was written for. -/

set_option autoImplicit false

namespace BuildMatrix.Project

open Text Line

variable {p : Project} {s : Section} {i : Item} {l : Text} {kind : PairKind} {scope : Scope}

/-! ### Lines of a text -/

theorem Item.ofLine_dropReturn (s : Section) (l : Text) :
    Item.ofLine s (dropReturn l) = Item.ofLine s l := by
  simp only [Item.ofLine, trimEnd_dropReturn]

theorem Item.inLines_map_dropReturn (s : Section) (ls : List Text) :
    Item.inLines s (ls.map dropReturn) = Item.inLines s ls := by
  induction ls generalizing s with
  | nil => rfl
  | cons l rest ih => simp only [List.map_cons, Item.inLines, Item.ofLine_dropReturn, ih]

/-- Lines without line feeds are read one by one. -/
theorem inText_ofLines {ls : List Text} (free : ∀ l ∈ ls, '\n' ∉ l) :
    Item.inText (Text.ofLines ls) = Item.inLines .preamble ls := by
  rw [Item.inText, lines_ofLines_eq_map free, Item.inLines_map_dropReturn]

/-! ### Indented lines -/

/-- What an indented line means in a section. -/
def Item.ofIndented (s : Section) (l : Text) : Option Item := (Item.ofLine s (indent ++ l)).2

theorem Item.ofLine_indent (s : Section) (l : Text) :
    Item.ofLine s (indent ++ l) =
      (s, if trim l = [] then none
        else if (trim l).head? = some '#' then Item.ofComment (trim l) s
        else Item.ofContent (trim l) s) := by
  rw [Item.ofLine_eq, trim_blanks_append blanks_indent, isHeader_trimEnd_indent]
  simp only [Bool.false_eq_true, if_false]
  split
  · rfl
  · split <;> rfl

theorem Item.ofIndented_eq (s : Section) (l : Text) :
    Item.ofIndented s l =
      if trim l = [] then none
      else if (trim l).head? = some '#' then Item.ofComment (trim l) s
      else Item.ofContent (trim l) s := by
  rw [Item.ofIndented, Item.ofLine_indent]

theorem Item.ofIndented_of_content (h : IsContent l) (s : Section) :
    Item.ofIndented s l = Item.ofContent l s := by
  rw [Item.ofIndented_eq, h.trimmed.trim_eq, if_neg h.filled, if_neg h.plain]

theorem Item.inLines_indented (s : Section) (ls : List Text) :
    Item.inLines s (ls.map (indent ++ ·)) = ls.filterMap (Item.ofIndented s) := by
  induction ls with
  | nil => rfl
  | cons l rest ih =>
    -- no indented line leads to another section
    have stays : (Item.ofLine s (indent ++ l)).1 = s := by rw [Item.ofLine_indent]
    have item : (Item.ofLine s (indent ++ l)).2 = Item.ofIndented s l := rfl
    rw [List.map_cons, Item.inLines, stays, item, ih]
    cases here : Item.ofIndented s l <;> simp [here]

/-- A written section is read line by line, whatever section came before. -/
theorem Item.inLines_section (header : Text) {inner : Section}
    (headed : ∀ s, Item.ofLine s (header ++ [':']) = (inner, none)) (ls : List Text) (s : Section) :
    Item.inLines s (sectionLines header ls) = ls.filterMap (Item.ofIndented inner) := by
  unfold sectionLines
  split
  · -- an empty section is not written at all
    rename_i empty
    rw [empty]
    rfl
  · have blank : Item.ofLine s [] = (s, none) := rfl
    simp only [Item.inLines, blank, headed, Item.inLines_indented, Option.toList_none,
      List.nil_append]

/-! ### Items of a section -/

/-- The section in which such an item stands. -/
def Item.origin : Item → Section
  | .requires _ | .badVersion _ | .stray => .preamble
  | .unknownSection _ => .unknown
  | .option _ | .commentedOption _ => .options
  | .entry scope _ => .files scope
  | .pair kind _ => .pairs kind

theorem Item.origin_of_ofComment (h : Item.ofComment l s = some i) : i.origin = s := by
  cases s with
  | preamble =>
    simp only [Item.ofComment] at h
    split at h
    · cases h
    · split at h <;> cases h <;> rfl
  | options =>
    obtain ⟨_, -, rfl⟩ := Option.map_eq_some_iff.1 h
    rfl
  | _ => cases h

theorem Item.origin_of_ofContent (h : Item.ofContent l s = some i) : i.origin = s := by
  cases s <;> cases h <;> rfl

theorem Item.origin_of_ofIndented (h : Item.ofIndented s l = some i) : i.origin = s := by
  rw [Item.ofIndented_eq] at h
  split at h
  · cases h
  · split at h
    · exact Item.origin_of_ofComment h
    · exact Item.origin_of_ofContent h

theorem Item.pairOf?_of_origin (other : i.origin ≠ .pairs kind) : i.pairOf? kind = none := by
  cases i with
  | pair k line => exact if_neg fun same => other (by rw [← same]; rfl)
  | _ => rfl

theorem Item.entryIn?_of_origin (other : i.origin ≠ .files scope) : i.entryIn? scope = none := by
  cases i with
  | entry t e => exact if_neg fun same => other (by rw [← same]; rfl)
  | _ => rfl

theorem Item.tooNew?_of_origin (other : i.origin ≠ .preamble) : i.tooNew? = none := by
  cases i with
  | requires v => exact absurd rfl other
  | _ => rfl

/-! ### The sections of a project -/

/-- The option lines of a project without their indentation. -/
def optionBodies (p : Project) : List Text :=
  (p.settingList.map fun q =>
    trimEnd (alignLeft (nameWidth p.settingList) (q.1.name ++ [':']) ++
      ' ' :: settingText (valueWidth p.settingList) q.2)) ++
  p.unrecognized.map (unrecognizedMark ++ ·)

theorem ofIndented_settingLine (names values : Nat) (k : OptionKey) (t : Setting) :
    Item.ofIndented .options
        (trimEnd (alignLeft names (k.name ++ [':']) ++ ' ' :: settingText values t)) =
      some (.option (trim (optionLine names values k t))) := by
  have line := ofLine_optionLine names values k t
  rw [optionLine_columns] at line ⊢
  exact congrArg Prod.snd line

/-- The lines of a section of a project without their indentation. -/
def bodies (p : Project) : Section → List Text
  | .options => p.optionBodies
  | .files scope => p.entries scope
  | .pairs kind => p.pairLines kind
  | _ => []

/-- The sections in the order in which they are written, with their headers. -/
def writtenSections : List (Text × Section) :=
  [("Options", .options), ("Files", .files .everyBuild), ("DebugFiles", .files .debugOnly),
    ("GZIP", .pairs .gzip), ("XPM", .pairs .xpm), ("PNG", .pairs .png)]

theorem head?_trim_unrecognized (line : Text) :
    (trim (unrecognizedMark ++ line)).head? = some '#' := by
  have first : ∀ c ∈ (unrecognizedMark ++ line).head?, isBlank c = false := by
    rintro c ⟨⟩
    rfl
  rw [trim, trimStart_eq_self first, head?_trimEnd_of_solid first]
  rfl

theorem optionLines_eq (p : Project) : p.optionLines = sectionLines "Options" p.optionBodies := by
  have empty : p.optionBodies = [] ↔ p.settingList = [] ∧ p.unrecognized = [] := by
    simp [optionBodies]
  unfold optionLines sectionLines
  by_cases none : p.settingList = [] ∧ p.unrecognized = []
  · rw [if_pos none, if_pos (empty.2 none)]
  · rw [if_neg none, if_neg (mt empty.1 none), optionBodies, List.map_append, List.map_map,
      List.map_map]
    simp only [optionLine_columns, Function.comp_def, List.append_assoc]
    rfl

theorem lines_eq (p : Project) :
    p.lines = Line.versionHeader p.versionRequired ::
      writtenSections.flatMap fun s => sectionLines s.1 (p.bodies s.2) := by
  simp only [Project.lines, optionLines_eq, writtenSections, bodies, List.flatMap_cons,
    List.flatMap_nil, List.append_nil, List.append_assoc, List.cons_append, List.nil_append]

theorem headed_of_mem {w : Text × Section} (member : w ∈ writtenSections) (s : Section) :
    Item.ofLine s (w.1 ++ [':']) = (w.2, none) := by
  simp only [writtenSections, List.mem_cons, List.not_mem_nil, or_false] at member
  rcases member with rfl | rfl | rfl | rfl | rfl | rfl <;> rfl

theorem inLines_flatMap {ws : List (Text × Section)} (written : ∀ w ∈ ws, w ∈ writtenSections)
    (p : Project) (s : Section) :
    Item.inLines s (ws.flatMap fun w => sectionLines w.1 (p.bodies w.2)) =
      ws.flatMap fun w => (p.bodies w.2).filterMap (Item.ofIndented w.2) := by
  -- a section leads to some other one, but the next header does not ask which
  induction ws generalizing s with
  | nil => rfl
  | cons w rest ih =>
    have here := headed_of_mem (written w List.mem_cons_self)
    have later := ih fun v member => written v (List.mem_cons_of_mem _ member)
    rw [List.flatMap_cons, List.flatMap_cons, Item.inLines_append, Item.inLines_section w.1 here,
      later]

/-- Nothing in a project breaks a line in which it is written. -/
structure Unbroken (p : Project) : Prop where
  values : ∀ k, ∀ s ∈ p.settings k, '\n' ∉ s.value
  comments : ∀ k, ∀ s ∈ p.settings k, ∀ c ∈ s.comment, '\n' ∉ c
  unrecognized : ∀ l ∈ p.unrecognized, '\n' ∉ l
  entries : ∀ scope, ∀ e ∈ p.entries scope, '\n' ∉ e
  pairs : ∀ kind, ∀ q ∈ p.pairs kind, '\n' ∉ q.1 ∧ '\n' ∉ q.2

theorem Unbroken.bodies (h : Unbroken p) : ∀ s, ∀ l ∈ p.bodies s, '\n' ∉ l := by
  intro s l member
  cases s with
  | options =>
    rcases List.mem_append.1 member with set | unknown
    · obtain ⟨q, inside, rfl⟩ := List.mem_map.1 set
      have here := mem_settingList.1 inside
      have line := noFeed_optionLine (h.values q.1 q.2 here) (h.comments q.1 q.2 here)
        (nameWidth p.settingList) (valueWidth p.settingList) q.1
      rw [optionLine_columns] at line
      exact fun feed => line (List.mem_append_right _ feed)
    · obtain ⟨line, inside, rfl⟩ := List.mem_map.1 unknown
      have mark : '\n' ∉ unrecognizedMark := by decide
      simp [mark, h.unrecognized line inside]
  | files scope => exact h.entries scope l member
  | pairs kind =>
    obtain ⟨q, inside, rfl⟩ := List.mem_map.1 member
    obtain ⟨source, destination⟩ := h.pairs kind q inside
    simp [source, destination]
  | _ => cases member

theorem noFeed_of_mem_lines (h : Unbroken p) :
    ∀ l ∈ p.lines, '\n' ∉ l := by
  have headers : ∀ w ∈ writtenSections, '\n' ∉ w.1 := by decide
  intro l member
  rw [lines_eq] at member
  rcases List.mem_cons.1 member with rfl | member
  · exact noFeed_versionHeader p.versionRequired
  · obtain ⟨w, written, inside⟩ := List.mem_flatMap.1 member
    unfold sectionLines at inside
    split at inside
    · cases inside
    · simp only [List.mem_cons, List.mem_map] at inside
      rcases inside with rfl | rfl | ⟨b, body, rfl⟩
      · exact List.not_mem_nil
      · simp [headers w written]
      · have indented : '\n' ∉ indent := by decide
        simp [indented, h.bodies w.2 b body]

/-- A written project is read section by section. -/
theorem inText_text_eq (h : Unbroken p) :
    Item.inText p.text = .requires p.versionRequired ::
      writtenSections.flatMap fun s => (p.bodies s.2).filterMap (Item.ofIndented s.2) := by
  have version := ofLine_versionHeader p.versionRequired
  rw [Project.text, inText_ofLines (noFeed_of_mem_lines h), lines_eq, Item.inLines, version,
    inLines_flatMap fun _ member => member]
  rfl

/-- What only items of one section have, the lines of that section have. -/
theorem filterMap_inText_text {α : Type} {f : Item → Option α}
    (h : Unbroken p) (written : s ∈ writtenSections.map Prod.snd)
    (only : ∀ i, i.origin ≠ s → f i = none) :
    (Item.inText p.text).filterMap f =
      (p.bodies s).filterMap fun l => (Item.ofIndented s l).bind f := by
  have preamble : Section.preamble ∉ writtenSections.map Prod.snd := by decide
  have version : f (.requires p.versionRequired) = none := by
    apply only
    rintro rfl
    exact preamble written
  -- the items of another section stand there, so they have nothing of it
  have elsewhere : ∀ t, t ≠ s →
      (p.bodies t).filterMap (fun l => (Item.ofIndented t l).bind f) = [] := by
    intro t other
    rw [List.filterMap_eq_nil_iff]
    intro l _
    cases here : Item.ofIndented t l with
    | none => rfl
    | some i => exact only i fun same => other ((Item.origin_of_ofIndented here).symm.trans same)
  rw [inText_text_eq h, List.filterMap_cons_none version, List.filterMap_flatMap]
  simp only [List.filterMap_filterMap]
  simp only [writtenSections, List.map_cons, List.map_nil, List.mem_cons, List.not_mem_nil,
    or_false] at written
  rcases written with rfl | rfl | rfl | rfl | rfl | rfl <;>
    simp [writtenSections, elsewhere]

/-- A written project is accepted. -/
theorem tooNew?_inText_text (h : Unbroken p) :
    (Item.inText p.text).findSome? Item.tooNew? = none := by
  have version : Item.tooNew? (.requires p.versionRequired) = none := by
    simp [Item.tooNew?, newerThan_of_known (versionRequired_mem p)]
  have other : ∀ w ∈ writtenSections, w.2 ≠ .preamble := by decide
  rw [inText_text_eq h, List.findSome?_eq_none_iff]
  intro i member
  rcases List.mem_cons.1 member with rfl | member
  · exact version
  · obtain ⟨w, written, inside⟩ := List.mem_flatMap.1 member
    obtain ⟨l, -, here⟩ := List.mem_filterMap.1 inside
    exact Item.tooNew?_of_origin (Item.origin_of_ofIndented here ▸ other w written)

/-! ### Printable projects -/

theorem Printable.unbroken (h : Printable p) : Unbroken p where
  values := fun k s here => (h.settings k s here).valueLine
  comments := fun k s here => (h.settings k s here).commentLine
  unrecognized := fun l here => (h.unrecognized l here).noFeed
  entries := fun scope e here => (h.entries scope e here).noFeed
  pairs := fun kind q here => ⟨(h.pairs kind q here).source.noFeed, (h.pairs kind q here).noFeed⟩

/-- Lines that give one item each. -/
theorem filterMap_ofIndented {α : Type} {line : α → Text} {item : α → Item} {as : List α}
    (each : ∀ a ∈ as, Item.ofIndented s (line a) = some (item a)) :
    (as.map line).filterMap (Item.ofIndented s) = as.map item := by
  rw [List.filterMap_map, ← List.filterMap_eq_map]
  exact List.filterMap_congr each

theorem filterMap_optionBodies (h : Printable p) :
    p.optionBodies.filterMap (Item.ofIndented .options) =
      (p.settingList.map fun q =>
        .option (trim (optionLine (nameWidth p.settingList) (valueWidth p.settingList) q.1 q.2))) ++
      p.unrecognized.map .commentedOption := by
  rw [optionBodies, List.filterMap_append]
  congr 1
  · exact filterMap_ofIndented fun q _ => ofIndented_settingLine _ _ q.1 q.2
  · apply filterMap_ofIndented
    intro line member
    have unknown := ofLine_unrecognized (h.unrecognized line member)
    rw [List.append_assoc] at unknown
    exact congrArg Prod.snd unknown

theorem filterMap_entries (h : Printable p) (scope : Scope) :
    (p.entries scope).filterMap (Item.ofIndented (.files scope)) =
      (p.entries scope).map (.entry scope) := by
  rw [← List.filterMap_eq_map]
  refine List.filterMap_congr fun e member => ?_
  have entry := h.entries scope e member
  rw [Item.ofIndented_of_content entry.toIsContent, Item.ofContent, entry.kept]
  rfl

theorem filterMap_pairLines (h : Printable p) (kind : PairKind) :
    (p.pairLines kind).filterMap (Item.ofIndented (.pairs kind)) =
      (p.pairLines kind).map (.pair kind) := by
  rw [← List.filterMap_eq_map]
  refine List.filterMap_congr fun l member => ?_
  exact Item.ofIndented_of_content (isContent_of_mem_pairLines h kind l member) _

theorem inText_text (h : Printable p) : Item.inText p.text = writtenItems p := by
  rw [inText_text_eq h.unbroken, writtenItems]
  simp only [writtenSections, bodies, List.flatMap_cons, List.flatMap_nil, filterMap_optionBodies h,
    filterMap_entries h, filterMap_pairLines h, List.append_nil, List.append_assoc,
    List.cons_append, List.nil_append]

end BuildMatrix.Project
