import BuildMatrix.Proofs.Project.Deriving
import BuildMatrix.Proofs.Project.Sections

/-! A project file that gives a name and lists files says the same once it was read and written. The
written text is accepted, and the project read from it has the settings with their comments, the
unknown lines, the entries and thereby the files of the first one. -/

set_option autoImplicit false

namespace BuildMatrix.Project

open Text Line

variable {disk : Disk} {p m : Project} {k : OptionKey} {s : Setting} {file source line : Text}
  {items : List Item}

/-! ### What was read can be written -/

theorem storedValue_storedValue (k : OptionKey) (value : Text) :
    storedValue k (storedValue k value) = storedValue k value := by
  unfold storedValue
  split
  · cases isYes value <;> decide
  · exact (trimmed_trim value).trim_eq

theorem feed_not_mem_storedValue {value : Text} (free : '\n' ∉ value) (k : OptionKey) :
    '\n' ∉ storedValue k value := by
  unfold storedValue
  split
  · cases isYes value <;> decide
  · exact fun feed => free (mem_of_mem_trim feed)

theorem faithful_flagText {comment : Option Text} (on : Bool)
    (remark : ∀ c ∈ comment, c.Trimmed ∧ c ≠ []) : Faithful (flagText on) comment where
  trimmed := by
    have trimmed : trim (flagText on) = flagText on := by cases on <;> decide
    rw [← trimmed]
    exact trimmed_trim (flagText on)
  bare := by
    intro quote
    have free : '"' ∉ flagText on := by cases on <;> decide
    exact absurd quote free
  remark := remark

theorem isSetting_of_lineSetting? (free : '\n' ∉ line) (found : lineSetting? line = some (k, s)) :
    IsSetting k s := by
  unfold lineSetting? at found
  split at found
  · cases found
  rename_i parts option
  obtain ⟨l, -, same⟩ := Option.map_eq_some_iff.1 found
  cases same
  obtain ⟨before, sep, after, split, rfl⟩ := option?_eq_some option
  have freeAfter : '\n' ∉ trimStart after := by
    intro feed
    have inside : '\n' ∈ before ++ sep :: after :=
      List.mem_append_right before (List.mem_cons_of_mem sep (mem_of_mem_trimStart feed))
    rw [← split] at inside
    exact free (mem_of_mem_trim inside)
  have parts := subset_valueAndRest (trimStart after)
  have faithful := faithful_of_valueAndRest (isBlank_head?_trimStart after)
  refine ⟨?_, storedValue_storedValue k _, ?_, ?_⟩
  · dsimp only
    unfold storedValue
    split
    · exact faithful_flagText _ faithful.remark
    · exact faithful
  · exact feed_not_mem_storedValue (fun feed => freeAfter (parts.1 feed)) k
  · intro remark here feed
    exact freeAfter (parts.2 (subset_comment? here feed))

theorem isSetting_of_settingOf? {i : Item} (h : i.WellFormed) (found : i.settingOf? k = some s) :
    IsSetting k s := by
  have set : i.setting? = some (k, s) := by
    unfold Item.settingOf? at found
    split at found
    · cases found
    · rename_i l t here
      split at found
      · rename_i same
        rw [here, same, Option.some.inj found]
      · cases found
  cases i with
  | option line => exact isSetting_of_lineSetting? h.noFeed set
  | commentedOption line => exact isSetting_of_lineSetting? h.2 set
  | _ => cases set

theorem isUnknown_of_unknown? {i : Item} (h : i.WellFormed) (found : i.unknown? = some line) :
    IsUnknown line := by
  cases i with
  | option l =>
    obtain ⟨unknown, same⟩ := Option.ite_none_right_eq_some.1 found
    cases same
    exact ⟨h.trimmed, h.noFeed, unknown.2⟩
  | commentedOption l =>
    obtain ⟨unknown, same⟩ := Option.ite_none_right_eq_some.1 found
    cases same
    exact ⟨h.1, h.2, unknown⟩
  | _ => cases found

theorem isEntry_of_entryIn? {i : Item} {scope : Scope} {e : Text} (h : i.WellFormed)
    (found : i.entryIn? scope = some e) : IsEntry e := by
  cases i with
  | entry t l =>
    obtain ⟨-, same⟩ := Option.ite_none_right_eq_some.1 found
    cases same
    exact h
  | _ => cases found

theorem cutPair_eq_some {t a b : Text} (h : cutPair t = some (a, b)) : t = a ++ ':' :: b := by
  unfold cutPair at h
  split at h
  · -- the colon after a drive letter does not count
    split at h
    · obtain ⟨⟨x, y⟩, found, same⟩ := Option.map_eq_some_iff.1 h
      cases same
      rw [(cutFirst_char_eq_some_iff.1 found).1]
      rfl
    · exact (cutFirst_char_eq_some_iff.1 h).1
  · exact (cutFirst_char_eq_some_iff.1 h).1

theorem pair?_eq_some {q : Text × Text} (found : Line.pair? line = some q) :
    ∃ a b, cutPair (Line.entry line) = some (a, b) ∧ trim a ≠ [] ∧ trim b ≠ [] ∧
      q = (trim a, trim b) := by
  unfold Line.pair? at found
  split at found
  · cases found
  · rename_i a b cut
    obtain ⟨⟨source, destination⟩, same⟩ := Option.ite_none_right_eq_some.1 found
    exact ⟨a, b, cut, source, destination, (Option.some.inj same).symm⟩

theorem isPair_of_pair? {q : Text × Text} (h : IsContent line) (found : Line.pair? line = some q) :
    IsPair q := by
  have entry := isEntry_entry h
  obtain ⟨a, b, cut, source, destination, rfl⟩ := pair?_eq_some found
  have split := cutPair_eq_some cut
  have free : '\n' ∉ a ++ ':' :: b := by
    rw [← split]
    exact entry.noFeed
  cases a with
  | nil => exact absurd rfl source
  | cons c r =>
    have solid : isBlank c = false := entry.trimmed.first c (by rw [split]; rfl)
    have kept : trim (c :: r) = c :: trimEnd r := by
      rw [trim, trimStart_eq_self (by rintro d ⟨⟩; exact solid)]
      exact trimEnd_append_cons [] r solid
    refine ⟨⟨trimmed_trim _, source, ?_, ?_⟩, trimmed_trim b, destination, ?_⟩
    · dsimp only
      rw [kept]
      intro hash
      apply entry.plain
      rw [split]
      exact hash
    · exact fun feed => free (List.mem_append_left _ (mem_of_mem_trim feed))
    · exact fun feed =>
        free (List.mem_append_right _ (List.mem_cons_of_mem _ (mem_of_mem_trim feed)))

theorem isPair_of_pairOf? {i : Item} {kind : PairKind} {q : Text × Text} (h : i.WellFormed)
    (found : i.pairOf? kind = some q) : IsPair q := by
  cases i with
  | pair l line =>
    obtain ⟨-, same⟩ := Option.ite_none_right_eq_some.1 found
    exact isPair_of_pair? h same
  | _ => cases found

theorem mem_insertPair {a b : Text} {q : Text × Text} {ps : List (Text × Text)}
    (member : q ∈ insertPair a b ps) : q = (a, b) ∨ q ∈ ps := by
  induction ps with
  | nil => exact .inl (List.mem_singleton.1 member)
  | cons first rest ih =>
    obtain ⟨x, y⟩ := first
    unfold insertPair at member
    split at member
    · rcases List.mem_cons.1 member with here | later
      · exact .inl here
      · exact .inr (List.mem_cons_of_mem _ later)
    · rcases List.mem_cons.1 member with here | later
      · exact .inr (here ▸ List.mem_cons_self)
      · rcases ih later with here | later
        · exact .inl here
        · exact .inr (List.mem_cons_of_mem _ later)

theorem mem_insertPairs {q : Text × Text} {ps qs : List (Text × Text)}
    (member : q ∈ insertPairs ps qs) : q ∈ ps ∨ q ∈ qs := by
  induction qs using List.reverseRecOn with
  | nil => exact .inl member
  | append_singleton qs r ih =>
    have last : insertPairs ps (qs ++ [r]) = insertPair r.1 r.2 (insertPairs ps qs) := by
      simp [insertPairs]
    rw [last] at member
    rcases mem_insertPair member with here | earlier
    · exact .inr (by simp [here])
    · exact (ih earlier).imp_right (List.mem_append_left _)

theorem declared_run (disk : Disk) (file : Text) (items : List Item) (scope : Scope) :
    (run disk (bare file) items).declared scope = items.filterMap (Item.entryIn? scope) :=
  run_declared disk (bare file) items scope

theorem entries_run (disk : Disk) (file : Text)
    (listed : items.filterMap (Item.entryIn? .everyBuild) ≠ []) (scope : Scope) :
    (run disk (bare file) items).entries scope = items.filterMap (Item.entryIn? scope) := by
  cases scope with
  | everyBuild => rw [entries, declared_run, if_neg listed]
  | debugOnly =>
    rw [entries, declared_run]
    split
    · -- without entries there are no debug files either
      rename_i none
      rw [(consists_run disk file items).debugFiles, none]
      rfl
    · rfl

theorem isEntry_of_mem (wellFormed : ∀ i ∈ items, i.WellFormed) (scope : Scope) :
    ∀ e ∈ items.filterMap (Item.entryIn? scope), IsEntry e := by
  intro e here
  obtain ⟨i, member, found⟩ := List.mem_filterMap.1 here
  exact isEntry_of_entryIn? (wellFormed i member) found

-- Whatever well-formed items make of an empty project, its parts can be written.

section

variable (disk : Disk) (file : Text) (wellFormed : ∀ i ∈ items, i.WellFormed)
include wellFormed

theorem isSetting_run (k : OptionKey) :
    ∀ s ∈ (run disk (bare file) items).settings k, IsSetting k s := by
  intro s here
  rw [run_settings, bare, Option.or_none] at here
  obtain ⟨i, member, found⟩ := List.mem_filterMap.1 (List.mem_of_mem_getLast? here)
  exact isSetting_of_settingOf? (wellFormed i member) found

theorem isUnknown_run : ∀ l ∈ (run disk (bare file) items).unrecognized, IsUnknown l := by
  intro l here
  rw [run_unrecognized, bare, List.nil_append] at here
  obtain ⟨i, member, found⟩ := List.mem_filterMap.1 here
  exact isUnknown_of_unknown? (wellFormed i member) found

theorem isPair_run (kind : PairKind) :
    ∀ q ∈ (run disk (bare file) items).pairs kind, IsPair q := by
  intro q here
  rw [run_pairs] at here
  rcases mem_insertPairs here with here | here
  · cases here
  · obtain ⟨i, member, found⟩ := List.mem_filterMap.1 here
    exact isPair_of_pairOf? (wellFormed i member) found

/-- With files for every build the project can be written as a whole. -/
theorem printable_run (listed : items.filterMap (Item.entryIn? .everyBuild) ≠ []) :
    Printable (run disk (bare file) items) where
  settings := isSetting_run disk file wellFormed
  unrecognized := isUnknown_run disk file wellFormed
  entries := by
    intro scope
    rw [entries_run disk file listed]
    exact isEntry_of_mem wellFormed scope
  pairs := isPair_run disk file wellFormed

end

section

variable (accepted : (readText disk file source).result = .ok m)
include accepted

theorem isEntry_of_mem_declared (scope : Scope) : ∀ e ∈ m.declared scope, IsEntry e := by
  rw [readText_declared accepted]
  exact isEntry_of_mem (Item.wellFormed_inText source) scope

/-- A setting of a project that was read can be written, but for a name that comes from the disk:
of that only the comment was read. -/
theorem settings_readText_cases (here : s ∈ m.settings k) :
    IsSetting k s ∨ k = .project ∧ ∀ c ∈ s.comment, '\n' ∉ c := by
  have set := isSetting_run disk file (Item.wellFormed_inText source)
  obtain ⟨-, rfl⟩ := readText_eq_ok_iff.1 accepted
  obtain said | ⟨rfl, comment⟩ := settings_derive_cases here
  · exact .inl (set k s said)
  · refine .inr ⟨rfl, fun c remark => ?_⟩
    rw [comment] at remark
    obtain ⟨t, said, commented⟩ := Option.bind_eq_some_iff.1 remark
    exact (set .project t said).commentLine c commented

/-- A project that was read can be written without breaking a line if its name and the entries to
write do not, and files that were added since do not change that. -/
theorem unbroken_of_withoutFiles {q : Project} (same : q.withoutFiles = m.withoutFiles)
    (name : '\n' ∉ m.name) (entries : ∀ scope, ∀ e ∈ q.entries scope, '\n' ∉ e) :
    Unbroken q := by
  have wellFormed := Item.wellFormed_inText source
  have settings : q.settings = m.settings := (congrArg Project.settings same :)
  have unrecognized : q.unrecognized = m.unrecognized := (congrArg Project.unrecognized same :)
  have pairs : q.pairs = m.pairs := (congrArg Project.pairs same :)
  constructor
  case values =>
    intro k s here
    rw [settings] at here
    obtain set | ⟨rfl, -⟩ := settings_readText_cases accepted here
    · exact set.valueLine
    · have value : m.name = s.value := by
        rw [Project.name, valueD, value?, Option.mem_def.1 here]
        rfl
      rwa [← value]
  case comments =>
    intro k s here
    rw [settings] at here
    obtain set | ⟨-, comment⟩ := settings_readText_cases accepted here
    · exact set.commentLine
    · exact comment
  case unrecognized =>
    intro l here
    rw [unrecognized, readText_unrecognized accepted] at here
    exact (isUnknown_run disk file wellFormed l here).noFeed
  case entries => exact entries
  case pairs =>
    intro kind r here
    rw [pairs, readText_pairs accepted] at here
    have said : r ∈ (run disk (bare file) (Item.inText source)).pairs kind := by
      rw [run_pairs]
      exact here
    have pair := isPair_run disk file wellFormed kind r said
    exact ⟨pair.source.noFeed, pair.noFeed⟩

theorem unbroken_readText (name : '\n' ∉ m.name)
    (entries : ∀ e ∈ m.entries .everyBuild, '\n' ∉ e) : Unbroken m := by
  refine unbroken_of_withoutFiles accepted rfl name fun scope e here => ?_
  cases scope with
  | everyBuild => exact entries e here
  | debugOnly =>
    rw [Project.entries] at here
    split at here
    · rename_i none
      rw [debugFiles_eq_nil accepted none] at here
      cases here
    · exact (isEntry_of_mem_declared accepted .debugOnly e here).noFeed

end

/-! ### What was written is read -/

/-- The content of a written option line. -/
def optionContent (p : Project) (q : OptionKey × Setting) : Text :=
  trim (optionLine (nameWidth p.settingList) (valueWidth p.settingList) q.1 q.2)

theorem filterMap_writtenItems {α : Type} (f : Item → Option α) (p : Project) :
    (writtenItems p).filterMap f =
      (f (.requires p.versionRequired)).toList ++
      p.settingList.filterMap (fun q => f (.option (optionContent p q))) ++
      p.unrecognized.filterMap (fun l => f (.commentedOption l)) ++
      (p.entries .everyBuild).filterMap (fun e => f (.entry .everyBuild e)) ++
      (p.entries .debugOnly).filterMap (fun e => f (.entry .debugOnly e)) ++
      (p.pairLines .gzip).filterMap (fun l => f (.pair .gzip l)) ++
      (p.pairLines .xpm).filterMap (fun l => f (.pair .xpm l)) ++
      (p.pairLines .png).filterMap (fun l => f (.pair .png l)) := by
  have version : [Item.requires p.versionRequired].filterMap f =
      (f (.requires p.versionRequired)).toList := by
    cases here : f (.requires p.versionRequired) <;> simp [here]
  simp only [writtenItems, List.filterMap_append, version, List.filterMap_map, List.append_assoc]
  rfl

theorem findSome?_settingList (p : Project) (k : OptionKey) :
    p.settingList.reverse.findSome? (fun q => if q.1 = k then some q.2 else none) =
      p.settings k := by
  -- every hit is the setting of `k`
  have hit : ∀ q ∈ p.settingList.reverse, ∀ s, (if q.1 = k then some q.2 else none) = some s →
      p.settings k = some s := by
    intro q member s found
    obtain ⟨rfl, same⟩ := Option.ite_none_right_eq_some.1 found
    rw [← same]
    exact mem_settingList.1 (List.mem_reverse.1 member)
  cases here : p.settings k with
  | none =>
    rw [List.findSome?_eq_none_iff]
    intro q member
    by_contra some
    obtain ⟨s, found⟩ := Option.ne_none_iff_exists'.1 some
    have set := hit q member s found
    rw [here] at set
    cases set
  | some s =>
    have member : (k, s) ∈ p.settingList.reverse := List.mem_reverse.2 (mem_settingList.2 here)
    cases result : p.settingList.reverse.findSome?
        (fun q => if q.1 = k then some q.2 else none) with
    | none =>
      have missed := List.findSome?_eq_none_iff.1 result _ member
      simp at missed
    | some t =>
      obtain ⟨q, inside, found⟩ := List.exists_of_findSome?_eq_some result
      rw [← here, hit q inside t found]

theorem settingOf?_writtenItems (h : Printable p) (k : OptionKey) :
    ((writtenItems p).filterMap (Item.settingOf? k)).getLast? = p.settings k := by
  have option : ∀ q ∈ p.settingList, Item.settingOf? k (.option (optionContent p q)) =
      if q.1 = k then some q.2 else none := by
    intro q member
    have set := lineSetting?_optionLine (isSetting_of_mem_settingList h q member)
      (nameWidth p.settingList) (valueWidth p.settingList)
    simp [Item.settingOf?, Item.setting?, optionContent, set]
  have unknown : ∀ l ∈ p.unrecognized, Item.settingOf? k (.commentedOption l) = none := by
    intro l member
    simp [Item.settingOf?, Item.setting?, (h.unrecognized l member).unknown]
  rw [filterMap_writtenItems, List.filterMap_congr option, List.filterMap_congr unknown]
  simp [Item.settingOf?, Item.setting?, findSome?_settingList]

theorem unknown?_writtenItems (h : Printable p) :
    (writtenItems p).filterMap Item.unknown? = p.unrecognized := by
  have option : ∀ q ∈ p.settingList, Item.unknown? (.option (optionContent p q)) = none := by
    intro q member
    have set := lineSetting?_optionLine (isSetting_of_mem_settingList h q member)
      (nameWidth p.settingList) (valueWidth p.settingList)
    simp [Item.unknown?, optionContent, set]
  have unknown : ∀ l ∈ p.unrecognized, Item.unknown? (.commentedOption l) = some l := by
    intro l member
    simp [Item.unknown?, (h.unrecognized l member).unknown]
  rw [filterMap_writtenItems, List.filterMap_congr option, List.filterMap_congr unknown]
  simp [Item.unknown?]

theorem entryIn?_writtenItems (p : Project) (scope : Scope) :
    (writtenItems p).filterMap (Item.entryIn? scope) = p.entries scope := by
  cases scope <;> simp [filterMap_writtenItems, Item.entryIn?]

theorem pairOf?_writtenItems {kind : PairKind} (none : ∀ kind, p.pairs kind = []) :
    (writtenItems p).filterMap (Item.pairOf? kind) = [] := by
  simp [filterMap_writtenItems, Item.pairOf?, pairLines, none]

theorem tooNew?_writtenItems (p : Project) :
    (writtenItems p).findSome? Item.tooNew? = none := by
  have version := newerThan_of_known (versionRequired_mem p)
  simp only [writtenItems, List.findSome?_append, List.findSome?_map]
  simp [version, Function.comp_def, Item.tooNew?]

/-- Two projects that say the same, but for the version they ask for and the pairs they list. -/
structure Agree (p q : Project) : Prop where
  file : p.file = q.file
  settings : p.settings = q.settings
  unrecognized : p.unrecognized = q.unrecognized
  declared : p.declared = q.declared
  files : p.files = q.files
  debugFiles : p.debugFiles = q.debugFiles
  rcFile : p.rcFile = q.rcFile
  helpFile : p.helpFile = q.helpFile
  idlFiles : p.idlFiles = q.idlFiles

/-- The text gives a name and lists files, so that nothing comes from its directory. -/
structure SelfContained (source : Text) : Prop where
  named : ∃ s, ((Item.inText source).filterMap (Item.settingOf? .project)).getLast? = some s ∧
    s.value ≠ []
  listed : (Item.inText source).filterMap (Item.entryIn? .everyBuild) ≠ []

theorem derive_eq_self {s : Setting} (named : p.settings .project = some s) (filled : s.value ≠ [])
    (listed : p.declared .everyBuild ≠ []) : (derive disk p).1 = p := by
  have name : p.hasValue .project = true := by simp [hasValue, filled?, value?, named, filled]
  simp [derive, deriveName, deriveFiles, name, listed]

theorem Agree.text_eq {q : Project} (h : Agree p q) (pairs : ∀ kind, p.pairs kind = q.pairs kind) :
    p.text = q.text := by
  have settings : p.settingList = q.settingList := by simp only [settingList, h.settings]
  have version : p.versionRequired = q.versionRequired := by
    have set : p.isSet = q.isSet := by
      funext k
      rw [isSet, isSet, h.settings]
    rw [versionRequired, versionRequired, set]
  have options : p.optionLines = q.optionLines := by
    simp only [optionLines, settings, h.unrecognized]
  have entry : ∀ scope, p.entries scope = q.entries scope := by
    intro scope
    cases scope <;> simp only [entries, h.declared, h.files, h.debugFiles]
  simp only [Project.text, Project.lines, version, options, entry, pairLines, pairs]

/-- Items that agree option by option, line by line and entry by entry make projects that agree. -/
theorem agree_run (disk : Disk) (file : Text) {as bs : List Item}
    (settings : ∀ k, (as.filterMap (Item.settingOf? k)).getLast? =
      (bs.filterMap (Item.settingOf? k)).getLast?)
    (unrecognized : as.filterMap Item.unknown? = bs.filterMap Item.unknown?)
    (declared : ∀ scope, as.filterMap (Item.entryIn? scope) = bs.filterMap (Item.entryIn? scope)) :
    Agree (run disk (bare file) as) (run disk (bare file) bs) := by
  have one := consists_run disk file as
  have other := consists_run disk file bs
  simp only [declared] at one
  constructor
  case file => rw [run_file, run_file]
  case settings =>
    funext k
    rw [run_settings, run_settings, settings]
  case unrecognized => rw [run_unrecognized, run_unrecognized, unrecognized]
  case declared =>
    funext scope
    rw [run_declared, run_declared, declared]
  case files => rw [one.files, other.files]
  case debugFiles => rw [one.debugFiles, other.debugFiles]
  case rcFile => rw [one.rcFile, other.rcFile]
  case helpFile => rw [one.helpFile, other.helpFile]
  case idlFiles => rw [one.idlFiles, other.idlFiles]

/-- A project that was read from a text comes back from the text it is written to, with its settings
and their comments, its unknown lines, its entries and its files. Without pairs, writing it once
more gives the same text. -/
theorem agree_readText_text {source : Text} {m : Project} (h : SelfContained source)
    (accepted : (readText disk file source).result = .ok m) :
    ∃ again, (readText disk file m.text).result = .ok again ∧ Agree again m ∧
      ((∀ kind, m.pairs kind = []) → again.text = m.text) := by
  obtain ⟨s, named, filled⟩ := h.named
  obtain ⟨-, read⟩ := readText_eq_ok_iff.1 accepted
  have name : (run disk (bare file) (Item.inText source)).settings .project = some s := by
    rw [run_settings, named]
    rfl
  have listed : (run disk (bare file) (Item.inText source)).declared .everyBuild ≠ [] := by
    rw [declared_run]
    exact h.listed
  -- nothing is derived from the directory: the project is what the items made of an empty one
  rw [derive_eq_self name filled listed] at read
  have printable := printable_run disk file (Item.wellFormed_inText source) h.listed
  have entries := entries_run disk file h.listed
  have agree : Agree (run disk (bare file) (writtenItems m))
      (run disk (bare file) (Item.inText source)) := by
    rw [read] at printable entries
    apply agree_run
    · intro k
      rw [settingOf?_writtenItems printable, ← read, run_settings]
      exact Option.or_none
    · rw [unknown?_writtenItems printable, ← read, run_unrecognized]
      rfl
    · intro scope
      rw [entryIn?_writtenItems, entries]
  rw [read] at agree printable name listed
  have items : Item.inText m.text = writtenItems m := inText_text printable
  refine ⟨run disk (bare file) (writtenItems m), ?_, agree, fun none => ?_⟩
  · rw [readText_eq_ok_iff, items]
    refine ⟨tooNew?_writtenItems m, derive_eq_self ?_ filled ?_⟩
    · rw [agree.settings, name]
    · rw [agree.declared]
      exact listed
  · apply agree.text_eq
    intro kind
    rw [run_pairs, pairOf?_writtenItems none, none]
    rfl

/-- A value with a hash, a revived option, a line of an unknown one, and both kinds of entries. -/
def sampleText : Text :=
  "Options:\n  Project: \"a#b\" # the name\n  # [unrecognized] warn: 3 # strict\n" ++
    "  color = blue # later\nFiles:\n  main.cpp # first\n  *.cc\nDebugFiles:\n  trace.cpp\n"

def sampleDisk : Disk :=
  { top := [("x.cc", .file [] ⟨0⟩), ("y.cc", .file [] ⟨0⟩)], current := [], now := ⟨0⟩ }

theorem agree_readText_text_sample :
    SelfContained sampleText ∧
      ∃ m, (readText sampleDisk "p.yaml" sampleText).result = .ok m ∧
        ∃ again, (readText sampleDisk "p.yaml" m.text).result = .ok again ∧ Agree again m ∧
          ((∀ kind, m.pairs kind = []) → again.text = m.text) := by
  have h : SelfContained sampleText :=
    ⟨⟨⟨"a#b", some "the name"⟩, by decide +kernel, by decide⟩, by decide +kernel⟩
  have accepted : (readText sampleDisk "p.yaml" sampleText).result =
      .ok (derive sampleDisk (run sampleDisk (bare "p.yaml") (Item.inText sampleText))).1 :=
    readText_eq_ok_iff.2 ⟨by decide +kernel, rfl⟩
  exact ⟨h, _, accepted, agree_readText_text h accepted⟩

end BuildMatrix.Project
