import BuildMatrix.Proofs.Project.OptionLine
import BuildMatrix.Proofs.Project.Reading
import BuildMatrix.Proofs.Version.Grammar

/-! The lines that a project is written with. If its settings, entries and pairs are such as lines
can hold, every line but the headers is read as what it was written for. -/

set_option autoImplicit false

namespace BuildMatrix.Project

open Text Line

variable {p : Project}

/-! ### What can be written -/

structure IsSetting (k : OptionKey) (s : Setting) : Prop where
  faithful : Faithful s.value s.comment
  stored : storedValue k s.value = s.value
  valueLine : '\n' ∉ s.value
  commentLine : ∀ c ∈ s.comment, '\n' ∉ c

structure IsUnknown (line : Text) : Prop where
  trimmed : line.Trimmed
  noFeed : '\n' ∉ line
  unknown : lineSetting? line = none

structure IsPair (q : Text × Text) : Prop where
  source : IsContent q.1
  destination : q.2.Trimmed
  filled : q.2 ≠ []
  noFeed : '\n' ∉ q.2

structure Printable (p : Project) : Prop where
  settings : ∀ k, ∀ s ∈ p.settings k, IsSetting k s
  unrecognized : ∀ line ∈ p.unrecognized, IsUnknown line
  entries : ∀ scope, ∀ e ∈ p.entries scope, IsEntry e
  pairs : ∀ kind, ∀ q ∈ p.pairs kind, IsPair q

theorem IsPair.isContent {q : Text × Text} (h : IsPair q) : IsContent (q.1 ++ ": " ++ q.2) := by
  obtain ⟨c, r, source, solid, plain⟩ := h.source.exists_cons
  refine ⟨⟨?_, ?_⟩, ?_, ?_, ?_⟩
  · rw [source]
    rintro d ⟨⟩
    exact solid
  · intro d last
    rw [List.getLast?_append, List.getLast?_eq_some_getLast h.filled] at last
    exact h.destination.last d (by rwa [List.getLast?_eq_some_getLast h.filled])
  · simp [source]
  · rw [source]
    simpa using plain
  · simp [h.source.noFeed, h.noFeed]

/-! ### The version -/

theorem foldl_newest_mem (a : Version) (vs : List Version) :
    vs.foldl Version.newest a ∈ a :: vs := by
  induction vs generalizing a with
  | nil => simp
  | cons b rest ih =>
    have later := ih (Version.newest a b)
    have choice : Version.newest a b = a ∨ Version.newest a b = b := by
      unfold Version.newest
      split
      · exact .inr rfl
      · exact .inl rfl
    rw [List.foldl_cons]
    -- the start of the fold over the rest is one of the two versions
    rcases List.mem_cons.1 later with here | later
    · rw [here]
      rcases choice with same | same <;> simp [same]
    · simp [later]

/-- The versions that projects are written with. -/
def knownVersions : List Version := ⟨1, 0, 0⟩ :: OptionKey.all.map OptionKey.since

theorem versionRequired_mem (p : Project) : p.versionRequired ∈ knownVersions := by
  have found := foldl_newest_mem ⟨1, 0, 0⟩ ((OptionKey.all.filter p.isSet).map OptionKey.since)
  rcases List.mem_cons.1 found with first | later
  · exact List.mem_cons.2 (.inl first)
  · obtain ⟨k, -, since⟩ := List.mem_map.1 later
    exact List.mem_cons.2 (.inr (List.mem_map.2 ⟨k, OptionKey.mem_all k, since⟩))

theorem newerThan_of_known {v : Version} (known : v ∈ knownVersions) :
    v.newerThan toolVersion = false := by
  revert v
  decide +kernel

/-! ### The header -/

theorem versionHeader_eq (v : Version) :
    Line.versionHeader v =
      '#' :: (" Requires ninjgen version" ++ ' ' :: (v.text ++ ' ' :: "or higher to process")) :=
  rfl

theorem head?_versionHeader (v : Version) : (Line.versionHeader v).head? = some '#' := by
  rw [versionHeader_eq]
  rfl

theorem getLast?_versionHeader (v : Version) : (Line.versionHeader v).getLast? = some 's' := by
  have ends : (" or higher to process" : Text).getLast? = some 's' := by decide
  unfold Line.versionHeader
  rw [List.getLast?_append, ends, Option.some_or]

theorem trimmed_versionHeader (v : Version) : (Line.versionHeader v).Trimmed where
  first := by
    rw [head?_versionHeader]
    rintro c ⟨⟩
    rfl
  last := by
    rw [getLast?_versionHeader]
    rintro c ⟨⟩
    rfl

/-- The word for the version in a header is what the version is written as. -/
theorem versionWord?_versionHeader (v : Version) :
    Line.versionWord? (Line.versionHeader v) = some v.text := by
  have solid := (Version.spells_text v).solid
  have filled : v.text ≠ [] := by simp [Version.text]
  have cut :
      words (" Requires ninjgen version" ++ ' ' :: (v.text ++ ' ' :: "or higher to process")) =
        words " Requires ninjgen version" ++ ([v.text] ++ words "or higher to process") := by
    rw [words_append_cons rfl, words_append_cons rfl, words_of_solid filled solid]
  rw [Line.versionWord?, (trimmed_versionHeader v).trim_eq, versionHeader_eq]
  simp only [cut]
  rfl

theorem ofLine_versionHeader (v : Version) :
    Item.ofLine .preamble (Line.versionHeader v) = (.preamble, some (.requires v)) := by
  have comment : Item.ofComment (Line.versionHeader v) .preamble = some (.requires v) := by
    simp only [Item.ofComment, versionWord?_versionHeader, Version.ofText?_text]
  have filled : Line.versionHeader v ≠ [] := by simp [versionHeader_eq]
  rw [Item.ofLine_eq, (trimmed_versionHeader v).trim_eq, if_neg filled,
    if_pos (head?_versionHeader v), comment]

theorem noFeed_versionHeader (v : Version) : '\n' ∉ Line.versionHeader v := by
  have text : '\n' ∉ v.text := fun feed =>
    absurd ((Version.spells_text v).solid _ feed) (by decide)
  rw [versionHeader_eq]
  simp [text]

/-! ### Options -/

theorem ofLine_optionLine (names values : Nat) (k : OptionKey) (s : Setting) :
    Item.ofLine .options (optionLine names values k s) =
      (.options, some (.option (trim (optionLine names values k s)))) := by
  obtain ⟨b, -, line⟩ := trim_optionLine names values k s
  have filled : trim (optionLine names values k s) ≠ [] := by
    rw [line]
    simp
  have plain : (trim (optionLine names values k s)).head? ≠ some '#' := by
    rw [line, List.head?_append_of_ne_nil _ (OptionKey.name_ne_nil k)]
    exact fun here => (OptionKey.of_mem_name (List.mem_of_mem_head? here)).2.2.2 rfl
  have header : Line.isHeader (trimEnd (optionLine names values k s)) = false := by
    rw [optionLine_columns]
    exact isHeader_trimEnd_indent _
  rw [Item.ofLine_eq, if_neg filled, if_neg plain, header, if_neg Bool.false_ne_true]
  rfl

theorem lineSetting?_of_faithful {k : OptionKey} {s : Setting}
    (faithful : Faithful s.value s.comment) (stored : storedValue k s.value = s.value)
    (names values : Nat) : lineSetting? (trim (optionLine names values k s)) = some (k, s) := by
  simp [lineSetting?, option?_optionLine faithful, OptionKey.ofName?_name, stored]

theorem lineSetting?_optionLine {k : OptionKey} {s : Setting} (h : IsSetting k s)
    (names values : Nat) : lineSetting? (trim (optionLine names values k s)) = some (k, s) :=
  lineSetting?_of_faithful h.faithful h.stored names values

/-- A line behind the mark of unrecognized options is read as commented out. -/
theorem ofLine_mark {b : Text} (blank : Blanks b) (line : Text) :
    Item.ofLine .options (b ++ unrecognizedMark ++ line) =
      (.options, some (.commentedOption (trim line))) := by
  -- the mark ends in a blank, which goes when the whole line is trimmed and nothing follows
  have word : trimEnd unrecognizedMark = "# [unrecognized" ++ [']'] := by decide
  have mark : b ++ unrecognizedMark ++ line = b ++ ("# [unrecognized" ++ ']' :: ' ' :: line) := by
    have ends : unrecognizedMark = "# [unrecognized" ++ [']', ' '] := by decide
    rw [ends, List.append_assoc, List.append_assoc]
    rfl
  have cut : trim (b ++ unrecognizedMark ++ line) =
      trimEnd unrecognizedMark ++ trimEnd (' ' :: line) := by
    have first : ∀ c ∈ ("# [unrecognized" ++ ']' :: ' ' :: line : Text).head?,
        isBlank c = false := by
      rintro c ⟨⟩
      rfl
    rw [mark, trim_blanks_append blank, trim, trimStart_eq_self first,
      trimEnd_append_cons _ _ rfl, word]
    simp
  have again : trimStart (trimEnd (' ' :: line)) = trim line := by
    rw [trimStart_trimEnd, ← List.singleton_append, trim_blanks_append (by simp [Blanks]; rfl)]
  have filled : trim (b ++ unrecognizedMark ++ line) ≠ [] := by
    rw [cut, word]
    simp
  have hash : (trim (b ++ unrecognizedMark ++ line)).head? = some '#' := by
    rw [cut, word]
    rfl
  have comment : Item.ofComment (trim (b ++ unrecognizedMark ++ line)) .options =
      some (.commentedOption (trim line)) := by
    have found := List.isPrefixOf?_eq_some_iff_append_eq.2 cut.symm
    rw [Item.ofComment, found, Option.map_some, again]
  rw [Item.ofLine_eq, if_neg filled, if_pos hash, comment]

/-- An unknown option that was commented out is read as commented out. -/
theorem ofLine_unrecognized {line : Text} (h : IsUnknown line) :
    Item.ofLine .options (indent ++ unrecognizedMark ++ line) =
      (.options, some (.commentedOption line)) := by
  rw [ofLine_mark blanks_indent, h.trimmed.trim_eq]

theorem mem_settingList {q : OptionKey × Setting} :
    q ∈ p.settingList ↔ p.settings q.1 = some q.2 := by
  simp only [settingList, List.mem_filterMap, Option.map_eq_some_iff]
  constructor
  · rintro ⟨k, -, s, set, rfl⟩
    exact set
  · intro set
    exact ⟨q.1, OptionKey.mem_all q.1, q.2, set, rfl⟩

theorem isSetting_of_mem_settingList (h : Printable p) :
    ∀ q ∈ p.settingList, IsSetting q.1 q.2 :=
  fun q member => h.settings q.1 q.2 (mem_settingList.1 member)

/-! ### All lines -/

/-- The items that a project is written for. -/
def writtenItems (p : Project) : List Item :=
  [.requires p.versionRequired] ++
    ((p.settingList.map fun q =>
        .option (trim (optionLine (nameWidth p.settingList) (valueWidth p.settingList) q.1 q.2))) ++
      p.unrecognized.map .commentedOption) ++
    (p.entries .everyBuild).map (.entry .everyBuild) ++
    (p.entries .debugOnly).map (.entry .debugOnly) ++
    (p.pairLines .gzip).map (.pair .gzip) ++
    (p.pairLines .xpm).map (.pair .xpm) ++
    (p.pairLines .png).map (.pair .png)

theorem isContent_of_mem_pairLines (h : Printable p) (kind : PairKind) :
    ∀ l ∈ p.pairLines kind, IsContent l := by
  intro l member
  obtain ⟨q, inside, rfl⟩ := List.mem_map.1 member
  exact (h.pairs kind q inside).isContent

end BuildMatrix.Project
