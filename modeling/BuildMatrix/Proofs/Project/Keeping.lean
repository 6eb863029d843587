import BuildMatrix.Proofs.Path.FileName
import BuildMatrix.Proofs.Project.Coherence

/-! Files that are added in memory. A project is written with the entries it declared, and with its
files only where it declared none. So what is added to a project that was read is there again after
it was written exactly if the text listed nothing for its scope, or had the file already. -/

set_option autoImplicit false

namespace BuildMatrix.Project

open Text Line

variable {disk : Disk} {p m : Project} {added debug fs : List Text} {file source f : Text}
  {scope : Scope}

/-! ### Files as entries -/

/-- A file that can be listed as it is: its entry is a path, and it is that path. -/
structure Listable (f : Text) : Prop where
  entry : IsEntry f
  path : Entry.ofText f = .path f

theorem beforeComment_of_not_mem {after : Bool} {t : Text} (free : '#' ∉ t) :
    beforeComment after t = t := by
  induction t generalizing after with
  | nil => rfl
  | cons c r ih =>
    rw [List.mem_cons, not_or] at free
    rw [beforeComment, if_neg fun hash => free.1 hash.1.symm, ih free.2]

theorem isEntry_of_solid {t : Text} (filled : t ≠ [])
    (solid : ∀ c ∈ t, isBlank c = false ∧ c ≠ '#') : IsEntry t := by
  have trimmed : t.Trimmed :=
    ⟨fun c here => (solid c (List.mem_of_mem_head? here)).1,
      fun c here => (solid c (List.mem_of_mem_getLast? here)).1⟩
  have free : '#' ∉ t := fun member => (solid '#' member).2 rfl
  refine ⟨⟨trimmed, filled, fun first => free (List.mem_of_mem_head? first), fun feed => ?_⟩, ?_⟩
  · exact absurd (solid '\n' feed).1 (by decide)
  · rw [Line.entry, trimmed.trim_eq, beforeComment_of_not_mem free, trimEnd_eq_self trimmed.last]

/-- A file name that can be written without further ado, as far as it can be seen from it. -/
structure IsPlain (f : Text) : Prop where
  plain : ∀ c ∈ f, isBlank c = false ∧ c ∉ ['#', '*', '?', '[']
  noInclude : ¬ (".include" : Text) <+: f
  source : Path.isSource f = true

theorem isPlain_iff : IsPlain f ↔
    (f.all fun c => !isBlank c && decide (c ∉ ['#', '*', '?', '['])) = true ∧
      ¬ (".include" : Text) <+: f ∧ Path.isSource f = true := by
  simp only [List.all_eq_true, Bool.and_eq_true, Bool.not_eq_true', decide_eq_true_eq]
  exact ⟨fun h => ⟨h.plain, h.noInclude, h.source⟩, fun ⟨plain, noInclude, source⟩ =>
    ⟨plain, noInclude, source⟩⟩

instance (f : Text) : Decidable (IsPlain f) := decidable_of_iff _ isPlain_iff.symm

theorem IsPlain.plain_canonical (h : IsPlain f) :
    ∀ c ∈ Path.canonical f, isBlank c = false ∧ c ∉ ['#', '*', '?', '['] := by
  intro c member
  rcases Path.mem_of_mem_canonical member with rfl | rfl | here
  · decide
  · decide
  · exact h.plain c here

/-- The normal form of a plain file name can be listed, unless it is an include by now. -/
theorem IsPlain.listable (h : IsPlain f) (noInclude : ¬ (".include" : Text) <+: Path.canonical f) :
    Listable (Path.canonical f) := by
  have plain := h.plain_canonical
  have filled : Path.canonical f ≠ [] := by
    intro empty
    have source := Path.isSource_canonical h.source
    rw [empty] at source
    cases source
  refine ⟨isEntry_of_solid filled fun c member => ?_, ?_⟩
  · have other := (plain c member).2
    exact ⟨(plain c member).1, fun hash => other (hash ▸ List.mem_cons_self)⟩
  · have included : Entry.includePath? (Path.canonical f) = none := by
      unfold Entry.includePath?
      split
      · rfl
      · rename_i rest found
        exact absurd ⟨rest, List.append_eq_of_isPrefixOf?_eq_some found⟩ noInclude
    have pattern : isPattern (Path.canonical f) = false := by
      rw [isPattern, List.any_eq_false]
      intro c member
      have other := (plain c member).2
      simp only [List.mem_cons, not_or] at other
      simp [other]
    rw [Entry.ofText, if_neg filled, included, pattern]
    rfl

theorem entryPaths_of_listable (disk : Disk) (file : Text) (h : Listable f) :
    entryPaths disk file f = [Path.canonical f] := by
  rw [entryPaths, entryContribution, h.path, contribution]
  rfl

theorem listedFiles_of_listable (disk : Disk) (file : Text) (listable : ∀ f ∈ fs, Listable f)
    (normal : ∀ f ∈ fs, Path.canonical f = f) : listedFiles disk file fs = fs := by
  have path : ∀ f ∈ fs, entryPaths disk file f = [f] := by
    intro f member
    rw [entryPaths_of_listable disk file (listable f member), normal f member]
  rw [listedFiles, List.flatMap_congr path, List.flatMap_singleton',
    List.map_congr_left normal, List.map_id']

/-! ### Added files -/

def addAll (p : Project) (more : List (Scope × Text)) : Project :=
  more.foldl (fun q a => q.add a.1 a.2) p

/-- The normal forms of the files that are added to a scope. -/
def addedTo (scope : Scope) (more : List (Scope × Text)) : List Text :=
  (more.filter fun a => a.1 = scope).map fun a => Path.canonical a.2

theorem withoutFiles_addAll (p : Project) (more : List (Scope × Text)) :
    (p.addAll more).withoutFiles = p.withoutFiles := by
  induction more generalizing p with
  | nil => rfl
  | cons a rest ih => exact (ih _).trans (withoutFiles_add p a.1 a.2)

theorem declared_addAll (p : Project) (more : List (Scope × Text)) (scope : Scope) :
    (p.addAll more).declared scope = p.declared scope := by
  have same := congrArg declared (withoutFiles_addAll p more)
  exact congrFun same scope

theorem Consists.addAll (h : Consists p added debug) (more : List (Scope × Text)) :
    Consists (p.addAll more) (added ++ addedTo .everyBuild more)
      (debug ++ addedTo .debugOnly more) := by
  -- every addition makes one of the two sequences longer, and the other one stays
  induction more generalizing p added debug with
  | nil => simpa [Project.addAll, addedTo] using h
  | cons a rest ih =>
    obtain ⟨scope, f⟩ := a
    cases scope with
    | everyBuild => simpa [Project.addAll, addedTo, Project.add] using ih (h.addFile f)
    | debugOnly => simpa [Project.addAll, addedTo, Project.add] using ih (h.addDebugFile f)

/-! ### Written entries -/

theorem entries_of_declared (some : p.declared scope ≠ []) :
    p.entries scope = p.declared scope := by
  cases scope <;> exact if_neg some

theorem entriesIn_text (unbroken : Unbroken p) (entries : ∀ e ∈ p.entries scope, IsEntry e) :
    entriesIn scope p.text = p.entries scope := by
  have written : Section.files scope ∈ writtenSections.map Prod.snd := by cases scope <;> decide
  -- an entry that was read once holds nothing that a second reading takes off
  have line : ∀ e ∈ p.entries scope,
      (Item.ofIndented (.files scope) e).bind (Item.entryIn? scope) = some e := by
    intro e member
    have entry := entries e member
    rw [Item.ofIndented_of_content entry.toIsContent]
    simp [Item.ofContent, Item.entryIn?, entry.kept]
  rw [entriesIn, filterMap_inText_text unbroken written fun _ => Item.entryIn?_of_origin, bodies,
    List.filterMap_congr line]
  exact List.filterMap_some

section

variable (accepted : (readText disk file source).result = .ok m) {more : List (Scope × Text)}
  (plain : ∀ a ∈ more, IsPlain a.2)
  (noInclude : ∀ a ∈ more, m.declared a.1 = [] → ¬ (".include" : Text) <+: Path.canonical a.2)
  (listable : m.declared .everyBuild = [] → ∀ f ∈ m.files, Listable f)

include plain noInclude in
theorem listable_of_mem_addedTo (none : m.declared scope = []) (member : f ∈ addedTo scope more) :
    Listable f ∧ Path.canonical f = f := by
  obtain ⟨a, inside, rfl⟩ := List.mem_map.1 member
  obtain ⟨added, here⟩ := List.mem_filter.1 inside
  have unlisted : m.declared a.1 = [] := by rwa [of_decide_eq_true here]
  exact ⟨(plain a added).listable (noInclude a added unlisted), Path.canonical_canonical a.2⟩

include accepted plain noInclude listable

/-- Where no entries were declared, all files can be listed. -/
theorem listable_entries (none : m.declared scope = []) :
    ∀ f ∈ (m.addAll more).entries scope, Listable f ∧ Path.canonical f = f := by
  have consists := (consists_readText accepted).addAll more
  have unlisted := (declared_addAll m more scope).trans none
  intro f member
  cases scope with
  | everyBuild =>
    rw [entries, if_pos unlisted, consists.mem_files, List.mem_append] at member
    rcases member with read | added
    · exact ⟨listable none f ((consists_readText accepted).mem_files.2 read),
        canonical_of_mem_everyFile read⟩
    · exact listable_of_mem_addedTo plain noInclude none added
  | debugOnly =>
    rw [entries, if_pos unlisted, consists.mem_debugFiles, List.mem_append] at member
    rcases member.1 with read | added
    · -- without entries nothing was read for debug builds
      rw [← readText_declared accepted, none] at read
      cases read
    · exact listable_of_mem_addedTo plain noInclude none added

theorem isEntry_entries (scope : Scope) : ∀ e ∈ (m.addAll more).entries scope, IsEntry e := by
  intro e member
  by_cases none : m.declared scope = []
  · exact (listable_entries accepted plain noInclude listable none e member).1.entry
  · rw [entries_of_declared (by rwa [declared_addAll]), declared_addAll] at member
    exact isEntry_of_mem_declared accepted scope e member

theorem unbroken_addAll (name : '\n' ∉ m.name) : Unbroken (m.addAll more) :=
  unbroken_of_withoutFiles accepted (withoutFiles_addAll m more) name fun _ e member =>
    (isEntry_entries accepted plain noInclude listable _ e member).noFeed

/-- What the written entries of a scope stand for. -/
theorem listedFiles_text (name : '\n' ∉ m.name) (scope : Scope) :
    listedFiles disk file (entriesIn scope (m.addAll more).text) =
      if m.declared scope = [] then (m.addAll more).entries scope
      else listedFiles disk file (entriesIn scope source) := by
  rw [entriesIn_text (unbroken_addAll accepted plain noInclude listable name)
    (isEntry_entries accepted plain noInclude listable scope)]
  split
  · rename_i none
    have all := listable_entries accepted plain noInclude listable none
    exact listedFiles_of_listable disk file (fun f member => (all f member).1)
      fun f member => (all f member).2
  · rename_i some
    rw [entries_of_declared (by rwa [declared_addAll]), declared_addAll, readText_declared accepted]

theorem mem_everyFile_text (name : '\n' ∉ m.name) :
    f ∈ everyFile disk file (m.addAll more).text ↔
      f ∈ (m.addAll more).files ∧ (m.declared .everyBuild = [] ∨ f ∈ m.files) := by
  have consists := (consists_readText accepted).addAll more
  have read := consists_readText accepted
  have grown (member : f ∈ m.files) : f ∈ (m.addAll more).files :=
    consists.mem_files.2 (List.mem_append_left _ (read.mem_files.1 member))
  have listed := listedFiles_text accepted plain noInclude listable name .everyBuild
  have written := entriesIn_text (unbroken_addAll accepted plain noInclude listable name)
    (isEntry_entries accepted plain noInclude listable .everyBuild)
  by_cases none : m.declared .everyBuild = []
  · have unlisted := (declared_addAll m more .everyBuild).trans none
    have entries : (m.addAll more).entries .everyBuild = (m.addAll more).files := if_pos unlisted
    rw [if_pos none, entries] at listed
    rw [entries] at written
    rw [everyFile, listed, written]
    split
    · -- there are no files at all, and so there were no sources to stand in
      rename_i empty
      have around : f ∉ everyFile disk file source := by
        intro member
        have inside := grown (read.mem_files.2 member)
        rw [empty] at inside
        cases inside
      rw [everyFile, if_pos (by rw [← readText_declared accepted, none])] at around
      simp [empty, around]
    · simp [none]
  · have some : (m.addAll more).entries .everyBuild ≠ [] := by
      rw [entries_of_declared (by rwa [declared_addAll]), declared_addAll]
      exact none
    rw [if_neg none] at listed
    rw [everyFile, if_neg (by rwa [written]), listed]
    have before : f ∈ m.files ↔ f ∈ listedFiles disk file (entriesIn .everyBuild source) := by
      rw [read.mem_files, everyFile, if_neg (by rwa [← readText_declared accepted])]
    simp only [none, false_or, ← before]
    exact ⟨fun member => ⟨grown member, member⟩, And.right⟩

/-- After a project was read and plain files were added, a file comes back from what is written if
its scope lists no entries, or if it was there when the project was read. Otherwise it is lost. -/
theorem files_readText_addAll (name : '\n' ∉ m.name) :
    ∃ again, (readText disk file (m.addAll more).text).result = .ok again ∧
      (∀ f ∈ (m.addAll more).files,
        f ∈ again.files ↔ m.declared .everyBuild = [] ∨ f ∈ m.files) ∧
      (∀ f ∈ (m.addAll more).debugFiles,
        f ∈ again.debugFiles ↔ m.declared .debugOnly = [] ∨ f ∈ m.debugFiles) := by
  have unbroken := unbroken_addAll accepted plain noInclude listable name
  have again : (readText disk file (m.addAll more).text).result =
      .ok (derive disk (run disk (bare file) (Item.inText (m.addAll more).text))).1 :=
    readText_eq_ok_iff.2 ⟨tooNew?_inText_text unbroken, rfl⟩
  have back := consists_readText again
  have added := (consists_readText accepted).addAll more
  have read := consists_readText accepted
  refine ⟨_, again, fun f member => ?_, fun f member => ?_⟩
  · rw [back.mem_files, mem_everyFile_text accepted plain noInclude listable name]
    exact and_iff_right member
  · -- a file for debug builds alone is none for every build, neither before nor afterwards
    have only := (added.mem_debugFiles.1 member).2
    have apart : f ∉ everyFile disk file (m.addAll more).text := by
      rw [mem_everyFile_text accepted plain noInclude listable name, added.mem_files]
      exact fun every => only every.1
    have before : f ∉ everyFile disk file source := fun every => only (List.mem_append_left _ every)
    rw [back.mem_debugFiles, read.mem_debugFiles, and_iff_left apart, and_iff_left before,
      listedFiles_text accepted plain noInclude listable name]
    split
    · rename_i none
      have unlisted := (declared_addAll m more .debugOnly).trans none
      have entries : (m.addAll more).entries .debugOnly = (m.addAll more).debugFiles :=
        if_pos unlisted
      simp [entries, member, none]
    · rename_i some
      simp [some]

end

/-- One file is added beside a list, where it is lost, and one for debug builds, where it is not. -/
theorem files_readText_addAll_listed :
    ∃ m, (readText bareDisk "p.yaml" "Files:\n  main.cpp\n").result = .ok m ∧
      (∀ a ∈ [(Scope.everyBuild, "new.cpp".toList), (.debugOnly, ".\\trace.cpp")], IsPlain a.2) ∧
      '\n' ∉ m.name ∧
      ∃ again, (readText bareDisk "p.yaml"
          (m.addAll [(.everyBuild, "new.cpp"), (.debugOnly, ".\\trace.cpp")]).text).result =
            .ok again ∧
        "new.cpp".toList ∉ again.files ∧ "trace.cpp".toList ∈ again.debugFiles := by
  let m := (derive bareDisk (run bareDisk (bare "p.yaml") (Item.inText "Files:\n  main.cpp\n"))).1
  have accepted : (readText bareDisk "p.yaml" "Files:\n  main.cpp\n").result = .ok m :=
    readText_eq_ok_iff.2 ⟨by decide +kernel, rfl⟩
  have plain : ∀ a ∈ [(Scope.everyBuild, "new.cpp".toList), (.debugOnly, ".\\trace.cpp")],
      IsPlain a.2 := by decide +kernel
  have name : '\n' ∉ m.name := by decide +kernel
  obtain ⟨again, written, every, only⟩ := files_readText_addAll accepted plain
    (by decide +kernel) (fun none => absurd none (by decide +kernel)) name
  refine ⟨m, accepted, plain, name, again, written, ?_, ?_⟩
  · rw [every _ (by decide +kernel)]
    decide +kernel
  · rw [only _ (by decide +kernel)]
    decide +kernel

/-- A file is lost that a project had after plain files were added to it. -/
def LosesFile (disk : Disk) (source : Text) (more : List (Scope × Text)) : Prop :=
  (∀ a ∈ more, IsPlain a.2) ∧
    ∃ m again, (readText disk "p.yaml" source).result = .ok m ∧
      (readText disk "p.yaml" (m.addAll more).text).result = .ok again ∧
      ((∃ f ∈ (m.addAll more).files, f ∉ again.files) ∨
        ∃ f ∈ (m.addAll more).debugFiles, f ∉ again.debugFiles)

/-- A source whose name is a pattern. -/
def patternDisk : Disk := { top := [("a[1].c", .file [] ⟨0⟩)], current := [], now := ⟨0⟩ }

/-- A directory whose name goes on in a second line, where it lists a file. -/
def listingDisk : Disk :=
  { top := [("x\nFiles:\n d.c", .directory [])], current := ["x\nFiles:\n d.c"], now := ⟨0⟩ }

theorem readText_result_eq {disk : Disk} {source : Text}
    (known : (Item.inText source).findSome? Item.tooNew? = none) :
    (readText disk "p.yaml" source).result =
      .ok (derive disk (run disk (bare "p.yaml") (Item.inText source))).1 :=
  readText_eq_ok_iff.2 ⟨known, rfl⟩

/-- A file whose name in normal form begins with the word for includes. -/
theorem losesFile_include : LosesFile bareDisk [] [(.everyBuild, "./.includes.c")] := by
  let m := (derive bareDisk (run bareDisk (bare "p.yaml") (Item.inText []))).1
  have again : (readText bareDisk "p.yaml"
      (m.addAll [(.everyBuild, "./.includes.c")]).text).result = .ok _ :=
    readText_result_eq (by decide +kernel)
  refine ⟨by decide +kernel, m, _, readText_result_eq (by decide +kernel), again,
    .inl ⟨".includes.c", by decide +kernel, ?_⟩⟩
  have listed : entriesIn .everyBuild (m.addAll [(.everyBuild, "./.includes.c")]).text =
      [(".includes.c" : Text)] := by decide +kernel
  rw [files_eq_nil again (by rw [listed]; exact List.cons_ne_nil _ _)]
  · exact List.not_mem_nil
  · rw [listed]
    exact List.forall_mem_singleton.2 entryPaths_includes

/-- Files are lost beside a list, and where a name is not read as it is written. -/
theorem losesFile :
    LosesFile bareDisk "Files:\n    main.cpp\n" [(.everyBuild, "new.cpp")] ∧
      LosesFile bareDisk "DebugFiles:\n    main.cpp\n" [(.debugOnly, "new.cpp")] ∧
      LosesFile bareDisk [] [(.everyBuild, "./.includes.c")] ∧ LosesFile patternDisk [] [] ∧
      LosesFile listingDisk [] [(.debugOnly, "d.c")] := by
  refine ⟨⟨?_, _, _, readText_result_eq ?_, readText_result_eq ?_, .inl ?_⟩,
    ⟨?_, _, _, readText_result_eq ?_, readText_result_eq ?_, .inr ?_⟩, losesFile_include,
    ⟨?_, _, _, readText_result_eq ?_, readText_result_eq ?_, .inl ?_⟩,
    ⟨?_, _, _, readText_result_eq ?_, readText_result_eq ?_, .inr ?_⟩⟩
  all_goals decide +kernel

end BuildMatrix.Project
