import BuildMatrix.Proofs.Project.Interleaving

/-! Listed files are kept. Whatever stands around an entry, in its section, in others or on the
disk, the file it names is in the list of the project. An entry is an include as soon as it begins
with the word for it: where the word goes on without a blank, the entry names a file whose name has
that beginning, and is not read as one. -/

set_option autoImplicit false

namespace BuildMatrix.Project

open Text

variable {disk : Disk} {m : Project} {file source e l r : Text} {scope : Scope} {c : Char}

/-- A line of a section for files holds the entry, besides blanks and a comment. -/
def Lists (scope : Scope) (source e : Text) : Prop :=
  ∃ c ∈ chaptersOf scope source, ∃ l ∈ c.body.1,
    trim l ≠ [] ∧ (trim l).head? ≠ some '#' ∧ Line.entry (trim l) = e

/-- The word for includes, then blanks and a path. -/
def IsInclude (e : Text) : Prop :=
  ∃ b path, b ≠ [] ∧ Blanks b ∧ path ≠ [] ∧ e = (".include" : Text) ++ (b ++ path)

/-- The word for includes with more letters right behind it. -/
def Glued (e : Text) : Prop := ∃ c r, isBlank c = false ∧ e = (".include" : Text) ++ c :: r

/-! ### Entries by lines -/

theorem entryIn?_ofLine (plain : isHeading l = false) :
    (Item.ofLine (.files scope) l).2.bind (Item.entryIn? scope) = some e ↔
      trim l ≠ [] ∧ (trim l).head? ≠ some '#' ∧ Line.entry (trim l) = e := by
  rw [isHeading] at plain
  rw [Item.ofLine_eq, plain, if_neg Bool.false_ne_true]
  split
  · rename_i empty
    simp [empty]
  · rename_i filled
    split
    · rename_i hash
      have none : Item.ofComment (trim l) (.files scope) = none := rfl
      simp [none, hash]
    · rename_i text
      have content : Item.ofContent (trim l) (.files scope) =
        some (.entry scope (Line.entry (trim l))) := rfl
      simp [content, Item.entryIn?, filled, text]

/-- The entries of a text are those that its lines hold. -/
theorem mem_entriesIn_iff : e ∈ entriesIn scope source ↔ Lists scope source e := by
  rw [entriesIn_eq, List.mem_flatMap, Lists]
  refine exists_congr fun c => and_congr_right fun member => ?_
  have here : c.origin = .files scope := by
    rw [chaptersOf, List.mem_filter] at member
    exact of_decide_eq_true member.2
  rw [Chapter.items_of_origin (s := .files scope) nofun here, List.filterMap_filterMap,
    List.mem_filterMap]
  exact exists_congr fun l => and_congr_right fun inside => entryIn?_ofLine (c.body.2 l inside)

theorem Lists.isEntry (h : Lists scope source e) : IsEntry e := by
  obtain ⟨i, member, here⟩ := List.mem_filterMap.1 (mem_entriesIn_iff.2 h)
  have formed := Item.wellFormed_inText source i member
  cases i with
  | entry s d =>
    obtain ⟨-, same⟩ := Option.ite_none_right_eq_some.1 here
    cases same
    exact formed
  | _ => cases here

/-! ### Includes -/

theorem Glued.not_isInclude (h : Glued e) : ¬ IsInclude e := by
  obtain ⟨c, r, solid, rfl⟩ := h
  rintro ⟨b, path, some, blank, -, same⟩
  obtain ⟨d, b, rfl⟩ := List.exists_cons_of_ne_nil some
  obtain ⟨rfl, -⟩ := List.cons.inj (List.append_cancel_left same)
  rw [blank c List.mem_cons_self] at solid
  cases solid

/-- Blanks behind the word do not count, and there may be none. -/
theorem ofText_include {b path : Text} (blank : Blanks b) (trimmed : path.Trimmed)
    (filled : path ≠ []) : Entry.ofText ((".include" : Text) ++ (b ++ path)) = .include path := by
  have split : (".include" : Text).isPrefixOf? ((".include" : Text) ++ (b ++ path)) =
      some (b ++ path) := rfl
  have inner : trim (b ++ path) = path := by rw [trim_blanks_append blank, trimmed.trim_eq]
  have included : Entry.includePath? ((".include" : Text) ++ (b ++ path)) = some path := by
    rw [Entry.includePath?, split]
    dsimp only
    rw [inner, if_neg filled]
  rw [Entry.ofText, if_neg (List.append_ne_nil_of_left_ne_nil (by decide) _), included]

/-- The word alone, or not at the beginning. -/
theorem includePath?_eq_none (single : ¬ IsInclude e) (apart : ¬ Glued e) :
    Entry.includePath? e = none := by
  unfold Entry.includePath?
  split
  · rfl
  rename_i rest split
  have shape := List.append_eq_of_isPrefixOf?_eq_some split
  obtain ⟨b, blank, parts⟩ := exists_trimStart rest
  have nothing : trimStart rest = [] := by
    -- a path comes right behind the word, or after blanks
    by_contra some
    by_cases behind : b = []
    · obtain ⟨c, r, path⟩ := List.exists_cons_of_ne_nil some
      have solid := isBlank_head?_trimStart rest c (by rw [path]; rfl)
      rw [behind, path] at parts
      exact apart ⟨c, r, solid, by rw [← shape, parts]; rfl⟩
    · exact single ⟨b, trimStart rest, behind, blank, some, by rw [← parts, shape]⟩
  refine if_pos ?_
  rw [trim, nothing]
  rfl

/-! ### Files -/

theorem listedFiles_of_plain (plain : Line.isPattern e = false) (h : IsEntry e)
    (single : ¬ IsInclude e) (apart : ¬ Glued e) (disk : Disk) (file : Text) :
    listedFiles disk file [e] = [Path.canonical e] := by
  have read : Entry.ofText e = .path e := by
    rw [Entry.ofText, if_neg h.filled, includePath?_eq_none single apart, plain]
    rfl
  have paths : entryPaths disk file e = [Path.canonical e] := by
    rw [entryPaths, entryContribution, read]
    rfl
  rw [listedFiles, List.flatMap_singleton, paths, List.map_singleton, Path.canonical_canonical]

/-- A glued entry stands for what it stands for with a blank in it. -/
theorem entryPaths_glued (h : IsEntry ((".include" : Text) ++ c :: r)) (solid : isBlank c = false)
    (disk : Disk) (file : Text) :
    entryPaths disk file ((".include" : Text) ++ c :: r) =
      entryPaths disk file ((".include" : Text) ++ ' ' :: c :: r) := by
  have path : Trimmed (c :: r) := by
    refine ⟨by rintro d ⟨⟩; exact solid, fun d last => h.trimmed.last d ?_⟩
    rw [List.getLast?_append, Option.mem_def.1 last]
    rfl
  have glued := ofText_include (List.forall_mem_nil _) path (List.cons_ne_nil c r)
  have apart := ofText_include (blanks_replicate 1) path (List.cons_ne_nil c r)
  rw [entryPaths, entryPaths, entryContribution, entryContribution]
  exact congrArg _ (congrArg _ (glued.trans apart.symm))

/-- The files of a project that lists some are those that its entries stand for. -/
theorem mem_files_iff (accepted : (readText disk file source).result = .ok m)
    (listed : Lists .everyBuild source e) {f : Text} :
    f ∈ m.files ↔ ∃ d, Lists .everyBuild source d ∧ f ∈ listedFiles disk file [d] := by
  have some := List.ne_nil_of_mem (mem_entriesIn_iff.2 listed)
  rw [(consists_readText accepted).mem_files, everyFile, if_neg some, listedFiles, List.map_flatMap,
    List.mem_flatMap]
  refine exists_congr fun d => and_congr mem_entriesIn_iff ?_
  rw [listedFiles, List.flatMap_singleton]

/-- An entry that is no pattern and no include has its file in the list of the project, whatever
else there is, unless it is glued: such an entry stands for what is included then, and its own file
is in the list only if some entry contributes it. -/
theorem listed_mem_files (accepted : (readText disk file source).result = .ok m)
    (listed : Lists .everyBuild source e) (plain : Line.isPattern e = false)
    (single : ¬ IsInclude e) :
    (¬ Glued e → Path.canonical e ∈ m.files) ∧
      ∀ c r, isBlank c = false → e = (".include" : Text) ++ c :: r →
        entryPaths disk file e = entryPaths disk file ((".include" : Text) ++ ' ' :: c :: r) ∧
          (Path.canonical e ∈ m.files ↔ ∃ d, Lists .everyBuild source d ∧
            Path.canonical e ∈ listedFiles disk file [d]) := by
  refine ⟨fun apart => (mem_files_iff accepted listed).2 ⟨e, listed, ?_⟩, ?_⟩
  · rw [listedFiles_of_plain plain listed.isEntry single apart]
    exact List.mem_singleton_self _
  · rintro c r solid rfl
    exact ⟨entryPaths_glued listed.isEntry solid disk file, mem_files_iff accepted listed⟩

/-- A file that is listed for debug builds, too; and one whose name begins with the word for
includes, which is kept because it is listed in another way as well. -/
theorem listed_mem_files_dotted :
    ∃ m, (readText bareDisk "p.yaml" "DebugFiles:\n x.cpp\nFILES:\n\n\t.\\x.cpp #1\n").result =
        .ok m ∧ Path.canonical ".\\x.cpp" ∈ m.files ∧
      ∃ n, (readText bareDisk "p.yaml" "Files:\n  .includes.c\n  ./.includes.c # dotted\n").result =
          .ok n ∧ Path.canonical ".includes.c" ∈ n.files := by
  have first : (readText bareDisk "p.yaml"
      "DebugFiles:\n x.cpp\nFILES:\n\n\t.\\x.cpp #1\n").result = .ok _ :=
    readText_eq_ok_iff.2 ⟨by decide +kernel, rfl⟩
  have second : (readText bareDisk "p.yaml"
      "Files:\n  .includes.c\n  ./.includes.c # dotted\n").result = .ok _ :=
    readText_eq_ok_iff.2 ⟨by decide +kernel, rfl⟩
  have glued : Glued ".includes.c" := ⟨'s', ".c", by decide, rfl⟩
  refine ⟨_, first, ?_, _, second, ?_⟩
  · refine (listed_mem_files first (mem_entriesIn_iff.1 (by decide +kernel)) (by decide) ?_).1 ?_
    · rintro ⟨b, path, -, -, -, same⟩
      simp at same
    · rintro ⟨c, r, -, same⟩
      simp at same
  · have kept := listed_mem_files second (e := ".includes.c")
      (mem_entriesIn_iff.1 (by decide +kernel)) (by decide) glued.not_isInclude
    refine (kept.2 's' ".c" (by decide) rfl).2.2 ⟨"./.includes.c", ?_, by decide +kernel⟩
    exact mem_entriesIn_iff.1 (by decide +kernel)

/-- A source file whose name begins with the word for includes is listed, and it is not there. -/
theorem listed_glued :
    Lists .everyBuild "Files:\n    .includes.c\n" ".includes.c" ∧
      Line.isPattern ".includes.c" = false ∧ ¬ IsInclude ".includes.c" ∧
      ∃ m, (readText bareDisk "p.yaml" "Files:\n    .includes.c\n").result = .ok m ∧
        Path.canonical ".includes.c" ∉ m.files := by
  have glued : Glued ".includes.c" := ⟨'s', ".c", by decide, rfl⟩
  have accepted : (readText bareDisk "p.yaml" "Files:\n    .includes.c\n").result = .ok _ :=
    readText_eq_ok_iff.2 ⟨by decide +kernel, rfl⟩
  have listed : entriesIn .everyBuild "Files:\n    .includes.c\n" = [(".includes.c" : Text)] := by
    decide +kernel
  refine ⟨mem_entriesIn_iff.1 (by rw [listed]; exact List.mem_cons_self), by decide,
    glued.not_isInclude, _, accepted, ?_⟩
  rw [files_eq_nil accepted (by rw [listed]; exact List.cons_ne_nil _ _)]
  · exact List.not_mem_nil
  · rw [listed]
    exact List.forall_mem_singleton.2 entryPaths_includes

end BuildMatrix.Project
