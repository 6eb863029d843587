import BuildMatrix.Proofs.Project.Keeping

/-! Files and debug files in any order. The lists of a project are settled by the files added for
every build and by those added for debug builds, each in their own order; how the additions of the
two kinds alternate does not show. So in a text the sections that list the ones can stand before,
between or behind those that list the others. -/

set_option autoImplicit false

namespace BuildMatrix.Project

open Text

variable {disk : Disk} {p q : Project} {added debug ls : List Text} {file source l t u : Text}
  {s : Section} {i : Item} {scope : Scope}

/-- The files of a project by their uses. -/
structure FileLists where
  files : List Text
  debugFiles : List Text
  rcFile : Option Text
  helpFile : Option Text
  idlFiles : List Text

def fileLists (p : Project) : FileLists :=
  ⟨p.files, p.debugFiles, p.rcFile, p.helpFile, p.idlFiles⟩

theorem Consists.fileLists_eq (h : Consists p added debug) (g : Consists q added debug) :
    p.fileLists = q.fileLists := by
  simp only [fileLists, h.files, g.files, h.debugFiles, g.debugFiles, h.rcFile, g.rcFile,
    h.helpFile, g.helpFile, h.idlFiles, g.idlFiles]

/-! ### Additions -/

theorem consists_addAll_bare (file : Text) (more : List (Scope × Text)) :
    Consists ((bare file).addAll more) (addedTo .everyBuild more) (addedTo .debugOnly more) :=
  (consists_bare file).addAll more

theorem files_addAll_bare (file : Text) (more : List (Scope × Text)) :
    ((bare file).addAll more).files = (addedTo .everyBuild more).eraseDups := by
  rw [(consists_addAll_bare file more).files, distinct_eq_eraseDups]

theorem debugFiles_addAll_bare (file : Text) (more : List (Scope × Text)) :
    ((bare file).addAll more).debugFiles =
      (addedTo .debugOnly more).eraseDups.filter (· ∉ addedTo .everyBuild more) := by
  rw [(consists_addAll_bare file more).debugFiles, distinct_eq_eraseDups]

theorem fileLists_addAll_bare {more others : List (Scope × Text)} (file : Text)
    (same : ∀ scope, more.filter (·.1 = scope) = others.filter (·.1 = scope)) :
    ((bare file).addAll more).fileLists = ((bare file).addAll others).fileLists := by
  have added : ∀ scope, addedTo scope more = addedTo scope others := by
    intro scope
    rw [addedTo, same scope, addedTo]
  have one := consists_addAll_bare file more
  rw [added, added] at one
  exact one.fileLists_eq (consists_addAll_bare file others)

/-! ### Chapters -/

def isHeading (l : Text) : Bool := Line.isHeader (trimEnd l)

/-- Lines without a header among them. -/
abbrev BodyLines := { ls : List Text // ∀ l ∈ ls, isHeading l = false }

/-- A header with the lines up to the next one. -/
structure Chapter where
  header : Text
  body : BodyLines
  headed : isHeading header = true
  deriving DecidableEq

/-- The lines before the first header, and the chapters after them. -/
def divide : List Text → BodyLines × List Chapter
  | [] => (⟨[], List.forall_mem_nil _⟩, [])
  | l :: rest =>
    match divide rest with
    | (body, chapters) =>
      if headed : isHeading l = true then
        (⟨[], List.forall_mem_nil _⟩, ⟨l, body, headed⟩ :: chapters)
      else
        (⟨l :: body, List.forall_mem_cons.2 ⟨Bool.eq_false_iff.2 headed, body.2⟩⟩, chapters)

def opening (t : Text) : BodyLines := (divide (Text.lines t)).1

def chapters (t : Text) : List Chapter := (divide (Text.lines t)).2

/-- The section that a header begins. -/
def Chapter.origin (c : Chapter) : Section :=
  (Section.ofHeader? (trimEnd c.header)).getD .unknown

def Chapter.items (c : Chapter) : List Item := Item.inLines .preamble (c.header :: c.body)

/-- The chapters that list files of a scope. -/
def chaptersOf (scope : Scope) (t : Text) : List Chapter :=
  (chapters t).filter (·.origin = .files scope)

/-! ### Items of chapters -/

/-- What a header means does not depend on the section before it. -/
theorem Item.ofLine_of_isHeading (headed : isHeading l = true) (s : Section) :
    Item.ofLine s l =
      match Section.ofHeader? (trimEnd l) with
      | some next => (next, none)
      | none => (.unknown, some (.unknownSection (headerName (trimEnd l)))) := by
  unfold isHeading at headed
  obtain ⟨c, r, line⟩ : ∃ c r, trimEnd l = c :: r := by
    cases line : trimEnd l with
    | nil =>
      rw [line] at headed
      cases headed
    | cons c r => exact ⟨c, r, rfl⟩
  have letter : c.isAlpha = true := by rwa [line] at headed
  have content : trim l = c :: r := by
    rw [← trimStart_trimEnd, line, trimStart_eq_self]
    rintro d ⟨⟩
    exact isBlank_of_isAlpha letter
  have hash : c ≠ '#' := by
    rintro rfl
    cases letter
  rw [Item.ofLine_eq, content, if_neg (List.cons_ne_nil c r), if_neg (by simpa using hash)]
  exact if_pos headed

/-- Without a header the section stays, and what there is stands in it. -/
theorem Item.ofLine_of_plain (plain : isHeading l = false) (s : Section) :
    (Item.ofLine s l).1 = s ∧ ∀ i ∈ (Item.ofLine s l).2, i.origin = s := by
  rw [isHeading] at plain
  rw [Item.ofLine_eq, plain, if_neg Bool.false_ne_true]
  split
  · exact ⟨rfl, fun _ here => nomatch here⟩
  · split
    · exact ⟨rfl, fun _ here => Item.origin_of_ofComment here⟩
    · exact ⟨rfl, fun _ here => Item.origin_of_ofContent here⟩

theorem Item.origin_of_mem_inLines (plain : ∀ l ∈ ls, isHeading l = false)
    (member : i ∈ Item.inLines s ls) : i.origin = s := by
  induction ls with
  | nil => cases member
  | cons l rest ih =>
    obtain ⟨first, later⟩ := List.forall_mem_cons.1 plain
    obtain ⟨stays, here⟩ := Item.ofLine_of_plain first s
    rw [Item.inLines, stays] at member
    rcases List.mem_append.1 member with inside | inside
    · exact here i (Option.mem_toList.1 inside)
    · exact ih later inside

theorem Chapter.origin_of_mem_items {c : Chapter} (member : i ∈ c.items) :
    i.origin = c.origin := by
  rw [items, Item.inLines, Item.ofLine_of_isHeading c.headed] at member
  rw [Chapter.origin]
  cases named : Section.ofHeader? (trimEnd c.header) with
  | some next =>
    rw [named] at member
    exact Item.origin_of_mem_inLines c.body.2 member
  | none =>
    rw [named] at member
    rcases List.mem_cons.1 member with rfl | inside
    · rfl
    · exact Item.origin_of_mem_inLines c.body.2 inside

/-- Without a header among them all lines stand in one section. -/
theorem inLines_of_plain (plain : ∀ l ∈ ls, isHeading l = false) (s : Section) :
    Item.inLines s ls = ls.filterMap fun l => (Item.ofLine s l).2 := by
  induction ls with
  | nil => rfl
  | cons l rest ih =>
    obtain ⟨first, later⟩ := List.forall_mem_cons.1 plain
    rw [Item.inLines, (Item.ofLine_of_plain first s).1, ih later, List.filterMap_cons]
    cases (Item.ofLine s l).2 <;> rfl

/-- A chapter of a known section holds what its lines mean there. -/
theorem Chapter.items_of_origin {c : Chapter} (known : s ≠ .unknown) (here : c.origin = s) :
    c.items = c.body.1.filterMap fun l => (Item.ofLine s l).2 := by
  have named : Section.ofHeader? (trimEnd c.header) = some s := by
    rw [Chapter.origin] at here
    cases named : Section.ofHeader? (trimEnd c.header) with
    | none => exact absurd (by simpa [named] using here) known.symm
    | some next => simpa [named] using here
  rw [items, Item.inLines, Item.ofLine_of_isHeading c.headed, named]
  exact inLines_of_plain c.body.2 _

theorem Section.ofHeader?_ne_preamble (l : Text) : Section.ofHeader? l ≠ some .preamble := by
  unfold Section.ofHeader? Section.ofName?
  repeat' split
  all_goals simp

theorem Chapter.origin_ne_preamble (c : Chapter) : c.origin ≠ .preamble := by
  rw [Chapter.origin]
  cases here : Section.ofHeader? (trimEnd c.header) with
  | none => simp
  | some next =>
    rintro rfl
    exact Section.ofHeader?_ne_preamble _ here

theorem inLines_divide (s : Section) (ls : List Text) :
    Item.inLines s ls =
      Item.inLines s (divide ls).1 ++ (divide ls).2.flatMap Chapter.items := by
  -- a line may lead to another section, so the section is not fixed in the induction
  induction ls generalizing s with
  | nil => rfl
  | cons l rest ih =>
    rw [Item.inLines, ih, ← List.append_assoc, divide]
    obtain ⟨body, chapters⟩ := divide rest
    dsimp only
    split
    · rename_i headed
      rw [Item.ofLine_of_isHeading headed s, ← Item.ofLine_of_isHeading headed .preamble]
      rfl
    · rfl

theorem inText_eq (t : Text) :
    Item.inText t = Item.inLines .preamble (opening t) ++ (chapters t).flatMap Chapter.items :=
  inLines_divide .preamble (Text.lines t)

/-- What counts in one section alone is found in the chapters of that section. -/
theorem filterMap_inText {β : Type} {f : Item → Option β} (headed : s ≠ .preamble)
    (only : ∀ i : Item, i.origin ≠ s → f i = none) (t : Text) :
    (Item.inText t).filterMap f =
      ((chapters t).filter (·.origin = s)).flatMap fun c => c.items.filterMap f := by
  have before : (Item.inLines .preamble (opening t)).filterMap f = [] := by
    rw [List.filterMap_eq_nil_iff]
    intro i member
    have origin := Item.origin_of_mem_inLines (opening t).2 member
    exact only i (origin ▸ headed.symm)
  have other : ∀ c : Chapter, c.origin ≠ s → c.items.filterMap f = [] := by
    intro c other
    rw [List.filterMap_eq_nil_iff]
    intro i member
    exact only i (Chapter.origin_of_mem_items member ▸ other)
  rw [inText_eq, List.filterMap_append, before, List.nil_append, List.filterMap_flatMap]
  generalize chapters t = cs
  induction cs with
  | nil => rfl
  | cons c rest ih =>
    by_cases here : c.origin = s
    · rw [List.filter_cons_of_pos (by simpa using here), List.flatMap_cons, List.flatMap_cons, ih]
    · rw [List.filter_cons_of_neg (by simpa using here), List.flatMap_cons, other c here, ih,
        List.nil_append]

/-- The entries of a scope are those of its chapters. -/
theorem entriesIn_eq (scope : Scope) (t : Text) :
    entriesIn scope t =
      (chaptersOf scope t).flatMap fun c => c.items.filterMap (Item.entryIn? scope) :=
  filterMap_inText (s := .files scope) nofun (fun _ => Item.entryIn?_of_origin) t

/-- Only the lines before the first header can ask for a version. -/
theorem findSome?_tooNew?_inText (t : Text) :
    (Item.inText t).findSome? Item.tooNew? =
      (Item.inLines .preamble (opening t)).findSome? Item.tooNew? := by
  have none : ((chapters t).flatMap Chapter.items).findSome? Item.tooNew? = none := by
    rw [List.findSome?_eq_none_iff]
    intro i member
    obtain ⟨c, -, inside⟩ := List.mem_flatMap.1 member
    exact Item.tooNew?_of_origin (Chapter.origin_of_mem_items inside ▸ c.origin_ne_preamble)
  rw [inText_eq, List.findSome?_append, none, Option.or_none]

/-! ### Readings -/

/-- Texts that list the same for every build, and the same for debug builds, are read alike. -/
theorem fileLists_readText (disk : Disk) (file : Text) (opened : opening t = opening u)
    (same : ∀ scope, chaptersOf scope t = chaptersOf scope u) :
    (readText disk file t).result.map fileLists = (readText disk file u).result.map fileLists := by
  have asked : (Item.inText t).findSome? Item.tooNew? = (Item.inText u).findSome? Item.tooNew? := by
    rw [findSome?_tooNew?_inText, findSome?_tooNew?_inText, opened]
  have listed : ∀ scope, entriesIn scope t = entriesIn scope u := by
    intro scope
    rw [entriesIn_eq, entriesIn_eq, same]
  cases known : (Item.inText t).findSome? Item.tooNew? with
  | some v => rw [readText_result, readText_result, ← asked, known]
  | none =>
    obtain ⟨m, one⟩ : ∃ m, (readText disk file t).result = .ok m :=
      ⟨_, readText_eq_ok_iff.2 ⟨known, rfl⟩⟩
    obtain ⟨n, other⟩ : ∃ n, (readText disk file u).result = .ok n :=
      ⟨_, readText_eq_ok_iff.2 ⟨asked ▸ known, rfl⟩⟩
    have consists := consists_readText one
    rw [everyFile, listed, listed, ← everyFile] at consists
    rw [one, other]
    exact congrArg Except.ok (consists.fileLists_eq (consists_readText other))

/-! ### In any order -/

/-- The lists hold what was added without repeats, and how additions for every build and additions
for debug builds alternate, in memory or in a text, makes no difference. -/
theorem fileLists_interleave (disk : Disk) (file : Text) :
    (∀ more, ((bare file).addAll more).files = (addedTo .everyBuild more).eraseDups ∧
      ((bare file).addAll more).debugFiles =
        (addedTo .debugOnly more).eraseDups.filter (· ∉ addedTo .everyBuild more)) ∧
    (∀ more others : List (Scope × Text),
      (∀ scope, more.filter (·.1 = scope) = others.filter (·.1 = scope)) →
        ((bare file).addAll more).fileLists = ((bare file).addAll others).fileLists) ∧
    ∀ t u, opening t = opening u → (∀ scope, chaptersOf scope t = chaptersOf scope u) →
      (readText disk file t).result.map fileLists = (readText disk file u).result.map fileLists :=
  ⟨fun more => ⟨files_addAll_bare file more, debugFiles_addAll_bare file more⟩,
    fun _ _ => fileLists_addAll_bare file, fun _ _ => fileLists_readText disk file⟩

/-- A debug file is taken over by every build and then added for debugging again, or the other way
round; and debug files are listed before the files for every build, or behind them. -/
theorem fileLists_interleave_trace :
    let first := [(Scope.debugOnly, "trace.cpp".toList), (.everyBuild, "./trace.cpp"),
      (.debugOnly, "trace.cpp"), (.debugOnly, ".\\log.cpp")]
    let later := [(Scope.everyBuild, "./trace.cpp".toList), (.debugOnly, "trace.cpp"),
      (.debugOnly, "trace.cpp"), (.debugOnly, ".\\log.cpp")]
    ((bare "p.yaml").addAll first).debugFiles = ["log.cpp"] ∧
      ((bare "p.yaml").addAll first).fileLists = ((bare "p.yaml").addAll later).fileLists ∧
      (readText bareDisk "p.yaml"
          "# files\nDebugFiles:\n  log.cpp\nFiles:\n  app.cpp\nOptions:\n  warn: 3\n").result.map
            fileLists =
        (readText bareDisk "p.yaml"
          "# files\nFiles:\n  app.cpp\nDebugFiles:\n  log.cpp\n").result.map fileLists := by
  intro first later
  obtain ⟨lists, added, read⟩ := fileLists_interleave bareDisk "p.yaml"
  refine ⟨?_, added first later ?_, read _ _ (by decide) ?_⟩
  · rw [(lists first).2]
    decide
  · rintro (_ | _) <;> decide
  · rintro (_ | _) <;> decide

end BuildMatrix.Project
