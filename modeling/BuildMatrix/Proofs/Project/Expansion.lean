import BuildMatrix.Proofs.Disk.Listing
import BuildMatrix.Proofs.Disk.Viewpoint
import BuildMatrix.Proofs.Path.FileName
import BuildMatrix.Proofs.Project.Reading
import Mathlib.Data.List.Nodup

/-! What a pattern stands for, in any language of patterns. The directory of a pattern is listed by
the name that the pattern has for it, which may go back and forth, and the results are in normal
form; so each of them has to find its file by another way than the directory was found. It opens the
file unless it is too long. Nothing in a project depends on the order in which directories are
listed. -/

set_option autoImplicit false

namespace BuildMatrix

variable {disk other : Disk} {dir pattern p c : Text} {a : Address} {isMatch : Text → Bool}
  {content : Text.Bytes} {m : Timestamp}

namespace Disk

/-- Names that files can have. -/
structure IsFileName (c : Text) : Prop where
  filled : c ≠ ""
  here : c ≠ "."
  up : c ≠ ".."
  slash : '/' ∉ c
  noNul : '\x00' ∉ c
  short : Text.byteCount c ≤ longestName

/-- File names that are also names to a path: a backslash would separate components, and a colon
could make a drive letter. -/
structure IsPlainFileName (c : Text) : Prop extends IsFileName c where
  backslash : '\\' ∉ c
  colon : ':' ∉ c

instance : DecidablePred IsPlainFileName := fun c =>
  decidable_of_iff
    ((c ≠ "" ∧ c ≠ "." ∧ c ≠ ".." ∧ '/' ∉ c ∧ '\x00' ∉ c ∧ Text.byteCount c ≤ longestName) ∧
      '\\' ∉ c ∧ ':' ∉ c)
    ⟨fun ⟨⟨a, b, d, e, f, g⟩, h, i⟩ => ⟨⟨a, b, d, e, f, g⟩, h, i⟩,
      fun ⟨⟨a, b, d, e, f, g⟩, h, i⟩ => ⟨⟨a, b, d, e, f, g⟩, h, i⟩⟩

theorem IsPlainFileName.isName (h : IsPlainFileName c) : Path.IsName c := by
  refine ⟨h.filled, h.here, h.up, fun x member => ?_⟩
  have slash : x ≠ '/' := fun same => h.slash (same ▸ member)
  have backslash : x ≠ '\\' := fun same => h.backslash (same ▸ member)
  simp [Path.isSeparator, slash, backslash]

/-! ### Files behind the normal form of their directory -/

theorem not_mem_join_place {x : Char} (slash : x ≠ '/') (dot : x ≠ '.') (free : '\\' ∉ p)
    (none : x ∉ Pathname.join dir p) : x ∉ Pathname.join dir (Path.route p).place := by
  have normal := Path.route_normal p
  have spells := Pathname.spells_place normal
  have place : x ∉ (Path.route p).place := Path.not_mem_place normal slash dot
    fun n member here => none (Pathname.mem_join_right (Path.mem_of_mem_names member here))
  cases rooted : Pathname.isRooted p with
  | true =>
    rwa [Pathname.join_rooted (spells.rooted.trans ((Path.rooted_route free).trans rooted))]
  | false =>
    rwa [Pathname.mem_join_iff slash fun member => none (Pathname.mem_join_left rooted member)]

/-- A file is found by its name behind the normal form of its directory. -/
theorem findAny_join_place (free : '\\' ∉ p)
    (readable : disk.find (Pathname.join dir p) = .ok (a, .directory)) (plain : IsPlainFileName c)
    (file : disk.node? (a ++ [c]) = some (.file content m)) :
    disk.findAny (Pathname.join dir (Pathname.join (Path.route p).place c)) =
      .ok (a ++ [c], .file content m) := by
  obtain ⟨reaches, rfl, directory⟩ := find_eq_ok_iff.1 readable
  have name := plain.isName
  have place : disk.Rests (Pathname.join dir (Path.route p).place) :=
    Rests.place free ⟨reaches.passable, directory⟩
  have passable := place.passable_join_name name plain.short
  have led := destination_join_name name disk (Pathname.join dir (Path.route p).place)
  rw [destination_join_place free] at led
  have noNul : '\x00' ∉ Pathname.join (Pathname.join dir (Path.route p).place) c := by
    rw [Pathname.mem_join_iff (by decide)
      (not_mem_join_place (by decide) (by decide) free reaches.pathname.noNul)]
    exact plain.noNul
  have filled : Pathname.join (Pathname.join dir (Path.route p).place) c ≠ [] := by
    obtain ⟨x, more, shape⟩ := List.exists_cons_of_ne_nil plain.filled
    exact List.ne_nil_of_mem (Pathname.mem_join_right (shape ▸ List.mem_cons_self))
  rw [Pathname.join_join (Path.isRooted_name name)]
  exact findAny_eq_ok_iff.2 ⟨⟨noNul, filled⟩, passable, led, file⟩

end Disk

namespace Project

/-! ### Exactly the files that match -/

/-- A valid pattern for the files of the directory at `a`, which can be listed and has no file name
that a path would take for something else. -/
structure Expandable [PatternLanguage] (disk : Disk) (dir pattern : Text) (a : Address)
    (isMatch : Text → Bool) : Prop where
  valid : PatternLanguage.compile (Path.fileName pattern) = .ok isMatch
  slashed : '\\' ∉ pattern
  readable : disk.find (Pathname.join dir (Path.parent pattern)) = .ok (a, .directory)
  plain : ∀ c ∈ disk.fileNamesAt a, Disk.IsPlainFileName c

/-- `paths` are the files of the directory at `a` whose names match, as seen from a directory where
it is called `inner`. -/
structure IsExpansion (disk : Disk) (inner : Text) (a : Address) (isMatch : Text → Bool)
    (paths : List Text) : Prop where
  ascending : paths.Pairwise fun s t => Text.precedes s t = true
  distinct : paths.Nodup
  exact : ∀ path, path ∈ paths ↔ ∃ c content m,
    disk.node? (a ++ [c]) = some (.file content m) ∧ isMatch c = true ∧ path = Path.join inner c

theorem isExpansion_sort (plain : ∀ c ∈ disk.fileNamesAt a, Disk.IsPlainFileName c)
    (p : Text) (isMatch : Text → Bool) :
    IsExpansion disk p a isMatch
      (Text.sort (((disk.fileNamesAt a).filter isMatch).map (Path.join p))) where
  ascending := Text.pairwise_sort _
  distinct := by
    rw [(Text.sort_perm _).nodup_iff]
    refine List.Nodup.map_on (fun c one e another same => ?_)
      ((disk.nodup_fileNamesAt a).filter _)
    have first := plain c (List.mem_of_mem_filter one)
    have second := plain e (List.mem_of_mem_filter another)
    -- the name can be read off the path
    rw [← Path.fileName_join_name first.isName first.colon p, same,
      Path.fileName_join_name second.isName second.colon]
  exact path := by
    rw [(Text.sort_perm _).mem_iff]
    simp only [List.mem_map, List.mem_filter, Disk.mem_fileNamesAt]
    constructor
    · rintro ⟨c, ⟨⟨content, m, file⟩, hit⟩, rfl⟩
      exact ⟨c, content, m, file, hit, rfl⟩
    · rintro ⟨c, content, m, file, hit, rfl⟩
      exact ⟨c, ⟨⟨content, m, file⟩, hit⟩, rfl⟩

section

variable [PatternLanguage]

theorem Expandable.exists_expansion (h : Expandable disk dir pattern a isMatch) :
    ∃ paths, expandPattern disk dir pattern = .ok paths ∧
      IsExpansion disk (Path.parent pattern) a isMatch paths := by
  have listed : disk.fileNames (Pathname.join dir (Path.parent pattern)) =
      .ok (disk.fileNamesAt a) := Disk.fileNames_iff_find.2 ⟨a, h.readable, rfl⟩
  exact ⟨_, expandPattern_eq_ok_iff.2 ⟨isMatch, _, h.valid, listed, rfl⟩,
    isExpansion_sort h.plain _ _⟩

/-- A file that matches is found by its path, if a name may be of any length. -/
theorem Expandable.findAny (h : Expandable disk dir pattern a isMatch)
    (file : disk.node? (a ++ [c]) = some (.file content m)) :
    disk.findAny (Pathname.join dir (Path.join (Path.parent pattern) c)) =
      .ok (a ++ [c], .file content m) := by
  have slashed : '\\' ∉ Path.parent pattern := fun member =>
    (Path.mem_of_mem_parent member).elim (by decide) h.slashed
  have name := h.plain c (Disk.mem_fileNamesAt.2 ⟨content, m, file⟩)
  rw [Path.join_name name.isName name.colon]
  exact Disk.findAny_join_place slashed h.readable name file

end

/-! ### Any order of listing -/

section

variable (alike : disk.Alike other)
include alike

theorem sourcesAround_alike (dir : Text) : sourcesAround other dir = sourcesAround disk dir := by
  unfold sourcesAround
  rcases alike.fileNames dir with ⟨w, one, same⟩ | ⟨names, listed, one, same, perm⟩
  · rw [one, same]
  · rw [one, same]
    exact Text.sort_eq_of_perm (perm.filter _)

theorem derive_alike (p : Project) : derive other p = derive disk p := by
  have name (q : Project) : deriveName other q = deriveName disk q := by
    rw [deriveName, deriveName, nameFor?, nameFor?, alike.identity]
  have files (q : Project) : deriveFiles other q = deriveFiles disk q := by
    rw [deriveFiles, deriveFiles, sourcesAround_alike alike]
  rw [derive, derive, name]
  simp only [files]

variable [PatternLanguage]

theorem expandPattern_alike (dir pattern : Text) :
    expandPattern other dir pattern = expandPattern disk dir pattern := by
  unfold expandPattern
  dsimp only
  cases PatternLanguage.compile (Path.fileName pattern) with
  | error e => rfl
  | ok isMatch =>
    rcases alike.fileNames (Pathname.join dir (Path.parent pattern)) with
      ⟨w, one, same⟩ | ⟨names, listed, one, same, perm⟩
    · rw [one, same]
    · rw [one, same]
      dsimp only
      rw [Text.sort_eq_of_perm ((perm.filter _).map _)]

theorem contribution_alike (dir : Text) (reading : List Disk.Identity) (base : Text)
    (position : Position) (e : Entry) :
    contribution other dir reading base position e =
      contribution disk dir reading base position e := by
  induction reading, base, position, e using entry_induction disk dir with
  | nothing reading base position => rw [contribution_nothing, contribution_nothing]
  | path reading base position p => rw [contribution_path, contribution_path]
  | pattern reading base position p =>
    rw [contribution_pattern, contribution_pattern, expandPattern_alike alike]
  | «include» reading base position p ih =>
    rw [contribution_include, contribution_include, alike.identity, alike.findFile]
    split
    · rfl
    rename_i fresh
    cases readable : disk.findFile (Pathname.join dir (Path.join base p)) with
    | error e => rfl
    | ok found =>
      simp only [fileContribution, alike.identity]
      congr 2
      exact List.map_congr_left fun e _ => ih found.1 found.2 fresh readable e.1 e.2

theorem readItem_alike (p : Project) (n : Nat) (i : Item) :
    readItem other p n i = readItem disk p n i := by
  cases i with
  | entry scope e =>
    simp only [readItem, entryContribution, alike.identity, contribution_alike alike]
  | _ => rfl

theorem readItems_alike (p : Project) (log : List Event) (items : List (Nat × Item)) :
    readItems other p log items = readItems disk p log items := by
  induction items generalizing p log with
  | nil => rfl
  | cons x rest ih =>
    obtain ⟨n, i⟩ := x
    simp only [readItems, readItem_alike alike, ih]

theorem readText_alike (file source : Text) :
    readText other file source = readText disk file source := by
  simp only [readText, readItems_alike alike, derive_alike alike]

theorem read_alike (file : Text) : read other file = read disk file := by
  simp only [read, alike.readText, readText_alike alike]

end

/-- A pattern stands for the files of its directory whose names match it: for each of them by one
path, in ascending order. A path that is not too long opens its file. In which order directories are
listed makes no difference to what a pattern stands for, and none to any project that is read. -/
theorem expandPattern_exact [PatternLanguage] (disk : Disk) :
    (∀ dir pattern a isMatch, Expandable disk dir pattern a isMatch →
      ∃ paths, expandPattern disk dir pattern = .ok paths ∧
        IsExpansion disk (Path.parent pattern) a isMatch paths ∧
        ∀ path ∈ paths, Text.byteCount (Pathname.join dir path) ≤ Disk.longestPathname →
          ∃ c content, isMatch c = true ∧ path = Path.join (Path.parent pattern) c ∧
            disk.findFile (Pathname.join dir path) = .ok (a ++ [c], content)) ∧
    ∀ other, disk.Alike other →
      (∀ dir pattern, expandPattern other dir pattern = expandPattern disk dir pattern) ∧
      ∀ file, read other file = read disk file ∧
        ∀ source, readText other file source = readText disk file source := by
  refine ⟨fun dir pattern a isMatch h => ?_, fun other alike => ?_⟩
  · obtain ⟨paths, expanded, expansion⟩ := h.exists_expansion
    refine ⟨paths, expanded, expansion, fun path member short => ?_⟩
    obtain ⟨c, content, m, file, hit, rfl⟩ := (expansion.exact path).1 member
    refine ⟨c, content, hit, rfl, ?_⟩
    have found := Disk.find_eq_ok_iff_findAny.2 ⟨short, h.findAny file⟩
    rw [Disk.findFile, found]
    rfl
  · exact ⟨expandPattern_alike alike, fun file =>
      ⟨read_alike alike file, readText_alike alike file⟩⟩

/-- Some files around the directory of a project. -/
def forwards : Disk where
  top := [("b.c", .file [] ⟨0⟩), ("a.h", .file [] ⟨0⟩), ("src", .directory []),
    ("c.c", .directory []), ("a.c", .file [0x0A] ⟨0⟩)]
  current := []
  now := ⟨0⟩

/-- The same, listed the other way round. -/
def backwards : Disk := { forwards with top := forwards.top.reverse, distinct := by decide }

/-- The pattern goes to the root by a way that its results leave out, and a directory with a name
that matches is none of them. -/
theorem expandPattern_exact_backwards :
    forwards.fileNamesAt [] ≠ backwards.fileNamesAt [] ∧
      expandPattern forwards "src" "./../*.c" = .ok ["../a.c".toList, "../b.c"] ∧
      (∀ path ∈ ["../a.c".toList, "../b.c"], ∃ c content, path = Path.join "./.." c ∧
        forwards.findFile (Pathname.join "src" path) = .ok ([c], content)) ∧
      ∀ source, readText backwards "src/.srcfiles.yaml" source =
        readText forwards "src/.srcfiles.yaml" source := by
  have alike : forwards.Alike backwards := Disk.alike_of_perm (List.reverse_perm _) rfl rfl
  have expandable : Expandable forwards "src" "./../*.c" []
      (Pattern.matches [.many, .byte 0x2E, .byte 0x63]) := ⟨rfl, by decide, rfl, by decide⟩
  obtain ⟨exact, same⟩ := expandPattern_exact forwards
  obtain ⟨paths, expanded, expansion, opens⟩ := exact _ _ _ _ expandable
  have known : expandPattern forwards "src" "./../*.c" = .ok ["../a.c".toList, "../b.c"] := by
    have matching : (["a.c".toList, "a.h", "b.c"].filter
        (Pattern.matches [.many, .byte 0x2E, .byte 0x63])).map (Path.join "./..") =
          ["../a.c".toList, "../b.c"] := by decide +kernel
    have ordered : Text.sort ["../a.c".toList, "../b.c"] = ["../a.c".toList, "../b.c"] :=
      List.mergeSort_of_pairwise (by decide)
    rw [← (same _ alike).1]
    exact expandPattern_eq_ok_iff.2 ⟨_, ["a.c", "a.h", "b.c"], expandable.valid, rfl,
      (congrArg Text.sort matching).trans ordered⟩
  refine ⟨by decide, known, fun path member => ?_, ((same _ alike).2 _).2⟩
  obtain rfl := Except.ok.inj (known.symm.trans expanded)
  have short : ∀ path ∈ ["../a.c".toList, "../b.c"],
      Text.byteCount (Pathname.join "src" path) ≤ Disk.longestPathname := by decide
  obtain ⟨c, content, -, joined, found⟩ := opens path member (short path member)
  exact ⟨c, content, joined, found⟩

/-- A directory by a name that fills most of what a name can have. -/
def windingName : Text := (List.replicate 2035 ("./" : Text)).flatten

def windingFile : Text := List.replicate 98 'x' ++ ".c"

def windingDisk : Disk where
  top := [(windingFile, .file [] ⟨0⟩)]
  current := []
  now := ⟨0⟩

/-- The file of the directory matches and is what the pattern stands for, and cannot be opened. -/
theorem expandPattern_winding :
    Expandable windingDisk windingName "*.c" [] (Pattern.matches [.many, .byte 0x2E, .byte 0x63]) ∧
      ∃ path, expandPattern windingDisk windingName "*.c" = .ok [path] ∧
        windingDisk.findFile (Pathname.join windingName path) = .error .nameTooLong := by
  have readable : windingDisk.find (Pathname.join windingName (Path.parent "*.c")) =
      .ok ([], .directory) := by decide +kernel
  have expandable : Expandable windingDisk windingName "*.c" []
      (Pattern.matches [.many, .byte 0x2E, .byte 0x63]) :=
    ⟨rfl, by decide, readable, by decide +kernel⟩
  have matching : (([windingFile].filter (Pattern.matches [.many, .byte 0x2E, .byte 0x63])).map
      (Path.join (Path.parent "*.c"))) = [windingFile] := by decide +kernel
  refine ⟨expandable, windingFile, ?_, by decide +kernel⟩
  exact expandPattern_eq_ok_iff.2 ⟨_, [windingFile], expandable.valid,
    Disk.fileNames_iff_find.2 ⟨_, readable, rfl⟩,
    (congrArg Text.sort matching).trans (List.mergeSort_singleton _)⟩

end Project

end BuildMatrix
