import BuildMatrix.Proofs.Disk.Resolving
import BuildMatrix.Proofs.Disk.Synonyms
import BuildMatrix.Proofs.Project.Reading
import BuildMatrix.Proofs.Text.Utf8
import Mathlib.Logic.Relation

/-! Including a project file. An included file is read by entries alone and from another directory,
but what it contributes is what reading it as a project on its own would add, named from the
including project's directory. The two readings go through the same files in step: what one base
is to the first of them, the other base is to the second. -/

set_option autoImplicit false

namespace BuildMatrix.Project

open BuildMatrix.Path (Route)
open Relation (ReflTransGen TransGen)

variable {disk : Disk} {dir inner root t u base : Text} {reading : List Disk.Identity}
  {b r : Route} {e : Entry} {a : Address} {content : Text.Bytes}

/-! ### Entries that are taken over -/

/-- The entries for every build, in the order in which the text lists them. -/
def listedEntries (source : Text) : List Text :=
  (Item.inText source).filterMap (Item.entryIn? .everyBuild)

/-- What reading a text as the project file `file` adds for every build, path after path. -/
def passedOn (disk : Disk) (file source : Text) : List Text :=
  (listedEntries source).flatMap (entryPaths disk file)

theorem Item.entryIn?_ofComment (line : Text) (s : Section) (scope : Scope) :
    (Item.ofComment line s).bind (Item.entryIn? scope) = none := by
  cases s with
  | preamble =>
    rw [Item.ofComment]
    split
    · rfl
    · split <;> rfl
  | options =>
    rw [Item.ofComment, Option.bind_map]
    exact Option.bind_fun_none _
  | _ => rfl

theorem Item.entryIn?_ofContent (line : Text) (s : Section) :
    (Item.ofContent line s).bind (Item.entryIn? .everyBuild) =
      if s == .files .everyBuild then some (Line.entry line) else none := by
  cases s with
  | files scope => cases scope <;> rfl
  | _ => rfl

/-- An item with the number of its line, if it is an entry that is taken over. -/
def Item.numbered? (x : Nat × Item) : Option (Nat × Text) :=
  (x.2.entryIn? .everyBuild).map (x.1, ·)

theorem Item.filterMap_numbered? (n : Nat) (item : Option Item) :
    (item.toList.map (n, ·)).filterMap Item.numbered? =
      ((item.bind (Item.entryIn? .everyBuild)).map (n, ·)).toList := by
  cases item with
  | none => rfl
  | some i => cases entry : i.entryIn? .everyBuild <;> simp [numbered?, entry]

/-- Reading on for entries alone finds those among the items that the lines stand for. -/
theorem Item.listedIn_eq (s : Section) (ls : List (Nat × Text)) :
    Item.listedIn (s == .files .everyBuild) ls =
      (Item.ofLines s ls).filterMap Item.numbered? := by
  -- a line may lead to another section, so the section is not fixed in the induction
  induction ls generalizing s with
  | nil => rfl
  | cons l rest ih =>
    obtain ⟨n, raw⟩ := l
    rw [Item.ofLines_cons, List.filterMap_append, ← ih, filterMap_numbered?, Item.listedIn,
      Item.ofLine_eq]
    by_cases empty : Text.trim raw = []
    · rw [if_pos (.inl empty), if_pos empty]
      rfl
    by_cases comment : (Text.trim raw).head? = some '#'
    · rw [if_pos (.inr comment), if_neg empty, if_pos comment, Item.entryIn?_ofComment]
      rfl
    rw [if_neg (not_or.2 ⟨empty, comment⟩), if_neg empty, if_neg comment, isHeader_trimEnd empty,
      Section.ofHeader?_trimEnd]
    by_cases header : Line.isHeader raw = true
    · rw [if_pos header, if_pos header]
      cases Section.ofHeader? raw <;> rfl
    · rw [if_neg header, if_neg header, Item.entryIn?_ofContent]
      split <;> rfl

theorem listed_map_snd (source : Text) :
    (Item.listed source).map Prod.snd = listedEntries source := by
  have agree := Item.listedIn_eq .preamble (Text.numbered (Text.lines source))
  rw [listedEntries, ← Item.ofText_map_snd, List.filterMap_map]
  refine (congrArg _ agree).trans ?_
  rw [List.map_filterMap]
  refine List.filterMap_congr fun x _ => ?_
  rw [Item.numbered?, Option.map_map]
  exact Option.map_id'

theorem Entry.path_ne_nil {text p : Text} (h : Entry.ofText text = .path p) : p ≠ [] := by
  unfold Entry.ofText at h
  split at h
  · cases h
  · rename_i filled
    split at h
    · cases h
    · split at h
      · cases h
      · cases h
        exact filled

theorem Entry.include_ne_nil {text p : Text} (h : Entry.ofText text = .include p) : p ≠ [] := by
  unfold Entry.ofText at h
  split at h
  · cases h
  · split at h
    · rename_i q found
      cases h
      unfold Entry.includePath? at found
      repeat' split at found
      all_goals simp_all
    · split at h <;> cases h

/-! ### Contributions -/

theorem contribution_pattern_paths (disk : Disk) (dir : Text) (reading : List Disk.Identity)
    (base : Text) (position : Position) (p : Text) :
    (contribution disk dir reading base position (.pattern p)).paths =
      ((expandPattern disk (Pathname.join dir base) p).toOption.getD []).map (Path.join base) := by
  rw [contribution_pattern]
  cases expandPattern disk (Pathname.join dir base) p <;> rfl

/-- A file that is not being read contributes what its entries do. -/
theorem contribution_include_of_ok {position : Position} {q : Text}
    (found : disk.findFile (Pathname.join dir (Path.join base q)) = .ok (a, content))
    (fresh : disk.identity (Pathname.join dir (Path.join base q)) ∉ reading) :
    (contribution disk dir reading base position (.include q)).paths =
      (listedEntries (Text.ofUtf8 content)).flatMap fun e =>
        (contribution disk dir (disk.identity (Pathname.join dir (Path.join base q)) :: reading)
          (Path.parent (Path.join base q)) position (Entry.ofText e)).paths := by
  rw [contribution_include, if_neg fresh, found, ← listed_map_snd, List.flatMap_map]
  simp only [fileContribution, Contribution.join, List.flatMap_cons, List.flatMap_map,
    Contribution.ofEvent, List.nil_append]
  exact List.flatMap_congr fun e _ => contribution_paths ..

/-! ### Files behind an included one -/

/-- The entries for every build in the project file `t`, as seen from `dir`; none if it cannot be
read. -/
def entriesOf (disk : Disk) (dir t : Text) : List Entry :=
  match disk.readText (Pathname.join dir t) with
  | .error _ => []
  | .ok source => (listedEntries source).map Entry.ofText

/-- The project files that `t` includes, as seen from `dir`. -/
def targetsOf (disk : Disk) (dir t : Text) : List Text :=
  (entriesOf disk dir t).filterMap fun
    | .include q => some (Path.join (Path.parent t) q)
    | _ => none

def Includes (disk : Disk) (dir t u : Text) : Prop := u ∈ targetsOf disk dir t

/-- Files that an included file includes, directly or not, and itself. -/
def Behind (disk : Disk) (dir start t : Text) : Prop := ReflTransGen (Includes disk dir) start t

theorem mem_entriesOf {source text : Text}
    (reads : disk.readText (Pathname.join dir t) = .ok source)
    (member : text ∈ listedEntries source) :
    Entry.ofText text ∈ entriesOf disk dir t := by
  rw [entriesOf, reads]
  exact List.mem_map.2 ⟨text, member, rfl⟩

theorem exists_text_of_mem (member : e ∈ entriesOf disk dir t) : ∃ text, Entry.ofText text = e := by
  unfold entriesOf at member
  split at member
  · cases member
  · obtain ⟨text, -, entry⟩ := List.mem_map.1 member
    exact ⟨text, entry⟩

theorem includes_of_mem {q : Text} (member : .include q ∈ entriesOf disk dir t) :
    Includes disk dir t (Path.join (Path.parent t) q) :=
  List.mem_filterMap.2 ⟨_, member, rfl⟩

/-- The path that an entry spells out. -/
def Entry.spelled? : Entry → Option Text
  | .path p => some p
  | .include q => some q
  | _ => none

/-- Behind `start`, as seen from `dir`, no file includes itself again or is the file `root`, and
entries that spell out a path spell it without a colon, which could make it a drive letter. -/
structure Plain (disk : Disk) (dir root start : Text) : Prop where
  acyclic : ∀ t u, Behind disk dir start t → TransGen (Includes disk dir) t u →
    disk.file? (Pathname.join dir u) ≠ disk.file? (Pathname.join dir t)
  other : ∀ t, Behind disk dir start t → disk.file? (Pathname.join dir t) ≠ disk.file? root
  spelled : ∀ t e, Behind disk dir start t → e ∈ entriesOf disk dir t →
    ∀ p ∈ e.spelled?, ':' ∉ p

/-- Moreover there is no colon in what patterns find, and no name that is looked up is longer than
the disk takes. -/
structure Rebasable (disk : Disk) (dir root start : Text) : Prop extends
    Plain disk dir root start where
  found : ∀ t p files, Behind disk dir start t → .pattern p ∈ entriesOf disk dir t →
    expandPattern disk (Pathname.join dir (Path.parent t)) p = .ok files →
      ∀ f ∈ files, f ≠ [] ∧ ':' ∉ f
  shortFile : ∀ t u, Behind disk dir start t → Includes disk dir t u →
    Text.byteCount (Pathname.join dir u) ≤ Disk.longestPathname
  shortDirectory : ∀ t p, Behind disk dir start t → .pattern p ∈ entriesOf disk dir t →
    Text.byteCount (Pathname.join (Pathname.join dir (Path.parent t)) (Path.parent p)) ≤
      Disk.longestPathname

/-! ### Two readings in step -/

/-- A base from which a file that is included further on is seen. -/
structure Based (disk : Disk) (inner start t : Text) (r : Route) : Prop where
  normal : r.Normal
  plain : ∀ n ∈ r.names, '\x00' ∉ n ∧ ':' ∉ n
  rests : disk.Rests (Pathname.join inner r.place)
  parent : Path.parent t = r.place
  behind : Behind disk inner start t

/-- What is being read when `t` is: the file `root`, and files that led to `t`, each by a name. -/
def Around (disk : Disk) (inner root start t : Text) (reading : List Disk.Identity) : Prop :=
  ∀ i ∈ reading, ∃ f a, i = disk.identity f ∧ disk.file? f = some a ∧
    (disk.file? root = some a ∨ ∃ s, disk.file? (Pathname.join inner s) = some a ∧
      Behind disk inner start s ∧ Behind disk inner s t)

/-- A file that `t` includes is not being read, by whatever name it is opened. -/
theorem Around.fresh {start g : Text} (around : Around disk inner root start t reading)
    (rebasable : Rebasable disk inner root start) (behind : Behind disk inner start t)
    (includes : Includes disk inner t u) (file : disk.file? (Pathname.join inner u) = some a)
    (opens : disk.file? g = some a) : disk.identity g ∉ reading := by
  intro member
  obtain ⟨f, a', same, there, led⟩ := around _ member
  obtain rfl : a = a' := by
    rw [← Disk.destination_of_file? opens, ← Disk.destination_of_file? there,
      Disk.destination_of_identity_eq same]
  rcases led with isRoot | ⟨s, there, behind', led⟩
  · exact rebasable.other u (behind.tail includes) (file.trans isRoot.symm)
  · -- a file that is being read led here, and would lead to itself
    exact rebasable.acyclic s u behind' (.tail' led includes) (file.trans there.symm)

theorem Around.next {start g : Text} (around : Around disk inner root start t reading)
    (behind : Behind disk inner start t) (includes : Includes disk inner t u)
    (file : disk.file? (Pathname.join inner u) = some a) (opens : disk.file? g = some a) :
    Around disk inner root start u (disk.identity g :: reading) := by
  intro i member
  rcases List.mem_cons.1 member with rfl | member
  · exact ⟨g, a, rfl, opens, .inr ⟨u, file, behind.tail includes, .refl⟩⟩
  · obtain ⟨f, a', same, there, led⟩ := around i member
    exact ⟨f, a', same, there, led.imp_right fun ⟨s, there, behind', led⟩ =>
      ⟨s, there, behind', led.tail includes⟩⟩

section

variable {start place : Text} (inside : disk.Inside dir b inner)
  (rebasable : Rebasable disk inner root start)
include inside rebasable

omit rebasable in
/-- A path stands for what it stands for in the inner directory, named from the outer one. -/
theorem Based.join_eq (based : Based disk inner start t r) (leads : Path.route place = b)
    {f : Text} (colon : ':' ∉ f) (filled : f ≠ []) :
    Path.join (b.join r).place f = Path.join place (Path.join r.place f) :=
  (Path.join_join_place inside.normal based.normal leads (fun n member => (based.plain n member).2)
    colon filled).symm

theorem Based.expandPattern_iff (based : Based disk inner start t r) {p : Text}
    (listed : .pattern p ∈ entriesOf disk inner t) {files : List Text} :
    expandPattern disk (Pathname.join dir (b.join r).place) p = .ok files ↔
      expandPattern disk (Pathname.join inner r.place) p = .ok files := by
  have short := rebasable.shortDirectory t p based.behind listed
  rw [based.parent] at short
  simp only [expandPattern_eq_ok_iff,
    inside.fileNames_iff based.normal (fun n member => (based.plain n member).1) based.rests short]

/-- A pattern stands for the files that it finds from the inner directory. -/
theorem Based.pattern_paths_eq (based : Based disk inner start t r)
    (leads : Path.route place = b) {p : Text} (listed : .pattern p ∈ entriesOf disk inner t)
    {whole : List Disk.Identity} (position : Position) :
    (contribution disk dir whole (b.join r).place position (.pattern p)).paths =
      (contribution disk inner reading r.place position (.pattern p)).paths.map
        (Path.join place) := by
  have plain := rebasable.found t p
  rw [based.parent] at plain
  have outer : ∀ files, expandPattern disk (Pathname.join dir (b.join r).place) p = .ok files ↔
      expandPattern disk (Pathname.join inner r.place) p = .ok files :=
    fun files => based.expandPattern_iff inside rebasable listed
  rw [contribution_pattern_paths, contribution_pattern_paths]
  cases found : expandPattern disk (Pathname.join inner r.place) p with
  | error w =>
    cases whole : expandPattern disk (Pathname.join dir (b.join r).place) p with
    | error w => rfl
    | ok files =>
      rw [(outer files).1 whole] at found
      cases found
  | ok files =>
    rw [(outer files).2 found]
    refine Eq.trans (List.map_congr_left fun f member => ?_) List.map_map.symm
    obtain ⟨filled, colon⟩ := plain files based.behind listed found f member
    exact based.join_eq inside leads colon filled

/-- The route to a file that is included. -/
theorem Based.target (based : Based disk inner start t r) {q : Text}
    (listed : .include q ∈ entriesOf disk inner t) (filled : q ≠ []) :
    (r.join (Path.route q)).Normal ∧ (∀ n ∈ (r.join (Path.route q)).names, ':' ∉ n) ∧
      Path.join r.place q = (r.join (Path.route q)).text ∧
      Path.join (b.join r).place q = (b.join (r.join (Path.route q))).text := by
  have colon := rebasable.spelled t _ based.behind listed q rfl
  have drive := Path.hasDrive_eq_false colon
  have last := Path.route_normal q
  refine ⟨based.normal.join last, ?_, Path.join_place based.normal drive filled, ?_⟩
  · exact (Route.forall_names_join last fun n member => (based.plain n member).2).2
      fun n member here => colon (Path.mem_of_mem_names member here)
  · rw [Path.join_place (inside.normal.join based.normal) drive filled,
      Route.join_assoc b based.normal last]

theorem Based.findFile_iff (based : Based disk inner start t r) {q : Text}
    (listed : .include q ∈ entriesOf disk inner t) (filled : q ≠ [])
    {found : Address × Text.Bytes} :
    disk.findFile (Pathname.join dir (Path.join (b.join r).place q)) = .ok found ↔
      disk.findFile (Pathname.join inner (Path.join r.place q)) = .ok found := by
  obtain ⟨normal, -, one, other⟩ := based.target inside rebasable listed filled
  have short := rebasable.shortFile t _ based.behind (includes_of_mem listed)
  rw [based.parent] at short
  rw [one] at short ⊢
  rw [other]
  exact inside.findFile_iff normal short

/-- An included file is based where it lies. -/
theorem Based.next (based : Based disk inner start t r) {q : Text}
    (listed : .include q ∈ entriesOf disk inner t) (filled : q ≠ [])
    (found : disk.findFile (Pathname.join inner (Path.join r.place q)) = .ok (a, content)) :
    ∃ up, Based disk inner start (Path.join r.place q) up ∧
      Path.parent (Path.join (b.join r).place q) = (b.join up).place := by
  obtain ⟨normal, colon, one, other⟩ := based.target inside rebasable listed filled
  have includes : Includes disk inner t (Path.join r.place q) :=
    based.parent ▸ includes_of_mem listed
  rw [one] at found
  obtain ⟨up, c, hup, name, whole, rests, noNul⟩ :=
    inside.rests.exists_place inside.noNul normal found
  rw [whole] at one other colon noNul
  refine ⟨up, ⟨hup, fun n member => ?_, rests, ?_, based.behind.tail includes⟩, ?_⟩
  · have member : n ∈ up.names ++ [c] := List.mem_append_left _ member
    exact ⟨noNul n member, colon n member⟩
  · rw [one, Path.parent_text hup name]
  · rw [other, Route.join_name name, Path.parent_text (inside.normal.join hup) name]

/-- What an entry contributes to the including project is what it contributes to its own one. -/
theorem Based.contribution_paths_eq (based : Based disk inner start t r)
    (leads : Path.route place = b) {whole : List Disk.Identity}
    (outside : Around disk inner root start t whole)
    (around : Around disk inner root start t reading) (listed : e ∈ entriesOf disk inner t)
    (position : Position) :
    (contribution disk dir whole (b.join r).place position e).paths =
      (contribution disk inner reading r.place position e).paths.map (Path.join place) := by
  obtain ⟨from_, here⟩ : ∃ from_, from_ = r.place := ⟨_, rfl⟩
  rw [← here]
  induction reading, from_, position, e using entry_induction disk inner
    generalizing t r whole with
  | nothing => rfl
  | path reading from_ position p =>
    obtain ⟨text, entry⟩ := exists_text_of_mem listed
    have colon := rebasable.spelled t _ based.behind listed p rfl
    have join := based.join_eq inside leads colon (Entry.path_ne_nil entry)
    rw [contribution_path, contribution_path, here]
    exact congrArg (fun f => [f]) join
  | pattern reading from_ position p =>
    rw [here]
    exact based.pattern_paths_eq inside rebasable leads listed position
  | «include» reading from_ position q ih =>
    subst here
    obtain ⟨text, entry⟩ := exists_text_of_mem listed
    have filled := Entry.include_ne_nil entry
    have outer : ∀ file,
        disk.findFile (Pathname.join dir (Path.join (b.join r).place q)) = .ok file ↔
          disk.findFile (Pathname.join inner (Path.join r.place q)) = .ok file :=
      fun file => based.findFile_iff inside rebasable listed filled
    cases found : disk.findFile (Pathname.join inner (Path.join r.place q)) with
    | error err =>
      -- a file that cannot be read here cannot be read there
      rw [contribution_include_of_error, contribution_include_of_error]
      · rfl
      · simp [found]
      · intro other opened
        rw [(outer other).1 opened] at found
        cases found
    | ok file =>
      obtain ⟨a, content⟩ := file
      obtain ⟨up, next, parent⟩ := based.next inside rebasable listed filled found
      have includes : Includes disk inner t (Path.join r.place q) :=
        based.parent ▸ includes_of_mem listed
      have isFile := Disk.file?_eq_some.2 ⟨content, found⟩
      have opens := Disk.file?_eq_some.2 ⟨content, (outer _).2 found⟩
      have fresh := around.fresh rebasable based.behind includes isFile isFile
      have read := Disk.readText_eq_ok_iff.2 ⟨a, content, found, rfl⟩
      rw [contribution_include_of_ok ((outer _).2 found)
          (outside.fresh rebasable based.behind includes isFile opens),
        contribution_include_of_ok found fresh, List.map_flatMap, parent]
      refine List.flatMap_congr fun text member => ?_
      rw [contribution_paths _ _ _ _ position
          (.ofLine (Pathname.join inner (Path.join r.place q)) 0),
        contribution_paths _ inner _ _ position
          (.ofLine (Pathname.join inner (Path.join r.place q)) 0)]
      exact ih a content fresh found 0 text next
        (outside.next based.behind includes isFile opens)
        (around.next based.behind includes isFile isFile) (mem_entriesOf read member) next.parent

end

/-! ### Included files on their own -/

/-- The project file that the project file `root` includes as `p`. -/
def includedFile (root p : Text) : Text := Pathname.join (Pathname.directory root) (Path.join [] p)

/-- An entry that includes a file which can be read, and which is not the root, stands for what the
entries of this file stand for. -/
theorem entryPaths_include {entry p : Text} (includes : Entry.ofText entry = .include p)
    (found : disk.findFile (includedFile root p) = .ok (a, content))
    (other : disk.identity (includedFile root p) ≠ disk.identity root) :
    entryPaths disk root entry = (listedEntries (Text.ofUtf8 content)).flatMap fun e =>
      (contribution disk (Pathname.directory root)
        [disk.identity (includedFile root p), disk.identity root] (Path.parent (Path.join [] p))
        (.ofLine root 0) (Entry.ofText e)).paths := by
  rw [entryPaths, entryContribution, includes]
  exact contribution_include_of_ok found (mt List.mem_singleton.1 other)

/-- Reading a text as a project adds what it passes on, before anything is derived. -/
theorem consists_passedOn (disk : Disk) (file source : Text)
    (accepted : (Item.inText source).findSome? Item.tooNew? = none) :
    ∃ p, (readItems disk (bare file) [] (Item.ofText source)).result = .ok p ∧
      Consists p ((passedOn disk file source).map Path.canonical)
        (listedFiles disk file ((Item.inText source).filterMap (Item.entryIn? .debugOnly))) := by
  have result := readItems_result disk (bare file) [] (Item.ofText source)
  rw [Item.ofText_map_snd, accepted] at result
  exact ⟨_, result, consists_run disk file (Item.inText source)⟩

/-- The project file `root` can be read, and `entry` includes another one that can be read and that
asks for no newer version. The root of the disk is its own parent. -/
structure Inclusion (disk : Disk) (root rootText entry p source : Text) : Prop where
  above : disk.above = .root
  rootReads : disk.readText root = .ok rootText
  includes : Entry.ofText entry = .include p
  reads : disk.readText (includedFile root p) = .ok source
  accepted : (Item.inText source).findSome? Item.tooNew? = none

/-- The included file lies in a directory inside the one of the root, and there it is a name. -/
theorem Inclusion.exists_place {root rootText entry p source : Text}
    (h : Inclusion disk root rootText entry p source) :
    ∃ up c, Path.IsName c ∧ Path.parent (Path.join [] p) = up.place ∧
      Path.fileName (Path.join [] p) = c ∧
      disk.Inside (Pathname.directory root) up (Pathname.directory (includedFile root p)) ∧
      Pathname.join (Pathname.directory (includedFile root p)) c = includedFile root p := by
  obtain ⟨above, rootReads, includes, reads, -⟩ := h
  obtain ⟨seen, rootContent, rootFound, -⟩ := Disk.readText_eq_ok_iff.1 rootReads
  obtain ⟨a, content, found, rfl⟩ := Disk.readText_eq_ok_iff.1 reads
  -- the directory of the root
  obtain ⟨rootReaches, rootLed, rootTime, rootNode⟩ := Disk.findFile_eq_ok_iff.1 rootFound
  have outer : disk.Rests (Pathname.directory root) :=
    rootReaches.rests_directory (by rw [rootLed, rootNode]; simp)
  have free : '\x00' ∉ Pathname.directory root := fun nul =>
    rootReaches.pathname.noNul
      (((Pathname.mem_directory nul).resolve_left (by decide)).resolve_left (by decide))
  -- the way from there to the included file
  have target : Path.join [] p = (Path.route p).text := by
    have here : Path.join [] p = Path.canonical p := if_pos (.inl rfl)
    rw [here, Path.canonical_eq_text (Entry.include_ne_nil includes)]
  have hr := Path.route_normal p
  generalize Path.route p = r at target hr
  rw [includedFile, target] at found ⊢
  obtain ⟨up, c, hup, name, rfl, -, -⟩ := outer.exists_place free hr found
  obtain ⟨parent, fileName⟩ := Path.parent_fileName_text hup name
  have unrooted := Path.isRooted_name name
  rw [Path.text_concat hup name, Pathname.join_join unrooted] at found
  rw [parent, fileName, Path.text_concat hup name, Pathname.join_join unrooted]
  have trimmed := Pathname.trimmed_directory root
  obtain ⟨reaches, led, _, node⟩ := Disk.findFile_eq_ok_iff.1 found
  refine ⟨up, c, name, rfl, rfl,
    Disk.inside_directory above outer trimmed free hup name reaches (by rw [led, node]; simp), ?_⟩
  rw [Pathname.join_relative unrooted, trimmed.directory_join_place hup name,
    ← Pathname.join_relative unrooted]

/-- The included file by its name is where the two readings start. -/
theorem Based.start {c : Text} (inside : disk.Inside dir b inner) (name : Path.IsName c) :
    Based disk inner c c ⟨false, 0, []⟩ where
  normal := ⟨by simp, by simp⟩
  plain := by simp
  rests := (Disk.rests_join_iff inside.above inside.rests ⟨by simp, by simp⟩
    Pathname.spells_nil).2 ⟨by simpa [Address.route] using inside.rests.directory, by simp⟩
  parent := Path.parent_name name
  behind := .refl

/-- What an entry that includes a project file stands for. -/
theorem Inclusion.entryPaths_eq {root rootText entry p source : Text}
    (h : Inclusion disk root rootText entry p source)
    (rebasable : Rebasable disk (Pathname.directory (includedFile root p)) root
      (Path.fileName (Path.join [] p)))
    {place : Text} (leads : Path.route place = Path.route (Path.parent (Path.join [] p))) :
    entryPaths disk root entry =
      (passedOn disk (includedFile root p) source).map (Path.join place) := by
  obtain ⟨up, c, name, parent, fileName, inside, file⟩ := h.exists_place
  obtain ⟨-, rootReads, includes, reads, -⟩ := h
  obtain ⟨seen, rootContent, rootFound, -⟩ := Disk.readText_eq_ok_iff.1 rootReads
  obtain ⟨a, content, found, rfl⟩ := Disk.readText_eq_ok_iff.1 reads
  have isRoot : disk.file? root = some seen := Disk.file?_eq_some.2 ⟨rootContent, rootFound⟩
  have isFile : disk.file? (includedFile root p) = some a := Disk.file?_eq_some.2 ⟨content, found⟩
  rw [fileName] at rebasable
  rw [parent, Path.route_place inside.normal] at leads
  -- the root is being read, and the included file by the name that both readings have for it
  have start : Around disk (Pathname.directory (includedFile root p)) root c c
      [disk.identity (includedFile root p)] := fun i member => by
    rw [List.mem_singleton.1 member]
    exact ⟨_, a, rfl, isFile, .inr ⟨c, file.symm ▸ isFile, .refl, .refl⟩⟩
  have outside : Around disk (Pathname.directory (includedFile root p)) root c c
      [disk.identity (includedFile root p), disk.identity root] := fun i member => by
    rcases List.mem_cons.1 member with rfl | member
    · exact start _ List.mem_cons_self
    · rw [List.mem_singleton.1 member]
      exact ⟨root, seen, rfl, isRoot, .inl isRoot⟩
  have other : disk.identity (includedFile root p) ≠ disk.identity root := fun same => by
    have led := Disk.destination_of_identity_eq same
    rw [Disk.destination_of_file? isFile, Disk.destination_of_file? isRoot] at led
    exact rebasable.other c .refl (by rw [file, isFile, isRoot, led])
  rw [entryPaths_include includes found other, parent, passedOn, List.map_flatMap]
  refine List.flatMap_congr fun text member => ?_
  have listed := mem_entriesOf (file.symm ▸ reads) member
  rw [entryPaths, entryContribution,
    contribution_paths _ _ _ _ (.ofLine (includedFile root p) 0) (.ofLine root 0)]
  exact (Based.start inside name).contribution_paths_eq inside rebasable leads outside start listed
    (.ofLine root 0)

/-! ### Small disks -/

section

variable {start last : Text} (one : targetsOf disk dir start = [last])
  (none : targetsOf disk dir last = [])
include one none

/-- One file is included, and nothing behind it. -/
theorem eq_of_behind (behind : Behind disk dir start t) : t = start ∨ t = last := by
  induction behind with
  | refl => exact .inl rfl
  | tail _ step ih =>
    rcases ih with rfl | rfl
    · rw [Includes, one] at step
      exact .inr (List.mem_singleton.1 step)
    · rw [Includes, none] at step
      cases step

theorem eq_of_transGen (behind : Behind disk dir start t) (led : TransGen (Includes disk dir) t u) :
    t = start ∧ u = last := by
  obtain ⟨x, step, rest⟩ := TransGen.head'_iff.1 led
  rcases eq_of_behind one none behind with rfl | rfl
  · rw [Includes, one] at step
    obtain rfl := List.mem_singleton.1 step
    refine ⟨rfl, ?_⟩
    rcases ReflTransGen.cases_head rest with same | ⟨y, step, -⟩
    · exact same.symm
    · rw [Includes, none] at step
      cases step
  · rw [Includes, none] at step
    cases step

theorem plain_of_chain
    (apart : disk.file? (Pathname.join dir last) ≠ disk.file? (Pathname.join dir start))
    (other : ∀ t ∈ [start, last], disk.file? (Pathname.join dir t) ≠ disk.file? root)
    (spelled : ∀ t ∈ [start, last], ∀ e ∈ entriesOf disk dir t, ∀ p ∈ e.spelled?, ':' ∉ p) :
    Plain disk dir root start := by
  have member {t : Text} (behind : Behind disk dir start t) : t ∈ [start, last] := by
    simpa using eq_of_behind one none behind
  refine ⟨fun t u behind led => ?_, fun t behind => other t (member behind),
    fun t e behind => spelled t (member behind) e⟩
  obtain ⟨rfl, rfl⟩ := eq_of_transGen one none behind led
  exact apart

end

/-- A project that includes another one, which includes a third one from another directory. -/
def twoLevels : Disk where
  top := [(".srcfiles.yaml", .file (Text.toUtf8 "Files:\n  .include sub/p.yaml\n") ⟨0⟩),
    ("sub", .directory [
      ("p.yaml", .file (Text.toUtf8 "Files:\n  a.c\n  *.h\n  .include ../lib/q.yaml\n") ⟨0⟩),
      ("b.h", .file [] ⟨0⟩)]),
    ("lib", .directory [("q.yaml", .file (Text.toUtf8 "Files:\n  ../x.c\n") ⟨0⟩)])]
  current := []
  now := ⟨0⟩

theorem rebasable_twoLevels : Rebasable twoLevels "./sub" ".srcfiles.yaml" "p.yaml" := by
  have one : targetsOf twoLevels "./sub" "p.yaml" = ["../lib/q.yaml".toList] := by decide +kernel
  have none : targetsOf twoLevels "./sub" "../lib/q.yaml" = [] := by decide +kernel
  have plain : Plain twoLevels "./sub" ".srcfiles.yaml" "p.yaml" :=
    plain_of_chain one none (by decide +kernel) (by decide +kernel) (by decide +kernel)
  have pattern {t p : Text} (behind : Behind twoLevels "./sub" "p.yaml" t)
      (listed : .pattern p ∈ entriesOf twoLevels "./sub" t) : t = "p.yaml" ∧ p = "*.h" := by
    have first : ∀ e ∈ entriesOf twoLevels "./sub" "p.yaml",
        e.spelled? = .none → e = .pattern "*.h" := by decide +kernel
    have second : ∀ e ∈ entriesOf twoLevels "./sub" "../lib/q.yaml", e.spelled? ≠ .none := by
      decide +kernel
    rcases eq_of_behind one none behind with rfl | rfl
    · exact ⟨rfl, Entry.pattern.inj (first _ listed rfl)⟩
    · exact absurd rfl (second _ listed)
  refine { plain with
    found := fun t p files behind listed found => ?_
    shortFile := fun t u behind includes => ?_
    shortDirectory := fun t p behind listed => ?_ }
  · obtain ⟨rfl, rfl⟩ := pattern behind listed
    have expanded : (expandPattern twoLevels (Pathname.join "./sub" (Path.parent "p.yaml"))
        "*.h").toOption = some ["b.h".toList] := by decide +kernel
    rw [found] at expanded
    obtain rfl : files = ["b.h".toList] := Option.some.inj expanded
    decide
  · obtain ⟨-, rfl⟩ := eq_of_transGen one none behind (.single includes)
    decide
  · obtain ⟨rfl, rfl⟩ := pattern behind listed
    decide +kernel

/-! ### Included files are rebased -/

/-- Including a project file adds what reading it as a project adds, each path as seen from the
including project, and in the scope of the entry whatever the scope is. The directory of the
included file can be taken from its normal form, or as the entry spells it. -/
theorem include_adds_rebased {root rootText entry p source : Text}
    (h : Inclusion disk root rootText entry p source)
    (rebasable : Rebasable disk (Pathname.directory (includedFile root p)) root
      (Path.fileName (Path.join [] p))) :
    (∀ (q : Project) (n : Nat) (scope : Scope) (place : Text), q.file = root →
      place = Path.parent (Path.join [] p) ∨
        Path.IsName (Path.fileName p) ∧ place = Path.parent p →
      (readItem disk q n (.entry scope entry)).1 =
        (q.declare scope entry).addPaths scope
          ((passedOn disk (includedFile root p) source).map (Path.join place))) ∧
    ∃ q, (readItems disk (bare (includedFile root p)) [] (Item.ofText source)).result = .ok q ∧
      Consists q ((passedOn disk (includedFile root p) source).map Path.canonical)
        (listedFiles disk (includedFile root p)
          ((Item.inText source).filterMap (Item.entryIn? .debugOnly))) := by
  refine ⟨fun q n scope place here named => ?_, consists_passedOn disk _ source h.accepted⟩
  have leads : Path.route place = Path.route (Path.parent (Path.join [] p)) := by
    rcases named with rfl | ⟨name, rfl⟩
    · rfl
    · exact Path.route_parent_of_name name
  rw [readItem_fst, step_entry, here, h.entryPaths_eq rebasable leads]

theorem passedOn_twoLevels :
    passedOn twoLevels "./sub/p.yaml" "Files:\n  a.c\n  *.h\n  .include ../lib/q.yaml\n" =
      [("a.c" : Text), "b.h", "../x.c"] := by
  have listed : listedEntries "Files:\n  a.c\n  *.h\n  .include ../lib/q.yaml\n" =
      [("a.c" : Text), "*.h", ".include ../lib/q.yaml"] := by decide +kernel
  have found : twoLevels.findFile (includedFile "./sub/p.yaml" "../lib/q.yaml") =
      .ok ([("lib" : Text), "q.yaml"], Text.toUtf8 "Files:\n  ../x.c\n") := by decide +kernel
  have other : twoLevels.identity (includedFile "./sub/p.yaml" "../lib/q.yaml") ≠
      twoLevels.identity "./sub/p.yaml" := by decide +kernel
  have included : Entry.ofText ".include ../lib/q.yaml" = .include "../lib/q.yaml" := by
    decide +kernel
  rw [passedOn, listed, List.flatMap_cons, List.flatMap_cons, List.flatMap_singleton,
    entryPaths_include included found other]
  decide +kernel

theorem include_adds_rebased_twoLevels :
    (readItem twoLevels (bare ".srcfiles.yaml") 2
      (.entry .everyBuild ".include sub/p.yaml")).1.files =
        ["sub/a.c".toList, "sub/b.h", "x.c"] := by
  have inclusion : Inclusion twoLevels ".srcfiles.yaml" "Files:\n  .include sub/p.yaml\n"
      ".include sub/p.yaml" "sub/p.yaml" "Files:\n  a.c\n  *.h\n  .include ../lib/q.yaml\n" :=
    ⟨rfl, by decide +kernel, by decide +kernel, by decide +kernel, by decide +kernel⟩
  have target : includedFile ".srcfiles.yaml" "sub/p.yaml" = "./sub/p.yaml" := by decide +kernel
  rw [(include_adds_rebased inclusion (by exact rebasable_twoLevels)).1 _ 2 .everyBuild "sub" rfl
    (.inl rfl), target, passedOn_twoLevels]
  decide +kernel

/-! ### Where rebasing fails -/

/-- An entry includes a file, all is plain behind it, and still it does not add what reading the
file as a project adds. -/
structure Strays (disk : Disk) (root rootText entry p source : Text) : Prop where
  inclusion : Inclusion disk root rootText entry p source
  listed : entry ∈ listedEntries rootText
  plain : Plain disk (Pathname.directory (includedFile root p)) root
    (Path.fileName (Path.join [] p))
  differs : entryPaths disk root entry ≠
    (passedOn disk (includedFile root p) source).map (Path.join (Path.parent (Path.join [] p)))

/-- A pattern finds a file in a directory that is called like a drive. -/
def driveDisk : Disk where
  top := [(".srcfiles.yaml", .file (Text.toUtf8 "Files:\n    .include sub/p.yaml\n") ⟨0⟩),
    ("sub", .directory [
      ("p.yaml", .file (Text.toUtf8 "Files:\n    .include a/q.yaml\n") ⟨0⟩),
      ("a", .directory [("q.yaml", .file (Text.toUtf8 "Files:\n    ../C:/*.c\n") ⟨0⟩)]),
      ("C:", .directory [("x.c", .file [] ⟨0⟩)])])]
  current := []
  now := ⟨0⟩

/-- Included behind another file, the second file is read from the directory of the root. -/
theorem entryPaths_driveDisk :
    entryPaths driveDisk ".srcfiles.yaml" ".include sub/p.yaml" = [("sub/C:/x.c" : Text)] := by
  have first : driveDisk.findFile (includedFile ".srcfiles.yaml" "sub/p.yaml") =
      .ok ([("sub" : Text), "p.yaml"], Text.toUtf8 "Files:\n    .include a/q.yaml\n") := by
    decide +kernel
  have listed : listedEntries (Text.ofUtf8 (Text.toUtf8 "Files:\n    .include a/q.yaml\n")) =
      [(".include a/q.yaml" : Text)] := by decide +kernel
  have second : driveDisk.findFile (Pathname.join (Pathname.directory ".srcfiles.yaml")
      (Path.join (Path.parent (Path.join [] "sub/p.yaml")) "a/q.yaml")) =
      .ok ([("sub" : Text), "a", "q.yaml"], Text.toUtf8 "Files:\n    ../C:/*.c\n") := by
    decide +kernel
  rw [entryPaths_include (p := "sub/p.yaml") (by decide +kernel) first (by decide +kernel), listed,
    List.flatMap_singleton, show Entry.ofText ".include a/q.yaml" = .include "a/q.yaml" by decide,
    contribution_include_of_ok second (by decide +kernel)]
  decide +kernel

/-- On its own, the first file reads it from its own directory. -/
theorem passedOn_driveDisk :
    passedOn driveDisk "./sub/p.yaml" "Files:\n    .include a/q.yaml\n" = [("C:/x.c" : Text)] := by
  have listed : listedEntries "Files:\n    .include a/q.yaml\n" =
      [(".include a/q.yaml" : Text)] := by decide +kernel
  have found : driveDisk.findFile (includedFile "./sub/p.yaml" "a/q.yaml") =
      .ok ([("sub" : Text), "a", "q.yaml"], Text.toUtf8 "Files:\n    ../C:/*.c\n") := by
    decide +kernel
  rw [passedOn, listed, List.flatMap_singleton,
    entryPaths_include (p := "a/q.yaml") (by decide +kernel) found (by decide +kernel)]
  decide +kernel

theorem plain_driveDisk : Plain driveDisk "./sub" ".srcfiles.yaml" "p.yaml" := by
  have one : targetsOf driveDisk "./sub" "p.yaml" = ["a/q.yaml".toList] := by decide +kernel
  exact plain_of_chain one (by decide +kernel) (by decide +kernel) (by decide +kernel)
    (by decide +kernel)

/-- Nine directories inside one another, with names about as long as names can be: a letter that
takes four bytes keeps them short to look at. -/
def deepNames (c : Char) : List Text := List.replicate 9 (List.replicate 63 c)

def deepPath (c : Char) (name : Text) : Text := ['/'].intercalate (deepNames c ++ [name])

def deepTree (c : Char) (name content : Text) : Tree :=
  (deepNames c).tail.foldr (fun n t => .directory [(n, t)])
    (.directory [(name, .file (Text.toUtf8 content) ⟨0⟩)])

def deepEntry : Text := ".include ".toList ++ deepPath '𝛼' "p.yaml"

def deepTarget : Text := "../../../../../../../../../".toList ++ deepPath '𝛽' "q.yaml"

def deepText : Text := "Files:\n    .include ".toList ++ deepTarget

/-- Two files that lie deep in different directories. -/
def deepDisk : Disk where
  top := [(".srcfiles.yaml", .file (Text.toUtf8 ("Files:\n    ".toList ++ deepEntry)) ⟨0⟩),
    (List.replicate 63 '𝛼', deepTree '𝛼' "p.yaml" deepText),
    (List.replicate 63 '𝛽', deepTree '𝛽' "q.yaml" "Files:\n    x.c\n")]
  current := []
  now := ⟨0⟩
  distinct := by decide +kernel

/-- The directory from which the first of them sees the other one. -/
def deepDirectory : Text := "./".toList ++ ['/'].intercalate (deepNames '𝛼')

/-- From the directory of the root, the second file is opened by a short name. -/
theorem entryPaths_deepDisk :
    entryPaths deepDisk ".srcfiles.yaml" deepEntry = [deepPath '𝛽' "x.c"] := by
  have first : deepDisk.findFile (includedFile ".srcfiles.yaml" (deepPath '𝛼' "p.yaml")) =
      .ok (deepNames '𝛼' ++ [("p.yaml" : Text)], Text.toUtf8 deepText) := by decide +kernel
  have listed : listedEntries (Text.ofUtf8 (Text.toUtf8 deepText)) =
      [".include ".toList ++ deepTarget] := by decide +kernel
  have included : Entry.ofText (".include ".toList ++ deepTarget) = .include deepTarget := by
    decide +kernel
  have second : deepDisk.findFile (Pathname.join (Pathname.directory ".srcfiles.yaml")
      (Path.join (Path.parent (Path.join [] (deepPath '𝛼' "p.yaml"))) deepTarget)) =
      .ok (deepNames '𝛽' ++ [("q.yaml" : Text)], Text.toUtf8 "Files:\n    x.c\n") := by
    decide +kernel
  rw [entryPaths_include (p := deepPath '𝛼' "p.yaml") (by decide +kernel) first
      (by decide +kernel), listed, List.flatMap_singleton, included,
    contribution_include_of_ok second (by decide +kernel)]
  decide +kernel

/-- From the directory of the first file its name is too long. -/
theorem passedOn_deepDisk :
    passedOn deepDisk (Pathname.join deepDirectory "p.yaml") deepText = [] := by
  have listed : listedEntries deepText = [".include ".toList ++ deepTarget] := by decide +kernel
  have included : Entry.ofText (".include ".toList ++ deepTarget) = .include deepTarget := by
    decide +kernel
  have tooLong : (deepDisk.findFile (includedFile (Pathname.join deepDirectory "p.yaml")
      deepTarget)).toOption = none := by decide +kernel
  rw [passedOn, listed, List.flatMap_singleton, entryPaths, entryContribution, included]
  refine contribution_include_of_error fun found opened => ?_
  rw [includedFile] at tooLong
  rw [opened] at tooLong
  cases tooLong

theorem plain_deepDisk : Plain deepDisk deepDirectory ".srcfiles.yaml" "p.yaml" := by
  have one : targetsOf deepDisk deepDirectory "p.yaml" = [deepTarget] := by decide +kernel
  exact plain_of_chain one (by decide +kernel) (by decide +kernel) (by decide +kernel)
    (by decide +kernel)

/-- Without the further conditions the included file need not be rebased. From the root, the file
that a pattern finds as `../C:/x.c` in `sub/a` is `sub/C:/x.c`; from `sub` it is `C:/x.c`, and that
is absolute. And what the root includes by a short name has a long one from a deep directory, since
a name on the disk is not brought into normal form. -/
theorem plain_strays :
    Strays driveDisk ".srcfiles.yaml" "Files:\n    .include sub/p.yaml\n" ".include sub/p.yaml"
        "sub/p.yaml" "Files:\n    .include a/q.yaml\n" ∧
      Strays deepDisk ".srcfiles.yaml" ("Files:\n    ".toList ++ deepEntry) deepEntry
        (deepPath '𝛼' "p.yaml") deepText := by
  constructor
  · have target : includedFile ".srcfiles.yaml" "sub/p.yaml" = "./sub/p.yaml" := by decide +kernel
    exact
      { inclusion := ⟨rfl, by decide +kernel, by decide +kernel, by decide +kernel,
          by decide +kernel⟩
        listed := by decide +kernel
        plain := plain_driveDisk
        differs := by
          rw [entryPaths_driveDisk, target, passedOn_driveDisk]
          decide +kernel }
  · have target : includedFile ".srcfiles.yaml" (deepPath '𝛼' "p.yaml") =
        Pathname.join deepDirectory "p.yaml" := by decide +kernel
    have directory : Pathname.directory (Pathname.join deepDirectory "p.yaml") = deepDirectory := by
      decide +kernel
    have name : Path.fileName (Path.join [] (deepPath '𝛼' "p.yaml")) = "p.yaml" := by decide +kernel
    have rootReads :
        deepDisk.readText ".srcfiles.yaml" = .ok ("Files:\n    ".toList ++ deepEntry) :=
      Disk.readText_eq_ok_iff.2 ⟨[".srcfiles.yaml"], _, rfl, Text.ofUtf8_toUtf8 _⟩
    exact
      { inclusion := ⟨rfl, rootReads, by decide +kernel, by decide +kernel, by decide +kernel⟩
        listed := by decide +kernel
        plain := by
          rw [target, directory, name]
          exact plain_deepDisk
        differs := by
          rw [entryPaths_deepDisk, target, passedOn_deepDisk]
          exact List.cons_ne_nil _ _ }

end BuildMatrix.Project
