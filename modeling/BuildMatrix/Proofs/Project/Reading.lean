import BuildMatrix.Proofs.Project.FileLists
import BuildMatrix.Proofs.Project.Items

/-! Reading item by item. A step changes one part of the project, and which part depends on the item
alone; so each part of the project that was read is a function of the items: the last setting of
every option, the lines that are kept, the entries of every scope, and the files they stand for. -/

set_option autoImplicit false

namespace BuildMatrix.Project

variable {disk : Disk} {p : Project} {k : OptionKey} {scope : Scope} {kind : PairKind}

/-! ### What an item contributes to each part -/

/-- The option that a line sets, in the form in which it is stored. -/
def lineSetting? (line : Text) : Option (OptionKey × Setting) :=
  match Line.option? line with
  | none => none
  | some parts =>
    (OptionKey.ofName? parts.name).map fun k =>
      (k, ⟨storedValue k parts.value, parts.comment⟩)

def Item.setting? : Item → Option (OptionKey × Setting)
  | .option line => lineSetting? line
  | .commentedOption line => lineSetting? line
  | _ => none

def Item.settingOf? (k : OptionKey) (i : Item) : Option Setting :=
  match i.setting? with
  | none => none
  | some (l, s) => if l = k then some s else none

/-- The line that is kept as that of an unknown option. -/
def Item.unknown? : Item → Option Text
  | .option line =>
    if (Line.option? line).isSome ∧ lineSetting? line = none then some line else none
  | .commentedOption line => if lineSetting? line = none then some line else none
  | _ => none

def Item.entryIn? (scope : Scope) : Item → Option Text
  | .entry s e => if s = scope then some e else none
  | _ => none

def Item.pairOf? (kind : PairKind) : Item → Option (Text × Text)
  | .pair k line => if k = kind then Line.pair? line else none
  | _ => none

/-- The paths that an entry of the project file `file` stands for. -/
def entryPaths (disk : Disk) (file e : Text) : List Text :=
  (entryContribution disk file 0 e).paths

/-! ### Steps -/

/-- The project after an item. -/
def step (disk : Disk) (p : Project) (i : Item) : Project := (readItem disk p 0 i).1

def run (disk : Disk) (p : Project) (items : List Item) : Project := items.foldl (step disk) p

theorem expandPattern_eq_ok_iff [PatternLanguage] {dir p : Text} {files : List Text} :
    expandPattern disk dir p = .ok files ↔
      ∃ isMatch names, PatternLanguage.compile (Path.fileName p) = .ok isMatch ∧
        disk.fileNames (Pathname.join dir (Path.parent p)) = .ok names ∧
        Text.sort ((names.filter isMatch).map (Path.join (Path.parent p))) = files := by
  unfold expandPattern
  dsimp only
  cases PatternLanguage.compile (Path.fileName p) with
  | error reason => simp
  | ok isMatch =>
    cases disk.fileNames (Pathname.join dir (Path.parent p)) with
    | error e => simp
    | ok names => simp

/-! ### What entries contribute -/

/-- What holds of an entry as soon as it holds of the entries of the file that it includes, if that
is read, holds of all entries. -/
theorem entry_induction (disk : Disk) (dir : Text)
    {motive : List Disk.Identity → Text → Position → Entry → Prop}
    (nothing : ∀ reading base position, motive reading base position .nothing)
    (path : ∀ reading base position q, motive reading base position (.path q))
    (pattern : ∀ reading base position q, motive reading base position (.pattern q))
    («include» : ∀ reading base position q,
      (∀ a content, disk.identity (Pathname.join dir (Path.join base q)) ∉ reading →
        disk.findFile (Pathname.join dir (Path.join base q)) = .ok (a, content) →
          ∀ n e, motive (disk.identity (Pathname.join dir (Path.join base q)) :: reading)
            (Path.parent (Path.join base q))
            (.ofLine (Pathname.join dir (Path.join base q)) n) (Entry.ofText e)) →
        motive reading base position (.include q))
    (reading : List Disk.Identity) (base : Text) (position : Position) (e : Entry) :
    motive reading base position e := by
  cases e with
  | nothing => exact nothing ..
  | path q => exact path ..
  | pattern q => exact pattern ..
  | «include» q =>
    exact «include» _ _ _ _ fun a content fresh found n e =>
      entry_induction disk dir nothing path pattern «include» _ _ _ _
termination_by disk.unmet dir (fun x => disk.identity (Pathname.join dir x)) reading
decreasing_by exact Disk.unmet_cons_lt (Disk.isFile_of_findFile (by assumption)) (by assumption)

section

variable [PatternLanguage] (disk : Disk) (dir : Text) (reading : List Disk.Identity) (base : Text)
  (position : Position)

/-- What the entries of a file contribute that is included as `target`, and that is being read as
long as they are. -/
def fileContribution (target : Text) (content : Text.Bytes) : Contribution :=
  let file := Pathname.join dir target
  .join <| .ofEvent (.including file) ::
    (Item.listed (Text.ofUtf8 content)).map fun (n, e) =>
      contribution disk dir (disk.identity file :: reading) (Path.parent target) (.ofLine file n)
        (Entry.ofText e)

theorem contribution_nothing :
    contribution disk dir reading base position .nothing = .ofPaths [] := rfl

theorem contribution_path (q : Text) :
    contribution disk dir reading base position (.path q) = .ofPaths [Path.join base q] := rfl

theorem contribution_pattern (q : Text) :
    contribution disk dir reading base position (.pattern q) =
      match expandPattern disk (Pathname.join dir base) q with
      | .ok files => .ofPaths (files.map (Path.join base))
      | .error w => .ofWarning position w := rfl

theorem contribution_include (q : Text) :
    contribution disk dir reading base position (.include q) =
      if disk.identity (Pathname.join dir (Path.join base q)) ∈ reading then
        .ofWarning position (.includeCycle (Path.join base q))
      else
        match disk.findFile (Pathname.join dir (Path.join base q)) with
        | .error e => .ofWarning position (.unreadableInclude (Path.join base q) e)
        | .ok (_, content) => fileContribution disk dir reading (Path.join base q) content := by
  rw [contribution, Entry.contribution, includeContribution]
  by_cases known : disk.identity (Pathname.join dir (Path.join base q)) ∈ reading
  · rw [if_pos known, dif_pos known]
  · rw [if_neg known, dif_neg known]
    split
    · rename_i failed
      rw [failed]
    · rename_i found
      rw [found]
      rfl

/-- Where an entry stands does not matter for the paths. -/
theorem contribution_paths (a b : Position) (e : Entry) :
    (contribution disk dir reading base a e).paths =
      (contribution disk dir reading base b e).paths := by
  cases e with
  | nothing | path => rfl
  | pattern q =>
    rw [contribution_pattern, contribution_pattern]
    cases expandPattern disk (Pathname.join dir base) q <;> rfl
  | «include» q =>
    rw [contribution_include, contribution_include]
    repeat' split
    all_goals rfl

variable {disk dir reading base position} in
/-- A file that cannot be read contributes nothing. -/
theorem contribution_include_of_error {q : Text}
    (none : ∀ found, disk.findFile (Pathname.join dir (Path.join base q)) ≠ .ok found) :
    (contribution disk dir reading base position (.include q)).paths = [] := by
  rw [contribution_include]
  split
  · rfl
  · split
    · rfl
    · rename_i found
      exact absurd found (none _)

end

theorem entryContribution_paths (disk : Disk) (file : Text) (n : Nat) (e : Text) :
    (entryContribution disk file n e).paths = entryPaths disk file e :=
  contribution_paths ..

theorem assign_eq (p : Project) (k : OptionKey) (value : Text) (comment : Option Text) :
    p.assign k value comment = p.withSetting k (some ⟨storedValue k value, comment⟩) := by
  simp only [assign, set, setComment, withSetting, if_true]
  congr 1
  funext l
  split <;> rfl

theorem readOption_fst (p : Project) (position : Position) (line : Text) :
    (readOption p position line).1 =
      match lineSetting? line with
      | some (k, s) => p.withSetting k (some s)
      | none => if (Line.option? line).isSome then p.addUnrecognized line else p := by
  unfold readOption lineSetting?
  cases Line.option? line with
  | none => rfl
  | some parts =>
    cases found : OptionKey.ofName? parts.name with
    | none => simp [found]
    | some k => simp [found, assign_eq]

theorem readCommentedOption_fst (p : Project) (position : Position) (line : Text) :
    (readCommentedOption p position line).1 =
      match lineSetting? line with
      | some (k, s) => p.withSetting k (some s)
      | none => p.addUnrecognized line := by
  have plain := readOption_fst p position line
  unfold readCommentedOption
  unfold lineSetting? at plain ⊢
  cases option : Line.option? line with
  | none => rfl
  | some parts =>
    cases found : OptionKey.ofName? parts.name with
    | none => simp [found]
    | some k => simpa [option, found] using plain

/-- The line number is for messages only. -/
theorem readItem_fst (disk : Disk) (p : Project) (n : Nat) (i : Item) :
    (readItem disk p n i).1 = step disk p i := by
  cases i with
  | option line => simp only [step, readItem, readOption_fst]
  | commentedOption line => simp only [step, readItem, readCommentedOption_fst]
  | entry scope e => simp only [step, readItem, entryContribution_paths]
  | pair kind line =>
    simp only [step, readItem, readPair]
    cases Line.pair? line <;> rfl
  | _ => rfl

theorem step_option (disk : Disk) (p : Project) (line : Text) :
    step disk p (.option line) =
      match lineSetting? line with
      | some (k, s) => p.withSetting k (some s)
      | none => if (Line.option? line).isSome then p.addUnrecognized line else p :=
  readOption_fst ..

theorem step_commentedOption (disk : Disk) (p : Project) (line : Text) :
    step disk p (.commentedOption line) =
      match lineSetting? line with
      | some (k, s) => p.withSetting k (some s)
      | none => p.addUnrecognized line :=
  readCommentedOption_fst ..

theorem step_entry (disk : Disk) (p : Project) (scope : Scope) (e : Text) :
    step disk p (.entry scope e) =
      (p.declare scope e).addPaths scope (entryPaths disk p.file e) := rfl

theorem step_pair (disk : Disk) (p : Project) (kind : PairKind) (line : Text) :
    step disk p (.pair kind line) =
      match Line.pair? line with
      | none => p
      | some (source, destination) => p.addPair kind source destination := by
  simp only [step, readItem, readPair]
  cases Line.pair? line <;> rfl

/-- Whatever an entry stands for, only the file lists and the declared entries change. -/
theorem withoutFiles_step_entry (disk : Disk) (p : Project) (scope : Scope) (e : Text) :
    (step disk p (.entry scope e)).withoutFiles = (p.declare scope e).withoutFiles := by
  rw [step_entry, withoutFiles_addPaths]

/-- No item moves a project. -/
theorem step_place (disk : Disk) (p : Project) (i : Item) :
    ((step disk p i).file, (step disk p i).dir) = (p.file, p.dir) := by
  cases i with
  | option line =>
    rw [step_option]
    repeat' split
    all_goals rfl
  | commentedOption line =>
    rw [step_commentedOption]
    split <;> rfl
  | entry scope e =>
    have same := congrArg (fun q : Project => (q.file, q.dir))
      (withoutFiles_step_entry disk p scope e)
    exact same
  | pair kind line =>
    rw [step_pair]
    split <;> rfl
  | _ => rfl

theorem step_file (disk : Disk) (p : Project) (i : Item) : (step disk p i).file = p.file :=
  congrArg Prod.fst (step_place disk p i)

theorem withSetting_settings (p : Project) (k l : OptionKey) (s : Setting) :
    (p.withSetting l (some s)).settings k =
      (if l = k then some s else none).or (p.settings k) := by
  by_cases same : l = k
  · simp [withSetting, same]
  · simp [withSetting, same, Ne.symm same]

-- The lemmas about single fields split the items alike. Option lines are opened by what they set,
-- entries are settled by the frame lemma, and of the rest only pairs change a project at all.

theorem step_settings (disk : Disk) (p : Project) (i : Item) (k : OptionKey) :
    (step disk p i).settings k = (i.settingOf? k).or (p.settings k) := by
  cases i with
  | option line =>
    simp only [step_option, Item.settingOf?, Item.setting?]
    cases lineSetting? line with
    | none => dsimp only; split <;> rfl
    | some found => exact withSetting_settings ..
  | commentedOption line =>
    simp only [step_commentedOption, Item.settingOf?, Item.setting?]
    cases lineSetting? line with
    | none => rfl
    | some found => exact withSetting_settings ..
  | entry scope e =>
    have same := congrArg settings (withoutFiles_step_entry disk p scope e)
    exact congrFun same k
  | pair kind line =>
    rw [step_pair]
    split <;> rfl
  | _ => rfl

theorem step_unrecognized (disk : Disk) (p : Project) (i : Item) :
    (step disk p i).unrecognized = p.unrecognized ++ i.unknown?.toList := by
  cases i with
  | option line =>
    simp only [step_option, Item.unknown?]
    cases lineSetting? line with
    | none => dsimp only; split <;> simp [*, addUnrecognized]
    | some found => simp [withSetting]
  | commentedOption line =>
    simp only [step_commentedOption, Item.unknown?]
    cases lineSetting? line with
    | none => rfl
    | some found => simp [withSetting]
  | entry scope e =>
    have same := congrArg unrecognized (withoutFiles_step_entry disk p scope e)
    simp only [Item.unknown?, Option.toList_none, List.append_nil]
    exact same
  | pair kind line =>
    rw [step_pair]
    split <;> simp [Item.unknown?, addPair]
  | _ => simp [step, readItem, Item.unknown?]

theorem step_declared (disk : Disk) (p : Project) (i : Item) (scope : Scope) :
    (step disk p i).declared scope = p.declared scope ++ (i.entryIn? scope).toList := by
  cases i with
  | option line =>
    rw [step_option]
    repeat' split
    all_goals simp [Item.entryIn?, withSetting, addUnrecognized]
  | commentedOption line =>
    rw [step_commentedOption]
    split <;> simp [Item.entryIn?, withSetting, addUnrecognized]
  | entry s e =>
    have here := congrArg declared (withoutFiles_step_entry disk p s e)
    refine (congrFun here scope).trans ?_
    by_cases same : s = scope
    · simp [declare, withoutFiles, Item.entryIn?, same]
    · simp [declare, withoutFiles, Item.entryIn?, same, Ne.symm same]
  | pair kind line =>
    rw [step_pair]
    split <;> simp [Item.entryIn?, addPair]
  | _ => simp [step, readItem, Item.entryIn?]

/-- Pairs written one after the other. -/
def insertPairs (ps qs : List (Text × Text)) : List (Text × Text) :=
  qs.foldl (fun ps q => insertPair q.1 q.2 ps) ps

theorem step_pairs (disk : Disk) (p : Project) (i : Item) (kind : PairKind) :
    (step disk p i).pairs kind = insertPairs (p.pairs kind) (i.pairOf? kind).toList := by
  cases i with
  | option line =>
    rw [step_option]
    repeat' split
    all_goals rfl
  | commentedOption line =>
    rw [step_commentedOption]
    split <;> rfl
  | entry s e =>
    have same := congrArg pairs (withoutFiles_step_entry disk p s e)
    exact congrFun same kind
  | pair k line =>
    rw [step_pair, Item.pairOf?]
    cases Line.pair? line with
    | none => simp [insertPairs]
    | some found =>
      by_cases same : k = kind
      · simp [insertPairs, addPair, same]
      · simp [insertPairs, addPair, same, Ne.symm same]
  | _ => rfl

/-! ### Runs -/

-- Runs are taken apart at their end, since the last item sees what all the others made.

theorem run_concat (disk : Disk) (p : Project) (items : List Item) (i : Item) :
    run disk p (items ++ [i]) = step disk (run disk p items) i := by
  simp [run]

theorem run_place (disk : Disk) (p : Project) (items : List Item) :
    ((run disk p items).file, (run disk p items).dir) = (p.file, p.dir) := by
  induction items using List.reverseRecOn with
  | nil => rfl
  | append_singleton items i ih => rw [run_concat, step_place, ih]

theorem run_file (disk : Disk) (p : Project) (items : List Item) :
    (run disk p items).file = p.file :=
  congrArg Prod.fst (run_place disk p items)

/-- The last setting of an option counts. -/
theorem run_settings (disk : Disk) (p : Project) (items : List Item) (k : OptionKey) :
    (run disk p items).settings k =
      (items.filterMap (Item.settingOf? k)).getLast?.or (p.settings k) := by
  induction items using List.reverseRecOn with
  | nil => rfl
  | append_singleton items i ih =>
    rw [run_concat, step_settings, ih, List.filterMap_append, List.getLast?_append]
    cases here : i.settingOf? k <;> simp [here]

theorem run_unrecognized (disk : Disk) (p : Project) (items : List Item) :
    (run disk p items).unrecognized = p.unrecognized ++ items.filterMap Item.unknown? := by
  induction items using List.reverseRecOn with
  | nil => simp [run]
  | append_singleton items i ih =>
    rw [run_concat, step_unrecognized, ih, List.filterMap_append, List.append_assoc]
    cases here : i.unknown? <;> simp [here]

theorem run_declared (disk : Disk) (p : Project) (items : List Item) (scope : Scope) :
    (run disk p items).declared scope =
      p.declared scope ++ items.filterMap (Item.entryIn? scope) := by
  induction items using List.reverseRecOn with
  | nil => simp [run]
  | append_singleton items i ih =>
    rw [run_concat, step_declared, ih, List.filterMap_append, List.append_assoc]
    cases here : i.entryIn? scope <;> simp [here]

theorem run_pairs (disk : Disk) (p : Project) (items : List Item) (kind : PairKind) :
    (run disk p items).pairs kind =
      insertPairs (p.pairs kind) (items.filterMap (Item.pairOf? kind)) := by
  induction items using List.reverseRecOn with
  | nil => rfl
  | append_singleton items i ih =>
    rw [run_concat, step_pairs, ih, List.filterMap_append]
    cases here : i.pairOf? kind <;> simp [here, insertPairs]

/-- The files that entries of the project file `file` stand for, in normal form. -/
def listedFiles (disk : Disk) (file : Text) (entries : List Text) : List Text :=
  (entries.flatMap (entryPaths disk file)).map Path.canonical

theorem listedFiles_nil (disk : Disk) (file : Text) : listedFiles disk file [] = [] := rfl

theorem listedFiles_append (disk : Disk) (file : Text) (a b : List Text) :
    listedFiles disk file (a ++ b) = listedFiles disk file a ++ listedFiles disk file b := by
  simp [listedFiles]

theorem Consists.of_files {p q : Project} {added debug : List Text} (h : Consists p added debug)
    (same : q.files = p.files ∧ q.debugFiles = p.debugFiles ∧ q.rcFile = p.rcFile ∧
      q.helpFile = p.helpFile ∧ q.idlFiles = p.idlFiles) : Consists q added debug := by
  obtain ⟨files, debugFiles, rcFile, helpFile, idlFiles⟩ := same
  exact ⟨files.trans h.files, debugFiles.trans h.debugFiles, rcFile.trans h.rcFile,
    helpFile.trans h.helpFile, idlFiles.trans h.idlFiles⟩

theorem Consists.step {p : Project} {added debug : List Text} (h : Consists p added debug)
    (disk : Disk) (i : Item) :
    Consists (step disk p i)
      (added ++ listedFiles disk p.file (i.entryIn? .everyBuild).toList)
      (debug ++ listedFiles disk p.file (i.entryIn? .debugOnly).toList) := by
  cases i with
  | entry scope e =>
    have declared : Consists (p.declare scope e) added debug := h.of_files ⟨rfl, rfl, rfl, rfl, rfl⟩
    rw [step_entry]
    cases scope with
    | everyBuild => simpa [Item.entryIn?, listedFiles] using declared.addFiles _
    | debugOnly => simpa [Item.entryIn?, listedFiles] using declared.addDebugFiles _
  -- no other item has to do with files
  | option line =>
    simp only [step_option, Item.entryIn?, Option.toList_none, listedFiles_nil, List.append_nil]
    repeat' split
    all_goals exact h.of_files ⟨rfl, rfl, rfl, rfl, rfl⟩
  | commentedOption line =>
    simp only [step_commentedOption, Item.entryIn?, Option.toList_none, listedFiles_nil,
      List.append_nil]
    split <;> exact h.of_files ⟨rfl, rfl, rfl, rfl, rfl⟩
  | pair kind line =>
    simp only [step_pair, Item.entryIn?, Option.toList_none, listedFiles_nil, List.append_nil]
    split <;> exact h.of_files ⟨rfl, rfl, rfl, rfl, rfl⟩
  | _ =>
    simp only [Item.entryIn?, Option.toList_none, listedFiles_nil, List.append_nil]
    exact h.of_files ⟨rfl, rfl, rfl, rfl, rfl⟩

/-- The entries settle the file lists. -/
theorem consists_run (disk : Disk) (file : Text) (items : List Item) :
    Consists (run disk (bare file) items)
      (listedFiles disk file (items.filterMap (Item.entryIn? .everyBuild)))
      (listedFiles disk file (items.filterMap (Item.entryIn? .debugOnly))) := by
  induction items using List.reverseRecOn with
  | nil => exact consists_bare file
  | append_singleton items i ih =>
    have added : (run disk (bare file) items).file = file := run_file ..
    have grown := ih.step disk i
    rw [added, ← listedFiles_append, ← listedFiles_append] at grown
    have last : ∀ scope, [i].filterMap (Item.entryIn? scope) = (i.entryIn? scope).toList := by
      intro scope
      cases here : i.entryIn? scope <;> simp [here]
    rw [run_concat, List.filterMap_append, List.filterMap_append, last, last]
    exact grown

/-! ### Whole files -/

/-- Reading goes through all items unless one of them asks for a newer version. -/
theorem readItems_result (disk : Disk) (p : Project) (log : List Event)
    (items : List (Nat × Item)) :
    (readItems disk p log items).result =
      match (items.map Prod.snd).findSome? Item.tooNew? with
      | some v => .error (.versionTooNew p.file v toolVersion)
      | none => .ok (run disk p (items.map Prod.snd)) := by
  -- the project and the log are whatever the items before made of them
  induction items generalizing p log with
  | nil => rfl
  | cons item rest ih =>
    obtain ⟨n, i⟩ := item
    rw [readItems, List.map_cons, List.findSome?_cons]
    cases i.tooNew? with
    | some v => rfl
    | none =>
      dsimp only
      rw [ih, readItem_fst, step_file]
      rfl

theorem readText_result (disk : Disk) (file source : Text) :
    (readText disk file source).result =
      match (Item.inText source).findSome? Item.tooNew? with
      | some v => .error (.versionTooNew file v toolVersion)
      | none => .ok (derive disk (run disk (bare file) (Item.inText source))).1 := by
  have result := readItems_result disk (bare file) [] (Item.ofText source)
  rw [Item.ofText_map_snd] at result
  rw [readText]
  cases asked : (Item.inText source).findSome? Item.tooNew? with
  | some v =>
    rw [asked] at result
    simp only [result]
    rfl
  | none =>
    rw [asked] at result
    simp only [result]

/-- A text is accepted exactly if it asks for no newer version. -/
theorem readText_eq_ok_iff {disk : Disk} {file source : Text} {m : Project} :
    (readText disk file source).result = .ok m ↔
      (Item.inText source).findSome? Item.tooNew? = none ∧
        (derive disk (run disk (bare file) (Item.inText source))).1 = m := by
  rw [readText_result]
  cases (Item.inText source).findSome? Item.tooNew? <;> simp

theorem derive_dir (disk : Disk) (p : Project) : (derive disk p).1.dir = p.dir := by
  have named : (deriveName disk p).1.dir = p.dir := by
    unfold deriveName
    repeat' split
    all_goals rfl
  have listed (q : Project) : (deriveFiles disk q).1.dir = q.dir := by
    unfold deriveFiles
    split
    · have same := congrArg dir (withoutFiles_addPaths q .everyBuild (sourcesAround disk q.dir))
      exact same
    · rfl
  exact (listed _).trans named

/-- A project that was read lies where its file was found. -/
theorem exists_of_read {disk : Disk} {file : Text} {p : Project}
    (h : (read disk file).result = .ok p) :
    (∃ source, disk.readText file = .ok source) ∧ p.dir = Pathname.directory file := by
  unfold read at h
  cases found : disk.readText file with
  | error err =>
    rw [found] at h
    cases h
  | ok source =>
    rw [found] at h
    obtain ⟨-, rfl⟩ := readText_eq_ok_iff.1 h
    refine ⟨⟨source, rfl⟩, ?_⟩
    rw [derive_dir]
    exact congrArg Prod.snd (run_place disk (bare file) _)

end BuildMatrix.Project
