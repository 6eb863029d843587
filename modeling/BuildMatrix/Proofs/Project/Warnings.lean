import BuildMatrix.Proofs.Project.Reading

/-! What a reading says. An item says the same whatever was read before it, so the log of a reading
is what its items say, one after the other. With an item itself at most one thing is wrong; every
other warning is about what an entry stands for, here or in an included file. -/

set_option autoImplicit false

namespace BuildMatrix.Project

variable {disk : Disk} {m : Project} {file source : Text} {n : Nat} {i : Item}

/-- What an item at line `n` of the project file `file` says. -/
def Item.events (disk : Disk) (file : Text) (n : Nat) (i : Item) : List Event :=
  (readItem disk (bare file) n i).2

def optionProblem? (line : Text) : Option Warning :=
  match Line.option? line with
  | none => some (.missingSeparator (Text.trim line))
  | some parts =>
    if (OptionKey.ofName? parts.name).isSome then none else some (.unknownOption parts.name)

/-- What is wrong with an item itself. -/
def Item.problem? : Item → Option Warning
  | .badVersion word => some (.invalidVersion word)
  | .unknownSection name => some (.unknownSection name)
  | .stray => some .noSection
  | .option line => optionProblem? line
  | .pair _ line => if Line.pair? line = none then some (.missingSeparator line) else none
  | .requires _ | .commentedOption _ | .entry _ _ => none

/-- The problem of an item, with its place. -/
def Item.warning? (file : Text) (x : Nat × Item) : Option (Located Warning) :=
  x.2.problem?.map fun w => ⟨.ofLine file x.1, w⟩

/-- Whether a warning is about what an entry stands for. -/
def Warning.isOfEntry : Warning → Bool
  | .unreadableInclude _ _ | .includeCycle _ | .invalidPattern _ _ _ | .unlistedDirectory _ _ =>
    true
  | .unknownOption _ | .missingSeparator _ | .unknownSection _ | .noSection
  | .invalidVersion _ => false

/-! ### One item -/

theorem readOption_snd (p : Project) (position : Position) (line : Text) :
    (readOption p position line).2 =
      ((optionProblem? line).map fun w => Event.warning ⟨position, w⟩).toList := by
  unfold readOption optionProblem?
  cases Line.option? line with
  | none => rfl
  | some parts => cases found : OptionKey.ofName? parts.name <;> simp [found, warn]

/-- An option that counts again is known, so nothing is wrong with it. -/
theorem readCommentedOption_snd (p : Project) (position : Position) (line : Text) :
    (readCommentedOption p position line).2 =
      match Line.option? line with
      | none => []
      | some parts =>
        if (OptionKey.ofName? parts.name).isSome then [.reviving parts.name] else [] := by
  have option := readOption_snd p position line
  unfold readCommentedOption
  unfold optionProblem? at option
  cases parted : Line.option? line with
  | none => rfl
  | some parts =>
    rw [parted] at option
    dsimp only at option ⊢
    split
    · rename_i known
      rw [if_pos known] at option
      exact congrArg _ option
    · rfl

theorem readItem_snd (disk : Disk) (p : Project) (n : Nat) (i : Item) :
    (readItem disk p n i).2 = i.events disk p.file n := by
  cases i with
  | option line => simp only [Item.events, readItem, readOption_snd]; rfl
  | commentedOption line => simp only [Item.events, readItem, readCommentedOption_snd]
  | pair kind line =>
    simp only [Item.events, readItem, readPair]
    cases Line.pair? line <;> rfl
  | _ => rfl

theorem expandPattern_eq_error {dir pattern : Text} {w : Warning}
    (failed : expandPattern disk dir pattern = .error w) :
    (∃ e, w = .invalidPattern pattern (Path.fileName pattern) e) ∨
      ∃ e, w = .unlistedDirectory pattern e := by
  unfold expandPattern at failed
  dsimp only at failed
  split at failed
  · cases failed
    exact .inl ⟨_, rfl⟩
  · split at failed <;> cases failed
    exact .inr ⟨_, rfl⟩

theorem isOfEntry_of_expandPattern {dir pattern : Text} {w : Warning}
    (failed : expandPattern disk dir pattern = .error w) : w.isOfEntry = true := by
  obtain ⟨e, rfl⟩ | ⟨e, rfl⟩ := expandPattern_eq_error failed <;> rfl

/-- How warnings come from an entry at a place, while some files are being read: there, or in a file
that it includes, which is then being read as well. -/
inductive Arises (disk : Disk) : List Disk.Identity → Position → Located Warning → Prop where
  | own {reading : List Disk.Identity} {position : Position} {w : Warning} :
      w.isOfEntry = true → Arises disk reading position ⟨position, w⟩
  | within {reading : List Disk.Identity} {position : Position} {file : Text} {n : Nat}
      {w : Located Warning} : disk.identity file ∉ reading →
        Arises disk (disk.identity file :: reading) (.ofLine file n) w →
          Arises disk reading position w

theorem Arises.isOfEntry {reading : List Disk.Identity} {position : Position}
    {w : Located Warning} (h : Arises disk reading position w) : w.problem.isOfEntry = true := by
  induction h with
  | own entry => exact entry
  | within _ _ ih => exact ih

theorem arises_of_contribution (disk : Disk) (dir : Text) (reading : List Disk.Identity)
    (base : Text) (position : Position) (e : Entry) :
    ∀ w ∈ (contribution disk dir reading base position e).log.filterMap Event.warning?,
      Arises disk reading position w := by
  -- an included file says what its entries say
  induction reading, base, position, e using entry_induction disk dir with
  | nothing | path => exact List.forall_mem_nil _
  | pattern reading base position p =>
    rw [contribution_pattern]
    cases failed : expandPattern disk (Pathname.join dir base) p with
    | ok files => exact List.forall_mem_nil _
    | error w => exact List.forall_mem_singleton.2 (.own (isOfEntry_of_expandPattern failed))
  | «include» reading base position p ih =>
    rw [contribution_include]
    split
    · exact List.forall_mem_singleton.2 (.own rfl)
    rename_i fresh
    cases readable : disk.findFile (Pathname.join dir (Path.join base p)) with
    | error e => exact List.forall_mem_singleton.2 (.own rfl)
    | ok found =>
      simp only [fileContribution, Contribution.join, List.flatMap_cons, List.filterMap_append,
        List.flatMap_map, List.filterMap_flatMap]
      refine List.forall_mem_append.2 ⟨List.forall_mem_nil _, fun w member => ?_⟩
      obtain ⟨x, -, inside⟩ := List.mem_flatMap.1 member
      exact .within fresh (ih found.1 found.2 fresh readable x.1 x.2 w inside)

/-- All that an item says, unless it is an entry, is what is wrong with it. -/
theorem filterMap_events_of_ne_entry (disk : Disk) (file : Text) (n : Nat) {i : Item}
    (single : ∀ scope e, i ≠ .entry scope e) :
    (i.events disk file n).filterMap Event.warning? = (Item.warning? file (n, i)).toList := by
  cases i with
  | entry scope e => exact absurd rfl (single scope e)
  | option line =>
    simp only [Item.events, readItem, readOption_snd, Item.warning?, Item.problem?]
    cases optionProblem? line <;> rfl
  | commentedOption line =>
    simp only [Item.events, readItem, readCommentedOption_snd, Item.warning?, Item.problem?]
    repeat' split
    all_goals rfl
  | pair kind line =>
    simp only [Item.events, readItem, readPair, Item.warning?, Item.problem?]
    cases Line.pair? line <;> rfl
  | _ => rfl

/-- What is wrong with an item itself is all that it says apart from its entry. -/
theorem filterMap_warning?_events {β : Type} {f : Located Warning → Option β}
    (own : ∀ w, w.problem.isOfEntry = true → f w = none) (disk : Disk) (file : Text) (n : Nat)
    (i : Item) :
    ((i.events disk file n).filterMap Event.warning?).filterMap f =
      ((Item.warning? file (n, i)).bind f).toList := by
  by_cases entry : ∃ scope e, i = .entry scope e
  · obtain ⟨scope, e, rfl⟩ := entry
    exact List.filterMap_eq_nil_iff.2 fun w member =>
      own w (arises_of_contribution _ _ _ _ _ _ w member).isOfEntry
  · rw [filterMap_events_of_ne_entry disk file n fun scope e same => entry ⟨scope, e, same⟩]
    cases Item.warning? file (n, i) with
    | none => rfl
    | some w => cases here : f w <;> simp [here]

/-! ### Whole readings -/

theorem readItems_log (disk : Disk) (p : Project) (log : List Event) {items : List (Nat × Item)}
    (accepted : (items.map Prod.snd).findSome? Item.tooNew? = none) :
    (readItems disk p log items).log =
      log ++ items.flatMap fun x => x.2.events disk p.file x.1 := by
  -- the project and the log are whatever the items before made of them
  induction items generalizing p log with
  | nil => simp [readItems]
  | cons item rest ih =>
    obtain ⟨n, i⟩ := item
    rw [List.map_cons, List.findSome?_cons] at accepted
    cases newer : i.tooNew? with
    | some v => simp [newer] at accepted
    | none =>
      rw [newer] at accepted
      have moved : (readItem disk p n i).1.file = p.file := by rw [readItem_fst, step_file]
      rw [readItems, newer]
      dsimp only
      rw [ih _ _ accepted, moved, readItem_snd, List.flatMap_cons, List.append_assoc]

/-- What is derived is no reason for a warning. -/
theorem warnings_derive (disk : Disk) (p : Project) :
    (derive disk p).2.filterMap Event.warning? = [] := by
  have named : (deriveName disk p).2.filterMap Event.warning? = [] := by
    unfold deriveName
    repeat' split
    all_goals rfl
  have listed (q : Project) : (deriveFiles disk q).2.filterMap Event.warning? = [] := by
    unfold deriveFiles
    split <;> rfl
  have parts : (derive disk p).2 =
      (deriveName disk p).2 ++ (deriveFiles disk (deriveName disk p).1).2 := rfl
  rw [parts, List.filterMap_append, named, listed]
  rfl

theorem readText_warnings (accepted : (readText disk file source).result = .ok m) :
    (readText disk file source).warnings =
      (Item.ofText source).flatMap fun x =>
        (x.2.events disk file x.1).filterMap Event.warning? := by
  obtain ⟨known, -⟩ := readText_eq_ok_iff.1 accepted
  rw [← Item.ofText_map_snd] at known
  have result := readItems_result disk (bare file) [] (Item.ofText source)
  rw [known] at result
  rw [Reading.warnings, readText]
  simp only [result, List.filterMap_append, readItems_log disk (bare file) [] known,
    warnings_derive, List.nil_append, List.append_nil, List.filterMap_flatMap]
  rfl

/-- The warnings that are not about entries are those about the items themselves. -/
theorem filterMap_warnings_readText {β : Type} {f : Located Warning → Option β}
    (own : ∀ w, w.problem.isOfEntry = true → f w = none)
    (accepted : (readText disk file source).result = .ok m) :
    (readText disk file source).warnings.filterMap f =
      (Item.ofText source).filterMap fun x => (Item.warning? file x).bind f := by
  rw [readText_warnings accepted, List.filterMap_flatMap]
  simp only [filterMap_warning?_events own]
  exact (List.filterMap_eq_flatMap_toList _ _).symm

end BuildMatrix.Project
