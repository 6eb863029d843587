import BuildMatrix.Proofs.Project.Deriving
import BuildMatrix.Proofs.Project.Interleaving
import BuildMatrix.Proofs.Project.Warnings

/-! The version gate. Comments before the first header can ask for a version. A text is refused
exactly if one of them asks for a version above that of the tool, and the first such version is the
reason. Otherwise the last version counts, and every word that is no version gets a warning. Nothing
else in the text, in included files or on the disk has to do with it. -/

set_option autoImplicit false

namespace BuildMatrix

/-! ### The order of versions -/

/-- The first part in which versions differ decides. -/
def Version.Below (a b : Version) : Prop :=
  a.major < b.major ∨ a.major = b.major ∧
    (a.minor < b.minor ∨ a.minor = b.minor ∧ a.patch < b.patch)

instance (a b : Version) : Decidable (a.Below b) := inferInstanceAs (Decidable (_ ∨ _))

theorem Version.newerThan_iff {a b : Version} : b.newerThan a = true ↔ a.Below b := by
  have minor := a.minor.toNat_lt
  have patch := a.patch.toNat_lt
  have minor' := b.minor.toNat_lt
  have patch' := b.patch.toNat_lt
  rw [newerThan, decide_eq_true_iff]
  simp only [key, Below, UInt16.lt_iff_toNat_lt, ← UInt16.toNat_inj]
  omega

namespace Project

open Text

variable {disk : Disk} {m : Project} {file source l word : Text} {s : Section}

/-! ### Comments that ask for a version -/

/-- A comment of the form `# Requires TOOL version WORD`, whatever comes after that. -/
def IsRequest (l word : Text) : Prop :=
  ∃ comment requires tool version rest, trim l = '#' :: comment ∧
    words comment = requires :: tool :: version :: word :: rest ∧
      sameLetters requires "requires" = true ∧ sameLetters version "version" = true

theorem versionWord?_eq_some_iff : Line.versionWord? l = some word ↔ IsRequest l word := by
  constructor
  · intro found
    unfold Line.versionWord? at found
    split at found
    · rename_i comment content
      split at found
      · rename_i requires tool version word' rest cut
        obtain ⟨⟨first, third⟩, same⟩ := Option.ite_none_right_eq_some.1 found
        cases same
        exact ⟨comment, requires, tool, version, rest, content, cut, first, third⟩
      · cases found
    · cases found
  · rintro ⟨comment, requires, tool, version, rest, content, cut, first, third⟩
    simp only [Line.versionWord?, content, cut, first, third, and_self, if_true]

/-- The lines before the first header, with their numbers. -/
def openingLines (source : Text) : List (Nat × Text) :=
  (Text.numbered (Text.lines source)).takeWhile fun x => !isHeading x.2

/-- The words for versions, with the numbers of their lines. -/
def demands (source : Text) : List (Nat × Text) :=
  (openingLines source).filterMap fun x => (Line.versionWord? x.2).map (x.1, ·)

/-- The versions that are asked for. -/
def demanded (source : Text) : List Version :=
  (demands source).filterMap fun x => Version.ofText? x.2

/-- The words for versions that are none. -/
def malformed (source : Text) : List (Nat × Text) :=
  (demands source).filter fun x => Version.ofText? x.2 = none

def Warning.badVersion? : Warning → Option Text
  | .invalidVersion word => some word
  | _ => none

/-- The words that a reading takes for no versions, with their places. -/
def Reading.badVersions (r : Reading) : List (Position × Text) :=
  r.warnings.filterMap fun w => w.problem.badVersion?.map (w.position, ·)

/-! ### Items of the opening lines -/

/-- What a word for a version means. -/
def Item.ofDemand (word : Text) : Item :=
  match Version.ofText? word with
  | some v => .requires v
  | none => .badVersion word

theorem versionWord?_trim (l : Text) : Line.versionWord? (trim l) = Line.versionWord? l := by
  rw [Line.versionWord?, Line.versionWord?, (trimmed_trim l).trim_eq]

theorem versionWord?_of_head? (other : (trim l).head? ≠ some '#') :
    Line.versionWord? l = none := by
  unfold Line.versionWord?
  split
  · rename_i shape
    rw [shape] at other
    exact absurd rfl other
  · rfl

/-- A line before the first header asks for a version, or it is stray or nothing. -/
theorem ofLine_preamble {β : Type} {f : Item → Option β} (stray : f .stray = none)
    (plain : isHeading l = false) :
    (Item.ofLine .preamble l).1 = .preamble ∧
      (Item.ofLine .preamble l).2.bind f =
        (Line.versionWord? l).bind fun word => f (.ofDemand word) := by
  refine ⟨(Item.ofLine_of_plain plain .preamble).1, ?_⟩
  rw [isHeading] at plain
  rw [Item.ofLine_eq, plain, if_neg Bool.false_ne_true]
  split
  · rename_i empty
    rw [versionWord?_of_head? (by simp [empty])]
    rfl
  split
  · simp only [Item.ofComment, versionWord?_trim]
    cases Line.versionWord? l with
    | none => rfl
    | some word =>
      rw [Option.bind_some, Item.ofDemand]
      cases found : Version.ofText? word <;> simp [found]
  · rename_i other
    rw [versionWord?_of_head? other]
    exact stray

/-- With a header, and behind one, there is no way back. -/
theorem ofLine_ne_preamble (behind : isHeading l = true ∨ s ≠ .preamble) :
    (Item.ofLine s l).1 ≠ .preamble ∧ ∀ i ∈ (Item.ofLine s l).2, i.origin ≠ .preamble := by
  cases headed : isHeading l with
  | false =>
    have other : s ≠ .preamble := behind.resolve_left (by simp [headed])
    obtain ⟨stays, here⟩ := Item.ofLine_of_plain headed s
    exact ⟨stays.symm ▸ other, fun i member => here i member ▸ other⟩
  | true =>
    rw [Item.ofLine_of_isHeading headed]
    cases named : Section.ofHeader? (trimEnd l) with
    | some next =>
      refine ⟨?_, fun _ none => nomatch none⟩
      rintro rfl
      exact Section.ofHeader?_ne_preamble _ named
    | none =>
      refine ⟨nofun, ?_⟩
      rintro i ⟨⟩
      exact nofun

theorem ofLines_ne_preamble (other : s ≠ .preamble) (ls : List (Nat × Text)) :
    ∀ x ∈ Item.ofLines s ls, x.2.origin ≠ .preamble := by
  induction ls generalizing s with
  | nil => exact List.forall_mem_nil _
  | cons l rest ih =>
    obtain ⟨moved, here⟩ := ofLine_ne_preamble (l := l.2) (.inr other)
    rw [Item.ofLines_cons]
    exact List.forall_mem_append.2 ⟨by simpa using here, ih moved⟩

/-- Of what counts before the first header alone, the demands are all there is. -/
theorem filterMap_ofText_preamble {β : Type} {f : Nat × Item → Option β}
    (only : ∀ x, x.2.origin ≠ .preamble → f x = none) (stray : ∀ n, f (n, .stray) = none)
    (source : Text) :
    (Item.ofText source).filterMap f =
      (demands source).filterMap fun x => f (x.1, .ofDemand x.2) := by
  rw [Item.ofText, demands, openingLines]
  -- up to the first header the section is the same, and behind it nothing counts
  induction Text.numbered (Text.lines source) with
  | nil => rfl
  | cons l rest ih =>
    obtain ⟨n, l⟩ := l
    cases headed : isHeading l with
    | true =>
      obtain ⟨moved, here⟩ := ofLine_ne_preamble (s := .preamble) (.inl headed)
      have behind : ∀ x ∈ Item.ofLines .preamble ((n, l) :: rest), x.2.origin ≠ .preamble := by
        rw [Item.ofLines_cons]
        exact List.forall_mem_append.2 ⟨by simpa using here, ofLines_ne_preamble moved rest⟩
      have nothing : (Item.ofLines .preamble ((n, l) :: rest)).filterMap f = [] :=
        List.filterMap_eq_nil_iff.2 fun x member => only x (behind x member)
      rw [nothing, List.takeWhile_cons_of_neg (by simp [headed])]
      rfl
    | false =>
      obtain ⟨stays, here⟩ := ofLine_preamble (f := fun i => f (n, i)) (stray n) headed
      have first : ((Item.ofLine .preamble l).2.toList.map (n, ·)).filterMap f =
          ((Line.versionWord? l).bind fun word => f (n, .ofDemand word)).toList := by
        rw [← here]
        cases (Item.ofLine .preamble l).2 with
        | none => rfl
        | some i => cases found : f (n, i) <;> simp [found]
      rw [Item.ofLines_cons, stays, List.filterMap_append, first, ih,
        List.takeWhile_cons_of_pos (by simp [headed])]
      cases asked : Line.versionWord? l with
      | none => simp [asked]
      | some word => cases found : f (n, .ofDemand word) <;> simp [asked, found]

/-! ### What a reading makes of them -/

/-- The version that an item asks for. -/
def Item.required? : Item → Option Version
  | .requires v => some v
  | _ => none

theorem step_requiredVersion (disk : Disk) (p : Project) (i : Item) :
    (step disk p i).requiredVersion = i.required?.or p.requiredVersion := by
  cases i with
  | option line =>
    rw [step_option]
    repeat' split
    all_goals rfl
  | commentedOption line =>
    rw [step_commentedOption]
    split <;> rfl
  | entry scope e =>
    have same := congrArg requiredVersion (withoutFiles_step_entry disk p scope e)
    exact same
  | pair kind line =>
    rw [step_pair]
    split <;> rfl
  | _ => rfl

/-- The last version counts. -/
theorem run_requiredVersion (disk : Disk) (p : Project) (items : List Item) :
    (run disk p items).requiredVersion =
      (items.filterMap Item.required?).getLast?.or p.requiredVersion := by
  induction items using List.reverseRecOn with
  | nil => rfl
  | append_singleton items i ih =>
    rw [run_concat, step_requiredVersion, ih, List.filterMap_append, List.getLast?_append]
    cases here : i.required? <;> simp [here]

theorem tooNew?_eq (i : Item) :
    i.tooNew? = i.required?.bind (Option.guard (toolVersion.Below ·)) := by
  cases i with
  | requires v =>
    simp only [Item.tooNew?, Item.required?, Option.bind_some, Option.guard, decide_eq_true_iff,
      Version.newerThan_iff]
  | _ => rfl

theorem findSome?_tooNew? (items : List Item) :
    items.findSome? Item.tooNew? =
      (items.filterMap Item.required?).find? (toolVersion.Below ·) := by
  have guarded : Item.tooNew? =
      fun i => i.required?.bind (Option.guard (toolVersion.Below ·)) := funext tooNew?_eq
  rw [← List.head?_filterMap, guarded, ← List.filterMap_filterMap, List.filterMap_eq_filter,
    List.head?_filter]

theorem filterMap_required? (source : Text) :
    (Item.inText source).filterMap Item.required? = demanded source := by
  rw [← Item.ofText_map_snd, List.filterMap_map]
  rw [filterMap_ofText_preamble, demanded]
  · refine List.filterMap_congr fun x _ => ?_
    rw [Function.comp_apply, Item.ofDemand]
    cases found : Version.ofText? x.2 <;> rfl
  · rintro ⟨n, i⟩ other
    cases i with
    | requires v => exact absurd rfl other
    | _ => rfl
  · exact fun _ => rfl

/-- There is one warning for every word that is no version. -/
theorem badVersions_readText (accepted : (readText disk file source).result = .ok m) :
    (readText disk file source).badVersions =
      (malformed source).map fun x => (.ofLine file x.1, x.2) := by
  have own : ∀ w : Located Warning, w.problem.isOfEntry = true →
      w.problem.badVersion?.map (w.position, ·) = none := by
    rintro ⟨_, w⟩ here
    cases w with
    | invalidVersion word => cases here
    | _ => rfl
  rw [Reading.badVersions, filterMap_warnings_readText own accepted, filterMap_ofText_preamble,
    malformed, ← List.filterMap_eq_filter, List.map_filterMap]
  · refine List.filterMap_congr fun x _ => ?_
    rw [Item.ofDemand]
    cases found : Version.ofText? x.2 with
    | some v => simp [Option.guard, found, Item.warning?, Item.problem?]
    | none => simp [Option.guard, found, Item.warning?, Item.problem?, Warning.badVersion?]
  · rintro ⟨n, i⟩ other
    cases i with
    | badVersion word => exact absurd rfl other
    | option line =>
      simp only [Item.warning?, Item.problem?, optionProblem?]
      repeat' split
      all_goals rfl
    | pair kind line =>
      simp only [Item.warning?, Item.problem?]
      split <;> rfl
    | _ => rfl
  · exact fun _ => rfl

theorem readText_requiredVersion (accepted : (readText disk file source).result = .ok m) :
    m.requiredVersion = (demanded source).getLast? := by
  have same := congrArg requiredVersion (readText_frame accepted)
  have last := run_requiredVersion disk (bare file) (Item.inText source)
  rw [filterMap_required?] at last
  exact same.trans (last.trans Option.or_none)

/-- Reading fails exactly if a comment before the first header asks for a version above that of the
tool, and names the first such version. Otherwise the last version is required, and there is one
warning for every word that is no version. -/
theorem version_gate (disk : Disk) (file source : Text) :
    (∀ l word, Line.versionWord? l = some word ↔ IsRequest l word) ∧
    ((∃ e, (readText disk file source).result = .error e) ↔
      ∃ v ∈ demanded source, toolVersion.Below v) ∧
    match (demanded source).find? (toolVersion.Below ·) with
    | some v => (readText disk file source).result = .error (.versionTooNew file v toolVersion)
    | none => ∃ m, (readText disk file source).result = .ok m ∧
        m.requiredVersion = (demanded source).getLast? ∧
        (readText disk file source).badVersions =
          (malformed source).map fun x => (.ofLine file x.1, x.2) := by
  have result := readText_result disk file source
  rw [findSome?_tooNew?, filterMap_required?] at result
  refine ⟨fun _ _ => versionWord?_eq_some_iff, ?_⟩
  cases found : (demanded source).find? (toolVersion.Below ·) with
  | some v =>
    rw [found] at result
    have asked := List.mem_of_find?_eq_some found
    have above := List.find?_some found
    exact ⟨iff_of_true ⟨_, result⟩ ⟨v, asked, of_decide_eq_true above⟩, result⟩
  | none =>
    rw [found] at result
    refine ⟨iff_of_false ?_ ?_, _, result, readText_requiredVersion result,
      badVersions_readText result⟩
    · rintro ⟨e, failed⟩
      rw [result] at failed
      cases failed
    · rintro ⟨v, asked, above⟩
      have within := List.find?_eq_none.1 found v asked
      exact within (decide_eq_true above)

/-- Behind a header a comment asks for nothing, and the last version before it counts even if a
word that is none follows. -/
example :
    demanded "# Requires it version 0.1\n# requires it VERSION x\nFiles:\n# Requires it version 9" =
      [⟨0, 1, 0⟩] := by
  decide +kernel

end Project

end BuildMatrix
