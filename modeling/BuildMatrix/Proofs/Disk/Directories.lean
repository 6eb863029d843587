import BuildMatrix.Proofs.Disk.Synonyms
import Mathlib.Data.List.DropRight

/-! The directory of a file, step by step. A name inside a directory goes along the steps of the
directory, and the directory of a file has the steps of the file's name before the last one, except
for fillers at their end. So it is the place in which the file is looked up, under a name that is
not longer. -/

set_option autoImplicit false

namespace BuildMatrix

namespace Pathname

variable {p q dir first c : Text} {rest : List Text}

/-- The components along which names inside `p` go: a slash at the end of `p` leads nowhere. -/
def steps (p : Text) : List Text :=
  components (if p.getLast? = some '/' then p.dropLast else p)

theorem components_eq_steps (p : Text) :
    components p = steps p ∨ components p = steps p ++ [[]] := by
  unfold steps
  split
  · rename_i slash
    obtain ⟨front, rfl⟩ := List.getLast?_eq_some_iff.1 slash
    rw [List.dropLast_concat]
    exact .inr (components_slash front [])
  · exact .inl rfl

/-- A relative name inside a directory goes on from the steps of the directory. -/
theorem components_join (filled : dir ≠ []) (relative : isRooted p = false) :
    components (join dir p) = steps dir ++ components p := by
  unfold join steps
  rw [if_neg (by simp [relative, filled])]
  split
  · rename_i slash
    obtain ⟨front, rfl⟩ := List.getLast?_eq_some_iff.1 slash
    rw [List.dropLast_concat, List.append_assoc]
    exact components_slash front p
  · exact components_slash dir p

theorem isRooted_join (filled : dir ≠ []) (relative : isRooted p = false) :
    isRooted (join dir p) = isRooted dir := by
  rw [join_relative relative, isRooted_append (join_ne_nil filled []), isRooted_join_nil filled]

theorem steps_ne_nil (p : Text) : steps p ≠ [] := List.splitOn_ne_nil '/' _

/-- The steps of a name that was put together. -/
theorem steps_ofReversed (plain : ∀ d ∈ first :: rest, '/' ∉ d)
    (ends : ∀ d ∈ rest.head?, isFiller d = false) :
    steps (ofReversed first rest) = first :: rest.reverse := by
  have written : components (['/'].intercalate (first :: rest.reverse)) = first :: rest.reverse :=
    Pathname.components_intercalate (List.cons_ne_nil _ _) fun d member =>
      plain d (by simpa using member)
  unfold ofReversed
  dsimp only
  split
  · rename_i empty
    -- nothing but the root, which is spelled with a slash
    rw [empty] at written
    exact written
  · rename_i filled
    refine ((components_eq_steps _).resolve_right fun slash => ?_).symm.trans written
    rw [written] at slash
    have last := congrArg List.getLast? slash
    cases rest with
    | nil =>
      have none := congrArg List.dropLast slash
      rw [List.dropLast_concat] at none
      exact steps_ne_nil _ none.symm
    | cons d more =>
      rw [List.reverse_cons, ← List.cons_append, List.getLast?_concat, List.getLast?_concat] at last
      have filler := ends d rfl
      rw [Option.some.inj last] at filler
      exact absurd filler (by decide)

/-- The steps of the directory are those before the last one, without fillers at their end. -/
theorem steps_directory (shape : components p = first :: (rest ++ [c]))
    (leads : isFiller c = false) :
    steps (directory p) = first :: rest.rdropWhile isFiller ∧
      isRooted (directory p) = isRooted p := by
  have found : ancestors p = ofReversed first (rest.reverse.dropWhile isFiller) ::
      ancestorsOf first rest.reverse := by
    rw [ancestors, shape]
    simp [ancestorsOf, leads]
  have filled := ofReversed_ne_nil first (rest.reverse.dropWhile isFiller)
  have named : directory p = ofReversed first (rest.reverse.dropWhile isFiller) := by
    rw [directory, parent?, found, List.head?_cons]
    exact if_neg filled
  rw [named]
  constructor
  · rw [steps_ofReversed, List.rdropWhile]
    · intro d member
      refine slash_not_mem (p := p) ?_
      rw [shape]
      rcases List.mem_cons.1 member with rfl | member
      · exact List.mem_cons_self
      · have inside := (List.dropWhile_sublist isFiller).subset member
        exact List.mem_cons_of_mem _ (List.mem_append_left _ (List.mem_reverse.1 inside))
    · intro d head
      have stopped := List.head?_dropWhile_not isFiller rest.reverse
      rw [Option.mem_def.1 head] at stopped
      exact stopped
  · exact (ancestor_components (found ▸ List.mem_cons_self) filled).1

/-- What stands before a name is its directory, but for fillers at the end. -/
theorem exists_steps_directory_join (filled : dir ≠ []) (name : Path.IsName c) :
    isRooted (directory (join dir c)) = isRooted dir ∧
      ∃ fillers, (∀ d ∈ fillers, isFiller d = true) ∧
        steps dir = steps (directory (join dir c)) ++ fillers := by
  have unrooted := Path.isRooted_name name
  obtain ⟨first, rest, shape⟩ := List.exists_cons_of_ne_nil (steps_ne_nil dir)
  have whole : components (join dir c) = first :: (rest ++ [c]) := by
    rw [components_join filled unrooted, shape, components_name name, List.cons_append]
  obtain ⟨steps, rooted⟩ := steps_directory whole (Address.isFiller_of_isName name)
  rw [isRooted_join filled unrooted] at rooted
  refine ⟨rooted, rest.rtakeWhile isFiller, fun d member => List.mem_rtakeWhile_imp member, ?_⟩
  rw [shape, steps, List.cons_append, List.rdropWhile_append_rtakeWhile]

/-- Fillers at the end of a name are no parts of it. -/
theorem parts_eq_of_steps {fillers : List Text} (same : steps p = steps q ++ fillers)
    (fills : ∀ d ∈ fillers, isFiller d = true) (rooted : isRooted p = isRooted q) :
    parts p = parts q := by
  have written {p first : Text} {rest : List Text} (shape : steps p = first :: rest) :
      parts p = (if first ≠ [] then [first] else if isRooted p then ["/"] else []) ++
        rest.filter fun c => !isFiller c := by
    rcases components_eq_steps p with whole | whole
    · rw [parts, whole, shape]
    · rw [parts, whole, shape, List.cons_append]
      simp [isFiller]
  obtain ⟨first, rest, shape⟩ := List.exists_cons_of_ne_nil (steps_ne_nil q)
  have none : (fillers.filter fun c => !isFiller c) = [] :=
    List.filter_eq_nil_iff.2 fun d member => by simp [fills d member]
  rw [shape, List.cons_append] at same
  rw [written same, written shape, rooted, List.filter_append, none, List.append_nil]

end Pathname

namespace Disk

variable {d : Disk} {a : Address} {dir c p : Text}

theorem destination_eq_steps (d : Disk) (p : Text) :
    d.destination p = (d.startOf p).along (Pathname.steps p) := by
  rw [destination]
  rcases Pathname.components_eq_steps p with same | same
  · rw [same]
  · rw [same, Address.along_append]
    rfl

theorem destination_join_name (name : Path.IsName c) (d : Disk) (dir : Text) :
    d.destination (Pathname.join dir c) = d.destination dir ++ [c] := by
  rw [destination_join_relative (Path.isRooted_name name), Pathname.components_name name,
    Address.along_cons, Address.follow_name name]
  rfl

/-- The directory of what is named in a directory is that one. -/
theorem destination_directory_join (filled : dir ≠ []) (name : Path.IsName c) (d : Disk) :
    d.destination (Pathname.directory (Pathname.join dir c)) = d.destination dir := by
  obtain ⟨rooted, fillers, fills, steps⟩ := Pathname.exists_steps_directory_join filled name
  rw [destination_eq_steps, destination_eq_steps d dir, startOf, startOf, rooted, steps,
    Address.along_append, Address.along_fillers fills]

/-- A directory that can be opened is led to by its name. -/
theorem Rests.findAny (rests : d.Rests p) (noNul : '\x00' ∉ p) (filled : p ≠ []) :
    d.findAny p = .ok (d.destination p, .directory) :=
  findAny_eq_ok_iff.2 ⟨⟨noNul, filled⟩, rests.passable, rfl, rests.directory⟩

/-- The way to a name in a directory. -/
theorem Rests.passable_join_name (rests : d.Rests dir) (name : Path.IsName c)
    (short : Text.byteCount c ≤ longestName) :
    d.Passable (d.startOf (Pathname.join dir c)) (Pathname.components (Pathname.join dir c)) := by
  rw [passable_join_iff rests (Path.isRooted_name name), Pathname.components_name name]
  exact ⟨rests.directory, ⟨fun up => absurd up name.2.2.1, short⟩, trivial⟩

/-- A file by a name in a directory: its own directory is the same place, and can be opened. -/
theorem directory_of_file? (name : Path.IsName c)
    (file : d.file? (Pathname.join dir c) = some a) :
    a = d.destination dir ++ [c] ∧
      d.Rests (Pathname.directory (Pathname.join dir c)) ∧
      '\x00' ∉ Pathname.directory (Pathname.join dir c) := by
  obtain ⟨content, found⟩ := file?_eq_some.1 file
  obtain ⟨reaches, led, t, node⟩ := findFile_eq_ok_iff.1 found
  refine ⟨led ▸ destination_join_name name d dir,
    reaches.rests_directory (by rw [led, node]; simp), fun nul => ?_⟩
  have elsewhere := (Pathname.mem_directory nul).resolve_left (by decide)
  exact reaches.pathname.noNul (elsewhere.resolve_left (by decide))

end Disk

end BuildMatrix
