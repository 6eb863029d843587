import BuildMatrix.Proofs.Path.Rebasing
import Mathlib.Data.List.TakeWhile

/-! Names of files as texts: their components, the names that are put together inside directories,
and the directories that names lie in. Nothing here looks at a disk. -/

set_option autoImplicit false

namespace BuildMatrix.Pathname

open BuildMatrix.Path (Route)

variable {p q dir first c : Text} {rest : List Text} {r : Route}

/-! ### Components -/

theorem slash_not_mem {c : Text} (member : c ∈ components p) : '/' ∉ c := by
  intro inside
  rw [components, List.splitOn_eq_splitOnP] at member
  simpa using Text.eq_false_of_mem_splitOnP member '/' inside

theorem isRooted_iff (shape : components p = first :: rest) :
    isRooted p = true ↔ first = [] ∧ rest ≠ [] := by
  cases p with
  | nil =>
    cases shape
    simp [isRooted]
  | cons c t =>
    have cut := List.splitOn_cons_eq_if_modifyHead (a := '/') c t
    obtain ⟨x, r, tail⟩ := List.exists_cons_of_ne_nil (List.splitOn_ne_nil '/' t)
    have whole : (c :: t).splitOn '/' = first :: rest := shape
    rw [whole, tail] at cut
    by_cases slash : c = '/'
    · rw [slash, if_pos (beq_self_eq_true '/')] at cut
      obtain ⟨rfl, rfl⟩ := List.cons.inj cut
      simp [isRooted, slash]
    · rw [if_neg (by simpa using slash), List.modifyHead_cons] at cut
      obtain ⟨rfl, rfl⟩ := List.cons.inj cut
      simp [isRooted, slash]

theorem components_slash (p q : Text) :
    components (p ++ '/' :: q) = components p ++ components q :=
  List.splitOnP_append_cons p q (beq_self_eq_true '/')

theorem components_name {c : Text} (name : Path.IsName c) : components c = [c] :=
  List.splitOnP_eq_singleton fun x member => by
    have other : x ≠ '/' := fun same => Path.not_mem_of_isName name (same ▸ member)
    simpa using other

/-- A relative name inside a directory goes along the components of both. -/
theorem components_join_relative (dir : Text) (relative : isRooted p = false) :
    ∃ front blank, components dir = front ++ blank ∧ (∀ c ∈ blank, isFiller c = true) ∧
      components (join dir p) = front ++ components p ∧ isRooted (join dir p) = isRooted dir := by
  unfold join
  by_cases empty : dir = []
  · rw [if_pos (.inr empty), empty]
    exact ⟨[], [[]], rfl, by decide, rfl, relative⟩
  rw [if_neg (by simp [relative, empty])]
  by_cases slash : dir.getLast? = some '/'
  · obtain ⟨front, rfl⟩ := List.getLast?_eq_some_iff.1 slash
    rw [if_pos slash, List.append_assoc, List.singleton_append]
    refine ⟨components front, [[]], components_slash front [], by decide, components_slash front p,
      ?_⟩
    cases front <;> rfl
  · rw [if_neg slash]
    refine ⟨components dir, [], by simp, by simp, components_slash dir p, ?_⟩
    obtain ⟨c, t, rfl⟩ := List.exists_cons_of_ne_nil empty
    rfl

theorem isRooted_eq_false (h : Path.isRooted p = false) : isRooted p = false := by
  cases p with
  | nil => rfl
  | cons c t =>
    have other : c ≠ '/' := fun slash => by simp [Path.isRooted, Path.isSeparator, slash] at h
    simpa [isRooted] using other

/-- A name that is followed as a route is: its components are those of the route, with fillers
around them. -/
structure Spells (t : Text) (r : Route) : Prop where
  components : ∃ pad rest, components t = pad ++ r.components ++ rest ∧
    (∀ c ∈ pad, isFiller c = true) ∧ ∀ c ∈ rest, isFiller c = true
  rooted : isRooted t = r.rooted

theorem spells_nil : Spells [] ⟨false, 0, []⟩ :=
  ⟨⟨[], [[]], rfl, by decide, by decide⟩, rfl⟩

/-- A written route is followed as the route. -/
theorem spells_text (h : r.Normal) : Spells r.text r := by
  by_cases none : r.components = []
  · unfold Route.text
    dsimp only
    rw [none]
    cases rooted : r.rooted with
    | true => exact ⟨⟨[[]], [[]], by rw [none]; rfl, by decide, by decide⟩, rooted.symm⟩
    | false => exact ⟨⟨[], ["."], by rw [none]; rfl, by decide, by decide⟩, rooted.symm⟩
  have body := components_body h none
  rw [Path.text_of_components none]
  cases rooted : r.rooted with
  | true =>
    refine ⟨⟨[[]], [], ?_, by decide, by simp⟩, rooted.symm⟩
    have cut := components_slash [] (['/'].intercalate r.components)
    rw [body] at cut
    rw [List.append_nil]
    exact cut
  | false =>
    refine ⟨⟨[], [], by simp [body], by simp, by simp⟩, ?_⟩
    obtain ⟨c, more, shape⟩ := List.exists_cons_of_ne_nil none
    have member : c ∈ r.components := shape ▸ List.mem_cons_self
    rw [rooted, if_neg Bool.false_ne_true, List.nil_append, shape]
    obtain ⟨filled, -, plain⟩ := h.component member
    exact isRooted_eq_false (Path.isRooted_intercalate filled plain more)

theorem spells_place (h : r.Normal) : Spells r.place r := by
  unfold Route.place
  split
  · rename_i start
    rw [Path.Route.eq_start start.1 start.2]
    exact spells_nil
  · exact spells_text h

/-! ### Joined names -/

theorem join_nil (filled : dir ≠ []) :
    join dir [] = if dir.getLast? = some '/' then dir else dir ++ ['/'] := by
  have unrooted : isRooted [] = false := rfl
  rw [join, if_neg (by simp [unrooted, filled])]
  simp

/-- A relative name stands behind its directory, after a slash. -/
theorem join_relative (relative : isRooted p = false) (dir : Text) :
    join dir p = join dir [] ++ p := by
  by_cases empty : dir = []
  · rw [empty]
    exact if_pos (.inr rfl)
  · rw [join_nil empty, join, if_neg (by simp [relative, empty])]
    split <;> simp

theorem join_rooted (rooted : isRooted p = true) (dir : Text) : join dir p = p :=
  if_pos (.inl rooted)

theorem isRooted_append (filled : p ≠ []) (q : Text) : isRooted (p ++ q) = isRooted p := by
  obtain ⟨c, t, rfl⟩ := List.exists_cons_of_ne_nil filled
  rfl

theorem isRooted_join_nil (filled : dir ≠ []) : isRooted (join dir []) = isRooted dir := by
  rw [join_nil filled]
  split
  · rfl
  · exact isRooted_append filled _

/-- The end of a directory is the end of the last part of its name. -/
theorem append_join_nil (filled : p ≠ []) (front : Text) :
    join (front ++ p) [] = front ++ join p [] := by
  rw [join_nil filled, join_nil (by simp [filled]), Path.getLast?_append_of_ne_nil filled]
  split <;> simp

theorem join_join_nil (dir : Text) : join (join dir []) [] = join dir [] := by
  by_cases empty : dir = []
  · rw [empty]
    rfl
  rw [join_nil empty]
  split
  · rename_i slash
    rw [join_nil empty, if_pos slash]
  · rw [append_join_nil (List.cons_ne_nil _ _)]
    rfl

theorem join_ne_nil (filled : dir ≠ []) (p : Text) : join dir p ≠ [] := by
  by_cases empty : p = []
  · rw [empty, join_nil filled]
    split <;> simp [filled]
  · unfold join
    repeat' split
    all_goals simp [empty]

/-- A name inside a directory that lies inside another one. -/
theorem join_join (relative : isRooted q = false) (dir p : Text) :
    join dir (join p q) = join (join dir p) q := by
  by_cases empty : p = []
  · have here : join [] q = q := if_pos (.inr rfl)
    rw [empty, here, join_relative relative, join_relative relative (join dir []), join_join_nil]
  have whole := join_relative relative p
  have filled : join p [] ≠ [] := by
    rw [join_nil empty]
    split <;> simp [empty]
  have root : isRooted (join p q) = isRooted p := by
    rw [whole, isRooted_append filled, isRooted_join_nil empty]
  cases rooted : isRooted p with
  | true => rw [join_rooted (root.trans rooted), join_rooted rooted]
  | false =>
    rw [join_relative (root.trans rooted), whole, join_relative rooted, join_relative relative,
      append_join_nil empty, List.append_assoc]

/-! ### Lengths -/

theorem byteCount_join (relative : isRooted p = false) (dir : Text) :
    Text.byteCount (join dir p) = Text.byteCount (join dir []) + Text.byteCount p := by
  rw [join_relative relative, Path.byteCount_append]

theorem byteCount_join_nil (filled : p ≠ []) (slash : p.getLast? ≠ some '/') :
    Text.byteCount (join p []) = Text.byteCount p + 1 := by
  rw [join_nil filled, if_neg slash, Path.byteCount_append]
  rfl

/-- The bytes before what is written in a directory that is named in another one. -/
theorem byteCount_join_place (h : r.Normal) (dir : Text) :
    Text.byteCount (join (join dir r.place) []) =
      (if r.rooted then 0 else Text.byteCount (join dir [])) + r.weight := by
  have root := (spells_place h).rooted
  rcases Path.place_cases r with ⟨rooted, none, place⟩ | ⟨rooted, none, place⟩ | ⟨some, place⟩
  · rw [place, join_rooted (p := "/") rfl, Route.weight, rooted, none]
    rfl
  · rw [place, join_join_nil, Route.weight, rooted, none]
    simp
  · have filled := Path.text_ne_nil h
    rw [place] at root ⊢
    cases rooted : r.rooted with
    | true =>
      rw [join_rooted (root.trans rooted), byteCount_join_nil filled (Path.getLast?_text h some),
        Path.byteCount_text some]
      simp
    | false =>
      rw [join_relative (root.trans rooted), append_join_nil filled, Path.byteCount_append,
        byteCount_join_nil filled (Path.getLast?_text h some), Path.byteCount_text some]
      simp

/-! ### Ancestors -/

/-- Ancestors leave out components at the end, and fillers before them. -/
theorem exists_of_mem_ancestorsOf (member : q ∈ ancestorsOf first rest) :
    q = [] ∨ ∃ c more left, rest = c :: more ∧ left <:+ more ∧
      (∀ d ∈ left.head?, isFiller d = false) ∧ q = ofReversed first left := by
  induction rest with
  | nil =>
    rw [ancestorsOf] at member
    split at member
    · cases member
    · exact .inl (List.mem_singleton.1 member)
  | cons c rest ih =>
    have later (member : q ∈ ancestorsOf first rest) :
        q = [] ∨ ∃ x more left, c :: rest = x :: more ∧ left <:+ more ∧
          (∀ d ∈ left.head?, isFiller d = false) ∧ q = ofReversed first left := by
      refine (ih member).imp_right ?_
      rintro ⟨x, more, left, rfl, inside, last, rfl⟩
      exact ⟨c, _, left, rfl, inside.trans (List.suffix_cons x more), last, rfl⟩
    rw [ancestorsOf] at member
    split at member
    · exact later member
    · rcases List.mem_cons.1 member with rfl | member
      · refine .inr ⟨c, rest, _, rfl, List.dropWhile_suffix _, fun d head => ?_, rfl⟩
        have stopped := List.head?_dropWhile_not isFiller rest
        rw [Option.mem_def.1 head] at stopped
        exact stopped
      · exact later member

/-- An ancestor starts as the name does and goes along some of its components, or is the root. -/
theorem ancestor_components (member : q ∈ ancestors p) (filled : q ≠ []) :
    isRooted q = isRooted p ∧
      ((∃ c back, components p = components q ++ c :: back) ∨ q = "/") := by
  obtain ⟨first, rest, shape⟩ := List.exists_cons_of_ne_nil (List.splitOn_ne_nil '/' p)
  have whole : components p = first :: rest := shape
  rw [ancestors, whole] at member
  obtain empty | ⟨c, more, left, split, ⟨cut, inside⟩, -, rfl⟩ := exists_of_mem_ancestorsOf member
  · exact absurd empty filled
  have start : components p = (first :: left.reverse) ++ (cut.reverse ++ [c]) := by
    have turned := congrArg List.reverse split
    rw [List.reverse_reverse, ← inside] at turned
    rw [whole, turned]
    simp
  -- the ancestor is spelled by the components that are left, and splits into them again
  have written : components (['/'].intercalate (first :: left.reverse)) = first :: left.reverse :=
    List.splitOn_intercalate '/' (fun d inside => slash_not_mem (p := p) (by
      rw [start]
      exact List.mem_append_left _ inside)) (List.cons_ne_nil _ _)
  have rooted : isRooted p = true ↔ first = [] := by
    rw [isRooted_iff whole]
    refine and_iff_left fun none => ?_
    rw [none] at split
    cases split
  obtain ⟨d, back, ends⟩ : ∃ d back, cut.reverse ++ [c] = d :: back :=
    List.exists_cons_of_ne_nil (by simp)
  rw [ends] at start
  unfold ofReversed
  dsimp only
  by_cases empty : ['/'].intercalate (first :: left.reverse) = []
  · -- nothing is left but the root, which is spelled with a slash
    rw [empty] at written
    have bare : first = [] := (List.cons.inj written).1.symm
    rw [if_pos empty]
    exact ⟨(rooted.2 bare).symm, .inr rfl⟩
  · rw [if_neg empty]
    refine ⟨?_, .inl ⟨d, back, by rw [written, start]⟩⟩
    rw [Bool.eq_iff_iff, isRooted_iff written, rooted]
    refine and_iff_left_of_imp fun bare none => empty ?_
    rw [bare, none]
    rfl

theorem mem_ancestors_of_parent? (h : parent? p = some q) : q ∈ ancestors p := List.mem_of_head? h

theorem ofReversed_ne_nil (first : Text) (rest : List Text) : ofReversed first rest ≠ [] := by
  unfold ofReversed
  dsimp only
  split
  · decide
  · assumption

theorem fillers_of_ancestorsOf {rest : List Text}
    (h : (ancestorsOf [] rest).head?.filter (· ≠ []) = none) : ∀ c ∈ rest, isFiller c = true := by
  induction rest with
  | nil => simp
  | cons c rest ih =>
    rw [ancestorsOf] at h
    split at h
    · rename_i filler
      exact List.forall_mem_cons.2 ⟨filler, ih h⟩
    · simp [ofReversed_ne_nil] at h

/-- A rooted name without ancestors leads nowhere but to the root. -/
theorem fillers_of_parent? (rooted : isRooted p = true)
    (h : (parent? p).filter (· ≠ []) = none) : ∀ c ∈ components p, isFiller c = true := by
  obtain ⟨first, rest, shape⟩ := List.exists_cons_of_ne_nil (List.splitOn_ne_nil '/' p)
  have whole : components p = first :: rest := shape
  obtain rfl := ((isRooted_iff whole).1 rooted).1
  rw [parent?, ancestors, whole] at h
  have fillers := fillers_of_ancestorsOf h
  rw [whole]
  exact List.forall_mem_cons.2 ⟨rfl, fun c member => fillers c (List.mem_reverse.2 member)⟩

/-! ### The directory of a file -/

/-- A name as those of directories are written: the root, or no filler stands at its end. -/
def Trimmed (p : Text) : Prop :=
  p = "/" ∨ p ≠ [] ∧ ∀ c ∈ (components p).tail.getLast?, isFiller c = false

/-- A directory is written with components of the name that lies in it. -/
theorem exists_directory (p : Text) :
    ∃ first rest, directory p = ofReversed first rest ∧
      (∀ c ∈ first :: rest, c = "." ∨ c ∈ components p) ∧ ∀ c ∈ rest.head?, isFiller c = false := by
  have here : ∃ first rest, (".".toList : Text) = ofReversed first rest ∧
      (∀ c ∈ first :: rest, c = "." ∨ c ∈ components p) ∧ ∀ c ∈ rest.head?, isFiller c = false :=
    ⟨".", [], rfl, by simp, by simp⟩
  unfold directory
  cases parent : parent? p with
  | none => exact here
  | some dir =>
    dsimp only
    by_cases empty : dir = []
    · rw [if_pos empty]
      exact here
    rw [if_neg empty]
    have member := mem_ancestors_of_parent? parent
    obtain ⟨first, rest, shape⟩ := List.exists_cons_of_ne_nil (List.splitOn_ne_nil '/' p)
    have whole : components p = first :: rest := shape
    rw [ancestors, whole] at member
    obtain ⟨c, more, left, split, inside, last, rfl⟩ :=
      (exists_of_mem_ancestorsOf member).resolve_left empty
    refine ⟨first, left, rfl, fun d listed => .inr ?_, last⟩
    rw [whole]
    rcases List.mem_cons.1 listed with rfl | listed
    · exact List.mem_cons_self
    · have reversed : d ∈ rest.reverse := split ▸ List.mem_cons_of_mem _ (inside.subset listed)
      exact List.mem_cons_of_mem _ (List.mem_reverse.1 reversed)

theorem mem_directory {x : Char} (h : x ∈ directory p) : x = '/' ∨ x = '.' ∨ x ∈ p := by
  obtain ⟨first, rest, whole, listed, -⟩ := exists_directory p
  rw [whole] at h
  unfold ofReversed at h
  dsimp only at h
  split at h
  · exact .inl (by simpa using h)
  · refine (Path.mem_intercalate h).imp_right fun ⟨c, member, here⟩ => ?_
    rcases listed c (by simpa using member) with rfl | piece
    · exact .inl (by simpa using here)
    · exact .inr (Path.mem_of_mem_splitOnP piece here)

theorem trimmed_directory (p : Text) : Trimmed (directory p) := by
  obtain ⟨first, rest, whole, listed, last⟩ := exists_directory p
  have plain : ∀ c ∈ first :: rest.reverse, '/' ∉ c := fun c member => by
    rcases listed c (by simpa using member) with rfl | member
    · decide
    · exact slash_not_mem member
  rw [whole]
  unfold ofReversed
  dsimp only
  split
  · exact .inl rfl
  · rename_i filled
    refine .inr ⟨filled, fun c ends => last c ?_⟩
    rw [components_intercalate (List.cons_ne_nil _ _) plain, List.tail_cons,
      List.getLast?_reverse] at ends
    exact ends

/-- A name behind a slash, with the components that come before it. -/
theorem directory_slash {first : Text} {rest : List Text} (name : Path.IsName c)
    (shape : components p = first :: rest) (ends : ∀ d ∈ rest.getLast?, isFiller d = false) :
    directory (p ++ '/' :: c) = if p = [] then ['/'] else p := by
  have leads : isFiller c = false := by simpa [isFiller] using ⟨name.1, name.2.1⟩
  have kept : rest.reverse.dropWhile isFiller = rest.reverse := by
    cases reversed : rest.reverse with
    | nil => rfl
    | cons d more =>
      have last : rest.getLast? = some d := by rw [← List.head?_reverse, reversed]; rfl
      exact List.dropWhile_cons_of_neg (by simp [ends d last])
  have written : ['/'].intercalate (first :: rest) = p := by
    rw [← shape]
    exact List.intercalate_splitOn '/'
  have found : parent? (p ++ '/' :: c) = some (if p = [] then ['/'] else p) := by
    rw [parent?, ancestors, components_slash, shape, components_name name, List.cons_append]
    simp [ancestorsOf, leads, kept, ofReversed, written]
  rw [directory, found]
  by_cases empty : p = [] <;> simp [empty]

theorem Trimmed.getLast? (h : Trimmed p) : p = "/" ∨ p ≠ [] ∧ p.getLast? ≠ some '/' := by
  refine h.imp_right fun ⟨filled, ends⟩ => ⟨filled, fun slash => ?_⟩
  obtain ⟨front, rfl⟩ := List.getLast?_eq_some_iff.1 slash
  obtain ⟨first, more, shape⟩ := List.exists_cons_of_ne_nil (List.splitOn_ne_nil '/' front)
  have split : components (front ++ ['/']) = (first :: more) ++ [[]] := by
    rw [components_slash, components, shape]
    rfl
  rw [split, List.cons_append, List.tail_cons, List.getLast?_concat] at ends
  exact absurd (ends [] rfl) (by decide)

theorem Trimmed.ne_nil (h : Trimmed p) : p ≠ [] := by
  rcases h with rfl | ⟨filled, -⟩
  · decide
  · exact filled

/-- A relative name inside a directory stands behind a slash. -/
theorem Trimmed.join_eq (h : Trimmed p) (relative : isRooted q = false) :
    join p q = (if p = "/" then [] else p) ++ '/' :: q := by
  rcases h.getLast? with rfl | ⟨filled, slash⟩
  · simp [join, relative]
  · have other : p ≠ "/" := fun root => slash (by rw [root]; rfl)
    rw [if_neg other]
    simp [join, relative, filled, slash]

/-- What is named in a directory lies in it. -/
theorem Trimmed.directory_join (h : Trimmed p) (name : Path.IsName c) :
    directory (join p c) = p := by
  rw [h.join_eq (Path.isRooted_name name)]
  rcases h with rfl | ⟨filled, ends⟩
  · exact directory_slash name rfl (by simp)
  · obtain ⟨first, rest, shape⟩ := List.exists_cons_of_ne_nil (List.splitOn_ne_nil '/' p)
    have other : p ≠ "/" := fun root => by
      rw [root] at ends
      exact absurd (ends [] rfl) (by decide)
    rw [if_neg other, directory_slash name shape, if_neg filled]
    have whole : components p = first :: rest := shape
    rw [whole] at ends
    exact ends

theorem Trimmed.join_text (h : Trimmed p) (normal : r.Normal) (some : r.components ≠ []) :
    Trimmed (join p r.text) := by
  have body := components_body normal some
  have leads : ∀ c ∈ r.components, isFiller c = false := by
    intro c member
    obtain ⟨filled, here, -⟩ := normal.component member
    simpa [isFiller] using ⟨filled, here⟩
  -- whatever comes first, the components of the route stand behind a slash
  obtain ⟨front, whole⟩ :
      ∃ front, join p r.text = front ++ '/' :: ['/'].intercalate r.components := by
    have root := (spells_text normal).rooted
    rw [Path.text_of_components some] at root ⊢
    cases rooted : r.rooted with
    | true =>
      rw [rooted] at root
      exact ⟨[], join_rooted root p⟩
    | false =>
      rw [rooted] at root
      exact ⟨_, h.join_eq root⟩
  obtain ⟨first, more, shape⟩ := List.exists_cons_of_ne_nil (List.splitOn_ne_nil '/' front)
  have split : components (front ++ '/' :: ['/'].intercalate r.components) =
      first :: (more ++ r.components) := by
    rw [components_slash, body, components, shape, List.cons_append]
  rw [whole]
  refine .inr ⟨by simp, fun c ends => ?_⟩
  obtain ⟨before, last, found⟩ := (List.eq_nil_or_concat r.components).resolve_left some
  rw [split, List.tail_cons, found, List.concat_eq_append, ← List.append_assoc,
    List.getLast?_concat] at ends
  cases ends
  exact leads c (by simp [found])

/-- The directory of a file that is named in a place is that place, up to a slash at its end. -/
theorem Trimmed.directory_join_place (h : Trimmed dir) (normal : r.Normal) (name : Path.IsName c) :
    join (directory (join (join dir r.place) c)) [] = join (join dir r.place) [] := by
  have unrooted := Path.isRooted_name name
  rcases Path.place_cases r with ⟨-, -, place⟩ | ⟨-, -, place⟩ | ⟨some, place⟩
  · have root : join dir "/" = "/" := join_rooted rfl dir
    rw [place, root, Trimmed.directory_join (.inl rfl) name]
  · rw [place, join_relative unrooted, join_join_nil, ← join_relative unrooted,
      h.directory_join name]
  · rw [place, (h.join_text normal some).directory_join name]

end BuildMatrix.Pathname
