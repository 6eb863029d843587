import BuildMatrix.Disk.Writing
import BuildMatrix.Proofs.Disk.Following
import BuildMatrix.Proofs.Disk.Naming

/-! Changes of a disk, address by address. Making directories adds some where nothing was, and
writing a file puts it at the destination of its name; all other addresses hold what they held.
What was directory stays directory, so every way that was open stays open. -/

set_option autoImplicit false

namespace BuildMatrix

namespace Disk

variable {d e f : Disk} {a b : Address} {p q dir last : Text} {content : Text.Bytes}
  {made : Address → Prop} {written also : List Address}

/-! ### What lies on the way to a name -/

/-- An address that is passed on the way to the destination of a name. -/
def OnWay (d : Disk) (p : Text) (b : Address) : Prop :=
  ∃ front, front <+: Pathname.components p ∧ b = Address.along (d.startOf p) front

theorem onWay_destination (d : Disk) (p : Text) : d.OnWay p (d.destination p) :=
  ⟨_, List.prefix_rfl, rfl⟩

theorem OnWay.of_ancestor (member : q ∈ Pathname.ancestors p) (filled : q ≠ [])
    (h : d.OnWay q b) : d.OnWay p b := by
  obtain ⟨rooted, inside⟩ := Pathname.ancestor_components member filled
  have start : d.startOf q = d.startOf p := by rw [startOf, startOf, rooted]
  obtain ⟨front, along, rfl⟩ := h
  rcases inside with ⟨c, back, whole⟩ | rfl
  · refine ⟨front, along.trans ?_, by rw [start]⟩
    rw [whole]
    exact List.prefix_append _ _
  · -- all of the root's components stay in it
    refine ⟨[], List.nil_prefix, ?_⟩
    have blank : ∀ c ∈ front, c = [] := fun c inside => by
      have listed := along.subset inside
      revert listed
      rw [show Pathname.components "/" = [[], []] from rfl]
      simp
    rw [start, Address.along_nil]
    clear along
    induction front with
    | nil => rfl
    | cons c front ih =>
      rw [Address.along_cons, blank c List.mem_cons_self]
      exact ih fun c inside => blank c (List.mem_cons_of_mem _ inside)

/-! ### One disk after another -/

/-- What becomes of a disk when directories are made and files are written: `made` says where the
directories may be, and `written` where the files are. -/
structure Altered (d e : Disk) (made : Address → Prop) (written : List Address) : Prop where
  above : e.above = d.above
  current : e.current = d.current
  file : ∀ b ∈ written, d.node? b ≠ some .directory ∧
    ∃ content t, e.node? b = some (.file content t)
  node : ∀ b, b ∉ written →
    e.node? b = d.node? b ∨ d.node? b = none ∧ e.node? b = some .directory ∧ made b

theorem Altered.refl (d : Disk) (made : Address → Prop) : Altered d d made [] :=
  ⟨rfl, rfl, by simp, fun _ _ => .inl rfl⟩

theorem Altered.mono {also : Address → Prop} (h : Altered d e made written)
    (imp : ∀ b, made b → also b) : Altered d e also written :=
  { h with node := fun b other => (h.node b other).imp_right fun ⟨old, new, here⟩ =>
      ⟨old, new, imp b here⟩ }

/-- What was there stays unless it is written. -/
theorem Altered.kept (h : Altered d e made written) (unwritten : b ∉ written) {n : Node}
    (there : d.node? b = some n) : e.node? b = some n := by
  rcases h.node b unwritten with same | ⟨none, -, -⟩
  · rw [same, there]
  · rw [there] at none
    cases none

/-- A file that was not written was there before. -/
theorem Altered.before (h : Altered d e made written) (unwritten : b ∉ written)
    {content : Text.Bytes} {t : Timestamp} (later : e.node? b = some (.file content t)) :
    d.node? b = some (.file content t) := by
  rcases h.node b unwritten with same | ⟨-, directory, -⟩
  · rw [← same, later]
  · rw [later] at directory
    cases directory

/-- What was directory stays directory. -/
theorem Altered.directory (h : Altered d e made written) (there : d.node? b = some .directory) :
    e.node? b = some .directory :=
  h.kept (fun member => (h.file b member).1 there) there

theorem Altered.trans (one : Altered d e made written) (two : Altered e f made also) :
    Altered d f made (written ++ also) where
  above := two.above.trans one.above
  current := two.current.trans one.current
  file b member := by
    by_cases again : b ∈ also
    · obtain ⟨free, there⟩ := two.file b again
      exact ⟨fun was => free (one.directory was), there⟩
    · have first := (List.mem_append.1 member).resolve_right again
      obtain ⟨free, content, t, there⟩ := one.file b first
      exact ⟨free, content, t, two.kept again there⟩
  node b other := by
    rw [List.mem_append, not_or] at other
    rcases one.node b other.1, two.node b other.2 with
      ⟨same | ⟨none, new, here⟩, same' | ⟨none', new', here'⟩⟩
    · exact .inl (same'.trans same)
    · exact .inr ⟨same ▸ none', new', here'⟩
    · exact .inr ⟨none, same'.trans new, here⟩
    · rw [new] at none'
      cases none'

/-! ### Making directories -/

/-- What is known of a directory in which a name is to be created. -/
structure Around (d : Disk) (p : Text) (x : Place d) (last : Text) : Prop where
  pathname : IsPathname p
  directory : d.node? x.address = some .directory
  split : ∃ front blanks, Pathname.components p = front ++ last :: blanks ∧ (∀ c ∈ blanks, c = []) ∧
    d.Passable (d.startOf p) front ∧ x.address = Address.along (d.startOf p) front

theorem around_of_parentPlace {x : Place d} (h : d.parentPlace p = .ok (x, last))
    (leads : leadsNowhere last = false) : Around d p x last := by
  obtain ⟨⟨⟩, name, h⟩ := bind_eq_ok.1 h
  obtain ⟨⟨⟩, short, h⟩ := bind_eq_ok.1 h
  obtain ⟨y, followed, h⟩ := bind_eq_ok.1 h
  obtain ⟨noNul, filled⟩ := checkName_eq_ok.1 name
  have pathname : IsPathname p := ⟨noNul, filled, checkLength_eq_ok.1 short⟩
  cases tree : y.tree with
  | none => simp [tree] at h
  | some t =>
    cases t with
    | file bytes m => simp [tree] at h
    | directory es =>
      simp only [tree, Except.ok.injEq, Prod.mk.injEq] at h
      obtain ⟨rfl, ending⟩ := h
      obtain ⟨passable, here⟩ := Place.follow_eq_ok_iff.1 followed
      rw [address_origin] at passable here
      refine ⟨pathname, Place.node?_eq_directory.2 ⟨es, tree⟩, ?_⟩
      -- slashes at the end are not counted, and what stands before them is the last component
      have whole := List.takeWhile_append_dropWhile (p := fun c : Text => decide (c = []))
        (l := (Pathname.components p).reverse)
      cases rest : (Pathname.components p).reverse.dropWhile (fun c => decide (c = [])) with
      | nil =>
        rw [rest] at ending
        rw [← ending] at leads
        cases leads
      | cons c r =>
        rw [rest] at ending passable here whole
        obtain rfl : c = last := ending
        refine ⟨r.reverse,
          ((Pathname.components p).reverse.takeWhile fun c => decide (c = [])).reverse,
          ?_, ?_, passable, here⟩
        · refine List.reverse_inj.1 (whole.symm.trans ?_)
          simp
        · intro b member
          simpa using List.mem_takeWhile_imp (List.mem_reverse.1 member)

theorem Around.destination {x : Place d} (h : Around d p x last)
    (leads : leadsNowhere last = false) : d.destination p = x.address ++ [last] := by
  obtain ⟨front, blanks, whole, blank, -, here⟩ := h.split
  obtain ⟨filler, up⟩ := Bool.or_eq_false_iff.1 leads
  have stays : ∀ (a : Address), Address.along a blanks = a := by
    clear whole
    induction blanks with
    | nil => exact fun _ => rfl
    | cons c blanks ih =>
      intro a
      rw [Address.along_cons, blank c List.mem_cons_self]
      exact ih (fun c inside => blank c (List.mem_cons_of_mem _ inside)) a
  rw [Disk.destination, whole, Address.along_append, Address.along_cons, stays, ← here,
    Address.follow, if_neg (by simp [filler]), if_neg (by simpa using up)]

/-- What `put` does where nothing or a file is. -/
theorem altered_put_directory (inside : d.node? a.dropLast = some .directory) (named : a ≠ [])
    (none : d.node? a = none) (here : made a) : Altered d (d.put a .directory) made [] where
  above := rfl
  current := rfl
  file := by simp
  node b _ := by
    rw [node?_put named inside (by simp [none])]
    by_cases same : b = a
    · rw [if_pos same, same]
      exact .inr ⟨none, rfl, here⟩
    · rw [if_neg same]
      exact .inl rfl

theorem altered_makeDirectory (h : d.makeDirectory p = .ok e) (here : made (d.destination p)) :
    Altered d e made [] := by
  obtain ⟨⟨x, last⟩, parent, h⟩ := bind_eq_ok.1 h
  dsimp only at h
  split at h
  · cases h
  rename_i leads
  rw [Bool.not_eq_true] at leads
  split at h
  · cases h
  split at h
  · cases h
  rename_i free
  cases h
  have around := around_of_parentPlace parent leads
  rw [around.destination leads] at here
  have none : d.node? (x.address ++ [last]) = none := by
    rw [← Place.address_down, ← Place.map_node_tree, Option.map_eq_none_iff]
    simpa using free
  rw [Place.address_down]
  refine altered_put_directory ?_ (by simp) none here
  rw [List.dropLast_concat]
  exact around.directory

theorem Altered.destination (h : Altered d e made written) (p : Text) :
    e.destination p = d.destination p := by
  rw [Disk.destination, Disk.destination, startOf, startOf, h.current]

theorem altered_makeChain (names : List Text)
    (here : ∀ q ∈ names, q ≠ [] → made (d.destination q)) :
    Altered d (d.makeChain names).1 made [] := by
  induction names generalizing d with
  | nil => exact .refl d made
  | cons p ancestors ih =>
    rw [makeChain]
    split
    · exact .refl d made
    rename_i filled
    have first := here p List.mem_cons_self filled
    cases once : d.makeDirectory p with
    | ok e => exact altered_makeDirectory once first
    | error err =>
      cases err with
      | notFound =>
        have around := ih fun q member => here q (List.mem_cons_of_mem _ member)
        -- the ancestors come first, and the directory is tried once more
        cases chain : d.makeChain ancestors with
        | mk e result =>
          rw [chain] at around
          dsimp only at around ⊢
          cases result with
          | error err => exact around
          | ok _ =>
            dsimp only
            cases again : e.makeDirectory p with
            | ok f =>
              rw [← around.destination] at first
              exact around.trans (altered_makeDirectory again first)
            | error err =>
              dsimp only
              split <;> exact around
      | _ =>
        dsimp only
        split <;> exact .refl d made

theorem altered_makeDirectories (filled : p ≠ []) :
    Altered d (d.makeDirectories p).1 (d.OnWay p) [] := by
  refine altered_makeChain _ fun q member other => ?_
  rcases List.mem_cons.1 member with rfl | member
  · exact d.onWay_destination q
  · exact .of_ancestor member other (d.onWay_destination q)

/-! ### Writing a file -/

theorem not_slash_of_last {front : List Text} (whole : Pathname.components p = front ++ [[]])
    (more : front ≠ []) : p.getLast? = some '/' := by
  have text : ['/'].intercalate (front ++ [[]]) = p := by
    rw [← whole]
    exact List.intercalate_splitOn '/'
  rw [← text, Path.intercalate_concat more, List.getLast?_concat]

/-- Without a slash at its end, a name ends in what is to be created. -/
theorem Around.concat {x : Place d} (h : Around d p x last) (noSlash : p.getLast? ≠ some '/') :
    ∃ front, Pathname.components p = front ++ [last] ∧ d.Passable (d.startOf p) front ∧
      x.address = Address.along (d.startOf p) front := by
  obtain ⟨front, blanks, whole, blank, passable, here⟩ := h.split
  rcases List.eq_nil_or_concat blanks with rfl | ⟨more, c, rfl⟩
  · exact ⟨front, whole, passable, here⟩
  · -- a blank component at the end would be a slash there
    rw [List.concat_eq_append] at whole blank
    rw [blank c (by simp), ← List.cons_append, ← List.append_assoc] at whole
    exact absurd (not_slash_of_last whole (by simp)) noSlash

/-- Writing puts the file at the destination of its name, in a directory that is there. -/
theorem write_eq_ok (h : d.write p content = .ok e) :
    d.Reaches p ∧ d.destination p ≠ [] ∧ d.node? (d.destination p).dropLast = some .directory ∧
      d.node? (d.destination p) ≠ some .directory ∧
      e = d.put (d.destination p) (.file content d.now) := by
  obtain ⟨⟨x, last⟩, parent, h⟩ := bind_eq_ok.1 h
  dsimp only at h
  split at h
  · cases h
  rename_i leads
  rw [not_or, Bool.not_eq_true] at leads
  obtain ⟨leads, noSlash⟩ := leads
  split at h
  · cases h
  rename_i short
  have around := around_of_parentPlace parent leads
  have led := around.destination leads
  obtain ⟨front, whole, passable, here⟩ := around.concat noSlash
  have free : d.node? (d.destination p) ≠ some .directory := by
    rw [led, ← Place.address_down]
    intro directory
    obtain ⟨es, tree⟩ := Place.node?_eq_directory.1 directory
    rw [tree] at h
    cases h
  refine ⟨⟨around.pathname, ?_⟩, by simp [led], ?_, free, ?_⟩
  · rw [whole, passable_append, ← here]
    refine ⟨passable, around.directory, ⟨fun up => ?_, Nat.le_of_not_lt short⟩, trivial⟩
    rw [up] at leads
    cases leads
  · rw [led, List.dropLast_concat]
    exact around.directory
  · rw [led, ← Place.address_down]
    split at h
    · cases h
    · exact (Except.ok.inj h).symm

theorem altered_write (made : Address → Prop) (h : d.write p content = .ok e) :
    Altered d e made [d.destination p] ∧
      e.node? (d.destination p) = some (.file content d.now) := by
  obtain ⟨-, named, inside, free, rfl⟩ := write_eq_ok h
  have node := node?_put (n := .file content d.now) named inside free
  refine ⟨⟨rfl, rfl, ?_, ?_⟩, by rw [node, if_pos rfl]⟩
  · intro b member
    rw [List.mem_singleton.1 member]
    exact ⟨free, content, d.now, by rw [node, if_pos rfl]⟩
  · intro b other
    rw [List.mem_singleton] at other
    exact .inl (by rw [node, if_neg other])

/-! ### What stays reachable -/

theorem Altered.startOf (h : Altered d e made written) (p : Text) : e.startOf p = d.startOf p := by
  rw [Disk.startOf, Disk.startOf, h.current]

theorem Altered.onWay (h : Altered d e made written) : e.OnWay p b ↔ d.OnWay p b := by
  rw [OnWay, OnWay, h.startOf]

theorem Altered.reaches (h : Altered d e made written) (reaches : d.Reaches p) : e.Reaches p := by
  refine ⟨reaches.pathname, ?_⟩
  rw [h.startOf]
  refine reaches.passable.transfer h.above fun front c back split => ?_
  have passable := reaches.passable
  rw [split] at passable
  exact h.directory passable.directory

/-- A file that is not written anew reads as before. -/
theorem Altered.read (h : Altered d e made written) (other : d.destination p ∉ written)
    (there : d.read p = .ok content) : e.read p = .ok content := by
  obtain ⟨reaches, t, held⟩ := read_eq_ok_iff.1 there
  refine read_eq_ok_iff.2 ⟨h.reaches reaches, t, ?_⟩
  rw [h.destination]
  exact h.kept other held

/-- What was written is read back. -/
theorem read_write (h : d.write p content = .ok e) : e.read p = .ok content := by
  obtain ⟨altered, there⟩ := altered_write (fun _ => True) h
  refine read_eq_ok_iff.2 ⟨altered.reaches (write_eq_ok h).1, d.now, ?_⟩
  rw [altered.destination, there]

end Disk

end BuildMatrix
