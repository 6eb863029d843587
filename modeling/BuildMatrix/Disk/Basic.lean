import BuildMatrix.Disk.Pathname
import BuildMatrix.Disk.Tree

/-! A disk as a value: its directories and files, and from where relative names are followed.
Reading leaves it as it is; writing gives a new disk. There are no links, so every existing thing
has one address.

A name is followed from place to place. A place remembers what lies on the way to it, so that each
component costs one look into one directory. Main statement: `find_eq_ok` says that a name finds
what the address of its place holds. -/

set_option autoImplicit false

namespace BuildMatrix

inductive IoError where
  | notFound
  | alreadyExists
  | notADirectory
  | isADirectory
  | nameTooLong
  | nulInName
  deriving DecidableEq

def IoError.message : IoError → Text
  | .notFound => "No such file or directory (os error 2)"
  | .alreadyExists => "File exists (os error 17)"
  | .notADirectory => "Not a directory (os error 20)"
  | .isADirectory => "Is a directory (os error 21)"
  | .nameTooLong => "File name too long (os error 36)"
  | .nulInName => "file name contained an unexpected NUL byte"

/-- Where going up from the root leads: to the root again, or to nothing. -/
inductive AboveRoot where
  | root
  | nothing
  deriving DecidableEq

structure Disk where
  /-- What lies in the root. -/
  top : List (Text × Tree)
  above : AboveRoot := .root
  /-- Where relative names start. -/
  current : Address
  /-- The time given to what is written. -/
  now : Timestamp
  distinct : (Tree.directory top).distinct = true := by decide

namespace Disk

def root (d : Disk) : Tree := .directory d.top

def tree? (d : Disk) (a : Address) : Option Tree := d.root.at? a

/-- What an address holds. The root is always there. -/
def node? (d : Disk) (a : Address) : Option Node := d.root.node? a

/-- The addresses of all files. -/
def files (d : Disk) : List Address :=
  d.root.contents.filterMap fun
    | (a, .file _ _) => some a
    | (_, .directory) => none

/-- Every name of a trail, the last one first, is paired with what the names up to it lead to. -/
def Traced (d : Disk) : List (Text × Option Tree) → Prop
  | [] => True
  | e :: r => e.2 = d.tree? ((e :: r).map Prod.fst).reverse ∧ d.Traced r

/-- A place that a name can lead to, with all that is on the way there. -/
structure Place (d : Disk) where
  trail : List (Text × Option Tree)
  traced : d.Traced trail

namespace Place

variable {d : Disk}

def address (p : Place d) : Address := (p.trail.map Prod.fst).reverse

/-- What is at a place. -/
def tree (p : Place d) : Option Tree :=
  match p.trail with
  | [] => some d.root
  | e :: _ => e.2

theorem tree_eq (p : Place d) : p.tree = d.tree? p.address := by
  obtain ⟨trail, traced⟩ := p
  cases trail with
  | nil => rfl
  | cons e r => exact traced.1

theorem map_node_tree (p : Place d) : p.tree.map Tree.node = d.node? p.address := by
  rw [p.tree_eq]
  rfl

def down (p : Place d) (c : Text) : Place d where
  trail := (c, p.tree.bind (·.child? c)) :: p.trail
  traced := by
    refine ⟨?_, p.traced⟩
    unfold tree?
    rw [List.map_cons, List.reverse_cons, Tree.at?_concat, p.tree_eq]
    rfl

def up (p : Place d) : Place d where
  trail := p.trail.tail
  traced := by
    obtain ⟨trail, traced⟩ := p
    cases trail with
    | nil => trivial
    | cons e r => exact traced.2

def atAddress (d : Disk) (a : Address) : Place d := a.foldl down ⟨[], trivial⟩

@[simp] theorem address_down (p : Place d) (c : Text) : (p.down c).address = p.address ++ [c] := by
  simp [down, address]

@[simp] theorem address_up (p : Place d) : p.up.address = p.address.dropLast := by
  rw [up, address, address, List.dropLast_reverse, List.map_tail]

theorem address_foldl_down (p : Place d) (a : Address) :
    (a.foldl down p).address = p.address ++ a := by
  induction a generalizing p with
  | nil => simp
  | cons c r ih => simp [ih]

@[simp] theorem address_atAddress (a : Address) : (atAddress d a).address = a :=
  address_foldl_down _ a

end Place

/-- The bytes a component may have. -/
def longestName : Nat := 255

/-- The bytes a whole name may have. -/
def longestPathname : Nat := 4095

/-- Follow one component from a place, which has to be a directory. An empty component or `.` stays
in it. The place reached need not exist. -/
def Place.step {d : Disk} (p : Place d) (c : Text) : Except IoError (Place d) :=
  match p.tree with
  | none => .error .notFound
  | some (.file _ _) => .error .notADirectory
  | some (.directory _) =>
    if Pathname.isFiller c then .ok p
    else if c = ".." then
      if p.trail = [] ∧ d.above = .nothing then .error .notFound else .ok p.up
    else if longestName < Text.byteCount c then .error .nameTooLong
    else .ok (p.down c)

/-- Follow components from a place, one after the other. -/
def Place.follow {d : Disk} (p : Place d) (cs : List Text) : Except IoError (Place d) :=
  cs.foldlM Place.step p

/-- What is at a place, with its address. -/
def Place.held {d : Disk} (p : Place d) : Except IoError (Address × Node) :=
  match p.tree with
  | none => .error .notFound
  | some t => .ok (p.address, t.node)

/-- Where a rooted or a relative name starts. -/
def startOf (d : Disk) (p : Text) : Address := if Pathname.isRooted p then [] else d.current

def origin (d : Disk) (p : Text) : Place d := .atAddress d (d.startOf p)

/-- Names that no disk takes. -/
def checkName (p : Text) : Except IoError Unit :=
  if '\x00' ∈ p then .error .nulInName else if p = [] then .error .notFound else .ok ()

def checkLength (p : Text) : Except IoError Unit :=
  if longestPathname < Text.byteCount p then .error .nameTooLong else .ok ()

/-- The place that a name of any length leads to. -/
def locateAny (d : Disk) (p : Text) : Except IoError (Place d) := do
  checkName p
  (d.origin p).follow (Pathname.components p)

/-- The place that a name leads to. -/
def locate (d : Disk) (p : Text) : Except IoError (Place d) := do
  checkName p
  checkLength p
  d.locateAny p

/-- The thing that a name of any length leads to, with its address. -/
def findAny (d : Disk) (p : Text) : Except IoError (Address × Node) := do
  (← d.locateAny p).held

/-- The thing that a name names, with its address. -/
def find (d : Disk) (p : Text) : Except IoError (Address × Node) := do
  (← d.locate p).held

/-- The file that a name names. -/
def findFile (d : Disk) (p : Text) : Except IoError (Address × Text.Bytes) := do
  match ← d.find p with
  | (_, .directory) => .error .isADirectory
  | (a, .file content _) => .ok (a, content)

def read (d : Disk) (p : Text) : Except IoError Text.Bytes := (d.findFile p).map Prod.snd

def readText (d : Disk) (p : Text) : Except IoError Text := (d.read p).map Text.ofUtf8

/-- The address of the file that a name names, if it names one. -/
def file? (d : Disk) (p : Text) : Option Address := (d.findFile p).toOption.map Prod.fst

def isFile (d : Disk) (p : Text) : Bool := (d.file? p).isSome

def isDirectory (d : Disk) (p : Text) : Bool :=
  match d.find p with
  | .ok (_, .directory) => true
  | _ => false

def exists? (d : Disk) (p : Text) : Bool := (d.find p).toOption.isSome

/-- When the file that a name names was last written. -/
def modified? (d : Disk) (p : Text) : Option Timestamp :=
  match d.find p with
  | .ok (_, .file _ t) => some t
  | _ => none

/-- The names of the files in a directory, in no particular order. -/
def fileNamesAt (d : Disk) (a : Address) : List Text :=
  (d.tree? a).elim [] Tree.fileNames

/-- The names of the files in the directory that a name names. -/
def fileNames (d : Disk) (p : Text) : Except IoError (List Text) := do
  match ← d.find p with
  | (_, .file _ _) => .error .notADirectory
  | (a, .directory) => .ok (d.fileNamesAt a)

end Disk

/-- One component further, whatever is there. -/
def Address.follow (a : Address) (c : Text) : Address :=
  if Pathname.isFiller c then a else if c = ".." then a.dropLast else a ++ [c]

/-- The bytes of an address written from the root, with a slash before each name. -/
def Address.byteCount : Address → Nat
  | [] => 0
  | c :: r => 1 + Text.byteCount c + byteCount r

namespace Disk

/-- Everything that is entered on the way can be named from the root. -/
def isNameable (a : Address) : List Text → Bool
  | [] => true
  | c :: cs =>
    (Pathname.isFiller c || c == ".." || decide ((a.follow c).byteCount ≤ longestPathname)) &&
      isNameable (a.follow c) cs

/-- The address that a name resolves to. A name of any length is resolved component by component,
and what each one enters is looked up by its name from the root. So there may be none for a file
that can be opened: the name it is opened by can be short enough, and its name from the root not. -/
def canonicalize? (d : Disk) (p : Text) : Option Address :=
  match d.findAny p with
  | .ok (a, _) => if isNameable (d.startOf p) (Pathname.components p) then some a else none
  | .error _ => none

/-- What tells files apart: the address that a name resolves to, or else the name as it is
spelled. -/
inductive Identity where
  | at (address : Address)
  | named (parts : List Text)
  deriving DecidableEq

def identity (d : Disk) (p : Text) : Identity :=
  match d.canonicalize? p with
  | some a => .at a
  | none => .named (Pathname.parts p)

/-! ### What finding a file means -/

theorem bind_eq_ok {α β : Type} {x : Except IoError α} {f : α → Except IoError β} {b : β} :
    (x >>= f) = .ok b ↔ ∃ a, x = .ok a ∧ f a = .ok b := by
  cases x <;> simp [bind, Except.bind]

theorem Place.held_eq_ok {d : Disk} {place : Place d} {a : Address} {n : Node} :
    place.held = .ok (a, n) ↔ place.address = a ∧ d.node? a = some n := by
  have held := place.map_node_tree
  unfold Place.held
  cases there : place.tree with
  | none =>
    rw [there] at held
    constructor
    · intro h
      cases h
    · rintro ⟨here, h⟩
      rw [← here, ← held] at h
      cases h
  | some t =>
    rw [there] at held
    constructor
    · intro h
      cases h
      exact ⟨rfl, held.symm⟩
    · rintro ⟨here, h⟩
      rw [← here, ← held] at h
      cases h
      simp only [here]

theorem find_eq_ok {d : Disk} {p : Text} {a : Address} {n : Node} :
    d.find p = .ok (a, n) ↔
      ∃ place, d.locate p = .ok place ∧ place.address = a ∧ d.node? a = some n := by
  unfold find
  rw [bind_eq_ok]
  exact exists_congr fun place => and_congr_right fun _ => Place.held_eq_ok

theorem findAny_eq_ok {d : Disk} {p : Text} {a : Address} {n : Node} :
    d.findAny p = .ok (a, n) ↔
      ∃ place, d.locateAny p = .ok place ∧ place.address = a ∧ d.node? a = some n := by
  unfold findAny
  rw [bind_eq_ok]
  exact exists_congr fun place => and_congr_right fun _ => Place.held_eq_ok

theorem findFile_eq_ok {d : Disk} {p : Text} {a : Address} {content : Text.Bytes} :
    d.findFile p = .ok (a, content) ↔
      ∃ place, d.locate p = .ok place ∧ place.address = a ∧
        ∃ t, d.node? a = some (.file content t) := by
  unfold findFile
  rw [bind_eq_ok]
  refine ⟨fun ⟨r, found, isFile⟩ => ?_, fun ⟨place, located, here, t, there⟩ => ?_⟩
  · split at isFile <;> cases isFile
    obtain ⟨place, located, here, there⟩ := find_eq_ok.1 found
    exact ⟨place, located, here, _, there⟩
  · exact ⟨(a, .file content t), find_eq_ok.2 ⟨place, located, here, there⟩, rfl⟩

theorem file?_eq_some {d : Disk} {p : Text} {a : Address} :
    d.file? p = some a ↔ ∃ content, d.findFile p = .ok (a, content) := by
  unfold file?
  cases d.findFile p with
  | error e => simp [Except.toOption]
  | ok r =>
    obtain ⟨b, content⟩ := r
    simp [Except.toOption]

theorem mem_files {d : Disk} {a : Address} {content : Text.Bytes} {t : Timestamp}
    (there : d.node? a = some (.file content t)) : a ∈ d.files :=
  List.mem_filterMap.2 ⟨(a, .file content t), Tree.mem_contents there, rfl⟩

theorem mem_files_of_findFile {d : Disk} {p : Text} {a : Address} {content : Text.Bytes}
    (h : d.findFile p = .ok (a, content)) : a ∈ d.files := by
  obtain ⟨-, -, -, t, there⟩ := findFile_eq_ok.1 h
  exact mem_files there

theorem locate_eq_ok {d : Disk} {p : Text} {place : Place d} :
    d.locate p = .ok place ↔ checkLength p = .ok () ∧ d.locateAny p = .ok place := by
  unfold locate locateAny
  cases checkName p <;> cases checkLength p <;> simp [bind, Except.bind]

/-- The names in a directory are different ones. -/
theorem nodup_fileNamesAt (d : Disk) (a : Address) : (d.fileNamesAt a).Nodup := by
  unfold fileNamesAt
  cases there : d.tree? a with
  | none => exact List.nodup_nil
  | some t => exact Tree.nodup_fileNames (Tree.distinct_of_at? d.distinct there)

end Disk

end BuildMatrix
