import BuildMatrix.Disk.Basic

/-! Changes to a disk: new directories, and files written anew. A change that fails gives an error
and leaves the disk; only making a row of directories can fail after it made some of them. -/

set_option autoImplicit false

namespace BuildMatrix.Disk

/-- Put a file or an empty directory at an address. Directories are made on the way. -/
def put (d : Disk) (a : Address) (n : Node) : Disk where
  top := (Tree.put n d.root a).entries
  above := d.above
  current := d.current
  now := d.now
  distinct := Tree.distinct_directory_entries (Tree.distinct_put d.distinct)

/-- In a directory, what is put in place of a file or of nothing changes no other address. -/
theorem node?_put {d : Disk} {n : Node} {a : Address} (named : a ≠ [])
    (inside : d.node? a.dropLast = some .directory) (free : d.node? a ≠ some .directory)
    (b : Address) : (d.put a n).node? b = if b = a then some n else d.node? b := by
  obtain ⟨c, r, rfl⟩ := List.exists_cons_of_ne_nil named
  exact Tree.node?_put named inside free b

/-- The directory in which a name is to be created, and its last component, which is empty for the
root itself. -/
def parentPlace (d : Disk) (p : Text) : Except IoError (Place d × Text) := do
  checkName p
  checkLength p
  let reversed := (Pathname.components p).reverse.dropWhile (· = [])
  let place ← (d.origin p).follow (reversed.drop 1).reverse
  match place.tree with
  | none => .error .notFound
  | some (.file _ _) => .error .notADirectory
  | some (.directory _) => .ok (place, reversed.headD [])

def leadsNowhere (last : Text) : Bool := Pathname.isFiller last || last == ".."

def makeDirectory (d : Disk) (p : Text) : Except IoError Disk := do
  let (parent, last) ← d.parentPlace p
  if leadsNowhere last then .error .alreadyExists
  else if longestName < Text.byteCount last then .error .nameTooLong
  else
    let place := parent.down last
    if place.tree.isSome then .error .alreadyExists else .ok (d.put place.address .directory)

/-- Make the first directory of a list in which every one lies in the next, and before it those of
the others that are needed. -/
def makeChain (d : Disk) : List Text → Disk × Except IoError Unit
  | [] => (d, .error .notFound)
  | p :: ancestors =>
    if p = [] then (d, .ok ())
    else match d.makeDirectory p with
      | .ok e => (e, .ok ())
      | .error .notFound =>
        match d.makeChain ancestors with
        | (e, .error err) => (e, .error err)
        | (e, .ok ()) =>
          match e.makeDirectory p with
          | .ok f => (f, .ok ())
          | .error err => if e.isDirectory p then (e, .ok ()) else (e, .error err)
      | .error err => if d.isDirectory p then (d, .ok ()) else (d, .error err)

/-- Make a directory and those it lies in, as far as they do not exist. -/
def makeDirectories (d : Disk) (p : Text) : Disk × Except IoError Unit :=
  d.makeChain (p :: Pathname.ancestors p)

/-- Write a file, new or in place of another one. -/
def write (d : Disk) (p : Text) (content : Text.Bytes) : Except IoError Disk := do
  let (parent, last) ← d.parentPlace p
  if leadsNowhere last ∨ p.getLast? = some '/' then .error .isADirectory
  else if longestName < Text.byteCount last then .error .nameTooLong
  else
    let place := parent.down last
    match place.tree with
    | some (.directory _) => .error .isADirectory
    | _ => .ok (d.put place.address (.file content d.now))

/-- Enter a directory: relative names start there. -/
def enter (d : Disk) (p : Text) : Except IoError Disk := do
  match ← d.find p with
  | (_, .file _ _) => .error .notADirectory
  | (a, .directory) => .ok { d with current := a }

/-- A disk with a directory at an address, unless something is there. -/
def withDirectory (d : Disk) (a : Address) : Disk :=
  if (d.node? a).isSome then d else d.put a .directory

/-- A disk with a file at an address, and the directories it lies in. -/
def withFile (d : Disk) (a : Address) (content : Text.Bytes) : Disk := d.put a (.file content d.now)

/-- A disk with nothing but the directory it is used from. -/
def bare (current : Address) (now : Timestamp) : Disk :=
  withDirectory { top := [], current := current, now := now } current

/-- The directories of a disk that were not there before. -/
def newDirectories (before after : Disk) : List Address :=
  after.root.contents.filterMap fun
    | (a, .directory) => if before.node? a = some .directory then none else some a
    | (_, .file _ _) => none

/-- The files of a disk that were not there before, or were otherwise. -/
def newFiles (before after : Disk) : List (Address × Text.Bytes) :=
  after.root.contents.filterMap fun
    | (_, .directory) => none
    | (a, .file content time) =>
      if before.node? a = some (.file content time) then none else some (a, content)

end BuildMatrix.Disk
