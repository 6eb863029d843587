import BuildMatrix.Disk.Counting
import BuildMatrix.Path
import BuildMatrix.Resource.Reference
import BuildMatrix.Text.Lines

/-! Which files a resource script depends on. Headers are read in turn, each at the place where it
is first included. Paths that differ only in letter case count as one file, so that no file is read
twice, and that ends the walk. -/

set_option autoImplicit false

namespace BuildMatrix.Resource

inductive Warning where
  | missing (path : Text)
  | unreadable (path : Text) (error : IoError)

def Warning.message : Warning → Text
  | .missing path => "Unable to find " ++ path
  | .unreadable path e => "Unable to read " ++ path ++ ": " ++ e.message

/-- A reference, with the place where it stands and the directory that it starts from. -/
structure Mention where
  position : Position
  dir : Text
  reference : Reference

/-- What a scan found so far. -/
structure Scan where
  /-- The keys of all paths found, and of the script. -/
  visited : List Text
  /-- The dependencies, in the order in which they were found. -/
  dependencies : List Text
  /-- The files that were opened, in order. -/
  opened : List Text
  warnings : List (Located Warning)

namespace Scan

/-- What the lines of a file mention. -/
def mentions (dir file content : Text) : List Mention :=
  ((Text.lines content).zipIdx 1).filterMap fun (line, n) =>
    (Reference.ofLine? line).map fun r =>
      ⟨.ofLine (Pathname.join dir file) n, Path.parent file, r⟩

def warn (s : Scan) (position : Position) (w : Warning) : Scan :=
  { s with warnings := s.warnings ++ [⟨position, w⟩] }

/-- Open a file, and get what it mentions. -/
def openFile (disk : Disk) (dir : Text) (s : Scan) (file : Text) : Scan × List Mention :=
  let t := { s with opened := s.opened ++ [file] }
  match disk.readText (Pathname.join dir file) with
  | .ok content => (t, mentions dir file content)
  | .error e => (t.warn (.ofFile (Pathname.join dir file)) (.unreadable file e), [])

/-- Where a mentioned file may be: next to the file that mentions it, or next to the script. -/
def candidates (scriptDir : Text) (m : Mention) : List Text :=
  [Path.join m.dir m.reference.name, Path.join scriptDir m.reference.name]

def resolve? (disk : Disk) (dir scriptDir : Text) (m : Mention) : Option Text :=
  (candidates scriptDir m).find? fun c => disk.isFile (Pathname.join dir c)

def add (s : Scan) (file : Text) : Scan :=
  { s with
    visited := Path.foldCase file :: s.visited
    dependencies := s.dependencies ++ [file] }

@[simp] theorem visited_openFile (disk : Disk) (dir : Text) (s : Scan) (file : Text) :
    (openFile disk dir s file).1.visited = s.visited := by
  unfold openFile
  split <;> rfl

theorem isFile_of_resolve? {disk : Disk} {dir scriptDir : Text} {m : Mention} {file : Text}
    (h : resolve? disk dir scriptDir m = some file) : disk.isFile (Pathname.join dir file) := by
  unfold resolve? at h
  simpa using List.find?_some h

/-- Follow what is mentioned, one after the other; what a header mentions comes before the rest. -/
def explore (disk : Disk) (dir scriptDir : Text) (s : Scan) : List Mention → Scan
  | [] => s
  | m :: rest =>
    match _ : resolve? disk dir scriptDir m with
    | none =>
      explore disk dir scriptDir
        (s.warn m.position (.missing (Path.join m.dir m.reference.name))) rest
    | some file =>
      if _ : Path.foldCase file ∈ s.visited then explore disk dir scriptDir s rest
      else match m.reference.kind with
        | .resource => explore disk dir scriptDir (s.add file) rest
        | .header =>
          let opening := openFile disk dir (s.add file) file
          explore disk dir scriptDir opening.1 (opening.2 ++ rest)
termination_by pending => (disk.unmet dir Path.foldCase s.visited, pending.length)
decreasing_by
  · exact Prod.Lex.right _ (Nat.lt_succ_self _)
  · exact Prod.Lex.right _ (Nat.lt_succ_self _)
  · exact Prod.Lex.left _ _
      (Disk.unmet_cons_lt (isFile_of_resolve? (by assumption)) (by assumption))
  · refine Prod.Lex.left _ _ ?_
    rw [visited_openFile]
    exact Disk.unmet_cons_lt (isFile_of_resolve? (by assumption)) (by assumption)

/-- A scan that found nothing but the script itself. -/
def start (script : Text) : Scan := ⟨[Path.foldCase script], [], [], []⟩

end Scan

/-- All files a resource script depends on, seen like the script from the directory `dir`. -/
def scan (disk : Disk) (dir script : Text) : Scan :=
  let file := Path.canonical script
  let opening := Scan.openFile disk dir (.start file) file
  Scan.explore disk dir (Path.parent file) opening.1 opening.2

end BuildMatrix.Resource
