import BuildMatrix.Project.Reader
import BuildMatrix.Project.Targets

/-! The library projects that a project links with, and those they link with in turn. Each is found
once, wherever it is named, and comes after the libraries it needs. The walk ends because no
directory is marked twice. -/

set_option autoImplicit false

namespace BuildMatrix

/-- A library project, with its directory as seen from the project that is built. -/
structure Library where
  dir : Text
  project : Project

namespace Library

/-- The library file of a target, seen from the project that is built. -/
def binaryPath (l : Library) (t : Target) : Text := Path.join l.dir (l.project.binaryPath t)

inductive Problem where
  | notFound (dir : Text)
  | unreadable (dir : Text) (error : Project.ReadError)

def Problem.message : Problem → Text
  | .notFound dir => "No project file found for library " ++ dir
  | .unreadable dir e => "Unable to read library project " ++ dir ++ ": " ++ e.message

/-- What happened while libraries were looked for, in order. -/
inductive Event where
  | reading (e : Project.Event)
  | warning (w : Located Project.Warning)
  | found (name : Text) (dir : Text)

def Event.message : Event → Text
  | .reading e => e.message
  | .warning w => w.position.message w.problem.message
  | .found name dir => "Library project " ++ name ++ " at " ++ dir

/-- What a search found so far. -/
structure Search where
  /-- What tells visited directories apart, first that of the project that is built. -/
  visited : List Disk.Identity
  libraries : List Library
  problems : List Problem
  log : List Event

/-- What a search has yet to do. -/
inductive Task where
  /-- Look for the library `dir` of a project whose own directory is seen as `base`. -/
  | visit (base : Text) (user : Project) (dir : Text)
  /-- Add a library whose own libraries were all visited. -/
  | add (l : Library)

namespace Search

def report (s : Search) (problem : Problem) : Search :=
  { s with problems := s.problems ++ [problem] }

def note (s : Search) (events : List Event) : Search := { s with log := s.log ++ events }

/-- What tells the directory of a project file from others. -/
def place (disk : Disk) (file : Text) : Disk.Identity := disk.identity (Pathname.directory file)

def mark (disk : Disk) (s : Search) (f : Project.Found) : Search :=
  { s with visited := place disk f.file :: s.visited }

/-- Where the library `dir` of a project is looked for. -/
def locate (disk : Disk) (user : Project) (dir : Text) : Option Project.Found :=
  Project.locate disk (Pathname.join user.dir dir)

/-- The directory of a library that was found, as seen from the project that is built. -/
def libraryDir (base dir : Text) (f : Project.Found) : Text :=
  Path.join (Path.join base dir) f.inner

/-- The tasks a project brings: all libraries it names. -/
def visits (base : Text) (user : Project) : List Task :=
  (user.items .buildLibs).map (.visit base user)

/-- Read a library project, and get the tasks it brings. -/
def enter (disk : Disk) (s : Search) (dir : Text) (f : Project.Found) : Search × List Task :=
  let reading := Project.read disk f.file
  let t := s.note (reading.log.map .reading)
  match reading.result with
  | .error e => (t.report (.unreadable dir e), [])
  | .ok q =>
    (t.note (reading.warnings.map .warning ++ [.found q.name dir]),
      visits dir q ++ [.add ⟨dir, q⟩])

@[simp] theorem visited_enter (disk : Disk) (s : Search) (dir : Text) (f : Project.Found) :
    (enter disk s dir f).1.visited = s.visited := by
  unfold enter
  simp only
  split <;> rfl

theorem isFile_of_locate {disk : Disk} {user : Project} {dir : Text} {f : Project.Found}
    (h : locate disk user dir = some f) : disk.isFile f.file := by
  have findIn (inner around : Text) (h : Project.findIn disk inner around = some f) :
      disk.isFile f.file := by
    unfold Project.findIn at h
    obtain ⟨a, found, rfl⟩ := Option.map_eq_some_iff.1 h
    simp only [Disk.isFile, found, Option.isSome_some]
  unfold locate Project.locate at h
  split at h
  · rename_i here
    exact findIn _ _ (here.trans h)
  · obtain ⟨inner, _, found⟩ := List.exists_of_findSome?_eq_some h
    exact findIn _ _ found

/-- Do the tasks one after the other; those a library brings come before the rest. -/
def run (disk : Disk) (s : Search) : List Task → Search
  | [] => s
  | .add l :: rest => run disk { s with libraries := s.libraries ++ [l] } rest
  | .visit base user dir :: rest =>
    match _ : locate disk user dir with
    | none => run disk (s.report (.notFound (Path.join base dir))) rest
    | some f =>
      if _ : place disk f.file ∈ s.visited then run disk s rest
      else
        let entering := enter disk (s.mark disk f) (libraryDir base dir f) f
        run disk entering.1 (entering.2 ++ rest)
termination_by pending => (disk.unmet [] (place disk) s.visited, pending.length)
decreasing_by
  · exact Prod.Lex.right _ (Nat.lt_succ_self _)
  · exact Prod.Lex.right _ (Nat.lt_succ_self _)
  · exact Prod.Lex.right _ (Nat.lt_succ_self _)
  · refine Prod.Lex.left _ _ ?_
    rw [visited_enter]
    exact Disk.unmet_cons_lt (by simpa using isFile_of_locate (by assumption)) (by assumption)

/-- The search for the libraries of a project before it begins. -/
def start (disk : Disk) (p : Project) : Search := ⟨[disk.identity p.dir], [], [], []⟩

end Search

/-- All libraries of a project, in the order in which they are to be built. -/
def search (disk : Disk) (p : Project) : Search :=
  Search.run disk (Search.start disk p) (Search.visits [] p)

end Library

end BuildMatrix
