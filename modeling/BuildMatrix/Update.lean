import BuildMatrix.Disk.Writing
import BuildMatrix.LineDiff
import BuildMatrix.Script
import BuildMatrix.Text.Quoted

/-! Writing a generated file only if it changes. A file that is written anew gets a new time, and
everything that depends on it is built again, so a file whose normal form stays the same is left
alone. A dry run writes nothing and tells what would happen. -/

set_option autoImplicit false

namespace BuildMatrix.Update

structure Mode where
  dryRun : Bool
  /-- Write also what does not change. -/
  force : Bool
  deriving DecidableEq

inductive Outcome where
  | created
  | updated
  | unchanged
  | wouldCreate
  | wouldUpdate (diff : LineDiff)

/-- Whether the file was written. -/
def Outcome.isChange : Outcome → Bool
  | .created | .updated => true
  | .unchanged | .wouldCreate | .wouldUpdate _ => false

inductive Action where
  | read
  | createDirectory
  | write
  deriving DecidableEq

def Action.name : Action → Text
  | .read => "read"
  | .createDirectory => "create directory"
  | .write => "write"

structure Failure where
  action : Action
  path : Text
  error : IoError

def Failure.message (f : Failure) : Text :=
  "Unable to " ++ f.action.name ++ ' ' :: Text.quoted f.path ++ ": " ++ f.error.message

/-- The script in a file, or none if there is no file. -/
def present (d : Disk) (path : Text) : Except Failure (Option Script) :=
  match d.readText path with
  | .ok t => .ok (some (.ofText t))
  | .error .notFound => .ok none
  | .error e => .error ⟨.read, path, e⟩

/-- What would be written over, and what over it. -/
def differences (d : Disk) (path : Text) (old new : Script) : LineDiff :=
  { LineDiff.between path old.lines new.lines with modified := d.modified? path }

/-- What a run comes to, if no writing it does fails: it follows from what the file held before. A
dry run is never forced. -/
def outcomeFor (d : Disk) (path : Text) (content : Script) (mode : Mode) : Option Script → Outcome
  | none => if mode.dryRun then .wouldCreate else .created
  | some old =>
    if old.lines = content.lines ∧ (mode.dryRun ∨ ¬mode.force) then .unchanged
    else if mode.dryRun then .wouldUpdate (differences d path old content)
    else .updated

/-- Make the directory that a file lies in, as far as it does not exist. -/
def prepare (d : Disk) (path : Text) : Disk × Except Failure Unit :=
  match (Pathname.parent? path).filter (· ≠ []) with
  | none => (d, .ok ())
  | some dir =>
    match d.makeDirectories dir with
    | (e, .ok ()) => (e, .ok ())
    | (e, .error err) => (e, .error ⟨.createDirectory, dir, err⟩)

/-- Write a file whatever it holds. New directories stay, even if writing fails. -/
def overwrite (d : Disk) (path : Text) (content : Script) : Disk × Except Failure Unit :=
  match prepare d path with
  | (e, .error f) => (e, .error f)
  | (e, .ok ()) =>
    match e.write path (Text.toUtf8 content.text) with
    | .ok written => (written, .ok ())
    | .error err => (e, .error ⟨.write, path, err⟩)

/-- Give a file a content, unless it has it. -/
def run (d : Disk) (path : Text) (content : Script) (mode : Mode) : Disk × Except Failure Outcome :=
  match present d path with
  | .error f => (d, .error f)
  | .ok old =>
    let outcome := outcomeFor d path content mode old
    if outcome.isChange then
      match overwrite d path content with
      | (e, .ok ()) => (e, .ok outcome)
      | (e, .error f) => (e, .error f)
    else (d, .ok outcome)

end BuildMatrix.Update
