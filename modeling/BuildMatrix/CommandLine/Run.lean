import BuildMatrix.CommandLine.Generation
import BuildMatrix.CommandLine.Listing

/-! A whole run of the command line, as a function of the disk, the environment and the
arguments. -/

set_option autoImplicit false

namespace BuildMatrix.CommandLine

/-- What a run leaves behind, apart from the disk. -/
structure Report where
  code : Nat
  output : List Output

namespace Report

def ofEnding (details : Bool) (e : Ending) : Report :=
  match e.error with
  | none => ⟨0, e.output.filter (·.isShown details)⟩
  | some t => ⟨1, e.output.filter (·.isShown details) ++ [.message .error .program t]⟩

/-- The text of the results. -/
def results (r : Report) : Text := r.output.flatMap Output.resultText

/-- The text of the messages. -/
def messages (r : Report) : Text := r.output.flatMap Output.messageText

end Report

/-- Run a subtool, or else generate. -/
def execute (disk : Disk) (e : Environment) (a : Arguments) : Disk × Ending :=
  match a.value? .tool with
  | some name => (disk, runTool disk a name)
  | none => generate disk e a

/-- Enter the directory that was asked for. -/
def enterDirectory (disk : Disk) (a : Arguments) : Except Text Disk :=
  match a.value? .directory with
  | none => .ok disk
  | some dir =>
    match disk.enter dir with
    | .ok d => .ok d
    | .error e =>
      .error ("Unable to change directory to " ++ Text.quoted dir ++ ": " ++ e.message)

/-- A run with arguments that make sense. -/
def run (disk : Disk) (e : Environment) (a : Arguments) : Disk × Report :=
  let details := a.has .debug
  match enterDirectory disk a with
  | .error t => (disk, .ofEnding details ⟨[], some t⟩)
  | .ok entered =>
    let (d, ending) := execute entered e a
    (d, .ofEnding details (ending.after [.debug .program "Debug messages enabled."]))

/-- The program and the version of its package. -/
def versionLine : Text := "ninjgen 1.5.0"

/-- A run with any words as arguments. -/
def runWords (disk : Disk) (e : Environment) (words : List Text) : Disk × Report :=
  match Request.ofWords? words with
  | some .version => (disk, ⟨0, [.line versionLine]⟩)
  | some (.run a) => run disk e a
  | none => (disk, .ofEnding false ⟨[], some "Invalid arguments"⟩)

end BuildMatrix.CommandLine
