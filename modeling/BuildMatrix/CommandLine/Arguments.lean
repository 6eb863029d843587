import BuildMatrix.Text.Basic

/-! The arguments of the command line. Switches and values may come in any order and are given once
at most; letters can be joined (`-nb out`), and a value may follow its letter directly (`-bout`) or
its name after an equals sign. A value that has a default can be left out, where an option follows
or nothing at all. After `--` every word is a file. Whoever asks for the version gets nothing else,
and the words after that are not read. -/

set_option autoImplicit false

namespace BuildMatrix.CommandLine

inductive Switch where
  | dryRun
  | force
  | makefile
  | debug
  deriving DecidableEq

/-- What takes a value. -/
inductive Slot where
  | file
  | directory
  | buildDir
  | tool
  deriving DecidableEq

def Switch.ofName? (name : Text) : Option Switch :=
  if name = "dry-run" then some .dryRun
  else if name = "force" then some .force
  else if name = "makefile" then some .makefile
  else if name = "debug" then some .debug
  else none

def Switch.ofLetter? (c : Char) : Option Switch := if c = 'n' then some .dryRun else none

def Slot.ofName? (name : Text) : Option Slot := if name = "builddir" then some .buildDir else none

def Slot.ofLetter? (c : Char) : Option Slot :=
  if c = 'C' then some .directory
  else if c = 'b' then some .buildDir
  else if c = 't' then some .tool
  else none

def defaultBuildDir : Text := "build"

/-- The value of a slot that is named without one. -/
def Slot.default? : Slot → Option Text
  | .buildDir => some defaultBuildDir
  | .file | .directory | .tool => none

structure Arguments where
  switches : List Switch
  values : List (Slot × Text)

namespace Arguments

def empty : Arguments := ⟨[], []⟩

def has (a : Arguments) (s : Switch) : Bool := s ∈ a.switches

def value? (a : Arguments) (s : Slot) : Option Text := a.values.lookup s

/-- The directory for the build scripts. -/
def buildDir (a : Arguments) : Text := (a.value? .buildDir).getD defaultBuildDir

def turnOn? (a : Arguments) (s : Switch) : Option Arguments :=
  if s ∈ a.switches then none else some { a with switches := s :: a.switches }

def fill? (a : Arguments) (s : Slot) (value : Text) : Option Arguments :=
  if (a.value? s).isSome then none else some { a with values := (s, value) :: a.values }

/-- Words read so far. -/
inductive Partial where
  /-- They ask for the version. -/
  | version
  /-- They are arguments, and a slot may wait for the next word. -/
  | arguments (a : Arguments) (waiting : Option Slot)

def complete (a : Option Arguments) : Option Partial := a.map fun b => .arguments b none

/-- A value without the equals signs that set it off. -/
def unmarked (value : Text) : Text := value.dropWhile (· == '=')

/-- The letters after a dash. -/
def addLetters (a : Arguments) : Text → Option Partial
  | [] => some (.arguments a none)
  | c :: r =>
    if c = 'V' then some .version
    else match Slot.ofLetter? c, Switch.ofLetter? c with
      | some slot, _ =>
        if r = [] then some (.arguments a (some slot)) else complete (a.fill? slot (unmarked r))
      | none, some s => (a.turnOn? s).bind fun b => b.addLetters r
      | none, none => none

/-- A name after two dashes, and the value after an equals sign. -/
def addName (a : Arguments) (name : Text) (value : Option Text) : Option Partial :=
  if name = "version" then some .version
  else match Slot.ofName? name, Switch.ofName? name with
    | some slot, _ =>
      match value with
      | none => some (.arguments a (some slot))
      | some v => complete (a.fill? slot (unmarked v))
    | none, some s => complete (a.turnOn? s)
    | none, none => none

/-- A single dash is a word like any other. -/
def isOption : Text → Bool
  | '-' :: _ :: _ => true
  | _ => false

def addOption (a : Arguments) (word : Text) : Option Partial :=
  let body := word.dropWhile (· == '-')
  if ("--" : Text).isPrefixOf word then
    match Text.cutFirst (· == '=') body with
    | none => a.addName body none
    | some (name, value) => a.addName name (some value)
  else a.addLetters body

/-- Arguments after which no slot waits for a value. -/
def settle? (a : Arguments) : Option Slot → Option Arguments
  | none => some a
  | some slot => slot.default?.bind (a.fill? slot)

end Arguments

/-- What the words of a command line ask for. -/
inductive Request where
  | version
  | run (a : Arguments)

namespace Request

open Arguments (Partial)

def addWords : Partial → List Text → Option Request
  | .version, _ => some .version
  | .arguments a waiting, [] => (a.settle? waiting).map .run
  | .arguments a waiting, w :: r =>
    if Arguments.isOption w then
      (a.settle? waiting).bind fun b =>
        if w = "--" then (r.foldlM (fun (c : Arguments) f => c.fill? .file f) b).map .run
        else (b.addOption w).bind fun next => addWords next r
    else (a.fill? (waiting.getD .file) w).bind fun b => addWords (.arguments b none) r

/-- What the words ask for, or nothing if they make no sense. -/
def ofWords? (words : List Text) : Option Request := addWords (.arguments .empty none) words

end Request

end BuildMatrix.CommandLine
