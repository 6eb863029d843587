import BuildMatrix.Project.Basic
import BuildMatrix.Text.Quoted

/-! Which targets a project is built for, and where the binary of each goes. -/

set_option autoImplicit false

namespace BuildMatrix.Project

/-- The targets a project asks for, and the names it gives that no compiler has. -/
structure Selection where
  targets : List Target
  unknownCompilers : List Text

def unknownCompilerMessage (name : Text) : Text :=
  "Unknown compiler " ++ Text.quoted name ++ " in option " ++ OptionKey.compilers.name

variable (p : Project)

def compilers : List Compiler := (p.items .compilers).filterMap Compiler.ofName?

def selection : Selection where
  targets := Target.all.filter fun t => t.compiler ∈ p.compilers && p.isOn (.build t.bitness)
  unknownCompilers := (p.items .compilers).filter fun n => (Compiler.ofName? n).isNone

/-- The kind of binary that file names go by, also when the project gives an unknown kind. -/
def binaryKind : ExeType := p.exeType?.getD .window

/-- The name of a binary without extension. -/
def binaryStem (t : Target) : Text :=
  p.name ++
    (if p.isOn (.bitSuffix t.bitness) then t.bitness.digits else []) ++
    (if t.configuration = .debug ∧ p.isOn .debugSuffix then ['D'] else [])

/-- The file name of a binary, as the tools of a compiler expect it. -/
def binaryFile (t : Target) : Text :=
  let stem := p.binaryStem t
  match t.compiler.isClLike, p.binaryKind with
  | true, .lib => stem ++ ".lib"
  | true, .dll => stem ++ ".dll"
  | true, .ocx => stem ++ ".ocx"
  | true, .window | true, .console => stem ++ ".exe"
  | false, .lib => "lib" ++ stem ++ ".a"
  | false, .dll | false, .ocx => "lib" ++ stem ++ ".so"
  | false, .window | false, .console => stem

/-- The directory for binaries where the project sets none. -/
def usualBinaryDir (b : Bitness) : Text :=
  let base : Text := if p.binaryKind = .lib then "lib" else "bin"
  match b with
  | .bits64 => base
  | .bits32 => base ++ "32"

/-- The binary of a target, seen from the directory of the project. -/
def binaryPath (t : Target) : Text :=
  Path.join ((p.filled? (.targetDir t.bitness)).getD (p.usualBinaryDir t.bitness))
    (p.binaryFile t)

end BuildMatrix.Project
