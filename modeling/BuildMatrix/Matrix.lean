import BuildMatrix.Text.Basic

/-! The build matrix: every combination of a compiler, a bitness and a configuration is a target
with files of its own. -/

set_option autoImplicit false

namespace BuildMatrix

inductive Configuration where
  | debug
  | release
  deriving DecidableEq

def Configuration.name : Configuration → Text
  | .debug => "debug"
  | .release => "release"

inductive Bitness where
  | bits64
  | bits32
  deriving DecidableEq

def Bitness.digits : Bitness → Text
  | .bits64 => "64"
  | .bits32 => "32"

inductive Compiler where
  | msvc
  | clang
  | gcc
  deriving DecidableEq

namespace Compiler

def all : List Compiler := [.msvc, .clang, .gcc]

def name : Compiler → Text
  | .msvc => "msvc"
  | .clang => "clang"
  | .gcc => "gcc"

def ofName? (t : Text) : Option Compiler := all.find? fun c => Text.sameLetters c.name t

/-- Whether the compiler takes its arguments as `cl.exe` does. -/
def isClLike : Compiler → Bool
  | .msvc | .clang => true
  | .gcc => false

def objectExtension (c : Compiler) : Text := if c.isClLike then "obj" else "o"

end Compiler

structure Target where
  compiler : Compiler
  bitness : Bitness
  configuration : Configuration
  deriving DecidableEq

namespace Target

/-- All targets: by compiler, then 64 bits first, then debug first. -/
def all : List Target :=
  Compiler.all.flatMap fun c =>
    [Bitness.bits64, .bits32].flatMap fun b =>
      [Configuration.debug, .release].map fun k => ⟨c, b, k⟩

/-- The name of the directory for intermediate files. -/
def suffix (t : Target) : Text :=
  t.compiler.name ++ '_' :: t.configuration.name ++ t.bitness.digits

def scriptName (t : Target) : Text := t.suffix ++ ".ninja"

def ofSuffix? (s : Text) : Option Target := all.find? fun t => t.suffix == s

/-- The target in words. -/
def title (t : Target) : Text :=
  t.compiler.name ++ ' ' :: t.configuration.name ++ ' ' :: t.bitness.digits ++ "-bit"

/-- The short name of the target in the makefile. -/
def makeName (t : Target) : Text :=
  let base : Text := match t.compiler, t.configuration with
    | .msvc, k => k.name
    | c, .debug => c.name ++ "D"
    | c, .release => c.name
  match t.bitness with
  | .bits64 => base
  | .bits32 => base ++ "32"

end Target

end BuildMatrix
