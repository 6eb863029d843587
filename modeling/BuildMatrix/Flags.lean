import BuildMatrix.Project.Basic

/-! The flags of the tools that a target is built with. They come in layers, and later ones override
earlier ones: what follows from single options; the flags a project sets for all builds and for one
configuration; those it sets for one compiler; and those of the environment. -/

set_option autoImplicit false

namespace BuildMatrix

/-- The values of the variables that add compiler flags. -/
structure Environment where
  value? : Text → Option Text

namespace Environment

def empty : Environment := ⟨fun _ => none⟩

/-- The variable for one configuration. -/
def specific : Configuration → Text
  | .debug => "CFLAGSD"
  | .release => "CFLAGSR"

/-- All variables that matter. -/
def names : List Text := ["CFLAGS", "CFLAGSR", "CFLAGSD", "NINJGEN_CFLAGS"]

/-- The variables for a configuration, in the order in which they are applied. -/
def order (c : Configuration) : List Text := ["CFLAGS", specific c, "NINJGEN_CFLAGS"]

def flags (e : Environment) (c : Configuration) : List Text :=
  ((order c).filterMap e.value?).map Text.trim

end Environment

namespace Flags

/-- An argument in quotes if it holds blanks and is not quoted by itself. -/
def argument (a : Text) : Text :=
  if a.any Text.isBlank ∧ a.head? ≠ some '"' then '"' :: a ++ ['"'] else a

/-- The flags in one row. Those without text do not count. -/
def text (flags : List Text) : Text := Text.spaced (flags.filter (· ≠ []))

def onlyIf (condition : Bool) (flags : List Text) : List Text := if condition then flags else []

variable (p : Project)

/-- The value of an option, taken as it is. -/
def given (k : OptionKey) : List Text := ((p.value? k).map Text.trim).toList

/-- A flag for every item of a list option. -/
def each (k : OptionKey) (lead : Text) : List Text := (p.items k).map fun i => lead ++ argument i

/-- What a project sets for a family, for all builds and then for one configuration. -/
def layered (family : FlagFamily) (c : Configuration) : List Text :=
  given p (.flags family .common) ++ given p (.flags family (.only c))

/-! ### Compiling -/

def ownFamily : Compiler → FlagFamily
  | .msvc => .msvc
  | .clang => .clang
  | .gcc => .gcc

/-- The macro that tells a source what kind of binary it is compiled for. -/
def kindMacro : ExeType → Text
  | .console => "-D_CONSOLE"
  | .window => "-D_WINDOWS"
  | .lib => "-D_LIB"
  | .dll | .ocx => "-D_USRDLL"

def clConfiguration : Configuration → List Text
  | .debug => ["-Od", "-Z7", "-D_DEBUG", if p.holds (.crt .debug) "dll" then "-MDd" else "-MTd"]
  | .release =>
    [if p.holds .optimize "speed" then "-O2" else "-O1", "-DNDEBUG",
      if p.holds (.crt .release) "dll" then "-MD" else "-MT"]

def clCompile (t : Target) (kind : ExeType) : List Text :=
  let always : List Text :=
    ["-nologo", "-EHsc", "-W" ++ Text.trim (p.valueD .warn), "-DWIN32", kindMacro kind]
  always ++ onlyIf (!p.isOn .permissive) ["-permissive-"] ++
    onlyIf (t.compiler = .clang) ["-m" ++ t.bitness.digits] ++
    onlyIf (t.bitness = .bits32 && p.isOn .stdcall) ["-Gz"] ++
    clConfiguration p t.configuration

def gccWarnings (level : Text) : List Text :=
  if level = "0" ∨ level = "1" then []
  else if level = "2" ∨ level = "3" then ["-Wall"]
  else ["-Wall", "-Wextra"]

def gccConfiguration : Configuration → List Text
  | .debug => ["-O0", "-g", "-D_DEBUG"]
  | .release => [if p.holds .optimize "speed" then "-O2" else "-Os", "-DNDEBUG"]

def gccCompile (t : Target) : List Text :=
  gccWarnings (Text.trim (p.valueD .warn)) ++ ["-m" ++ t.bitness.digits] ++
    onlyIf (p.isOn .permissive) ["-fpermissive"] ++ gccConfiguration p t.configuration

/-- All flags of the compiler. -/
def compile (t : Target) (kind : ExeType) (e : Environment) : List Text :=
  (if t.compiler.isClLike then clCompile p t kind else gccCompile p t) ++
    each p .incDirs "-I" ++ layered p .cflags t.configuration ++
    layered p (ownFamily t.compiler) t.configuration ++ e.flags t.configuration

/-! ### Resources and interfaces -/

/-- Whether a tool of the platform is used: always with its own compiler, on demand with a
compiler that is like it. -/
def usesPlatformTool (demand : OptionKey) : Compiler → Bool
  | .msvc => true
  | .clang => p.isOn demand
  | .gcc => false

/-- Whether resources are compiled with the platform's own tool. -/
def usesPlatformResources (c : Compiler) : Bool := usesPlatformTool p .msRc c

/-- Whether the platform's own tools link. -/
def usesPlatformLinker (c : Compiler) : Bool := usesPlatformTool p .msLinker c

def resources (t : Target) : List Text :=
  let platform := usesPlatformResources p t.compiler
  onlyIf platform ["-nologo"] ++
    onlyIf (t.compiler = .gcc && t.bitness = .bits32) ["-F pe-i386"] ++
    layered p .rc t.configuration ++
    onlyIf (t.configuration = .debug && p.isOn .debugRc)
      [if platform then "-d_DEBUG" else "-D_DEBUG"]

def interfaceBitness (t : Target) : List Text :=
  match t.compiler.isClLike, t.bitness with
  | true, .bits64 => ["-nologo", "-env x64"]
  | true, .bits32 => ["-nologo", "-env win32"]
  | false, .bits64 => ["--win64"]
  | false, .bits32 => ["--win32"]

def interfaces (t : Target) : List Text :=
  interfaceBitness t ++
    (match t.configuration with
      | .debug => ["-D_DEBUG"]
      | .release => ["-DNDEBUG"]) ++
    layered p .midl t.configuration

/-! ### Linking -/

def machine : Bitness → Text
  | .bits64 => "-MACHINE:X64"
  | .bits32 => "-MACHINE:X86"

/-- The option that holds the directories of libraries. -/
def libDirsKey (b : Bitness) : OptionKey :=
  if b = .bits32 ∧ p.hasValue .libDirs32 then .libDirs32 else .libDirs

def subsystem : ExeType → Text
  | .console => "-SUBSYSTEM:CONSOLE"
  | .window => "-SUBSYSTEM:WINDOWS"
  | .dll | .ocx | .lib => "-DLL"

def clLinkConfiguration : Configuration → List Text
  | .debug =>
    ("-DEBUG" : Text) :: ((p.filled? .natvis).map fun n => "-NATVIS:" ++ argument n).toList
  | .release => ["-OPT:REF", "-OPT:ICF"]

def clLink (t : Target) (kind : ExeType) : List Text :=
  let always : List Text := ["-nologo", machine t.bitness, subsystem kind]
  always ++ clLinkConfiguration p t.configuration ++
    each p (libDirsKey p t.bitness) "-LIBPATH:"

def gccLink (t : Target) (kind : ExeType) : List Text :=
  ["-m" ++ t.bitness.digits] ++ onlyIf (kind = .dll || kind = .ocx) ["-shared"] ++
    onlyIf (t.configuration = .debug) ["-g"] ++ each p (libDirsKey p t.bitness) "-L"

def link (t : Target) (kind : ExeType) : List Text :=
  (if t.compiler.isClLike then clLink p t kind else gccLink p t kind) ++
    layered p .link t.configuration

/-- The flags of the tool that makes static libraries. -/
def archive (t : Target) : List Text :=
  onlyIf t.compiler.isClLike ["-nologo", machine t.bitness]

/-- The libraries a project links with. -/
def libraries (c : Configuration) : List Text :=
  each p (.flags .libs .common) [] ++ each p (.flags .libs (.only c)) []

end Flags

end BuildMatrix
