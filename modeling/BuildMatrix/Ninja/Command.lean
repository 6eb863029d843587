import BuildMatrix.Flags
import BuildMatrix.Ninja.Statement

/-! The rules of a build script: which tools run, and with which arguments. -/

set_option autoImplicit false

namespace BuildMatrix.Ninja

/-- A command made of parts. Empty parts leave no trace. -/
def command (parts : List Text) : Text := Text.spaced (parts.filter (· ≠ []))

/-- A rule that runs a command. -/
def running (name : RuleName) (line description : Text) : Rule :=
  ⟨name, [("command", line), ("description", description)]⟩

/-- The precompiled header of a project, with the source that compiles it. -/
structure PrecompiledHeader where
  header : Text
  source : Text

def precompiledHeader? (p : Project) : Option PrecompiledHeader :=
  match p.pchHeader?, p.pchSource? with
  | some header, some source => some ⟨header, source⟩
  | _, _ => none

def compilerProgram : Compiler → Text
  | .msvc => "cl.exe"
  | .clang => "clang-cl"
  | .gcc => "g++"

/-- How ninja learns which headers a source includes. -/
def headerTracking (c : Compiler) : List (Text × Text) :=
  if c.isClLike then [("deps", "msvc")] else [("deps", "gcc"), ("depfile", "$out.d")]

/-- Whether a compilation makes the precompiled header or uses it. -/
inductive PchRole where
  | makes
  | uses

def PchRole.flag : PchRole → Text
  | .makes => "-Yc"
  | .uses => "-Yu"

/-- The arguments about a precompiled header. -/
def pchArguments (p : Project) (role : PchRole) (header : Text) : Text :=
  role.flag ++ Flags.argument header ++ " -Fp$outdir/" ++ p.name ++ ".pch"

/-- The command that compiles, `pch` being the arguments about a precompiled header. -/
def compileCommand (c : Compiler) (flags : List Text) (pch : Text) : Text :=
  if c.isClLike then
    command [compilerProgram c, Flags.text flags, "-showIncludes -c", pch, "-Fo$out $in"]
  else command [compilerProgram c, "-MMD -MF $out.d", Flags.text flags, "-c $in -o $out"]

def compiling (c : Compiler) (name : RuleName) (line description : Text) : Rule :=
  ⟨name, headerTracking c ++ (running name line description).bindings⟩

def compilePchRule (p : Project) (c : Compiler) (flags : List Text) (h : PrecompiledHeader) :
    Rule :=
  compiling c .compilePch (compileCommand c flags (pchArguments p .makes h.header))
    "Compiling precompiled header $in"

def compileRule (p : Project) (c : Compiler) (flags : List Text) (h : Option PrecompiledHeader) :
    Rule :=
  let pch : Text := match h with
    | some h => pchArguments p .uses h.header
    | none => []
  compiling c .compile (compileCommand c flags pch) "Compiling $in"

def rcRule (p : Project) (t : Target) : Rule :=
  let flags := Flags.text (Flags.resources p t)
  let line : Text :=
    if t.compiler = .gcc then command ["windres", flags, "$in -O coff -o $out"]
    else if Flags.usesPlatformResources p t.compiler then command ["rc.exe", flags, "-fo$out $in"]
    else command ["llvm-rc", flags, "-FO $out $in"]
  running .rc line "Compiling resources $in"

def midlRule (p : Project) (t : Target) : Rule :=
  let flags := Flags.text (Flags.interfaces p t)
  let line : Text :=
    if t.compiler = .gcc then command ["widl", flags, "-h -H $out -t -T $tlb $in"]
    else command ["midl.exe", flags, "-h $out -tlb $tlb $in"]
  running .midl line "Compiling interface $in"

/-- Libraries are always built; ninja itself finds out whether they change. -/
def buildlibRule : Rule :=
  ⟨.buildlib, [("command", "ninja -C $libdir -f $libscript"),
    ("description", "Building library $libdir"), ("restat", "1")]⟩

def libRule (p : Project) (t : Target) : Rule :=
  let flags := Flags.text (Flags.archive t)
  let line : Text :=
    if t.compiler = .gcc then "ar rcs $out $in"
    else if Flags.usesPlatformLinker p t.compiler then
      command ["lib.exe", flags, "-out:$out $in"]
    else command ["llvm-lib", flags, "-out:$out $in"]
  running .lib line "Creating library $out"

def linkRule (p : Project) (t : Target) (kind : ExeType) : Rule :=
  let flags := Flags.text (Flags.link p t kind)
  let line : Text :=
    if t.compiler = .gcc then command ["g++", flags, "-o $out $in $libs"]
    else if Flags.usesPlatformLinker p t.compiler then
      command ["link.exe", flags, "-out:$out $in $libs"]
    else command ["lld-link", flags, "-out:$out $in $libs"]
  running .link line "Linking $out"

end BuildMatrix.Ninja
