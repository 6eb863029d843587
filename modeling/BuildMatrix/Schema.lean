import BuildMatrix.Matrix
import BuildMatrix.Version

/-! The options a project can set. Every key has one descriptor: its name, its default, whether it
is a flag or a text, whether generation needs a value, and the version that introduced it. What a
particular project sets is in `Project.Basic`. -/

set_option autoImplicit false

namespace BuildMatrix

/-- The version of this tool. Projects that need a newer one are refused. -/
def toolVersion : Version := ⟨1, 5, 0⟩

/-- The command lines to which flags are added layer by layer. -/
inductive FlagFamily where
  | cflags
  | msvc
  | clang
  | gcc
  | midl
  | rc
  | link
  | libs
  deriving DecidableEq

/-- Flags for all builds, or for those of one configuration. -/
inductive Layer where
  | common
  | only (configuration : Configuration)
  deriving DecidableEq

inductive OptionKey where
  | project
  | exeType
  | pch
  | pchSource
  | optimize
  | warn
  | flags (family : FlagFamily) (layer : Layer)
  | crt (configuration : Configuration)
  | incDirs
  | libDirs
  | libDirs32
  | buildLibs
  | targetDir (bitness : Bitness)
  | build (bitness : Bitness)
  | bitSuffix (bitness : Bitness)
  | debugSuffix
  | compilers
  | msLinker
  | msRc
  | natvis
  | permissive
  | stdcall
  | debugRc
  | makefile
  deriving DecidableEq

structure Descriptor where
  key : OptionKey
  name : Text
  default : Option Text
  isFlag : Bool
  required : Bool
  since : Version
  help : Text

namespace FlagFamily

def all : List FlagFamily := [.cflags, .msvc, .clang, .gcc, .midl, .rc, .link, .libs]

def name : FlagFamily → Text
  | .cflags => "cflags"
  | .msvc => "msvc"
  | .clang => "clang"
  | .gcc => "gcc"
  | .midl => "midl"
  | .rc => "rc"
  | .link => "link"
  | .libs => "libs"

def since : FlagFamily → Version
  | .msvc | .gcc => ⟨1, 5, 0⟩
  | .libs => ⟨1, 3, 0⟩
  | _ => ⟨1, 0, 0⟩

def help : FlagFamily → Text
  | .cflags => "flags passed to the compiler"
  | .msvc => "flags passed only to cl.exe"
  | .clang => "flags passed only to clang-cl"
  | .gcc => "flags passed only to g++"
  | .midl => "flags passed to the MIDL compiler"
  | .rc => "flags passed to the resource compiler"
  | .link => "flags passed to the linker"
  | .libs => "libraries to link"

/-- Whether the help says of the common layer that it is for all builds. -/
def namesAllBuilds : FlagFamily → Bool
  | .cflags | .libs => true
  | _ => false

end FlagFamily

namespace Layer

def all : List Layer := [.common, .only .release, .only .debug]

def abbreviation : Layer → Text
  | .common => "cmn"
  | .only .release => "rel"
  | .only .debug => "dbg"

def help (family : FlagFamily) : Layer → Text
  | .common => if family.namesAllBuilds then family.help ++ " in all builds" else family.help
  | .only k => family.help ++ " in " ++ k.name ++ " builds"

end Layer

namespace OptionKey

/-- All keys, in the order in which projects are written. -/
def all : List OptionKey :=
  [.project, .exeType, .pch, .pchSource, .optimize, .warn] ++
  (FlagFamily.all.flatMap fun f => Layer.all.map (.flags f)) ++
  [.crt .release, .crt .debug, .incDirs, .libDirs, .libDirs32, .buildLibs,
   .targetDir .bits32, .targetDir .bits64, .build .bits32, .build .bits64,
   .bitSuffix .bits32, .bitSuffix .bits64, .debugSuffix, .compilers, .msLinker, .msRc, .natvis,
   .permissive, .stdcall, .debugRc, .makefile]

def name : OptionKey → Text
  | .project => "Project"
  | .exeType => "exe_type"
  | .pch => "pch"
  | .pchSource => "pch_cpp"
  | .optimize => "optimize"
  | .warn => "warn"
  | .flags f l => f.name ++ '_' :: l.abbreviation
  | .crt .release => "crt_rel"
  | .crt .debug => "crt_dbg"
  | .incDirs => "inc_dirs"
  | .libDirs => "lib_dirs"
  | .libDirs32 => "lib_dirs32"
  | .buildLibs => "build_libs"
  | .targetDir b => "target_dir" ++ b.digits
  | .build b => b.digits ++ "bit"
  | .bitSuffix b => b.digits ++ "bit_suffix"
  | .debugSuffix => "debug_suffix"
  | .compilers => "compilers"
  | .msLinker => "ms_linker"
  | .msRc => "ms_rc"
  | .natvis => "natvis"
  | .permissive => "permissive"
  | .stdcall => "stdcall"
  | .debugRc => "debug_rc"
  | .makefile => "makefile"

/-- The value of an option that a project does not set. -/
def default : OptionKey → Option Text
  | .exeType => some "window"
  | .optimize => some "space"
  | .warn => some "4"
  | .crt _ => some "static"
  | .build .bits64 => some "true"
  | .build .bits32 => some "false"
  | .bitSuffix _ => some "false"
  | .debugSuffix | .msLinker | .msRc => some "true"
  | .compilers => some "msvc clang"
  | .permissive | .stdcall | .debugRc => some "false"
  | .makefile => some "missing"
  | _ => none

/-- Whether the option holds `true` or `false`. -/
def isFlag : OptionKey → Bool
  | .build _ | .bitSuffix _ | .debugSuffix | .msLinker | .msRc => true
  | .permissive | .stdcall | .debugRc => true
  | _ => false

/-- Whether generation needs a value that is not empty. -/
def isRequired : OptionKey → Bool
  | .project | .exeType | .optimize | .warn => true
  | _ => false

def since : OptionKey → Version
  | .pchSource => ⟨1, 4, 0⟩
  | .flags f _ => f.since
  | .libDirs | .libDirs32 | .bitSuffix _ | .debugSuffix | .makefile => ⟨1, 1, 0⟩
  | .buildLibs | .debugRc => ⟨1, 2, 0⟩
  | .compilers => ⟨1, 5, 0⟩
  | .natvis => ⟨1, 3, 0⟩
  | _ => ⟨1, 0, 0⟩

def help : OptionKey → Text
  | .project => "name of the project, used for the target binary"
  | .exeType => "[window | console | lib | dll | ocx]"
  | .pch => "precompiled header"
  | .pchSource => "source file that compiles the precompiled header"
  | .optimize => "[space | speed] optimization of release builds"
  | .warn => "[1-4] compiler warning level"
  | .flags f l => l.help f
  | .crt k => "[static | dll] C runtime of " ++ k.name ++ " builds"
  | .incDirs => "additional include directories, separated by ';'"
  | .libDirs => "additional library directories, separated by ';'"
  | .libDirs32 => "additional library directories of 32-bit builds"
  | .buildLibs => "directories of library projects to build and link, separated by ';'"
  | .targetDir b => "directory of the " ++ b.digits ++ "-bit target"
  | .build b => "generate " ++ b.digits ++ "-bit build scripts"
  | .bitSuffix b => "append '" ++ b.digits ++ "' to the name of " ++ b.digits ++ "-bit targets"
  | .debugSuffix => "append 'D' to the name of debug targets"
  | .compilers => "compilers to generate scripts for [msvc clang gcc]"
  | .msLinker =>
    "use link.exe and lib.exe instead of lld-link and llvm-lib for clang builds"
  | .msRc => "use rc.exe instead of llvm-rc for clang builds"
  | .natvis => "natvis file to embed in debug builds"
  | .permissive => "allow non-conforming code (omits -permissive-)"
  | .stdcall => "use the stdcall calling convention in 32-bit builds"
  | .debugRc => "define _DEBUG when compiling resources of debug builds"
  | .makefile => "[never | missing | always] when to write a makefile"

def descriptor (k : OptionKey) : Descriptor :=
  ⟨k, k.name, k.default, k.isFlag, k.isRequired, k.since, k.help⟩

/-- The key of a name, up to the case of ASCII letters. -/
def ofName? (t : Text) : Option OptionKey := all.find? fun k => Text.sameLetters k.name t

/-- The newest version any of the keys needs. -/
def newestSince (ks : List OptionKey) : Version :=
  (ks.map since).foldl Version.newest ⟨1, 0, 0⟩

end OptionKey

/-- The version that knows every option. -/
def schemaVersion : Version := OptionKey.newestSince OptionKey.all

/-- Whether the value of a flag switches it on. -/
def isYes (value : Text) : Bool :=
  Text.sameLetters (Text.trim value) "yes" || Text.sameLetters (Text.trim value) "true"

/-- The two values a flag is stored with. -/
def flagText (on : Bool) : Text := if on then "true" else "false"

end BuildMatrix
