import BuildMatrix.Library
import BuildMatrix.Ninja.Command

/-! The build script of one target. It is planned as paragraphs of statements: settings, then the
rules and edges for compiling, resources, interfaces, libraries and linking. All paths are relative
to the directory of the project, where ninja is run. -/

set_option autoImplicit false

namespace BuildMatrix

/-- What the build scripts of a project are made from. -/
structure Blueprint where
  project : Project
  /-- The directory for the scripts. -/
  buildDir : Text
  environment : Environment
  /-- The files that the resource script depends on. -/
  resourceFiles : List Text
  libraries : List Library

namespace Blueprint

/-- Why no script can be planned. -/
inductive Problem where
  | missingOption (k : OptionKey)
  | invalidValue (k : OptionKey) (value : Text)

def Problem.message : Problem → Text
  | .missingOption k => "Required option " ++ k.name ++ " has no value"
  | .invalidValue k value => "Invalid value " ++ Text.quoted value ++ " for option " ++ k.name

/-- The kind of binary to build, if all options that are needed have values. -/
def check (p : Project) : Except Problem ExeType :=
  match OptionKey.all.find? fun k => k.isRequired && !p.hasValue k with
  | some k => .error (.missingOption k)
  | none =>
    match p.exeType? with
    | some kind => .ok kind
    | none => .error (.invalidValue .exeType (p.valueD .exeType))

/-- The comment at the head of all generated files. -/
def generatedNote : Text :=
  "Generated by ninjgen from " ++ projectFileName ++
    ". Changes will be lost when it is generated again."

variable (b : Blueprint) (t : Target)

/-- The directory for the scripts in normal form. -/
def scriptDir : Text := Path.canonical b.buildDir

/-- Where the script of a target goes, seen from the directory of the project. -/
def scriptPath : Text := Path.join b.scriptDir t.scriptName

def pch? : Option Ninja.PrecompiledHeader := Ninja.precompiledHeader? b.project

def compileFlags (kind : ExeType) : List Text := Flags.compile b.project t kind b.environment

open Ninja

def settings : List Paragraph :=
  [[.comment generatedNote, .comment (b.project.name ++ ": " ++ t.title)],
   [.binding "ninja_required_version" "1.8"],
   [.binding "builddir" b.scriptDir, .binding "outdir" ("$builddir/" ++ t.suffix),
    .binding "resout" "$outdir/res"]]

def compileRules (kind : ExeType) : List Paragraph :=
  let flags := b.compileFlags t kind
  let pch : List Paragraph := match b.pch? with
    | some h => [[.rule (compilePchRule b.project t.compiler flags h)]]
    | none => []
  pch ++ [[.rule (compileRule b.project t.compiler flags b.pch?)]]

/-! ### Resources -/

/-- The compiled form of a resource script. -/
def resourceOutput (script : Text) : Artifact :=
  ⟨.resources, Path.stem script ++ if t.compiler.isClLike then ".res" else "_rc.o"⟩

/-- The compiled resources, if there is a resource script. -/
def resourceOutput? : Option Artifact := b.project.rcFile.map (resourceOutput t)

def resourceEdge (script : Text) : Edge where
  output := resourceOutput t script
  rule := .rc
  inputs := [.ofProject script]
  implicit := b.resourceFiles.map .ofProject
  bindings := []

def resources : List Paragraph :=
  match b.project.rcFile with
  | none => []
  | some script => [[.rule (rcRule b.project t)], [.edge (b.resourceEdge t script)]]

/-! ### Interfaces -/

/-- The header that is made from an interface. -/
def interfaceHeader (file : Text) : Artifact := .ofProject (Path.withExtension file "h")

/-- The type library that is made beside the header. -/
def typeLibrary (file : Text) : Artifact := .ofProject (Path.withExtension file "tlb")

def interfaceEdge (file : Text) : Edge where
  output := interfaceHeader file
  rule := .midl
  inputs := [.ofProject file]
  implicit := []
  bindings := [("tlb", (typeLibrary file).text)]

def typeLibraryEdge (file : Text) : Edge where
  output := typeLibrary file
  rule := .phony
  inputs := [interfaceHeader file]
  implicit := []
  bindings := []

def interfaces : List Paragraph :=
  match b.project.idlFiles with
  | [] => []
  | files => [.rule (midlRule b.project t)] ::
      files.map fun f => [.edge (interfaceEdge f), .edge (typeLibraryEdge f)]

def interfaceHeaders : List Artifact := b.project.idlFiles.map interfaceHeader

/-! ### Objects -/

/-- The object file of a source. -/
def object (source : Text) : Artifact :=
  ⟨.objects, Path.stem source ++ '.' :: t.compiler.objectExtension⟩

/-- The object file of the precompiled header, if there is one. -/
def pchObject? : Option Artifact := b.pch?.map fun h => object t h.source

/-- The sources to compile, apart from the one for the precompiled header. -/
def sources : List Text :=
  (b.project.sourceFiles t.configuration).filter fun f =>
    match b.pch? with
    | some h => Path.foldCase f ≠ Path.foldCase h.source
    | none => true

/-- What has to be there before sources are compiled. Which of them include the headers of
interfaces is unknown, so all wait for all headers: the precompiled header does, and the others
wait for it, or by themselves if there is none. -/
def sourceDependencies : List Artifact :=
  match b.pchObject? t with
  | some o => [o]
  | none => b.interfaceHeaders

def pchEdge (h : PrecompiledHeader) : Edge where
  output := object t h.source
  rule := .compilePch
  inputs := [.ofProject h.source]
  implicit := b.interfaceHeaders
  bindings := []

def compileEdge (source : Text) : Edge where
  output := object t source
  rule := .compile
  inputs := [.ofProject source]
  implicit := b.sourceDependencies t
  bindings := []

def objectEdges : List Paragraph :=
  let pch : List Paragraph := match b.pch? with
    | some h => [[.edge (b.pchEdge t h)]]
    | none => []
  pch ++ (b.sources t).map fun f => [.edge (b.compileEdge t f)]

/-- All object files, that of the precompiled header last. -/
def objects : List Artifact := (b.sources t).map (object t) ++ (b.pchObject? t).toList

/-! ### Libraries -/

/-- The artifact that is never there, so that what depends on it is always built. -/
def always : Artifact := .ofProject "force_buildlib"

def alwaysEdge : Edge := ⟨always, .phony, [], [], []⟩

def libraryOutput (l : Library) : Artifact := .ofProject (l.binaryPath t)

def libraryOutputs : List Artifact := b.libraries.map (libraryOutput t)

def libraryEdge (l : Library) : Edge where
  output := libraryOutput t l
  rule := .buildlib
  inputs := []
  implicit := [always]
  bindings :=
    [("libdir", Flags.argument l.dir), ("libscript", Flags.argument (b.scriptPath t))]

def libraryParagraphs : List Paragraph :=
  match b.libraries with
  | [] => []
  | libraries => [.rule buildlibRule] :: [.edge alwaysEdge] ::
      libraries.map fun l => [.edge (b.libraryEdge t l)]

/-! ### The binary -/

def binary : Artifact := .ofProject (b.project.binaryPath t)

def archiveEdge : Edge where
  output := b.binary t
  rule := .lib
  inputs := b.objects t
  implicit := b.libraryOutputs t
  bindings := []

/-- The libraries to link: those the project names, then those it builds. -/
def linkedLibraries : Text :=
  Text.spaced <| Flags.libraries b.project t.configuration ++
    b.libraries.map fun l => Flags.argument (l.binaryPath t)

def linkEdge : Edge where
  output := b.binary t
  rule := .link
  inputs := b.objects t ++ (b.resourceOutput? t).toList
  implicit := b.libraryOutputs t
  bindings := if b.linkedLibraries t = [] then [] else [("libs", b.linkedLibraries t)]

def final (kind : ExeType) : List Paragraph :=
  match kind with
  | .lib => [[.rule (libRule b.project t)], [.edge (b.archiveEdge t)]]
  | _ => [[.rule (linkRule b.project t kind)], [.edge (b.linkEdge t)]]

/-! ### The script -/

/-- The script of a target for a kind of binary. -/
def paragraphs (kind : ExeType) : List Paragraph :=
  b.settings t ++ b.compileRules t kind ++ b.resources t ++ b.interfaces t ++ b.objectEdges t ++
    b.libraryParagraphs t ++ b.final t kind

def plan : Except Problem (List Paragraph) := (check b.project).map (b.paragraphs t)

def script : Except Problem Script := (b.plan t).map Ninja.script

end Blueprint

end BuildMatrix
