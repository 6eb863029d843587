import BuildMatrix.Script

/-! The language of ninja files, as far as build scripts need it. A build edge keeps its paths apart
and unescaped; only its text joins them. Statements stand in paragraphs with blank lines between
them. -/

set_option autoImplicit false

namespace BuildMatrix.Ninja

/-- What the path of an artifact starts from. -/
inductive Place where
  /-- The directory of the project. -/
  | project
  /-- The directory of a target's object files. -/
  | objects
  /-- The directory of a target's compiled resources. -/
  | resources
  deriving DecidableEq

/-- A file that a build reads or makes. -/
structure Artifact where
  place : Place
  path : Text
  deriving DecidableEq

/-- A file seen from the directory of the project. -/
def Artifact.ofProject (path : Text) : Artifact := ⟨.project, path⟩

/-- The variable part that a path begins with. -/
def Place.variable : Place → Text
  | .project => []
  | .objects => "$outdir/"
  | .resources => "$resout/"

/-- Characters that end a path or begin a variable get a dollar sign. -/
def escapedChar (c : Char) : Text := if c = '$' ∨ c = ' ' ∨ c = ':' then ['$', c] else [c]

def escaped (path : Text) : Text := path.flatMap escapedChar

def Artifact.text (a : Artifact) : Text := a.place.variable ++ escaped a.path

inductive RuleName where
  | compilePch
  | compile
  | rc
  | midl
  | buildlib
  | lib
  | link
  /-- The rule that runs nothing. Ninja declares it by itself. -/
  | phony
  deriving DecidableEq

def RuleName.text : RuleName → Text
  | .compilePch => "compilePCH"
  | .compile => "compile"
  | .rc => "rc"
  | .midl => "midl"
  | .buildlib => "buildlib"
  | .lib => "lib"
  | .link => "link"
  | .phony => "phony"

structure Rule where
  name : RuleName
  bindings : List (Text × Text)

/-- How one artifact is made from others. -/
structure Edge where
  output : Artifact
  rule : RuleName
  inputs : List Artifact
  /-- Artifacts that have to be there, but are no arguments of the command. -/
  implicit : List Artifact
  bindings : List (Text × Text)

inductive Statement where
  | comment (text : Text)
  | binding (name value : Text)
  | rule (r : Rule)
  | edge (e : Edge)

abbrev Paragraph := List Statement

def bindingText (b : Text × Text) : Text := b.1 ++ " = " ++ b.2

/-- A binding that belongs to a rule or an edge. -/
def innerBindingText (b : Text × Text) : Text := "  " ++ bindingText b

/-- A text after a separator, or nothing if the text is empty. -/
def following (separator t : Text) : Text := if t = [] then [] else separator ++ t

def Edge.line (e : Edge) : Text :=
  "build " ++ e.output.text ++ " : " ++ e.rule.text ++
    following " " (Text.spaced (e.inputs.map Artifact.text)) ++
    following " | " (Text.spaced (e.implicit.map Artifact.text))

def Statement.texts : Statement → List Text
  | .comment t => ["# " ++ t]
  | .binding name value => [bindingText (name, value)]
  | .rule r => ("rule " ++ r.name.text) :: r.bindings.map innerBindingText
  | .edge e => e.line :: e.bindings.map innerBindingText

def script (ps : List Paragraph) : Script := .ofParagraphs (ps.map (·.flatMap Statement.texts))

/-- All build edges, in order. -/
def edges (ps : List Paragraph) : List Edge :=
  ps.flatten.filterMap fun
    | .edge e => some e
    | _ => none

/-- All rules that are declared, in order. -/
def rules (ps : List Paragraph) : List Rule :=
  ps.flatten.filterMap fun
    | .rule r => some r
    | _ => none

end BuildMatrix.Ninja
