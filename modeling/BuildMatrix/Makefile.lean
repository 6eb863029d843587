import BuildMatrix.Blueprint

/-! A makefile that gives every target a short name and runs its build script. -/

set_option autoImplicit false

namespace BuildMatrix.Makefile

def fileName : Text := "makefile"

/-- Whether a project wants a makefile, given whether there is one. -/
def isWanted (p : Project) (present : Bool) : Bool :=
  if p.holds .makefile "always" then true
  else if p.holds .makefile "never" then false
  else !present

/-- The target built by default: the first for release, or else the first. -/
def default? (ts : List Target) : Option Target :=
  match ts.find? fun t => t.configuration ≠ .debug with
  | some t => some t
  | none => ts.head?

/-- The command that runs the build script of a target. -/
def recipe (t : Target) : Text := "\tninja -f $(BUILD_DIR)/" ++ t.scriptName

def buildParagraph (t : Target) : List Text := [t.makeName ++ ":", recipe t]

def cleanParagraph (ts : List Target) : List Text :=
  "clean:" :: ts.map fun t => recipe t ++ " -t clean"

def phonyLine (ts : List Target) : Text :=
  ".PHONY: " ++ Text.spaced (("all" : Text) :: ts.map Target.makeName ++ [("clean" : Text)])

def paragraphs (p : Project) (ts : List Target) (buildDir : Text) : List (List Text) :=
  let head : List (List Text) :=
    [["# " ++ Blueprint.generatedNote, "# " ++ p.name],
     ["BUILD_DIR = " ++ Path.canonical buildDir]]
  let all : List (List Text) := match default? ts with
    | some t => [["all: " ++ t.makeName]]
    | none => []
  head ++ all ++ ts.map buildParagraph ++ [cleanParagraph ts, [phonyLine ts]]

/-- The makefile for some targets of a project. -/
def script (p : Project) (ts : List Target) (buildDir : Text) : Script :=
  .ofParagraphs (paragraphs p ts buildDir)

end BuildMatrix.Makefile
