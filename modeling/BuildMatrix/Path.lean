import BuildMatrix.Text.Basic
import BuildMatrix.Text.LetterCase

/-! Paths as project files and resource scripts spell them, relative to the directory of the
project. Both slashes separate components. A path stands for a route: from the root or from the
directory, first some levels up, then down along names. The normal form of a path is its route,
written. Nothing here looks at a disk. -/

set_option autoImplicit false

namespace BuildMatrix.Path

def isSeparator (c : Char) : Bool := c == '/' || c == '\\'

/-- Where a path leads: `ups` levels up, and from there down along `names`. -/
structure Route where
  rooted : Bool
  ups : Nat
  names : List Text
  deriving DecidableEq

/-- One component further. Going up takes back a name; with none left it leads one level up, or
nowhere at the root. -/
def Route.follow (r : Route) (component : Text) : Route :=
  if component = "" ∨ component = "." then r
  else if component = ".." then
    if r.names ≠ [] then { r with names := r.names.dropLast }
    else if r.rooted then r
    else { r with ups := r.ups + 1 }
  else { r with names := r.names ++ [component] }

def isRooted : Text → Bool
  | [] => false
  | c :: _ => isSeparator c

def components (p : Text) : List Text := p.splitOnP isSeparator

def route (p : Text) : Route := (components p).foldl Route.follow ⟨isRooted p, 0, []⟩

def Route.components (r : Route) : List Text := List.replicate r.ups (".." : Text) ++ r.names

def Route.text (r : Route) : Text :=
  let body := ['/'].intercalate r.components
  if r.rooted then '/' :: body else if r.components = [] then "." else body

/-- The normal form. The empty path stays empty. -/
def canonical (p : Text) : Text := if p = [] then [] else (route p).text

def hasDrive : Text → Bool
  | a :: b :: _ => a.isAlpha && b == ':'
  | _ => false

/-- A path from a root, or with a drive letter. -/
def isAbsolute (p : Text) : Bool := isRooted p || hasDrive p

/-- A path as seen from where `dir` is named, when `path` is named in `dir`. -/
def join (dir path : Text) : Text :=
  if dir = "" ∨ dir = "." ∨ isAbsolute path then canonical path
  else canonical (dir ++ '/' :: path)

/-- The directory part, empty if there is none. -/
def parent (p : Text) : Text :=
  match Text.cutLast isSeparator p with
  | none => ""
  | some (dir, _) => if dir = [] then "/" else dir

/-- The last component. -/
def fileName (p : Text) : Text :=
  match Text.cutLast isSeparator p with
  | none => p
  | some (_, name) => name

/-- The file name up to its last dot; a leading dot begins no extension. -/
def stem (p : Text) : Text :=
  match Text.cutLast (· == '.') (fileName p) with
  | none => fileName p
  | some (before, _) => if before = [] then fileName p else before

/-- What follows the last dot of the file name, its ASCII letters in lower case. -/
def extension (p : Text) : Option Text :=
  if fileName p = ".." then none
  else match Text.cutLast (· == '.') (fileName p) with
    | none => none
    | some (before, after) => if before = [] then none else some (Text.lowerAscii after)

/-- The key under which paths that differ only in letter case are one. -/
def foldCase (p : Text) : Text := Text.lowercase (canonical p)

/-- The path with another extension. -/
def withExtension (p extension : Text) : Text :=
  let name := stem p ++ '.' :: extension
  if parent p = "" then name
  else if parent p = "/" then '/' :: name
  else parent p ++ '/' :: name

/-- Whether the extension is one of C or C++ source code. -/
def isSource (p : Text) : Bool :=
  match extension p with
  | none => false
  | some e => e == "c" || e == "cc" || e == "cpp" || e == "cxx"

end BuildMatrix.Path
