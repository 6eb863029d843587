import BuildMatrix.Text.Basic

/-! Names of files as a disk takes them. Only `/` separates components, `..` is followed on the
disk and not in the name, and names are put together without being simplified. -/

set_option autoImplicit false

namespace BuildMatrix.Pathname

def components (p : Text) : List Text := p.splitOn '/'

def isRooted (p : Text) : Bool := p.head? == some '/'

/-- A name inside a directory. A rooted name stays as it is. -/
def join (dir p : Text) : Text :=
  if isRooted p ∨ dir = [] then p
  else if dir.getLast? = some '/' then dir ++ p
  else dir ++ '/' :: p

@[simp] theorem nil_join (p : Text) : join [] p = p := by simp [join]

/-- Components that lead nowhere. -/
def isFiller (c : Text) : Bool := c == "" || c == "."

/-- The name made of a first component and further ones in reverse. -/
def ofReversed (first : Text) (rest : List Text) : Text :=
  let name := ['/'].intercalate (first :: rest.reverse)
  if name = [] then "/" else name

/-- The proper ancestors of such a name, nearest first. -/
def ancestorsOf (first : Text) : List Text → List Text
  | [] => if first = [] then [] else [[]]
  | c :: rest =>
    if isFiller c then ancestorsOf first rest
    else ofReversed first (rest.dropWhile isFiller) :: ancestorsOf first rest

/-- The directories a name lies in, nearest first. The last one is empty, or the root. -/
def ancestors (p : Text) : List Text :=
  match components p with
  | [] => []
  | first :: rest => ancestorsOf first rest.reverse

def parent? (p : Text) : Option Text := (ancestors p).head?

/-- The directory a file lies in, `.` for a bare name. -/
def directory (p : Text) : Text :=
  match parent? p with
  | none => "."
  | some d => if d = [] then "." else d

/-- The last component, unless it leads up. -/
def last? (p : Text) : Option Text :=
  match (components p).reverse.dropWhile isFiller with
  | [] => none
  | c :: _ => if c = ".." then none else some c

/-- The components that tell names apart: a root, a leading `.`, and all that lead somewhere. -/
def parts (p : Text) : List Text :=
  match components p with
  | [] => []
  | first :: rest =>
    (if first ≠ [] then [first] else if isRooted p then ["/"] else []) ++
      rest.filter fun c => !isFiller c

end BuildMatrix.Pathname
