import BuildMatrix.Disk.Counting
import BuildMatrix.Pattern
import BuildMatrix.Project.Item
import BuildMatrix.Project.Problem

/-! What the entries of file lists contribute. An entry names a file, or a pattern for the files of
one directory, or another project file whose own list is taken over. Included files may include
further ones; a file that is being included is not included again, and that ends the recursion. -/

set_option autoImplicit false

namespace BuildMatrix.Project

inductive Entry where
  | nothing
  | path (path : Text)
  | pattern (pattern : Text)
  | include (path : Text)
  deriving DecidableEq

/-- The project file that an entry includes. -/
def Entry.includePath? (entry : Text) : Option Text :=
  match (".include" : Text).isPrefixOf? entry with
  | none => none
  | some rest => if Text.trim rest = [] then none else some (Text.trim rest)

def Entry.ofText (entry : Text) : Entry :=
  if entry = [] then .nothing
  else match Entry.includePath? entry with
    | some p => .include p
    | none => if Line.isPattern entry then .pattern entry else .path entry

/-- The files of a pattern's directory that the pattern stands for, ascending. The pattern and the
results are relative to `dir`, and only the last component may hold wildcards. -/
def expandPattern [PatternLanguage] (disk : Disk) (dir pattern : Text) :
    Except Warning (List Text) :=
  let name := Path.fileName pattern
  let inner := Path.parent pattern
  match PatternLanguage.compile name with
  | .error reason => .error (.invalidPattern pattern name reason)
  | .ok isMatch =>
    match disk.fileNames (Pathname.join dir inner) with
    | .error e => .error (.unlistedDirectory pattern e)
    | .ok names => .ok (Text.sort ((names.filter isMatch).map (Path.join inner)))

/-- The files an entry adds, and what happened meanwhile. -/
structure Contribution where
  paths : List Text
  log : List Event

def Contribution.ofPaths (ps : List Text) : Contribution := ⟨ps, []⟩

def Contribution.ofEvent (e : Event) : Contribution := ⟨[], [e]⟩

def Contribution.ofWarning (position : Position) (w : Warning) : Contribution :=
  ofEvent (.warning ⟨position, w⟩)

/-- One contribution after the other. -/
def Contribution.join (cs : List Contribution) : Contribution :=
  ⟨cs.flatMap Contribution.paths, cs.flatMap Contribution.log⟩

/-- What an entry contributes, declared at `position` in a file whose directory is `base` as seen
from the project directory `dir`. `included` says what included project files contribute. -/
def Entry.contribution [PatternLanguage] (disk : Disk) (dir base : Text) (position : Position)
    (included : Text → Contribution) : Entry → Contribution
  | .nothing => .ofPaths []
  | .path p => .ofPaths [Path.join base p]
  | .pattern p =>
    match expandPattern disk (Pathname.join dir base) p with
    | .ok files => .ofPaths (files.map (Path.join base))
    | .error w => .ofWarning position w
  | .include p => included (Path.join base p)

/-- What the project file `target`, as seen from `dir`, contributes to one that includes it at
`position` while the files `reading` are being read. -/
def includeContribution [PatternLanguage] (disk : Disk) (dir : Text)
    (reading : List Disk.Identity) (position : Position) (target : Text) : Contribution :=
  let file := Pathname.join dir target
  if _ : disk.identity file ∈ reading then .ofWarning position (.includeCycle target)
  else match _ : disk.findFile file with
    | .error e => .ofWarning position (.unreadableInclude target e)
    | .ok (_, content) =>
      .join <| .ofEvent (.including file) ::
        (Item.listed (Text.ofUtf8 content)).map fun (n, e) =>
          (Entry.ofText e).contribution disk dir (Path.parent target) (.ofLine file n) fun t =>
            includeContribution disk dir (disk.identity file :: reading) (.ofLine file n) t
termination_by disk.unmet dir (fun x => disk.identity (Pathname.join dir x)) reading
decreasing_by
  exact Disk.unmet_cons_lt (Disk.isFile_of_findFile (by assumption)) (by assumption)

/-- What an entry contributes while the files `reading` are being read. -/
def contribution [PatternLanguage] (disk : Disk) (dir : Text) (reading : List Disk.Identity)
    (base : Text) (position : Position) (e : Entry) : Contribution :=
  e.contribution disk dir base position (includeContribution disk dir reading position)

end BuildMatrix.Project
