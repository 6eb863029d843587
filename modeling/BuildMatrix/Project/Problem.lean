import BuildMatrix.Disk.Basic
import BuildMatrix.Text.Lines
import BuildMatrix.Text.Quoted
import BuildMatrix.Version

/-! What can be wrong with a project file. A warning concerns one line, and the rest is read all the
same. Only a file that cannot be read, or that needs a newer version, is refused. -/

set_option autoImplicit false

namespace BuildMatrix.Project

inductive Warning where
  | unknownOption (name : Text)
  | missingSeparator (line : Text)
  | unknownSection (name : Text)
  | noSection
  | unreadableInclude (path : Text) (error : IoError)
  | includeCycle (path : Text)
  | invalidPattern (pattern : Text) (name : Text) (reason : Text)
  | unlistedDirectory (pattern : Text) (error : IoError)
  | invalidVersion (word : Text)

def invalidVersionMessage (word : Text) : Text :=
  "Invalid version number: " ++ Text.quoted word

def Warning.message : Warning → Text
  | .unknownOption name => "Unrecognized option: " ++ name
  | .missingSeparator line => "Missing `:' or `=' in " ++ Text.quoted line
  | .unknownSection name => "Unknown section: " ++ name
  | .noSection => "Line is not part of any section"
  | .unreadableInclude path e => "Unable to read included file " ++ path ++ ": " ++ e.message
  | .includeCycle path => path ++ " is already being included"
  | .invalidPattern pattern name reason =>
    "Invalid file pattern " ++ Text.quoted pattern ++ ": error parsing glob '" ++ name ++ "': " ++
      reason
  | .unlistedDirectory pattern e =>
    "Unable to list files for " ++ Text.quoted pattern ++ ": " ++ e.message
  | .invalidVersion word => invalidVersionMessage word

inductive ReadError where
  | unreadable (file : Text) (error : IoError)
  | versionTooNew (file : Text) (required : Version) (current : Version)

def ReadError.message : ReadError → Text
  | .unreadable file e => "Unable to read " ++ file ++ ": " ++ e.message
  | .versionTooNew file required current =>
    file ++ " requires version " ++ required.text ++ " or higher, but this is version " ++
      current.text

/-- What happened while a project was read, in order. -/
inductive Event where
  | warning (w : Located Warning)
  | reviving (name : Text)
  | including (file : Text)
  | derivedName (name : Text)
  | derivedFiles (files : List Text)

def Event.message : Event → Text
  | .warning w => w.position.message w.problem.message
  | .reviving name => "Reviving option " ++ name
  | .including file => "Including " ++ Text.quoted file
  | .derivedName name => "Using " ++ Text.quoted name ++ " as project name"
  | .derivedFiles files => "No files listed, using " ++ Text.quotedList files

def Event.warning? : Event → Option (Located Warning)
  | .warning w => some w
  | _ => none

end BuildMatrix.Project
