import BuildMatrix.CommandLine.Run

/-! The program. It takes a picture of the directories around the current one, runs the command line
on the picture, and then makes the changes on the real disk. The picture reaches as far as the
directory above the current one; links are left out. -/

set_option autoImplicit false

namespace BuildMatrix.Program

def addressOf (name : String) : Address :=
  (Pathname.components name.toList).filter fun c => !Pathname.isFiller c

def nameOf (a : Address) : String := String.ofList ('/' :: ['/'].intercalate a)

/-- What lies in a directory, with the directory itself. What cannot be read is left out. -/
partial def entriesBelow (dir : String) : IO (List (Address × Node)) := do
  let mut found := [(addressOf dir, Node.directory)]
  for entry in ← (← IO.FS.realPath dir).readDir do
    let name := (if dir.endsWith "/" then dir else dir ++ "/") ++ entry.fileName
    let place ← IO.FS.realPath name
    if place.toString == name then
      try
        if ← place.isDir then found := (← entriesBelow name) ++ found
        else
          let content ← IO.FS.readBinFile place
          let time := (← place.metadata).modified.sec
          found := (addressOf name, .file content.toList ⟨time⟩) :: found
      catch _ => pure ()
  return found

/-- The disk around the current directory. What is written on it has a time that no file has. -/
def picture : IO Disk := do
  let current := addressOf (← IO.currentDir).toString
  let entries ← entriesBelow (nameOf current.dropLast)
  return entries.foldl
    (fun disk (a, n) => if n = .directory then disk.withDirectory a else disk.put a n)
    (.bare current ⟨-1⟩)

def environment : IO Environment := do
  let values ← Environment.names.mapM fun n => do
    return (n, (← IO.getEnv (String.ofList n)).map String.toList)
  return ⟨fun name => (values.lookup name).join⟩

/-- Make the changes between two states on the real disk. -/
def carryOut (before after : Disk) : IO Unit := do
  for a in Disk.newDirectories before after do
    IO.FS.createDirAll (nameOf a)
  for (a, content) in Disk.newFiles before after do
    IO.FS.writeBinFile (nameOf a) ⟨content.toArray⟩

def printOutput : CommandLine.Output → IO Unit
  | .result t => IO.print (String.ofList t)
  | o => IO.eprint (String.ofList o.messageText)

end BuildMatrix.Program

open BuildMatrix in
def main (words : List String) : IO UInt32 := do
  let before ← Program.picture
  let (after, report) :=
    CommandLine.runWords before (← Program.environment) (words.map String.toList)
  Program.carryOut before after
  report.output.forM Program.printOutput
  return report.code.toUInt32
