import Elector.Command.Run

/-!
# The program

The command line over the library. It reads the files that a command looks at, runs the command,
and writes what has become durable.
-/

namespace Elector

/-- Reads what stands at a path; what is there but is no readable file counts as a folder. -/
def readItem (path : String) : IO (Option Item) := do
  match ← (IO.FS.readBinFile path).toBaseIO with
  | .ok content => return some (.file content.toList)
  | .error (.noFileOrDirectory ..) => return none
  | .error _ => return some .folder

/-- Reads the durable side of a node, whose folder is created if it is missing. -/
def readDisk (dataDir : String) : IO Disk := do
  match ← (IO.FS.createDirAll (shelfPath dataDir)).toBaseIO with
  | .error _ => return .blocked
  | .ok _ =>
    let mut s : Shelf := { tooFar := FileName.tooFar dataDir }
    for f in FileName.all do
      if f ∉ s.tooFar then
        s := s.set f (← readItem (f.path dataDir))
    return .shelf s

/-- Reads the files that the arguments lead to. -/
def readSurroundings (arguments : List String) : IO Surroundings := do
  match Command.parse arguments with
  | .error _ => return {}
  | .ok c =>
    let mut w : Surroundings := {}
    if let some path := c.settingsPath? then
      if let some (.file content) := ← readItem path then
        w := { w with content? := fun p => if p = path then some content else none }
    let mut disks : List (String × Disk) := []
    for dataDir in c.dataDirs w do
      disks := (dataDir, ← readDisk dataDir) :: disks
    let found := disks
    return { w with disk := fun dataDir => (found.lookup dataDir).getD .missing }

/-- Writes a file of a node; the ballots are replaced through their draft. -/
def writeContent (dataDir : String) (f : FileName) (content : Bytes) : IO Unit := do
  let path := f.path dataDir
  if f = .votes then
    let draft := FileName.draft.path dataDir
    IO.FS.writeBinFile draft ⟨content.toArray⟩
    IO.FS.rename draft path
  else IO.FS.writeBinFile path ⟨content.toArray⟩

/-- Writes the files of a node that have changed. -/
def writeDisk (dataDir : String) (before after : Disk) : IO Unit := do
  for f in [FileName.votes, .journal] do
    if let some content := after.content? f then
      if before.content? f ≠ some content then
        writeContent dataDir f content

end Elector

def main (arguments : List String) : IO UInt32 := do
  let w ← Elector.readSurroundings arguments
  let seed ← IO.rand 0 0x100000000
  let draws (node turn : Nat) : Nat := (hash (seed, node, turn)).toNat
  let exit := Elector.Command.execute arguments draws w
  for (dataDir, disk) in exit.disks do
    Elector.writeDisk dataDir (w.disk dataDir) disk
  IO.print exit.output
  if let some line := exit.error then
    IO.eprintln line
  return exit.code.toUInt32
