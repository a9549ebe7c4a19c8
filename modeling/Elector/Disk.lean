import Elector.Bytes
import Elector.Path

/-!
# Disks

The durable side of one node: the folder `raft` in its data directory, and the steps by which files
in it change. A write is a list of such steps, so that a crash or an error can fall between any two
of them, or into the middle of one.
-/

namespace Elector

/-- The files that a node keeps. -/
inductive FileName
  /-- The term and the vote cast in it. -/
  | votes
  /-- The next term and vote, until they are complete. -/
  | draft
  | journal
deriving DecidableEq, Repr

def FileName.name : FileName → String
  | votes => "vote.bin"
  | draft => "vote.bin.tmp"
  | journal => "log.bin"

def FileName.all : List FileName := [votes, draft, journal]

/-- The folder of the files of the node that keeps its data in `dataDir`. -/
def shelfPath (dataDir : String) : String := joinPath dataDir "raft"

/-- The path of a file of the node that keeps its data in `dataDir`. -/
def FileName.path (f : FileName) (dataDir : String) : String := joinPath (shelfPath dataDir) f.name

/-- The files of the node that keeps its data in `dataDir` whose paths are too long. -/
def FileName.tooFar (dataDir : String) : List FileName :=
  all.filter fun f => !isPath (f.path dataDir)

inductive Item
  | file (content : Bytes)
  | folder
deriving DecidableEq, Repr

structure Shelf where
  votes : Option Item := none
  draft : Option Item := none
  journal : Option Item := none
  /-- Files whose paths are too long. They are not seen, and nothing can be written there. -/
  tooFar : List FileName := []
deriving DecidableEq, Repr

namespace Shelf

def get (s : Shelf) : FileName → Option Item
  | .votes => s.votes
  | .draft => s.draft
  | .journal => s.journal

def set (s : Shelf) (f : FileName) (item : Option Item) : Shelf :=
  match f with
  | .votes => { s with votes := item }
  | .draft => { s with draft := item }
  | .journal => { s with journal := item }

@[simp] theorem get_set (s : Shelf) (f g : FileName) (item : Option Item) :
    (s.set f item).get g = if g = f then item else s.get g := by
  cases f <;> cases g <;> rfl

/-- Whether a file can be written under `f`. -/
def admits (s : Shelf) (f : FileName) : Bool := s.get f ≠ some .folder ∧ f ∉ s.tooFar

def names (s : Shelf) : List String :=
  [FileName.journal, .votes, .draft].filterMap fun f => (s.get f).map fun _ => f.name

end Shelf

/-- What stands where the folder belongs. -/
inductive Disk
  | missing
  /-- Something that is not a folder. -/
  | blocked
  | shelf (s : Shelf)
deriving DecidableEq, Repr, Inhabited

namespace Disk

/-- What stands under `f`, if the folder is there. -/
def get : Disk → FileName → Option Item
  | shelf s, f => s.get f
  | _, _ => none

def content? (d : Disk) (f : FileName) : Option Bytes :=
  match d.get f with
  | some (.file content) => some content
  | _ => none

def names : Disk → List String
  | shelf s => s.names
  | _ => []

def prepare : Disk → Option Disk
  | missing => some (shelf {})
  | blocked => none
  | shelf s => some (shelf s)

/-! ## Changes from outside -/

/-- Puts an empty folder, unless there is one. -/
def restore : Disk → Disk
  | shelf s => shelf s
  | _ => shelf {}

def clear : Disk → Disk
  | blocked => blocked
  | _ => missing

/-- Puts a file with `content` under `f`, unless something else is in its way. -/
def putFile (d : Disk) (f : FileName) (content : Bytes) : Disk :=
  match d.prepare with
  | some (shelf s) => if s.admits f then shelf (s.set f (some (.file content))) else d
  | _ => d

/-- Puts an empty folder under `f`, in place of what stands there. -/
def putFolder (d : Disk) (f : FileName) : Disk :=
  match d.prepare with
  | some (shelf s) => if f ∈ s.tooFar then d else shelf (s.set f (some .folder))
  | _ => d

def removeFile (d : Disk) (f : FileName) : Disk :=
  match d with
  | shelf s => if s.get f = some .folder then d else shelf (s.set f none)
  | d => d

/-! ## Writing -/

inductive Step
  /-- Make `f` an empty file. -/
  | create (f : FileName)
  | append (f : FileName) (bs : Bytes)
  /-- Wait until `f` is durable. -/
  | sync (f : FileName)
  /-- Let `target` be what `source` was. -/
  | rename (source target : FileName)
deriving DecidableEq, Repr

def step (d : Disk) : Step → Option Disk
  | .create f =>
    match d with
    | shelf s => if s.admits f then some (shelf (s.set f (some (.file [])))) else none
    | _ => none
  | .append f bs =>
    match d with
    | shelf s =>
      match s.get f with
      | some (.file content) => some (shelf (s.set f (some (.file (content ++ bs)))))
      | _ => none
    | _ => none
  | .sync f => (d.content? f).map fun _ => d
  | .rename source target =>
    match d with
    | shelf s =>
      match s.get source with
      | some (.file content) =>
        if s.admits target then
          some (shelf ((s.set source none).set target (some (.file content))))
        else none
      | _ => none
    | _ => none

/-- Where a write stops short: after `steps` steps, with `bytes` bytes of the next one appended. -/
structure Interruption where
  steps : Nat
  bytes : Nat
deriving DecidableEq, Repr

/-- The part of a step that takes place when the write stops in it. -/
def tear (d : Disk) (bytes : Nat) : Step → Disk
  | .append f bs => (d.step (.append f (bs.take bytes))).getD d
  | _ => d

/-- Takes steps up to the first that fails or the interruption; says whether all succeeded. -/
def write (d : Disk) : List Step → Option Interruption → Disk × Bool
  | [], _ => (d, true)
  | s :: _, some ⟨0, bytes⟩ => (d.tear bytes s, false)
  | s :: rest, stop =>
    match d.step s with
    | none => (d, false)
    | some d => d.write rest (stop.map fun i => { i with steps := i.steps - 1 })

end Disk

end Elector
