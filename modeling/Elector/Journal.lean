import Elector.Compact
import Elector.Disk
import Elector.Position

/-!
# Journals

The durable list of log entries of a node. Elections only look at its last position. Index 0 holds
a first entry of term 0, so the position of a fresh journal is term 0, index 0.
-/

namespace Elector

structure Entry where
  term : Term
  command : Bytes
deriving DecidableEq, Repr

inductive JournalError
  | io
  | unreadable (cause : CompactError)
deriving DecidableEq, Repr

def JournalError.message : JournalError → String
  | io => "IO error"
  | unreadable cause => s!"Serialization error: {cause.message}"

structure Journal where
  entries : List Entry
deriving DecidableEq, Repr

namespace Journal

/-- The entry that a fresh journal starts with. -/
def origin : Entry where
  term := 0
  command := []

def fresh : Journal where
  entries := [origin]

def lastIndex (j : Journal) : LogIndex := Int64.ofNat j.entries.length - 1

def term? (j : Journal) (index : LogIndex) : Option Term :=
  if index < 0 then none else (j.entries[index.toNatClampNeg]?).map (·.term)

def position (j : Journal) : Position where
  term := (j.term? j.lastIndex).getD 0
  index := j.lastIndex

/-! ## The file format -/

def encodeEntry (e : Entry) : Bytes := Compact.encodeWord e.term ++ Compact.encodeBytes e.command

def readEntry : Compact.Reader Entry := fun bs =>
  match Compact.word bs with
  | .error e => .error e
  | .ok (term, rest) =>
    match Compact.bytes rest with
    | .error e => .error e
    | .ok (command, rest) => .ok ({ term, command }, rest)

def encode (j : Journal) : Bytes := Compact.encodeList encodeEntry j.entries

/-- The journal of the given entries, which starts afresh if there are none. -/
def ofEntries : List Entry → Journal
  | [] => fresh
  | e :: es => { entries := e :: es }

/-- The journal that a file's content holds; an empty file holds no entries. -/
def ofContent (content : Bytes) : Except JournalError Journal :=
  if content = [] then .ok fresh
  else match Compact.list readEntry content with
    | .error e => .error (.unreadable e)
    | .ok (entries, _) => .ok (ofEntries entries)

/-! ## On disk -/

/-- Opens the journal on a disk, whose folder is created if it is missing. -/
def load (d : Disk) : Except JournalError (Journal × Disk) :=
  match d.prepare with
  | none => .error .io
  | some d =>
    match d.get .journal with
    | none => .ok (fresh, d)
    | some .folder => .error .io
    | some (.file content) =>
      match ofContent content with
      | .error e => .error e
      | .ok j => .ok (j, d)

/-- The steps that write the journal over its file. -/
def saveSteps (j : Journal) : List Disk.Step :=
  [.create .journal, .append .journal j.encode, .sync .journal]

/-- Appends an entry and writes the journal out, giving the entry's index. The entry stays in the
journal even when writing fails. -/
def append (j : Journal) (e : Entry) (d : Disk) (stop : Option Disk.Interruption) :
    Journal × Disk × Except JournalError LogIndex :=
  let j := { j with entries := j.entries ++ [e] }
  match d.write j.saveSteps stop with
  | (d, true) => (j, d, .ok j.lastIndex)
  | (d, false) => (j, d, .error .io)

end Journal

end Elector
