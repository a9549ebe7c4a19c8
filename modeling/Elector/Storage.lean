import Elector.Journal
import Elector.Ballots

/-!
# Storage

What a node's state survives in: its ballots, kept in memory or in a file, and the log whose last
position it votes by. In memory and in a file the same rule holds, that of `Ballots`. A file is
replaced through a draft, so that at every moment it holds complete ballots.
-/

namespace Elector

inductive Medium
  /-- In memory, with every vote that was recorded, oldest first. -/
  | memory (votes : List (Term × NodeId))
  | file
deriving DecidableEq, Repr

/-- The log that a node votes by. -/
inductive LogView
  /-- A log kept elsewhere, known by its last position. -/
  | remote (last : Position)
  | journal (j : Journal)
deriving DecidableEq, Repr

def LogView.position : LogView → Position
  | remote last => last
  | journal j => j.position

/-- Which operations of a storage fail. A write that fails in a file may have begun. -/
structure Outage where
  vote : Option Disk.Interruption := none
  term : Option Disk.Interruption := none
  loads : Bool := false
deriving DecidableEq, Repr

structure Storage where
  disk : Disk := .missing
  ballots : Ballots := {}
  medium : Medium := .memory []
  log : LogView := .remote {}
  outage : Outage := {}
deriving DecidableEq, Repr

namespace Ballots

/-- Opens the ballots on a disk, whose folder is created if it is missing. -/
def load (d : Disk) : Except VoteError (Ballots × Disk) :=
  match d.prepare with
  | none => .error .io
  | some d =>
    match d.get .votes with
    | none => .ok ({}, d)
    | some .folder => .error .io
    | some (.file content) =>
      match ofContent content with
      | .error e => .error e
      | .ok r => .ok (r, d)

/-- The steps that put new ballots in the place of the old ones. -/
def saveSteps (r : Ballots) : List Disk.Step :=
  [.create .draft, .append .draft r.encode, .sync .draft, .rename .draft .votes]

end Ballots

namespace Storage

/-- The recorded votes of a storage in memory, oldest first. -/
def votesWritten? (s : Storage) : Option (List (Term × NodeId)) :=
  match s.medium with
  | .memory votes => some votes
  | .file => none

def position (s : Storage) : Position := s.log.position

def readTerm (s : Storage) : Except VoteError Term :=
  if s.outage.loads then .error .unavailable else .ok s.ballots.term

def readVote (s : Storage) (term : Term) : Except VoteError (Option NodeId) :=
  if s.outage.loads then .error .unavailable else .ok (s.ballots.vote? term)

/-- Writes changed ballots to their file; they count only once all steps are done. -/
def replaceBallots (s : Storage) (next : Ballots) (stop : Option Disk.Interruption) :
    Storage × Except VoteError Unit :=
  if next = s.ballots then (s, .ok ())
  else match s.disk.write next.saveSteps stop with
    | (disk, true) => ({ s with disk, ballots := next }, .ok ())
    | (disk, false) => ({ s with disk }, .error .io)

def storeVote (s : Storage) (term : Term) (candidate : NodeId) : Storage × Except VoteError Unit :=
  match s.medium with
  | .memory votes =>
    if s.outage.vote.isSome then (s, .error .unavailable)
    else match s.ballots.cast term candidate with
      | .error e => (s, .error e)
      | .ok ballots =>
        ({ s with ballots, medium := .memory (votes ++ [(term, candidate)]) }, .ok ())
  | .file =>
    match s.ballots.cast term candidate with
    | .error e => (s, .error e)
    | .ok ballots => s.replaceBallots ballots s.outage.vote

def storeTerm (s : Storage) (term : Term) : Storage × Except VoteError Unit :=
  match s.medium with
  | .memory _ =>
    if s.outage.term.isSome then (s, .error .unavailable)
    else match s.ballots.reach term with
      | .error e => (s, .error e)
      | .ok ballots => ({ s with ballots }, .ok ())
  | .file =>
    match s.ballots.reach term with
    | .error e => (s, .error e)
    | .ok ballots => s.replaceBallots ballots s.outage.term

/-! ## Opening -/

/-- The same storage with its ballots read again: from the file, or empty in memory. -/
def reopenBallots (s : Storage) : Except VoteError Storage :=
  match s.medium with
  | .memory _ => .ok { s with ballots := {}, medium := .memory [] }
  | .file =>
    match Ballots.load s.disk with
    | .error e => .error e
    | .ok (ballots, disk) => .ok { s with ballots, disk }

/-- The same storage with a journal read again from its file. -/
def reopenLog (s : Storage) : Except JournalError Storage :=
  match s.log with
  | .remote _ => .ok s
  | .journal _ =>
    match Journal.load s.disk with
    | .error e => .error e
    | .ok (j, disk) => .ok { s with log := .journal j, disk }

/-! ## The log and the outage -/

/-- Appends an entry to the journal; there is nothing to append to in a log kept elsewhere. -/
def appendEntry (s : Storage) (e : Entry) : Storage × Except JournalError LogIndex :=
  match s.log with
  | .remote last => (s, .ok last.index)
  | .journal j =>
    let (j, disk, result) := j.append e s.disk none
    ({ s with log := .journal j, disk }, result)

/-- Lets the writes of a storage in memory fail, or succeed again; a file has no such switch. -/
def failWrites (s : Storage) (fail : Bool) : Storage :=
  match s.medium with
  | .memory _ =>
    let stop := if fail then some ⟨0, 0⟩ else none
    { s with outage := { s.outage with vote := stop, term := stop } }
  | .file => s

def failLoads (s : Storage) (fail : Bool) : Storage :=
  { s with outage := { s.outage with loads := fail } }

end Storage

end Elector
