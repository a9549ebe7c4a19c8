import Elector.Network
import Elector.Node
import Elector.Timer

/-!
# Processes

A running node: its state machine, its one timer, and the queue of what it has yet to look at, which
it works off one item at a time. What the node asks for is carried out at once, on a clock of
milliseconds that the surroundings move.
-/

namespace Elector

inductive StartError
  | journal (cause : JournalError)
  | votes (cause : VoteError)
  | settings (cause : SettingsError)
  | node (cause : NodeError)
deriving DecidableEq, Repr

def StartError.message : StartError → String
  | journal cause => cause.message
  | votes cause => cause.message
  | settings cause => cause.message
  | node cause => cause.message

inductive Incoming
  | message (m : Message)
  | firing (f : Firing)
  /-- A question for the status, which `Process.status?` answers. -/
  | query
  | shutdown
deriving DecidableEq, Repr

/-- A frame on its way out, with its receiver. -/
abbrev Outgoing := NodeId × Bytes

structure Process where
  node : Node
  timer : Timer
  /-- What is still to be looked at, oldest first. -/
  waiting : List Incoming := []
  running : Bool := true

namespace Process

/-- Starts a node on its storage, with an election timeout ahead. -/
def start (settings : NodeSettings) (storage : Storage) (clock : Clock) (draw : Nat → Nat)
    (now : Nat) : Except StartError Process :=
  match settings.timing.check with
  | .error e => .error (.settings e)
  | .ok () =>
    match Node.start settings.roster storage with
    | .error e => .error (.node e)
    | .ok node =>
      let timer : Timer := { timing := settings.timing, draw, clock }
      .ok { node, timer := timer.awaitElection now }

def post (p : Process) (i : Incoming) : Process := { p with waiting := p.waiting ++ [i] }

/-! ## Carrying out outputs -/

/-- Carries out one output. A message to anyone but another member goes nowhere. -/
def perform (now : Nat) (p : Process) : Output → Process × List Outgoing
  | .send target m => (p, if p.node.roster.isPeer target then [(target, Frame.encode m)] else [])
  | .resetElectionTimer => ({ p with timer := p.timer.awaitElection now }, [])
  | .scheduleHeartbeat => ({ p with timer := p.timer.awaitHeartbeat now }, [])
  | .becameLeader _ => (p, [])
  | .steppedDown _ => (p, [])

def performAll (now : Nat) (p : Process) : List Output → Process × List Outgoing
  | [] => (p, [])
  | o :: rest =>
    let (p, sent) := p.perform now o
    let (p, more) := p.performAll now rest
    (p, sent ++ more)

/-- Lets the node handle an event. After a failure a node that does not lead waits for another
election timeout, so that it can go on once its storage works again. -/
def react (p : Process) (now : Nat) (e : Event) : Process × List Outgoing :=
  let (node, result) := p.node.handle e
  let p := { p with node }
  match result with
  | .ok outputs => p.performAll now outputs
  | .error _ =>
    (if node.isLeader then p else { p with timer := p.timer.awaitElection now }, [])

/-! ## Working off the queue -/

/-- Looks at one item. A firing that has been superseded is dropped. -/
def take (p : Process) (now : Nat) : Incoming → Process × List Outgoing
  | .message m => p.react now (.message m)
  | .firing f =>
    if p.timer.accepts f then
      p.react now (match f.kind with
        | .election => .electionTimeout
        | .heartbeat => .heartbeatDue)
    else (p, [])
  | .query => (p, [])
  | .shutdown => ({ p with timer := p.timer.cancel, running := false, waiting := [] }, [])

/-- Takes the oldest item out of the queue and looks at it. -/
def next (p : Process) (now : Nat) : Process × List Outgoing :=
  match p.waiting with
  | [] => (p, [])
  | i :: rest => { p with waiting := rest }.take now i

/-- Puts the firing of a due alarm into the queue. -/
def ring (p : Process) (now : Nat) : Process :=
  match p.timer.ring now with
  | some (f, timer) => { p with timer }.post (.firing f)
  | none => p

def work (p : Process) (now : Nat) : Nat → Process × List Outgoing
  | 0 => (p, [])
  | count + 1 =>
    let (p, sent) := p.next now
    let (p, more) := p.work now count
    (p, sent ++ more)

def settle (p : Process) (now : Nat) : Process × List Outgoing := p.work now p.waiting.length

def due? (p : Process) : Option Nat := if p.running then p.timer.alarm.map (·.due) else none

def status? (p : Process) : Option Status := if p.running then some p.node.status else none

end Process

end Elector
