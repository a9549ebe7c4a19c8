import Elector.Process

/-!
# Hosts

The place where a node runs: the storage outlives the process, which can be stopped and started
again. Time is the host's clock of milliseconds.
-/

namespace Elector

structure Host where
  settings : NodeSettings
  /-- The choices of election delays of every process on this host. -/
  draw : Nat → Nat
  /-- The storage while no process owns it. -/
  idle : Storage
  process : Option Process := none
  clock : Clock := {}
  now : Nat := 0

def Storage.open (s : Storage) : Except StartError Storage :=
  match s.reopenLog with
  | .error e => .error (.journal e)
  | .ok s =>
    match s.reopenBallots with
    | .error e => .error (.votes e)
    | .ok s => .ok s

namespace Host

/-- The storage as it is now. -/
def storage (h : Host) : Storage :=
  match h.process with
  | some p => p.node.storage
  | none => h.idle

def modifyStorage (h : Host) (change : Storage → Storage) : Host :=
  match h.process with
  | some p => { h with process := some { p with node.storage := change p.node.storage } }
  | none => { h with idle := change h.idle }

def start (h : Host) : Host × Except StartError Unit :=
  let storage := h.storage
  match Process.start h.settings storage h.clock h.draw h.now with
  | .error e => ({ h with idle := storage, process := none }, .error e)
  | .ok p => ({ h with process := some p }, .ok ())

/-- Gives up the process; its storage stays. -/
def discard (h : Host) : Host := { h with idle := h.storage, process := none }

/-- Stops any process, opens the storage again and starts. -/
def restart (h : Host) : Host × Except StartError Unit :=
  let h := h.discard
  match h.idle.open with
  | .error e => (h, .error e)
  | .ok storage => { h with idle := storage }.start

def running (h : Host) : Bool := (h.process.map (·.running)).getD false

def status? (h : Host) : Option Status := h.process.bind (·.status?)

def due? (h : Host) : Option Nat := h.process.bind (·.due?)

/-- Hands something to a running process and lets it work off its queue. -/
def submit (h : Host) (i : Incoming) : Host × List Outgoing :=
  match h.process with
  | some p =>
    if p.running then
      let (p, sent) := (p.post i).settle h.now
      ({ h with process := some p }, sent)
    else (h, [])
  | none => (h, [])

def deliver (h : Host) (m : Message) : Option (Host × List Outgoing) :=
  if h.running then some (h.submit (.message m)) else none

/-- Hands over a frame. A malformed one is reported and dropped, whether or not anything runs. -/
def deliverBytes (h : Host) (frame : Bytes) : Except DeliveryError (Host × List Outgoing) :=
  match Frame.decode frame with
  | .error e => .error (.malformed e)
  | .ok m =>
    match h.deliver m with
    | none => .error .channelClosed
    | some r => .ok r

def shutdown (h : Host) : Host := (h.submit .shutdown).1

/-- Lets the alarm that is due at `h.now` go off. -/
def fire (h : Host) : Host × List Outgoing :=
  match h.process with
  | some p =>
    let (p, sent) := (p.ring h.now).settle h.now
    ({ h with process := some p }, sent)
  | none => (h, [])

/-- Lets time pass to `target`, one alarm at a time; gives what was sent, with the times. -/
private def passTo (target : Nat) : Nat → Host → Host × List (Nat × Outgoing)
  | 0, h => ({ h with now := target }, [])
  | fuel + 1, h =>
    match h.due? with
    | none => ({ h with now := target }, [])
    | some due =>
      if due ≤ target then
        let now := max h.now due
        let (h, sent) := { h with now }.fire
        let (h, more) := passTo target fuel h
        (h, sent.map (now, ·) ++ more)
      else ({ h with now := target }, [])

/-- Lets a wait of `ms` milliseconds pass. No alarm is due sooner than a millisecond after the one
before. -/
def advance (h : Host) (ms : Nat) : Host × List (Nat × Outgoing) :=
  let target := h.clock.waitEnd ms h.now
  passTo target (target - h.now + 1) h

end Host

end Elector
