import Elector.Host
import Elector.Proofs.Allegiance
import Elector.Proofs.Course
import Elector.Proofs.Frame

/-!
# Processes that look at things at once

A process with nothing else to look at reacts to a frame or a due alarm in the moment in which it is
handed to it (`Host.deliverBytes_eq`, `Host.fire_due`), and everything that its node asks to be sent
goes out (`Process.sent_react`).
-/

namespace Elector

namespace Process

def event? (p : Process) : Incoming → Option Event
  | .message m => some (.message m)
  | .firing f => if p.timer.accepts f then some f.kind.event else none
  | .query => none
  | .shutdown => none

/-- The events that the node handles while `count` items of the queue are worked off. -/
def events (p : Process) (now : Nat) : Nat → List Event
  | 0 => []
  | count + 1 =>
    match p.waiting with
    | [] => []
    | i :: _ => (p.event? i).toList ++ (p.next now).1.events now count

variable {p : Process} {i : Incoming} {e : Event}

theorem take_of_event (h : p.event? i = some e) (now : Nat) : p.take now i = p.react now e := by
  cases i with
  | message m =>
    cases h
    rfl
  | firing f =>
    rw [event?] at h
    split at h
    · rename_i haccepts
      rw [take_firing, if_pos haccepts, Option.some.inj h]
    · cases h
  | query => cases h
  | shutdown => cases h

theorem next_post (idle : p.waiting = []) (now : Nat) (i : Incoming) :
    (p.post i).next now = p.take now i := by
  have hself : ({ p with waiting := [] } : Process) = p := by
    rw [← idle]
  simp only [next, post, idle, List.nil_append, hself]

theorem settle_post (idle : p.waiting = []) (now : Nat) (i : Incoming) :
    (p.post i).settle now = p.take now i := by
  have hlength : (p.post i).waiting.length = 1 := by simp [post, idle]
  simp only [settle, hlength, work, next_post idle, List.append_nil]

theorem events_post (idle : p.waiting = []) (now : Nat) (i : Incoming) :
    (p.post i).events now (p.post i).waiting.length = (p.event? i).toList := by
  have hwaiting : (p.post i).waiting = [i] := by rw [post, idle]; rfl
  have htimer : (p.post i).event? i = p.event? i := by cases i <;> rfl
  rw [hwaiting, List.length_singleton, events, hwaiting]
  simp only [htimer, events, List.append_nil]

/-! ### What is sent -/

theorem sent_perform (p : Process) (now : Nat) (o : Output)
    (known : ∀ target m, o = .send target m → target ∈ p.node.roster.peers) :
    (p.perform now o).2 =
      (Simulation.sendsOf [o]).map fun x => (x.1, Frame.encode x.2) := by
  cases o with
  | send target m =>
    rw [perform, if_pos (Roster.isPeer_iff.mpr (known target m rfl))]
    rfl
  | _ => rfl

theorem sent_performAll (p : Process) (now : Nat) (outputs : List Output)
    (known : ∀ target m, .send target m ∈ outputs → target ∈ p.node.roster.peers) :
    (p.performAll now outputs).2 =
      (Simulation.sendsOf outputs).map fun x => (x.1, Frame.encode x.2) := by
  induction outputs generalizing p with
  | nil => rfl
  | cons o rest ih =>
    have hnode : (p.perform now o).1.node = p.node := (p.rearmed_perform now o).node
    have hfirst := p.sent_perform now o fun target m ho => known target m (by simp [ho])
    have hrest := ih (p.perform now o).1 fun target m hm =>
      hnode ▸ known target m (List.mem_cons_of_mem _ hm)
    rw [← List.singleton_append, Node.sendsOf_append, List.map_append, ← hfirst, ← hrest]
    rfl

/-- Everything that a node asks to be sent goes out. -/
theorem sent_react (p : Process) (now : Nat) (e : Event) :
    (p.react now e).2 =
      (Simulation.sendsOf (p.node.asks e)).map fun x => (x.1, Frame.encode x.2) := by
  have hvouches (target : NodeId) (m : Message) (h : .send target m ∈ p.node.asks e) :
      (p.node.handle e).1.Vouches target m := Node.vouches_asks h
  rw [react]
  rw [Node.asks] at hvouches ⊢
  cases hhandle : p.node.handle e with
  | mk n' result =>
    rw [hhandle] at hvouches
    cases result with
    | error cause => rfl
    | ok outputs =>
      exact sent_performAll _ now outputs fun target m hm => (hvouches target m hm).peer

end Process

namespace Host

def firedEvents (h : Host) : List Event :=
  match h.process with
  | some p => (p.ring h.now).events h.now (p.ring h.now).waiting.length
  | none => []

def submittedEvents (h : Host) (i : Incoming) : List Event :=
  match h.process with
  | some p => if p.running then (p.post i).events h.now (p.post i).waiting.length else []
  | none => []

variable {h : Host} {p : Process} {a : Alarm} {m : Message}

theorem deliverBytes_eq (hp : h.process = some p) (running : p.running = true)
    (idle : p.waiting = []) (m : Message) :
    h.deliverBytes (Frame.encode m) =
      .ok ({ h with process := some (p.react h.now (.message m)).1 },
        (p.react h.now (.message m)).2) := by
  have hrunning : h.running = true := by
    rw [Host.running, hp]
    exact running
  have hsettle : (p.post (.message m)).settle h.now = p.react h.now (.message m) :=
    Process.settle_post idle h.now _
  simp only [deliverBytes, Frame.decode_encode_self, deliver, hrunning, if_true, submit, hp,
    running, hsettle]

theorem submittedEvents_eq (hp : h.process = some p) (running : p.running = true)
    (idle : p.waiting = []) (m : Message) : h.submittedEvents (.message m) = [.message m] := by
  simp only [submittedEvents, hp, running, if_true, Process.events_post idle]
  rfl

theorem fire_early (hp : h.process = some p) (idle : p.waiting = [])
    (early : p.timer.ring h.now = none) : h.fire = (h, []) ∧ h.firedEvents = [] := by
  have hring : p.ring h.now = p := by simp only [Process.ring, early]
  have hsettle : p.settle h.now = (p, []) := by
    simp only [Process.settle, idle, List.length_nil, Process.work]
  constructor
  · simp only [fire, hp, hring, hsettle]
    rw [← hp]
  · simp only [firedEvents, hp, hring, idle, List.length_nil, Process.events]

theorem fire_due (hp : h.process = some p) (idle : p.waiting = []) (alarm : p.timer.alarm = some a)
    (current : a.firing.generation = p.timer.generation) (due : a.due ≤ h.now) :
    let r := Process.react { p with timer.alarm := none } h.now a.firing.kind.event
    h.fire = ({ h with process := some r.1 }, r.2) ∧ h.firedEvents = [a.firing.kind.event] := by
  intro r
  let q : Process := { p with timer.alarm := none }
  have hring : p.ring h.now = q.post (.firing a.firing) := by
    simp only [Process.ring, Timer.ring, alarm, due, if_true, q]
  have hevent : q.event? (.firing a.firing) = some a.firing.kind.event := by
    simp only [Process.event?, Timer.accepts, q, current, decide_true, if_true]
  have hsettle : (q.post (.firing a.firing)).settle h.now = r := by
    rw [Process.settle_post (p := q) idle, Process.take_of_event hevent]
  constructor
  · simp only [fire, hp, hring, hsettle]
  · simp only [firedEvents, hp, hring, Process.events_post (p := q) idle, hevent]
    rfl

end Host

end Elector
