import Elector.Frame
import Elector.Node

/-!
# Simulations

Several nodes and the messages in flight between them, moved one event at a time in any order.
Links and members can be cut off. The simulation notes who was ever leader of which term.
-/

namespace Elector

structure Simulation where
  nodes : IdMap Node
  /-- The messages in flight with their receivers, oldest first. -/
  queue : List (NodeId × Message) := []
  isolated : IdSet := .empty
  cuts : List (NodeId × NodeId) := []
  leaders : IdMap IdSet := .empty
deriving DecidableEq

namespace Simulation

/-- What handling an event gave, with the handler's status afterwards. -/
structure Handled where
  result : Except NodeError (List Output)
  status : Status

inductive Delivery
  | lost
  | malformed (cause : FrameError)
  | handled (h : Handled)

/-- The messages that outputs send, with their receivers. -/
def sendsOf (outputs : List Output) : List (NodeId × Message) :=
  outputs.filterMap fun
    | .send target m => some (target, m)
    | _ => none

private def noteLeader (leaders : IdMap IdSet) (n : Node) : IdMap IdSet :=
  if n.isLeader then leaders.insert n.term (((leaders.find? n.term).getD .empty).insert n.id)
  else leaders

def noteLeaders (s : Simulation) : Simulation :=
  { s with leaders := (s.nodes.entries.map (·.2)).foldl noteLeader s.leaders }

/-- Lets a node handle an event and queues what it sends. -/
def react (s : Simulation) (id : NodeId) (e : Event) : Option (Handled × Simulation) :=
  match s.nodes.find? id with
  | none => none
  | some n =>
    let (n, result) := n.handle e
    let sent := match result with
      | .ok outputs => sendsOf outputs
      | .error _ => []
    let s := { s with nodes := s.nodes.insert id n, queue := s.queue ++ sent }
    some ({ result, status := n.status }, s.noteLeaders)

def connected (s : Simulation) (source target : NodeId) : Bool :=
  source ∉ s.isolated && target ∉ s.isolated && (source, target) ∉ s.cuts

/-- Brings a message to its receiver, over the wire. -/
def deliver (s : Simulation) (target : NodeId) (m : Message) : Delivery × Simulation :=
  if s.connected m.sender target then
    match Frame.decode (Frame.encode m) with
    | .error e => (.malformed e, s)
    | .ok m =>
      match s.react target (.message m) with
      | none => (.lost, s)
      | some (h, s) => (.handled h, s)
  else (.lost, s)

/-- Takes the message at place `at` out of the queue, counting round, and delivers it. -/
def deliverAt (s : Simulation) (place : Nat) : Option (Delivery × Simulation) :=
  let place := place % s.queue.length
  match s.queue[place]? with
  | none => none
  | some (target, m) => some ({ s with queue := s.queue.eraseIdx place }.deliver target m)

/-- A bound on the deliveries that a message can lead to, itself included. -/
def weight (size : Nat) : Message → Nat
  | .voteRequest _ => 2 * size + 2
  | .voteResponse _ => 2 * size + 1
  | .appendEntries _ => 2
  | .appendResponse _ => 1

private def drain : Nat → Simulation → Nat × Simulation
  | 0, s => (0, s)
  | fuel + 1, s =>
    match s.deliverAt 0 with
    | none => (0, s)
    | some (_, s) =>
      let (taken, s) := drain fuel s
      (taken + 1, s)

/-- Delivers from the front until nothing is in flight; counts the deliveries. -/
def settle (s : Simulation) : Nat × Simulation :=
  let size := ((s.nodes.entries.map (·.2.roster.size)).max?).getD 0
  drain (s.queue.foldl (fun bound e => bound + weight size e.2) 0) s

def duplicate (s : Simulation) : Option Simulation :=
  match s.queue with
  | [] => none
  | e :: rest => some { s with queue := e :: rest ++ [e] }

def drop (s : Simulation) : Option Simulation :=
  match s.queue with
  | [] => none
  | _ :: rest => some { s with queue := rest }

/-- Cuts a member off; says whether it was not cut off before. -/
def isolate (s : Simulation) (id : NodeId) : Bool × Simulation :=
  (id ∉ s.isolated, { s with isolated := s.isolated.insert id })

/-- Cuts the link from `source` to `target`; says whether it was not cut before. -/
def cut (s : Simulation) (source target : NodeId) : Bool × Simulation :=
  if (source, target) ∈ s.cuts then (false, s)
  else (true, { s with cuts := (source, target) :: s.cuts })

def heal (s : Simulation) : Simulation := { s with isolated := .empty, cuts := [] }

def modifyStorage (s : Simulation) (id : NodeId) (change : Storage → Storage) : Simulation :=
  match s.nodes.find? id with
  | none => s
  | some n => { s with nodes := s.nodes.insert id { n with storage := change n.storage } }

end Simulation

end Elector
