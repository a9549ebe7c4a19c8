import Elector.Frame
import Elector.Roster

/-!
# Networks

Delivery of frames between members within one process. Every registration of an id gets an inbox of
its own, which is first in, first out; frames go to the latest registration of their receiver.
Frames to or from an isolated member vanish.
-/

namespace Elector

inductive DeliveryError
  | malformed (cause : FrameError)
  | unknownPeer (id : NodeId)
  | unreachable (id : NodeId)
  | channelClosed
deriving DecidableEq, Repr

def DeliveryError.message : DeliveryError → String
  | malformed cause => s!"Codec error: {cause.message}"
  | unknownPeer id => s!"Unknown peer: {id}"
  | unreachable id => s!"Peer {id} is unreachable"
  | channelClosed => "Consensus runtime has shut down"

structure Inbox where
  owner : NodeId
  closed : Bool := false
  frames : List Bytes := []
deriving DecidableEq, Repr

structure Network where
  /-- All inboxes, in the order of registration. -/
  inboxes : List Inbox := []
  latest : IdMap Nat := .empty
  isolated : IdSet := .empty
deriving DecidableEq, Repr

inductive Received
  | frame (bs : Bytes)
  | empty
  /-- Nothing, and nothing will come: a later registration took the inbox's place. -/
  | disconnected
  | closed
deriving DecidableEq, Repr

namespace Network

/-- Gives `id` a new inbox, named by its number. -/
def register (n : Network) (id : NodeId) : Network × Nat :=
  ({ n with
      inboxes := n.inboxes ++ [{ owner := id }]
      latest := n.latest.insert id n.inboxes.length },
    n.inboxes.length)

def isolate (n : Network) (id : NodeId) : Network := { n with isolated := n.isolated.insert id }

def heal (n : Network) (id : NodeId) : Network := { n with isolated := n.isolated.erase id }

def isIsolated (n : Network) (id : NodeId) : Bool := id ∈ n.isolated

/-- Drops the inbox; what waits in it is lost. -/
def close (n : Network) (inbox : Nat) : Network :=
  { n with inboxes := n.inboxes.modify inbox fun b => { b with closed := true, frames := [] } }

/-- Sends a frame. An isolated end swallows it, whether or not the other end exists. -/
def send (n : Network) (source target : NodeId) (frame : Bytes) :
    Network × Except DeliveryError Unit :=
  if n.isIsolated source || n.isIsolated target then (n, .ok ())
  else match n.latest.find? target with
    | none => (n, .error (.unknownPeer target))
    | some inbox =>
      match n.inboxes[inbox]? with
      | some ⟨_, false, _⟩ =>
        let inboxes := n.inboxes.modify inbox fun b => { b with frames := b.frames ++ [frame] }
        ({ n with inboxes }, .ok ())
      | _ => (n, .error (.unreachable target))

/-- Sends a message as the member whose roster this is, to other members only. -/
def dispatch (n : Network) (source : NodeId) (roster : Roster) (target : NodeId) (m : Message) :
    Network × Except DeliveryError Unit :=
  if roster.isPeer target then n.send source target (Frame.encode m)
  else (n, .error (.unknownPeer target))

def receive (n : Network) (inbox : Nat) : Network × Received :=
  match n.inboxes[inbox]? with
  | none => (n, .closed)
  | some b =>
    if b.closed then (n, .closed)
    else match b.frames with
      | frame :: rest =>
        ({ n with inboxes := n.inboxes.modify inbox fun b => { b with frames := rest } },
          .frame frame)
      | [] => (n, if n.latest.find? b.owner = some inbox then .empty else .disconnected)

end Network

end Elector
