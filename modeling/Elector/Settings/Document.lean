import Elector.Json.Value
import Elector.Settings

/-!
# Settings as documents

The JSON documents that describe a cluster or a node, and how they are read. What a document leaves
out has its default where there is one; keys that mean nothing are ignored.
-/

namespace Elector

open Json (Value)

inductive LoadError
  /-- There is no such file, or it holds no text. -/
  | io
  | malformed
deriving DecidableEq, Repr

/-! ## Waiting times -/

private def fieldOr {α : Type} (read : Value → Option α) (default : α) : Option Value → Option α
  | some v => read v
  | none => some default

namespace Timing

def toValue (t : Timing) : Value := .record [
  ("election_timeout_min", .ofInt t.electionMin.toNat),
  ("election_timeout_max", .ofInt t.electionMax.toNat),
  ("heartbeat_interval", .ofInt t.heartbeat.toNat)]

def ofValue? (v : Value) : Option Timing :=
  match v.fields? ["election_timeout_min", "election_timeout_max", "heartbeat_interval"] with
  | some [least, most, heartbeat] => do
    let standard : Timing := {}
    let electionMin ← fieldOr Value.uint64? standard.electionMin least
    let electionMax ← fieldOr Value.uint64? standard.electionMax most
    let heartbeat ← fieldOr Value.uint64? standard.heartbeat heartbeat
    some { electionMin, electionMax, heartbeat }
  | _ => none

end Timing

/-! ## Clusters -/

namespace Peer

def toValue (p : Peer) : Value := .record [
  ("id", .ofInt p.id.toInt), ("address", .ofString p.address)]

def ofValue? (v : Value) : Option Peer :=
  match v.fields? ["id", "address"] with
  | some [some id, some address] => do
    let id ← id.int32?
    let address ← address.string?
    some { id, address }
  | _ => none

end Peer

namespace ClusterSettings

def toValue (c : ClusterSettings) : Value := .record [
  ("nodes", .array (c.nodes.map Peer.toValue)),
  ("data_dir", .ofString c.dataDir),
  ("timing", c.timing.toValue)]

def ofValue? (v : Value) : Option ClusterSettings :=
  match v.fields? ["nodes", "data_dir", "timing"] with
  | some [some nodes, dataDir, timing] => do
    let nodes ← (← nodes.elements?).mapM Peer.ofValue?
    let dataDir ← fieldOr Value.string? "./data" dataDir
    let timing ← fieldOr Timing.ofValue? {} timing
    some { nodes, dataDir, timing }
  | _ => none

def save (c : ClusterSettings) : String := String.ofList (c.toValue.pretty 0)

def load (text : String) : Except LoadError ClusterSettings :=
  match (Value.parse text).bind ofValue? with
  | some c => .ok c
  | none => .error .malformed

/-- Reads the content of a file, if there is one. -/
def loadFile (content : Option (List UInt8)) : Except LoadError ClusterSettings :=
  match content.bind fun bs => String.fromUTF8? ⟨bs.toArray⟩ with
  | some text => load text
  | none => .error .io

end ClusterSettings

/-! ## Nodes -/

namespace NodeSettings

def toValue (s : NodeSettings) : Value := .record [
  ("node_id", .ofInt s.id.toInt),
  ("data_dir", .ofString s.dataDir),
  ("peers", .record (s.peers.entries.map fun p => (toString p.1, .ofString p.2))),
  ("election_timeout_min", .ofInt s.timing.electionMin.toNat),
  ("election_timeout_max", .ofInt s.timing.electionMax.toNat),
  ("heartbeat_interval", .ofInt s.timing.heartbeat.toNat)]

def render (s : NodeSettings) : String := String.ofList s.toValue.compact

private def peer? (member : List Char × Value) : Option (Int32 × String) := do
  let id ← (Value.number member.1).int32?
  let address ← member.2.string?
  some (id, address)

/-- The peers of an object from ids to addresses; an id is written as a number would be. -/
def peersOf? : Value → Option (IdMap String)
  | .object members => (members.mapM peer?).map .ofList
  | _ => none

def ofValue? (v : Value) : Option NodeSettings :=
  match v.fields? ["node_id", "data_dir", "peers", "election_timeout_min", "election_timeout_max",
      "heartbeat_interval"] with
  | some [some id, some dataDir, some peers, some least, some most, some heartbeat] => do
    let id ← id.int32?
    let dataDir ← dataDir.string?
    let peers ← peersOf? peers
    let electionMin ← least.uint64?
    let electionMax ← most.uint64?
    let heartbeat ← heartbeat.uint64?
    some { id, dataDir, peers, timing := { electionMin, electionMax, heartbeat } }
  | _ => none

/-- Reads a document; every field has to be there. -/
def parse? (text : String) : Option NodeSettings := (Value.parse text).bind ofValue?

end NodeSettings

end Elector
