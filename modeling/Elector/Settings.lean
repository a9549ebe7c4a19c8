import Elector.Path
import Elector.Roster

/-!
# Settings

How a cluster is described: its nodes, where they keep their data, and the times they wait. The
settings of one node follow from those of the cluster; times that would let a stable leader be
challenged are refused.
-/

namespace Elector

structure Timing where
  electionMin : UInt64 := 150
  electionMax : UInt64 := 300
  heartbeat : UInt64 := 50
deriving DecidableEq, Repr

inductive SettingsError
  | zeroTimeout
  | invertedRange (least most : UInt64)
  | slowHeartbeat (heartbeat least : UInt64)
  | notListed (id : NodeId)
deriving DecidableEq, Repr

def SettingsError.message : SettingsError → String
  | zeroTimeout => "Invalid configuration: timeouts must be non-zero"
  | invertedRange least most =>
    s!"Invalid configuration: election_timeout_min ({least}) exceeds election_timeout_max ({most})"
  | slowHeartbeat heartbeat least =>
    s!"Invalid configuration: heartbeat_interval ({heartbeat}) must be below " ++
      s!"election_timeout_min ({least})"
  | notListed id => s!"Invalid configuration: node {id} is not listed in the cluster"

/-- Accepts times with `0 < heartbeat < electionMin ≤ electionMax`. -/
def Timing.check (t : Timing) : Except SettingsError Unit :=
  if t.electionMin = 0 ∨ t.heartbeat = 0 then .error .zeroTimeout
  else if t.electionMax < t.electionMin then .error (.invertedRange t.electionMin t.electionMax)
  else if t.electionMin ≤ t.heartbeat then .error (.slowHeartbeat t.heartbeat t.electionMin)
  else .ok ()

/-! ## One node -/

structure NodeSettings where
  id : NodeId
  dataDir : String
  peers : IdMap String := .empty
  timing : Timing := {}
deriving DecidableEq, Repr

namespace NodeSettings

def withPeer (s : NodeSettings) (id : NodeId) (address : String) : NodeSettings :=
  { s with peers := s.peers.insert id address }

def roster (s : NodeSettings) : Roster := .of s.id s.peers.keys

end NodeSettings

/-! ## A cluster -/

structure Peer where
  id : NodeId
  address : String
deriving DecidableEq, Repr

structure ClusterSettings where
  nodes : List Peer
  dataDir : String := "./data"
  timing : Timing := {}
deriving DecidableEq, Repr

namespace ClusterSettings

/-- A cluster of `ids` within one process. -/
def within (ids : List NodeId) : ClusterSettings where
  nodes := ids.map fun id => { id, address := s!"local://{id}" }

def ids (c : ClusterSettings) : List NodeId := c.nodes.map (·.id)

/-- The settings of one listed node, which keeps its data in a folder of its own. -/
def forNode (c : ClusterSettings) (id : NodeId) : Except SettingsError NodeSettings :=
  if id ∈ c.ids then
    match c.timing.check with
    | .error e => .error e
    | .ok () => .ok {
        id
        dataDir := joinPath c.dataDir s!"node-{id}"
        peers := .ofList ((c.nodes.filter (·.id ≠ id)).map fun p => (p.id, p.address))
        timing := c.timing }
  else .error (.notListed id)

end ClusterSettings

end Elector
