import Elector.Position
import Elector.Sorted

/-!
# Rosters

The fixed membership of a cluster as one of its members sees it, and the size of a quorum.
-/

namespace Elector

/-- The members of a cluster, with the one whose view this is. -/
structure Roster where
  self : NodeId
  members : IdSet
  self_mem : self ∈ members
deriving DecidableEq

namespace Roster

/-- The roster of `self` among `ids`; `self` is a member whether or not it is listed. -/
def of (self : NodeId) (ids : List NodeId) : Roster where
  self := self
  members := (IdSet.ofList ids).insert self
  self_mem := by simp

def peers (r : Roster) : List NodeId := r.members.toList.filter (· ≠ r.self)

def contains (r : Roster) (id : NodeId) : Bool := id ∈ r.members

def isPeer (r : Roster) (id : NodeId) : Bool := id ≠ r.self && r.contains id

def size (r : Roster) : Nat := r.members.size

/-- The least number of members that is more than half of them. -/
def quorum (r : Roster) : Nat := r.size / 2 + 1

@[simp] theorem mem_members_of {self id : NodeId} {ids : List NodeId} :
    id ∈ (of self ids).members ↔ id = self ∨ id ∈ ids := by
  simp [of]

theorem mem_peers {r : Roster} {id : NodeId} :
    id ∈ r.peers ↔ id ∈ r.members ∧ id ≠ r.self := by
  simp [peers, IdSet.mem_def]

theorem isPeer_iff {r : Roster} {id : NodeId} : r.isPeer id = true ↔ id ∈ r.peers := by
  simp [isPeer, contains, mem_peers, and_comm]

end Roster

end Elector
