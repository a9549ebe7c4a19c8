import Elector.Message
import Elector.Roster
import Elector.Storage

/-!
# Nodes

The state machine of one cluster member. An event is an election timeout, a due heartbeat or a
message; handling it changes the node and asks for actions, in order. Every change of term or vote
is durable before an action that depends on it is asked for. A handler that fails asks for nothing,
but keeps the changes it made before the failure.
-/

namespace Elector

inductive Role
  | follower
  /-- Running for leader, with the members that granted their vote. -/
  | candidate (votes : IdSet)
  | leader
deriving DecidableEq, Repr

inductive RoleKind
  | follower
  | candidate
  | leader
deriving DecidableEq, Repr

def RoleKind.name : RoleKind → String
  | follower => "Follower"
  | candidate => "Candidate"
  | leader => "Leader"

namespace Role

def kind : Role → RoleKind
  | follower => .follower
  | candidate _ => .candidate
  | leader => .leader

/-- The votes received so far, if this is a candidate. -/
def tally? : Role → Option IdSet
  | candidate votes => some votes
  | _ => none

end Role

def IdSet.carries (votes : IdSet) (quorum : Nat) : Bool := quorum ≤ votes.size

inductive Event
  | electionTimeout
  | heartbeatDue
  | message (m : Message)
deriving DecidableEq, Repr

inductive Output
  | send (target : NodeId) (m : Message)
  /-- Put a fresh election timeout in the place of any timer. -/
  | resetElectionTimer
  /-- Put the next heartbeat in the place of any timer. -/
  | scheduleHeartbeat
  | becameLeader (term : Term)
  | steppedDown (term : Term)
deriving DecidableEq, Repr

inductive NodeError
  | durability (cause : VoteError)
  | termOverflow (term : Term)
deriving DecidableEq, Repr

def NodeError.message : NodeError → String
  | durability cause => s!"Durability failure: {cause.message}"
  | termOverflow term => s!"Term overflow after term {term}"

structure Status where
  id : NodeId
  term : Term
  role : RoleKind
  leader : Option NodeId
  vote : Option NodeId
  votes : List NodeId
deriving DecidableEq, Repr

structure Node where
  roster : Roster
  term : Term
  role : Role
  leader : Option NodeId
  vote : Option NodeId
  storage : Storage
deriving DecidableEq

namespace Node

/-- What handling an event leaves and asks for. -/
abbrev Reaction := Node × Except NodeError (List Output)

/-- A follower in the term and with the vote that its storage holds. -/
def start (roster : Roster) (storage : Storage) : Except NodeError Node :=
  match storage.readTerm with
  | .error cause => .error (.durability cause)
  | .ok term =>
    match storage.readVote term with
    | .error cause => .error (.durability cause)
    | .ok vote => .ok { roster, term, role := .follower, leader := none, vote, storage }

def id (n : Node) : NodeId := n.roster.self

def isLeader (n : Node) : Bool := n.role = .leader

def position (n : Node) : Position := n.storage.position

def status (n : Node) : Status where
  id := n.id
  term := n.term
  role := n.role.kind
  leader := n.leader
  vote := n.vote
  votes := (n.role.tally?.map (·.toList)).getD []

/-! ## Outputs -/

def toPeers (n : Node) (m : Message) : List Output :=
  n.roster.peers.map fun target => .send target m

def answerVote (n : Node) (target : NodeId) (granted : Bool) : Output :=
  .send target (.voteResponse { voter := n.id, term := n.term, granted })

def answerAppend (n : Node) (target : NodeId) (success : Bool) : Output :=
  .send target (.appendResponse { follower := n.id, term := n.term, success })

def heartbeats (n : Node) : List Output :=
  n.toPeers (.appendEntries (heartbeat n.id n.term n.position))

def addOnce (outputs : List Output) (o : Output) : List Output :=
  if o ∈ outputs then outputs else outputs ++ [o]

/-! ## Changes of role -/

/-- Adopts a newer term durably, as a follower with no vote cast in it. -/
def adopt (n : Node) (term : Term) : Reaction :=
  match n.storage.storeTerm term with
  | (storage, .error cause) => ({ n with storage }, .error (.durability cause))
  | (storage, .ok ()) =>
    ({ n with storage, term, role := .follower, leader := none, vote := none },
      .ok ((if n.isLeader then [.steppedDown term] else []) ++ [.resetElectionTimer]))

def catchUp (n : Node) (term : Term) : Reaction :=
  if n.term < term then n.adopt term else (n, .ok [])

/-- Takes the lead of the current term and announces it to the other members. -/
def lead (n : Node) : Reaction :=
  ({ n with role := .leader, leader := some n.id },
    .ok ([.becameLeader n.term, .scheduleHeartbeat] ++ n.heartbeats))

/-! ## Handlers -/

/-- Starts a new term as a candidate, once the vote for itself is durable. -/
def onElectionTimeout (n : Node) : Reaction :=
  if n.isLeader then (n, .ok [])
  else if n.term = Int32.maxValue then (n, .error (.termOverflow n.term))
  else
    let term := n.term + 1
    match n.storage.storeVote term n.id with
    | (storage, .error cause) => ({ n with storage }, .error (.durability cause))
    | (storage, .ok ()) =>
      let votes := IdSet.singleton n.id
      let n := { n with storage, term, role := .candidate votes, leader := none, vote := some n.id }
      if votes.carries n.roster.quorum then n.lead
      else
        let request := Message.voteRequest { candidate := n.id, term, last := n.position }
        (n, .ok (n.toPeers request ++ [.resetElectionTimer]))

def onHeartbeatDue (n : Node) : Reaction :=
  if n.isLeader then (n, .ok (n.heartbeats ++ [.scheduleHeartbeat])) else (n, .ok [])

/-- Grants a vote in the current term if the candidate's log is not behind and the vote is free or
already the candidate's. A vote that is given again is not recorded again. -/
def decideVote (n : Node) (r : VoteRequest) (outputs : List Output) : Reaction :=
  match n.storage.readVote n.term with
  | .error cause => (n, .error (.durability cause))
  | .ok recorded =>
    if n.position ≤ r.last ∧ (recorded = none ∨ recorded = some r.candidate) then
      let (storage, result) :=
        if recorded = some r.candidate then (n.storage, .ok ())
        else n.storage.storeVote n.term r.candidate
      match result with
      | .error cause => ({ n with storage }, .error (.durability cause))
      | .ok () =>
        let n := { n with storage, vote := some r.candidate }
        (n, .ok (addOnce outputs .resetElectionTimer ++ [n.answerVote r.candidate true]))
    else (n, .ok (outputs ++ [n.answerVote r.candidate false]))

def onVoteRequest (n : Node) (r : VoteRequest) : Reaction :=
  if r.term < n.term then (n, .ok [n.answerVote r.candidate false])
  else match n.catchUp r.term with
    | (n, .error e) => (n, .error e)
    | (n, .ok outputs) => n.decideVote r outputs

/-- Counts a granted vote of the current term, and takes the lead with a quorum. -/
def onVoteResponse (n : Node) (r : VoteResponse) : Reaction :=
  if n.term < r.term then n.adopt r.term
  else if r.term < n.term then (n, .ok [])
  else match n.role with
    | .candidate votes =>
      if r.granted then
        let votes := votes.insert r.voter
        let n := { n with role := .candidate votes }
        if votes.carries n.roster.quorum then n.lead else (n, .ok [])
      else (n, .ok [])
    | _ => (n, .ok [])

/-- Follows the sender of a heartbeat that is not out of date. -/
def onAppendEntries (n : Node) (r : AppendEntries) : Reaction :=
  if r.term < n.term then (n, .ok [n.answerAppend r.leader false])
  else match n.catchUp r.term with
    | (n, .error e) => (n, .error e)
    | (n, .ok outputs) =>
      if n.isLeader then (n, .ok (outputs ++ [n.answerAppend r.leader false]))
      else
        let n := { n with role := .follower, leader := some r.leader }
        (n, .ok (addOnce outputs .resetElectionTimer ++ [n.answerAppend r.leader true]))

def onAppendResponse (n : Node) (r : AppendResponse) : Reaction := n.catchUp r.term

/-- Handles a message, unless it does not come from another member. -/
def onMessage (n : Node) (m : Message) : Reaction :=
  if n.roster.isPeer m.sender then
    match m with
    | .voteRequest r => n.onVoteRequest r
    | .voteResponse r => n.onVoteResponse r
    | .appendEntries r => n.onAppendEntries r
    | .appendResponse r => n.onAppendResponse r
  else (n, .ok [])

def handle (n : Node) : Event → Reaction
  | .electionTimeout => n.onElectionTimeout
  | .heartbeatDue => n.onHeartbeatDue
  | .message m => n.onMessage m

end Node

end Elector
