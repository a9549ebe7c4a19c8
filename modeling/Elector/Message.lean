import Elector.Position

/-!
# Messages

What cluster members say to each other: requests for votes, heartbeats, and the replies to both.
-/

namespace Elector

/-- A candidate asks for a vote, showing how far its log goes. -/
structure VoteRequest where
  candidate : NodeId
  term : Term
  last : Position
deriving DecidableEq, Repr

structure VoteResponse where
  voter : NodeId
  term : Term
  granted : Bool
deriving DecidableEq, Repr

/-- A leader's heartbeat, with the last position of its log and the committed index. -/
structure AppendEntries where
  leader : NodeId
  term : Term
  previous : Position
  commit : LogIndex
deriving DecidableEq, Repr

structure AppendResponse where
  follower : NodeId
  term : Term
  success : Bool
deriving DecidableEq, Repr

inductive Message
  | voteRequest (body : VoteRequest)
  | voteResponse (body : VoteResponse)
  | appendEntries (body : AppendEntries)
  | appendResponse (body : AppendResponse)
deriving DecidableEq, Repr

namespace Message

/-- The member that the message says it comes from. -/
def sender : Message → NodeId
  | voteRequest m => m.candidate
  | voteResponse m => m.voter
  | appendEntries m => m.leader
  | appendResponse m => m.follower

def term : Message → Term
  | voteRequest m => m.term
  | voteResponse m => m.term
  | appendEntries m => m.term
  | appendResponse m => m.term

inductive Kind
  | voteRequest
  | voteResponse
  | appendEntries
  | appendResponse
deriving DecidableEq, Repr

def kind : Message → Kind
  | voteRequest _ => .voteRequest
  | voteResponse _ => .voteResponse
  | appendEntries _ => .appendEntries
  | appendResponse _ => .appendResponse

def Kind.name : Kind → String
  | voteRequest => "RequestVote"
  | voteResponse => "VoteResponse"
  | appendEntries => "AppendEntries"
  | appendResponse => "AppendEntriesResponse"

end Message

def heartbeat (leader : NodeId) (term : Term) (last : Position) : AppendEntries where
  leader := leader
  term := term
  previous := last
  commit := last.index

end Elector
