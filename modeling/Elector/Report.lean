import Elector.Json.Value
import Elector.Node

/-!
# Reports

How messages and the statuses of a cluster are shown, and what the statuses say about its leader.
-/

namespace Elector

open Json (Value)

/-! ## Documents -/

namespace Message

def toValue (m : Message) : Value :=
  let fields : List (String × Value) :=
    match m with
    | voteRequest m => [
        ("candidate_id", .ofInt m.candidate.toInt), ("term", .ofInt m.term.toInt),
        ("last_log_term", .ofInt m.last.term.toInt),
        ("last_log_index", .ofInt m.last.index.toInt)]
    | voteResponse m => [
        ("id", .ofInt m.voter.toInt), ("term", .ofInt m.term.toInt), ("granted", .bool m.granted)]
    | appendEntries m => [
        ("leader_id", .ofInt m.leader.toInt), ("term", .ofInt m.term.toInt),
        ("prev_log_term", .ofInt m.previous.term.toInt),
        ("prev_log_index", .ofInt m.previous.index.toInt),
        ("commit_position", .ofInt m.commit.toInt)]
    | appendResponse m => [
        ("id", .ofInt m.follower.toInt), ("term", .ofInt m.term.toInt),
        ("success", .bool m.success)]
  .record [(m.kind.name, .record fields)]

end Message

namespace Status

def toValue (s : Status) : Value :=
  let id (i : NodeId) : Value := .ofInt i.toInt
  .record [
    ("id", id s.id), ("term", .ofInt s.term.toInt), ("role", .ofString s.role.name),
    ("leader_id", .ofOption id s.leader), ("voted_for", .ofOption id s.vote),
    ("votes_received", .array (s.votes.map id))]

def line (s : Status) : String := String.ofList s.toValue.compact

end Status

/-! ## The leader of a cluster -/

inductive LeaderError
  | none (top : Term)
  | several (top : Term)
deriving DecidableEq, Repr

def LeaderError.message : LeaderError → String
  | none top => s!"no leader in term {top}"
  | several top => s!"more than one leader in term {top}"

/-- The greatest term of the statuses, 0 if there are none. -/
def topTerm : List Status → Term
  | [] => 0
  | s :: rest => rest.foldl (fun top s => if top < s.term then s.term else top) s.term

/-- The one leader of the greatest term. A leader of an earlier term has been deposed. -/
def soleLeader (statuses : List Status) : Except LeaderError Status :=
  let top := topTerm statuses
  match statuses.filter fun s => s.role = .leader && s.term = top with
  | [s] => .ok s
  | [] => .error (.none top)
  | _ => .error (.several top)

end Elector
