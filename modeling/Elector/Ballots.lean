import Elector.Compact
import Elector.Position
import Elector.Sorted

/-!
# Ballots

The term a node has reached and the vote it cast in it. Ballots never go back to an earlier term and
never hold two votes of one term, whatever is asked of them.
-/

namespace Elector

inductive VoteError
  | io
  | unreadable (cause : CompactError)
  | alreadyVoted (term : Term) (existing requested : NodeId)
  | staleTerm (term current : Term)
  | unavailable
deriving DecidableEq, Repr

def VoteError.message : VoteError → String
  | io => "IO error"
  | unreadable cause => s!"Serialization error: {cause.message}"
  | alreadyVoted term existing requested =>
    s!"Term {term} already has a vote for {existing}, refusing {requested}"
  | staleTerm term current => s!"Term {term} is behind the stored term {current}"
  | unavailable => "Vote store unavailable"

structure Ballots where
  term : Term := 0
  votes : IdMap NodeId := .empty
deriving DecidableEq, Repr

namespace Ballots

def vote? (r : Ballots) (term : Term) : Option NodeId := r.votes.find? term

/-- Moves on to `term`, forgetting the votes of earlier terms. -/
def advance (r : Ballots) (term : Term) : Ballots where
  term := term
  votes := r.votes.filterKeys (term ≤ ·)

/-- Records a vote. A vote that is already there changes nothing. -/
def cast (r : Ballots) (term : Term) (candidate : NodeId) : Except VoteError Ballots :=
  if term < r.term then .error (.staleTerm term r.term)
  else match r.vote? term with
    | some existing =>
      if existing = candidate then .ok r else .error (.alreadyVoted term existing candidate)
    | none => .ok ({ r with votes := r.votes.insert term candidate }.advance term)

/-- Records that `term` has been reached, with no vote cast in it yet. -/
def reach (r : Ballots) (term : Term) : Except VoteError Ballots :=
  if term < r.term then .error (.staleTerm term r.term)
  else if term = r.term then .ok r
  else .ok (r.advance term)

/-! ## The file format -/

def encodeVote (v : Term × NodeId) : Bytes := Compact.encodeWord v.1 ++ Compact.encodeWord v.2

def readVote : Compact.Reader (Term × NodeId) := fun bs =>
  match Compact.word bs with
  | .error e => .error e
  | .ok (term, rest) =>
    match Compact.word rest with
    | .error e => .error e
    | .ok (candidate, rest) => .ok ((term, candidate), rest)

def encode (r : Ballots) : Bytes :=
  Compact.encodeWord r.term ++ Compact.encodeList encodeVote r.votes.entries

/-- Reads ballots off the front of a file's content. Of two votes of one term the later counts. -/
def read : Compact.Reader Ballots := fun bs =>
  match Compact.word bs with
  | .error e => .error e
  | .ok (term, rest) =>
    match Compact.list readVote rest with
    | .error e => .error e
    | .ok (votes, rest) => .ok ({ term, votes := .ofList votes }, rest)

/-- The ballots that a file's content holds; an empty file holds none. -/
def ofContent (content : Bytes) : Except VoteError Ballots :=
  if content = [] then .ok {}
  else match read content with
    | .error e => .error (.unreadable e)
    | .ok (r, _) => .ok r

end Ballots

end Elector
