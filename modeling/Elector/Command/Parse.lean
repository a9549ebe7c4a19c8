import Elector.Command.Arguments
import Elector.Message
import Elector.Seeding

/-!
# Commands

What the program can be asked for, and the command lines that ask for it.
-/

namespace Elector

structure ClusterOptions where
  nodes : Int32 := 5
  config : Option String := none
  /-- Whether votes and logs are kept in files. -/
  persist : Bool := false
  /-- How long each election round runs, in milliseconds. -/
  settle : UInt64 := 1500
  /-- Whether the first leader is isolated, to see who follows it. -/
  isolateLeader : Bool := false
deriving DecidableEq, Repr

inductive Command
  | cluster (options : ClusterOptions)
  | decode (hex : String)
  | encode (m : Message)
  | log (dataDir : String) (action : LogAction)
deriving DecidableEq, Repr

namespace Command

/-! ## The grammar -/

private def int32Option (name : String) : Opt where
  name := name
  accepts text := (int32? text).isSome

private def int64Option (name : String) : Opt where
  name := name
  accepts text := (int64? text).isSome

private def flagOption (name : String) : Opt where
  name := name
  takesValue := false

private def clusterGrammar : Grammar where
  options := [
    { int32Option "nodes" with letter := some 'n' },
    { name := "config", letter := some 'c', accepts := fun text => text ≠ "" },
    flagOption "persist",
    { name := "settle-ms", accepts := fun text => (uint64? text).isSome },
    flagOption "isolate-leader"]

private def encodeGrammar : Grammar where
  commands := [
    ("request-vote", { options := [
      int32Option "candidate", int32Option "term", int32Option "last-log-term",
      int64Option "last-log-index"] }),
    ("vote-response", { options := [int32Option "id", int32Option "term", flagOption "granted"] }),
    ("append-entries", { options := [
      int32Option "leader", int32Option "term", int32Option "prev-log-term",
      int64Option "prev-log-index", int64Option "commit-position"] }),
    ("append-entries-response", { options := [
      int32Option "id", int32Option "term", flagOption "success"] })]

private def logGrammar : Grammar where
  options := [{ name := "data-dir", letter := some 'd' }]
  commands := [
    ("show", {}),
    ("append", { options := [
      int32Option "term", { name := "count", accepts := fun text => (uint32? text).isSome }] })]

def grammar : Grammar where
  commands := [
    ("cluster", clusterGrammar), ("decode", { words := 1 }), ("encode", encodeGrammar),
    ("log", logGrammar)]

/-! ## Meaning -/

private def value? {α : Type} (i : Invocation) (name : String) (read : String → Option α) :
    Option α :=
  (i.options.lookup name).bind read

private def valueOr {α : Type} (i : Invocation) (name : String) (read : String → Option α)
    (default : α) : α :=
  (value? i name read).getD default

private def given (i : Invocation) (name : String) : Bool := (i.options.lookup name).isSome

/-- The command of a command line, unless something that it needs is missing. -/
def ofInvocation? (i : Invocation) : Option Command :=
  match i.path with
  | ["cluster"] => some (.cluster {
      nodes := valueOr i "nodes" int32? 5
      config := i.options.lookup "config"
      persist := given i "persist"
      settle := valueOr i "settle-ms" uint64? 1500
      isolateLeader := given i "isolate-leader" })
  | ["decode"] => i.words.head?.map .decode
  | ["encode", "request-vote"] => do
    let candidate ← value? i "candidate" int32?
    let term ← value? i "term" int32?
    some (.encode (.voteRequest {
      candidate, term
      last := {
        term := valueOr i "last-log-term" int32? 0
        index := valueOr i "last-log-index" int64? 0 } }))
  | ["encode", "vote-response"] => do
    let voter ← value? i "id" int32?
    let term ← value? i "term" int32?
    some (.encode (.voteResponse { voter, term, granted := given i "granted" }))
  | ["encode", "append-entries"] => do
    let leader ← value? i "leader" int32?
    let term ← value? i "term" int32?
    some (.encode (.appendEntries {
      leader, term
      previous := {
        term := valueOr i "prev-log-term" int32? 0
        index := valueOr i "prev-log-index" int64? 0 }
      commit := valueOr i "commit-position" int64? 0 }))
  | ["encode", "append-entries-response"] => do
    let follower ← value? i "id" int32?
    let term ← value? i "term" int32?
    some (.encode (.appendResponse { follower, term, success := given i "success" }))
  | ["log", "show"] => some (.log ((i.options.lookup "data-dir").getD "data") .inspect)
  | ["log", "append"] => do
    let term ← value? i "term" int32?
    some (.log ((i.options.lookup "data-dir").getD "data")
      (.append term (valueOr i "count" uint32? 1)))
  | _ => none

def parse (arguments : List String) : Except Refusal Command :=
  match grammar.read arguments with
  | .error e => .error e
  | .ok i =>
    match ofInvocation? i with
    | some c => .ok c
    | none => .error .usage

end Command

end Elector
