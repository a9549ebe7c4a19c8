import Elector.Process
import Elector.Proofs.Life

/-!
# Reachable nodes

A node is reachable if it was started on a storage that writes have made out of a fresh one
(`Storage.Produced`) and has taken any turns since: events handled to the end or up to a failure,
crashes, changes of the log. A reachable node is sound (`Reachable.sound`). Two statements follow:

* `memory_matches_record`: after every handler that is called, the term and the vote in memory are
  those on record, so that a new node on the same storage starts where the old one stands;
* `sends_are_backed`: whatever a handler sends goes to another member, and the record bears out
  what it says.
-/

namespace Elector

/-! ## Storages that have been written to -/

namespace Storage

/-- A storage that writes have made out of a fresh one. Any of its operations may have failed, and
it may have been opened again in between. -/
inductive Produced : Storage → Prop
  | fresh {s : Storage} (fresh : s.Fresh) : Produced s
  | fails {s : Storage} (outage : Outage) (before : Produced s) : Produced { s with outage }
  | write {s : Storage} (w : Write) (before : Produced s) : Produced (s.perform w).1
  | reload {s s' : Storage} (before : Produced s) (reloads : s.reload = .ok s') : Produced s'

variable {s s' : Storage}

theorem settled_change {w : Write} {r r' : Ballots} (h : w.change r = .ok r') (hs : r.Settled) :
    r'.Settled := by
  cases w with
  | cast t c => exact Ballots.settled_cast h hs
  | reach t => exact Ballots.settled_reach h hs

theorem settled_perform (w : Write) (hs : s.ballots.Settled) :
    (s.perform w).1.ballots.Settled := by
  cases hw : s.perform w with
  | mk s' result =>
    cases result with
    | error e =>
      rw [(keeps_of_perform hw).ballots]
      exact hs
    | ok u => exact settled_change (perform_ok hw).1 hs

theorem backed_perform (w : Write) (hb : s.Backed) : (s.perform w).1.Backed := by
  cases hw : s.perform w with
  | mk s' result =>
    cases result with
    | error e => exact (keeps_of_perform hw).backed hb
    | ok u => exact (perform_ok hw).2.2.2 hb

theorem Produced.settled_backed (h : s.Produced) : s.ballots.Settled ∧ s.Backed := by
  induction h with
  | fresh fresh =>
    have hsettled := Ballots.settled_empty
    rw [← fresh.ballots] at hsettled
    exact ⟨hsettled, fresh.backed⟩
  | fails outage before ih => exact ih
  | write w before ih => exact ⟨settled_perform w ih.1, backed_perform w ih.2⟩
  | reload before reloads ih =>
    have kept := keeps_of_reload ih.2 reloads
    exact ⟨kept.ballots ▸ ih.1, kept.backed ih.2⟩

end Storage

namespace Node

variable {n n' : Node} {s s' : Storage} {e : Event} {roster : Roster}

/-! ## Starting again -/

/-- With loads that work, a node starts as a follower in the recorded term, with its vote. -/
theorem start_eq (roster : Roster) (hloads : s.outage.loads = false) :
    start roster s = .ok { reborn roster s with storage := s } := by
  have hread : s.readTerm = .ok s.ballots.term := by simp [Storage.readTerm, hloads]
  have hvote : s.readVote s.ballots.term = .ok (s.ballots.vote? s.ballots.term) := by
    simp [Storage.readVote, hloads]
  simp only [start, hread, hvote]
  rfl

theorem sound_of_start (hsettled : s.ballots.Settled) (hbacked : s.Backed)
    (h : start roster s = .ok n) : n.Sound := by
  rw [start_eq_ok h]
  exact (sound_reborn roster hsettled hbacked).keeps ⟨rfl, rfl, rfl, rfl⟩

/-- A crash that loses nothing but the role and the leader. -/
theorem Sound.restart (hs : n.Sound) (h : n.restart n.storage = some n') :
    n'.role = .follower ∧ n'.leader = none ∧ n'.term = n.term ∧ n'.vote = n.vote := by
  obtain ⟨s, hreload, rfl⟩ := restart_eq_some h
  have kept := Storage.keeps_of_reload hs.backed hreload
  have hterm : (reborn n.roster s).term = n.term := by
    rw [hs.term, ← kept.ballots]
    rfl
  have hvote : (reborn n.roster s).vote = n.vote := by
    rw [hs.vote, hs.term, ← kept.ballots]
    rfl
  exact ⟨rfl, rfl, hterm, hvote⟩

/-! ## Reachable nodes -/

/-- The node has been started, and has taken any number of turns since. -/
inductive Reachable : Node → Prop
  | start {roster : Roster} {s : Storage} {n : Node} (produced : s.Produced)
      (starts : Node.start roster s = .ok n) : Reachable n
  | turn {n n' : Node} {t : Turn} {outputs : List Output} (before : Reachable n)
      (takes : n.turn t = some (n', outputs)) : Reachable n'

theorem Reachable.sound (h : n.Reachable) : n.Sound := by
  induction h with
  | start produced starts =>
    obtain ⟨hsettled, hbacked⟩ := produced.settled_backed
    exact sound_of_start hsettled hbacked starts
  | turn before takes ih => exact sound_of_effect (effect_turn takes) ih

structure Call where
  event : Event
  outage : Outage := {}
deriving DecidableEq, Repr

def call (n : Node) (c : Call) : Reaction := (n.under c.outage).handle c.event

def afterCalls (n : Node) (calls : List Call) : Node := calls.foldl (fun n c => (n.call c).1) n

theorem Reachable.call (h : n.Reachable) (c : Call) : (n.call c).1.Reachable := by
  cases hcall : n.call c with
  | mk n' result =>
    have hhandle : (n.under c.outage).handle c.event = (n', result) := hcall
    cases result with
    | error cause =>
      have htakes : n.turn (.handle c.event c.outage) = some (n', []) := by
        rw [Node.turn, hhandle]
      exact h.turn htakes
    | ok outputs =>
      have htakes : n.turn (.handle c.event c.outage) = some (n', outputs) := by
        rw [Node.turn, hhandle]
      exact h.turn htakes

theorem Reachable.afterCalls (h : n.Reachable) (calls : List Call) :
    (n.afterCalls calls).Reachable := by
  induction calls generalizing n with
  | nil => exact h
  | cons c calls ih => exact ih (h.call c)

/-! ## Memory and record -/

/-- **Memory and record never drift apart.** After any calls of handlers, whichever of them failed,
the term and the vote of the node are those that its storage has on record. A new node that starts
on the storage, or on what is found of it after a crash, is a follower with the same term and the
same vote. -/
theorem memory_matches_record (produced : s.Produced) (starts : start roster s = .ok n)
    (calls : List Call) :
    (n.afterCalls calls).term = (n.afterCalls calls).storage.ballots.term ∧
    (n.afterCalls calls).vote =
      (n.afterCalls calls).storage.ballots.vote? (n.afterCalls calls).term ∧
    (∀ outage : Outage, outage.loads = false →
      start (n.afterCalls calls).roster { (n.afterCalls calls).storage with outage } =
        .ok { (n.afterCalls calls).under outage with role := .follower, leader := none }) ∧
    ∀ m, (n.afterCalls calls).restart (n.afterCalls calls).storage = some m →
      m.role = .follower ∧ m.leader = none ∧ m.term = (n.afterCalls calls).term ∧
        m.vote = (n.afterCalls calls).vote := by
  have hreachable := (Reachable.start produced starts).afterCalls calls
  generalize n.afterCalls calls = after at hreachable ⊢
  have hs := hreachable.sound
  refine ⟨hs.term, hs.vote, ?_, fun m hm => hs.restart hm⟩
  intro outage hloads
  have hvote : after.vote = after.storage.ballots.vote? after.storage.ballots.term := by
    rw [← hs.term]
    exact hs.vote
  rw [start_eq _ hloads, reborn, ← hvote, ← hs.term]
  rfl

/-- A vote is asked for while votes cannot be written, then granted; then a term cannot be
reached. -/
def faultyCalls : List Call :=
  [⟨.message (.voteRequest { candidate := 2, term := 4, last := {} }), { vote := some ⟨0, 0⟩ }⟩,
   ⟨.message (.voteRequest { candidate := 3, term := 4, last := {} }), {}⟩,
   ⟨.message (.appendEntries (heartbeat 2 7 {})), { term := some ⟨0, 0⟩ }⟩]

def votedStorage : Storage := (({} : Storage).perform (.cast 2 2)).1

theorem memory_matches_record_faultyCalls :
    let n : Node := reborn (.of 1 [2, 3]) votedStorage
    (n.afterCalls faultyCalls).term = 4 ∧ (n.afterCalls faultyCalls).vote = some 3 ∧
      (n.afterCalls faultyCalls).storage.ballots.term = 4 ∧
      (n.afterCalls faultyCalls).storage.ballots.vote? 4 = some 3 := by
  intro n
  have hproduced : votedStorage.Produced :=
    .write _ (.fresh ⟨rfl, rfl, Storage.backed_of_memory rfl⟩)
  have hstart : start (.of 1 [2, 3]) votedStorage = .ok n := rfl
  obtain ⟨hterm, hvote, _⟩ := memory_matches_record hproduced hstart faultyCalls
  have hfour : (n.afterCalls faultyCalls).term = 4 := by decide +kernel
  have hthree : (n.afterCalls faultyCalls).vote = some 3 := by decide +kernel
  rw [hfour] at hterm hvote
  exact ⟨hfour, hthree, hterm.symm, hvote.symm.trans hthree⟩

/-! ## What is sent and what is on record -/

theorem Vouches.recorded {target : NodeId} {m : Message} (h : n.Vouches target m) (hs : n.Sound) :
    m.term = n.storage.ballots.term ∧
    (m.kind = .voteRequest ∨ m.kind = .appendEntries →
      n.storage.ballots.vote? m.term = some n.id) ∧
    ∀ r, m = .voteResponse r → r.granted = true →
      n.storage.ballots.vote? m.term = some target := by
  rw [h.term]
  refine ⟨hs.term, ?_, ?_⟩
  · intro hkind
    cases m with
    | voteRequest r => exact h.backs.2
    | appendEntries r =>
      have hrole : n.role = .leader := h.backs
      exact hs.own (by simp [hrole])
    | voteResponse r => simp [Message.kind] at hkind
    | appendResponse r => simp [Message.kind] at hkind
  · intro r hm hgranted
    subst hm
    exact h.backs hgranted

theorem react_error {p : Process} {now : Nat} {cause : NodeError}
    (h : (p.node.handle e).2 = .error cause) : (p.react now e).2 = [] := by
  rw [Process.react]
  cases hhandle : p.node.handle e with
  | mk n result =>
    rw [hhandle] at h
    cases h
    rfl

/-- **Nothing leaves a node that its record does not back.** Whatever a handler sends goes to
another member, so that the network is never asked for an unknown one, under the node's own id and
in the term that is on record when the handler is done. For that term the node's own vote is on
record if it asks for votes or sends heartbeats, and the receiver's if it grants a vote. A handler
that fails has nothing sent. -/
theorem sends_are_backed (h : n.Reachable) (e : Event) (outage : Outage) :
    (∀ n' outputs, (n.under outage).handle e = (n', .ok outputs) →
      ∀ target m, .send target m ∈ outputs →
        target ∈ n.roster.members ∧ target ≠ n.id ∧
        (∀ net : Network, net.dispatch n.id n.roster target m =
          net.send n.id target (Frame.encode m)) ∧
        m.sender = n.id ∧ m.term = n'.term ∧ m.term = n'.storage.ballots.term ∧
        (m.kind = .voteRequest ∨ m.kind = .appendEntries →
          n'.storage.ballots.vote? m.term = some n.id) ∧
        ∀ r, m = .voteResponse r → r.granted = true →
          n'.storage.ballots.vote? m.term = some target) ∧
    ∀ cause, ((n.under outage).handle e).2 = .error cause →
      ∀ p : Process, p.node = n.under outage → ∀ now, (p.react now e).2 = [] := by
  constructor
  · intro n' outputs hhandle target m hsend
    have htakes : n.turn (.handle e outage) = some (n', outputs) := by
      rw [Node.turn, hhandle]
    have heffect := effect_turn htakes
    have hvouches := vouches_of_effect heffect hsend
    have hs := sound_of_effect heffect h.sound
    have hroster : n'.roster = n.roster := heffect.roster
    have hid : n'.id = n.id := congrArg Roster.self hroster
    have hpeer : target ∈ n.roster.peers := hroster ▸ hvouches.peer
    obtain ⟨hmember, hne⟩ := Roster.mem_peers.mp hpeer
    obtain ⟨hterm, hown, hgrant⟩ := hvouches.recorded hs
    rw [hid] at hown
    refine ⟨hmember, hne, ?_, hid ▸ hvouches.sender, hvouches.term, hterm, hown, hgrant⟩
    intro net
    rw [Network.dispatch, if_pos (Roster.isPeer_iff.mpr hpeer)]
  · intro cause hfails p hnode now
    rw [← hnode] at hfails
    exact react_error hfails

/-- A reachable candidate that a vote makes the leader, and one that fails to stand. -/
theorem sends_are_backed_elected :
    let n : Node := (reborn (.of 1 [2, 3]) {}).afterCalls [⟨.electionTimeout, {}⟩]
    let grant := Message.voteResponse { voter := 3, term := 1, granted := true }
    let beat := Message.appendEntries (heartbeat 1 1 {})
    ((n.under {}).handle (.message grant)).2 =
        .ok [.becameLeader 1, .scheduleHeartbeat, .send 2 beat, .send 3 beat] ∧
      ((n.under {}).handle (.message grant)).1.storage.ballots.vote? 1 = some 1 ∧
      ∀ p : Process, p.node = n.under { vote := some ⟨0, 0⟩ } →
        (p.react 0 .electionTimeout).2 = [] := by
  intro n grant beat
  have hstart : start (.of 1 [2, 3]) {} = .ok (reborn (.of 1 [2, 3]) {}) := rfl
  have hfresh : Storage.Fresh {} := ⟨rfl, rfl, Storage.backed_of_memory rfl⟩
  have hreachable : n.Reachable := (Reachable.start (.fresh hfresh) hstart).afterCalls _
  have hsome : ((n.under {}).handle (.message grant)).2.toOption =
      some [.becameLeader 1, .scheduleHeartbeat, .send 2 beat, .send 3 beat] := by
    simp only [n, grant, beat]
    decide +kernel
  have hok : ((n.under {}).handle (.message grant)).2 =
      .ok [.becameLeader 1, .scheduleHeartbeat, .send 2 beat, .send 3 beat] := by
    cases hresult : ((n.under {}).handle (.message grant)).2 with
    | error cause =>
      rw [hresult] at hsome
      cases hsome
    | ok outputs =>
      rw [hresult] at hsome
      exact congrArg _ (Option.some.inj hsome)
  have hfails : ((n.under { vote := some ⟨0, 0⟩ }).handle .electionTimeout).2 =
      .error (.durability .unavailable) := rfl
  obtain ⟨hsends, _⟩ := sends_are_backed hreachable (.message grant) {}
  obtain ⟨_, hnothing⟩ := sends_are_backed hreachable .electionTimeout { vote := some ⟨0, 0⟩ }
  obtain ⟨_, _, _, _, _, _, hown, _⟩ := hsends _ _ (Prod.ext rfl hok) 2 beat (by simp)
  exact ⟨hok, hown (Or.inr rfl), fun p hp => hnothing _ hfails p hp 0⟩

end Node

end Elector
