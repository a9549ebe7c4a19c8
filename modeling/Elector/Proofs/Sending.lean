import Elector.Proofs.Record

/-!
# What messages say about their sender

Whatever a node sends is true of the node at that moment (`vouches_of_effect`): it goes to another
member, under the sender's own name and term, and a message that claims a vote or the lead is sent
by a node that has the vote on record or leads. A grant in particular names the one candidate that
the record names.
-/

namespace Elector.Node

/-- What the kind of a message claims about its sender. -/
def Backs (n : Node) (target : NodeId) : Message → Prop
  | .voteRequest r => r.last = n.position ∧ n.storage.ballots.vote? n.term = some n.id
  | .voteResponse r => r.granted = true → n.storage.ballots.vote? n.term = some target
  | .appendEntries _ => n.role = .leader
  | .appendResponse _ => True

structure Vouches (n : Node) (target : NodeId) (m : Message) : Prop where
  peer : target ∈ n.roster.peers
  sender : m.sender = n.id
  term : m.term = n.term
  backs : n.Backs target m

variable {e : Event} {n n' mid : Node} {outputs before : List Output} {t : Turn}
  {target : NodeId} {m m' : Message}

theorem send_mem_toPeers :
    Output.send target m ∈ n.toPeers m' ↔ m = m' ∧ target ∈ n.roster.peers := by
  simp only [toPeers, List.mem_map, Output.send.injEq]
  constructor
  · rintro ⟨id, hid, rfl, rfl⟩
    exact ⟨rfl, hid⟩
  · rintro ⟨rfl, htarget⟩
    exact ⟨target, htarget, rfl, rfl⟩

theorem OnlyTimers.send_notMem {timers : List Output} (h : OnlyTimers timers) :
    Output.send target m ∉ timers := by
  intro hm
  cases h _ hm

theorem CatchUp.send_notMem (h : CatchUp e n mid before) : Output.send target m ∉ before := by
  cases h with
  | stay => simp
  | adopt =>
    split <;> simp

theorem vouches_heartbeats (hrole : n.role = .leader)
    (hm : Output.send target m ∈ n.heartbeats) : n.Vouches target m := by
  obtain ⟨rfl, htarget⟩ := send_mem_toPeers.mp hm
  exact ⟨htarget, rfl, rfl, hrole⟩

theorem vouches_announcement (hm : Output.send target m ∈ n.announcement) :
    n.leading.Vouches target m := by
  have hbeat : Output.send target m ∈ n.heartbeats := by simpa [announcement] using hm
  exact vouches_heartbeats (n := n.leading) rfl hbeat

theorem Move.vouches (h : Move e n n' outputs) (hm : Output.send target m ∈ outputs) :
    n'.Vouches target m := by
  cases h with
  | idle => cases hm
  | fault kept => cases hm
  | beat event leads =>
    have hrole : n.role = .leader := by simpa [isLeader] using leads
    refine vouches_heartbeats hrole ?_
    simpa using hm
  | @stand s event leads grows casts short =>
    have hcast := Ballots.vote_cast casts.ballots
    have hm : Output.send target m ∈ (n.standing s).toPeers (n.standing s).ballot := by
      simpa using hm
    obtain ⟨rfl, htarget⟩ := send_mem_toPeers.mp hm
    exact ⟨htarget, rfl, rfl, rfl, hcast⟩
  | standAlone event leads grows casts carried => exact vouches_announcement hm
  | @grant r s timers event peer current gate recorded only =>
    have hvote : s.ballots.vote? n.term = some r.candidate := by
      rcases recorded with ⟨hours, rfl⟩ | ⟨_, casts⟩
      · exact hours
      · exact Ballots.vote_cast casts.ballots
    rcases List.mem_append.mp hm with hm | hm
    · exact absurd hm only.send_notMem
    · cases List.mem_singleton.mp hm
      exact ⟨peer, rfl, rfl, fun _ => hvote⟩
  | refuse event peer =>
    cases List.mem_singleton.mp hm
    exact ⟨peer, rfl, rfl, fun hgranted => by cases hgranted⟩
  | count => cases hm
  | win event peer current granted role carried => exact vouches_announcement hm
  | follow event peer current leads only =>
    rcases List.mem_append.mp hm with hm | hm
    · exact absurd hm only.send_notMem
    · cases List.mem_singleton.mp hm
      exact ⟨peer, rfl, rfl, trivial⟩
  | rebuff event peer reason =>
    cases List.mem_singleton.mp hm
    exact ⟨peer, rfl, rfl, trivial⟩

theorem Passes.vouches (h : Passes e n n' outputs) (hm : Output.send target m ∈ outputs) :
    n'.Vouches target m := by
  obtain ⟨mid, before, after, caught, move, rfl⟩ := h
  rcases List.mem_append.mp hm with hm | hm
  · exact absurd hm caught.send_notMem
  · exact move.vouches hm

/-- A node stands behind everything that it sends in a turn. -/
theorem vouches_of_effect (h : Effect n t n' outputs) (hm : Output.send target m ∈ outputs) :
    n'.Vouches target m := by
  cases h with
  | handled passes given =>
    rcases given with rfl | rfl
    · exact passes.vouches hm
    · cases hm
  | crashed => cases hm
  | outside => cases hm

end Elector.Node
