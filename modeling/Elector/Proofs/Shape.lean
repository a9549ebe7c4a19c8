import Elector.Proofs.Life
import Elector.Proofs.Origin

/-!
# The shape of a node

The fields of a node fit together at every moment of its life (`shape_of_node`): what its role says
about its leader, its vote and its tally, whom its vote can be for, and what its status lists. Most
of it is `Sound`. What is new is `VotesForMembers`: nobody but a member ever gets a vote, because a
node votes for itself or for a peer that asks it to.
-/

namespace Elector.Node

def VotesForMembers (n : Node) : Prop :=
  ∀ term c, n.storage.ballots.vote? term = some c → c ∈ n.roster.members

variable {e : Event} {n n' mid : Node} {outputs before : List Output} {t : Turn} {term : Term}
  {c : NodeId}

/-! ## Who gets votes -/

/-- A change adds no vote to the record but the node's own and those for peers. -/
theorem Move.voted (h : Move e n n' outputs) (hc : n'.storage.ballots.vote? term = some c) :
    n.storage.ballots.vote? term = some c ∨ c = n.id ∨ c ∈ n.roster.peers := by
  cases h with
  | fault kept =>
    rw [kept.ballots] at hc
    exact Or.inl hc
  | stand event leads grows casts =>
    exact (Ballots.vote_of_cast casts.ballots hc).imp_right fun hnew => Or.inl hnew.2
  | standAlone event leads grows casts =>
    exact (Ballots.vote_of_cast casts.ballots hc).imp_right fun hnew => Or.inl hnew.2
  | grant event peer current gate recorded =>
    rcases recorded with ⟨_, rfl⟩ | ⟨_, casts⟩
    · exact Or.inl hc
    · refine (Ballots.vote_of_cast casts.ballots hc).imp_right fun hnew => Or.inr ?_
      rw [hnew.2]
      exact peer
  | _ => exact Or.inl hc

theorem Move.votesForMembers (h : Move e n n' outputs) (hn : n.VotesForMembers) :
    n'.VotesForMembers := by
  intro term c hc
  rw [h.roster]
  rcases h.voted hc with hold | rfl | hpeer
  · exact hn term c hold
  · exact n.roster.self_mem
  · exact (Roster.mem_peers.mp hpeer).1

theorem Passes.votesForMembers (h : Passes e n n' outputs) (hn : n.VotesForMembers) :
    n'.VotesForMembers := by
  obtain ⟨mid, before, after, caught, move, _⟩ := h
  apply move.votesForMembers
  intro term c hc
  rw [caught.roster]
  exact hn term c (caught.vote_origin hc)

theorem Effect.votesForMembers (h : Effect n t n' outputs) (hs : n.Sound)
    (hn : n.VotesForMembers) : n'.VotesForMembers := by
  cases h with
  | handled passes => exact passes.votesForMembers hn
  | crashed passes reloads =>
    have hmid := passes.sound (sound_under hs _)
    have kept := Storage.keeps_of_reload hmid.backed reloads
    intro term c hc
    have hc : _ = some c := kept.ballots ▸ hc
    have hmember := passes.votesForMembers hn term c hc
    rw [passes.roster] at hmember
    exact hmember
  | outside => exact hn

theorem Life.votesForMembers (life : Life) {k : Nat} (hk : k ≤ life.length) :
    (life.node k).VotesForMembers := by
  induction k with
  | zero =>
    intro term c hc
    rw [life.fresh.storage.ballots] at hc
    cases hc
  | succ k ih =>
    have hk' := Nat.le_of_succ_le hk
    exact (life.effect hk).votesForMembers (life.sound hk') (ih hk')

/-! ## What follows from soundness -/

theorem size_lt_of_not_carries {votes : IdSet} {quorum : Nat} (h : votes.carries quorum = false) :
    votes.size < quorum := by
  rw [IdSet.carries, decide_eq_false_iff_not] at h
  omega

theorem Sound.candidate {votes : IdSet} (hs : n.Sound) (hrole : n.role = .candidate votes) :
    n.leader = none ∧ n.storage.ballots.vote? n.term = some n.id ∧ n.id ∈ votes ∧
      (∀ v ∈ votes, v ∈ n.roster.members) ∧ votes.size < n.roster.quorum := by
  have hown := hs.own (by simp [hrole])
  have hin := hs.role
  rw [InRole, hrole] at hin
  obtain ⟨hleader, hself, hmembers, hshort⟩ := hin
  exact ⟨hleader, hown, hself, hmembers, size_lt_of_not_carries hshort⟩

theorem Sound.leads (hs : n.Sound) (hrole : n.role = .leader) :
    n.leader = some n.id ∧ n.storage.ballots.vote? n.term = some n.id := by
  have hin := hs.role
  rw [InRole, hrole] at hin
  exact ⟨hin, hs.own (by simp [hrole])⟩

theorem Sound.follows {l : NodeId} (hs : n.Sound) (hrole : n.role = .follower)
    (hl : n.leader = some l) : l ∈ n.roster.members ∧ l ≠ n.id := by
  have hin := hs.role
  rw [InRole, hrole] at hin
  exact Roster.mem_peers.mp (hin l hl)

/-! ## The status -/

theorem status_votes_ascending (n : Node) : n.status.votes.Pairwise (· < ·) := by
  unfold status
  cases n.role with
  | candidate votes => exact votes.ascending
  | _ => exact List.Pairwise.nil

theorem Sound.status_votes (hs : n.Sound) :
    n.status.votes ≠ [] ↔ n.status.role = .candidate := by
  cases hrole : n.role with
  | candidate votes =>
    have hself : n.id ∈ votes.toList := (hs.candidate hrole).2.2.1
    have hlist : n.status.votes = votes.toList := by simp [status, hrole, Role.tally?]
    have hkind : n.status.role = .candidate := by simp [status, hrole, Role.kind]
    rw [hlist]
    exact iff_of_true (List.ne_nil_of_mem hself) hkind
  | _ => simp [status, hrole, Role.tally?, Role.kind]

/-- **The fields of a node fit together.** At every moment of its life, whatever has reached it,
failed or crashed: a candidate knows no leader, has its own vote on record for its term, and counts
the votes of members, its own among them, but not yet a quorum of them; a leader is its own leader
and has its own vote on record; the leader of a follower is another member, if it has one; the vote
is for a member, if there is one; and the status lists the counted votes in ascending order, for
candidates and nobody else. -/
theorem Life.shape_of_node (life : Life) {k : Nat} (hk : k ≤ life.length) :
    (∀ votes, (life.node k).role = .candidate votes →
      (life.node k).leader = none ∧
      (life.node k).storage.ballots.vote? (life.node k).term = some (life.node k).id ∧
      (life.node k).id ∈ votes ∧ (∀ v ∈ votes, v ∈ (life.node k).roster.members) ∧
      votes.size < (life.node k).roster.quorum) ∧
    ((life.node k).role = .leader →
      (life.node k).leader = some (life.node k).id ∧
      (life.node k).storage.ballots.vote? (life.node k).term = some (life.node k).id) ∧
    ((life.node k).role = .follower → ∀ l, (life.node k).leader = some l →
      l ∈ (life.node k).roster.members ∧ l ≠ (life.node k).id) ∧
    (∀ c, (life.node k).vote = some c → c ∈ (life.node k).roster.members) ∧
    (life.node k).status.votes.Pairwise (· < ·) ∧
    ((life.node k).status.votes ≠ [] ↔ (life.node k).status.role = .candidate) := by
  have hs := life.sound hk
  have hmembers := life.votesForMembers hk
  refine ⟨fun votes hrole => hs.candidate hrole, hs.leads, fun hrole l hl => hs.follows hrole hl,
    ?_, status_votes_ascending _, hs.status_votes⟩
  intro c hc
  rw [hs.vote] at hc
  exact hmembers _ c hc

/-! A life among five members: the node starts again in the middle of its first campaign, and
runs a second one. -/

def campaignTurns : Nat → Turn
  | 0 => .crash .electionTimeout {} 1
  | 1 => .handle .electionTimeout {}
  | _ => .handle (.message (.voteResponse { voter := 2, term := 2, granted := true })) {}

def campaignLife : Life :=
  .ofTurns (reborn (.of 1 [2, 3, 4, 5]) {}) campaignTurns 3
    ⟨.of 1 [2, 3, 4, 5], {}, ⟨rfl, rfl, fun h => by cases h⟩, rfl⟩ (by decide +kernel)

/-- Two votes of five are short of a quorum. -/
theorem shape_of_campaignLife :
    (campaignLife.node 3).role.kind = .candidate ∧
    (campaignLife.node 3).status.votes = [1, 2] ∧ (campaignLife.node 3).roster.quorum = 3 ∧
    ∀ votes, (campaignLife.node 3).role = .candidate votes →
      (campaignLife.node 3).storage.ballots.vote? (campaignLife.node 3).term = some 1 ∧
        votes.size < 3 := by
  have hkind : (campaignLife.node 3).role.kind = .candidate := by decide +kernel
  have hvotes : (campaignLife.node 3).status.votes = [1, 2] := by decide +kernel
  have hquorum : (campaignLife.node 3).roster.quorum = 3 := by decide +kernel
  have hid : (campaignLife.node 3).id = 1 := by decide +kernel
  have hlength : 3 ≤ campaignLife.length := Nat.le_refl 3
  obtain ⟨hcandidate, _⟩ := campaignLife.shape_of_node hlength
  refine ⟨hkind, hvotes, hquorum, fun votes hrole => ?_⟩
  obtain ⟨_, hown, _, _, hsize⟩ := hcandidate votes hrole
  rw [hid] at hown
  rw [hquorum] at hsize
  exact ⟨hown, hsize⟩

end Elector.Node
