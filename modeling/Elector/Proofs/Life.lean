import Mathlib.Data.Nat.Init
import Elector.Proofs.Sending

/-!
# The life of a node

A `Life` is any course of events for one node that starts on a fresh storage: whatever messages
reach it, from whoever claims to have sent them, whatever operations of its storage fail, and
however often it crashes and starts again. Turns that keep a property keep it for life
(`Life.sound`), and a vote on record at one moment is the vote of its term at every other
(`Life.vote_unique`).
-/

namespace Elector

namespace Node

/-- The node has just been started, on a storage that has nothing on record. -/
def Fresh (n : Node) : Prop := ∃ roster storage, storage.Fresh ∧ start roster storage = .ok n

structure Life where
  length : Nat
  node : Nat → Node
  turn : Nat → Turn
  /-- What the node asks for in each turn. -/
  outputs : Nat → List Output
  fresh : (node 0).Fresh
  turns : ∀ k < length, (node k).turn (turn k) = some (node (k + 1), outputs k)

def walk (n : Node) (turns : Nat → Turn) : Nat → Node
  | 0 => n
  | k + 1 =>
    match (walk n turns k).turn (turns k) with
    | some (n', _) => n'
    | none => walk n turns k

/-- The life of a schedule whose turns all can take place. -/
def Life.ofTurns (n : Node) (turns : Nat → Turn) (length : Nat) (fresh : n.Fresh)
    (possible : ∀ k < length, ((n.walk turns k).turn (turns k)).isSome) : Life where
  length := length
  node := n.walk turns
  turn := turns
  outputs k := (((n.walk turns k).turn (turns k)).map (·.2)).getD []
  fresh := fresh
  turns k hk := by
    obtain ⟨⟨n', outputs⟩, hturn⟩ := Option.isSome_iff_exists.mp (possible k hk)
    simp [walk, hturn]

variable {n : Node}

theorem start_eq_ok {roster : Roster} {s : Storage} (h : start roster s = .ok n) :
    n = { reborn roster s with storage := s } := by
  by_cases hloads : s.outage.loads = true
  · simp only [start, Storage.readTerm, if_pos hloads] at h
    cases h
  · simp only [start, Storage.readTerm, Storage.readVote, if_neg hloads] at h
    cases h
    rfl

theorem Fresh.sound (h : n.Fresh) : n.Sound := by
  obtain ⟨roster, s, hfresh, hstart⟩ := h
  rw [start_eq_ok hstart]
  have hsettled : s.ballots.Settled := hfresh.ballots ▸ Ballots.settled_empty
  exact (sound_reborn roster hsettled hfresh.backed).keeps ⟨rfl, rfl, rfl, rfl⟩

theorem Fresh.role (h : n.Fresh) : n.role = .follower := by
  obtain ⟨roster, s, _, hstart⟩ := h
  rw [start_eq_ok hstart]
  rfl

theorem Fresh.leader (h : n.Fresh) : n.leader = none := by
  obtain ⟨roster, s, _, hstart⟩ := h
  rw [start_eq_ok hstart]
  rfl

theorem Fresh.storage (h : n.Fresh) : n.storage.Fresh := by
  obtain ⟨roster, s, hfresh, hstart⟩ := h
  rw [start_eq_ok hstart]
  exact hfresh

namespace Life

variable {life : Life} {k l : Nat}

theorem effect (life : Life) (hk : k < life.length) :
    Effect (life.node k) (life.turn k) (life.node (k + 1)) (life.outputs k) :=
  effect_turn (life.turns k hk)

theorem sound (life : Life) (hk : k ≤ life.length) : (life.node k).Sound := by
  induction k with
  | zero => exact life.fresh.sound
  | succ k ih => exact sound_of_effect (life.effect hk) (ih (Nat.le_of_succ_le hk))

theorem roster (life : Life) (hk : k ≤ life.length) :
    (life.node k).roster = (life.node 0).roster := by
  induction k with
  | zero => rfl
  | succ k ih => exact (life.effect hk).roster.trans (ih (Nat.le_of_succ_le hk))

theorem precedes (life : Life) (hkl : k ≤ l) (hl : l ≤ life.length) :
    (life.node k).storage.ballots.Precedes (life.node l).storage.ballots := by
  induction l, hkl using Nat.le_induction with
  | base => exact Ballots.Precedes.refl _
  | succ l hkl ih =>
    have hl' := Nat.le_of_succ_le hl
    exact (ih hl').trans ((life.effect hl).precedes (life.sound hl'))

/-- One vote of a term is on record, whenever one looks. -/
theorem vote_unique {term : Term} {c c' : NodeId} (hk : k ≤ life.length) (hl : l ≤ life.length)
    (hc : (life.node k).storage.ballots.vote? term = some c)
    (hc' : (life.node l).storage.ballots.vote? term = some c') : c = c' := by
  have hsettledk := (life.sound hk).settled
  have hsettledl := (life.sound hl).settled
  rcases Nat.le_total k l with hkl | hlk
  · exact Ballots.vote_unique (life.precedes hkl hl) hsettledk hsettledl hc hc'
  · exact (Ballots.vote_unique (life.precedes hlk hk) hsettledl hsettledk hc' hc).symm

theorem vote_of_grant {r : VoteResponse} {c : NodeId} (hk : k < life.length)
    (hsend : .send c (.voteResponse r) ∈ life.outputs k) (hgranted : r.granted = true) :
    (life.node (k + 1)).storage.ballots.vote? r.term = some c := by
  have hvouches := vouches_of_effect (life.effect hk) hsend
  have hterm : r.term = _ := hvouches.term
  rw [hterm]
  exact hvouches.backs hgranted

end Life

end Node

end Elector
