import Elector.Proofs.Failure
import Elector.Proofs.Reachable

/-!
# The two states that a failed handler leaves

A handler that fails has changed nothing (`Untouched`), or it was to decide on a vote in a newer
term and has got as far as that term (`Arrived`). `failure_leaves_two_states` says so of every node
that can be reached, every event and every way in which the operations of the storage can fail.
-/

namespace Elector.Node

structure Untouched (n n' : Node) : Prop where
  node : n' = { n with storage := n'.storage }
  record : n.storage.Keeps n'.storage

/-- The node has come to `term`, as a follower without a leader and without a vote, and so says its
record, which a crash does not change. -/
structure Arrived (n : Node) (term : Term) (n' : Node) : Prop where
  node : n' =
    { n with storage := n'.storage, term, role := .follower, leader := none, vote := none }
  term : n'.storage.ballots.term = term
  votes : ∀ t, n'.storage.ballots.vote? t = none
  votesWritten : n'.storage.votesWritten? = n.storage.votesWritten?
  log : n'.storage.log = n.storage.log
  durable : ∀ s, n'.storage.reload = .ok s → s.ballots = n'.storage.ballots

variable {e : Event} {n n' mid : Node} {s : Storage} {before outputs : List Output}
  {cause : NodeError} {term : Term} {outage : Outage}

/-! ## The two states -/

theorem votes_reaches (hsettled : n.storage.ballots.Settled) (newer : n.storage.ballots.term < term)
    (reached : n.storage.Reaches term s) (t : Term) : s.ballots.vote? t = none := by
  have hterm := Ballots.term_reach reached.ballots
  have hnone : s.ballots.vote? term = none :=
    (Ballots.vote_reach reached.ballots).trans (hsettled.vote_newer newer)
  cases hvote : s.ballots.vote? t with
  | none => rfl
  | some c =>
    have ht := Ballots.settled_reach reached.ballots hsettled t c hvote
    rw [ht, hterm, hnone] at hvote
    cases hvote

theorem arrived_of_catchUp (hs : n.Sound) (caught : CatchUp e n mid before)
    (newer : n.term < term) (current : mid.term = term) (kept : mid.storage.Keeps s) :
    n.Arrived term { mid with storage := s } := by
  subst current
  cases caught with
  | stay => exact absurd newer Int32.lt_irrefl
  | @adopt m reachedStorage event peer newer reached =>
    have hterm := Ballots.term_reach reached.ballots
    exact {
      node := rfl
      term := by rw [kept.ballots, hterm]
      votes := by
        rw [kept.ballots]
        exact votes_reaches hs.settled (hs.term ▸ newer) reached
      votesWritten := kept.votesWritten.trans reached.votesWritten
      log := kept.log.trans reached.log
      durable := by
        intro s' hreload
        have hbacked := kept.backed (reached.backed hs.backed)
        exact (Storage.keeps_of_reload hbacked hreload).ballots }

/-- Which of the two states it is: the second is left by requests for votes in a newer term only. -/
theorem Fails.untouched_or_arrived (h : Fails e n n') (hs : n.Sound) :
    n.Untouched n' ∨ ∃ r, e = .message (.voteRequest r) ∧ r.candidate ∈ n.roster.peers ∧
      n.term < r.term ∧ n.Arrived r.term n' := by
  cases h with
  | early kept => exact Or.inl ⟨rfl, kept⟩
  | @late r mid before s event newer caught current kept =>
    have hpeer : r.candidate ∈ n.roster.peers := by
      cases caught with
      | stay => exact absurd (current ▸ newer) Int32.lt_irrefl
      | adopt event' peer =>
        rw [event] at event'
        cases event'
        exact peer
    exact Or.inr ⟨r, event, hpeer, newer, arrived_of_catchUp hs caught newer current kept⟩

/-! Which operations fail meanwhile is no part of a node. -/

theorem Untouched.of_under (h : (n.under outage).Untouched n') : n.Untouched n' where
  node := h.node
  record := ⟨h.record.ballots, h.record.medium, h.record.log, h.record.file⟩

theorem Arrived.of_under (h : (n.under outage).Arrived term n') : n.Arrived term n' :=
  { h with node := h.node }

/-! ## Terms -/

theorem Passes.term_le (h : Passes e n n' outputs) (hs : n.Sound) : n.term ≤ n'.term := by
  have hle := (h.precedes hs).term_le
  rw [← hs.term, ← (h.sound hs).term] at hle
  exact hle

theorem term_le_handle (hs : n.Sound) (e : Event) : n.term ≤ (n.handle e).1.term := by
  obtain ⟨outputs, passes, _⟩ := explains_handle n e
  exact passes.term_le hs

theorem cause_of_electionTimeout (h : n.handle .electionTimeout = (n', .error cause)) :
    n.term = Int32.maxValue ∧ cause = .termOverflow n.term ∨
      ∃ failure, cause = .durability failure ∧
        n.storage.storeVote (n.term + 1) n.id = (n'.storage, .error failure) := by
  simp only [handle, onElectionTimeout] at h
  split at h
  · cases h
  split at h
  · rename_i hmax
    cases h
    exact Or.inl ⟨hmax, rfl⟩
  · cases hstore : n.storage.storeVote (n.term + 1) n.id with
    | mk s result =>
      rw [hstore] at h
      cases result with
      | error failure =>
        cases h
        exact Or.inr ⟨failure, rfl, rfl⟩
      | ok u =>
        dsimp only at h
        split at h <;> cases h

theorem electionTimeout_overflow (hleads : n.isLeader = false) (hmax : n.term = Int32.maxValue) :
    n.handle .electionTimeout = (n, .error (.termOverflow n.term)) := by
  rw [handle, onElectionTimeout, if_neg (by simp [hleads]), if_pos hmax]

/-! ## Failures of reachable nodes -/

/-- **A failed handler leaves one of two states.** Whichever operations of its storage fail: if a
handler fails, then the node and its record are as they were, or the event was another member's
request for a vote in a newer term and the node has just arrived in that term. After any other event
they are as they were; an election timeout fails because there is no next term or because the vote
for itself is not written. Terms never wrap round: none is left for a lower one. -/
theorem failure_leaves_two_states (h : n.Reachable) (e : Event) (outage : Outage) :
    (∀ n' cause, (n.under outage).handle e = (n', .error cause) →
      (n.Untouched n' ∨ ∃ r, e = .message (.voteRequest r) ∧ r.candidate ∈ n.roster.peers ∧
        n.term < r.term ∧ n.Arrived r.term n') ∧
      ((∀ r, e ≠ .message (.voteRequest r)) → n.Untouched n')) ∧
    (∀ n' cause, (n.under outage).handle .electionTimeout = (n', .error cause) →
      n.term = Int32.maxValue ∧ cause = .termOverflow n.term ∨
        ∃ failure, cause = .durability failure ∧
          (n.under outage).storage.storeVote (n.term + 1) n.id = (n'.storage, .error failure)) ∧
    (n.isLeader = false → n.term = Int32.maxValue →
      (n.under outage).handle .electionTimeout = (n.under outage, .error (.termOverflow n.term))) ∧
    n.term ≤ ((n.under outage).handle e).1.term := by
  have hs := sound_under h.sound outage
  refine ⟨?_, ?_, ?_, term_le_handle hs e⟩
  · intro n' cause hfails
    have hstates : n.Untouched n' ∨ ∃ r, e = .message (.voteRequest r) ∧
        r.candidate ∈ n.roster.peers ∧ n.term < r.term ∧ n.Arrived r.term n' := by
      rcases (fails_handle hfails).untouched_or_arrived hs with
        huntouched | ⟨r, hevent, hpeer, newer, harrived⟩
      · exact Or.inl huntouched.of_under
      · exact Or.inr ⟨r, hevent, hpeer, newer, harrived.of_under⟩
    refine ⟨hstates, fun hother => ?_⟩
    rcases hstates with huntouched | ⟨r, he, _⟩
    · exact huntouched
    · exact absurd he (hother r)
  · intro n' cause hfails
    exact cause_of_electionTimeout hfails
  · intro hleads hmax
    exact electionTimeout_overflow (n := n.under outage) hleads hmax

def besetLeader : Node :=
  (reborn (.of 1 [2, 3]) {}).afterCalls
    [⟨.electionTimeout, {}⟩,
      ⟨.message (.voteResponse { voter := 3, term := 1, granted := true }), {}⟩]

/-- The leader is asked for its vote in a later term. If votes cannot be read, it is left in that
term; if the term cannot be written either, it goes on to lead. -/
theorem failure_leaves_two_states_besetLeader :
    let asks := Event.message (.voteRequest { candidate := 2, term := 7, last := {} })
    besetLeader.isLeader = true ∧
    besetLeader.Arrived 7 ((besetLeader.under { loads := true }).handle asks).1 ∧
    besetLeader.Untouched
      ((besetLeader.under { term := some ⟨0, 0⟩, loads := true }).handle asks).1 := by
  intro asks
  have hstart : start (.of 1 [2, 3]) {} = .ok (reborn (.of 1 [2, 3]) {}) := rfl
  have hfresh : Storage.Fresh {} := ⟨rfl, rfl, Storage.backed_of_memory rfl⟩
  have hreachable : besetLeader.Reachable := (Reachable.start (.fresh hfresh) hstart).afterCalls _
  have hunread : ((besetLeader.under { loads := true }).handle asks).2 =
      .error (.durability .unavailable) := rfl
  have hunwritten : ((besetLeader.under { term := some ⟨0, 0⟩, loads := true }).handle asks).2 =
      .error (.durability .unavailable) := rfl
  obtain ⟨hlate, _⟩ := failure_leaves_two_states hreachable asks { loads := true }
  obtain ⟨hearly, _⟩ :=
    failure_leaves_two_states hreachable asks { term := some ⟨0, 0⟩, loads := true }
  refine ⟨by decide +kernel, ?_, ?_⟩
  · rcases (hlate _ _ (Prod.ext rfl hunread)).1 with huntouched | ⟨r, hevent, _, _, harrived⟩
    · have hterm : 7 = besetLeader.term := congrArg Node.term huntouched.node
      exact absurd hterm (by decide +kernel)
    · simp only [asks, Event.message.injEq, Message.voteRequest.injEq] at hevent
      subst hevent
      exact harrived
  · rcases (hearly _ _ (Prod.ext rfl hunwritten)).1 with huntouched | ⟨r, hevent, _, _, harrived⟩
    · exact huntouched
    · simp only [asks, Event.message.injEq, Message.voteRequest.injEq] at hevent
      subst hevent
      have hterm : (1 : Term) = 7 := congrArg Node.term harrived.node
      exact absurd hterm (by decide)

end Elector.Node
