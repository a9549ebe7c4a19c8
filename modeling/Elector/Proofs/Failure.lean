import Elector.Proofs.Handling

/-!
# What a failed handler leaves

A handler fails in the first operation of the storage that fails, or before any. `fails_handle` says
in which states it can leave the node: with everything on record as it was, or, when a vote was
asked for in a newer term, in that term and before the vote.
-/

namespace Elector.Node

/-- How a handler that fails leaves the node. -/
inductive Fails (e : Event) (n : Node) : Node → Prop
  /-- Nothing has been changed. -/
  | early {s : Storage} (kept : n.storage.Keeps s) : Fails e n { n with storage := s }
  /-- The term of a request for votes has been adopted; the vote was not decided on. -/
  | late {r : VoteRequest} {mid : Node} {before : List Output} {s : Storage}
      (event : e = .message (.voteRequest r)) (newer : n.term < r.term)
      (caught : CatchUp e n mid before) (current : mid.term = r.term)
      (kept : mid.storage.Keeps s) : Fails e n { mid with storage := s }

variable {e : Event} {n n' : Node} {cause : NodeError} {term : Term}

theorem keeps_of_adopt (h : n.adopt term = (n', .error cause)) :
    ∃ s, n.storage.Keeps s ∧ n' = { n with storage := s } := by
  unfold adopt at h
  cases hstore : n.storage.storeTerm term with
  | mk s result =>
    rw [hstore] at h
    cases result with
    | error cause =>
      cases h
      exact ⟨s, Storage.keeps_of_storeTerm hstore, rfl⟩
    | ok u => cases h

theorem keeps_of_catchUp (h : n.catchUp term = (n', .error cause)) :
    ∃ s, n.storage.Keeps s ∧ n' = { n with storage := s } := by
  unfold catchUp at h
  split at h
  · exact keeps_of_adopt h
  · cases h

theorem keeps_of_decideVote {r : VoteRequest} {before : List Output}
    (h : n.decideVote r before = (n', .error cause)) :
    ∃ s, n.storage.Keeps s ∧ n' = { n with storage := s } := by
  unfold decideVote at h
  split at h
  · cases h
    exact ⟨n.storage, Storage.Keeps.refl _, rfl⟩
  · rename_i recorded hread
    split at h
    · by_cases hours : recorded = some r.candidate
      · simp only [if_pos hours] at h
        cases h
      · simp only [if_neg hours] at h
        cases hstore : n.storage.storeVote n.term r.candidate with
        | mk s result =>
          rw [hstore] at h
          cases result with
          | error cause =>
            cases h
            exact ⟨s, Storage.keeps_of_storeVote hstore, rfl⟩
          | ok u => cases h
    · cases h

theorem fails_of_keeps (h : ∃ s, n.storage.Keeps s ∧ n' = { n with storage := s }) :
    Fails e n n' := by
  obtain ⟨s, kept, rfl⟩ := h
  exact .early kept

theorem fails_onElectionTimeout (h : n.onElectionTimeout = (n', .error cause)) :
    Fails .electionTimeout n n' := by
  unfold onElectionTimeout at h
  split at h
  · cases h
  split at h
  · cases h
    exact .early (Storage.Keeps.refl _)
  dsimp only at h
  cases hstore : n.storage.storeVote (n.term + 1) n.id with
  | mk s result =>
    rw [hstore] at h
    cases result with
    | error cause =>
      cases h
      exact .early (Storage.keeps_of_storeVote hstore)
    | ok u =>
      dsimp only at h
      split at h <;> cases h

theorem fails_onVoteRequest {r : VoteRequest} (event : e = .message (.voteRequest r))
    (peer : r.candidate ∈ n.roster.peers) (h : n.onVoteRequest r = (n', .error cause)) :
    Fails e n n' := by
  unfold onVoteRequest at h
  split at h
  · cases h
  rename_i hfresh
  rcases catchUp_cases event peer hfresh with ⟨mid, before, heq, caught, current⟩ |
    ⟨m, c, heq, _⟩
  · have heq : n.catchUp r.term = (mid, .ok before) := heq
    have current : mid.term = r.term := current
    rw [heq] at h
    obtain ⟨s, kept, rfl⟩ := keeps_of_decideVote h
    by_cases newer : n.term < r.term
    · exact .late event newer caught current kept
    · have hmid : mid = n := by
        rw [catchUp, if_neg newer] at heq
        cases heq
        rfl
      subst hmid
      exact .early kept
  · have heq : n.catchUp r.term = (m, .error c) := heq
    rw [heq] at h
    cases h
    exact fails_of_keeps (keeps_of_catchUp heq)

theorem fails_onVoteResponse {r : VoteResponse} (h : n.onVoteResponse r = (n', .error cause)) :
    Fails e n n' := by
  unfold onVoteResponse at h
  split at h
  · exact fails_of_keeps (keeps_of_adopt h)
  split at h
  · cases h
  split at h
  · split at h
    · dsimp only at h
      split at h <;> cases h
    · cases h
  · cases h

theorem fails_onAppendEntries {r : AppendEntries} (h : n.onAppendEntries r = (n', .error cause)) :
    Fails e n n' := by
  unfold onAppendEntries at h
  split at h
  · cases h
  cases hcatch : n.catchUp r.term with
  | mk mid result =>
    rw [hcatch] at h
    cases result with
    | error cause =>
      cases h
      exact fails_of_keeps (keeps_of_catchUp hcatch)
    | ok before =>
      dsimp only at h
      split at h <;> cases h

/-- The states in which a handler that fails can leave a node. -/
theorem fails_handle (h : n.handle e = (n', .error cause)) : Fails e n n' := by
  cases e with
  | electionTimeout => exact fails_onElectionTimeout h
  | heartbeatDue =>
    simp only [handle, onHeartbeatDue] at h
    split at h <;> cases h
  | message m =>
    rw [handle, onMessage.eq_def] at h
    split at h
    · rename_i hpeer
      cases m with
      | voteRequest r => exact fails_onVoteRequest rfl (Roster.isPeer_iff.mp hpeer) h
      | voteResponse r => exact fails_onVoteResponse h
      | appendEntries r => exact fails_onAppendEntries h
      | appendResponse r => exact fails_of_keeps (keeps_of_catchUp h)
    · cases h

theorem Fails.isLeader (h : Fails e n n') (hleads : n'.isLeader = true) : n.isLeader = true := by
  cases h with
  | early kept => exact hleads
  | late event newer caught current kept =>
    cases caught with
    | stay => exact hleads
    | adopt => cases hleads

end Elector.Node
