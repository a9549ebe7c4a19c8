import Elector.Proofs.Election

/-!
# What a leader's votes say about its log

As long as logs do not change, a vote on record went to a log that is not behind the voter's
(`gated`): a member votes for itself, or answers a request, and the request was sent by the
candidate that it names with the position that the candidate has. So the votes of a leader come
from a quorum of members whose logs are not ahead of its own, and a member with too many logs ahead
of it cannot lead.
-/

namespace Elector

namespace Node

/-- The node has a vote on record, and finds it there again after a crash. -/
def HasRecorded (n : Node) (term : Term) (c : NodeId) : Prop :=
  n.storage.ballots.vote? term = some c ∧
    ∀ s, n.storage.reload = .ok s → s.ballots.vote? term = some c

theorem Sound.hasRecorded {n : Node} {term : Term} {c : NodeId} (hs : n.Sound)
    (hvote : n.storage.ballots.vote? term = some c) : n.HasRecorded term c := by
  refine ⟨hvote, fun s hreload => ?_⟩
  rw [(Storage.keeps_of_reload hs.backed hreload).ballots]
  exact hvote

end Node

namespace Run

variable {members : IdSet} {run : Run members} {k : Nat} {i v : NodeId} {term : Term} {c : NodeId}
  {last : NodeId → Position}

def FixedLogs (run : Run members) (last : NodeId → Position) : Prop :=
  ∀ k ≤ run.length, ∀ i ∈ members, (run.node k i).position = last i

theorem last_of_sent (hfixed : run.FixedLogs last) (hk : k ≤ run.length) {target : NodeId}
    {r : VoteRequest} (hm : (target, .voteRequest r) ∈ (run.world k).sent) :
    r.last = last r.candidate := by
  obtain ⟨j, hj, hcandidate, _, hvouches⟩ := run.vouched hk hm
  have hposition : r.last = _ := hvouches.backs.1
  rw [hposition]
  exact hfixed j (Nat.le_trans hj hk) r.candidate hcandidate

/-- A vote on record went to a log that is not behind the voter's. -/
theorem gated (hfixed : run.FixedLogs last) (hv : v ∈ members) (hk : k ≤ run.length)
    (hvote : (run.node k v).storage.ballots.vote? term = some c) : last v ≤ last c := by
  induction k with
  | zero =>
    have hballots := (run.fresh.node v hv).storage.ballots
    rw [node, hballots] at hvote
    simp [Ballots.vote?] at hvote
  | succ k ih =>
    have hk' := Nat.le_of_succ_le hk
    have horigin := (run.effect_life hv hk).vote_origin (run.sound hv hk') hvote
    rcases horigin with hold | ⟨e, hevent, hself | ⟨r, rfl, hcandidate, _, hgate⟩⟩
    · exact ih hk' hold
    · rw [run.id_node hv hk'] at hself
      rw [hself]
      exact Position.le_refl _
    · have hlast := last_of_sent hfixed hk' (run.sent_of_life hv hk hevent)
      rw [hlast, hcandidate, hfixed k hk' v hv] at hgate
      exact hgate

theorem Voted.gated (hfixed : run.FixedLogs last) (hk : k ≤ run.length)
    (h : run.Voted k v term c) : last v ≤ last c := by
  obtain ⟨hv, l, hl, hvote⟩ := h
  exact Run.gated hfixed hv (Nat.le_trans hl hk) hvote

/-- Of the members, no more than a minority has a log that is ahead of a leader's. -/
theorem not_leads_of_ahead (hfixed : run.FixedLogs last) (hi : i ∈ members) (hk : k ≤ run.length)
    {ahead : IdSet} (hahead : ∀ v ∈ ahead, v ∈ members ∧ ¬ last v ≤ last i)
    (hmany : members.size < ahead.size + (members.size / 2 + 1)) :
    ¬ (run.node k i).Leads term := by
  intro hleads
  obtain ⟨voters, hmandate⟩ := mandate_of_leads hi hk hleads
  have hsize : members.size < ahead.size + voters.size := by
    have hquorum := hmandate.1
    omega
  obtain ⟨v, hva, hvv⟩ :=
    IdSet.exists_mem_of_size_lt (fun v hv => (hahead v hv).1) hmandate.mem hsize
  exact (hahead v hva).2 ((hmandate.2.2 v hvv).gated hfixed hk)

/-- While logs do not change, a leader has on record the votes of a quorum, itself among it, of
members whose logs are not ahead of its own. So a member that is strictly behind more members than
a quorum leaves never leads. -/
theorem leader_has_gated_quorum (run : Run members) (last : NodeId → Position)
    (hfixed : run.FixedLogs last) :
    (∀ k ≤ run.length, ∀ i ∈ members, ∀ term, (run.node k i).Leads term →
      ∃ voters : IdSet, (run.node k i).roster.quorum ≤ voters.size ∧ i ∈ voters ∧
        ∀ v ∈ voters, v ∈ members ∧ last v ≤ last i ∧
          ∃ l ≤ k, (run.node l v).HasRecorded term i) ∧
    ∀ i ∈ members, ∀ ahead : IdSet, (∀ v ∈ ahead, v ∈ members ∧ ¬ last v ≤ last i) →
      ∀ k ≤ run.length, members.size - (run.node k i).roster.quorum < ahead.size →
        ∀ term, ¬ (run.node k i).Leads term := by
  constructor
  · intro k hk i hi term hleads
    obtain ⟨voters, hmandate⟩ := mandate_of_leads hi hk hleads
    refine ⟨voters, ?_, hmandate.2.1, ?_⟩
    · rw [run.quorum_node hi hk]
      exact hmandate.1
    · intro v hv
      have hle := (hmandate.2.2 v hv).gated hfixed hk
      obtain ⟨hmember, l, hl, hvote⟩ := hmandate.2.2 v hv
      have hsound := run.sound hmember (Nat.le_trans hl hk)
      exact ⟨hmember, hle, l, hl, hsound.hasRecorded hvote⟩
  · intro i hi ahead hahead k hk hmany term
    rw [run.quorum_node hi hk] at hmany
    apply not_leads_of_ahead hfixed hi hk hahead
    omega

def exampleLast (i : NodeId) : Position := if i = 3 then ⟨1, 1⟩ else ⟨1, 2⟩

theorem leader_has_gated_quorum_exampleRun :
    exampleRun.FixedLogs exampleLast ∧
    (∃ voters : IdSet, (exampleRun.node 6 1).roster.quorum ≤ voters.size ∧ 1 ∈ voters ∧
      ∀ v ∈ voters, v ∈ IdSet.ofList [1, 2, 3] ∧ exampleLast v ≤ exampleLast 1 ∧
        ∃ l ≤ 6, (exampleRun.node l v).HasRecorded 2 1) ∧
    ∀ k ≤ 8, ∀ term, ¬ (exampleRun.node k 3).Leads term := by
  have hlast : ∀ k ≤ 8, (exampleRun.node k 1).position = exampleLast 1 ∧
      (exampleRun.node k 2).position = exampleLast 2 ∧
      (exampleRun.node k 3).position = exampleLast 3 := by decide +kernel
  have hfixed : exampleRun.FixedLogs exampleLast := by
    intro k hk i hi
    obtain ⟨hone, htwo, hthree⟩ := hlast k hk
    simp only [IdSet.mem_ofList, List.mem_cons, List.not_mem_nil, or_false] at hi
    rcases hi with rfl | rfl | rfl
    · exact hone
    · exact htwo
    · exact hthree
  obtain ⟨hquorum, hahead⟩ := exampleRun.leader_has_gated_quorum exampleLast hfixed
  refine ⟨hfixed, hquorum 6 (by decide) 1 (by decide) 2 (by decide +kernel), ?_⟩
  intro k hk term
  have hmany : ∀ k ≤ 8, (IdSet.ofList [1, 2, 3]).size - (exampleRun.node k 3).roster.quorum <
      (IdSet.ofList [1, 2]).size := by decide +kernel
  refine hahead 3 (by decide) (.ofList [1, 2]) (fun v hv => ?_) k hk (hmany k hk) term
  simp only [IdSet.mem_ofList, List.mem_cons, List.not_mem_nil, or_false] at hv
  rcases hv with rfl | rfl
  · exact ⟨by decide, by decide⟩
  · exact ⟨by decide, by decide⟩

end Run

end Elector
