import Elector.Proofs.Election

/-!
# Agreement on the leader

A follower takes any heartbeat of its term for its leader's. It may do so, because only the node
that was elected sends heartbeats of a term (`elected_of_append`): whatever leader a node knows of
was elected in that node's term (`elected_of_leader`), and a leader is never sent a heartbeat of
the term that it leads (`not_leads_of_sent`). A heartbeat is therefore turned down only by a node
that is in a later term.
-/

namespace Elector

namespace Node

variable {n n' mid : Node} {outputs : List Output} {r : AppendEntries} {a : AppendResponse}
  {target : NodeId}

theorem Vouches.leads (h : n.Vouches target (.appendEntries r)) : n.Leads r.term := by
  have hterm : r.term = n.term := h.term
  exact ⟨h.backs, hterm.symm⟩

theorem Move.append_rejected (h : Move (.message (.appendEntries r)) n n' outputs)
    (hn : ¬ n.Leads r.term) (hsend : .send target (.appendResponse a) ∈ outputs)
    (hfail : a.success = false) : r.term < a.term := by
  cases h with
  | idle => cases hsend
  | fault kept => cases hsend
  | beat event => cases event
  | stand event => cases event
  | standAlone event => cases event
  | grant event => cases event
  | refuse event => cases event
  | count event => cases event
  | win event => cases event
  | follow event peer current leads only =>
    rcases List.mem_append.mp hsend with htimer | hanswer
    · exact absurd htimer only.send_notMem
    · cases List.mem_singleton.mp hanswer
      cases hfail
  | rebuff event peer reason =>
    cases event
    cases List.mem_singleton.mp hsend
    rcases reason with hlt | ⟨hterm, hleads⟩
    · exact hlt
    · have hrole : n.role = .leader := by simpa [isLeader] using hleads
      exact absurd ⟨hrole, hterm.symm⟩ hn

/-- A node that does not lead the term of a heartbeat turns it down only if it is in a later one. -/
theorem Effect.append_rejected {outage : Outage}
    (h : Effect n (.handle (.message (.appendEntries r)) outage) n' outputs)
    (hn : ¬ n.Leads r.term) (hsend : .send target (.appendResponse a) ∈ outputs)
    (hfail : a.success = false) : r.term < a.term := by
  cases h with
  | handled passes given =>
    rcases given with rfl | rfl
    · obtain ⟨mid, before, after, caught, move, rfl⟩ := passes
      have hmid : ¬ mid.Leads r.term := fun hleads => hn (caught.leads_back hleads)
      rcases List.mem_append.mp hsend with hbefore | hafter
      · exact absurd hbefore caught.send_notMem
      · exact move.append_rejected hmid hafter hfail
    · cases hsend

end Node

namespace Run

variable {members : IdSet} {run : Run members} {k l : Nat} {i j : NodeId} {term : Term}
  {c : NodeId} {target : NodeId} {r : AppendEntries}

/-! ## Heartbeats -/

theorem elected_of_leads (hi : i ∈ members) (hk : k ≤ run.length)
    (hleads : (run.node k i).Leads term) : ∃ j < k, run.Elects j i term := by
  induction k with
  | zero =>
    have hfollows := (run.fresh.node i hi).role
    have hrole : (run.node 0 i).role = .leader := hleads.1
    rw [node, hfollows] at hrole
    cases hrole
  | succ k ih =>
    by_cases hbefore : (run.node k i).Leads term
    · obtain ⟨j, hj, helects⟩ := ih (Nat.le_of_succ_le hk) hbefore
      exact ⟨j, Nat.lt_succ_of_lt hj, helects⟩
    · exact ⟨k, Nat.lt_succ_self k, hk, hi, hbefore, hleads⟩

theorem elected_of_append (hk : k < run.length)
    (hsend : .send target (.appendEntries r) ∈ run.outputs k) :
    r.leader = run.mover k ∧ ∃ j ≤ k, run.Elects j (run.mover k) r.term := by
  refine ⟨(run.sender_eq hk hsend).1, ?_⟩
  have hleads := (run.vouches hk hsend).leads
  obtain ⟨j, hj, helects⟩ := elected_of_leads (run.member k hk) hk hleads
  exact ⟨j, Nat.le_of_lt_succ hj, helects⟩

theorem not_leads_of_sent (hi : i ∈ members) (hk : k ≤ run.length) (hl : l ≤ run.length)
    (hm : (i, .appendEntries r) ∈ (run.world k).sent) : ¬ (run.node l i).Leads r.term := by
  intro hleads
  obtain ⟨j, hj, hleader, hne, hvouches⟩ := run.vouched hk hm
  exact hne (leader_unique hl (Nat.le_trans hj hk) hi hleader hleads hvouches.leads)

/-! ## Leaders that nodes know of -/

theorem elected_of_leader (hi : i ∈ members) (hk : k ≤ run.length)
    (hleader : (run.node k i).leader = some c) :
    ∃ j < k, run.Elects j c (run.node k i).term := by
  induction k with
  | zero =>
    have hnone := (run.fresh.node i hi).leader
    rw [node, hnone] at hleader
    cases hleader
  | succ k ih =>
    have hk' := Nat.le_of_succ_le hk
    have hlater : ∀ term, (∃ j < k, run.Elects j c term) → ∃ j < k + 1, run.Elects j c term := by
      rintro term ⟨j, hj, helects⟩
      exact ⟨j, Nat.lt_succ_of_lt hj, helects⟩
    rcases (run.effect_life hi hk).leader_origin hleader with ⟨hold, hterm⟩ | ⟨hself, hrole⟩ |
      ⟨r, hevent, hsender, hterm⟩
    · rw [hterm]
      exact hlater _ (ih hk' hold)
    · rw [run.id_node hi hk] at hself
      rw [hself]
      exact elected_of_leads hi hk ⟨hrole, rfl⟩
    · -- The heartbeat that is handled was sent before, by the leader of its term.
      have hsent := run.sent_of_life hi hk hevent
      obtain ⟨m, hm, hleader', _, hvouches⟩ := run.vouched hk' hsent
      obtain ⟨j, hj, helects⟩ := elected_of_leads hleader' (Nat.le_trans hm hk') hvouches.leads
      rw [← hsender, ← hterm]
      exact ⟨j, by omega, helects⟩

/-- The leader that a node knows of was elected in the node's term, so nodes of one term know of
one leader. Heartbeats of a term are sent by the one node that was elected in it; no leader handles
one of its own term, and a heartbeat is turned down only in a later term than its own. -/
theorem leader_agreement (run : Run members) :
    (∀ k ≤ run.length, ∀ i ∈ members, ∀ c, (run.node k i).leader = some c →
      ∃ j < k, run.Elects j c (run.node k i).term) ∧
    (∀ k ≤ run.length, ∀ l ≤ run.length, ∀ i ∈ members, ∀ j ∈ members,
      (run.node k i).term = (run.node l j).term → ∀ c c', (run.node k i).leader = some c →
        (run.node l j).leader = some c' → c = c') ∧
    (∀ k < run.length, ∀ target r, .send target (.appendEntries r) ∈ run.outputs k →
      r.leader = run.mover k ∧ (∃ j ≤ k, run.Elects j (run.mover k) r.term) ∧
        ∀ j i, run.Elects j i r.term → i = run.mover k) ∧
    (∀ k < run.length, ∀ r, (run.turn k).event? = some (.message (.appendEntries r)) →
      ¬ (run.node k (run.mover k)).Leads r.term) ∧
    ∀ k < run.length, ∀ r outage, run.turn k = .handle (.message (.appendEntries r)) outage →
      ∀ target a, .send target (.appendResponse a) ∈ run.outputs k → a.success = false →
        r.term < a.term := by
  have hnever : ∀ k < run.length, ∀ r, (run.turn k).event? = some (.message (.appendEntries r)) →
      ¬ (run.node k (run.mover k)).Leads r.term := by
    intro k hk r hevent
    have hsent := run.delivers k hk _ hevent
    exact not_leads_of_sent (run.member k hk) (Nat.le_of_lt hk) (Nat.le_of_lt hk) hsent
  refine ⟨fun k hk i hi c => elected_of_leader hi hk, ?_, ?_, hnever, ?_⟩
  · intro k hk l hl i hi j hj hterm c c' hleader hleader'
    obtain ⟨m, _, helects⟩ := elected_of_leader hi hk hleader
    obtain ⟨m', _, helects'⟩ := elected_of_leader hj hl hleader'
    rw [← hterm] at helects'
    exact (elects_unique helects helects').2
  · intro k hk target r hsend
    obtain ⟨hleader, m, hm, helects⟩ := elected_of_append hk hsend
    exact ⟨hleader, ⟨m, hm, helects⟩, fun j i helects' => (elects_unique helects' helects).2⟩
  · intro k hk r outage hturn target a hsend hfail
    have heffect := run.effect hk
    have hleads := hnever k hk r (by rw [hturn]; rfl)
    rw [hturn] at heffect
    exact heffect.append_rejected hleads hsend hfail

theorem leader_agreement_exampleRun :
    (exampleRun.node 8 3).leader = some 1 ∧ (exampleRun.node 8 3).term = 2 ∧
      ∃ j < 8, exampleRun.Elects j 1 2 := by
  have hleader : (exampleRun.node 8 3).leader = some 1 := by decide +kernel
  exact ⟨hleader, by decide +kernel,
    exampleRun.leader_agreement.1 8 (by decide) 3 (by decide) 1 hleader⟩

end Run

end Elector
