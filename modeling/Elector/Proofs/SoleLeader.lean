import Elector.Report
import Elector.Proofs.Allegiance
import Elector.Proofs.Election

/-!
# The leader that statuses tell of

Among any statuses a sole leader is found if and only if exactly one of them tells of the lead of
the greatest term (`soleLeader_eq_ok_iff`). Statuses that were taken from different members of a run
(`Run.Polled`), each at a moment of its own, tell of the lead of a term at most once, because a term
has one leader over the whole run. So several leaders are never found among them, and a leader that
is found is the only one that its term ever has (`Run.sole_leader_of_poll`).
-/

namespace Elector

def Status.Leads (s : Status) (t : Term) : Prop := s.role = .leader ∧ s.term = t

variable {statuses : List Status} {s : Status} {t : Term}

/-! ## The greatest term -/

theorem topTerm_cons_cons (s s' : Status) (rest : List Status) :
    topTerm (s :: s' :: rest) = topTerm ((if s.term < s'.term then s' else s) :: rest) := by
  rw [topTerm, topTerm, List.foldl_cons]
  split <;> rfl

theorem topTerm_cons (s : Status) (rest : List Status) :
    (∀ s' ∈ s :: rest, s'.term ≤ topTerm (s :: rest)) ∧
      ∃ s' ∈ s :: rest, s'.term = topTerm (s :: rest) := by
  induction rest generalizing s with
  | nil =>
    refine ⟨fun s' hs' => ?_, s, List.mem_cons_self, rfl⟩
    rw [List.mem_singleton.mp hs']
    exact Int32.le_refl _
  | cons s' rest ih =>
    -- of the first two the one of the greater term stays in the race
    rw [topTerm_cons_cons]
    by_cases hlt : s.term < s'.term
    · rw [if_pos hlt]
      obtain ⟨hall, winner, hmem, hterm⟩ := ih s'
      refine ⟨fun other hother => ?_, winner, List.mem_cons_of_mem _ hmem, hterm⟩
      rcases List.mem_cons.mp hother with rfl | hrest
      · exact Int32.le_of_lt (Int32.lt_of_lt_of_le hlt (hall s' List.mem_cons_self))
      · exact hall other hrest
    · rw [if_neg hlt]
      obtain ⟨hall, winner, hmem, hterm⟩ := ih s
      have hfirst := hall s List.mem_cons_self
      refine ⟨fun other hother => ?_, winner, ?_, hterm⟩
      · rcases List.mem_cons.mp hother with rfl | hrest
        · exact hfirst
        · rcases List.mem_cons.mp hrest with rfl | hlater
          · exact Int32.le_trans (Int32.not_lt.mp hlt) hfirst
          · exact hall other (List.mem_cons_of_mem _ hlater)
      · rcases List.mem_cons.mp hmem with rfl | hlater
        · exact List.mem_cons_self
        · exact List.mem_cons_of_mem _ (List.mem_cons_of_mem _ hlater)

theorem le_topTerm (hs : s ∈ statuses) : s.term ≤ topTerm statuses := by
  obtain ⟨first, rest, rfl⟩ := List.exists_cons_of_ne_nil (List.ne_nil_of_mem hs)
  exact (topTerm_cons first rest).1 s hs

theorem term_eq_topTerm_iff (hs : s ∈ statuses) :
    s.term = topTerm statuses ↔ ∀ s' ∈ statuses, s'.term ≤ s.term := by
  constructor
  · intro heq s' hs'
    rw [heq]
    exact le_topTerm hs'
  · intro hall
    obtain ⟨first, rest, rfl⟩ := List.exists_cons_of_ne_nil (List.ne_nil_of_mem hs)
    obtain ⟨s', hs', hterm⟩ := (topTerm_cons first rest).2
    exact Int32.le_antisymm (le_topTerm hs) (hterm ▸ hall s' hs')

/-! ## Leaders of the greatest term -/

def topLeaders (statuses : List Status) : List Status :=
  statuses.filter fun s => s.role = .leader && s.term = topTerm statuses

theorem mem_topLeaders : s ∈ topLeaders statuses ↔ s ∈ statuses ∧ s.Leads (topTerm statuses) := by
  simp [topLeaders, Status.Leads]

/-- What is found depends on how many tell of the lead of the greatest term. -/
theorem soleLeader_cases (statuses : List Status) :
    topLeaders statuses = [] ∧ soleLeader statuses = .error (.none (topTerm statuses)) ∨
    (∃ s, topLeaders statuses = [s] ∧ soleLeader statuses = .ok s) ∨
    ∃ s s' rest, topLeaders statuses = s :: s' :: rest ∧
      soleLeader statuses = .error (.several (topTerm statuses)) := by
  rcases hleaders : topLeaders statuses with _ | ⟨s, _ | ⟨s', rest⟩⟩
  all_goals have hfiltered := hleaders; rw [topLeaders] at hfiltered
  · exact Or.inl ⟨rfl, by simp only [soleLeader, hfiltered]⟩
  · exact Or.inr (Or.inl ⟨s, rfl, by simp only [soleLeader, hfiltered]⟩)
  · exact Or.inr (Or.inr ⟨s, s', rest, rfl, by simp only [soleLeader, hfiltered]⟩)

theorem soleLeader_ne_several
    (alone : statuses.Pairwise fun s s' => ¬ (s.Leads t ∧ s'.Leads t)) :
    soleLeader statuses ≠ .error (.several t) := by
  intro h
  rcases soleLeader_cases statuses with ⟨_, hnone⟩ | ⟨s, _, hsole⟩ | ⟨s, s', rest, hleaders, hfound⟩
  · cases h.symm.trans hnone
  · cases h.symm.trans hsole
  · cases h.symm.trans hfound
    have hs : s ∈ topLeaders statuses := hleaders ▸ List.mem_cons_self
    have hs' : s' ∈ topLeaders statuses := hleaders ▸ List.mem_cons_of_mem _ List.mem_cons_self
    have halone := alone.filter fun s => s.role = .leader && s.term = topTerm statuses
    rw [← topLeaders, hleaders] at halone
    exact List.rel_of_pairwise_cons halone List.mem_cons_self
      ⟨(mem_topLeaders.mp hs).2, (mem_topLeaders.mp hs').2⟩

/-- Then the leader is the status that tells of the lead of the greatest term, if one does. -/
theorem soleLeader_eq_ok_iff
    (alone : statuses.Pairwise fun s s' =>
      ¬ (s.Leads (topTerm statuses) ∧ s'.Leads (topTerm statuses))) :
    soleLeader statuses = .ok s ↔ s ∈ statuses ∧ s.Leads (topTerm statuses) := by
  rw [← mem_topLeaders]
  rcases soleLeader_cases statuses with ⟨hleaders, hnone⟩ | ⟨sole, hleaders, hsole⟩ | ⟨_, _, _, _, h⟩
  · rw [hleaders, hnone]
    exact iff_of_false (fun h => nomatch h) List.not_mem_nil
  · rw [hleaders, hsole, List.mem_singleton, Except.ok.injEq, eq_comm]
  · exact absurd h (soleLeader_ne_several alone)

/-! ## Statuses of a run -/

namespace Run

variable {members : IdSet} {run : Run members}

/-- Statuses of different members, each as it was at some moment of the run. -/
structure Polled (run : Run members) (statuses : List Status) : Prop where
  taken : ∀ s ∈ statuses, ∃ k ≤ run.length, ∃ i ∈ members, s = (run.node k i).status
  once : (statuses.map (·.id)).Nodup

theorem Polled.leads (h : run.Polled statuses) (hs : s ∈ statuses) (leads : s.Leads t) :
    s.id ∈ members ∧ ∃ k ≤ run.length, (run.node k s.id).Leads t := by
  obtain ⟨k, hk, i, hi, rfl⟩ := h.taken s hs
  have hid : (run.node k i).status.id = i := run.id_node hi hk
  rw [hid]
  exact ⟨hi, k, hk, Node.kind_eq_leader.mp leads.1, leads.2⟩

theorem Polled.alone (h : run.Polled statuses) (t : Term) :
    statuses.Pairwise fun s s' => ¬ (s.Leads t ∧ s'.Leads t) := by
  refine (List.pairwise_map.mp h.once).imp_of_mem fun hs hs' hne leads => ?_
  obtain ⟨hi, k, hk, hleads⟩ := h.leads hs leads.1
  obtain ⟨hj, l, hl, hleads'⟩ := h.leads hs' leads.2
  exact hne (leader_unique hk hl hi hj hleads hleads')

/-- **Statuses never tell of two leaders, nor of a wrong one.** Take statuses of different members of
a run, each as it was at any moment of it. Several leaders are never found among them. A status is
found to be the leader's exactly if it tells of a lead and no other is ahead of its term; then it is
the only such status, its node leads that term at some moment of the run, and no other node does at
any moment. No leader is found exactly if no status is like that, so none is found among no
statuses. -/
theorem sole_leader_of_poll (run : Run members) (statuses : List Status)
    (polled : run.Polled statuses) :
    (∀ top, soleLeader statuses ≠ .error (.several top)) ∧
    (∀ s, soleLeader statuses = .ok s ↔
      s ∈ statuses ∧ s.role = .leader ∧ ∀ s' ∈ statuses, s'.term ≤ s.term) ∧
    (∀ s, soleLeader statuses = .ok s →
      (∀ s' ∈ statuses, s'.role = .leader → s'.term = s.term → s' = s) ∧ statuses.count s = 1 ∧
      s.id ∈ members ∧ (∃ k ≤ run.length, (run.node k s.id).Leads s.term) ∧
      ∀ k ≤ run.length, ∀ i ∈ members, (run.node k i).Leads s.term → i = s.id) ∧
    ((∃ cause, soleLeader statuses = .error cause) ↔
      ∀ s ∈ statuses, s.role = .leader → ∃ s' ∈ statuses, s.term < s'.term) ∧
    soleLeader [] = .error (.none 0) := by
  have hok : ∀ s, soleLeader statuses = .ok s ↔
      s ∈ statuses ∧ s.role = .leader ∧ ∀ s' ∈ statuses, s'.term ≤ s.term := by
    intro s
    rw [soleLeader_eq_ok_iff (polled.alone _), Status.Leads]
    exact and_congr_right fun hs => and_congr_right fun _ => term_eq_topTerm_iff hs
  refine ⟨fun top => soleLeader_ne_several (polled.alone top), hok, fun s hs => ?_, ?_, rfl⟩
  · obtain ⟨hmem, hrole, hgreatest⟩ := (hok s).mp hs
    obtain ⟨hid, hleads⟩ := polled.leads hmem ⟨hrole, rfl⟩
    obtain ⟨l, hl, hleads'⟩ := hleads
    have honly : ∀ k ≤ run.length, ∀ i ∈ members, (run.node k i).Leads s.term → i = s.id :=
      fun k hk i hi leads => leader_unique hk hl hi hid leads hleads'
    refine ⟨fun s' hs' hrole' hterm => ?_, ?_, hid, ⟨l, hl, hleads'⟩, honly⟩
    · have hok' := (hok s').mpr ⟨hs', hrole', hterm ▸ hgreatest⟩
      cases hs.symm.trans hok'
      rfl
    · exact List.count_eq_one_of_mem polled.once.of_map hmem
  · constructor
    · rintro ⟨cause, hcause⟩ s hs hrole
      by_contra hnone
      push Not at hnone
      have hfound := (hok s).mpr ⟨hs, hrole, fun s' hs' => Int32.not_lt.mp (hnone s' hs')⟩
      cases hcause.symm.trans hfound
    · intro hnone
      cases hfound : soleLeader statuses with
      | error cause => exact ⟨cause, rfl⟩
      | ok s =>
        obtain ⟨hmem, hrole, hgreatest⟩ := (hok s).mp hfound
        obtain ⟨s', hs', hlt⟩ := hnone s hmem hrole
        exact absurd (hgreatest s' hs') (Int32.not_le.mpr hlt)

/-! A run of three members in which the second is elected behind the back of the first. -/

def rivalSchedule : Nat → NodeId × Turn
  | 0 => (1, .handle .electionTimeout {})
  | 1 => (2, .handle (.message (.voteRequest { candidate := 1, term := 1, last := {} })) {})
  | 2 => (1, .handle (.message (.voteResponse { voter := 2, term := 1, granted := true })) {})
  | 3 => (2, .handle .electionTimeout {})
  | 4 => (3, .handle (.message (.voteRequest { candidate := 2, term := 2, last := {} })) {})
  | _ => (2, .handle (.message (.voteResponse { voter := 3, term := 2, granted := true })) {})

def rivalRun : Run (.ofList [1, 2, 3]) :=
  .ofSchedule (.start [1, 2, 3] fun _ => {}) rivalSchedule 6 (World.fresh_start _ _)
    (by decide +kernel)

/-- The third node was asked before either was elected, the second last. -/
def rivalPoll : List Status :=
  [(rivalRun.node 4 1).status, (rivalRun.node 6 2).status, (rivalRun.node 2 3).status]

theorem sole_leader_of_rivalPoll :
    rivalPoll.map (fun s => (s.id, s.term, s.role)) =
        [(1, 1, .leader), (2, 2, .leader), (3, 0, .follower)] ∧
      soleLeader rivalPoll = .ok (rivalRun.node 6 2).status ∧
      ∀ k ≤ 6, ∀ i ∈ IdSet.ofList [1, 2, 3], (rivalRun.node k i).Leads 2 → i = 2 := by
  have hseen : rivalPoll.map (fun s => (s.id, s.term, s.role)) =
      [(1, 1, .leader), (2, 2, .leader), (3, 0, .follower)] := by decide +kernel
  have polled : rivalRun.Polled rivalPoll := by
    refine ⟨fun s hs => ?_, by decide +kernel⟩
    rcases List.mem_cons.mp hs with rfl | hs
    · exact ⟨4, by decide, 1, by decide, rfl⟩
    rcases List.mem_cons.mp hs with rfl | hs
    · exact ⟨6, by decide, 2, by decide, rfl⟩
    · exact ⟨2, by decide, 3, by decide, List.mem_singleton.mp hs⟩
  obtain ⟨_, hok, honly, _⟩ := rivalRun.sole_leader_of_poll rivalPoll polled
  have hfound := (hok (rivalRun.node 6 2).status).mpr
    ⟨by decide +kernel, by decide +kernel, by decide +kernel⟩
  obtain ⟨_, _, _, _, hlead⟩ := honly _ hfound
  exact ⟨hseen, hfound, hlead⟩

end Run

end Elector
