import Mathlib.Data.List.Nodup
import Mathlib.Data.List.Perm.Subperm
import Elector.Proofs.Origin
import Elector.Proofs.World

/-!
# Election safety

Whoever leads a term has the recorded votes of a quorum of the members (`Run.Mandate`,
`mandate_of_leads`): each vote that it counted was granted by a member of that name, and a member
grants only what it has on record. Two quorums share a member, and a member has one vote, so two
leaders of a term are the same node (`leader_unique`). That node takes the lead of the term once
(`elects_unique`): when it has lost it, or restarted, the term is over for it.
-/

namespace Elector

/-! ## Quorums -/

namespace IdSet

theorem nodup_toList (s : IdSet) : s.toList.Nodup :=
  s.ascending.imp fun hlt heq => absurd (heq ▸ hlt) Int32.lt_irrefl

/-- Two sets of members that are larger than all members together share one. -/
theorem exists_mem_of_size_lt {a b s : IdSet} (ha : ∀ v ∈ a, v ∈ s) (hb : ∀ v ∈ b, v ∈ s)
    (h : s.size < a.size + b.size) : ∃ v ∈ a, v ∈ b := by
  by_contra hnone
  have hdisjoint : a.toList.Disjoint b.toList := fun v hva hvb => hnone ⟨v, hva, hvb⟩
  have hnodup : (a.toList ++ b.toList).Nodup :=
    List.nodup_append'.mpr ⟨a.nodup_toList, b.nodup_toList, hdisjoint⟩
  have hsub : a.toList ++ b.toList ⊆ s.toList := by
    intro v hv
    rcases List.mem_append.mp hv with hva | hvb
    · exact ha v hva
    · exact hb v hvb
  have hle := (hnodup.subperm hsub).length_le
  rw [List.length_append] at hle
  exact absurd h (Nat.not_lt.mpr hle)

theorem exists_mem_of_quorums {a b s : IdSet} (ha : ∀ v ∈ a, v ∈ s) (hb : ∀ v ∈ b, v ∈ s)
    (hqa : s.size / 2 + 1 ≤ a.size) (hqb : s.size / 2 + 1 ≤ b.size) : ∃ v ∈ a, v ∈ b :=
  exists_mem_of_size_lt ha hb (by omega)

end IdSet

namespace Run

variable {members : IdSet} {run : Run members} {k l : Nat} {i j v : NodeId} {term : Term}
  {c c' : NodeId}

/-! ## Votes -/

/-- By moment `k` member `v` has had a vote for `c` in `term` on record. -/
def Voted (run : Run members) (k : Nat) (v : NodeId) (term : Term) (c : NodeId) : Prop :=
  v ∈ members ∧ ∃ l ≤ k, (run.node l v).storage.ballots.vote? term = some c

theorem Voted.mono (h : run.Voted k v term c) (hkl : k ≤ l) : run.Voted l v term c := by
  obtain ⟨hv, m, hm, hvote⟩ := h
  exact ⟨hv, m, Nat.le_trans hm hkl, hvote⟩

theorem Voted.unique (hk : k ≤ run.length) (hl : l ≤ run.length) (h : run.Voted k v term c)
    (h' : run.Voted l v term c') : c = c' := by
  obtain ⟨hv, m, hm, hvote⟩ := h
  obtain ⟨_, m', hm', hvote'⟩ := h'
  exact (run.life hv).vote_unique (Nat.le_trans hm hk) (Nat.le_trans hm' hl) hvote hvote'

/-- A granted vote that was sent was cast by the member that it names, for the receiver. -/
theorem voted_of_sent (hk : k ≤ run.length) {r : VoteResponse}
    (hm : (c, .voteResponse r) ∈ (run.world k).sent) (hgranted : r.granted = true) :
    run.Voted k r.voter r.term c := by
  obtain ⟨j, hj, hvoter, _, hvouches⟩ := run.vouched hk hm
  have hterm : r.term = _ := hvouches.term
  rw [hterm]
  exact ⟨hvoter, j, hj, hvouches.backs hgranted⟩

/-! ## Mandates -/

/-- A quorum of the members, `i` among them, has voted for `i` by moment `k`. -/
def Mandate (run : Run members) (k : Nat) (i : NodeId) (term : Term) (voters : IdSet) : Prop :=
  members.size / 2 + 1 ≤ voters.size ∧ i ∈ voters ∧ ∀ v ∈ voters, run.Voted k v term i

theorem supported (hi : i ∈ members) (hk : k ≤ run.length) :
    Node.Supported (fun v term => run.Voted k v term i) (run.node k i) := by
  induction k with
  | zero => exact Node.supported_of_follower (run.fresh.node i hi).role
  | succ k ih =>
    have hk' := Nat.le_of_succ_le hk
    have hlater : ∀ v term, run.Voted k v term i → run.Voted (k + 1) v term i :=
      fun v term hvoted => hvoted.mono (Nat.le_succ k)
    apply (run.effect_life hi hk).supported (run.sound hi hk') ((ih hk').mono hlater)
    intro r hevent hgranted
    have hsent := run.sent_of_life hi hk hevent
    exact hlater _ _ (voted_of_sent hk' hsent hgranted)

theorem mandate_of_leads (hi : i ∈ members) (hk : k ≤ run.length)
    (hleads : (run.node k i).Leads term) : ∃ voters, run.Mandate k i term voters := by
  obtain ⟨hrole, rfl⟩ := hleads
  obtain ⟨voters, hcarries, hself, hmembers, hgiven⟩ := (supported hi hk).leader hrole
  rw [run.id_node hi hk] at hself hgiven
  rw [IdSet.carries, decide_eq_true_eq, run.quorum_node hi hk] at hcarries
  have hown := (run.sound hi hk).own (by simp [hrole])
  rw [run.id_node hi hk] at hown
  refine ⟨voters, hcarries, hself, fun v hv => ?_⟩
  by_cases hvi : v = i
  · subst hvi
    exact ⟨hi, k, Nat.le_refl k, hown⟩
  · exact hgiven v hv hvi

theorem Mandate.mem (h : run.Mandate k i term voters) : ∀ v ∈ voters, v ∈ members :=
  fun v hv => (h.2.2 v hv).1

theorem leader_unique (hk : k ≤ run.length) (hl : l ≤ run.length) (hi : i ∈ members)
    (hj : j ∈ members) (hleads : (run.node k i).Leads term) (hleads' : (run.node l j).Leads term) :
    i = j := by
  obtain ⟨voters, hmandate⟩ := mandate_of_leads hi hk hleads
  obtain ⟨voters', hmandate'⟩ := mandate_of_leads hj hl hleads'
  obtain ⟨v, hv, hv'⟩ :=
    IdSet.exists_mem_of_quorums hmandate.mem hmandate'.mem hmandate.1 hmandate'.1
  exact Voted.unique hk hl (hmandate.2.2 v hv) (hmandate'.2.2 v hv')

/-! ## Taking the lead -/

/-- In turn `k` node `i` becomes leader of `term`. -/
structure Elects (run : Run members) (k : Nat) (i : NodeId) (term : Term) : Prop where
  lt : k < run.length
  member : i ∈ members
  before : ¬ (run.node k i).Leads term
  after : (run.node (k + 1) i).Leads term

theorem settledFor_mono (hi : i ∈ members) (hkl : k ≤ l) (hl : l ≤ run.length)
    (h : (run.node k i).SettledFor term) : (run.node l i).SettledFor term := by
  induction l, hkl using Nat.le_induction with
  | base => exact h
  | succ l hkl ih =>
    have hl' := Nat.le_of_succ_le hl
    exact (run.effect_life hi hl).settledFor (run.sound hi hl') (ih hl')

/-- The turn in which a node takes the lead of a term is the first in which it has it. -/
theorem not_elects_of_leads (hkl : k ≤ l) (hleads : (run.node k i).Leads term) :
    ¬ run.Elects l i term := by
  intro helects
  have hsettled := settledFor_mono helects.member hkl (Nat.le_of_lt helects.lt) hleads.settledFor
  have heffect := run.effect_life helects.member helects.lt
  exact helects.before (heffect.leads_back hsettled helects.after)

theorem elects_unique (h : run.Elects k i term) (h' : run.Elects l j term) : k = l ∧ i = j := by
  obtain rfl := leader_unique h.lt h'.lt h.member h'.member h.after h'.after
  refine ⟨?_, rfl⟩
  rcases Nat.lt_trichotomy k l with hkl | heq | hlk
  · exact absurd h' (not_elects_of_leads hkl h.after)
  · exact heq
  · exact absurd h (not_elects_of_leads hlk h'.after)

/-! A run of three members, of which the third has a shorter log. Its election fails; the first is
elected, after its voter has crashed before the grant was sent and has granted the vote again. -/

def exampleSchedule : Nat → NodeId × Turn
  | 0 => (3, .handle .electionTimeout {})
  | 1 => (1, .handle (.message (.voteRequest { candidate := 3, term := 1, last := ⟨1, 1⟩ })) {})
  | 2 => (1, .handle .electionTimeout {})
  | 3 => (2, .crash (.message (.voteRequest { candidate := 1, term := 2, last := ⟨1, 2⟩ })) {} 2)
  | 4 => (2, .handle (.message (.voteRequest { candidate := 1, term := 2, last := ⟨1, 2⟩ })) {})
  | 5 => (1, .handle (.message (.voteResponse { voter := 2, term := 2, granted := true })) {})
  | 6 => (1, .handle (.message (.voteResponse { voter := 2, term := 2, granted := true })) {})
  | _ => (3, .handle (.message (.appendEntries (heartbeat 1 2 ⟨1, 2⟩))) {})

def exampleRun : Run (.ofList [1, 2, 3]) :=
  .ofSchedule (.start [1, 2, 3] fun i => if i = 3 then ⟨1, 1⟩ else ⟨1, 2⟩) exampleSchedule 8
    (World.fresh_start _ _) (by decide +kernel)

/-- **Election safety.** In a whole run a term gets a leader in one turn at most, and no two nodes
lead it, at the same or at different moments. -/
theorem election_safety (run : Run members) :
    (∀ k l i j term, run.Elects k i term → run.Elects l j term → k = l ∧ i = j) ∧
    ∀ k ≤ run.length, ∀ l ≤ run.length, ∀ i ∈ members, ∀ j ∈ members, ∀ term,
      (run.node k i).Leads term → (run.node l j).Leads term → i = j := by
  refine ⟨fun k l i j term helects helects' => elects_unique helects helects', ?_⟩
  intro k hk l hl i hi j hj term hleads hleads'
  exact leader_unique hk hl hi hj hleads hleads'

theorem election_safety_exampleRun :
    exampleRun.Elects 5 1 2 ∧ ∀ l j, exampleRun.Elects l j 2 → 5 = l ∧ 1 = j := by
  have helects : exampleRun.Elects 5 1 2 :=
    ⟨by decide, by decide, by decide +kernel, by decide +kernel⟩
  exact ⟨helects, fun l j => exampleRun.election_safety.1 5 l 1 j 2 helects⟩

end Run

end Elector
