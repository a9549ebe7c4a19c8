import Elector.Proofs.Order

/-!
# A leader that all follow

While all members follow one leader in one term, no alarm for an election is due (`Led.no_timeout`):
the leader's own alarm comes before any of theirs. So nothing is in flight that could bring anyone
to a newer term (`Led.term_kept`), and whoever acts goes on to lead or to follow (`Led.acts`).
-/

namespace Elector.Scene

variable {settings : ClusterSettings} {s s' : Scene} {i l : NodeId} {p q : Process} {e : Event}
  {left : NodeId → List Message}

structure Led (s : Scene) (l : NodeId) (t : Term) : Prop where
  leads : ∃ p, s.process l = some p ∧ p.node.isLeader = true ∧ p.node.term = t
  others : ∀ i q, s.process i = some q → i ≠ l →
    q.node.role = .follower ∧ q.node.leader = some l ∧ q.node.term = t

theorem Led.term {t : Term} (h : s.Led l t) (hp : s.process i = some p) : p.node.term = t := by
  by_cases hi : i = l
  · obtain ⟨p', hp', _, hterm⟩ := h.leads
    rw [← hi, hp] at hp'
    cases hp'
    exact hterm
  · exact (h.others i p hp hi).2.2

/-- No alarm for an election is due while there is a leader that all follow. -/
theorem Led.no_timeout {t : Term} (h : s.Led l t) (hs : s.Orderly settings)
    (process : s.process i = some p) (brings : s.Brings i p e q left) : e ≠ .electionTimeout := by
  cases brings with
  | message first => simp
  | @alarm a halarm hdue =>
    have hm := hs.manned i p process
    obtain ⟨_, hset⟩ := hm.armed.alarm hm.idle
    rw [halarm] at hset
    have hkind : a.firing.kind = p.node.alarmKind := by rw [Option.some.inj hset]
    have hdue' : p.due ≤ s.now := by rwa [Process.due, halarm]
    rw [hkind]
    obtain ⟨pl, hpl, leads, hterm⟩ := h.leads
    by_cases hi : i = l
    · subst hi
      rw [process] at hpl
      cases hpl
      rw [Node.alarmKind_of_leads leads]
      simp [AlarmKind.event]
    · exfalso
      obtain ⟨_, hleader, hterm'⟩ := h.others i p process hi
      have hlater := (hs.manned l pl hpl).due
      rcases hs.prompt l pl i p hpl process hi leads hleader (hterm'.trans hterm.symm) with
        hlt | ⟨hnow, _⟩
      · omega
      · omega

theorem Led.term_kept {t : Term} (h : s.Led l t) (hs : s.Orderly settings)
    (process : s.process i = some p) (brings : s.Brings i p e q left) :
    (p.node.handle e).1.term = p.node.term := by
  rcases p.node.term_handle_cases e with hsame | htimeout | ⟨m, rfl, hterm⟩
  · exact hsame
  · exact absurd htimeout (h.no_timeout hs process brings)
  · obtain ⟨ps, hps, hle, _⟩ := (hs.vouched i m brings.mem_of_message).sender
    have hgrown := (Node.sways_handle (hs.manned i p process).armed.owned (.message m)).term_le
    rw [h.term hps] at hle
    rw [h.term process, hterm] at hgrown ⊢
    exact Int32.le_antisymm hle hgrown

theorem Led.acts {t : Term} (h : s.Led l t) (hs : s.Orderly settings)
    (process : s.process i = some p) (brings : s.Brings i p e q left) :
    (s.acts i q e left).Led l t := by
  have hm := hs.manned i p process
  have acted := hm.acted brings
  have hterm : (q.react s.now e).1.node.term = p.node.term := by
    rw [acted.node]
    exact h.term_kept hs process brings
  have hnewer : ¬ p.node.term < (q.react s.now e).1.node.term := hterm ▸ Int32.lt_irrefl
  obtain ⟨pl, hpl, leads, hplterm⟩ := h.leads
  constructor
  · by_cases hi : i = l
    · subst hi
      rw [process] at hpl
      cases hpl
      have sways := acted.sways hm.armed
      have hlead := sways.leadsOrLeft (Or.inr ⟨rfl, leads⟩)
      refine ⟨_, acts_self .., ?_, hterm.trans hplterm⟩
      exact (hlead.resolve_left hnewer).2
    · exact ⟨pl, by rw [acts_other s q e left (Ne.symm hi), hpl], leads, hplterm⟩
  · intro j r hr hj
    rcases process_acts_cases hr with ⟨rfl, rfl⟩ | ⟨_, hr⟩
    · obtain ⟨hrole, hleader, hpterm⟩ := h.others j p process hj
      have waits : p.node.isLeader = false := by rw [Node.isLeader, hrole]; rfl
      cases acted.sways hm.armed with
      | stays term leader kind =>
        rw [hrole] at kind
        exact ⟨Node.kind_eq_follower.mp kind, leader.trans hleader, hterm.trans hpterm⟩
      | beats term leader led =>
        rw [waits] at led
        cases led
      | roams newer => exact absurd newer hnewer
      | rises newer =>
        rcases newer with hlt | ⟨_, kind⟩
        · exact absurd hlt hnewer
        · rw [hrole] at kind
          cases kind
      | @follows a event peer newer current leader role =>
        subst event
        -- Of all members only `l` can have sent a heartbeat of its term.
        obtain ⟨ps, hps, _, hlead⟩ := (hs.vouched j _ brings.mem_of_message).sender
        have hat : (Message.appendEntries a).term = ps.node.term := by
          rw [h.term hps, ← hpterm, ← hterm, current]
          rfl
        have hsends : ps.node.isLeader = true := by
          rcases hlead rfl with hleft | ⟨_, hled⟩
          · exact absurd (hat ▸ hleft) Int32.lt_irrefl
          · exact hled
        have hsender : a.leader = l := by
          by_contra hne
          rw [Node.isLeader, (h.others a.leader ps hps hne).1] at hsends
          cases hsends
        exact ⟨role, by rw [leader, hsender], hterm.trans hpterm⟩
    · exact h.others j r hr hj

theorem Shift.led {t : Term} (h : s.Shift s') (hs : s.Orderly settings) (led : s.Led l t) :
    s'.Led l t := by
  cases h with
  | pass => exact ⟨led.leads, led.others⟩
  | act process brings => exact led.acts hs process brings

end Elector.Scene
