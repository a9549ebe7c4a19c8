import Elector.Proofs.Scene

/-!
# Scenes stay in order

Time passes only as far as the first alarm, so nobody's alarm is ever overdue (`Orderly.pass`). A
member that acts keeps what it stands for (`Orderly.kept_acts`), and hence what others have heard of
it. What is `prompt` is kept by a leader that acts, since whenever it sets its alarm a round of
heartbeats goes out at once (`Orderly.prompt_leader`), and by a follower that acts, since it sets
its own alarm to a longer wait than any leader's, or leaves it (`Orderly.prompt_follower`). Whoever
joins does not follow anyone yet (`Orderly.enters`).
-/

namespace Elector.Scene

variable {settings : ClusterSettings} {s s' : Scene} {i j l : NodeId} {p q : Process} {e : Event}
  {left : NodeId → List Message} {m : Message}

theorem Orderly.pass {now : Nat} (h : s.Orderly settings) (later : s.now ≤ now)
    (empty : ∀ i p, s.process i = some p → s.flight i = [])
    (punctual : ∀ i p, s.process i = some p → now ≤ p.due) : Orderly settings { s with now } where
  members := h.members
  manned := by
    intro i p hp
    have hm := h.manned i p hp
    refine { hm with due := punctual i p hp, near := fun leads => ?_ }
    exact Nat.le_trans (hm.near leads) (Nat.add_le_add_right later _)
  vouched := by
    intro j m hm
    have hv := h.vouched j m hm
    exact ⟨hv.other, hv.sender⟩
  followed := h.followed
  prompt := by
    intro l p i q hp hq hil leads hleader hterm
    rcases h.prompt l p i q hp hq hil leads hleader hterm with hlt | ⟨_, r, hr, _⟩
    · exact Or.inl hlt
    · rw [empty i q hq] at hr
      cases hr

theorem process_acts_cases {r : Process} (hr : (s.acts i q e left).process j = some r) :
    j = i ∧ (q.react s.now e).1 = r ∨ j ≠ i ∧ s.process j = some r := by
  by_cases hj : j = i
  · rw [hj, acts_self] at hr
    exact Or.inl ⟨hj, Option.some.inj hr⟩
  · rw [acts_other s q e left hj] at hr
    exact Or.inr ⟨hj, hr⟩

theorem Orderly.manned_acts (h : s.Orderly settings) (steady : settings.timing.Steady)
    (process : s.process i = some p) (brings : s.Brings i p e q left) (j : NodeId) (r : Process)
    (hr : (s.acts i q e left).process j = some r) :
    (s.acts i q e left).Manned settings j r := by
  rcases process_acts_cases hr with ⟨rfl, rfl⟩ | ⟨_, hr⟩
  · have hm := h.manned j p process
    have acted := hm.acted brings
    exact {
      id := acted.id hm
      peers := by
        intro k
        rw [acted.roster]
        exact hm.peers k
      running := acted.running.trans hm.running
      idle := acted.idle.trans hm.idle
      armed := acted.armed
      times := acted.timing hm
      punctual := acted.punctual hm
      leader := by
        intro leads
        cases acted.sways hm.armed with
        | stays term leader kind =>
          rw [leader]
          apply hm.leader
          rw [Node.isLeader_iff, ← kind, ← Node.isLeader_iff, leads]
        | beats term leader led => rw [leader, hm.leader led]
        | roams newer leader waits =>
          rw [leads] at waits
          cases waits
        | rises newer leader => rw [leader, acted.id hm]
        | follows event peer newer current leader role =>
          rw [Node.isLeader, role] at leads
          cases leads
      due := acted.due_le hm steady
      near := acted.near hm }
  · exact { h.manned j r hr with }

theorem Orderly.kept_acts (h : s.Orderly settings) (process : s.process i = some p)
    (brings : s.Brings i p e q left) {k : NodeId} {r : Process} (hr : s.process k = some r) :
    ∃ r', (s.acts i q e left).process k = some r' ∧ r.node.term ≤ r'.node.term ∧
      ∀ t, r.node.LeadsOrLeft t → r'.node.LeadsOrLeft t := by
  by_cases hk : k = i
  · subst hk
    rw [process] at hr
    cases hr
    have hm := h.manned k p process
    have sways := (hm.acted brings).sways hm.armed
    exact ⟨_, acts_self .., sways.term_le, fun t ht => sways.leadsOrLeft ht⟩
  · refine ⟨r, ?_, Int32.le_refl _, fun t ht => ht⟩
    rw [acts_other s q e left hk, hr]

theorem Orderly.vouched_acts (h : s.Orderly settings) (process : s.process i = some p)
    (brings : s.Brings i p e q left) (hm : m ∈ (s.acts i q e left).flight j) :
    (s.acts i q e left).Vouched j m := by
  rcases List.mem_append.mp hm with hleft | hsent
  · have hv := h.vouched j m (brings.mem_flight hleft)
    obtain ⟨r, hr, hterm, hbeat⟩ := hv.sender
    obtain ⟨r', hr', hgrown, hkept⟩ := h.kept_acts process brings hr
    exact ⟨hv.other, r', hr', Int32.le_trans hterm hgrown, fun kind => hkept _ (hbeat kind)⟩
  · rw [brings.node] at hsent
    have hmanned := h.manned i p process
    have acted := hmanned.acted brings
    have vouches := Node.vouches_asks (mem_lettersTo.mp hsent)
    rw [← acted.node] at vouches
    have hid : (q.react s.now e).1.node.id = i := acted.id hmanned
    have hpeer : j ∈ p.node.roster.peers := acted.roster ▸ vouches.peer
    have hsender : m.sender = i := vouches.sender.trans hid
    refine ⟨?_, _, ?_, Int32.le_of_eq vouches.term, fun kind => ?_⟩
    · rw [hsender]
      exact ((hmanned.peers j).mp hpeer).2.symm
    · rw [hsender, acts_self]
    · refine Or.inr ⟨vouches.term, ?_⟩
      cases m with
      | appendEntries r =>
        have hrole : (q.react s.now e).1.node.role = .leader := vouches.backs
        rw [Node.isLeader, hrole]
        rfl
      | _ => cases kind

theorem Orderly.followed_acts (h : s.Orderly settings) (process : s.process i = some p)
    (brings : s.Brings i p e q left) (r : Process)
    (hr : (s.acts i q e left).process j = some r) (hleader : r.node.leader = some l)
    (hl : l ≠ j) :
    ∃ r', (s.acts i q e left).process l = some r' ∧ r'.node.LeadsOrLeft r.node.term := by
  have hold : ∀ r₀, s.process l = some r₀ → r₀.node.LeadsOrLeft r.node.term →
      ∃ r', (s.acts i q e left).process l = some r' ∧ r'.node.LeadsOrLeft r.node.term := by
    intro r₀ hr₀ hlead
    obtain ⟨r', hr', _, hkept⟩ := h.kept_acts process brings hr₀
    exact ⟨r', hr', hkept _ hlead⟩
  rcases process_acts_cases hr with ⟨rfl, rfl⟩ | ⟨_, hr⟩
  · have hm := h.manned j p process
    have acted := hm.acted brings
    have hid : (q.react s.now e).1.node.id = j := acted.id hm
    have hbefore : p.node.leader = some l → (q.react s.now e).1.node.term = p.node.term →
        ∃ r₀, s.process l = some r₀ ∧ r₀.node.LeadsOrLeft (q.react s.now e).1.node.term := by
      intro hpl hterm
      rw [hterm]
      exact h.followed j p l process hpl hl
    cases acted.sways hm.armed with
    | stays term leader =>
      obtain ⟨r₀, hr₀, hlead⟩ := hbefore (leader ▸ hleader) term
      exact hold r₀ hr₀ hlead
    | beats term leader =>
      obtain ⟨r₀, hr₀, hlead⟩ := hbefore (leader ▸ hleader) term
      exact hold r₀ hr₀ hlead
    | roams newer leader =>
      rw [leader] at hleader
      cases hleader
    | rises newer leader =>
      rw [leader, hid] at hleader
      exact absurd (Option.some.inj hleader).symm hl
    | @follows a event peer newer current leader =>
      subst event
      rw [leader] at hleader
      cases hleader
      obtain ⟨r₀, hr₀, _, hbeat⟩ := (h.vouched j _ brings.mem_of_message).sender
      exact hold r₀ hr₀ (current ▸ hbeat rfl)
  · obtain ⟨r₀, hr₀, hlead⟩ := h.followed j r l hr hleader hl
    exact hold r₀ hr₀ hlead

theorem Beating.acts {t : Term} (h : s.Beating l t j) (brings : s.Brings i p e q left)
    (hj : j ≠ i) : (s.acts i q e left).Beating l t j := by
  obtain ⟨r, hr, hleader, hterm⟩ := h
  refine ⟨r, List.mem_append_left _ ?_, hleader, hterm⟩
  rw [brings.left_other hj]
  exact hr

theorem Orderly.prompt_leader (h : s.Orderly settings) (process : s.process i = some p)
    (brings : s.Brings i p e q left) {f : Process} (hf : s.process j = some f) (hj : j ≠ i)
    (leads : (q.react s.now e).1.node.isLeader = true) (hleader : f.node.leader = some i)
    (hterm : f.node.term = (q.react s.now e).1.node.term) :
    (q.react s.now e).1.due < f.due ∨ s.now < f.due ∧
      (s.acts i q e left).Beating i (q.react s.now e).1.node.term j := by
  have hm := h.manned i p process
  have acted := hm.acted brings
  have sways := acted.sways hm.armed
  have hid : (q.react s.now e).1.node.id = i := acted.id hm
  have hpeer : j ∈ (q.react s.now e).1.node.roster.peers := by
    rw [acted.roster, hm.peers j]
    exact ⟨h.members j f hf, hj⟩
  -- A member that follows the leader already has the leader's word for its term.
  obtain ⟨p', hp', hlead⟩ := h.followed j f i hf hleader hj.symm
  rw [process] at hp'
  cases hp'
  have hbefore : p.node.isLeader = true → f.node.term = p.node.term →
      p.due < f.due ∨ s.now < f.due ∧ s.Beating i p.node.term j :=
    fun led same => h.prompt i p j f process hf hj led hleader same
  have hround : (q.react s.now e).1.node.Rounds (p.node.asks e) →
      (s.acts i q e left).Beating i (q.react s.now e).1.node.term j := by
    intro rounds
    have hsent := mem_lettersTo.mpr (rounds j hpeer)
    rw [← brings.node] at hsent
    exact ⟨_, List.mem_append_right _ hsent, hid, rfl⟩
  cases sways with
  | stays term leader kind quiet =>
    have led : p.node.isLeader = true := by
      rw [Node.isLeader_iff, ← kind, ← Node.isLeader_iff, leads]
    have hkept : (q.react s.now e).1.due = p.due := by
      rcases acted.alarm with ⟨hset, _⟩ | ⟨_, _, hkept⟩
      · rw [quiet led] at hset
        cases hset
      · exact hkept
    rw [hkept, term]
    exact (hbefore led (hterm.trans term)).imp_right fun ⟨hnow, hbeat⟩ =>
      ⟨hnow, hbeat.acts brings hj⟩
  | beats term leader led _ rounds =>
    refine Or.inr ⟨?_, hround rounds⟩
    rcases hbefore led (hterm.trans term) with hlt | ⟨hnow, _⟩
    · exact Nat.lt_of_le_of_lt hm.due hlt
    · exact hnow
  | roams newer leader waits =>
    rw [leads] at waits
    cases waits
  | rises newer =>
    -- It has not led this term before, so nobody follows it there.
    exfalso
    rw [hterm] at hlead
    rcases newer with hlt | ⟨heq, hkind⟩
    · rcases hlead with hleft | ⟨hsame, _⟩
      · exact Int32.lt_asymm hlt hleft
      · exact Int32.lt_irrefl (hsame ▸ hlt)
    · rcases hlead with hleft | ⟨_, hled⟩
      · exact Int32.lt_irrefl (heq ▸ hleft)
      · rw [Node.isLeader_iff, hkind] at hled
        cases hled
  | follows event peer newer current leader role =>
    rw [Node.isLeader, role] at leads
    cases leads

theorem Orderly.prompt_follower (h : s.Orderly settings) (steady : settings.timing.Steady)
    (process : s.process i = some p) (brings : s.Brings i p e q left) {r : Process}
    (hr : s.process l = some r) (hl : l ≠ i) (leads : r.node.isLeader = true)
    (hleader : (q.react s.now e).1.node.leader = some l)
    (hterm : (q.react s.now e).1.node.term = r.node.term) :
    r.due < (q.react s.now e).1.due ∨ s.now < (q.react s.now e).1.due ∧
      (s.acts i q e left).Beating l r.node.term i := by
  have hm := h.manned i p process
  have acted := hm.acted brings
  have hid : (q.react s.now e).1.node.id = i := acted.id hm
  have hnear := (h.manned l r hr).near leads
  have hlate : p.node.alarmAfter e ≠ none → (q.react s.now e).1.node.isLeader = false →
      r.due < (q.react s.now e).1.due :=
    fun hset waits => Nat.lt_of_le_of_lt hnear (acted.late hm steady hset waits)
  cases acted.sways hm.armed with
  | stays term leader kind =>
    rw [leader] at hleader
    have waits : p.node.isLeader = false := by
      by_contra led
      have hself := hm.leader (by simpa using led)
      rw [hleader] at hself
      exact hl (Option.some.inj hself)
    have waits' : (q.react s.now e).1.node.isLeader = false := by
      rw [Bool.eq_false_iff, Ne, Node.isLeader_iff, kind, ← Node.isLeader_iff, waits]
      simp
    by_cases hset : p.node.alarmAfter e = none
    · have hkept : (q.react s.now e).1.due = p.due := by
        rcases acted.alarm with ⟨hsome, _⟩ | ⟨_, _, hkept⟩
        · rw [hset] at hsome
          cases hsome
        · exact hkept
      rw [hkept]
      refine (h.prompt l r i p hr process hl.symm leads hleader (term ▸ hterm)).imp_right ?_
      rintro ⟨hnow, a, ha, rfl, hterm'⟩
      refine ⟨hnow, a, List.mem_append_left _ ?_, rfl, hterm'⟩
      -- Had it been a heartbeat that was handled, the alarm would have been set.
      rcases brings.mem_left ha with hwaits | rfl
      · exact hwaits
      · have hpeer : a.leader ∈ p.node.roster.peers := by
          rw [hm.peers]
          exact ⟨h.members a.leader r hr, hl⟩
        have hcurrent : a.term = p.node.term := by rw [hterm', ← hterm, term]
        rw [(Node.heeds_heartbeat hpeer hcurrent waits).2] at hset
        cases hset
    · exact Or.inl (hlate hset waits')
  | beats term leader led =>
    rw [leader, hm.leader led] at hleader
    exact absurd (Option.some.inj hleader).symm hl
  | roams newer leader =>
    rw [leader] at hleader
    cases hleader
  | rises newer leader =>
    rw [leader, hid] at hleader
    exact absurd (Option.some.inj hleader).symm hl
  | follows event peer newer current leader role alarm =>
    exact Or.inl (hlate (by simp [alarm]) (by rw [Node.isLeader, role]; rfl))

theorem Orderly.acts (h : s.Orderly settings) (steady : settings.timing.Steady)
    (process : s.process i = some p) (brings : s.Brings i p e q left) :
    (s.acts i q e left).Orderly settings where
  members := by
    intro j r hr
    rcases process_acts_cases hr with ⟨rfl, _⟩ | ⟨_, hr⟩
    · exact h.members j p process
    · exact h.members j r hr
  manned := h.manned_acts steady process brings
  vouched := fun _ _ hm => h.vouched_acts process brings hm
  followed := fun _ r _ hr => h.followed_acts process brings r hr
  prompt := by
    intro l r j f hr hf hj leads hleader hterm
    rcases process_acts_cases hr with ⟨rfl, rfl⟩ | ⟨hl, hr'⟩
    · rw [acts_other s q e left hj] at hf
      exact h.prompt_leader process brings hf hj leads hleader hterm
    rcases process_acts_cases hf with ⟨rfl, rfl⟩ | ⟨hji, hf'⟩
    · exact h.prompt_follower steady process brings hr' hl leads hleader hterm
    exact (h.prompt l r j f hr' hf' hj leads hleader hterm).imp_right fun ⟨hnow, hbeat⟩ =>
      ⟨hnow, hbeat.acts brings hji⟩

theorem Shift.orderly (h : s.Shift s') (hs : s.Orderly settings) (steady : settings.timing.Steady) :
    s'.Orderly settings := by
  cases h with
  | pass later empty punctual => exact hs.pass later empty punctual
  | act process brings => exact hs.acts steady process brings

/-! ## Somebody joins -/

/-- A member comes in. What has been sent to it before is not for it to see. -/
def enters (s : Scene) (i : NodeId) (p : Process) : Scene where
  now := s.now
  process := Function.update s.process i (some p)
  flight := Function.update s.flight i []

theorem enters_self (s : Scene) (i : NodeId) (p : Process) :
    (s.enters i p).process i = some p := Function.update_self _ _ _

theorem enters_other (s : Scene) (p : Process) (hj : j ≠ i) :
    (s.enters i p).process j = s.process j := Function.update_of_ne hj _ _

theorem flight_enters_self (s : Scene) (i : NodeId) (p : Process) :
    (s.enters i p).flight i = [] := Function.update_self _ _ _

theorem flight_enters_other (s : Scene) (p : Process) (hj : j ≠ i) :
    (s.enters i p).flight j = s.flight j := Function.update_of_ne hj _ _

theorem process_enters_cases {r : Process} (hr : (s.enters i p).process j = some r) :
    j = i ∧ p = r ∨ j ≠ i ∧ s.process j = some r := by
  by_cases hj : j = i
  · rw [hj, enters_self] at hr
    exact Or.inl ⟨hj, Option.some.inj hr⟩
  · rw [enters_other s p hj] at hr
    exact Or.inr ⟨hj, hr⟩

theorem process_enters (new : s.process i = none) {r : Process} (hr : s.process j = some r) :
    (s.enters i p).process j = some r := by
  have hj : j ≠ i := by
    rintro rfl
    rw [new] at hr
    cases hr
  rw [enters_other s p hj, hr]

/-- A scene stays in order when a listed member comes in that follows nobody. -/
theorem Orderly.enters (h : s.Orderly settings) (new : s.process i = none)
    (listed : i ∈ settings.ids) (hm : s.Manned settings i p) (free : p.node.leader = none)
    (waits : p.node.isLeader = false) : (s.enters i p).Orderly settings where
  members := by
    intro j r hr
    rcases process_enters_cases hr with ⟨rfl, _⟩ | ⟨_, hr⟩
    · exact listed
    · exact h.members j r hr
  manned := by
    intro j r hr
    rcases process_enters_cases hr with ⟨rfl, rfl⟩ | ⟨_, hr⟩
    · exact { hm with }
    · exact { h.manned j r hr with }
  vouched := by
    intro j m hm
    have hold : m ∈ s.flight j := by
      by_cases hj : j = i
      · rw [hj, flight_enters_self] at hm
        cases hm
      · rwa [flight_enters_other s p hj] at hm
    obtain ⟨other, r, hr, hterm, hbeat⟩ := h.vouched j m hold
    exact ⟨other, r, process_enters new hr, hterm, hbeat⟩
  followed := by
    intro j q l hq hleader hl
    rcases process_enters_cases hq with ⟨_, rfl⟩ | ⟨_, hq⟩
    · rw [free] at hleader
      cases hleader
    · obtain ⟨r, hr, hlead⟩ := h.followed j q l hq hleader hl
      exact ⟨r, process_enters new hr, hlead⟩
  prompt := by
    intro l r j f hr hf hj leads hleader hterm
    rcases process_enters_cases hr with ⟨_, rfl⟩ | ⟨_, hr⟩
    · rw [waits] at leads
      cases leads
    rcases process_enters_cases hf with ⟨_, rfl⟩ | ⟨hji, hf⟩
    · rw [free] at hleader
      cases hleader
    refine (h.prompt l r j f hr hf hj leads hleader hterm).imp_right ?_
    rintro ⟨hnow, a, ha, hsent⟩
    refine ⟨hnow, a, ?_, hsent⟩
    rw [flight_enters_other s p hji]
    exact ha

theorem Shift.rosters (h : s.Shift s') {r : Process} (hr : s'.process i = some r) :
    ∃ p, s.process i = some p ∧ r.node.roster = p.node.roster := by
  cases h with
  | pass => exact ⟨r, hr, rfl⟩
  | @act j p q e left process brings =>
    rcases process_acts_cases hr with ⟨rfl, rfl⟩ | ⟨_, hr⟩
    · refine ⟨p, process, ?_⟩
      rw [Process.node_react, Node.roster_handle, brings.node]
    · exact ⟨r, hr, rfl⟩

end Elector.Scene
