import Elector.Proofs.Following
import Elector.Proofs.Joining

/-!
# A leader that all follow is not deposed

Messages take no time, so the alarm of a follower is set anew in the very moment in which its leader
sends a round of heartbeats. An election timeout is a longer wait than a heartbeat interval,
whatever delay is chosen, and so the next round always comes first (`Cluster.stable_leader`). This
holds in whatever order members come to act in one moment, and so in that of `Cluster.advance` too
(`Cluster.led_advances`). All that is asked of the clock is that waits end when their delays have
passed.
-/

namespace Elector

namespace Cluster

/-- Member `l` leads the term, and every other member is a follower of it there. -/
structure Led (c : Cluster) (l : NodeId) (t : Term) : Prop where
  leads : ∃ x ∈ c.statuses, x.1 = l ∧ ∃ status ∈ x.2, status.role = .leader ∧ status.term = t
  others : ∀ x ∈ c.statuses, x.1 ≠ l →
    ∃ status ∈ x.2, status.role = .follower ∧ status.leader = some l ∧ status.term = t

instance (c : Cluster) (l : NodeId) (t : Term) : Decidable (c.Led l t) :=
  decidable_of_iff
    ((∃ x ∈ c.statuses, x.1 = l ∧ ∃ status ∈ x.2, status.role = .leader ∧ status.term = t) ∧
      ∀ x ∈ c.statuses, x.1 ≠ l →
        ∃ status ∈ x.2, status.role = .follower ∧ status.leader = some l ∧ status.term = t)
    ⟨fun h => ⟨h.1, h.2⟩, fun h => ⟨h.leads, h.others⟩⟩

variable {c c' : Cluster} {s : Scene} {settings : ClusterSettings} {clock : Clock}
  {deeds : List Deed} {l i : NodeId} {t : Term} {answer : Option Status}

theorem Shows.mem_statuses (h : c.Shows s) (hs : s.Orderly settings) :
    (i, answer) ∈ c.statuses ↔ ∃ p, s.process i = some p ∧ some p.node.status = answer := by
  have hstatus : ∀ st ∈ c.stations, ∃ p, s.process st.id = some p ∧
      st.host.status? = some p.node.status := by
    intro st hst
    obtain ⟨_, p, hp, process⟩ := h.member st hst
    refine ⟨p, process, ?_⟩
    simp [Host.status?, hp, Process.status?, (hs.manned st.id p process).running]
  rw [statuses, List.mem_map]
  constructor
  · rintro ⟨st, hst, heq⟩
    cases heq
    obtain ⟨p, process, hanswer⟩ := hstatus st hst
    exact ⟨p, process, hanswer.symm⟩
  · rintro ⟨p, process, rfl⟩
    obtain ⟨st, hst, rfl⟩ := h.complete i p process
    obtain ⟨p', process', hanswer⟩ := hstatus st hst
    rw [process] at process'
    cases process'
    exact ⟨st, hst, Prod.ext rfl hanswer⟩

theorem Shows.led_iff (h : c.Shows s) (hs : s.Orderly settings) : c.Led l t ↔ s.Led l t := by
  constructor
  · rintro ⟨⟨⟨_, answer⟩, hmem, rfl, status, rfl, hrole, hterm⟩, others⟩
    constructor
    · obtain ⟨p, process, hanswer⟩ := (h.mem_statuses hs).mp hmem
      cases hanswer
      exact ⟨p, process, Node.isLeader_iff.mpr hrole, hterm⟩
    · intro i q process hi
      obtain ⟨status, hanswer, hrole, hleader, hterm⟩ :=
        others _ ((h.mem_statuses hs).mpr ⟨q, process, rfl⟩) hi
      cases hanswer
      exact ⟨Node.kind_eq_follower.mp hrole, hleader, hterm⟩
  · rintro ⟨⟨p, process, leads, hterm⟩, others⟩
    constructor
    · have hmem := (h.mem_statuses hs).mpr ⟨p, process, rfl⟩
      exact ⟨_, hmem, rfl, _, rfl, Node.isLeader_iff.mp leads, hterm⟩
    · rintro ⟨i, answer⟩ hmem hi
      obtain ⟨q, process, hanswer⟩ := (h.mem_statuses hs).mp hmem
      obtain ⟨hrole, hleader, hterm⟩ := others i q process hi
      exact ⟨_, hanswer.symm, Node.kind_eq_follower.mpr hrole, hleader, hterm⟩

theorem Shows.led_kept (h : c.Shows s) (hs : s.Orderly settings) (steady : settings.timing.Steady)
    (led : c.Led l t) (does : c.doesAll deeds = some c') :
    ∃ s', c'.Shows s' ∧ s'.Orderly settings ∧ s'.Led l t :=
  h.doesAll hs steady (fun _ _ hs shift led => shift.led hs led) ((h.led_iff hs).mp led) does

/-- Once all members follow one of them, they do for good: at every later moment it leads the same
term and all others follow it there, and no election timeout is handled by any member. Members may
have joined at any time and may act in any order, and election delays may be chosen in any way. -/
theorem stable_leader (accepted : settings.timing.check = .ok ()) (punctual : clock.Punctual)
    (prompt : c.Prompt settings clock) (led : c.Led l t) (later : c.doesAll deeds = some c') :
    c'.Led l t ∧ ∀ d i, (i, .electionTimeout) ∉ c'.handled d := by
  have steady := Timing.steady_of_check accepted
  obtain ⟨s, hc, hs⟩ := prompt.shows steady punctual
  obtain ⟨s', hc', hs', led'⟩ := hc.led_kept hs steady led later
  refine ⟨(hc'.led_iff hs').mpr led', fun d i hi => ?_⟩
  obtain ⟨p, q, left, process, brings⟩ := hc'.handled hs' hi
  exact led'.no_timeout hs' process brings rfl

/-! Three members, of which the last joins later than the others. The first waits for the least
time. It is elected, and four rounds of heartbeats follow. -/

def trioSettings : ClusterSettings := .within [1, 2, 3]

def trioFirst : Seat trioSettings := .fresh 1 (fun _ => 0) (by decide) rfl

def trioSecond : Seat trioSettings := .fresh 2 (fun k => k) (by decide) rfl

def trioThird : Seat trioSettings := .fresh 3 (fun _ => 150) (by decide) rfl

def trioPair : Cluster := (Cluster.enlist {} trioFirst).enlist trioSecond

def trio : Cluster := (trioPair.setTime 100).enlist trioThird

theorem prompt_trio : trio.Prompt trioSettings {} := by
  have hpair : trioPair.Prompt trioSettings {} :=
    ((Prompt.empty 0).enlist trioFirst (by decide)).enlist trioSecond (by decide +kernel)
  have hpass : trioPair.does (.pass 100) = some (trioPair.setTime 100) := by
    rw [does, if_pos (by decide +kernel)]
  exact (hpair.deed hpass).enlist trioThird (by decide +kernel)

def trioRound (now : Nat) : List Deed :=
  [.pass now, .ring 0, .take 1, .take 2, .take 0, .take 0]

def trioElection : List Deed := trioRound 150 ++ [.take 1, .take 2, .take 0, .take 0]

def trioRounds : List Deed := [200, 250, 300, 350].flatMap trioRound

theorem stable_leader_trio :
    ∃ c c', trio.doesAll trioElection = some c ∧ c.Led 1 1 ∧ c.doesAll trioRounds = some c' ∧
      c'.now = 350 ∧ c'.Led 1 1 ∧ ∀ d i, (i, .electionTimeout) ∉ c'.handled d := by
  have helection : ∃ c ∈ trio.doesAll trioElection, c.Led 1 1 := by decide +kernel
  have hrounds : ∃ c ∈ trio.doesAll (trioElection ++ trioRounds), c.now = 350 := by
    decide +kernel
  obtain ⟨c, reached, led⟩ := helection
  obtain ⟨c', later, hnow⟩ := hrounds
  rw [doesAll_append, reached, Option.bind_some] at later
  have punctual : Clock.Punctual {} := fun _ _ => rfl
  obtain ⟨led', quiet⟩ := stable_leader rfl punctual (prompt_trio.deeds reached) led later
  exact ⟨c, c', reached, led, later, hnow, led', quiet⟩

/-- In a cluster that its clock runs, whoever leads all others does so after any waits. -/
theorem led_advances (accepted : settings.timing.check = .ok ()) (punctual : clock.Punctual)
    (prompt : c.Prompt settings clock) (idle : c.takeAny = none) (led : c.Led l t)
    (waits : List Nat) : (waits.foldl advance c).Led l t := by
  have steady := Timing.steady_of_check accepted
  induction waits generalizing c with
  | nil => exact led
  | cons ms rest ih =>
    obtain ⟨prompt', idle'⟩ := prompt.advance steady punctual idle ms
    obtain ⟨s, hc, hs⟩ := prompt.shows steady punctual
    obtain ⟨deeds, hdone, _⟩ := hc.advance hs steady idle ms
    obtain ⟨s', hc', hs', led'⟩ := hc.led_kept hs steady led hdone
    exact ih prompt' idle' ((hc'.led_iff hs').mpr led')

example : ([50, 200].foldl advance trio).Led 1 1 := by decide +kernel

end Cluster

end Elector
