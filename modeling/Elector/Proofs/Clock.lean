import Mathlib.Algebra.Order.BigOperators.Group.List
import Mathlib.Algebra.Order.Group.Nat
import Elector.Proofs.Settling

/-!
# The clock of a cluster

`Cluster.advance` goes from one alarm to the next, lets all that follows from it happen at the same
time, and stops where the wait ends. It has fuel for as many alarms as there may be, since nobody's
alarm goes off twice in one millisecond: `Scene.slack` counts the milliseconds that are left for the
alarm of a member, and falls whenever that goes off (`Scene.slack_lt`).

So what the clock does to a cluster is a course of deeds (`Shows.advance`), and what is proved of
deeds holds of a cluster that its clock runs.
-/

namespace Elector

/-! ## Alarms to come -/

namespace Scene

/-- In how many milliseconds up to `target` the alarm of member `i` may still go off. -/
def slack (target : Nat) (s : Scene) (i : NodeId) : Nat :=
  match s.process i with
  | some p => target + 1 - min p.due (s.now + 1)
  | none => 0

variable {settings : ClusterSettings} {s s' : Scene} {i : NodeId} {p q : Process} {e : Event}
  {a : Alarm} {left : NodeId → List Message} {target : Nat}

theorem slack_of_process (process : s.process i = some p) :
    s.slack target i = target + 1 - min p.due (s.now + 1) := by
  rw [slack, process]

theorem Shift.slack_le (h : s.Shift s') (hs : s.Orderly settings) (steady : settings.timing.Steady)
    (target : Nat) (i : NodeId) : s'.slack target i ≤ s.slack target i := by
  cases h with
  | pass later =>
    rw [slack, slack]
    cases s.process i with
    | none => exact Nat.le_refl _
    | some p =>
      dsimp only
      omega
  | @act j p q e left process brings =>
    by_cases hi : i = j
    · subst hi
      have hm := hs.manned i p process
      rw [slack_of_process process, slack_of_process (acts_self s i q e left), acts_now]
      rcases (hm.acted brings).due_kept_or_later hm steady with hkept | hlater <;> omega
    · rw [slack, acts_other s q e left hi]
      exact Nat.le_refl _

/-- An alarm that goes off does not do so again before the next millisecond. -/
theorem slack_lt (hs : s.Orderly settings) (steady : settings.timing.Steady)
    (process : s.process i = some p) (alarm : p.timer.alarm = some a) (due : a.due ≤ s.now)
    (inTime : s.now ≤ target) :
    (s.acts i { p with timer.alarm := none } a.firing.kind.event s.flight).slack target i <
      s.slack target i := by
  have hm := hs.manned i p process
  obtain ⟨_, hset⟩ := hm.armed.alarm hm.idle
  rw [alarm] at hset
  have hkind : a.firing.kind = p.node.alarmKind := by rw [Option.some.inj hset]
  have hdue : p.due = a.due := by rw [Process.due, alarm]; rfl
  have hlater : s.now < (Process.react { p with timer.alarm := none } s.now
      a.firing.kind.event).1.due := by
    have acted := hm.acted (.alarm alarm due)
    rcases acted.alarm with ⟨_, hallows⟩ | ⟨hnone, _⟩
    · exact hallows.lt (acted.punctual hm) (acted.timing hm ▸ steady)
    · rw [hkind, p.node.alarmAfter_due] at hnone
      cases hnone
  have hnow := hm.due
  rw [slack_of_process process, slack_of_process (acts_self ..), acts_now]
  omega

/-- At most `count` alarms of the members `ids` may still go off, and there are no other members. -/
structure Left (target : Nat) (ids : List NodeId) (count : Nat) (s : Scene) : Prop where
  members : ∀ i p, s.process i = some p → i ∈ ids
  alarms : (ids.map (s.slack target)).sum ≤ count

variable {ids : List NodeId} {count : Nat}

theorem Left.shift (h : s.Left target ids count) (hs : s.Orderly settings)
    (steady : settings.timing.Steady) (shift : s.Shift s') : s'.Left target ids count where
  members := by
    intro i r hr
    obtain ⟨p, process, _⟩ := shift.rosters hr
    exact h.members i p process
  alarms := by
    have hle : (ids.map (s'.slack target)).sum ≤ (ids.map (s.slack target)).sum :=
      List.sum_le_sum fun i _ => shift.slack_le hs steady target i
    exact Nat.le_trans hle h.alarms

theorem Left.ring (h : s.Left target ids (count + 1)) (hs : s.Orderly settings)
    (steady : settings.timing.Steady) (process : s.process i = some p)
    (alarm : p.timer.alarm = some a) (due : a.due ≤ s.now) (inTime : s.now ≤ target) :
    (s.acts i { p with timer.alarm := none } a.firing.kind.event s.flight).Left target ids
      count where
  members := (h.shift hs steady (.act process (.alarm alarm due))).members
  alarms := by
    have hlt := List.sum_lt_sum (fun j => slack target (s.acts i { p with timer.alarm := none }
        a.firing.kind.event s.flight) j) (s.slack target)
      (fun j _ => (Shift.act process (.alarm alarm due)).slack_le hs steady target j)
      ⟨i, h.members i p process, slack_lt hs steady process alarm due inTime⟩
    exact Nat.le_of_lt_succ (Nat.lt_of_lt_of_le hlt h.alarms)

theorem Left.none_due (h : s.Left target ids 0) (inTime : s.now ≤ target)
    (process : s.process i = some p) : target < p.due := by
  have hmem : s.slack target i ∈ ids.map (s.slack target) :=
    List.mem_map_of_mem (h.members i p process)
  have hle := List.single_le_sum (fun _ _ => Nat.zero_le _) _ hmem
  have halarms := h.alarms
  rw [slack_of_process process] at hle
  omega

end Scene

namespace Cluster

variable {c c' : Cluster} {s : Scene} {settings : ClusterSettings} {st : Station}
  {place due target : Nat}

def sooner (best : Option (Nat × Nat)) (a : Nat × Nat) : Option (Nat × Nat) :=
  match best with
  | some b => if a.1 < b.1 then some a else some b
  | none => some a

theorem sooner_spec (best : Option (Nat × Nat)) (a : Nat × Nat) :
    ∃ b, sooner best a = some b ∧ (b = a ∨ best = some b) ∧ b.1 ≤ a.1 ∧
      ∀ b' ∈ best, b.1 ≤ b'.1 := by
  cases best with
  | none => exact ⟨a, rfl, Or.inl rfl, Nat.le_refl _, by simp⟩
  | some b =>
    rw [sooner]
    by_cases hlt : a.1 < b.1
    · rw [if_pos hlt]
      refine ⟨a, rfl, Or.inl rfl, Nat.le_refl _, ?_⟩
      rintro _ ⟨⟩
      exact Nat.le_of_lt hlt
    · rw [if_neg hlt]
      refine ⟨b, rfl, Or.inr rfl, Nat.not_lt.mp hlt, ?_⟩
      rintro _ ⟨⟩
      exact Nat.le_refl _

theorem foldl_sooner (alarms : List (Nat × Nat)) (best : Option (Nat × Nat)) :
    alarms.foldl sooner best = none ∧ best = none ∧ alarms = [] ∨
      ∃ b, alarms.foldl sooner best = some b ∧ (best = some b ∨ b ∈ alarms) ∧
        (∀ a ∈ alarms, b.1 ≤ a.1) ∧ ∀ a ∈ best, b.1 ≤ a.1 := by
  induction alarms generalizing best with
  | nil =>
    cases best with
    | none => exact Or.inl ⟨rfl, rfl, rfl⟩
    | some b => exact Or.inr ⟨b, rfl, Or.inl rfl, by simp, by simp⟩
  | cons a rest ih =>
    obtain ⟨first, hfirst, hfrom, hle, hbest⟩ := sooner_spec best a
    rw [List.foldl_cons, hfirst]
    refine Or.inr ?_
    rcases ih (some first) with ⟨_, hnone, _⟩ | ⟨b, hb, horigin, hrest, hfound⟩
    · cases hnone
    · have hbfirst : b.1 ≤ first.1 := hfound first rfl
      refine ⟨b, hb, ?_, ?_, fun b' hb' => Nat.le_trans hbfirst (hbest b' hb')⟩
      · rcases horigin with hsome | hmem
        · cases hsome
          rcases hfrom with rfl | hold
          · exact Or.inr List.mem_cons_self
          · exact Or.inl hold
        · exact Or.inr (List.mem_cons_of_mem _ hmem)
      · intro a' ha'
        rcases List.mem_cons.mp ha' with rfl | ha'
        · exact Nat.le_trans hbfirst hle
        · exact hrest a' ha'

def alarms (c : Cluster) : List (Nat × Nat) :=
  c.stations.zipIdx.filterMap fun (s, place) => s.host.due?.map fun due => (due, place)

theorem mem_alarms : (due, place) ∈ c.alarms ↔
    ∃ st, c.stations[place]? = some st ∧ st.host.due? = some due := by
  rw [alarms, List.mem_filterMap]
  constructor
  · rintro ⟨⟨st, k⟩, hmem, heq⟩
    obtain ⟨due', hdue, heq⟩ := Option.map_eq_some_iff.mp heq
    cases heq
    exact ⟨st, List.mk_mem_zipIdx_iff_getElem?.mp hmem, hdue⟩
  · rintro ⟨st, hst, hdue⟩
    exact ⟨(st, place), List.mk_mem_zipIdx_iff_getElem?.mpr hst, by simp [hdue]⟩

theorem nextAlarm_cases (c : Cluster) :
    c.nextAlarm = none ∧ c.alarms = [] ∨
      ∃ due place, c.nextAlarm = some (due, place) ∧ (due, place) ∈ c.alarms ∧
        ∀ a ∈ c.alarms, due ≤ a.1 := by
  have heq : c.nextAlarm = c.alarms.foldl sooner none := rfl
  rw [heq]
  rcases foldl_sooner c.alarms none with ⟨hnone, _, hempty⟩ | ⟨⟨due, place⟩, hsome, horigin, hle, _⟩
  · exact Or.inl ⟨hnone, hempty⟩
  · exact Or.inr ⟨due, place, hsome, horigin.resolve_left (by simp), hle⟩

/-! ## From alarm to alarm -/

theorem Shows.takeAny_eq_none (h : c.Shows s)
    (empty : ∀ i p, s.process i = some p → s.flight i = []) : c.takeAny = none := by
  refine List.findSome?_eq_none_iff.mpr fun place _ => ?_
  cases hst : c.stations[place]? with
  | none => simp [Cluster.takeFrame, hst]
  | some st =>
    obtain ⟨_, p, _, process⟩ := h.member st (List.mem_of_getElem? hst)
    exact (h.takeFrame_none hst (empty st.id p process)).1

theorem Shows.pass (h : c.Shows s) (hs : s.Orderly settings) (idle : c.takeAny = none)
    (later : s.now ≤ target) (punctual : ∀ a ∈ c.alarms, target ≤ a.1) :
    c.does (.pass target) = some (c.setTime target) ∧ s.Shift { s with now := target } ∧
      (c.setTime target).Shows { s with now := target } ∧ (c.setTime target).takeAny = none := by
  have hshows := h.setTime target
  have hempty := h.flight_nil hs idle
  have hdue : ∀ st ∈ c.stations, ∀ due ∈ st.host.due?, target ≤ due := by
    intro st hst due hdue
    obtain ⟨place, hplace⟩ := List.mem_iff_getElem?.mp hst
    exact punctual (due, place) (mem_alarms.mpr ⟨st, hplace, hdue⟩)
  refine ⟨?_, .pass later hempty ?_, hshows, hshows.takeAny_eq_none hempty⟩
  · rw [Cluster.does, if_pos ⟨by rw [idle]; rfl, h.now ▸ later, hdue⟩]
  · intro i p process
    obtain ⟨st, hst, rfl⟩ := h.complete i p process
    exact hdue st hst p.due (h.due?_eq hs hst process)

theorem Shows.pass_last (h : c.Shows s) (hs : s.Orderly settings) (idle : c.takeAny = none)
    (later : s.now ≤ target) (punctual : ∀ a ∈ c.alarms, target ≤ a.1) :
    ∃ deeds, c.doesAll deeds = some (c.setTime target) ∧ (c.setTime target).now = target ∧
      (c.setTime target).takeAny = none := by
  obtain ⟨hdoes, _, _, hidle⟩ := h.pass hs idle later punctual
  exact ⟨[.pass target], by rw [Cluster.doesAll, hdoes]; rfl, rfl, hidle⟩

theorem now_takeFrame (h : c.takeFrame place = some c') : c'.now = c.now := by
  unfold Cluster.takeFrame at h
  split at h
  · cases h
  · split at h
    · dsimp only at h
      split at h <;> cases h <;> rfl
    · cases h

theorem now_takeFrames (fuel : Nat) (c : Cluster) : (takeFrames fuel c).now = c.now := by
  induction fuel generalizing c with
  | zero => rfl
  | succ fuel ih =>
    rw [takeFrames]
    cases htake : c.takeAny with
    | none => rfl
    | some c₁ =>
      obtain ⟨place, _, hplace⟩ := List.exists_of_findSome?_eq_some htake
      exact (ih c₁).trans (now_takeFrame hplace)

theorem now_settle (c : Cluster) : c.settle.now = c.now := by
  obtain ⟨size, heq, _⟩ := c.settle_eq
  rw [heq, now_takeFrames]

theorem Shows.alarm_of_mem (h : c.Shows s) (hs : s.Orderly settings)
    (hmem : (due, place) ∈ c.alarms) :
    ∃ st p, c.stations[place]? = some st ∧ s.process st.id = some p ∧ p.due = due := by
  obtain ⟨st, hst, hdue⟩ := mem_alarms.mp hmem
  have hmem := List.mem_of_getElem? hst
  obtain ⟨_, p, _, process⟩ := h.member st hmem
  rw [h.due?_eq hs hmem process] at hdue
  exact ⟨st, p, hst, process, Option.some.inj hdue⟩

/-- The clock is set to the first alarm, which goes off, and all that follows is done. -/
theorem Shows.strike (h : c.Shows s) (hs : s.Orderly settings) (steady : settings.timing.Steady)
    (idle : c.takeAny = none) {ids : List NodeId} {count : Nat}
    (left : s.Left target ids (count + 1))
    (hmem : (due, place) ∈ c.alarms) (first : ∀ a ∈ c.alarms, due ≤ a.1) (inTime : due ≤ target) :
    ∃ deeds, c.doesAll deeds = some ((c.setTime (max c.now due)).fire place) ∧
      ∃ s', ((c.setTime (max c.now due)).fire place).Shows s' ∧ s'.Orderly settings ∧
        s'.now = due ∧ s'.Left target ids count ∧
        ((c.setTime (max c.now due)).fire place).takeAny = none := by
  obtain ⟨st, p, hst, process, rfl⟩ := h.alarm_of_mem hs hmem
  have later : s.now ≤ p.due := (hs.manned st.id p process).due
  have hmax : max c.now p.due = p.due := Nat.max_eq_right (h.now ▸ later)
  rw [hmax]
  obtain ⟨hpass, shift₁, h₁, _⟩ := h.pass hs idle later first
  have hs₁ := shift₁.orderly hs steady
  have hst₁ : (c.setTime p.due).stations[place]? = some { st with host.now := p.due } := by
    simp [Cluster.setTime, hst]
  obtain ⟨a, alarm, hdue, h₂, _⟩ := h₁.ring_due hs₁ hst₁ process (Nat.le_refl _)
  have shift₂ : Scene.Shift { s with now := p.due } _ := .act process (.alarm alarm hdue)
  have hs₂ := shift₂.orderly hs₁ steady
  have left₂ := (left.shift hs steady shift₁).ring hs₁ steady process alarm hdue inTime
  obtain ⟨places, hsettle, hidle⟩ := h₂.settle hs₂ steady
  obtain ⟨s₃, h₃, hs₃, left₃⟩ := h₂.doesAll hs₂ steady
    (fun _ _ hs shift left => left.shift hs steady shift) left₂ hsettle
  refine ⟨.pass p.due :: .ring place :: places.map .take, ?_, s₃, h₃, hs₃, ?_, left₃, hidle⟩
  · rw [Cluster.doesAll, hpass, Option.bind_some, Cluster.doesAll]
    exact hsettle
  · rw [← h₃.now, now_settle]
    exact h₂.now

/-- With fuel for every alarm that is left, the clock is set in deeds. -/
theorem Shows.passTo (h : c.Shows s) (hs : s.Orderly settings) (steady : settings.timing.Steady)
    (idle : c.takeAny = none) (later : s.now ≤ target) {ids : List NodeId} {fuel : Nat}
    (enough : s.Left target ids fuel) :
    ∃ deeds, c.doesAll deeds = some (passTo target fuel c) ∧
      (passTo target fuel c).now = target ∧ (passTo target fuel c).takeAny = none := by
  induction fuel generalizing c s with
  | zero =>
    refine h.pass_last hs idle later ?_
    rintro ⟨due, place⟩ hmem
    obtain ⟨_, p, _, process, rfl⟩ := h.alarm_of_mem hs hmem
    exact Nat.le_of_lt (enough.none_due later process)
  | succ fuel ih =>
    rw [Cluster.passTo]
    rcases c.nextAlarm_cases with ⟨hnone, hempty⟩ | ⟨due, place, hsome, hmem, first⟩
    · rw [hnone]
      refine h.pass_last hs idle later ?_
      rw [hempty]
      exact fun a ha => absurd ha List.not_mem_nil
    · rw [hsome]
      by_cases hdue : due ≤ target
      · simp only [if_pos hdue]
        obtain ⟨deeds, hdone, s', h', hs', hnow, left', idle'⟩ :=
          h.strike hs steady idle enough hmem first hdue
        obtain ⟨more, hmore, hlast⟩ := ih h' hs' idle' (hnow ▸ hdue) left'
        refine ⟨deeds ++ more, ?_, hlast⟩
        rw [doesAll_append, hdone]
        exact hmore
      · simp only [if_neg hdue]
        refine h.pass_last hs idle later fun a ha => ?_
        exact Nat.le_trans (Nat.le_of_lt (Nat.not_le.mp hdue)) (first a ha)

/-- The wait that the clock passes is passed in deeds, to its end. -/
theorem Shows.advance (h : c.Shows s) (hs : s.Orderly settings) (steady : settings.timing.Steady)
    (idle : c.takeAny = none) (ms : Nat) :
    ∃ deeds, c.doesAll deeds = some (c.advance ms) ∧ (c.advance ms).now = c.now + ms ∧
      (c.advance ms).takeAny = none := by
  have hslack : ∀ k ∈ (c.stations.map (·.id)).map (s.slack (c.now + ms)), k ≤ ms + 1 := by
    intro k hk
    obtain ⟨i, _, rfl⟩ := List.mem_map.mp hk
    rw [Scene.slack]
    cases hp : s.process i with
    | none => exact Nat.zero_le _
    | some p =>
      have hdue := (hs.manned i p hp).due
      have hnow := h.now
      dsimp only
      omega
  have left : s.Left (c.now + ms) (c.stations.map (·.id)) ((ms + 1) * c.stations.length) := by
    constructor
    · intro i p process
      obtain ⟨st, hst, rfl⟩ := h.complete i p process
      exact List.mem_map_of_mem hst
    · have hsum := List.sum_le_card_nsmul _ _ hslack
      simpa [Nat.mul_comm] using hsum
  have hadvance :
      c.advance ms = Cluster.passTo (c.now + ms) ((ms + 1) * c.stations.length) c := by
    simp only [Cluster.advance, h.punctual ms c.now, Nat.add_sub_cancel_left]
  rw [hadvance]
  exact h.passTo hs steady idle (h.now ▸ Nat.le_add_right c.now ms) left

end Cluster

end Elector
