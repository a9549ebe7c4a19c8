import Mathlib.Logic.Function.Basic
import Elector.Proofs.Allegiance
import Elector.Proofs.World

/-!
# Members on one clock

A `Scene` is what there is of a cluster in which messages take no time: the clock, a process for
each member, and the messages that wait for each member. In a `Shift` either time passes, when
nothing waits and no alarm has been missed, or one member handles the event of its due alarm or the
message that has waited longest. Members may come to act in any order.

Scenes stay `Orderly`. Of messages and leaders this says that whoever has sent a heartbeat, or is
followed, leads that term or has left it behind. Of alarms it says that a member which follows a
leader in its term waits for longer than the leader does before its next round, or has a heartbeat
of that leader to look at (`prompt`).
-/

namespace Elector

/-- Every wait for an election timeout is longer than one for a heartbeat, and none is empty. -/
structure Timing.Steady (t : Timing) : Prop where
  positive : 0 < t.heartbeat.toNat
  interval : t.heartbeat.toNat < t.electionMin.toNat

/-- A wait ends when its delay has passed. -/
def Clock.Punctual (clock : Clock) : Prop := ∀ wait now, clock.waitEnd wait now = now + wait

namespace Timer

variable {t : Timer} {now due : Nat}

theorem Allows.heartbeat (h : t.Allows now due .heartbeat) (punctual : t.clock.Punctual) :
    due = now + t.timing.heartbeat.toNat := by
  rw [← punctual]
  exact h

theorem Allows.election (h : t.Allows now due .election) (punctual : t.clock.Punctual) :
    now + t.timing.electionMin.toNat ≤ due := by
  obtain ⟨delay, hdelay, rfl⟩ := h
  rw [punctual]
  exact Nat.add_le_add_left hdelay now

theorem Allows.lt {kind : AlarmKind} (h : t.Allows now due kind) (punctual : t.clock.Punctual)
    (steady : t.timing.Steady) : now < due := by
  have hpositive := steady.positive
  have hinterval := steady.interval
  cases kind with
  | election =>
    have hdue := h.election punctual
    omega
  | heartbeat =>
    have hdue := h.heartbeat punctual
    omega

end Timer

structure Scene where
  now : Nat
  process : NodeId → Option Process
  /-- The messages that wait for each member, oldest first. -/
  flight : NodeId → List Message

def Process.due (p : Process) : Nat := (p.timer.alarm.map (·.due)).getD 0

namespace Process

variable {p q : Process} {now : Nat} {k : Option AlarmKind} {kind : AlarmKind}

/-- Between events the one live alarm is that of the timer. -/
theorem Armed.alarm (h : p.Armed) (idle : p.waiting = []) :
    ∃ due, p.timer.alarm = some ⟨⟨p.node.alarmKind, p.timer.generation⟩, due⟩ := by
  obtain ⟨f, hlive, hkind⟩ := h.live
  have hscheduled : p.scheduled = (p.timer.alarm.map (·.firing)).toList := by
    simp [scheduled, queued, idle]
  have hmem : f ∈ p.scheduled.filter p.timer.accepts := by simp [hlive]
  rw [hscheduled] at hmem
  obtain ⟨hf, haccepts⟩ := List.mem_filter.mp hmem
  cases halarm : p.timer.alarm with
  | none => simp [halarm] at hf
  | some a =>
    have hfiring : f = a.firing := by simpa [halarm] using hf
    have hgeneration : f.generation = p.timer.generation := by simpa [Timer.accepts] using haccepts
    refine ⟨a.due, ?_⟩
    rw [← hkind, ← hgeneration, hfiring]

theorem Rearmed.waiting (h : Rearmed now p k q) : q.waiting = p.waiting := by
  cases h <;> rfl

theorem Rearmed.running (h : Rearmed now p k q) : q.running = p.running := by
  cases h <;> rfl

theorem Rearmed.timing (h : Rearmed now p k q) : q.timer.timing = p.timer.timing := by
  cases h with
  | kept => rfl
  | set newer alarm timing => exact timing

theorem Rearmed.clock (h : Rearmed now p k q) : q.timer.clock = p.timer.clock := by
  cases h with
  | kept => rfl
  | set newer alarm timing clock => exact clock

theorem Rearmed.allows (h : Rearmed now p (some kind) q) : q.timer.Allows now q.due kind := by
  cases h with
  | set newer alarm timing clock allowed =>
    rw [due, alarm]
    exact allowed

theorem Rearmed.due_eq (h : Rearmed now p none q) : q.due = p.due := by
  cases h
  rfl

end Process

def Node.lettersTo (n : Node) (j : NodeId) (e : Event) : List Message :=
  ((Simulation.sendsOf (n.asks e)).filter (·.1 = j)).map (·.2)

namespace Scene

/-- Member `i`, which is `p`, handles an event; `left` is what had not been looked at. -/
def acts (s : Scene) (i : NodeId) (p : Process) (e : Event) (left : NodeId → List Message) :
    Scene where
  now := s.now
  process := Function.update s.process i (some (p.react s.now e).1)
  flight j := left j ++ p.node.lettersTo j e

/-- What may come to a member: the event, the process that is to handle it, and what else waits. -/
inductive Brings (s : Scene) (i : NodeId) (p : Process) :
    Event → Process → (NodeId → List Message) → Prop
  | alarm {a : Alarm} (alarm : p.timer.alarm = some a) (due : a.due ≤ s.now) :
      Brings s i p a.firing.kind.event { p with timer.alarm := none } s.flight
  | message {m : Message} {rest : List Message} (first : s.flight i = m :: rest) :
      Brings s i p (.message m) p (Function.update s.flight i rest)

inductive Shift (s : Scene) : Scene → Prop
  /-- Time passes up to `now`. -/
  | pass {now : Nat} (later : s.now ≤ now)
      (empty : ∀ i p, s.process i = some p → s.flight i = [])
      (punctual : ∀ i p, s.process i = some p → now ≤ p.due) : Shift s { s with now }
  | act {i : NodeId} {p q : Process} {e : Event} {left : NodeId → List Message}
      (process : s.process i = some p) (brings : s.Brings i p e q left) :
      Shift s (s.acts i q e left)

/-! ## What stays in order -/

/-- A member as it is between two events: its one alarm is set, and not overdue. -/
structure Manned (settings : ClusterSettings) (s : Scene) (i : NodeId) (p : Process) : Prop where
  id : p.node.id = i
  peers : ∀ j, j ∈ p.node.roster.peers ↔ j ∈ settings.ids ∧ j ≠ i
  running : p.running = true
  idle : p.waiting = []
  armed : p.Armed
  times : p.timer.timing = settings.timing
  punctual : p.timer.clock.Punctual
  leader : p.node.isLeader = true → p.node.leader = some i
  due : s.now ≤ p.due
  /-- A leader's next round is no more than an interval away. -/
  near : p.node.isLeader = true → p.due ≤ s.now + settings.timing.heartbeat.toNat

/-- `m` has been sent by a member that still stands behind it. -/
structure Vouched (s : Scene) (j : NodeId) (m : Message) : Prop where
  other : m.sender ≠ j
  sender : ∃ p, s.process m.sender = some p ∧ m.term ≤ p.node.term ∧
    (m.kind = .appendEntries → p.node.LeadsOrLeft m.term)

def Beating (s : Scene) (i : NodeId) (term : Term) (j : NodeId) : Prop :=
  ∃ r : AppendEntries, .appendEntries r ∈ s.flight j ∧ r.leader = i ∧ r.term = term

structure Orderly (settings : ClusterSettings) (s : Scene) : Prop where
  members : ∀ i p, s.process i = some p → i ∈ settings.ids
  manned : ∀ i p, s.process i = some p → s.Manned settings i p
  vouched : ∀ j m, m ∈ s.flight j → s.Vouched j m
  followed : ∀ i q l, s.process i = some q → q.node.leader = some l → l ≠ i →
    ∃ p, s.process l = some p ∧ p.node.LeadsOrLeft q.node.term
  prompt : ∀ l p i q, s.process l = some p → s.process i = some q → i ≠ l →
    p.node.isLeader = true → q.node.leader = some l → q.node.term = p.node.term →
    p.due < q.due ∨ s.now < q.due ∧ s.Beating l p.node.term i

variable {settings : ClusterSettings} {s s' : Scene} {i j l : NodeId} {p q : Process} {e : Event}
  {left : NodeId → List Message} {m : Message}

/-! ### A member acts -/

theorem Brings.node (h : s.Brings i p e q left) : q.node = p.node := by
  cases h <;> rfl

theorem Brings.left_other (h : s.Brings i p e q left) (hj : j ≠ i) : left j = s.flight j := by
  cases h with
  | alarm => rfl
  | message => exact Function.update_of_ne hj _ _

theorem Brings.mem_flight (h : s.Brings i p e q left) (hm : m ∈ left j) : m ∈ s.flight j := by
  cases h with
  | alarm => exact hm
  | @message first rest heq =>
    by_cases hj : j = i
    · subst hj
      rw [Function.update_self] at hm
      rw [heq]
      exact List.mem_cons_of_mem _ hm
    · rwa [Function.update_of_ne hj] at hm

theorem Brings.mem_left (h : s.Brings i p e q left) (hm : m ∈ s.flight i) :
    m ∈ left i ∨ e = .message m := by
  cases h with
  | alarm => exact Or.inl hm
  | @message first rest heq =>
    rw [heq] at hm
    rcases List.mem_cons.mp hm with rfl | hm
    · exact Or.inr rfl
    · rw [Function.update_self]
      exact Or.inl hm

theorem Brings.mem_of_message (h : s.Brings i p (.message m) q left) : m ∈ s.flight i := by
  generalize he : Event.message m = e at h
  cases h with
  | @alarm a => cases hkind : a.firing.kind <;> rw [hkind] at he <;> cases he
  | message first =>
    cases he
    rw [first]
    exact List.mem_cons_self

structure Acted (s : Scene) (p : Process) (e : Event) (r : Process) : Prop where
  node : r.node = (p.node.handle e).1
  running : r.running = p.running
  idle : r.waiting = p.waiting
  times : r.timer.timing = p.timer.timing
  clock : r.timer.clock = p.timer.clock
  armed : r.Armed
  /-- Its alarm has been set, or is as it was after a message. -/
  alarm : p.node.alarmAfter e = some r.node.alarmKind ∧
      r.timer.Allows s.now r.due r.node.alarmKind ∨
    p.node.alarmAfter e = none ∧ r.node.alarmKind = p.node.alarmKind ∧ r.due = p.due

theorem Manned.acted (h : s.Manned settings i p) (brings : s.Brings i p e q left) :
    s.Acted p e (q.react s.now e).1 := by
  have hrearmed := q.rearmed_react s.now e
  have hnode := q.node_react s.now e
  cases brings with
  | @message m rest first =>
    refine ⟨hnode, hrearmed.running, hrearmed.waiting, hrearmed.timing, hrearmed.clock,
      Process.armed_react h.armed s.now _, ?_⟩
    rw [hnode]
    rcases Node.alarmAfter_cases h.armed.owned (.message m) with hset | ⟨hnone, hkind⟩
    · rw [hset] at hrearmed
      exact Or.inl ⟨hset, hrearmed.allows⟩
    · rw [hnone] at hrearmed
      exact Or.inr ⟨hnone, hkind, hrearmed.due_eq⟩
  | @alarm a alarm due =>
    obtain ⟨_, hset⟩ := h.armed.alarm h.idle
    rw [alarm] at hset
    have hkind : a.firing.kind = p.node.alarmKind := by rw [Option.some.inj hset]
    rw [hkind] at hrearmed hnode ⊢
    have hdated : Process.Dated { p with timer.alarm := none } :=
      h.armed.toDated.sublist rfl (List.sublist_append_right _ _)
    have hafter := p.node.alarmAfter_due
    refine ⟨hnode, hrearmed.running, hrearmed.waiting, hrearmed.timing, hrearmed.clock,
      Process.armed_react_due hdated h.armed.owned s.now, Or.inl ?_⟩
    have hallows : Process.Rearmed s.now _ (p.node.alarmAfter p.node.alarmKind.event) _ := hrearmed
    rw [hafter] at hallows
    rw [hnode]
    exact ⟨hafter, hallows.allows⟩

theorem Acted.sways {r : Process} (h : s.Acted p e r) (armed : p.Armed) :
    Node.Sways e p.node r.node (p.node.asks e) (p.node.alarmAfter e) := by
  rw [h.node]
  exact Node.sways_handle armed.owned e

theorem Acted.roster {r : Process} (h : s.Acted p e r) : r.node.roster = p.node.roster := by
  rw [h.node]
  exact Node.roster_handle p.node e

theorem Acted.id {r : Process} (h : s.Acted p e r) (hm : s.Manned settings i p) :
    r.node.id = i :=
  (congrArg Roster.self h.roster).trans hm.id

theorem Acted.timing {r : Process} (h : s.Acted p e r) (hm : s.Manned settings i p) :
    r.timer.timing = settings.timing := h.times.trans hm.times

theorem Acted.punctual {r : Process} (h : s.Acted p e r) (hm : s.Manned settings i p) :
    r.timer.clock.Punctual := h.clock ▸ hm.punctual

theorem Acted.due_kept_or_later {r : Process} (h : s.Acted p e r) (hm : s.Manned settings i p)
    (steady : settings.timing.Steady) : r.due = p.due ∨ s.now < r.due := by
  rcases h.alarm with ⟨_, hset⟩ | ⟨_, _, hkept⟩
  · exact Or.inr (hset.lt (h.punctual hm) (h.timing hm ▸ steady))
  · exact Or.inl hkept

theorem Acted.due_le {r : Process} (h : s.Acted p e r) (hm : s.Manned settings i p)
    (steady : settings.timing.Steady) : s.now ≤ r.due := by
  rcases h.due_kept_or_later hm steady with hkept | hlater
  · rw [hkept]
    exact hm.due
  · exact Nat.le_of_lt hlater

theorem Acted.near {r : Process} (h : s.Acted p e r) (hm : s.Manned settings i p)
    (leads : r.node.isLeader = true) : r.due ≤ s.now + settings.timing.heartbeat.toNat := by
  have hkind := Node.alarmKind_of_leads leads
  rcases h.alarm with ⟨_, hset⟩ | ⟨_, hsame, hkept⟩
  · rw [hkind] at hset
    rw [← h.timing hm]
    exact Nat.le_of_eq (hset.heartbeat (h.punctual hm))
  · rw [hkept]
    apply hm.near
    by_contra waits
    rw [hkind, Node.alarmKind_of_not_leads (by simpa using waits)] at hsame
    cases hsame

/-- Whoever sets its alarm and does not lead waits for longer than any leader. -/
theorem Acted.late {r : Process} (h : s.Acted p e r) (hm : s.Manned settings i p)
    (steady : settings.timing.Steady) (set : p.node.alarmAfter e ≠ none)
    (waits : r.node.isLeader = false) :
    s.now + settings.timing.heartbeat.toNat < r.due := by
  rcases h.alarm with ⟨_, hset⟩ | ⟨hnone, _⟩
  · rw [Node.alarmKind_of_not_leads waits] at hset
    have hdue := hset.election (h.punctual hm)
    rw [h.timing hm] at hdue
    exact Nat.lt_of_lt_of_le (Nat.add_lt_add_left steady.interval s.now) hdue
  · exact absurd hnone set

@[simp] theorem acts_now (s : Scene) (i : NodeId) (q : Process) (e : Event)
    (left : NodeId → List Message) : (s.acts i q e left).now = s.now := rfl

theorem acts_self (s : Scene) (i : NodeId) (q : Process) (e : Event)
    (left : NodeId → List Message) :
    (s.acts i q e left).process i = some (q.react s.now e).1 := Function.update_self _ _ _

theorem acts_other (s : Scene) (q : Process) (e : Event) (left : NodeId → List Message)
    (hj : j ≠ i) : (s.acts i q e left).process j = s.process j := Function.update_of_ne hj _ _

theorem mem_lettersTo {n : Node} : m ∈ n.lettersTo j e ↔ .send j m ∈ n.asks e := by
  simp [Node.lettersTo, Simulation.mem_sendsOf]

end Scene

end Elector
