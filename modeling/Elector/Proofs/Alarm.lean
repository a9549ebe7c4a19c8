import Elector.Process
import Elector.Proofs.Failure

/-!
# The one live alarm of a process

A process carries out what its node asks for, and so its timer follows the node's role: heartbeats
while it leads, election timeouts otherwise. `Rearmed` says what carrying out a list of outputs does
to the timer, and `Node.Fits` that the alarm which a handler asks for is the one for the role that
it leaves. From these a process stays `Armed` in everything that can happen to it (`armed_happen`):
of the firings that sleep or wait in the queue exactly one is current, and it is of the right kind.
-/

namespace Elector

/-! ## Alarms that nodes ask for -/

def AlarmKind.event : AlarmKind → Event
  | election => .electionTimeout
  | heartbeat => .heartbeatDue

/-- When an alarm that is set at `now` may fall due: a heartbeat after its interval, an election
timeout after the shortest delay or a longer one. -/
def Timer.Allows (t : Timer) (now due : Nat) : AlarmKind → Prop
  | .election => ∃ delay, t.timing.electionMin.toNat ≤ delay ∧ due = t.clock.waitEnd delay now
  | .heartbeat => due = t.clock.waitEnd t.timing.heartbeat.toNat now

def Output.alarm? : Output → Option AlarmKind
  | resetElectionTimer => some .election
  | scheduleHeartbeat => some .heartbeat
  | _ => none

def alarmSet (outputs : List Output) : Option AlarmKind :=
  (outputs.filterMap Output.alarm?).getLast?

@[simp] theorem alarmSet_append (a b : List Output) :
    alarmSet (a ++ b) = (alarmSet b).or (alarmSet a) := by
  rw [alarmSet, List.filterMap_append, List.getLast?_append]
  rfl

theorem alarmSet_cons (o : Output) (rest : List Output) :
    alarmSet (o :: rest) = (alarmSet rest).or o.alarm? := by
  have ho : alarmSet [o] = o.alarm? := by
    cases o <;> rfl
  rw [← List.singleton_append, alarmSet_append, ho]

namespace Node

def alarmKind (n : Node) : AlarmKind := if n.isLeader then .heartbeat else .election

/-- A node that runs or leads has its own vote on record. -/
def Owned (n : Node) : Prop :=
  n.role ≠ .follower → n.storage.ballots.vote? n.term = some n.id

/-- The alarm that is asked for on the way from `n` to `n'` is the one for the role of `n'`. If none
is asked for, the alarm for the role of `n` still will do. -/
def Fits (n n' : Node) (outputs : List Output) : Prop :=
  alarmSet outputs = some n'.alarmKind ∨ alarmSet outputs = none ∧ n'.alarmKind = n.alarmKind

variable {e : Event} {n n' mid : Node} {outputs before after : List Output} {cause : NodeError}

@[simp] theorem alarmSet_toPeers (n : Node) (m : Message) : alarmSet (n.toPeers m) = none := by
  have hnone : (n.toPeers m).filterMap Output.alarm? = [] := by
    rw [toPeers, List.filterMap_map, List.filterMap_eq_nil_iff]
    intro target _
    rfl
  rw [alarmSet, hnone]
  rfl

@[simp] theorem alarmSet_heartbeats (n : Node) : alarmSet n.heartbeats = none :=
  alarmSet_toPeers n _

@[simp] theorem alarmSet_announcement (n : Node) : alarmSet n.announcement = some .heartbeat := by
  rw [announcement, alarmSet_append, alarmSet_heartbeats]
  rfl

theorem OnlyTimers.alarmSet {timers : List Output} (h : OnlyTimers timers) :
    alarmSet timers = none ∨ alarmSet timers = some .election := by
  induction timers with
  | nil => exact Or.inl rfl
  | cons o rest ih =>
    have ho : o = .resetElectionTimer := h o (by simp)
    have hrest : OnlyTimers rest := fun o' ho' => h o' (by simp [ho'])
    rw [alarmSet_cons, ho]
    rcases ih hrest with hnone | hsome
    · exact Or.inr (by rw [hnone]; rfl)
    · exact Or.inr (by rw [hsome]; rfl)

theorem alarmKind_of_leads (h : n.isLeader = true) : n.alarmKind = .heartbeat := by
  rw [alarmKind, if_pos h]

theorem alarmKind_of_not_leads (h : n.isLeader = false) : n.alarmKind = .election := by
  rw [alarmKind, if_neg (by simp [h])]

/-! ### A node that runs or leads has voted for itself -/

theorem CatchUp.owned (h : CatchUp e n mid before) (hn : n.Owned) : mid.Owned := by
  cases h with
  | stay => exact hn
  | adopt => exact fun hne => absurd rfl hne

theorem Move.owned (h : Move e n n' outputs) (hn : n.Owned) : n'.Owned := by
  cases h with
  | fault kept =>
    unfold Owned at hn ⊢
    rw [kept.ballots]
    exact hn
  | stand event leads grows casts => exact fun _ => Ballots.vote_cast casts.ballots
  | standAlone event leads grows casts => exact fun _ => Ballots.vote_cast casts.ballots
  | grant event peer current gate recorded =>
    intro hrole
    have hown := hn hrole
    rcases recorded with ⟨_, rfl⟩ | ⟨hnone, _⟩
    · exact hown
    · rw [hnone] at hown
      cases hown
  | count event peer current granted role => exact fun _ => hn (by simp [role])
  | win event peer current granted role => exact fun _ => hn (by simp [role])
  | follow => exact fun hne => absurd rfl hne
  | _ => exact hn

theorem Passes.owned (h : Passes e n n' outputs) (hn : n.Owned) : n'.Owned := by
  obtain ⟨mid, before, after, caught, move, _⟩ := h
  exact move.owned (caught.owned hn)

theorem owned_of_error (h : n.handle e = (n', .error cause)) (hn : n.Owned) : n'.Owned := by
  cases fails_handle h with
  | early kept => exact (Move.fault (e := e) kept).owned hn
  | late event newer caught current kept =>
    exact (Move.fault (e := e) kept).owned (caught.owned hn)

/-! ### The alarm fits the role -/

theorem Fits.refl (n : Node) : Fits n n [] := Or.inr ⟨rfl, rfl⟩

theorem Fits.append (h : Fits n mid before) (h' : Fits mid n' after) :
    Fits n n' (before ++ after) := by
  unfold Fits
  rw [alarmSet_append]
  rcases h' with hsome | ⟨hnone, hkind⟩
  · exact Or.inl (by rw [hsome]; rfl)
  · rw [hnone, hkind]
    exact h

theorem CatchUp.fits (h : CatchUp e n mid before) : Fits n mid before := by
  cases h with
  | stay => exact Fits.refl n
  | adopt =>
    refine Or.inl ?_
    rw [alarmSet_append]
    rfl

/-- A node that grants its vote does not lead: a leader's vote is its own. -/
theorem Owned.not_leads_of_grant {r : VoteRequest} {s : Storage} (hn : n.Owned)
    (peer : r.candidate ∈ n.roster.peers)
    (recorded : n.storage.ballots.vote? n.term = some r.candidate ∧ s = n.storage ∨
      n.storage.ballots.vote? n.term = none ∧ n.storage.Casts n.term r.candidate s) :
    n.isLeader = false := by
  refine Bool.eq_false_iff.mpr fun hleads => ?_
  have hrole : n.role = .leader := by simpa [isLeader] using hleads
  have hown := hn (by simp [hrole])
  rcases recorded with ⟨hother, _⟩ | ⟨hnone, _⟩
  · rw [hother] at hown
    exact (Roster.mem_peers.mp peer).2 (Option.some.inj hown)
  · rw [hnone] at hown
    cases hown

theorem Move.fits (h : Move e n n' outputs) (hn : n.Owned) : Fits n n' outputs := by
  cases h with
  | idle => exact Fits.refl n
  | fault kept => exact Or.inr ⟨rfl, rfl⟩
  | beat event leads =>
    refine Or.inl ?_
    rw [alarmSet_append, alarmKind_of_leads leads]
    rfl
  | stand event leads grows casts short =>
    refine Or.inl ?_
    rw [alarmSet_append]
    rfl
  | standAlone event leads grows casts carried => exact Or.inl (alarmSet_announcement _)
  | @grant r s timers event peer current gate recorded only =>
    have hleads := hn.not_leads_of_grant peer recorded
    have hkind : n.alarmKind = .election := alarmKind_of_not_leads hleads
    unfold Fits
    rw [alarmSet_append]
    rcases only.alarmSet with hnone | hsome
    · exact Or.inr ⟨by rw [hnone]; rfl, rfl⟩
    · exact Or.inl (by rw [hsome]; exact congrArg some hkind.symm)
  | refuse => exact Or.inr ⟨rfl, rfl⟩
  | count event peer current granted role short =>
    have hleads : n.isLeader = false := by simp [isLeader, role]
    exact Or.inr ⟨rfl, (alarmKind_of_not_leads rfl).trans (alarmKind_of_not_leads hleads).symm⟩
  | win event peer current granted role carried => exact Or.inl (alarmSet_announcement _)
  | @follow r timers event peer current leads only =>
    unfold Fits
    rw [alarmSet_append]
    rcases only.alarmSet with hnone | hsome
    · refine Or.inr ⟨by rw [hnone]; rfl, ?_⟩
      exact (alarmKind_of_not_leads rfl).trans (alarmKind_of_not_leads leads).symm
    · exact Or.inl (by rw [hsome]; rfl)
  | rebuff => exact Or.inr ⟨rfl, rfl⟩

theorem Passes.fits (h : Passes e n n' outputs) (hn : n.Owned) : Fits n n' outputs := by
  obtain ⟨mid, before, after, caught, move, rfl⟩ := h
  exact caught.fits.append (move.fits (caught.owned hn))

/-- The handler of the alarm that the role calls for always asks for the next one, or fails in a
role that waits for an election timeout. -/
theorem handle_due (n : Node) :
    (∃ n' outputs, n.handle n.alarmKind.event = (n', .ok outputs) ∧
      alarmSet outputs = some n'.alarmKind) ∨
    ∃ n' cause, n.handle n.alarmKind.event = (n', .error cause) ∧ n'.isLeader = false := by
  by_cases hleads : n.isLeader = true
  · refine Or.inl ⟨n, n.heartbeats ++ [.scheduleHeartbeat], ?_, ?_⟩
    · rw [alarmKind_of_leads hleads]
      exact if_pos hleads
    · rw [alarmSet_append, alarmKind_of_leads hleads]
      rfl
  · have hwaits : n.isLeader = false := by simpa using hleads
    rw [alarmKind_of_not_leads hwaits]
    cases hhandle : n.handle AlarmKind.election.event with
    | mk n' result =>
      cases result with
      | error cause =>
        refine Or.inr ⟨n', cause, rfl, Bool.eq_false_iff.mpr fun hled => ?_⟩
        exact hleads ((fails_handle hhandle).isLeader hled)
      | ok outputs =>
        refine Or.inl ⟨n', outputs, rfl, ?_⟩
        simp only [AlarmKind.event, handle, onElectionTimeout, if_neg hleads] at hhandle
        split at hhandle
        · cases hhandle
        split at hhandle
        · cases hhandle
        · split at hhandle
          · cases hhandle
            exact alarmSet_announcement _
          · cases hhandle
            rw [alarmSet_append]
            rfl

/-! ### The alarm after an event -/

/-- The alarm that is set once an event has been handled, if one is. After a failure a node that
does not lead waits for another election timeout. -/
def alarmAfter (n : Node) (e : Event) : Option AlarmKind :=
  match n.handle e with
  | (_, .ok outputs) => alarmSet outputs
  | (n', .error _) => if n'.isLeader then none else some .election

theorem owned_handle (hn : n.Owned) (e : Event) : (n.handle e).1.Owned := by
  cases hhandle : n.handle e with
  | mk n' result =>
    cases result with
    | ok outputs => exact (passes_of_ok hhandle).owned hn
    | error cause => exact owned_of_error hhandle hn

theorem alarmAfter_cases (hn : n.Owned) (e : Event) :
    n.alarmAfter e = some (n.handle e).1.alarmKind ∨
      n.alarmAfter e = none ∧ (n.handle e).1.alarmKind = n.alarmKind := by
  rw [alarmAfter]
  cases hhandle : n.handle e with
  | mk n' result =>
    cases result with
    | ok outputs => exact (passes_of_ok hhandle).fits hn
    | error cause =>
      by_cases hleads : n'.isLeader = true
      · have hled := (fails_handle hhandle).isLeader hleads
        simp only [if_pos hleads, alarmKind_of_leads hleads, alarmKind_of_leads hled]
        exact Or.inr ⟨trivial, trivial⟩
      · simp only [if_neg hleads, alarmKind_of_not_leads (by simpa using hleads)]
        exact Or.inl trivial

theorem alarmAfter_due (n : Node) :
    n.alarmAfter n.alarmKind.event = some (n.handle n.alarmKind.event).1.alarmKind := by
  rw [alarmAfter]
  rcases n.handle_due with ⟨n', outputs, hhandle, halarm⟩ | ⟨n', cause, hhandle, hwaits⟩
  · simp only [hhandle]
    exact halarm
  · simp only [hhandle, hwaits, alarmKind_of_not_leads hwaits, Bool.false_eq_true, if_false]

end Node

/-! ## Processes and their alarms -/

def Incoming.firing? : Incoming → Option Firing
  | firing f => some f
  | _ => none

namespace Process

def queued (p : Process) : List Firing := p.waiting.filterMap Incoming.firing?

/-- Every firing that has been scheduled and neither dropped nor looked at. -/
def scheduled (p : Process) : List Firing := (p.timer.alarm.map (·.firing)).toList ++ p.queued

/-- What carrying out outputs at `now` makes of a process. -/
inductive Rearmed (now : Nat) (p : Process) : Option AlarmKind → Process → Prop
  | kept : Rearmed now p none p
  | set {kind : AlarmKind} {t : Timer} {due : Nat} (newer : p.timer.generation < t.generation)
      (alarm : t.alarm = some ⟨⟨kind, t.generation⟩, due⟩) (timing : t.timing = p.timer.timing)
      (clock : t.clock = p.timer.clock) (allowed : t.Allows now due kind) :
      Rearmed now p (some kind) { p with timer := t }

variable {p q r : Process} {kind : AlarmKind} {k k' : Option AlarmKind} {e : Event}
  {outputs : List Output} {now : Nat}

theorem rearmed_awaitElection (p : Process) (now : Nat) :
    Rearmed now p (some .election) { p with timer := p.timer.awaitElection now } := by
  have hdelay : p.timer.timing.electionMin.toNat ≤ p.timer.nextElectionDelay := Nat.le_add_right ..
  exact .set (Nat.lt_succ_self _) rfl rfl rfl ⟨_, hdelay, rfl⟩

theorem rearmed_awaitHeartbeat (p : Process) (now : Nat) :
    Rearmed now p (some .heartbeat) { p with timer := p.timer.awaitHeartbeat now } :=
  .set (Nat.lt_succ_self _) rfl rfl rfl rfl

theorem rearmed_perform (p : Process) (now : Nat) (o : Output) :
    Rearmed now p o.alarm? (p.perform now o).1 := by
  cases o with
  | resetElectionTimer => exact p.rearmed_awaitElection now
  | scheduleHeartbeat => exact p.rearmed_awaitHeartbeat now
  | _ => exact .kept

theorem Rearmed.trans (h : Rearmed now p k q) (h' : Rearmed now q k' r) :
    Rearmed now p (k'.or k) r := by
  cases h' with
  | kept =>
    rw [Option.none_or]
    exact h
  | set newer alarm timing clock allowed =>
    cases h with
    | kept => exact .set newer alarm timing clock allowed
    | set newer' alarm' timing' clock' =>
      exact .set (Nat.lt_trans newer' newer) alarm (timing.trans timing') (clock.trans clock')
        allowed

theorem rearmed_performAll (p : Process) (now : Nat) (outputs : List Output) :
    Rearmed now p (alarmSet outputs) (p.performAll now outputs).1 := by
  induction outputs generalizing p with
  | nil => exact .kept
  | cons o rest ih =>
    rw [alarmSet_cons]
    exact (rearmed_perform p now o).trans (ih (p.perform now o).1)

theorem Rearmed.node (h : Rearmed now p k q) : q.node = p.node := by
  cases h <;> rfl

theorem Rearmed.generation_le (h : Rearmed now p k q) :
    p.timer.generation ≤ q.timer.generation := by
  cases h with
  | kept => exact Nat.le_refl _
  | set newer => exact Nat.le_of_lt newer

theorem Rearmed.generation_lt (h : Rearmed now p (some kind) q) :
    p.timer.generation < q.timer.generation := by
  cases h with
  | set newer => exact newer

theorem take_firing (p : Process) (now : Nat) (f : Firing) :
    p.take now (.firing f) =
      if p.timer.accepts f then p.react now f.kind.event else (p, []) := by
  rw [take]
  cases f.kind <;> rfl

/-! ### What the node's handlers do to the alarm -/

theorem rearmed_react (p : Process) (now : Nat) (e : Event) :
    Rearmed now { p with node := (p.node.handle e).1 } (p.node.alarmAfter e) (p.react now e).1 := by
  rw [react, Node.alarmAfter]
  cases p.node.handle e with
  | mk n' result =>
    cases result with
    | ok outputs => exact rearmed_performAll _ now outputs
    | error cause =>
      by_cases hleads : n'.isLeader = true
      · simp only [if_pos hleads]
        exact .kept
      · simp only [if_neg hleads]
        exact rearmed_awaitElection _ now

theorem node_react (p : Process) (now : Nat) (e : Event) :
    (p.react now e).1.node = (p.node.handle e).1 := (p.rearmed_react now e).node

/-! ### Armed processes -/

/-- No two scheduled firings are of one generation, and none is of one to come. -/
structure Dated (p : Process) : Prop where
  past : ∀ f ∈ p.scheduled, f.generation ≤ p.timer.generation
  distinct : (p.scheduled.map (·.generation)).Nodup

structure Armed (p : Process) : Prop extends Dated p where
  owned : p.node.Owned
  live : ∃ f, p.scheduled.filter p.timer.accepts = [f] ∧ f.kind = p.node.alarmKind

theorem Dated.sublist (h : p.Dated) (htimer : q.timer.generation = p.timer.generation)
    (hsub : q.scheduled.Sublist p.scheduled) : q.Dated where
  past f hf := htimer ▸ h.past f (hsub.subset hf)
  distinct := (hsub.map _).nodup h.distinct

/-- With a new alarm, the firings that were scheduled before are all superseded. -/
theorem Dated.rearmed (h : p.Dated) (hset : Rearmed now p (some kind) q) (howned : q.node.Owned)
    (hkind : kind = q.node.alarmKind) : q.Armed := by
  cases hset with
  | @set kind t due newer alarm =>
    have hscheduled : scheduled { p with timer := t } = ⟨kind, t.generation⟩ :: p.queued := by
      simp [scheduled, alarm, queued]
    have hpast : ∀ f ∈ p.queued, f.generation ≤ p.timer.generation := fun f hf =>
      h.past f (List.mem_append_right _ hf)
    have hqueued : (p.queued.map (·.generation)).Nodup := by
      have hdistinct := h.distinct
      rw [scheduled, List.map_append] at hdistinct
      exact (List.nodup_append.mp hdistinct).2.1
    refine { past := ?_, distinct := ?_, owned := howned, live := ?_ }
    · rw [hscheduled]
      intro f hf
      rcases List.mem_cons.mp hf with rfl | hf
      · exact Nat.le_refl _
      · exact Nat.le_of_lt (Nat.lt_of_le_of_lt (hpast f hf) newer)
    · rw [hscheduled, List.map_cons, List.nodup_cons]
      refine ⟨fun hmem => ?_, hqueued⟩
      obtain ⟨f, hf, heq⟩ := List.mem_map.mp hmem
      have hle := hpast f hf
      have heq : f.generation = t.generation := heq
      omega
    · refine ⟨⟨kind, t.generation⟩, ?_, hkind⟩
      have hnone : p.queued.filter t.accepts = [] := by
        rw [List.filter_eq_nil_iff]
        intro f hf
        have hle := hpast f hf
        simp only [Timer.accepts, decide_eq_true_eq]
        omega
      rw [hscheduled, List.filter_cons_of_pos (by simp [Timer.accepts])]
      exact congrArg _ hnone

theorem Armed.kept (h : p.Armed) (htimer : q.timer = p.timer)
    (hscheduled : q.scheduled = p.scheduled) (howned : q.node.Owned)
    (hkind : q.node.alarmKind = p.node.alarmKind) : q.Armed where
  past := by
    rw [hscheduled, htimer]
    exact h.past
  distinct := by
    rw [hscheduled]
    exact h.distinct
  owned := howned
  live := by
    rw [hscheduled, htimer, hkind]
    exact h.live

theorem Armed.kind_of_accepts (h : p.Armed) {f : Firing} (hf : f ∈ p.scheduled)
    (haccepts : p.timer.accepts f = true) : f.kind = p.node.alarmKind := by
  obtain ⟨g, hlive, hkind⟩ := h.live
  have hmem : f ∈ p.scheduled.filter p.timer.accepts := List.mem_filter.mpr ⟨hf, haccepts⟩
  rw [hlive] at hmem
  rw [List.mem_singleton.mp hmem]
  exact hkind

theorem armed_react (h : p.Armed) (now : Nat) (e : Event) : (p.react now e).1.Armed := by
  have howned : (p.react now e).1.node.Owned := p.node_react now e ▸ Node.owned_handle h.owned e
  have hrearmed := p.rearmed_react now e
  have hdated : Dated { p with node := (p.node.handle e).1 } :=
    h.toDated.sublist rfl (List.Sublist.refl _)
  rcases Node.alarmAfter_cases h.owned e with hset | ⟨hnone, hkind⟩
  · rw [hset] at hrearmed
    exact hdated.rearmed hrearmed howned (by rw [node_react])
  · rw [hnone] at hrearmed
    generalize (p.react now e).1 = q at hrearmed howned ⊢
    cases hrearmed with
    | kept => exact h.kept rfl rfl howned hkind

theorem armed_react_due (h : p.Dated) (howned : p.node.Owned) (now : Nat) :
    (p.react now p.node.alarmKind.event).1.Armed := by
  have hrearmed := p.rearmed_react now p.node.alarmKind.event
  rw [Node.alarmAfter_due] at hrearmed
  have hdated : Dated { p with node := (p.node.handle p.node.alarmKind.event).1 } :=
    h.sublist rfl (List.Sublist.refl _)
  have howned' := Node.owned_handle howned p.node.alarmKind.event
  exact hdated.rearmed hrearmed (by rw [node_react]; exact howned') (by rw [node_react])

end Process

end Elector
