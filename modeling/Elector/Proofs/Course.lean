import Mathlib.Data.Nat.Init
import Elector.Proofs.Alarm
import Elector.Proofs.Life

/-!
# Courses of a process

All that can happen to a running process: something is put into its queue, its alarm goes off, or it
looks at the oldest item, while some operations of its storage fail. Times are free, so an alarm
may be late and its firing may wait in the queue for as long as it likes. In any course of such
happenings the process stays armed, and generations only grow: therefore a firing that reaches the
node is current, fits the node's role, and reaches it once (`one_live_alarm`).
-/

namespace Elector

inductive Happening
  | message (m : Message)
  | query
  | shutdown
  /-- The alarm goes off, if it is due. -/
  | ring (now : Nat)
  /-- The oldest item is looked at; `outage` says which operations of the storage fail. -/
  | next (now : Nat) (outage : Outage)
deriving DecidableEq, Repr

namespace Process

def under (p : Process) (outage : Outage) : Process := { p with node := p.node.under outage }

/-- The process after something has happened. Nothing happens to one that has stopped. -/
def happen (p : Process) (h : Happening) : Process :=
  if p.running then
    match h with
    | .message m => p.post (.message m)
    | .query => p.post .query
    | .shutdown => p.post .shutdown
    | .ring now => p.ring now
    | .next now outage => ((p.under outage).next now).1
  else p

def walk (p : Process) (course : Nat → Happening) : Nat → Process
  | 0 => p
  | k + 1 => (walk p course k).happen (course k)

def handed? (p : Process) (h : Happening) : Option Firing :=
  match h, p.waiting with
  | .next _ _, .firing f :: _ => if p.running && p.timer.accepts f then some f else none
  | _, _ => none

variable {p q : Process} {h : Happening} {f : Firing} {now : Nat} {outage : Outage}
  {i : Incoming} {rest : List Incoming}

theorem handed?_eq_some (hf : p.handed? h = some f) :
    p.running = true ∧ p.timer.accepts f = true ∧
      ∃ now outage rest, h = .next now outage ∧ p.waiting = .firing f :: rest := by
  unfold handed? at hf
  split at hf
  · rename_i now outage g rest hwaiting
    split at hf
    · rename_i hcurrent
      cases hf
      rw [Bool.and_eq_true] at hcurrent
      exact ⟨hcurrent.1, hcurrent.2, now, outage, rest, rfl, hwaiting⟩
    · cases hf
  · cases hf

theorem happen_next (hrunning : p.running = true) (hwaiting : p.waiting = i :: rest) :
    p.happen (.next now outage) = (({ p with waiting := rest }.under outage).take now i).1 := by
  simp only [happen, hrunning, if_true, next, under, hwaiting]

theorem happen_idle (hrunning : p.running = true) (hwaiting : p.waiting = []) :
    p.happen (.next now outage) = p.under outage := by
  have hnext : ((p.under outage).next now).1 = p.under outage := by
    have hwaiting : (p.under outage).waiting = [] := hwaiting
    rw [next, hwaiting]
  simp only [happen, hrunning, if_true]
  exact hnext

/-- A firing that is looked at reaches the node with the event of its alarm, or is dropped. -/
theorem happen_firing (hrunning : p.running = true) (hwaiting : p.waiting = .firing f :: rest) :
    (p.handed? (.next now outage) = some f ∧ p.happen (.next now outage) =
        (({ p with waiting := rest }.under outage).react now f.kind.event).1) ∨
      p.handed? (.next now outage) = none ∧ p.happen (.next now outage) =
        { p with waiting := rest }.under outage := by
  rw [happen_next hrunning hwaiting, take_firing]
  have htimer : ({ p with waiting := rest }.under outage).timer = p.timer := rfl
  rw [htimer]
  by_cases haccepts : p.timer.accepts f = true
  · refine Or.inl ⟨?_, ?_⟩
    · simp [handed?, hwaiting, hrunning, haccepts]
    · rw [if_pos haccepts]
  · refine Or.inr ⟨?_, ?_⟩
    · simp [handed?, hwaiting, haccepts]
    · rw [if_neg haccepts]

/-! ## Generations -/

theorem generation_le_react (p : Process) (now : Nat) (e : Event) :
    p.timer.generation ≤ (p.react now e).1.timer.generation := (p.rearmed_react now e).generation_le

theorem generation_le_take (p : Process) (now : Nat) (i : Incoming) :
    p.timer.generation ≤ (p.take now i).1.timer.generation := by
  cases i with
  | message m => exact p.generation_le_react now _
  | firing f =>
    rw [take_firing]
    split
    · exact p.generation_le_react now _
    · exact Nat.le_refl _
  | query => exact Nat.le_refl _
  | shutdown => exact Nat.le_succ _

theorem ring_eq (p : Process) (now : Nat) :
    p.ring now = p ∨ ∃ a, p.timer.alarm = some a ∧
      p.ring now =
        { p with timer.alarm := none, waiting := p.waiting ++ [.firing a.firing] } := by
  cases halarm : p.timer.alarm with
  | none => exact Or.inl (by simp [ring, Timer.ring, halarm])
  | some a =>
    by_cases hdue : a.due ≤ now
    · exact Or.inr ⟨a, rfl, by simp [ring, Timer.ring, halarm, hdue, post]⟩
    · exact Or.inl (by simp [ring, Timer.ring, halarm, hdue])

theorem generation_le_happen (p : Process) (h : Happening) :
    p.timer.generation ≤ (p.happen h).timer.generation := by
  by_cases hrunning : p.running = true
  · cases h with
    | ring now =>
      simp only [happen, hrunning, if_true]
      rcases p.ring_eq now with heq | ⟨a, _, heq⟩
      · exact Nat.le_of_eq (by rw [heq])
      · exact Nat.le_of_eq (by rw [heq])
    | next now outage =>
      cases hwaiting : p.waiting with
      | nil =>
        rw [happen_idle hrunning hwaiting]
        exact Nat.le_refl _
      | cons i rest =>
        rw [happen_next hrunning hwaiting]
        exact generation_le_take ({ p with waiting := rest }.under outage) now i
    | _ =>
      simp only [happen, hrunning, if_true]
      exact Nat.le_refl _
  · simp only [happen, if_neg hrunning]
    exact Nat.le_refl _

/-! ## Everything that happens leaves the process armed -/

theorem armed_under (ha : p.Armed) (outage : Outage) : (p.under outage).Armed :=
  ha.kept rfl rfl ha.owned rfl

theorem armed_post (ha : p.Armed) (hi : i.firing? = none) : (p.post i).Armed := by
  refine ha.kept rfl ?_ ha.owned rfl
  simp [scheduled, queued, post, hi]

theorem armed_ring (ha : p.Armed) (now : Nat) : (p.ring now).Armed := by
  rcases p.ring_eq now with heq | ⟨a, halarm, heq⟩
  · rw [heq]
    exact ha
  rw [heq]
  have hperm : (scheduled { p with
      timer.alarm := none, waiting := p.waiting ++ [.firing a.firing] }).Perm p.scheduled := by
    simp only [scheduled, queued, halarm, List.filterMap_append]
    exact List.perm_append_singleton a.firing p.queued
  obtain ⟨f, hlive, hkind⟩ := ha.live
  refine { past := ?_, distinct := ?_, owned := ha.owned, live := ⟨f, ?_, hkind⟩ }
  · intro g hg
    exact ha.past g (hperm.mem_iff.mp hg)
  · exact (hperm.map _).nodup_iff.mpr ha.distinct
  · have hfilter := hperm.filter p.timer.accepts
    rw [hlive] at hfilter
    exact List.perm_singleton.mp hfilter

theorem armed_take (ha : p.Armed) (hwaiting : p.waiting = i :: rest)
    (hrunning : (({ p with waiting := rest } : Process).take now i).1.running = true) :
    (({ p with waiting := rest } : Process).take now i).1.Armed := by
  have hscheduled : p.scheduled = (p.timer.alarm.map (·.firing)).toList ++
      (i.firing?.toList ++ rest.filterMap Incoming.firing?) := by
    rw [scheduled, queued, hwaiting, List.filterMap_cons]
    cases i.firing? <;> rfl
  have hrest : i.firing? = none → ({ p with waiting := rest } : Process).Armed := by
    intro hi
    refine ha.kept rfl ?_ ha.owned rfl
    rw [hscheduled, hi]
    rfl
  cases i with
  | message m => exact armed_react (hrest rfl) now _
  | query => exact hrest rfl
  | shutdown => cases hrunning
  | firing f =>
    have hmem : f ∈ p.scheduled := by
      rw [hscheduled]
      simp [Incoming.firing?]
    have hsub : (scheduled { p with waiting := rest }).Sublist p.scheduled := by
      rw [hscheduled]
      exact (List.Sublist.refl _).append (List.sublist_append_right _ _)
    have hdated : Dated { p with waiting := rest } := ha.toDated.sublist rfl hsub
    rw [take_firing]
    by_cases haccepts : p.timer.accepts f = true
    · -- The live firing itself is looked at: what follows sets a new alarm.
      rw [if_pos haccepts, ha.kind_of_accepts hmem haccepts]
      exact armed_react_due hdated ha.owned now
    · rw [if_neg haccepts]
      obtain ⟨g, hlive, hkind⟩ := ha.live
      refine { hdated with owned := ha.owned, live := ⟨g, ?_, hkind⟩ }
      rw [hscheduled, List.filter_append, List.filter_append] at hlive
      have hstale : (Incoming.firing f).firing?.toList.filter p.timer.accepts = [] := by
        simp [Incoming.firing?, haccepts]
      rw [hstale, List.nil_append, ← List.filter_append] at hlive
      exact hlive

theorem armed_happen (ha : p.running = true → p.Armed) (h : Happening)
    (hrunning : (p.happen h).running = true) : (p.happen h).Armed := by
  by_cases hbefore : p.running = true
  · have ha := ha hbefore
    cases h with
    | message m =>
      simp only [happen, hbefore, if_true]
      exact armed_post ha rfl
    | query =>
      simp only [happen, hbefore, if_true]
      exact armed_post ha rfl
    | shutdown =>
      simp only [happen, hbefore, if_true]
      exact armed_post ha rfl
    | ring now =>
      simp only [happen, hbefore, if_true]
      exact armed_ring ha now
    | next now outage =>
      have hunder := armed_under ha outage
      cases hwaiting : p.waiting with
      | nil =>
        rw [happen_idle hbefore hwaiting]
        exact hunder
      | cons i rest =>
        rw [happen_next hbefore hwaiting] at hrunning ⊢
        exact armed_take (p := p.under outage) hunder hwaiting hrunning
  · simp only [happen, if_neg hbefore] at hrunning ⊢
    exact ha hrunning

/-! ## Courses -/

theorem armed_start {settings : NodeSettings} {storage : Storage} {clock : Clock}
    {draw : Nat → Nat} (h : start settings storage clock draw now = .ok p) : p.Armed := by
  unfold start at h
  split at h
  · cases h
  split at h
  · cases h
  rename_i n hstart
  cases h
  have hrole : n.role = .follower := by
    rw [Node.start_eq_ok hstart]
    rfl
  have hwaits : n.isLeader = false := by simp [Node.isLeader, hrole]
  have howned : n.Owned := fun hne => absurd hrole hne
  have hdated : Dated { node := n, timer := { timing := settings.timing, draw, clock } } :=
    { past := fun f hf => absurd hf List.not_mem_nil, distinct := List.nodup_nil }
  exact hdated.rearmed (rearmed_awaitElection _ now) howned
    (Node.alarmKind_of_not_leads hwaits).symm

variable {course : Nat → Happening} {k l : Nat} {g : Firing}

theorem armed_walk (ha : p.Armed) (course : Nat → Happening) (k : Nat) :
    (p.walk course k).running = true → (p.walk course k).Armed := by
  induction k with
  | zero => exact fun _ => ha
  | succ k ih => exact armed_happen ih (course k)

theorem generation_le_walk (p : Process) (course : Nat → Happening) (hkl : k ≤ l) :
    (p.walk course k).timer.generation ≤ (p.walk course l).timer.generation := by
  induction l, hkl using Nat.le_induction with
  | base => exact Nat.le_refl _
  | succ l hkl ih => exact Nat.le_trans ih (generation_le_happen _ (course l))

theorem generation_of_handed (hf : p.handed? h = some f) :
    f.generation = p.timer.generation := by
  have haccepts := (handed?_eq_some hf).2.1
  simpa [Timer.accepts] using haccepts

theorem mem_scheduled_of_handed (hf : p.handed? h = some f) : f ∈ p.scheduled := by
  obtain ⟨_, _, _, _, _, _, hwaiting⟩ := handed?_eq_some hf
  rw [scheduled, queued, hwaiting]
  simp [Incoming.firing?]

theorem generation_lt_of_handed (ha : p.Armed) (hf : p.handed? h = some f) :
    f.generation < (p.happen h).timer.generation := by
  have hkind := ha.kind_of_accepts (mem_scheduled_of_handed hf) (handed?_eq_some hf).2.1
  obtain ⟨hrunning, _, now, outage, rest, rfl, hwaiting⟩ := handed?_eq_some hf
  have hhappen : p.happen (.next now outage) =
      (({ p with waiting := rest }.under outage).react now f.kind.event).1 := by
    rcases happen_firing hrunning hwaiting with ⟨_, heq⟩ | ⟨hnone, _⟩
    · exact heq
    · rw [hnone] at hf
      cases hf
  have hrearmed := ({ p with waiting := rest }.under outage).rearmed_react now f.kind.event
  have hevent : f.kind.event = ({ p with waiting := rest }.under outage).node.alarmKind.event := by
    rw [hkind]
    rfl
  rw [← hhappen, hevent, Node.alarmAfter_due] at hrearmed
  rw [generation_of_handed hf]
  exact hrearmed.generation_lt

/-- **The one live alarm.** In every course of a process, as long as it runs, exactly one of the
firings that are scheduled is current, and it is of the kind that the node's role calls for; this is
so after failed handlers too. A firing that is looked at reaches the node, as the event of its
alarm, or is dropped. If it reaches the node it finds it in the role that it is for; it does so once
at most, and not at all once a newer one has been scheduled. -/
theorem one_live_alarm {settings : NodeSettings} {storage : Storage} {clock : Clock}
    {draw : Nat → Nat} (starts : start settings storage clock draw now = .ok p)
    (course : Nat → Happening) :
    (∀ k, (p.walk course k).running = true →
      (∃ f, (p.walk course k).scheduled.filter (p.walk course k).timer.accepts = [f] ∧
        f.kind = (p.walk course k).node.alarmKind) ∧
      ((p.walk course k).scheduled.map (·.generation)).Nodup) ∧
    (∀ k f rest now outage, (p.walk course k).running = true → course k = .next now outage →
      (p.walk course k).waiting = .firing f :: rest →
      ((p.walk course k).handed? (course k) = some f ∧ p.walk course (k + 1) =
          (({ p.walk course k with waiting := rest }.under outage).react now f.kind.event).1) ∨
        (p.walk course k).handed? (course k) = none ∧
          p.walk course (k + 1) = { p.walk course k with waiting := rest }.under outage) ∧
    (∀ k f, (p.walk course k).handed? (course k) = some f →
      (f.kind = .election → (p.walk course k).node.isLeader = false) ∧
      (f.kind = .heartbeat → (p.walk course k).node.isLeader = true)) ∧
    (∀ k l f g, (p.walk course k).handed? (course k) = some f →
      (p.walk course l).handed? (course l) = some g → f.generation = g.generation → k = l) ∧
    ∀ k l f, k ≤ l → f.generation < (p.walk course k).timer.generation →
      (p.walk course l).handed? (course l) ≠ some f := by
  have harmed := armed_walk (armed_start starts) course
  have hstale : ∀ k l f, k ≤ l → f.generation < (p.walk course k).timer.generation →
      (p.walk course l).handed? (course l) ≠ some f := by
    intro k l f hkl hlt hf
    have hgeneration := generation_of_handed hf
    have hle := p.generation_le_walk course hkl
    omega
  have honce : ∀ k l f g, (p.walk course k).handed? (course k) = some f →
      (p.walk course l).handed? (course l) = some g → f.generation = g.generation → l ≤ k := by
    intro k l f g hf hg heq
    refine Nat.le_of_not_lt fun hkl => ?_
    have hlt := generation_lt_of_handed (harmed k (handed?_eq_some hf).1) hf
    rw [heq] at hlt
    exact hstale (k + 1) l g hkl hlt hg
  refine ⟨?_, ?_, ?_, ?_, hstale⟩
  · intro k hrunning
    exact ⟨(harmed k hrunning).live, (harmed k hrunning).distinct⟩
  · intro k f rest now outage hrunning hnext hwaiting
    rw [walk, hnext]
    exact happen_firing hrunning hwaiting
  · intro k f hf
    obtain ⟨hrunning, haccepts, _⟩ := handed?_eq_some hf
    have hkind := (harmed k hrunning).kind_of_accepts (mem_scheduled_of_handed hf) haccepts
    rw [Node.alarmKind] at hkind
    split at hkind
    · rename_i hleads
      exact ⟨fun helection => by simp [hkind] at helection, fun _ => hleads⟩
    · rename_i hwaits
      exact ⟨fun _ => by simpa using hwaits, fun hbeat => by simp [hkind] at hbeat⟩
  · intro k l f g hf hg heq
    exact Nat.le_antisymm (honce l k g f hg hf heq.symm) (honce k l f g hf hg heq)

/-! A course in which the first election timeout fails and the second makes a candidate. The third
has gone off, but waits behind the vote that makes the candidate a leader. -/

def exampleSettings : NodeSettings where
  id := 1
  dataDir := ""
  peers := .ofList [(2, ""), (3, "")]

def exampleProcess : Process where
  node := Node.reborn exampleSettings.roster {}
  timer := Timer.awaitElection { timing := exampleSettings.timing, draw := fun _ => 0 } 0

def exampleCourse : Nat → Happening
  | 0 => .ring 1000
  | 1 => .next 1000 { vote := some ⟨0, 0⟩ }
  | 2 => .ring 2000
  | 3 => .next 2000 {}
  | 4 => .message (.voteResponse { voter := 3, term := 1, granted := true })
  | 5 => .ring 3000
  | _ => .next 3000 {}

theorem one_live_alarm_exampleCourse :
    start exampleSettings {} {} (fun _ => 0) 0 = .ok exampleProcess ∧
    (exampleProcess.walk exampleCourse 1).handed? (exampleCourse 1) = some ⟨.election, 1⟩ ∧
    (exampleProcess.walk exampleCourse 3).handed? (exampleCourse 3) = some ⟨.election, 2⟩ ∧
    (exampleProcess.walk exampleCourse 7).node.isLeader = true ∧
    (exampleProcess.walk exampleCourse 7).queued = [⟨.election, 3⟩] ∧
    (∀ l, 7 ≤ l →
      (exampleProcess.walk exampleCourse l).handed? (exampleCourse l) ≠ some ⟨.election, 3⟩) ∧
    ∃ f, (exampleProcess.walk exampleCourse 8).scheduled.filter
      (exampleProcess.walk exampleCourse 8).timer.accepts = [f] ∧ f.kind = .heartbeat := by
  have hstart : start exampleSettings {} {} (fun _ => 0) 0 = .ok exampleProcess := rfl
  obtain ⟨hlive, _, _, _, hstale⟩ := one_live_alarm hstart exampleCourse
  have hgeneration : 3 < (exampleProcess.walk exampleCourse 7).timer.generation := by
    decide +kernel
  obtain ⟨f, hf, hkind⟩ := (hlive 8 (by decide +kernel)).1
  have hleads : (exampleProcess.walk exampleCourse 8).node.alarmKind = .heartbeat := by
    decide +kernel
  refine ⟨hstart, by decide +kernel, by decide +kernel, by decide +kernel, by decide +kernel, ?_,
    f, hf, hkind.trans hleads⟩
  intro l hl
  exact hstale 7 l ⟨.election, 3⟩ hl hgeneration

end Process

end Elector
