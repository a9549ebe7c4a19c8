import Elector.Proofs.Attending
import Elector.Proofs.Inboxes
import Elector.Proofs.Order

/-!
# Clusters in which messages take no time

A `Deed` is the least that can happen in a cluster: time passes, an alarm goes off, or a frame is
taken in. Time passes only while no frame waits and up to the first alarm. Otherwise deeds may be
done in any order, and `Cluster.handled` tells which events members handle in them.

A cluster `Shows` a scene if that is all there is in it. In a cluster that shows a scene in order
every deed is a shift of the scene (`Shows.does`), and every event that is handled was brought to
its member there (`Shows.handled`).
-/

namespace Elector

/-! ## Deeds -/

/-- What can be done next in a cluster in which messages take no time and no alarm is missed. -/
inductive Deed
  /-- Time passes up to `now`. -/
  | pass (now : Nat)
  /-- The alarm of a station goes off, if it is due. -/
  | ring (place : Nat)
  /-- A station takes in a frame. -/
  | take (place : Nat)
deriving DecidableEq, Repr

namespace Cluster

/-- The cluster after a deed. Time passes only while no frame waits, and no further than to the
first alarm. -/
def does (c : Cluster) : Deed → Option Cluster
  | .pass now =>
    if c.takeAny.isNone ∧ c.now ≤ now ∧ ∀ s ∈ c.stations, ∀ due ∈ s.host.due?, now ≤ due then
      some (c.setTime now)
    else none
  | .ring place => some (c.ring place)
  | .take place => c.takeFrame place

def doesAll (c : Cluster) : List Deed → Option Cluster
  | [] => some c
  | d :: rest => (c.does d).bind (·.doesAll rest)

def handled (c : Cluster) : Deed → List (NodeId × Event)
  | .pass _ => []
  | .ring place =>
    match c.stations[place]? with
    | some s => s.host.firedEvents.map (s.id, ·)
    | none => []
  | .take place =>
    match c.stations[place]? with
    | some s =>
      match (c.network.receive s.inbox).2 with
      | .frame frame =>
        match Frame.decode frame with
        | .ok m => (s.host.submittedEvents (.message m)).map (s.id, ·)
        | .error _ => []
      | _ => []
    | none => []

end Cluster

/-! ## A cluster and its scene -/

namespace Cluster

/-- The scene is all that there is in the cluster. -/
structure Shows (c : Cluster) (s : Scene) : Prop where
  punctual : c.clock.Punctual
  now : c.now = s.now
  member : ∀ st ∈ c.stations, st.host.now = s.now ∧
    ∃ p, st.host.process = some p ∧ s.process st.id = some p
  roster : ∀ st ∈ c.stations, ∀ p, s.process st.id = some p →
    p.node.roster = st.host.settings.roster
  complete : ∀ i p, s.process i = some p → ∃ st ∈ c.stations, st.id = i
  distinct : (c.stations.map (·.id)).Nodup
  network : c.network.Carries c.stations s.flight

variable {c c' : Cluster} {s s' : Scene} {settings : ClusterSettings} {st st' : Station}
  {place : Nat} {p q : Process} {e : Event} {m : Message} {left : NodeId → List Message}
  {i j : NodeId} {host : Host}

theorem map_setHost {α : Type} (observe : Station → α)
    (same : ∀ st, c.stations[place]? = some st → observe { st with host } = observe st) :
    (c.setHost place host).stations.map observe = c.stations.map observe := by
  apply List.ext_getElem?
  intro k
  rw [setHost, List.getElem?_map, List.getElem?_map, List.getElem?_modify]
  split
  · rename_i heq
    cases hst : c.stations[k]? with
    | none => simp
    | some st => simp [same st (heq ▸ hst)]
  · simp

/-- Among stations of different nodes a change of one host leaves the others. -/
theorem mem_setHost (distinct : (c.stations.map (·.id)).Nodup) (hst : c.stations[place]? = some st)
    (hst' : st' ∈ (c.setHost place host).stations) :
    st' = { st with host } ∨ st' ∈ c.stations ∧ st'.id ≠ st.id := by
  obtain ⟨k, hk⟩ := List.mem_iff_getElem?.mp hst'
  rw [setHost, List.getElem?_modify] at hk
  by_cases heq : place = k
  · subst heq
    refine Or.inl ?_
    simpa [hst] using hk.symm
  · have hold : c.stations[k]? = some st' := by simpa [heq] using hk
    refine Or.inr ⟨List.mem_iff_getElem?.mpr ⟨k, hold⟩, fun hid => heq ?_⟩
    have hlength : place < (c.stations.map (·.id)).length := by
      rw [List.length_map]
      exact (List.getElem?_eq_some_iff.mp hst).1
    apply (List.getElem?_inj hlength distinct).mp
    rw [List.getElem?_map, List.getElem?_map, hst, hold, Option.map_some, Option.map_some, hid]

/-- A station whose process handles an event, in a network that holds what is left. -/
theorem Shows.acts (h : c.Shows s) (hs : s.Orderly settings) (hst : c.stations[place]? = some st)
    (process : s.process st.id = some p) (brings : s.Brings st.id p e q left) {n : Network}
    (carries : n.Carries c.stations left) :
    ((({ c with network := n } : Cluster).setHost place
          { st.host with process := some (q.react s.now e).1 }).sendAll st.id
        (q.react s.now e).2).Shows (s.acts st.id q e left) := by
  have hmem : st ∈ c.stations := List.mem_of_getElem? hst
  have hkept : (({ c with network := n } : Cluster).setHost place
      { st.host with process := some (q.react s.now e).1 }).stations.map (·.id) =
        c.stations.map (·.id) := by
    apply map_setHost (c := { c with network := n })
    intro st' hst'
    rw [hst] at hst'
    cases hst'
    rfl
  have hshows : ({ c with network := n } : Cluster).Shows { s with flight := left } :=
    ⟨h.punctual, h.now, h.member, h.roster, h.complete, h.distinct, carries⟩
  refine ⟨h.punctual, h.now, ?_, ?_, ?_, hkept ▸ h.distinct, ?_⟩
  · intro st' hst'
    rcases mem_setHost hshows.distinct hst hst' with rfl | ⟨hold, hne⟩
    · refine ⟨(h.member st hmem).1, _, rfl, ?_⟩
      exact Scene.acts_self ..
    · obtain ⟨hnow, p', hp', hprocess⟩ := h.member st' hold
      exact ⟨hnow, p', hp', by rw [Scene.acts_other s q e left hne, hprocess]⟩
  · intro st' hst' r hr
    rcases mem_setHost hshows.distinct hst hst' with rfl | ⟨hold, hne⟩
    · have hself := s.acts_self st.id q e left
      cases hself.symm.trans hr
      exact ((hs.manned st.id p process).acted brings).roster.trans (h.roster st hmem p process)
    · rw [Scene.acts_other s q e left hne] at hr
      exact h.roster st' hold r hr
  · intro k r hr
    have hknown : k ∈ c.stations.map (·.id) := by
      by_cases hk : k = st.id
      · exact hk ▸ List.mem_map_of_mem hmem
      · rw [Scene.acts_other s q e left hk] at hr
        obtain ⟨st', hst', hid⟩ := h.complete k r hr
        exact hid ▸ List.mem_map_of_mem hst'
    rw [← hkept] at hknown
    exact List.mem_map.mp hknown
  · have hnetwork := carries.sendAll st.id (Simulation.sendsOf (q.node.asks e))
    have hsent : (q.react s.now e).2.foldl (fun n o => (n.send st.id o.1 o.2).1) n =
        (Simulation.sendsOf (q.node.asks e)).foldl
          (fun n x => (n.send st.id x.1 (Frame.encode x.2)).1) n := by
      rw [Process.sent_react, List.foldl_map]
    rw [← hsent] at hnetwork
    apply hnetwork.same_inboxes
    apply map_setHost (c := { c with network := n })
    intro st' hst'
    rw [hst] at hst'
    cases hst'
    rfl

/-! ### Deeds in the scene -/

theorem Shows.setTime (h : c.Shows s) (now : Nat) : (c.setTime now).Shows { s with now } where
  punctual := h.punctual
  now := rfl
  member := by
    intro st' hst'
    obtain ⟨st, hst, rfl⟩ := List.mem_map.mp hst'
    exact ⟨rfl, (h.member st hst).2⟩
  roster := by
    intro st' hst'
    obtain ⟨st, hst, rfl⟩ := List.mem_map.mp hst'
    exact h.roster st hst
  complete := by
    intro i p hp
    obtain ⟨st, hst, hid⟩ := h.complete i p hp
    exact ⟨_, List.mem_map_of_mem hst, hid⟩
  distinct := by
    rw [Cluster.setTime, List.map_map]
    exact h.distinct
  network := by
    apply h.network.same_inboxes
    rw [Cluster.setTime, List.map_map]
    rfl

theorem setHost_self (hst : c.stations[place]? = some st) : c.setHost place st.host = c := by
  have hsame : c.stations.modify place (fun s => { s with host := st.host }) = c.stations := by
    apply List.ext_getElem?
    intro k
    rw [List.getElem?_modify]
    split
    · rename_i heq
      rw [← heq, hst]
      rfl
    · simp
  rw [setHost, hsame]

theorem Shows.due?_eq (h : c.Shows s) (hs : s.Orderly settings) (hst : st ∈ c.stations)
    (process : s.process st.id = some p) : st.host.due? = some p.due := by
  obtain ⟨_, p', hp, process'⟩ := h.member st hst
  rw [process] at process'
  cases process'
  have hm := hs.manned st.id p process
  obtain ⟨due, alarm⟩ := hm.armed.alarm hm.idle
  simp [Host.due?, hp, Process.due?, hm.running, alarm, Process.due]

theorem Shows.ring_early (h : c.Shows s) (hs : s.Orderly settings)
    (hst : c.stations[place]? = some st) (process : s.process st.id = some p)
    (early : s.now < p.due) : c.ring place = c ∧ c.handled (.ring place) = [] := by
  obtain ⟨hnow, p', hp, process'⟩ := h.member st (List.mem_of_getElem? hst)
  rw [process] at process'
  cases process'
  have hm := hs.manned st.id p process
  obtain ⟨due, alarm⟩ := hm.armed.alarm hm.idle
  have hlate : ¬ due ≤ st.host.now := by
    rw [Process.due, alarm] at early
    rw [hnow]
    exact Nat.not_le.mpr early
  have hearly : p.timer.ring st.host.now = none := by
    rw [Timer.ring, alarm]
    exact if_neg hlate
  obtain ⟨hfire, hevents⟩ := Host.fire_early hp hm.idle hearly
  constructor
  · rw [Cluster.ring, hst]
    simp only [hfire]
    exact setHost_self hst
  · rw [handled, hst]
    simp only [hevents, List.map_nil]

theorem Shows.ring_due (h : c.Shows s) (hs : s.Orderly settings)
    (hst : c.stations[place]? = some st) (process : s.process st.id = some p)
    (due : p.due ≤ s.now) :
    ∃ a, p.timer.alarm = some a ∧ a.due ≤ s.now ∧
      (c.ring place).Shows
        (s.acts st.id { p with timer.alarm := none } a.firing.kind.event s.flight) ∧
      c.handled (.ring place) = [(st.id, a.firing.kind.event)] := by
  obtain ⟨hnow, p', hp, process'⟩ := h.member st (List.mem_of_getElem? hst)
  rw [process] at process'
  cases process'
  have hm := hs.manned st.id p process
  obtain ⟨moment, alarm⟩ := hm.armed.alarm hm.idle
  have hdue : moment ≤ s.now := by rwa [Process.due, alarm] at due
  obtain ⟨hfire, hevents⟩ := Host.fire_due hp hm.idle alarm rfl (hnow ▸ hdue)
  have hshows := h.acts hs hst process (.alarm alarm hdue) h.network
  refine ⟨_, alarm, hdue, ?_, ?_⟩
  · rw [← hnow] at hshows
    rw [Cluster.ring, hst]
    simp only [hfire]
    exact hshows
  · rw [handled, hst]
    simp only [hevents, List.map_cons, List.map_nil]

/-- An alarm that goes off is not due, or reaches its member. -/
theorem Shows.ring (h : c.Shows s) (hs : s.Orderly settings) (hst : c.stations[place]? = some st) :
    c.ring place = c ∧ c.handled (.ring place) = [] ∨
      ∃ p q e left, s.process st.id = some p ∧ s.Brings st.id p e q left ∧
        (c.ring place).Shows (s.acts st.id q e left) ∧ c.handled (.ring place) = [(st.id, e)] := by
  obtain ⟨_, p, _, process⟩ := h.member st (List.mem_of_getElem? hst)
  by_cases early : s.now < p.due
  · exact Or.inl (h.ring_early hs hst process early)
  · obtain ⟨a, alarm, due, hshows, hhandled⟩ := h.ring_due hs hst process (Nat.not_lt.mp early)
    exact Or.inr ⟨p, _, _, _, process, .alarm alarm due, hshows, hhandled⟩

theorem Shows.takeFrame_eq (h : c.Shows s) (hs : s.Orderly settings)
    (hst : c.stations[place]? = some st) (process : s.process st.id = some p) {n : Network}
    (receive : c.network.receive st.inbox = (n, .frame (Frame.encode m))) :
    c.takeFrame place = some ((({ c with network := n } : Cluster).setHost place
        { st.host with process := some (p.react s.now (.message m)).1 }).sendAll st.id
      (p.react s.now (.message m)).2) ∧
    c.handled (.take place) = [(st.id, .message m)] := by
  obtain ⟨hnow, p', hp, process'⟩ := h.member st (List.mem_of_getElem? hst)
  rw [process] at process'
  cases process'
  have hm := hs.manned st.id p process
  have hdeliver := Host.deliverBytes_eq hp hm.running hm.idle m
  have hevents := Host.submittedEvents_eq hp hm.running hm.idle m
  constructor
  · rw [Cluster.takeFrame, hst]
    simp only [receive, hdeliver, hnow]
  · rw [handled, hst]
    simp only [receive, Frame.decode_encode_self, hevents]
    rfl

theorem Shows.takeFrame (h : c.Shows s) (hs : s.Orderly settings)
    (hst : c.stations[place]? = some st) {rest : List Message}
    (first : s.flight st.id = m :: rest) :
    ∃ p q left, s.process st.id = some p ∧ s.Brings st.id p (.message m) q left ∧
      (∃ c', c.takeFrame place = some c' ∧ c'.Shows (s.acts st.id q (.message m) left)) ∧
      c.handled (.take place) = [(st.id, .message m)] := by
  have hmem : st ∈ c.stations := List.mem_of_getElem? hst
  obtain ⟨_, p, _, process⟩ := h.member st hmem
  obtain ⟨n, hreceive, carries⟩ := h.network.receive hmem first
  obtain ⟨htake, hhandled⟩ := h.takeFrame_eq hs hst process hreceive
  have brings := Scene.Brings.message (p := p) first
  exact ⟨p, _, _, process, brings, ⟨_, htake, h.acts hs hst process brings carries⟩, hhandled⟩

theorem Shows.takeFrame_none (h : c.Shows s) (hst : c.stations[place]? = some st)
    (empty : s.flight st.id = []) :
    c.takeFrame place = none ∧ c.handled (.take place) = [] := by
  have hholds := h.network.inbox st (List.mem_of_getElem? hst)
  rw [empty] at hholds
  have hreceive := hholds.receive_empty
  rw [Cluster.takeFrame, handled, hst]
  cases hr : c.network.receive st.inbox with
  | mk n received =>
    rw [hr] at hreceive
    cases hreceive
    simp only [hr, and_self]

theorem Shows.flight_nil (h : c.Shows s) (hs : s.Orderly settings) (idle : c.takeAny = none)
    (i : NodeId) (p : Process) (hp : s.process i = some p) : s.flight i = [] := by
  obtain ⟨st, hst, rfl⟩ := h.complete i p hp
  obtain ⟨place, hplace⟩ := List.mem_iff_getElem?.mp hst
  rw [takeAny, List.findSome?_eq_none_iff] at idle
  have hrange : place ∈ List.range c.stations.length :=
    List.mem_range.mpr (List.getElem?_eq_some_iff.mp hplace).1
  cases hflight : s.flight st.id with
  | nil => rfl
  | cons m rest =>
    obtain ⟨_, _, _, _, _, ⟨c', htake, _⟩, _⟩ := h.takeFrame hs hplace hflight
    rw [idle place hrange] at htake
    cases htake

theorem does_pass {now : Nat} (h : c.does (.pass now) = some c') :
    c.takeAny = none ∧ c.now ≤ now ∧ (∀ s ∈ c.stations, ∀ due ∈ s.host.due?, now ≤ due) ∧
      c' = c.setTime now := by
  rw [does] at h
  split at h
  · rename_i hmay
    exact ⟨Option.isNone_iff_eq_none.mp hmay.1, hmay.2.1, hmay.2.2, (Option.some.inj h).symm⟩
  · cases h

/-- A deed is a shift of the scene, or changes nothing. -/
theorem Shows.does (h : c.Shows s) (hs : s.Orderly settings) {d : Deed} (hd : c.does d = some c') :
    c' = c ∨ ∃ s', s.Shift s' ∧ c'.Shows s' := by
  cases d with
  | pass now =>
    obtain ⟨idle, later, punctual, rfl⟩ := does_pass hd
    refine Or.inr ⟨_, .pass (h.now ▸ later) (h.flight_nil hs idle) ?_, h.setTime now⟩
    intro i p hp
    obtain ⟨st, hst, rfl⟩ := h.complete i p hp
    exact punctual st hst p.due (h.due?_eq hs hst hp)
  | ring place =>
    cases hd
    cases hst : c.stations[place]? with
    | none =>
      refine Or.inl ?_
      rw [Cluster.ring, hst]
    | some st =>
      rcases h.ring hs hst with ⟨hsame, _⟩ | ⟨p, q, e, left, process, brings, hshows, _⟩
      · exact Or.inl hsame
      · exact Or.inr ⟨_, .act process brings, hshows⟩
  | take place =>
    cases hst : c.stations[place]? with
    | none => simp [Cluster.does, Cluster.takeFrame, hst] at hd
    | some st =>
      cases hflight : s.flight st.id with
      | nil =>
        rw [Cluster.does, (h.takeFrame_none hst hflight).1] at hd
        cases hd
      | cons m rest =>
        obtain ⟨p, q, left, process, brings, ⟨c₁, htake, hshows⟩, _⟩ := h.takeFrame hs hst hflight
        rw [Cluster.does, htake] at hd
        cases hd
        exact Or.inr ⟨_, .act process brings, hshows⟩

theorem Shows.handled (h : c.Shows s) (hs : s.Orderly settings) {d : Deed}
    (he : (i, e) ∈ c.handled d) : ∃ p q left, s.process i = some p ∧ s.Brings i p e q left := by
  cases d with
  | pass now => cases he
  | ring place =>
    cases hst : c.stations[place]? with
    | none => simp [Cluster.handled, hst] at he
    | some st =>
      rcases h.ring hs hst with ⟨_, hnone⟩ | ⟨p, q, e', left, process, brings, _, hone⟩
      · rw [hnone] at he
        cases he
      · rw [hone, List.mem_singleton] at he
        cases he
        exact ⟨p, q, left, process, brings⟩
  | take place =>
    cases hst : c.stations[place]? with
    | none => simp [Cluster.handled, hst] at he
    | some st =>
      cases hflight : s.flight st.id with
      | nil =>
        rw [(h.takeFrame_none hst hflight).2] at he
        cases he
      | cons m rest =>
        obtain ⟨p, q, left, process, brings, _, hone⟩ := h.takeFrame hs hst hflight
        rw [hone, List.mem_singleton] at he
        cases he
        exact ⟨p, q, left, process, brings⟩

/-! ### Courses of deeds -/

theorem doesAll_append (c : Cluster) (deeds more : List Deed) :
    c.doesAll (deeds ++ more) = (c.doesAll deeds).bind (·.doesAll more) := by
  induction deeds generalizing c with
  | nil => rfl
  | cons d rest ih =>
    rw [List.cons_append, doesAll, doesAll, Option.bind_assoc]
    exact congrArg _ (funext ih)

/-- Whatever is done, the cluster goes on to show a scene in order, and what shifts keep is kept. -/
theorem Shows.doesAll {kept : Scene → Prop} (h : c.Shows s) (hs : s.Orderly settings)
    (steady : settings.timing.Steady)
    (keeps : ∀ s s', s.Orderly settings → s.Shift s' → kept s → kept s') (first : kept s)
    {deeds : List Deed} (does : c.doesAll deeds = some c') :
    ∃ s', c'.Shows s' ∧ s'.Orderly settings ∧ kept s' := by
  induction deeds generalizing c s with
  | nil =>
    cases does
    exact ⟨s, h, hs, first⟩
  | cons d rest ih =>
    obtain ⟨c₁, hd, others⟩ := Option.bind_eq_some_iff.mp does
    rcases h.does hs hd with rfl | ⟨s₁, shift, h₁⟩
    · exact ih h hs first others
    · exact ih h₁ (shift.orderly hs steady) (keeps s s₁ hs shift first) others

end Cluster

end Elector
