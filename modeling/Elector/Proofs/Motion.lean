import Elector.Command.Run
import Elector.Proofs.Joining

/-!
# What can happen to the cluster of a program

A `Motion` is the least that can happen to a cluster whose nodes are started in the order in which
they are listed, each on a storage of its own in memory. The next node is started, the clock is set,
an alarm that is due puts its firing into the queue of its process, a frame is brought from an inbox
to the queue, a process looks at the first item of its queue, or somebody asks it something. Motions
may follow one another in any order.

The program does everything at once that can be done at one moment. So the cluster that it builds,
and this cluster at any later time, has come about by motions (`Cluster.startAll_eq`,
`Cluster.reaches_advance`).
-/

namespace Elector

inductive Motion
  /-- The next listed node is started. -/
  | launch
  /-- The clock is set. -/
  | pass (now : Nat)
  /-- The alarm of a process goes off, if it is due: its firing joins the queue. -/
  | ring (place : Nat)
  /-- The first frame of an inbox is handed over. -/
  | fetch (place : Nat)
  /-- A process looks at the first item of its queue. -/
  | look (place : Nat)
  | query (place : Nat)
  | shutdown (place : Nat)
  | isolate (id : NodeId)
  | heal (id : NodeId)
deriving DecidableEq, Repr

namespace Process

def hand (p : Process) (i : Incoming) : Process := if p.running then p.post i else p

end Process

namespace Cluster

def drive (c : Cluster) (place : Nat) (act : Nat → Process → Process × List Outgoing) : Cluster :=
  match c.stations[place]? with
  | none => c
  | some s =>
    match s.host.process with
    | none => c
    | some p =>
      (c.setHost place { s.host with process := some (act s.host.now p).1 }).sendAll s.id
        (act s.host.now p).2

def launch (settings : ClusterSettings) (draws : Nat → Nat → Nat) (c : Cluster) : Cluster :=
  match (settings.ids[c.stations.length]?).map settings.forNode with
  | some (.ok node) =>
    let (network, inbox) := c.network.register node.id
    let host : Host :=
      { settings := node, draw := draws c.stations.length, idle := {}, clock := c.clock,
        now := c.now }
    match host.start with
    | (_, .error _) => { c with network := network.close inbox }
    | (host, .ok ()) => { c with network, stations := c.stations ++ [Station.mk host inbox] }
  | _ => c

/-- Hands the first frame of an inbox to its process. A frame that is none is dropped, and an inbox
whose process has stopped is closed. -/
def fetch (c : Cluster) (place : Nat) : Cluster :=
  match c.stations[place]? with
  | none => c
  | some s =>
    match c.network.receive s.inbox with
    | (network, .frame frame) =>
      match Frame.decode frame with
      | .error _ => { c with network }
      | .ok m =>
        if s.host.running then
          ({ c with network } : Cluster).drive place fun _ p => (p.hand (.message m), [])
        else { c with network := network.close s.inbox }
    | _ => c

def move (settings : ClusterSettings) (draws : Nat → Nat → Nat) (c : Cluster) : Motion → Cluster
  | .launch => c.launch settings draws
  | .pass now => c.setTime now
  | .ring place => c.drive place fun now p => (p.ring now, [])
  | .fetch place => c.fetch place
  | .look place => c.drive place fun now p => p.next now
  | .query place => c.drive place fun _ p => (p.hand .query, [])
  | .shutdown place => c.drive place fun _ p => (p.hand .shutdown, [])
  | .isolate id => c.isolate id
  | .heal id => c.heal id

def moveAll (settings : ClusterSettings) (draws : Nat → Nat → Nat) (motions : List Motion) :
    Cluster → Cluster :=
  fun c => motions.foldl (move settings draws) c

/-- Some motions lead from one cluster to the other, and start no node. -/
def Reaches (settings : ClusterSettings) (draws : Nat → Nat → Nat) (c c' : Cluster) : Prop :=
  ∃ motions, .launch ∉ motions ∧ moveAll settings draws motions c = c'

variable {settings : ClusterSettings} {draws : Nat → Nat → Nat} {c c' c'' : Cluster} {place : Nat}
  {st : Station} {p : Process}

theorem Reaches.refl (c : Cluster) : Reaches settings draws c c := ⟨[], by simp, rfl⟩

theorem Reaches.trans (h : Reaches settings draws c c') (h' : Reaches settings draws c' c'') :
    Reaches settings draws c c'' := by
  obtain ⟨motions, hnone, rfl⟩ := h
  obtain ⟨motions', hnone', rfl⟩ := h'
  exact ⟨motions ++ motions', by simp [hnone, hnone'], List.foldl_append⟩

theorem reaches_move (settings : ClusterSettings) (draws : Nat → Nat → Nat) (c : Cluster)
    (m : Motion) (hm : m ≠ .launch) : Reaches settings draws c (c.move settings draws m) :=
  ⟨[m], by simpa using hm.symm, rfl⟩

theorem drive_eq (hst : c.stations[place]? = some st) (hp : st.host.process = some p)
    (act : Nat → Process → Process × List Outgoing) :
    c.drive place act =
      (c.setHost place { st.host with process := some (act st.host.now p).1 }).sendAll st.id
        (act st.host.now p).2 := by
  simp only [drive, hst, hp]

theorem drive_none (h : c.stations[place]?.bind (·.host.process) = none)
    (act : Nat → Process → Process × List Outgoing) : c.drive place act = c := by
  rw [drive]
  cases hst : c.stations[place]? with
  | none => rfl
  | some st =>
    rw [hst, Option.bind_some] at h
    simp only [h]

theorem getElem?_drive (act : Nat → Process → Process × List Outgoing)
    (hst : c.stations[place]? = some st) (hp : st.host.process = some p) :
    (c.drive place act).stations[place]? =
      some { st with host.process := some (act st.host.now p).1 } := by
  rw [drive_eq hst hp, sendAll, setHost, List.getElem?_modify_eq, hst]
  rfl

theorem drive_drive (act act' : Nat → Process → Process × List Outgoing) :
    (c.drive place act).drive place act' =
      c.drive place fun now p =>
        ((act' now (act now p).1).1, (act now p).2 ++ (act' now (act now p).1).2) := by
  cases hprocess : c.stations[place]?.bind (·.host.process) with
  | none => rw [drive_none hprocess, drive_none hprocess, drive_none hprocess]
  | some p =>
    obtain ⟨st, hst, hp⟩ := Option.bind_eq_some_iff.mp hprocess
    rw [drive_eq (getElem?_drive act hst hp) rfl, drive_eq hst hp, drive_eq hst hp]
    simp only [setHost, sendAll, List.modify_modify_eq, List.foldl_append]
    rfl

theorem drive_idle (c : Cluster) (place : Nat) : (c.drive place fun _ p => (p, [])) = c := by
  cases hprocess : c.stations[place]?.bind (·.host.process) with
  | none => exact drive_none hprocess _
  | some p =>
    obtain ⟨st, hst, hp⟩ := Option.bind_eq_some_iff.mp hprocess
    rw [drive_eq hst hp, ← hp]
    exact setHost_self hst

theorem reaches_work (settings : ClusterSettings) (draws : Nat → Nat → Nat) (c : Cluster)
    (place count : Nat) :
    Reaches settings draws c (c.drive place fun now p => p.work now count) := by
  induction count generalizing c with
  | zero =>
    have hnothing : (c.drive place fun now p => p.work now 0) = c := c.drive_idle place
    rw [hnothing]
    exact .refl c
  | succ count ih =>
    have hlook := reaches_move settings draws c (.look place) (by simp)
    have hrest := hlook.trans (ih _)
    rw [move, drive_drive] at hrest
    exact hrest

theorem reaches_drive_settle (settings : ClusterSettings) (draws : Nat → Nat → Nat)
    (hst : c.stations[place]? = some st) (hp : st.host.process = some p)
    (act : Nat → Process → Process) :
    Reaches settings draws (c.drive place fun now p => (act now p, []))
      ((c.setHost place
          { st.host with process := some ((act st.host.now p).settle st.host.now).1 }).sendAll st.id
        ((act st.host.now p).settle st.host.now).2) := by
  have hwork := reaches_work settings draws (c.drive place fun now p => (act now p, [])) place
    (act st.host.now p).waiting.length
  rw [drive_drive] at hwork
  have hboth := drive_eq hst hp fun now q =>
    ((act now q).work now (act st.host.now p).waiting.length)
  simp only [List.nil_append] at hwork
  rw [hboth] at hwork
  exact hwork

theorem reaches_takeFrame (h : c.takeFrame place = some c') : Reaches settings draws c c' := by
  have hfetch : Reaches settings draws c (c.fetch place) :=
    reaches_move settings draws c (.fetch place) (by simp)
  rw [takeFrame] at h
  rw [fetch] at hfetch
  cases hst : c.stations[place]? with
  | none => simp [hst] at h
  | some st =>
    simp only [hst] at h hfetch
    split at h
    · rename_i network frame hreceive
      simp only [hreceive] at hfetch
      rw [Host.deliverBytes] at h
      cases hdecode : Frame.decode frame with
      | error cause =>
        simp only [hdecode] at h hfetch
        cases h
        exact hfetch
      | ok m =>
        simp only [hdecode, Host.deliver] at h hfetch
        by_cases hrunning : st.host.running = true
        · obtain ⟨p, hp⟩ : ∃ p, st.host.process = some p := by
            cases hp : st.host.process with
            | none => simp [Host.running, hp] at hrunning
            | some p => exact ⟨p, rfl⟩
          have hruns : p.running = true := by simpa [Host.running, hp] using hrunning
          simp only [hrunning, if_true, Host.submit, hp, hruns] at h hfetch
          cases h
          refine hfetch.trans ?_
          have hsettle := reaches_drive_settle settings draws (c := { c with network }) hst hp
            fun _ p => p.hand (.message m)
          rw [Process.hand, if_pos hruns] at hsettle
          exact hsettle
        · simp only [hrunning] at h hfetch
          cases h
          exact hfetch
    · cases h

theorem reaches_takeFrames (fuel : Nat) (c : Cluster) :
    Reaches settings draws c (takeFrames fuel c) := by
  induction fuel generalizing c with
  | zero => exact .refl c
  | succ fuel ih =>
    rw [takeFrames]
    cases htake : c.takeAny with
    | none => exact .refl c
    | some c' =>
      obtain ⟨place, _, hplace⟩ := List.exists_of_findSome?_eq_some htake
      exact (reaches_takeFrame hplace).trans (ih c')

theorem reaches_settle (settings : ClusterSettings) (draws : Nat → Nat → Nat) (c : Cluster) :
    Reaches settings draws c c.settle := reaches_takeFrames _ c

theorem reaches_fire (c : Cluster) (place : Nat) : Reaches settings draws c (c.fire place) := by
  refine Reaches.trans ?_ (reaches_settle _ _ _)
  rw [Cluster.ring]
  cases hst : c.stations[place]? with
  | none => exact .refl c
  | some st =>
    simp only [Host.fire]
    cases hp : st.host.process with
    | none =>
      have hsame : (c.setHost place st.host).sendAll st.id [] = c := setHost_self hst
      simp only [hsame]
      exact .refl c
    | some p =>
      exact (reaches_move settings draws c (.ring place) (by simp)).trans
        (reaches_drive_settle settings draws hst hp fun now p => p.ring now)

theorem reaches_passTo (target fuel : Nat) (c : Cluster) :
    Reaches settings draws c (c.passTo target fuel) := by
  induction fuel generalizing c with
  | zero => exact reaches_move settings draws c (.pass target) (by simp)
  | succ fuel ih =>
    rw [passTo]
    split
    · exact reaches_move settings draws c (.pass target) (by simp)
    · rename_i due place _
      split
      · have hpass := reaches_move settings draws c (.pass (max c.now due)) (by simp)
        exact (hpass.trans (reaches_fire _ place)).trans (ih _)
      · exact reaches_move settings draws c (.pass target) (by simp)

/-- What the clock does to a cluster comes about by motions. -/
theorem reaches_advance (settings : ClusterSettings) (draws : Nat → Nat → Nat) (c : Cluster)
    (ms : Nat) : Reaches settings draws c (c.advance ms) := reaches_passTo _ _ c

/-! ## Starting -/

theorem ids_drive (c : Cluster) (place : Nat) (act : Nat → Process → Process × List Outgoing) :
    (c.drive place act).stations.map (·.id) = c.stations.map (·.id) := by
  cases hprocess : c.stations[place]?.bind (·.host.process) with
  | none => rw [drive_none hprocess]
  | some p =>
    obtain ⟨st, hst, hp⟩ := Option.bind_eq_some_iff.mp hprocess
    rw [drive_eq hst hp]
    refine map_setHost _ fun st' hst' => ?_
    rw [hst] at hst'
    cases hst'
    rfl

theorem ids_fetch (c : Cluster) (place : Nat) :
    (c.fetch place).stations.map (·.id) = c.stations.map (·.id) := by
  rw [fetch]
  split
  · rfl
  · split
    · split
      · rfl
      · split
        · exact ids_drive _ _ _
        · rfl
    · rfl

theorem ids_setTime (c : Cluster) (now : Nat) :
    (c.setTime now).stations.map (·.id) = c.stations.map (·.id) := by
  rw [setTime, List.map_map]
  rfl

theorem ids_move {m : Motion} (hm : m ≠ .launch) :
    (c.move settings draws m).stations.map (·.id) = c.stations.map (·.id) := by
  cases m with
  | launch => exact absurd rfl hm
  | pass now => exact ids_setTime c now
  | fetch place => exact ids_fetch c place
  | isolate id => rfl
  | heal id => rfl
  | _ => exact ids_drive _ _ _

/-- Without a start the stations are always of the same nodes. -/
theorem Reaches.ids (h : Reaches settings draws c c') :
    c'.stations.map (·.id) = c.stations.map (·.id) := by
  obtain ⟨motions, hnone, rfl⟩ := h
  induction motions generalizing c with
  | nil => rfl
  | cons m motions ih =>
    rw [List.mem_cons, not_or] at hnone
    exact (ih hnone.2).trans (ids_move (Ne.symm hnone.1))

theorem launch_eq {id : NodeId} (next : settings.ids[c.stations.length]? = some id)
    (accepted : settings.timing.check = .ok ()) :
    c.launch settings draws = c.enrol
      (.fresh id (draws c.stations.length) (List.mem_of_getElem? next) accepted) := by
  have hnode : settings.forNode id = .ok (settings.member id) :=
    ClusterSettings.forNode_eq_ok.mpr ⟨List.mem_of_getElem? next, accepted, rfl⟩
  have hstart := (Seat.fresh id (draws c.stations.length) (List.mem_of_getElem? next)
    accepted).host_start c.clock c.now
  rw [launch, next, Option.map_some, hnode]
  simp only [Seat.fresh] at hstart
  simp only [hstart]
  rfl

theorem ids_enrol (c : Cluster) (seat : Seat settings) :
    (c.enrol seat).stations.map (·.id) = c.stations.map (·.id) ++ [seat.id] := by
  rw [enrol, List.map_append]
  rfl

/-- The program starts all nodes, one after the other. -/
theorem startAll_eq {o : ClusterOptions} (memory : o.persist = false) (w : Surroundings)
    (accepted : settings.timing.check = .ok ()) {rest : List NodeId}
    (listed : settings.ids = c.stations.map (·.id) ++ rest) :
    ∃ motions, o.startAll settings draws w c rest = (moveAll settings draws motions c, .ok ()) ∧
      (moveAll settings draws motions c).stations.map (·.id) = settings.ids := by
  induction rest generalizing c with
  | nil => exact ⟨[], rfl, by simpa [moveAll] using listed.symm⟩
  | cons id rest ih =>
    have next : settings.ids[c.stations.length]? = some id := by simp [listed]
    have hmem := List.mem_of_getElem? next
    let seat : Seat settings := .fresh id (draws c.stations.length) hmem accepted
    have hnode : settings.forNode id = .ok (settings.member id) :=
      ClusterSettings.forNode_eq_ok.mpr ⟨hmem, accepted, rfl⟩
    have hopen : o.openStorage (settings.member id) w = .ok {} := by
      rw [ClusterOptions.openStorage, memory]
      rfl
    have hjoin : c.join (settings.member id) (draws c.stations.length) (.ok {}) =
        ((c.launch settings draws).settle, .ok ()) := by
      rw [launch_eq next accepted]
      exact c.join_eq seat
    have hsettles := reaches_settle settings draws (c.launch settings draws)
    have hids : (c.launch settings draws).settle.stations.map (·.id) =
        c.stations.map (·.id) ++ [id] := by
      rw [hsettles.ids, launch_eq next accepted, ids_enrol]
      rfl
    obtain ⟨settling, _, hsettling⟩ := hsettles
    obtain ⟨motions, hrest, hall⟩ := ih (c := (c.launch settings draws).settle)
      (by rw [hids, listed, List.append_assoc, List.singleton_append])
    have hmotions : moveAll settings draws (.launch :: settling ++ motions) c =
        moveAll settings draws motions (c.launch settings draws).settle := by
      rw [← hsettling, moveAll, List.cons_append, List.foldl_cons, List.foldl_append]
      rfl
    refine ⟨.launch :: settling ++ motions, ?_, hmotions ▸ hall⟩
    rw [hmotions, ← hrest, ClusterOptions.startAll, hnode]
    simp only [hopen, hjoin]

end Cluster

end Elector
