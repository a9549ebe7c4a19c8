import Mathlib.Logic.Function.Basic
import Elector.Cluster
import Elector.Simulation

/-!
# What waits in a network

The inbox of a member in a network in which nobody is isolated: what happens to its frames as frames
are sent and received and as others register. For a whole cluster, `Network.Carries` says that just
the given messages wait for its stations.
-/

namespace Elector.Network

/-- The latest registration of `id` is the given inbox, which holds the frames. -/
structure Holds (n : Network) (id : NodeId) (inbox : Nat) (frames : List Bytes) : Prop where
  latest : n.latest.find? id = some inbox
  inbox : n.inboxes[inbox]? = some ⟨id, false, frames⟩

variable {n : Network} {id id' new : NodeId} {inbox inbox' : Nat} {frames frames' : List Bytes}

theorem Holds.inbox_ne (h : n.Holds id inbox frames) (h' : n.Holds id' inbox' frames')
    (hne : id ≠ id') : inbox ≠ inbox' := by
  rintro rfl
  have hsame := h.inbox.symm.trans h'.inbox
  exact hne (congrArg Inbox.owner (Option.some.inj hsame))

theorem Holds.modify (h : n.Holds id inbox frames) (change : List Bytes → List Bytes) :
    Holds { n with inboxes := n.inboxes.modify inbox fun b => { b with frames := change b.frames } }
      id inbox (change frames) :=
  ⟨h.latest, by simp [h.inbox]⟩

theorem Holds.modify_other (h : n.Holds id inbox frames) (hne : inbox ≠ inbox')
    (change : Inbox → Inbox) :
    Holds { n with inboxes := n.inboxes.modify inbox' change } id inbox frames :=
  ⟨h.latest, by simp [h.inbox, hne.symm]⟩

theorem Holds.send (h : n.Holds id inbox frames) (hisolated : n.isolated = .empty)
    (source : NodeId) (frame : Bytes) :
    (n.send source id frame).1 = { n with
      inboxes := n.inboxes.modify inbox fun b => { b with frames := b.frames ++ [frame] } } := by
  have hreach : (n.isIsolated source || n.isIsolated id) = false := by
    simp [isIsolated, hisolated]
  rw [Network.send, hreach]
  simp only [Bool.false_eq_true, if_false, h.latest, h.inbox]

theorem send_absent (h : n.latest.find? id = none) (source : NodeId) (frame : Bytes) :
    (n.send source id frame).1 = n := by
  rw [Network.send]
  split
  · rfl
  · simp only [h]

theorem Holds.receive_empty (h : n.Holds id inbox []) : (n.receive inbox).2 = .empty := by
  rw [Network.receive]
  simp [h.inbox, h.latest]

theorem Holds.receive_frame {frame : Bytes} (h : n.Holds id inbox (frame :: frames)) :
    n.receive inbox =
      ({ n with inboxes := n.inboxes.modify inbox fun b => { b with frames := frames } },
        .frame frame) := by
  rw [Network.receive]
  simp [h.inbox]

theorem holds_register (n : Network) (new : NodeId) :
    (n.register new).1.Holds new n.inboxes.length [] :=
  ⟨by simp [register, IdMap.find?_insert], by simp [register]⟩

theorem Holds.register (h : n.Holds id inbox frames) (hne : id ≠ new) :
    (n.register new).1.Holds id inbox frames := by
  have hlength : inbox < n.inboxes.length := (List.getElem?_eq_some_iff.mp h.inbox).1
  constructor
  · rw [Network.register, IdMap.find?_insert, if_neg hne]
    exact h.latest
  · rw [Network.register, List.getElem?_append_left hlength]
    exact h.inbox

/-- The network holds just the messages that wait for the stations, and knows of nobody else. -/
structure Carries (n : Network) (stations : List Station) (flight : NodeId → List Message) :
    Prop where
  isolated : n.isolated = .empty
  inbox : ∀ st ∈ stations, n.Holds st.id st.inbox ((flight st.id).map Frame.encode)
  absent : ∀ id ∉ stations.map (·.id), n.latest.find? id = none

variable {stations stations' : List Station} {flight flight' : NodeId → List Message} {st : Station}
  {m : Message} {rest : List Message}

/-- Which inboxes there are is all that matters of the stations. -/
theorem Carries.same_inboxes (h : n.Carries stations flight)
    (same : stations'.map (fun st => (st.id, st.inbox)) =
      stations.map fun st => (st.id, st.inbox)) :
    n.Carries stations' flight where
  isolated := h.isolated
  inbox := by
    intro st' hst'
    have hmem := List.mem_map_of_mem (f := fun st : Station => (st.id, st.inbox)) hst'
    rw [same] at hmem
    obtain ⟨st, hst, heq⟩ := List.mem_map.mp hmem
    obtain ⟨hid, hinbox⟩ := Prod.mk.inj heq
    rw [← hid, ← hinbox]
    exact h.inbox st hst
  absent := by
    have hids := congrArg (List.map Prod.fst) same
    rw [List.map_map, List.map_map] at hids
    intro id hid
    exact h.absent id fun hold => hid (hids.symm ▸ hold)

theorem Carries.same_flight (h : n.Carries stations flight)
    (same : ∀ st ∈ stations, flight' st.id = flight st.id) : n.Carries stations flight' where
  isolated := h.isolated
  inbox := fun st hst => same st hst ▸ h.inbox st hst
  absent := h.absent

theorem Carries.modify (h : n.Carries stations flight) (hst : st ∈ stations)
    (change : List Bytes → List Bytes) {messages : List Message}
    (hchange : change ((flight st.id).map Frame.encode) = messages.map Frame.encode) :
    Carries
      { n with
        inboxes := n.inboxes.modify st.inbox fun b => { b with frames := change b.frames } }
      stations (Function.update flight st.id messages) where
  isolated := h.isolated
  inbox := by
    intro st' hst'
    have hholds := h.inbox st hst
    have hholds' := h.inbox st' hst'
    by_cases hid : st'.id = st.id
    · have hinbox : st'.inbox = st.inbox := by
        have hlatest := hholds'.latest
        rw [hid, hholds.latest] at hlatest
        exact (Option.some.inj hlatest).symm
      rw [hid, hinbox, Function.update_self, ← hchange]
      exact hholds.modify change
    · rw [Function.update_of_ne hid]
      exact hholds'.modify_other (hholds'.inbox_ne hholds hid) _
  absent := h.absent

/-- What is sent to a station joins what waits there; what is sent to anybody else is lost. -/
theorem Carries.send (h : n.Carries stations flight) (source target : NodeId) (m : Message) :
    (n.send source target (Frame.encode m)).1.Carries stations
      (Function.update flight target (flight target ++ [m])) := by
  by_cases known : target ∈ stations.map (·.id)
  · obtain ⟨st, hst, rfl⟩ := List.mem_map.mp known
    rw [(h.inbox st hst).send h.isolated]
    exact h.modify hst (· ++ [Frame.encode m]) (by simp)
  · rw [send_absent (h.absent target known)]
    refine h.same_flight fun st hst => Function.update_of_ne ?_ _ _
    rintro rfl
    exact known (List.mem_map_of_mem hst)

theorem Carries.receive (h : n.Carries stations flight) (hst : st ∈ stations)
    (first : flight st.id = m :: rest) :
    ∃ n', n.receive st.inbox = (n', .frame (Frame.encode m)) ∧
      n'.Carries stations (Function.update flight st.id rest) := by
  have hholds := h.inbox st hst
  rw [first, List.map_cons] at hholds
  exact ⟨_, hholds.receive_frame, h.modify hst (fun _ => rest.map Frame.encode) rfl⟩

/-- Letters join what waits for those whom they are sent to, in order. -/
theorem Carries.sendAll (h : n.Carries stations flight) (source : NodeId)
    (letters : List (NodeId × Message)) :
    (letters.foldl (fun n x => (n.send source x.1 (Frame.encode x.2)).1) n).Carries stations
      fun j => flight j ++ (letters.filter (·.1 = j)).map (·.2) := by
  induction letters generalizing n flight with
  | nil => simpa using h
  | cons x letters ih =>
    have hsent := ih (h.send source x.1 x.2)
    have hflight : (fun j => Function.update flight x.1 (flight x.1 ++ [x.2]) j ++
        (letters.filter (·.1 = j)).map (·.2)) =
          fun j => flight j ++ ((x :: letters).filter (·.1 = j)).map (·.2) := by
      funext j
      by_cases hj : x.1 = j
      · rw [List.filter_cons_of_pos (by simpa using hj), ← hj, Function.update_self]
        simp
      · rw [List.filter_cons_of_neg (by simpa using hj), Function.update_of_ne (Ne.symm hj)]
    rw [hflight] at hsent
    exact hsent

theorem Carries.register (h : n.Carries stations flight) (new : st.id ∉ stations.map (·.id))
    (inbox : st.inbox = n.inboxes.length) :
    (n.register st.id).1.Carries (stations ++ [st]) (Function.update flight st.id []) where
  isolated := h.isolated
  inbox := by
    intro st' hst'
    rcases List.mem_append.mp hst' with hold | hnew
    · have hid : st'.id ≠ st.id := fun hid => new (hid ▸ List.mem_map_of_mem hold)
      rw [Function.update_of_ne hid]
      exact (h.inbox st' hold).register hid
    · rw [List.mem_singleton.mp hnew, Function.update_self, inbox]
      exact n.holds_register st.id
  absent := by
    intro id hid
    rw [List.map_append, List.mem_append, not_or] at hid
    have hne : id ≠ st.id := fun heq => hid.2 (by simp [heq])
    rw [Network.register, IdMap.find?_insert, if_neg hne]
    exact h.absent id hid.1

end Elector.Network
