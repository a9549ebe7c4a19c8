import Mathlib.Algebra.GroupWithZero.Nat
import Mathlib.Algebra.Order.BigOperators.Group.List
import Elector.Proofs.Deeds

/-!
# Settling comes to an end

`Cluster.settle` lets stations take in frames, but no more of them than a bound that it reads off
the frames that wait. The bound is enough. A message weighs more than all that its receiver sends
when it handles it (`Node.weight_asks_lt`), so that with every frame that is taken in what waits
weighs less (`Shows.load_takeFrame`), and in the end nothing waits (`Shows.settle`).
-/

namespace Elector

/-- A bound on the messages that a message leads to among `size` members, itself included. -/
def Message.weight (size : Nat) : Message → Nat
  | voteRequest _ => 2 * size + 2
  | voteResponse _ => 2 * size + 1
  | appendEntries _ => 2
  | appendResponse _ => 1

def lettersWeight (size : Nat) (letters : List (NodeId × Message)) : Nat :=
  (letters.map (·.2.weight size)).sum

variable {size : Nat} {n n' : Node} {m : Message} {outputs : List Output}

theorem Message.weight_pos (size : Nat) (m : Message) : 0 < m.weight size := by
  cases m <;> exact Nat.succ_pos _

theorem Cluster.weight_encode (size : Nat) (m : Message) :
    weight size (Frame.encode m) = m.weight size := by
  rw [weight, Frame.decode_encode_self]
  cases m <;> rfl

namespace Node

theorem Move.weight_lt (h : Move (.message m) n n' outputs) (hsize : n.roster.size ≤ size) :
    lettersWeight size (Simulation.sendsOf outputs) < m.weight size := by
  have hnone : lettersWeight size [] < m.weight size := m.weight_pos size
  cases h with
  | idle => exact hnone
  | fault => exact hnone
  | beat event => cases event
  | stand event => cases event
  | standAlone event => cases event
  | grant event peer current gate recorded only =>
    cases event
    rw [sendsOf_append, sendsOf_timers only]
    exact Nat.lt_succ_self _
  | refuse event =>
    cases event
    exact Nat.lt_succ_self _
  | count => exact hnone
  | win event =>
    cases event
    have hpeers : n.roster.peers.length ≤ size :=
      Nat.le_trans (List.length_filter_le _ _) hsize
    have hround : lettersWeight size (Simulation.sendsOf n.announcement) =
        2 * n.roster.peers.length := by
      rw [sendsOf_announcement, lettersWeight, List.map_map]
      simp [Function.comp_def, Message.weight, Nat.mul_comm]
    rw [hround, Message.weight]
    omega
  | follow event peer current leads only =>
    cases event
    rw [sendsOf_append, sendsOf_timers only]
    exact Nat.lt_succ_self _
  | rebuff event =>
    cases event
    exact Nat.lt_succ_self _

theorem weight_asks_lt (n : Node) (m : Message) (hsize : n.roster.size ≤ size) :
    lettersWeight size (Simulation.sendsOf (n.asks (.message m))) < m.weight size := by
  rw [asks]
  cases hhandle : n.handle (.message m) with
  | mk n' result =>
    cases result with
    | error cause => exact m.weight_pos size
    | ok outputs =>
      obtain ⟨mid, before, after, caught, move, rfl⟩ := passes_of_ok hhandle
      rw [sendsOf_append, caught.sendsOf]
      exact move.weight_lt (caught.roster ▸ hsize)

end Node

/-! ## What waits in a network -/

namespace Network

def load (n : Network) (size : Nat) : Nat :=
  (n.inboxes.map fun b => (b.frames.map (Cluster.weight size)).sum).sum

theorem load_eq_foldl (n : Network) (size : Nat) :
    (n.inboxes.flatMap (·.frames)).foldl (fun bound f => bound + Cluster.weight size f) 0 =
      n.load size := by
  rw [← List.foldl_map (f := Cluster.weight size) (g := (· + ·)), ← List.sum_eq_foldl,
    List.map_flatMap, List.flatMap, List.sum_flatten, List.map_map]
  rfl

theorem sum_map_modify {α : Type} (value : α → Nat) (change : α → α) {l : List α} {k : Nat} {a : α}
    (h : l[k]? = some a) :
    ((l.modify k change).map value).sum + value a = (l.map value).sum + value (change a) := by
  induction l generalizing k with
  | nil => cases h
  | cons b rest ih =>
    cases k with
    | zero =>
      cases h
      simp
      omega
    | succ k =>
      have hrest := ih (k := k) (by simpa using h)
      simp only [List.modify_succ_cons, List.map_cons, List.sum_cons]
      omega

variable {n n' : Network} {inbox : Nat} {frame : Bytes}

theorem load_send_le (n : Network) (source target : NodeId) (frame : Bytes) (size : Nat) :
    (n.send source target frame).1.load size ≤ n.load size + Cluster.weight size frame := by
  rw [send]
  split
  · exact Nat.le_add_right _ _
  · split
    · exact Nat.le_add_right _ _
    · rename_i inbox _
      split
      · rename_i heq
        have hsum := sum_map_modify (fun b : Inbox => (b.frames.map (Cluster.weight size)).sum)
          (fun b => { b with frames := b.frames ++ [frame] }) heq
        simp only [List.map_append, List.sum_append, List.map_cons, List.map_nil, List.sum_cons,
          List.sum_nil] at hsum
        simp only [load]
        omega
      · exact Nat.le_add_right _ _

theorem load_receive (size : Nat) (h : n.receive inbox = (n', .frame frame)) :
    n'.load size + Cluster.weight size frame = n.load size := by
  rw [receive] at h
  split at h
  · cases h
  · rename_i b heq
    split at h
    · cases h
    · split at h
      · rename_i first rest hframes
        cases h
        have hsum := sum_map_modify (fun b : Inbox => (b.frames.map (Cluster.weight size)).sum)
          (fun b => { b with frames := rest }) heq
        simp only [hframes, List.map_cons, List.sum_cons] at hsum
        simp only [load]
        omega
      · split at h <;> cases h

theorem load_sendAll_le (n : Network) (source : NodeId) (letters : List (NodeId × Message))
    (size : Nat) :
    (letters.foldl (fun n x => (n.send source x.1 (Frame.encode x.2)).1) n).load size ≤
      n.load size + lettersWeight size letters := by
  induction letters generalizing n with
  | nil => exact Nat.le_refl _
  | cons x rest ih =>
    have hfirst := n.load_send_le source x.1 (Frame.encode x.2) size
    have hrest := ih (n.send source x.1 (Frame.encode x.2)).1
    rw [Cluster.weight_encode] at hfirst
    rw [List.foldl_cons]
    simp only [lettersWeight, List.map_cons, List.sum_cons] at hrest ⊢
    omega

end Network

/-! ## Taking in frames -/

namespace Cluster

variable {c c' : Cluster} {s : Scene} {settings : ClusterSettings} {st : Station} {place : Nat}

/-- With every frame that is taken in, what waits weighs less. -/
theorem Shows.load_takeFrame (h : c.Shows s) (hs : s.Orderly settings)
    (sizes : ∀ i p, s.process i = some p → p.node.roster.size ≤ size)
    (htake : c.takeFrame place = some c') : c'.network.load size < c.network.load size := by
  cases hst : c.stations[place]? with
  | none => simp [Cluster.takeFrame, hst] at htake
  | some st =>
    have hmem := List.mem_of_getElem? hst
    cases hflight : s.flight st.id with
    | nil =>
      rw [(h.takeFrame_none hst hflight).1] at htake
      cases htake
    | cons m rest =>
      obtain ⟨_, p, _, process⟩ := h.member st hmem
      obtain ⟨n, hreceive, _⟩ := h.network.receive hmem hflight
      rw [(h.takeFrame_eq hs hst process hreceive).1] at htake
      cases htake
      have hreceived := Network.load_receive size hreceive
      have hsent := n.load_sendAll_le st.id (Simulation.sendsOf (p.node.asks (.message m))) size
      have hless := p.node.weight_asks_lt m (sizes st.id p process)
      rw [weight_encode] at hreceived
      show Network.load
        ((p.react s.now (.message m)).2.foldl (fun n o => (n.send st.id o.1 o.2).1) n) size < _
      simp only [Process.sent_react, List.foldl_map]
      omega

/-- With as much fuel as what waits weighs, stations take in frames until nothing waits. -/
theorem Shows.takeFrames (h : c.Shows s) (hs : s.Orderly settings) (steady : settings.timing.Steady)
    (sizes : ∀ i p, s.process i = some p → p.node.roster.size ≤ size) {fuel : Nat}
    (enough : c.network.load size ≤ fuel) :
    ∃ places : List Nat, c.doesAll (places.map .take) = some (takeFrames fuel c) ∧
      (takeFrames fuel c).takeAny = none := by
  induction fuel generalizing c s with
  | zero =>
    refine ⟨[], rfl, ?_⟩
    rw [takeFrames]
    cases htake : c.takeAny with
    | none => rfl
    | some c₁ =>
      obtain ⟨place, _, hplace⟩ := List.exists_of_findSome?_eq_some htake
      have hless := h.load_takeFrame hs sizes hplace
      omega
  | succ fuel ih =>
    rw [takeFrames]
    cases htake : c.takeAny with
    | none => exact ⟨[], rfl, htake⟩
    | some c₁ =>
      obtain ⟨place, _, hplace⟩ := List.exists_of_findSome?_eq_some htake
      have hless := h.load_takeFrame hs sizes hplace
      have hdoes : c.does (.take place) = some c₁ := hplace
      rcases h.does hs hdoes with rfl | ⟨s₁, shift, h₁⟩
      · omega
      · have sizes₁ : ∀ i r, s₁.process i = some r → r.node.roster.size ≤ size := by
          intro i r hr
          obtain ⟨p, hp, hroster⟩ := shift.rosters hr
          exact hroster ▸ sizes i p hp
        obtain ⟨places, hall, idle⟩ := ih h₁ (shift.orderly hs steady) sizes₁ (by omega)
        refine ⟨place :: places, ?_, idle⟩
        rw [List.map_cons, Cluster.doesAll, hdoes]
        exact hall

theorem settle_eq (c : Cluster) :
    ∃ size, c.settle = takeFrames (c.network.load size) c ∧
      ∀ st ∈ c.stations, st.host.settings.roster.size ≤ size := by
  refine ⟨((c.stations.map (·.host.settings.roster.size)).max?).getD 0, ?_, ?_⟩
  · rw [settle]
    rw [Network.load_eq_foldl]
  · intro st hst
    have hmem := List.mem_map_of_mem (f := (·.host.settings.roster.size)) hst
    cases hmax : (c.stations.map (·.host.settings.roster.size)).max? with
    | none =>
      rw [List.max?_eq_none_iff.mp hmax] at hmem
      cases hmem
    | some most => exact (List.max?_eq_some_iff.mp hmax).2 _ hmem

/-- Settling is done in deeds, and leaves nothing that waits. -/
theorem Shows.settle (h : c.Shows s) (hs : s.Orderly settings) (steady : settings.timing.Steady) :
    ∃ places : List Nat, c.doesAll (places.map .take) = some c.settle ∧
      c.settle.takeAny = none := by
  obtain ⟨size, heq, hsizes⟩ := c.settle_eq
  rw [heq]
  refine h.takeFrames hs steady ?_ (Nat.le_refl (c.network.load size))
  intro i p hp
  obtain ⟨st, hst, rfl⟩ := h.complete i p hp
  rw [h.roster st hst p hp]
  exact hsizes st hst

end Cluster

end Elector
