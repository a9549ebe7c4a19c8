import Elector.Proofs.Mirroring
import Elector.Proofs.SoleLeader

/-!
# Election safety of the clusters that programs build

The node of an entry and its peers are found by ids, but one node is started per entry. Where the
ids of the entries differ, this makes no difference: whatever happens to the cluster, no two of its
stations ever lead one term, and so the program never finds several leaders
(`ClusterSettings.built_cluster_is_safe`). Settings are accepted whether or not the ids differ,
however. Of an id that is listed twice there are two nodes, each with a record of votes of its own,
and both may lead one term (`ClusterSettings.unsafe_twice`).
-/

namespace Elector

def Station.Leads (st : Station) (t : Term) : Prop := ∃ p ∈ st.host.process, p.node.Leads t

instance (st : Station) (t : Term) : Decidable (st.Leads t) :=
  inferInstanceAs (Decidable (∃ p ∈ st.host.process, p.node.Leads t))

namespace ClusterSettings

open Cluster (moveAll Reaches)

/-- Every listed node gets settings of its own. -/
def Accepted (settings : ClusterSettings) : Prop :=
  ∀ id ∈ settings.ids, ∃ node, settings.forNode id = .ok node

/-- Whatever happens to a cluster of these nodes, of two stations that lead one term, be it at two
moments, both are the same. -/
def Safe (settings : ClusterSettings) : Prop :=
  ∀ (clock : Clock) (draws : Nat → Nat → Nat) (before after : List Motion) (i j : Nat)
    (a b : Station) (t : Term),
    (moveAll settings draws before { clock }).stations[i]? = some a →
    (moveAll settings draws (before ++ after) { clock }).stations[j]? = some b →
    a.Leads t → b.Leads t → i = j

end ClusterSettings

/-! ## Leaders are at one place -/

namespace Cluster

variable {settings : ClusterSettings} {c : Cluster} {w : World} {place : Nat} {st : Station}
  {t : Term}

theorem Mirrors.leads (h : Mirrors settings c w) (hst : c.stations[place]? = some st)
    (leads : st.Leads t) : (w.nodes st.id).Leads t ∧ settings.ids[place]? = some st.id := by
  obtain ⟨p, hp, hnode, _⟩ := h.manned st (List.mem_of_getElem? hst)
  obtain ⟨p', hp', hleads⟩ := leads
  cases hp.symm.trans hp'
  refine ⟨hnode ▸ hleads, ?_⟩
  have hplace : (c.stations.map (·.id))[place]? = some st.id := by
    rw [List.getElem?_map, hst, Option.map_some]
  obtain ⟨rest, hrest⟩ := h.ids
  rw [← hrest, List.getElem?_append_left (List.getElem?_eq_some_iff.mp hplace).1, hplace]

theorem safe_of_distinct (distinct : settings.ids.Nodup) : settings.Safe := by
  intro clock draws before after i j a b t ha hb leads leads'
  have hstart : Mirrors settings { clock } (Run.idle settings.fresh_world).last :=
    mirrors_empty settings clock
  obtain ⟨run, _, hearlier⟩ := hstart.moveAll distinct draws before
  obtain ⟨run', hbegins, hlater⟩ := hearlier.moveAll distinct draws after
  have hboth : moveAll settings draws after (moveAll settings draws before { clock }) =
      moveAll settings draws (before ++ after) { clock } := List.foldl_append.symm
  rw [hboth] at hlater
  obtain ⟨hleads, hi⟩ := hearlier.leads ha leads
  obtain ⟨hleads', hj⟩ := hlater.leads hb leads'
  rw [Run.last, ← hbegins.world run.length (Nat.le_refl _)] at hleads
  -- in the longer run both nodes lead the term, so they are one node
  have hlisted : a.id ∈ IdSet.ofList settings.ids := IdSet.mem_ofList.mpr (List.mem_of_getElem? hi)
  have hlisted' : b.id ∈ IdSet.ofList settings.ids := IdSet.mem_ofList.mpr (List.mem_of_getElem? hj)
  have hid : a.id = b.id :=
    Run.leader_unique hbegins.length (Nat.le_refl _) hlisted hlisted' hleads hleads'
  have hlength : i < settings.ids.length := (List.getElem?_eq_some_iff.mp hi).1
  exact (List.getElem?_inj hlength distinct).mp (hi.trans (hid ▸ hj.symm))

end Cluster

/-! ## What the program finds -/

theorem Station.leads_of_status {st : Station} {s : Status} {t : Term}
    (answer : st.host.status? = some s) (leads : s.Leads t) : st.Leads t := by
  obtain ⟨p, hp, hstatus⟩ := Option.bind_eq_some_iff.mp answer
  rw [Process.status?] at hstatus
  split at hstatus
  · cases hstatus
    have hrole : p.node.role = .leader := of_decide_eq_true (Node.isLeader_iff.mpr leads.1)
    exact ⟨p, hp, hrole, leads.2⟩
  · cases hstatus

theorem ClusterOptions.statuses_eq (c : Cluster) :
    statuses c = c.stations.filterMap (·.host.status?) := by
  rw [statuses, Cluster.statuses, List.filterMap_map]
  rfl

namespace Cluster

variable {settings : ClusterSettings}

theorem ne_several_of_safe (safe : settings.Safe) (clock : Clock) (draws : Nat → Nat → Nat)
    (motions : List Motion) (t : Term) :
    soleLeader (ClusterOptions.statuses (moveAll settings draws motions { clock })) ≠
      .error (.several t) := by
  have halone : (moveAll settings draws motions { clock }).stations.Pairwise
      fun a b => ¬ (a.Leads t ∧ b.Leads t) := by
    rw [List.pairwise_iff_getElem]
    rintro i j hi hj hlt ⟨leads, leads'⟩
    have hsame : i = j := safe clock draws motions [] i j _ _ t (List.getElem?_eq_getElem hi)
      (by rw [List.append_nil]; exact List.getElem?_eq_getElem hj) leads leads'
    omega
  apply soleLeader_ne_several
  rw [ClusterOptions.statuses_eq, List.pairwise_filterMap]
  refine halone.imp fun hno s answer s' answer' leads => hno ⟨?_, ?_⟩
  · exact Station.leads_of_status answer leads.1
  · exact Station.leads_of_status answer' leads.2

/-- The program starts all nodes of accepted settings. -/
theorem startAll_accepted (accepted : settings.Accepted) {o : ClusterOptions}
    (memory : o.persist = false) (draws : Nat → Nat → Nat) (w : Surroundings) :
    ∃ motions, o.startAll settings draws w { clock := w.clock } settings.ids =
        (moveAll settings draws motions { clock := w.clock }, .ok ()) ∧
      (moveAll settings draws motions { clock := w.clock }).stations.map (·.id) =
        settings.ids := by
  cases hids : settings.ids with
  | nil => exact ⟨[], rfl, rfl⟩
  | cons id rest =>
    obtain ⟨node, hnode⟩ := accepted id (hids ▸ List.mem_cons_self ..)
    obtain ⟨_, hchecked, _⟩ := ClusterSettings.forNode_eq_ok.mp hnode
    rw [← hids]
    exact startAll_eq memory w hchecked rfl

end Cluster

namespace ClusterOptions

variable {settings : ClusterSettings} {o : ClusterOptions} {draws : Nat → Nat → Nat}
  {w : Surroundings} {c : Cluster} {cause : LeaderError}

/-- What is wrong with the leader is seen after the first round. -/
theorem soleLeader_of_run (read : o.settings w = .ok settings)
    (started : o.startAll settings draws w { clock := w.clock } settings.ids = (c, .ok ()))
    (ended : (o.run draws w).result = .error (.leader cause)) :
    soleLeader (statuses (c.advance o.settle.toNat)) = .error cause := by
  rw [run, read] at ended
  simp only [started] at ended
  split at ended
  · rename_i e he
    cases ended
    exact he
  · split at ended <;> cases ended

end ClusterOptions

namespace ClusterSettings

open Cluster (moveAll Reaches)

variable {settings : ClusterSettings}

theorem accepted_of_check (checked : settings.timing.check = .ok ()) : settings.Accepted :=
  fun id listed => ⟨settings.member id, forNode_eq_ok.mpr ⟨listed, checked, rfl⟩⟩

/-- **A cluster of accepted settings that list every id once is safe.** The program that keeps
nothing in files starts one node per entry, in the listed order and each on an empty record of its
own. What it does with them after that comes about by motions, as the start does, and whatever the
motions are, no term gets two leaders. So the program does not find several. -/
theorem built_cluster_is_safe (accepted : settings.Accepted) (distinct : settings.ids.Nodup) :
    settings.Safe ∧ ∀ (o : ClusterOptions), o.persist = false → ∀ draws w,
      (∃ motions, o.startAll settings draws w { clock := w.clock } settings.ids =
          (moveAll settings draws motions { clock := w.clock }, .ok ()) ∧
        (moveAll settings draws motions { clock := w.clock }).stations.map (·.id) =
          settings.ids) ∧
      (∀ c ms id, Reaches settings draws c (c.advance ms) ∧
        Reaches settings draws c (c.isolate id)) ∧
      (o.settings w = .ok settings →
        ∀ t, (o.run draws w).result ≠ .error (.leader (.several t))) := by
  have safe : settings.Safe := Cluster.safe_of_distinct distinct
  refine ⟨safe, fun o memory draws w => ?_⟩
  obtain ⟨motions, started, hids⟩ := Cluster.startAll_accepted accepted memory draws w
  refine ⟨⟨motions, started, hids⟩, fun c ms id => ?_, fun read t ended => ?_⟩
  · exact ⟨Cluster.reaches_advance settings draws c ms,
      Cluster.reaches_move settings draws c (.isolate id) (by simp)⟩
  · have hfound := ClusterOptions.soleLeader_of_run read started ended
    obtain ⟨more, _, hmore⟩ := Cluster.reaches_advance settings draws
      (moveAll settings draws motions { clock := w.clock }) o.settle.toNat
    have hall : moveAll settings draws (motions ++ more) { clock := w.clock } =
        (moveAll settings draws motions { clock := w.clock }).advance o.settle.toNat :=
      List.foldl_append.trans hmore
    rw [← hall] at hfound
    exact Cluster.ne_several_of_safe safe w.clock draws (motions ++ more) t hfound

/-! The first of three nodes is elected with the vote of the second. -/

def trioSettings : ClusterSettings := .within [1, 2, 3]

def trioElection : List Motion :=
  [.launch, .launch, .launch, .pass 300, .ring 0, .look 0, .fetch 1, .look 1, .fetch 0, .look 0]

theorem built_cluster_is_safe_trio :
    trioSettings.Accepted ∧ trioSettings.ids.Nodup ∧ ∃ a : Station,
      (moveAll trioSettings (fun _ _ => 0) trioElection {}).stations[0]? = some a ∧ a.Leads 1 ∧
      ∀ after j (b : Station),
        (moveAll trioSettings (fun _ _ => 0) (trioElection ++ after) {}).stations[j]? = some b →
        b.Leads 1 → 0 = j := by
  have accepted : trioSettings.Accepted := accepted_of_check rfl
  have distinct : trioSettings.ids.Nodup := by decide
  have helected : ∃ a ∈ (moveAll trioSettings (fun _ _ => 0) trioElection {}).stations[0]?,
      a.Leads 1 := by
    decide +kernel
  obtain ⟨a, ha, leads⟩ := helected
  refine ⟨accepted, distinct, a, ha, leads, fun after j b hb leads' => ?_⟩
  exact (built_cluster_is_safe accepted distinct).1 {} (fun _ _ => 0) trioElection
    after 0 j a b 1 ha hb leads leads'

/-! Two nodes of one id. Each takes itself for the only member, and so for a majority. -/

def twiceSettings : ClusterSettings where
  nodes := [⟨1, "a"⟩, ⟨1, "b"⟩]
  timing := { electionMin := 5, electionMax := 5, heartbeat := 1 }

def twiceElection : List Motion :=
  [.launch, .launch, .pass 5, .ring 0, .look 0, .ring 1, .look 1]

theorem unsafe_twice :
    twiceSettings.Accepted ∧ twiceSettings.ids ≠ [] ∧
      (∃ a b : Station,
        (moveAll twiceSettings (fun _ _ => 0) twiceElection {}).stations = [a, b] ∧
        a.Leads 1 ∧ b.Leads 1) ∧
      ¬ twiceSettings.Safe ∧
      ∃ c : Cluster,
        ({} : ClusterOptions).startAll twiceSettings (fun _ _ => 0) {} {} twiceSettings.ids =
          (c, .ok ()) ∧
        soleLeader (ClusterOptions.statuses (c.advance 5)) = .error (.several 1) := by
  have helected : ∃ a ∈ (moveAll twiceSettings (fun _ _ => 0) twiceElection {}).stations[0]?,
      ∃ b ∈ (moveAll twiceSettings (fun _ _ => 0) twiceElection {}).stations[1]?,
        (moveAll twiceSettings (fun _ _ => 0) twiceElection {}).stations.length = 2 ∧
        a.Leads 1 ∧ b.Leads 1 := by
    decide +kernel
  obtain ⟨a, ha, b, hb, hlength, leads, leads'⟩ := helected
  have hstations : (moveAll twiceSettings (fun _ _ => 0) twiceElection {}).stations = [a, b] :=
    List.ext_getElem? fun k => by
      match k with
      | 0 => exact ha
      | 1 => exact hb
      | k + 2 => simp [hlength]
  have accepted : twiceSettings.Accepted := accepted_of_check rfl
  refine ⟨accepted, by decide, ⟨a, b, hstations, leads, leads'⟩, fun safe => ?_, _, rfl, rfl⟩
  have hsame := safe {} (fun _ _ => 0) twiceElection [] 0 1 a b 1 ha hb leads leads'
  cases hsame

end ClusterSettings

end Elector
