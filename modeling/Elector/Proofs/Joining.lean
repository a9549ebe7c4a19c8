import Mathlib.Data.List.Nodup
import Elector.Proofs.Clock
import Elector.Proofs.Reachable

/-!
# Members join

A `Seat` is what a listed member is started on: its settings, any choices of election delays and a
storage that can be read. All that is known of the storage is that the ballots load; it may hold any
record, and may refuse to be written.

Members may join a cluster at any time, each once, and in between deeds are done in any order. What
comes about in this way is a `Prompt` cluster, and it shows a scene in order (`Prompt.shows`). The
clock of a prompt cluster keeps it prompt (`Prompt.advance`).
-/

namespace Elector

/-! ## What the settings say -/

theorem Timing.steady_of_check {t : Timing} (h : t.check = .ok ()) : t.Steady := by
  unfold check at h
  split at h
  · cases h
  rename_i some
  split at h
  · cases h
  split at h
  · cases h
  rename_i fast
  refine ⟨?_, UInt64.lt_iff_toNat_lt.mp (UInt64.not_le.mp fast)⟩
  apply Nat.pos_of_ne_zero
  intro hzero
  exact some (Or.inr (UInt64.toNat_inj.mp hzero))

namespace ClusterSettings

variable {settings : ClusterSettings} {id j : NodeId} {node : NodeSettings}

/-- The settings of a member, whether or not it is listed. -/
def member (settings : ClusterSettings) (id : NodeId) : NodeSettings where
  id := id
  dataDir := joinPath settings.dataDir s!"node-{id}"
  peers := .ofList ((settings.nodes.filter (·.id ≠ id)).map fun p => (p.id, p.address))
  timing := settings.timing

theorem forNode_eq_ok :
    settings.forNode id = .ok node ↔
      id ∈ settings.ids ∧ settings.timing.check = .ok () ∧ settings.member id = node := by
  rw [forNode]
  split
  · rename_i listed
    cases settings.timing.check with
    | error cause => simp
    | ok => simp [listed, member]
  · rename_i unlisted
    simp [unlisted]

theorem peers_member : j ∈ (settings.member id).roster.peers ↔ j ∈ settings.ids ∧ j ≠ id := by
  have hkeys : j ∈ (settings.member id).peers.keys ↔ j ∈ settings.ids ∧ j ≠ id := by
    rw [member, IdMap.mem_keys_ofList]
    simp only [ids, List.mem_map, List.mem_filter, decide_eq_true_eq]
    constructor
    · rintro ⟨_, ⟨peer, ⟨listed, other⟩, rfl⟩, rfl⟩
      exact ⟨⟨peer, listed, rfl⟩, other⟩
    · rintro ⟨⟨peer, listed, rfl⟩, other⟩
      exact ⟨_, ⟨peer, ⟨listed, other⟩, rfl⟩, rfl⟩
  have hself : (settings.member id).roster.self = id := rfl
  have hmembers : j ∈ (settings.member id).roster.members ↔
      j = id ∨ j ∈ (settings.member id).peers.keys := Roster.mem_members_of
  rw [Roster.mem_peers, hself, hmembers, hkeys]
  constructor
  · rintro ⟨rfl | hother, hne⟩
    · exact absurd rfl hne
    · exact hother
  · exact fun hother => ⟨Or.inr hother, hother.2⟩

end ClusterSettings

/-! ## Seats -/

/-- A listed member with what its process is started on. -/
structure Seat (settings : ClusterSettings) where
  node : NodeSettings
  draw : Nat → Nat
  storage : Storage
  listed : settings.forNode node.id = .ok node
  loads : storage.outage.loads = false

namespace Seat

variable {settings : ClusterSettings}

def id (seat : Seat settings) : NodeId := seat.node.id

def process (seat : Seat settings) (clock : Clock) (now : Nat) : Process where
  node := { Node.reborn seat.node.roster seat.storage with storage := seat.storage }
  timer := Timer.awaitElection { timing := settings.timing, draw := seat.draw, clock } now

def fresh (id : NodeId) (draw : Nat → Nat) (listed : id ∈ settings.ids)
    (accepted : settings.timing.check = .ok ()) : Seat settings where
  node := settings.member id
  draw := draw
  storage := {}
  listed := ClusterSettings.forNode_eq_ok.mpr ⟨listed, accepted, rfl⟩
  loads := rfl

def host (seat : Seat settings) (clock : Clock) (now : Nat) : Host where
  settings := seat.node
  draw := seat.draw
  idle := seat.storage
  process := some (seat.process clock now)
  clock := clock
  now := now

theorem listed_id (seat : Seat settings) : seat.id ∈ settings.ids :=
  (ClusterSettings.forNode_eq_ok.mp seat.listed).1

theorem accepted (seat : Seat settings) : settings.timing.check = .ok () :=
  (ClusterSettings.forNode_eq_ok.mp seat.listed).2.1

theorem member_id (seat : Seat settings) : settings.member seat.id = seat.node :=
  (ClusterSettings.forNode_eq_ok.mp seat.listed).2.2

theorem starts (seat : Seat settings) (clock : Clock) (now : Nat) :
    Process.start seat.node seat.storage clock seat.draw now = .ok (seat.process clock now) := by
  have times : seat.node.timing = settings.timing := by rw [← seat.member_id]; rfl
  simp only [Process.start, times, seat.accepted, Node.start_eq _ seat.loads]
  rfl

theorem host_start (seat : Seat settings) (clock : Clock) (now : Nat) :
    Host.start { settings := seat.node, draw := seat.draw, idle := seat.storage, clock, now } =
      (seat.host clock now, .ok ()) := by
  simp only [Host.start, Host.storage, seat.starts clock now]
  rfl

theorem due_le (seat : Seat settings) {clock : Clock} (punctual : clock.Punctual) (now : Nat) :
    now ≤ (seat.process clock now).due := by
  show now ≤ clock.waitEnd _ now
  rw [punctual]
  exact Nat.le_add_right ..

end Seat

/-! ## Joining -/

namespace Cluster

variable {settings : ClusterSettings} {clock : Clock} {c c' : Cluster} {s : Scene}
  {seat : Seat settings}

def enlist (c : Cluster) (seat : Seat settings) : Cluster :=
  (c.join seat.node seat.draw (.ok seat.storage)).1

def enrol (c : Cluster) (seat : Seat settings) : Cluster where
  network := (c.network.register seat.id).1
  stations := c.stations ++ [⟨seat.host c.clock c.now, c.network.inboxes.length⟩]
  clock := c.clock
  now := c.now

theorem join_eq (c : Cluster) (seat : Seat settings) :
    c.join seat.node seat.draw (.ok seat.storage) = ((c.enrol seat).settle, .ok ()) := by
  simp only [join, seat.host_start c.clock c.now]
  rfl

theorem Shows.enrol (h : c.Shows s) (new : seat.id ∉ c.stations.map (·.id)) :
    (c.enrol seat).Shows (s.enters seat.id (seat.process c.clock s.now)) := by
  have hother : ∀ st ∈ c.stations, st.id ≠ seat.id :=
    fun st hst hid => new (hid ▸ List.mem_map_of_mem hst)
  have hself := s.enters_self seat.id (seat.process c.clock s.now)
  constructor
  · exact h.punctual
  · exact h.now
  · intro st hst
    rcases List.mem_append.mp hst with hold | hnew
    · rw [Scene.enters_other s _ (hother st hold)]
      exact h.member st hold
    · rw [List.mem_singleton.mp hnew]
      refine ⟨h.now, seat.process c.clock c.now, rfl, ?_⟩
      rw [h.now]
      exact hself
  · intro st hst p hp
    rcases List.mem_append.mp hst with hold | hnew
    · rw [Scene.enters_other s _ (hother st hold)] at hp
      exact h.roster st hold p hp
    · rw [List.mem_singleton.mp hnew] at hp ⊢
      cases hself.symm.trans hp
      rfl
  · intro i p hp
    by_cases hi : i = seat.id
    · exact ⟨_, List.mem_append_right _ (List.mem_singleton_self _), hi.symm⟩
    · rw [Scene.enters_other s _ hi] at hp
      obtain ⟨st, hst, hid⟩ := h.complete i p hp
      exact ⟨st, List.mem_append_left _ hst, hid⟩
  · have hids : (c.enrol seat).stations.map (·.id) = (c.stations.map (·.id)).concat seat.id := by
      rw [Cluster.enrol, List.map_append, List.concat_eq_append]
      rfl
    rw [hids]
    exact List.Nodup.concat new h.distinct
  · have hnew : Station.id ⟨seat.host c.clock c.now, c.network.inboxes.length⟩ ∉
        c.stations.map (·.id) := new
    exact h.network.register hnew rfl

theorem orderly_enters (hs : s.Orderly settings) (punctual : clock.Punctual)
    (seat : Seat settings) (new : s.process seat.id = none) :
    (s.enters seat.id (seat.process clock s.now)).Orderly settings := by
  have hm : s.Manned settings seat.id (seat.process clock s.now) := {
    id := rfl
    peers := by
      intro j
      rw [← ClusterSettings.peers_member, seat.member_id]
      rfl
    running := rfl
    idle := rfl
    armed := Process.armed_start (seat.starts clock s.now)
    times := rfl
    punctual := punctual
    leader := by rintro ⟨⟩
    due := seat.due_le punctual s.now
    near := by rintro ⟨⟩ }
  exact hs.enters new seat.listed_id hm rfl rfl

/-- A cluster that a member joins goes on to show a scene in order, in which nothing waits. -/
theorem Shows.enlist (h : c.Shows s) (hs : s.Orderly settings) (steady : settings.timing.Steady)
    (new : seat.id ∉ c.stations.map (·.id)) :
    (∃ s', (c.enlist seat).Shows s' ∧ s'.Orderly settings) ∧ (c.enlist seat).takeAny = none := by
  have hnone : s.process seat.id = none := by
    cases hp : s.process seat.id with
    | none => rfl
    | some p =>
      obtain ⟨st, hst, hid⟩ := h.complete seat.id p hp
      exact absurd (hid ▸ List.mem_map_of_mem hst) new
  have hshows := h.enrol new
  have horderly := orderly_enters hs h.punctual seat hnone
  obtain ⟨places, hsettle, idle⟩ := hshows.settle horderly steady
  obtain ⟨s', h', hs', _⟩ := hshows.doesAll horderly steady
    (fun _ _ _ _ (_ : True) => trivial) trivial hsettle
  rw [Cluster.enlist, join_eq]
  exact ⟨⟨s', h', hs'⟩, idle⟩

/-- The clusters of members that have joined one by one, in which messages take no time. -/
inductive Prompt (settings : ClusterSettings) (clock : Clock) : Cluster → Prop
  | empty (now : Nat) : Prompt settings clock { clock, now }
  | enlist {c : Cluster} (prompt : Prompt settings clock c) (seat : Seat settings)
      (new : seat.id ∉ c.stations.map (·.id)) : Prompt settings clock (c.enlist seat)
  | deed {c c' : Cluster} (prompt : Prompt settings clock c) {d : Deed}
      (does : c.does d = some c') : Prompt settings clock c'

theorem Prompt.deeds (h : c.Prompt settings clock) {deeds : List Deed}
    (does : c.doesAll deeds = some c') : c'.Prompt settings clock := by
  induction deeds generalizing c with
  | nil =>
    cases does
    exact h
  | cons d rest ih =>
    obtain ⟨c₁, hd, others⟩ := Option.bind_eq_some_iff.mp does
    exact ih (h.deed hd) others

theorem shows_empty (punctual : clock.Punctual) (now : Nat) :
    Shows { clock, now } { now, process := fun _ => none, flight := fun _ => [] } where
  punctual := punctual
  now := rfl
  member := fun _ h => absurd h List.not_mem_nil
  roster := fun _ h => absurd h List.not_mem_nil
  complete := by rintro _ _ ⟨⟩
  distinct := List.nodup_nil
  network := ⟨rfl, fun _ h => absurd h List.not_mem_nil, fun _ _ => rfl⟩

theorem orderly_empty (settings : ClusterSettings) (now : Nat) :
    Scene.Orderly settings { now, process := fun _ => none, flight := fun _ => [] } where
  members := by rintro _ _ ⟨⟩
  manned := by rintro _ _ ⟨⟩
  vouched := fun _ _ h => absurd h List.not_mem_nil
  followed := by rintro _ _ _ ⟨⟩
  prompt := by rintro _ _ _ _ ⟨⟩

/-- A prompt cluster shows a scene in order. -/
theorem Prompt.shows (h : c.Prompt settings clock) (steady : settings.timing.Steady)
    (punctual : clock.Punctual) : ∃ s, c.Shows s ∧ s.Orderly settings := by
  induction h with
  | empty now => exact ⟨_, shows_empty punctual now, orderly_empty settings now⟩
  | @enlist c _ seat new ih =>
    obtain ⟨s, hc, hs⟩ := ih
    exact (hc.enlist hs steady new).1
  | deed _ does ih =>
    obtain ⟨s, hc, hs⟩ := ih
    rcases hc.does hs does with rfl | ⟨s', shift, h'⟩
    · exact ⟨s, hc, hs⟩
    · exact ⟨s', h', shift.orderly hs steady⟩

/-- A prompt cluster stays one while its clock runs. -/
theorem Prompt.advance (h : c.Prompt settings clock) (steady : settings.timing.Steady)
    (punctual : clock.Punctual) (idle : c.takeAny = none) (ms : Nat) :
    (c.advance ms).Prompt settings clock ∧ (c.advance ms).takeAny = none := by
  obtain ⟨s, hc, hs⟩ := h.shows steady punctual
  obtain ⟨deeds, hdone, _, idle'⟩ := hc.advance hs steady idle ms
  exact ⟨h.deeds hdone, idle'⟩

end Cluster

end Elector
