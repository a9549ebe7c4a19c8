import Elector.Proofs.Election
import Elector.Proofs.Membership
import Elector.Proofs.Motion

/-!
# A cluster as a world of nodes

What happens to a cluster whose listed ids all differ is a run of its nodes (`Mirrors.moveAll`).
Every node has at most one process then, so a world can say for each id what its node is like, also
before its process is started. A motion in which a process reacts to an event is a turn of that
node; all others leave the nodes as they are. The messages that wait in inboxes and queues are among
those that were sent to the node that will get them (`Network.Truthful`).
-/

namespace Elector

/-! ## Runs that go on -/

namespace Run

variable {members : IdSet}

def last (run : Run members) : World := run.world run.length

structure Begins (run run' : Run members) : Prop where
  length : run.length ≤ run'.length
  world : ∀ k ≤ run.length, run'.world k = run.world k

theorem Begins.refl (run : Run members) : run.Begins run := ⟨Nat.le_refl _, fun _ _ => rfl⟩

theorem Begins.trans {run run' run'' : Run members} (h : run.Begins run') (h' : run'.Begins run'') :
    run.Begins run'' where
  length := Nat.le_trans h.length h'.length
  world k hk := (h'.world k (Nat.le_trans hk h.length)).trans (h.world k hk)

def extend (run : Run members) (i : NodeId) (t : Turn) (w : World) (outputs : List Output)
    (hi : i ∈ members) (delivers : run.last.Delivers i t)
    (steps : run.last.step i t = some (w, outputs)) : Run members where
  length := run.length + 1
  world k := if k ≤ run.length then run.world k else w
  mover k := if k < run.length then run.mover k else i
  turn k := if k < run.length then run.turn k else t
  outputs k := if k < run.length then run.outputs k else outputs
  fresh := by simpa using run.fresh
  member k hk := by
    by_cases hlt : k < run.length
    · simpa [hlt] using run.member k hlt
    · simpa [hlt] using hi
  delivers k hk := by
    by_cases hlt : k < run.length
    · simpa [hlt, Nat.le_of_lt hlt] using run.delivers k hlt
    · obtain rfl : k = run.length := by omega
      simpa [last] using delivers
  steps k hk := by
    by_cases hlt : k < run.length
    · simpa [hlt, Nat.le_of_lt hlt, Nat.add_one_le_iff] using run.steps k hlt
    · obtain rfl : k = run.length := by omega
      simpa [last] using steps

def idle {w : World} (fresh : w.Fresh members) : Run members where
  length := 0
  world _ := w
  mover _ := 0
  turn _ := .outside (w.nodes 0).storage.log (w.nodes 0).storage.disk
  outputs _ := []
  fresh := fresh
  member _ hk := absurd hk (Nat.not_lt_zero _)
  delivers _ hk := absurd hk (Nat.not_lt_zero _)
  steps _ hk := absurd hk (Nat.not_lt_zero _)

variable {i : NodeId} {t : Turn} {w : World} {outputs : List Output}

theorem begins_extend (run : Run members) (hi : i ∈ members) (delivers : run.last.Delivers i t)
    (steps : run.last.step i t = some (w, outputs)) :
    run.Begins (run.extend i t w outputs hi delivers steps) where
  length := Nat.le_succ _
  world _ hk := if_pos hk

theorem last_extend (run : Run members) (hi : i ∈ members) (delivers : run.last.Delivers i t)
    (steps : run.last.step i t = some (w, outputs)) :
    (run.extend i t w outputs hi delivers steps).last = w :=
  if_neg (Nat.not_succ_le_self _)

end Run

/-! ## Frames that were sent -/

namespace Network

def owners (n : Network) : List NodeId := n.inboxes.map (·.owner)

/-- Whatever waits in an inbox is a message that was sent to its owner. -/
structure Truthful (n : Network) (sent : List (NodeId × Message)) : Prop where
  latest : ∀ id k, n.latest.find? id = some k → n.owners[k]? = some id
  frames : ∀ b ∈ n.inboxes, ∀ f ∈ b.frames, ∃ m, f = Frame.encode m ∧ (b.owner, m) ∈ sent

variable {n n' : Network} {sent sent' : List (NodeId × Message)} {source target id : NodeId}
  {m : Message} {inbox : Nat} {frame : Bytes}

theorem Truthful.mono (h : n.Truthful sent) (more : ∀ x ∈ sent, x ∈ sent') : n.Truthful sent' where
  latest := h.latest
  frames b hb f hf := by
    obtain ⟨m, hf, hm⟩ := h.frames b hb f hf
    exact ⟨m, hf, more _ hm⟩

theorem owners_modify (n : Network) (inbox : Nat) {change : Inbox → Inbox}
    (owner : ∀ b, (change b).owner = b.owner) :
    owners { n with inboxes := n.inboxes.modify inbox change } = n.owners := by
  apply List.ext_getElem?
  intro k
  simp only [owners, List.getElem?_map, List.getElem?_modify]
  cases n.inboxes[k]? with
  | none => rfl
  | some b => by_cases hk : inbox = k <;> simp [hk, owner]

theorem Truthful.modify (h : n.Truthful sent) {change : Inbox → Inbox}
    (owner : ∀ b, (change b).owner = b.owner)
    (frames : ∀ b, n.inboxes[inbox]? = some b → ∀ f ∈ (change b).frames,
      f ∈ b.frames ∨ ∃ m, f = Frame.encode m ∧ (b.owner, m) ∈ sent) :
    Truthful { n with inboxes := n.inboxes.modify inbox change } sent where
  latest id k hk := by
    rw [owners_modify n inbox owner]
    exact h.latest id k hk
  frames b hb f hf := by
    obtain ⟨k, hk⟩ := List.mem_iff_getElem?.mp hb
    rw [List.getElem?_modify] at hk
    obtain ⟨b', hb', rfl⟩ := Option.map_eq_some_iff.mp hk
    by_cases hinbox : inbox = k
    · subst hinbox
      rw [if_pos rfl] at hf ⊢
      rw [owner]
      rcases frames b' hb' f hf with hold | hnew
      · exact h.frames b' (List.mem_of_getElem? hb') f hold
      · exact hnew
    · rw [if_neg hinbox] at hf ⊢
      exact h.frames b' (List.mem_of_getElem? hb') f hf

/-- A message that was sent to a member gets into its inbox, or is lost. -/
theorem Truthful.send (h : n.Truthful sent) (source : NodeId) (hm : (target, m) ∈ sent) :
    (n.send source target (Frame.encode m)).1.Truthful sent ∧
      (n.send source target (Frame.encode m)).1.owners = n.owners := by
  rw [Network.send]
  split
  · exact ⟨h, rfl⟩
  · split
    · exact ⟨h, rfl⟩
    · rename_i inbox hlatest
      split
      · refine ⟨h.modify (fun _ => rfl) fun b hb f hf => ?_, owners_modify n inbox fun _ => rfl⟩
        have howner := h.latest target inbox hlatest
        rw [owners, List.getElem?_map, hb, Option.map_some, Option.some.injEq] at howner
        rcases List.mem_append.mp hf with hold | hnew
        · exact Or.inl hold
        · exact Or.inr ⟨m, List.mem_singleton.mp hnew, howner ▸ hm⟩
      · exact ⟨h, rfl⟩

theorem Truthful.sendAll (h : n.Truthful sent) (source : NodeId)
    {letters : List (NodeId × Message)} (hletters : ∀ x ∈ letters, x ∈ sent) :
    (letters.foldl (fun n x => (n.send source x.1 (Frame.encode x.2)).1) n).Truthful sent ∧
      (letters.foldl (fun n x => (n.send source x.1 (Frame.encode x.2)).1) n).owners =
        n.owners := by
  induction letters generalizing n with
  | nil => exact ⟨h, rfl⟩
  | cons x letters ih =>
    rw [List.forall_mem_cons] at hletters
    have hmem : (x.1, x.2) ∈ sent := hletters.1
    obtain ⟨hfirst, howners⟩ := h.send source hmem
    obtain ⟨hrest, howners'⟩ := ih hfirst hletters.2
    exact ⟨hrest, howners'.trans howners⟩

theorem Truthful.receive (h : n.Truthful sent) (hreceive : n.receive inbox = (n', .frame frame)) :
    n'.Truthful sent ∧ n'.owners = n.owners ∧
      ∃ id m, n.owners[inbox]? = some id ∧ frame = Frame.encode m ∧ (id, m) ∈ sent := by
  rw [Network.receive] at hreceive
  split at hreceive
  · cases hreceive
  · rename_i b hb
    split at hreceive
    · cases hreceive
    · split at hreceive
      · rename_i first rest hframes
        cases hreceive
        refine ⟨h.modify (fun _ => rfl) fun b' hb' f hf => ?_,
          owners_modify n inbox fun _ => rfl, ?_⟩
        · cases hb.symm.trans hb'
          exact Or.inl (hframes ▸ List.mem_cons_of_mem _ hf)
        · obtain ⟨m, hm, hsent⟩ :=
            h.frames b (List.mem_of_getElem? hb) frame (hframes ▸ List.mem_cons_self ..)
          exact ⟨b.owner, m, by rw [owners, List.getElem?_map, hb, Option.map_some], hm, hsent⟩
      · obtain ⟨_, hnone⟩ := Prod.mk.inj hreceive
        split at hnone <;> cases hnone

theorem Truthful.close (h : n.Truthful sent) (inbox : Nat) :
    (n.close inbox).Truthful sent ∧ (n.close inbox).owners = n.owners :=
  ⟨h.modify (fun _ => rfl) fun _ _ _ hf => absurd hf List.not_mem_nil,
    owners_modify n inbox fun _ => rfl⟩

theorem Truthful.register (h : n.Truthful sent) (id : NodeId) :
    (n.register id).1.Truthful sent ∧ (n.register id).1.owners = n.owners ++ [id] := by
  have howners : (n.register id).1.owners = n.owners ++ [id] := by
    rw [Network.register, owners, List.map_append]
    rfl
  refine ⟨⟨fun id' k hk => ?_, fun b hb f hf => ?_⟩, howners⟩
  · rw [howners]
    rw [Network.register, IdMap.find?_insert] at hk
    split at hk
    · rename_i hid
      have hlength : n.owners.length = k := by
        rw [owners, List.length_map]
        exact Option.some.inj hk
      rw [← hlength, hid, List.getElem?_concat_length]
    · have hold := h.latest id' k hk
      rw [List.getElem?_append_left (List.getElem?_eq_some_iff.mp hold).1, hold]
  · rcases List.mem_append.mp hb with hold | hnew
    · exact h.frames b hold f hf
    · rw [List.mem_singleton.mp hnew] at hf
      cases hf

end Network

/-! ## A turn of a process -/

namespace Node

theorem turn_handle (n : Node) (e : Event) :
    n.turn (.handle e n.storage.outage) = some ((n.handle e).1, n.asks e) := by
  have hself : n.under n.storage.outage = n := rfl
  rw [turn, hself, asks]
  cases n.handle e with
  | mk n' result => cases result <;> rfl

end Node

namespace Process

variable {p : Process} {i : Incoming} {e : Event} {m : Message}

theorem take_none (h : p.event? i = none) (now : Nat) :
    (p.take now i).1.node = p.node ∧ (p.take now i).2 = [] ∧
      ∀ m, .message m ∈ (p.take now i).1.waiting → .message m ∈ p.waiting := by
  cases i with
  | message m => cases h
  | firing f =>
    rw [event?] at h
    split at h
    · cases h
    · rename_i hstale
      rw [take_firing, if_neg hstale]
      exact ⟨rfl, rfl, fun _ hm => hm⟩
  | query => exact ⟨rfl, rfl, fun _ hm => hm⟩
  | shutdown => exact ⟨rfl, rfl, fun _ hm => absurd hm List.not_mem_nil⟩

theorem eq_of_event?_message (h : p.event? i = some (.message m)) : i = .message m := by
  cases i with
  | message m' =>
    cases h
    rfl
  | firing f =>
    rw [event?] at h
    split at h
    · cases hkind : f.kind <;> simp [AlarmKind.event, hkind] at h
    · cases h
  | query => cases h
  | shutdown => cases h

theorem waiting_react (p : Process) (now : Nat) (e : Event) :
    (p.react now e).1.waiting = p.waiting := (p.rearmed_react now e).waiting

/-- To look at an item is to react to an event that it brings, or changes nothing that matters. -/
theorem next_cases (p : Process) (now : Nat) :
    ((p.next now).1.node = p.node ∧ (p.next now).2 = [] ∧
      ∀ m, .message m ∈ (p.next now).1.waiting → .message m ∈ p.waiting) ∨
    ∃ (q : Process) (e : Event), p.next now = q.react now e ∧ q.node = p.node ∧
      (∀ m, .message m ∈ q.waiting → .message m ∈ p.waiting) ∧
      ∀ m, e = .message m → .message m ∈ p.waiting := by
  cases hqueue : p.waiting with
  | nil =>
    have hnext : p.next now = (p, []) := by rw [next, hqueue]
    rw [hnext]
    exact Or.inl ⟨rfl, rfl, fun m hm => hqueue ▸ hm⟩
  | cons i rest =>
    let q : Process := { p with waiting := rest }
    have hnext : p.next now = q.take now i := by rw [next, hqueue]
    rw [hnext]
    cases hevent : q.event? i with
    | none =>
      obtain ⟨hnode, hsends, hwaiting⟩ := take_none hevent now
      exact Or.inl ⟨hnode, hsends, fun m hm => List.mem_cons_of_mem _ (hwaiting m hm)⟩
    | some e =>
      refine Or.inr ⟨q, e, take_of_event hevent now, rfl, fun m => List.mem_cons_of_mem _, ?_⟩
      rintro m rfl
      rw [eq_of_event?_message hevent]
      exact List.mem_cons_self ..

theorem message_mem_hand (hm : .message m ∈ (p.hand i).waiting) :
    .message m ∈ p.waiting ∨ i = .message m := by
  rw [hand] at hm
  split at hm
  · rcases List.mem_append.mp hm with hold | hnew
    · exact Or.inl hold
    · exact Or.inr (List.mem_singleton.mp hnew).symm
  · exact Or.inl hm

theorem node_ring (p : Process) (now : Nat) : (p.ring now).node = p.node := by
  rw [ring]
  split <;> rfl

theorem message_mem_ring {now : Nat} (hm : .message m ∈ (p.ring now).waiting) :
    .message m ∈ p.waiting := by
  rw [ring] at hm
  split at hm
  · rcases List.mem_append.mp hm with hold | hnew
    · exact hold
    · cases List.mem_singleton.mp hnew
  · exact hm

theorem node_hand (p : Process) (i : Incoming) : (p.hand i).node = p.node := by
  rw [hand]
  split <;> rfl

end Process

/-! ## A cluster and its world -/

def ClusterSettings.world (settings : ClusterSettings) : World where
  nodes id := Node.reborn (settings.member id).roster {}
  sent := []

theorem ClusterSettings.fresh_world (settings : ClusterSettings) :
    settings.world.Fresh (.ofList settings.ids) where
  node id _ := ⟨(settings.member id).roster, {}, ⟨rfl, rfl, Storage.backed_of_memory rfl⟩, rfl⟩
  id _ _ := rfl
  members id hid := IdSet.ext fun v => by
    rw [IdSet.mem_ofList] at hid ⊢
    exact mem_members hid
  sent := rfl

namespace Cluster

/-- The nodes of the cluster are those of the world, and what is on its way was sent there. -/
structure Mirrors (settings : ClusterSettings) (c : Cluster) (w : World) : Prop where
  ids : c.stations.map (·.id) <+: settings.ids
  manned : ∀ st ∈ c.stations, ∃ p, st.host.process = some p ∧ p.node = w.nodes st.id ∧
    ∀ m, .message m ∈ p.waiting → (st.id, m) ∈ w.sent
  unmanned : ∀ id ∈ settings.ids, id ∉ c.stations.map (·.id) →
    w.nodes id = Node.reborn (settings.member id).roster {}
  inbox : ∀ st ∈ c.stations, c.network.owners[st.inbox]? = some st.id
  network : c.network.Truthful w.sent

variable {settings : ClusterSettings} {draws : Nat → Nat → Nat} {c c' : Cluster} {w w' : World}
  {place : Nat} {st : Station} {p : Process} {e : Event} {id : NodeId}

theorem mirrors_empty (settings : ClusterSettings) (clock : Clock) :
    Mirrors settings { clock } settings.world where
  ids := List.nil_prefix
  manned _ h := absurd h List.not_mem_nil
  unmanned _ _ _ := rfl
  inbox _ h := absurd h List.not_mem_nil
  network := ⟨by simp, fun _ h => absurd h List.not_mem_nil⟩

/-- A process does something that leaves the other nodes as they are. -/
theorem Mirrors.drive (h : Mirrors settings c w) (distinct : settings.ids.Nodup)
    (hst : c.stations[place]? = some st) (hp : st.host.process = some p)
    {act : Nat → Process → Process × List Outgoing} (letters : List (NodeId × Message))
    (node : (act st.host.now p).1.node = w'.nodes st.id)
    (others : ∀ id, id ≠ st.id → w'.nodes id = w.nodes id)
    (waiting : ∀ m, .message m ∈ (act st.host.now p).1.waiting → (st.id, m) ∈ w'.sent)
    (sends : (act st.host.now p).2 = letters.map fun x => (x.1, Frame.encode x.2))
    (sent : w'.sent = w.sent ++ letters) : Mirrors settings (c.drive place act) w' := by
  have hmem : st ∈ c.stations := List.mem_of_getElem? hst
  have hmore : ∀ x ∈ w.sent, x ∈ w'.sent := fun x hx => sent ▸ List.mem_append_left _ hx
  have hnew : ∀ x ∈ letters, x ∈ w'.sent := fun x hx => sent ▸ List.mem_append_right _ hx
  have hids : (c.drive place act).stations.map (·.id) = c.stations.map (·.id) := ids_drive ..
  have hnetwork := (h.network.mono hmore).sendAll st.id hnew
  have hsent : (c.drive place act).network =
      letters.foldl (fun n x => (n.send st.id x.1 (Frame.encode x.2)).1) c.network := by
    rw [drive_eq hst hp, sends, sendAll, List.foldl_map]
    rfl
  -- as no two stations are of one id, all others are of other nodes
  have hstation : ∀ st' ∈ (c.drive place act).stations,
      st' = { st with host.process := some (act st.host.now p).1 } ∨
        st' ∈ c.stations ∧ st'.id ≠ st.id := by
    intro st' hst'
    rw [drive_eq hst hp] at hst'
    exact mem_setHost (h.ids.sublist.nodup distinct) hst hst'
  constructor
  · rw [hids]
    exact h.ids
  · intro st' hst'
    rcases hstation st' hst' with rfl | ⟨hold, hne⟩
    · exact ⟨_, rfl, node, waiting⟩
    · obtain ⟨p', hp', hnode, hwaiting⟩ := h.manned st' hold
      exact ⟨p', hp', hnode.trans (others _ hne).symm, fun m hm => hmore _ (hwaiting m hm)⟩
  · intro id hid hnone
    rw [hids] at hnone
    have hne : id ≠ st.id := fun heq => hnone (heq ▸ List.mem_map_of_mem hmem)
    rw [others id hne]
    exact h.unmanned id hid hnone
  · intro st' hst'
    rw [hsent, hnetwork.2]
    rcases hstation st' hst' with rfl | ⟨hold, _⟩
    · exact h.inbox st hmem
    · exact h.inbox st' hold
  · rw [hsent]
    exact hnetwork.1

/-- A process does something that its node takes no part in. -/
theorem Mirrors.drive_quietly (h : Mirrors settings c w) (distinct : settings.ids.Nodup)
    {act : Nat → Process → Process × List Outgoing}
    (quiet : ∀ st p, c.stations[place]? = some st → st.host.process = some p →
      (act st.host.now p).1.node = p.node ∧ (act st.host.now p).2 = [] ∧
        ∀ m, .message m ∈ (act st.host.now p).1.waiting →
          .message m ∈ p.waiting ∨ (st.id, m) ∈ w.sent) :
    Mirrors settings (c.drive place act) w := by
  cases hprocess : c.stations[place]?.bind (·.host.process) with
  | none =>
    rw [drive_none hprocess]
    exact h
  | some p =>
    obtain ⟨st, hst, hp⟩ := Option.bind_eq_some_iff.mp hprocess
    obtain ⟨p', hp', hnode, hwaiting⟩ := h.manned st (List.mem_of_getElem? hst)
    cases hp.symm.trans hp'
    obtain ⟨hsame, hsends, hqueued⟩ := quiet st p hst hp
    refine h.drive distinct hst hp [] (hsame.trans hnode) (fun _ _ => rfl) ?_ hsends
      (List.append_nil _).symm
    exact fun m hm => (hqueued m hm).elim (hwaiting m) id

theorem Mirrors.id_mem (h : Mirrors settings c w) (hst : st ∈ c.stations) :
    st.id ∈ settings.ids := h.ids.subset (List.mem_map_of_mem hst)

theorem Mirrors.react {run : Run (.ofList settings.ids)}
    (h : Mirrors settings c run.last) (distinct : settings.ids.Nodup)
    (hst : c.stations[place]? = some st) (hp : st.host.process = some p)
    {act : Nat → Process → Process × List Outgoing} {q : Process}
    (acts : act st.host.now p = q.react st.host.now e) (node : q.node = p.node)
    (queued : ∀ m, .message m ∈ q.waiting → .message m ∈ p.waiting)
    (brought : ∀ m, e = .message m → .message m ∈ p.waiting) :
    ∃ run', run.Begins run' ∧ Mirrors settings (c.drive place act) run'.last := by
  have hmem := List.mem_of_getElem? hst
  obtain ⟨p', hp', hnode, hwaiting⟩ := h.manned st hmem
  cases hp.symm.trans hp'
  -- whatever fails in the storage of the process fails in this turn
  let t : Turn := .handle e q.node.storage.outage
  let w : World :=
    { nodes := fun j => if j = st.id then (q.node.handle e).1 else run.last.nodes j
      sent := run.last.sent ++ Simulation.sendsOf (q.node.asks e) }
  have hi : st.id ∈ IdSet.ofList settings.ids := IdSet.mem_ofList.mpr (h.id_mem hmem)
  have delivers : run.last.Delivers st.id t := by
    rintro m hm
    exact hwaiting m (brought m (Option.some.inj hm))
  have steps : run.last.step st.id t = some (w, q.node.asks e) := by
    rw [World.step, ← hnode, ← node, Node.turn_handle]
    rfl
  refine ⟨run.extend st.id t w (q.node.asks e) hi delivers steps,
    run.begins_extend hi delivers steps, ?_⟩
  rw [run.last_extend hi delivers steps]
  refine h.drive distinct hst hp (Simulation.sendsOf (q.node.asks e)) ?_ ?_ ?_ ?_ rfl
  · rw [acts, Process.node_react]
    exact (if_pos rfl).symm
  · exact fun id hne => if_neg hne
  · rw [acts, Process.waiting_react]
    exact fun m hm => List.mem_append_left _ (hwaiting m (queued m hm))
  · rw [acts, Process.sent_react]

theorem Mirrors.look {run : Run (.ofList settings.ids)}
    (h : Mirrors settings c run.last) (distinct : settings.ids.Nodup) (place : Nat) :
    ∃ run', run.Begins run' ∧
      Mirrors settings (c.drive place fun now p => p.next now) run'.last := by
  cases hprocess : c.stations[place]?.bind (·.host.process) with
  | none =>
    rw [drive_none hprocess]
    exact ⟨run, .refl run, h⟩
  | some p =>
    obtain ⟨st, hst, hp⟩ := Option.bind_eq_some_iff.mp hprocess
    obtain ⟨hnode, hsends, hqueued⟩ | ⟨q, e, hnext, hnode, hqueued, hbrought⟩ :=
      p.next_cases st.host.now
    · refine ⟨run, .refl run, h.drive_quietly distinct fun st' p' hst' hp' => ?_⟩
      cases hst.symm.trans hst'
      cases hp.symm.trans hp'
      exact ⟨hnode, hsends, fun m hm => Or.inl (hqueued m hm)⟩
    · exact h.react distinct hst hp hnext hnode hqueued hbrought

theorem Mirrors.same_network (h : Mirrors settings c w) {n : Network} (network : n.Truthful w.sent)
    (owners : n.owners = c.network.owners) : Mirrors settings { c with network := n } w where
  ids := h.ids
  manned := h.manned
  unmanned := h.unmanned
  inbox st hst := owners ▸ h.inbox st hst
  network := network

theorem Mirrors.fetch (h : Mirrors settings c w) (distinct : settings.ids.Nodup) (place : Nat) :
    Mirrors settings (c.fetch place) w := by
  rw [Cluster.fetch]
  cases hst : c.stations[place]? with
  | none => exact h
  | some st =>
    dsimp only
    split
    · rename_i n frame hreceive
      obtain ⟨hnetwork, howners, id, m, howner, rfl, hsent⟩ := h.network.receive hreceive
      rw [h.inbox st (List.mem_of_getElem? hst), Option.some.injEq] at howner
      subst howner
      have hleft := h.same_network hnetwork howners
      rw [Frame.decode_encode_self]
      dsimp only
      split
      · refine hleft.drive_quietly distinct fun st' p hst' _ => ?_
        cases hst.symm.trans hst'
        refine ⟨p.node_hand _, rfl, fun m' hm' => ?_⟩
        rcases Process.message_mem_hand hm' with hold | hnew
        · exact Or.inl hold
        · cases hnew
          exact Or.inr hsent
      · obtain ⟨hclosed, howners'⟩ := hnetwork.close st.inbox
        exact h.same_network hclosed (howners'.trans howners)
    · exact h

/-- The node that is started is the one that the world has in its place. -/
theorem Mirrors.enrol (h : Mirrors settings c w) (distinct : settings.ids.Nodup)
    (next : settings.ids[c.stations.length]? = some id) (draw : Nat → Nat)
    (accepted : settings.timing.check = .ok ()) :
    Mirrors settings (c.enrol (.fresh id draw (List.mem_of_getElem? next) accepted)) w := by
  let seat : Seat settings := .fresh id draw (List.mem_of_getElem? next) accepted
  have hid : seat.id = id := rfl
  obtain ⟨rest, hrest⟩ := h.ids
  have hsplit : settings.ids = c.stations.map (·.id) ++ id :: rest.tail := by
    have hlength : (c.stations.map (·.id)).length = c.stations.length := List.length_map ..
    rw [← hrest, ← hlength, List.getElem?_append_right (Nat.le_refl _), Nat.sub_self] at next
    cases rest with
    | nil => cases next
    | cons id' rest =>
      cases next
      exact hrest.symm
  have hids : (c.enrol seat).stations.map (·.id) = c.stations.map (·.id) ++ [id] := ids_enrol c seat
  -- the node has no station yet, so that the world still has it as it is at its start
  have hnew : id ∉ c.stations.map (·.id) := by
    rw [hsplit, List.nodup_append] at distinct
    exact fun hold => distinct.2.2 id hold id (List.mem_cons_self ..) rfl
  obtain ⟨hnetwork, howners⟩ := h.network.register id
  constructor
  · rw [hids, hsplit]
    exact ⟨rest.tail, by simp⟩
  · intro st hst
    rcases List.mem_append.mp hst with hold | hlast
    · exact h.manned st hold
    · rw [List.mem_singleton.mp hlast]
      refine ⟨seat.process c.clock c.now, rfl, ?_, fun m hm => absurd hm List.not_mem_nil⟩
      exact (h.unmanned id (List.mem_of_getElem? next) hnew).symm
  · intro id' hid' hnone
    rw [hids, List.mem_append, not_or] at hnone
    exact h.unmanned id' hid' hnone.1
  · intro st hst
    rw [show (c.enrol seat).network.owners = c.network.owners ++ [id] from howners]
    rcases List.mem_append.mp hst with hold | hlast
    · have hinbox := h.inbox st hold
      rw [List.getElem?_append_left (List.getElem?_eq_some_iff.mp hinbox).1, hinbox]
    · have hlength : c.network.owners.length = c.network.inboxes.length := List.length_map ..
      rw [List.mem_singleton.mp hlast, ← hlength]
      exact List.getElem?_concat_length
  · exact hnetwork

theorem Mirrors.launch (h : Mirrors settings c w) (distinct : settings.ids.Nodup) :
    Mirrors settings (c.launch settings draws) w := by
  cases hnext : settings.ids[c.stations.length]? with
  | none =>
    rw [Cluster.launch, hnext]
    exact h
  | some id =>
    cases hnode : settings.forNode id with
    | error cause =>
      rw [Cluster.launch, hnext, Option.map_some, hnode]
      exact h
    | ok node =>
      obtain ⟨hlisted, accepted, _⟩ := ClusterSettings.forNode_eq_ok.mp hnode
      rw [launch_eq hnext accepted]
      exact h.enrol distinct hnext _ accepted

theorem Mirrors.setTime (h : Mirrors settings c w) (now : Nat) :
    Mirrors settings (c.setTime now) w := by
  constructor
  · rw [ids_setTime]
    exact h.ids
  · intro st' hst'
    obtain ⟨st, hst, rfl⟩ := List.mem_map.mp hst'
    exact h.manned st hst
  · rw [ids_setTime]
    exact h.unmanned
  · intro st' hst'
    obtain ⟨st, hst, rfl⟩ := List.mem_map.mp hst'
    exact h.inbox st hst
  · exact h.network

theorem Mirrors.ring (h : Mirrors settings c w) (distinct : settings.ids.Nodup) (place : Nat) :
    Mirrors settings (c.drive place fun now p => (p.ring now, [])) w :=
  h.drive_quietly distinct fun st p _ _ =>
    ⟨p.node_ring st.host.now, rfl, fun _ hm => Or.inl (Process.message_mem_ring hm)⟩

theorem Mirrors.hand (h : Mirrors settings c w) (distinct : settings.ids.Nodup) (place : Nat)
    {i : Incoming} (hi : ∀ m, i ≠ .message m) :
    Mirrors settings (c.drive place fun _ p => (p.hand i, [])) w :=
  h.drive_quietly distinct fun _ p _ _ =>
    ⟨p.node_hand i, rfl, fun m hm => Or.inl ((Process.message_mem_hand hm).resolve_right (hi m))⟩

theorem Mirrors.move {run : Run (.ofList settings.ids)}
    (h : Mirrors settings c run.last) (distinct : settings.ids.Nodup)
    (draws : Nat → Nat → Nat) (m : Motion) :
    ∃ run', run.Begins run' ∧ Mirrors settings (c.move settings draws m) run'.last := by
  cases m with
  | launch => exact ⟨run, .refl run, h.launch distinct⟩
  | pass now => exact ⟨run, .refl run, h.setTime now⟩
  | ring place => exact ⟨run, .refl run, h.ring distinct place⟩
  | fetch place => exact ⟨run, .refl run, h.fetch distinct place⟩
  | look place => exact h.look distinct place
  | query place => exact ⟨run, .refl run, h.hand distinct place (by simp)⟩
  | shutdown place => exact ⟨run, .refl run, h.hand distinct place (by simp)⟩
  | isolate id => exact ⟨run, .refl run, h.same_network ⟨h.network.latest, h.network.frames⟩ rfl⟩
  | heal id => exact ⟨run, .refl run, h.same_network ⟨h.network.latest, h.network.frames⟩ rfl⟩

theorem Mirrors.moveAll {run : Run (.ofList settings.ids)}
    (h : Mirrors settings c run.last) (distinct : settings.ids.Nodup)
    (draws : Nat → Nat → Nat) (motions : List Motion) :
    ∃ run', run.Begins run' ∧
      Mirrors settings (moveAll settings draws motions c) run'.last := by
  induction motions generalizing c run with
  | nil => exact ⟨run, .refl run, h⟩
  | cons m motions ih =>
    obtain ⟨run₁, hbegins, hmoved⟩ := h.move distinct draws m
    obtain ⟨run₂, hbegins', hall⟩ := ih hmoved
    exact ⟨run₂, hbegins.trans hbegins', hall⟩

end Cluster

end Elector
