import Elector.Simulation
import Elector.Proofs.Life

/-!
# Runs of a cluster

A `World` is the nodes of a cluster with every message that was ever sent between them. One member
takes a turn at a time, and a message reaches it if it was ever sent to it: so messages are
delivered in any order, more than once, or never. A `Run` is any sequence of such turns from a
world in which nothing has happened.

For each member a run is a life (`Run.life`), so what is proved of lives holds of every member. A
message in a world goes back to the turn in which it was sent, and to what was then true of its
sender (`Run.origin`, `Run.vouched`).
-/

namespace Elector

theorem Simulation.mem_sendsOf {outputs : List Output} {target : NodeId} {m : Message} :
    (target, m) ∈ sendsOf outputs ↔ .send target m ∈ outputs := by
  rw [sendsOf, List.mem_filterMap]
  constructor
  · rintro ⟨o, ho, heq⟩
    cases o <;> cases heq
    exact ho
  · intro h
    exact ⟨_, h, rfl⟩

structure World where
  nodes : NodeId → Node
  /-- Every message that was ever sent, with its receiver. -/
  sent : List (NodeId × Message)

namespace World

/-- Every member has just been started, and knows all members. -/
structure Fresh (members : IdSet) (w : World) : Prop where
  node : ∀ i ∈ members, (w.nodes i).Fresh
  id : ∀ i ∈ members, (w.nodes i).id = i
  members : ∀ i ∈ members, (w.nodes i).roster.members = members
  sent : w.sent = []

def start (ids : List NodeId) (last : NodeId → Position) : World where
  nodes i := Node.reborn (.of i ids) { log := .remote (last i) }
  sent := []

theorem fresh_start (ids : List NodeId) (last : NodeId → Position) :
    Fresh (.ofList ids) (start ids last) where
  node i _ :=
    ⟨.of i ids, { log := .remote (last i) }, ⟨rfl, rfl, Storage.backed_of_memory rfl⟩, rfl⟩
  id _ _ := rfl
  members i hi := by
    refine IdSet.ext fun j => ?_
    have hi := IdSet.mem_ofList.mp hi
    have hmem : j ∈ (Roster.of i ids).members ↔ j = i ∨ j ∈ ids := Roster.mem_members_of
    rw [IdSet.mem_ofList]
    refine hmem.trans ⟨?_, Or.inr⟩
    rintro (rfl | hj)
    · exact hi
    · exact hj
  sent := rfl

/-- The message that is handled in a turn was sent to `i`. -/
def Delivers (w : World) (i : NodeId) (t : Turn) : Prop :=
  ∀ m, t.event? = some (.message m) → (i, m) ∈ w.sent

instance (w : World) (i : NodeId) (t : Turn) : Decidable (w.Delivers i t) :=
  match h : t.event? with
  | some (.message m) =>
    decidable_of_iff ((i, m) ∈ w.sent) (by simp [Delivers, h])
  | some .electionTimeout => isTrue fun m hm => by simp [h] at hm
  | some .heartbeatDue => isTrue fun m hm => by simp [h] at hm
  | none => isTrue fun m hm => by simp [h] at hm

def step (w : World) (i : NodeId) (t : Turn) : Option (World × List Output) :=
  ((w.nodes i).turn t).map fun (n, outputs) =>
    ({ nodes := fun j => if j = i then n else w.nodes j
       sent := w.sent ++ Simulation.sendsOf outputs }, outputs)

def walk (w : World) (schedule : Nat → NodeId × Turn) : Nat → World
  | 0 => w
  | k + 1 =>
    match (walk w schedule k).step (schedule k).1 (schedule k).2 with
    | some (w', _) => w'
    | none => walk w schedule k

end World

/-- A course of `length` turns of the members. -/
structure Run (members : IdSet) where
  length : Nat
  world : Nat → World
  mover : Nat → NodeId
  turn : Nat → Turn
  outputs : Nat → List Output
  fresh : (world 0).Fresh members
  member : ∀ k < length, mover k ∈ members
  delivers : ∀ k < length, (world k).Delivers (mover k) (turn k)
  steps : ∀ k < length, (world k).step (mover k) (turn k) = some (world (k + 1), outputs k)

namespace Run

/-- The run of a schedule whose turns all can take place. -/
def ofSchedule {members : IdSet} (w : World) (schedule : Nat → NodeId × Turn) (length : Nat)
    (fresh : w.Fresh members)
    (possible : ∀ k < length, (schedule k).1 ∈ members ∧
      (w.walk schedule k).Delivers (schedule k).1 (schedule k).2 ∧
      ((w.walk schedule k).step (schedule k).1 (schedule k).2).isSome) : Run members where
  length := length
  world := w.walk schedule
  mover k := (schedule k).1
  turn k := (schedule k).2
  outputs k := (((w.walk schedule k).step (schedule k).1 (schedule k).2).map (·.2)).getD []
  fresh := fresh
  member k hk := (possible k hk).1
  delivers k hk := (possible k hk).2.1
  steps k hk := by
    obtain ⟨⟨w', outputs⟩, hstep⟩ := Option.isSome_iff_exists.mp (possible k hk).2.2
    simp [World.walk, hstep]

variable {members : IdSet} {k l : Nat} {i j : NodeId} {term : Term} {c : NodeId}

def node (run : Run members) (k : Nat) (i : NodeId) : Node := (run.world k).nodes i

theorem step_eq (run : Run members) (hk : k < run.length) :
    (run.node k (run.mover k)).turn (run.turn k) =
        some (run.node (k + 1) (run.mover k), run.outputs k) ∧
      (∀ i, i ≠ run.mover k → run.node (k + 1) i = run.node k i) ∧
      (run.world (k + 1)).sent = (run.world k).sent ++ Simulation.sendsOf (run.outputs k) := by
  have hstep := run.steps k hk
  simp only [World.step, Option.map_eq_some_iff] at hstep
  obtain ⟨⟨n, outputs⟩, hturn, heq⟩ := hstep
  rw [Prod.mk.injEq] at heq
  obtain ⟨hworld, rfl⟩ := heq
  simp only [node, ← hworld]
  refine ⟨by simpa using hturn, fun i hne => ?_, trivial⟩
  rw [if_neg hne]

theorem node_succ (run : Run members) (hk : k < run.length) (hne : i ≠ run.mover k) :
    run.node (k + 1) i = run.node k i := (run.step_eq hk).2.1 i hne

theorem effect (run : Run members) (hk : k < run.length) :
    Node.Effect (run.node k (run.mover k)) (run.turn k) (run.node (k + 1) (run.mover k))
      (run.outputs k) := Node.effect_turn (run.step_eq hk).1

/-! ## The life of a member -/

/-- A turn in which nothing happens. -/
def rest (n : Node) : Turn := .outside n.storage.log n.storage.disk

theorem turn_rest (n : Node) : n.turn (rest n) = some (n, []) := by
  rw [rest, Node.turn, if_pos rfl]

/-- What a run is for one member, which rests while others move. -/
def life (run : Run members) (hi : i ∈ members) : Node.Life where
  length := run.length
  node k := run.node k i
  turn k := if run.mover k = i then run.turn k else rest (run.node k i)
  outputs k := if run.mover k = i then run.outputs k else []
  fresh := run.fresh.node i hi
  turns k hk := by
    by_cases hmover : run.mover k = i
    · rw [if_pos hmover, if_pos hmover, ← hmover]
      exact (run.step_eq hk).1
    · rw [if_neg hmover, if_neg hmover, turn_rest, run.node_succ hk (Ne.symm hmover)]

theorem effect_life (run : Run members) (hi : i ∈ members) (hk : k < run.length) :
    Node.Effect (run.node k i) ((run.life hi).turn k) (run.node (k + 1) i)
      ((run.life hi).outputs k) := (run.life hi).effect hk

theorem sent_of_life (run : Run members) (hi : i ∈ members) (hk : k < run.length) {m : Message}
    (hevent : ((run.life hi).turn k).event? = some (.message m)) : (i, m) ∈ (run.world k).sent := by
  simp only [life] at hevent
  by_cases hmover : run.mover k = i
  · rw [if_pos hmover] at hevent
    rw [← hmover]
    exact run.delivers k hk m hevent
  · rw [if_neg hmover] at hevent
    cases hevent

theorem sound (run : Run members) (hi : i ∈ members) (hk : k ≤ run.length) :
    (run.node k i).Sound := (run.life hi).sound hk

theorem id_node (run : Run members) (hi : i ∈ members) (hk : k ≤ run.length) :
    (run.node k i).id = i := by
  have hroster : (run.node k i).roster = _ := (run.life hi).roster hk
  rw [Node.id, hroster]
  exact run.fresh.id i hi

theorem members_node (run : Run members) (hi : i ∈ members) (hk : k ≤ run.length) :
    (run.node k i).roster.members = members := by
  have hroster : (run.node k i).roster = _ := (run.life hi).roster hk
  rw [hroster]
  exact run.fresh.members i hi

theorem quorum_node (run : Run members) (hi : i ∈ members) (hk : k ≤ run.length) :
    (run.node k i).roster.quorum = members.size / 2 + 1 := by
  rw [Roster.quorum, Roster.size, run.members_node hi hk]

theorem mem_peers_node (run : Run members) (hi : i ∈ members) (hk : k ≤ run.length) :
    j ∈ (run.node k i).roster.peers ↔ j ∈ members ∧ j ≠ i := by
  have hself : (run.node k i).roster.self = i := run.id_node hi hk
  rw [Roster.mem_peers, run.members_node hi hk, hself]

/-! ## Messages -/

theorem origin (run : Run members) (hk : k ≤ run.length) {target : NodeId} {m : Message}
    (hm : (target, m) ∈ (run.world k).sent) : ∃ j < k, .send target m ∈ run.outputs j := by
  induction k with
  | zero =>
    rw [run.fresh.sent] at hm
    cases hm
  | succ k ih =>
    rw [(run.step_eq hk).2.2] at hm
    rcases List.mem_append.mp hm with hold | hnew
    · obtain ⟨j, hj, hsend⟩ := ih (Nat.le_of_succ_le hk) hold
      exact ⟨j, Nat.lt_succ_of_lt hj, hsend⟩
    · exact ⟨k, Nat.lt_succ_self k, Simulation.mem_sendsOf.mp hnew⟩

theorem vouches (run : Run members) (hk : k < run.length) {target : NodeId} {m : Message}
    (hsend : .send target m ∈ run.outputs k) :
    (run.node (k + 1) (run.mover k)).Vouches target m :=
  Node.vouches_of_effect (run.effect hk) hsend

theorem sender_eq (run : Run members) (hk : k < run.length) {target : NodeId} {m : Message}
    (hsend : .send target m ∈ run.outputs k) :
    m.sender = run.mover k ∧ target ∈ members ∧ target ≠ run.mover k := by
  have hvouches := run.vouches hk hsend
  have hmover := run.member k hk
  have hpeer := (run.mem_peers_node hmover hk).mp hvouches.peer
  exact ⟨hvouches.sender.trans (run.id_node hmover hk), hpeer⟩

/-- Behind everything that was sent stands, at some moment before, the member that it names. -/
theorem vouched (run : Run members) (hk : k ≤ run.length) {target : NodeId} {m : Message}
    (hm : (target, m) ∈ (run.world k).sent) :
    ∃ j ≤ k, m.sender ∈ members ∧ target ≠ m.sender ∧ (run.node j m.sender).Vouches target m := by
  obtain ⟨j, hj, hsend⟩ := run.origin hk hm
  have hjk := Nat.lt_of_lt_of_le hj hk
  obtain ⟨hsender, _, hne⟩ := run.sender_eq hjk hsend
  rw [hsender]
  exact ⟨j + 1, hj, run.member j hjk, hne, run.vouches hjk hsend⟩

end Run

end Elector
