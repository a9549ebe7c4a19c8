import Mathlib.Algebra.GroupWithZero.Nat
import Mathlib.Data.List.Nodup
import Mathlib.Data.List.Perm.Subperm
import Mathlib.Logic.Function.Basic
import Elector.Proofs.Election
import Elector.Proofs.Working

/-!
# Campaigns

A campaign is the election of one candidate that nothing disturbs. Its letters are the requests for
votes, the heartbeats once the election is won, and the replies to both; a `Stage` says how far
each of them has come, and the stage determines what every member is (`stance`) and what is in
flight (`letters`). `Deals` is what the delivery of one letter does to the stage. The letters can
come in any order: a heartbeat may overtake the request, and votes may come after the end.
-/

namespace Elector

namespace IdSet

def filter (s : IdSet) (p : Int32 → Bool) : IdSet where
  toList := s.toList.filter p
  ascending := s.ascending.filter _

@[simp] theorem mem_filter {s : IdSet} {p : Int32 → Bool} {x : Int32} :
    x ∈ s.filter p ↔ x ∈ s ∧ p x = true := List.mem_filter

theorem size_le_of_subset {s t : IdSet} (h : ∀ x ∈ s, x ∈ t) : s.size ≤ t.size :=
  (s.nodup_toList.subperm h).length_le

end IdSet

/-! ## Lists that differ at one place -/

open List in
theorem perm_cons_eraseIdx {α : Type} {xs : List α} {x : α} {place : Nat}
    (h : xs[place]? = some x) : x :: xs.eraseIdx place ~ xs := by
  obtain ⟨hlt, rfl⟩ := List.getElem?_eq_some_iff.mp h
  exact List.getElem_cons_eraseIdx_perm hlt

section Update

variable {α β : Type} {xs : List α} {v : α}

theorem split_at_mem (hnodup : xs.Nodup) (hv : v ∈ xs) :
    ∃ front back, xs = front ++ v :: back ∧ v ∉ front ∧ v ∉ back := by
  obtain ⟨front, back, rfl⟩ := List.append_of_mem hv
  obtain ⟨_, hback, hdisjoint⟩ := List.nodup_append.mp hnodup
  refine ⟨front, back, rfl, fun hfront => ?_, (List.nodup_cons.mp hback).1⟩
  exact hdisjoint v hfront v (List.mem_cons_self ..) rfl

open List in
theorem perm_flatMap_update {f g : α → List β} (hnodup : xs.Nodup) (hv : v ∈ xs)
    (hother : ∀ u, u ≠ v → g u = f u) : f v ++ xs.flatMap g ~ g v ++ xs.flatMap f := by
  obtain ⟨front, back, rfl, hfront, hback⟩ := split_at_mem hnodup hv
  have hsame : ∀ ys : List α, v ∉ ys → ys.flatMap g = ys.flatMap f := fun ys hys =>
    List.flatMap_congr fun u hu => hother u fun heq => hys (heq ▸ hu)
  rw [List.flatMap_append, List.flatMap_append, List.flatMap_cons, List.flatMap_cons,
    hsame front hfront, hsame back hback]
  calc f v ++ (front.flatMap f ++ (g v ++ back.flatMap f))
    _ ~ front.flatMap f ++ (f v ++ (g v ++ back.flatMap f)) := perm_append_comm_assoc ..
    _ ~ front.flatMap f ++ (g v ++ (f v ++ back.flatMap f)) :=
      (perm_append_comm_assoc ..).append_left _
    _ ~ g v ++ (front.flatMap f ++ (f v ++ back.flatMap f)) := perm_append_comm_assoc ..

theorem sum_map_update {f g : α → Nat} (hnodup : xs.Nodup) (hv : v ∈ xs)
    (hother : ∀ u, u ≠ v → g u = f u) : f v + (xs.map g).sum = g v + (xs.map f).sum := by
  obtain ⟨front, back, rfl, hfront, hback⟩ := split_at_mem hnodup hv
  have hsame : ∀ ys : List α, v ∉ ys → ys.map g = ys.map f := fun ys hys =>
    List.map_congr_left fun u hu => hother u fun heq => hys (heq ▸ hu)
  simp only [List.map_append, List.map_cons, List.sum_append, List.sum_cons, hsame front hfront,
    hsame back hback]
  omega

end Update

/-! ## Stages of a campaign -/

abbrev Letter := NodeId × Message

/-- How far a message to a member has come, and the reply to it. -/
inductive Leg
  /-- The member has not had the message yet. -/
  | waiting
  /-- The reply is in flight. -/
  | replying
  | complete
deriving DecidableEq

namespace Leg

/-- The number of deliveries that are left. -/
def left : Leg → Nat
  | waiting => 2
  | replying => 1
  | complete => 0

def letters (message reply : Letter) : Leg → List Letter
  | waiting => [message]
  | replying => [reply]
  | complete => []

end Leg

/-- How far the request to each member has come, and the heartbeat. -/
structure Stage where
  ask : NodeId → Leg
  beat : NodeId → Leg

namespace Stage

def setAsk (st : Stage) (v : NodeId) (leg : Leg) : Stage :=
  { st with ask := Function.update st.ask v leg }

def setBeat (st : Stage) (v : NodeId) (leg : Leg) : Stage :=
  { st with beat := Function.update st.beat v leg }

variable (st : Stage) (v : NodeId) (leg : Leg)

@[simp] theorem ask_setAsk : (st.setAsk v leg).ask = Function.update st.ask v leg := rfl

@[simp] theorem beat_setAsk : (st.setAsk v leg).beat = st.beat := rfl

@[simp] theorem ask_setBeat : (st.setBeat v leg).ask = st.ask := rfl

@[simp] theorem beat_setBeat : (st.setBeat v leg).beat = Function.update st.beat v leg := rfl

end Stage

/-- An election of `candidate`, with the members as they are before it. -/
structure Campaign where
  members : IdSet
  candidate : NodeId
  node : NodeId → Node
  mem : candidate ∈ members
  ready : ∀ i ∈ members, (node i).Ready
  id : ∀ i ∈ members, (node i).id = i
  roster : ∀ i ∈ members, (node i).roster.members = members
  leads : (node candidate).isLeader = false
  grows : (node candidate).term ≠ Int32.maxValue
  ahead : ∀ i ∈ members, (node i).term ≤ (node candidate).term

namespace Campaign

variable (e : Campaign)

def term : Term := (e.node e.candidate).term + 1

def last : Position := (e.node e.candidate).position

def peers : List NodeId := (e.node e.candidate).roster.peers

def quorum : Nat := (e.node e.candidate).roster.quorum

/-- Whether the log of a member does not go beyond that of the candidate. -/
def gate (i : NodeId) : Bool := (e.node i).position ≤ e.last

def supporters : IdSet := e.members.filter e.gate

/-! ### Letters -/

def request (v : NodeId) : Letter :=
  (v, .voteRequest { candidate := e.candidate, term := e.term, last := e.last })

def vote (v : NodeId) : Letter :=
  (e.candidate, .voteResponse { voter := v, term := e.term, granted := e.gate v })

def beat (v : NodeId) : Letter := (v, .appendEntries (heartbeat e.candidate e.term e.last))

def echo (v : NodeId) : Letter :=
  (e.candidate, .appendResponse { follower := v, term := e.term, success := true })

/-- What is in flight of an exchange with all other members. -/
def exchange (legs : NodeId → Leg) (message reply : NodeId → Letter) : List Letter :=
  e.peers.flatMap fun v => (legs v).letters (message v) (reply v)

variable (st : Stage)

def tally : IdSet := e.members.filter fun i => e.gate i && st.ask i = .complete

def won : Bool := (e.tally st).carries e.quorum

def asks : List Letter := e.exchange st.ask e.request e.vote

def beats : List Letter := if e.won st then e.exchange st.beat e.beat e.echo else []

def letters : List Letter := e.asks st ++ e.beats st

/-- What the vote of `v` leads to: a heartbeat to every member, if it decides the election. -/
def harvest (v : NodeId) : List Letter :=
  if e.won st = false ∧ e.won (st.setAsk v .complete) = true then e.peers.map e.beat else []

def remaining (legs : NodeId → Leg) : Nat := (e.peers.map fun v => (legs v).left).sum

/-- A bound on the deliveries that are left. -/
def left : Nat := e.remaining st.ask + e.remaining st.beat

def joined (i : NodeId) : Node.Stance where
  term := e.term
  role := .follower
  leader := if st.beat i = .waiting then none else some e.candidate
  vote := if st.ask i ≠ .waiting ∧ e.gate i = true then some e.candidate else none

def stance (i : NodeId) : Node.Stance :=
  if i = e.candidate then
    .counted ⟨e.term, .follower, none, some e.candidate⟩ e.candidate (e.tally st) (e.won st)
  else if st.ask i = .waiting ∧ st.beat i = .waiting then (e.node i).stance
  else e.joined st i

/-- The node of member `i` at a stage. -/
def Holds (i : NodeId) (n : Node) : Prop := (e.node i).Assumes (e.stance st i) n

/-! ## Members -/

variable {e st} {i v : NodeId}

theorem mem_peers : v ∈ e.peers ↔ v ∈ e.members ∧ v ≠ e.candidate := by
  have hself : (e.node e.candidate).roster.self = e.candidate := e.id _ e.mem
  rw [peers, Roster.mem_peers, e.roster _ e.mem, hself]

theorem nodup_peers (e : Campaign) : e.peers.Nodup :=
  (IdSet.nodup_toList _).filter _

theorem gate_candidate (e : Campaign) : e.gate e.candidate = true :=
  decide_eq_true (Position.le_refl _)

theorem term_lt (hi : i ∈ e.members) : (e.node i).stance.term < e.term :=
  Int32.lt_of_le_of_lt (e.ahead i hi) (term_lt_next e.grows)

theorem mem_tally : i ∈ e.tally st ↔ i ∈ e.members ∧ e.gate i = true ∧ st.ask i = .complete := by
  simp [tally]

theorem mem_exchange {legs : NodeId → Leg} {message reply : NodeId → Letter} {x : Letter} :
    x ∈ e.exchange legs message reply ↔
      ∃ v ∈ e.peers, legs v = .waiting ∧ x = message v ∨ legs v = .replying ∧ x = reply v := by
  rw [exchange, List.mem_flatMap]
  refine exists_congr fun v => and_congr_right fun _ => ?_
  cases legs v <;> simp [Leg.letters]

theorem perm_exchange (hv : v ∈ e.peers) (legs : NodeId → Leg) (message reply : NodeId → Letter)
    (leg : Leg) :
    ((legs v).letters (message v) (reply v) ++
        e.exchange (Function.update legs v leg) message reply).Perm
      (leg.letters (message v) (reply v) ++ e.exchange legs message reply) := by
  have hother : ∀ u, u ≠ v → (Function.update legs v leg u).letters (message u) (reply u) =
      (legs u).letters (message u) (reply u) := by
    intro u hu
    rw [Function.update_of_ne hu]
  have hself : (Function.update legs v leg v).letters (message v) (reply v) =
      leg.letters (message v) (reply v) := by
    rw [Function.update_self]
  rw [← hself]
  exact perm_flatMap_update e.nodup_peers hv hother

theorem remaining_update (hv : v ∈ e.peers) (legs : NodeId → Leg) (leg : Leg) :
    (legs v).left + e.remaining (Function.update legs v leg) = leg.left + e.remaining legs := by
  have hother : ∀ u, u ≠ v → (Function.update legs v leg u).left = (legs u).left := by
    intro u hu
    rw [Function.update_of_ne hu]
  have hsum := sum_map_update e.nodup_peers hv hother
  rw [Function.update_self] at hsum
  exact hsum

theorem exchange_waiting {legs : NodeId → Leg} {message reply : NodeId → Letter}
    (h : ∀ v ∈ e.peers, legs v = .waiting) :
    e.exchange legs message reply = e.peers.map message := by
  rw [exchange, List.map_eq_flatMap]
  refine List.flatMap_congr fun v hv => ?_
  rw [h v hv]
  rfl

/-! ## The stance of members -/

theorem stance_candidate : e.stance st e.candidate =
    .counted ⟨e.term, .follower, none, some e.candidate⟩ e.candidate (e.tally st) (e.won st) :=
  if_pos rfl

theorem stance_joined (hi : i ≠ e.candidate) (h : st.ask i ≠ .waiting ∨ st.beat i ≠ .waiting) :
    e.stance st i = e.joined st i := by
  rw [stance, if_neg hi, if_neg fun hwaiting => h.elim (· hwaiting.1) (· hwaiting.2)]

theorem stance_congr {st' : Stage} (hi : i ≠ e.candidate)
    (hask : st'.ask i = .waiting ↔ st.ask i = .waiting)
    (hbeat : st'.beat i = .waiting ↔ st.beat i = .waiting) : e.stance st' i = e.stance st i := by
  simp only [stance, if_neg hi, joined, hask, hbeat, ne_eq]

theorem update_complete_waiting {legs : NodeId → Leg} (h : legs v = .replying) :
    Function.update legs v .complete i = .waiting ↔ legs i = .waiting := by
  by_cases hi : i = v
  · rw [hi, Function.update_self, h]
    simp
  · rw [Function.update_of_ne hi]

theorem not_term_lt (hi : i ∈ e.peers) : ¬ e.term < (e.stance st i).term := by
  obtain ⟨hmem, hne⟩ := mem_peers.mp hi
  rw [stance, if_neg hne]
  split
  · exact Int32.lt_asymm (term_lt hmem)
  · exact Int32.lt_irrefl

theorem upTo_stance (hi : i ∈ e.peers) : (e.stance st i).upTo e.term = e.joined st i := by
  obtain ⟨hmem, hne⟩ := mem_peers.mp hi
  rw [stance, if_neg hne]
  split
  · rename_i hwaiting
    rw [Node.Stance.upTo_newer (term_lt hmem)]
    simp [joined, hwaiting.1, hwaiting.2]
  · exact Node.Stance.upTo_current rfl

theorem Holds.id {n : Node} (h : e.Holds st i n) (hi : i ∈ e.members) : n.id = i := by
  have hid : (e.node i).id = i := e.id i hi
  rw [Node.id, h.roster]
  exact hid

theorem Holds.peer {n : Node} (h : e.Holds st i n) (hi : i ∈ e.members) :
    v ∈ n.roster.peers ↔ v ∈ e.members ∧ v ≠ i := by
  have hself : (e.node i).roster.self = i := e.id i hi
  rw [h.roster, Roster.mem_peers, e.roster i hi, hself]

/-! ## One delivery -/

/-- The candidate asks nobody for its own vote, and no heartbeats are sent before it leads. -/
structure Valid (e : Campaign) (st : Stage) : Prop where
  own : st.ask e.candidate = .complete
  beats : e.won st = false → ∀ v, st.beat v = .waiting

/-- The delivery of a letter, with the letters that it leads to. -/
inductive Deals (e : Campaign) (st : Stage) : Letter → List Letter → Stage → Prop
  | request {v : NodeId} (peer : v ∈ e.peers) (leg : st.ask v = .waiting) :
      Deals e st (e.request v) [e.vote v] (st.setAsk v .replying)
  | vote {v : NodeId} (peer : v ∈ e.peers) (leg : st.ask v = .replying) :
      Deals e st (e.vote v) (e.harvest st v) (st.setAsk v .complete)
  | beat {v : NodeId} (peer : v ∈ e.peers) (won : e.won st = true) (leg : st.beat v = .waiting) :
      Deals e st (e.beat v) [e.echo v] (st.setBeat v .replying)
  | echo {v : NodeId} (peer : v ∈ e.peers) (won : e.won st = true) (leg : st.beat v = .replying) :
      Deals e st (e.echo v) [] (st.setBeat v .complete)

variable {x : Letter} {sends : List Letter} {st' : Stage}

theorem deals_of_mem (h : x ∈ e.letters st) : ∃ sends st', Deals e st x sends st' := by
  rcases List.mem_append.mp h with hask | hbeat
  · obtain ⟨v, hv, ⟨hleg, rfl⟩ | ⟨hleg, rfl⟩⟩ := mem_exchange.mp hask
    · exact ⟨_, _, .request hv hleg⟩
    · exact ⟨_, _, .vote hv hleg⟩
  · rw [beats] at hbeat
    split at hbeat
    · rename_i hwon
      obtain ⟨v, hv, ⟨hleg, rfl⟩ | ⟨hleg, rfl⟩⟩ := mem_exchange.mp hbeat
      · exact ⟨_, _, .beat hv hwon hleg⟩
      · exact ⟨_, _, .echo hv hwon hleg⟩
    · cases hbeat

theorem Deals.receiver (h : Deals e st x sends st') : x.1 ∈ e.members := by
  cases h with
  | request peer leg => exact (mem_peers.mp peer).1
  | vote peer leg => exact e.mem
  | beat peer won leg => exact (mem_peers.mp peer).1
  | echo peer won leg => exact e.mem

/-! ### The tally -/

theorem tally_request (h : st.ask v = .waiting) : e.tally (st.setAsk v .replying) = e.tally st := by
  refine IdSet.ext fun i => ?_
  rw [mem_tally, mem_tally, Stage.ask_setAsk]
  by_cases hi : i = v
  · subst hi
    simp [h]
  · simp [hi]

theorem tally_vote (hv : v ∈ e.members) (h : st.ask v = .replying) :
    e.tally (st.setAsk v .complete) = if e.gate v then (e.tally st).insert v else e.tally st := by
  refine IdSet.ext fun i => ?_
  rw [mem_tally, Stage.ask_setAsk]
  by_cases hi : i = v
  · subst hi
    by_cases hgate : e.gate i = true
    · simp [hv, hgate]
    · simp [hgate, mem_tally]
  · by_cases hgate : e.gate v = true
    · simp [hi, hgate, mem_tally]
    · simp [hi, hgate, mem_tally]

theorem won_request (h : st.ask v = .waiting) : e.won (st.setAsk v .replying) = e.won st := by
  rw [won, tally_request h, won]

theorem won_vote (hwon : e.won st = true) : e.won (st.setAsk v .complete) = true := by
  rw [won, IdSet.carries, decide_eq_true_eq] at hwon ⊢
  refine Nat.le_trans hwon (IdSet.size_le_of_subset fun i hi => ?_)
  obtain ⟨hmem, hgate, hover⟩ := mem_tally.mp hi
  refine mem_tally.mpr ⟨hmem, hgate, ?_⟩
  rw [Stage.ask_setAsk]
  by_cases hiv : i = v
  · rw [hiv, Function.update_self]
  · rw [Function.update_of_ne hiv]
    exact hover

/-! ### What a delivery does -/

theorem Deals.valid (h : Deals e st x sends st') (hs : e.Valid st) : e.Valid st' := by
  have hown : ∀ {v leg}, v ∈ e.peers → (st.setAsk v leg).ask e.candidate = .complete := by
    intro v leg hv
    rw [Stage.ask_setAsk, Function.update_of_ne (Ne.symm (mem_peers.mp hv).2)]
    exact hs.own
  cases h with
  | request peer leg => exact ⟨hown peer, fun hwon => hs.beats (won_request leg ▸ hwon)⟩
  | vote peer leg =>
    refine ⟨hown peer, fun hwon => hs.beats (Bool.eq_false_iff.mpr fun hbefore => ?_)⟩
    rw [won_vote hbefore] at hwon
    cases hwon
  | beat peer won leg =>
    refine ⟨hs.own, fun hlost => ?_⟩
    exact absurd (won.symm.trans hlost) (by simp)
  | echo peer won leg =>
    refine ⟨hs.own, fun hlost => ?_⟩
    exact absurd (won.symm.trans hlost) (by simp)

theorem Deals.left (h : Deals e st x sends st') : e.left st' + 1 = e.left st := by
  have hstep : ∀ {v : NodeId} (legs : NodeId → Leg) (leg : Leg), v ∈ e.peers →
      leg.left + 1 = (legs v).left →
      e.remaining (Function.update legs v leg) + 1 = e.remaining legs := by
    intro v legs leg hv hleg
    have hremaining := remaining_update hv legs leg
    omega
  cases h with
  | request peer leg =>
    have hask := hstep st.ask .replying peer (by rw [leg]; rfl)
    rw [Campaign.left, Campaign.left, Stage.ask_setAsk, Stage.beat_setAsk]
    omega
  | vote peer leg =>
    have hask := hstep st.ask .complete peer (by rw [leg]; rfl)
    rw [Campaign.left, Campaign.left, Stage.ask_setAsk, Stage.beat_setAsk]
    omega
  | beat peer won leg =>
    have hbeat := hstep st.beat .replying peer (by rw [leg]; rfl)
    rw [Campaign.left, Campaign.left, Stage.ask_setBeat, Stage.beat_setBeat]
    omega
  | echo peer won leg =>
    have hbeat := hstep st.beat .complete peer (by rw [leg]; rfl)
    rw [Campaign.left, Campaign.left, Stage.ask_setBeat, Stage.beat_setBeat]
    omega

/-- The heartbeats in flight after a vote are those before it and those that it leads to. -/
theorem beats_vote (hs : e.Valid st) :
    e.beats (st.setAsk v .complete) = e.beats st ++ e.harvest st v := by
  rw [beats, beats, harvest, Stage.beat_setAsk]
  by_cases hwon : e.won st = true
  · simp [hwon, won_vote hwon]
  · have hlost := Bool.eq_false_iff.mpr hwon
    have hbeats : e.exchange st.beat e.beat e.echo = e.peers.map e.beat :=
      exchange_waiting fun u _ => hs.beats hlost u
    simp [hlost, hbeats]

open List in
/-- A letter is in flight until it is delivered, and those that it leads to from then on. -/
theorem Deals.letters (h : Deals e st x sends st') (hs : e.Valid st) :
    x :: e.letters st' ~ e.letters st ++ sends := by
  cases h with
  | @request v peer leg =>
    have hasks : e.request v :: e.asks (st.setAsk v .replying) ~ e.vote v :: e.asks st := by
      have hperm := perm_exchange peer st.ask e.request e.vote .replying
      rw [leg] at hperm
      exact hperm
    have hbeats : e.beats (st.setAsk v .replying) = e.beats st := by
      rw [beats, beats, won_request leg, Stage.beat_setAsk]
    rw [Campaign.letters, Campaign.letters, hbeats]
    calc e.request v :: (e.asks (st.setAsk v .replying) ++ e.beats st)
      _ ~ e.vote v :: (e.asks st ++ e.beats st) := hasks.append_right (e.beats st)
      _ ~ e.asks st ++ e.beats st ++ [e.vote v] := (perm_append_singleton ..).symm
  | @vote v peer leg =>
    have hasks : e.vote v :: e.asks (st.setAsk v .complete) ~ e.asks st := by
      have hperm := perm_exchange peer st.ask e.request e.vote .complete
      rw [leg] at hperm
      exact hperm
    rw [Campaign.letters, Campaign.letters, beats_vote hs]
    calc e.vote v :: (e.asks (st.setAsk v .complete) ++ (e.beats st ++ e.harvest st v))
      _ ~ e.asks st ++ (e.beats st ++ e.harvest st v) := hasks.append_right _
      _ = e.asks st ++ e.beats st ++ e.harvest st v := (append_assoc ..).symm
  | @beat v peer won leg =>
    have hwon : e.won (st.setBeat v .replying) = true := won
    have hbeats : e.beat v :: e.beats (st.setBeat v .replying) ~ e.echo v :: e.beats st := by
      have hperm := perm_exchange peer st.beat e.beat e.echo .replying
      rw [leg] at hperm
      rw [beats, beats, if_pos won, if_pos hwon]
      exact hperm
    calc e.beat v :: (e.asks st ++ e.beats (st.setBeat v .replying))
      _ ~ e.asks st ++ e.beat v :: e.beats (st.setBeat v .replying) := perm_middle.symm
      _ ~ e.asks st ++ e.echo v :: e.beats st := hbeats.append_left (e.asks st)
      _ ~ e.echo v :: (e.asks st ++ e.beats st) := perm_middle
      _ ~ e.asks st ++ e.beats st ++ [e.echo v] := (perm_append_singleton ..).symm
  | @echo v peer won leg =>
    have hwon : e.won (st.setBeat v .complete) = true := won
    have hbeats : e.echo v :: e.beats (st.setBeat v .complete) ~ e.beats st := by
      have hperm := perm_exchange peer st.beat e.beat e.echo .complete
      rw [leg] at hperm
      rw [beats, beats, if_pos won, if_pos hwon]
      exact hperm
    calc e.echo v :: (e.asks st ++ e.beats (st.setBeat v .complete))
      _ ~ e.asks st ++ e.echo v :: e.beats (st.setBeat v .complete) := perm_middle.symm
      _ ~ e.asks st ++ e.beats st := hbeats.append_left (e.asks st)
      _ = e.asks st ++ e.beats st ++ [] := (append_nil _).symm

theorem Deals.stance (h : Deals e st x sends st') (hi : i ≠ x.1) :
    e.stance st' i = e.stance st i := by
  cases h with
  | @request v peer leg =>
    have hiv : i ≠ v := hi
    by_cases hic : i = e.candidate
    · rw [hic, stance_candidate, stance_candidate, tally_request leg, won_request leg]
    · have hask : (st.setAsk v .replying).ask i = st.ask i := Function.update_of_ne hiv ..
      apply stance_congr hic
      · rw [hask]
      · rfl
  | vote peer leg =>
    -- The voter had joined when it replied, and the candidate is the receiver.
    apply stance_congr hi
    · exact update_complete_waiting leg
    · rfl
  | @beat v peer won leg =>
    have hiv : i ≠ v := hi
    by_cases hic : i = e.candidate
    · rw [hic, stance_candidate, stance_candidate]
      rfl
    · have hbeat : (st.setBeat v .replying).beat i = st.beat i := Function.update_of_ne hiv ..
      apply stance_congr hic
      · rfl
      · rw [hbeat]
  | echo peer won leg =>
    apply stance_congr hi
    · rfl
    · exact update_complete_waiting leg

/-! ## The first stage -/

def first (e : Campaign) : Stage where
  ask i := if i = e.candidate then .complete else .waiting
  beat _ := .waiting

theorem ask_first (hi : i ≠ e.candidate) : e.first.ask i = .waiting := if_neg hi

theorem valid_first (e : Campaign) : e.Valid e.first := ⟨if_pos rfl, fun _ _ => rfl⟩

theorem tally_first (e : Campaign) : e.tally e.first = .singleton e.candidate := by
  refine IdSet.ext fun i => ?_
  rw [mem_tally, IdSet.mem_singleton]
  by_cases hi : i = e.candidate
  · subst hi
    simp [first, e.mem, e.gate_candidate]
  · simp [first, hi]

theorem won_first (e : Campaign) :
    e.won e.first = (IdSet.singleton e.candidate).carries e.quorum := by
  rw [won, tally_first]

theorem length_peers (e : Campaign) : e.peers.length = e.members.size - 1 := by
  have hself : (e.node e.candidate).roster.self = e.candidate := e.id _ e.mem
  have hpeers : e.peers = e.members.toList.erase e.candidate := by
    rw [peers, Roster.peers, e.roster _ e.mem, hself, e.members.nodup_toList.erase_eq_filter]
    exact List.filter_congr fun x _ => by by_cases hx : x = e.candidate <;> simp [hx]
  rw [hpeers, List.length_erase_of_mem e.mem]
  rfl

/-- Only a candidate without other members has won before any vote. -/
theorem peers_eq_nil_of_won (h : e.won e.first = true) : e.peers = [] := by
  have hquorum : e.members.size / 2 + 1 ≤ 1 := by
    rw [won_first, IdSet.carries, decide_eq_true_eq, quorum, Roster.quorum, Roster.size,
      e.roster _ e.mem] at h
    exact h
  rw [← List.length_eq_zero_iff, length_peers]
  omega

theorem letters_first (e : Campaign) :
    e.letters e.first = e.peers.map (·, (e.node e.candidate).opening (e.won e.first)) := by
  by_cases hwon : e.won e.first = true
  · have hnil := peers_eq_nil_of_won hwon
    simp [letters, asks, beats, exchange, hnil]
  · have hask : ∀ v ∈ e.peers, e.first.ask v = .waiting := fun v hv => ask_first (mem_peers.mp hv).2
    have hid : (e.node e.candidate).id = e.candidate := e.id _ e.mem
    rw [letters, asks, beats, if_neg hwon, exchange_waiting hask, List.append_nil, Node.opening,
      if_neg hwon, hid]
    rfl

theorem left_first (e : Campaign) : e.left e.first = 4 * (e.members.size - 1) := by
  have hwaiting : ∀ legs : NodeId → Leg, (∀ v ∈ e.peers, legs v = .waiting) →
      e.remaining legs = 2 * e.peers.length := by
    intro legs h
    have hmap : (e.peers.map fun v => (legs v).left) = e.peers.map fun _ => 2 :=
      List.map_congr_left fun v hv => by rw [h v hv]; rfl
    rw [remaining, hmap, List.map_const', List.sum_replicate_nat]
    simp [Nat.mul_comm]
  have hask := hwaiting e.first.ask fun v hv => ask_first (mem_peers.mp hv).2
  have hbeat := hwaiting e.first.beat fun _ _ => rfl
  rw [left, hask, hbeat, ← length_peers]
  omega

/-! ## The last stage -/

theorem complete_of_letters (hs : e.Valid st) (h : e.letters st = []) :
    (∀ i ∈ e.members, st.ask i = .complete) ∧
      (e.won st = true → ∀ i ∈ e.members, i ≠ e.candidate → st.beat i = .complete) := by
  obtain ⟨hask, hbeat⟩ := List.append_eq_nil_iff.mp h
  have hover : ∀ {legs : NodeId → Leg} {message reply : NodeId → Letter},
      e.exchange legs message reply = [] → ∀ v ∈ e.peers, legs v = .complete := by
    intro legs message reply hnil v hv
    have hletters := List.flatMap_eq_nil_iff.mp hnil v hv
    cases hleg : legs v with
    | complete => rfl
    | waiting => simp [hleg, Leg.letters] at hletters
    | replying => simp [hleg, Leg.letters] at hletters
  constructor
  · intro i hi
    by_cases hic : i = e.candidate
    · rw [hic, hs.own]
    · exact hover hask i (mem_peers.mpr ⟨hi, hic⟩)
  · intro hwon i hi hic
    rw [beats, if_pos hwon] at hbeat
    exact hover hbeat i (mem_peers.mpr ⟨hi, hic⟩)

theorem tally_last (h : ∀ i ∈ e.members, st.ask i = .complete) : e.tally st = e.supporters := by
  refine IdSet.ext fun i => ?_
  rw [mem_tally, supporters, IdSet.mem_filter]
  constructor
  · rintro ⟨hmem, hgate, _⟩
    exact ⟨hmem, hgate⟩
  · rintro ⟨hmem, hgate⟩
    exact ⟨hmem, hgate, h i hmem⟩

theorem stance_last (hs : e.Valid st) (h : e.letters st = []) (hi : i ∈ e.members) :
    e.stance st i =
      { term := e.term
        role :=
          if i ≠ e.candidate then .follower
          else if e.quorum ≤ e.supporters.size then .leader else .candidate e.supporters
        leader := if e.quorum ≤ e.supporters.size then some e.candidate else none
        vote := if i ∈ e.supporters then some e.candidate else none } := by
  obtain ⟨hask, hbeat⟩ := complete_of_letters hs h
  have htally := tally_last hask
  have hwon : e.won st = decide (e.quorum ≤ e.supporters.size) := by rw [won, htally]; rfl
  have hgate : i ∈ e.supporters ↔ e.gate i = true := by simp [supporters, hi]
  by_cases hic : i = e.candidate
  · subst hic
    have hself : e.candidate ∈ e.supporters := hgate.mpr e.gate_candidate
    rw [stance_candidate, htally, hwon, Node.Stance.counted]
    by_cases hquorum : e.quorum ≤ e.supporters.size
    · simp [hquorum, hself]
    · simp [hquorum, hself]
  · have hover : st.ask i ≠ .waiting := by simp [hask i hi]
    have hleader : (if st.beat i = .waiting then none else some e.candidate) =
        if e.quorum ≤ e.supporters.size then some e.candidate else none := by
      by_cases hquorum : e.quorum ≤ e.supporters.size
      · have hover := hbeat (hwon.trans (decide_eq_true hquorum)) i hi hic
        simp [hover, hquorum]
      · have hwaiting := hs.beats (hwon.trans (decide_eq_false hquorum)) i
        simp [hwaiting, hquorum]
    rw [stance_joined hic (Or.inl hover), joined, hleader]
    simp [hover, hic, hgate]

end Campaign

end Elector
