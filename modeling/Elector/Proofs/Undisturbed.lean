import Elector.Proofs.Campaign
import Elector.Proofs.Frame

/-!
# Undisturbed elections

A simulation is at a stage of a campaign (`At`) when its members are what the stage says and the
letters of the stage are what is in flight, in any order. Whichever letter is delivered, the
simulation comes to a stage with fewer deliveries left (`At.deliverAt`); so every order comes to an
end, and every end is the last stage. It depends on the logs only (`undisturbed_election`).
-/

namespace Elector

namespace Campaign

variable {e : Campaign} {st st' : Stage} {i v : NodeId} {n : Node} {x : Letter}
  {sends : List Letter}

/-! ## What the receiver of a letter does -/

theorem Holds.joins (h : e.Holds st v n) (peer : v ∈ e.peers) :
    e.candidate ∈ n.roster.peers ∧ ¬ e.term < n.term ∧ n.stance.upTo e.term = e.joined st v := by
  obtain ⟨hmem, hne⟩ := mem_peers.mp peer
  have hterm : n.term = (e.stance st v).term := congrArg Node.Stance.term h.stance
  refine ⟨(h.peer hmem).mpr ⟨e.mem, Ne.symm hne⟩, ?_, ?_⟩
  · rw [hterm]
    exact not_term_lt peer
  · rw [h.stance, upTo_stance peer]

theorem Holds.answers_request (h : e.Holds st v n) (peer : v ∈ e.peers)
    (leg : st.ask v = .waiting) :
    n.Answers (.message (e.request v).2) (e.stance (st.setAsk v .replying) v) [e.vote v] := by
  obtain ⟨hmem, hne⟩ := mem_peers.mp peer
  obtain ⟨hpeer, hfresh, hjoined⟩ := h.joins peer
  have hfree : (n.stance.upTo e.term).vote = none := by simp [hjoined, joined, leg]
  have hgate : decide (n.position ≤ e.last) = e.gate v := by rw [h.position, gate]
  have hstance : e.stance (st.setAsk v .replying) v =
      (n.stance.upTo e.term).decided (n.position ≤ e.last) e.candidate := by
    rw [stance_joined hne (by simp), hjoined, hgate, joined, joined, Stage.beat_setAsk,
      Stage.ask_setAsk, Function.update_self]
    simp [Node.Stance.decided]
  have hvote : e.vote v = (e.candidate, .voteResponse
      { voter := n.id, term := e.term, granted := n.position ≤ e.last }) := by
    rw [vote, h.id hmem, hgate]
  rw [hstance, hvote]
  exact h.ready.answers_voteRequest (r := ⟨e.candidate, e.term, e.last⟩) hpeer hfresh hfree

theorem Holds.answers_beat (h : e.Holds st v n) (peer : v ∈ e.peers) :
    n.Answers (.message (e.beat v).2) (e.stance (st.setBeat v .replying) v) [e.echo v] := by
  obtain ⟨hmem, hne⟩ := mem_peers.mp peer
  obtain ⟨hpeer, hfresh, hjoined⟩ := h.joins peer
  have hrole : (n.stance.upTo e.term).role ≠ .leader := by simp [hjoined, joined]
  have hstance : e.stance (st.setBeat v .replying) v =
      (n.stance.upTo e.term).following e.candidate := by
    rw [stance_joined hne (by simp), hjoined, joined, joined, Stage.ask_setBeat,
      Stage.beat_setBeat, Function.update_self]
    simp [Node.Stance.following]
  have hecho : e.echo v = (e.candidate, .appendResponse
      { follower := n.id, term := e.term, success := true }) := by
    rw [echo, h.id hmem]
  rw [hstance, hecho]
  exact h.ready.answers_appendEntries (r := heartbeat e.candidate e.term e.last) hpeer hfresh hrole

theorem Holds.term (h : e.Holds st e.candidate n) : n.term = e.term := by
  have hterm : n.term = (e.stance st e.candidate).term := congrArg Node.Stance.term h.stance
  rw [hterm, stance_candidate, Node.Stance.counted]
  split <;> rfl

theorem Holds.answers_counted (h : e.Holds st e.candidate n) (peer : v ∈ e.peers)
    (leg : st.ask v = .replying) (lost : e.won st = false) (hgate : e.gate v = true) :
    n.Answers (.message (e.vote v).2) (e.stance (st.setAsk v .complete) e.candidate)
      (if e.won (st.setAsk v .complete) then e.peers.map e.beat else []) := by
  have hpeer : v ∈ n.roster.peers := (h.peer e.mem).mpr (mem_peers.mp peer)
  have htally : e.tally (st.setAsk v .complete) = (e.tally st).insert v := by
    rw [tally_vote (mem_peers.mp peer).1 leg, if_pos hgate]
  have hwon : ((e.tally st).insert v).carries n.roster.quorum = e.won (st.setAsk v .complete) := by
    rw [won, htally, h.roster, quorum]
  have hbefore : n.stance = _ := h.stance.trans stance_candidate
  rw [lost] at hbefore
  have hrole : n.role = .candidate (e.tally st) := congrArg Node.Stance.role hbefore
  have hbeats : n.announces n.term (e.won (st.setAsk v .complete)) =
      if e.won (st.setAsk v .complete) then e.peers.map e.beat else [] := by
    rw [Node.announces, h.id e.mem, h.term, h.roster, h.position]
    rfl
  have hanswers := h.ready.answers_grant (r := ⟨v, e.term, true⟩) hpeer h.term.symm rfl hrole
  rw [hwon, hbeats, h.id e.mem, hbefore, ← htally] at hanswers
  rw [stance_candidate, vote, hgate]
  exact hanswers

theorem Holds.answers_uncounted (h : e.Holds st e.candidate n) (peer : v ∈ e.peers)
    (leg : st.ask v = .replying) (hidle : e.gate v = false ∨ e.won st = true) :
    n.Answers (.message (e.vote v).2) (e.stance (st.setAsk v .complete) e.candidate) [] ∧
      e.won (st.setAsk v .complete) = e.won st := by
  have hpeer : v ∈ n.roster.peers := (h.peer e.mem).mpr (mem_peers.mp peer)
  have hbefore : n.stance = _ := h.stance.trans stance_candidate
  have hafter : e.stance (st.setAsk v .complete) e.candidate = n.stance ∧
      e.won (st.setAsk v .complete) = e.won st ∧ (e.gate v = false ∨ n.role.tally? = none) := by
    rcases hidle with hgate | hwon
    · have htally : e.tally (st.setAsk v .complete) = e.tally st := by
        rw [tally_vote (mem_peers.mp peer).1 leg, hgate]
        rfl
      have hwon : e.won (st.setAsk v .complete) = e.won st := by rw [won, htally, won]
      rw [stance_candidate, htally, hwon, hbefore]
      exact ⟨rfl, rfl, Or.inl hgate⟩
    · rw [hwon] at hbefore
      have hrole : n.role = .leader := congrArg Node.Stance.role hbefore
      rw [stance_candidate, won_vote hwon, hbefore, hwon, hrole]
      exact ⟨rfl, rfl, Or.inr rfl⟩
  obtain ⟨hstance, hwon, hignored⟩ := hafter
  refine ⟨?_, hwon⟩
  rw [hstance]
  exact h.ready.answers_voteResponse (r := ⟨v, e.term, e.gate v⟩) hpeer h.term.symm hignored

theorem Holds.answers_vote (h : e.Holds st e.candidate n) (peer : v ∈ e.peers)
    (leg : st.ask v = .replying) :
    n.Answers (.message (e.vote v).2) (e.stance (st.setAsk v .complete) e.candidate)
      (e.harvest st v) := by
  rw [harvest]
  by_cases hidle : e.gate v = false ∨ e.won st = true
  · obtain ⟨hanswers, hwon⟩ := h.answers_uncounted peer leg hidle
    rw [if_neg (by simp [hwon])]
    exact hanswers
  · obtain ⟨hgate, hlost⟩ := not_or.mp hidle
    have lost : e.won st = false := Bool.eq_false_iff.mpr hlost
    have hanswers := h.answers_counted peer leg lost (by simpa using hgate)
    simpa [lost] using hanswers

theorem Holds.answers_echo (h : e.Holds st e.candidate n) (peer : v ∈ e.peers) :
    n.Answers (.message (e.echo v).2) (e.stance (st.setBeat v .complete) e.candidate) [] := by
  have hpeer : v ∈ n.roster.peers := (h.peer e.mem).mpr (mem_peers.mp peer)
  have hstance : e.stance (st.setBeat v .complete) e.candidate = n.stance := by
    rw [h.stance, stance_candidate, stance_candidate]
    rfl
  rw [hstance]
  exact h.ready.answers_appendResponse (r := ⟨v, e.term, true⟩) hpeer h.term.symm

theorem Deals.answers (h : Deals e st x sends st') (hn : e.Holds st x.1 n) :
    n.Answers (.message x.2) (e.stance st' x.1) sends := by
  cases h with
  | request peer leg => exact hn.answers_request peer leg
  | vote peer leg => exact hn.answers_vote peer leg
  | beat peer won leg => exact hn.answers_beat peer
  | echo peer won leg => exact hn.answers_echo peer

end Campaign

/-! ## Deliveries in a simulation -/

namespace Simulation

variable {s s' : Simulation} {i : NodeId} {n : Node} {ev : Event} {stance : Node.Stance}
  {sends : List Letter} {place : Nat} {x : Letter}

structure Became (s : Simulation) (i : NodeId) (n : Node) (sends : List Letter)
    (s' : Simulation) : Prop where
  nodes : s'.nodes = s.nodes.insert i n
  queue : s'.queue = s.queue ++ sends
  isolated : s'.isolated = s.isolated
  cuts : s'.cuts = s.cuts

theorem react_of_answers (hnode : s.nodes.find? i = some n) (h : n.Answers ev stance sends) :
    ∃ handled s' n', s.react i ev = some (handled, s') ∧ Became s i n' sends s' ∧
      n.Assumes stance n' := by
  obtain ⟨n', outputs, heq, assumes, rfl⟩ := h
  rw [react, hnode]
  dsimp only
  rw [heq]
  exact ⟨_, _, n', rfl, ⟨rfl, rfl, rfl, rfl⟩, assumes⟩

theorem deliverAt_of_answers (hisolated : s.isolated = .empty) (hcuts : s.cuts = [])
    (hplace : s.queue[place % s.queue.length]? = some x) (hnode : s.nodes.find? x.1 = some n)
    (h : n.Answers (.message x.2) stance sends) :
    ∃ delivery s' n', s.deliverAt place = some (delivery, s') ∧
      Became { s with queue := s.queue.eraseIdx (place % s.queue.length) } x.1 n' sends s' ∧
      n.Assumes stance n' := by
  obtain ⟨target, m⟩ := x
  have hconnected : connected
      { s with queue := s.queue.eraseIdx (place % s.queue.length) } m.sender target = true := by
    simp [connected, hisolated, hcuts]
  have hdecode := Frame.decode_encode_self m
  obtain ⟨handled, s', n', hreact, became⟩ := react_of_answers
    (s := { s with queue := s.queue.eraseIdx (place % s.queue.length) }) hnode h
  refine ⟨.handled handled, s', n', ?_, became⟩
  rw [deliverAt, hplace]
  simp only [deliver, if_pos hconnected, hdecode, hreact]

def deliverEach (s : Simulation) : List Nat → Option Simulation
  | [] => some s
  | place :: places =>
    match s.deliverAt place with
    | none => none
    | some (_, s) => s.deliverEach places

end Simulation

namespace Campaign

variable {e : Campaign} {st : Stage} {s s' : Simulation} {place : Nat} {x : Letter}

/-- The simulation is at a stage of the campaign. -/
structure At (e : Campaign) (st : Stage) (s : Simulation) : Prop where
  valid : e.Valid st
  isolated : s.isolated = .empty
  cuts : s.cuts = []
  queue : s.queue.Perm (e.letters st)
  node : ∀ i ∈ e.members, ∃ n, s.nodes.find? i = some n ∧ e.Holds st i n

open List in
/-- Whichever letter is delivered next, the campaign goes on by one stage. -/
theorem At.deliverAt (h : e.At st s) (hplace : s.queue[place % s.queue.length]? = some x) :
    ∃ delivery s' st', s.deliverAt place = some (delivery, s') ∧ e.At st' s' ∧
      e.left st' + 1 = e.left st := by
  have hx : x ∈ e.letters st := h.queue.mem_iff.mp (List.mem_of_getElem? hplace)
  obtain ⟨sends, st', deals⟩ := deals_of_mem hx
  obtain ⟨n, hnode, holds⟩ := h.node x.1 deals.receiver
  obtain ⟨delivery, s', n', hdeliver, became, assumes⟩ :=
    Simulation.deliverAt_of_answers h.isolated h.cuts hplace hnode (deals.answers holds)
  refine ⟨delivery, s', st', hdeliver, ?_, deals.left⟩
  refine ⟨deals.valid h.valid, became.isolated.trans h.isolated, became.cuts.trans h.cuts, ?_, ?_⟩
  · rw [became.queue]
    apply Perm.cons_inv (a := x)
    calc x :: (s.queue.eraseIdx (place % s.queue.length) ++ sends)
      _ ~ s.queue ++ sends := (perm_cons_eraseIdx hplace).append_right sends
      _ ~ e.letters st ++ sends := h.queue.append_right sends
      _ ~ x :: e.letters st' := (deals.letters h.valid).symm
  · intro i hi
    rw [became.nodes, IdMap.find?_insert]
    by_cases hix : i = x.1
    · subst hix
      rw [if_pos rfl]
      exact ⟨n', rfl, holds.trans assumes⟩
    · obtain ⟨n, hnode, holds⟩ := h.node i hi
      rw [if_neg hix]
      refine ⟨n, hnode, ?_⟩
      rw [Holds, deals.stance hix]
      exact holds

theorem At.deliverEach {places : List Nat} (h : e.At st s)
    (hdeliver : s.deliverEach places = some s') :
    ∃ st', e.At st' s' ∧ e.left st' + places.length = e.left st := by
  induction places generalizing s st with
  | nil =>
    cases hdeliver
    exact ⟨st, h, rfl⟩
  | cons place places ih =>
    rw [Simulation.deliverEach] at hdeliver
    cases hplace : s.queue[place % s.queue.length]? with
    | none =>
      have hnone : s.deliverAt place = none := by
        rw [Simulation.deliverAt]
        simp only [hplace]
      rw [hnone] at hdeliver
      cases hdeliver
    | some x =>
      obtain ⟨delivery, s₁, st₁, hfirst, hat, hleft⟩ := h.deliverAt hplace
      rw [hfirst] at hdeliver
      obtain ⟨st', hat', hleft'⟩ := ih hat hdeliver
      refine ⟨st', hat', ?_⟩
      rw [List.length_cons]
      omega

theorem At.exists_last (h : e.At st s) :
    ∃ places s', s.deliverEach places = some s' ∧ s'.queue = [] := by
  induction hleft : e.left st using Nat.strongRecOn generalizing s st with
  | ind count ih =>
    by_cases hnil : s.queue = []
    · exact ⟨[], s, rfl, hnil⟩
    · have hplace : s.queue[0 % s.queue.length]? = some (s.queue.head hnil) := by
        rw [Nat.zero_mod, ← List.head?_eq_getElem?, List.head?_eq_some_head hnil]
      obtain ⟨delivery, s₁, st₁, hfirst, hat, hless⟩ := h.deliverAt hplace
      obtain ⟨places, s', hdeliver, hempty⟩ := ih (e.left st₁) (by omega) hat rfl
      refine ⟨0 :: places, s', ?_, hempty⟩
      rw [Simulation.deliverEach, hfirst]
      exact hdeliver

/-- An election timeout of the candidate brings a quiet simulation to the first stage. -/
theorem at_first (e : Campaign) (hqueue : s.queue = []) (hisolated : s.isolated = .empty)
    (hcuts : s.cuts = []) (hnode : ∀ i ∈ e.members, s.nodes.find? i = some (e.node i)) :
    ∃ handled s', s.react e.candidate .electionTimeout = some (handled, s') ∧ e.At e.first s' := by
  have hid : (e.node e.candidate).id = e.candidate := e.id _ e.mem
  have hwon : (IdSet.singleton e.candidate).carries (e.node e.candidate).roster.quorum =
      e.won e.first := e.won_first.symm
  have hanswers := (e.ready _ e.mem).answers_electionTimeout e.leads e.grows
  rw [hid, hwon] at hanswers
  obtain ⟨handled, s', n', hreact, became, assumes⟩ :=
    Simulation.react_of_answers (hnode _ e.mem) hanswers
  refine ⟨handled, s', hreact, e.valid_first, became.isolated.trans hisolated,
    became.cuts.trans hcuts, ?_, ?_⟩
  · rw [became.queue, hqueue, List.nil_append, letters_first]
    rfl
  · intro i hi
    rw [became.nodes, IdMap.find?_insert]
    by_cases hic : i = e.candidate
    · subst hic
      rw [if_pos rfl]
      refine ⟨n', rfl, ?_⟩
      rw [Holds, stance_candidate, tally_first]
      exact assumes
    · rw [if_neg hic]
      refine ⟨e.node i, hnode i hi, ?_⟩
      rw [Holds, stance, if_neg hic, if_pos ⟨ask_first hic, rfl⟩]
      exact (e.ready i hi).assumes

end Campaign

/-! ## Elections in a run -/

/-- What a node is after an election of `c` in `term` in which `supporters` were free to vote for
it. -/
structure Node.Decided (n : Node) (quorum : Nat) (supporters : IdSet) (c : NodeId) (term : Term) :
    Prop where
  term : n.term = term
  vote : n.vote = if n.id ∈ supporters then some c else none
  won : quorum ≤ supporters.size →
    n.role = (if n.id = c then .leader else .follower) ∧ n.leader = some c
  lost : ¬ quorum ≤ supporters.size →
    n.role = (if n.id = c then .candidate supporters else .follower) ∧ n.leader = none

theorem Campaign.Holds.decided {e : Campaign} {st : Stage} {i : NodeId} {n : Node}
    (h : e.Holds st i n) (hs : e.Valid st) (hletters : e.letters st = []) (hi : i ∈ e.members) :
    n.Decided e.quorum e.supporters e.candidate e.term := by
  have hstance := h.stance.trans (stance_last hs hletters hi)
  have hrole : n.role = _ := congrArg Node.Stance.role hstance
  have hleader : n.leader = _ := congrArg Node.Stance.leader hstance
  dsimp only at hrole hleader
  refine ⟨congrArg Node.Stance.term hstance, ?_, fun hwon => ?_, fun hlost => ?_⟩
  · rw [h.id hi]
    exact congrArg Node.Stance.vote hstance
  · rw [hrole, hleader, h.id hi]
    simp [hwon]
  · rw [hrole, hleader, h.id hi]
    simp [hlost]

namespace Run

variable {members : IdSet} {k : Nat} {c : NodeId}

/-- The members are as they are at a moment of a run, with storages that work. Nothing is in
flight, and nothing is cut off. -/
structure Quiet (run : Run members) (k : Nat) (s : Simulation) : Prop where
  node : ∀ i ∈ members, s.nodes.find? i = some ((run.node k i).under {})
  works : ∀ i ∈ members, ((run.node k i).under {}).storage.Works
  queue : s.queue = []
  isolated : s.isolated = .empty
  cuts : s.cuts = []

def behind (run : Run members) (k : Nat) (c : NodeId) : IdSet :=
  members.filter fun i => (run.node k i).position ≤ (run.node k c).position

def campaign (run : Run members) (hk : k ≤ run.length) (hc : c ∈ members) {s : Simulation}
    (quiet : run.Quiet k s) (leads : (run.node k c).isLeader = false)
    (grows : (run.node k c).term ≠ Int32.maxValue)
    (ahead : ∀ i ∈ members, (run.node k i).term ≤ (run.node k c).term) : Campaign where
  members := members
  candidate := c
  node i := (run.node k i).under {}
  mem := hc
  ready i hi := ⟨Node.sound_under (run.sound hi hk) {}, quiet.works i hi⟩
  id _ hi := run.id_node hi hk
  roster _ hi := run.members_node hi hk
  leads := leads
  grows := grows
  ahead := ahead

/-- **Undisturbed elections.** A member that does not lead and is not behind in its term stands for
election while nothing else is in flight, and all messages are delivered, in any order. They come
to an end, and then it leads the next term if its log is not behind the logs of a quorum, and still
is a candidate if not; just the members whose logs do not go beyond its own have voted for it. -/
theorem undisturbed_election (run : Run members) (hk : k ≤ run.length) (hc : c ∈ members)
    {s : Simulation} (quiet : run.Quiet k s) (leads : (run.node k c).isLeader = false)
    (grows : (run.node k c).term ≠ Int32.maxValue)
    (ahead : ∀ i ∈ members, (run.node k i).term ≤ (run.node k c).term) :
    ∃ handled s₁, s.react c .electionTimeout = some (handled, s₁) ∧
      (∃ places s₂, s₁.deliverEach places = some s₂ ∧ s₂.queue = []) ∧
      ∀ places s₂, s₁.deliverEach places = some s₂ →
        places.length ≤ 4 * (members.size - 1) ∧
        (s₂.queue = [] → ∀ i ∈ members, ∃ n, s₂.nodes.find? i = some n ∧ n.id = i ∧
          n.Decided (run.node k c).roster.quorum (run.behind k c) c
            ((run.node k c).term + 1)) := by
  let e := run.campaign hk hc quiet leads grows ahead
  obtain ⟨handled, s₁, hreact, hat⟩ :=
    e.at_first quiet.queue quiet.isolated quiet.cuts quiet.node
  refine ⟨handled, s₁, hreact, hat.exists_last, fun places s₂ hdeliver => ?_⟩
  obtain ⟨st, hat', hleft⟩ := hat.deliverEach hdeliver
  rw [e.left_first] at hleft
  refine ⟨Nat.le.intro ((Nat.add_comm ..).trans hleft), fun hempty i hi => ?_⟩
  have hletters : e.letters st = [] := by
    have hperm := hat'.queue
    rw [hempty] at hperm
    exact hperm.nil_eq.symm
  obtain ⟨n, hnode, holds⟩ := hat'.node i hi
  exact ⟨n, hnode, holds.id hi, holds.decided hat'.valid hletters hi⟩

/-- The members at the end of the example run, in which 1 leads term 2. -/
def exampleQuiet : Simulation where
  nodes := .ofList ([1, 2, 3].map fun i => (i, (exampleRun.node 8 i).under {}))

theorem quiet_exampleQuiet : exampleRun.Quiet 8 exampleQuiet where
  node := by
    intro i hi
    have hi : i = 1 ∨ i = 2 ∨ i = 3 := by simpa using IdSet.mem_ofList.mp hi
    rcases hi with rfl | rfl | rfl <;> decide +kernel
  works := by
    intro i hi
    have hi : i = 1 ∨ i = 2 ∨ i = 3 := by simpa using IdSet.mem_ofList.mp hi
    rcases hi with rfl | rfl | rfl <;> exact ⟨rfl, fun hfile => by cases hfile⟩
  queue := rfl
  isolated := rfl
  cuts := rfl

/-- In the end 2 leads term 3, and 1, which led term 2, has voted for it. -/
theorem undisturbed_election_exampleQuiet :
    ∃ handled s₁, exampleQuiet.react 2 .electionTimeout = some (handled, s₁) ∧
      ∃ places s₂, s₁.deliverEach places = some s₂ ∧ places.length ≤ 8 ∧
        (∃ n, s₂.nodes.find? 2 = some n ∧ n.term = 3 ∧ n.role = .leader) ∧
        ∃ n, s₂.nodes.find? 1 = some n ∧ n.term = 3 ∧ n.vote = some 2 := by
  have ahead : ∀ i ∈ IdSet.ofList [1, 2, 3],
      (exampleRun.node 8 i).term ≤ (exampleRun.node 8 2).term := by
    intro i hi
    have hi : i = 1 ∨ i = 2 ∨ i = 3 := by simpa using IdSet.mem_ofList.mp hi
    rcases hi with rfl | rfl | rfl <;> decide +kernel
  obtain ⟨handled, s₁, hreact, ⟨places, s₂, hdeliver, hempty⟩, hall⟩ :=
    exampleRun.undisturbed_election (k := 8) (c := 2) (by decide) (by decide) quiet_exampleQuiet
      (by decide +kernel) (by decide +kernel) ahead
  obtain ⟨hlength, hdecided⟩ := hall places s₂ hdeliver
  have hbehind : exampleRun.behind 8 2 = .ofList [1, 2, 3] := by decide +kernel
  have hterm : (exampleRun.node 8 2).term + 1 = 3 := by decide +kernel
  have hquorum : (exampleRun.node 8 2).roster.quorum = 2 := by decide +kernel
  rw [hbehind, hterm, hquorum] at hdecided
  refine ⟨handled, s₁, hreact, places, s₂, hdeliver, hlength, ?_, ?_⟩
  · obtain ⟨n, hnode, hid, hn⟩ := hdecided hempty 2 (by decide)
    have hrole := (hn.won (by decide)).1
    rw [hid] at hrole
    exact ⟨n, hnode, hn.term, hrole⟩
  · obtain ⟨n, hnode, hid, hn⟩ := hdecided hempty 1 (by decide)
    have hvote := hn.vote
    rw [hid] at hvote
    exact ⟨n, hnode, hn.term, hvote⟩

end Run

end Elector
