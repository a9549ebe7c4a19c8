import Elector.Simulation
import Elector.Proofs.Record

/-!
# Nodes whose storages work

When no operation of its storage fails, a handler comes to its end, and all of what it does can be
said: `Answers` names what the node then is (`Stance`) and what it sends. There is one such
statement for an election timeout and for each kind of message that the node is not ahead of.
-/

namespace Elector

/-! ## Storages -/

theorem Disk.write_saveSteps {shelf : Shelf} (r : Ballots) (hdraft : shelf.admits .draft = true)
    (hvotes : shelf.admits .votes = true) :
    ∃ shelf', (Disk.shelf shelf).write r.saveSteps none = (.shelf shelf', true) ∧
      shelf'.admits .draft = true ∧ shelf'.admits .votes = true := by
  let created := shelf.set .draft (some (.file []))
  let complete := created.set .draft (some (.file r.encode))
  let renamed := (complete.set .draft none).set .votes (some (.file r.encode))
  have hadmits : ∀ f, shelf.admits f = true →
      complete.admits f = true ∧ renamed.admits f = true := by
    intro f hf
    have hcreated : created.admits f = true := Shelf.admits_set (by simp) hf
    have hcomplete : complete.admits f = true := Shelf.admits_set (by simp) hcreated
    have hremoved : (complete.set .draft none).admits f = true :=
      Shelf.admits_set (by simp) hcomplete
    exact ⟨hcomplete, Shelf.admits_set (by simp) hremoved⟩
  have hcreate : (Disk.shelf shelf).step (.create .draft) = some (.shelf created) := if_pos hdraft
  have happend : (Disk.shelf created).step (.append .draft r.encode) = some (.shelf complete) := by
    simp [step, created, complete]
  have hsync : (Disk.shelf complete).step (.sync .draft) = some (.shelf complete) := by
    simp [step, content?, get, complete]
  have hrename : (Disk.shelf complete).step (.rename .draft .votes) = some (.shelf renamed) := by
    simp [step, complete, renamed, (hadmits _ hvotes).1]
  refine ⟨renamed, ?_, (hadmits _ hdraft).2, (hadmits _ hvotes).2⟩
  simp only [Ballots.saveSteps, write, hcreate, happend, hsync, hrename, Option.map_none]

namespace Storage

/-- No operation fails, and the file of the ballots can be replaced. -/
structure Works (s : Storage) : Prop where
  outage : s.outage = {}
  file : s.medium = .file →
    ∃ shelf, s.disk = .shelf shelf ∧ shelf.admits .draft = true ∧ shelf.admits .votes = true

variable {s : Storage} {w : Write} {next : Ballots} {t : Term} {c : NodeId}

theorem Works.replaceBallots (h : s.Works) (hfile : s.medium = .file) (next : Ballots) :
    ∃ s', s.replaceBallots next none = (s', .ok ()) ∧ s'.Works := by
  obtain ⟨shelf, hdisk, hdraft, hvotes⟩ := h.file hfile
  rw [Storage.replaceBallots]
  by_cases hsame : next = s.ballots
  · rw [if_pos hsame]
    exact ⟨s, rfl, h⟩
  · obtain ⟨shelf', hwrite, hdraft', hvotes'⟩ := Disk.write_saveSteps next hdraft hvotes
    rw [if_neg hsame, hdisk, hwrite]
    exact ⟨_, rfl, h.outage, fun _ => ⟨shelf', rfl, hdraft', hvotes'⟩⟩

theorem Works.perform (h : s.Works) (hchange : w.change s.ballots = .ok next) :
    ∃ s', s.perform w = (s', .ok ()) ∧ s'.Works := by
  have hstop : w.stop s.outage = none := by
    rw [h.outage]
    cases w <;> rfl
  rw [perform_eq]
  cases hmedium : s.medium with
  | memory votes =>
    simp only [hstop, hchange]
    exact ⟨_, rfl, h.outage, fun hfile => by cases hfile⟩
  | file =>
    simp only [hstop, hchange]
    exact h.replaceBallots hmedium next

theorem Works.storeTerm (h : s.Works) (newer : s.ballots.term < t) :
    ∃ s', s.storeTerm t = (s', .ok ()) ∧ s'.Works := by
  have hreach : s.ballots.reach t = .ok (s.ballots.advance t) := by
    have hne : t ≠ s.ballots.term := fun heq => Int32.lt_irrefl (heq ▸ newer)
    rw [Ballots.reach, if_neg (Int32.lt_asymm newer), if_neg hne]
  exact h.perform (w := .reach t) hreach

theorem Works.storeVote (h : s.Works) (reached : ¬ t < s.ballots.term)
    (free : s.ballots.vote? t = none) : ∃ s', s.storeVote t c = (s', .ok ()) ∧ s'.Works := by
  have hcast : ∃ next, s.ballots.cast t c = .ok next := by
    rw [Ballots.cast, if_neg reached, free]
    exact ⟨_, rfl⟩
  obtain ⟨next, hnext⟩ := hcast
  exact h.perform (w := .cast t c) hnext

end Storage

/-! ## Nodes -/

namespace Node

/-- All of a node that changes but for its storage. -/
structure Stance where
  term : Term
  role : Role
  leader : Option NodeId
  vote : Option NodeId

def stance (n : Node) : Stance where
  term := n.term
  role := n.role
  leader := n.leader
  vote := n.vote

def Stance.upTo (st : Stance) (term : Term) : Stance :=
  if st.term < term then { term, role := .follower, leader := none, vote := none } else st

/-- A node as its handlers expect it, with a storage that works. -/
structure Ready (n : Node) : Prop where
  sound : n.Sound
  works : n.storage.Works

/-- `n'` is `n` in the given stance, ready for the next event. -/
structure Assumes (n : Node) (stance : Stance) (n' : Node) : Prop where
  ready : n'.Ready
  roster : n'.roster = n.roster
  position : n'.position = n.position
  stance : n'.stance = stance

/-- The node handles `e` without a failure, assumes `stance` and sends `sends`. -/
def Answers (n : Node) (e : Event) (stance : Stance) (sends : List (NodeId × Message)) : Prop :=
  ∃ n' outputs, n.handle e = (n', .ok outputs) ∧ n.Assumes stance n' ∧
    Simulation.sendsOf outputs = sends

theorem Ready.assumes {n : Node} (h : n.Ready) : n.Assumes n.stance n := ⟨h, rfl, rfl, rfl⟩

theorem Assumes.trans {n n' n'' : Node} {stance stance' : Stance} (h : n.Assumes stance n')
    (h' : n'.Assumes stance' n'') : n.Assumes stance' n'' :=
  ⟨h'.ready, h'.roster.trans h.roster, h'.position.trans h.position, h'.stance⟩

variable {n : Node} {e : Event} {stance : Stance} {sends : List (NodeId × Message)}

theorem Stance.upTo_newer {st : Stance} {term : Term} (newer : st.term < term) :
    st.upTo term = { term, role := .follower, leader := none, vote := none } := if_pos newer

theorem Stance.upTo_current {st : Stance} {term : Term} (current : term = st.term) :
    st.upTo term = st := if_neg (current ▸ Int32.lt_irrefl)

/-- Whatever a handler does, a sound node stays sound, in its place. -/
theorem Ready.answers (h : n.Ready) {n' : Node} {outputs : List Output}
    (heq : n.handle e = (n', .ok outputs)) (works : n'.storage.Works) (hstance : n'.stance = stance)
    (hsends : Simulation.sendsOf outputs = sends) : n.Answers e stance sends := by
  have passes := passes_of_ok heq
  have ready : n'.Ready := ⟨passes.sound h.sound, works⟩
  exact ⟨n', outputs, heq, ⟨ready, passes.roster, passes.position, hstance⟩, hsends⟩

theorem Ready.answers_idle (h : n.Ready) (heq : n.handle e = (n, .ok [])) :
    n.Answers e n.stance [] := h.answers heq h.works rfl rfl

/-! ### What outputs send -/

theorem sendsOf_append (outputs outputs' : List Output) :
    Simulation.sendsOf (outputs ++ outputs') =
      Simulation.sendsOf outputs ++ Simulation.sendsOf outputs' := List.filterMap_append

theorem sendsOf_timers {timers : List Output} (only : OnlyTimers timers) :
    Simulation.sendsOf timers = [] := by
  rw [Simulation.sendsOf, List.filterMap_eq_nil_iff]
  intro o ho
  rw [only o ho]

theorem sendsOf_toPeers (n : Node) (m : Message) :
    Simulation.sendsOf (n.toPeers m) = n.roster.peers.map (·, m) := by
  rw [Simulation.sendsOf, toPeers, List.filterMap_map, ← List.filterMap_eq_map]
  rfl

theorem CatchUp.sendsOf {mid : Node} {before : List Output} (h : CatchUp e n mid before) :
    Simulation.sendsOf before = [] := by
  cases h with
  | stay => rfl
  | adopt =>
    rw [sendsOf_append]
    split <;> rfl

/-! ### Catching up -/

/-- `mid` is `n` after catching up with `term`, without anything sent. -/
structure CaughtUp (n : Node) (term : Term) (mid : Node) (before : List Output) : Prop where
  ready : mid.Ready
  stance : mid.stance = n.stance.upTo term
  term : mid.term = term
  id : mid.id = n.id
  position : mid.position = n.position
  sends : Simulation.sendsOf before = []

theorem Ready.catchUp {m : Message} {t : Term} (h : n.Ready) (current : m.term = t)
    (peer : m.sender ∈ n.roster.peers) (fresh : ¬ t < n.term) :
    ∃ mid before, n.catchUp t = (mid, .ok before) ∧ CaughtUp n t mid before := by
  subst current
  have hexact : ∃ mid before, n.catchUp m.term = (mid, .ok before) ∧ mid.storage.Works ∧
      mid.stance = n.stance.upTo m.term := by
    unfold Node.catchUp
    by_cases newer : n.term < m.term
    · obtain ⟨s, hstore, hworks⟩ := h.works.storeTerm (h.sound.term ▸ newer)
      have hstance : n.stance.upTo m.term = ⟨m.term, .follower, none, none⟩ :=
        Stance.upTo_newer newer
      simp only [if_pos newer, adopt, hstore]
      exact ⟨_, _, rfl, hworks, hstance.symm⟩
    · have current := Int32.le_antisymm (Int32.not_lt.mp fresh) (Int32.not_lt.mp newer)
      have hstance : n.stance.upTo m.term = n.stance := Stance.upTo_current current.symm
      rw [if_neg newer]
      exact ⟨n, [], rfl, h.works, hstance.symm⟩
  obtain ⟨mid, before, heq, works, hstance⟩ := hexact
  rcases catchUp_cases rfl peer fresh with ⟨mid', before', heq', caught, hterm⟩ | ⟨_, _, heq', _⟩
  · rw [heq] at heq'
    cases heq'
    have hid : mid.id = n.id := congrArg Roster.self caught.roster
    exact ⟨mid, before, heq, ⟨caught.sound h.sound, works⟩, hstance, hterm, hid, caught.position,
      caught.sendsOf⟩
  · rw [heq] at heq'
    cases heq'

/-! ### Requests for votes -/

def Stance.decided (st : Stance) (gate : Bool) (candidate : NodeId) : Stance :=
  { st with vote := if gate then some candidate else none }

theorem Ready.decideVote (h : n.Ready) (r : VoteRequest) (before : List Output)
    (free : n.vote = none) :
    ∃ n' after, n.decideVote r before = (n', .ok after) ∧ n'.storage.Works ∧
      n'.stance = n.stance.decided (n.position ≤ r.last) r.candidate ∧
      Simulation.sendsOf after = Simulation.sendsOf before ++
        [(r.candidate, .voteResponse
          { voter := n.id, term := n.term, granted := n.position ≤ r.last })] := by
  have hrecorded : n.storage.ballots.vote? n.term = none := h.sound.vote.symm.trans free
  have hread : n.storage.readVote n.term = .ok none := by
    rw [Storage.readVote, h.works.outage, hrecorded]
    rfl
  rw [Node.decideVote, hread]
  by_cases hgate : n.position ≤ r.last
  · have hcurrent : ¬ n.term < n.storage.ballots.term := h.sound.term ▸ Int32.lt_irrefl
    obtain ⟨s, hstore, hworks⟩ := h.works.storeVote (c := r.candidate) hcurrent hrecorded
    obtain ⟨timers, only, hreset⟩ := addOnce_reset before
    simp only [hgate, hstore, hreset]
    refine ⟨_, _, rfl, hworks, rfl, ?_⟩
    rw [sendsOf_append, sendsOf_append, sendsOf_timers only, List.append_nil]
    rfl
  · simp only [hgate]
    refine ⟨_, _, rfl, h.works, ?_, ?_⟩
    · simp [Stance.decided, stance, free]
    · rw [sendsOf_append]
      rfl

def respond (n : Node) : Message → Reaction
  | .voteRequest r => n.onVoteRequest r
  | .voteResponse r => n.onVoteResponse r
  | .appendEntries r => n.onAppendEntries r
  | .appendResponse r => n.onAppendResponse r

theorem handle_message {m : Message} (peer : m.sender ∈ n.roster.peers) :
    n.handle (.message m) = n.respond m := by
  rw [handle, onMessage.eq_def, if_pos (Roster.isPeer_iff.mpr peer)]
  cases m <;> rfl

theorem Ready.answers_voteRequest {r : VoteRequest} (h : n.Ready)
    (peer : r.candidate ∈ n.roster.peers) (fresh : ¬ r.term < n.term)
    (free : (n.stance.upTo r.term).vote = none) :
    n.Answers (.message (.voteRequest r))
      ((n.stance.upTo r.term).decided (n.position ≤ r.last) r.candidate)
      [(r.candidate, .voteResponse
        { voter := n.id, term := r.term, granted := n.position ≤ r.last })] := by
  obtain ⟨mid, before, hcatch, caught⟩ :=
    h.catchUp (m := .voteRequest r) (t := r.term) rfl peer fresh
  have hfree : mid.vote = none := (congrArg Stance.vote caught.stance).trans free
  obtain ⟨n', after, hdecide, works, hstance, hsends⟩ := caught.ready.decideVote r before hfree
  rw [caught.stance, caught.position] at hstance
  rw [caught.sends, caught.term, caught.id, caught.position] at hsends
  have heq : n.handle (.message (.voteRequest r)) = (n', .ok after) := by
    rw [handle_message (m := .voteRequest r) peer, respond]
    simp only [onVoteRequest, if_neg fresh, hcatch, hdecide]
  exact h.answers heq works hstance hsends

/-! ### Heartbeats -/

def Stance.following (st : Stance) (leader : NodeId) : Stance :=
  { st with role := .follower, leader := some leader }

theorem Ready.answers_appendEntries {r : AppendEntries} (h : n.Ready)
    (peer : r.leader ∈ n.roster.peers) (fresh : ¬ r.term < n.term)
    (hrole : (n.stance.upTo r.term).role ≠ .leader) :
    n.Answers (.message (.appendEntries r)) ((n.stance.upTo r.term).following r.leader)
      [(r.leader, .appendResponse { follower := n.id, term := r.term, success := true })] := by
  obtain ⟨mid, before, hcatch, caught⟩ :=
    h.catchUp (m := .appendEntries r) (t := r.term) rfl peer fresh
  have hleads : mid.isLeader = false := by
    have hmid : mid.role = (n.stance.upTo r.term).role := congrArg Stance.role caught.stance
    rw [isLeader, hmid]
    exact decide_eq_false hrole
  obtain ⟨timers, only, hreset⟩ := addOnce_reset before
  have heq : n.handle (.message (.appendEntries r)) =
      ({ mid with role := .follower, leader := some r.leader },
        .ok (before ++ timers ++ [mid.answerAppend r.leader true])) := by
    rw [handle_message (m := .appendEntries r) peer, respond]
    simp only [onAppendEntries, if_neg fresh, hcatch, hleads, hreset]
    rfl
  refine h.answers heq caught.ready.works (by rw [← caught.stance]; rfl) ?_
  rw [sendsOf_append, sendsOf_append, caught.sends, sendsOf_timers only, answerAppend, caught.term,
    caught.id]
  rfl

theorem Ready.answers_appendResponse {r : AppendResponse} (h : n.Ready)
    (peer : r.follower ∈ n.roster.peers) (current : r.term = n.term) :
    n.Answers (.message (.appendResponse r)) n.stance [] := by
  apply h.answers_idle
  rw [handle_message (m := .appendResponse r) peer, respond]
  exact if_neg (current ▸ Int32.lt_irrefl)

/-! ### Votes -/

/-- The stance of a candidate that has received `votes`, which carry it if `won`. -/
def Stance.counted (st : Stance) (self : NodeId) (votes : IdSet) (won : Bool) : Stance :=
  if won then { st with role := .leader, leader := some self }
  else { st with role := .candidate votes }

def announces (n : Node) (term : Term) (won : Bool) : List (NodeId × Message) :=
  if won then n.roster.peers.map (·, .appendEntries (heartbeat n.id term n.position)) else []

theorem sendsOf_announcement (n : Node) :
    Simulation.sendsOf n.announcement =
      n.roster.peers.map (·, .appendEntries (heartbeat n.id n.term n.position)) := by
  rw [announcement, sendsOf_append, heartbeats, sendsOf_toPeers]
  rfl

theorem Ready.answers_grant {r : VoteResponse} {votes : IdSet} (h : n.Ready)
    (peer : r.voter ∈ n.roster.peers) (current : r.term = n.term) (granted : r.granted = true)
    (role : n.role = .candidate votes) :
    n.Answers (.message (.voteResponse r))
      (n.stance.counted n.id (votes.insert r.voter)
        ((votes.insert r.voter).carries n.roster.quorum))
      (n.announces n.term ((votes.insert r.voter).carries n.roster.quorum)) := by
  have hnewer : ¬ n.term < r.term := current ▸ Int32.lt_irrefl
  have holder : ¬ r.term < n.term := current ▸ Int32.lt_irrefl
  by_cases carried : (votes.insert r.voter).carries n.roster.quorum = true
  · have heq : n.handle (.message (.voteResponse r)) = (n.leading, .ok n.announcement) := by
      rw [handle_message (m := .voteResponse r) peer, respond]
      simp only [onVoteResponse, if_neg hnewer, if_neg holder, role, if_pos granted, if_pos carried]
      rfl
    refine h.answers heq h.works ?_ ?_
    · rw [Stance.counted, if_pos carried]
      rfl
    · rw [announces, if_pos carried, sendsOf_announcement]
  · have heq : n.handle (.message (.voteResponse r)) =
        ({ n with role := .candidate (votes.insert r.voter) }, .ok []) := by
      rw [handle_message (m := .voteResponse r) peer, respond]
      simp only [onVoteResponse, if_neg hnewer, if_neg holder, role, if_pos granted,
        if_neg carried]
    refine h.answers heq h.works ?_ ?_
    · rw [Stance.counted, if_neg carried]
      rfl
    · rw [announces, if_neg carried]
      rfl

/-- A vote that is refused, or comes when the election is over, changes nothing. -/
theorem Ready.answers_voteResponse {r : VoteResponse} (h : n.Ready)
    (peer : r.voter ∈ n.roster.peers) (current : r.term = n.term)
    (idle : r.granted = false ∨ n.role.tally? = none) :
    n.Answers (.message (.voteResponse r)) n.stance [] := by
  have hnewer : ¬ n.term < r.term := current ▸ Int32.lt_irrefl
  have holder : ¬ r.term < n.term := current ▸ Int32.lt_irrefl
  apply h.answers_idle
  rw [handle_message (m := .voteResponse r) peer, respond]
  simp only [onVoteResponse, if_neg hnewer, if_neg holder]
  split
  · rename_i votes hrole
    have hgranted : ¬ r.granted = true := by
      rcases idle with hrefused | hnone
      · simp [hrefused]
      · rw [hrole] at hnone
        cases hnone
    rw [if_neg hgranted]
  · rfl

/-! ### Standing for election -/

/-- The message to all other members with which a node stands for election, or takes the lead if it
needs no other vote. -/
def opening (n : Node) (won : Bool) : Message :=
  if won then .appendEntries (heartbeat n.id (n.term + 1) n.position)
  else .voteRequest { candidate := n.id, term := n.term + 1, last := n.position }

theorem Ready.answers_electionTimeout (h : n.Ready) (leads : n.isLeader = false)
    (grows : n.term ≠ Int32.maxValue) :
    n.Answers .electionTimeout
      (Stance.counted ⟨n.term + 1, .follower, none, some n.id⟩ n.id (.singleton n.id)
        ((IdSet.singleton n.id).carries n.roster.quorum))
      (n.roster.peers.map
        (·, n.opening ((IdSet.singleton n.id).carries n.roster.quorum))) := by
  have hnext := term_lt_next grows
  have hreached : ¬ n.term + 1 < n.storage.ballots.term := h.sound.term ▸ Int32.lt_asymm hnext
  have hfree : n.storage.ballots.vote? (n.term + 1) = none :=
    h.sound.settled.vote_newer (h.sound.term ▸ hnext)
  obtain ⟨s, hstore, hworks⟩ := h.works.storeVote (c := n.id) hreached hfree
  have hposition : (n.standing s).position = n.position :=
    congrArg LogView.position (Storage.casts_of_storeVote hstore).log
  have hleads : ¬ n.isLeader = true := Bool.eq_false_iff.mp leads
  by_cases carried : (IdSet.singleton n.id).carries n.roster.quorum = true
  · have heq : n.handle .electionTimeout =
        ((n.standing s).leading, .ok (n.standing s).announcement) := by
      simp only [handle, onElectionTimeout, if_neg hleads, if_neg grows, hstore, if_pos carried]
      rfl
    refine h.answers heq hworks ?_ ?_
    · rw [Stance.counted, if_pos carried]
      rfl
    · rw [sendsOf_announcement, opening, if_pos carried, hposition]
      rfl
  · have heq : n.handle .electionTimeout = (n.standing s,
        .ok ((n.standing s).toPeers (n.standing s).ballot ++ [.resetElectionTimer])) := by
      simp only [handle, onElectionTimeout, if_neg hleads, if_neg grows, hstore, if_neg carried]
      rfl
    refine h.answers heq hworks ?_ ?_
    · rw [Stance.counted, if_neg carried]
      rfl
    · rw [sendsOf_append, sendsOf_toPeers, opening, if_neg carried, ballot, hposition]
      exact List.append_nil _

end Node

end Elector
