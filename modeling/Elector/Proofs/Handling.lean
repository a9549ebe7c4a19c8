import Elector.Node
import Elector.Proofs.Storage

/-!
# What handling an event can do

Every handler first brings the node's term up to date (`CatchUp`) and then makes one change
(`Move`). `explains_handle` says that this is all that handling an event ever does; properties of
nodes are proved change by change from it, and no later proof opens a handler.

An output list of a change is what the handler asks for if it succeeds. A handler that fails has
made its changes all the same, but asks for nothing.
-/

namespace Elector.Node

/-! ## The changes -/

def standing (n : Node) (s : Storage) : Node :=
  { n with
    storage := s, term := n.term + 1, role := .candidate (.singleton n.id), leader := none,
    vote := some n.id }

def leading (n : Node) : Node := { n with role := .leader, leader := some n.id }

def announcement (n : Node) : List Output :=
  [.becameLeader n.term, .scheduleHeartbeat] ++ n.heartbeats

def ballot (n : Node) : Message :=
  .voteRequest { candidate := n.id, term := n.term, last := n.position }

/-- Output that only puts off the election timeout. -/
def OnlyTimers (outputs : List Output) : Prop := ∀ o ∈ outputs, o = .resetElectionTimer

/-- Adopting the newer term of another member's message, or having no need to. -/
inductive CatchUp (e : Event) (n : Node) : Node → List Output → Prop
  | stay : CatchUp e n n []
  | adopt {m : Message} {s : Storage} (event : e = .message m) (peer : m.sender ∈ n.roster.peers)
      (newer : n.term < m.term) (reached : n.storage.Reaches m.term s) :
      CatchUp e n
        { n with storage := s, term := m.term, role := .follower, leader := none, vote := none }
        ((if n.isLeader then [.steppedDown m.term] else []) ++ [.resetElectionTimer])

/-- The one change of a node whose term is up to date. -/
inductive Move (e : Event) (n : Node) : Node → List Output → Prop
  | idle : Move e n n []
  /-- A write of the storage fails. -/
  | fault {s : Storage} (kept : n.storage.Keeps s) : Move e n { n with storage := s } []
  | beat (event : e = .heartbeatDue) (leads : n.isLeader = true) :
      Move e n n (n.heartbeats ++ [.scheduleHeartbeat])
  /-- A candidate that needs other members' votes. -/
  | stand {s : Storage} (event : e = .electionTimeout) (leads : n.isLeader = false)
      (grows : n.term ≠ Int32.maxValue) (casts : n.storage.Casts (n.term + 1) n.id s)
      (short : (IdSet.singleton n.id).carries n.roster.quorum = false) :
      Move e n (n.standing s)
        ((n.standing s).toPeers (n.standing s).ballot ++ [.resetElectionTimer])
  /-- A candidate that needs no other member's vote. -/
  | standAlone {s : Storage} (event : e = .electionTimeout) (leads : n.isLeader = false)
      (grows : n.term ≠ Int32.maxValue) (casts : n.storage.Casts (n.term + 1) n.id s)
      (carried : (IdSet.singleton n.id).carries n.roster.quorum = true) :
      Move e n (n.standing s).leading (n.standing s).announcement
  | grant {r : VoteRequest} {s : Storage} {timers : List Output}
      (event : e = .message (.voteRequest r)) (peer : r.candidate ∈ n.roster.peers)
      (current : r.term = n.term) (gate : n.position ≤ r.last)
      (recorded : n.storage.ballots.vote? n.term = some r.candidate ∧ s = n.storage ∨
        n.storage.ballots.vote? n.term = none ∧ n.storage.Casts n.term r.candidate s)
      (only : OnlyTimers timers) :
      Move e n { n with storage := s, vote := some r.candidate }
        (timers ++ [n.answerVote r.candidate true])
  | refuse {r : VoteRequest} (event : e = .message (.voteRequest r))
      (peer : r.candidate ∈ n.roster.peers) : Move e n n [n.answerVote r.candidate false]
  | count {r : VoteResponse} {votes : IdSet} (event : e = .message (.voteResponse r))
      (peer : r.voter ∈ n.roster.peers) (current : r.term = n.term) (granted : r.granted = true)
      (role : n.role = .candidate votes)
      (short : (votes.insert r.voter).carries n.roster.quorum = false) :
      Move e n { n with role := .candidate (votes.insert r.voter) } []
  | win {r : VoteResponse} {votes : IdSet} (event : e = .message (.voteResponse r))
      (peer : r.voter ∈ n.roster.peers) (current : r.term = n.term) (granted : r.granted = true)
      (role : n.role = .candidate votes)
      (carried : (votes.insert r.voter).carries n.roster.quorum = true) :
      Move e n n.leading n.announcement
  | follow {r : AppendEntries} {timers : List Output} (event : e = .message (.appendEntries r))
      (peer : r.leader ∈ n.roster.peers) (current : r.term = n.term) (leads : n.isLeader = false)
      (only : OnlyTimers timers) :
      Move e n { n with role := .follower, leader := some r.leader }
        (timers ++ [n.answerAppend r.leader true])
  /-- A heartbeat that is out of date, or reaches a leader of the same term. -/
  | rebuff {r : AppendEntries} (event : e = .message (.appendEntries r))
      (peer : r.leader ∈ n.roster.peers)
      (reason : r.term < n.term ∨ r.term = n.term ∧ n.isLeader = true) :
      Move e n n [n.answerAppend r.leader false]

/-- The whole of what handling an event does, with the outputs that its changes ask for. -/
def Passes (e : Event) (n n' : Node) (outputs : List Output) : Prop :=
  ∃ mid before after, CatchUp e n mid before ∧ Move e mid n' after ∧ outputs = before ++ after

def Explains (e : Event) (n : Node) (reaction : Reaction) : Prop :=
  ∃ outputs, Passes e n reaction.1 outputs ∧
    (reaction.2 = .ok outputs ∨ ∃ cause, reaction.2 = .error cause)

variable {e : Event} {n mid : Node} {before : List Output}

theorem Move.passes {n' : Node} {outputs : List Output} (h : Move e n n' outputs) :
    Passes e n n' outputs := ⟨n, [], outputs, .stay, h, rfl⟩

theorem CatchUp.passes {n' : Node} {outputs : List Output} (h : CatchUp e n n' outputs) :
    Passes e n n' outputs := ⟨n', outputs, [], h, .idle, (List.append_nil _).symm⟩

theorem Move.explains {n' : Node} {outputs : List Output} (h : Move e n n' outputs) :
    Explains e n (n', .ok outputs) := ⟨outputs, h.passes, Or.inl rfl⟩

/-! ## Catching up -/

theorem addOnce_reset (outputs : List Output) :
    ∃ timers, OnlyTimers timers ∧ addOnce outputs .resetElectionTimer = outputs ++ timers := by
  by_cases h : Output.resetElectionTimer ∈ outputs
  · exact ⟨[], by simp [OnlyTimers], by simp [addOnce, h]⟩
  · exact ⟨[.resetElectionTimer], by simp [OnlyTimers], by simp [addOnce, h]⟩

/-- Adopting a newer term succeeds, or leaves the node as it was but for a failed write. -/
theorem adopt_cases {m : Message} (event : e = .message m) (peer : m.sender ∈ n.roster.peers)
    (newer : n.term < m.term) :
    (∃ mid before, n.adopt m.term = (mid, .ok before) ∧ CatchUp e n mid before ∧
      mid.term = m.term) ∨
    ∃ n' cause, n.adopt m.term = (n', .error cause) ∧ Move e n n' [] := by
  cases hstore : n.storage.storeTerm m.term with
  | mk s result =>
    cases result with
    | error cause =>
      refine Or.inr ⟨_, .durability cause, ?_, .fault (Storage.keeps_of_storeTerm hstore)⟩
      simp only [adopt, hstore]
    | ok u =>
      refine Or.inl ⟨_, _, ?_, .adopt event peer newer (Storage.reaches_of_storeTerm hstore), rfl⟩
      simp only [adopt, hstore]

theorem catchUp_cases {m : Message} (event : e = .message m) (peer : m.sender ∈ n.roster.peers)
    (fresh : ¬ m.term < n.term) :
    (∃ mid before, n.catchUp m.term = (mid, .ok before) ∧ CatchUp e n mid before ∧
      mid.term = m.term) ∨
    ∃ n' cause, n.catchUp m.term = (n', .error cause) ∧ Move e n n' [] := by
  by_cases newer : n.term < m.term
  · rw [catchUp, if_pos newer]
    exact adopt_cases event peer newer
  · rw [catchUp, if_neg newer]
    refine Or.inl ⟨n, [], rfl, .stay, ?_⟩
    exact Int32.le_antisymm (Int32.not_lt.mp fresh) (Int32.not_lt.mp newer)

theorem CatchUp.roster (h : CatchUp e n mid before) : mid.roster = n.roster := by
  cases h <;> rfl

/-! ## The handlers -/

theorem explains_onElectionTimeout (n : Node) :
    Explains .electionTimeout n n.onElectionTimeout := by
  rw [onElectionTimeout]
  split
  · exact Move.idle.explains
  rename_i hleads
  have hleads : n.isLeader = false := by simpa using hleads
  split
  · exact ⟨[], Move.idle.passes, Or.inr ⟨_, rfl⟩⟩
  rename_i hgrows
  cases hstore : n.storage.storeVote (n.term + 1) n.id with
  | mk s result =>
    cases result with
    | error cause =>
      simp only [hstore]
      exact ⟨[], (Move.fault (Storage.keeps_of_storeVote hstore)).passes, Or.inr ⟨_, rfl⟩⟩
    | ok u =>
      have hcasts := Storage.casts_of_storeVote hstore
      simp only [hstore]
      split
      · rename_i hcarried
        exact (Move.standAlone rfl hleads hgrows hcasts hcarried).explains
      · rename_i hshort
        have hshort := Bool.eq_false_iff.mpr hshort
        exact (Move.stand rfl hleads hgrows hcasts hshort).explains

theorem explains_onHeartbeatDue (n : Node) : Explains .heartbeatDue n n.onHeartbeatDue := by
  rw [onHeartbeatDue]
  split
  · rename_i hleads
    exact (Move.beat rfl hleads).explains
  · exact Move.idle.explains

theorem explains_decideVote {r : VoteRequest} (event : e = .message (.voteRequest r))
    (peer : r.candidate ∈ n.roster.peers) (caught : CatchUp e n mid before)
    (current : mid.term = r.term) : Explains e n (mid.decideVote r before) := by
  have peer' : r.candidate ∈ mid.roster.peers := caught.roster ▸ peer
  obtain ⟨timers, only, hreset⟩ := addOnce_reset before
  rw [decideVote, Storage.readVote]
  by_cases hloads : mid.storage.outage.loads = true
  · rw [if_pos hloads]
    exact ⟨before, caught.passes, Or.inr ⟨_, rfl⟩⟩
  rw [if_neg hloads]
  dsimp only
  split
  · rename_i hgranted
    obtain ⟨hgate, hfree⟩ := hgranted
    rw [hreset]
    by_cases hours : mid.storage.ballots.vote? mid.term = some r.candidate
    · have move : Move e mid _ _ :=
        .grant event peer' current.symm hgate (Or.inl ⟨hours, rfl⟩) only
      rw [if_pos hours]
      exact ⟨_, ⟨mid, before, _, caught, move, rfl⟩, Or.inl (by simp [answerVote, id])⟩
    · have hnone := hfree.resolve_right hours
      rw [if_neg hours]
      cases hstore : mid.storage.storeVote mid.term r.candidate with
      | mk s result =>
        cases result with
        | error cause =>
          have move : Move e mid _ _ := .fault (Storage.keeps_of_storeVote hstore)
          exact ⟨_, ⟨mid, before, _, caught, move, rfl⟩, Or.inr ⟨_, rfl⟩⟩
        | ok u =>
          have move : Move e mid _ _ := .grant event peer' current.symm hgate
            (Or.inr ⟨hnone, Storage.casts_of_storeVote hstore⟩) only
          exact ⟨_, ⟨mid, before, _, caught, move, rfl⟩, Or.inl (by simp [answerVote, id])⟩
  · have move : Move e mid _ _ := .refuse event peer'
    exact ⟨_, ⟨mid, before, _, caught, move, rfl⟩, Or.inl rfl⟩

theorem explains_onVoteRequest {r : VoteRequest} (event : e = .message (.voteRequest r))
    (peer : r.candidate ∈ n.roster.peers) : Explains e n (n.onVoteRequest r) := by
  rw [onVoteRequest]
  split
  · exact (Move.refuse event peer).explains
  · rename_i hfresh
    rcases catchUp_cases event peer hfresh with ⟨mid, before, heq, caught, current⟩ |
      ⟨n', cause, heq, move⟩
    · rw [show n.catchUp r.term = (mid, .ok before) from heq]
      exact explains_decideVote event peer caught current
    · rw [show n.catchUp r.term = (n', .error cause) from heq]
      exact ⟨[], move.passes, Or.inr ⟨cause, rfl⟩⟩

theorem explains_onVoteResponse {r : VoteResponse} (event : e = .message (.voteResponse r))
    (peer : r.voter ∈ n.roster.peers) : Explains e n (n.onVoteResponse r) := by
  rw [onVoteResponse]
  split
  · rename_i newer
    rcases adopt_cases event peer newer with ⟨mid, before, heq, caught, _⟩ |
      ⟨n', cause, heq, move⟩
    · rw [show n.adopt r.term = (mid, .ok before) from heq]
      exact ⟨before, caught.passes, Or.inl rfl⟩
    · rw [show n.adopt r.term = (n', .error cause) from heq]
      exact ⟨[], move.passes, Or.inr ⟨cause, rfl⟩⟩
  rename_i hnewer
  split
  · exact Move.idle.explains
  rename_i holder
  have current : r.term = n.term :=
    Int32.le_antisymm (Int32.not_lt.mp hnewer) (Int32.not_lt.mp holder)
  split
  · rename_i votes hrole
    split
    · rename_i hgranted
      dsimp only
      split
      · rename_i hcarried
        exact (Move.win event peer current hgranted hrole hcarried).explains
      · rename_i hshort
        have hshort := Bool.eq_false_iff.mpr hshort
        exact (Move.count event peer current hgranted hrole hshort).explains
    · exact Move.idle.explains
  · exact Move.idle.explains

theorem explains_onAppendEntries {r : AppendEntries} (event : e = .message (.appendEntries r))
    (peer : r.leader ∈ n.roster.peers) : Explains e n (n.onAppendEntries r) := by
  rw [onAppendEntries]
  split
  · rename_i hstale
    exact (Move.rebuff event peer (Or.inl hstale)).explains
  rename_i hfresh
  rcases catchUp_cases event peer hfresh with ⟨mid, before, heq, caught, current⟩ |
    ⟨n', cause, heq, move⟩
  · have peer' : r.leader ∈ mid.roster.peers := caught.roster ▸ peer
    obtain ⟨timers, only, hreset⟩ := addOnce_reset before
    rw [show n.catchUp r.term = (mid, .ok before) from heq]
    dsimp only
    split
    · rename_i hleads
      have move : Move e mid _ _ := .rebuff event peer' (Or.inr ⟨current.symm, hleads⟩)
      exact ⟨_, ⟨mid, before, _, caught, move, rfl⟩, Or.inl rfl⟩
    · rename_i hleads
      have hleads := Bool.eq_false_iff.mpr hleads
      have move : Move e mid _ _ := .follow event peer' current.symm hleads only
      rw [hreset]
      exact ⟨_, ⟨mid, before, _, caught, move, rfl⟩, Or.inl (by simp [answerAppend, id])⟩
  · rw [show n.catchUp r.term = (n', .error cause) from heq]
    exact ⟨[], move.passes, Or.inr ⟨cause, rfl⟩⟩

theorem explains_onAppendResponse {r : AppendResponse} (event : e = .message (.appendResponse r))
    (peer : r.follower ∈ n.roster.peers) : Explains e n (n.onAppendResponse r) := by
  rw [onAppendResponse]
  by_cases newer : n.term < r.term
  · rw [catchUp, if_pos newer]
    rcases adopt_cases event peer newer with ⟨mid, before, heq, caught, _⟩ |
      ⟨n', cause, heq, move⟩
    · rw [show n.adopt r.term = (mid, .ok before) from heq]
      exact ⟨before, caught.passes, Or.inl rfl⟩
    · rw [show n.adopt r.term = (n', .error cause) from heq]
      exact ⟨[], move.passes, Or.inr ⟨cause, rfl⟩⟩
  · rw [catchUp, if_neg newer]
    exact Move.idle.explains

/-- Handling an event is catching up with its term and one change. -/
theorem explains_handle (n : Node) (e : Event) : Explains e n (n.handle e) := by
  cases e with
  | electionTimeout => exact explains_onElectionTimeout n
  | heartbeatDue => exact explains_onHeartbeatDue n
  | message m =>
    rw [handle, onMessage.eq_def]
    split
    · rename_i hpeer
      have peer := Roster.isPeer_iff.mp hpeer
      cases m with
      | voteRequest r => exact explains_onVoteRequest rfl peer
      | voteResponse r => exact explains_onVoteResponse rfl peer
      | appendEntries r => exact explains_onAppendEntries rfl peer
      | appendResponse r => exact explains_onAppendResponse rfl peer
    · exact Move.idle.explains

theorem passes_of_ok {n' : Node} {outputs : List Output} (h : n.handle e = (n', .ok outputs)) :
    Passes e n n' outputs := by
  obtain ⟨asked, hpasses, hresult⟩ := explains_handle n e
  rw [h] at hpasses hresult
  rcases hresult with hsame | ⟨cause, hfails⟩
  · cases hsame
    exact hpasses
  · cases hfails

end Elector.Node
