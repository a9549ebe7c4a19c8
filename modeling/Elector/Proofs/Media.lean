import Elector.Proofs.Twins

/-!
# Ballots in memory and in a file

Nodes are `Alike` if they differ only in that one keeps its ballots in a file and the other in
memory. Alike nodes react alike to every event (`agree_handle`), although their storages refuse
writes for different reasons: a node asks only for writes that change something. So a node does not
see what its ballots are kept in (`file_like_memory`).
-/

namespace Elector

/-! ## Nodes -/

/-- Why a handler failed, as far as a node can tell whatever its ballots are kept in. -/
inductive FailureKind
  | durability
  | termOverflow (term : Term)
deriving DecidableEq, Repr

def NodeError.kind : NodeError → FailureKind
  | durability _ => .durability
  | termOverflow term => .termOverflow term

namespace Node

/-- `m` is `n` with its ballots in memory, in the term that they have reached. -/
structure Alike (n m : Node) : Prop where
  roster : m.roster = n.roster
  stance : m.stance = n.stance
  twins : n.storage.Twins m.storage
  reached : n.term = n.storage.ballots.term

/-- Reactions that cannot be told apart: both succeed with the same outputs, or both fail for the
same kind of reason. -/
inductive Agree : Reaction → Reaction → Prop
  | ok {n m : Node} (alike : n.Alike m) (outputs : List Output) :
      Agree (n, .ok outputs) (m, .ok outputs)
  | error {n m : Node} {cause cause' : NodeError} (alike : n.Alike m)
      (kind : cause'.kind = cause.kind) : Agree (n, .error cause) (m, .error cause')

variable {n m : Node} {t : Term}

theorem Alike.id (h : n.Alike m) : m.id = n.id := congrArg Roster.self h.roster

theorem Alike.term (h : n.Alike m) : m.term = n.term := congrArg Stance.term h.stance

theorem Alike.role (h : n.Alike m) : m.role = n.role := congrArg Stance.role h.stance

theorem Alike.leader (h : n.Alike m) : m.leader = n.leader := congrArg Stance.leader h.stance

theorem Alike.vote (h : n.Alike m) : m.vote = n.vote := congrArg Stance.vote h.stance

theorem Alike.isLeader (h : n.Alike m) : m.isLeader = n.isLeader := by
  rw [Node.isLeader, Node.isLeader, h.role]

theorem Alike.position (h : n.Alike m) : m.position = n.position := h.twins.position

theorem Alike.toPeers (h : n.Alike m) : m.toPeers = n.toPeers := by
  funext message
  rw [Node.toPeers, Node.toPeers, h.roster]

theorem Alike.heartbeats (h : n.Alike m) : m.heartbeats = n.heartbeats := by
  rw [Node.heartbeats, Node.heartbeats, h.toPeers, h.id, h.term, h.position]

theorem Alike.answerVote (h : n.Alike m) : m.answerVote = n.answerVote := by
  funext target granted
  rw [Node.answerVote, Node.answerVote, h.id, h.term]

theorem Alike.answerAppend (h : n.Alike m) : m.answerAppend = n.answerAppend := by
  funext target success
  rw [Node.answerAppend, Node.answerAppend, h.id, h.term]

theorem Alike.status (h : n.Alike m) : m.status = n.status := by
  rw [Node.status, Node.status, h.id, h.term, h.role, h.leader, h.vote]

theorem Alike.announcement (h : n.Alike m) : m.announcement = n.announcement := by
  rw [Node.announcement, Node.announcement, h.heartbeats, h.term]

theorem Alike.ballot (h : n.Alike m) : m.ballot = n.ballot := by
  rw [Node.ballot, Node.ballot, h.id, h.term, h.position]

theorem Alike.agree (h : n.Alike m) {outputs outputs' : List Output} (same : outputs' = outputs) :
    Agree (n, .ok outputs) (m, .ok outputs') := same ▸ .ok h outputs

theorem Alike.votes (h : n.Alike m) {c : NodeId} {file memory : Storage}
    (twins : file.Twins memory) (reached : n.term = file.ballots.term) :
    ({ n with storage := file, vote := some c } : Node).Alike
      { m with storage := memory, vote := some c } :=
  ⟨h.roster, by simp only [Node.stance, h.term, h.role, h.leader], twins, reached⟩

theorem Alike.leading (h : n.Alike m) : n.leading.Alike m.leading where
  roster := h.roster
  stance := by simp only [Node.stance, Node.leading, h.term, h.id, h.vote]
  twins := h.twins
  reached := h.reached

/-! ### Changes -/

theorem agree_adopt (h : n.Alike m) (newer : n.term < t) : Agree (n.adopt t) (m.adopt t) := by
  have hlater : n.storage.ballots.term < t := h.reached ▸ newer
  have hne : t ≠ n.storage.ballots.term := fun heq => Int32.lt_irrefl (heq ▸ hlater)
  have hreach : Write.change n.storage.ballots (.reach t) = .ok (n.storage.ballots.advance t) := by
    rw [Write.change, Ballots.reach, if_neg (Int32.lt_asymm hlater), if_neg hne]
  have hdiffers : n.storage.ballots.advance t ≠ n.storage.ballots :=
    fun heq => hne (congrArg Ballots.term heq)
  obtain ⟨file, memory, htwins, hcases⟩ := h.twins.perform_cases hreach hdiffers
  rw [adopt, adopt, h.isLeader]
  rcases hcases with ⟨hfile, hmemory, hballots⟩ | ⟨hfile, hmemory, hballots⟩
  · simp only [show n.storage.storeTerm t = (file, .ok ()) from hfile,
      show m.storage.storeTerm t = (memory, .ok ()) from hmemory]
    apply Agree.ok
    exact ⟨h.roster, rfl, htwins, (congrArg Ballots.term hballots).symm⟩
  · simp only [show n.storage.storeTerm t = (file, .error .io) from hfile,
      show m.storage.storeTerm t = (memory, .error .unavailable) from hmemory]
    refine .error ?_ rfl
    exact ⟨h.roster, h.stance, htwins, h.reached.trans (congrArg Ballots.term hballots).symm⟩

theorem agree_catchUp (h : n.Alike m) (t : Term) : Agree (n.catchUp t) (m.catchUp t) := by
  rw [catchUp, catchUp, h.term]
  split
  · rename_i newer
    exact agree_adopt h newer
  · exact .ok h []

theorem agree_lead (h : n.Alike m) : Agree n.lead m.lead := by
  have hlead : Agree (n.leading, .ok n.announcement) (m.leading, .ok m.announcement) := by
    rw [h.announcement]
    exact .ok h.leading _
  exact hlead

/-- A vote is only written where there is none, so that writing it would change the ballots. -/
theorem Alike.cast_cases (h : n.Alike m) {c : NodeId} (later : n.term ≤ t)
    (free : n.storage.ballots.vote? t = none) :
    ∃ file memory, file.Twins memory ∧
      (n.storage.storeVote t c = (file, .ok ()) ∧ m.storage.storeVote t c = (memory, .ok ()) ∧
          file.ballots.term = t ∨
        n.storage.storeVote t c = (file, .error .io) ∧
          m.storage.storeVote t c = (memory, .error .unavailable) ∧
          file.ballots.term = n.storage.ballots.term) := by
  have hcast : ∃ next, n.storage.ballots.cast t c = .ok next := by
    rw [Ballots.cast, if_neg (h.reached ▸ Int32.not_lt.mpr later), free]
    exact ⟨_, rfl⟩
  obtain ⟨next, hnext⟩ := hcast
  have hdiffers : next ≠ n.storage.ballots := by
    rintro rfl
    have hvote := Ballots.vote_cast hnext
    rw [free] at hvote
    cases hvote
  have hchange : Write.change n.storage.ballots (.cast t c) = .ok next := hnext
  obtain ⟨file, memory, htwins, hcases⟩ := h.twins.perform_cases hchange hdiffers
  refine ⟨file, memory, htwins, hcases.imp ?_ ?_⟩
  · rintro ⟨hfile, hmemory, rfl⟩
    exact ⟨hfile, hmemory, Ballots.term_cast hnext h.twins.settled⟩
  · rintro ⟨hfile, hmemory, hballots⟩
    exact ⟨hfile, hmemory, congrArg Ballots.term hballots⟩

/-! ### Handlers -/

theorem agree_onElectionTimeout (h : n.Alike m) :
    Agree n.onElectionTimeout m.onElectionTimeout := by
  rw [onElectionTimeout, onElectionTimeout, h.isLeader]
  by_cases leads : n.isLeader = true
  · rw [if_pos leads, if_pos leads]
    exact .ok h []
  rw [if_neg leads, if_neg leads]
  by_cases last : n.term = Int32.maxValue
  · rw [if_pos last, if_pos (h.term.trans last)]
    exact .error h (congrArg FailureKind.termOverflow h.term)
  rw [if_neg last, if_neg (fun hm => last (h.term.symm.trans hm))]
  have later := term_lt_next last
  have free : n.storage.ballots.vote? (n.term + 1) = none :=
    h.twins.settled.vote_newer (h.reached ▸ later)
  obtain ⟨file, memory, htwins, hcases⟩ := h.cast_cases (c := n.id) (Int32.le_of_lt later) free
  rcases hcases with ⟨hfile, hmemory, hterm⟩ | ⟨hfile, hmemory, hterm⟩
  · have hstanding : (n.standing file).Alike (m.standing memory) :=
      ⟨h.roster, by simp only [stance, standing, h.term, h.id], htwins, hterm.symm⟩
    rw [← h.term, ← h.id] at hmemory
    simp only [hfile, hmemory]
    by_cases carried : (IdSet.singleton n.id).carries n.roster.quorum = true
    · rw [if_pos carried, if_pos (h.id ▸ h.roster ▸ carried)]
      exact agree_lead hstanding
    · rw [if_neg carried, if_neg (h.id ▸ h.roster ▸ carried)]
      have hasks : (m.standing memory).toPeers (m.standing memory).ballot =
          (n.standing file).toPeers (n.standing file).ballot := by
        rw [hstanding.toPeers, hstanding.ballot]
      apply hstanding.agree
      exact congrArg (· ++ [Output.resetElectionTimer]) hasks
  · rw [← h.term, ← h.id] at hmemory
    simp only [hfile, hmemory]
    refine .error ?_ rfl
    exact ⟨h.roster, h.stance, htwins, h.reached.trans hterm.symm⟩

theorem agree_onHeartbeatDue (h : n.Alike m) : Agree n.onHeartbeatDue m.onHeartbeatDue := by
  rw [onHeartbeatDue, onHeartbeatDue, h.isLeader, h.heartbeats]
  split
  · exact .ok h _
  · exact .ok h []

theorem agree_decideVote (h : n.Alike m) (r : VoteRequest) (outputs : List Output) :
    Agree (n.decideVote r outputs) (m.decideVote r outputs) := by
  have hsame : m.storage.readVote m.term = n.storage.readVote n.term := by
    rw [h.term, h.twins.readVote]
  rw [decideVote, decideVote, hsame, h.position]
  cases hread : n.storage.readVote n.term with
  | error cause => exact .error h rfl
  | ok recorded =>
    simp only
    by_cases grants : n.position ≤ r.last ∧ (recorded = none ∨ recorded = some r.candidate)
    · rw [if_pos grants, if_pos grants]
      by_cases ours : recorded = some r.candidate
      · simp only [if_pos ours]
        have hvoted := h.votes (c := r.candidate) h.twins h.reached
        apply hvoted.agree
        rw [hvoted.answerVote]
      · have free : n.storage.ballots.vote? n.term = none :=
          (Storage.readVote_eq_ok hread).trans (grants.2.resolve_right ours)
        obtain ⟨file, memory, htwins, hcases⟩ :=
          h.cast_cases (c := r.candidate) (Int32.le_refl n.term) free
        simp only [if_neg ours]
        rcases hcases with ⟨hfile, hmemory, hterm⟩ | ⟨hfile, hmemory, hterm⟩
        · rw [← h.term] at hmemory
          simp only [hfile, hmemory]
          have hvoted := h.votes (c := r.candidate) htwins hterm.symm
          apply hvoted.agree
          rw [hvoted.answerVote]
        · rw [← h.term] at hmemory
          simp only [hfile, hmemory]
          refine .error ?_ rfl
          exact ⟨h.roster, h.stance, htwins, h.reached.trans hterm.symm⟩
    · rw [if_neg grants, if_neg grants]
      apply h.agree
      rw [h.answerVote]

theorem agree_onVoteRequest (h : n.Alike m) (r : VoteRequest) :
    Agree (n.onVoteRequest r) (m.onVoteRequest r) := by
  rw [onVoteRequest, onVoteRequest, h.term, h.answerVote]
  split
  · exact .ok h _
  have hcaught := agree_catchUp h r.term
  generalize n.catchUp r.term = reaction, m.catchUp r.term = reaction' at hcaught ⊢
  cases hcaught with
  | ok alike outputs => exact agree_decideVote alike r outputs
  | error alike kind => exact .error alike kind

theorem agree_onVoteResponse (h : n.Alike m) (r : VoteResponse) :
    Agree (n.onVoteResponse r) (m.onVoteResponse r) := by
  rw [onVoteResponse, onVoteResponse]
  by_cases newer : n.term < r.term
  · rw [if_pos newer, if_pos (h.term ▸ newer)]
    exact agree_adopt h newer
  rw [if_neg newer, if_neg (show ¬ m.term < r.term from h.term ▸ newer)]
  by_cases stale : r.term < n.term
  · rw [if_pos stale, if_pos (h.term ▸ stale)]
    exact .ok h []
  rw [if_neg stale, if_neg (show ¬ r.term < m.term from h.term ▸ stale), h.role]
  cases hrole : n.role with
  | follower => exact .ok h []
  | leader => exact .ok h []
  | candidate votes =>
    by_cases granted : r.granted = true
    · simp only [if_pos granted]
      have hcounted : ({ n with role := .candidate (votes.insert r.voter) } : Node).Alike
          { m with role := .candidate (votes.insert r.voter) } :=
        ⟨h.roster, by simp only [stance, h.term, h.leader, h.vote], h.twins, h.reached⟩
      by_cases carried : (votes.insert r.voter).carries n.roster.quorum = true
      · rw [if_pos carried, if_pos (h.roster ▸ carried)]
        exact agree_lead hcounted
      · rw [if_neg carried, if_neg (h.roster ▸ carried)]
        exact .ok hcounted []
    · simp only [if_neg granted]
      exact .ok h []

theorem agree_onAppendEntries (h : n.Alike m) (r : AppendEntries) :
    Agree (n.onAppendEntries r) (m.onAppendEntries r) := by
  rw [onAppendEntries, onAppendEntries, h.term, h.answerAppend]
  split
  · exact .ok h _
  have hcaught := agree_catchUp h r.term
  generalize n.catchUp r.term = reaction, m.catchUp r.term = reaction' at hcaught ⊢
  cases hcaught with
  | error alike kind => exact .error alike kind
  | @ok n m alike outputs =>
    simp only [alike.isLeader]
    by_cases leads : n.isLeader = true
    · rw [if_pos leads, if_pos leads]
      apply alike.agree
      rw [alike.answerAppend]
    · rw [if_neg leads, if_neg leads]
      have hfollowing : ({ n with role := .follower, leader := some r.leader } : Node).Alike
          { m with role := .follower, leader := some r.leader } :=
        ⟨alike.roster, by simp only [stance, alike.term, alike.vote], alike.twins, alike.reached⟩
      apply hfollowing.agree
      rw [hfollowing.answerAppend]

theorem agree_handle (h : n.Alike m) (e : Event) : Agree (n.handle e) (m.handle e) := by
  cases e with
  | electionTimeout => exact agree_onElectionTimeout h
  | heartbeatDue => exact agree_onHeartbeatDue h
  | message msg =>
    simp only [handle, onMessage, h.roster]
    split
    · cases msg with
      | voteRequest r => exact agree_onVoteRequest h r
      | voteResponse r => exact agree_onVoteResponse h r
      | appendEntries r => exact agree_onAppendEntries h r
      | appendResponse r => exact agree_catchUp h r.term
    · exact .ok h []

/-! ### Runs -/

structure Response where
  result : Except FailureKind (List Output)
  status : Status

def response (r : Reaction) : Response where
  result := r.2.mapError NodeError.kind
  status := r.1.status

def responses (n : Node) : List Call → List Response
  | [] => []
  | c :: calls => response (n.call c) :: (n.call c).1.responses calls

theorem Agree.alike {r r' : Reaction} (h : Agree r r') : r.1.Alike r'.1 := by
  cases h with
  | ok alike outputs => exact alike
  | error alike kind => exact alike

theorem Agree.response {r r' : Reaction} (h : Agree r r') : response r' = response r := by
  cases h with
  | ok alike outputs => simp only [Node.response, alike.status]
  | error alike kind =>
    rw [Node.response, Node.response, alike.status]
    exact congrArg (fun k => Response.mk (.error k) _) kind

theorem agree_call (h : n.Alike m) (c : Call) (short : c.outage.Short) :
    Agree (n.call c) (m.call c) := by
  have hunder : (n.under c.outage).Alike (m.under c.outage) :=
    ⟨h.roster, h.stance, h.twins.under short, h.reached⟩
  exact agree_handle hunder c.event

theorem Alike.responses (h : n.Alike m) {calls : List Call} (short : ∀ c ∈ calls, c.outage.Short) :
    m.responses calls = n.responses calls := by
  induction calls generalizing n m with
  | nil => rfl
  | cons c calls ih =>
    have hagree := agree_call h c (short c (by simp))
    rw [Node.responses, Node.responses, hagree.response,
      ih hagree.alike fun c hc => short c (by simp [hc])]

theorem alike_start (roster : Roster) {file memory : Storage} (h : file.Twins memory)
    (loads : file.outage.loads = false) :
    ∃ f m, start roster file = .ok f ∧ start roster memory = .ok m ∧ f.Alike m := by
  refine ⟨_, _, start_eq roster loads, start_eq roster (h.outage ▸ loads), ?_⟩
  exact ⟨rfl, by simp only [stance, reborn, h.ballots], h, rfl⟩

end Node

namespace Storage

/-- **A vote file and memory are interchangeable.** Let a vote file be opened where there was none
and there is room for it, and take ballots in memory beside it. As long as nothing fails, both
answer all requests alike, however often the file is closed and opened again. A node that starts on
the one and a node that starts on the other cannot be told apart: whatever happens to them and
whichever writes fail, they ask for the same outputs, are of the same status, and fail at the same
moments for the same kind of reason. -/
theorem file_like_memory {disk : Disk} {shelf : Shelf}
    (folder : disk.prepare = some (.shelf shelf)) (draft : shelf.admits .draft = true)
    (votes : shelf.admits .votes = true) (fresh : disk.get .votes = none) (log : LogView) :
    let memory : Storage := { disk, log }
    ∃ file, ({ disk, log, medium := .file } : Storage).reopenBallots = .ok file ∧
      (∀ requests, memory.answers requests = file.answers requests) ∧
      ∀ (roster : Roster) (calls : List Node.Call), (∀ c ∈ calls, c.outage.Short) →
        ∃ f m, Node.start roster file = .ok f ∧ Node.start roster memory = .ok m ∧
          m.status = f.status ∧ m.responses calls = f.responses calls := by
  intro memory
  obtain ⟨file, hopens, hwhole, htwins⟩ := twins_fresh folder draft votes fresh log
  refine ⟨file, hopens, htwins.answers_eq hwhole, fun roster calls short => ?_⟩
  have hloads : file.outage.loads = false := by rw [hwhole]
  obtain ⟨f, m, hf, hm, halike⟩ := Node.alike_start roster htwins hloads
  exact ⟨f, m, hf, hm, halike.status, halike.responses short⟩

/-- The vote for itself is cut short before its draft is renamed; the next time it is written. Then
a vote for another member is cut short two bytes into its draft. -/
def cutCalls : List Node.Call :=
  [⟨.electionTimeout, { vote := some ⟨3, 0⟩ }⟩,
   ⟨.electionTimeout, {}⟩,
   ⟨.message (.voteRequest { candidate := 2, term := 5, last := {} }), { vote := some ⟨1, 2⟩ }⟩]

theorem file_like_memory_cutCalls :
    ∃ file f m, ({ medium := .file } : Storage).reopenBallots = .ok file ∧
      Node.start (.of 1 [2, 3]) file = .ok f ∧ Node.start (.of 1 [2, 3]) {} = .ok m ∧
      m.responses cutCalls = f.responses cutCalls ∧
      (m.responses cutCalls).map (·.status.term) = [0, 1, 5] ∧
      (m.responses cutCalls).map (·.result.toOption.isSome) = [false, true, false] := by
  have hshort : ∀ c ∈ cutCalls, c.outage.Short := by
    intro c hc w stop hstop r
    have hlast : stop.steps ≤ 3 := by
      simp only [cutCalls, List.mem_cons, List.not_mem_nil, or_false] at hc
      rcases hc with rfl | rfl | rfl <;> cases w <;> cases hstop <;> decide
    exact Nat.lt_succ_of_le hlast
  have hfolder : Disk.missing.prepare = some (.shelf {}) := rfl
  obtain ⟨file, hopens, _, hnodes⟩ := file_like_memory hfolder rfl rfl rfl (.remote {})
  obtain ⟨f, m, hf, hm, _, hresponses⟩ := hnodes (.of 1 [2, 3]) cutCalls hshort
  have hmemory : m = Node.reborn (.of 1 [2, 3]) {} := (Except.ok.inj hm).symm
  refine ⟨file, f, m, hopens, hf, hm, hresponses, ?_, ?_⟩
  · rw [hmemory]
    decide +kernel
  · rw [hmemory]
    decide +kernel

end Storage

end Elector
