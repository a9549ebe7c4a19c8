import Elector.Proofs.Aftermath
import Elector.Proofs.Foreign
import Elector.Proofs.Twins
import Elector.Proofs.Working

/-!
# Messages that come again

A network may bring a message twice. A node that has handled it once has nothing left to do about it
(`Satisfied`, `satisfied_of_respond`): what the message asks for is so already, on record as well,
and handling it again writes nothing, changes nothing and gives the same answer
(`Satisfied.respond`). So a message may come any number of times (`redelivery_is_idempotent`).
-/

namespace Elector.Node

/-- Nothing is left to be done about a message of another member, and `answers` are what it gets
when it comes again. -/
inductive Satisfied (n : Node) : Message → List Output → Prop
  | outdated {r : VoteRequest} (stale : r.term < n.term) :
      Satisfied n (.voteRequest r) [n.answerVote r.candidate false]
  | granted {r : VoteRequest} (current : r.term = n.term) (gate : n.position ≤ r.last)
      (vote : n.vote = some r.candidate)
      (recorded : n.storage.ballots.vote? n.term = some r.candidate) :
      Satisfied n (.voteRequest r) [n.answerVote r.candidate true]
  | refused {r : VoteRequest} (current : r.term = n.term)
      (unfit : ¬ (n.position ≤ r.last ∧ (n.storage.ballots.vote? n.term = none ∨
        n.storage.ballots.vote? n.term = some r.candidate))) :
      Satisfied n (.voteRequest r) [n.answerVote r.candidate false]
  /-- A vote that is of no use, or is in the tally already. -/
  | counted {r : VoteResponse} (reached : r.term ≤ n.term)
      (counted : ∀ votes, r.term = n.term → n.role = .candidate votes → r.granted = true →
        votes.insert r.voter = votes ∧ votes.carries n.roster.quorum = false) :
      Satisfied n (.voteResponse r) []
  | rebuffed {r : AppendEntries} (reason : r.term < n.term ∨ r.term = n.term ∧ n.isLeader = true) :
      Satisfied n (.appendEntries r) [n.answerAppend r.leader false]
  | followed {r : AppendEntries} (current : r.term = n.term) (role : n.role = .follower)
      (leader : n.leader = some r.leader) :
      Satisfied n (.appendEntries r) [n.answerAppend r.leader true]
  | heard {r : AppendResponse} (reached : r.term ≤ n.term) : Satisfied n (.appendResponse r) []

variable {n n' mid : Node} {m : Message} {outputs before asked : List Output} {outage : Outage}

/-! ## Nothing left to be done -/

theorem Satisfied.under (h : n.Satisfied m asked) (outage : Outage) :
    (n.under outage).Satisfied m asked := by
  cases h with
  | outdated stale => exact .outdated stale
  | granted current gate vote recorded => exact .granted current gate vote recorded
  | refused current unfit => exact .refused current unfit
  | counted reached counted => exact .counted reached counted
  | rebuffed reason => exact .rebuffed reason
  | followed current role leader => exact .followed current role leader
  | heard reached => exact .heard reached

theorem Satisfied.answers (h : n.Satisfied m asked) :
    (m.kind = .voteRequest ∨ m.kind = .appendEntries → ∃ reply, asked = [.send m.sender reply]) ∧
    (m.kind = .voteResponse ∨ m.kind = .appendResponse → asked = []) := by
  cases h <;> simp [Message.kind, Message.sender, answerVote, answerAppend]

theorem catchUp_current {t : Term} (current : t ≤ n.term) : n.catchUp t = (n, .ok []) :=
  if_neg (Int32.not_lt.mpr current)

theorem onVoteResponse_idle {r : VoteResponse} (reached : r.term ≤ n.term)
    (counted : ∀ votes, r.term = n.term → n.role = .candidate votes → r.granted = true →
      votes.insert r.voter = votes ∧ votes.carries n.roster.quorum = false) :
    n.onVoteResponse r = (n, .ok []) := by
  rw [onVoteResponse, if_neg (Int32.not_lt.mpr reached)]
  by_cases stale : r.term < n.term
  · exact if_pos stale
  rw [if_neg stale]
  have current : r.term = n.term := Int32.le_antisymm reached (Int32.not_lt.mp stale)
  cases hrole : n.role with
  | follower => rfl
  | leader => rfl
  | candidate votes =>
    by_cases hgranted : r.granted = true
    · obtain ⟨hsame, hshort⟩ := counted votes current hrole hgranted
      simp only [hgranted, hsame, hshort, if_true]
      rw [← hrole]
      rfl
    · simp only [hgranted]
      rfl

/-- A node with nothing left to do about a message stays as it is when it comes again, if votes can
be read. -/
theorem Satisfied.respond (h : n.Satisfied m asked) (loads : n.storage.outage.loads = false) :
    ∃ timers, OnlyTimers timers ∧ n.respond m = (n, .ok (timers ++ asked)) := by
  have hnone : OnlyTimers [] := fun o ho => absurd ho List.not_mem_nil
  have hread : n.storage.readVote n.term = .ok (n.storage.ballots.vote? n.term) := by
    rw [Storage.readVote, loads]
    rfl
  cases h with
  | outdated stale => exact ⟨[], hnone, if_pos stale⟩
  | @granted r current gate vote recorded =>
    obtain ⟨timers, only, hreset⟩ := addOnce_reset []
    refine ⟨timers, only, ?_⟩
    have hsame : ({ n with vote := some r.candidate } : Node) = n := by rw [← vote]
    rw [Node.respond, onVoteRequest, if_neg (current ▸ Int32.lt_irrefl),
      catchUp_current (Int32.le_of_eq current)]
    simp only [decideVote, hread, recorded, gate, hreset, or_true, and_true, if_true,
      List.nil_append]
    rw [hsame]
  | @refused r current unfit =>
    refine ⟨[], hnone, ?_⟩
    rw [Node.respond, onVoteRequest, if_neg (current ▸ Int32.lt_irrefl),
      catchUp_current (Int32.le_of_eq current)]
    simp only [decideVote, hread, if_neg unfit]
  | counted reached counted => exact ⟨[], hnone, onVoteResponse_idle reached counted⟩
  | @rebuffed r reason =>
    refine ⟨[], hnone, ?_⟩
    rw [Node.respond, onAppendEntries]
    rcases reason with stale | ⟨current, leads⟩
    · rw [if_pos stale]
      rfl
    · rw [if_neg (current ▸ Int32.lt_irrefl), catchUp_current (Int32.le_of_eq current)]
      simp only [leads, if_true]
  | @followed r current role leader =>
    obtain ⟨timers, only, hreset⟩ := addOnce_reset []
    refine ⟨timers, only, ?_⟩
    have hleads : n.isLeader = false := by simp [isLeader, role]
    have hsame : ({ n with role := .follower, leader := some r.leader } : Node) = n := by
      rw [← role, ← leader]
    rw [Node.respond, onAppendEntries, if_neg (current ▸ Int32.lt_irrefl),
      catchUp_current (Int32.le_of_eq current)]
    simp only [hleads, hreset, List.nil_append]
    rw [hsame]
    rfl
  | heard reached => exact ⟨[], hnone, catchUp_current reached⟩

/-! ## Handling a message once -/

theorem caught_of_catchUp (peer : m.sender ∈ n.roster.peers) (fresh : ¬ m.term < n.term)
    (h : n.catchUp m.term = (mid, .ok before)) :
    CatchUp (.message m) n mid before ∧ m.term = mid.term := by
  rcases catchUp_cases rfl peer fresh with ⟨mid', before', heq, caught, current⟩ | ⟨_, _, heq, _⟩
  · rw [h] at heq
    cases heq
    exact ⟨caught, current.symm⟩
  · rw [h] at heq
    cases heq

theorem sendsOf_addOnce (before after : List Output) :
    Simulation.sendsOf (addOnce before .resetElectionTimer ++ after) =
      Simulation.sendsOf (before ++ after) := by
  obtain ⟨timers, only, hreset⟩ := addOnce_reset before
  rw [hreset, List.append_assoc, sendsOf_append, sendsOf_append timers, sendsOf_timers only,
    List.nil_append, ← sendsOf_append]

theorem satisfied_decideVote {r : VoteRequest} (current : r.term = n.term)
    (h : n.decideVote r before = (n', .ok outputs)) :
    ∃ asked, n'.Satisfied (.voteRequest r) asked ∧
      Simulation.sendsOf outputs = Simulation.sendsOf (before ++ asked) := by
  unfold decideVote at h
  split at h
  · cases h
  rename_i recorded hread
  have hrecorded := Storage.readVote_eq_ok hread
  split at h
  · rename_i hgranted
    obtain ⟨gate, free⟩ := hgranted
    by_cases ours : recorded = some r.candidate
    · simp only [if_pos ours] at h
      cases h
      exact ⟨_, .granted current gate rfl (hrecorded.trans ours), sendsOf_addOnce _ _⟩
    · simp only [if_neg ours] at h
      cases hstore : n.storage.storeVote n.term r.candidate with
      | mk s result =>
        rw [hstore] at h
        cases result with
        | error cause => cases h
        | ok u =>
          cases h
          have casts := Storage.casts_of_storeVote hstore
          have hposition : s.position = n.position := congrArg LogView.position casts.log
          have gate' : s.position ≤ r.last := hposition ▸ gate
          exact ⟨_, .granted current gate' rfl (Ballots.vote_cast casts.ballots),
            sendsOf_addOnce _ _⟩
  · rename_i unfit
    cases h
    exact ⟨_, .refused current (hrecorded.symm ▸ unfit), rfl⟩

theorem satisfied_onVoteRequest {r : VoteRequest} (peer : r.candidate ∈ n.roster.peers)
    (h : n.onVoteRequest r = (n', .ok outputs)) :
    ∃ asked, n'.Satisfied (.voteRequest r) asked ∧
      Simulation.sendsOf outputs = Simulation.sendsOf asked := by
  unfold onVoteRequest at h
  split at h
  · rename_i stale
    cases h
    exact ⟨_, .outdated stale, rfl⟩
  rename_i fresh
  split at h
  · cases h
  · rename_i mid before hcatch
    obtain ⟨caught, current⟩ := caught_of_catchUp (m := .voteRequest r) peer fresh hcatch
    obtain ⟨asked, satisfied, hsends⟩ := satisfied_decideVote current h
    refine ⟨asked, satisfied, ?_⟩
    rw [hsends, sendsOf_append, caught.sendsOf, List.nil_append]

theorem satisfied_onVoteResponse {r : VoteResponse} (h : n.onVoteResponse r = (n', .ok outputs)) :
    n'.Satisfied (.voteResponse r) [] := by
  unfold onVoteResponse at h
  split at h
  · unfold adopt at h
    split at h <;> cases h
    refine .counted (Int32.le_refl _) fun votes _ hrole => ?_
    cases hrole
  rename_i hnewer
  have reached : r.term ≤ n.term := Int32.not_lt.mp hnewer
  split at h
  · rename_i stale
    cases h
    refine .counted reached fun votes current => ?_
    exact absurd (current ▸ stale) Int32.lt_irrefl
  split at h
  · rename_i votes hrole
    split at h
    · dsimp only at h
      split at h
      · cases h
        refine .counted reached fun votes _ hleads => ?_
        cases hleads
      · rename_i hshort
        cases h
        refine .counted reached fun votes' _ hcandidate _ => ?_
        cases hcandidate
        refine ⟨IdSet.ext fun v => ?_, Bool.eq_false_iff.mpr hshort⟩
        simp only [IdSet.mem_insert, or_self_left]
    · rename_i hrefused
      cases h
      exact .counted reached fun _ _ _ hgranted => absurd hgranted hrefused
  · rename_i hwaits
    cases h
    exact .counted reached fun votes _ hrole => absurd hrole (hwaits votes)

theorem satisfied_onAppendEntries {r : AppendEntries} (peer : r.leader ∈ n.roster.peers)
    (h : n.onAppendEntries r = (n', .ok outputs)) :
    ∃ asked, n'.Satisfied (.appendEntries r) asked ∧
      Simulation.sendsOf outputs = Simulation.sendsOf asked := by
  unfold onAppendEntries at h
  split at h
  · rename_i stale
    cases h
    exact ⟨_, .rebuffed (Or.inl stale), rfl⟩
  rename_i fresh
  split at h
  · cases h
  · rename_i mid before hcatch
    obtain ⟨caught, current⟩ := caught_of_catchUp (m := .appendEntries r) peer fresh hcatch
    have hnothing : ∀ asked, Simulation.sendsOf (before ++ asked) = Simulation.sendsOf asked := by
      intro asked
      rw [sendsOf_append, caught.sendsOf, List.nil_append]
    split at h
    · rename_i leads
      cases h
      exact ⟨_, .rebuffed (Or.inr ⟨current, leads⟩), hnothing _⟩
    · cases h
      exact ⟨_, .followed current rfl rfl, (sendsOf_addOnce _ _).trans (hnothing _)⟩

theorem satisfied_onAppendResponse {r : AppendResponse}
    (h : n.onAppendResponse r = (n', .ok outputs)) : n'.Satisfied (.appendResponse r) [] := by
  unfold onAppendResponse catchUp at h
  split at h
  · unfold adopt at h
    split at h <;> cases h
    exact .heard (Int32.le_refl _)
  · rename_i hnewer
    cases h
    exact .heard (Int32.not_lt.mp hnewer)

/-- A node that has handled a message has nothing left to do about it. A request has been answered
just as it will be when it comes again. -/
theorem satisfied_of_respond (peer : m.sender ∈ n.roster.peers)
    (h : n.respond m = (n', .ok outputs)) :
    ∃ asked, n'.Satisfied m asked ∧ (m.kind = .voteRequest ∨ m.kind = .appendEntries →
      Simulation.sendsOf outputs = Simulation.sendsOf asked) := by
  cases m with
  | voteRequest r =>
    obtain ⟨asked, satisfied, hsends⟩ := satisfied_onVoteRequest peer h
    exact ⟨asked, satisfied, fun _ => hsends⟩
  | voteResponse r =>
    exact ⟨[], satisfied_onVoteResponse h, fun hkind => by simp [Message.kind] at hkind⟩
  | appendEntries r =>
    obtain ⟨asked, satisfied, hsends⟩ := satisfied_onAppendEntries peer h
    exact ⟨asked, satisfied, fun _ => hsends⟩
  | appendResponse r =>
    exact ⟨[], satisfied_onAppendResponse h, fun hkind => by simp [Message.kind] at hkind⟩

/-! ## Handling it again -/

def Repeats (n : Node) (m : Message) (sends : List (NodeId × Message)) : Prop :=
  ∀ outage : Outage, outage.loads = false → ∃ outputs,
    n.call ⟨.message m, outage⟩ = (n.under outage, .ok outputs) ∧
      Simulation.sendsOf outputs = sends

theorem Satisfied.repeats (h : n.Satisfied m asked) (peer : m.sender ∈ n.roster.peers) :
    n.Repeats m (Simulation.sendsOf asked) := by
  intro outage loads
  obtain ⟨timers, only, hrespond⟩ := (h.under outage).respond loads
  refine ⟨timers ++ asked, ?_, ?_⟩
  · rw [← hrespond]
    exact handle_message (n := n.under outage) peer
  · rw [sendsOf_append, sendsOf_timers only, List.nil_append]

theorem call_foreign (foreign : m.sender ∉ n.roster.peers) (outage : Outage) :
    n.call ⟨.message m, outage⟩ = (n.under outage, .ok []) := by
  have hnotice : m.sender = n.id ∨ m.sender ∉ n.roster.members := by
    rw [Roster.mem_peers] at foreign
    exact (Decidable.not_and_iff_or_not.mp foreign).symm.imp_left Decidable.not_not.mp
  exact onMessage_foreign (n := n.under outage) hnotice

theorem repeats_of_call (first : n.call ⟨.message m, outage⟩ = (n', .ok outputs)) :
    ∃ sends, n'.Repeats m sends ∧
      (m.kind = .voteRequest ∨ m.kind = .appendEntries → Simulation.sendsOf outputs = sends ∧
        (m.sender ∈ n.roster.peers → ∃ reply, sends = [(m.sender, reply)])) ∧
      (m.kind = .voteResponse ∨ m.kind = .appendResponse → sends = []) := by
  have hroster : n'.roster = n.roster := by
    have hsame : (n.call ⟨.message m, outage⟩).1.roster = n.roster :=
      roster_handle (n.under outage) (.message m)
    rw [first] at hsame
    exact hsame
  by_cases peer : m.sender ∈ n.roster.peers
  · have hrespond : (n.under outage).respond m = (n', .ok outputs) := by
      rw [← first]
      exact (handle_message (n := n.under outage) peer).symm
    obtain ⟨asked, satisfied, hfirst⟩ := satisfied_of_respond (n := n.under outage) peer hrespond
    obtain ⟨hrequest, hresponse⟩ := satisfied.answers
    refine ⟨_, satisfied.repeats (hroster ▸ peer), fun hkind => ⟨hfirst hkind, fun _ => ?_⟩,
      fun hkind => ?_⟩
    · obtain ⟨reply, rfl⟩ := hrequest hkind
      exact ⟨reply, rfl⟩
    · rw [hresponse hkind]
      rfl
  · rw [call_foreign peer outage] at first
    cases first
    refine ⟨[], fun again _ => ⟨[], ?_, rfl⟩, fun _ => ⟨rfl, fun hpeer => absurd hpeer peer⟩,
      fun _ => rfl⟩
    exact call_foreign (n := n.under outage) peer again

theorem Repeats.afterCalls {sends : List (NodeId × Message)} (h : n.Repeats m sends)
    {outages : List Outage} (readable : ∀ o ∈ outages, o.loads = false) (outage : Outage) :
    (n.afterCalls (outages.map fun o => ⟨.message m, o⟩)).under outage = n.under outage := by
  induction outages generalizing n with
  | nil => rfl
  | cons o rest ih =>
    obtain ⟨outputs, hcall, _⟩ := h o (readable o List.mem_cons_self)
    have hrest : (n.under o).Repeats m sends := h
    have hstay := ih hrest fun o' ho' => readable o' (List.mem_cons_of_mem _ ho')
    rw [List.map_cons, Node.afterCalls, List.foldl_cons, hcall]
    exact hstay

/-- **Redelivery is idempotent.** Once a handler has come to its end on a message, the message may
come again and again, with storage writes that fail or not, as long as votes can be read: each time
the handler comes to its end and leaves the node and its storage, with the record and the list of
written votes, as they were after the first time. A request of another member is answered each time
with the one reply that it got first; one that was not answered never is, and a response of another
member has nothing sent when it comes again. -/
theorem redelivery_is_idempotent (first : n.call ⟨.message m, outage⟩ = (n', .ok outputs))
    (between : List Outage) (readable : ∀ o ∈ between, o.loads = false) (again : Outage)
    (loads : again.loads = false) :
    ∃ outputs', (n'.afterCalls (between.map fun o => ⟨.message m, o⟩)).call ⟨.message m, again⟩ =
        (n'.under again, .ok outputs') ∧
      (m.kind = .voteRequest ∨ m.kind = .appendEntries →
        Simulation.sendsOf outputs' = Simulation.sendsOf outputs ∧
        (m.sender ∈ n.roster.peers → ∃ reply, Simulation.sendsOf outputs = [(m.sender, reply)])) ∧
      (m.kind = .voteResponse ∨ m.kind = .appendResponse → Simulation.sendsOf outputs' = []) := by
  obtain ⟨sends, hrepeats, hrequest, hresponse⟩ := repeats_of_call first
  obtain ⟨outputs', hcall, hagain⟩ := hrepeats again loads
  refine ⟨outputs', ?_, fun hkind => ?_, fun hkind => hagain.trans (hresponse hkind)⟩
  · rw [← hcall, Node.call, hrepeats.afterCalls readable]
    rfl
  · obtain ⟨hfirst, hreply⟩ := hrequest hkind
    refine ⟨hagain.trans hfirst.symm, fun peer => ?_⟩
    rw [hfirst]
    exact hreply peer

/-- A candidate of a newer term is granted the vote of a leader, and asks again twice while nothing
can be written. -/
theorem redelivery_is_idempotent_besetLeader :
    let ask := Message.voteRequest { candidate := 2, term := 7, last := {} }
    let broken : Outage := { vote := some ⟨0, 0⟩, term := some ⟨0, 0⟩ }
    let n' := (besetLeader.call ⟨.message ask, {}⟩).1
    besetLeader.isLeader = true ∧ n'.vote = some 2 ∧
      n'.storage.votesWritten? = some [(1, 1), (7, 2)] ∧
      ∃ outputs', (n'.afterCalls [⟨.message ask, broken⟩]).call ⟨.message ask, broken⟩ =
          (n'.under broken, .ok outputs') ∧
        Simulation.sendsOf outputs' =
          [(2, .voteResponse { voter := 1, term := 7, granted := true })] := by
  intro ask broken n'
  have hfirst : besetLeader.call ⟨.message ask, {}⟩ = (n', .ok [.steppedDown 7, .resetElectionTimer,
      .send 2 (.voteResponse { voter := 1, term := 7, granted := true })]) := rfl
  obtain ⟨outputs', hcall, hrequest, _⟩ :=
    redelivery_is_idempotent hfirst [broken] (by simp [broken]) broken rfl
  refine ⟨by decide +kernel, by decide +kernel, by decide +kernel, outputs', hcall, ?_⟩
  exact (hrequest (Or.inl rfl)).1

end Elector.Node
