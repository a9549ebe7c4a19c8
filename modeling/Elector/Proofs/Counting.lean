import Elector.Proofs.Campaign
import Elector.Proofs.Redelivery
import Elector.Proofs.Shape

/-!
# Counting votes

What a candidate makes of the responses that reach it. It adds the votes of other members to its
tally (`tallied`), and it leads from the moment at which the tally is a quorum. So after any
responses the node is known from the tally alone (`counting`), one more response takes it from the
one tally to the next (`call_counting`), and the response that completes the quorum is the only one
that has outputs. `votes_count_in_any_order` says that neither order nor repetition matters.
-/

namespace Elector

/-- A response to a request for votes, with the operations of the storage that fail as it comes. -/
structure Reply where
  response : VoteResponse
  outage : Outage := {}
deriving DecidableEq, Repr

def Reply.call (r : Reply) : Node.Call := ⟨.message (.voteResponse r.response), r.outage⟩

namespace Node

/-- Another member votes for the node, in its term. -/
def Supports (n : Node) (r : VoteResponse) : Prop :=
  r.voter ∈ n.roster.peers ∧ r.term = n.term ∧ r.granted = true

instance (n : Node) (r : VoteResponse) : Decidable (n.Supports r) :=
  inferInstanceAs (Decidable (r.voter ∈ n.roster.peers ∧ r.term = n.term ∧ r.granted = true))

def add (n : Node) (votes : IdSet) (r : VoteResponse) : IdSet :=
  if n.Supports r then votes.insert r.voter else votes

def tallied (n : Node) (votes : IdSet) (rs : List Reply) : IdSet :=
  rs.foldl (fun votes r => n.add votes r.response) votes

/-- What a candidate is with the given tally: the leader, if that is a quorum. -/
def counting (n : Node) (votes : IdSet) : Node :=
  if votes.carries n.roster.quorum then n.leading else { n with role := .candidate votes }

def outcomes (n : Node) : List Call → List (Except NodeError (List Output))
  | [] => []
  | c :: rest => (n.call c).2 :: (n.call c).1.outcomes rest

variable {n : Node} {votes : IdSet} {r : Reply} {rs rs' : List Reply} {v : NodeId}

/-! ## Tallies -/

def grant (n : Node) (voter : NodeId) : VoteResponse := { voter, term := n.term, granted := true }

theorem supports_iff {x : VoteResponse} :
    n.Supports x ↔ x.voter ∈ n.roster.peers ∧ n.grant x.voter = x := by
  obtain ⟨voter, term, granted⟩ := x
  simp only [Supports, grant, VoteResponse.mk.injEq, true_and, eq_comm]

theorem mem_add {x : VoteResponse} :
    v ∈ n.add votes x ↔ v ∈ votes ∨ v ∈ n.roster.peers ∧ n.grant v = x := by
  unfold add
  split
  · rename_i hsupports
    obtain ⟨peer, hgrant⟩ := supports_iff.mp hsupports
    rw [IdSet.mem_insert, or_comm]
    refine or_congr_right ⟨?_, ?_⟩
    · rintro rfl
      exact ⟨peer, hgrant⟩
    · rintro ⟨_, rfl⟩
      rfl
  · rename_i hnot
    refine (or_iff_left ?_).symm
    rintro ⟨peer, rfl⟩
    exact hnot ⟨peer, rfl, rfl⟩

theorem mem_tallied :
    v ∈ n.tallied votes rs ↔
      v ∈ votes ∨ v ∈ n.roster.peers ∧ n.grant v ∈ rs.map Reply.response := by
  induction rs generalizing votes with
  | nil => simp [tallied]
  | cons r rs ih =>
    rw [tallied, List.foldl_cons, ← tallied, ih, mem_add, or_assoc, ← and_or_left, List.map_cons,
      List.mem_cons]

theorem tallied_congr (same : ∀ x, x ∈ rs'.map Reply.response ↔ x ∈ rs.map Reply.response) :
    n.tallied votes rs' = n.tallied votes rs := by
  apply IdSet.ext
  intro v
  rw [mem_tallied, mem_tallied, same]

theorem tallied_cons : n.tallied votes (r :: rs) = n.tallied (n.add votes r.response) rs := rfl

theorem carries_iff {quorum : Nat} : votes.carries quorum = true ↔ quorum ≤ votes.size := by
  rw [IdSet.carries, decide_eq_true_eq]

theorem not_carries_iff {quorum : Nat} : votes.carries quorum = false ↔ votes.size < quorum :=
  ⟨size_lt_of_not_carries, fun h => decide_eq_false (Nat.not_le.mpr h)⟩

theorem carries_mono {votes' : IdSet} {quorum : Nat} (h : ∀ v ∈ votes, v ∈ votes')
    (carried : votes.carries quorum = true) : votes'.carries quorum = true := by
  rw [carries_iff] at carried ⊢
  exact Nat.le_trans carried (IdSet.size_le_of_subset h)

theorem carries_add {r : VoteResponse} {quorum : Nat} (carried : votes.carries quorum = true) :
    (n.add votes r).carries quorum = true :=
  carries_mono (fun _ hv => mem_add.mpr (Or.inl hv)) carried

theorem carries_tallied {quorum : Nat} (carried : votes.carries quorum = true) :
    (n.tallied votes rs).carries quorum = true :=
  carries_mono (fun _ hv => mem_tallied.mpr (Or.inl hv)) carried

/-! ## One response -/

theorem counting_won (carried : votes.carries n.roster.quorum = true) :
    n.counting votes = n.leading := if_pos carried

theorem counting_short (short : votes.carries n.roster.quorum = false) :
    n.counting votes = { n with role := .candidate votes } := if_neg (by simp [short])

theorem counting_same (n : Node) (votes : IdSet) :
    (n.counting votes).roster = n.roster ∧ (n.counting votes).term = n.term := by
  unfold counting
  split <;> exact ⟨rfl, rfl⟩

theorem call_response (peer : r.response.voter ∈ n.roster.peers) :
    n.call r.call = (n.under r.outage).onVoteResponse r.response :=
  handle_message (n := n.under r.outage) (m := .voteResponse r.response) peer

/-- Only a candidate takes notice of a response that is not ahead of its term, and only of a
vote. -/
theorem call_unmoved (due : r.response.term ≤ n.term)
    (idle : n.Supports r.response → ∀ votes, n.role ≠ .candidate votes) :
    n.call r.call = (n.under r.outage, .ok []) := by
  by_cases peer : r.response.voter ∈ n.roster.peers
  · rw [call_response peer]
    refine onVoteResponse_idle (n := n.under r.outage) due fun votes current hrole granted => ?_
    exact absurd hrole (idle ⟨peer, current, granted⟩ votes)
  · exact call_foreign (m := .voteResponse r.response) peer r.outage

theorem call_vote (role : n.role = .candidate votes) (supports : n.Supports r.response) :
    n.call r.call = ((n.counting (votes.insert r.response.voter)).under r.outage,
      .ok (if (votes.insert r.response.voter).carries n.roster.quorum then n.announcement
        else [])) := by
  obtain ⟨peer, current, granted⟩ := supports
  have hterm : r.response.term = (n.under r.outage).term := current
  have hrole : (n.under r.outage).role = .candidate votes := role
  rw [call_response peer, onVoteResponse, hterm, if_neg Int32.lt_irrefl, if_neg Int32.lt_irrefl,
    hrole]
  simp only [if_pos granted]
  cases hcarries : (votes.insert r.response.voter).carries n.roster.quorum with
  | true =>
    rw [counting_won hcarries]
    exact if_pos hcarries
  | false =>
    rw [counting_short hcarries]
    exact if_neg (Bool.eq_false_iff.mp hcarries)

/-- One response takes a node from the tally before it to the tally after it. Outputs come with the
response that completes a quorum, and with no other. -/
theorem call_counting (due : r.response.term ≤ n.term) :
    (n.counting votes).call r.call = ((n.counting (n.add votes r.response)).under r.outage,
      .ok (if (n.add votes r.response).carries n.roster.quorum = votes.carries n.roster.quorum
        then [] else n.announcement)) := by
  obtain ⟨hroster, hterm⟩ := counting_same n votes
  by_cases supports : n.Supports r.response
  · cases hcarries : votes.carries n.roster.quorum with
    | true =>
      have hafter : (n.add votes r.response).carries n.roster.quorum = true := carries_add hcarries
      rw [if_pos hafter, counting_won hcarries, counting_won hafter]
      exact call_unmoved (n := n.leading) due fun _ _ hcandidate => by cases hcandidate
    | false =>
      have hadd : n.add votes r.response = votes.insert r.response.voter := if_pos supports
      rw [counting_short hcarries, hadd]
      refine (call_vote (n := { n with role := .candidate votes }) rfl supports).trans ?_
      cases (votes.insert r.response.voter).carries n.roster.quorum <;> rfl
  · have hadd : n.add votes r.response = votes := if_neg supports
    rw [hadd, if_pos rfl]
    refine call_unmoved (hterm.symm ▸ due) fun hsupports => absurd ?_ supports
    rwa [Supports, hroster, hterm] at hsupports

/-! ## Any responses -/

theorem outcomes_append (n : Node) (calls later : List Call) :
    n.outcomes (calls ++ later) = n.outcomes calls ++ (n.afterCalls calls).outcomes later := by
  induction calls generalizing n with
  | nil => rfl
  | cons c rest ih =>
    rw [List.cons_append, outcomes, outcomes, ih, List.cons_append]
    rfl

/-- Being what the tally makes of a candidate, whichever operations of the storage fail. -/
def HasCounted (n : Node) (votes : IdSet) (m : Node) : Prop :=
  ∀ outage, m.under outage = (n.counting votes).under outage

variable {m : Node}

theorem HasCounted.call (h : n.HasCounted votes m) (due : r.response.term ≤ n.term) :
    n.HasCounted (n.add votes r.response) (m.call r.call).1 ∧
      (m.call r.call).2 = .ok (if (n.add votes r.response).carries n.roster.quorum =
        votes.carries n.roster.quorum then [] else n.announcement) := by
  have hcall : m.call r.call = (n.counting votes).call r.call := by
    rw [Node.call, Node.call, h]
  rw [hcall, call_counting due]
  exact ⟨fun _ => rfl, rfl⟩

theorem HasCounted.afterCalls (h : n.HasCounted votes m)
    (due : ∀ r ∈ rs, r.response.term ≤ n.term) :
    n.HasCounted (n.tallied votes rs) (m.afterCalls (rs.map Reply.call)) := by
  induction rs generalizing m votes with
  | nil => exact h
  | cons r rest ih =>
    obtain ⟨hr, hrest⟩ := List.forall_mem_cons.mp due
    exact ih (h.call hr).1 hrest

theorem HasCounted.silent (h : n.HasCounted votes m) (due : ∀ r ∈ rs, r.response.term ≤ n.term)
    (same : (n.tallied votes rs).carries n.roster.quorum = votes.carries n.roster.quorum) :
    m.outcomes (rs.map Reply.call) = List.replicate rs.length (.ok []) := by
  induction rs generalizing m votes with
  | nil => rfl
  | cons r rest ih =>
    obtain ⟨hr, hrest⟩ := List.forall_mem_cons.mp due
    obtain ⟨hcounted, houtcome⟩ := h.call hr
    -- The tally only grows, so it cannot have become a quorum on the way.
    have hstep : (n.add votes r.response).carries n.roster.quorum =
        votes.carries n.roster.quorum := by
      cases hcarries : votes.carries n.roster.quorum with
      | true => exact carries_add hcarries
      | false =>
        rw [hcarries, tallied_cons] at same
        refine Bool.eq_false_iff.mpr fun hadd => Bool.false_ne_true ?_
        exact same.symm.trans (carries_tallied hadd)
    rw [List.map_cons, outcomes, houtcome, if_pos hstep,
      ih hcounted hrest (same.trans hstep.symm)]
    rfl

theorem exists_decisive (short : votes.carries n.roster.quorum = false)
    (carried : (n.tallied votes rs).carries n.roster.quorum = true) :
    ∃ before r later, rs = before ++ r :: later ∧
      (n.tallied votes before).carries n.roster.quorum = false ∧
      (n.tallied votes (before ++ [r])).carries n.roster.quorum = true := by
  induction rs generalizing votes with
  | nil => exact absurd (short.symm.trans carried) Bool.false_ne_true
  | cons r rest ih =>
    cases hadd : (n.add votes r.response).carries n.roster.quorum with
    | true => exact ⟨[], r, rest, rfl, short, hadd⟩
    | false =>
      obtain ⟨before, r', later, rfl, hbefore, hafter⟩ := ih hadd carried
      exact ⟨r :: before, r', later, rfl, hbefore, hafter⟩

theorem HasCounted.announced (h : n.HasCounted votes m) (due : ∀ r ∈ rs, r.response.term ≤ n.term)
    (short : votes.carries n.roster.quorum = false)
    (carried : (n.tallied votes rs).carries n.roster.quorum = true) :
    ∃ before r later, rs = before ++ r :: later ∧
      (n.tallied votes before).carries n.roster.quorum = false ∧
      (n.tallied votes (before ++ [r])).carries n.roster.quorum = true ∧
      m.outcomes (rs.map Reply.call) = List.replicate before.length (.ok []) ++
        .ok n.announcement :: List.replicate later.length (.ok []) := by
  obtain ⟨before, r, later, rfl, hbefore, hafter⟩ := exists_decisive short carried
  obtain ⟨hdue, hrest⟩ := List.forall_mem_append.mp due
  obtain ⟨hr, hlater⟩ := List.forall_mem_cons.mp hrest
  have htally : n.tallied votes (before ++ [r]) = n.add (n.tallied votes before) r.response :=
    List.foldl_append ..
  obtain ⟨hcounted, houtcome⟩ := (h.afterCalls hdue).call hr
  rw [← htally] at hcounted
  rw [← htally, hbefore, hafter, if_neg Bool.noConfusion] at houtcome
  refine ⟨before, r, later, rfl, hbefore, hafter, ?_⟩
  rw [List.map_append, List.map_cons, outcomes_append, outcomes, houtcome,
    h.silent hdue (hbefore.trans short.symm),
    hcounted.silent hlater ((carries_tallied hafter).trans hafter.symm)]

/-- **Votes count in any order, and once.** A candidate that gets any responses of terms up to its
own, from anyone, in any order and any number of times, with storage writes that fail or not, ends
with the votes it had and those of the other members that granted it one in its term. If these are
a quorum, it leads, and exactly one response has had outputs: the one that completed the quorum has
announced the lead and sent a heartbeat to every peer. Otherwise it is a candidate with these votes
and has asked for nothing. Nothing else about it changes, so it ends in the same state whenever the
same responses come. -/
theorem votes_count_in_any_order (h : n.Reachable) (role : n.role = .candidate votes)
    (due : ∀ r ∈ rs, r.response.term ≤ n.term) :
    (∀ heard v, v ∈ n.tallied votes heard ↔ v ∈ votes ∨ (v ∈ n.roster.members ∧ v ≠ n.id) ∧
      { voter := v, term := n.term, granted := true } ∈ heard.map Reply.response) ∧
    (n.roster.quorum ≤ (n.tallied votes rs).size →
      (∀ outage, (n.afterCalls (rs.map Reply.call)).under outage =
        ({ n with role := .leader, leader := some n.id } : Node).under outage) ∧
      ∃ before r later, rs = before ++ r :: later ∧
        (n.tallied votes before).size < n.roster.quorum ∧
        n.roster.quorum ≤ (n.tallied votes (before ++ [r])).size ∧
        n.outcomes (rs.map Reply.call) = List.replicate before.length (.ok []) ++
          .ok ([.becameLeader n.term, .scheduleHeartbeat] ++ n.roster.peers.map fun target =>
            .send target (.appendEntries (heartbeat n.id n.term n.position))) ::
          List.replicate later.length (.ok [])) ∧
    ((n.tallied votes rs).size < n.roster.quorum →
      (∀ outage, (n.afterCalls (rs.map Reply.call)).under outage =
        ({ n with role := .candidate (n.tallied votes rs) } : Node).under outage) ∧
      n.outcomes (rs.map Reply.call) = List.replicate rs.length (.ok [])) ∧
    ∀ rs' : List Reply, (∀ x, x ∈ rs'.map Reply.response ↔ x ∈ rs.map Reply.response) →
      ∀ outage, (n.afterCalls (rs'.map Reply.call)).under outage =
        (n.afterCalls (rs.map Reply.call)).under outage := by
  have short : votes.carries n.roster.quorum = false :=
    not_carries_iff.mpr (h.sound.candidate role).2.2.2.2
  have start : n.HasCounted votes n := by
    intro outage
    rw [counting_short short, ← role]
  have hafter := start.afterCalls due
  refine ⟨fun heard v => ?_, fun hquorum => ?_, fun hless => ?_, fun rs' same => ?_⟩
  · rw [mem_tallied, Roster.mem_peers]
    exact Iff.rfl
  · have carried := carries_iff.mpr hquorum
    refine ⟨fun outage => ?_, ?_⟩
    · rw [hafter, counting_won carried]
      rfl
    · obtain ⟨before, r, later, hsplit, hbefore, hwon, houtcomes⟩ :=
        start.announced due short carried
      exact ⟨before, r, later, hsplit, not_carries_iff.mp hbefore, carries_iff.mp hwon, houtcomes⟩
  · have hcarries := not_carries_iff.mpr hless
    refine ⟨fun outage => ?_, start.silent due (hcarries.trans short.symm)⟩
    rw [hafter, counting_short hcarries]
  · have due' : ∀ r ∈ rs', r.response.term ≤ n.term := by
      intro r hr
      obtain ⟨r', hr', heq⟩ := List.mem_map.mp ((same r.response).mp (List.mem_map_of_mem hr))
      exact heq ▸ due r' hr'
    intro outage
    rw [start.afterCalls due', hafter, tallied_congr same]

/-! Among the replies to a candidate among five are a vote of an earlier term, a refusal, a vote of
a stranger and a vote that comes twice. Two votes beside its own win. -/

def contender : Node := (reborn (.of 1 [2, 3, 4, 5]) {}).afterCalls [⟨.electionTimeout, {}⟩]

def mixedReplies : List Reply := [
  ⟨{ voter := 2, term := 0, granted := true }, {}⟩,
  ⟨{ voter := 2, term := 1, granted := false }, {}⟩,
  ⟨{ voter := 3, term := 1, granted := true }, {}⟩,
  ⟨{ voter := 3, term := 1, granted := true }, { vote := some ⟨0, 0⟩ }⟩,
  ⟨{ voter := 9, term := 1, granted := true }, {}⟩,
  ⟨{ voter := 4, term := 1, granted := true }, {}⟩,
  ⟨{ voter := 5, term := 1, granted := true }, {}⟩]

theorem votes_count_in_any_order_mixedReplies :
    (contender.tallied (.singleton 1) mixedReplies).toList = [1, 3, 4, 5] ∧
    contender.roster.quorum = 3 ∧
    (∀ outage, (contender.afterCalls (mixedReplies.map Reply.call)).under outage =
      ({ contender with role := .leader, leader := some 1 } : Node).under outage) ∧
    ∀ outage, (contender.afterCalls (mixedReplies.reverse.map Reply.call)).under outage =
      (contender.afterCalls (mixedReplies.map Reply.call)).under outage := by
  have hstart : start (.of 1 [2, 3, 4, 5]) {} = .ok (reborn (.of 1 [2, 3, 4, 5]) {}) := rfl
  have hfresh : Storage.Fresh {} := ⟨rfl, rfl, Storage.backed_of_memory rfl⟩
  have hreachable : contender.Reachable := (Reachable.start (.fresh hfresh) hstart).afterCalls _
  have hrole : contender.role = .candidate (.singleton 1) := by decide +kernel
  have hdue : ∀ r ∈ mixedReplies, r.response.term ≤ contender.term := by decide +kernel
  obtain ⟨_, hwon, _, hany⟩ := votes_count_in_any_order hreachable hrole hdue
  refine ⟨by decide +kernel, by decide +kernel, (hwon (by decide +kernel)).1, hany _ fun x => ?_⟩
  rw [List.map_reverse, List.mem_reverse]

end Node

end Elector
