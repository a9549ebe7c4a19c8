import Mathlib.Data.List.Nodup
import Elector.Proofs.Life

/-!
# One vote of a term, for ever

The votes that a node records in its life are `Life.casts`. A turn records at most one, in a term
that has not been left and in which no vote is on record (`casts_cases`), and the vote is on record
at some point of the turn (`records_casts`). So no term occurs twice, and whatever a node grants or
stands for goes with the one vote of the term.
-/

namespace Elector

variable {term : Term} {c : NodeId}

/-! ## Performing writes -/

namespace Storage

variable {s s' : Storage} {ws : List Write}

theorem precedes_perform {w : Write} (h : s.perform w = (s', .ok ())) (hs : s.ballots.Settled) :
    s'.ballots.Settled ∧ s.ballots.Precedes s'.ballots := by
  have hchange := (perform_ok h).1
  cases w with
  | cast t c => exact ⟨Ballots.settled_cast hchange hs, Ballots.precedes_cast hchange hs⟩
  | reach t => exact ⟨Ballots.settled_reach hchange hs, Ballots.precedes_reach hchange⟩

theorem precedes_performAll (hs : s.ballots.Settled) (ws : List Write) :
    s.ballots.Precedes (s.performAll ws).ballots := by
  induction ws generalizing s with
  | nil => exact Ballots.Precedes.refl _
  | cons w ws ih =>
    rw [performAll]
    cases hw : s.perform w with
    | mk s' result =>
      cases result with
      | error e =>
        rw [(keeps_of_perform hw).ballots]
        exact Ballots.Precedes.refl _
      | ok u =>
        obtain ⟨hsettled, hstep⟩ := precedes_perform hw hs
        exact hstep.trans (ih hsettled)

theorem records_castsOf (hs : s.ballots.Settled) (hmem : (term, c) ∈ s.castsOf ws) :
    s.ballots.Records term c (s.performAll ws).ballots := by
  induction ws generalizing s with
  | nil => cases hmem
  | cons w ws ih =>
    rw [castsOf] at hmem
    rw [performAll]
    cases hw : s.perform w with
    | mk s' result =>
      rw [hw] at hmem
      cases result with
      | error e => cases hmem
      | ok u =>
        obtain ⟨hsettled, hstep⟩ := precedes_perform hw hs
        rcases List.mem_append.mp hmem with hfirst | hrest
        · cases w with
          | cast t c' =>
            cases List.mem_singleton.mp hfirst
            have hvote := Ballots.vote_cast (casts_of_storeVote hw).ballots
            exact ⟨s'.ballots, hstep, hsettled, hvote, precedes_performAll hsettled ws⟩
          | reach t => cases hfirst
        · exact (ih hsettled hrest).after hstep

theorem castsOf_sublist (s : Storage) (ws : List Write) :
    (s.castsOf ws).Sublist (ws.filterMap Write.cast?) := by
  induction ws generalizing s with
  | nil => exact List.Sublist.refl _
  | cons w ws ih =>
    rw [castsOf]
    cases s.perform w with
    | mk s' result =>
      cases result with
      | error e => exact List.nil_sublist _
      | ok u =>
        cases w with
        | cast t c => exact (ih s').cons_cons _
        | reach t => exact ih s'

end Storage

/-! ## The votes of a turn -/

namespace Node

variable {n n' : Node} {t : Turn} {outputs : List Output}

/-- Handling an event asks for at most one vote, in a term without one. -/
theorem writes_cases (hs : n.Sound) (e : Event) :
    (n.writes e).filterMap Write.cast? = [] ∨ ∃ term c,
      (n.writes e).filterMap Write.cast? = [(term, c)] ∧ n.storage.ballots.term ≤ term ∧
        n.storage.ballots.vote? term = none := by
  cases e with
  | electionTimeout =>
    rw [writes]
    split
    · exact Or.inl rfl
    · rename_i hstands
      have hnext := term_lt_next (t := n.term) fun hmax => hstands (Or.inr hmax)
      have hnext : n.storage.ballots.term < n.term + 1 := hs.term ▸ hnext
      exact Or.inr ⟨_, _, rfl, Int32.le_of_lt hnext, hs.settled.vote_newer hnext⟩
  | heartbeatDue => exact Or.inl rfl
  | message m =>
    have hterms : ∀ term, (n.termWrites term).filterMap Write.cast? = [] := by
      intro term
      rw [termWrites]
      split <;> rfl
    rw [writes]
    split
    · rw [List.filterMap_append, hterms, List.nil_append, answerWrites.eq_def]
      cases m with
      | voteRequest r =>
        dsimp only
        rw [voteWrites]
        split
        · rename_i hfree
          obtain ⟨hle, _, _, hnone⟩ := hfree
          exact Or.inr ⟨_, _, rfl, hs.term ▸ hle, hnone⟩
        · exact Or.inl rfl
      | _ => exact Or.inl rfl
    · exact Or.inl rfl

/-- A turn records at most one vote, in a term that has not been left and has no vote yet. -/
theorem casts_cases (hs : n.Sound) (t : Turn) :
    n.casts t = [] ∨ ∃ term c, n.casts t = [(term, c)] ∧ n.storage.ballots.term ≤ term ∧
      n.storage.ballots.vote? term = none := by
  have hsub : ∀ {e outage} {casts : List (Term × NodeId)},
      casts.Sublist (((n.under outage).writes e).filterMap Write.cast?) →
      casts = [] ∨ ∃ term c, casts = [(term, c)] ∧ n.storage.ballots.term ≤ term ∧
        n.storage.ballots.vote? term = none := by
    intro e outage casts hsub
    rcases writes_cases (sound_under hs outage) e with hnil | ⟨term, c, hone, hfree⟩
    · rw [hnil] at hsub
      exact Or.inl (List.sublist_nil.mp hsub)
    · rw [hone] at hsub
      rcases List.sublist_singleton.mp hsub with hnil | hsame
      · exact Or.inl hnil
      · exact Or.inr ⟨term, c, hsame, hfree⟩
  cases t with
  | handle e outage => exact hsub (Storage.castsOf_sublist _ _)
  | crash e outage count =>
    have htake := (List.take_sublist count ((n.under outage).writes e)).filterMap Write.cast?
    exact hsub ((Storage.castsOf_sublist _ _).trans htake)
  | outside log disk => exact Or.inl rfl

/-- The votes on record are the same, in the ballots and in the list of written votes. -/
def SameVotes (s s' : Storage) : Prop :=
  s'.ballots = s.ballots ∧ s'.votesWritten? = s.votesWritten?

theorem performs_of_turn (hs : n.Sound) (h : n.turn t = some (n', outputs)) :
    ∃ s ws, SameVotes n.storage s ∧ n.casts t = s.castsOf ws ∧
      SameVotes (s.performAll ws) n'.storage := by
  cases t with
  | handle e outage =>
    refine ⟨(n.under outage).storage, (n.under outage).writes e, ⟨rfl, rfl⟩, rfl, ?_⟩
    rw [← storage_handle]
    rw [turn] at h
    cases hhandle : (n.under outage).handle e with
    | mk mid result =>
      rw [hhandle] at h
      cases result <;> cases h <;> exact ⟨rfl, rfl⟩
  | crash e outage count =>
    refine ⟨(n.under outage).storage, ((n.under outage).writes e).take count, ⟨rfl, rfl⟩, rfl, ?_⟩
    simp only [turn, Option.map_eq_some_iff] at h
    obtain ⟨started, hrestart, heq⟩ := h
    cases heq
    obtain ⟨mid, asked, hpasses, hstorage⟩ := passes_writes (n.under outage) e count
    obtain ⟨s, hreload, rfl⟩ := restart_eq_some hrestart
    have hbacked : ((n.under outage).storageAt e count).Backed :=
      hstorage ▸ (hpasses.sound (sound_under hs outage)).backed
    have kept := Storage.keeps_of_reload hbacked hreload
    exact ⟨kept.ballots, kept.votesWritten⟩
  | outside log disk =>
    refine ⟨n.storage, [], ⟨rfl, rfl⟩, rfl, ?_⟩
    rw [turn] at h
    split at h <;> cases h
    exact ⟨rfl, rfl⟩

theorem records_casts (hs : n.Sound) (h : n.turn t = some (n', outputs))
    (hmem : (term, c) ∈ n.casts t) :
    n.storage.ballots.Records term c n'.storage.ballots := by
  obtain ⟨s, ws, hbefore, hcasts, hafter⟩ := performs_of_turn hs h
  have hsettled : s.ballots.Settled := hbefore.1 ▸ hs.settled
  rw [hafter.1, ← hbefore.1]
  exact Storage.records_castsOf hsettled (hcasts ▸ hmem)

theorem votesWritten_turn (hs : n.Sound) (h : n.turn t = some (n', outputs)) :
    n'.storage.votesWritten? = n.storage.votesWritten?.map (· ++ n.casts t) := by
  obtain ⟨s, ws, hbefore, hcasts, hafter⟩ := performs_of_turn hs h
  rw [hafter.2, Storage.votesWritten_performAll, hbefore.2, hcasts]

/-! ## The votes of a life -/

namespace Life

variable {k l : Nat}

def casts (life : Life) (k : Nat) : List (Term × NodeId) :=
  (List.range k).flatMap fun j => (life.node j).casts (life.turn j)

theorem casts_succ (life : Life) (k : Nat) :
    life.casts (k + 1) = life.casts k ++ (life.node k).casts (life.turn k) := by
  rw [casts, List.range_succ, List.flatMap_append, List.flatMap_singleton, casts]

theorem records (life : Life) (hk : k ≤ life.length) (hmem : (term, c) ∈ life.casts k) :
    ∃ j < k, (life.node j).storage.ballots.Records term c
      (life.node (j + 1)).storage.ballots := by
  obtain ⟨j, hj, hmem⟩ := List.mem_flatMap.mp hmem
  have hj := List.mem_range.mp hj
  have hjk := Nat.lt_of_lt_of_le hj hk
  exact ⟨j, hj, records_casts (life.sound (Nat.le_of_lt hjk)) (life.turns j hjk) hmem⟩

theorem vote_of_casts {c' : NodeId} (life : Life) (hk : k ≤ life.length) (hl : l ≤ life.length)
    (hmem : (term, c) ∈ life.casts k)
    (hvote : (life.node l).storage.ballots.vote? term = some c') : c = c' := by
  obtain ⟨j, hj, hrecords⟩ := life.records hk hmem
  refine hrecords.unique (life.sound hl).settled ?_ hvote
  rcases Nat.lt_or_ge j l with hjl | hlj
  · exact Or.inr (life.precedes hjl hl)
  · exact Or.inl (life.precedes hlj (by omega))

theorem terms_nodup (life : Life) (hk : k ≤ life.length) :
    ((life.casts k).map (·.1)).Nodup := by
  induction k with
  | zero => exact List.nodup_nil
  | succ k ih =>
    have hk' := Nat.le_of_succ_le hk
    rw [casts_succ]
    rcases casts_cases (life.sound hk') (life.turn k) with hnil | ⟨term, c, hone, hle, hnone⟩
    · rw [hnil, List.append_nil]
      exact ih hk'
    · rw [hone, List.map_append, List.map_singleton, List.nodup_append]
      refine ⟨ih hk', List.nodup_singleton _, fun term' hterm' _ hlast heq => ?_⟩
      cases List.mem_singleton.mp hlast
      subst heq
      obtain ⟨⟨term, c'⟩, hmem, rfl⟩ := List.mem_map.mp hterm'
      -- What has been recorded is spent: its term is left, or holds a vote.
      obtain ⟨j, hj, hrecords⟩ := life.records hk' hmem
      rcases (hrecords.extend (life.precedes hj hk')).spent with hlt | hvote
      · exact absurd hlt (Int32.not_lt.mpr hle)
      · rw [hnone] at hvote
        cases hvote

theorem votesWritten (life : Life) (hk : k ≤ life.length) {votes : List (Term × NodeId)}
    (h : (life.node k).storage.votesWritten? = some votes) : votes = life.casts k := by
  induction k generalizing votes with
  | zero =>
    have hfresh := life.fresh.storage.votesWritten
    rw [h] at hfresh
    exact hfresh
  | succ k ih =>
    have hk' := Nat.le_of_succ_le hk
    rw [votesWritten_turn (life.sound hk') (life.turns k hk), Option.map_eq_some_iff] at h
    obtain ⟨before, hbefore, rfl⟩ := h
    rw [ih hk' hbefore, casts_succ]

def Grants (life : Life) (k : Nat) (term : Term) (c : NodeId) : Prop :=
  k < life.length ∧
    ∃ voter, .send c (.voteResponse { voter, term, granted := true }) ∈ life.outputs k

theorem Grants.vote {life : Life} (h : life.Grants k term c) :
    k < life.length ∧ (life.node (k + 1)).storage.ballots.vote? term = some c := by
  obtain ⟨hk, voter, hsend⟩ := h
  exact ⟨hk, life.vote_of_grant hk hsend rfl⟩

theorem not_grants_of_standing (life : Life) (hk : k ≤ life.length)
    (hrole : (life.node k).role ≠ .follower) : ¬ life.Grants l (life.node k).term c := by
  intro hgrants
  obtain ⟨hl, hvote⟩ := hgrants.vote
  obtain ⟨_, voter, hsend⟩ := hgrants
  have hown := (life.sound hk).own hrole
  have hc : (life.node k).id = c := life.vote_unique hk hl hown hvote
  have hpeer := (vouches_of_effect (life.effect hl) hsend).peer
  have hself : (life.node (l + 1)).roster.self = (life.node k).id := by
    rw [Node.id, life.roster hl, life.roster hk]
  exact (Roster.mem_peers.mp hpeer).2 (hc.symm.trans hself.symm)

/-- In the whole life of a node no term is voted in twice. The list that a storage in memory keeps
is the list of these votes. All grants of a term, first or repeated, go to one candidate, to whom
the recorded vote of the term went as well; and none of a term in which the node stood itself. -/
theorem one_vote_of_a_term (life : Life) :
    ((life.casts life.length).map (·.1)).Nodup ∧
    (∀ k ≤ life.length, ∀ votes, (life.node k).storage.votesWritten? = some votes →
      votes = life.casts k ∧ (votes.map (·.1)).Nodup) ∧
    (∀ k l term c c', life.Grants k term c → life.Grants l term c' → c = c') ∧
    (∀ k term c c', life.Grants k term c → (term, c') ∈ life.casts life.length → c = c') ∧
    (∀ k ≤ life.length, (life.node k).role ≠ .follower →
      ∀ l c, ¬ life.Grants l (life.node k).term c) := by
  refine ⟨life.terms_nodup (Nat.le_refl _), ?_, ?_, ?_, ?_⟩
  · intro k hk votes hvotes
    obtain rfl := life.votesWritten hk hvotes
    exact ⟨rfl, life.terms_nodup hk⟩
  · intro k l term c c' hgrant hgrant'
    obtain ⟨hk, hvote⟩ := hgrant.vote
    obtain ⟨hl, hvote'⟩ := hgrant'.vote
    exact life.vote_unique hk hl hvote hvote'
  · intro k term c c' hgrant hmem
    obtain ⟨hk, hvote⟩ := hgrant.vote
    have hcast := life.vote_of_casts (Nat.le_refl _) hk hmem hvote
    exact hcast.symm
  · intro k hk hrole l c
    exact life.not_grants_of_standing hk hrole

end Life

/-! A life in which a vote fails to be recorded, the next one is recorded just before a crash, and
the last is given twice. -/

def contestedTurns : Nat → Turn
  | 0 => .handle (.message (.voteRequest { candidate := 2, term := 1, last := {} }))
      { vote := some ⟨0, 0⟩ }
  | 1 => .crash .electionTimeout {} 1
  | 2 => .handle (.message (.voteRequest { candidate := 3, term := 2, last := {} })) {}
  | _ => .handle (.message (.voteRequest { candidate := 3, term := 3, last := {} })) {}

def contestedLife : Life :=
  .ofTurns (reborn (.of 1 [2, 3]) {}) contestedTurns 5
    ⟨.of 1 [2, 3], {}, ⟨rfl, rfl, fun h => by cases h⟩, rfl⟩ (by decide +kernel)

theorem one_vote_of_contestedLife :
    contestedLife.casts 5 = [(2, 1), (3, 3)] ∧ contestedLife.Grants 3 3 3 ∧
      contestedLife.Grants 4 3 3 ∧ ((contestedLife.casts 5).map (·.1)).Nodup := by
  have hcasts : contestedLife.casts 5 = [(2, 1), (3, 3)] := by decide +kernel
  have hfirst : contestedLife.Grants 3 3 3 := ⟨by decide, 1, by decide +kernel⟩
  have hagain : contestedLife.Grants 4 3 3 := ⟨by decide, 1, by decide +kernel⟩
  exact ⟨hcasts, hfirst, hagain, contestedLife.one_vote_of_a_term.1⟩

end Node

end Elector
