import Elector.Proofs.Record

/-!
# Where votes, tallies and leaders come from

A turn adds a vote to the record, a member to a tally or a leader to a node's view only for a
reason that can be named: the node itself, or one message that it handles in this turn. These are
the lemmas by which an argument about a whole cluster goes from a node's state back to what was
sent to it:

* `Effect.vote_origin`: a vote on record is the node's own or answers a request that passed the
  comparison of logs;
* `Effect.supported`: members of a tally were heard granting their vote;
* `Effect.leader_origin`: the leader that a node follows sent it a heartbeat;
* `Effect.settledFor`, `Effect.leads_back`: a term that a node has left, or no longer runs in, has
  no new lead for it.
-/

namespace Elector

namespace Node

variable {e : Event} {n n' mid : Node} {outputs before : List Output} {t : Turn} {term : Term}
  {c : NodeId}

/-! ## Votes on record -/

/-- Why `c` has the node's vote of `term`, other than by what was on record before. -/
def VoteReason (n : Node) (e : Event) (term : Term) (c : NodeId) : Prop :=
  c = n.id ∨ ∃ r, e = .message (.voteRequest r) ∧ r.candidate = c ∧ r.term = term ∧
    n.position ≤ r.last

theorem CatchUp.vote_origin (h : CatchUp e n mid before)
    (hc : mid.storage.ballots.vote? term = some c) : n.storage.ballots.vote? term = some c := by
  cases h with
  | stay => exact hc
  | adopt event peer newer reached => exact Ballots.vote_of_reach reached.ballots hc

theorem Move.vote_origin (h : Move e n n' outputs)
    (hc : n'.storage.ballots.vote? term = some c) :
    n.storage.ballots.vote? term = some c ∨ n.VoteReason e term c := by
  cases h with
  | fault kept =>
    rw [kept.ballots] at hc
    exact Or.inl hc
  | stand event leads grows casts =>
    rcases Ballots.vote_of_cast casts.ballots hc with hold | ⟨_, hself⟩
    · exact Or.inl hold
    · exact Or.inr (Or.inl hself)
  | standAlone event leads grows casts =>
    rcases Ballots.vote_of_cast casts.ballots hc with hold | ⟨_, hself⟩
    · exact Or.inl hold
    · exact Or.inr (Or.inl hself)
  | @grant r s timers event peer current gate recorded =>
    rcases recorded with ⟨_, rfl⟩ | ⟨_, casts⟩
    · exact Or.inl hc
    · rcases Ballots.vote_of_cast casts.ballots hc with hold | ⟨hterm, hcandidate⟩
      · exact Or.inl hold
      · exact Or.inr (Or.inr ⟨r, event, hcandidate.symm, current.trans hterm.symm, gate⟩)
  | _ => exact Or.inl hc

theorem Passes.vote_origin (h : Passes e n n' outputs)
    (hc : n'.storage.ballots.vote? term = some c) :
    n.storage.ballots.vote? term = some c ∨ n.VoteReason e term c := by
  obtain ⟨mid, before, after, caught, move, _⟩ := h
  rcases move.vote_origin hc with hold | hself | ⟨r, hevent, hcandidate, hterm, hgate⟩
  · exact Or.inl (caught.vote_origin hold)
  · rw [Node.id, caught.roster] at hself
    exact Or.inr (Or.inl hself)
  · rw [caught.position] at hgate
    exact Or.inr (Or.inr ⟨r, hevent, hcandidate, hterm, hgate⟩)

theorem Effect.vote_origin (h : Effect n t n' outputs) (hs : n.Sound)
    (hc : n'.storage.ballots.vote? term = some c) :
    n.storage.ballots.vote? term = some c ∨ ∃ e, t.event? = some e ∧ n.VoteReason e term c := by
  cases h with
  | handled passes => exact (passes.vote_origin hc).imp_right fun hreason => ⟨_, rfl, hreason⟩
  | crashed passes reloads =>
    have hmid := passes.sound (sound_under hs _)
    have kept := Storage.keeps_of_reload hmid.backed reloads
    have hc : _ = some c := kept.ballots ▸ hc
    exact (passes.vote_origin hc).imp_right fun hreason => ⟨_, rfl, hreason⟩
  | outside => exact Or.inl hc

/-! ## Tallies -/

/-- The votes that a node runs or leads on, its own apart, are votes of its term by `Given`. -/
structure Supported (Given : NodeId → Term → Prop) (n : Node) : Prop where
  candidate : ∀ votes, n.role = .candidate votes → ∀ v ∈ votes, v ≠ n.id → Given v n.term
  leader : n.role = .leader → ∃ votes : IdSet, votes.carries n.roster.quorum = true ∧
    n.id ∈ votes ∧ (∀ v ∈ votes, v ∈ n.roster.members) ∧ ∀ v ∈ votes, v ≠ n.id → Given v n.term

variable {Given Given' : NodeId → Term → Prop}

theorem Supported.mono (h : Supported Given n) (himp : ∀ v term, Given v term → Given' v term) :
    Supported Given' n where
  candidate votes hrole v hv hne := himp v n.term (h.candidate votes hrole v hv hne)
  leader hrole := by
    obtain ⟨votes, hcarries, hself, hmembers, hgiven⟩ := h.leader hrole
    exact ⟨votes, hcarries, hself, hmembers, fun v hv hne => himp v n.term (hgiven v hv hne)⟩

theorem supported_of_follower (hrole : n.role = .follower) : Supported Given n where
  candidate votes h := by
    rw [hrole] at h
    cases h
  leader h := by
    rw [hrole] at h
    cases h

theorem singleton_given {id v : NodeId} {P : Prop} (hv : v ∈ IdSet.singleton id) (hne : v ≠ id) :
    P := absurd (IdSet.mem_singleton.mp hv) hne

theorem CatchUp.supported (h : CatchUp e n mid before) (hn : Supported Given n) :
    Supported Given mid := by
  cases h with
  | stay => exact hn
  | adopt => exact supported_of_follower rfl

theorem Move.supported (h : Move e n n' outputs) (hs : n.Sound) (hn : Supported Given n)
    (hgiven : ∀ r : VoteResponse, e = .message (.voteResponse r) → r.granted = true →
      Given r.voter r.term) : Supported Given n' := by
  cases h with
  | idle => exact hn
  | fault kept => exact ⟨hn.candidate, hn.leader⟩
  | beat => exact hn
  | stand event leads grows casts short =>
    refine ⟨fun votes hrole v hv hne => ?_, fun hrole => by cases hrole⟩
    cases hrole
    exact singleton_given hv hne
  | standAlone event leads grows casts carried =>
    refine ⟨fun votes hrole => (by cases hrole), fun _ => ?_⟩
    refine ⟨.singleton n.id, carried, IdSet.mem_singleton.mpr rfl, fun v hv => ?_,
      fun v hv hne => ?_⟩
    · rw [IdSet.mem_singleton.mp hv]
      exact n.roster.self_mem
    · exact singleton_given hv hne
  | grant => exact ⟨hn.candidate, hn.leader⟩
  | refuse => exact hn
  | @count r votes event peer current granted role short =>
    refine ⟨fun votes' hrole v hv hne => ?_, fun hrole => by cases hrole⟩
    cases hrole
    rcases IdSet.mem_insert.mp hv with rfl | hv
    · exact current ▸ hgiven r event granted
    · exact hn.candidate votes role v hv hne
  | @win r votes event peer current granted role carried =>
    have hrole := hs.role
    rw [InRole, role] at hrole
    obtain ⟨_, hself, hmembers, _⟩ := hrole
    refine ⟨fun votes' hrole => (by cases hrole), fun _ => ?_⟩
    refine ⟨votes.insert r.voter, carried, IdSet.mem_insert.mpr (Or.inr hself), fun v hv => ?_,
      fun v hv hne => ?_⟩
    · rcases IdSet.mem_insert.mp hv with rfl | hv
      · exact (Roster.mem_peers.mp peer).1
      · exact hmembers v hv
    · rcases IdSet.mem_insert.mp hv with rfl | hv
      · exact current ▸ hgiven r event granted
      · exact hn.candidate votes role v hv hne
  | follow => exact supported_of_follower rfl
  | rebuff => exact hn

theorem Effect.supported (h : Effect n t n' outputs) (hs : n.Sound) (hn : Supported Given n)
    (hgiven : ∀ r : VoteResponse, t.event? = some (.message (.voteResponse r)) →
      r.granted = true → Given r.voter r.term) : Supported Given n' := by
  cases h with
  | handled passes =>
    obtain ⟨mid, before, after, caught, move, _⟩ := passes
    have hunder := sound_under hs ‹_›
    refine move.supported (caught.sound hunder) (caught.supported ⟨hn.candidate, hn.leader⟩) ?_
    intro r hevent
    exact hgiven r (congrArg some hevent)
  | crashed => exact supported_of_follower rfl
  | outside => exact ⟨hn.candidate, hn.leader⟩

/-! ## Leaders -/

theorem Move.leader_origin (h : Move e n n' outputs) (hc : n'.leader = some c) :
    n.leader = some c ∧ n'.term = n.term ∨ c = n'.id ∧ n'.role = .leader ∨
      ∃ r, e = .message (.appendEntries r) ∧ r.leader = c ∧ r.term = n'.term := by
  cases h with
  | stand => cases hc
  | standAlone =>
    cases hc
    exact Or.inr (Or.inl ⟨rfl, rfl⟩)
  | win =>
    cases hc
    exact Or.inr (Or.inl ⟨rfl, rfl⟩)
  | @follow r timers event peer current leads only =>
    cases hc
    exact Or.inr (Or.inr ⟨r, event, rfl, current⟩)
  | _ => exact Or.inl ⟨hc, rfl⟩

theorem CatchUp.leader_origin (h : CatchUp e n mid before) (hc : mid.leader = some c) :
    n.leader = some c ∧ mid.term = n.term := by
  cases h with
  | stay => exact ⟨hc, rfl⟩
  | adopt => cases hc

theorem Effect.leader_origin (h : Effect n t n' outputs) (hc : n'.leader = some c) :
    n.leader = some c ∧ n'.term = n.term ∨ c = n'.id ∧ n'.role = .leader ∨
      ∃ r, t.event? = some (.message (.appendEntries r)) ∧ r.leader = c ∧ r.term = n'.term := by
  cases h with
  | handled passes =>
    obtain ⟨mid, before, after, caught, move, _⟩ := passes
    rcases move.leader_origin hc with ⟨hleader, hterm⟩ | hself | ⟨r, hevent, hr⟩
    · obtain ⟨hold, hterm'⟩ := caught.leader_origin hleader
      exact Or.inl ⟨hold, hterm.trans hterm'⟩
    · exact Or.inr (Or.inl hself)
    · exact Or.inr (Or.inr ⟨r, congrArg some hevent, hr⟩)
  | crashed => cases hc
  | outside => exact Or.inl ⟨hc, rfl⟩

/-! ## Terms that are over -/

def Leads (n : Node) (term : Term) : Prop := n.role = .leader ∧ n.term = term

instance (n : Node) (term : Term) : Decidable (n.Leads term) :=
  inferInstanceAs (Decidable (n.role = .leader ∧ n.term = term))

/-- The node is past `term`, or in it without running for the lead. -/
def SettledFor (n : Node) (term : Term) : Prop :=
  term < n.term ∨ term = n.term ∧ ∀ votes, n.role ≠ .candidate votes

theorem Leads.settledFor (h : n.Leads term) : n.SettledFor term := by
  refine Or.inr ⟨h.2.symm, fun votes hrole => ?_⟩
  rw [h.1] at hrole
  cases hrole

theorem CatchUp.settledFor (h : CatchUp e n mid before) (hn : n.SettledFor term) :
    mid.SettledFor term := by
  cases h with
  | stay => exact hn
  | adopt event peer newer reached =>
    refine Or.inl ?_
    rcases hn with hlt | ⟨rfl, _⟩
    · exact Int32.lt_trans hlt newer
    · exact newer

theorem CatchUp.leads_back (h : CatchUp e n mid before) (hn : mid.Leads term) : n.Leads term := by
  cases h with
  | stay => exact hn
  | adopt => cases hn.1

theorem SettledFor.lt_next (hn : n.SettledFor term) (grows : n.term ≠ Int32.maxValue) :
    term < n.term + 1 := by
  rcases hn with hlt | ⟨rfl, _⟩
  · exact Int32.lt_trans hlt (term_lt_next grows)
  · exact term_lt_next grows

theorem Move.settledFor (h : Move e n n' outputs) (hn : n.SettledFor term) :
    n'.SettledFor term := by
  cases h with
  | stand event leads grows => exact Or.inl (hn.lt_next grows)
  | standAlone event leads grows => exact Or.inl (hn.lt_next grows)
  | count event peer current granted role =>
    refine Or.inl (hn.resolve_right ?_)
    rintro ⟨_, hrole⟩
    exact hrole _ role
  | win => exact hn.imp_right fun ⟨hterm, _⟩ => ⟨hterm, fun votes hrole => by cases hrole⟩
  | follow => exact hn.imp_right fun ⟨hterm, _⟩ => ⟨hterm, fun votes hrole => by cases hrole⟩
  | _ => exact hn

theorem Move.leads_back (h : Move e n n' outputs) (hn : n.SettledFor term)
    (hleads : n'.Leads term) : n.Leads term := by
  cases h with
  | stand => cases hleads.1
  | standAlone event leads grows =>
    exact absurd (hleads.2 ▸ hn.lt_next grows) Int32.lt_irrefl
  | count => cases hleads.1
  | win event peer current granted role =>
    rcases hn with hlt | ⟨_, hrole⟩
    · exact absurd (hleads.2 ▸ hlt) Int32.lt_irrefl
    · exact absurd role (hrole _)
  | follow => cases hleads.1
  | _ => exact hleads

theorem Effect.settledFor (h : Effect n t n' outputs) (hs : n.Sound) (hn : n.SettledFor term) :
    n'.SettledFor term := by
  have hle := (h.precedes hs).term_le
  rw [← hs.term] at hle
  cases h with
  | handled passes =>
    obtain ⟨mid, before, after, caught, move, _⟩ := passes
    exact move.settledFor (caught.settledFor hn)
  | crashed passes reloads =>
    rcases hn with hlt | ⟨rfl, _⟩
    · exact Or.inl (Int32.lt_of_lt_of_le hlt hle)
    · rcases Int32.lt_or_eq_of_le hle with hlt | heq
      · exact Or.inl hlt
      · exact Or.inr ⟨heq, fun votes hrole => by cases hrole⟩
  | outside => exact hn

/-- A node that leads a term that was settled for it has led it before. -/
theorem Effect.leads_back (h : Effect n t n' outputs) (hn : n.SettledFor term)
    (hleads : n'.Leads term) : n.Leads term := by
  cases h with
  | handled passes =>
    obtain ⟨mid, before, after, caught, move, _⟩ := passes
    exact caught.leads_back (move.leads_back (caught.settledFor hn) hleads)
  | crashed => cases hleads.1
  | outside => exact hleads

end Node

end Elector
