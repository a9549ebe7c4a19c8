import Elector.Proofs.Turn

/-!
# Memory and record agree

`Sound` ties what a node holds in memory to what its storage has on record, and its role to its
leader and its votes. Every change of a node keeps it (`CatchUp.sound`, `Move.sound`), a restart
finds it again (`sound_reborn`), so it holds after every turn (`sound_of_effect`). Beside it stands
what a turn leaves alone: the roster, and the order of the ballots.
-/

namespace Elector.Node

/-- What the role says about the leader and about the votes received. -/
def InRole (n : Node) : Prop :=
  match n.role with
  | .follower => ∀ l, n.leader = some l → l ∈ n.roster.peers
  | .candidate votes =>
    n.leader = none ∧ n.id ∈ votes ∧ (∀ v ∈ votes, v ∈ n.roster.members) ∧
      votes.carries n.roster.quorum = false
  | .leader => n.leader = some n.id

structure Sound (n : Node) : Prop where
  settled : n.storage.ballots.Settled
  backed : n.storage.Backed
  term : n.term = n.storage.ballots.term
  vote : n.vote = n.storage.ballots.vote? n.term
  own : n.role ≠ .follower → n.storage.ballots.vote? n.term = some n.id
  role : n.InRole

variable {e : Event} {n n' mid : Node} {s : Storage} {outputs before : List Output} {t : Turn}

/-! ## What changes leave alone -/

theorem Move.roster (h : Move e n n' outputs) : n'.roster = n.roster := by
  cases h <;> rfl

theorem Passes.roster (h : Passes e n n' outputs) : n'.roster = n.roster := by
  obtain ⟨mid, before, after, caught, move, _⟩ := h
  exact move.roster.trans caught.roster

theorem Effect.roster (h : Effect n t n' outputs) : n'.roster = n.roster := by
  cases h with
  | handled passes => exact passes.roster
  | crashed passes => rfl
  | outside file => rfl

theorem CatchUp.position (h : CatchUp e n mid before) : mid.position = n.position := by
  cases h with
  | stay => rfl
  | adopt event peer newer reached =>
    rw [Node.position, Node.position, Storage.position, Storage.position, reached.log]

theorem Move.position (h : Move e n n' outputs) : n'.position = n.position := by
  cases h with
  | fault kept => exact kept.position
  | stand event leads grows casts => exact congrArg LogView.position casts.log
  | standAlone event leads grows casts => exact congrArg LogView.position casts.log
  | grant event peer current gate recorded =>
    rcases recorded with ⟨_, rfl⟩ | ⟨_, casts⟩
    · rfl
    · exact congrArg LogView.position casts.log
  | _ => rfl

theorem Passes.position (h : Passes e n n' outputs) : n'.position = n.position := by
  obtain ⟨mid, before, after, caught, move, _⟩ := h
  exact move.position.trans caught.position

/-! ## Soundness of a change -/

theorem Sound.keeps (hs : n.Sound) (kept : n.storage.Keeps s) :
    ({ n with storage := s } : Node).Sound where
  settled := kept.ballots ▸ hs.settled
  backed := kept.backed hs.backed
  term := kept.ballots ▸ hs.term
  vote := kept.ballots ▸ hs.vote
  own := kept.ballots ▸ hs.own
  role := hs.role

theorem sound_under (hs : n.Sound) (outage : Outage) : (n.under outage).Sound :=
  hs.keeps ⟨rfl, rfl, rfl, rfl⟩

theorem CatchUp.sound (h : CatchUp e n mid before) (hs : n.Sound) : mid.Sound := by
  cases h with
  | stay => exact hs
  | @adopt m s event peer newer reached =>
    have hterm := Ballots.term_reach reached.ballots
    have hnone : n.storage.ballots.vote? m.term = none :=
      hs.settled.vote_newer (hs.term ▸ newer)
    exact {
      settled := Ballots.settled_reach reached.ballots hs.settled
      backed := reached.backed hs.backed
      term := hterm.symm
      vote := ((Ballots.vote_reach reached.ballots).trans hnone).symm
      own := fun hne => absurd rfl hne
      role := fun l hl => by cases hl }

/-- A node that has cast its vote for itself in the next term, in whatever role. -/
theorem Sound.standing (hs : n.Sound) (casts : n.storage.Casts (n.term + 1) n.id s)
    {n' : Node} (hstorage : n'.storage = s) (hid : n'.id = n.id) (hterm : n'.term = n.term + 1)
    (hvote : n'.vote = some n.id) (hrole : n'.InRole) : n'.Sound := by
  have hcast := Ballots.vote_cast casts.ballots
  refine ⟨?_, ?_, ?_, ?_, fun _ => ?_, hrole⟩
  · rw [hstorage]
    exact Ballots.settled_cast casts.ballots hs.settled
  · rw [hstorage]
    exact casts.backed hs.backed
  · rw [hstorage, hterm, Ballots.term_cast casts.ballots hs.settled]
  · rw [hstorage, hterm, hvote, hcast]
  · rw [hstorage, hterm, hid, hcast]

theorem Move.sound (h : Move e n n' outputs) (hs : n.Sound) : n'.Sound := by
  cases h with
  | idle => exact hs
  | fault kept => exact hs.keeps kept
  | beat => exact hs
  | stand event leads grows casts short =>
    refine hs.standing casts rfl rfl rfl rfl ⟨rfl, by simp [Node.standing, id], ?_, short⟩
    intro v hv
    rw [IdSet.mem_singleton.mp hv]
    exact n.roster.self_mem
  | standAlone event leads grows casts carried =>
    exact hs.standing casts rfl rfl rfl rfl rfl
  | grant event peer current gate recorded only =>
    rcases recorded with ⟨hours, rfl⟩ | ⟨hnone, casts⟩
    · exact { hs with vote := hours.symm }
    · have hcast := Ballots.vote_cast casts.ballots
      exact {
        settled := Ballots.settled_cast casts.ballots hs.settled
        backed := casts.backed hs.backed
        term := (Ballots.term_cast casts.ballots hs.settled).symm
        vote := hcast.symm
        own := fun hne => by
          have hown := hs.own hne
          rw [hnone] at hown
          cases hown
        role := hs.role }
  | refuse => exact hs
  | @count r votes event peer current granted role short =>
    have hrole := hs.role
    rw [InRole, role] at hrole
    obtain ⟨hleader, hself, hmembers, _⟩ := hrole
    refine { hs with own := fun _ => hs.own (by simp [role]), role := ?_ }
    refine ⟨hleader, IdSet.mem_insert.mpr (Or.inr hself), fun v hv => ?_, short⟩
    rcases IdSet.mem_insert.mp hv with rfl | hv
    · exact (Roster.mem_peers.mp peer).1
    · exact hmembers v hv
  | win event peer current granted role carried =>
    exact { hs with own := fun _ => hs.own (by simp [role]), role := rfl }
  | follow event peer current leads only =>
    refine { hs with own := fun hne => absurd rfl hne, role := fun l hl => ?_ }
    cases hl
    exact peer
  | rebuff => exact hs

theorem Passes.sound (h : Passes e n n' outputs) (hs : n.Sound) : n'.Sound := by
  obtain ⟨mid, before, after, caught, move, _⟩ := h
  exact move.sound (caught.sound hs)

/-! ## Soundness of a turn -/

theorem sound_reborn (roster : Roster) (hsettled : s.ballots.Settled) (hbacked : s.Backed) :
    (reborn roster s).Sound where
  settled := hsettled
  backed := hbacked
  term := rfl
  vote := rfl
  own := fun hne => absurd rfl hne
  role := fun l hl => by cases hl

theorem sound_of_effect (h : Effect n t n' outputs) (hs : n.Sound) : n'.Sound := by
  cases h with
  | handled passes => exact passes.sound (sound_under hs _)
  | crashed passes reloads =>
    have hmid := passes.sound (sound_under hs _)
    have kept := Storage.keeps_of_reload hmid.backed reloads
    exact sound_reborn _ (kept.ballots ▸ hmid.settled) (kept.backed hmid.backed)
  | outside file =>
    refine { hs with backed := fun hfile => ?_ }
    rw [file]
    exact hs.backed hfile

/-! ## The order of the ballots -/

theorem CatchUp.precedes (h : CatchUp e n mid before) :
    n.storage.ballots.Precedes mid.storage.ballots := by
  cases h with
  | stay => exact Ballots.Precedes.refl _
  | adopt event peer newer reached => exact Ballots.precedes_reach reached.ballots

theorem Move.precedes (h : Move e n n' outputs) (hs : n.Sound) :
    n.storage.ballots.Precedes n'.storage.ballots := by
  cases h with
  | fault kept =>
    rw [kept.ballots]
    exact Ballots.Precedes.refl _
  | stand event leads grows casts => exact Ballots.precedes_cast casts.ballots hs.settled
  | standAlone event leads grows casts => exact Ballots.precedes_cast casts.ballots hs.settled
  | grant event peer current gate recorded =>
    rcases recorded with ⟨_, rfl⟩ | ⟨_, casts⟩
    · exact Ballots.Precedes.refl _
    · exact Ballots.precedes_cast casts.ballots hs.settled
  | _ => exact Ballots.Precedes.refl _

theorem Passes.precedes (h : Passes e n n' outputs) (hs : n.Sound) :
    n.storage.ballots.Precedes n'.storage.ballots := by
  obtain ⟨mid, before, after, caught, move, _⟩ := h
  exact caught.precedes.trans (move.precedes (caught.sound hs))

theorem Effect.precedes (h : Effect n t n' outputs) (hs : n.Sound) :
    n.storage.ballots.Precedes n'.storage.ballots := by
  cases h with
  | handled passes => exact passes.precedes (sound_under hs _)
  | crashed passes reloads =>
    have hunder := sound_under hs ‹_›
    have kept := Storage.keeps_of_reload (passes.sound hunder).backed reloads
    have hstep := passes.precedes hunder
    rw [← kept.ballots] at hstep
    exact hstep
  | outside file => exact Ballots.Precedes.refl _

end Elector.Node
