import Mathlib.Data.List.Pairwise
import Elector.Proofs.Aftermath
import Elector.Proofs.Allegiance
import Elector.Proofs.World

/-!
# Terms and roles go forward

How far one handler takes a node's term: to that of the message, to the next one, or nowhere. How
far any turns take it: never back, and within one term only a candidate changes its role. What a
node sends carries its terms in the order in which it passes through them, whatever crashes come in
between (`terms_and_roles_go_forward`).
-/

namespace Elector

def Turn.isCrash : Turn → Bool
  | crash .. => true
  | _ => false

namespace Node

/-- What a list of turns leaves of the node, and all that it asks for in them, in order. -/
def turns (n : Node) : List Turn → Option (Node × List Output)
  | [] => some (n, [])
  | t :: rest =>
    match n.turn t with
    | none => none
    | some (mid, first) => (mid.turns rest).map fun last => (last.1, first ++ last.2)

def sentTerms (outputs : List Output) : List Term :=
  (Simulation.sendsOf outputs).map (·.2.term)

variable {e : Event} {n n' mid : Node} {outputs before after : List Output} {cause : NodeError}
  {t : Term} {m : Message} {turn : Turn} {rest : List Turn} {outage : Outage}

/-! ## The term after one handler -/

theorem max_of_not_lt {a b : Term} (h : ¬ a < b) : max a b = a := by
  rcases Int32.lt_or_eq_of_le (Int32.not_lt.mp h) with hlt | heq
  · exact if_neg (Int32.not_le.mpr hlt)
  · rw [heq]
    exact if_pos (Int32.le_refl a)

theorem max_of_lt {a b : Term} (h : a < b) : max a b = b := if_pos (Int32.le_of_lt h)

theorem term_adopt (h : n.adopt t = (n', .ok outputs)) : n'.term = t := by
  unfold adopt at h
  split at h <;> cases h
  rfl

theorem term_catchUp (h : n.catchUp t = (n', .ok outputs)) : n'.term = max n.term t := by
  unfold catchUp at h
  split at h
  · rename_i newer
    rw [max_of_lt newer]
    exact term_adopt h
  · rename_i hnewer
    rw [max_of_not_lt hnewer]
    cases h
    rfl

theorem term_decideVote (r : VoteRequest) (before : List Output) :
    (n.decideVote r before).1.term = n.term := by
  unfold decideVote
  split
  · rfl
  · split
    · dsimp only
      split <;> rfl
    · rfl

theorem term_onVoteRequest {r : VoteRequest} (h : n.onVoteRequest r = (n', .ok outputs)) :
    n'.term = max n.term r.term := by
  unfold onVoteRequest at h
  split at h
  · rename_i stale
    rw [max_of_not_lt (Int32.lt_asymm stale)]
    cases h
    rfl
  · split at h
    · cases h
    · rename_i mid before hcatch
      have hterm := term_decideVote (n := mid) r before
      rw [h] at hterm
      exact hterm.trans (term_catchUp hcatch)

theorem term_onVoteResponse {r : VoteResponse} (h : n.onVoteResponse r = (n', .ok outputs)) :
    n'.term = max n.term r.term := by
  unfold onVoteResponse at h
  split at h
  · rename_i newer
    rw [max_of_lt newer]
    exact term_adopt h
  · rename_i hnewer
    rw [max_of_not_lt hnewer]
    split at h
    · cases h
      rfl
    · split at h
      · split at h
        · dsimp only at h
          split at h <;> cases h <;> rfl
        · cases h
          rfl
      · cases h
        rfl

theorem term_onAppendEntries {r : AppendEntries} (h : n.onAppendEntries r = (n', .ok outputs)) :
    n'.term = max n.term r.term := by
  unfold onAppendEntries at h
  split at h
  · rename_i stale
    rw [max_of_not_lt (Int32.lt_asymm stale)]
    cases h
    rfl
  · split at h
    · cases h
    · rename_i mid before hcatch
      rw [← term_catchUp hcatch]
      split at h <;> cases h <;> rfl

theorem term_of_message (peer : m.sender ∈ n.roster.peers)
    (h : n.handle (.message m) = (n', .ok outputs)) : n'.term = max n.term m.term := by
  rw [handle_message peer] at h
  cases m with
  | voteRequest r => exact term_onVoteRequest h
  | voteResponse r => exact term_onVoteResponse h
  | appendEntries r => exact term_onAppendEntries h
  | appendResponse r => exact term_catchUp h

theorem Fails.term (h : Fails (.message m) n n') :
    n'.term = n.term ∨ n.term < m.term ∧ n'.term = m.term := by
  cases h with
  | early kept => exact Or.inl rfl
  | late event newer caught current kept =>
    cases event
    exact Or.inr ⟨newer, current⟩

theorem term_onElectionTimeout (waits : n.isLeader = false)
    (h : n.onElectionTimeout = (n', .ok outputs)) : n'.term.toInt = n.term.toInt + 1 := by
  unfold onElectionTimeout at h
  rw [if_neg (by simp [waits])] at h
  split at h
  · cases h
  · rename_i hgrows
    rw [← toInt_next hgrows]
    dsimp only at h
    split at h
    · cases h
    · split at h <;> cases h <;> rfl

theorem onElectionTimeout_leader (leads : n.isLeader = true) :
    n.onElectionTimeout = (n, .ok []) := if_pos leads

/-! ## New candidates -/

theorem CatchUp.follower (h : CatchUp e n mid before) (hn : n.role = .follower) :
    mid.role = .follower := by
  cases h with
  | stay => exact hn
  | adopt => rfl

theorem Move.stands (h : Move e n n' outputs) (hn : n.role = .follower)
    (hrun : n'.role.kind = .candidate) :
    e = .electionTimeout ∧ n'.term.toInt = n.term.toInt + 1 := by
  have hkind : n.role.kind ≠ .candidate := by simp [hn, Role.kind]
  cases h with
  | stand event leads grows => exact ⟨event, toInt_next grows⟩
  | standAlone => cases hrun
  | count event peer current granted role =>
    rw [hn] at role
    cases role
  | win => cases hrun
  | follow => cases hrun
  | _ => exact absurd hrun hkind

theorem Passes.stands (h : Passes e n n' outputs) (hn : n.role = .follower)
    (hrun : n'.role.kind = .candidate) : n'.term.toInt = n.term.toInt + 1 := by
  obtain ⟨mid, before, after, caught, move, _⟩ := h
  obtain ⟨htimeout, hterm⟩ := move.stands (caught.follower hn) hrun
  cases caught with
  | stay => exact hterm
  | adopt event =>
    rw [htimeout] at event
    cases event

/-! ## One turn -/

theorem Sways.kind {alarm : Option AlarmKind} (h : Sways e n n' outputs alarm)
    (same : n'.term = n.term) : n'.role.kind = n.role.kind ∨ n.role.kind = .candidate := by
  have hlt : ¬ n.term < n'.term := same ▸ Int32.lt_irrefl
  cases h with
  | stays term leader kind => exact Or.inl kind
  | beats term leader led leads =>
    rw [isLeader_iff] at led leads
    exact Or.inl (leads.trans led.symm)
  | roams newer => exact absurd newer hlt
  | rises newer =>
    rcases newer with newer | ⟨_, runs⟩
    · exact absurd newer hlt
    · exact Or.inr runs
  | follows event peer newer current leader role =>
    rcases newer with newer | ⟨_, waits⟩
    · exact absurd newer hlt
    · rw [role]
      cases hrole : n.role with
      | follower => exact Or.inl rfl
      | candidate votes => exact Or.inr rfl
      | leader => simp [isLeader, hrole] at waits

theorem handle_of_turn (h : n.turn (.handle e outage) = some (n', outputs)) :
    ((n.under outage).handle e).1 = n' := by
  rw [Node.turn] at h
  cases hhandle : (n.under outage).handle e with
  | mk left result =>
    rw [hhandle] at h
    cases result <;> cases h <;> rfl

theorem Sound.turn_kind (hs : n.Sound) (h : n.turn turn = some (n', outputs))
    (calm : turn.isCrash = false) (same : n'.term = n.term) :
    n'.role.kind = n.role.kind ∨ n.role.kind = .candidate := by
  cases turn with
  | handle e outage =>
    have hways := sways_handle (sound_under hs outage).own e
    rw [handle_of_turn h] at hways
    exact hways.kind same
  | crash => cases calm
  | outside log disk =>
    rw [Node.turn] at h
    split at h <;> cases h
    exact Or.inl rfl

theorem Effect.term_le (h : Effect n turn n' outputs) (hs : n.Sound) : n.term ≤ n'.term := by
  have hle := (h.precedes hs).term_le
  rw [← hs.term, ← (sound_of_effect h hs).term] at hle
  exact hle

theorem mem_sentTerms :
    t ∈ sentTerms outputs ↔ ∃ target m, .send target m ∈ outputs ∧ m.term = t := by
  unfold sentTerms
  rw [List.mem_map]
  constructor
  · rintro ⟨⟨target, m⟩, hm, rfl⟩
    exact ⟨target, m, Simulation.mem_sendsOf.mp hm, rfl⟩
  · rintro ⟨target, m, hm, rfl⟩
    exact ⟨(target, m), Simulation.mem_sendsOf.mpr hm, rfl⟩

theorem sentTerms_append (before after : List Output) :
    sentTerms (before ++ after) = sentTerms before ++ sentTerms after := by
  simp [sentTerms, Simulation.sendsOf]

theorem sentTerms_sublist (h : before.Sublist outputs) :
    (sentTerms before).Sublist (sentTerms outputs) := (h.filterMap _).map _

theorem Effect.sentTerms (h : Effect n turn n' outputs) (ht : t ∈ sentTerms outputs) :
    t = n'.term := by
  obtain ⟨target, m, hm, rfl⟩ := mem_sentTerms.mp ht
  exact (vouches_of_effect h hm).term

/-! ## Any turns -/

theorem turns_cons (h : n.turns (turn :: rest) = some (n', outputs)) :
    ∃ mid first last, n.turn turn = some (mid, first) ∧ mid.turns rest = some (n', last) ∧
      outputs = first ++ last := by
  rw [turns] at h
  split at h
  · cases h
  · rename_i mid first hturn
    obtain ⟨⟨n', last⟩, hrest, heq⟩ := Option.map_eq_some_iff.mp h
    cases heq
    exact ⟨mid, first, last, hturn, hrest, rfl⟩

theorem Sound.turns_term_le (hs : n.Sound) {turns : List Turn}
    (h : n.turns turns = some (n', outputs)) : n.term ≤ n'.term := by
  induction turns generalizing n outputs with
  | nil =>
    cases h
    exact Int32.le_refl _
  | cons turn rest ih =>
    obtain ⟨mid, first, last, hturn, hrest, _⟩ := turns_cons h
    have heffect := effect_turn hturn
    exact Int32.le_trans (heffect.term_le hs) (ih (sound_of_effect heffect hs) hrest)

/-- The terms that are sent in do not fall, and none is before the first. -/
theorem Sound.turns_sentTerms (hs : n.Sound) {turns : List Turn}
    (h : n.turns turns = some (n', outputs)) :
    (∀ t ∈ sentTerms outputs, n.term ≤ t) ∧ (sentTerms outputs).Pairwise (· ≤ ·) := by
  induction turns generalizing n outputs with
  | nil =>
    cases h
    exact ⟨List.forall_mem_nil _, List.Pairwise.nil⟩
  | cons turn rest ih =>
    obtain ⟨mid, first, last, hturn, hrest, rfl⟩ := turns_cons h
    have heffect := effect_turn hturn
    have hle := heffect.term_le hs
    -- The first turn sends in the term in which the others begin.
    have hfirst : ∀ t ∈ sentTerms first, t = mid.term := fun t ht => heffect.sentTerms ht
    obtain ⟨hlow, hsorted⟩ := ih (sound_of_effect heffect hs) hrest
    rw [sentTerms_append]
    constructor
    · intro t ht
      rcases List.mem_append.mp ht with ht | ht
      · rw [hfirst t ht]
        exact hle
      · exact Int32.le_trans hle (hlow t ht)
    · rw [List.pairwise_append]
      refine ⟨?_, hsorted, ?_⟩
      · apply List.pairwise_of_forall_mem_list
        intro t ht t' ht'
        rw [hfirst t ht, hfirst t' ht']
        exact Int32.le_refl _
      · intro t ht t' ht'
        rw [hfirst t ht]
        exact hlow t' ht'

theorem Sound.turns_kind (hs : n.Sound) {turns : List Turn}
    (h : n.turns turns = some (n', outputs)) (calm : ∀ t ∈ turns, t.isCrash = false)
    (same : n'.term = n.term) : n'.role.kind = n.role.kind ∨ n.role.kind = .candidate := by
  induction turns generalizing n outputs with
  | nil =>
    cases h
    exact Or.inl rfl
  | cons turn rest ih =>
    obtain ⟨mid, first, last, hturn, hrest, _⟩ := turns_cons h
    have heffect := effect_turn hturn
    have hmid := sound_of_effect heffect hs
    -- The term cannot go on and come back, so it is the same in the middle.
    have hsame : mid.term = n.term := by
      have hup := heffect.term_le hs
      have hdown := hmid.turns_term_le hrest
      rw [same] at hdown
      exact Int32.le_antisymm hdown hup
    rcases hs.turn_kind hturn (calm turn (by simp)) hsame with hkind | hruns
    · rw [← hkind]
      exact ih hmid hrest (fun t ht => calm t (by simp [ht])) (same.trans hsame.symm)
    · exact Or.inr hruns

/-- **Terms and roles go forward.** A message from another member that is handled leaves the greater
of the two terms; if the handler fails, it leaves the node's, or the message's if that is greater.
An election timeout that is handled leaves the next term, but a leader as it is. No follower runs
for the lead without going on to the next term. Over any turns, crashes among them, the term does
not fall, and neither do the terms of the messages that go out, in the order in which they do, even
if some get lost. Without a crash, and within one term, only a candidate changes its role: a leader
leads and a follower follows until the term is over. -/
theorem terms_and_roles_go_forward (h : n.Reachable) :
    (∀ m outage, m.sender ∈ n.roster.peers →
      (∀ n' outputs, n.call ⟨.message m, outage⟩ = (n', .ok outputs) →
        n'.term = max n.term m.term) ∧
      ∀ n' cause, n.call ⟨.message m, outage⟩ = (n', .error cause) →
        n'.term = n.term ∨ n.term < m.term ∧ n'.term = m.term) ∧
    (∀ outage n' outputs, n.call ⟨.electionTimeout, outage⟩ = (n', .ok outputs) →
      (n.isLeader = false → n'.term.toInt = n.term.toInt + 1) ∧
      (n.isLeader = true → n' = n.under outage ∧ outputs = [])) ∧
    (∀ c, n.role = .follower → (n.call c).1.role.kind = .candidate →
      (n.call c).1.term.toInt = n.term.toInt + 1) ∧
    ∀ turns n' outputs, n.turns turns = some (n', outputs) →
      n.term ≤ n'.term ∧
      (∀ sent, sent.Sublist outputs → (sentTerms sent).Pairwise (· ≤ ·)) ∧
      ((∀ t ∈ turns, t.isCrash = false) → n'.term = n.term →
        n'.role.kind = n.role.kind ∨ n.role.kind = .candidate) := by
  have hs := h.sound
  refine ⟨?_, ?_, ?_, ?_⟩
  · intro m outage peer
    constructor
    · intro n' outputs hcall
      exact term_of_message (n := n.under outage) peer hcall
    · intro n' cause hcall
      exact (fails_handle hcall).term
  · intro outage n' outputs hcall
    constructor
    · intro waits
      exact term_onElectionTimeout (n := n.under outage) waits hcall
    · intro leads
      have hstill := onElectionTimeout_leader (n := n.under outage) leads
      cases hstill.symm.trans hcall
      exact ⟨rfl, rfl⟩
  · intro c hrole hrun
    obtain ⟨outputs, passes, _⟩ := explains_handle (n.under c.outage) c.event
    exact passes.stands hrole hrun
  · intro turns n' outputs hturns
    refine ⟨hs.turns_term_le hturns, ?_, hs.turns_kind hturns⟩
    intro sent hsent
    exact (hs.turns_sentTerms hturns).2.sublist (sentTerms_sublist hsent)

/-- A leader is asked for its vote in a newer term while votes cannot be written, crashes as soon as
it has voted for itself, is elected all the same, and is asked again. -/
def stormyTurns : List Turn :=
  [.handle (.message (.voteRequest { candidate := 2, term := 4, last := {} }))
      { vote := some ⟨0, 0⟩ },
    .crash .electionTimeout {} 1,
    .handle .electionTimeout {},
    .handle (.message (.voteResponse { voter := 2, term := 6, granted := true })) {},
    .handle (.message (.voteRequest { candidate := 3, term := 9, last := {} })) {}]

theorem terms_and_roles_go_forward_stormyTurns :
    ∃ n' outputs, besetLeader.turns stormyTurns = some (n', outputs) ∧
      sentTerms outputs = [6, 6, 6, 6, 9] ∧ besetLeader.term ≤ n'.term ∧
      ∀ sent, sent.Sublist outputs → (sentTerms sent).Pairwise (· ≤ ·) := by
  have hstart : start (.of 1 [2, 3]) {} = .ok (reborn (.of 1 [2, 3]) {}) := rfl
  have hfresh : Storage.Fresh {} := ⟨rfl, rfl, Storage.backed_of_memory rfl⟩
  have hreachable : besetLeader.Reachable := (Reachable.start (.fresh hfresh) hstart).afterCalls _
  have hsent : (besetLeader.turns stormyTurns).map (fun last => sentTerms last.2) =
      some [6, 6, 6, 6, 9] := by decide +kernel
  obtain ⟨⟨n', outputs⟩, hturns, hterms⟩ := Option.map_eq_some_iff.mp hsent
  obtain ⟨_, _, _, hforward⟩ := terms_and_roles_go_forward hreachable
  obtain ⟨hle, hsorted, _⟩ := hforward stormyTurns n' outputs hturns
  exact ⟨n', outputs, hturns, hterms, hle, hsorted⟩

end Node

end Elector
