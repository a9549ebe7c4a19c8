import Elector.Proofs.Alarm
import Elector.Proofs.Sending
import Elector.Proofs.Working

/-!
# Whom a node follows

What handling an event does to a node's term, its role and its leader, and what it has to do with
heartbeats (`Sways`). A node that takes or keeps the lead sends a round of heartbeats whenever it
sets its alarm; one that comes to follow another member does so on a heartbeat, and waits for
another election timeout from then on (`sways_handle`). A follower heeds every heartbeat of its
term (`heeds_heartbeat`).
-/

namespace Elector.Node

/-- What the node asks for as it handles an event; after a failure, nothing. -/
def asks (n : Node) (e : Event) : List Output :=
  match (n.handle e).2 with
  | .ok outputs => outputs
  | .error _ => []

def Rounds (n : Node) (outputs : List Output) : Prop :=
  ∀ j ∈ n.roster.peers, .send j (.appendEntries (heartbeat n.id n.term n.position)) ∈ outputs

/-- What a node that handles an event becomes, as far as its leader goes. -/
inductive Sways (e : Event) (n n' : Node) (outputs : List Output) (alarm : Option AlarmKind) : Prop
  | stays (term : n'.term = n.term) (leader : n'.leader = n.leader)
      (kind : n'.role.kind = n.role.kind) (quiet : n.isLeader = true → alarm = none)
  /-- A leader goes on to lead. -/
  | beats (term : n'.term = n.term) (leader : n'.leader = n.leader) (led : n.isLeader = true)
      (leads : n'.isLeader = true) (rounds : n'.Rounds outputs)
  /-- A newer term has begun, and has no leader yet. -/
  | roams (newer : n.term < n'.term) (leader : n'.leader = none) (leads : n'.isLeader = false)
  /-- The node takes the lead, of a newer term or of one that it ran in. -/
  | rises (newer : n.term < n'.term ∨ n'.term = n.term ∧ n.role.kind = .candidate)
      (leader : n'.leader = some n'.id) (leads : n'.isLeader = true) (rounds : n'.Rounds outputs)
  | follows {r : AppendEntries} (event : e = .message (.appendEntries r))
      (peer : r.leader ∈ n.roster.peers)
      (newer : n.term < n'.term ∨ n'.term = n.term ∧ n.isLeader = false)
      (current : n'.term = r.term) (leader : n'.leader = some r.leader) (role : n'.role = .follower)
      (alarm : alarm = some .election)

variable {e : Event} {n n' mid : Node} {outputs before after : List Output} {t : Term}
  {alarm : Option AlarmKind}

theorem isLeader_iff : n.isLeader = true ↔ n.role.kind = .leader := by
  unfold isLeader
  cases n.role <;> simp [Role.kind]

theorem kind_eq_follower : n.role.kind = .follower ↔ n.role = .follower := by
  cases n.role <;> simp [Role.kind]

theorem kind_eq_leader : n.role.kind = .leader ↔ n.role = .leader := by
  cases n.role <;> simp [Role.kind]

/-! ## Heartbeats are heeded -/

theorem rounds_heartbeats (n : Node) : n.Rounds n.heartbeats :=
  fun _ hj => send_mem_toPeers.mpr ⟨rfl, hj⟩

theorem Rounds.append (h : n.Rounds outputs) (before after : List Output) :
    n.Rounds (before ++ outputs ++ after) :=
  fun j hj => List.mem_append_left _ (List.mem_append_right _ (h j hj))

theorem rounds_announcement (n : Node) : n.leading.Rounds n.announcement := by
  have hrounds := (rounds_heartbeats n).append [.becameLeader n.term, .scheduleHeartbeat] []
  rw [List.append_nil] at hrounds
  exact hrounds

theorem catchUp_outputs (h : n.catchUp t = (mid, .ok before)) :
    before = [] ∨ ∃ front, before = front ++ [.resetElectionTimer] := by
  rw [catchUp] at h
  split at h
  · rw [adopt] at h
    split at h
    · cases h
    · cases h
      exact Or.inr ⟨_, rfl⟩
  · cases h
    exact Or.inl rfl

theorem alarmSet_addOnce (h : before = [] ∨ ∃ front, before = front ++ [.resetElectionTimer]) :
    alarmSet (addOnce before .resetElectionTimer) = some .election := by
  rcases h with rfl | ⟨front, rfl⟩
  · rfl
  · rw [addOnce, if_pos (by simp), alarmSet_append]
    rfl

theorem alarmSet_onAppendEntries {r : AppendEntries} (h : n.onAppendEntries r = (n', .ok outputs))
    (fresh : ¬ r.term < n.term) (leads : n'.isLeader = false) :
    alarmSet outputs = some .election := by
  rw [onAppendEntries, if_neg fresh] at h
  cases hcatch : n.catchUp r.term with
  | mk mid result =>
    rw [hcatch] at h
    cases result with
    | error cause => cases h
    | ok before =>
      simp only at h
      split at h
      · rename_i hled
        cases h
        rw [hled] at leads
        cases leads
      · cases h
        rw [alarmSet_append, alarmSet_addOnce (catchUp_outputs hcatch)]
        rfl

theorem heeds_heartbeat {r : AppendEntries} (peer : r.leader ∈ n.roster.peers)
    (current : r.term = n.term) (waits : n.isLeader = false) :
    (n.handle (.message (.appendEntries r))).1 =
        { n with role := .follower, leader := some r.leader } ∧
      n.alarmAfter (.message (.appendEntries r)) = some .election := by
  have fresh : ¬ r.term < n.term := current ▸ Int32.lt_irrefl
  have hcatch : n.catchUp r.term = (n, .ok []) := if_neg (current ▸ Int32.lt_irrefl)
  have hhandle : n.handle (.message (.appendEntries r)) =
      ({ n with role := .follower, leader := some r.leader },
        .ok (addOnce [] .resetElectionTimer ++ [n.answerAppend r.leader true])) := by
    rw [handle_message (m := .appendEntries r) peer, respond, onAppendEntries, if_neg fresh, hcatch]
    simp only [waits]
    rfl
  rw [alarmAfter, hhandle]
  exact ⟨rfl, rfl⟩

/-! ## All events -/

theorem Move.sways (h : Move e n n' after) (hn : n.Owned)
    (kept : n.isLeader = true → alarm = alarmSet after)
    (reset : ∀ r : AppendEntries, e = .message (.appendEntries r) → r.leader ∈ n.roster.peers →
      ¬ r.term < n.term → n'.isLeader = false → alarm = some .election) :
    Sways e n n' after alarm := by
  cases h with
  | idle => exact .stays rfl rfl rfl kept
  | fault kept' => exact .stays rfl rfl rfl kept
  | beat event leads => exact .beats rfl rfl leads leads ((rounds_heartbeats n).append [] _)
  | stand event leads grows casts short => exact .roams (term_lt_next grows) rfl rfl
  | standAlone event leads grows casts carried =>
    exact .rises (Or.inl (term_lt_next grows)) rfl rfl (rounds_announcement _)
  | grant event peer current gate recorded only =>
    have waits := hn.not_leads_of_grant peer recorded
    exact .stays rfl rfl rfl fun leads => absurd leads (by simp [waits])
  | refuse event peer => exact .stays rfl rfl rfl kept
  | count event peer current granted role short =>
    have waits : n.isLeader = false := by rw [isLeader, role]; rfl
    exact .stays rfl rfl (by rw [role]; rfl) fun leads => absurd leads (by simp [waits])
  | win event peer current granted role carried =>
    have kind : n.role.kind = .candidate := by rw [role]; rfl
    exact .rises (Or.inr ⟨rfl, kind⟩) rfl rfl (rounds_announcement n)
  | follow event peer current leads only =>
    have halarm := reset _ event peer (current ▸ Int32.lt_irrefl) rfl
    exact .follows event peer (Or.inr ⟨rfl, leads⟩) current.symm rfl rfl halarm
  | rebuff event peer reason => exact .stays rfl rfl rfl kept

theorem Sways.adopted (h : Sways e mid n' after alarm) (newer : n.term < mid.term)
    (roster : mid.roster = n.roster) (leader : mid.leader = none) (waits : mid.isLeader = false)
    (before : List Output) : Sways e n n' (before ++ after) alarm := by
  have hrounds : n'.Rounds after → n'.Rounds (before ++ after) := by
    intro rounds
    have happend := rounds.append before []
    rwa [List.append_nil] at happend
  cases h with
  | stays term leader' kind quiet =>
    have leads : n'.isLeader = false := by
      rw [Bool.eq_false_iff, Ne, isLeader_iff, kind, ← isLeader_iff, waits]
      simp
    exact .roams (term ▸ newer) (leader'.trans leader) leads
  | beats term leader' led leads rounds =>
    rw [waits] at led
    cases led
  | roams newer' leader' leads => exact .roams (Int32.lt_trans newer newer') leader' leads
  | rises newer' leader' leads rounds =>
    refine .rises (Or.inl ?_) leader' leads (hrounds rounds)
    rcases newer' with hlt | ⟨heq, _⟩
    · exact Int32.lt_trans newer hlt
    · exact heq ▸ newer
  | follows event peer newer' current leader' role alarm =>
    refine .follows event (roster ▸ peer) (Or.inl ?_) current leader' role alarm
    rcases newer' with hlt | ⟨heq, _⟩
    · exact Int32.lt_trans newer hlt
    · exact heq ▸ newer

theorem Passes.sways (h : Passes e n n' outputs) (hn : n.Owned)
    (reset : ∀ r : AppendEntries, e = .message (.appendEntries r) → r.leader ∈ n.roster.peers →
      ¬ r.term < n.term → n'.isLeader = false → alarmSet outputs = some .election) :
    Sways e n n' outputs (alarmSet outputs) := by
  obtain ⟨mid, before, after, caught, move, rfl⟩ := h
  cases caught with
  | stay => exact move.sways hn (fun _ => rfl) reset
  | @adopt m s event peer newer reached =>
    have howned : Owned
        { n with storage := s, term := m.term, role := .follower, leader := none, vote := none } :=
      fun hne => absurd rfl hne
    have hsways := move.sways howned (by rintro ⟨⟩) fun r event peer fresh =>
      reset r event peer fun stale => fresh (Int32.lt_trans stale newer)
    exact hsways.adopted newer rfl rfl rfl _

/-- A handler that fails takes neither the lead nor a leader. -/
theorem Fails.sways (h : Fails e n n') (kept : n'.isLeader = true → alarm = none) :
    Sways e n n' [] alarm := by
  cases h with
  | early kept' => exact .stays rfl rfl rfl kept
  | late event newer caught current kept' =>
    cases caught with
    | stay => exact .stays rfl rfl rfl kept
    | adopt event' peer newer' reached => exact .roams newer' rfl rfl

/-- Whatever a node handles sways it in one of these ways. -/
theorem sways_handle (hn : n.Owned) (e : Event) :
    Sways e n (n.handle e).1 (n.asks e) (n.alarmAfter e) := by
  rw [asks, alarmAfter]
  cases hhandle : n.handle e with
  | mk n' result =>
    cases result with
    | error cause =>
      exact (fails_handle hhandle).sways fun leads => if_pos leads
    | ok outputs =>
      refine (passes_of_ok hhandle).sways hn fun r event peer fresh leads => ?_
      subst event
      rw [handle_message (m := .appendEntries r) peer] at hhandle
      exact alarmSet_onAppendEntries hhandle fresh leads

theorem roster_handle (n : Node) (e : Event) : (n.handle e).1.roster = n.roster := by
  obtain ⟨outputs, passes, _⟩ := explains_handle n e
  exact passes.roster

theorem vouches_asks {target : NodeId} {m : Message} (h : .send target m ∈ n.asks e) :
    (n.handle e).1.Vouches target m := by
  rw [asks] at h
  cases hhandle : n.handle e with
  | mk n' result =>
    rw [hhandle] at h
    cases result with
    | error cause => cases h
    | ok outputs => exact (passes_of_ok hhandle).vouches h

/-! ## What follows for terms and leads -/

def LeadsOrLeft (n : Node) (t : Term) : Prop := t < n.term ∨ t = n.term ∧ n.isLeader = true

theorem Sways.term_le (h : Sways e n n' outputs alarm) : n.term ≤ n'.term := by
  cases h with
  | stays term => exact Int32.le_of_eq term.symm
  | beats term => exact Int32.le_of_eq term.symm
  | roams newer => exact Int32.le_of_lt newer
  | rises newer =>
    rcases newer with hlt | ⟨heq, _⟩
    · exact Int32.le_of_lt hlt
    · exact Int32.le_of_eq heq.symm
  | follows event peer newer =>
    rcases newer with hlt | ⟨heq, _⟩
    · exact Int32.le_of_lt hlt
    · exact Int32.le_of_eq heq.symm

theorem Sways.leadsOrLeft (h : Sways e n n' outputs alarm) (hn : n.LeadsOrLeft t) :
    n'.LeadsOrLeft t := by
  rcases Int32.lt_or_eq_of_le h.term_le with hlt | heq
  · rcases hn with hleft | ⟨rfl, _⟩
    · exact Or.inl (Int32.lt_trans hleft hlt)
    · exact Or.inl hlt
  rcases hn with hleft | ⟨rfl, leads⟩
  · exact Or.inl (heq ▸ hleft)
  refine Or.inr ⟨heq, ?_⟩
  cases h with
  | stays term leader kind => rw [isLeader_iff, kind, ← isLeader_iff, leads]
  | beats term leader led leads => exact leads
  | roams newer => exact absurd (heq ▸ newer) Int32.lt_irrefl
  | rises newer leader leads => exact leads
  | follows event peer newer =>
    rcases newer with hlt | ⟨_, waits⟩
    · exact absurd (heq ▸ hlt) Int32.lt_irrefl
    · rw [waits] at leads
      cases leads

/-- A term begins with an election timeout or with a message of that term. -/
theorem term_handle_cases (n : Node) (e : Event) :
    (n.handle e).1.term = n.term ∨ e = .electionTimeout ∨
      ∃ m, e = .message m ∧ (n.handle e).1.term = m.term := by
  obtain ⟨outputs, ⟨mid, before, after, caught, move, _⟩, _⟩ := explains_handle n e
  have hmove : (n.handle e).1.term = mid.term ∨ e = .electionTimeout := by
    generalize (n.handle e).1 = n' at move
    cases move with
    | stand event => exact Or.inr event
    | standAlone event => exact Or.inr event
    | _ => exact Or.inl rfl
  rcases hmove with hterm | htimeout
  · rw [hterm]
    cases caught with
    | stay => exact Or.inl rfl
    | adopt event => exact Or.inr (Or.inr ⟨_, event, rfl⟩)
  · exact Or.inr (Or.inl htimeout)

end Elector.Node
