import Elector.Proofs.Handling

/-!
# Turns of a node

All that can happen to one member: it handles an event while some operations of its storage fail,
it crashes in the middle of handling one and starts again, or its log changes. A crash is placed by
the number of writes that come before it. `writes` lists the writes of a handler, and
`storage_handle` says that performing them is just what handling the event does to the storage;
`passes_writes` puts the storage at any crash among the states of `Elector.Proofs.Handling`.
-/

namespace Elector

inductive Turn
  /-- Handling an event; `outage` says which operations of the storage fail meanwhile. -/
  | handle (e : Event) (outage : Outage)
  /-- A crash behind the first `count` writes of handling an event, and a new start. What the
  handler would have asked for is lost. A crash after a handler has come to its end is a turn of its
  own, with no writes. -/
  | crash (e : Event) (outage : Outage) (count : Nat)
  /-- A change of the log, and of the disk apart from the vote file. -/
  | outside (log : LogView) (disk : Disk)
deriving DecidableEq, Repr

def Turn.event? : Turn → Option Event
  | handle e _ => some e
  | crash e _ _ => some e
  | outside _ _ => none

namespace Node

/-! ## The writes of a handler -/

def termWrites (n : Node) (term : Term) : List Write :=
  if n.term < term then [.reach term] else []

def voteWrites (n : Node) (r : VoteRequest) : List Write :=
  if n.term ≤ r.term ∧ n.storage.outage.loads = false ∧ n.position ≤ r.last ∧
      n.storage.ballots.vote? r.term = none then
    [.cast r.term r.candidate]
  else []

def answerWrites (n : Node) : Message → List Write
  | .voteRequest r => n.voteWrites r
  | _ => []

/-- The writes that handling an event asks for, in order; a write that fails is the last. -/
def writes (n : Node) : Event → List Write
  | .electionTimeout =>
    if n.isLeader = true ∨ n.term = Int32.maxValue then [] else [.cast (n.term + 1) n.id]
  | .heartbeatDue => []
  | .message m =>
    if n.roster.isPeer m.sender then n.termWrites m.term ++ n.answerWrites m else []

/-! ## Turns -/

def under (n : Node) (outage : Outage) : Node := { n with storage.outage := outage }

/-- The storage at a crash in the handling of an event. -/
def storageAt (n : Node) (e : Event) (count : Nat) : Storage :=
  n.storage.performAll ((n.writes e).take count)

/-- The node that starts on what `s` has made durable, once the storage can be read. -/
def restart (n : Node) (s : Storage) : Option Node :=
  match s.reload with
  | .error _ => none
  | .ok s =>
    match start n.roster { s with outage := {} } with
    | .error _ => none
    | .ok n => some n

def turn (n : Node) : Turn → Option (Node × List Output)
  | .handle e outage =>
    match (n.under outage).handle e with
    | (n, .ok outputs) => some (n, outputs)
    | (n, .error _) => some (n, [])
  | .crash e outage count =>
    (n.restart ((n.under outage).storageAt e count)).map fun n => (n, [])
  | .outside log disk =>
    if disk.get .votes = n.storage.disk.get .votes then
      some ({ n with storage := { n.storage with log, disk } }, [])
    else none

def casts (n : Node) : Turn → List (Term × NodeId)
  | .handle e outage =>
    (n.under outage).storage.castsOf ((n.under outage).writes e)
  | .crash e outage count =>
    (n.under outage).storage.castsOf (((n.under outage).writes e).take count)
  | .outside _ _ => []

variable {e : Event} {n n' : Node} {outputs : List Output}

/-! ## Performing the writes is what handling does -/

theorem storage_adopt (n : Node) (t : Term) :
    (n.adopt t).1.storage = n.storage.performAll [.reach t] := by
  cases hstore : n.storage.storeTerm t with
  | mk s result =>
    cases result <;> simp [adopt, hstore, Storage.performAll, Storage.perform]

theorem storage_catchUp (n : Node) (t : Term) :
    (n.catchUp t).1.storage = n.storage.performAll (n.termWrites t) := by
  by_cases newer : n.term < t
  · rw [catchUp, if_pos newer, termWrites, if_pos newer, storage_adopt]
  · rw [catchUp, if_neg newer, termWrites, if_neg newer]
    rfl

theorem storage_onElectionTimeout (n : Node) :
    n.onElectionTimeout.1.storage = n.storage.performAll (n.writes .electionTimeout) := by
  rw [onElectionTimeout, writes]
  by_cases hleads : n.isLeader = true
  · rw [if_pos hleads, if_pos (Or.inl hleads)]
    rfl
  by_cases hmax : n.term = Int32.maxValue
  · rw [if_neg hleads, if_pos hmax, if_pos (Or.inr hmax)]
    rfl
  rw [if_neg hleads, if_neg hmax, if_neg (by simp [hleads, hmax])]
  cases hstore : n.storage.storeVote (n.term + 1) n.id with
  | mk s result =>
    cases result with
    | error cause => simp [hstore, Storage.performAll, Storage.perform]
    | ok u =>
      simp only [hstore, Storage.performAll, Storage.perform]
      split <;> rfl

theorem storage_decideVote {r : VoteRequest} {before : List Output} (current : n.term = r.term) :
    (n.decideVote r before).1.storage = n.storage.performAll (n.voteWrites r) := by
  rw [decideVote, Storage.readVote, voteWrites, ← current]
  by_cases hloads : n.storage.outage.loads = true
  · rw [if_pos hloads, if_neg (by simp [hloads])]
    rfl
  rw [if_neg hloads]
  dsimp only
  by_cases hgate : n.position ≤ r.last
  · cases hvote : n.storage.ballots.vote? n.term with
    | none =>
      rw [if_pos ⟨hgate, Or.inl rfl⟩, if_neg (by simp),
        if_pos ⟨Int32.le_refl _, Bool.eq_false_iff.mpr hloads, hgate, rfl⟩]
      cases hstore : n.storage.storeVote n.term r.candidate with
      | mk s result =>
        cases result <;> simp [hstore, Storage.performAll, Storage.perform]
    | some c =>
      rw [if_neg (c := _ ∧ _ ∧ _ ∧ _) (by simp)]
      by_cases hours : c = r.candidate
      · rw [if_pos ⟨hgate, Or.inr (hours ▸ rfl)⟩, if_pos (by rw [hours])]
        rfl
      · rw [if_neg (by simp [hours])]
        rfl
  · rw [if_neg (by simp [hgate]), if_neg (by simp [hgate])]
    rfl

theorem voteWrites_reaches {r : VoteRequest} {mid : Node} (newer : n.term < r.term)
    (current : mid.term = r.term) (reached : n.storage.Reaches r.term mid.storage)
    (outage : mid.storage.outage = n.storage.outage) : mid.voteWrites r = n.voteWrites r := by
  have hvote := Ballots.vote_reach reached.ballots
  simp only [voteWrites, position, Storage.position, reached.log, hvote, outage, current,
    Int32.le_refl, Int32.le_of_lt newer]

theorem storage_onVoteRequest (n : Node) (r : VoteRequest) :
    (n.onVoteRequest r).1.storage =
      n.storage.performAll (n.termWrites r.term ++ n.voteWrites r) := by
  rw [onVoteRequest]
  by_cases stale : r.term < n.term
  · rw [if_pos stale, termWrites, if_neg (Int32.lt_asymm stale), voteWrites,
      if_neg (fun h => absurd stale (Int32.not_lt.mpr h.1))]
    rfl
  rw [if_neg stale, catchUp, termWrites]
  by_cases newer : n.term < r.term
  · rw [if_pos newer, if_pos newer, List.singleton_append, Storage.performAll, Storage.perform,
      adopt]
    have houtage : (n.storage.storeTerm r.term).1.outage = n.storage.outage :=
      n.storage.outage_perform (.reach r.term)
    cases hstore : n.storage.storeTerm r.term with
    | mk s result =>
      rw [hstore] at houtage
      cases result with
      | error cause => rfl
      | ok u =>
        simp only
        rw [storage_decideVote rfl,
          voteWrites_reaches newer rfl (Storage.reaches_of_storeTerm hstore) houtage]
  · have current : n.term = r.term :=
      Int32.le_antisymm (Int32.not_lt.mp stale) (Int32.not_lt.mp newer)
    rw [if_neg newer, if_neg newer, List.nil_append]
    exact storage_decideVote current

theorem storage_onVoteResponse (n : Node) (r : VoteResponse) :
    (n.onVoteResponse r).1.storage = n.storage.performAll (n.termWrites r.term) := by
  rw [onVoteResponse, termWrites]
  split
  · exact storage_adopt n r.term
  · split
    · rfl
    · split
      · split
        · dsimp only
          split <;> rfl
        · rfl
      · rfl

theorem storage_onAppendEntries (n : Node) (r : AppendEntries) :
    (n.onAppendEntries r).1.storage = n.storage.performAll (n.termWrites r.term) := by
  rw [onAppendEntries]
  by_cases stale : r.term < n.term
  · rw [if_pos stale, termWrites, if_neg (Int32.lt_asymm stale)]
    rfl
  rw [if_neg stale, ← storage_catchUp]
  cases n.catchUp r.term with
  | mk mid result =>
    cases result with
    | error cause => rfl
    | ok before =>
      simp only
      split <;> rfl

/-- Handling an event performs the writes that it asks for. -/
theorem storage_handle (n : Node) (e : Event) :
    (n.handle e).1.storage = n.storage.performAll (n.writes e) := by
  cases e with
  | electionTimeout => exact storage_onElectionTimeout n
  | heartbeatDue =>
    rw [handle, onHeartbeatDue]
    split <;> rfl
  | message m =>
    rw [handle, onMessage.eq_def, writes]
    split
    · cases m with
      | voteRequest r => exact storage_onVoteRequest n r
      | voteResponse r =>
        rw [answerWrites, List.append_nil]
        · exact storage_onVoteResponse n r
        · simp
      | appendEntries r =>
        rw [answerWrites, List.append_nil]
        · exact storage_onAppendEntries n r
        · simp
      | appendResponse r =>
        rw [answerWrites, List.append_nil]
        · exact storage_catchUp n r.term
        · simp
    · rfl

/-! ## Crashes -/

theorem length_answerWrites (n : Node) (m : Message) : (n.answerWrites m).length ≤ 1 := by
  rw [answerWrites.eq_def]
  split
  · rw [voteWrites]
    split <;> simp
  · simp

/-- The storage at a crash is the storage after part of what handling the event does. -/
theorem passes_writes (n : Node) (e : Event) (count : Nat) :
    ∃ n' outputs, Passes e n n' outputs ∧ n'.storage = n.storageAt e count := by
  obtain ⟨outputs, hpasses, _⟩ := explains_handle n e
  by_cases hall : (n.writes e).length ≤ count
  · refine ⟨_, outputs, hpasses, ?_⟩
    rw [storageAt, List.take_of_length_le hall, storage_handle]
  by_cases hnone : count = 0
  · subst hnone
    exact ⟨n, [], Move.idle.passes, rfl⟩
  -- A crash between two writes: the handler has reached a term and is to cast a vote in it.
  have htwo : 2 ≤ (n.writes e).length := by omega
  cases e with
  | electionTimeout =>
    rw [writes] at htwo
    split at htwo <;> simp at htwo
  | heartbeatDue => simp [writes] at htwo
  | message m =>
    have hlast := n.length_answerWrites m
    by_cases hpeer : n.roster.isPeer m.sender = true
    · by_cases newer : n.term < m.term
      · have hwrites : n.writes (.message m) = .reach m.term :: n.answerWrites m := by
          rw [writes, if_pos hpeer, termWrites, if_pos newer, List.singleton_append]
        have hcount : count = 1 := by
          rw [hwrites, List.length_cons] at hall
          omega
        have hat : n.storageAt (.message m) count = (n.adopt m.term).1.storage := by
          rw [storageAt, hwrites, hcount, List.take_succ_cons, List.take_zero, storage_adopt]
        rcases adopt_cases rfl (Roster.isPeer_iff.mp hpeer) newer with
          ⟨mid, before, heq, caught, _⟩ | ⟨n', cause, heq, move⟩
        · exact ⟨mid, before, caught.passes, by rw [hat, heq]⟩
        · exact ⟨n', [], move.passes, by rw [hat, heq]⟩
      · rw [writes, if_pos hpeer, termWrites, if_neg newer, List.nil_append] at htwo
        omega
    · rw [writes, if_neg hpeer] at htwo
      simp at htwo

/-! ## What a turn can do -/

/-- The follower that starts on a storage whose loads work. -/
def reborn (roster : Roster) (s : Storage) : Node where
  roster := roster
  term := s.ballots.term
  role := .follower
  leader := none
  vote := s.ballots.vote? s.ballots.term
  storage := { s with outage := {} }

/-- The effect of a turn, with its handler replaced by the changes that the handler makes. -/
inductive Effect (n : Node) : Turn → Node → List Output → Prop
  | handled {e : Event} {outage : Outage} {n' : Node} {asked outputs : List Output}
      (passes : Passes e (n.under outage) n' asked) (given : outputs = asked ∨ outputs = []) :
      Effect n (.handle e outage) n' outputs
  | crashed {e : Event} {outage : Outage} {count : Nat} {mid : Node} {s : Storage}
      {asked : List Output} (passes : Passes e (n.under outage) mid asked)
      (reloads : mid.storage.reload = .ok s) :
      Effect n (.crash e outage count) (reborn n.roster s) []
  | outside {log : LogView} {disk : Disk}
      (file : disk.get .votes = n.storage.disk.get .votes) :
      Effect n (.outside log disk) { n with storage := { n.storage with log, disk } } []

theorem restart_eq_some {s : Storage} (h : n.restart s = some n') :
    ∃ s', s.reload = .ok s' ∧ n' = reborn n.roster s' := by
  rw [restart] at h
  cases hreload : s.reload with
  | error e =>
    rw [hreload] at h
    cases h
  | ok s' =>
    rw [hreload] at h
    cases h
    exact ⟨s', rfl, rfl⟩

theorem effect_turn {t : Turn} (h : n.turn t = some (n', outputs)) : Effect n t n' outputs := by
  cases t with
  | handle e outage =>
    obtain ⟨asked, hpasses, hresult⟩ := explains_handle (n.under outage) e
    rw [turn] at h
    cases hhandle : (n.under outage).handle e with
    | mk mid result =>
      rw [hhandle] at h hpasses hresult
      cases result with
      | ok given =>
        cases h
        rcases hresult with hresult | ⟨cause, hresult⟩
        · cases hresult
          exact .handled hpasses (Or.inl rfl)
        · cases hresult
      | error cause =>
        cases h
        exact .handled hpasses (Or.inr rfl)
  | crash e outage count =>
    simp only [turn, Option.map_eq_some_iff] at h
    obtain ⟨started, hrestart, heq⟩ := h
    cases heq
    obtain ⟨mid, asked, hpasses, hstorage⟩ := passes_writes (n.under outage) e count
    obtain ⟨s, hreload, rfl⟩ := restart_eq_some hrestart
    exact .crashed hpasses (hstorage ▸ hreload)
  | outside log disk =>
    rw [turn] at h
    split at h
    · rename_i hfile
      cases h
      exact .outside hfile
    · cases h

end Node

end Elector
