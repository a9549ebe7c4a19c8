import Elector.Proofs.Reachable
import Elector.Proofs.VoteFile
import Elector.Proofs.Working

/-!
# Twin storages

A storage in memory and one in a file are `Twins` if they hold the same ballots and the same log and
the same of their operations fail. Twins answer every request alike as long as nothing fails
(`answers_eq`). When writes fail, they do so for different reasons and at different moments: a
storage in memory refuses before it looks at its ballots, a file is not touched where nothing
changes. For writes that would change something both come to the same (`perform_cases`).
-/

namespace Elector

/-! ## Room on the disk -/

namespace Disk

def Roomy (d : Disk) : Prop :=
  ∃ s, d = .shelf s ∧ s.admits .draft = true ∧ s.admits .votes = true

variable {d d' : Disk} {s : Step} {steps taken : List Step}

theorem roomy_set {shelf : Shelf} {f : FileName} {item : Option Item} (h : Roomy (.shelf shelf))
    (hitem : item ≠ some .folder) : Roomy (.shelf (shelf.set f item)) := by
  obtain ⟨s, heq, hdraft, hvotes⟩ := h
  cases heq
  exact ⟨_, rfl, Shelf.admits_set hitem hdraft, Shelf.admits_set hitem hvotes⟩

theorem roomy_step (h : d.step s = some d') (hd : d.Roomy) : d'.Roomy := by
  obtain ⟨shelf, rfl, _⟩ := id hd
  cases s with
  | create f =>
    simp only [step] at h
    split at h
    · cases h
      exact roomy_set hd (by simp)
    · cases h
  | append f bs =>
    simp only [step] at h
    split at h
    · cases h
      exact roomy_set hd (by simp)
    · cases h
  | sync f =>
    simp only [step, Option.map_eq_some_iff] at h
    obtain ⟨_, _, rfl⟩ := h
    exact hd
  | rename source target =>
    simp only [step] at h
    split at h
    · split at h
      · cases h
        exact roomy_set (roomy_set hd (by simp)) (by simp)
      · cases h
    · cases h

theorem Crash.roomy (h : Crash d steps taken d') (hd : d.Roomy) : d'.Roomy := by
  induction h with
  | here d steps => exact hd
  | torn bytes part => exact roomy_step part hd
  | step takes later ih => exact ih (roomy_step takes hd)

theorem write_short {stop : Interruption} (short : stop.steps < steps.length) :
    (d.write steps (some stop)).2 = false := by
  induction steps generalizing d stop with
  | nil => cases short
  | cons s rest ih =>
    obtain ⟨count, bytes⟩ := stop
    cases count with
    | zero => rfl
    | succ count =>
      rw [write]
      · cases d.step s with
        | none => rfl
        | some next =>
          have hshort : (⟨count, bytes⟩ : Interruption).steps < rest.length :=
            Nat.lt_of_succ_lt_succ short
          exact ih hshort
      · simp

end Disk

/-- A write that is to fail is cut short before its last step, so that it fails in a file too. -/
def Outage.Short (o : Outage) : Prop :=
  ∀ w : Write, ∀ stop, w.stop o = some stop → ∀ r : Ballots, stop.steps < r.saveSteps.length

namespace Storage

/-! ## Twins -/

/-- The same ballots in a file and in memory, with the same log and the same failures. -/
structure Twins (file memory : Storage) : Prop where
  onFile : file.medium = .file
  inMemory : ∃ votes, memory.medium = .memory votes
  ballots : memory.ballots = file.ballots
  log : memory.log = file.log
  outage : memory.outage = file.outage
  short : file.outage.Short
  room : file.disk.Roomy
  backed : file.Backed
  settled : file.ballots.Settled

variable {file memory : Storage} {w : Write} {next : Ballots} {t : Term} {c : NodeId}
  {o : Outage} {votes : List (Term × NodeId)}

theorem Twins.under (h : file.Twins memory) (short : o.Short) :
    ({ file with outage := o } : Storage).Twins { memory with outage := o } :=
  { h with outage := rfl, short := short, backed := h.backed }

theorem readVote_eq_ok {s : Storage} {vote : Option NodeId} (h : s.readVote t = .ok vote) :
    s.ballots.vote? t = vote := by
  rw [Storage.readVote] at h
  split at h
  · cases h
  · exact Except.ok.inj h

theorem Twins.readVote (h : file.Twins memory) (t : Term) :
    memory.readVote t = file.readVote t := by
  rw [Storage.readVote, Storage.readVote, h.ballots, h.outage]

theorem Twins.readTerm (h : file.Twins memory) : memory.readTerm = file.readTerm := by
  rw [Storage.readTerm, Storage.readTerm, h.ballots, h.outage]

theorem Twins.position (h : file.Twins memory) : memory.position = file.position := by
  rw [Storage.position, Storage.position, h.log]

theorem Twins.opened (h : file.Twins memory) : file.Opened where
  file := h.onFile
  folder := by
    obtain ⟨shelf, hdisk, _⟩ := h.room
    rw [hdisk]
    rfl
  backed := h.backed

theorem Twins.changed (h : file.Twins memory) (changes : w.change file.ballots = .ok next)
    {d : Disk} (room : d.Roomy) (content : d.get .votes = some (.file next.encode))
    (votes : List (Term × NodeId)) :
    ({ file with disk := d, ballots := next } : Storage).Twins
      { memory with ballots := next, medium := .memory votes } :=
  { h with
    inMemory := ⟨votes, rfl⟩
    ballots := rfl
    room := room
    backed := fun _ => Or.inr ⟨next.encode, content, next.ofContent_encode⟩
    settled := settled_change changes h.settled }

theorem Twins.kept (h : file.Twins memory) {d : Disk} (room : d.Roomy)
    (content : d.get .votes = file.disk.get .votes) :
    ({ file with disk := d } : Storage).Twins memory :=
  { h with
    room := room
    backed := by
      intro hfile
      rw [content]
      exact h.backed hfile }

theorem twins_fresh {disk : Disk} {shelf : Shelf} (folder : disk.prepare = some (.shelf shelf))
    (draft : shelf.admits .draft = true) (votes : shelf.admits .votes = true)
    (fresh : disk.get .votes = none) (log : LogView) :
    ∃ file : Storage, ({ disk, log, medium := .file } : Storage).reopenBallots = .ok file ∧
      file.outage = {} ∧ file.Twins { disk, log } := by
  have hget : (Disk.shelf shelf).get .votes = none := by
    cases disk with
    | missing =>
      cases folder
      rfl
    | blocked => cases folder
    | shelf found =>
      cases folder
      exact fresh
  refine ⟨{ disk := .shelf shelf, log, medium := .file }, ?_, rfl, ?_⟩
  · simp only [reopenBallots, Ballots.load, folder, hget]
  · exact {
      onFile := rfl
      inMemory := ⟨[], rfl⟩
      ballots := rfl
      log := rfl
      outage := rfl
      short := by
        intro w stop hstop
        cases w <;> cases hstop
      room := ⟨shelf, rfl, draft, votes⟩
      backed := fun _ => Or.inl ⟨hget, rfl⟩
      settled := Ballots.settled_empty }

/-! ### Writes -/

theorem perform_memory (hmedium : memory.medium = .memory votes)
    (whole : w.stop memory.outage = none) (changes : w.change memory.ballots = .ok next) :
    memory.perform w =
      ({ memory with ballots := next, medium := .memory (votes ++ w.cast?.toList) }, .ok ()) := by
  rw [perform_eq]
  simp only [hmedium, changes, whole]
  rfl

theorem perform_memory_fails (hmedium : memory.medium = .memory votes)
    {stop : Disk.Interruption} (fails : w.stop memory.outage = some stop) :
    memory.perform w = (memory, .error .unavailable) := by
  rw [perform_eq]
  simp only [hmedium, fails]
  rfl

theorem Twins.perform_changes (h : file.Twins memory) (whole : w.stop file.outage = none)
    (changes : w.change file.ballots = .ok next) (differs : next ≠ file.ballots) :
    ∃ f m, f.Twins m ∧ file.perform w = (f, .ok ()) ∧ memory.perform w = (m, .ok ()) ∧
      f.ballots = next := by
  obtain ⟨votes, hmemory⟩ := h.inMemory
  obtain ⟨shelf, hdisk, hdraft, hvotes⟩ := h.room
  obtain ⟨shelf', hwrite, hdraft', hvotes'⟩ := Disk.write_saveSteps next hdraft hvotes
  have hcontent : (Disk.shelf shelf').get .votes = some (.file next.encode) :=
    Disk.get_write_saveSteps hwrite
  rw [← hdisk, ← whole] at hwrite
  have hmem := perform_memory hmemory (h.outage ▸ whole) (h.ballots ▸ changes)
  have hroom : (Disk.shelf shelf').Roomy := ⟨shelf', rfl, hdraft', hvotes'⟩
  exact ⟨_, _, h.changed changes hroom hcontent _,
    Storage.perform_changes h.onFile changes differs hwrite, hmem, rfl⟩

/-- A write that would change something fails in both, if it is to fail. -/
theorem Twins.perform_fails (h : file.Twins memory) {stop : Disk.Interruption}
    (fails : w.stop file.outage = some stop) (changes : w.change file.ballots = .ok next)
    (differs : next ≠ file.ballots) :
    ∃ f, f.Twins memory ∧ file.perform w = (f, .error .io) ∧
      memory.perform w = (memory, .error .unavailable) ∧ f.ballots = file.ballots := by
  obtain ⟨votes, hmemory⟩ := h.inMemory
  cases hwrite : file.disk.write next.saveSteps (w.stop file.outage) with
  | mk d done =>
    have hdone : done = false := by
      have hshort := Disk.write_short (d := file.disk) (h.short w stop fails next)
      rw [← fails, hwrite] at hshort
      exact hshort
    subst hdone
    obtain ⟨taken, cut, _⟩ := Disk.crash_of_write hwrite
    refine ⟨_, h.kept (cut.roomy h.room) (Disk.get_write_saveSteps hwrite),
      Storage.perform_changes h.onFile changes differs hwrite, ?_, rfl⟩
    exact perform_memory_fails hmemory (h.outage ▸ fails)

/-- What becomes of a write that would change something. -/
theorem Twins.perform_cases (h : file.Twins memory) (changes : w.change file.ballots = .ok next)
    (differs : next ≠ file.ballots) :
    ∃ f m, f.Twins m ∧
      (file.perform w = (f, .ok ()) ∧ memory.perform w = (m, .ok ()) ∧ f.ballots = next ∨
        file.perform w = (f, .error .io) ∧ memory.perform w = (m, .error .unavailable) ∧
          f.ballots = file.ballots) := by
  cases hstop : w.stop file.outage with
  | none =>
    obtain ⟨f, m, htwins, hfile, hmemory, hballots⟩ := h.perform_changes hstop changes differs
    exact ⟨f, m, htwins, Or.inl ⟨hfile, hmemory, hballots⟩⟩
  | some stop =>
    obtain ⟨f, htwins, hfile, hmemory, hballots⟩ := h.perform_fails hstop changes differs
    exact ⟨f, memory, htwins, Or.inr ⟨hfile, hmemory, hballots⟩⟩

theorem Twins.perform_whole (h : file.Twins memory) (whole : w.stop file.outage = none) :
    (memory.perform w).2 = (file.perform w).2 ∧ (file.perform w).1.Twins (memory.perform w).1 := by
  obtain ⟨votes, hmemory⟩ := h.inMemory
  cases hchange : w.change file.ballots with
  | error e =>
    have hfile : file.perform w = (file, .error e) := by
      rw [perform_eq]
      simp only [h.onFile, hchange]
    have hmem : memory.perform w = (memory, .error e) := by
      rw [perform_eq]
      simp only [hmemory, h.outage, whole, h.ballots, hchange]
      rfl
    rw [hfile, hmem]
    exact ⟨rfl, h⟩
  | ok next =>
    by_cases hsame : next = file.ballots
    · have hfile : file.perform w = (file, .ok ()) := by
        rw [perform_file h.onFile hchange, replaceBallots, if_pos hsame]
      rw [hfile, perform_memory hmemory (h.outage ▸ whole) (h.ballots ▸ hchange)]
      exact ⟨rfl, { h with inMemory := ⟨_, rfl⟩, ballots := hsame }⟩
    · obtain ⟨f, m, htwins, hfile, hmem, _⟩ := h.perform_changes whole hchange hsame
      rw [hfile, hmem]
      exact ⟨rfl, htwins⟩

/-! ### Requests -/

inductive Request
  | write (w : Write)
  /-- A file is closed and opened again; a storage in memory stays as it is. -/
  | reopen
deriving DecidableEq, Repr

def request (s : Storage) : Request → Storage × Except VoteError Unit
  | .write w => s.perform w
  | .reopen =>
    match s.reload with
    | .error e => (s, .error e)
    | .ok s => (s, .ok ())

structure Answer where
  result : Except VoteError Unit
  term : Except VoteError Term
  vote : Term → Except VoteError (Option NodeId)

def answers (s : Storage) : List Request → List Answer
  | [] => []
  | r :: rest =>
    let (s, result) := s.request r
    { result, term := s.readTerm, vote := s.readVote } :: s.answers rest

theorem Twins.request (h : file.Twins memory) (whole : file.outage = {}) (r : Request) :
    (memory.request r).2 = (file.request r).2 ∧
      (file.request r).1.Twins (memory.request r).1 ∧ (file.request r).1.outage = {} := by
  cases r with
  | write w =>
    have hstop : w.stop file.outage = none := by
      rw [whole]
      cases w <;> rfl
    obtain ⟨hresult, htwins⟩ := h.perform_whole hstop
    exact ⟨hresult, htwins, (outage_perform file w).trans whole⟩
  | reopen =>
    obtain ⟨votes, hmemory⟩ := h.inMemory
    have hmem : memory.reload = .ok memory := by simp only [reload, hmemory]
    have hfile : file.reload = .ok file := by
      simp only [reload, h.onFile]
      exact h.opened.reopen
    simp only [Storage.request, hmem, hfile]
    exact ⟨trivial, h, whole⟩

theorem Twins.answers_eq (h : file.Twins memory) (whole : file.outage = {})
    (requests : List Request) : memory.answers requests = file.answers requests := by
  induction requests generalizing file memory with
  | nil => rfl
  | cons r rest ih =>
    obtain ⟨hresult, htwins, hwhole⟩ := h.request whole r
    have hvote : (memory.request r).1.readVote = (file.request r).1.readVote :=
      funext htwins.readVote
    simp only [Storage.answers, hresult, htwins.readTerm, hvote, ih htwins hwhole]

end Storage

end Elector
