import Elector.Proofs.Ballots
import Elector.Proofs.Disk

/-!
# What storage keeps

One statement for each operation of a storage. A write either takes place, and then the ballots
change by their own rule (`Casts`, `Reaches`), or fails, and then everything on record stays
(`Keeps`). In all cases a file goes on to hold the ballots (`Backed`), so that a storage that is
opened again after a crash is the storage as it was (`keeps_of_reload`).
-/

namespace Elector

inductive Write
  | cast (term : Term) (candidate : NodeId)
  | reach (term : Term)
deriving DecidableEq, Repr

def Write.cast? : Write → Option (Term × NodeId)
  | cast term candidate => some (term, candidate)
  | reach _ => none

def Write.change (r : Ballots) : Write → Except VoteError Ballots
  | cast term candidate => r.cast term candidate
  | reach term => r.reach term

def Write.stop (o : Outage) : Write → Option Disk.Interruption
  | cast _ _ => o.vote
  | reach _ => o.term

namespace Storage

/-- If the ballots are kept in a file, they can be read back from it. -/
def Backed (s : Storage) : Prop :=
  s.medium = .file →
    s.disk.get .votes = none ∧ s.ballots = {} ∨
      ∃ content, s.disk.get .votes = some (.file content) ∧
        Ballots.ofContent content = .ok s.ballots

structure Fresh (s : Storage) : Prop where
  ballots : s.ballots = {}
  votesWritten : s.votesWritten?.getD [] = []
  backed : s.Backed

/-- Everything that `s` has on record is on record in `s'`, and nothing else. -/
structure Keeps (s s' : Storage) : Prop where
  ballots : s'.ballots = s.ballots
  medium : s'.medium = s.medium
  log : s'.log = s.log
  file : s'.disk.get .votes = s.disk.get .votes

/-- `s'` is `s` after a vote has been recorded. -/
structure Casts (s : Storage) (term : Term) (candidate : NodeId) (s' : Storage) : Prop where
  ballots : s.ballots.cast term candidate = .ok s'.ballots
  votesWritten : s'.votesWritten? = s.votesWritten?.map (· ++ [(term, candidate)])
  log : s'.log = s.log
  backed : s.Backed → s'.Backed

structure Reaches (s : Storage) (term : Term) (s' : Storage) : Prop where
  ballots : s.ballots.reach term = .ok s'.ballots
  votesWritten : s'.votesWritten? = s.votesWritten?
  log : s'.log = s.log
  backed : s.Backed → s'.Backed

/-- What a node finds of its storage after a crash. A storage in memory outlives the node. -/
def reload (s : Storage) : Except VoteError Storage :=
  match s.medium with
  | .memory _ => .ok s
  | .file => s.reopenBallots

def perform (s : Storage) : Write → Storage × Except VoteError Unit
  | .cast term candidate => s.storeVote term candidate
  | .reach term => s.storeTerm term

def performAll (s : Storage) : List Write → Storage
  | [] => s
  | w :: ws =>
    match s.perform w with
    | (s, .ok ()) => s.performAll ws
    | (s, .error _) => s

def castsOf (s : Storage) : List Write → List (Term × NodeId)
  | [] => []
  | w :: ws =>
    match s.perform w with
    | (s, .ok ()) => w.cast?.toList ++ s.castsOf ws
    | (_, .error _) => []

variable {s s' : Storage} {t : Term} {c : NodeId} {stop : Option Disk.Interruption}

/-! ## What stays on record -/

theorem Keeps.refl (s : Storage) : s.Keeps s := ⟨rfl, rfl, rfl, rfl⟩

theorem Keeps.backed (h : s.Keeps s') (hb : s.Backed) : s'.Backed := by
  intro hfile
  rw [h.file, h.ballots]
  exact hb (h.medium ▸ hfile)

theorem Keeps.votesWritten (h : s.Keeps s') : s'.votesWritten? = s.votesWritten? := by
  rw [votesWritten?, votesWritten?, h.medium]

theorem Keeps.position (h : s.Keeps s') : s'.position = s.position := by
  rw [Storage.position, Storage.position, h.log]

theorem backed_of_memory {votes : List (Term × NodeId)} (h : s.medium = .memory votes) :
    s.Backed := by
  intro hfile
  rw [h] at hfile
  cases hfile

/-! ## Writing -/

theorem replaceBallots_ok {next : Ballots} (h : s.replaceBallots next stop = (s', .ok ())) :
    s'.ballots = next ∧ s'.medium = s.medium ∧ s'.log = s.log ∧ (s.Backed → s'.Backed) := by
  rw [replaceBallots] at h
  split at h
  · rename_i heq
    cases h
    exact ⟨heq.symm, rfl, rfl, id⟩
  · split at h
    · rename_i disk hwrite
      cases h
      refine ⟨rfl, rfl, rfl, fun _ _ => Or.inr ⟨next.encode, ?_, next.ofContent_encode⟩⟩
      exact Disk.get_write_saveSteps hwrite
    · cases h

theorem replaceBallots_error {next : Ballots} {e : VoteError}
    (h : s.replaceBallots next stop = (s', .error e)) : s.Keeps s' := by
  rw [replaceBallots] at h
  split at h
  · cases h
  · split at h
    · cases h
    · rename_i disk hwrite
      cases h
      exact ⟨rfl, rfl, rfl, Disk.get_write_saveSteps hwrite⟩

/-- Both writes follow one plan. -/
theorem perform_eq (s : Storage) (w : Write) : s.perform w =
    match s.medium with
    | .memory votes =>
      if (w.stop s.outage).isSome then (s, .error .unavailable)
      else match w.change s.ballots with
        | .error e => (s, .error e)
        | .ok ballots =>
          ({ s with ballots, medium := .memory (votes ++ w.cast?.toList) }, .ok ())
    | .file =>
      match w.change s.ballots with
      | .error e => (s, .error e)
      | .ok ballots => s.replaceBallots ballots (w.stop s.outage) := by
  cases w with
  | cast term candidate => rfl
  | reach term =>
    rw [perform, storeTerm]
    cases hmedium : s.medium with
    | file => rfl
    | memory votes =>
      dsimp only [Write.stop, Write.change, Write.cast?, Option.toList]
      rw [List.append_nil, ← hmedium]
      rfl

theorem perform_ok {w : Write} (h : s.perform w = (s', .ok ())) :
    w.change s.ballots = .ok s'.ballots ∧
      s'.votesWritten? = s.votesWritten?.map (· ++ w.cast?.toList) ∧ s'.log = s.log ∧
      (s.Backed → s'.Backed) := by
  rw [perform_eq] at h
  cases hmedium : s.medium with
  | memory votes =>
    simp only [hmedium] at h
    split at h
    · cases h
    · cases hchange : w.change s.ballots with
      | error e =>
        rw [hchange] at h
        cases h
      | ok ballots =>
        rw [hchange] at h
        cases h
        exact ⟨rfl, by simp [votesWritten?, hmedium], rfl, fun _ => backed_of_memory rfl⟩
  | file =>
    simp only [hmedium] at h
    cases hchange : w.change s.ballots with
    | error e =>
      rw [hchange] at h
      cases h
    | ok ballots =>
      rw [hchange] at h
      obtain ⟨hballots, hfile, hlog, hbacked⟩ := replaceBallots_ok h
      exact ⟨congrArg _ hballots.symm, by simp [votesWritten?, hfile, hmedium], hlog, hbacked⟩

theorem keeps_of_perform {w : Write} {e : VoteError} (h : s.perform w = (s', .error e)) :
    s.Keeps s' := by
  rw [perform_eq] at h
  cases hmedium : s.medium with
  | memory votes =>
    simp only [hmedium] at h
    split at h
    · cases h
      exact Keeps.refl s
    · cases hchange : w.change s.ballots with
      | error e =>
        rw [hchange] at h
        cases h
        exact Keeps.refl s
      | ok ballots =>
        rw [hchange] at h
        cases h
  | file =>
    simp only [hmedium] at h
    cases hchange : w.change s.ballots with
    | error e =>
      rw [hchange] at h
      cases h
      exact Keeps.refl s
    | ok ballots =>
      rw [hchange] at h
      exact replaceBallots_error h

theorem casts_of_storeVote (h : s.storeVote t c = (s', .ok ())) : s.Casts t c s' := by
  have hperform : s.perform (.cast t c) = (s', .ok ()) := h
  obtain ⟨hballots, hvotes, hlog, hbacked⟩ := perform_ok hperform
  exact ⟨hballots, hvotes, hlog, hbacked⟩

theorem reaches_of_storeTerm (h : s.storeTerm t = (s', .ok ())) : s.Reaches t s' := by
  have hperform : s.perform (.reach t) = (s', .ok ()) := h
  obtain ⟨hballots, hvotes, hlog, hbacked⟩ := perform_ok hperform
  exact ⟨hballots, by simpa [Write.cast?] using hvotes, hlog, hbacked⟩

theorem keeps_of_storeVote {e : VoteError} (h : s.storeVote t c = (s', .error e)) :
    s.Keeps s' := by
  have hperform : s.perform (.cast t c) = (s', .error e) := h
  exact keeps_of_perform hperform

theorem keeps_of_storeTerm {e : VoteError} (h : s.storeTerm t = (s', .error e)) :
    s.Keeps s' := by
  have hperform : s.perform (.reach t) = (s', .error e) := h
  exact keeps_of_perform hperform

theorem outage_perform (s : Storage) (w : Write) : (s.perform w).1.outage = s.outage := by
  rw [perform_eq]
  split
  · split
    · rfl
    · split <;> rfl
  · split
    · rfl
    · rw [replaceBallots]
      split
      · rfl
      · split <;> rfl

/-! ## Opening again -/

theorem load_of_backed {ballots : Ballots} {disk : Disk} (hb : s.Backed) (hfile : s.medium = .file)
    (h : Ballots.load s.disk = .ok (ballots, disk)) :
    ballots = s.ballots ∧ disk.get .votes = s.disk.get .votes := by
  have hprepare : ∀ {d}, s.disk.prepare = some d → d.get .votes = s.disk.get .votes := by
    intro d hd
    cases hdisk : s.disk with
    | missing =>
      rw [hdisk] at hd
      cases hd
      rfl
    | blocked =>
      rw [hdisk] at hd
      cases hd
    | shelf shelf =>
      rw [hdisk] at hd
      cases hd
      rfl
  rw [Ballots.load] at h
  split at h
  · cases h
  · rename_i d hd
    have hget := hprepare hd
    rcases hb hfile with ⟨hnone, hempty⟩ | ⟨content, hcontent, hread⟩
    · rw [hget, hnone] at h
      cases h
      exact ⟨hempty.symm, hget⟩
    · rw [hget, hcontent] at h
      simp only [hread] at h
      cases h
      exact ⟨rfl, hget⟩

theorem keeps_of_reload (hb : s.Backed) (h : s.reload = .ok s') : s.Keeps s' := by
  cases hmedium : s.medium with
  | memory votes =>
    simp only [reload, hmedium] at h
    cases h
    exact Keeps.refl s
  | file =>
    simp only [reload, hmedium, reopenBallots] at h
    cases hload : Ballots.load s.disk with
    | error e =>
      rw [hload] at h
      cases h
    | ok found =>
      rw [hload] at h
      cases h
      obtain ⟨hballots, hdisk⟩ := load_of_backed hb hmedium hload
      exact ⟨hballots, hmedium.symm, rfl, hdisk⟩

/-! ## Several writes -/

/-- In memory, the list of written votes grows by just the votes that writes record. -/
theorem votesWritten_performAll (s : Storage) (ws : List Write) :
    (s.performAll ws).votesWritten? = s.votesWritten?.map (· ++ s.castsOf ws) := by
  induction ws generalizing s with
  | nil => simp [performAll, castsOf]
  | cons w ws ih =>
    cases hw : s.perform w with
    | mk s' result =>
      cases result with
      | error e => simp [performAll, castsOf, hw, (keeps_of_perform hw).votesWritten]
      | ok u =>
        simp [performAll, castsOf, hw, ih, (perform_ok hw).2.1, Option.map_map,
          Function.comp_def]

end Storage

end Elector
