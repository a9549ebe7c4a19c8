import Elector.Proofs.OneVote
import Elector.Proofs.Twins

/-!
# The contract of a vote store

What a storage of ballots promises to any caller, in memory or in a file. A caller makes any
`Attempt`s to write, each of which may be made to fail.

* An attempt that is not `Hindered` does what the ballots allow, and a hindered one is refused for
  that alone (`attempt_free`, `attempt_hindered`).
* The recorded term is the greatest that an attempt has reached (`term_after`), and a vote stays
  until a later term is reached (`vote_after`), when it is too late to vote in its term
  (`attempt_stale`).
* An attempt that fails leaves a storage that is `Akin` to what it was, and akin storages answer
  all attempts alike (`Akin.attempt`): it might as well not have been made.

`vote_store_contract` puts these together.
-/

namespace Elector

def Write.term : Write → Term
  | cast term _ => term
  | reach term => term

/-- A write that is asked for, and where it stops if it is to fail. -/
structure Attempt where
  write : Write
  stop : Option Disk.Interruption := none
deriving DecidableEq, Repr

/-! ## What ballots allow -/

namespace Ballots

variable {r r' : Ballots} {w : Write} {t : Term} {c : NodeId}

theorem cast_isOk_iff :
    (∃ r', r.cast t c = .ok r') ↔ r.term ≤ t ∧ ∀ c', r.vote? t = some c' → c' = c := by
  rw [cast]
  by_cases hstale : t < r.term
  · rw [if_pos hstale]
    constructor
    · rintro ⟨_, h⟩
      cases h
    · exact fun h => absurd h.1 (Int32.not_le.mpr hstale)
  · rw [if_neg hstale]
    have hle := Int32.not_lt.mp hstale
    cases hvote : r.vote? t with
    | none => simp [hle]
    | some existing => by_cases heq : existing = c <;> simp [hle, heq]

theorem reach_isOk_iff : (∃ r', r.reach t = .ok r') ↔ r.term ≤ t := by
  rw [reach]
  by_cases hstale : t < r.term
  · rw [if_pos hstale]
    constructor
    · rintro ⟨_, h⟩
      cases h
    · exact fun h => absurd h (Int32.not_le.mpr hstale)
  · rw [if_neg hstale]
    have hle := Int32.not_lt.mp hstale
    by_cases heq : t = r.term <;> simp [heq, hle]

theorem change_stale (h : w.term < r.term) :
    w.change r = .error (.staleTerm w.term r.term) := by
  cases w with
  | cast t c => exact if_pos h
  | reach t => exact if_pos h

theorem term_change (h : w.change r = .ok r') (hs : r.Settled) :
    r'.term = w.term ∧ r.term ≤ w.term := by
  cases w with
  | cast t c => exact ⟨term_cast h hs, (cast_eq_ok h).1⟩
  | reach t => exact ⟨term_reach h, reach_isOk_iff.mp ⟨r', h⟩⟩

end Ballots

/-! ## Disks that differ in the draft -/

namespace Disk

variable {d d' d'' : Disk} {s : Step} {steps taken : List Step} {stop : Option Interruption}

/-- The disks differ at most in what the draft holds. -/
structure Akin (d d' : Disk) : Prop where
  others : d'.withDraft none = d.withDraft none
  folder : d'.get .draft = some .folder ↔ d.get .draft = some .folder

theorem Akin.refl (d : Disk) : d.Akin d := ⟨rfl, Iff.rfl⟩

theorem Akin.trans (h : d.Akin d') (h' : d'.Akin d'') : d.Akin d'' :=
  ⟨h'.others.trans h.others, h'.folder.trans h.folder⟩

theorem Akin.get_votes (h : d.Akin d') : d'.get .votes = d.get .votes := by
  rw [← get_votes_withDraft d' none, h.others, get_votes_withDraft]

/-- The steps that a save takes before the draft is renamed. -/
inductive Drafts : Step → Prop
  | create : Drafts (.create .draft)
  | append (bs : Bytes) : Drafts (.append .draft bs)
  | sync : Drafts (.sync .draft)

theorem akin_step (hs : Drafts s) (h : d.step s = some d') : d.Akin d' := by
  cases hs with
  | create =>
    cases d with
    | shelf shelf =>
      simp only [step] at h
      split at h
      · rename_i hadmits
        cases h
        have hfolder : shelf.get .draft ≠ some .folder := (of_decide_eq_true hadmits).1
        exact ⟨rfl, by simp [get, hfolder]⟩
      · cases h
    | missing => cases h
    | blocked => cases h
  | append bs =>
    cases d with
    | shelf shelf =>
      simp only [step] at h
      split at h
      · rename_i hcontent
        cases h
        exact ⟨rfl, by simp [get, hcontent]⟩
      · cases h
    | missing => cases h
    | blocked => cases h
  | sync =>
    simp only [step, Option.map_eq_some_iff] at h
    obtain ⟨_, _, rfl⟩ := h
    exact Akin.refl d

theorem Crash.akin (h : Crash d steps taken d') (hs : ∀ s ∈ steps, Drafts s) : d.Akin d' := by
  induction h with
  | here d steps => exact Akin.refl d
  | @torn d d' f bs rest bytes part =>
    cases hs _ List.mem_cons_self
    exact akin_step (.append _) part
  | step takes later ih =>
    exact (akin_step (hs _ List.mem_cons_self) takes).trans
      (ih fun s hmem => hs s (List.mem_cons_of_mem _ hmem))

/-- A save that does not come to its end has only touched the draft. -/
theorem akin_of_write {r : Ballots} (h : d.write r.saveSteps stop = (d', false)) : d.Akin d' := by
  obtain ⟨taken, cut, hdone⟩ := crash_of_write h
  have hsplit : r.saveSteps = draftSteps r ++ [.rename .draft .votes] := rfl
  rw [hsplit] at cut hdone
  rcases cut.concat_cases (by simp) with hcut | ⟨mid, _, _, hall⟩
  · refine hcut.akin fun s hmem => ?_
    simp only [draftSteps, List.mem_cons, List.not_mem_nil, or_false] at hmem
    rcases hmem with rfl | rfl | rfl
    · exact .create
    · exact .append _
    · exact .sync
  · exact absurd (hdone.mpr hall) (by decide)

theorem Akin.create (h : d.Akin d') : d'.step (.create .draft) = d.step (.create .draft) := by
  obtain ⟨hothers, hfolder⟩ := h
  cases d with
  | shelf s =>
    cases d' with
    | shelf s' =>
      have hset : s'.set .draft none = s.set .draft none := Disk.shelf.inj hothers
      have hfar : s'.tooFar = s.tooFar := by
        have heq := congrArg Shelf.tooFar hset
        exact heq
      have hnew : s'.set .draft (some (.file [])) = s.set .draft (some (.file [])) := by
        have heq := congrArg (fun shelf : Shelf => shelf.set .draft (some (.file []))) hset
        exact heq
      have hadmits : s'.admits .draft = s.admits .draft := by
        have hfree : s'.get .draft ≠ some .folder ↔ s.get .draft ≠ some .folder :=
          not_congr hfolder
        simp only [Shelf.admits, hfar, hfree]
      simp only [step, hnew, hadmits]
    | missing => cases hothers
    | blocked => cases hothers
  | missing =>
    obtain rfl : d' = .missing := by
      cases d' <;> cases hothers
      rfl
    rfl
  | blocked =>
    obtain rfl : d' = .blocked := by
      cases d' <;> cases hothers
      rfl
    rfl

theorem Akin.write (h : d.Akin d') (r : Ballots) (stop : Option Interruption) :
    (d'.write r.saveSteps stop).2 = (d.write r.saveSteps stop).2 ∧
      (d.write r.saveSteps stop).1.Akin (d'.write r.saveSteps stop).1 := by
  by_cases hstop : ∃ bytes, stop = some ⟨0, bytes⟩
  · obtain ⟨bytes, rfl⟩ := hstop
    exact ⟨rfl, h⟩
  · have hfirst : ∀ bytes, stop ≠ some ⟨0, bytes⟩ := fun bytes heq => hstop ⟨bytes, heq⟩
    rw [Ballots.saveSteps, Disk.write, Disk.write, h.create]
    · cases d.step (.create .draft) with
      | none => exact ⟨rfl, h⟩
      | some next => exact ⟨rfl, Akin.refl _⟩
    · exact hfirst
    · exact hfirst

end Disk

namespace Storage

/-! ## Attempts -/

def stopping (s : Storage) (stop : Option Disk.Interruption) : Storage :=
  { s with outage := { s.outage with vote := stop, term := stop } }

def attempt (s : Storage) (a : Attempt) : Storage × Except VoteError Unit :=
  (s.stopping a.stop).perform a.write

def after (s : Storage) : List Attempt → Storage
  | [] => s
  | a :: more => (s.attempt a).1.after more

def results (s : Storage) : List Attempt → List (Except VoteError Unit)
  | [] => []
  | a :: more => (s.attempt a).2 :: (s.attempt a).1.results more

def successes (s : Storage) : List Attempt → List Attempt
  | [] => []
  | a :: more =>
    match s.attempt a with
    | (s, .ok ()) => a :: s.successes more
    | (s, .error _) => s.successes more

/-- What the attempt has to write cannot be written. Memory that is to fail refuses every attempt;
a file has to be written only if the ballots change. -/
def Hindered (s : Storage) (a : Attempt) : Prop :=
  match s.medium with
  | .memory _ => a.stop ≠ none
  | .file => ∃ next, a.write.change s.ballots = .ok next ∧ next ≠ s.ballots ∧
      (s.disk.write next.saveSteps a.stop).2 = false

def hindrance (s : Storage) : VoteError :=
  match s.medium with
  | .memory _ => .unavailable
  | .file => .io

/-- The storages differ at most in what the draft holds and in what fails. -/
structure Akin (s s' : Storage) : Prop where
  ballots : s'.ballots = s.ballots
  medium : s'.medium = s.medium
  disk : s.disk.Akin s'.disk

variable {s s' : Storage} {a : Attempt} {more : List Attempt} {t : Term} {c : NodeId}
  {e : VoteError} {votes : List (Term × NodeId)}

theorem stop_stopping (s : Storage) (stop : Option Disk.Interruption) (w : Write) :
    w.stop (s.stopping stop).outage = stop := by
  cases w <;> rfl

theorem attempt_eq (s : Storage) (a : Attempt) : s.attempt a =
    match s.medium with
    | .memory votes =>
      if a.stop.isSome then (s.stopping a.stop, .error .unavailable)
      else match a.write.change s.ballots with
        | .error e => (s.stopping a.stop, .error e)
        | .ok ballots =>
          ({ s.stopping a.stop with
              ballots, medium := .memory (votes ++ a.write.cast?.toList) }, .ok ())
    | .file =>
      match a.write.change s.ballots with
      | .error e => (s.stopping a.stop, .error e)
      | .ok ballots => (s.stopping a.stop).replaceBallots ballots a.stop := by
  rw [attempt, perform_eq, stop_stopping]
  rfl

theorem keeps_of_attempt (h : (s.attempt a).2 = .error e) :
    (s.stopping a.stop).Keeps (s.attempt a).1 :=
  keeps_of_perform (e := e) (Prod.ext rfl h)

theorem perform_of_attempt (h : (s.attempt a).2 = .ok ()) :
    (s.stopping a.stop).perform a.write = ((s.attempt a).1, .ok ()) := Prod.ext rfl h

theorem change_of_attempt (h : (s.attempt a).2 = .ok ()) :
    a.write.change s.ballots = .ok (s.attempt a).1.ballots :=
  (perform_ok (perform_of_attempt h)).1

theorem loads_attempt (s : Storage) (a : Attempt) :
    (s.attempt a).1.outage.loads = s.outage.loads := by
  rw [attempt, outage_perform]
  rfl

theorem attempt_memory (hmemory : s.medium = .memory votes) (a : Attempt) : s.attempt a =
    if a.stop.isSome then (s.stopping a.stop, .error .unavailable)
    else match a.write.change s.ballots with
      | .error e => (s.stopping a.stop, .error e)
      | .ok ballots =>
        ({ s.stopping a.stop with
            ballots, medium := .memory (votes ++ a.write.cast?.toList) }, .ok ()) := by
  rw [attempt_eq, hmemory]

theorem attempt_refused (hfile : s.medium = .file) (refused : a.write.change s.ballots = .error e) :
    s.attempt a = (s.stopping a.stop, .error e) := by
  rw [attempt_eq, hfile]
  simp only [refused]

theorem attempt_file {next : Ballots} (hfile : s.medium = .file)
    (changes : a.write.change s.ballots = .ok next) :
    s.attempt a =
      (if next = s.ballots then (s.stopping a.stop, .ok ())
      else if (s.disk.write next.saveSteps a.stop).2 then
        ({ s.stopping a.stop with
            disk := (s.disk.write next.saveSteps a.stop).1, ballots := next }, .ok ())
      else
        ({ s.stopping a.stop with disk := (s.disk.write next.saveSteps a.stop).1 },
          .error .io) : Storage × Except VoteError Unit) := by
  rw [attempt_eq]
  simp only [hfile, changes]
  rw [replaceBallots]
  cases hwrite : s.disk.write next.saveSteps a.stop with
  | mk disk done =>
    have hwrite' : (s.stopping a.stop).disk.write next.saveSteps a.stop = (disk, done) := hwrite
    rw [hwrite']
    cases done <;> rfl

/-! ## What an attempt comes to -/

theorem attempt_hindered (h : s.Hindered a) : (s.attempt a).2 = .error s.hindrance := by
  cases hmedium : s.medium with
  | memory votes =>
    simp only [Hindered, hmedium] at h
    rw [attempt_memory hmedium, if_pos (Option.isSome_iff_ne_none.mpr h)]
    simp only [hindrance, hmedium]
  | file =>
    simp only [Hindered, hmedium] at h
    obtain ⟨next, changes, hne, hfails⟩ := h
    simp [attempt_file hmedium changes, hindrance, hmedium, hne, hfails]

theorem attempt_free (h : ¬ s.Hindered a) :
    (s.attempt a).2 = (a.write.change s.ballots).map fun _ => () := by
  cases hmedium : s.medium with
  | memory votes =>
    simp only [Hindered, hmedium, Decidable.not_not] at h
    rw [attempt_memory hmedium, h]
    cases a.write.change s.ballots <;> rfl
  | file =>
    simp only [Hindered, hmedium, not_exists, not_and, Bool.not_eq_false] at h
    cases changes : a.write.change s.ballots with
    | error e =>
      rw [attempt_refused hmedium changes]
      rfl
    | ok next =>
      rw [attempt_file hmedium changes]
      split
      · rfl
      · rename_i hne
        rw [if_pos (h next changes hne)]
        rfl

theorem not_hindered_of_roomy (hroom : s.medium = .file → s.disk.Roomy) (hstop : a.stop = none) :
    ¬ s.Hindered a := by
  intro h
  cases hmedium : s.medium with
  | memory votes =>
    simp only [Hindered, hmedium] at h
    exact h hstop
  | file =>
    simp only [Hindered, hmedium] at h
    obtain ⟨next, _, _, hfails⟩ := h
    obtain ⟨shelf, hdisk, hdraft, hvotes⟩ := hroom hmedium
    obtain ⟨_, hwrite, _⟩ := Disk.write_saveSteps next hdraft hvotes
    rw [hdisk, hstop, hwrite] at hfails
    cases hfails

theorem attempt_stale (h : a.write.term < s.ballots.term) :
    (s.attempt a).2 = .error (if s.medium ≠ .file ∧ a.stop ≠ none then .unavailable
      else .staleTerm a.write.term s.ballots.term) := by
  have hstale := Ballots.change_stale h
  by_cases hhindered : s.Hindered a
  · rw [attempt_hindered hhindered]
    cases hmedium : s.medium with
    | memory votes =>
      simp only [Hindered, hmedium] at hhindered
      simp [hindrance, hmedium, hhindered]
    | file =>
      simp only [Hindered, hmedium, hstale] at hhindered
      obtain ⟨_, hchange, _⟩ := hhindered
      cases hchange
  · rw [attempt_free hhindered, hstale, if_neg]
    · rfl
    · rintro ⟨hmemory, hstop⟩
      cases hmedium : s.medium with
      | memory votes =>
        simp only [Hindered, hmedium] at hhindered
        exact hhindered hstop
      | file => exact hmemory hmedium

/-! ## Attempts that fail -/

theorem Akin.attempt (h : s.Akin s') (a : Attempt) :
    (s'.attempt a).2 = (s.attempt a).2 ∧ (s.attempt a).1.Akin (s'.attempt a).1 := by
  obtain ⟨hballots, hmedium, hdisk⟩ := h
  cases hwhere : s.medium with
  | memory votes =>
    rw [attempt_memory hwhere, attempt_memory (hmedium.trans hwhere), hballots]
    split
    · exact ⟨rfl, hballots, hmedium, hdisk⟩
    · cases a.write.change s.ballots with
      | error e => exact ⟨rfl, hballots, hmedium, hdisk⟩
      | ok next => exact ⟨rfl, rfl, rfl, hdisk⟩
  | file =>
    cases changes : a.write.change s.ballots with
    | error e =>
      rw [attempt_refused hwhere changes,
        attempt_refused (hmedium.trans hwhere) (hballots ▸ changes)]
      exact ⟨rfl, hballots, hmedium, hdisk⟩
    | ok next =>
      obtain ⟨hdone, hwritten⟩ := hdisk.write next a.stop
      rw [attempt_file hwhere changes, attempt_file (hmedium.trans hwhere) (hballots ▸ changes),
        hballots, hdone]
      split
      · exact ⟨rfl, hballots, hmedium, hdisk⟩
      · split
        · exact ⟨rfl, rfl, hmedium, hwritten⟩
        · exact ⟨rfl, hballots, hmedium, hwritten⟩

theorem Akin.run (h : s.Akin s') (more : List Attempt) :
    s'.results more = s.results more ∧ (s.after more).Akin (s'.after more) := by
  induction more generalizing s s' with
  | nil => exact ⟨rfl, h⟩
  | cons a more ih =>
    obtain ⟨hresult, hnext⟩ := h.attempt a
    obtain ⟨hresults, hafter⟩ := ih hnext
    exact ⟨by rw [results, results, hresult, hresults], hafter⟩

/-- At most the draft shows that an attempt has failed. -/
theorem akin_of_attempt (h : (s.attempt a).2 = .error e) : s.Akin (s.attempt a).1 := by
  have kept := keeps_of_attempt h
  refine ⟨kept.ballots, kept.medium, ?_⟩
  cases hmedium : s.medium with
  | memory votes =>
    rw [attempt_memory hmedium]
    split
    · exact Disk.Akin.refl _
    · cases a.write.change s.ballots <;> exact Disk.Akin.refl _
  | file =>
    cases changes : a.write.change s.ballots with
    | error e =>
      rw [attempt_refused hmedium changes]
      exact Disk.Akin.refl _
    | ok next =>
      rw [attempt_file hmedium changes] at h ⊢
      split at h
      · cases h
      · rename_i hne
        split at h
        · cases h
        · rename_i hfails
          have hwrite : s.disk.write next.saveSteps a.stop =
              ((s.disk.write next.saveSteps a.stop).1, false) :=
            Prod.ext rfl (eq_false_of_ne_true hfails)
          rw [if_neg hne, if_neg hfails]
          exact Disk.akin_of_write hwrite

/-! ## Any number of attempts -/

theorem readTerm_eq (loads : s.outage.loads = false) : s.readTerm = .ok s.ballots.term := by
  rw [readTerm, loads, if_neg Bool.false_ne_true]

theorem readVote_eq (loads : s.outage.loads = false) (t : Term) :
    s.readVote t = .ok (s.ballots.vote? t) := by
  rw [readVote, loads, if_neg Bool.false_ne_true]

theorem loads_after (s : Storage) (calls : List Attempt) :
    (s.after calls).outage.loads = s.outage.loads := by
  induction calls generalizing s with
  | nil => rfl
  | cons a more ih =>
    rw [after, ih, loads_attempt]

theorem file_attempt (s : Storage) (a : Attempt) :
    (s.attempt a).1.medium = .file ↔ s.medium = .file := by
  cases hresult : (s.attempt a).2 with
  | error e =>
    have hmedium : (s.attempt a).1.medium = s.medium := (keeps_of_attempt hresult).medium
    rw [hmedium]
  | ok u =>
    have hvotes := (perform_ok (perform_of_attempt hresult)).2.1
    cases hmedium : s.medium <;> cases hnext : (s.attempt a).1.medium <;>
      simp_all [votesWritten?, stopping]

theorem file_after (s : Storage) (calls : List Attempt) :
    (s.after calls).medium = .file ↔ s.medium = .file := by
  induction calls generalizing s with
  | nil => rfl
  | cons a more ih =>
    rw [after, ih, file_attempt]

theorem precedes_attempt (hs : s.ballots.Settled) (a : Attempt) :
    (s.attempt a).1.ballots.Settled ∧ s.ballots.Precedes (s.attempt a).1.ballots := by
  cases hresult : (s.attempt a).2 with
  | error e =>
    have hballots : (s.attempt a).1.ballots = s.ballots := (keeps_of_attempt hresult).ballots
    rw [hballots]
    exact ⟨hs, Ballots.Precedes.refl _⟩
  | ok u =>
    exact precedes_perform (s := s.stopping a.stop) (perform_of_attempt hresult) hs

theorem precedes_after (hs : s.ballots.Settled) (calls : List Attempt) :
    (s.after calls).ballots.Settled ∧ s.ballots.Precedes (s.after calls).ballots := by
  induction calls generalizing s with
  | nil => exact ⟨hs, Ballots.Precedes.refl _⟩
  | cons a more ih =>
    obtain ⟨hsettled, hstep⟩ := precedes_attempt hs a
    obtain ⟨hlast, hrest⟩ := ih hsettled
    exact ⟨hlast, hstep.trans hrest⟩

/-- An attempt that succeeds moves on to its term, and one that fails stays where it was. -/
theorem attempt_cases (hs : s.ballots.Settled) (a : Attempt) (more : List Attempt) :
    s.successes (a :: more) = (s.attempt a).1.successes more ∧
        (s.attempt a).1.ballots.term = s.ballots.term ∨
      s.successes (a :: more) = a :: (s.attempt a).1.successes more ∧
        (s.attempt a).1.ballots.term = a.write.term ∧ s.ballots.term ≤ a.write.term := by
  rw [successes]
  cases hattempt : s.attempt a with
  | mk next result =>
    cases result with
    | error e =>
      have kept := keeps_of_attempt (congrArg Prod.snd hattempt)
      rw [hattempt] at kept
      exact Or.inl ⟨rfl, congrArg Ballots.term kept.ballots⟩
    | ok u =>
      have changes := change_of_attempt (congrArg Prod.snd hattempt)
      rw [hattempt] at changes
      exact Or.inr ⟨rfl, Ballots.term_change changes hs⟩

theorem term_after (hs : s.ballots.Settled) (calls : List Attempt) :
    (s.after calls).ballots.term =
      ((s.successes calls).map (·.write.term)).foldl max s.ballots.term := by
  induction calls generalizing s with
  | nil => rfl
  | cons a more ih =>
    rw [after, ih (precedes_attempt hs a).1]
    rcases attempt_cases hs a more with ⟨hfails, hterm⟩ | ⟨hsucceeds, hterm, hle⟩
    · rw [hfails, hterm]
    · have hmax : max s.ballots.term a.write.term = a.write.term := if_pos hle
      rw [hsucceeds, hterm, List.map_cons, List.foldl_cons, hmax]

theorem lt_term_after (hs : s.ballots.Settled) (more : List Attempt) (t : Term) :
    t < (s.after more).ballots.term ↔
      t < s.ballots.term ∨ ∃ a ∈ s.successes more, t < a.write.term := by
  induction more generalizing s with
  | nil => simp [after, successes]
  | cons a more ih =>
    rw [after, ih (precedes_attempt hs a).1]
    rcases attempt_cases hs a more with ⟨hfails, hterm⟩ | ⟨hsucceeds, hterm, hle⟩
    · rw [hfails, hterm]
    · have hlater : t < s.ballots.term → t < a.write.term := fun h => Int32.lt_of_lt_of_le h hle
      rw [hsucceeds, hterm, List.exists_mem_cons_iff, ← or_assoc, or_iff_right_of_imp hlater]

/-- A vote stays on record until a later term is recorded. -/
theorem vote_after (hs : s.ballots.Settled) (hvote : s.ballots.vote? t = some c)
    (hmore : ∀ a ∈ s.successes more, a.write.term ≤ t) :
    (s.after more).ballots.vote? t = some c := by
  have hterm := hs t c hvote
  have hnot : ¬ t < (s.after more).ballots.term := by
    rw [lt_term_after hs]
    rintro (hlt | ⟨a, hmem, hlt⟩)
    · exact absurd (hterm ▸ hlt) Int32.lt_irrefl
    · exact absurd hlt (Int32.not_lt.mpr (hmore a hmem))
  rcases (precedes_after hs more).2.vote hs hvote with hlt | ⟨_, hkept⟩
  · exact absurd hlt hnot
  · exact hkept

theorem attempt_isOk_iff (h : ¬ s.Hindered a) :
    (s.attempt a).2 = .ok () ↔ ∃ next, a.write.change s.ballots = .ok next := by
  rw [attempt_free h]
  cases a.write.change s.ballots with
  | error e => simp [Except.map]
  | ok next => simp [Except.map]

/-- All that comes after an attempt that fails is as if it had not been made. -/
theorem after_error (h : (s.attempt a).2 = .error e) (more : List Attempt) :
    (s.attempt a).1.results more = s.results more ∧
      ((s.attempt a).1.after more).ballots = (s.after more).ballots ∧
      ((s.attempt a).1.after more).disk.get .votes = (s.after more).disk.get .votes := by
  obtain ⟨hresults, hakin⟩ := (akin_of_attempt h).run more
  exact ⟨hresults, hakin.ballots, hakin.disk.get_votes⟩

theorem Fresh.after (fresh : s.Fresh) (calls : List Attempt) :
    (s.after calls).ballots.Settled ∧ (s.after calls).ballots.term =
      ((s.successes calls).map (·.write.term)).foldl max 0 := by
  have hs : s.ballots.Settled := by
    rw [fresh.ballots]
    exact Ballots.settled_empty
  have hterm := term_after hs calls
  rw [fresh.ballots] at hterm
  exact ⟨(precedes_after hs calls).1, hterm⟩

/-- What a storage promises, in memory or in a file, once it has been opened with nothing on record
and any attempts have been made.

The term is the greatest that an attempt has reached, and no other term has a vote. Unless it is
hindered, a vote is recorded exactly if the term has not been left and holds no other vote, and a
term exactly if it has not been left. A vote stays on record until an attempt reaches a later term,
from when on all attempts in its term fail. And an attempt that fails leaves the ballots and the
vote file as they were, so that all later attempts have the results that they would have had without
it. -/
theorem vote_store_contract {start : Storage} (fresh : start.Fresh)
    (loads : start.outage.loads = false) (calls : List Attempt) :
    let s := start.after calls
    let term := ((start.successes calls).map (·.write.term)).foldl max 0
    s.readTerm = .ok term ∧ (∀ t ≠ term, s.readVote t = .ok none) ∧
    (∀ t c stop, ¬ s.Hindered ⟨.cast t c, stop⟩ →
      ((s.attempt ⟨.cast t c, stop⟩).2 = .ok () ↔
        term ≤ t ∧ ∀ c', s.readVote t = .ok (some c') → c' = c)) ∧
    (∀ t stop, ¬ s.Hindered ⟨.reach t, stop⟩ →
      ((s.attempt ⟨.reach t, stop⟩).2 = .ok () ↔ term ≤ t)) ∧
    (∀ a, s.Hindered a → (s.attempt a).2 = .error s.hindrance) ∧
    (∀ t c, s.readVote t = .ok (some c) → ∀ more,
      ((∀ a ∈ s.successes more, a.write.term ≤ t) →
        (s.after more).readVote t = .ok (some c)) ∧
      ((∃ a ∈ s.successes more, t < a.write.term) →
        ∃ current, (s.after more).readTerm = .ok current ∧ t < current ∧
          ∀ a : Attempt, a.write.term = t →
            ((s.after more).attempt a).2 =
              .error (if start.medium ≠ .file ∧ a.stop ≠ none then .unavailable
                else .staleTerm t current))) ∧
    ∀ a e, (s.attempt a).2 = .error e →
      (s.attempt a).1.ballots = s.ballots ∧
      (s.attempt a).1.disk.get .votes = s.disk.get .votes ∧
      ∀ more, (s.attempt a).1.results more = s.results more ∧
        ((s.attempt a).1.after more).ballots = (s.after more).ballots ∧
        ((s.attempt a).1.after more).disk.get .votes = (s.after more).disk.get .votes := by
  intro s term
  obtain ⟨hs, hterm⟩ : s.ballots.Settled ∧ s.ballots.term = term := fresh.after calls
  have hloads : s.outage.loads = false := (loads_after start calls).trans loads
  have hmore : ∀ more, (s.after more).outage.loads = false :=
    fun more => (loads_after s more).trans hloads
  refine ⟨?_, ?_, ?_, ?_, fun a => attempt_hindered, fun t c hvote more => ?_, fun a e h => ?_⟩
  · rw [readTerm_eq hloads, hterm]
  · intro t hne
    rw [readVote_eq hloads]
    cases hvote : s.ballots.vote? t with
    | none => rfl
    | some c => exact absurd ((hs t c hvote).trans hterm) hne
  · intro t c stop hfree
    rw [attempt_isOk_iff hfree, readVote_eq hloads, ← hterm]
    simp only [Except.ok.injEq]
    exact Ballots.cast_isOk_iff
  · intro t stop hfree
    rw [attempt_isOk_iff hfree, ← hterm]
    exact Ballots.reach_isOk_iff
  · rw [readVote_eq hloads, Except.ok.injEq] at hvote
    have hfile : s.medium = .file ↔ start.medium = .file := file_after start calls
    refine ⟨fun kept => ?_, fun later => ?_⟩
    · rw [readVote_eq (hmore more), vote_after hs hvote kept]
    · have hleft := (lt_term_after hs more t).mpr (Or.inr later)
      refine ⟨_, readTerm_eq (hmore more), hleft, ?_⟩
      rintro a rfl
      simp only [attempt_stale hleft, ne_eq, file_after, hfile]
  · have hakin := akin_of_attempt h
    exact ⟨hakin.ballots, hakin.disk.get_votes, after_error h⟩

/-! A storage in a file, in which two writes are cut short and a vote is lost to a later term. -/

def patientCalls : List Attempt :=
  [⟨.cast 3 7, some ⟨1, 2⟩⟩, ⟨.cast 3 7, none⟩, ⟨.cast 3 8, none⟩, ⟨.reach 5, some ⟨3, 0⟩⟩,
    ⟨.cast (-1) 2, none⟩]

theorem vote_store_contract_patientCalls :
    let start : Storage := { disk := .shelf {}, medium := .file }
    let s := start.after patientCalls
    let later := s.after [⟨.cast 4 9, none⟩]
    start.results patientCalls = [.error .io, .ok (), .error (.alreadyVoted 3 7 8), .error .io,
        .error (.staleTerm (-1) 3)] ∧
      s.readTerm = .ok 3 ∧ (s.attempt ⟨.cast 4 9, none⟩).2 = .ok () ∧
      (later.attempt ⟨.cast 3 7, none⟩).2 = .error (.staleTerm 3 4) := by
  intro start s later
  have fresh : start.Fresh := ⟨rfl, rfl, fun _ => Or.inl ⟨rfl, rfl⟩⟩
  obtain ⟨hterm, hnone, hcast, _, _, hvote, _⟩ := vote_store_contract fresh rfl patientCalls
  have hgreatest : ((start.successes patientCalls).map (·.write.term)).foldl max 0 = 3 := by
    decide +kernel
  rw [hgreatest] at hterm hnone hcast
  have hdisk : s.disk = .shelf
      { votes := some (.file [6, 1, 6, 14]), draft := some (.file [10, 0]) } := by
    decide +kernel
  have hfree : ¬ s.Hindered ⟨.cast 4 9, none⟩ :=
    not_hindered_of_roomy (fun _ => ⟨_, hdisk, by decide, by decide⟩) rfl
  have hnew : (s.attempt ⟨.cast 4 9, none⟩).2 = .ok () := by
    refine (hcast 4 9 none hfree).mpr ⟨by decide, fun c' hc' => ?_⟩
    rw [hnone 4 (by decide)] at hc'
    cases hc'
  have hlost : ∃ a ∈ s.successes [⟨.cast 4 9, none⟩], 3 < a.write.term := by decide +kernel
  obtain ⟨current, hread, _, hstale⟩ := (hvote 3 7 (by decide +kernel) _).2 hlost
  have hcurrent : later.readTerm = .ok 4 := by decide +kernel
  obtain rfl : current = 4 := Except.ok.inj (hread.symm.trans hcurrent)
  have hlate := hstale ⟨.cast 3 7, none⟩ rfl
  rw [if_neg fun h => h.2 rfl] at hlate
  exact ⟨by decide +kernel, hterm, hnew, hlate⟩

/-- Memory that is to fail does not say that a term has been left. -/
theorem unavailable_of_left_term :
    let start : Storage := {}
    let s := start.after [⟨.cast 3 7, none⟩]
    let later := s.after [⟨.reach 5, none⟩]
    start.Fresh ∧ s.readVote 3 = .ok (some 7) ∧
      s.successes [⟨.reach 5, none⟩] = [⟨.reach 5, none⟩] ∧ later.readTerm = .ok 5 ∧
      (later.attempt ⟨.cast 3 7, some ⟨0, 0⟩⟩).2 = .error .unavailable ∧
      VoteError.unavailable ≠ .staleTerm 3 5 := by
  refine ⟨⟨rfl, rfl, fun h => by cases h⟩, ?_⟩
  decide +kernel

end Storage

end Elector
