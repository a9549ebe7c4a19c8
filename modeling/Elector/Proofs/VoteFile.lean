import Elector.Proofs.Storage

/-!
# The vote file

Ballots in a file are replaced through a draft. Wherever a crash falls, and whatever lies under the
draft's name, the file that is opened afterwards holds the new ballots if the draft has been renamed
and the old ones if not (`vote_file_survives`). The same is so after a write that fails, and then
the ballots in memory agree with the file.
-/

namespace Elector

namespace Disk

def withDraft (d : Disk) (item : Option Item) : Disk :=
  match d with
  | shelf s => shelf (s.set .draft item)
  | d => d

variable {d d' : Disk} {s : Step} {steps taken : List Step}

@[simp] theorem get_votes_withDraft (d : Disk) (item : Option Item) :
    (d.withDraft item).get .votes = d.get .votes := by
  cases d with
  | shelf s => simp [withDraft, get]
  | missing => rfl
  | blocked => rfl

theorem prepare_eq_self_iff : d.prepare = some d ↔ ∃ s, d = .shelf s := by
  cases d <;> simp [prepare]

theorem prepare_withDraft (hd : d.prepare = some d) (item : Option Item) :
    (d.withDraft item).prepare = some (d.withDraft item) := by
  obtain ⟨s, rfl⟩ := prepare_eq_self_iff.mp hd
  rfl

theorem prepare_step (h : d.step s = some d') : d'.prepare = some d' := by
  rw [prepare_eq_self_iff]
  cases d with
  | missing => cases s <;> cases h
  | blocked => cases s <;> cases h
  | shelf shelf =>
    cases s with
    | create f =>
      simp only [step] at h
      split at h
      · exact ⟨_, (Option.some.inj h).symm⟩
      · cases h
    | append f bs =>
      simp only [step] at h
      split at h
      · exact ⟨_, (Option.some.inj h).symm⟩
      · cases h
    | sync f =>
      simp only [step, Option.map_eq_some_iff] at h
      obtain ⟨_, _, rfl⟩ := h
      exact ⟨shelf, rfl⟩
    | rename source target =>
      simp only [step] at h
      split at h
      · split at h
        · exact ⟨_, (Option.some.inj h).symm⟩
        · cases h
      · cases h

theorem Crash.prepare (h : Crash d steps taken d') (hd : d.prepare = some d) :
    d'.prepare = some d' := by
  induction h with
  | here d steps => exact hd
  | torn bytes part => exact prepare_step part
  | step takes later ih => exact ih (prepare_step takes)

end Disk

namespace Storage

/-- The ballots have been opened in a file and are what can be read back from it. -/
structure Opened (s : Storage) : Prop where
  file : s.medium = .file
  folder : s.disk.prepare = some s.disk
  backed : s.Backed

/-- What the vote file of a node can come to: it is opened for the first time, changed by writes,
some of which fail, left behind by a crash in a write, and opened again. The draft may be anything
at any time. -/
inductive OnFile : Storage → Prop
  | first {s s' : Storage} (file : s.medium = .file) (absent : s.disk.get .votes = none)
      (opens : s.reopenBallots = .ok s') : OnFile s'
  | fails {s : Storage} (outage : Outage) (before : OnFile s) : OnFile { s with outage }
  | draft {s : Storage} (item : Option Item) (before : OnFile s) :
      OnFile { s with disk := s.disk.withDraft item }
  | write {s : Storage} (w : Write) (before : OnFile s) : OnFile (s.perform w).1
  | crash {s s' : Storage} {w : Write} {next : Ballots} {taken : List Disk.Step} {d : Disk}
      (before : OnFile s) (changes : w.change s.ballots = .ok next)
      (cut : s.disk.Crash next.saveSteps taken d)
      (opens : ({ s with disk := d } : Storage).reopenBallots = .ok s') : OnFile s'

variable {s s' : Storage} {w : Write} {next : Ballots} {taken : List Disk.Step} {d : Disk}
  {done : Bool}

/-! ## Opening -/

theorem Opened.reopen (h : s.Opened) : s.reopenBallots = .ok s := by
  have hload : Ballots.load s.disk = .ok (s.ballots, s.disk) := by
    rw [Ballots.load, h.folder]
    rcases h.backed h.file with ⟨hnone, hempty⟩ | ⟨content, hcontent, hread⟩
    · simp only [hnone, hempty]
    · simp only [hcontent, hread]
  have hfile : s.medium = .file := h.file
  unfold reopenBallots
  split
  · rename_i votes hmemory
    rw [hfile] at hmemory
    cases hmemory
  · rw [hload]

theorem opened_first (file : s.medium = .file) (absent : s.disk.get .votes = none)
    (opens : s.reopenBallots = .ok s') : s'.Opened := by
  simp only [reopenBallots, file, Ballots.load] at opens
  cases hprepare : s.disk.prepare with
  | none =>
    rw [hprepare] at opens
    cases opens
  | some d =>
    have hd : d.prepare = some d ∧ d.get .votes = none := by
      cases hdisk : s.disk <;> rw [hdisk] at hprepare absent <;> cases hprepare
      · exact ⟨rfl, rfl⟩
      · exact ⟨rfl, absent⟩
    simp only [hprepare, hd.2] at opens
    cases opens
    exact ⟨rfl, hd.1, fun _ => Or.inl ⟨hd.2, rfl⟩⟩

/-! ## What stays opened -/

theorem Opened.under (h : s.Opened) (outage : Outage) : ({ s with outage } : Storage).Opened :=
  ⟨h.file, h.folder, h.backed⟩

theorem Opened.withDraft (h : s.Opened) (item : Option Item) :
    ({ s with disk := s.disk.withDraft item } : Storage).Opened where
  file := h.file
  folder := Disk.prepare_withDraft h.folder item
  backed := by
    intro hfile
    have hbacked := h.backed hfile
    rw [← Disk.get_votes_withDraft s.disk item] at hbacked
    exact hbacked

/-- Wherever a crash falls, the file holds the new ballots or the old ones. -/
theorem Opened.crash (h : s.Opened) (cut : s.disk.Crash next.saveSteps taken d) :
    ({ s with
        disk := d
        ballots := if .rename .draft .votes ∈ taken then next else s.ballots } :
      Storage).Opened where
  file := h.file
  folder := cut.prepare h.folder
  backed := by
    intro _
    dsimp only
    rw [cut.get_votes]
    by_cases hrenamed : .rename .draft .votes ∈ taken
    · rw [if_pos hrenamed, if_pos hrenamed]
      exact Or.inr ⟨_, rfl, next.ofContent_encode⟩
    · rw [if_neg hrenamed, if_neg hrenamed]
      exact h.backed h.file

theorem perform_file (hfile : s.medium = .file) (changes : w.change s.ballots = .ok next) :
    s.perform w = s.replaceBallots next (w.stop s.outage) := by
  rw [Storage.perform_eq]
  simp only [hfile, changes]

theorem perform_changes (hfile : s.medium = .file) (changes : w.change s.ballots = .ok next)
    (differs : next ≠ s.ballots)
    (hwrite : s.disk.write next.saveSteps (w.stop s.outage) = (d, done)) :
    s.perform w =
      if done then ({ s with disk := d, ballots := next }, .ok ())
      else ({ s with disk := d }, .error .io) := by
  rw [perform_file hfile changes, replaceBallots, if_neg differs, hwrite]
  cases done <;> rfl

theorem Opened.perform (h : s.Opened) (w : Write) : (s.perform w).1.Opened := by
  cases hchange : w.change s.ballots with
  | error e =>
    rw [Storage.perform_eq, h.file]
    simp only [hchange]
    exact h
  | ok next =>
    by_cases hsame : next = s.ballots
    · rw [perform_file h.file hchange, replaceBallots, if_pos hsame]
      exact h
    · cases hwrite : s.disk.write next.saveSteps (w.stop s.outage) with
      | mk d done =>
        obtain ⟨taken, cut, hdone⟩ := Disk.crash_of_write hwrite
        have hopened := h.crash cut
        simp only [cut.renamed_iff, ← hdone] at hopened
        rw [perform_changes h.file hchange hsame hwrite]
        cases done with
        | true => exact hopened
        | false => exact hopened

theorem OnFile.opened (h : s.OnFile) : s.Opened := by
  induction h with
  | first file absent opens => exact opened_first file absent opens
  | fails outage before ih => exact ih.under outage
  | draft item before ih => exact ih.withDraft item
  | write w before ih => exact ih.perform w
  | crash before changes cut opens ih =>
    have hreopen := (ih.crash cut).reopen
    have hsame := opens.symm.trans hreopen
    cases hsame
    exact ih.crash cut

/-! ## The vote file survives -/

/-- **The vote file survives a crash at any step.** Let a write change the ballots of an opened
file, with anything under the draft's name. Wherever a crash falls, and whatever has become of the
draft, the storage opens again with the new ballots if the draft was renamed and with the old ones
if not. If no step fails, the write succeeds and the new ballots count; if one does, the write fails
and the old ones count. Either way they are those that opening again finds. -/
theorem vote_file_survives (kept : s.OnFile) (leftover : Option Item)
    (changes : w.change s.ballots = .ok next) (differs : next ≠ s.ballots) :
    let before : Storage := { s with disk := s.disk.withDraft leftover }
    (∀ taken d, before.disk.Crash next.saveSteps taken d → ∀ lost,
      ({ before with disk := d.withDraft lost } : Storage).reopenBallots =
        .ok { before with
          disk := d.withDraft lost
          ballots := if .rename .draft .votes ∈ taken then next else s.ballots }) ∧
    ∀ outage d done, before.disk.write next.saveSteps (w.stop outage) = (d, done) →
      let after : Storage := { before with
        outage
        disk := d
        ballots := if done then next else s.ballots }
      ({ before with outage } : Storage).perform w =
        (after, if done then .ok () else .error .io) ∧
      after.reopenBallots = .ok after := by
  intro before
  have hbefore : before.Opened := kept.opened.withDraft leftover
  constructor
  · intro taken d cut lost
    exact ((hbefore.crash cut).withDraft lost).reopen
  · intro outage d done hwrite after
    have hunder := hbefore.under outage
    have hperform : ({ before with outage } : Storage).perform w =
        (after, if done then .ok () else .error .io) := by
      rw [perform_changes hunder.file changes differs hwrite]
      cases done <;> rfl
    have hopened := hunder.perform w
    rw [hperform] at hopened
    exact ⟨hperform, hopened.reopen⟩

/-- A file with a vote for a member of negative id in a term that takes four bytes. -/
def votedFile : Storage :=
  (({ medium := .file, disk := .shelf {} } : Storage).perform (.cast 70000 (-5))).1

/-- A crash three bytes into the draft of a later term, over one that was left behind before: the
vote is still there. -/
theorem vote_file_survives_votedFile :
    let before : Storage :=
      { votedFile with disk := votedFile.disk.withDraft (some (.file [1, 2, 3, 4, 5])) }
    let next := votedFile.ballots.advance 70001
    ∃ d, before.disk.Crash next.saveSteps [.create .draft] d ∧
      d.content? .draft = some (next.encode.take 3) ∧
      ({ before with disk := d.withDraft none } : Storage).reopenBallots =
        .ok { before with disk := d.withDraft none } ∧
      before.ballots.vote? 70000 = some (-5) := by
  intro before next
  have hkept : votedFile.OnFile := .write _ (.first (s := { medium := .file }) rfl rfl rfl)
  have hchange : Write.change votedFile.ballots (.reach 70001) = .ok next := rfl
  have hdiffers : next ≠ votedFile.ballots := by decide
  obtain ⟨hcrash, _⟩ :=
    vote_file_survives hkept (some (.file [1, 2, 3, 4, 5])) hchange hdiffers
  have hcreate : before.disk.step (.create .draft) =
      some (votedFile.disk.withDraft (some (.file []))) := rfl
  have hcut : before.disk.Crash next.saveSteps [.create .draft] _ :=
    .step hcreate (.torn 3 rfl)
  exact ⟨_, hcut, by decide, hcrash _ _ hcut none, by decide⟩

end Storage

end Elector
