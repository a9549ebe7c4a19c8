import Elector.Storage

/-!
# Writes on a disk

A write is a list of steps that may stop anywhere, by a failure or by a crash. `Crash` says what it
leaves then, and which steps have taken place; `crash_of_write` says that this is all that a write
can do. A write changes only the files that its steps name (`Crash.get`), and a file that is
replaced through a draft holds either all of the new content or what it held before
(`Crash.get_votes`).
-/

namespace Elector

theorem Shelf.set_set (shelf : Shelf) (f : FileName) (item item' : Option Item) :
    (shelf.set f item).set f item' = shelf.set f item' := by
  cases f <;> rfl

theorem Shelf.admits_set {shelf : Shelf} {f g : FileName} {item : Option Item}
    (hitem : item ≠ some .folder) (h : shelf.admits g = true) :
    (shelf.set f item).admits g = true := by
  have hfar : (shelf.set f item).tooFar = shelf.tooFar := by cases f <;> rfl
  simp only [admits, decide_eq_true_eq, get_set, hfar] at h ⊢
  split
  · exact ⟨hitem, h.2⟩
  · exact h

namespace Disk

def Step.files : Step → List FileName
  | .create f => [f]
  | .append f _ => [f]
  | .sync _ => []
  | .rename source target => [source, target]

variable {d d' : Disk} {s : Step} {rest : List Step} {stop : Option Interruption} {done : Bool}
  {f : FileName}

/-! ## One step -/

theorem get_step (h : d.step s = some d') (hf : f ∉ s.files) : d'.get f = d.get f := by
  cases s with
  | create g =>
    cases d with
    | shelf s =>
      have hne : f ≠ g := by simpa [Step.files] using hf
      simp only [step] at h
      split at h
      · cases h
        simp [get, hne]
      · cases h
    | missing => cases h
    | blocked => cases h
  | append g bs =>
    cases d with
    | shelf s =>
      have hne : f ≠ g := by simpa [Step.files] using hf
      simp only [step] at h
      split at h
      · cases h
        simp [get, hne]
      · cases h
    | missing => cases h
    | blocked => cases h
  | sync g =>
    simp only [step, Option.map_eq_some_iff] at h
    obtain ⟨_, _, rfl⟩ := h
    rfl
  | rename source target =>
    cases d with
    | shelf s =>
      have hne : f ≠ source ∧ f ≠ target := by simpa [Step.files] using hf
      simp only [step] at h
      split at h
      · split at h
        · cases h
          simp [get, hne.1, hne.2]
        · cases h
      · cases h
    | missing => cases h
    | blocked => cases h

/-! ## Several steps -/

/-- What a crash in a write can leave: the steps `taken` have taken place, and if an append comes
next, some of its bytes may have been written, from the front. -/
inductive Crash : Disk → List Step → (taken : List Step) → Disk → Prop
  | here (d : Disk) (steps : List Step) : Crash d steps [] d
  | torn {d d' : Disk} {f : FileName} {bs : Bytes} {rest : List Step} (bytes : Nat)
      (part : d.step (.append f (bs.take bytes)) = some d') : Crash d (.append f bs :: rest) [] d'
  | step {d next d' : Disk} {s : Step} {rest taken : List Step} (takes : d.step s = some next)
      (later : Crash next rest taken d') : Crash d (s :: rest) (s :: taken) d'

/-- A write that stops has left what a crash can leave, and has come to its end if it has taken all
of its steps. -/
theorem crash_of_write {steps : List Step} (h : d.write steps stop = (d', done)) :
    ∃ taken, Crash d steps taken d' ∧ (done = true ↔ taken = steps) := by
  induction steps generalizing d stop with
  | nil =>
    cases h
    exact ⟨[], .here _ [], by simp⟩
  | cons s rest ih =>
    by_cases hstop : ∃ bytes, stop = some ⟨0, bytes⟩
    · obtain ⟨bytes, rfl⟩ := hstop
      cases h
      refine ⟨[], ?_, by simp⟩
      cases s with
      | append f bs =>
        rw [tear]
        cases hpart : d.step (.append f (bs.take bytes)) with
        | none => exact .here _ _
        | some d' => exact .torn bytes hpart
      | _ => exact .here _ _
    · rw [write] at h
      · cases hstep : d.step s with
        | none =>
          rw [hstep] at h
          cases h
          exact ⟨[], .here _ _, by simp⟩
        | some next =>
          rw [hstep] at h
          obtain ⟨taken, hcrash, hdone⟩ := ih h
          exact ⟨s :: taken, .step hstep hcrash, by simp [hdone]⟩
      · exact fun bytes heq => hstop ⟨bytes, heq⟩

theorem Crash.taken_prefix {steps taken : List Step} (h : Crash d steps taken d') :
    taken <+: steps := by
  induction h with
  | here d steps => exact List.nil_prefix
  | torn bytes part => exact List.nil_prefix
  | step takes later ih => exact (List.prefix_cons_inj _).mpr ih

theorem Crash.get {steps taken : List Step} (h : Crash d steps taken d')
    (hf : ∀ s ∈ steps, f ∉ s.files) : d'.get f = d.get f := by
  induction h with
  | here d steps => rfl
  | torn bytes part =>
    have hs := hf _ List.mem_cons_self
    exact get_step part (by simpa [Step.files] using hs)
  | step takes later ih =>
    calc
      _ = _ := ih fun s hs => hf s (List.mem_cons_of_mem _ hs)
      _ = _ := get_step takes (hf _ List.mem_cons_self)

theorem Crash.concat_cases {front taken : List Step} {last : Step}
    (h : Crash d (front ++ [last]) taken d') (hlast : ∀ f bs, last ≠ .append f bs) :
    Crash d front taken d' ∨
      ∃ mid, Crash d front front mid ∧ mid.step last = some d' ∧ taken = front ++ [last] := by
  induction front generalizing d taken with
  | nil =>
    cases h with
    | here => exact Or.inl (.here _ [])
    | torn => exact absurd rfl (hlast _ _)
    | step takes later =>
      cases later with
      | here => exact Or.inr ⟨_, .here _ [], takes, rfl⟩
  | cons s front ih =>
    cases h with
    | here => exact Or.inl (.here _ _)
    | torn bytes part => exact Or.inl (.torn bytes part)
    | step takes later =>
      rcases ih later with hcut | ⟨mid, hfront, hstep, rfl⟩
      · exact Or.inl (.step takes hcut)
      · exact Or.inr ⟨mid, .step takes hfront, hstep, rfl⟩

/-! ## Replacing a file through a draft -/

theorem get_create (h : d.step (.create f) = some d') : d'.get f = some (.file []) := by
  cases d with
  | shelf s =>
    simp only [step] at h
    split at h
    · cases h
      simp [get]
    · cases h
  | missing => cases h
  | blocked => cases h

theorem get_append {bs content : Bytes} (h : d.step (.append f bs) = some d')
    (hf : d.get f = some (.file content)) : d'.get f = some (.file (content ++ bs)) := by
  cases d with
  | shelf s =>
    simp only [get] at hf
    simp only [step, hf] at h
    cases h
    simp [get]
  | missing => cases h
  | blocked => cases h

theorem get_rename {source target : FileName} {content : Bytes}
    (h : d.step (.rename source target) = some d') (hf : d.get source = some (.file content)) :
    d'.get target = some (.file content) := by
  cases d with
  | shelf s =>
    simp only [get] at hf
    simp only [step, hf] at h
    split at h
    · cases h
      simp [get]
    · cases h
  | missing => cases h
  | blocked => cases h

def draftSteps (r : Ballots) : List Step :=
  [.create .draft, .append .draft r.encode, .sync .draft]

theorem get_written_of_crash {bs : Bytes}
    (h : Crash d [.create f, .append f bs, .sync f] [.create f, .append f bs, .sync f] d') :
    d'.get f = some (.file bs) := by
  obtain ⟨d₁, h₁, d₂, h₂, h₃⟩ : ∃ d₁, d.step (.create f) = some d₁ ∧
      ∃ d₂, d₁.step (.append f bs) = some d₂ ∧ d₂.step (.sync f) = some d' := by
    cases h with
    | step h₁ h =>
      cases h with
      | step h₂ h =>
        cases h with
        | step h₃ h =>
          cases h with
          | here => exact ⟨_, h₁, _, h₂, h₃⟩
  simp only [step, Option.map_eq_some_iff] at h₃
  obtain ⟨_, _, rfl⟩ := h₃
  simpa using get_append h₂ (get_create h₁)

theorem get_written {bs : Bytes}
    (h : d.write [.create f, .append f bs, .sync f] stop = (d', true)) :
    d'.get f = some (.file bs) := by
  obtain ⟨taken, hcrash, hdone⟩ := crash_of_write h
  rw [hdone.mp rfl] at hcrash
  exact get_written_of_crash hcrash

theorem get_draft_of_crash {r : Ballots} (h : Crash d (draftSteps r) (draftSteps r) d') :
    d'.get .draft = some (.file r.encode) := get_written_of_crash h

/-- Wherever a crash falls, the vote file is one or the other: what it was, or, once the draft has
been renamed, what it was to become. -/
theorem Crash.saveSteps_cases {r : Ballots} {taken : List Step}
    (h : Crash d r.saveSteps taken d') :
    .rename .draft .votes ∉ taken ∧ d'.get .votes = d.get .votes ∨
      taken = r.saveSteps ∧ d'.get .votes = some (.file r.encode) := by
  have hsplit : r.saveSteps = draftSteps r ++ [.rename .draft .votes] := rfl
  rw [hsplit] at h
  rcases h.concat_cases (by simp) with hcut | ⟨mid, hall, hrename, rfl⟩
  · refine Or.inl ⟨fun hmem => ?_, hcut.get (by simp [draftSteps, Step.files])⟩
    simpa [draftSteps] using hcut.taken_prefix.subset hmem
  · exact Or.inr ⟨rfl, get_rename hrename (get_draft_of_crash hall)⟩

theorem Crash.renamed_iff {r : Ballots} {taken : List Step} (h : Crash d r.saveSteps taken d') :
    .rename .draft .votes ∈ taken ↔ taken = r.saveSteps := by
  constructor
  · intro hmem
    rcases h.saveSteps_cases with ⟨hnot, _⟩ | ⟨hall, _⟩
    · exact absurd hmem hnot
    · exact hall
  · rintro rfl
    simp [Ballots.saveSteps]

theorem Crash.get_votes {r : Ballots} {taken : List Step} (h : Crash d r.saveSteps taken d') :
    d'.get .votes =
      if .rename .draft .votes ∈ taken then some (.file r.encode) else d.get .votes := by
  rcases h.saveSteps_cases with ⟨hnot, hget⟩ | ⟨hall, hget⟩
  · rw [if_neg hnot, hget]
  · rw [if_pos (h.renamed_iff.mpr hall), hget]

/-- Whether or not the write goes through, the vote file is one or the other. -/
theorem get_write_saveSteps {r : Ballots} (h : d.write r.saveSteps stop = (d', done)) :
    d'.get .votes = if done then some (.file r.encode) else d.get .votes := by
  obtain ⟨taken, hcrash, hdone⟩ := crash_of_write h
  rw [hcrash.get_votes]
  simp only [hcrash.renamed_iff, hdone]

end Disk

end Elector
