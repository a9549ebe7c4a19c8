import Elector.Proofs.FailedAppends
import Elector.Proofs.Torn

/-!
# Interrupted appends

A journal is written over in place: its file is emptied first, and only then filled with the new
content. So an append that is interrupted leaves the file as it was or any beginning of what it was
to become (`Crash.rewrite_cases`), and each of them can be what is left (`crash_rewrite`). The file
opens with the entries from before the append, or with the new one behind them, only where the
interruption falls in front of the first step or behind the last byte: in between, an empty file is
taken for a fresh journal, and any other beginning is refused. `interrupted_append` says what
becomes of the file at each place.
-/

namespace Elector

namespace Disk

variable {d d' : Disk} {f : FileName} {bs : Bytes} {taken : List Step}

theorem eq_of_sync (h : d.step (.sync f) = some d') : d' = d := by
  simp only [step, Option.map_eq_some_iff] at h
  obtain ⟨_, _, rfl⟩ := h
  rfl

/-- A crash finds the file as it was, or leaves a beginning of its new content. -/
theorem Crash.rewrite_cases (h : Crash d [.create f, .append f bs, .sync f] taken d') :
    taken = [] ∧ d' = d ∨
      taken ≠ [] ∧ ∃ n ≤ bs.length, d'.get f = some (.file (bs.take n)) := by
  cases h with
  | here => exact Or.inl ⟨rfl, rfl⟩
  | step creates later =>
    refine Or.inr ⟨List.cons_ne_nil _ _, ?_⟩
    have hempty := get_create creates
    cases later with
    | here => exact ⟨0, Nat.zero_le _, hempty⟩
    | torn bytes part =>
      have hpart := get_append part hempty
      rw [List.nil_append, List.take_eq_take_min] at hpart
      exact ⟨min bytes bs.length, Nat.min_le_right _ _, hpart⟩
    | step appends later =>
      have hall := get_append appends hempty
      rw [List.nil_append, ← List.take_length (l := bs)] at hall
      refine ⟨bs.length, Nat.le_refl _, ?_⟩
      cases later with
      | here => exact hall
      | step syncs later =>
        cases later with
        | here => rw [eq_of_sync syncs, hall]

theorem crash_rewrite {shelf : Shelf} (admits : shelf.admits f = true) (bs : Bytes) (n : Nat) :
    ∃ d', Crash (.shelf shelf) [.create f, .append f bs, .sync f] [.create f] d' ∧
      d'.get f = some (.file (bs.take n)) := by
  let created := shelf.set f (some (.file []))
  have hcreate : (Disk.shelf shelf).step (.create f) = some (.shelf created) := if_pos admits
  have hpart : (Disk.shelf created).step (.append f (bs.take n)) =
      some (.shelf (shelf.set f (some (.file (bs.take n))))) := by
    simp [step, created, Shelf.set_set]
  exact ⟨_, .step hcreate (.torn n hpart), by simp [get]⟩

end Disk

namespace Journal

variable {j next : Journal} {d d' : Disk} {e : Entry} {taken : List Disk.Step}

/-- Opening finds one of two journals on the disk. -/
def Survives (j next : Journal) (d : Disk) : Prop :=
  load d = .ok (j, d) ∨ load d = .ok (next, d)

theorem load_take {n : Nat} (fits : Fits next.entries) (hne : next.entries ≠ [])
    (hn : n ≤ next.encode.length) (hfile : d.get .journal = some (.file (next.encode.take n))) :
    n = 0 ∧ load d = .ok (fresh, d) ∨
    n = next.encode.length ∧ load d = .ok (next, d) ∨
    0 < n ∧ n < next.encode.length ∧
      ∃ missing, load d = .error (.unreadable (.unexpectedEnd missing)) := by
  rw [load_file hfile]
  rcases Nat.eq_zero_or_pos n with rfl | hpos
  · exact Or.inl ⟨rfl, rfl⟩
  rcases Nat.eq_or_lt_of_le hn with rfl | hlt
  · rw [List.take_length, ofContent_encode fits hne]
    exact Or.inr (Or.inl ⟨rfl, rfl⟩)
  · have hlength : (next.encode.take n).length = n := List.length_take_of_le hn
    have hsome : next.encode.take n ≠ [] := List.ne_nil_of_length_pos (by omega)
    have hshort : next.encode.take n ≠ next.encode := fun heq => by
      rw [heq] at hlength
      omega
    obtain ⟨missing, hfails⟩ := ofContent_torn fits (List.take_prefix n _) hsome hshort
    exact Or.inr (Or.inr ⟨hpos, hlt, missing, by rw [hfails, Except.map]⟩)

theorem Kept.crash_cases (h : j.Kept d) (hne : j.entries ≠ []) (fits : Fits (j.entries ++ [e]))
    (hnext : next = ⟨j.entries ++ [e]⟩) (cut : d.Crash next.saveSteps taken d') :
    taken = [] ∧ Journal.load d' = .ok (j, d') ∨
    taken ≠ [] ∧ ∃ n ≤ next.encode.length, d'.get .journal = some (.file (next.encode.take n)) ∧
      (n = 0 ∧ Journal.load d' = .ok (fresh, d') ∨
        n = next.encode.length ∧ Journal.load d' = .ok (next, d') ∨
        0 < n ∧ n < next.encode.length ∧
          ∃ missing, Journal.load d' = .error (.unreadable (.unexpectedEnd missing))) := by
  subst hnext
  rcases cut.rewrite_cases with ⟨htaken, rfl⟩ | ⟨htaken, n, hn, hfile⟩
  · exact Or.inl ⟨htaken, h.load hne fits.of_append⟩
  · exact Or.inr ⟨htaken, n, hn, hfile, load_take fits (by simp) hn hfile⟩

/-- What an interrupted append leaves survives if no step was taken, if all bytes are there, or if
there was nothing to lose yet and the file is still empty. -/
theorem Kept.survives_iff (h : j.Kept d) (hne : j.entries ≠ []) (fits : Fits (j.entries ++ [e]))
    (hnext : next = ⟨j.entries ++ [e]⟩) (cut : d.Crash next.saveSteps taken d') :
    Survives j next d' ↔ taken = [] ∨ d'.get .journal = some (.file next.encode) ∨
      j = fresh ∧ d'.get .journal = some (.file []) := by
  have hlonger : fresh ≠ next := by
    intro heq
    have hentries : [origin] = j.entries ++ [e] := congrArg Journal.entries (heq.trans hnext)
    have hlength := congrArg List.length hentries
    have hpos := List.length_pos_iff.mpr hne
    rw [List.length_append, List.length_singleton, List.length_singleton] at hlength
    omega
  rcases h.crash_cases hne fits hnext cut with ⟨htaken, hload⟩ | ⟨htaken, n, hn, hfile, hcases⟩
  · exact ⟨fun _ => Or.inl htaken, fun _ => Or.inl hload⟩
  rw [Survives, hfile, Option.some.injEq, Item.file.injEq, Option.some.injEq, Item.file.injEq]
  rcases hcases with ⟨rfl, hload⟩ | ⟨rfl, hload⟩ | ⟨hpos, hlt, missing, hload⟩
  · -- Nothing is left but a fresh journal.
    rw [hload, List.take_zero]
    constructor
    · rintro (hold | hnew)
      · cases hold
        exact Or.inr (Or.inr ⟨rfl, rfl⟩)
      · cases hnew
        exact absurd rfl hlonger
    · rintro (hnone | hall | ⟨rfl, _⟩)
      · exact absurd hnone htaken
      · exact absurd hall.symm next.encode_ne_nil
      · exact Or.inl rfl
  · rw [List.take_length]
    exact ⟨fun _ => Or.inr (Or.inl rfl), fun _ => Or.inr hload⟩
  · have hlength : (next.encode.take n).length = n := List.length_take_of_le hn
    rw [hload]
    constructor
    · rintro (hold | hnew)
      · cases hold
      · cases hnew
    · rintro (hnone | hall | ⟨_, hempty⟩)
      · exact absurd hnone htaken
      · rw [hall] at hlength
        omega
      · rw [hempty] at hlength
        exact absurd hlength (Nat.ne_of_lt hpos)

/-- Where a disk has room for a journal, any uses of it keep the journal and the disk together. -/
theorem kept_of_uses {start : Disk} {shelf : Shelf} (room : start.prepare = some (.shelf shelf))
    (empty : shelf.get .journal = none) (short : .journal ∉ shelf.tooFar) (uses : List Use)
    (fits : Fits (listed uses)) :
    ∃ d indices, openAndUse start uses = .ok (⟨listed uses⟩, d, indices) ∧
      Kept ⟨listed uses⟩ d := by
  have hload : load start = .ok (fresh, .shelf shelf) := by
    have hnone : (Disk.shelf shelf).get .journal = none := empty
    simp only [load, room, hnone]
  obtain ⟨d, huse, hkept⟩ := (kept_fresh empty short).useAll (by simp [fresh]) uses fits
  rw [openAndUse, hload]
  exact ⟨d, _, huse, hkept⟩

/-- **An interrupted append can cost the journal.** Take a journal that was filled by any uses of a
disk that has room for it, and append one more entry. However far the write gets, by a crash or by
an error that the append returns, only the journal's file changes. If no step was taken, the journal
opens as it was. Otherwise its file holds a beginning of the new content, and each beginning can be
what is left: none of it opens as a fresh journal, all of it as the journal with the new entry, and
any other is refused. So what was there before is still there exactly if no step was taken, all
bytes were written, or there was no entry to lose and the file is still empty. -/
theorem interrupted_append {start : Disk} {shelf : Shelf}
    (room : start.prepare = some (.shelf shelf)) (empty : shelf.get .journal = none)
    (short : .journal ∉ shelf.tooFar) (uses : List Use) (e : Entry)
    (fits : Fits (listed uses ++ [e])) :
    let j : Journal := ⟨listed uses⟩
    let next : Journal := ⟨listed uses ++ [e]⟩
    ∃ d indices, openAndUse start uses = .ok (j, d, indices) ∧
      (∀ taken d', d.Crash next.saveSteps taken d' →
        (∀ f, f ≠ .journal → d'.get f = d.get f) ∧
        (taken = [] ∧ load d' = .ok (j, d') ∨
          taken ≠ [] ∧ ∃ n ≤ next.encode.length,
            d'.get .journal = some (.file (next.encode.take n)) ∧
            (n = 0 ∧ load d' = .ok (fresh, d') ∨
              n = next.encode.length ∧ load d' = .ok (next, d') ∨
              0 < n ∧ n < next.encode.length ∧
                ∃ missing, load d' = .error (.unreadable (.unexpectedEnd missing)))) ∧
        (Survives j next d' ↔ taken = [] ∨ d'.get .journal = some (.file next.encode) ∨
          j = fresh ∧ d'.get .journal = some (.file []))) ∧
      (∀ n, ∃ d', d.Crash next.saveSteps [.create .journal] d' ∧
        d'.get .journal = some (.file (next.encode.take n))) ∧
      ∀ stop, ∃ taken d', d.Crash next.saveSteps taken d' ∧
        j.append e d stop =
          (next, d', if taken = next.saveSteps then .ok next.lastIndex else .error .io) := by
  intro j next
  have hne : j.entries ≠ [] := List.cons_ne_nil _ _
  obtain ⟨d, indices, huse, hkept⟩ := kept_of_uses room empty short uses fits.of_append
  refine ⟨d, indices, huse, fun taken d' cut => ⟨fun f hf => ?_, ?_, ?_⟩, fun n => ?_, fun stop => ?_⟩
  · exact cut.get (by simp [saveSteps, Disk.Step.files, hf])
  · exact hkept.crash_cases hne fits rfl cut
  · exact hkept.survives_iff hne fits rfl cut
  · obtain ⟨shelf', rfl, hadmits⟩ := hkept.room
    exact Disk.crash_rewrite hadmits next.encode n
  · rcases hwrite : d.write next.saveSteps stop with ⟨d', done⟩
    obtain ⟨taken, cut, hdone⟩ := Disk.crash_of_write hwrite
    have happend := append_eq j e d stop
    simp only at happend
    rw [hwrite] at happend
    simp only [hdone] at happend
    exact ⟨taken, d', cut, happend⟩

/-! A journal with one entry of its own, to which a second one is to be appended. -/

def loggedUses : List Use := [.append ⟨-70000, [1, 2, 3]⟩, .reopen]

/-- Five bytes into the new file, inside the first entry that the old one held. -/
theorem interrupted_append_loggedUses :
    ∃ d indices, openAndUse .missing loggedUses = .ok (⟨listed loggedUses⟩, d, indices) ∧
      ∃ d', d.Crash (saveSteps ⟨listed loggedUses ++ [⟨5, []⟩]⟩) [.create .journal] d' ∧
        d'.get .journal = some (.file [3, 0, 0, 252, 223]) ∧
        ¬ Survives ⟨listed loggedUses⟩ ⟨listed loggedUses ++ [⟨5, []⟩]⟩ d' := by
  have room : Disk.missing.prepare = some (.shelf {}) := rfl
  have fits : Fits (listed loggedUses ++ [⟨5, []⟩]) := ⟨by decide, by decide⟩
  obtain ⟨d, indices, huse, hcut, hevery, _⟩ :=
    interrupted_append room rfl (by decide) loggedUses ⟨5, []⟩ fits
  obtain ⟨d', cut, hfile⟩ := hevery 5
  refine ⟨d, indices, huse, d', cut, hfile, fun hsurvives => ?_⟩
  rcases (hcut _ d' cut).2.2.mp hsurvives with hnone | hall | ⟨hfresh, _⟩
  · cases hnone
  · rw [hfile] at hall
    exact absurd hall (by decide)
  · exact absurd hfresh (by decide)

def onceFilled : Journal where
  entries := [origin, ⟨1, []⟩]

def twiceFilled : Journal where
  entries := [origin, ⟨1, []⟩, ⟨2, [7]⟩]

def onceFilledDisk : Disk := .shelf { journal := some (.file onceFilled.encode) }

/-- The append fails as soon as the file has been emptied, and its one entry is gone when the
journal is opened again; and a crash three bytes later leaves a file that does not open at all. -/
theorem cut_append_loses_entries :
    openAndUse .missing [.append ⟨1, []⟩] = .ok (onceFilled, onceFilledDisk, [1]) ∧
    (∃ d, onceFilledDisk.Crash twiceFilled.saveSteps [.create .journal] d ∧
      onceFilled.append ⟨2, [7]⟩ onceFilledDisk (some ⟨1, 0⟩) = (twiceFilled, d, .error .io) ∧
      load d = .ok (fresh, d) ∧ ¬ Survives onceFilled twiceFilled d) ∧
    ∃ d, onceFilledDisk.Crash twiceFilled.saveSteps [.create .journal] d ∧
      load d = .error (.unreadable (.unexpectedEnd 1)) ∧ ¬ Survives onceFilled twiceFilled d := by
  have hcreate : onceFilledDisk.step (.create .journal) =
      some (.shelf { journal := some (.file []) }) := rfl
  refine ⟨rfl, ⟨_, .step hcreate (.here _ _), rfl, rfl, ?_⟩, _, .step hcreate (.torn 3 rfl), rfl, ?_⟩
  · rintro (hold | hnew)
    · cases hold
    · cases hnew
  · rintro (hold | hnew)
    · cases hold
    · cases hnew

end Journal

end Elector
