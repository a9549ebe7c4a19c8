import Elector.Node
import Elector.Proofs.Journal

/-!
# Appends that fail

A journal takes an entry in before it writes itself out, and keeps it when writing fails
(`append_eq`). So a refused entry counts in the journal's positions like any other, and is written
with the next entry that is not refused. `refused_entries_stay` says what a journal is after any
appends, whether they succeeded or failed: it is the list of the entries that were accepted only if
no append has failed.
-/

namespace Elector.Journal

/-- An append, with the disk that it finds and the place where its write is interrupted. -/
structure Attempt where
  entry : Entry
  disk : Disk
  stop : Option Disk.Interruption := none
deriving DecidableEq, Repr

def attempt (j : Journal) (a : Attempt) : Journal × Disk × Except JournalError LogIndex :=
  j.append a.entry a.disk a.stop

def afterAttempts (j : Journal) (attempts : List Attempt) : Journal :=
  attempts.foldl (fun j a => (j.attempt a).1) j

def accepted (j : Journal) : List Attempt → List Entry
  | [] => []
  | a :: rest =>
    match j.attempt a with
    | (j, _, .ok _) => a.entry :: j.accepted rest
    | (j, _, .error _) => j.accepted rest

def refused (j : Journal) : List Attempt → List Entry
  | [] => []
  | a :: rest =>
    match j.attempt a with
    | (j, _, .ok _) => j.refused rest
    | (j, _, .error _) => a.entry :: j.refused rest

variable {j : Journal} {d d' : Disk} {e : Entry} {a : Attempt} {attempts : List Attempt}
  {stop : Option Disk.Interruption} {i index : LogIndex}

/-! ## One append -/

theorem append_eq (j : Journal) (e : Entry) (d : Disk) (stop : Option Disk.Interruption) :
    let next : Journal := ⟨j.entries ++ [e]⟩
    let written := d.write next.saveSteps stop
    j.append e d stop =
      (next, written.1, if written.2 = true then .ok next.lastIndex else .error .io) := by
  intro next written
  rw [append]
  rcases hwrite : d.write next.saveSteps stop with ⟨d', done⟩
  cases done <;> simp [next, written, hwrite]

theorem entries_attempt (j : Journal) (a : Attempt) :
    (j.attempt a).1 = ⟨j.entries ++ [a.entry]⟩ := by
  rw [attempt, append_eq]

theorem get_of_append (h : (j.append e d stop).2.2 = .ok index) :
    index = lastIndex ⟨j.entries ++ [e]⟩ ∧
      (j.append e d stop).2.1.get .journal = some (.file (encode ⟨j.entries ++ [e]⟩)) := by
  rw [append_eq] at h ⊢
  rcases hwrite : d.write (saveSteps ⟨j.entries ++ [e]⟩) stop with ⟨d', done⟩
  rw [hwrite] at h
  cases done with
  | false => cases h
  | true =>
    cases h
    exact ⟨rfl, Disk.get_written hwrite⟩

theorem lastIndex_concat (j : Journal) (e : Entry) :
    lastIndex ⟨j.entries ++ [e]⟩ = j.lastIndex + 1 := by
  rw [lastIndex_eq (by simp), lastIndex, Int64.sub_add_cancel]
  simp

theorem toInt_lastIndex_concat (hcount : (j.entries ++ [e]).length < 2 ^ 63) :
    (lastIndex ⟨j.entries ++ [e]⟩).toInt = j.entries.length := by
  rw [toInt_lastIndex (by simp) hcount]
  simp

theorem term_concat (hcount : (j.entries ++ [e]).length < 2 ^ 63) :
    term? ⟨j.entries ++ [e]⟩ i =
      if i = lastIndex ⟨j.entries ++ [e]⟩ then some e.term else j.term? i := by
  have hlength : (j.entries ++ [e]).length = j.entries.length + 1 := by simp
  have hnext := toInt_lastIndex_concat hcount
  split
  · rename_i hlast
    rw [term_inside (k := j.entries.length) (by simp) (hlast ▸ hnext)]
    simp
  rename_i hlast
  have hne : i.toInt ≠ j.entries.length := fun heq =>
    hlast (Int64.toInt_inj.mp (heq.trans hnext.symm))
  by_cases hinside : 0 ≤ i.toInt ∧ i.toInt < j.entries.length
  · obtain ⟨k, hk⟩ := Int.eq_ofNat_of_zero_le hinside.1
    have hlt : k < j.entries.length := by omega
    rw [term_inside (j := j) hlt hk, term_inside (k := k) (by simp; omega) hk]
    simp only [List.getElem_append_left hlt]
  · rw [term_outside (j := j) (by omega), term_outside]
    simp only [hlength]
    omega

/-! ## Any appends -/

theorem entries_afterAttempts (j : Journal) (attempts : List Attempt) :
    (j.afterAttempts attempts).entries = j.entries ++ attempts.map Attempt.entry := by
  induction attempts generalizing j with
  | nil => exact (List.append_nil _).symm
  | cons a rest ih =>
    rw [afterAttempts, List.foldl_cons, ← afterAttempts, ih, entries_attempt, List.map_cons,
      List.append_assoc, List.singleton_append]

theorem accepted_sublist (j : Journal) (attempts : List Attempt) :
    (j.accepted attempts).Sublist (attempts.map Attempt.entry) ∧
      (j.accepted attempts).length + (j.refused attempts).length = attempts.length := by
  induction attempts generalizing j with
  | nil => exact ⟨List.Sublist.slnil, rfl⟩
  | cons a rest ih =>
    rw [accepted, refused, List.map_cons]
    rcases j.attempt a with ⟨j', d', result⟩
    obtain ⟨hsub, hlength⟩ := ih j'
    cases result with
    | ok index =>
      refine ⟨hsub.cons_cons _, ?_⟩
      simp only [List.length_cons]
      omega
    | error cause =>
      refine ⟨hsub.cons _, ?_⟩
      simp only [List.length_cons]
      omega

/-- Only if nothing has been refused are the accepted entries all that were tried. -/
theorem accepted_eq_iff : j.accepted attempts = attempts.map Attempt.entry ↔
    j.refused attempts = [] := by
  obtain ⟨hsub, hlength⟩ := accepted_sublist j attempts
  rw [← List.length_eq_zero_iff]
  constructor
  · intro hall
    rw [hall, List.length_map] at hlength
    omega
  · intro hnone
    exact hsub.eq_of_length (by rw [List.length_map]; omega)

/-- **Refused entries stay.** After any appends a journal holds what it held before them and every
entry that was to be appended, whether the append succeeded or failed; so it holds the accepted
entries and nothing else only if none was refused. An entry whose append fails moves the last
position on like any other, and a node that votes by the journal goes by that position. It changes
nothing in front of it, and it is written to the file with the next entry that is accepted. -/
theorem refused_entries_stay (opened : Journal) (attempts : List Attempt) (a : Attempt)
    (fits : Fits (opened.entries ++ attempts.map Attempt.entry ++ [a.entry])) :
    let j := opened.afterAttempts attempts
    let next := (j.attempt a).1
    j.entries = opened.entries ++ attempts.map Attempt.entry ∧
    (j.entries = opened.entries ++ opened.accepted attempts ↔ opened.refused attempts = []) ∧
    next.lastIndex.toInt = opened.entries.length + attempts.length ∧
    next.lastIndex = j.lastIndex + 1 ∧ next.position = ⟨a.entry.term, next.lastIndex⟩ ∧
    (∀ i, next.term? i = if i = next.lastIndex then some a.entry.term else j.term? i) ∧
    (∀ n : Node, n.storage.log = .journal j →
      ({ n with storage := (n.storage.appendEntry a.entry).1 } : Node).position = next.position) ∧
    ∀ index, (j.attempt a).2.2 = .ok index → index = next.lastIndex ∧
      ∃ content, (j.attempt a).2.1.get .journal = some (.file content) ∧
        Compact.list readEntry content =
          .ok (opened.entries ++ attempts.map Attempt.entry ++ [a.entry], []) := by
  intro j next
  have hentries : j.entries = opened.entries ++ attempts.map Attempt.entry :=
    entries_afterAttempts opened attempts
  have hnext : next = ⟨j.entries ++ [a.entry]⟩ := entries_attempt j a
  rw [← hentries] at fits
  have hlast : (j.entries ++ [a.entry]).getLast? = some a.entry := List.getLast?_concat
  rw [hnext]
  refine ⟨hentries, ?_, ?_, lastIndex_concat j a.entry, ?_, fun i => term_concat fits.count,
    fun n hlog => ?_, fun index hok => ?_⟩
  · rw [hentries, List.append_cancel_left_eq, eq_comm]
    exact accepted_eq_iff
  · rw [toInt_lastIndex_concat fits.count, hentries, List.length_append, List.length_map]
    exact Int.natCast_add _ _
  · rw [Position.mk.injEq]
    exact ⟨term_position hlast fits.count, rfl⟩
  · have happend : (n.storage.appendEntry a.entry).1.log = .journal ⟨j.entries ++ [a.entry]⟩ := by
      simp only [Storage.appendEntry, hlog, append_eq]
    rw [Node.position, Storage.position, happend]
    rfl
  · obtain ⟨hindex, hfile⟩ := get_of_append hok
    have hread := list_encode (j := ⟨j.entries ++ [a.entry]⟩) fits []
    rw [List.append_nil] at hread
    exact ⟨hindex, _, hfile, hentries ▸ hread⟩

/-! A folder takes the place of the file before the second of three appends, and is gone again
before the third. -/

def spoiltAttempts : List Attempt :=
  [⟨⟨1, []⟩, .shelf {}, none⟩, ⟨⟨5, [0xaa]⟩, .shelf { journal := some .folder }, none⟩]

def lateAttempt : Attempt := ⟨⟨6, []⟩, .shelf {}, none⟩

theorem refused_entries_stay_spoiltAttempts :
    let j := fresh.afterAttempts spoiltAttempts
    fresh.refused spoiltAttempts = [⟨5, [0xaa]⟩] ∧ j.position = ⟨5, 2⟩ ∧
    (j.attempt lateAttempt).2.2 = .ok 3 ∧
    ∃ content, (j.attempt lateAttempt).2.1.get .journal = some (.file content) ∧
      Compact.list readEntry content =
        .ok ([origin, ⟨1, []⟩, ⟨5, [0xaa]⟩, ⟨6, []⟩], []) := by
  have fits : Fits (fresh.entries ++ spoiltAttempts.map Attempt.entry ++ [lateAttempt.entry]) :=
    ⟨by decide, by decide⟩
  obtain ⟨_, _, _, _, _, _, _, hfile⟩ := refused_entries_stay fresh spoiltAttempts lateAttempt fits
  have hok : ((fresh.afterAttempts spoiltAttempts).attempt lateAttempt).2.2 = .ok 3 := rfl
  exact ⟨by decide, by decide, hok, (hfile 3 hok).2⟩

/-- A node that votes by the journal as it is when the folder stands in its way. -/
def spoiltVoter : Node where
  roster := .of 1 [2, 3]
  term := 0
  role := .follower
  leader := none
  vote := none
  storage :=
    { disk := .shelf { journal := some .folder }
      log := .journal (fresh.afterAttempts (spoiltAttempts.take 1)) }

/-- A refused append has changed the last position and the term at an index, its entry comes to be
written, and a candidate whose log has all that was accepted does not get the vote that it would
have got before. -/
theorem refused_append_leaves_traces :
    let before := fresh.afterAttempts (spoiltAttempts.take 1)
    let after := fresh.afterAttempts spoiltAttempts
    let ask := Message.voteRequest { candidate := 2, term := 1, last := before.position }
    before.refused (spoiltAttempts.drop 1) = [⟨5, [0xaa]⟩] ∧
    before.position = ⟨1, 1⟩ ∧ after.position = ⟨5, 2⟩ ∧
    before.term? 2 = none ∧ after.term? 2 = some 5 ∧
    (after.attempt lateAttempt).2.1.get .journal =
      some (.file (encode ⟨[origin, ⟨1, []⟩, ⟨5, [0xaa]⟩, ⟨6, []⟩]⟩)) ∧
    (spoiltVoter.onMessage ask).2 = .ok [.resetElectionTimer,
      .send 2 (.voteResponse { voter := 1, term := 1, granted := true })] ∧
    ∃ s, spoiltVoter.storage.appendEntry ⟨5, [0xaa]⟩ = (s, .error .io) ∧
      (({ spoiltVoter with storage := s } : Node).onMessage ask).2 = .ok [.resetElectionTimer,
        .send 2 (.voteResponse { voter := 1, term := 1, granted := false })] :=
  ⟨by decide, by decide, by decide, by decide, by decide, by decide, rfl, _, rfl, rfl⟩

end Elector.Journal
