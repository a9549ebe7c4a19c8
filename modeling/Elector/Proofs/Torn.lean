import Elector.Proofs.Ballots
import Elector.Proofs.Journal

/-!
# Torn files

The durable format never takes a part for the whole. A reader `Needs` a byte string if it runs out
of bytes on every beginning of it, and every reader of the format needs what its writer puts down:
numbers need the bytes that their tags announce (`needs_count`, `needs_word`), byte strings and
lists as many as their counts say (`needs_bytes`, `needs_list`), and what is made of two parts needs
the second as well as the first (`Needs.append`).

So a file that holds no more than the beginning of ballots or of a journal is refused, whatever it
was to hold. `torn_files_are_refused` says this next to what complete files give back.
-/

namespace Elector

namespace Compact

/-- On every beginning of `bs` that is not all of it, the reader runs out of bytes. -/
def Needs {α : Type} (read : Reader α) (bs : Bytes) : Prop :=
  ∀ n < bs.length, ∃ missing, read (bs.take n) = .error (.unexpectedEnd missing)

section Readers

variable {α β γ : Type} {first : Reader α} {read : Reader β} {front back bs : Bytes}

theorem needs_nil (read : Reader α) : Needs read [] := fun _ hn => absurd hn (Nat.not_lt_zero _)

theorem needs_single {b : UInt8} (empty : read [] = .error (.unexpectedEnd 1)) :
    Needs read [b] := by
  intro n hn
  rw [List.length_singleton, Nat.lt_one_iff] at hn
  rw [hn, List.take_zero]
  exact ⟨1, empty⟩

theorem Needs.of_fails (h : Needs first bs)
    (fails : ∀ bs e, first bs = .error e → read bs = .error e) : Needs read bs := by
  intro n hn
  obtain ⟨missing, hfails⟩ := h n hn
  exact ⟨missing, fails _ _ hfails⟩

/-- A reader that reads one part and then another: a cut falls into the first part, or leaves the
first part whole and falls into the second. -/
theorem Needs.append {second : Reader γ} (hfront : Needs first front) (hback : Needs second back)
    (stops : ∀ bs e, first bs = .error e → read bs = .error e)
    (goesOn : ∀ bs e, second bs = .error e → read (front ++ bs) = .error e) :
    Needs read (front ++ back) := by
  intro n hn
  rw [List.length_append] at hn
  by_cases hcut : n < front.length
  · rw [List.take_append_of_le_length (Nat.le_of_lt hcut)]
    exact hfront.of_fails stops n hcut
  · rw [List.take_append, List.take_of_length_le (Nat.not_lt.mp hcut)]
    obtain ⟨missing, hfails⟩ := hback (n - front.length) (by omega)
    exact ⟨missing, goesOn _ _ hfails⟩

/-- Behind a tag those bytes are needed that the reader needs which the tag calls for. -/
theorem Needs.tagged {tag : UInt8} (h : Needs first bs)
    (empty : read [] = .error (.unexpectedEnd 1))
    (fails : ∀ rest e, first rest = .error e → read (tag :: rest) = .error e) :
    Needs read (tag :: bs) := by
  intro n hn
  cases n with
  | zero => exact ⟨1, empty⟩
  | succ n =>
    obtain ⟨missing, hfails⟩ := h n (by simpa using hn)
    exact ⟨missing, fails _ _ hfails⟩

/-! ## Numbers -/

theorem needs_take (bs : Bytes) : Needs (take bs.length) bs := by
  intro n hn
  have hlength : (bs.take n).length = n := List.length_take_of_le (Nat.le_of_lt hn)
  exact ⟨bs.length - n, by rw [take, hlength, if_neg (by omega)]⟩

theorem needs_fixed (width n : Nat) : Needs (fixed width) (leBytes width n) := by
  have htake := needs_take (leBytes width n)
  rw [length_leBytes] at htake
  exact htake.of_fails fun bs e hfails => by rw [fixed, hfails]

theorem needs_count (n : Nat) : Needs count (encodeNat n) := by
  have hempty : count [] = .error (.unexpectedEnd 1) := rfl
  by_cases h8 : n ≤ 250
  · rw [encodeNat_small h8]
    exact needs_single hempty
  · by_cases h16 : n < 0x10000
    · rw [encodeNat_two (by omega) h16]
      exact (needs_fixed 2 n).tagged hempty fun rest e hfails => hfails
    · by_cases h32 : n < 0x100000000
      · rw [encodeNat_four (by omega) h32]
        exact (needs_fixed 4 n).tagged hempty fun rest e hfails => hfails
      · rw [encodeNat_eight (by omega)]
        exact (needs_fixed 8 n).tagged hempty fun rest e hfails => hfails

theorem ofFold_error {e : CompactError} {result : Except CompactError (Nat × Bytes)}
    (h : result = .error e) : word.ofFold result = .error e := by
  rw [h, word.ofFold]

theorem needs_word (w : Int32) : Needs word (encodeWord w) := by
  have hempty : word [] = .error (.unexpectedEnd 1) := rfl
  rw [encodeWord]
  by_cases h8 : fold w.toInt ≤ 250
  · rw [encodeNat_small h8]
    exact needs_single hempty
  · by_cases h16 : fold w.toInt < 0x10000
    · rw [encodeNat_two (by omega) h16]
      exact (needs_fixed 2 _).tagged hempty fun rest e hfails => ofFold_error hfails
    · rw [encodeNat_four (by omega) (fold_lt w)]
      exact (needs_fixed 4 _).tagged hempty fun rest e hfails => ofFold_error hfails

/-! ## Byte strings and lists -/

theorem needs_bytes (h : bs.length < 2 ^ 64) : Needs bytes (encodeBytes bs) := by
  refine (needs_count bs.length).append (needs_take bs) ?_ ?_
  · intro bs e hfails
    rw [bytes, hfails]
  · intro rest e hfails
    rw [bytes, count_encodeNat _ h]
    exact hfails

variable {item : Reader α} {encode : α → Bytes}

theorem needs_items (xs : List α)
    (whole : ∀ x ∈ xs, ∀ rest, item (encode x ++ rest) = .ok (x, rest))
    (needs : ∀ x ∈ xs, Needs item (encode x)) :
    Needs (items item xs.length) (xs.flatMap encode) := by
  induction xs with
  | nil => exact needs_nil _
  | cons x xs ih =>
    have hrest : Needs (items item xs.length) (xs.flatMap encode) :=
      ih (fun y hy => whole y (List.mem_cons_of_mem _ hy))
        (fun y hy => needs y (List.mem_cons_of_mem _ hy))
    rw [List.flatMap_cons, List.length_cons]
    refine (needs x List.mem_cons_self).append hrest ?_ ?_
    · intro bs e hfails
      rw [items, hfails]
    · intro rest e hfails
      rw [items, whole x List.mem_cons_self]
      simp only [hfails]

theorem needs_list (xs : List α)
    (whole : ∀ x ∈ xs, ∀ rest, item (encode x ++ rest) = .ok (x, rest))
    (needs : ∀ x ∈ xs, Needs item (encode x)) (hlen : xs.length < 2 ^ 64) :
    Needs (list item) (encodeList encode xs) := by
  refine (needs_count xs.length).append (needs_items xs whole needs) ?_ ?_
  · intro bs e hfails
    rw [list, hfails]
  · intro rest e hfails
    rw [list, count_encodeNat _ hlen]
    exact hfails

theorem Needs.torn {torn : Bytes} (h : Needs first bs) (part : torn <+: bs) (short : torn ≠ bs) :
    ∃ missing, first torn = .error (.unexpectedEnd missing) := by
  have hlength : torn.length < bs.length :=
    Nat.lt_of_le_of_ne part.length_le fun heq => short (part.eq_of_length heq)
  rw [List.prefix_iff_eq_take.mp part]
  exact h torn.length hlength

end Readers

end Compact

/-! ## Ballots -/

namespace Ballots

theorem needs_readVote (v : Term × NodeId) : Compact.Needs readVote (encodeVote v) := by
  refine (Compact.needs_word v.1).append (Compact.needs_word v.2) ?_ ?_
  · intro bs e hfails
    rw [readVote, hfails]
  · intro rest e hfails
    rw [readVote, Compact.word_encodeWord]
    simp only [hfails]

theorem needs_read (r : Ballots) : Compact.Needs read r.encode := by
  have hlen : r.votes.entries.length < 2 ^ 64 :=
    Nat.lt_of_le_of_lt r.votes.length_entries_le (by decide)
  have hvotes := Compact.needs_list r.votes.entries
    (fun v _ => readVote_encodeVote v) (fun v _ => needs_readVote v) hlen
  refine (Compact.needs_word r.term).append hvotes ?_ ?_
  · intro bs e hfails
    rw [read, hfails]
  · intro rest e hfails
    rw [read, Compact.word_encodeWord]
    simp only [hfails]

theorem load_file {d : Disk} {content : Bytes} (h : d.get .votes = some (.file content)) :
    load d = (ofContent content).map fun r => (r, d) := by
  cases d with
  | missing => cases h
  | blocked => cases h
  | shelf s =>
    have hprepare : (Disk.shelf s).prepare = some (.shelf s) := rfl
    simp only [load, hprepare, h]
    cases ofContent content <;> rfl

theorem ofContent_append (r : Ballots) (rest : Bytes) : ofContent (r.encode ++ rest) = .ok r := by
  have hne : r.encode ++ rest ≠ [] := List.append_ne_nil_of_left_ne_nil r.encode_ne_nil _
  rw [ofContent, if_neg hne, read_encode]

theorem ofContent_torn {r : Ballots} {torn : Bytes} (part : torn <+: r.encode)
    (begun : torn ≠ []) (short : torn ≠ r.encode) :
    ∃ missing, ofContent torn = .error (.unreadable (.unexpectedEnd missing)) := by
  obtain ⟨missing, hfails⟩ := r.needs_read.torn part short
  exact ⟨missing, by rw [ofContent, if_neg begun, hfails]⟩

end Ballots

/-! ## Journals -/

namespace Journal

variable {j : Journal} {e : Entry}

theorem needs_readEntry (h : e.command.length < 2 ^ 64) :
    Compact.Needs readEntry (encodeEntry e) := by
  refine (Compact.needs_word e.term).append (Compact.needs_bytes h) ?_ ?_
  · intro bs e hfails
    rw [readEntry, hfails]
  · intro rest e hfails
    rw [readEntry, Compact.word_encodeWord]
    simp only [hfails]

theorem needs_encode (fits : Fits j.entries) : Compact.Needs (Compact.list readEntry) j.encode := by
  have hcount := fits.count
  exact Compact.needs_list j.entries (fun e hmem => readEntry_encodeEntry (fits.commands e hmem))
    (fun e hmem => needs_readEntry (fits.commands e hmem)) (by omega)

theorem load_file {d : Disk} {content : Bytes} (h : d.get .journal = some (.file content)) :
    load d = (ofContent content).map fun j => (j, d) := by
  cases d with
  | missing => cases h
  | blocked => cases h
  | shelf s =>
    have hprepare : (Disk.shelf s).prepare = some (.shelf s) := rfl
    simp only [load, hprepare, h]
    cases ofContent content <;> rfl

theorem ofContent_append (fits : Fits j.entries) (rest : Bytes) :
    ofContent (j.encode ++ rest) = .ok (ofEntries j.entries) := by
  have hne : j.encode ++ rest ≠ [] := List.append_ne_nil_of_left_ne_nil j.encode_ne_nil _
  rw [ofContent, if_neg hne, list_encode fits]

theorem ofContent_torn {torn : Bytes} (fits : Fits j.entries) (part : torn <+: j.encode)
    (begun : torn ≠ []) (short : torn ≠ j.encode) :
    ∃ missing, ofContent torn = .error (.unreadable (.unexpectedEnd missing)) := by
  obtain ⟨missing, hfails⟩ := (needs_encode fits).torn part short
  exact ⟨missing, by rw [ofContent, if_neg begun, hfails]⟩

end Journal

/-- **A torn file is refused, never misread.** Once ballots have been written, the file of votes
holds their encoding; with anything behind it, it opens as these ballots, and cut off anywhere
behind its first byte it is refused as unreadable, for want of bytes. The same goes for journals and
their file, of any entries whose counts fit the machine's words; a journal of no entries opens with
the one that a fresh journal starts with. -/
theorem torn_files_are_refused :
    (∀ (r : Ballots) (d : Disk),
      (∀ stop d', d.write r.saveSteps stop = (d', true) →
        d'.get .votes = some (.file r.encode)) ∧
      (∀ rest, d.get .votes = some (.file (r.encode ++ rest)) → Ballots.load d = .ok (r, d)) ∧
      ∀ torn, torn <+: r.encode → torn ≠ [] → torn ≠ r.encode → d.get .votes = some (.file torn) →
        ∃ missing, Ballots.load d = .error (.unreadable (.unexpectedEnd missing))) ∧
    ∀ (j : Journal) (d : Disk), Journal.Fits j.entries →
      (∀ stop d', d.write j.saveSteps stop = (d', true) →
        d'.get .journal = some (.file j.encode)) ∧
      (∀ rest, d.get .journal = some (.file (j.encode ++ rest)) →
        Journal.load d = .ok (if j.entries = [] then Journal.fresh else j, d)) ∧
      ∀ torn, torn <+: j.encode → torn ≠ [] → torn ≠ j.encode → d.get .journal = some (.file torn) →
        ∃ missing, Journal.load d = .error (.unreadable (.unexpectedEnd missing)) := by
  refine ⟨fun r d => ⟨?_, ?_, ?_⟩, fun j d fits => ⟨?_, ?_, ?_⟩⟩
  · intro stop d' hwrite
    exact Disk.get_write_saveSteps hwrite
  · intro rest hfile
    rw [Ballots.load_file hfile, Ballots.ofContent_append, Except.map]
  · intro torn part begun short hfile
    obtain ⟨missing, hfails⟩ := Ballots.ofContent_torn part begun short
    exact ⟨missing, by rw [Ballots.load_file hfile, hfails, Except.map]⟩
  · intro stop d' hwrite
    exact Disk.get_written hwrite
  · intro rest hfile
    rw [Journal.load_file hfile, Journal.ofContent_append fits, Except.map]
    cases j with
    | mk entries => cases entries <;> rfl
  · intro torn part begun short hfile
    obtain ⟨missing, hfails⟩ := Journal.ofContent_torn fits part begun short
    exact ⟨missing, by rw [Journal.load_file hfile, hfails, Except.map]⟩

/-- A vote for a member of negative id, in a term that takes four bytes. -/
def farVote : Ballots where
  term := 70000
  votes := .ofList [(70000, -5)]

def shortJournal : Journal where
  entries := [Journal.origin, ⟨-70000, [1, 2, 3]⟩]

/-- The vote is cut off inside its term, the journal inside its command. -/
theorem torn_files_are_refused_farVote :
    farVote.encode = [252, 224, 34, 2, 0, 1, 252, 224, 34, 2, 0, 9] ∧
    (∃ missing, Ballots.load (.shelf { votes := some (.file [252, 224, 34, 2, 0, 1, 252, 224]) }) =
      .error (.unreadable (.unexpectedEnd missing))) ∧
    shortJournal.encode = [2, 0, 0, 252, 223, 34, 2, 0, 3, 1, 2, 3] ∧
    (∃ missing,
      Journal.load (.shelf { journal := some (.file [2, 0, 0, 252, 223, 34, 2, 0, 3, 1, 2]) }) =
        .error (.unreadable (.unexpectedEnd missing))) ∧
    Journal.load (.shelf { journal := some (.file (shortJournal.encode ++ [7])) }) =
      .ok (shortJournal, .shelf { journal := some (.file (shortJournal.encode ++ [7])) }) := by
  have hvote : farVote.encode = [252, 224, 34, 2, 0, 1, 252, 224, 34, 2, 0, 9] := by decide
  have hjournal : shortJournal.encode = [2, 0, 0, 252, 223, 34, 2, 0, 3, 1, 2, 3] := by decide
  have fits : Journal.Fits shortJournal.entries := ⟨by decide, by decide⟩
  refine ⟨hvote, ?_, hjournal, ?_, ?_⟩
  · refine (torn_files_are_refused.1 farVote _).2.2 _ ?_ ?_ ?_ rfl
    · rw [hvote]
      decide
    · decide
    · rw [hvote]
      decide
  · refine (torn_files_are_refused.2 shortJournal _ fits).2.2 _ ?_ ?_ ?_ rfl
    · rw [hjournal]
      decide
    · decide
    · rw [hjournal]
      decide
  · exact (torn_files_are_refused.2 shortJournal _ fits).2.1 [7] rfl

end Elector
