import Elector.Journal
import Elector.Proofs.Compact
import Elector.Proofs.Disk

/-!
# Journals as lists

A journal is the list of the entries that were appended to it, behind the entry that it starts
with. As long as its counts fit the machine's words (`Fits`),

* its positions are those of the list (`toInt_lastIndex`, `term_inside`, `term_outside`);
* its file holds the list and nothing else (`list_encode`, `ofContent_encode`);
* appending and opening again keep journal and file together (`Kept.append`, `Kept.load`).

`journal_is_list` says this of every way to use a journal on a disk that has room for it.
-/

namespace Elector

namespace Journal

/-- The counts in a file of the entries fit the machine's words. -/
structure Fits (entries : List Entry) : Prop where
  count : entries.length < 2 ^ 63
  commands : ∀ e ∈ entries, e.command.length < 2 ^ 64

variable {j : Journal} {d : Disk} {entries entries' : List Entry} {e : Entry} {i : LogIndex}

theorem Fits.of_append (h : Fits (entries ++ entries')) : Fits entries where
  count := by
    have hcount := h.count
    rw [List.length_append] at hcount
    omega
  commands := fun e hmem => h.commands e (List.mem_append_left _ hmem)

/-! ## Positions -/

theorem lastIndex_eq (hne : j.entries ≠ []) : j.lastIndex = Int64.ofNat (j.entries.length - 1) := by
  have hpos : 1 ≤ j.entries.length := List.length_pos_iff.mpr hne
  rw [Int64.ofNat_sub _ _ hpos]
  rfl

theorem toInt_lastIndex (hne : j.entries ≠ []) (hcount : j.entries.length < 2 ^ 63) :
    j.lastIndex.toInt = j.entries.length - 1 := by
  have hpos := List.length_pos_iff.mpr hne
  rw [lastIndex_eq hne, Int64.toInt_ofNat_of_lt (by omega)]
  omega

theorem term_inside {k : Nat} (hk : k < j.entries.length) (hi : i.toInt = k) :
    j.term? i = some j.entries[k].term := by
  have hnonneg : ¬ i < 0 := by
    rw [Int64.lt_iff_toInt_lt, hi]
    exact Int.not_lt.mpr (Int.natCast_nonneg k)
  have hindex : i.toNatClampNeg = k := by
    rw [← Int64.toNat_toInt, hi, Int.toNat_natCast]
  rw [term?, if_neg hnonneg, hindex, List.getElem?_eq_getElem hk, Option.map_some]

theorem term_outside (hi : i.toInt < 0 ∨ j.entries.length ≤ i.toInt) : j.term? i = none := by
  rw [term?]
  split
  · rfl
  · rename_i hnonneg
    have hpos : ¬ i.toInt < 0 := by
      rw [Int64.lt_iff_toInt_lt] at hnonneg
      exact hnonneg
    have hbeyond : j.entries.length ≤ i.toNatClampNeg := by
      rw [← Int64.toNat_toInt]
      omega
    rw [List.getElem?_eq_none hbeyond, Option.map_none]

theorem term_lastIndex (hlast : j.entries.getLast? = some e) (hcount : j.entries.length < 2 ^ 63) :
    j.term? j.lastIndex = some e.term := by
  rw [List.getLast?_eq_getElem?] at hlast
  obtain ⟨hk, hget⟩ := List.getElem?_eq_some_iff.mp hlast
  have hne : j.entries ≠ [] := List.ne_nil_of_length_pos (by omega)
  have hindex := toInt_lastIndex hne hcount
  rw [term_inside hk (by omega), hget]

theorem term_position (hlast : j.entries.getLast? = some e) (hcount : j.entries.length < 2 ^ 63) :
    j.position.term = e.term := by
  rw [position, term_lastIndex hlast hcount, Option.getD_some]

/-! ## The file -/

theorem readEntry_encodeEntry (h : e.command.length < 2 ^ 64) (rest : Bytes) :
    readEntry (encodeEntry e ++ rest) = .ok (e, rest) := by
  rw [readEntry, encodeEntry, List.append_assoc, Compact.word_encodeWord]
  simp only [Compact.bytes_encodeBytes rest h]

theorem list_encode (h : Fits j.entries) (rest : Bytes) :
    Compact.list readEntry (j.encode ++ rest) = .ok (j.entries, rest) := by
  have hcount := h.count
  exact Compact.list_encodeList _ (fun e hmem => readEntry_encodeEntry (h.commands e hmem)) rest
    (by omega)

theorem encode_ne_nil (j : Journal) : j.encode ≠ [] := by
  rw [encode, Compact.encodeList]
  exact List.append_ne_nil_of_left_ne_nil (Compact.encodeNat_ne_nil _) _

theorem ofContent_encode (h : Fits j.entries) (hne : j.entries ≠ []) :
    ofContent j.encode = .ok j := by
  have hread := list_encode h []
  rw [List.append_nil] at hread
  rw [ofContent, if_neg j.encode_ne_nil, hread]
  cases j with
  | mk entries =>
    cases entries with
    | nil => exact absurd rfl hne
    | cons e es => rfl

theorem write_saveSteps {shelf : Shelf} (h : shelf.admits .journal = true) (j : Journal) :
    (Disk.shelf shelf).write j.saveSteps none =
      (.shelf (shelf.set .journal (some (.file j.encode))), true) := by
  let created := shelf.set .journal (some (.file []))
  let complete := shelf.set .journal (some (.file j.encode))
  have hcreate : (Disk.shelf shelf).step (.create .journal) = some (.shelf created) := if_pos h
  have happend :
      (Disk.shelf created).step (.append .journal j.encode) = some (.shelf complete) := by
    simp [Disk.step, created, complete, Shelf.set_set]
  have hsync : (Disk.shelf complete).step (.sync .journal) = some (.shelf complete) := by
    simp [Disk.step, Disk.content?, Disk.get, complete]
  simp only [saveSteps, Disk.write, hcreate, happend, hsync, Option.map_none, complete]

/-! ## Appending and opening -/

/-- The journal can be written on the disk, and stands there unless it is still as it started. -/
structure Kept (j : Journal) (d : Disk) : Prop where
  room : ∃ shelf, d = .shelf shelf ∧ shelf.admits .journal = true
  file : d.get .journal = none ∧ j = fresh ∨ d.get .journal = some (.file j.encode)

theorem Kept.append (h : j.Kept d) (e : Entry) :
    ∃ d', j.append e d none = (⟨j.entries ++ [e]⟩, d', .ok (lastIndex ⟨j.entries ++ [e]⟩)) ∧
      Kept ⟨j.entries ++ [e]⟩ d' := by
  obtain ⟨shelf, rfl, hadmits⟩ := h.room
  let next : Journal := ⟨j.entries ++ [e]⟩
  let written := shelf.set .journal (some (.file next.encode))
  have hfile : (Disk.shelf written).get .journal = some (.file next.encode) := by
    simp [Disk.get, written]
  refine ⟨.shelf written, ?_, ⟨written, rfl, Shelf.admits_set (by simp) hadmits⟩, Or.inr hfile⟩
  rw [Journal.append, write_saveSteps hadmits next]

theorem Kept.load (h : j.Kept d) (hne : j.entries ≠ []) (fits : Fits j.entries) :
    Journal.load d = .ok (j, d) := by
  obtain ⟨shelf, rfl, _⟩ := h.room
  have hprepare : (Disk.shelf shelf).prepare = some (.shelf shelf) := rfl
  rcases h.file with ⟨hnone, rfl⟩ | hfile
  · simp only [Journal.load, hprepare, hnone]
  · simp only [Journal.load, hprepare, hfile, ofContent_encode fits hne]

/-! ## All ways to use a journal -/

inductive Use
  | append (e : Entry)
  /-- Read it again from its file. -/
  | reopen
deriving DecidableEq, Repr

def Use.entry? : Use → Option Entry
  | append e => some e
  | reopen => none

/-- The journal and its disk after all these uses, and the indices of the entries appended. -/
def useAll (j : Journal) (d : Disk) :
    List Use → Except JournalError (Journal × Disk × List LogIndex)
  | [] => .ok (j, d, [])
  | .append entry :: uses =>
    match j.append entry d none with
    | (_, _, .error e) => .error e
    | (j, d, .ok index) =>
      match j.useAll d uses with
      | .error e => .error e
      | .ok (j, d, indices) => .ok (j, d, index :: indices)
  | .reopen :: uses =>
    match Journal.load d with
    | .error e => .error e
    | .ok (j, d) => j.useAll d uses

def openAndUse (d : Disk) (uses : List Use) :
    Except JournalError (Journal × Disk × List LogIndex) :=
  match Journal.load d with
  | .error e => .error e
  | .ok (j, d) => j.useAll d uses

theorem Kept.useAll (h : j.Kept d) (hne : j.entries ≠ []) (uses : List Use)
    (fits : Fits (j.entries ++ uses.filterMap Use.entry?)) :
    ∃ d', j.useAll d uses = .ok (⟨j.entries ++ uses.filterMap Use.entry?⟩, d',
        (List.range' j.entries.length (uses.filterMap Use.entry?).length).map Int64.ofNat) ∧
      Kept ⟨j.entries ++ uses.filterMap Use.entry?⟩ d' := by
  induction uses generalizing j d with
  | nil =>
    refine ⟨d, ?_, ?_⟩
    · simp [Journal.useAll]
    · simpa using h
  | cons use uses ih =>
    cases use with
    | append e =>
      obtain ⟨next, happend, hnext⟩ := h.append e
      have hsplit : j.entries ++ (Use.append e :: uses).filterMap Use.entry? =
          (j.entries ++ [e]) ++ uses.filterMap Use.entry? := by
        simp [Use.entry?]
      rw [hsplit] at fits ⊢
      obtain ⟨d', hrest, hkept⟩ := ih hnext (by simp) fits
      refine ⟨d', ?_, hkept⟩
      have hindex : lastIndex ⟨j.entries ++ [e]⟩ = Int64.ofNat j.entries.length := by
        rw [lastIndex_eq (by simp)]
        simp
      simp only [Journal.useAll, happend, hrest, hindex]
      simp [Use.entry?, List.range'_succ]
    | reopen =>
      have hload := h.load hne fits.of_append
      simp only [Journal.useAll, hload]
      exact ih h hne fits

def listed (uses : List Use) : List Entry := origin :: uses.filterMap Use.entry?

theorem kept_fresh {shelf : Shelf} (empty : shelf.get .journal = none)
    (short : .journal ∉ shelf.tooFar) : fresh.Kept (.shelf shelf) where
  room := ⟨shelf, rfl, by simp [Shelf.admits, empty, short]⟩
  file := Or.inl ⟨empty, rfl⟩

/-- On a disk that has room for it and does not hold it yet, a journal is a list, however it is
used: it starts with the one entry of term 0, and every appended entry follows, in order, whether or
not the journal is opened again in between. Each use succeeds, and an append gives the entry's index
in the list. The last index and the last term are those of the last entry, so the term that is kept
for a journal without entries is never used, and at any other index there is an entry exactly if the
list has one there. As soon as something has been appended, the file holds the list and nothing
else. -/
theorem journal_is_list {start : Disk} {shelf : Shelf} (room : start.prepare = some (.shelf shelf))
    (empty : shelf.get .journal = none) (short : .journal ∉ shelf.tooFar) (uses : List Use)
    (fits : Fits (listed uses)) :
    let s := listed uses
    let j : Journal := ⟨s⟩
    ∃ d indices, openAndUse start uses = .ok (j, d, indices) ∧
      indices.map (·.toInt) = (List.range' 1 indices.length).map (fun k : Nat => (k : Int)) ∧
      indices.length = (uses.filterMap Use.entry?).length ∧
      j.lastIndex.toInt = s.length - 1 ∧ 0 ≤ j.lastIndex.toInt ∧ j.position.index = j.lastIndex ∧
      (∃ e, s.getLast? = some e ∧ j.term? j.lastIndex = some e.term ∧ j.position.term = e.term) ∧
      (∀ k (hk : k < s.length), ∀ i : LogIndex, i.toInt = k → j.term? i = some s[k].term) ∧
      (∀ i : LogIndex, i.toInt < 0 ∨ s.length ≤ i.toInt → j.term? i = none) ∧
      (uses.filterMap Use.entry? ≠ [] → ∃ content, d.get .journal = some (.file content) ∧
        Compact.list readEntry content = .ok (s, [])) := by
  intro s j
  have hcount : s.length < 2 ^ 63 := fits.count
  have hlength : s.length = (uses.filterMap Use.entry?).length + 1 := rfl
  have hload : Journal.load start = .ok (fresh, .shelf shelf) := by
    have hnone : (Disk.shelf shelf).get .journal = none := empty
    simp only [Journal.load, room, hnone]
  obtain ⟨d, huse, hkept⟩ := (kept_fresh empty short).useAll (by simp [fresh]) uses fits
  have hlastIndex : j.lastIndex.toInt = s.length - 1 :=
    toInt_lastIndex (List.cons_ne_nil _ _) hcount
  refine ⟨d, (List.range' 1 (uses.filterMap Use.entry?).length).map Int64.ofNat, ?_, ?_, by simp,
    hlastIndex, by omega, rfl, ?_, fun k hk i => term_inside hk, fun i => term_outside, ?_⟩
  · rw [openAndUse, hload]
    exact huse
  · rw [List.map_map, List.length_map, List.length_range']
    refine List.map_congr_left fun k hk => ?_
    have hk := List.mem_range'_1.mp hk
    exact Int64.toInt_ofNat_of_lt (by omega)
  · have hlast : s.getLast? = some (s.getLast (List.cons_ne_nil _ _)) :=
      List.getLast?_eq_some_getLast _
    exact ⟨_, hlast, term_lastIndex hlast hcount, term_position hlast hcount⟩
  · intro hsome
    rcases hkept.file with ⟨_, hfresh⟩ | hfile
    · have hentries := congrArg Journal.entries hfresh
      exact absurd (List.append_cancel_left hentries) hsome
    · have hread := list_encode fits []
      rw [List.append_nil] at hread
      exact ⟨_, hfile, hread⟩

/-! A journal that is opened again between a long entry of the least term and an empty one. -/

def longEntry : Entry where
  term := -2147483648
  command := List.replicate 251 7

def farUses : List Use := [.append longEntry, .reopen, .append ⟨5, []⟩]

theorem journal_is_list_farUses :
    ∃ d j indices, openAndUse .missing farUses = .ok (j, d, indices) ∧
      indices.map (·.toInt) = [1, 2] ∧ j.lastIndex.toInt = 2 ∧ j.position.term = 5 ∧
      j.term? 1 = some (-2147483648) ∧ j.term? 3 = none ∧
      ∃ content, d.get .journal = some (.file content) ∧
        Compact.list readEntry content = .ok ([origin, longEntry, ⟨5, []⟩], []) := by
  have fits : Fits (listed farUses) := by
    refine ⟨by decide, fun e hmem => ?_⟩
    have hcases : e = origin ∨ e = longEntry ∨ e = ⟨5, []⟩ := by
      simpa [listed, farUses, Use.entry?, eq_comm] using hmem
    rcases hcases with rfl | rfl | rfl
    · decide
    · rw [longEntry, List.length_replicate]
      decide
    · decide
  have room : Disk.missing.prepare = some (.shelf {}) := rfl
  obtain ⟨d, indices, huse, hindices, hlength, hlast, _, _, ⟨e, he, _, hterm⟩, hinside, houtside,
    hfile⟩ := journal_is_list room rfl (by decide) farUses fits
  have htwo : indices.length = 2 := hlength
  rw [htwo] at hindices
  cases he
  exact ⟨d, _, indices, huse, hindices, hlast, hterm, hinside 1 (by decide) 1 rfl,
    houtside 3 (Or.inr (by decide)), hfile (by decide)⟩

end Journal

end Elector
