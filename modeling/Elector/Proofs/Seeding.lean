import Elector.Seeding
import Elector.Proofs.Journal

/-!
# Seeded journals are in order

Actions on a journal meet only in its file. What one of them makes of the journal is written down as
a function of the entries (`LogAction.extend`), and on a disk that has room for the journal each
action does exactly that (`Holds.run`). An append is refused where its term would go back, so the
entries stay `InOrder`: they start with the one of term 0, and terms never fall behind it. As the
last position only moves forward, so do the positions that are reported (`Holds.runAll`).
`seeding_keeps_order` says this of any action after any others.
-/

namespace Elector

namespace Journal

variable {j : Journal} {d : Disk} {e : Entry} {entries : List Entry} {term : Term} {count : Nat}

/-! ## Entries in order -/

/-- The entries start with the one of term 0, terms do not go back along them, and they hold no
commands. -/
structure InOrder (entries : List Entry) : Prop where
  first : entries.head? = some origin
  ascending : entries.Pairwise fun a b => a.term ≤ b.term
  empty : ∀ e ∈ entries, e.command = []

def lastTerm (entries : List Entry) : Term := (entries.getLast?.map (·.term)).getD 0

theorem lastTerm_eq (h : entries.getLast? = some e) : lastTerm entries = e.term := by
  rw [lastTerm, h, Option.map_some, Option.getD_some]

def emptyEntries (term : Term) (count : Nat) : List Entry :=
  List.replicate count { term, command := [] }

theorem lastTerm_append (entries : List Entry) (term : Term) (count : Nat) :
    lastTerm (entries ++ emptyEntries term count) =
      if 0 < count then term else lastTerm entries := by
  rw [lastTerm, List.getLast?_append, emptyEntries, List.getLast?_replicate]
  cases count <;> rfl

theorem InOrder.ne_nil (h : InOrder entries) : entries ≠ [] := by
  rintro rfl
  cases h.first

theorem inOrder_origin : InOrder [origin] where
  first := rfl
  ascending := List.pairwise_singleton _ _
  empty e hmem := by rw [List.mem_singleton.mp hmem, origin]

theorem InOrder.fits (h : InOrder entries) (hcount : entries.length < 2 ^ 63) : Fits entries where
  count := hcount
  commands e hmem := by
    rw [h.empty e hmem]
    decide

theorem InOrder.getLast (h : InOrder entries) :
    ∃ e, entries.getLast? = some e ∧ e.term = lastTerm entries := by
  have hlast := List.getLast?_eq_some_getLast h.ne_nil
  exact ⟨_, hlast, (lastTerm_eq hlast).symm⟩

theorem InOrder.le_last (h : InOrder entries) (hmem : e ∈ entries) :
    e.term ≤ lastTerm entries := by
  obtain ⟨last, hlast, hterm⟩ := h.getLast
  obtain ⟨front, rfl⟩ := List.getLast?_eq_some_iff.mp hlast
  rw [← hterm]
  rcases List.mem_append.mp hmem with hfront | heq
  · exact (List.pairwise_append.mp h.ascending).2.2 e hfront last List.mem_cons_self
  · rw [List.mem_singleton.mp heq]
    exact Int32.le_refl _

theorem InOrder.nonneg (h : InOrder entries) (hmem : e ∈ entries) : 0 ≤ e.term := by
  obtain ⟨rest, rfl⟩ := List.head?_eq_some_iff.mp h.first
  rcases List.mem_cons.mp hmem with rfl | hrest
  · exact Int32.le_refl _
  · exact (List.pairwise_cons.mp h.ascending).1 e hrest

theorem InOrder.append (h : InOrder entries) (hterm : lastTerm entries ≤ term) (count : Nat) :
    InOrder (entries ++ emptyEntries term count) where
  first := by rw [List.head?_append, h.first, Option.some_or]
  ascending := by
    refine List.pairwise_append.mpr ⟨h.ascending, ?_, fun a ha b hb => ?_⟩
    · exact List.pairwise_replicate.mpr (Or.inr (Int32.le_refl _))
    · rw [List.eq_of_mem_replicate hb]
      exact Int32.le_trans (h.le_last ha) hterm
  empty e hmem := by
    rcases List.mem_append.mp hmem with hold | hnew
    · exact h.empty e hold
    · rw [List.eq_of_mem_replicate hnew]

/-! ## Positions -/

theorem term_position_eq (h : InOrder j.entries) (hcount : j.entries.length < 2 ^ 63) :
    j.position.term = lastTerm j.entries := by
  obtain ⟨e, hlast, hterm⟩ := h.getLast
  rw [term_position hlast hcount, hterm]

theorem position_le {j next : Journal} (h : InOrder j.entries) (hnext : InOrder next.entries)
    (hlength : j.entries.length ≤ next.entries.length)
    (hterm : lastTerm j.entries ≤ lastTerm next.entries) (hcount : next.entries.length < 2 ^ 63) :
    j.position ≤ next.position := by
  have hcount' : j.entries.length < 2 ^ 63 := Nat.lt_of_le_of_lt hlength hcount
  have hindex : j.position.index ≤ next.position.index := by
    have hlast := toInt_lastIndex h.ne_nil hcount'
    have hlast' := toInt_lastIndex hnext.ne_nil hcount
    rw [Int64.le_iff_toInt_le]
    show j.lastIndex.toInt ≤ next.lastIndex.toInt
    omega
  rw [Position.le_def, term_position_eq h hcount', term_position_eq hnext hcount]
  rcases Int32.lt_or_eq_of_le hterm with hlt | heq
  · exact Or.inl hlt
  · exact Or.inr ⟨heq, hindex⟩

/-! ## Appending empty entries -/

theorem Kept.appendEmpty (h : j.Kept d) (term : Term) (count : Nat) :
    ∃ d', j.appendEmpty term d count = (⟨j.entries ++ emptyEntries term count⟩, d', .ok ()) ∧
      Kept ⟨j.entries ++ emptyEntries term count⟩ d' := by
  induction count generalizing j d with
  | zero =>
    refine ⟨d, ?_, ?_⟩
    · simp [Journal.appendEmpty, emptyEntries]
    · simpa [emptyEntries] using h
  | succ count ih =>
    obtain ⟨d₁, happend, hkept⟩ := h.append { term, command := [] }
    obtain ⟨d₂, hrest, hkept'⟩ := ih hkept
    have hsplit : j.entries ++ emptyEntries term (count + 1) =
        (j.entries ++ [{ term, command := [] }]) ++ emptyEntries term count := by
      simp [emptyEntries, List.replicate_succ]
    rw [hsplit, Journal.appendEmpty, happend]
    exact ⟨d₂, hrest, hkept'⟩

end Journal

/-! ## Actions -/

namespace LogAction

open Journal (InOrder Kept emptyEntries lastTerm)

def added : LogAction → List Entry
  | inspect => []
  | append term count => emptyEntries term count.toNat

def refusal? (entries : List Entry) : LogAction → Option SeedError
  | inspect => none
  | append term _ =>
    if term < lastTerm entries then some (.behind term (lastTerm entries)) else none

def extend (entries : List Entry) (action : LogAction) : List Entry :=
  if (action.refusal? entries).isSome then entries else entries ++ action.added

def report (entries : List Entry) (action : LogAction) : Except SeedError Position :=
  match action.refusal? entries with
  | some e => .error e
  | none => .ok (Journal.position ⟨action.extend entries⟩)

def runAll (d : Disk) : List LogAction → Disk × List (Except SeedError Position)
  | [] => (d, [])
  | action :: rest =>
    let (d, result) := action.run d
    let (d, results) := runAll d rest
    (d, result :: results)

/-- The entries of a journal that was filled by these actions alone. -/
def seeded (actions : List LogAction) : List Entry := actions.foldl extend [Journal.origin]

variable {action : LogAction} {actions : List LogAction} {entries : List Entry} {d d' : Disk}
  {j : Journal}

theorem extend_of_refused {e : SeedError} (h : action.refusal? entries = some e) :
    action.extend entries = entries := by
  rw [extend, h, Option.isSome_some, if_pos rfl]

theorem extend_of_accepted (h : action.refusal? entries = none) :
    action.extend entries = entries ++ action.added := by
  rw [extend, h, Option.isSome_none, if_neg Bool.false_ne_true]

theorem extend_inspect (entries : List Entry) : inspect.extend entries = entries := by
  rw [extend_of_accepted rfl, added, List.append_nil]

theorem length_le_extend (entries : List Entry) (action : LogAction) :
    entries.length ≤ (action.extend entries).length := by
  rw [extend]
  split
  · exact Nat.le_refl _
  · rw [List.length_append]
    exact Nat.le_add_right _ _

theorem length_le_foldl (entries : List Entry) (actions : List LogAction) :
    entries.length ≤ (actions.foldl extend entries).length := by
  induction actions generalizing entries with
  | nil => exact Nat.le_refl _
  | cons action rest ih => exact Nat.le_trans (length_le_extend entries action) (ih _)

theorem inOrder_extend (h : InOrder entries) (action : LogAction) :
    InOrder (action.extend entries) ∧ lastTerm entries ≤ lastTerm (action.extend entries) := by
  cases hrefusal : action.refusal? entries with
  | some e =>
    rw [extend_of_refused hrefusal]
    exact ⟨h, Int32.le_refl _⟩
  | none =>
    cases action with
    | inspect =>
      rw [extend_inspect]
      exact ⟨h, Int32.le_refl _⟩
    | append term count =>
      have hterm : lastTerm entries ≤ term := by
        rw [refusal?] at hrefusal
        split at hrefusal
        · cases hrefusal
        · rename_i hbehind
          exact Int32.not_lt.mp hbehind
      rw [extend_of_accepted hrefusal, added, Journal.lastTerm_append]
      refine ⟨h.append hterm count.toNat, ?_⟩
      split
      · exact hterm
      · exact Int32.le_refl _

/-- Opening the disk gives the journal of these entries, which can be written there. -/
def Holds (d : Disk) (entries : List Entry) : Prop :=
  ∃ d', Journal.load d = .ok (⟨entries⟩, d') ∧ Kept ⟨entries⟩ d'

theorem holds_of_kept (kept : Kept ⟨entries⟩ d) (order : InOrder entries)
    (hcount : entries.length < 2 ^ 63) : Holds d entries :=
  ⟨d, kept.load order.ne_nil (order.fits hcount), kept⟩

/-- An action reports what the entries say, and leaves what it makes of them. -/
theorem Holds.run (h : Holds d entries) (order : InOrder entries)
    (hcount : (action.extend entries).length < 2 ^ 63) :
    ∃ d', action.run d = (d', action.report entries) ∧ Holds d' (action.extend entries) := by
  have hcount' : entries.length < 2 ^ 63 :=
    Nat.lt_of_le_of_lt (length_le_extend entries action) hcount
  obtain ⟨d₁, hload, kept⟩ := h
  have hterm : (Journal.mk entries).position.term = lastTerm entries :=
    Journal.term_position_eq order hcount'
  cases action with
  | inspect =>
    have hsame := extend_inspect entries
    refine ⟨d₁, ?_, ?_⟩
    · simp only [LogAction.run, hload, report, refusal?, hsame]
    · rw [hsame]
      exact holds_of_kept kept order hcount'
  | append term count =>
    by_cases hbehind : term < lastTerm entries
    · have hrefused : (append term count).refusal? entries =
          some (.behind term (lastTerm entries)) := if_pos hbehind
      refine ⟨d₁, ?_, ?_⟩
      · simp only [LogAction.run, hload, report, hrefused, hterm, if_pos hbehind]
      · rw [extend_of_refused hrefused]
        exact holds_of_kept kept order hcount'
    · have haccepted : (append term count).refusal? entries = none := if_neg hbehind
      have hextend : (append term count).extend entries =
          entries ++ emptyEntries term count.toNat := extend_of_accepted haccepted
      obtain ⟨d₂, happend, kept₂⟩ := kept.appendEmpty term count.toNat
      refine ⟨d₂, ?_, ?_⟩
      · simp only [LogAction.run, hload, report, haccepted, hterm, if_neg hbehind, happend, hextend]
      · rw [hextend] at hcount ⊢
        exact holds_of_kept kept₂ (order.append (Int32.not_lt.mp hbehind) _) hcount

/-- The positions that actions report, without those of actions that are refused. -/
def reported (d : Disk) (actions : List LogAction) : List Position :=
  (runAll d actions).2.filterMap Except.toOption

theorem runAll_cons {result : Except SeedError Position} (actions : List LogAction)
    (h : action.run d = (d', result)) :
    (runAll d (action :: actions)).1 = (runAll d' actions).1 ∧
      reported d (action :: actions) = result.toOption.toList ++ reported d' actions := by
  rw [reported, runAll, h]
  refine ⟨rfl, ?_⟩
  cases result <;> rfl

theorem position_of_report {p : Position} (h : (action.report entries).toOption = some p) :
    p = Journal.position ⟨action.extend entries⟩ := by
  rw [report] at h
  split at h
  · cases h
  · exact (Option.some.inj h).symm

/-- Whatever actions are carried out, the entries become what the actions make of them and stay in
order, and each position that is reported is at least the one before. -/
theorem Holds.runAll (h : Holds d entries) (order : InOrder entries)
    (hcount : (actions.foldl extend entries).length < 2 ^ 63) :
    Holds (runAll d actions).1 (actions.foldl extend entries) ∧
      InOrder (actions.foldl extend entries) ∧ (reported d actions).Pairwise (· ≤ ·) ∧
      ∀ p ∈ reported d actions, Journal.position ⟨entries⟩ ≤ p := by
  induction actions generalizing d entries with
  | nil => exact ⟨h, order, List.Pairwise.nil, fun p hp => nomatch hp⟩
  | cons action rest ih =>
    have hnext : (action.extend entries).length < 2 ^ 63 :=
      Nat.lt_of_le_of_lt (length_le_foldl _ rest) hcount
    obtain ⟨d', hrun, hholds⟩ := h.run order hnext
    obtain ⟨order', hterm⟩ := inOrder_extend order action
    obtain ⟨hend, horder, hpairwise, hbound⟩ := ih hholds order' hcount
    have hmoves : Journal.position ⟨entries⟩ ≤ Journal.position ⟨action.extend entries⟩ :=
      Journal.position_le order order' (length_le_extend entries action) hterm hnext
    obtain ⟨hdisk, hreported⟩ := runAll_cons rest hrun
    rw [hdisk, hreported]
    refine ⟨hend, horder, ?_⟩
    cases hreport : (action.report entries).toOption with
    | none => exact ⟨hpairwise, fun p hp => Position.le_trans hmoves (hbound p hp)⟩
    | some last =>
      rw [← position_of_report hreport] at hbound hmoves
      refine ⟨List.pairwise_cons.mpr ⟨hbound, hpairwise⟩, fun p hp => ?_⟩
      rcases List.mem_cons.mp hp with rfl | hlater
      · exact hmoves
      · exact Position.le_trans hmoves (hbound p hlater)

theorem holds_start {start : Disk} {shelf : Shelf} (room : start.prepare = some (.shelf shelf))
    (empty : shelf.get .journal = none) (short : .journal ∉ shelf.tooFar) :
    Holds start [Journal.origin] := by
  have hnone : (Disk.shelf shelf).get .journal = none := empty
  refine ⟨.shelf shelf, ?_, Journal.kept_fresh empty short⟩
  simp only [Journal.load, room, hnone]
  rfl

theorem seeded_concat (actions : List LogAction) (action : LogAction) :
    seeded (actions ++ [action]) = action.extend (seeded actions) := by
  rw [seeded, List.foldl_append]
  rfl

theorem holds_seeded {start : Disk} {shelf : Shelf} (room : start.prepare = some (.shelf shelf))
    (empty : shelf.get .journal = none) (short : .journal ∉ shelf.tooFar)
    (hcount : (seeded actions).length < 2 ^ 63) :
    Holds (runAll start actions).1 (seeded actions) ∧ InOrder (seeded actions) ∧
      (reported start actions).Pairwise (· ≤ ·) := by
  obtain ⟨hholds, order, hreported, _⟩ :=
    (holds_start room empty short).runAll Journal.inOrder_origin hcount
  exact ⟨hholds, order, hreported⟩

theorem report_append {term : Term} {count : UInt32} (order : InOrder entries)
    (hcount : ((append term count).extend entries).length < 2 ^ 63) :
    let j : Journal := ⟨entries⟩
    let next : Journal := ⟨(append term count).extend entries⟩
    term < j.position.term ∧ next = j ∧
        (append term count).report entries = .error (.behind term j.position.term) ∨
      ¬ term < j.position.term ∧ (append term count).report entries = .ok next.position ∧
        next.entries = j.entries ++ emptyEntries term count.toNat ∧
        next.position.term = (if 0 < count then term else j.position.term) ∧
        next.position.index.toInt = j.position.index.toInt + count.toNat := by
  intro j next
  have hcount' : j.entries.length < 2 ^ 63 := Nat.lt_of_le_of_lt (length_le_extend _ _) hcount
  have hterm : j.position.term = lastTerm entries := Journal.term_position_eq order hcount'
  rw [hterm]
  by_cases hbehind : term < lastTerm entries
  · have hrefused : (append term count).refusal? entries =
        some (.behind term (lastTerm entries)) := if_pos hbehind
    refine Or.inl ⟨hbehind, congrArg Journal.mk (extend_of_refused hrefused), ?_⟩
    rw [report, hrefused]
  · have haccepted : (append term count).refusal? entries = none := if_neg hbehind
    have hextend : next.entries = entries ++ emptyEntries term count.toNat :=
      extend_of_accepted haccepted
    have order' : InOrder next.entries := (inOrder_extend order (append term count)).1
    have hfits : next.entries.length < 2 ^ 63 := hcount
    refine Or.inr ⟨hbehind, ?_, hextend, ?_, ?_⟩
    · rw [report, haccepted]
    · have hsome : 0 < count.toNat ↔ 0 < count := by
        rw [UInt32.lt_iff_toNat_lt, UInt32.toNat_zero]
      rw [Journal.term_position_eq order' hfits, hextend, Journal.lastTerm_append]
      simp only [hsome]
    · have hlast : j.lastIndex.toInt = j.entries.length - 1 :=
        Journal.toInt_lastIndex order.ne_nil hcount'
      have hlast' := Journal.toInt_lastIndex order'.ne_nil hfits
      have hlength : next.entries.length = j.entries.length + count.toNat := by
        rw [hextend, List.length_append, emptyEntries, List.length_replicate]
      change next.lastIndex.toInt = j.lastIndex.toInt + count.toNat
      omega

/-- **Seeding keeps a journal in order.** Let actions be carried out one after the other on a disk
that has room for a journal and holds none, as long as its entries can be counted, and look at any
of them. The journal that it leaves opens again; it starts with the one entry of term 0, and its
terms do not go back, so the last one is the greatest and none is negative. Looking changes nothing.
An append is refused exactly if its term is behind the last one, and then changes nothing; any other
keeps what is there, adds its entries and reports the last position: its own term, unless it has
no entries, and an index that is greater by their number. What all of the actions report never goes
back. -/
theorem seeding_keeps_order {start : Disk} {shelf : Shelf}
    (room : start.prepare = some (.shelf shelf)) (empty : shelf.get .journal = none)
    (short : .journal ∉ shelf.tooFar) (before : List LogAction) (action : LogAction)
    (fits : (seeded (before ++ [action])).length < 2 ^ 63) :
    let found := (runAll start before).1
    let outcome := action.run found
    ∃ j next d d', Journal.load found = .ok (j, d) ∧ Journal.load outcome.1 = .ok (next, d') ∧
      next.entries.head? = some Journal.origin ∧
      next.entries.Pairwise (fun a b => a.term ≤ b.term) ∧
      (∀ e ∈ next.entries, 0 ≤ e.term ∧ e.term ≤ next.position.term) ∧
      (∃ e ∈ next.entries, e.term = next.position.term) ∧
      (action = .inspect → outcome.2 = .ok j.position ∧ next = j) ∧
      (∀ term count, action = .append term count →
        ((∃ cause, outcome.2 = .error cause) ↔ term < j.position.term) ∧
        (term < j.position.term →
          outcome.2 = .error (.behind term j.position.term) ∧ next = j) ∧
        (¬ term < j.position.term →
          outcome.2 = .ok next.position ∧
          next.entries = j.entries ++ List.replicate count.toNat { term, command := [] } ∧
          next.position.term = (if 0 < count then term else j.position.term) ∧
          next.position.index.toInt = j.position.index.toInt + count.toNat)) ∧
      (reported start (before ++ [action])).Pairwise (· ≤ ·) := by
  intro found outcome
  obtain ⟨_, _, hreported⟩ := holds_seeded room empty short fits
  rw [seeded_concat] at fits
  have hcount : (seeded before).length < 2 ^ 63 :=
    Nat.lt_of_le_of_lt (length_le_extend _ action) fits
  obtain ⟨hholds, order, _⟩ := holds_seeded room empty short hcount
  obtain ⟨left, hrun, d', hload', _⟩ := hholds.run order fits
  obtain ⟨d, hload, _⟩ := hholds
  obtain ⟨order', _⟩ := inOrder_extend order action
  have houtcome : outcome = (left, action.report (seeded before)) := hrun
  have hterm : (Journal.mk (action.extend (seeded before))).position.term =
      lastTerm (action.extend (seeded before)) := Journal.term_position_eq order' fits
  rw [houtcome]
  refine ⟨⟨seeded before⟩, ⟨action.extend (seeded before)⟩, d, d', hload, hload', order'.first,
    order'.ascending, ?_, ?_, ?_, ?_, hreported⟩
  · intro e hmem
    rw [hterm]
    exact ⟨order'.nonneg hmem, order'.le_last hmem⟩
  · obtain ⟨e, hlast, hlastTerm⟩ := order'.getLast
    exact ⟨e, List.mem_of_getLast? hlast, hlastTerm.trans hterm.symm⟩
  · rintro rfl
    have hsame := extend_inspect (seeded before)
    refine ⟨?_, congrArg Journal.mk hsame⟩
    simp only [report, refusal?, hsame]
  · rintro term count rfl
    rcases report_append order fits with ⟨hbehind, hsame, hreport⟩ | ⟨hnot, hreport, hadded⟩
    · exact ⟨iff_of_true ⟨_, hreport⟩ hbehind, fun _ => ⟨hreport, hsame⟩, fun h => absurd hbehind h⟩
    · refine ⟨iff_of_false ?_ hnot, fun h => absurd h hnot, fun _ => ⟨hreport, hadded⟩⟩
      rintro ⟨cause, herror⟩
      rw [hreport] at herror
      cases herror

def exampleActions : List LogAction := [.inspect, .append 2 3, .append 2 0]

/-- An entry of term 1 is refused behind three of term 2. -/
theorem seeding_keeps_order_exampleActions :
    let found := (runAll .missing exampleActions).1
    Journal.load found = .ok (⟨[Journal.origin, ⟨2, []⟩, ⟨2, []⟩, ⟨2, []⟩]⟩, found) ∧
      ((append 1 1).run found).2 = .error (.behind 1 2) ∧
      reported .missing (exampleActions ++ [.append 1 1]) = [⟨0, 0⟩, ⟨2, 3⟩, ⟨2, 3⟩] ∧
      (reported .missing (exampleActions ++ [.append 1 1])).Pairwise (· ≤ ·) := by
  intro found
  have room : Disk.missing.prepare = some (.shelf {}) := rfl
  have hfound : Journal.load found =
      .ok (⟨[Journal.origin, ⟨2, []⟩, ⟨2, []⟩, ⟨2, []⟩]⟩, found) := rfl
  obtain ⟨j, next, d, d', hload, _, _, _, _, _, _, happend, hreported⟩ :=
    seeding_keeps_order room rfl (by decide) exampleActions (.append 1 1) (by decide)
  cases hload.symm.trans hfound
  have hbehind := (happend 1 1 rfl).2.1 (by decide)
  exact ⟨hfound, hbehind.1, rfl, hreported⟩

end LogAction

end Elector
