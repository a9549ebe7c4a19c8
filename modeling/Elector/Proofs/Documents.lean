import Elector.Proofs.Printing
import Elector.Settings.Document

/-!
# Documents that are read as they were written

Numbers, strings and records are written in a form that is legible (`Written`) and are read back as
they were. So the file that a cluster's settings are saved to holds these settings and no others
(`ClusterSettings.loadFile_saved`).
-/

namespace Elector.Json

/-! ## Numbers -/

theorem head_toDigits {n : Nat} (h : (Nat.toDigits 10 n).head? = some '0') : n = 0 := by
  induction n using Nat.strongRecOn with
  | ind n ih =>
    rcases Nat.lt_or_ge n 10 with hsmall | hlarge
    · rw [Nat.toDigits_of_lt_base hsmall, List.head?_cons, Option.some.injEq] at h
      have hvalue := Nat.toNat_digitChar_of_lt_ten hsmall
      rw [h] at hvalue
      have hzero : '0'.toNat = 48 := rfl
      omega
    · obtain ⟨c, cs, hcons⟩ :=
        List.exists_cons_of_ne_nil (Nat.toDigits_ne_nil (n := n / 10) (b := 10))
      rw [Nat.toDigits_of_base_le (by decide) hlarge, hcons, List.cons_append, List.head?_cons] at h
      have hquotient := ih (n / 10) (by omega) (by rw [hcons, List.head?_cons, h])
      omega

theorem isDigit_toDigits {n : Nat} {c : Char} (h : c ∈ Nat.toDigits 10 n) : c.isDigit = true :=
  Nat.isDigit_of_mem_toDigits (by decide) (by decide) h

theorem isNumber_toDigits (n : Nat) :
    isNumber (Nat.toDigits 10 n) = true ∧ isNumber ('-' :: Nat.toDigits 10 n) = true := by
  refine isNumber_digits (fun c hc => isDigit_toDigits hc) Nat.toDigits_ne_nil fun hzero => ?_
  rw [head_toDigits hzero]
  rfl

theorem endsBare_digit {c : Char} (h : c.isDigit = true) : Scanner.endsBare c = false := by
  have hne : ∀ d, d.isDigit = false → c ≠ d := by
    rintro d hd rfl
    rw [h] at hd
    exact Bool.noConfusion hd
  have hpunctuation : Scanner.punctuation? c = none := by
    unfold Scanner.punctuation?
    split <;> first | rfl | exact absurd h (by decide)
  simp [Scanner.endsBare, Scanner.isBlank, hpunctuation, hne]

theorem natural?_toDigits (n : Nat) : integerOf?.natural? (Nat.toDigits 10 n) = some n := by
  have hdigit : ∀ c ∈ Nat.toDigits 10 n, c.isDigit = true := fun c hc => isDigit_toDigits hc
  have hvalue : naturalOf (Nat.toDigits 10 n) = n :=
    Nat.ofDigitChars_toDigits (by decide) (by decide)
  have hne := Nat.toDigits_ne_nil (n := n) (b := 10)
  by_cases hzero : n = 0
  · rw [hzero]
    rfl
  · have hhead : (Nat.toDigits 10 n).head? ≠ some '0' := fun h => hzero (head_toDigits h)
    unfold integerOf?.natural?
    split
    · contradiction
    · simp_all
    · simp_all
    · rw [if_pos (by simpa using hdigit), hvalue]

namespace Value

/-- An integer is written as a number, and this number is read as the integer. -/
theorem ofInt_spec (i : Int) : ∃ digits, ofInt i = .number digits ∧ integerOf? digits = some i ∧
    (ofInt i).Written := by
  cases i with
  | ofNat n =>
    refine ⟨Nat.toDigits 10 n, rfl, ?_, ?_⟩
    · have hminus : ∀ rest, Nat.toDigits 10 n ≠ '-' :: rest := fun rest hrest => by
        have hdigit := isDigit_toDigits (n := n) (c := '-') (by simp [hrest])
        exact absurd hdigit (by decide)
      unfold integerOf?
      split
      · rename_i rest hrest
        exact absurd hrest (hminus rest)
      · rw [natural?_toDigits]
        rfl
    · exact .number (isNumber_toDigits n).1 fun c hc => endsBare_digit (isDigit_toDigits hc)
  | negSucc n =>
    refine ⟨'-' :: Nat.toDigits 10 (n + 1), rfl, ?_, ?_⟩
    · rw [integerOf?, natural?_toDigits]
      rfl
    · refine .number (isNumber_toDigits (n + 1)).2 ?_
      rw [List.forall_mem_cons]
      exact ⟨by decide, fun c hc => endsBare_digit (isDigit_toDigits hc)⟩

theorem ofInt_eq_number (i : Int) : ofInt i = .number i.repr.toList := by
  cases i with
  | ofNat n => exact congrArg Value.number Nat.toList_repr.symm
  | negSucc n =>
    have hrepr : (Int.negSucc n).repr = "-" ++ (n + 1).repr := rfl
    rw [hrepr, String.toList_append, Nat.toList_repr]
    rfl

theorem written_ofInt (i : Int) : (ofInt i).Written := by
  obtain ⟨digits, -, -, h⟩ := ofInt_spec i
  exact h

theorem int32?_ofInt (x : Int32) : (ofInt x.toInt).int32? = some x := by
  obtain ⟨digits, hnumber, hdigits, -⟩ := ofInt_spec x.toInt
  have hleast : Int32.minValue.toInt ≤ x.toInt := x.le_toInt
  have hmost : x.toInt ≤ Int32.maxValue.toInt := Int.le_of_lt_add_one x.toInt_lt
  rw [hnumber, int32?, integer?, hdigits, Option.bind_some, if_pos ⟨hleast, hmost⟩, Option.map_some,
    Int32.ofInt_toInt]

theorem uint64?_ofInt (x : UInt64) : (ofInt x.toNat).uint64? = some x := by
  obtain ⟨digits, hnumber, hdigits, -⟩ := ofInt_spec x.toNat
  have hmost := x.toNat_lt
  rw [hnumber, uint64?, integer?, hdigits, Option.bind_some, if_pos (by omega), Option.map_some,
    Int.toNat_natCast, UInt64.ofNat_toNat]

/-! ## Strings and records -/

theorem written_ofString (s : String) : (ofString s).Written := .text (legible_escape _)

theorem string?_ofString (s : String) : (ofString s).string? = some s := by
  rw [ofString, string?, unescape_escape, Option.map_some, String.ofList_toList]

theorem written_record {fields : List (String × Value)} (h : ∀ f ∈ fields, f.2.Written) :
    (record fields).Written := by
  refine .object ?_ ?_
  · rw [List.forall_mem_map]
    exact fun f _ => legible_escape _
  · rw [List.forall_mem_map]
    exact h

theorem only?_of_mem {fields : List (String × Value)} (hdistinct : (fields.map (·.1)).Nodup)
    {f : String × Value} (hf : f ∈ fields) : only? fields f.1 = some (some f.2) := by
  have hfilter : fields.filter (·.1 = f.1) = [f] := by
    induction fields with
    | nil => exact absurd hf (by simp)
    | cons g fields ih =>
      rw [List.map_cons, List.nodup_cons] at hdistinct
      rcases List.mem_cons.mp hf with rfl | hf
      · have hothers : ∀ g ∈ fields, ¬ (g.1 = f.1) := fun g hg heq =>
          hdistinct.1 (heq ▸ List.mem_map_of_mem hg)
        simpa [List.filter_eq_nil_iff] using hothers
      · have hne : ¬ (g.1 = f.1) := fun heq => hdistinct.1 (heq ▸ List.mem_map_of_mem hf)
        rw [List.filter_cons_of_neg (by simpa using hne), ih hdistinct.2 hf]
  rw [only?, hfilter]

private theorem mapM_eq_map {α β : Type} {f : α → Option β} {g : α → β} {xs : List α}
    (h : ∀ x ∈ xs, f x = some (g x)) : xs.mapM f = some (xs.map g) := by
  induction xs with
  | nil => rfl
  | cons x xs ih =>
    rw [List.forall_mem_cons] at h
    simp [h.1, ih h.2]

/-- A record gives its fields in the order of their names. -/
theorem fields?_record {fields : List (String × Value)} (hdistinct : (fields.map (·.1)).Nodup) :
    (record fields).fields? (fields.map (·.1)) = some (fields.map fun f => some f.2) := by
  have hmembers : (fields.map fun f => (escape f.1.toList, f.2)).mapM
      (fun m => (unescape m.1).map fun key => (String.ofList key, m.2)) = some fields := by
    rw [List.mapM_map, mapM_eq_map (g := id), List.map_id]
    intro f _
    simp [unescape_escape]
  have honly : (fields.map (·.1)).mapM (only? fields) = some (fields.map fun f => some f.2) := by
    rw [List.mapM_map]
    exact mapM_eq_map fun f hf => only?_of_mem hdistinct hf
  rw [record, fields?, hmembers]
  exact honly

end Value

end Elector.Json

namespace Elector

open Json Json.Value

/-! ## Settings -/

namespace Timing

theorem written_toValue (t : Timing) : t.toValue.Written := by
  refine written_record ?_
  simp only [List.forall_mem_cons]
  exact ⟨written_ofInt _, written_ofInt _, written_ofInt _, by simp⟩

theorem ofValue?_toValue (t : Timing) : ofValue? t.toValue = some t := by
  have hfields : t.toValue.fields?
      ["election_timeout_min", "election_timeout_max", "heartbeat_interval"] =
        some [some (.ofInt t.electionMin.toNat), some (.ofInt t.electionMax.toNat),
          some (.ofInt t.heartbeat.toNat)] :=
    fields?_record (by simp)
  rw [ofValue?, hfields]
  change (do
    let electionMin ← (Value.ofInt t.electionMin.toNat).uint64?
    let electionMax ← (Value.ofInt t.electionMax.toNat).uint64?
    let heartbeat ← (Value.ofInt t.heartbeat.toNat).uint64?
    some { electionMin, electionMax, heartbeat }) = some t
  simp only [uint64?_ofInt]
  rfl

end Timing

namespace Peer

theorem written_toValue (p : Peer) : p.toValue.Written := by
  refine written_record ?_
  simp only [List.forall_mem_cons]
  exact ⟨written_ofInt _, written_ofString _, by simp⟩

theorem ofValue?_toValue (p : Peer) : ofValue? p.toValue = some p := by
  have hfields : p.toValue.fields? ["id", "address"] =
      some [some (.ofInt p.id.toInt), some (.ofString p.address)] :=
    fields?_record (by simp)
  rw [ofValue?, hfields]
  simp only [int32?_ofInt, string?_ofString]
  rfl

end Peer

namespace ClusterSettings

theorem written_toValue (c : ClusterSettings) : c.toValue.Written := by
  refine written_record ?_
  simp only [List.forall_mem_cons]
  refine ⟨.array ?_, written_ofString _, c.timing.written_toValue, by simp⟩
  rw [List.forall_mem_map]
  exact fun p _ => p.written_toValue

theorem ofValue?_toValue (c : ClusterSettings) : ofValue? c.toValue = some c := by
  have hfields : c.toValue.fields? ["nodes", "data_dir", "timing"] =
      some [some (.array (c.nodes.map Peer.toValue)), some (.ofString c.dataDir),
        some c.timing.toValue] :=
    fields?_record (by simp)
  have hnodes : (c.nodes.map Peer.toValue).mapM Peer.ofValue? = some c.nodes := by
    rw [List.mapM_map, mapM_eq_map (g := id), List.map_id]
    exact fun p _ => p.ofValue?_toValue
  rw [ofValue?, hfields]
  change (do
    let nodes ← (c.nodes.map Peer.toValue).mapM Peer.ofValue?
    let dataDir ← (Value.ofString c.dataDir).string?
    let timing ← Timing.ofValue? c.timing.toValue
    some { nodes, dataDir, timing }) = some c
  rw [hnodes, string?_ofString, c.timing.ofValue?_toValue]
  rfl

private theorem fromUTF8?_toUTF8 (s : String) :
    String.fromUTF8? ⟨s.toUTF8.data.toList.toArray⟩ = some s := by
  have hvalid : s.toUTF8.IsValidUTF8 := s.isValidUTF8
  rw [Array.toArray_toList, String.fromUTF8?, dif_pos hvalid]
  rfl

/-- The content of the file that the settings are saved to. -/
def saved (c : ClusterSettings) : List UInt8 := c.save.toUTF8.data.toList

/-- The file that settings are saved to is loaded as these settings. -/
theorem loadFile_saved (c : ClusterSettings) : loadFile (some c.saved) = .ok c := by
  have htext : String.fromUTF8? ⟨c.saved.toArray⟩ = some c.save := fromUTF8?_toUTF8 c.save
  have hload : load c.save = .ok c := by
    simp only [load, save, parse_pretty c.written_toValue, Option.bind_some, c.ofValue?_toValue]
  rw [loadFile, Option.bind_some, htext]
  exact hload

end ClusterSettings

end Elector
