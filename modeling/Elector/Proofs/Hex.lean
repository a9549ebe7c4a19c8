import Elector.Hex

/-!
# Hexadecimal text is read exactly

A text reads if and only if it is, blanks apart, an even number of digits, and then the bytes that
come out are written with the same digits in lower case (`reading_is_exact`). The argument goes from
a digit and its value (`exists_value`) to a pair and its byte (`byteOf?_pair`), from there to the
cut at one offset (`byteAt_pair`), and along all offsets (`mapM_byteAt`). Writing never gives two
byte strings the same digits (`encode_injective`), so bytes that are written loosely read back.
-/

namespace Elector.Hex

def alphabet : List Char :=
  ['0', '1', '2', '3', '4', '5', '6', '7', '8', '9', 'a', 'b', 'c', 'd', 'e', 'f',
    'A', 'B', 'C', 'D', 'E', 'F']

/-! ## Digits -/

section

variable {c d : Char}

theorem exists_value (h : c ∈ alphabet) :
    ∃ v, Text.hexValue? c = some v ∧ v < 16 ∧ Text.hexDigit v = c.toLower := by
  have hall : alphabet.all fun c =>
      (Text.hexValue? c).any fun v => v < 16 && Text.hexDigit v == c.toLower := by decide
  obtain ⟨v, hv, hdigit⟩ := (Option.any_eq_true ..).1 (List.all_eq_true.1 hall c h)
  simp only [Bool.and_eq_true, decide_eq_true_eq, beq_iff_eq] at hdigit
  exact ⟨v, hv, hdigit⟩

theorem isDigit_iff : isDigit c ↔ c ∈ alphabet := by
  constructor
  · intro h
    obtain ⟨v, hv⟩ := Option.isSome_iff_exists.1 h
    have hlt : c.toNat < 103 := Nat.lt_succ_of_le (Text.le_of_hexValue? hv)
    have hall : ∀ n < 103, isDigit (Char.ofNat n) → Char.ofNat n ∈ alphabet := by decide
    have hc := hall c.toNat hlt
    rw [Char.ofNat_toNat] at hc
    exact hc h
  · intro h
    obtain ⟨v, hv, -, -⟩ := exists_value h
    exact Option.isSome_iff_exists.2 ⟨v, hv⟩

theorem isBlank_of_mem (h : c ∈ alphabet) : Text.isBlank c = false := by
  have hall : alphabet.all fun c => !Text.isBlank c := by decide
  simpa using List.all_eq_true.1 hall c h

theorem mem_of_either_case {n : Nat} (hn : n < 16)
    (h : c = Text.hexDigit n ∨ c = (Text.hexDigit n).toUpper) :
    c ∈ alphabet ∧ c.toLower = Text.hexDigit n := by
  have hlower : ∀ n < 16, Text.hexDigit n ∈ alphabet ∧
      (Text.hexDigit n).toLower = Text.hexDigit n := by decide
  have hupper : ∀ n < 16, (Text.hexDigit n).toUpper ∈ alphabet ∧
      (Text.hexDigit n).toUpper.toLower = Text.hexDigit n := by decide
  rcases h with rfl | rfl
  · exact hlower n hn
  · exact hupper n hn

theorem byteOf?_pair (hc : c ∈ alphabet) (hd : d ∈ alphabet) :
    ∃ b, byteOf? (String.ofList [c, d]) = some b ∧ byteDigits b = [c.toLower, d.toLower] := by
  obtain ⟨high, hhigh, hhigh16, hc'⟩ := exists_value hc
  obtain ⟨low, hlow, hlow16, hd'⟩ := exists_value hd
  have hsign : unsigned [c, d] = [c, d] := by
    -- a plus sign is no digit
    have hplus : c ≠ '+' := by
      rintro rfl
      exact absurd hc (by decide)
    rw [unsigned]
    intro number hnumber
    exact hplus (List.cons.inj hnumber).1
  have hvalue : 16 * high + low < 256 := by omega
  refine ⟨UInt8.ofNat (16 * high + low), ?_, ?_⟩
  · simp [byteOf?, hsign, hhigh, hlow, hvalue]
  · have hbyte : (UInt8.ofNat (16 * high + low)).toNat = 16 * high + low :=
      UInt8.toNat_ofNat_of_lt' hvalue
    rw [byteDigits, hbyte, ← hc', ← hd', show (16 * high + low) / 16 = high by omega,
      show (16 * high + low) % 16 = low by omega]

end

/-! ## Pairs -/

section

variable {s : String}

theorem byteAt_pair (h : ∀ c ∈ s.toList, c ∈ alphabet) (offset : Nat)
    (hpair : offset + 2 ≤ s.toList.length) :
    ∃ b, byteAt s offset = pure b ∧
      (s.toList.drop offset).map Char.toLower =
        byteDigits b ++ (s.toList.drop (offset + 2)).map Char.toLower := by
  have hdrop : s.toList.drop offset =
      s.toList[offset] :: s.toList[offset + 1] :: s.toList.drop (offset + 2) := by
    rw [List.drop_eq_getElem_cons, List.drop_eq_getElem_cons]
  have hcut : (s.toList.take (offset + 2)).drop offset =
      [s.toList[offset], s.toList[offset + 1]] := by
    rw [List.drop_take, hdrop, Nat.add_sub_cancel_left]
    rfl
  have hfirst : s.toList[offset] ∈ alphabet := h _ (List.getElem_mem _)
  have hsecond : s.toList[offset + 1] ∈ alphabet := h _ (List.getElem_mem _)
  obtain ⟨b, hb, hdigits⟩ := byteOf?_pair hfirst hsecond
  refine ⟨b, ?_, ?_⟩
  · rw [byteAt_of_isDigit (fun c hc => isDigit_iff.2 (h c hc)) hpair, hcut, hb]
  · rw [hdrop, hdigits]
    rfl

/-- From any offset on, the rest of the digits is read pair by pair. -/
theorem mapM_byteAt (h : ∀ c ∈ s.toList, c ∈ alphabet) (count offset : Nat)
    (hrest : offset + 2 * count = s.toList.length) :
    ∃ bs, (List.range' offset count 2).mapM (byteAt s) = pure bs ∧
      bs.flatMap byteDigits = (s.toList.drop offset).map Char.toLower := by
  induction count generalizing offset with
  | zero =>
    refine ⟨[], rfl, ?_⟩
    rw [List.drop_of_length_le (by omega)]
    rfl
  | succ count ih =>
    obtain ⟨b, hb, hdigits⟩ := byteAt_pair h offset (by omega)
    obtain ⟨bs, hbs, hrest⟩ := ih (offset + 2) (by omega)
    refine ⟨b :: bs, ?_, ?_⟩
    · rw [List.range'_succ, List.mapM_cons, hb, pure_bind, hbs, pure_bind]
    · rw [List.flatMap_cons, hrest, hdigits]

end

/-! ## Written bytes -/

theorem toList_encode (bs : Bytes) : (encode bs).toList = bs.flatMap byteDigits :=
  String.toList_ofList

theorem length_encode (bs : Bytes) : (encode bs).length = 2 * bs.length := by
  rw [← String.length_toList, toList_encode]
  induction bs with
  | nil => rfl
  | cons b bs ih =>
    rw [List.flatMap_cons, List.length_append, ih, List.length_cons]
    simp only [byteDigits, List.length_cons, List.length_nil]
    omega

theorem byteDigits_injective {a b : UInt8} (h : byteDigits a = byteDigits b) : a = b := by
  obtain ⟨hhigh, hlow⟩ : Text.hexDigit (a.toNat / 16) = Text.hexDigit (b.toNat / 16) ∧
      Text.hexDigit (a.toNat % 16) = Text.hexDigit (b.toNat % 16) := by
    simpa [byteDigits] using h
  have ha := a.toNat_lt
  have hb := b.toNat_lt
  have hvalue : ∀ m n, m < 16 → n < 16 → Text.hexDigit m = Text.hexDigit n → m = n :=
    fun m n hm hn hmn => Option.some.inj
      ((Text.hexValue?_hexDigit m hm).symm.trans (hmn ▸ Text.hexValue?_hexDigit n hn))
  have hquotient := hvalue _ _ (by omega) (by omega) hhigh
  have hremainder := hvalue _ _ (by omega) (by omega) hlow
  exact UInt8.toNat_inj.1 (by omega)

theorem encode_injective {as bs : Bytes} (h : encode as = encode bs) : as = bs := by
  rw [← String.toList_inj, toList_encode, toList_encode] at h
  induction as generalizing bs with
  | nil =>
    cases bs with
    | nil => rfl
    | cons b bs => nomatch h
  | cons a as ih =>
    cases bs with
    | nil => nomatch h
    | cons b bs =>
      rw [List.flatMap_cons, List.flatMap_cons] at h
      obtain ⟨hfirst, hrest⟩ := List.append_inj h rfl
      rw [byteDigits_injective hfirst, ih hrest]

theorem exists_of_mem_encode {bs : Bytes} {c : Char} (h : c ∈ (encode bs).toList) :
    ∃ n < 16, c = Text.hexDigit n := by
  rw [toList_encode, List.mem_flatMap] at h
  obtain ⟨b, -, hc⟩ := h
  have hb := b.toNat_lt
  rcases List.mem_cons.1 hc with rfl | hc
  · exact ⟨b.toNat / 16, by omega, rfl⟩
  · exact ⟨b.toNat % 16, by omega, List.mem_singleton.1 hc⟩

/-! ## Texts -/

def Paired (digits : String) : Prop :=
  (∀ c ∈ digits.toList, c ∈ alphabet) ∧ digits.length % 2 = 0

/-- What is wrong where the digits are not paired: the first that is none, or else their number. -/
def fault (digits : String) : HexError :=
  (digits.toList.find? (· ∉ alphabet)).elim .oddCount .badDigit

theorem read_paired {text : String} (h : Paired (digits text)) :
    ∃ bs, read text = pure bs ∧ encode bs = (digits text).map Char.toLower := by
  have hdigit : ∀ c ∈ (digits text).toList, isDigit c := fun c hc => isDigit_iff.2 (h.1 c hc)
  have hnone : (digits text).toList.find? (fun c => !isDigit c) = none := by simpa using hdigit
  have hsize := utf8ByteSize_of_isDigit hdigit
  have heven := h.2
  rw [← String.length_toList] at heven
  obtain ⟨bs, hread, hbytes⟩ :=
    mapM_byteAt h.1 ((digits text).toList.length / 2) 0 (by omega)
  have hpass : ¬ (digits text).utf8ByteSize % 2 ≠ 0 := by omega
  have hcount : ((digits text).toList.length + 1) / 2 = (digits text).toList.length / 2 := by omega
  refine ⟨bs, ?_, ?_⟩
  · rw [read, hnone]
    simp only
    rw [if_neg hpass, hsize, offsets, hcount, hread]
  · rw [encode, hbytes, List.drop_zero, ← String.toList_inj, String.toList_ofList]
    exact String.toList_map.symm

theorem read_unpaired {text : String} (h : ¬ Paired (digits text)) :
    read text = throw (fault (digits text)) := by
  have hfind : (digits text).toList.find? (fun c => !isDigit c) =
      (digits text).toList.find? (· ∉ alphabet) := by
    congr 1
    funext c
    simp [← isDigit_iff]
  rw [read, hfind, fault]
  cases hcase : (digits text).toList.find? (· ∉ alphabet) with
  | some c => rfl
  | none =>
    have hall : ∀ c ∈ (digits text).toList, c ∈ alphabet := by simpa using hcase
    have hsize := utf8ByteSize_of_isDigit fun c hc => isDigit_iff.2 (hall c hc)
    rw [String.length_toList] at hsize
    have hodd : (digits text).length % 2 ≠ 0 := fun heven => h ⟨hall, heven⟩
    simp only
    rw [if_pos (hsize ▸ hodd)]
    rfl

theorem decode_eq_of_read {text : String} {outcome : Except HexError Bytes}
    (h : (read text).run = some outcome) : decode text = outcome :=
  Option.some.inj ((run_read text).symm.trans h)

theorem decode_paired {text : String} (h : Paired (digits text)) :
    ∃ bs, decode text = .ok bs ∧ encode bs = (digits text).map Char.toLower := by
  obtain ⟨bs, hread, hbytes⟩ := read_paired h
  exact ⟨bs, decode_eq_of_read (congrArg ExceptT.run hread), hbytes⟩

theorem decode_unpaired {text : String} (h : ¬ Paired (digits text)) :
    decode text = .error (fault (digits text)) :=
  decode_eq_of_read (congrArg ExceptT.run (read_unpaired h))

theorem decode_eq_ok_iff {text : String} {bs : Bytes} :
    decode text = .ok bs ↔ Paired (digits text) ∧ encode bs = (digits text).map Char.toLower := by
  constructor
  · intro h
    by_cases hpaired : Paired (digits text)
    · obtain ⟨found, hfound, hbytes⟩ := decode_paired hpaired
      rw [Except.ok.inj (h.symm.trans hfound)]
      exact ⟨hpaired, hbytes⟩
    · rw [decode_unpaired hpaired] at h
      nomatch h
  · rintro ⟨hpaired, hbytes⟩
    obtain ⟨found, hfound, hsame⟩ := decode_paired hpaired
    rw [hfound, encode_injective (hsame.trans hbytes.symm)]

/-! ## Loosely written bytes -/

/-- `Loose text plain`: `text` is `plain` with blanks put in anywhere and letters in either case. -/
inductive Loose : List Char → List Char → Prop
  | nil : Loose [] []
  | blank {c : Char} {text plain : List Char} (hblank : Text.isBlank c) (h : Loose text plain) :
      Loose (c :: text) plain
  | char {c d : Char} {text plain : List Char} (hcase : c = d ∨ c = d.toUpper)
      (h : Loose text plain) : Loose (c :: text) (d :: plain)

theorem Loose.unblanked {text plain : List Char} (h : Loose text plain)
    (hplain : ∀ c ∈ plain, ∃ n < 16, c = Text.hexDigit n) :
    (∀ c ∈ text.filter (fun c => !Text.isBlank c), c ∈ alphabet) ∧
      (text.filter fun c => !Text.isBlank c).map Char.toLower = plain := by
  induction h with
  | nil => exact ⟨fun c hc => (List.not_mem_nil hc).elim, rfl⟩
  | blank hblank h ih =>
    rw [List.filter_cons_of_neg (by simpa using hblank)]
    exact ih hplain
  | @char c d text plain hcase h ih =>
    obtain ⟨hrest, hlower⟩ := ih fun e he => hplain e (List.mem_cons_of_mem d he)
    obtain ⟨n, hn, rfl⟩ := hplain d List.mem_cons_self
    obtain ⟨hmem, hsame⟩ := mem_of_either_case hn hcase
    rw [List.filter_cons_of_pos (by simp [isBlank_of_mem hmem]), List.map_cons, hlower, hsame]
    exact ⟨List.forall_mem_cons.2 ⟨hmem, hrest⟩, rfl⟩

theorem paired_of_loose {text : String} {bs : Bytes}
    (h : Loose text.toList (encode bs).toList) :
    Paired (digits text) ∧ encode bs = (digits text).map Char.toLower := by
  obtain ⟨hdigits, hlower⟩ := h.unblanked fun c hc => exists_of_mem_encode hc
  have hbytes : encode bs = (digits text).map Char.toLower := by
    rw [← String.toList_inj, ← hlower, String.toList_map, digits,
      String.toList_ofList]
  have hlength : (digits text).length = 2 * bs.length := by
    rw [← length_encode, hbytes, String.length_map]
  refine ⟨⟨by rwa [digits, String.toList_ofList], ?_⟩, hbytes⟩
  rw [hlength, Nat.mul_mod_right]

/-- **Hexadecimal text is read exactly.** Whatever its characters, no text brings its reading to a
cut that does not fall between characters: the reading always has an outcome. It gives bytes if and
only if the text, blanks apart, is an even number of digits of either case; the bytes are written
with the same digits in lower case, so they are half as many. All other texts are refused, for the
first character that is no digit or else for the odd number. And bytes that are written with blanks
anywhere and letters in either case read back. -/
theorem reading_is_exact (text : String) :
    (read text).run = some (decode text) ∧
    ((∃ bs, decode text = .ok bs) ↔ Paired (digits text)) ∧
    (∀ bs, decode text = .ok bs →
      encode bs = (digits text).map Char.toLower ∧ 2 * bs.length = (digits text).length) ∧
    (¬ Paired (digits text) → decode text = .error (fault (digits text))) ∧
    ∀ bs, Loose text.toList (encode bs).toList → decode text = .ok bs := by
  refine ⟨run_read text, ⟨?_, ?_⟩, ?_, decode_unpaired, ?_⟩
  · rintro ⟨bs, h⟩
    exact (decode_eq_ok_iff.1 h).1
  · intro h
    obtain ⟨bs, hdecode, -⟩ := decode_paired h
    exact ⟨bs, hdecode⟩
  · intro bs h
    obtain ⟨-, hbytes⟩ := decode_eq_ok_iff.1 h
    exact ⟨hbytes, by rw [← length_encode, hbytes, String.length_map]⟩
  · intro bs h
    exact decode_eq_ok_iff.2 (paired_of_loose h)

/-- Two bytes with blanks in front, inside a pair, between the pairs and behind; and a digit that is
not one of the sixteen, of three bytes. -/
theorem reading_is_exact_loosened :
    Loose "\u30000 A\u00a0fF\n".toList (encode [10, 255]).toList ∧
      decode "\u30000 A\u00a0fF\n" = .ok [10, 255] ∧
      encode [10, 255] = (digits "\u30000 A\u00a0fF\n").map Char.toLower ∧
      ¬ Paired (digits "1\uff11") ∧ decode "1\uff11" = .error (.badDigit '\uff11') := by
  have hloose : Loose "\u30000 A\u00a0fF\n".toList (encode [10, 255]).toList := by
    have htext : "\u30000 A\u00a0fF\n".toList =
        ['\u3000', '0', ' ', 'A', '\u00a0', 'f', 'F', '\n'] := by decide
    have hplain : (encode [10, 255]).toList = ['0', 'a', 'f', 'f'] := by decide
    rw [htext, hplain]
    exact .blank (by decide) (.char (by decide) (.blank (by decide) (.char (by decide)
      (.blank (by decide) (.char (by decide) (.char (by decide) (.blank (by decide) .nil)))))))
  have hforeign : ¬ Paired (digits "1\uff11") := fun h =>
    absurd (h.1 '\uff11' (by decide)) (by decide)
  have hfault : fault (digits "1\uff11") = .badDigit '\uff11' := by decide
  obtain ⟨-, -, hwritten, -, hread⟩ := reading_is_exact "\u30000 A\u00a0fF\n"
  obtain ⟨-, -, -, hrefused, -⟩ := reading_is_exact "1\uff11"
  have hbytes := hread [10, 255] hloose
  exact ⟨hloose, hbytes, (hwritten [10, 255] hbytes).1, hforeign, hfault ▸ hrefused hforeign⟩

end Elector.Hex
