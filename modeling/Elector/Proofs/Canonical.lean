import Elector.Proofs.Grammar

/-!
# Frames written again

The message of an accepted frame has a frame of its own, and the two are hardly ever different
(`reencoding_is_canonical`): what is written again has the sender's bytes everywhere but in the
fields that readers are lenient about. These are the block length and the version, and the byte of a
flag, of which every value but 1 means that the flag is down.
-/

namespace Elector

/-- Where the flag stands in a frame of the kind, if the kind has one. -/
def Message.Kind.flagPlace? : Message.Kind → Option Nat
  | voteResponse => some 16
  | appendResponse => some 16
  | _ => none

namespace Frame

def reencode (bs : Bytes) : Except FrameError Bytes := (decode bs).map encode

variable {bs body rest : Bytes} {header header' : Header} {m : Message} {i : Nat}

/-! ## Headers and bodies -/

theorem getElem?_header (inside : 2 ≤ i ∧ i < 6) (template : header.template = header'.template)
    (schema : header.schema = header'.schema) : header.encode[i]? = header'.encode[i]? := by
  have hmiddle : ∀ h : Header,
      h.encode[i]? = (bytes16 h.template ++ bytes16 h.schema)[i - 2]? := by
    intro h
    have hlength : (bytes16 h.blockLength).length = 2 := length_bytes16 _
    rw [Header.encode, List.getElem?_append_left (by simp; omega), List.append_assoc,
      List.getElem?_append_right (by omega), hlength]
  rw [hmiddle, hmiddle, template, schema]

/-- What spells a message is its body, up to the byte of a flag that is down. -/
theorem Spells.eq_body_or (h : Spells body m) :
    m.kind.flagPlace? = none ∧ m.body = body ∨
      ∃ (front : Bytes) (flag : UInt8), m.kind.flagPlace? = some (8 + front.length) ∧
        body = front ++ [flag] ∧ m.body = front ++ [if flag = 1 then 1 else 0] := by
  have hflag : ∀ {b : Bool} {flag : UInt8}, (b = true ↔ flag = 1) →
      flagByte b = if flag = 1 then 1 else 0 := by
    intro b flag raised
    simp only [flagByte, raised]
  cases h with
  | voteRequest r => exact Or.inl ⟨rfl, rfl⟩
  | voteResponse r flag raised =>
    refine Or.inr ⟨bytes32 r.voter ++ bytes32 r.term, flag, rfl, rfl, ?_⟩
    rw [Message.body, hflag raised]
  | appendEntries r => exact Or.inl ⟨rfl, rfl⟩
  | appendResponse r flag raised =>
    refine Or.inr ⟨bytes32 r.follower ++ bytes32 r.term, flag, rfl, rfl, ?_⟩
    rw [Message.body, hflag raised]

theorem Spells.getElem?_body (h : Spells body m) (plain : m.kind.flagPlace? ≠ some (8 + i)) :
    m.body[i]? = body[i]? := by
  rcases h.eq_body_or with ⟨_, hbody⟩ | ⟨front, flag, hplace, hspelled, hbody⟩
  · rw [hbody]
  · have hne : i ≠ front.length := fun heq => plain (heq ▸ hplace)
    rw [hbody, hspelled]
    rcases Nat.lt_or_gt_of_ne hne with hfront | hbehind
    · rw [List.getElem?_append_left hfront, List.getElem?_append_left hfront]
    · rw [List.getElem?_eq_none (by simp; omega), List.getElem?_eq_none (by simp; omega)]

theorem Spells.flag_inside (h : Spells body m) (flagged : m.kind.flagPlace? = some i) :
    ∃ k < body.length, i = 8 + k := by
  rcases h.eq_body_or with ⟨hplace, _⟩ | ⟨front, flag, hplace, hspelled, _⟩
  · rw [hplace] at flagged
    cases flagged
  · refine ⟨front.length, ?_, Option.some.inj (flagged.symm.trans hplace)⟩
    rw [hspelled, List.length_append, List.length_singleton]
    omega

theorem Spells.getElem?_flag (h : Spells body m) (flagged : m.kind.flagPlace? = some (8 + i)) :
    m.body[i]? = some (if body[i]? = some 1 then 1 else 0) := by
  rcases h.eq_body_or with ⟨hplace, _⟩ | ⟨front, flag, hplace, hspelled, hbody⟩
  · rw [hplace] at flagged
    cases flagged
  · have hi : i = front.length := by
      rw [hplace] at flagged
      exact (Nat.add_left_cancel (Option.some.inj flagged)).symm
    rw [hbody, hspelled, hi, List.getElem?_concat_length, List.getElem?_concat_length]
    simp only [Option.some.injEq]

theorem Spells.body_eq (h : Spells body m)
    (known : ∀ i, m.kind.flagPlace? = some (8 + i) → body[i]? = some 0 ∨ body[i]? = some 1) :
    m.body = body := by
  rcases h.eq_body_or with ⟨_, hbody⟩ | ⟨front, flag, hplace, hspelled, hbody⟩
  · exact hbody
  · have hflag := known front.length hplace
    rw [hspelled, List.getElem?_concat_length, Option.some.injEq, Option.some.injEq] at hflag
    rw [hbody, hspelled]
    rcases hflag with rfl | rfl <;> rfl

/-! ## Accepted frames -/

theorem parts_of_decode (h : decode bs = .ok m) :
    ∃ header body rest, bs = Header.encode header ++ (body ++ rest) ∧ header.schema = 5 ∧
      header.template = m.kind.template ∧ Spells body m := by
  cases decode_eq_iff.mp h with
  | @message header body extension rest m schema template spells block =>
    exact ⟨header, body, extension ++ rest, by rw [List.append_assoc], schema, template, spells⟩

theorem getElem?_front (header : Header) (rest : Bytes) (hi : i < 8) :
    (header.encode ++ rest)[i]? = header.encode[i]? := by
  have hlength : header.encode.length = 8 := header.length_encode
  rw [List.getElem?_append_left (by omega)]

theorem getElem?_behind (header : Header) (rest : Bytes) (i : Nat) :
    (header.encode ++ rest)[8 + i]? = rest[i]? := by
  have hlength : header.encode.length = 8 := header.length_encode
  rw [List.getElem?_append_right (by omega), hlength, Nat.add_sub_cancel_left]

theorem getElem?_encode (h : decode bs = .ok m) (first : 2 ≤ i)
    (inside : i < 8 + m.kind.blockLength.toNat) (version : i < 6 ∨ 8 ≤ i)
    (plain : m.kind.flagPlace? ≠ some i) : (encode m)[i]? = bs[i]? := by
  obtain ⟨header, body, rest, rfl, schema, template, spells⟩ := parts_of_decode h
  rw [encode]
  rcases version with hfront | hbehind
  · rw [getElem?_front _ _ (by omega), getElem?_front _ _ (by omega)]
    exact getElem?_header ⟨first, hfront⟩ template.symm schema.symm
  · obtain ⟨k, rfl⟩ := Nat.exists_eq_add_of_le hbehind
    have hk : k < body.length := by
      rw [spells.length]
      omega
    rw [getElem?_behind, getElem?_behind, List.getElem?_append_left hk]
    exact spells.getElem?_body plain

theorem getElem?_encode_flag (h : decode bs = .ok m) (flagged : m.kind.flagPlace? = some i) :
    (encode m)[i]? = some (if bs[i]? = some 1 then 1 else 0) := by
  obtain ⟨header, body, rest, rfl, schema, template, spells⟩ := parts_of_decode h
  obtain ⟨k, hk, rfl⟩ := spells.flag_inside flagged
  rw [encode, getElem?_behind, getElem?_behind, List.getElem?_append_left hk]
  exact spells.getElem?_flag flagged

/-- A byte string begins with what is written again if all its lenient fields are as senders write
them. -/
theorem encode_prefix (h : decode bs = .ok m) (hheader : Header.decode bs = .ok header)
    (block : header.blockLength = m.kind.blockLength) (version : header.version = 1)
    (known : ∀ i, m.kind.flagPlace? = some i → bs[i]? = some 0 ∨ bs[i]? = some 1) :
    encode m <+: bs := by
  obtain ⟨header', body, rest, rfl, schema, template, spells⟩ := parts_of_decode h
  rw [Header.decode_encode] at hheader
  obtain rfl : header' = header := Except.ok.inj hheader
  have hsame : header' = m.kind.header := by
    cases header'
    simp only at block version schema template
    rw [block, template, schema, version]
    rfl
  have hbody : m.body = body := by
    apply spells.body_eq
    intro i hplace
    obtain ⟨k, hk, hi⟩ := spells.flag_inside hplace
    obtain rfl : i = k := Nat.add_left_cancel hi
    have hflag := known (8 + i) hplace
    rw [getElem?_behind, List.getElem?_append_left hk] at hflag
    exact hflag
  rw [encode, hbody, hsame, ← List.append_assoc]
  exact List.prefix_append _ _

/-- **Writing an accepted frame again is canonical.** The frame of the message has the length that
its kind says, and it has the bytes of the accepted frame everywhere but in three places: its block
length is that of the kind, its version is 1, and its flag is 1 or 0, just as the accepted frame's
flag is 1 or not. It is read as the same message, so writing it again changes nothing. The accepted
bytes begin with it exactly if they announce the block length of the kind and version 1 and have no
flag other than 0 and 1. -/
theorem reencoding_is_canonical (h : decode bs = .ok m) :
    (encode m).length = 8 + m.kind.blockLength.toNat ∧
    (∀ i, 2 ≤ i → i < 8 + m.kind.blockLength.toNat → (i < 6 ∨ 8 ≤ i) →
      m.kind.flagPlace? ≠ some i → (encode m)[i]? = bs[i]?) ∧
    (encode m).slice 0 2 = bytes16 m.kind.blockLength ∧ (encode m).slice 6 2 = bytes16 1 ∧
    (∀ i, m.kind.flagPlace? = some i →
      (encode m)[i]? = some (if bs[i]? = some 1 then 1 else 0)) ∧
    decode (encode m) = .ok m ∧ reencode bs = .ok (encode m) ∧
    reencode (encode m) = .ok (encode m) ∧
    (encode m <+: bs ↔ ∃ header, Header.decode bs = .ok header ∧
      header.blockLength = m.kind.blockLength ∧ header.version = 1 ∧
      ∀ i, m.kind.flagPlace? = some i → bs[i]? = some 0 ∨ bs[i]? = some 1) := by
  have hagain := decode_encode_self m
  have hflags : ∀ i, m.kind.flagPlace? = some i →
      (encode m)[i]? = some 0 ∨ (encode m)[i]? = some 1 := by
    intro i hplace
    rw [getElem?_encode_flag hagain hplace]
    split
    · exact Or.inr rfl
    · exact Or.inl rfl
  refine ⟨length_encode m, fun i => getElem?_encode h, ?_, ?_, fun i => getElem?_encode_flag h,
    hagain, by rw [reencode, h]; rfl, by rw [reencode, hagain]; rfl, ?_, ?_⟩
  · simp [encode, Header.encode, Message.Kind.header, Bytes.slice_front]
  · simp [encode, Header.encode, Message.Kind.header, Bytes.slice_front, Bytes.slice_behind,
      version]
  · rintro ⟨rest, rfl⟩
    refine ⟨m.kind.header, header_encode m rest, rfl, rfl, fun i hplace => ?_⟩
    have hflag := hflags i hplace
    have hi : i < (encode m).length := by
      rcases hflag with hflag | hflag <;> exact (List.getElem?_eq_some_iff.mp hflag).1
    rw [List.getElem?_append_left hi]
    exact hflag
  · rintro ⟨header, hheader, block, version, known⟩
    exact encode_prefix h hheader block version known

/-- A vote whose block is longer than known, whose version is later, whose flag is odd, and which
has more behind it: it is written again as a plain refusal. -/
theorem reencoding_is_canonical_oddVote :
    let bs := (widerVote 7).encode ++ (oddVote ++ [8, 9] ++ [255])
    let m := Message.voteResponse { voter := -2, term := 70000, granted := false }
    decode bs = .ok m ∧ (encode m).length = 17 ∧ (encode m)[9]? = bs[9]? ∧
      (encode m)[16]? = some 0 ∧ reencode bs = .ok (encode m) ∧ ¬ encode m <+: bs := by
  intro bs m
  have hread : decode bs = .ok m := rfl
  obtain ⟨hlength, hsame, _, _, hflag, _, hagain, _, hprefix⟩ := reencoding_is_canonical hread
  refine ⟨hread, hlength, hsame 9 (by decide) (by decide) (by decide) (by decide), hflag 16 rfl,
    hagain, fun hbegins => ?_⟩
  obtain ⟨header, hheader, _, hversion, _⟩ := hprefix.mp hbegins
  rw [Header.decode_encode] at hheader
  obtain rfl := Except.ok.inj hheader
  cases hversion

end Frame

end Elector
