import Elector.Proofs.Stream

/-!
# The grammar of frames

What has to be said of any byte string that should begin with a frame. `Spells` tells how a body
spells a message, and `Verdict` gives the one answer to each byte string: the message that a whole
frame in front of it spells, or else the first fault, in the order in which faults are looked for.
Readers give just these answers (`decode_eq_iff`).

What `Verdict` leaves open is skipped: the version, what a body holds behind the fields of its kind,
and what stands behind the frame. `ReadsAlike` relates byte strings that differ in nothing else.
-/

namespace Elector

/-! ## Slices of any byte string -/

namespace Bytes

theorem length_slice {bs : Bytes} {offset width : Nat} (h : offset + width ≤ bs.length) :
    (bs.slice offset width).length = width := by
  rw [slice, List.length_take, List.length_drop]
  omega

theorem slice_append_slice {bs : Bytes} {offset width next more : Nat} (h : offset + width = next) :
    bs.slice offset width ++ bs.slice next more = bs.slice offset (width + more) := by
  rw [slice, slice, slice, ← h, ← List.drop_drop, ← List.take_add]

theorem slice_one {bs : Bytes} {offset : Nat} (h : offset < bs.length) :
    bs.slice offset 1 = [bs.getD offset 0] := by
  rw [slice, List.drop_eq_getElem_cons h, List.take_succ_cons, List.take_zero,
    List.getD_eq_getElem?_getD, List.getElem?_eq_getElem h, Option.getD_some]

theorem slice_all {bs : Bytes} {width : Nat} (h : bs.length = width) : bs.slice 0 width = bs := by
  rw [slice, List.drop_zero, ← h, List.take_length]

theorem bytes16_slice {bs : Bytes} {offset : Nat} (h : offset + 2 ≤ bs.length) :
    bytes16 (word16 (bs.slice offset 2)) = bs.slice offset 2 :=
  bytes16_word16 (length_slice h)

theorem bytes32_slice {bs : Bytes} {offset : Nat} (h : offset + 4 ≤ bs.length) :
    bytes32 (word32 (bs.slice offset 4)) = bs.slice offset 4 :=
  bytes32_word32 (length_slice h)

theorem bytes64_slice {bs : Bytes} {offset : Nat} (h : offset + 8 ≤ bs.length) :
    bytes64 (word64 (bs.slice offset 8)) = bs.slice offset 8 :=
  bytes64_word64 (length_slice h)

end Bytes

theorem Header.exists_encode {bs : Bytes} (h : Frame.headerSize ≤ bs.length) :
    ∃ (header : Header) (rest : Bytes), bs = header.encode ++ rest := by
  rw [Frame.headerSize] at h
  let header : Header := {
    blockLength := word16 (bs.slice 0 2)
    template := word16 (bs.slice 2 2)
    schema := word16 (bs.slice 4 2)
    version := word16 (bs.slice 6 2) }
  have hencode : header.encode = bs.take 8 := by
    rw [encode, Bytes.bytes16_slice (by omega), Bytes.bytes16_slice (by omega),
      Bytes.bytes16_slice (by omega), Bytes.bytes16_slice (by omega),
      Bytes.slice_append_slice rfl, Bytes.slice_append_slice rfl, Bytes.slice_append_slice rfl]
    rfl
  exact ⟨header, bs.drop 8, by rw [hencode, List.take_append_drop]⟩

namespace Message.Kind

theorem ofTemplate?_eq_some {template : UInt16} {k : Message.Kind} :
    ofTemplate? template = some k ↔ template = k.template := by
  constructor
  · intro h
    unfold ofTemplate? at h
    split at h
    · exact Option.some.inj h ▸ rfl
    · exact Option.some.inj h ▸ rfl
    · exact Option.some.inj h ▸ rfl
    · exact Option.some.inj h ▸ rfl
    · cases h
  · rintro rfl
    exact k.ofTemplate_template

theorem ofTemplate?_eq_none {template : UInt16} :
    ofTemplate? template = none ↔ ∀ k : Message.Kind, template ≠ k.template := by
  simp only [Option.eq_none_iff_forall_ne_some, ne_eq, ofTemplate?_eq_some]

@[simp] theorem kind_ofBody (k : Message.Kind) (body : Bytes) : (k.ofBody body).kind = k := by
  cases k <;> rfl

end Message.Kind

namespace Frame

/-! ## The grammar -/

/-- The body spells the fields of the message in order. The byte 1 alone raises a flag. -/
inductive Spells : Bytes → Message → Prop
  | voteRequest (m : VoteRequest) :
      Spells (bytes32 m.candidate ++ bytes32 m.term ++ bytes32 m.last.term ++ bytes64 m.last.index)
        (.voteRequest m)
  | voteResponse (m : VoteResponse) (flag : UInt8) (raised : m.granted = true ↔ flag = 1) :
      Spells (bytes32 m.voter ++ bytes32 m.term ++ [flag]) (.voteResponse m)
  | appendEntries (m : AppendEntries) :
      Spells (bytes32 m.leader ++ bytes32 m.term ++ bytes32 m.previous.term ++
        bytes64 m.previous.index ++ bytes64 m.commit) (.appendEntries m)
  | appendResponse (m : AppendResponse) (flag : UInt8) (raised : m.success = true ↔ flag = 1) :
      Spells (bytes32 m.follower ++ bytes32 m.term ++ [flag]) (.appendResponse m)

/-- What has to be said of a byte string. Faults come in the order in which they are looked for:
there is no header, the schema is another one, no kind has the template, the body is shorter than
the fields of its kind, the frame is not all there. -/
inductive Verdict : Bytes → Except FrameError Message → Prop
  | noHeader {bs : Bytes} (short : bs.length < 8) : Verdict bs (.error (.truncated 8 bs.length))
  | otherSchema {header : Header} {rest : Bytes} (other : header.schema ≠ 5) :
      Verdict (header.encode ++ rest) (.error (.schemaMismatch 5 header.schema))
  | noKind {header : Header} {rest : Bytes} (schema : header.schema = 5)
      (unknown : ∀ k : Message.Kind, header.template ≠ k.template) :
      Verdict (header.encode ++ rest) (.error (.unknownTemplate header.template))
  | smallBlock {header : Header} {rest : Bytes} {k : Message.Kind} (schema : header.schema = 5)
      (template : header.template = k.template) (small : header.blockLength < k.blockLength) :
      Verdict (header.encode ++ rest) (.error (.blockTooShort header.blockLength k.blockLength))
  | cutFrame {header : Header} {rest : Bytes} {k : Message.Kind} (schema : header.schema = 5)
      (template : header.template = k.template) (enough : k.blockLength ≤ header.blockLength)
      (cut : rest.length < header.blockLength.toNat) :
      Verdict (header.encode ++ rest)
        (.error (.truncated (8 + header.blockLength.toNat) (8 + rest.length)))
  | message {header : Header} {body extension rest : Bytes} {m : Message}
      (schema : header.schema = 5) (template : header.template = m.kind.template)
      (spells : Spells body m) (block : header.blockLength.toNat = body.length + extension.length) :
      Verdict (header.encode ++ (body ++ extension ++ rest)) (.ok m)

/-- The byte strings differ at most in what is skipped: the version, the bytes between the fields of
a known kind and the end of the block, and, where the block is all there, the bytes behind it. -/
inductive ReadsAlike : Bytes → Bytes → Prop
  | noHeader {bs bs' : Bytes} (short : bs.length < 8) (same : bs'.length = bs.length) :
      ReadsAlike bs bs'
  | header {header : Header} {rest rest' : Bytes} (version : UInt16)
      (block : ∀ k : Message.Kind, header.template = k.template →
        rest'.take k.blockLength.toNat = rest.take k.blockLength.toNat)
      (reach : rest'.length = rest.length ∨
        header.blockLength.toNat ≤ rest.length ∧ header.blockLength.toNat ≤ rest'.length) :
      ReadsAlike (header.encode ++ rest) ({ header with version }.encode ++ rest')

variable {bs bs' body rest rest' : Bytes} {header : Header} {m : Message} {k : Message.Kind}
  {r : Except FrameError Message}

/-! ## Bodies -/

theorem Spells.length (h : Spells body m) : body.length = m.kind.blockLength.toNat := by
  cases h <;> simp [Message.kind, Message.Kind.blockLength]

theorem Spells.ofBody (h : Spells body m) (rest : Bytes) : m.kind.ofBody (body ++ rest) = m := by
  have hflag : ∀ {b : Bool} {flag : UInt8}, (b = true ↔ flag = 1) → flagOf flag = b := by
    intro b flag raised
    rw [flagOf, Bool.eq_iff_iff, raised, beq_iff_eq]
  cases h with
  | voteRequest m =>
    simp [Message.kind, Message.Kind.ofBody, Bytes.slice_front, Bytes.slice_behind]
  | voteResponse m flag raised =>
    simp [Message.kind, Message.Kind.ofBody, Bytes.slice_front, Bytes.slice_behind,
      List.getElem?_append_right, hflag raised]
  | appendEntries m =>
    simp [Message.kind, Message.Kind.ofBody, Bytes.slice_front, Bytes.slice_behind]
  | appendResponse m flag raised =>
    simp [Message.kind, Message.Kind.ofBody, Bytes.slice_front, Bytes.slice_behind,
      List.getElem?_append_right, hflag raised]

theorem spells_ofBody (k : Message.Kind) (h : body.length = k.blockLength.toNat) :
    Spells body (k.ofBody body) := by
  have hraised : ∀ flag, flagOf flag = true ↔ flag = 1 := fun flag => beq_iff_eq
  cases k with
  | voteRequest =>
    have hlength : body.length = 20 := h
    have hspells := Spells.voteRequest {
      candidate := word32 (body.slice 0 4)
      term := word32 (body.slice 4 4)
      last := { term := word32 (body.slice 8 4), index := word64 (body.slice 12 8) } }
    simp (disch := omega) only [Bytes.bytes32_slice, Bytes.bytes64_slice, Bytes.slice_append_slice,
      Bytes.slice_all] at hspells
    exact hspells
  | voteResponse =>
    have hlength : body.length = 9 := h
    have hspells := Spells.voteResponse {
      voter := word32 (body.slice 0 4)
      term := word32 (body.slice 4 4)
      granted := flagOf (body.getD 8 0) } (body.getD 8 0) (hraised _)
    simp (disch := omega) only [Bytes.bytes32_slice, ← Bytes.slice_one, Bytes.slice_append_slice,
      Bytes.slice_all] at hspells
    exact hspells
  | appendEntries =>
    have hlength : body.length = 28 := h
    have hspells := Spells.appendEntries {
      leader := word32 (body.slice 0 4)
      term := word32 (body.slice 4 4)
      previous := { term := word32 (body.slice 8 4), index := word64 (body.slice 12 8) }
      commit := word64 (body.slice 20 8) }
    simp (disch := omega) only [Bytes.bytes32_slice, Bytes.bytes64_slice, Bytes.slice_append_slice,
      Bytes.slice_all] at hspells
    exact hspells
  | appendResponse =>
    have hlength : body.length = 9 := h
    have hspells := Spells.appendResponse {
      follower := word32 (body.slice 0 4)
      term := word32 (body.slice 4 4)
      success := flagOf (body.getD 8 0) } (body.getD 8 0) (hraised _)
    simp (disch := omega) only [Bytes.bytes32_slice, ← Bytes.slice_one, Bytes.slice_append_slice,
      Bytes.slice_all] at hspells
    exact hspells

theorem ofBody_take (k : Message.Kind) (h : k.blockLength.toNat ≤ body.length) :
    k.ofBody (body.take k.blockLength.toNat) = k.ofBody body := by
  have hspells : Spells (body.take k.blockLength.toNat)
      (k.ofBody (body.take k.blockLength.toNat)) :=
    spells_ofBody k (by rw [List.length_take]; omega)
  have hread := hspells.ofBody (body.drop k.blockLength.toNat)
  rw [Message.Kind.kind_ofBody, List.take_append_drop] at hread
  exact hread.symm

/-! ## Readers behind a header -/

theorem decodeAs_short (h : bs.length < headerSize) :
    decodeAs k bs = .error (.truncated headerSize bs.length) := by
  rw [decodeAs, Header.decode, if_pos h]

theorem length_header (header : Header) (rest : Bytes) :
    (header.encode ++ rest).length = headerSize + rest.length := by
  rw [List.length_append, Header.length_encode]

theorem decodeBlock_header (k : Message.Kind) (header : Header) (rest : Bytes) :
    decodeBlock k header (header.encode ++ rest) =
      if header.blockLength < k.blockLength then
        .error (.blockTooShort header.blockLength k.blockLength)
      else if rest.length < header.blockLength.toNat then
        .error (.truncated (8 + header.blockLength.toNat) (8 + rest.length))
      else .ok (k.ofBody rest) := by
  have hdrop : (header.encode ++ rest).drop headerSize = rest := by
    rw [← header.length_encode, List.drop_left]
  rw [decodeBlock, length_header, hdrop, Header.frameLength]
  simp only [Nat.add_lt_add_iff_left]
  rfl

theorem decode_otherSchema (other : header.schema ≠ 5) :
    decode (header.encode ++ rest) = .error (.schemaMismatch 5 header.schema) ∧
      decodeAs k (header.encode ++ rest) = .error (.schemaMismatch 5 header.schema) := by
  rw [decode, decodeAs, Header.decode_encode]
  exact ⟨if_pos other, if_pos other⟩

theorem decode_noKind (schema : header.schema = 5)
    (unknown : ∀ k : Message.Kind, header.template ≠ k.template) :
    decode (header.encode ++ rest) = .error (.unknownTemplate header.template) := by
  rw [decode, Header.decode_encode]
  simp only [Message.Kind.ofTemplate?_eq_none.mpr unknown]
  exact if_neg (not_not_intro schema)

theorem decode_kind (schema : header.schema = 5) (template : header.template = k.template) :
    decode (header.encode ++ rest) = decodeBlock k header (header.encode ++ rest) := by
  rw [decode, Header.decode_encode]
  simp only [Message.Kind.ofTemplate?_eq_some.mpr template]
  exact if_neg (not_not_intro schema)

theorem decodeAs_kind (schema : header.schema = 5) (template : header.template = k.template) :
    decodeAs k (header.encode ++ rest) = decodeBlock k header (header.encode ++ rest) := by
  rw [decodeAs, Header.decode_encode]
  exact (if_neg (not_not_intro schema)).trans (if_neg (not_not_intro template))

/-- A reader of one kind refuses the others by their template, whatever follows. -/
theorem decodeAs_otherKind (schema : header.schema = 5) (other : header.template ≠ k.template) :
    decodeAs k (header.encode ++ rest) =
      .error (.templateMismatch k.template header.template) := by
  rw [decodeAs, Header.decode_encode]
  exact (if_neg (not_not_intro schema)).trans (if_pos other)

/-! ## Readers of any byte string -/

theorem exists_verdict (bs : Bytes) : ∃ r, Verdict bs r := by
  by_cases short : bs.length < 8
  · exact ⟨_, .noHeader short⟩
  obtain ⟨header, rest, rfl⟩ := Header.exists_encode (Nat.not_lt.mp short)
  by_cases other : header.schema ≠ 5
  · exact ⟨_, .otherSchema other⟩
  have schema : header.schema = 5 := Decidable.not_not.mp other
  cases hkind : Message.Kind.ofTemplate? header.template with
  | none => exact ⟨_, .noKind schema (Message.Kind.ofTemplate?_eq_none.mp hkind)⟩
  | some k =>
  have template := Message.Kind.ofTemplate?_eq_some.mp hkind
  by_cases small : header.blockLength < k.blockLength
  · exact ⟨_, .smallBlock schema template small⟩
  have enough := UInt16.not_lt.mp small
  by_cases cut : rest.length < header.blockLength.toNat
  · exact ⟨_, .cutFrame schema template enough cut⟩
  have hblock := UInt16.le_iff_toNat_le.mp enough
  let block := rest.take header.blockLength.toNat
  have hlength : (block.take k.blockLength.toNat).length = k.blockLength.toNat := by
    rw [List.length_take, List.length_take]
    omega
  have hblocks : header.encode ++ rest = header.encode ++ (block.take k.blockLength.toNat ++
      block.drop k.blockLength.toNat ++ rest.drop header.blockLength.toNat) := by
    rw [List.take_append_drop, List.take_append_drop]
  rw [hblocks]
  exact ⟨_, .message schema (by rw [template, Message.Kind.kind_ofBody]) (spells_ofBody k hlength)
    (by rw [hlength, List.length_drop, List.length_take]; omega)⟩

theorem decode_of_verdict (h : Verdict bs r) : decode bs = r := by
  cases h with
  | noHeader short => exact decode_short short
  | otherSchema other => exact (decode_otherSchema (k := .voteRequest) other).1
  | noKind schema unknown => exact decode_noKind schema unknown
  | smallBlock schema template small =>
    rw [decode_kind schema template, decodeBlock_header, if_pos small]
  | cutFrame schema template enough cut =>
    rw [decode_kind schema template, decodeBlock_header, if_neg (UInt16.not_lt.mpr enough),
      if_pos cut]
  | @message header body extension rest m schema template spells block =>
    have hsmall : ¬ header.blockLength < m.kind.blockLength := by
      rw [UInt16.lt_iff_toNat_lt, block, spells.length]
      omega
    have hcut : ¬ (body ++ extension ++ rest).length < header.blockLength.toNat := by
      rw [block, List.length_append, List.length_append]
      omega
    rw [decode_kind schema template, decodeBlock_header, if_neg hsmall, if_neg hcut,
      List.append_assoc, spells.ofBody]

/-- The answer to a byte string is its verdict. -/
theorem decode_eq_iff : decode bs = r ↔ Verdict bs r := by
  constructor
  · rintro rfl
    obtain ⟨r, hverdict⟩ := exists_verdict bs
    rw [decode_of_verdict hverdict]
    exact hverdict
  · exact decode_of_verdict

/-- A reader of one kind answers like the reader of all kinds, unless the header is one of another
kind. -/
theorem decodeAs_eq_decode (k : Message.Kind)
    (h : ∀ header rest, bs = Header.encode header ++ rest → header.schema = 5 →
      header.template = k.template) : decodeAs k bs = decode bs := by
  by_cases short : bs.length < 8
  · rw [decode_short short, decodeAs_short short]
  obtain ⟨header, rest, rfl⟩ := Header.exists_encode (Nat.not_lt.mp short)
  by_cases schema : header.schema = 5
  · have template := h header rest rfl schema
    rw [decodeAs_kind schema template, decode_kind schema template]
  · rw [(decode_otherSchema (k := k) schema).1, (decode_otherSchema schema).2]

/-! ## What is skipped -/

theorem decodeBlock_readsAlike (version : UInt16)
    (block : rest'.take k.blockLength.toNat = rest.take k.blockLength.toNat)
    (reach : rest'.length = rest.length ∨
      header.blockLength.toNat ≤ rest.length ∧ header.blockLength.toNat ≤ rest'.length) :
    decodeBlock k { header with version } ({ header with version }.encode ++ rest') =
      decodeBlock k header (header.encode ++ rest) := by
  rw [decodeBlock_header, decodeBlock_header]
  by_cases small : header.blockLength < k.blockLength
  · rw [if_pos small, if_pos small]
  rw [if_neg small, if_neg small]
  have enough := UInt16.le_iff_toNat_le.mp (UInt16.not_lt.mp small)
  by_cases cut : rest.length < header.blockLength.toNat
  · have hsame : rest'.length = rest.length := by omega
    rw [hsame, if_pos cut, if_pos cut]
  · have hcut : ¬ rest'.length < header.blockLength.toNat := by omega
    have hlong' : k.blockLength.toNat ≤ rest'.length := by omega
    rw [if_neg cut, if_neg hcut, ← ofBody_take k hlong', block, ofBody_take k (by omega)]

theorem decode_readsAlike (h : ReadsAlike bs bs') :
    decode bs' = decode bs ∧ ∀ k, decodeAs k bs' = decodeAs k bs := by
  cases h with
  | noHeader short same =>
    have short' : bs'.length < 8 := same.symm ▸ short
    rw [decode_short short, decode_short short', same]
    exact ⟨rfl, fun k => by rw [decodeAs_short short, decodeAs_short short', same]⟩
  | @header header rest rest' version block reach =>
    by_cases other : header.schema ≠ 5
    · have other' : ({ header with version } : Header).schema ≠ 5 := other
      constructor
      · rw [(decode_otherSchema (k := .voteRequest) other).1]
        exact (decode_otherSchema (k := .voteRequest) other').1
      · intro k
        rw [(decode_otherSchema other).2]
        exact (decode_otherSchema other').2
    have schema : header.schema = 5 := Decidable.not_not.mp other
    have schema' : ({ header with version } : Header).schema = 5 := schema
    constructor
    · cases hkind : Message.Kind.ofTemplate? header.template with
      | none =>
        have unknown := Message.Kind.ofTemplate?_eq_none.mp hkind
        rw [decode_noKind schema unknown]
        exact decode_noKind schema' unknown
      | some k =>
        have template := Message.Kind.ofTemplate?_eq_some.mp hkind
        rw [decode_kind schema template]
        exact (decode_kind schema' template).trans
          (decodeBlock_readsAlike version (block k template) reach)
    · intro k
      by_cases template : header.template = k.template
      · rw [decodeAs_kind schema template]
        exact (decodeAs_kind schema' template).trans
          (decodeBlock_readsAlike version (block k template) reach)
      · rw [decodeAs_otherKind schema template]
        exact decodeAs_otherKind schema' template

/-! ## Readers keep to the grammar -/

/-- Readers keep to the grammar of frames. A byte string is read as a message exactly if it begins
with a frame that spells it, and is else refused for the first of its faults. A reader of one kind
gives the same answer, except that it refuses a header of another template at once. What is skipped
makes no difference to either answer. -/
theorem readers_keep_to_the_grammar (bs : Bytes) :
    (∀ r, decode bs = r ↔ Verdict bs r) ∧
    (∀ k : Message.Kind,
      (∀ header rest, bs = Header.encode header ++ rest → header.schema = 5 →
        header.template ≠ k.template →
          decodeAs k bs = .error (.templateMismatch k.template header.template)) ∧
      ((∀ header rest, bs = Header.encode header ++ rest → header.schema = 5 →
        header.template = k.template) → decodeAs k bs = decode bs)) ∧
    ∀ bs', ReadsAlike bs bs' → decode bs' = decode bs ∧ ∀ k, decodeAs k bs' = decodeAs k bs := by
  refine ⟨fun r => decode_eq_iff, fun k => ⟨?_, decodeAs_eq_decode k⟩, fun bs' => decode_readsAlike⟩
  rintro header rest rfl schema other
  exact decodeAs_otherKind schema other

def widerVote (version : UInt16) : Header where
  blockLength := 11
  template := 2
  schema := 5
  version := version

/-- The body of a vote whose flag is neither of the two bytes that senders write. -/
def oddVote : Bytes := bytes32 (-2) ++ bytes32 70000 ++ [2]

/-- An odd vote is not granted, whatever its sender's version, with other bytes added and with or
without more behind the frame. -/
theorem readers_keep_to_the_grammar_oddVote :
    let bs := (widerVote 7).encode ++ (oddVote ++ [8, 9] ++ [255])
    let bs' := (widerVote 1).encode ++ (oddVote ++ [0, 0])
    decode bs = .ok (.voteResponse { voter := -2, term := 70000, granted := false }) ∧
      decodeAs .voteRequest bs = .error (.templateMismatch 1 2) ∧
      decodeAs .voteResponse bs = decode bs ∧ decode bs' = decode bs := by
  intro bs bs'
  obtain ⟨hverdict, hkinds, hskipped⟩ := readers_keep_to_the_grammar bs
  have hspells : Spells oddVote (.voteResponse { voter := -2, term := 70000, granted := false }) :=
    .voteResponse { voter := -2, term := 70000, granted := false } 2 (by decide)
  have hread : Verdict bs (.ok (.voteResponse { voter := -2, term := 70000, granted := false })) :=
    .message rfl rfl hspells (by decide)
  have hown : ∀ header rest, bs = Header.encode header ++ rest → header.schema = 5 →
      header.template = Message.Kind.voteResponse.template := by
    intro header rest heq _
    have hheader := congrArg Header.decode heq
    rw [Header.decode_encode, Header.decode_encode] at hheader
    rw [← Except.ok.inj hheader]
    rfl
  have hblock : ∀ k : Message.Kind, (widerVote 7).template = k.template →
      (oddVote ++ [0, 0]).take k.blockLength.toNat =
        (oddVote ++ [8, 9] ++ [255]).take k.blockLength.toNat := by
    intro k template
    obtain rfl : Message.Kind.voteResponse = k :=
      Option.some.inj (Message.Kind.ofTemplate?_eq_some.mpr template)
    rfl
  have halike : ReadsAlike bs bs' := .header 1 hblock (by decide)
  exact ⟨(hverdict _).mpr hread, (hkinds .voteRequest).1 (widerVote 7) _ rfl rfl (by decide),
    (hkinds .voteResponse).2 hown, (hskipped _ halike).1⟩

end Frame

end Elector
