import Elector.Frame
import Elector.Proofs.Bytes

/-!
# Reading frames back

A frame is read back as the message that it was written for, whatever bytes come behind it
(`decode_encode`). A slice of a byte string that was put together from fields is found field by
field: either it starts behind the first field (`slice_behind`), or it is that field
(`slice_front`). Headers and bodies are read with nothing else.
-/

namespace Elector

namespace Bytes

variable {front after : Bytes} {offset width : Nat}

theorem slice_front (h : front.length = width) : slice (front ++ after) 0 width = front := by
  rw [slice, List.drop_zero, ← h, List.take_left]

theorem slice_behind (h : front.length ≤ offset) :
    slice (front ++ after) offset width = slice after (offset - front.length) width := by
  rw [slice, slice, List.drop_append, List.drop_of_length_le h, List.nil_append]

end Bytes

namespace Message.Kind

theorem ofTemplate_template (k : Message.Kind) : ofTemplate? k.template = some k := by
  cases k <;> rfl

end Message.Kind

namespace Header

theorem length_encode (h : Header) : h.encode.length = Frame.headerSize := by
  simp [encode, Frame.headerSize]

theorem decode_encode (h : Header) (rest : Bytes) : decode (h.encode ++ rest) = .ok h := by
  have hlen : ¬ (h.encode ++ rest).length < Frame.headerSize := by
    rw [List.length_append, length_encode]
    omega
  rw [decode, if_neg hlen, encode]
  simp [Bytes.slice_front, Bytes.slice_behind]

end Header

namespace Message

theorem ofBody_body (m : Message) (rest : Bytes) : m.kind.ofBody (m.body ++ rest) = m := by
  cases m with
  | voteRequest r => simp [kind, Kind.ofBody, body, Bytes.slice_front, Bytes.slice_behind]
  | voteResponse r =>
    simp [kind, Kind.ofBody, body, Bytes.slice_front, Bytes.slice_behind,
      List.getElem?_append_right]
  | appendEntries r => simp [kind, Kind.ofBody, body, Bytes.slice_front, Bytes.slice_behind]
  | appendResponse r =>
    simp [kind, Kind.ofBody, body, Bytes.slice_front, Bytes.slice_behind,
      List.getElem?_append_right]

end Message

namespace Frame

theorem decodeBlock_body (m : Message) (rest : Bytes) :
    decodeBlock m.kind m.kind.header (encode m ++ rest) = .ok m := by
  have hblock : ¬ m.kind.header.blockLength < m.kind.blockLength := UInt16.lt_irrefl _
  have hlen : ¬ (encode m ++ rest).length < m.kind.header.frameLength := by
    rw [List.length_append, length_encode, length]
    omega
  have hbody : (encode m ++ rest).drop headerSize = m.body ++ rest := by
    rw [encode, List.append_assoc, ← m.kind.header.length_encode, List.drop_left]
  rw [decodeBlock, if_neg hblock, if_neg hlen, hbody, Message.ofBody_body]

/-- A frame is read back, with anything behind it. -/
theorem decode_encode (m : Message) (rest : Bytes) : decode (encode m ++ rest) = .ok m := by
  have hheader : Header.decode (encode m ++ rest) = .ok m.kind.header := by
    rw [encode, List.append_assoc, Header.decode_encode]
  have htemplate : Message.Kind.ofTemplate? m.kind.header.template = some m.kind :=
    m.kind.ofTemplate_template
  rw [decode, hheader]
  simp only [htemplate, decodeBlock_body]
  exact if_neg (fun hne => hne rfl)

theorem decode_encode_self (m : Message) : decode (encode m) = .ok m := by
  rw [← decode_encode m [], List.append_nil]

end Frame

end Elector
