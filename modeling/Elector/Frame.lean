import Elector.Bytes
import Elector.Message

/-!
# Frames

Messages on the wire. A frame is an eight byte header of four little-endian words (block length,
template, schema, version) and a body of `block length` bytes that holds the message's fields in
order. A body may be longer than the block a reader knows: newer senders append fields, and older
readers skip them.
-/

namespace Elector

namespace Frame

def schema : UInt16 := 5

/-- The version that senders declare; readers accept every version. -/
def version : UInt16 := 1

def headerSize : Nat := 8

end Frame

inductive FrameError
  | truncated (required available : Nat)
  | templateMismatch (expected actual : UInt16)
  | unknownTemplate (template : UInt16)
  | schemaMismatch (expected actual : UInt16)
  | blockTooShort (declared required : UInt16)
deriving DecidableEq, Repr

def FrameError.message : FrameError → String
  | truncated required available =>
    s!"malformed message: frame needs {required} bytes, buffer holds {available}"
  | templateMismatch expected actual =>
    s!"malformed message: expected template {expected}, got {actual}"
  | unknownTemplate template => s!"malformed message: unknown template {template}"
  | schemaMismatch expected actual =>
    s!"malformed message: expected schema {expected}, got {actual}"
  | blockTooShort declared required =>
    s!"malformed message: block length {declared} shorter than {required}"

/-! ## Headers -/

structure Header where
  blockLength : UInt16
  template : UInt16
  schema : UInt16
  version : UInt16
deriving DecidableEq, Repr

namespace Header

def encode (h : Header) : Bytes :=
  bytes16 h.blockLength ++ bytes16 h.template ++ bytes16 h.schema ++ bytes16 h.version

def decode (bs : Bytes) : Except FrameError Header :=
  if bs.length < Frame.headerSize then .error (.truncated Frame.headerSize bs.length)
  else .ok {
    blockLength := word16 (bs.slice 0 2)
    template := word16 (bs.slice 2 2)
    schema := word16 (bs.slice 4 2)
    version := word16 (bs.slice 6 2) }

/-- The length of the frame that the header announces. -/
def frameLength (h : Header) : Nat := Frame.headerSize + h.blockLength.toNat

end Header

/-! ## Flags -/

def flagByte (b : Bool) : UInt8 := if b then 1 else 0

def flagOf (b : UInt8) : Bool := b == 1

@[simp] theorem flagOf_flagByte (b : Bool) : flagOf (flagByte b) = b := by
  cases b <;> rfl

/-! ## Layouts of the four kinds -/

namespace Message.Kind

/-- The number that names the kind in a header. -/
def template : Message.Kind → UInt16
  | voteRequest => 1
  | voteResponse => 2
  | appendEntries => 3
  | appendResponse => 4

def ofTemplate? : UInt16 → Option Message.Kind
  | 1 => some voteRequest
  | 2 => some voteResponse
  | 3 => some appendEntries
  | 4 => some appendResponse
  | _ => none

/-- The number of body bytes that the kind's fields take. -/
def blockLength : Message.Kind → UInt16
  | voteRequest => 20
  | voteResponse => 9
  | appendEntries => 28
  | appendResponse => 9

/-- The header that senders write in front of a message of this kind. -/
def header (k : Message.Kind) : Header where
  blockLength := k.blockLength
  template := k.template
  schema := Frame.schema
  version := Frame.version

/-- The fields of a message of this kind, read from the front of a body. -/
def ofBody (body : Bytes) : Message.Kind → Message
  | voteRequest => .voteRequest {
      candidate := word32 (body.slice 0 4)
      term := word32 (body.slice 4 4)
      last := { term := word32 (body.slice 8 4), index := word64 (body.slice 12 8) } }
  | voteResponse => .voteResponse {
      voter := word32 (body.slice 0 4)
      term := word32 (body.slice 4 4)
      granted := flagOf (body.getD 8 0) }
  | appendEntries => .appendEntries {
      leader := word32 (body.slice 0 4)
      term := word32 (body.slice 4 4)
      previous := { term := word32 (body.slice 8 4), index := word64 (body.slice 12 8) }
      commit := word64 (body.slice 20 8) }
  | appendResponse => .appendResponse {
      follower := word32 (body.slice 0 4)
      term := word32 (body.slice 4 4)
      success := flagOf (body.getD 8 0) }

end Message.Kind

def Message.body : Message → Bytes
  | voteRequest m =>
    bytes32 m.candidate ++ bytes32 m.term ++ bytes32 m.last.term ++ bytes64 m.last.index
  | voteResponse m => bytes32 m.voter ++ bytes32 m.term ++ [flagByte m.granted]
  | appendEntries m =>
    bytes32 m.leader ++ bytes32 m.term ++ bytes32 m.previous.term ++ bytes64 m.previous.index
      ++ bytes64 m.commit
  | appendResponse m => bytes32 m.follower ++ bytes32 m.term ++ [flagByte m.success]

theorem Message.length_body (m : Message) : m.body.length = m.kind.blockLength.toNat := by
  cases m <;> simp [Message.body, Message.kind, Message.Kind.blockLength]

/-! ## Frames -/

namespace Frame

def encode (m : Message) : Bytes := m.kind.header.encode ++ m.body

def length (m : Message) : Nat := m.kind.header.frameLength

/-- The frames of several messages, one behind the other. -/
def encodeAll (ms : List Message) : Bytes := ms.flatMap encode

/-- Reads a body of kind `k` behind an accepted header. -/
def decodeBlock (k : Message.Kind) (h : Header) (bs : Bytes) : Except FrameError Message :=
  if h.blockLength < k.blockLength then
    .error (.blockTooShort h.blockLength k.blockLength)
  else if bs.length < h.frameLength then .error (.truncated h.frameLength bs.length)
  else .ok (k.ofBody (bs.drop headerSize))

/-- Reads a frame of any kind; the header's template says which. -/
def decode (bs : Bytes) : Except FrameError Message :=
  match Header.decode bs with
  | .error e => .error e
  | .ok h =>
    if h.schema ≠ schema then .error (.schemaMismatch schema h.schema)
    else match Message.Kind.ofTemplate? h.template with
      | none => .error (.unknownTemplate h.template)
      | some k => decodeBlock k h bs

/-- Reads a frame that has to be of kind `k`. -/
def decodeAs (k : Message.Kind) (bs : Bytes) : Except FrameError Message :=
  match Header.decode bs with
  | .error e => .error e
  | .ok h =>
    if h.schema ≠ schema then .error (.schemaMismatch schema h.schema)
    else if h.template ≠ k.template then .error (.templateMismatch k.template h.template)
    else decodeBlock k h bs

theorem length_encode (m : Message) : (encode m).length = length m := by
  simp [encode, length, Header.encode, Header.frameLength, headerSize, Message.length_body,
    Message.Kind.header]
  omega

end Frame

/-! ## Slots -/

/-- A place for one decoded message of a given kind, empty unless the last decoding succeeded. -/
structure Slot where
  kind : Message.Kind
  held : Option Message := none
deriving DecidableEq, Repr

namespace Slot

def clear (s : Slot) : Slot := { s with held := none }

def decode (s : Slot) (bs : Bytes) : Slot × Except FrameError Message :=
  match Frame.decodeAs s.kind bs with
  | .ok m => ({ s with held := some m }, .ok m)
  | .error e => (s.clear, .error e)

end Slot

end Elector
