import Elector.Proofs.Frame

/-!
# Frames in a stream

Frames that were written one behind the other are read back in order: each is read at the offset
where the one before ends, which its own header tells (`scan`). `scan_encodeAll` says so whatever
stands before and behind the frames, and `decode_take` says how a frame that is cut short is
refused. Both are put together in `frames_survive_the_wire`.
-/

namespace Elector.Frame

/-- Reads up to `limit` messages, the first at `offset` and each other one behind the frame that the
header before it announces. The result holds the messages and the offset at which reading stops. -/
def scan (bs : Bytes) (offset : Nat) (limit : Nat) : List Message × Nat :=
  match limit with
  | 0 => ([], offset)
  | limit + 1 =>
    match Header.decode (bs.drop offset), decode (bs.drop offset) with
    | .ok h, .ok m =>
      let (ms, stop) := scan bs (offset + h.frameLength) limit
      (m :: ms, stop)
    | _, _ => ([], offset)

variable {m : Message} {ms : List Message} {bs before tail rest : Bytes} {offset limit k : Nat}

theorem header_encode (m : Message) (rest : Bytes) :
    Header.decode (encode m ++ rest) = .ok m.kind.header := by
  rw [encode, List.append_assoc, Header.decode_encode]

theorem encodeAll_cons (m : Message) (ms : List Message) :
    encodeAll (m :: ms) = encode m ++ encodeAll ms := List.flatMap_cons

/-! ## Reading on -/

theorem scan_frame (h : bs.drop offset = encode m ++ rest) :
    scan bs offset (limit + 1) =
      (m :: (scan bs (offset + length m) limit).1, (scan bs (offset + length m) limit).2) := by
  rw [scan, h, header_encode, decode_encode]
  rfl

theorem scan_stuck {e : FrameError} (h : decode (bs.drop offset) = .error e) :
    scan bs offset limit = ([], offset) := by
  cases limit with
  | zero => rfl
  | succ limit =>
    rw [scan, h]
    cases Header.decode (bs.drop offset) <;> rfl

/-- Written messages are read in order, and then what follows them. -/
theorem scan_encodeAll (h : bs.drop offset = encodeAll ms ++ rest) (limit : Nat) :
    scan bs offset (ms.length + limit) =
      (ms ++ (scan bs (offset + (encodeAll ms).length) limit).1,
        (scan bs (offset + (encodeAll ms).length) limit).2) := by
  induction ms generalizing offset with
  | nil => simp [encodeAll]
  | cons m ms ih =>
    rw [encodeAll_cons, List.append_assoc] at h
    have hbehind : bs.drop (offset + length m) = encodeAll ms ++ rest := by
      rw [← List.drop_drop, h, ← length_encode, List.drop_left]
    have hlength : offset + length m + (encodeAll ms).length =
        offset + (encodeAll (m :: ms)).length := by
      rw [encodeAll_cons, List.length_append, length_encode, Nat.add_assoc]
    calc scan bs offset ((m :: ms).length + limit)
        = scan bs offset (ms.length + limit + 1) := by
          rw [List.length_cons, Nat.add_right_comm]
      _ = (m :: (scan bs (offset + length m) (ms.length + limit)).1,
            (scan bs (offset + length m) (ms.length + limit)).2) := scan_frame h
      _ = _ := by rw [ih hbehind, hlength, List.cons_append]

/-! ## Frames that are cut short -/

theorem decode_short (h : bs.length < headerSize) :
    decode bs = .error (.truncated headerSize bs.length) := by
  rw [decode, Header.decode, if_pos h]

theorem decode_cut (hheader : headerSize ≤ k) (hcut : k < length m) :
    decode ((encode m).take k) = .error (.truncated (length m) k) := by
  have hlength : ((encode m).take k).length = k := by
    rw [List.length_take, length_encode]
    omega
  have htake : (encode m).take k = m.kind.header.encode ++ m.body.take (k - headerSize) := by
    rw [encode, List.take_append, Header.length_encode,
      List.take_of_length_le (by rw [Header.length_encode]; exact hheader)]
  have hread : Header.decode ((encode m).take k) = .ok m.kind.header := by
    rw [htake, Header.decode_encode]
  have htemplate : Message.Kind.ofTemplate? m.kind.header.template = some m.kind :=
    m.kind.ofTemplate_template
  have hblock : decodeBlock m.kind m.kind.header ((encode m).take k) =
      .error (.truncated (length m) k) := by
    have hknown : ¬ m.kind.header.blockLength < m.kind.blockLength := UInt16.lt_irrefl _
    have hshort : ((encode m).take k).length < m.kind.header.frameLength := by
      rw [hlength]
      exact hcut
    rw [decodeBlock, if_neg hknown, if_pos hshort, hlength, length]
  rw [decode, hread]
  simp only [htemplate, hblock]
  exact if_neg (fun hne => hne rfl)

/-- However much of a frame is missing, it is refused with what is there and what is needed. -/
theorem decode_take (hcut : k < length m) :
    decode ((encode m).take k) =
      .error (.truncated (if k < headerSize then headerSize else length m) k) := by
  by_cases hheader : k < headerSize
  · have hlength : ((encode m).take k).length = k := by
      rw [List.length_take, length_encode]
      omega
    rw [if_pos hheader, decode_short (by rw [hlength]; exact hheader), hlength]
  · rw [if_neg hheader]
    exact decode_cut (Nat.not_lt.mp hheader) hcut

/-! ## Streams -/

/-- **Every message survives the wire.** Read back from a buffer, with anything behind them, the
frames of `ms` give `ms` in order, and reading has then come to what is behind them; it ends there
for good if no frame begins there. A frame is as long as its message's length and as its own header
says. Any beginning of a frame that is not all of it is refused as truncated, for want of a header
or else of the frame. -/
theorem frames_survive_the_wire (ms : List Message) (tail : Bytes) :
    scan (encodeAll ms ++ tail) 0 ms.length = (ms, (encodeAll ms).length) ∧
    (encodeAll ms ++ tail).drop (encodeAll ms).length = tail ∧
    (∀ e, decode tail = .error e → ∀ more,
      scan (encodeAll ms ++ tail) 0 (ms.length + more) = (ms, (encodeAll ms).length)) ∧
    (∀ m, (encode m).length = length m ∧
      ∃ h, Header.decode (encode m) = .ok h ∧ h.frameLength = length m) ∧
    ∀ m k, k < length m → decode ((encode m).take k) =
      .error (.truncated (if k < 8 then 8 else length m) k) := by
  have hstart : (encodeAll ms ++ tail).drop 0 = encodeAll ms ++ tail := List.drop_zero
  have hbehind : (encodeAll ms ++ tail).drop (encodeAll ms).length = tail := List.drop_left
  refine ⟨?_, hbehind, ?_, ?_, ?_⟩
  · have hscan := scan_encodeAll hstart 0
    rw [Nat.zero_add] at hscan
    rw [← Nat.add_zero ms.length, hscan, scan, List.append_nil]
  · intro e hstuck more
    have hscan := scan_encodeAll hstart more
    rw [Nat.zero_add] at hscan
    rw [hscan, scan_stuck (hbehind.symm ▸ hstuck), List.append_nil]
  · intro m
    have hheader := header_encode m []
    rw [List.append_nil] at hheader
    exact ⟨length_encode m, m.kind.header, hheader, rfl⟩
  · intro m k hcut
    exact decode_take hcut

def extremes : List Message :=
  [.voteRequest
      { candidate := Int32.minValue, term := Int32.maxValue, last := ⟨-1, Int64.minValue⟩ },
    .voteResponse { voter := -2, term := 0, granted := true },
    .appendEntries (heartbeat Int32.maxValue Int32.minValue ⟨1, Int64.maxValue⟩),
    .appendResponse { follower := 1, term := -1, success := false }]

theorem frames_survive_the_wire_extremes :
    scan (encodeAll extremes ++ [9, 0]) 0 (4 + 3) = (extremes, 98) ∧
      decode ((encode (.voteResponse { voter := -2, term := 0, granted := true })).take 16) =
        .error (.truncated 17 16) := by
  obtain ⟨_, _, hends, _, hcut⟩ := frames_survive_the_wire extremes [9, 0]
  have hlength : (encodeAll extremes).length = 98 := by decide +kernel
  have hscan := hends (.truncated 8 2) rfl 3
  rw [hlength] at hscan
  exact ⟨hscan, hcut (.voteResponse { voter := -2, term := 0, granted := true }) 16 (by decide)⟩

end Elector.Frame
