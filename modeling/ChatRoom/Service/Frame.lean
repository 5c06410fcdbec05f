import ChatRoom.Base.Bytes

/-!
# WebSocket frames

`parseWebSocketFrame` takes the bytes of one read for one frame: it never
looks at the payload length it decodes.  A read past the bytes has no result.
-/

namespace ChatRoom

structure WebSocketFrame where
  fin : Bool
  opcode : UInt8
  mask : Bool
  payloadLength : Nat
  maskingKey : Str
  payloadData : Str
  deriving DecidableEq

namespace WebSocketFrame

/-- The number a text of bytes denotes, the first byte highest. -/
def bigEndian (bytes : Str) : Nat :=
  bytes.foldl (fun value byte => 256 * value + byte.toNat) 0

/-- The lowest `count` bytes of a number, the highest first. -/
def bigEndianBytes : Nat → Nat → Str
  | 0, _ => []
  | count + 1, value => (value / 256 ^ count).toUInt8 :: bigEndianBytes count value

/-- The number of bytes the extended payload length takes. -/
def extendedLength (length7 : UInt8) : Nat :=
  if length7 = 126 then 2 else if length7 = 127 then 8 else 0

/-- XOR with the masking key, repeated cyclically. -/
def applyMask (key payload : Str) : Str :=
  payload.mapIdx fun index byte => byte ^^^ key.getD (index % 4) 0

end WebSocketFrame

open WebSocketFrame

/-- `parseWebSocketFrame`. -/
def parseWebSocketFrame (data : Str) : Option WebSocketFrame :=
  match data with
  | first :: second :: _ =>
      let length7 := second &&& 0x7F
      let extended := extendedLength length7
      let mask : Bool := second &&& 0x80 ≠ 0
      let offset := 2 + extended + if mask then 4 else 0
      if data.length < offset then none
      else
        let key := if mask then (data.drop (2 + extended)).take 4 else []
        some {
          fin := first &&& 0x80 ≠ 0
          opcode := first &&& 0x0F
          mask := mask
          payloadLength :=
            if extended = 0 then length7.toNat
            else bigEndian ((data.drop 2).take extended)
          maskingKey := key
          payloadData :=
            if mask then applyMask key (data.drop offset) else data.drop offset }
  | _ => none

/-- The length field of a frame, with the mask bit. -/
def lengthField (maskBit : UInt8) (length : Nat) : Str :=
  if length ≤ 125 then [maskBit ||| length.toUInt8]
  else if length ≤ 65535 then (maskBit ||| 126) :: bigEndianBytes 2 length
  else (maskBit ||| 127) :: bigEndianBytes 8 length

/-- `buildWebSocketFrame`. -/
def buildWebSocketFrame (payload : Str) (opcode : UInt8) : Str :=
  (0x80 ||| (opcode &&& 0x0F)) :: lengthField 0 payload.length ++ payload

/-- A complete masked text frame of a client. -/
structure ClientFrame where
  key : Str
  payload : Str
  fourBytes : key.length = 4
  fits : payload.length < 2 ^ 63

namespace ClientFrame

def header (frame : ClientFrame) : Str :=
  0x81 :: lengthField 0x80 frame.payload.length ++ frame.key

/-- The bytes of the frame on the wire. -/
def encode (frame : ClientFrame) : Str :=
  frame.header ++ applyMask frame.key frame.payload

end ClientFrame

/-! ## What a read of a frame gives -/

theorem applyMask_applyMask (key payload : Str) :
    applyMask key (applyMask key payload) = payload := by
  apply List.ext_getElem
  · simp [applyMask]
  · intro index _ _
    simp only [applyMask, List.getElem_mapIdx, UInt8.xor_assoc,
      UInt8.xor_self, UInt8.xor_zero]

theorem length_bigEndianBytes (count value : Nat) :
    (bigEndianBytes count value).length = count := by
  induction count with
  | zero => rfl
  | succ count induction => rw [bigEndianBytes, List.length_cons, induction]

/-- The length field starts with a masked byte that announces its length. -/
theorem lengthField_masked (length : Nat) :
    ∃ second rest, lengthField 0x80 length = second :: rest ∧
      second &&& 0x80 ≠ 0 ∧
      extendedLength (second &&& 0x7F) = rest.length := by
  unfold lengthField
  split
  · rename_i short
    refine ⟨_, [], rfl, ?_⟩
    have all : ∀ value < 126, (0x80 ||| value.toUInt8) &&& (0x80 : UInt8) ≠ 0 ∧
        extendedLength ((0x80 ||| value.toUInt8) &&& 0x7F) = 0 := by
      decide
    exact all length (by omega)
  · split
    · refine ⟨_, _, rfl, by decide, ?_⟩
      rw [length_bigEndianBytes]
      decide
    · refine ⟨_, _, rfl, by decide, ?_⟩
      rw [length_bigEndianBytes]
      decide

/-- A frame is parsed part by part: the extended length, the masking key of a
masked frame, and all that follows as payload. -/
theorem parseWebSocketFrame_parts {first second : UInt8}
    {extended key tail : Str}
    (isExtended : extendedLength (second &&& 0x7F) = extended.length)
    (isKey : key.length = if second &&& 0x80 ≠ 0 then 4 else 0) :
    parseWebSocketFrame (first :: second :: (extended ++ (key ++ tail))) =
      some {
        fin := first &&& 0x80 ≠ 0
        opcode := first &&& 0x0F
        mask := second &&& 0x80 ≠ 0
        payloadLength :=
          if extended = [] then (second &&& 0x7F).toNat
          else bigEndian extended
        maskingKey := key
        payloadData :=
          if second &&& 0x80 ≠ 0 then applyMask key tail else tail } := by
  have noBytes : extended.length = 0 ↔ extended = [] := List.length_eq_zero_iff
  have behind : (first :: second :: (extended ++ (key ++ tail))).drop
      (2 + extended.length) = key ++ tail := by
    rw [Nat.add_comm, List.drop_succ_cons, List.drop_succ_cons, List.drop_left]
  have payload : (first :: second :: (extended ++ (key ++ tail))).drop
      (2 + extended.length + key.length) = tail := by
    rw [← List.drop_drop, behind, List.drop_left]
  have long : ¬ (first :: second :: (extended ++ (key ++ tail))).length <
      2 + extended.length + key.length := by
    simp only [List.length_cons, List.length_append]
    omega
  have number : ((first :: second :: (extended ++ (key ++ tail))).drop 2).take
      extended.length = extended := by
    rw [List.drop_succ_cons, List.drop_succ_cons, List.drop_zero,
      List.take_left]
  simp only [parseWebSocketFrame, isExtended, number, noBytes]
  by_cases masked : second &&& 0x80 ≠ 0
  · rw [if_pos masked] at isKey
    rw [isKey] at long payload
    have keyBytes : (key ++ tail).take 4 = key := by
      rw [← isKey, List.take_left]
    simp only [masked, ne_eq, not_false_eq_true, decide_true, if_true,
      if_neg long, behind, keyBytes, payload]
  · rw [if_neg masked] at isKey
    rw [isKey] at long payload
    obtain rfl : key = [] := List.eq_nil_of_length_eq_zero isKey
    simp only [masked, decide_false, Bool.false_eq_true, if_false, if_neg long,
      payload]

/-- A read that starts with the whole header gives all that follows as
payload. -/
theorem parseWebSocketFrame_header (frame : ClientFrame) (tail : Str) :
    ∃ parsed, parseWebSocketFrame (frame.header ++ tail) = some parsed ∧
      parsed.opcode = 1 ∧ parsed.payloadData = applyMask frame.key tail := by
  obtain ⟨second, rest, field, masked, extended⟩ :=
    lengthField_masked frame.payload.length
  have data : frame.header ++ tail =
      0x81 :: second :: (rest ++ (frame.key ++ tail)) := by
    simp [ClientFrame.header, field]
  have isKey : frame.key.length = if second &&& 0x80 ≠ 0 then 4 else 0 := by
    rw [if_pos masked, frame.fourBytes]
  rw [data, parseWebSocketFrame_parts extended isKey]
  refine ⟨_, rfl, rfl, ?_⟩
  simp only [if_pos masked]

theorem parseWebSocketFrame_encode (frame : ClientFrame) :
    ∃ parsed, parseWebSocketFrame frame.encode = some parsed ∧
      parsed.opcode = 1 ∧ parsed.payloadData = frame.payload := by
  obtain ⟨parsed, result, opcode, payload⟩ :=
    parseWebSocketFrame_header frame (applyMask frame.key frame.payload)
  exact ⟨parsed, result, opcode, by rw [payload, applyMask_applyMask]⟩

/-- A read that ends inside the header has no result. -/
theorem parseWebSocketFrame_short {frame : ClientFrame} {chunk : Str}
    (isPrefix : chunk <+: frame.header)
    (short : chunk.length < frame.header.length) :
    parseWebSocketFrame chunk = none := by
  obtain ⟨second, rest, field, masked, extended⟩ :=
    lengthField_masked frame.payload.length
  have header : frame.header = 0x81 :: second :: (rest ++ frame.key) := by
    simp [ClientFrame.header, field]
  rw [header] at isPrefix short
  match chunk with
  | [] => rfl
  | [byte] => rfl
  | first :: next :: tail =>
      obtain ⟨-, later⟩ := List.cons_prefix_cons.mp isPrefix
      obtain ⟨rfl, -⟩ := List.cons_prefix_cons.mp later
      simp only [List.length_cons, List.length_append, frame.fourBytes] at short
      have outside : (first :: next :: tail).length < 2 + rest.length + 4 := by
        simp only [List.length_cons]
        omega
      simp only [parseWebSocketFrame, extended, masked, ne_eq,
        not_false_eq_true, decide_true, if_true, if_pos outside]

end ChatRoom
