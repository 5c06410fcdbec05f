import ChatRoom.Service.Frame
import Mathlib.Tactic.Ring

/-!
# The frame codec

What `buildWebSocketFrame` builds, as the server sends it or masked as a client
sends it, is what `parseWebSocketFrame` parses.
-/

namespace ChatRoom

open WebSocketFrame

/-- The four bytes a client masks a frame with. -/
abbrev MaskingKey := { key : Str // key.length = 4 }

/-- A frame with the mask bit set, the key behind the length field and the
payload XORed with it. -/
def maskFrame (key : MaskingKey) (frame : Str) : Str :=
  match frame with
  | first :: second :: rest =>
      let extended := extendedLength second
      first :: (second ||| 0x80) :: (rest.take extended ++
        (key.1 ++ applyMask key.1 (rest.drop extended)))
  | other => other

/-- The bytes of a frame on the wire. -/
def wireFrame (key : Option MaskingKey) (payload : Str) (opcode : UInt8) :
    Str :=
  match key with
  | none => buildWebSocketFrame payload opcode
  | some key => maskFrame key (buildWebSocketFrame payload opcode)

/-! ## The length field -/

theorem foldl_bigEndianBytes (count value start : Nat) :
    (bigEndianBytes count value).foldl
        (fun value byte => 256 * value + byte.toNat) start =
      start * 256 ^ count + value % 256 ^ count := by
  induction count generalizing start with
  | zero => simp [bigEndianBytes, Nat.mod_one]
  | succ count induction =>
      have digit : (value / 256 ^ count).toUInt8.toNat =
          value / 256 ^ count % 256 := by simp
      have split : value % 256 ^ (count + 1) =
          value % 256 ^ count + 256 ^ count * (value / 256 ^ count % 256) := by
        rw [Nat.pow_succ, Nat.mod_mul]
      rw [bigEndianBytes, List.foldl_cons, induction, digit, split]
      ring

theorem bigEndian_bigEndianBytes {count value : Nat}
    (fits : value < 256 ^ count) :
    bigEndian (bigEndianBytes count value) = value := by
  rw [bigEndian, foldl_bigEndianBytes, Nat.zero_mul, Nat.zero_add,
    Nat.mod_eq_of_lt fits]

/-- The second byte of a frame that is not masked, and the number the length
field holds. -/
structure LengthField (length : Nat) (second : UInt8) (extended : Str) :
    Prop where
  field : lengthField 0 length = second :: extended
  sevenBits : second &&& 0x7F = second
  isExtended : extendedLength second = extended.length
  number : (if extended = [] then second.toNat else bigEndian extended) = length

theorem lengthField_spec {length : Nat} (fits : length < 2 ^ 63) :
    ∃ second extended, LengthField length second extended := by
  by_cases short : length ≤ 125
  · have all : ∀ value ≤ 125, (value.toUInt8 : UInt8) &&& 0x7F = value.toUInt8 ∧
        extendedLength value.toUInt8 = 0 ∧ value.toUInt8.toNat = value := by
      decide
    obtain ⟨sevenBits, isExtended, number⟩ := all length short
    refine ⟨length.toUInt8, [], ?_, sevenBits, isExtended, number⟩
    rw [lengthField, if_pos short, UInt8.zero_or]
  · by_cases middle : length ≤ 65535
    · refine ⟨126, bigEndianBytes 2 length, ?_, rfl, ?_, ?_⟩
      · rw [lengthField, if_neg short, if_pos middle, UInt8.zero_or]
      · rw [length_bigEndianBytes]
        rfl
      · exact bigEndian_bigEndianBytes (by omega)
    · refine ⟨127, bigEndianBytes 8 length, ?_, rfl, ?_, ?_⟩
      · rw [lengthField, if_neg short, if_neg middle, UInt8.zero_or]
      · rw [length_bigEndianBytes]
        rfl
      · exact bigEndian_bigEndianBytes (by omega)

/-- A byte is the byte of its number. -/
theorem toNat_toUInt8 (byte : UInt8) : byte.toNat.toUInt8 = byte :=
  UInt8.ofNat_toNat

/-- The mask bit stands apart from the seven bits of the length. -/
theorem maskBit_apart {second : UInt8} (sevenBits : second &&& 0x7F = second) :
    second &&& 0x80 = 0 ∧ (second ||| 0x80) &&& 0x80 = 0x80 ∧
      (second ||| 0x80) &&& 0x7F = second := by
  have all : ∀ value < 256, value.toUInt8 &&& 0x7F = value.toUInt8 →
      value.toUInt8 &&& 0x80 = 0 ∧ (value.toUInt8 ||| 0x80) &&& 0x80 = 0x80 ∧
        (value.toUInt8 ||| 0x80) &&& 0x7F = value.toUInt8 := by
    decide +kernel
  have apart := all second.toNat second.toNat_lt
  rw [toNat_toUInt8] at apart
  exact apart sevenBits

theorem firstByte_spec {opcode : UInt8} (small : opcode < 16) :
    (0x80 ||| (opcode &&& 0x0F)) &&& (0x80 : UInt8) ≠ 0 ∧
      (0x80 ||| (opcode &&& 0x0F)) &&& (0x0F : UInt8) = opcode := by
  have all : ∀ value < 16,
      (0x80 ||| (value.toUInt8 &&& 0x0F)) &&& (0x80 : UInt8) ≠ 0 ∧
        (0x80 ||| (value.toUInt8 &&& 0x0F)) &&& (0x0F : UInt8) =
          value.toUInt8 := by
    decide
  have spec := all opcode.toNat (UInt8.lt_iff_toNat_lt.mp small)
  rwa [toNat_toUInt8] at spec

/-! ## The round trip -/

/-- Parsing the bytes of a frame gives back its opcode, its payload and the
length of the payload, masked or not. -/
theorem parseWebSocketFrame_wireFrame (key : Option MaskingKey) (payload : Str)
    (opcode : UInt8) (fits : payload.length < 2 ^ 63) (small : opcode < 16) :
    parseWebSocketFrame (wireFrame key payload opcode) = some {
      fin := true
      opcode := opcode
      mask := key.isSome
      payloadLength := payload.length
      maskingKey := key.elim [] Subtype.val
      payloadData := payload } := by
  obtain ⟨second, extended, length⟩ := lengthField_spec fits
  obtain ⟨unmasked, masked, seven⟩ := maskBit_apart length.sevenBits
  obtain ⟨fin, isOpcode⟩ := firstByte_spec small
  have built : buildWebSocketFrame payload opcode =
      (0x80 ||| (opcode &&& 0x0F)) :: second :: (extended ++ payload) := by
    rw [buildWebSocketFrame, length.field]
    rfl
  cases key with
  | none =>
      have isExtended : extendedLength (second &&& 0x7F) = extended.length := by
        rw [length.sevenBits, length.isExtended]
      have isKey : ([] : Str).length = if second &&& 0x80 ≠ 0 then 4 else 0 := by
        rw [unmasked]
        rfl
      have wire : wireFrame none payload opcode =
          (0x80 ||| (opcode &&& 0x0F)) :: second ::
            (extended ++ ([] ++ payload)) := by
        rw [wireFrame, built, List.nil_append]
      rw [wire, parseWebSocketFrame_parts isExtended isKey]
      simp [fin, isOpcode, unmasked, length.sevenBits, length.number]
  | some key =>
      have isExtended : extendedLength ((second ||| 0x80) &&& 0x7F) =
          extended.length := by
        rw [seven, length.isExtended]
      have isKey : key.1.length =
          if (second ||| 0x80) &&& 0x80 ≠ 0 then 4 else 0 := by
        rw [masked, key.2]
        rfl
      have wire : wireFrame (some key) payload opcode =
          (0x80 ||| (opcode &&& 0x0F)) :: (second ||| 0x80) ::
            (extended ++ (key.1 ++ applyMask key.1 payload)) := by
        simp only [wireFrame, maskFrame, built, length.isExtended,
          List.take_left, List.drop_left]
      rw [wire, parseWebSocketFrame_parts isExtended isKey]
      simp [fin, isOpcode, masked, seven, length.number, applyMask_applyMask]

/-- A masked text frame. -/
theorem parseWebSocketFrame_hi :
    parseWebSocketFrame (wireFrame (some ⟨[1, 2, 3, 4], rfl⟩) (ascii "hi") 1) =
      some {
        fin := true
        opcode := 1
        mask := true
        payloadLength := (ascii "hi").length
        maskingKey := [1, 2, 3, 4]
        payloadData := ascii "hi" } :=
  parseWebSocketFrame_wireFrame (some ⟨[1, 2, 3, 4], rfl⟩) (ascii "hi") 1
    (by decide) (by decide)

end ChatRoom
