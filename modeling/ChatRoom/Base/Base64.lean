import ChatRoom.Base.Bytes
import ChatRoom.Lib.Base64

/-!
# `base64_encode`

Both overloads collect three bytes in an array and write four characters each
time it is full; what is left is filled up with zeros behind the loop.
-/

namespace ChatRoom

namespace Base64

open Lib.Base64

def base64Chars : Str :=
  ascii "ABCDEFGHIJKLMNOPQRSTUVWXYZ" ++ ascii "abcdefghijklmnopqrstuvwxyz" ++
    ascii "0123456789+/"

/-- `char_array_3`. -/
structure CharArray3 where
  zero : UInt8
  one : UInt8
  two : UInt8

/-- `char_array_3[i] = byte`. -/
def CharArray3.set (chars : CharArray3) (i : ℕ) (byte : UInt8) : CharArray3 :=
  match i with
  | 0 => { chars with zero := byte }
  | 1 => { chars with one := byte }
  | 2 => { chars with two := byte }
  | _ => chars

/-- `char_array_4`; its last character is not computed behind the loop and not
read there either. -/
def charArray4 (chars : CharArray3) : List UInt8 :=
  [(chars.zero &&& 0xfc) >>> 2,
    ((chars.zero &&& 0x03) <<< 4) + ((chars.one &&& 0xf0) >>> 4),
    ((chars.one &&& 0x0f) <<< 2) + ((chars.two &&& 0xc0) >>> 6),
    chars.two &&& 0x3f]

/-- `base64_chars[index]`; the index is below 64. -/
def charOf (index : UInt8) : UInt8 := base64Chars.getD index.toNat 0

/-- The local variables of the loop. -/
structure Encoder where
  encoded : Str
  charArray3 : CharArray3
  i : ℕ

namespace Encoder

/-- One round of the loop. -/
def take (state : Encoder) (byte : UInt8) : Encoder :=
  let chars := state.charArray3.set state.i byte
  if state.i + 1 = 3 then
    ⟨state.encoded ++ (charArray4 chars).map charOf, chars, 0⟩
  else ⟨state.encoded, chars, state.i + 1⟩

/-- What stands behind the loop. -/
def finish (state : Encoder) : Str :=
  if 0 < state.i then
    let chars := (List.range' state.i (3 - state.i)).foldl
      (fun chars j => chars.set j 0) state.charArray3
    state.encoded ++ ((charArray4 chars).take (state.i + 1)).map charOf ++
      List.replicate (3 - state.i) Byte.equals
  else state.encoded

/-- The loop over the pointer, from an index on; `none` when it reads outside
the bytes. -/
def takeRange (data : Str) : ℕ → ℕ → Encoder → Option Encoder
  | 0, _, state => some state
  | left + 1, idx, state =>
      match data[idx]? with
      | none => none
      | some byte => takeRange data left (idx + 1) (state.take byte)

end Encoder

/-- `base64_encode` of a vector.  The array holds anything at first. -/
def base64Encode (chars : CharArray3) (data : Str) : Str :=
  (data.foldl Encoder.take ⟨[], chars, 0⟩).finish

/-- `base64_encode` of a pointer and an `int`. -/
def base64EncodeRange (chars : CharArray3) (data : Str) (size : Int32) :
    Option Str :=
  (Encoder.takeRange data size.toInt.toNat 0 ⟨[], chars, 0⟩).map Encoder.finish

/-! ## The alphabet -/

/-- The standard alphabet. -/
def rfc4648 : Alphabet UInt8 where
  symbol sextet :=
    let value := UInt8.ofNat sextet.val
    if value < 26 then value + 65
    else if value < 52 then value + 71
    else if value < 62 then value - 4
    else if value = 62 then 43
    else 47
  value byte :=
    if 65 ≤ byte ∧ byte ≤ 90 then some (Fin.ofNat 64 (byte.toNat - 65))
    else if 97 ≤ byte ∧ byte ≤ 122 then some (Fin.ofNat 64 (byte.toNat - 71))
    else if 48 ≤ byte ∧ byte ≤ 57 then some (Fin.ofNat 64 (byte.toNat + 4))
    else if byte = 43 then some 62
    else if byte = 47 then some 63
    else none
  pad := Byte.equals
  value_symbol := by decide +kernel
  value_pad := by decide

/-- The table of the source is this alphabet. -/
theorem charOf_eq {index : UInt8} {sextet : Fin 64}
    (same : index.toNat = sextet.val) : charOf index = rfc4648.symbol sextet := by
  have table : ∀ sextet : Fin 64,
      base64Chars.getD sextet.val 0 = rfc4648.symbol sextet := by
    decide +kernel
  rw [charOf, same, table]

/-! ## One group -/

theorem toNat_high_bits (byte : UInt8) :
    ((byte &&& 0xfc) >>> 2).toNat = byte.toNat / 4 ∧
      ((byte &&& 0xf0) >>> 4).toNat = byte.toNat / 16 ∧
      ((byte &&& 0xc0) >>> 6).toNat = byte.toNat / 64 := by
  revert byte
  apply Byte.forall_of_lt
  decide +kernel

theorem toNat_low_bits (byte : UInt8) :
    ((byte &&& 0x03) <<< 4).toNat = 16 * (byte.toNat % 4) ∧
      ((byte &&& 0x0f) <<< 2).toNat = 4 * (byte.toNat % 16) ∧
      (byte &&& 0x3f).toNat = byte.toNat % 64 := by
  revert byte
  apply Byte.forall_of_lt
  decide +kernel

/-- The four characters of a full array spell its group. -/
theorem map_charArray4 (chars : CharArray3) :
    (charArray4 chars).map charOf =
      [3, 2, 1, 0].map
        (spell rfc4648 (groupOf chars.zero chars.one chars.two)) := by
  have := chars.zero.toNat_lt
  have := chars.one.toNat_lt
  have := chars.two.toNat_lt
  obtain ⟨zeroHigh, -, -⟩ := toNat_high_bits chars.zero
  obtain ⟨-, oneHigh, -⟩ := toNat_high_bits chars.one
  obtain ⟨-, -, twoHigh⟩ := toNat_high_bits chars.two
  obtain ⟨zeroLow, -, -⟩ := toNat_low_bits chars.zero
  obtain ⟨-, oneLow, -⟩ := toNat_low_bits chars.one
  obtain ⟨-, -, twoLow⟩ := toNat_low_bits chars.two
  simp only [charArray4, List.map_cons, List.map_nil, List.cons.injEq,
    and_true, spell]
  refine ⟨charOf_eq ?_, charOf_eq ?_, charOf_eq ?_, charOf_eq ?_⟩
  · rw [zeroHigh]
    simp only [sextet, groupOf, Fin.ofNat]
    omega
  · rw [UInt8.toNat_add, zeroLow, oneHigh]
    simp only [sextet, groupOf, Fin.ofNat]
    omega
  · rw [UInt8.toNat_add, oneLow, twoHigh]
    simp only [sextet, groupOf, Fin.ofNat]
    omega
  · rw [twoLow]
    simp only [sextet, groupOf, Fin.ofNat]
    omega

/-! ## The loops -/

namespace Encoder

theorem finish_one (encoded : Str) (chars : CharArray3) (first : UInt8) :
    (take ⟨encoded, chars, 0⟩ first).finish =
      encoded ++ encode rfc4648 [first] := by
  have written : (take ⟨encoded, chars, 0⟩ first).finish =
      encoded ++ ((charArray4 ⟨first, 0, 0⟩).map charOf).take 2 ++
        [Byte.equals, Byte.equals] := by
    rw [← List.map_take]
    rfl
  rw [written, map_charArray4, List.append_assoc]
  rfl

theorem finish_two (encoded : Str) (chars : CharArray3)
    (first second : UInt8) :
    (take (take ⟨encoded, chars, 0⟩ first) second).finish =
      encoded ++ encode rfc4648 [first, second] := by
  have written : (take (take ⟨encoded, chars, 0⟩ first) second).finish =
      encoded ++ ((charArray4 ⟨first, second, 0⟩).map charOf).take 3 ++
        [Byte.equals] := by
    rw [← List.map_take]
    rfl
  rw [written, map_charArray4, List.append_assoc]
  rfl

theorem take_three (encoded : Str) (chars : CharArray3)
    (first second third : UInt8) :
    take (take (take ⟨encoded, chars, 0⟩ first) second) third =
      ⟨encoded ++ [3, 2, 1, 0].map (spell rfc4648 (groupOf first second third)),
        ⟨first, second, third⟩, 0⟩ := by
  rw [← map_charArray4 ⟨first, second, third⟩]
  rfl

/-- With an empty array the loop and what stands behind it append the
encoding. -/
theorem finish_foldl (data encoded : Str) (chars : CharArray3) :
    (data.foldl take ⟨encoded, chars, 0⟩).finish =
      encoded ++ encode rfc4648 data := by
  induction data using encode.induct generalizing encoded chars with
  | case1 => exact (List.append_nil encoded).symm
  | case2 first => exact finish_one encoded chars first
  | case3 first second => exact finish_two encoded chars first second
  | case4 first second third rest induction =>
      rw [List.foldl_cons, List.foldl_cons, List.foldl_cons, take_three,
        induction, List.append_assoc]
      rfl

/-- Inside the bytes the loop over the pointer is the loop over a vector. -/
theorem takeRange_eq {data : Str} {left idx : ℕ}
    (inside : idx + left ≤ data.length) (state : Encoder) :
    takeRange data left idx state =
      some (((data.drop idx).take left).foldl take state) := by
  induction left generalizing idx state with
  | zero => rfl
  | succ left induction =>
      have below : idx < data.length := by omega
      rw [takeRange, List.getElem?_eq_getElem below]
      simp only
      rw [induction (by omega), List.drop_eq_getElem_cons below,
        List.take_succ_cons, List.foldl_cons]

end Encoder

/-! ## The two overloads -/

theorem base64Encode_eq (chars : CharArray3) (data : Str) :
    base64Encode chars data = encode rfc4648 data :=
  Encoder.finish_foldl data [] chars

theorem base64EncodeRange_eq (chars : CharArray3) {data : Str} {size : Int32}
    (whole : size.toInt = data.length) :
    base64EncodeRange chars data size = some (encode rfc4648 data) := by
  have inside : 0 + size.toInt.toNat ≤ data.length := by omega
  have all : data.length ≤ size.toInt.toNat := by omega
  rw [base64EncodeRange, Encoder.takeRange_eq inside, List.drop_zero,
    List.take_of_length_le all, Option.map_some, Encoder.finish_foldl]
  rfl

end Base64

end ChatRoom
