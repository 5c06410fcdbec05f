import Mathlib.Algebra.Group.Nat.Defs
import Mathlib.Algebra.GroupWithZero.Nat
import Mathlib.Data.Nat.Notation
import Mathlib.Tactic.Common

/-!
# Base64

Three bytes are one number of 24 bits, which four symbols of an alphabet
spell.  Of a last group with fewer bytes only the symbols that carry bits are
written, and the padding fills the group.
-/

namespace Lib

namespace Base64

/-- A symbol for every number of six bits, and one more for the padding. -/
structure Alphabet (Symbol : Type) where
  symbol : Fin 64 → Symbol
  value : Symbol → Option (Fin 64)
  pad : Symbol
  value_symbol : ∀ sextet, value (symbol sextet) = some sextet
  value_pad : value pad = none

instance sextetsNeZero : NeZero 64 := ⟨by decide⟩

/-- The 24 bits of three bytes. -/
def groupOf (first second third : UInt8) : ℕ :=
  65536 * first.toNat + 256 * second.toNat + third.toNat

/-- The six bits of a group in front of `behind` others of this size. -/
def sextet (group behind : ℕ) : Fin 64 := Fin.ofNat 64 (group / 64 ^ behind)

/-- The 24 bits of four symbols. -/
def numberOf (first second third fourth : Fin 64) : ℕ :=
  262144 * first + 4096 * second + 64 * third + fourth

/-- The byte of a group in front of `behind` others. -/
def byteOf (group behind : ℕ) : UInt8 := UInt8.ofNat (group / 256 ^ behind)

variable {Symbol : Type} (alphabet : Alphabet Symbol)

def spell (group behind : ℕ) : Symbol :=
  alphabet.symbol (sextet group behind)

def encode : List UInt8 → List Symbol
  | [] => []
  | [first] =>
      let group := groupOf first 0 0
      [spell alphabet group 3, spell alphabet group 2, alphabet.pad,
        alphabet.pad]
  | [first, second] =>
      let group := groupOf first second 0
      [spell alphabet group 3, spell alphabet group 2, spell alphabet group 1,
        alphabet.pad]
  | first :: second :: third :: rest =>
      let group := groupOf first second third
      spell alphabet group 3 :: spell alphabet group 2 ::
        spell alphabet group 1 :: spell alphabet group 0 :: encode rest

section Decoding

variable [DecidableEq Symbol]

/-- The bytes of four symbols, of which the last or the last two may be
padding. -/
def decodeGroup (first second third fourth : Symbol) : Option (List UInt8) :=
  match alphabet.value first, alphabet.value second, alphabet.value third,
      alphabet.value fourth with
  | some w, some x, some y, some z =>
      let group := numberOf w x y z
      some [byteOf group 2, byteOf group 1, byteOf group 0]
  | some w, some x, some y, none =>
      let group := numberOf w x y 0
      if fourth = alphabet.pad then some [byteOf group 2, byteOf group 1]
      else none
  | some w, some x, none, none =>
      if third = alphabet.pad ∧ fourth = alphabet.pad then
        some [byteOf (numberOf w x 0 0) 2]
      else none
  | _, _, _, _ => none

/-- A group with padding is the last one. -/
def decode : List Symbol → Option (List UInt8)
  | [] => some []
  | first :: second :: third :: fourth :: rest =>
      match decodeGroup alphabet first second third fourth with
      | none => none
      | some bytes =>
          if bytes.length < 3 ∧ rest ≠ [] then none
          else (decode rest).map fun others => bytes ++ others
  | _ => none

end Decoding

/-! ## Groups -/

theorem groupOf_lt (first second third : UInt8) :
    groupOf first second third < 16777216 := by
  have := first.toNat_lt
  have := second.toNat_lt
  have := third.toNat_lt
  rw [groupOf]
  omega

/-- Four symbols spell the group. -/
theorem numberOf_sextets {group : ℕ} (small : group < 16777216) :
    numberOf (sextet group 3) (sextet group 2) (sextet group 1)
      (sextet group 0) = group := by
  simp only [numberOf, sextet, Fin.ofNat]
  omega

/-- What the group has behind its bytes are zeros. -/
theorem sextet_groupOf_two (first second : UInt8) :
    sextet (groupOf first second 0) 0 = 0 := by
  apply Fin.ext
  simp only [sextet, groupOf, Fin.ofNat, UInt8.toNat_zero, Fin.val_zero]
  omega

theorem sextet_groupOf_one (first : UInt8) :
    sextet (groupOf first 0 0) 1 = 0 ∧ sextet (groupOf first 0 0) 0 = 0 := by
  constructor
  · apply Fin.ext
    simp only [sextet, groupOf, Fin.ofNat, UInt8.toNat_zero, Fin.val_zero]
    omega
  · exact sextet_groupOf_two first 0

theorem byteOf_eq {group behind : ℕ} {byte : UInt8}
    (value : group / 256 ^ behind % 256 = byte.toNat) :
    byteOf group behind = byte := by
  apply UInt8.toNat_inj.mp
  rw [byteOf, UInt8.toNat_ofNat']
  exact value

theorem bytesOf_groupOf (first second third : UInt8) :
    byteOf (groupOf first second third) 2 = first ∧
      byteOf (groupOf first second third) 1 = second ∧
      byteOf (groupOf first second third) 0 = third := by
  have := first.toNat_lt
  have := second.toNat_lt
  have := third.toNat_lt
  refine ⟨byteOf_eq ?_, byteOf_eq ?_, byteOf_eq ?_⟩ <;>
    rw [groupOf] <;> omega

variable [DecidableEq Symbol]

theorem decodeGroup_three (first second third : UInt8) :
    decodeGroup alphabet (spell alphabet (groupOf first second third) 3)
        (spell alphabet (groupOf first second third) 2)
        (spell alphabet (groupOf first second third) 1)
        (spell alphabet (groupOf first second third) 0) =
      some [first, second, third] := by
  obtain ⟨isFirst, isSecond, isThird⟩ := bytesOf_groupOf first second third
  simp only [decodeGroup, spell, alphabet.value_symbol,
    numberOf_sextets (groupOf_lt first second third), isFirst, isSecond,
    isThird]

theorem decodeGroup_two (first second : UInt8) :
    decodeGroup alphabet (spell alphabet (groupOf first second 0) 3)
        (spell alphabet (groupOf first second 0) 2)
        (spell alphabet (groupOf first second 0) 1) alphabet.pad =
      some [first, second] := by
  obtain ⟨isFirst, isSecond, -⟩ := bytesOf_groupOf first second 0
  have spelled := numberOf_sextets (groupOf_lt first second 0)
  rw [sextet_groupOf_two] at spelled
  simp only [decodeGroup, spell, alphabet.value_symbol, alphabet.value_pad,
    spelled, isFirst, isSecond, if_true]

theorem decodeGroup_one (first : UInt8) :
    decodeGroup alphabet (spell alphabet (groupOf first 0 0) 3)
        (spell alphabet (groupOf first 0 0) 2) alphabet.pad alphabet.pad =
      some [first] := by
  obtain ⟨isFirst, -, -⟩ := bytesOf_groupOf first 0 0
  obtain ⟨third, fourth⟩ := sextet_groupOf_one first
  have spelled := numberOf_sextets (groupOf_lt first 0 0)
  rw [third, fourth] at spelled
  simp only [decodeGroup, spell, alphabet.value_symbol, alphabet.value_pad,
    spelled, isFirst, and_self, if_true]

/-! ## Whole texts -/

/-- Decoding takes every encoding back. -/
theorem decode_encode (data : List UInt8) :
    decode alphabet (encode alphabet data) = some data := by
  induction data using encode.induct with
  | case1 => rfl
  | case2 first =>
      simp only [encode, decode, decodeGroup_one]
      rfl
  | case3 first second =>
      simp only [encode, decode, decodeGroup_two]
      rfl
  | case4 first second third rest induction =>
      simp only [encode, decode, decodeGroup_three, induction]
      rfl

omit [DecidableEq Symbol] in
/-- A group of four symbols for each three bytes begun. -/
theorem length_encode (data : List UInt8) :
    (encode alphabet data).length = 4 * ((data.length + 2) / 3) := by
  induction data using encode.induct with
  | case1 => rfl
  | case2 | case3 =>
      simp only [encode, List.length_cons, List.length_nil]
  | case4 first second third rest induction =>
      simp only [encode, List.length_cons, induction]
      omega

omit [DecidableEq Symbol] in
theorem spell_ne_pad (group behind : ℕ) :
    spell alphabet group behind ≠ alphabet.pad := by
  intro same
  have value := alphabet.value_symbol (sextet group behind)
  rw [← spell, same, alphabet.value_pad] at value
  cases value

omit [DecidableEq Symbol] in
/-- The padding stands in the last group only. -/
theorem length_le_of_pad {data : List UInt8} {position : ℕ}
    (isPad : (encode alphabet data)[position]? = some alphabet.pad) :
    (encode alphabet data).length ≤ position + 4 := by
  induction data using encode.induct generalizing position with
  | case1 | case2 | case3 =>
      simp only [encode, List.length_cons, List.length_nil]
      omega
  | case4 first second third rest induction =>
      match position with
      | 0 | 1 | 2 | 3 =>
          simp only [encode] at isPad
          exact absurd (Option.some.inj isPad) (spell_ne_pad alphabet _ _)
      | position + 4 =>
          have behind := induction isPad
          simp only [encode, List.length_cons]
          omega

end Base64

end Lib
