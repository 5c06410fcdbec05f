import ChatRoom.Base.Bytes

/-!
# Percent encoding

`URLEncode` writes every byte that is no letter and no digit as an escape, with
digits of upper case.  `URLDecode` takes the two bytes behind a percent sign
for such digits, whatever they are, and does not look whether they are there.
-/

namespace ChatRoom

namespace Util

/-- `isalnum` of the C locale. -/
def isAlnum (byte : UInt8) : Bool :=
  Byte.isDigit byte || (65 ≤ byte && byte ≤ 90) || (97 ≤ byte && byte ≤ 122)

def toHex (x : UInt8) : UInt8 := if x > 9 then x - 10 + 65 else x + 48

def fromHex (x : UInt8) : UInt8 :=
  if Byte.isDigit x then x - 48 else x - 65 + 10

/-- `buf`, which is appended as a `char *`. -/
def encodeByte (byte : UInt8) : Str :=
  if isAlnum byte then cStr [byte, 0, 0, 0]
  else cStr [Byte.percent, toHex (byte >>> 4), toHex (byte % 16), 0]

def urlEncode (text : Str) : Str := text.flatMap encodeByte

/-- A byte that is no percent sign. -/
def decodePlain (byte : UInt8) : UInt8 :=
  if byte = 43 then Byte.space else byte

def decodeEscape (high low : UInt8) : UInt8 :=
  fromHex high <<< 4 ||| fromHex low

/-- `URLDecode`; `none` when it reads a byte behind the end. -/
def urlDecode : Str → Option Str
  | [] => some []
  | byte :: behind =>
      if byte = Byte.percent then
        match behind with
        | high :: low :: rest =>
            (urlDecode rest).map fun out => decodeEscape high low :: out
        | _ => none
      else (urlDecode behind).map fun out => decodePlain byte :: out

/-! ## What an escape denotes -/

/-- A hexadecimal digit of either case. -/
def hexValue (digit : UInt8) : Option UInt8 :=
  if Byte.isDigit digit then some (digit - 48)
  else if 65 ≤ digit && digit ≤ 70 then some (digit - 55)
  else if 97 ≤ digit && digit ≤ 102 then some (digit - 87)
  else none

/-- The text decodes to the bytes: an escape with two hexadecimal digits is
the byte it denotes, one without may be anything. -/
inductive DecodesTo : Str → Str → Prop where
  | nil : DecodesTo [] []
  | escape {high low first second : UInt8} {rest out : Str} :
      hexValue high = some first → hexValue low = some second →
      DecodesTo rest out →
      DecodesTo (Byte.percent :: high :: low :: rest)
        ((16 * first + second) :: out)
  | noEscape {high low byte : UInt8} {rest out : Str} :
      hexValue high = none ∨ hexValue low = none →
      DecodesTo rest out →
      DecodesTo (Byte.percent :: high :: low :: rest) (byte :: out)
  | plain {byte : UInt8} {rest out : Str} :
      byte ≠ Byte.percent → DecodesTo rest out →
      DecodesTo (byte :: rest) (decodePlain byte :: out)

/-- `URLDecode` stays inside the text and decodes its escapes. -/
def Decoded (text : Str) : Prop :=
  ∃ out, urlDecode text = some out ∧ DecodesTo text out

/-- Two digits that `FromHex` puts together: the second is of upper case, or
what is wrong with it falls on a bit that the first one sets. -/
def Legible (high low : UInt8) : Prop :=
  ∀ first second, hexValue high = some first → hexValue low = some second →
    low < 97 ∨ first &&& 2 = 2

/-- Every escape is complete, and its digits are legible. -/
def WellEscaped : Str → Prop
  | [] => True
  | byte :: behind =>
      if byte = Byte.percent then
        match behind with
        | high :: low :: rest => Legible high low ∧ WellEscaped rest
        | _ => False
      else WellEscaped behind

/-! ## Encoding and decoding -/

theorem urlDecode_escape (high low : UInt8) (rest : Str) :
    urlDecode (Byte.percent :: high :: low :: rest) =
      (urlDecode rest).map fun out => decodeEscape high low :: out := by
  rw [urlDecode, if_pos rfl]

theorem urlDecode_plain {byte : UInt8} (noPercent : byte ≠ Byte.percent)
    (rest : Str) :
    urlDecode (byte :: rest) =
      (urlDecode rest).map fun out => decodePlain byte :: out := by
  rw [urlDecode.eq_def]
  exact if_neg noPercent

theorem encodeByte_alnum {byte : UInt8} (alnum : isAlnum byte = true) :
    encodeByte byte = [byte] ∧ byte ≠ Byte.percent ∧
      decodePlain byte = byte := by
  revert byte
  apply Byte.forall_of_lt
  decide +kernel

theorem encodeByte_other {byte : UInt8} (other : isAlnum byte = false) :
    ∃ high low, encodeByte byte = [Byte.percent, high, low] ∧
      decodeEscape high low = byte := by
  refine ⟨toHex (byte >>> 4), toHex (byte % 16), ?_⟩
  revert byte
  apply Byte.forall_of_lt
  decide +kernel

/-- Decoding takes the encoding back. -/
theorem urlDecode_urlEncode (text : Str) :
    urlDecode (urlEncode text) = some text := by
  induction text with
  | nil => rfl
  | cons byte text induction =>
      rw [urlEncode, List.flatMap_cons]
      rw [urlEncode] at induction
      cases alnum : isAlnum byte with
      | true =>
          obtain ⟨encoded, noPercent, plain⟩ := encodeByte_alnum alnum
          rw [encoded, List.singleton_append, urlDecode_plain noPercent,
            induction, Option.map_some, plain]
      | false =>
          obtain ⟨high, low, encoded, decoded⟩ := encodeByte_other alnum
          rw [encoded]
          simp only [List.cons_append, List.nil_append]
          rw [urlDecode_escape, induction, Option.map_some, decoded]

/-! ## Escapes of any text -/

theorem hexValue_first {high first : UInt8}
    (digit : hexValue high = some first) :
    first < 16 ∧ fromHex high <<< 4 = 16 * first := by
  have all : ∀ value < 256, ∀ first ∈ hexValue (UInt8.ofNat value),
      first < 16 ∧ fromHex (UInt8.ofNat value) <<< 4 = 16 * first := by
    decide +kernel
  have spec := all high.toNat high.toNat_lt first
  rw [UInt8.ofNat_toNat] at spec
  exact spec digit

/-- `FromHex` adds 32 to the value of a digit of lower case. -/
theorem hexValue_second {low second : UInt8}
    (digit : hexValue low = some second) :
    second < 16 ∧ ((low < 97 ∧ fromHex low = second) ∨
      (¬ low < 97 ∧ 10 ≤ second ∧ fromHex low = second + 32)) := by
  have all : ∀ value < 256, ∀ second ∈ hexValue (UInt8.ofNat value),
      second < 16 ∧ ((UInt8.ofNat value < 97 ∧
        fromHex (UInt8.ofNat value) = second) ∨
      (¬ UInt8.ofNat value < 97 ∧ 10 ≤ second ∧
        fromHex (UInt8.ofNat value) = second + 32)) := by
    decide +kernel
  have spec := all low.toNat low.toNat_lt second
  rw [UInt8.ofNat_toNat] at spec
  exact spec digit

/-- Two values below 16, put together by `|`, without and with the 32. -/
theorem nibbles_spec {first second : UInt8} (firstSmall : first < 16)
    (secondSmall : second < 16) :
    16 * first ||| second = 16 * first + second ∧
      (10 ≤ second → (16 * first ||| (second + 32) = 16 * first + second ↔
        first &&& 2 = 2)) := by
  have all : ∀ first < 16, ∀ second < 16,
      16 * UInt8.ofNat first ||| UInt8.ofNat second =
        16 * UInt8.ofNat first + UInt8.ofNat second ∧
      (10 ≤ UInt8.ofNat second →
        (16 * UInt8.ofNat first ||| (UInt8.ofNat second + 32) =
          16 * UInt8.ofNat first + UInt8.ofNat second ↔
        UInt8.ofNat first &&& 2 = 2)) := by
    decide +kernel
  have spec := all first.toNat (UInt8.lt_iff_toNat_lt.mp firstSmall)
    second.toNat (UInt8.lt_iff_toNat_lt.mp secondSmall)
  rwa [UInt8.ofNat_toNat, UInt8.ofNat_toNat] at spec

/-- Two hexadecimal digits give the byte they denote when they are
legible. -/
theorem decodeEscape_eq_iff {high low first second : UInt8}
    (highDigit : hexValue high = some first)
    (lowDigit : hexValue low = some second) :
    decodeEscape high low = 16 * first + second ↔
      low < 97 ∨ first &&& 2 = 2 := by
  obtain ⟨firstSmall, shifted⟩ := hexValue_first highDigit
  obtain ⟨secondSmall, spelled⟩ := hexValue_second lowDigit
  obtain ⟨upper, lower⟩ := nibbles_spec firstSmall secondSmall
  rw [decodeEscape, shifted]
  rcases spelled with ⟨isUpper, value⟩ | ⟨isLower, letter, value⟩
  · rw [value]
    exact iff_of_true upper (.inl isUpper)
  · rw [value, lower letter, or_iff_right isLower]

theorem urlDecode_short {behind : Str}
    (short : ∀ high low rest, behind = high :: low :: rest → False) :
    urlDecode (Byte.percent :: behind) = none := by
  match behind with
  | [] | [_] => rfl
  | high :: low :: rest => exact (short high low rest rfl).elim

theorem not_wellEscaped_short {behind : Str}
    (short : ∀ high low rest, behind = high :: low :: rest → False) :
    ¬ WellEscaped (Byte.percent :: behind) := by
  match behind with
  | [] | [_] => exact id
  | high :: low :: rest => exact (short high low rest rfl).elim

theorem wellEscaped_plain {byte : UInt8} (noPercent : byte ≠ Byte.percent)
    (rest : Str) : WellEscaped (byte :: rest) ↔ WellEscaped rest := by
  rw [WellEscaped.eq_def]
  exact iff_of_eq (if_neg noPercent)

theorem wellEscaped_escape (high low : UInt8) (rest : Str) :
    WellEscaped (Byte.percent :: high :: low :: rest) ↔
      Legible high low ∧ WellEscaped rest := by
  rw [WellEscaped.eq_def]
  exact iff_of_eq (if_pos rfl)

theorem decoded_plain {byte : UInt8} (noPercent : byte ≠ Byte.percent)
    (rest : Str) : Decoded (byte :: rest) ↔ Decoded rest := by
  constructor
  · rintro ⟨out, decoded, denotes⟩
    rw [urlDecode_plain noPercent] at decoded
    obtain ⟨behind, restDecoded, equality⟩ := Option.map_eq_some_iff.mp decoded
    cases denotes with
    | plain _ others =>
        rw [List.cons.injEq] at equality
        obtain ⟨-, rfl⟩ := equality
        exact ⟨_, restDecoded, others⟩
    | escape | noEscape => exact absurd rfl noPercent
  · rintro ⟨out, decoded, denotes⟩
    refine ⟨decodePlain byte :: out, ?_, .plain noPercent denotes⟩
    rw [urlDecode_plain noPercent, decoded, Option.map_some]

theorem decoded_escape (high low : UInt8) (rest : Str) :
    Decoded (Byte.percent :: high :: low :: rest) ↔
      Legible high low ∧ Decoded rest := by
  constructor
  · rintro ⟨out, decoded, denotes⟩
    rw [urlDecode_escape] at decoded
    obtain ⟨out, restDecoded, equality⟩ := Option.map_eq_some_iff.mp decoded
    cases denotes with
    | plain noPercent => exact absurd rfl noPercent
    | escape highDigit lowDigit others =>
        rw [List.cons.injEq] at equality
        obtain ⟨byte, rfl⟩ := equality
        refine ⟨?_, out, restDecoded, others⟩
        intro first second isFirst isSecond
        rw [highDigit] at isFirst
        rw [lowDigit] at isSecond
        cases isFirst
        cases isSecond
        exact (decodeEscape_eq_iff highDigit lowDigit).mp byte
    | noEscape noDigit others =>
        rw [List.cons.injEq] at equality
        obtain ⟨-, rfl⟩ := equality
        refine ⟨?_, out, restDecoded, others⟩
        intro first second isFirst isSecond
        rw [isFirst, isSecond] at noDigit
        simp at noDigit
  · rintro ⟨legible, out, decoded, denotes⟩
    refine ⟨decodeEscape high low :: out, ?_, ?_⟩
    · rw [urlDecode_escape, decoded, Option.map_some]
    · cases highDigit : hexValue high with
      | none => exact .noEscape (.inl highDigit) denotes
      | some first =>
          cases lowDigit : hexValue low with
          | none => exact .noEscape (.inr lowDigit) denotes
          | some second =>
              rw [(decodeEscape_eq_iff highDigit lowDigit).mpr
                (legible first second highDigit lowDigit)]
              exact .escape highDigit lowDigit denotes

/-- Decoding takes every encoding back; on any text it stays inside and
decodes the escapes exactly when they are complete and legible. -/
theorem percent_code_iff (text input : Str) :
    urlDecode (urlEncode text) = some text ∧
      (Decoded input ↔ WellEscaped input) := by
  refine ⟨urlDecode_urlEncode text, ?_⟩
  induction input using WellEscaped.induct with
  | case1 => exact iff_of_true ⟨[], rfl, .nil⟩ trivial
  | case2 high low rest induction =>
      rw [decoded_escape, wellEscaped_escape, induction]
  | case3 behind short =>
      apply iff_of_false
      · rintro ⟨out, decoded, -⟩
        rw [urlDecode_short short] at decoded
        cases decoded
      · exact not_wellEscaped_short short
  | case4 byte behind noPercent induction =>
      rw [decoded_plain noPercent, wellEscaped_plain noPercent, induction]

/-- `%1a` decodes to `:`, with the bit that the letter brings along. -/
theorem lowerCaseEscape_misread : ¬ Decoded (ascii "%1a") := by
  have split : ascii "%1a" = [Byte.percent, 49, 97] := by decide
  rw [split, decoded_escape]
  rintro ⟨legible, -⟩
  have wrong := legible 1 10 (by decide) (by decide)
  revert wrong
  decide

end Util

end ChatRoom
