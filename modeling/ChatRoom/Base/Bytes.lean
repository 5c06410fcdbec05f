import Mathlib.Algebra.Group.Int.Defs
import Mathlib.Algebra.GroupWithZero.Nat
import Mathlib.Data.List.TakeWhile

/-!
# Byte strings

A `std::string` of the source is the list of its bytes.  A `char *` handed to
a C function ends at its first NUL, which `cStr` makes explicit.
-/

namespace ChatRoom

/-- A `std::string`: the bytes it holds. -/
abbrev Str := List UInt8

instance : LawfulBEq Str := inferInstance

instance : LawfulBEq (Str × Str) := inferInstance

namespace Byte

@[simp] abbrev nul : UInt8 := 0
@[simp] abbrev lf : UInt8 := 10
@[simp] abbrev cr : UInt8 := 13
@[simp] abbrev space : UInt8 := 32
@[simp] abbrev doubleQuote : UInt8 := 34
@[simp] abbrev percent : UInt8 := 37
@[simp] abbrev ampersand : UInt8 := 38
@[simp] abbrev quote : UInt8 := 39
@[simp] abbrev comma : UInt8 := 44
@[simp] abbrev colon : UInt8 := 58
@[simp] abbrev equals : UInt8 := 61
@[simp] abbrev question : UInt8 := 63
@[simp] abbrev backslash : UInt8 := 92
@[simp] abbrev underscore : UInt8 := 95

def isDigit (byte : UInt8) : Bool := 48 ≤ byte && byte ≤ 57

/-- A fact about every byte is one about 256 numbers. -/
theorem forall_of_lt {Holds : UInt8 → Prop}
    (all : ∀ value < 256, Holds (UInt8.ofNat value)) (byte : UInt8) :
    Holds byte := by
  have holds := all byte.toNat byte.toNat_lt
  rwa [UInt8.ofNat_toNat] at holds

end Byte

/-- The bytes of a literal of the source. -/
def ascii (literal : String) : Str :=
  literal.toList.map fun character => character.toNat.toUInt8

/-- `c_str()`: what a C function sees of a string. -/
def cStr (text : Str) : Str := text.takeWhile (· ≠ Byte.nul)

theorem cStr_eq_self {text : Str} (noNul : Byte.nul ∉ text) :
    cStr text = text := by
  apply List.takeWhile_eq_self_iff.mpr
  intro byte member
  have different : byte ≠ Byte.nul := fun equality => noNul (equality ▸ member)
  simpa using different

theorem nul_not_mem_cStr (text : Str) : Byte.nul ∉ cStr text := by
  intro member
  have := List.mem_takeWhile_imp member
  simp at this

/-- `cStr` only shortens a string that holds a NUL. -/
theorem cStr_eq_self_iff {text : Str} :
    cStr text = text ↔ Byte.nul ∉ text := by
  constructor
  · intro whole
    rw [← whole]
    exact nul_not_mem_cStr text
  · exact cStr_eq_self

theorem cStr_append {front : Str} (noNul : Byte.nul ∉ front) (text : Str) :
    cStr (front ++ text) = front ++ cStr text := by
  apply List.takeWhile_append_of_pos
  intro byte member
  have different : byte ≠ Byte.nul := fun equality => noNul (equality ▸ member)
  simpa using different

theorem cStr_cons {byte : UInt8} (different : byte ≠ Byte.nul) (text : Str) :
    cStr (byte :: text) = byte :: cStr text := by
  have notNul : decide (byte ≠ Byte.nul) = true := decide_eq_true different
  exact List.takeWhile_cons_of_pos notNul

/-- Behind a NUL nothing is read. -/
theorem cStr_append_of_mem {text : Str} (hasNul : Byte.nul ∈ text)
    (rest : Str) : cStr (text ++ rest) = cStr text := by
  induction text with
  | nil => cases hasNul
  | cons byte text induction =>
      by_cases isNul : byte = Byte.nul
      · simp [cStr, isNul]
      · have later : Byte.nul ∈ text := by
          rcases List.mem_cons.mp hasNul with first | later
          · exact absurd first.symm isNul
          · exact later
        rw [List.cons_append, cStr_cons isNul, cStr_cons isNul,
          induction later]

/-- The UTF-8 bytes of a literal of the source. -/
def utf8 (literal : String) : Str := literal.toUTF8.toList

/-- `find`, and what stands before and behind the first occurrence. -/
def splitFirst (pattern : Str) : Str → Option (Str × Str)
  | [] => if pattern = [] then some ([], []) else none
  | byte :: text =>
      if pattern.isPrefixOf (byte :: text) then
        some ([], (byte :: text).drop pattern.length)
      else
        (splitFirst pattern text).map fun (before, behind) =>
          (byte :: before, behind)

def toLower (byte : UInt8) : UInt8 :=
  if 65 ≤ byte ∧ byte ≤ 90 then byte + 32 else byte

/-- `splitFirst` takes a text apart at the pattern. -/
theorem splitFirst_eq {pattern text before behind : Str}
    (found : splitFirst pattern text = some (before, behind)) :
    text = before ++ pattern ++ behind := by
  induction text generalizing before with
  | nil =>
      simp only [splitFirst] at found
      split at found
      · rename_i empty
        cases found
        rw [empty]
        rfl
      · cases found
  | cons byte text induction =>
      simp only [splitFirst] at found
      split at found
      · rename_i isPrefix
        cases found
        obtain ⟨rest, equality⟩ := List.isPrefixOf_iff_prefix.mp isPrefix
        rw [← equality, List.drop_left, List.nil_append]
      · obtain ⟨⟨before', behind'⟩, later, equality⟩ :=
          Option.map_eq_some_iff.mp found
        cases equality
        rw [induction later]
        rfl

theorem splitFirst_byte {byte : UInt8} {before : Str} (absent : byte ∉ before)
    (behind : Str) :
    splitFirst [byte] (before ++ byte :: behind) = some (before, behind) := by
  induction before with
  | nil => simp [splitFirst, List.isPrefixOf]
  | cons first before induction =>
      have different : byte ≠ first := by
        intro same
        exact absent (by simp [same])
      have later := induction fun member => absent (List.mem_cons_of_mem _ member)
      simp [splitFirst, List.isPrefixOf, different, later]

theorem splitFirst_isSome_of_mem {byte : UInt8} {text : Str}
    (member : byte ∈ text) : (splitFirst [byte] text).isSome := by
  induction text with
  | nil => cases member
  | cons first text induction =>
      simp only [splitFirst]
      split
      · rfl
      · rename_i different
        rw [Option.isSome_map]
        apply induction
        rcases List.mem_cons.mp member with same | later
        · rw [same] at different
          exact absurd (by simp) different
        · exact later

theorem splitFirst_append_self {pattern : Str} (notEmpty : pattern ≠ [])
    (text : Str) : splitFirst pattern (pattern ++ text) = some ([], text) := by
  cases pattern with
  | nil => exact absurd rfl notEmpty
  | cons byte pattern =>
      have isPrefix : (byte :: pattern).isPrefixOf
          (byte :: (pattern ++ text)) = true := by
        apply List.isPrefixOf_iff_prefix.mpr
        exact ⟨text, rfl⟩
      rw [List.cons_append, splitFirst, if_pos isPrefix]
      simp

/-- The decimal text of a number, as `%d`, `%lu` and `std::to_string` print
it. -/
def decimal (number : Nat) : Str :=
  (Nat.toDigits 10 number).map fun digit => digit.toNat.toUInt8

/-- The number a text of digits denotes. -/
def digitsValue (text : Str) : Nat :=
  text.foldl (fun value byte => 10 * value + (byte.toNat - 48)) 0

/-- The number that a text begins with, 0 if there is none. -/
def leadingNumber (text : Str) : Int :=
  let trimmed := text.dropWhile fun byte =>
    byte = Byte.space ∨ (9 ≤ byte ∧ byte ≤ 13)
  match trimmed with
  | 45 :: rest => -(digitsValue (rest.takeWhile Byte.isDigit) : Int)
  | 43 :: rest => digitsValue (rest.takeWhile Byte.isDigit)
  | rest => digitsValue (rest.takeWhile Byte.isDigit)

/-- A nonempty text of digits and nothing else. -/
def parseDecimal (text : Str) : Option Nat :=
  if text ≠ [] ∧ text.all Byte.isDigit then some (digitsValue text) else none

private theorem toNat_of_isDigit {digit : Char} (isDigit : digit.isDigit) :
    digit.toNat.toUInt8.toNat = digit.toNat ∧
      48 ≤ digit.toNat ∧ digit.toNat ≤ 57 := by
  simp only [Char.isDigit, Bool.and_eq_true, decide_eq_true_eq,
    UInt32.le_iff_toNat_le] at isDigit
  have lower : 48 ≤ digit.toNat := isDigit.1
  have upper : digit.toNat ≤ 57 := isDigit.2
  refine ⟨?_, lower, upper⟩
  simp
  omega

theorem decimal_ne_nil (number : Nat) : decimal number ≠ [] := by
  simp [decimal]

theorem isDigit_of_mem_decimal {number : Nat} {byte : UInt8}
    (member : byte ∈ decimal number) : Byte.isDigit byte = true := by
  obtain ⟨digit, digitMember, rfl⟩ := List.mem_map.mp member
  have isDigit : digit.isDigit :=
    Nat.isDigit_of_mem_toDigits (by omega) (by omega) digitMember
  obtain ⟨value, lower, upper⟩ := toNat_of_isDigit isDigit
  simp only [Byte.isDigit, Bool.and_eq_true, decide_eq_true_eq,
    UInt8.le_iff_toNat_le, value]
  exact ⟨lower, upper⟩

theorem digitsValue_decimal (number : Nat) :
    digitsValue (decimal number) = number := by
  have folded : ∀ (digits : List Char) (start : Nat),
      (∀ digit ∈ digits, digit.isDigit) →
      (digits.map fun digit => digit.toNat.toUInt8).foldl
          (fun value byte => 10 * value + (byte.toNat - 48)) start =
        Nat.ofDigitChars 10 digits start := by
    intro digits
    induction digits with
    | nil => simp
    | cons digit digits induction =>
        intro start allDigits
        have value := (toNat_of_isDigit (allDigits digit (by simp))).1
        rw [List.map_cons, List.foldl_cons, Nat.ofDigitChars_cons, value]
        exact induction _ fun other member => allDigits other (by simp [member])
  have allDigits : ∀ digit ∈ Nat.toDigits 10 number, digit.isDigit := by
    intro digit member
    exact Nat.isDigit_of_mem_toDigits (by omega) (by omega) member
  calc
    digitsValue (decimal number) =
        Nat.ofDigitChars 10 (Nat.toDigits 10 number) 0 := folded _ 0 allDigits
    _ = number := Nat.ofDigitChars_ten_toDigits

theorem parseDecimal_decimal (number : Nat) :
    parseDecimal (decimal number) = some number := by
  have allDigits : (decimal number).all Byte.isDigit = true :=
    List.all_eq_true.mpr fun _ member => isDigit_of_mem_decimal member
  simp [parseDecimal, decimal_ne_nil, allDigits, digitsValue_decimal]

/-- A byte that is no digit occurs in no decimal text. -/
theorem not_mem_decimal {byte : UInt8} (notDigit : Byte.isDigit byte = false)
    (number : Nat) : byte ∉ decimal number := by
  intro member
  rw [isDigit_of_mem_decimal member] at notDigit
  cases notDigit

end ChatRoom
