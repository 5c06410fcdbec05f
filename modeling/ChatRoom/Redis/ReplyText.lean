import ChatRoom.Api.FormatString
import ChatRoom.Base.Search
import ChatRoom.Redis.ReplyReader
import Mathlib.Data.List.Induction

/-!
# Lines and numbers of a reply

`string2ll` takes exactly the texts that a `long long` is printed as, and
`readLine` finds the first line as long as its `int` does not overflow.
-/

namespace ChatRoom

namespace Hiredis

open Api (intText)

/-! ## Numbers -/

theorem decimal_digit (digit : UInt8) :
    Byte.isDigit digit = true → decimal (digit.toNat - 48) = [digit] := by
  revert digit
  apply Byte.forall_of_lt
  decide +kernel

theorem isDigit_iff (digit : UInt8) :
    Byte.isDigit digit = true ↔ 48 ≤ digit.toNat ∧ digit.toNat ≤ 57 := by
  simp [Byte.isDigit, UInt8.le_iff_toNat_le]

theorem decimal_snoc {front : ℕ} (positive : 0 < front) {digit : UInt8}
    (isDigit : Byte.isDigit digit = true) :
    decimal (10 * front + (digit.toNat - 48)) = decimal front ++ [digit] := by
  have bounds := (isDigit_iff digit).mp isDigit
  have split := Nat.toDigits_append_toDigits (b := 10) (by omega) positive
    (show digit.toNat - 48 < 10 by omega)
  rw [decimal, ← split, List.map_append, ← decimal, ← decimal,
    decimal_digit digit isDigit]

/-- A text of digits that does not begin with 0 is printed again. -/
theorem decimal_digitsValue {first : UInt8} (lower : 49 ≤ first.toNat)
    (upper : first.toNat ≤ 57) {digits : Str}
    (allDigits : ∀ digit ∈ digits, Byte.isDigit digit = true) :
    decimal (digitsValue (first :: digits)) = first :: digits ∧
      0 < digitsValue (first :: digits) := by
  induction digits using List.reverseRecOn with
  | nil =>
      have isDigit := (isDigit_iff first).mpr ⟨by omega, upper⟩
      have value : digitsValue [first] = first.toNat - 48 := by
        simp [digitsValue]
      rw [value]
      exact ⟨decimal_digit first isDigit, by omega⟩
  | append_singleton digits digit induction =>
      obtain ⟨printed, positive⟩ := induction fun other member =>
        allDigits other (List.mem_append_left _ member)
      have value : digitsValue (first :: (digits ++ [digit])) =
          10 * digitsValue (first :: digits) + (digit.toNat - 48) := by
        rw [digitsValue, digitsValue, ← List.cons_append, List.foldl_append]
        rfl
      rw [value, decimal_snoc positive (allDigits digit (by simp)), printed]
      exact ⟨rfl, by omega⟩

/-- The first digit of a positive number is not 0. -/
theorem decimal_eq_cons {number : ℕ} (positive : 0 < number) :
    ∃ first digits, decimal number = first :: digits ∧
      49 ≤ first.toNat ∧ first.toNat ≤ 57 := by
  induction number using Nat.strongRecOn with
  | _ number induction =>
      by_cases small : number < 10
      · have printed : ∀ small < 10, decimal small = [UInt8.ofNat (48 + small)] :=
          by decide
        have value : (UInt8.ofNat (48 + number)).toNat = 48 + number := by
          rw [UInt8.toNat_ofNat']
          omega
        refine ⟨_, _, printed number small, ?_, ?_⟩ <;> omega
      · obtain ⟨first, digits, printed, lower, upper⟩ :=
          induction (number / 10) (by omega) (by omega)
        have split := Nat.toDigits_append_toDigits (b := 10) (by omega)
          (show 0 < number / 10 by omega) (Nat.mod_lt number (by omega))
        rw [Nat.div_add_mod] at split
        refine ⟨first, digits ++ decimal (number % 10), ?_, lower, upper⟩
        rw [decimal, ← split, List.map_append, ← decimal, ← decimal, printed,
          List.cons_append]

/-! ## `string2ll` -/

/-- The value of a digit loop. -/
def accumulated (v : ℕ) (digits : Str) : ℕ :=
  digits.foldl (fun value byte => 10 * value + (byte.toNat - 48)) v

theorem digitsValue_cons (first : UInt8) (digits : Str) :
    digitsValue (first :: digits) =
      accumulated (first.toNat - 48) digits := by
  simp [digitsValue, accumulated]

theorem le_accumulated (v : ℕ) (digits : Str) : v ≤ accumulated v digits := by
  induction digits generalizing v with
  | nil => exact le_refl v
  | cons digit digits induction =>
      have later := induction (10 * v + (digit.toNat - 48))
      change v ≤ accumulated (10 * v + (digit.toNat - 48)) digits
      omega

theorem string2llDigits_eq_iff {v w : ℕ} {p : Str} (fits : v < 2 ^ 64) :
    string2llDigits v p = some (w, []) ↔
      (∀ digit ∈ p, Byte.isDigit digit = true) ∧ accumulated v p = w ∧
        w < 2 ^ 64 := by
  induction p generalizing v with
  | nil =>
      simp only [string2llDigits, accumulated, List.foldl_nil]
      constructor
      · intro same
        cases same
        exact ⟨by simp, rfl, fits⟩
      · rintro ⟨-, rfl, -⟩
        rfl
  | cons digit p induction =>
      rw [string2llDigits, List.forall_mem_cons]
      by_cases isDigit : Byte.isDigit digit = true
      · have bounds := (isDigit_iff digit).mp isDigit
        have step : accumulated v (digit :: p) =
            accumulated (v * 10 + (digit.toNat - 48)) p := by
          rw [Nat.mul_comm]
          rfl
        have grows := le_accumulated (v * 10 + (digit.toNat - 48)) p
        simp only [isDigit, if_true, true_and, step]
        split
        · constructor
          · intro impossible
            cases impossible
          · rintro ⟨-, rfl, small⟩
            omega
        · split
          · constructor
            · intro impossible
              cases impossible
            · rintro ⟨-, rfl, small⟩
              omega
          · exact induction (by omega)
      · simp [isDigit]

theorem string2llUnsigned_eq_iff {s : Str} {v : ℕ} :
    string2llUnsigned s = some v ↔ s = decimal v ∧ 0 < v ∧ v < 2 ^ 64 := by
  constructor
  · intro read
    cases s with
    | nil => cases read
    | cons first p =>
        rw [string2llUnsigned] at read
        split at read
        · rename_i bounds
          simp only [UInt8.le_iff_toNat_le] at bounds
          have lower : 49 ≤ first.toNat := bounds.1
          have upper : first.toNat ≤ 57 := bounds.2
          split at read
          · rename_i w digits
            cases read
            obtain ⟨allDigits, value, small⟩ :=
              (string2llDigits_eq_iff (by omega)).mp digits
            obtain ⟨printed, positive⟩ :=
              decimal_digitsValue lower upper allDigits
            rw [digitsValue_cons, value] at printed positive
            exact ⟨printed.symm, positive, small⟩
          · cases read
        · cases read
  · rintro ⟨rfl, positive, small⟩
    obtain ⟨first, digits, printed, lower, upper⟩ := decimal_eq_cons positive
    have allDigits : ∀ digit ∈ digits, Byte.isDigit digit = true := by
      intro digit member
      have inside : digit ∈ decimal v := by
        rw [printed]
        exact List.mem_cons_of_mem _ member
      exact isDigit_of_mem_decimal inside
    have value : accumulated (first.toNat - 48) digits = v := by
      rw [← digitsValue_cons, ← printed, digitsValue_decimal]
    have bounds : 49 ≤ first ∧ first ≤ 57 := by
      simp only [UInt8.le_iff_toNat_le]
      exact ⟨lower, upper⟩
    rw [printed, string2llUnsigned, if_pos bounds,
      (string2llDigits_eq_iff (by omega)).mpr ⟨allDigits, value, small⟩]

/-- **A text is a number for the reader exactly when it is what a `long long`
is printed as.** -/
theorem string2ll_eq_some_iff {s : Str} {value : Int} :
    string2ll s = some value ↔
      s = intText value ∧ -(2 ^ 63) ≤ value ∧ value < 2 ^ 63 := by
  constructor
  · intro read
    rw [string2ll] at read
    split at read
    · rename_i zero
      cases read
      exact ⟨zero, by decide, by decide⟩
    · split at read
      · rename_i minus
        split at read
        · rename_i v unsigned
          obtain ⟨tail, positive, -⟩ := string2llUnsigned_eq_iff.mp unsigned
          split at read
          · cases read
          · cases read
            have text : s = 45 :: s.tail := (List.cons_head?_tail minus).symm
            have negative : -(v : Int) < 0 := by omega
            refine ⟨?_, by omega, by omega⟩
            rw [intText, if_pos negative, Int.natAbs_neg, Int.natAbs_natCast,
              ← tail]
            exact text
        · cases read
      · split at read
        · rename_i v unsigned
          obtain ⟨text, positive, -⟩ := string2llUnsigned_eq_iff.mp unsigned
          split at read
          · cases read
          · cases read
            have notNegative : ¬ (v : Int) < 0 := by omega
            refine ⟨?_, by omega, by omega⟩
            rw [intText, if_neg notNegative, Int.natAbs_natCast]
            exact text
        · cases read
  · rintro ⟨rfl, lower, upper⟩
    rcases Int.lt_trichotomy value 0 with negative | rfl | positive
    · have unsigned : string2llUnsigned (decimal value.natAbs) =
          some value.natAbs :=
        string2llUnsigned_eq_iff.mpr ⟨rfl, by omega, by omega⟩
      have fits : ¬ value.natAbs > 2 ^ 63 := by omega
      have text : intText value = 45 :: decimal value.natAbs := by
        rw [intText, if_pos negative]
        rfl
      have notZero : intText value ≠ ascii "0" := by
        rw [text]
        intro same
        cases (List.cons.inj same).1
      rw [string2ll, if_neg notZero, text, List.head?_cons, if_pos rfl,
        List.tail_cons, unsigned]
      simp only [if_neg fits]
      congr 1
      omega
    · rfl
    · have unsigned : string2llUnsigned (decimal value.natAbs) =
          some value.natAbs :=
        string2llUnsigned_eq_iff.mpr ⟨rfl, by omega, by omega⟩
      have fits : ¬ value.natAbs > 2 ^ 63 - 1 := by omega
      have text : intText value = decimal value.natAbs := by
        rw [intText, if_neg (by omega)]
      obtain ⟨first, digits, printed, least, -⟩ :=
        decimal_eq_cons (show 0 < value.natAbs by omega)
      have notZero : intText value ≠ ascii "0" := by
        rw [text, printed]
        intro same
        rw [(List.cons.inj same).1] at least
        exact absurd least (by decide)
      have noMinus : (decimal value.natAbs).head? ≠ some 45 := by
        rw [printed, List.head?_cons]
        intro same
        rw [Option.some.inj same] at least
        exact absurd least (by decide)
      rw [string2ll, if_neg notZero, text, if_neg noMinus, unsigned]
      simp only [if_neg fits]
      congr 1
      omega

/-! ## Texts of errors -/

theorem length_chrtos (byte : UInt8) : (chrtos byte).length ≤ 6 := by
  revert byte
  apply Byte.forall_of_lt
  decide +kernel

/-- Every text fits into the 128 bytes of `errstr`, with its NUL, and the type
byte into the 8 bytes of `cbuf`. -/
theorem length_errstr (error : ReadError) : error.errstr.length < 128 := by
  cases error with
  | typeByte byte =>
      have := length_chrtos byte
      simp only [ReadError.errstr, List.length_append]
      have texts : (ascii "Protocol error, got ").length = 20 ∧
          (ascii " as reply type byte").length = 19 := by decide
      omega
  | _ => decide

/-! ## Lines -/

/-- What ends a line. -/
def crlf : Str := [Byte.cr, Byte.lf]

theorem prefix_crlf_iff (byte : UInt8) (s : Str) :
    crlf <+: byte :: s ↔ byte = Byte.cr ∧ s.head? = some Byte.lf := by
  rw [crlf, List.cons_prefix_cons]
  cases s with
  | nil => simp
  | cons next s =>
      rw [List.cons_prefix_cons, List.head?_cons, Option.some.injEq]
      constructor
      · rintro ⟨rfl, rfl, -⟩
        exact ⟨rfl, rfl⟩
      · rintro ⟨rfl, rfl⟩
        exact ⟨rfl, rfl, List.nil_prefix⟩

/-- With all of the text the loop finds the first end of a line. -/
theorem seekLoop_eq (pos : ℕ) (s : Str) :
    seekLoop pos (s.length - 1) s =
      (splitFirst crlf s).map fun line => pos + line.1.length := by
  induction s generalizing pos with
  | nil => rfl
  | cons byte s induction =>
      rw [List.length_cons, Nat.add_sub_cancel]
      by_cases here : crlf <+: byte :: s
      · rw [splitFirst_cons_here here]
        rw [prefix_crlf_iff] at here
        cases s with
        | nil => cases here.2
        | cons next s =>
            rw [List.length_cons, seekLoop, if_pos here]
            rfl
      · rw [splitFirst_cons_later here]
        cases s with
        | nil => rfl
        | cons next s =>
            have notHere := mt (prefix_crlf_iff byte (next :: s)).mpr here
            have later := induction (pos + 1)
            rw [List.length_cons, Nat.add_sub_cancel] at later
            rw [List.length_cons, seekLoop, if_neg notHere, later,
              Option.map_map]
            congr 1
            funext line
            simp
            omega

/-- **`seekNewline` finds the first end of a line**, unless its `int` is too
small for the text. -/
theorem readLine_eq {unread : Str} (fits : unread.length ≤ 2 ^ 31) :
    readLine unread = splitFirst crlf unread := by
  have len : (Int.bmod ((unread.length : Int) - 1) (2 ^ 32)).toNat =
      unread.length - 1 := by
    rw [Int.bmod_def]
    split_ifs <;> omega
  rw [readLine, seekNewline, len, seekLoop_eq, Option.map_map]
  cases found : splitFirst crlf unread with
  | none => rfl
  | some line =>
      obtain ⟨before, behind⟩ := line
      have split := splitFirst_eq found
      simp only [Option.map_some, Function.comp_apply, Nat.zero_add]
      congr 2
      · rw [split, List.append_assoc, List.take_left]
      · rw [split]
        have size : before.length + 2 = (before ++ crlf).length := by
          simp [crlf]
        rw [size, List.drop_left]

end Hiredis

end ChatRoom
