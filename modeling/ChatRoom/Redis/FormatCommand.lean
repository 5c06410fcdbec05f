import ChatRoom.Base.Bytes

/-!
# The command tokeniser of hiredis

`redisvFormatCommand` splits a printf-like command text at blanks and
interpolates its directives from a `va_list`.  The model follows the loop of
the C function byte by byte.  A call that reads a variadic argument which was
never passed, or scans beyond the terminator, has no defined behaviour and is
kept apart from the calls the function itself rejects.
-/

namespace ChatRoom

/-- A variadic argument: a C string for `%s`, a counted string for `%b`, an
integer of any width for the integer conversions. -/
inductive VArg where
  | str (text : Str)
  | bin (text : Str)
  | int (value : Int)

/-- What the text behind a `%` asks for.  `consumed` counts the bytes behind
the `%` up to and including the conversion character. -/
inductive Directive where
  | str
  | bin
  | percent
  | number (consumed : Nat)
  | double
  | invalid
  | overrun

/-- The result of formatting: the argument vector that is sent, the `-2` of an
invalid directive, or no defined behaviour. -/
inductive FormatResult where
  | ok (argv : List Str)
  | formatError
  | undefined
  deriving DecidableEq

namespace FormatCommand

def isFlag (byte : UInt8) : Bool := byte ∈ ascii "#0-+ "

def isIntConversion (byte : UInt8) : Bool := byte ∈ ascii "diouxX"

def isDoubleConversion (byte : UInt8) : Bool := byte ∈ ascii "eEfFgGaA"

/-- The `hh`, `h`, `ll` and `l` branches, entered behind the first modifier. -/
def sizedConversion (modifier : UInt8) (consumed : Nat) : Str → Directive
  | [] => .invalid
  | second :: rest =>
      if second = modifier then
        match rest with
        | conversion :: _ =>
            if isIntConversion conversion then .number (consumed + 3)
            else .invalid
        | [] => .invalid
      else if isIntConversion second then .number (consumed + 2)
      else .invalid

/-- The `default` branch: flags, width and precision, then a conversion.  At
the end of the text `strchr` finds the terminator in its own pattern, and the
scan goes on behind it. -/
def printfDirective (text : Str) : Directive :=
  let afterFlags := text.dropWhile isFlag
  let afterWidth := afterFlags.dropWhile Byte.isDigit
  let atConversion :=
    match afterWidth with
    | 46 :: rest => rest.dropWhile Byte.isDigit
    | other => other
  let consumed := text.length - atConversion.length
  match atConversion with
  | [] => .overrun
  | byte :: rest =>
      if isIntConversion byte then .number (consumed + 1)
      else if isDoubleConversion byte then .double
      else if byte = 104 then sizedConversion 104 consumed rest
      else if byte = 108 then sizedConversion 108 consumed rest
      else .invalid

/-- The directive at the front of the text behind a `%`. -/
def directive : Str → Directive
  | [] => .overrun
  | byte :: rest =>
      if byte = 115 then .str
      else if byte = 98 then .bin
      else if byte = Byte.percent then .percent
      else printfDirective (byte :: rest)

/-- The main loop.  `skip` counts the bytes of a directive still to pass over;
`current` is the argument being built and `touched` whether it exists yet.  A
numeric directive too long for the 16-byte buffer consumes its argument
without printing it. -/
def formatLoop (printf : Str → Int → Str) :
    Nat → Str → Str → Bool → List Str → List VArg → FormatResult
  | _, [], current, touched, argv, _ =>
      .ok (if touched then argv ++ [current] else argv)
  | skip + 1, _ :: rest, current, touched, argv, args =>
      formatLoop printf skip rest current touched argv args
  | 0, byte :: rest, current, touched, argv, args =>
      if byte ≠ Byte.percent ∨ rest = [] then
        if byte = Byte.space then
          if touched then formatLoop printf 0 rest [] false (argv ++ [current]) args
          else formatLoop printf 0 rest current false argv args
        else formatLoop printf 0 rest (current ++ [byte]) true argv args
      else
        match directive rest, args with
        | .percent, args =>
            formatLoop printf 1 rest (current ++ [Byte.percent]) true argv args
        | .str, .str text :: args =>
            formatLoop printf 1 rest (current ++ cStr text) true argv args
        | .bin, .bin text :: args =>
            formatLoop printf 1 rest (current ++ text) true argv args
        | .number consumed, .int value :: args =>
            if consumed + 1 < 14 then
              formatLoop printf consumed rest
                (current ++ printf (Byte.percent :: rest.take consumed) value)
                true argv args
            else formatLoop printf 1 rest current true argv args
        | .invalid, _ => .formatError
        | _, _ => .undefined

end FormatCommand

open FormatCommand

/-- `redisvFormatCommand`: the argument vector of a format text and its
variadic arguments.  `printf` stands for the libc conversion of one integer
directive. -/
def redisvFormatCommand (printf : Str → Int → Str) (format : Str)
    (args : List VArg) : FormatResult :=
  formatLoop printf 0 (cStr format) [] false [] args

/-! ## Texts without variadic arguments

A caller that concatenates its data into the format text passes no variadic
argument.  Then every directive but `%%` fails or is undefined, and the
tokeniser is the following splitter. -/

/-- Split at blanks, read `%%` as `%`, keep a final `%`, fail at any other
directive. -/
def wordsFrom (argv : List Str) (current : Str) (touched : Bool) :
    Str → Option (List Str)
  | [] => some (if touched then argv ++ [current] else argv)
  | [byte] =>
      if byte = Byte.space then
        some (if touched then argv ++ [current] else argv)
      else some (argv ++ [current ++ [byte]])
  | byte :: next :: rest =>
      if byte = Byte.percent then
        if next = Byte.percent then
          wordsFrom argv (current ++ [Byte.percent]) true rest
        else none
      else if byte = Byte.space then
        if touched then wordsFrom (argv ++ [current]) [] false (next :: rest)
        else wordsFrom argv current false (next :: rest)
      else wordsFrom argv (current ++ [byte]) true (next :: rest)

/-- The argument vector of a text without variadic arguments. -/
def wordsOf (text : Str) : Option (List Str) := wordsFrom [] [] false text

theorem sizedConversion_ne_percent (modifier : UInt8) (consumed : Nat)
    (text : Str) : sizedConversion modifier consumed text ≠ .percent := by
  unfold sizedConversion
  repeat' split
  all_goals simp

theorem printfDirective_ne_percent (text : Str) :
    printfDirective text ≠ .percent := by
  unfold printfDirective
  simp only
  split
  · simp
  · split
    · simp
    · split
      · simp
      · split
        · exact sizedConversion_ne_percent _ _ _
        · split
          · exact sizedConversion_ne_percent _ _ _
          · simp

theorem directive_eq_percent_iff {byte : UInt8} {rest : Str} :
    directive (byte :: rest) = .percent ↔ byte = Byte.percent := by
  by_cases isPercent : byte = Byte.percent
  · subst isPercent
    simp [directive]
  · simp only [directive, isPercent, if_false, iff_false]
    split
    · simp
    · split
      · simp
      · exact printfDirective_ne_percent _

/-- Without variadic arguments a directive other than `%%` never succeeds. -/
theorem formatLoop_directive_ne_ok {printf : Str → Int → Str}
    {next : UInt8} {rest current : Str} {touched : Bool} {argv out : List Str}
    (notPercent : next ≠ Byte.percent) :
    formatLoop printf 0 (Byte.percent :: next :: rest) current touched argv []
      ≠ .ok out := by
  have notLiteral : directive (next :: rest) ≠ .percent := fun equality =>
    notPercent (directive_eq_percent_iff.mp equality)
  cases found : directive (next :: rest) with
  | percent => exact absurd found notLiteral
  | str => simp [formatLoop, found]
  | bin => simp [formatLoop, found]
  | number consumed => simp [formatLoop, found]
  | double => simp [formatLoop, found]
  | invalid => simp [formatLoop, found]
  | overrun => simp [formatLoop, found]

theorem formatLoop_eq_ok_iff (printf : Str → Int → Str)
    (argv : List Str) (current : Str) (touched : Bool) (text : Str)
    (out : List Str) :
    formatLoop printf 0 text current touched argv [] = .ok out ↔
      wordsFrom argv current touched text = some out := by
  induction argv, current, touched, text using wordsFrom.induct with
  | case1 argv current touched => simp [formatLoop, wordsFrom]
  | case2 argv current touched => cases touched <;> simp [formatLoop, wordsFrom]
  | case3 argv current touched byte notSpace =>
      simp [formatLoop, wordsFrom, notSpace]
  | case4 argv current touched rest induction =>
      have literal : directive (Byte.percent :: rest) = .percent :=
        directive_eq_percent_iff.mpr rfl
      simpa [formatLoop, wordsFrom, literal] using induction
  | case5 argv current touched next rest notPercent =>
      constructor
      · intro formatted
        exact absurd formatted (formatLoop_directive_ne_ok notPercent)
      · simp [wordsFrom, notPercent]
  | case6 argv current next rest notPercent induction =>
      simpa [formatLoop, wordsFrom] using induction
  | case7 argv current touched next rest untouched notPercent induction =>
      simp only [Bool.not_eq_true] at untouched
      subst untouched
      simpa [formatLoop, wordsFrom] using induction
  | case8 argv current touched byte next rest notPercent notSpace induction =>
      simpa [formatLoop, wordsFrom, notPercent, notSpace] using induction

/-- What a text concatenated by its caller is sent as. -/
theorem redisvFormatCommand_eq_ok_iff (printf : Str → Int → Str)
    (text : Str) (out : List Str) :
    redisvFormatCommand printf text [] = .ok out ↔
      wordsOf (cStr text) = some out :=
  formatLoop_eq_ok_iff printf [] [] false (cStr text) out

end ChatRoom
