import ChatRoom.Base.Bytes
import ChatRoom.Lib.SqlLexer

/-!
# `FormatString` and the lexer

`FormatString` puts the bytes of its arguments between the quotes of a format.
A statement built so is its template with the values spliced in, which is what
the rules of the lexer speak about.
-/

namespace ChatRoom

namespace Api

open Lib.Sql

inductive FormatArgument where
  | string (text : Str)
  | int (value : Int)
  | unsignedLong (value : Nat)

/-- The text `%d` prints. -/
def intText (value : Int) : Str :=
  if value < 0 then ascii "-" ++ decimal value.natAbs
  else decimal value.natAbs

/-- `FormatString`, for the conversions `%s`, `%d` and `%lu`: `none` when a
conversion has no argument of its kind. -/
def formatString : Str → List FormatArgument → Option Str
  | [], _ => some []
  | byte :: format, arguments =>
      if byte ≠ Byte.percent then
        (formatString format arguments).map (byte :: ·)
      else
        match format, arguments with
        | 115 :: format, .string text :: arguments =>
            (formatString format arguments).map (cStr text ++ ·)
        | 100 :: format, .int value :: arguments =>
            (formatString format arguments).map (intText value ++ ·)
        | 108 :: 117 :: format, .unsignedLong value :: arguments =>
            (formatString format arguments).map (decimal value ++ ·)
        | _, _ => none

/-- The tokens of a format, with its slots filled: `'%s'` by one literal with
the value of the argument, `%d` and `%lu` by the tokens of the number. -/
def fillSlots : List Token → List FormatArgument → List Token
  | [], _ => []
  | .string [37, 115] :: tokens, .string text :: arguments =>
      .string text :: fillSlots tokens arguments
  | .symbol 37 :: .word [100] :: tokens, .int value :: arguments =>
      lex (intText value) ++ fillSlots tokens arguments
  | .symbol 37 :: .word [108, 117] :: tokens,
      .unsignedLong value :: arguments =>
      lex (decimal value) ++ fillSlots tokens arguments
  | token :: tokens, arguments => token :: fillSlots tokens arguments

/-- A call of `FormatString`. -/
structure Statement where
  format : Str
  arguments : List FormatArgument

namespace Statement

def text (statement : Statement) : Option Str :=
  formatString statement.format statement.arguments

/-- The tokens of the template. -/
def tokens (statement : Statement) : List Token :=
  fillSlots (lex statement.format) statement.arguments

end Statement

/-! ## What the slots are filled with -/

/-- Text of a format without conversions. -/
theorem formatString_append {front : Str} (noPercent : Byte.percent ∉ front)
    (rest : Str) (arguments : List FormatArgument) :
    formatString (front ++ rest) arguments =
      (formatString rest arguments).map (front ++ ·) := by
  induction front with
  | nil => simp
  | cons byte front induction =>
      rw [List.mem_cons, not_or] at noPercent
      have different : byte ≠ Byte.percent := Ne.symm noPercent.1
      rw [List.cons_append, formatString.eq_def]
      simp only [if_pos different]
      rw [induction noPercent.2, Option.map_map]
      rfl

/-- A token that belongs to no slot. -/
def isFixed : Token → Bool
  | .string _ => false
  | .symbol byte => byte ≠ 37
  | _ => true

theorem fillSlots_append {tokens : List Token}
    (fixed : tokens.all isFixed = true) (rest : List Token)
    (arguments : List FormatArgument) :
    fillSlots (tokens ++ rest) arguments =
      tokens ++ fillSlots rest arguments := by
  induction tokens with
  | nil => rfl
  | cons token tokens induction =>
      rw [List.all_cons, Bool.and_eq_true] at fixed
      obtain ⟨isFixed, later⟩ := fixed
      rw [List.cons_append, List.cons_append, ← induction later]
      cases token with
      | string value => cases isFixed
      | symbol byte =>
          have different : byte ≠ 37 := by simpa [Api.isFixed] using isFixed
          simp [fillSlots, different]
      | _ => simp [fillSlots]

/-- A string slot between quotes. -/
theorem formatString_slot (value rest : Str) (arguments : List FormatArgument) :
    formatString (ascii "'%s'" ++ rest) (.string value :: arguments) =
      (formatString rest arguments).map fun text =>
        39 :: (cStr value ++ 39 :: text) := by
  have noPercent : Byte.percent ∉ ([39] : Str) := by decide
  have conversion : formatString (37 :: 115 :: ([39] ++ rest))
      (.string value :: arguments) =
        (formatString ([39] ++ rest) arguments).map (cStr value ++ ·) := rfl
  have opening := formatString_append noPercent (37 :: 115 :: ([39] ++ rest))
    (.string value :: arguments)
  have closing := formatString_append noPercent rest arguments
  rw [conversion, closing, Option.map_map, Option.map_map] at opening
  exact opening

/-- Literal text of a template in front of a string slot. -/
def isFront (front : Str) : Bool :=
  Byte.percent ∉ front && (run .plain front).2.admitsString &&
    (lex front).all isFixed

theorem lex_slot {front rest : Str} (closed : Closed front)
    (ordinary : Ordinary rest) :
    lex (front ++ ascii "'%s'" ++ rest) =
      lex front ++ .string [37, 115] :: lex rest := by
  have plain : isPlain [37, 115] = true := rfl
  have opened : lex (front ++ ascii "'%s'" ++ rest) =
      lex front ++ lexFrom (.string 39 []) ([37, 115] ++ 39 :: rest) := by
    rw [List.append_assoc]
    exact closed ([37, 115] ++ 39 :: rest)
  rw [opened, lexFrom_string, readString_of_isPlain plain ordinary]
  rfl

/-- The statement is its template with the values of the slots spliced in. -/
structure Splices (statement : Statement) (front : Str)
    (slots : List (Str × Str)) : Prop where
  text : statement.text = some (spliced front slots)
  tokens : statement.tokens = splicedTokens front slots
  closed : slots ≠ [] → Closed front
  separated : Separated slots

/-- A slot for a string, in front of the rest of the statement. -/
theorem Splices.literal {statement : Statement} {front rest value behind : Str}
    {arguments : List FormatArgument} {slots : List (Str × Str)}
    (format : statement.format = front ++ ascii "'%s'" ++ rest)
    (isArgument : statement.arguments = .string value :: arguments)
    (noNul : Byte.nul ∉ value) (front_isFront : isFront front = true)
    (ordinaryRest : Ordinary rest) (ordinary : Ordinary behind)
    (nonempty : slots ≠ [] → behind ≠ [])
    (splices : Splices ⟨rest, arguments⟩ behind slots) :
    Splices statement front ((value, behind) :: slots) := by
  obtain ⟨format', arguments'⟩ := statement
  subst format isArgument
  simp only [isFront, Bool.and_eq_true, decide_eq_true_eq] at front_isFront
  obtain ⟨⟨noPercent, admits⟩, fixed⟩ := front_isFront
  have closed := closed_of_run admits
  constructor
  · have text := splices.text
    rw [Statement.text] at text ⊢
    rw [List.append_assoc, formatString_append noPercent, formatString_slot,
      text, cStr_eq_self noNul]
    rfl
  · have tokens := splices.tokens
    rw [Statement.tokens] at tokens ⊢
    rw [lex_slot closed ordinaryRest, fillSlots_append fixed, splicedTokens,
      ← tokens]
    rfl
  · intro _
    exact closed
  · cases slots with
    | nil => exact ordinary
    | cons slot slots =>
        have isCons := List.cons_ne_nil slot slots
        exact ⟨⟨nonempty isCons, ordinary, splices.closed isCons⟩,
          splices.separated⟩

/-- The end of a statement, behind its last slot for a string. -/
theorem Splices.last {rest behind : Str} {arguments : List FormatArgument}
    (text : formatString rest arguments = some behind)
    (tokens : fillSlots (lex rest) arguments = lex behind) :
    Splices ⟨rest, arguments⟩ behind [] :=
  ⟨text, tokens, fun nonempty => absurd rfl nonempty, trivial⟩

/-- A statement whose only slot ends it. -/
theorem Splices.only {statement : Statement} {front value : Str}
    (format : statement.format = front ++ ascii "'%s'" ++ [])
    (isArgument : statement.arguments = [.string value])
    (noNul : Byte.nul ∉ value) (front_isFront : isFront front = true) :
    Splices statement front [(value, [])] := by
  apply Splices.literal format isArgument noNul front_isFront
  · decide +kernel
  · decide +kernel
  · intro nonempty
    exact absurd rfl nonempty
  · exact Splices.last rfl rfl

end Api

end ChatRoom
