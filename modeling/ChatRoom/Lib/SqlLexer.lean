import Mathlib.Data.List.Induction

/-!
# The lexical structure of SQL text

The tokens MySQL reads from the bytes of a statement in its default mode:
string literals in single or double quotes with doubled quotes and backslash
sequences, quoted identifiers, words, comments and symbols.  The lexer is a
machine over single bytes.  A statement with values spliced into it as string
literals keeps its tokens exactly when every value is plain.

Bytes stand for characters: in UTF-8 no byte of a longer character is a quote
or a backslash.  An executable comment `/*! … */` is lexed as a comment.
-/

namespace Lib

namespace Sql

abbrev Text := List UInt8

inductive Token where
  | word (text : Text)
  | symbol (byte : UInt8)
  | string (value : Text)
  | identifier (name : Text)
  | unterminated
  deriving DecidableEq

/-- What the lexer is in the middle of. -/
inductive Mode where
  | plain
  | word (text : Text)
  | string (delimiter : UInt8) (value : Text)
  | escape (delimiter : UInt8) (value : Text)
  | closing (delimiter : UInt8) (value : Text)
  | identifier (name : Text)
  | closingIdentifier (name : Text)
  | dash
  | dashDash
  | lineComment
  | slash
  | blockComment
  | blockStar
  deriving DecidableEq

/-- Letters, digits, `_`, `$` and the bytes above ASCII. -/
def isWordByte (byte : UInt8) : Bool :=
  (48 ≤ byte && byte ≤ 57) || (65 ≤ byte && byte ≤ 90) ||
    (97 ≤ byte && byte ≤ 122) || byte = 95 || byte = 36 || 128 ≤ byte

/-- White space and control bytes. -/
def isBlank (byte : UInt8) : Bool := byte ≤ 32 || byte = 127

/-- The byte a backslash sequence stands for. -/
def escaped (byte : UInt8) : UInt8 :=
  if byte = 48 then 0
  else if byte = 98 then 8
  else if byte = 110 then 10
  else if byte = 114 then 13
  else if byte = 116 then 9
  else if byte = 90 then 26
  else byte

/-- `\%` and `\_` keep their backslash. -/
def isWildcard (byte : UInt8) : Bool := byte = 37 || byte = 95

/-- What a backslash and this byte read as in a string literal. -/
def unescape (byte : UInt8) : Text :=
  if isWildcard byte then [92, byte] else [escaped byte]

/-- A byte between two tokens. -/
def begin (byte : UInt8) : List Token × Mode :=
  if byte = 39 ∨ byte = 34 then ([], .string byte [])
  else if byte = 96 then ([], .identifier [])
  else if byte = 35 then ([], .lineComment)
  else if byte = 45 then ([], .dash)
  else if byte = 47 then ([], .slash)
  else if isWordByte byte then ([], .word [byte])
  else if isBlank byte then ([], .plain)
  else ([.symbol byte], .plain)

/-- A byte behind a token that it ends. -/
def beginBehind (token : Token) (byte : UInt8) : List Token × Mode :=
  (token :: (begin byte).1, (begin byte).2)

def step : Mode → UInt8 → List Token × Mode
  | .plain, byte => begin byte
  | .word text, byte =>
      if isWordByte byte then ([], .word (text ++ [byte]))
      else beginBehind (.word text) byte
  | .string delimiter value, byte =>
      if byte = delimiter then ([], .closing delimiter value)
      else if byte = 92 then ([], .escape delimiter value)
      else ([], .string delimiter (value ++ [byte]))
  | .escape delimiter value, byte =>
      ([], .string delimiter (value ++ unescape byte))
  | .closing delimiter value, byte =>
      if byte = delimiter then ([], .string delimiter (value ++ [delimiter]))
      else beginBehind (.string value) byte
  | .identifier name, byte =>
      if byte = 96 then ([], .closingIdentifier name)
      else ([], .identifier (name ++ [byte]))
  | .closingIdentifier name, byte =>
      if byte = 96 then ([], .identifier (name ++ [96]))
      else beginBehind (.identifier name) byte
  | .dash, byte =>
      if byte = 45 then ([], .dashDash) else beginBehind (.symbol 45) byte
  | .dashDash, byte =>
      if byte = 10 then ([], .plain)
      else if isBlank byte then ([], .lineComment)
      else if byte = 45 then ([.symbol 45], .dashDash)
      else
        (.symbol 45 :: (beginBehind (.symbol 45) byte).1, (begin byte).2)
  | .lineComment, byte => ([], if byte = 10 then .plain else .lineComment)
  | .slash, byte =>
      if byte = 42 then ([], .blockComment) else beginBehind (.symbol 47) byte
  | .blockComment, byte =>
      ([], if byte = 42 then .blockStar else .blockComment)
  | .blockStar, byte =>
      ([], if byte = 47 then .plain
        else if byte = 42 then .blockStar else .blockComment)

/-- What the end of the text adds. -/
def finish : Mode → List Token
  | .plain | .lineComment | .dashDash => []
  | .word text => [.word text]
  | .closing _ value => [.string value]
  | .closingIdentifier name => [.identifier name]
  | .dash => [.symbol 45]
  | .slash => [.symbol 47]
  | .string .. | .escape .. | .identifier .. => [.unterminated]
  | .blockComment | .blockStar => [.unterminated]

def lexFrom : Mode → Text → List Token
  | mode, [] => finish mode
  | mode, byte :: text => (step mode byte).1 ++ lexFrom (step mode byte).2 text

/-- The tokens of a statement. -/
def lex (text : Text) : List Token := lexFrom .plain text

/-- The tokens a text completes, and the mode behind it. -/
def run : Mode → Text → List Token × Mode
  | mode, [] => ([], mode)
  | mode, byte :: text =>
      let (tokens, next) := run (step mode byte).2 text
      ((step mode byte).1 ++ tokens, next)

theorem lexFrom_append (mode : Mode) (front rest : Text) :
    lexFrom mode (front ++ rest) =
      (run mode front).1 ++ lexFrom (run mode front).2 rest := by
  induction front generalizing mode with
  | nil => rfl
  | cons byte front induction =>
      simp only [List.cons_append, lexFrom, run, induction, List.append_assoc]

theorem run_append (mode : Mode) (front rest : Text) :
    run mode (front ++ rest) =
      ((run mode front).1 ++ (run (run mode front).2 rest).1,
        (run (run mode front).2 rest).2) := by
  induction front generalizing mode with
  | nil => rfl
  | cons byte front induction =>
      simp only [List.cons_append, run, induction, List.append_assoc]

/-- A run over word bytes only extends the word. -/
theorem run_word {digits : Text} (text : Text)
    (words : ∀ byte ∈ digits, isWordByte byte = true) :
    run (.word text) digits = ([], .word (text ++ digits)) := by
  induction digits generalizing text with
  | nil => simp [run]
  | cons byte digits induction =>
      have isWord := words byte (by simp)
      have rest := induction (text ++ [byte]) fun other member =>
        words other (by simp [member])
      simp [run, step, isWord, rest]

/-- Digits between tokens begin a word. -/
theorem run_digits {digits : Text} (nonempty : digits ≠ [])
    (isDigit : ∀ byte ∈ digits, 48 ≤ byte ∧ byte ≤ 57) :
    run .plain digits = ([], .word digits) := by
  cases digits with
  | nil => exact absurd rfl nonempty
  | cons byte digits =>
      have words : ∀ other ∈ byte :: digits, isWordByte other = true := by
        intro other member
        obtain ⟨lower, upper⟩ := isDigit other member
        simp [isWordByte, lower, upper]
      have begins : begin byte = ([], .word [byte]) := by
        obtain ⟨lower, upper⟩ := isDigit byte (by simp)
        have isWord := words byte (by simp)
        have different : ∀ other : UInt8, other < 48 ∨ 57 < other →
            byte ≠ other := by
          intro other outside equality
          subst equality
          rcases outside with below | above
          · exact absurd lower (by simpa using below)
          · exact absurd upper (by simpa using above)
        simp [begin, isWord, different 39 (by decide), different 34 (by decide),
          different 96 (by decide), different 35 (by decide),
          different 45 (by decide), different 47 (by decide)]
      have rest := run_word [byte] fun other member =>
        words other (List.mem_cons_of_mem _ member)
      simp [run, step, begins, rest]

/-! ## String literals -/

/-- The value of a literal behind its opening delimiter, and the text behind
the closing one. -/
def readString (delimiter : UInt8) : Text → Option (Text × Text)
  | [] => none
  | [byte] => if byte = delimiter then some ([], []) else none
  | byte :: next :: rest =>
      if byte = delimiter then
        if next = delimiter then
          (readString delimiter rest).map fun (value, behind) =>
            (delimiter :: value, behind)
        else some ([], next :: rest)
      else if byte = 92 then
        (readString delimiter rest).map fun (value, behind) =>
          (unescape next ++ value, behind)
      else
        (readString delimiter (next :: rest)).map fun (value, behind) =>
          (byte :: value, behind)

/-- The lexer inside a literal. -/
theorem lexFrom_string (delimiter : UInt8) (value text : Text) :
    lexFrom (.string delimiter value) text =
      match readString delimiter text with
      | none => [.unterminated]
      | some (more, behind) => .string (value ++ more) :: lex behind := by
  induction text using readString.induct delimiter generalizing value with
  | case1 => rfl
  | case2 =>
      simp [lexFrom, step, readString, finish, lex]
  | case3 byte different =>
      by_cases escapes : byte = 92
      · subst escapes
        simp [lexFrom, step, readString, different, finish]
      · simp [lexFrom, step, readString, different, escapes, finish]
  | case4 rest induction =>
      simp only [lexFrom, step, readString, if_true, List.nil_append,
        induction]
      cases readString delimiter rest with
      | none => rfl
      | some read => simp
  | case5 next rest different =>
      simp only [lexFrom, step, readString, if_true, if_neg different,
        List.nil_append, List.append_nil]
      rfl
  | case6 next rest different induction =>
      simp only [lexFrom, step, readString, if_true, if_neg different,
        List.nil_append, induction]
      cases readString delimiter rest with
      | none => rfl
      | some read => simp
  | case7 byte next rest different unescaped induction =>
      rw [lexFrom]
      simp only [step, readString, if_neg different, if_neg unescaped,
        List.nil_append, induction]
      cases readString delimiter (next :: rest) with
      | none => rfl
      | some read => simp

/-! ## Plain values -/

/-- A value that reads as itself between single quotes: it has no quote, and
every backslash stands before `%` or `_`. -/
def isPlain : Text → Bool
  | [] => true
  | [byte] => byte ≠ 39 && byte ≠ 92
  | byte :: next :: rest =>
      if byte = 92 then isWildcard next && isPlain rest
      else byte ≠ 39 && isPlain (next :: rest)

/-- The text behind a literal does not go on with it. -/
def Ordinary (text : Text) : Prop :=
  ∀ byte ∈ text.head?, byte ≠ 39 ∧ byte ≠ 92

instance (text : Text) : Decidable (Ordinary text) :=
  show Decidable (∀ byte ∈ text.head?, byte ≠ 39 ∧ byte ≠ 92) from
    Option.decidableForallMem text.head?

theorem readString_of_isPlain {value behind : Text}
    (plain : isPlain value = true) (ordinary : Ordinary behind) :
    readString 39 (value ++ 39 :: behind) = some (value, behind) := by
  induction value using isPlain.induct with
  | case1 =>
      cases behind with
      | nil => rfl
      | cons byte behind =>
          have different : byte ≠ 39 := (ordinary byte rfl).1
          simp [readString, different]
  | case2 byte =>
      simp only [isPlain, Bool.and_eq_true, decide_eq_true_eq] at plain
      cases behind with
      | nil => simp [readString, plain]
      | cons next behind =>
          have different : next ≠ 39 := (ordinary next rfl).1
          simp [readString, plain, different]
  | case3 next rest induction =>
      simp only [isPlain, if_true, Bool.and_eq_true] at plain
      obtain ⟨wildcard, later⟩ := plain
      simp [readString, induction later, unescape, wildcard]
  | case4 byte next rest unescaped induction =>
      simp only [isPlain, if_neg unescaped, Bool.and_eq_true,
        decide_eq_true_eq] at plain
      obtain ⟨different, later⟩ := plain
      have read := induction later
      rw [List.cons_append] at read
      simp [readString, different, unescaped, read]

/-- The bytes that a literal between single quotes has to escape. -/
def Special (byte : UInt8) : Prop := byte = 39 ∨ byte = 92

instance (byte : UInt8) : Decidable (Special byte) := by
  unfold Special
  infer_instance

theorem special_of_escaped {byte : UInt8} (special : Special (escaped byte)) :
    Special byte := by
  unfold escaped at special
  split_ifs at special
  all_goals first
    | exact special
    | exact absurd special (by decide)

theorem not_special_of_isWildcard {byte : UInt8}
    (wildcard : isWildcard byte = true) : ¬ Special byte := by
  simp only [isWildcard, Bool.or_eq_true, decide_eq_true_eq] at wildcard
  rcases wildcard with rfl | rfl <;> decide

/-- What a literal between single quotes reads at two bytes: a doubled quote,
its end, an escape, or a byte as it stands. -/
theorem readString_cases {byte next : UInt8} {text value after : Text}
    (read : readString 39 (byte :: next :: text) = some (value, after)) :
    (byte = 39 ∧ next = 39 ∧ ∃ more,
      readString 39 text = some (more, after) ∧ value = 39 :: more) ∨
    (byte = 39 ∧ next ≠ 39 ∧ value = []) ∨
    (byte = 92 ∧ ∃ more,
      readString 39 text = some (more, after) ∧ value = unescape next ++ more) ∨
    (¬ Special byte ∧ ∃ more,
      readString 39 (next :: text) = some (more, after) ∧
        value = byte :: more) := by
  by_cases isQuote : byte = 39
  · by_cases isDoubled : next = 39
    · left
      simp only [readString, isQuote, isDoubled, if_true] at read
      obtain ⟨⟨more, behind⟩, later, equality⟩ := Option.map_eq_some_iff.mp read
      obtain ⟨rfl, rfl⟩ := Prod.mk.inj equality
      exact ⟨isQuote, isDoubled, more, later, rfl⟩
    · right; left
      simp only [readString, isQuote, if_true, if_neg isDoubled] at read
      exact ⟨isQuote, isDoubled, (Prod.mk.inj (Option.some.inj read)).1.symm⟩
  · by_cases isBackslash : byte = 92
    · right; right; left
      have noQuote : (92 : UInt8) ≠ 39 := by decide
      simp only [readString, isBackslash, if_neg noQuote, if_true] at read
      obtain ⟨⟨more, behind⟩, later, equality⟩ := Option.map_eq_some_iff.mp read
      obtain ⟨rfl, rfl⟩ := Prod.mk.inj equality
      exact ⟨isBackslash, more, later, rfl⟩
    · right; right; right
      simp only [readString, if_neg isQuote, if_neg isBackslash] at read
      obtain ⟨⟨more, behind⟩, later, equality⟩ := Option.map_eq_some_iff.mp read
      obtain ⟨rfl, rfl⟩ := Prod.mk.inj equality
      exact ⟨not_or.mpr ⟨isQuote, isBackslash⟩, more, later, rfl⟩

/-- Ordinary text reads as itself at its first byte. -/
theorem readString_ordinary {text value after : Text}
    (ordinary : Ordinary text)
    (read : readString 39 text = some (value, after)) :
    ∃ byte more, value = byte :: more ∧ ¬ Special byte := by
  cases text with
  | nil => cases read
  | cons byte text =>
      obtain ⟨noQuote, noBackslash⟩ := ordinary byte rfl
      cases text with
      | nil => simp [readString, noQuote] at read
      | cons next text =>
          rcases readString_cases read with
            ⟨isQuote, -⟩ | ⟨isQuote, -⟩ | ⟨isBackslash, -⟩ |
            ⟨notSpecial, more, -, starts⟩
          · exact absurd isQuote noQuote
          · exact absurd isQuote noQuote
          · exact absurd isBackslash noBackslash
          · exact ⟨byte, more, starts, notSpecial⟩

/-- The bytes still owed cannot come from ordinary text. -/
theorem not_read_of_special {behind value after : Text}
    (ordinary : Ordinary behind)
    (read : readString 39 behind = some (value, after)) :
    ¬ ∀ byte ∈ value, Special byte := by
  intro special
  obtain ⟨first, more, starts, notSpecial⟩ := readString_ordinary ordinary read
  apply notSpecial
  apply special first
  rw [starts]
  exact List.mem_cons_self

/-- An escape gives a special byte only for a special one. -/
theorem special_of_unescape {next first : UInt8} {more tail : Text}
    (equality : unescape next ++ more = first :: tail)
    (special : Special first) :
    (isWildcard next = true ∧ tail = next :: more) ∨
      (Special next ∧ tail = more) := by
  by_cases wildcard : isWildcard next = true
  · left
    simp only [unescape, wildcard, if_true, List.cons_append,
      List.nil_append] at equality
    exact ⟨wildcard, (List.cons.inj equality).2.symm⟩
  · right
    simp only [unescape, wildcard, Bool.false_eq_true, if_false,
      List.cons_append, List.nil_append] at equality
    obtain ⟨isEscaped, rest⟩ := List.cons.inj equality
    rw [← isEscaped] at special
    exact ⟨special_of_escaped special, rest.symm⟩

/-- A literal that still owes special bytes never reads the rest of its value
as it stands: to read one more special byte it spends two. -/
theorem readString_ne_of_owed {rest owed behind after : Text}
    (nonempty : owed ≠ []) (special : ∀ byte ∈ owed, Special byte)
    (ordinary : Ordinary behind) :
    readString 39 (rest ++ 39 :: behind) ≠ some (owed ++ rest, after) := by
  induction rest using List.twoStepInduction generalizing owed with
  | nil =>
      intro read
      have closes : readString 39 ([] ++ 39 :: behind) = some ([], behind) :=
        readString_of_isPlain rfl ordinary
      rw [closes, List.append_nil] at read
      exact nonempty (Prod.mk.inj (Option.some.inj read)).1.symm
  | singleton byte =>
      intro read
      obtain ⟨first, owed, rfl⟩ := List.exists_cons_of_ne_nil nonempty
      obtain ⟨firstSpecial, owedSpecial⟩ := List.forall_mem_cons.mp special
      -- the delimiter is read as part of the value, so the text behind it
      -- would have to supply the special bytes still owed
      have exhausted : Special byte →
          readString 39 behind ≠ some (owed ++ [byte], after) := by
        intro isSpecial later
        apply not_read_of_special ordinary later
        refine List.forall_mem_append.mpr ⟨owedSpecial, ?_⟩
        intro last member
        rw [List.mem_singleton.mp member]
        exact isSpecial
      rcases readString_cases read with
        ⟨isQuote, -, more, later, values⟩ | ⟨-, noQuote, -⟩ |
        ⟨isBackslash, more, later, values⟩ | ⟨notSpecial, more, -, values⟩
      · rw [← (List.cons.inj values).2] at later
        exact exhausted (.inl isQuote) later
      · exact noQuote rfl
      · rcases special_of_unescape values.symm firstSpecial with
          ⟨wildcard, -⟩ | ⟨-, tail⟩
        · exact absurd wildcard (by decide)
        · rw [← tail] at later
          exact exhausted (.inr isBackslash) later
      · rw [← (List.cons.inj values).1] at notSpecial
        exact notSpecial firstSpecial
  | cons_cons byte next rest skipTwo skipOne =>
      intro read
      obtain ⟨first, owed, rfl⟩ := List.exists_cons_of_ne_nil nonempty
      obtain ⟨firstSpecial, owedSpecial⟩ := List.forall_mem_cons.mp special
      -- two special bytes are spent to read one
      have spent : Special byte → Special next →
          readString 39 (rest ++ 39 :: behind) ≠
            some (owed ++ byte :: next :: rest, after) := by
        intro byteSpecial nextSpecial later
        have longer : owed ++ [byte, next] ≠ [] := by simp
        have allSpecial : ∀ other ∈ owed ++ [byte, next], Special other := by
          refine List.forall_mem_append.mpr ⟨owedSpecial, ?_⟩
          intro other member
          simp only [List.mem_cons, List.not_mem_nil, or_false] at member
          rcases member with rfl | rfl
          · exact byteSpecial
          · exact nextSpecial
        apply skipTwo longer allSpecial
        rw [later]
        simp
      rcases readString_cases read with
        ⟨isQuote, isDoubled, more, later, values⟩ | ⟨-, -, values⟩ |
        ⟨isBackslash, more, later, values⟩ | ⟨notSpecial, more, -, values⟩
      · rw [← (List.cons.inj values).2] at later
        exact spent (.inl isQuote) (.inl isDoubled) later
      · cases values
      · rcases special_of_unescape values.symm firstSpecial with
          ⟨wildcard, tail⟩ | ⟨nextSpecial, tail⟩
        · -- the wildcard would be one of the special bytes still owed
          have notSpecial := not_special_of_isWildcard wildcard
          cases owed with
          | nil =>
              rw [← (List.cons.inj tail).1] at notSpecial
              exact notSpecial (.inr isBackslash)
          | cons other owed =>
              rw [← (List.cons.inj tail).1] at notSpecial
              exact notSpecial (owedSpecial other List.mem_cons_self)
        · rw [← tail] at later
          exact spent (.inr isBackslash) nextSpecial later
      · rw [← (List.cons.inj values).1] at notSpecial
        exact notSpecial firstSpecial

/-- One special byte is still owed. -/
theorem readString_ne_of_special {next : UInt8} {rest behind after : Text}
    (special : Special next) (ordinary : Ordinary behind) :
    readString 39 (rest ++ 39 :: behind) ≠ some (next :: rest, after) := by
  have owes : ∀ byte ∈ [next], Special byte := by
    intro byte member
    rw [List.mem_singleton.mp member]
    exact special
  exact readString_ne_of_owed (List.cons_ne_nil _ _) owes ordinary

/-- Only a plain value reads as itself. -/
theorem isPlain_of_readString {value behind after : Text}
    (ordinary : Ordinary behind)
    (read : readString 39 (value ++ 39 :: behind) = some (value, after)) :
    isPlain value = true := by
  induction value using isPlain.induct with
  | case1 => rfl
  | case2 byte =>
      rcases readString_cases read with
        ⟨-, -, more, later, values⟩ | ⟨-, noQuote, -⟩ |
        ⟨isBackslash, more, -, values⟩ | ⟨notSpecial, -⟩
      · obtain ⟨first, tail, starts, -⟩ := readString_ordinary ordinary later
        rw [starts] at values
        cases values
      · exact absurd rfl noQuote
      · rw [isBackslash] at values
        cases values
      · obtain ⟨noQuote, noBackslash⟩ := not_or.mp notSpecial
        simp [isPlain, noQuote, noBackslash]
  | case3 next rest induction =>
      rcases readString_cases read with
        ⟨isQuote, -⟩ | ⟨isQuote, -⟩ | ⟨-, more, later, values⟩ |
        ⟨notSpecial, -⟩
      · cases isQuote
      · cases isQuote
      · rcases special_of_unescape values.symm (.inr rfl) with
          ⟨wildcard, tail⟩ | ⟨nextSpecial, tail⟩
        · rw [← (List.cons.inj tail).2] at later
          simp [isPlain, wildcard, induction later]
        · rw [← tail] at later
          exact absurd later (readString_ne_of_special nextSpecial ordinary)
      · exact absurd (.inr rfl) notSpecial
  | case4 byte next rest unescaped induction =>
      rcases readString_cases read with
        ⟨-, isDoubled, more, later, values⟩ | ⟨-, -, values⟩ |
        ⟨isBackslash, -⟩ | ⟨notSpecial, more, later, values⟩
      · rw [← (List.cons.inj values).2] at later
        exact absurd later (readString_ne_of_special (.inl isDoubled) ordinary)
      · cases values
      · exact absurd isBackslash unescaped
      · rw [← (List.cons.inj values).2] at later
        have noQuote := (not_or.mp notSpecial).1
        simp [isPlain, unescaped, noQuote, induction later]

/-! ## Statements with spliced literals -/

/-- Text with values between single quotes, each followed by more text. -/
def spliced (front : Text) : List (Text × Text) → Text
  | [] => front
  | (value, behind) :: slots =>
      front ++ 39 :: (value ++ 39 :: spliced behind slots)

/-- The tokens of the text, with one string literal for each value. -/
def splicedTokens (front : Text) : List (Text × Text) → List Token
  | [] => lex front
  | (value, behind) :: slots =>
      lex front ++ .string value :: splicedTokens behind slots

/-- A quote behind the text opens a literal. -/
def Closed (text : Text) : Prop :=
  ∀ rest, lex (text ++ 39 :: rest) = lex text ++ lexFrom (.string 39 []) rest

/-- The modes in which a quote opens a literal. -/
def Mode.admitsString : Mode → Bool
  | .plain | .word _ => true
  | _ => false

theorem closed_of_run {text : Text}
    (admits : (run .plain text).2.admitsString = true) : Closed text := by
  intro rest
  have alone := lexFrom_append .plain text []
  rw [List.append_nil] at alone
  rw [lex, lex, alone, lexFrom_append, List.append_assoc]
  congr 1
  cases mode : (run .plain text).2 with
  | plain => rfl
  | word word => rfl
  | _ => rw [mode] at admits; cases admits

/-- Text behind complete tokens is lexed on its own. -/
theorem lex_append_of_plain {front : Text}
    (ran : (run .plain front).2 = .plain) (rest : Text) :
    lex (front ++ rest) = lex front ++ lex rest := by
  have alone := lexFrom_append .plain front []
  rw [List.append_nil, ran] at alone
  rw [lex, lex, alone, lexFrom_append, ran, List.append_assoc]
  rfl

theorem spliced_append (first second : Text) (slots : List (Text × Text)) :
    spliced (first ++ second) slots = first ++ spliced second slots := by
  cases slots with
  | nil => rfl
  | cons slot slots => exact List.append_assoc ..

/-- The text between two literals separates them. -/
def Separates (behind : Text) : Prop :=
  behind ≠ [] ∧ Ordinary behind ∧ Closed behind

/-- Every slot but the last is followed by text that separates it from the
next one. -/
def Separated : List (Text × Text) → Prop
  | [] => True
  | [(_, behind)] => Ordinary behind
  | (_, behind) :: slots => Separates behind ∧ Separated slots

theorem ordinary_spliced {value behind : Text} {slots : List (Text × Text)}
    (separated : Separated ((value, behind) :: slots)) :
    Ordinary (spliced behind slots) := by
  cases slots with
  | nil => exact separated
  | cons slot slots =>
      obtain ⟨⟨nonempty, ordinary, -⟩, -⟩ := separated
      obtain ⟨first, rest, rfl⟩ := List.exists_cons_of_ne_nil nonempty
      exact ordinary

/-- A statement keeps its structure, with every value as one literal, exactly
when all its values are plain. -/
theorem lex_spliced_iff {front : Text} {slots : List (Text × Text)}
    (closed : slots ≠ [] → Closed front) (separated : Separated slots) :
    lex (spliced front slots) = splicedTokens front slots ↔
      ∀ slot ∈ slots, isPlain slot.1 = true := by
  induction slots generalizing front with
  | nil => simp [spliced, splicedTokens]
  | cons slot slots induction =>
      obtain ⟨value, behind⟩ := slot
      have ordinary := ordinary_spliced separated
      have later : (slots ≠ [] → Closed behind) ∧ Separated slots := by
        cases slots with
        | nil => exact ⟨fun nonempty => absurd rfl nonempty, trivial⟩
        | cons next slots => exact ⟨fun _ => separated.1.2.2, separated.2⟩
      rw [spliced, splicedTokens, closed (List.cons_ne_nil _ _),
        List.append_cancel_left_eq, lexFrom_string, List.forall_mem_cons]
      constructor
      · intro tokens
        split at tokens
        · cases (List.cons.inj tokens).1
        · rename_i read after found
          obtain ⟨isString, rest⟩ := List.cons.inj tokens
          rw [List.nil_append, Token.string.injEq] at isString
          rw [isString] at found
          have plain := isPlain_of_readString ordinary found
          rw [readString_of_isPlain plain ordinary] at found
          cases found
          exact ⟨plain, (induction later.1 later.2).mp rest⟩
      · intro plain
        rw [readString_of_isPlain plain.1 ordinary]
        simp only [List.nil_append, List.cons.injEq, true_and]
        exact (induction later.1 later.2).mpr plain.2

end Sql

end Lib
