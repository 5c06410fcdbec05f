import ChatRoom.Redis.FormatCommand
import ChatRoom.Redis.ReplyRuns

/-!
# What a command looks like on the connection

`redisvFormatCommand` and `redisFormatSdsCommandArgv` write an argument vector
as an array of bulk strings, into a buffer whose size they compute beforehand.
Whatever bytes the arguments hold, the commands that a connection writes can be
told apart again.
-/

namespace ChatRoom

namespace Hiredis

open Api (intText)

/-! ## The size -/

/-- `countDigits`. -/
def countDigits (v : ℕ) : ℕ :=
  if v < 10 then 1
  else if v < 100 then 2
  else if v < 1000 then 3
  else if v < 10000 then 4
  else countDigits (v / 10000) + 4

def bulklen (len : ℕ) : ℕ := 1 + countDigits len + 2 + len + 2

/-- `totlen`. -/
def totlen (argv : List Str) : ℕ :=
  1 + countDigits argv.length + 2 +
    (argv.map fun arg => bulklen arg.length).sum

/-! ## The bytes -/

/-- An argument, with the text that is printed for its length. -/
def bulk (len : ℕ) (arg : Str) : Str :=
  ascii "$" ++ decimal len ++ crlf ++ arg ++ crlf

/-- The command that `redisvFormatCommand` builds from its arguments. -/
def formatArgv (argv : List Str) : Str :=
  ascii "*" ++ decimal argv.length ++ crlf ++
    argv.flatMap fun arg => bulk arg.length arg

/-- `redisFormatSdsCommandArgv` prints a length as an `unsigned int`. -/
def redisFormatSdsCommandArgv (argv : List Str) : Str :=
  ascii "*" ++ decimal argv.length ++ crlf ++
    argv.flatMap fun arg => bulk (arg.length % 2 ^ 32) arg

/-- The arguments are short enough for the types that count them. -/
def Counted (argv : List Str) : Prop :=
  argv.length < 2 ^ 31 ∧ ∀ arg ∈ argv, arg.length < 2 ^ 32

instance decidableCounted (argv : List Str) : Decidable (Counted argv) :=
  inferInstanceAs (Decidable (_ ∧ _))

theorem redisFormatSdsCommandArgv_eq {argv : List Str}
    (counted : Counted argv) :
    redisFormatSdsCommandArgv argv = formatArgv argv := by
  rw [redisFormatSdsCommandArgv, formatArgv]
  congr 1
  rw [List.flatMap_def, List.flatMap_def]
  congr 1
  apply List.map_congr_left
  intro arg member
  rw [Nat.mod_eq_of_lt (counted.2 arg member)]

/-! ## The size is the one computed -/

theorem length_decimal_step {v : ℕ} (large : 10 ≤ v) :
    (decimal v).length = (decimal (v / 10)).length + 1 := by
  have split := Nat.toDigits_append_toDigits (b := 10) (by omega)
    (show 0 < v / 10 by omega) (Nat.mod_lt v (by omega))
  have last := Nat.toDigits_of_lt_base (b := 10) (Nat.mod_lt v (by omega))
  rw [Nat.div_add_mod] at split
  rw [decimal, ← split, List.map_append, List.length_append, last]
  rfl

theorem length_decimal_small {v : ℕ} (small : v < 10) :
    (decimal v).length = 1 := by
  rw [decimal, Nat.toDigits_of_lt_base small]
  rfl

theorem countDigits_eq (v : ℕ) : countDigits v = (decimal v).length := by
  induction v using Nat.strongRecOn with
  | _ v induction =>
      rw [countDigits]
      split_ifs with one two three four
      · rw [length_decimal_small one]
      · rw [length_decimal_step (by omega), length_decimal_small (by omega)]
      · rw [length_decimal_step (by omega), length_decimal_step (by omega),
          length_decimal_small (by omega)]
      · rw [length_decimal_step (by omega), length_decimal_step (by omega),
          length_decimal_step (by omega), length_decimal_small (by omega)]
      · rw [length_decimal_step (by omega), length_decimal_step (by omega),
          length_decimal_step (by omega), length_decimal_step (by omega),
          Nat.div_div_eq_div_mul, Nat.div_div_eq_div_mul,
          Nat.div_div_eq_div_mul, induction (v / 10000) (by omega)]

/-- The assertion of the source: the buffer is filled to its last byte. -/
theorem length_formatArgv (argv : List Str) :
    (formatArgv argv).length = totlen argv := by
  have bulks : (argv.flatMap fun arg => bulk arg.length arg).length =
      (argv.map fun arg => bulklen arg.length).sum := by
    rw [List.length_flatMap]
    congr 1
    apply List.map_congr_left
    intro arg _
    simp [bulk, bulklen, countDigits_eq, crlf, ascii]
    omega
  rw [formatArgv, List.length_append, bulks, totlen, countDigits_eq]
  simp [crlf, ascii]
  omega

/-! ## A command is one array of bulk strings -/

theorem intText_natCast (number : ℕ) : intText number = decimal number := by
  rw [intText, if_neg (by omega), Int.natAbs_natCast]

theorem wires_bulks {argv : List Str}
    (short : ∀ arg ∈ argv, arg.length < 2 ^ 32) :
    Wires 0 (argv.map .string) (argv.flatMap fun arg => bulk arg.length arg) := by
  induction argv with
  | nil => exact .nil 0
  | cons arg argv induction =>
      rw [List.forall_mem_cons] at short
      have isLeaf : Leaf .string (.string arg)
          (intText arg.length ++ crlf ++ (arg ++ crlf)) :=
        .string (by omega) rfl
      have text : bulk arg.length arg = typeByte .string ::
          (intText arg.length ++ crlf ++ (arg ++ crlf)) := by
        have mark : ascii "$" = [typeByte .string] := by decide
        rw [bulk, mark, intText_natCast]
        simp
      rw [List.map_cons, List.flatMap_cons, text, List.cons_append]
      exact .leaf isLeaf (induction short.2)

theorem wires_formatArgv {argv : List Str} (counted : Counted argv) :
    Wires 1 [.array (argv.map .string)] (formatArgv argv) := by
  have wires := Wires.array (by rw [List.length_map]; exact counted.1)
    (wires_bulks counted.2) (.nil 1)
  have mark : ascii "*" = [typeByte .array] := by decide
  rw [formatArgv, mark, ← intText_natCast]
  rw [List.append_nil, List.length_map] at wires
  simpa using wires

theorem Wires.mono {depth more : ℕ} {replies : List Reply} {text : Str}
    (wires : Wires depth replies text) (deeper : depth ≤ more) :
    Wires more replies text := by
  induction wires generalizing more with
  | nil => exact .nil more
  | leaf leaf _ induction => exact .leaf leaf (induction deeper)
  | nilArray _ induction =>
      cases more with
      | zero => omega
      | succ more => exact .nilArray (induction deeper)
  | array small _ _ insideInduction induction =>
      cases more with
      | zero => omega
      | succ more =>
          exact .array small (insideInduction (by omega)) (induction deeper)

/-! ## Many commands -/

/-- A command as the reply that it looks like. -/
def asReply (argv : List Str) : Reply := .array (argv.map .string)

theorem asReply_injective : Function.Injective asReply := by
  intro first second same
  have texts := Reply.array.inj same
  exact List.map_injective_iff.mpr (fun _ _ => Reply.string.inj) texts

theorem wires_commands {commands : List (List Str)}
    (counted : ∀ argv ∈ commands, Counted argv) :
    Wires 8 (commands.map asReply) (commands.flatMap formatArgv) := by
  induction commands with
  | nil => exact .nil 8
  | cons argv commands induction =>
      rw [List.forall_mem_cons] at counted
      have first := (wires_formatArgv counted.1).mono (show 1 ≤ 8 by decide)
      exact first.append (induction counted.2)

theorem formatArgv_ne_nil (argv : List Str) : formatArgv argv ≠ [] := by
  have mark : ascii "*" = [42] := by decide
  rw [formatArgv, mark]
  simp

/-- **No argument can pass for a command.**  Where the bytes of one list of
commands begin with those of another, the commands themselves do. -/
theorem commands_prefix {first second : List (List Str)} {more : Str}
    (counted : ∀ argv ∈ first, Counted argv)
    (countedToo : ∀ argv ∈ second, Counted argv)
    (bytes : second.flatMap formatArgv = first.flatMap formatArgv ++ more) :
    ∃ later, second = first ++ later ∧ more = later.flatMap formatArgv := by
  have hands := hands_of_wires (wires_commands counted) more
  have handsToo := hands_of_wires (wires_commands countedToo) []
  rw [List.append_nil, bytes] at handsToo
  rcases handsToo.prefix_or_prefix hands with
    ⟨later, isSecond, -⟩ | ⟨reply, later, -, goesOn⟩
  · obtain ⟨front, back, rfl, isFront, -⟩ := List.map_eq_append_iff.mp isSecond
    obtain rfl := asReply_injective.list_map isFront
    refine ⟨back, rfl, ?_⟩
    rw [List.flatMap_append] at bytes
    exact (List.append_cancel_left bytes).symm
  · cases goesOn with
    | cons found _ =>
        have shrinks := plainReader.next_out_shrinks found
        simp at shrinks

/-- An argument with the bytes of a command in it. -/
def hiddenCommand : List Str :=
  [ascii "SET", ascii "a", ascii "\r\n*1\r\n$8\r\nFLUSHALL\r\n"]

theorem commands_prefix_hidden :
    ∃ later, [[ascii "PING"], hiddenCommand] = [[ascii "PING"]] ++ later ∧
      formatArgv hiddenCommand = later.flatMap formatArgv :=
  commands_prefix (by decide) (by decide) (by
    rw [List.flatMap_cons, List.flatMap_singleton, List.flatMap_singleton])

/-- Two lists of commands with the same bytes are the same. -/
theorem commands_injective {first second : List (List Str)}
    (counted : ∀ argv ∈ first, Counted argv)
    (countedToo : ∀ argv ∈ second, Counted argv)
    (bytes : first.flatMap formatArgv = second.flatMap formatArgv) :
    first = second := by
  have whole : second.flatMap formatArgv = first.flatMap formatArgv ++ [] := by
    rw [bytes, List.append_nil]
  obtain ⟨later, isSecond, none⟩ := commands_prefix counted countedToo whole
  cases later with
  | nil => rw [isSecond, List.append_nil]
  | cons argv later =>
      have empty := (List.append_eq_nil_iff.mp none.symm).1
      exact absurd empty (formatArgv_ne_nil argv)

/-- A command does not begin with another one. -/
theorem formatArgv_begins {first second : List Str} {more : Str}
    (counted : Counted first) (countedToo : Counted second)
    (bytes : formatArgv second = formatArgv first ++ more) :
    second = first ∧ more = [] := by
  have whole : [second].flatMap formatArgv =
      [first].flatMap formatArgv ++ more := by
    rw [List.flatMap_singleton, List.flatMap_singleton]
    exact bytes
  obtain ⟨later, split, rest⟩ := commands_prefix (by simpa using counted)
    (by simpa using countedToo) whole
  rw [List.singleton_append, List.cons_eq_cons] at split
  obtain ⟨same, rfl⟩ := split
  exact ⟨same, rest⟩

end Hiredis

end ChatRoom
