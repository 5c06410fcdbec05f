import ChatRoom.Redis.CommandWords
import Mathlib.Data.List.Induction

/-!
# Commands built from caller strings

`Xadd`, `GetXrevrange` and `MGet` concatenate their arguments into the format
text itself, where their sibling methods pass them to `%s`.  What they send is
what the tokeniser makes of that text.
-/

namespace ChatRoom

namespace CacheConn

/-! ## The texts -/

/-- The text `Xadd` builds. -/
def xaddCommand (key id : Str) (fieldValuePairs : List (Str × Str)) : Str :=
  fieldValuePairs.foldl
    (fun command pair => command ++ ascii " " ++ pair.1 ++ ascii " " ++ pair.2)
    (ascii "XADD " ++ key ++ ascii " " ++ id)

/-- The text `GetXrevrange` builds.  `count` is a C `int`. -/
def getXrevrangeCommand (key start stop : Str) (count : Int) : Str :=
  let command :=
    ascii "XREVRANGE " ++ key ++ ascii " " ++ start ++ ascii " " ++ stop
  if count > 0 then command ++ ascii " COUNT " ++ decimal count.toNat
  else command

/-- One turn of the loop of `MGet`, over `bFirst` and `strKey`. -/
def mGetStep : Bool × Str → Str → Bool × Str
  | (true, _), key => (false, key)
  | (false, strKey), key => (false, strKey ++ ascii " " ++ key)

def mGetKeys (keys : List Str) : Str := (keys.foldl mGetStep (true, [])).2

/-- The text `MGet` builds, unless it returns before sending. -/
def mGetCommand (keys : List Str) : Option Str :=
  if keys = [] then none
  else if mGetKeys keys = [] then none
  else some (ascii "MGET " ++ mGetKeys keys)

/-- The argument vector `Xadd` sends. -/
def xaddSent (printf : Str → Int → Str) (key id : Str)
    (fieldValuePairs : List (Str × Str)) : FormatResult :=
  redisvFormatCommand printf (xaddCommand key id fieldValuePairs) []

/-- The argument vector `GetXrevrange` sends. -/
def getXrevrangeSent (printf : Str → Int → Str) (key start stop : Str)
    (count : Int) : FormatResult :=
  redisvFormatCommand printf (getXrevrangeCommand key start stop count) []

/-- The argument vector `MGet` sends, `none` when it sends nothing. -/
def mGetSent (printf : Str → Int → Str) (keys : List Str) :
    Option FormatResult :=
  (mGetCommand keys).map fun command => redisvFormatCommand printf command []

/-! ## The argument vectors that were meant -/

def xaddArgv (key id : Str) (fieldValuePairs : List (Str × Str)) : List Str :=
  ascii "XADD" :: key :: id ::
    fieldValuePairs.flatMap fun pair => [pair.1, pair.2]

def getXrevrangeArgv (key start stop : Str) (count : Int) : List Str :=
  [ascii "XREVRANGE", key, start, stop] ++
    if count > 0 then [ascii "COUNT", decimal count.toNat] else []

def mGetArgv (keys : List Str) : List Str := ascii "MGET" :: keys

/-! ## The texts are the words joined by blanks -/

theorem commandText_concat {words : List Str} (nonempty : words ≠ [])
    (word : Str) :
    commandText (words ++ [word]) = commandText words ++ Byte.space :: word := by
  cases words with
  | nil => exact absurd rfl nonempty
  | cons first words => simp [commandText]

theorem xaddCommand_eq (key id : Str) (fieldValuePairs : List (Str × Str)) :
    xaddCommand key id fieldValuePairs =
      commandText (xaddArgv key id fieldValuePairs) := by
  induction fieldValuePairs using List.reverseRecOn with
  | nil => simp [xaddCommand, xaddArgv, commandText, ascii]
  | append_singleton pairs pair induction =>
      have words : xaddArgv key id (pairs ++ [pair]) =
          (xaddArgv key id pairs ++ [pair.1]) ++ [pair.2] := by
        simp [xaddArgv]
      have text : xaddCommand key id (pairs ++ [pair]) =
          xaddCommand key id pairs ++ ascii " " ++ pair.1 ++ ascii " " ++
            pair.2 := by
        simp [xaddCommand]
      rw [text, words, commandText_concat (by simp),
        commandText_concat (by simp [xaddArgv]), induction]
      simp [ascii]

theorem getXrevrangeCommand_eq (key start stop : Str) (count : Int) :
    getXrevrangeCommand key start stop count =
      commandText (getXrevrangeArgv key start stop count) := by
  by_cases counted : count > 0
  · simp [getXrevrangeCommand, getXrevrangeArgv, counted, commandText, ascii]
  · simp [getXrevrangeCommand, getXrevrangeArgv, counted, commandText, ascii]

theorem foldl_mGetStep (keys : List Str) (strKey : Str) :
    keys.foldl mGetStep (false, strKey) =
      (false, strKey ++ keys.flatMap fun key => Byte.space :: key) := by
  induction keys generalizing strKey with
  | nil => simp
  | cons key keys induction =>
      rw [List.foldl_cons, mGetStep, induction]
      simp [ascii]

theorem mGetKeys_eq (keys : List Str) : mGetKeys keys = commandText keys := by
  cases keys with
  | nil => rfl
  | cons key keys =>
      rw [mGetKeys, List.foldl_cons, mGetStep, foldl_mGetStep, commandText]

theorem mGetCommand_eq_of_intact {keys : List Str} (nonempty : keys ≠ [])
    (intact : Intact (mGetArgv keys)) :
    mGetCommand keys = some (commandText (mGetArgv keys)) := by
  cases keys with
  | nil => exact absurd rfl nonempty
  | cons key keys =>
      have keyNonempty : key ≠ [] := (intact.1 key (by simp [mGetArgv])).1
      simp [mGetCommand, mGetKeys_eq, mGetArgv, commandText, keyNonempty, ascii]

theorem mGetCommand_eq {keys : List Str} {command : Str}
    (built : mGetCommand keys = some command) :
    keys ≠ [] ∧ command = commandText (mGetArgv keys) := by
  cases keys with
  | nil => simp [mGetCommand] at built
  | cons key keys =>
      refine ⟨by simp, ?_⟩
      simp only [mGetCommand, reduceCtorEq, if_false] at built
      split at built
      · cases built
      · simp only [Option.some.injEq] at built
        rw [← built, mGetKeys_eq]
        simp [mGetArgv, commandText, ascii]

/-! ## When the arguments arrive -/

theorem sent_iff_intact (printf : Str → Int → Str) (words : List Str) :
    redisvFormatCommand printf (commandText words) [] = .ok words ↔
      Intact words :=
  (redisvFormatCommand_eq_ok_iff printf (commandText words) words).trans
    (wordsOf_commandText_iff words)

theorem mGetSent_iff (printf : Str → Int → Str) (keys : List Str) :
    mGetSent printf keys = some (.ok (mGetArgv keys)) ↔
      keys ≠ [] ∧ Intact (mGetArgv keys) := by
  constructor
  · intro sent
    obtain ⟨command, built, formatted⟩ := Option.map_eq_some_iff.mp sent
    obtain ⟨nonempty, rfl⟩ := mGetCommand_eq built
    exact ⟨nonempty, (sent_iff_intact printf _).mp formatted⟩
  · rintro ⟨nonempty, intact⟩
    rw [mGetSent, mGetCommand_eq_of_intact nonempty intact]
    exact congrArg some ((sent_iff_intact printf _).mpr intact)

/-- The three concatenating methods send the argument vector that was meant
exactly when its words are intact. -/
theorem concatenated_arguments_arrive_iff (printf : Str → Int → Str)
    (key id start stop : Str) (fieldValuePairs : List (Str × Str))
    (count : Int) (keys : List Str) :
    (xaddSent printf key id fieldValuePairs =
        .ok (xaddArgv key id fieldValuePairs) ↔
      Intact (xaddArgv key id fieldValuePairs)) ∧
    (getXrevrangeSent printf key start stop count =
        .ok (getXrevrangeArgv key start stop count) ↔
      Intact (getXrevrangeArgv key start stop count)) ∧
    (mGetSent printf keys = some (.ok (mGetArgv keys)) ↔
      keys ≠ [] ∧ Intact (mGetArgv keys)) := by
  refine ⟨?_, ?_, mGetSent_iff printf keys⟩
  · rw [xaddSent, xaddCommand_eq]
    exact sent_iff_intact printf _
  · rw [getXrevrangeSent, getXrevrangeCommand_eq]
    exact sent_iff_intact printf _

/-- A chat message with a blank in its text is sent as one argument more. -/
theorem xadd_splits_content :
    xaddSent (fun _ _ => []) (ascii "0001") (ascii "*")
        [(ascii "payload", ascii "\x7b\"content\":\"hi there\"\x7d"),
          (ascii "room_id", ascii "0001")] ≠
      .ok (xaddArgv (ascii "0001") (ascii "*")
        [(ascii "payload", ascii "\x7b\"content\":\"hi there\"\x7d"),
          (ascii "room_id", ascii "0001")]) := by
  decide

end CacheConn

end ChatRoom
