import ChatRoom.Mysql.DbPool
import ChatRoom.Redis.Session

/-!
# What the methods of `CacheConn` make of a reply

Behind a successful `Init` a method sends its command and reads what hiredis
gives: NULL, or a reply of one of six types.  Only some methods look at which
it is.
-/

namespace ChatRoom

namespace Replies

open Mysql (getInt)

/-- Why a method does not return. -/
inductive Fault where
  | nullReply
  | nullString
  | pastEnd
  | badArrayLength
  deriving DecidableEq

/-! ## The fields of a reply -/

/-- The field `str`: `none` for NULL. -/
def str : Reply → Option Str
  | .status text => some text
  | .error text => some text
  | .string text => some text
  | _ => none

/-- The bytes from `str` on, as many as `len` says: 0 where `str` is NULL. -/
def text (reply : Reply) : Str := (str reply).getD []

/-- The field `integer`: 0 in a reply of another type. -/
def integer : Reply → Int
  | .integer value => value
  | _ => 0

/-- A use of a reply. -/
def deref : Option Reply → Except Fault Reply
  | none => .error .nullReply
  | some reply => .ok reply

/-- A use of a C string. -/
def cString : Option Str → Except Fault Str
  | none => .error .nullString
  | some text => .ok (cStr text)

/-- What `strncpy` writes. -/
def strncpy (count : ℕ) (source : Str) : Str :=
  (cStr source).take count ++
    List.replicate (count - ((cStr source).take count).length) Byte.nul

/-- The array of words for `redisCommandArgv`, whose size is an `int`. -/
def withArgv {Value : Type} (words : ℕ) (next : Except Fault Value) :
    Except Fault Value :=
  let argc := Int.bmod words (2 ^ 32)
  if argc < 0 then .error .badArrayLength
  else if argc < words then .error .pastEnd
  else next

/-! ## Families of methods

`init` is what `Init` returns.
-/

section Families

variable (init : Int) (reply : Option Reply)

/-- Only a string counts. -/
def stringReply : Except Fault Str :=
  if init ≠ 0 then .ok []
  else
    match reply with
    | some (.string text) => .ok text
    | _ => .ok []

/-- The text of any reply. -/
def textReply : Except Fault Str :=
  if init ≠ 0 then .ok []
  else
    match reply with
    | none => .ok []
    | some reply => .ok (text reply)

/-- The integer of any reply. -/
def integerReply (failed : Int) : Except Fault Int :=
  if init ≠ 0 then .ok failed
  else
    match reply with
    | none => .ok failed
    | some reply => .ok (integer reply)

/-- The integer of any reply, next to the result. -/
def counterReply (value : Int) : Except Fault (Int × Int) :=
  if init ≠ 0 then .ok (-1, value)
  else
    match reply with
    | none => .ok (-1, value)
    | some reply => .ok (0, integer reply)

/-- The elements of an array, behind what the list holds. -/
def listReply (retValue : List Str) : Except Fault (Bool × List Str) :=
  match reply with
  | none => .ok (false, retValue)
  | some (.array elements) => .ok (true, retValue ++ elements.map text)
  | some _ => .ok (true, retValue)

/-- The methods of sorted sets that want an integer: they look at the type of
a reply, which may be NULL.  Its `str` is only printed, NULL as `(null)`. -/
def zsetReply (result : Int → Int) : Except Fault Int :=
  if init ≠ 0 then .ok (-1)
  else do
    let reply ← deref reply
    match reply with
    | .integer value => return result value
    | _ => return -1

end Families

/-! ## The methods -/

section Methods

variable (init : Int) (reply : Option Reply)

def get : Except Fault Str := stringReply init reply

def set : Except Fault Str := textReply init reply

def setEx : Except Fault Str := textReply init reply

/-- The loop of `MGet`, with the keys that are left. -/
def mGetElements (retValue : Std.TreeMap Str Str) :
    List Str → List Reply → Except Fault (Std.TreeMap Str Str)
  | _, [] => .ok retValue
  | keys, .string text :: elements =>
      match keys with
      | [] => .error .pastEnd
      | key :: keys =>
          mGetElements (retValue.insert key (cStr text)) keys elements
  | keys, _ :: elements => mGetElements retValue keys.tail elements

def mGet (keys : List Str) (retValue : Std.TreeMap Str Str) :
    Except Fault (Bool × Std.TreeMap Str Str) :=
  if init ≠ 0 then .ok (false, retValue)
  else
    match CacheConn.mGetCommand keys, reply with
    | none, _ => .ok (false, retValue)
    | some _, none => .ok (false, retValue)
    | some _, some (.array elements) =>
        (mGetElements retValue keys elements).map fun filled => (true, filled)
    | some _, some _ => .ok (true, retValue)

def isExists : Except Fault Bool :=
  (integerReply init reply 0).map fun retValue => decide (retValue ≠ 0)

def del : Except Fault Int := integerReply init reply 0

def hdel : Except Fault Int := integerReply init reply (-1)

def hget : Except Fault Str := stringReply init reply

/-- `Hget` into a buffer, of which at most `VALUES_ID_SIZE` bytes and a NUL
are written. -/
def hgetInto (value : Str) : Except Fault (Int × Str) :=
  if init ≠ 0 then .ok (-1, value)
  else
    match reply with
    | some (.string text) =>
        let len := min text.length 1024
        if len < value.length then
          .ok (0, strncpy len text ++ Byte.nul :: value.drop (len + 1))
        else .error .pastEnd
    | _ => .ok (-1, value)

/-- The loop of `HgetAll` over fields and values. -/
def hgetAllElements (retValue : Std.TreeMap Str Str) :
    List Reply → Std.TreeMap Str Str
  | field :: value :: elements =>
      hgetAllElements (retValue.insertIfNew (text field) (text value)) elements
  | _ => retValue

def hgetAll (retValue : Std.TreeMap Str Str) :
    Except Fault (Bool × Std.TreeMap Str Str) :=
  if init ≠ 0 then .ok (false, retValue)
  else
    match reply with
    | none => .ok (false, retValue)
    | some (.array elements) =>
        if elements.length % 2 = 0 then
          .ok (true, hgetAllElements retValue elements)
        else .ok (true, retValue)
    | some _ => .ok (true, retValue)

def hset : Except Fault Int := integerReply init reply (-1)

def hincrBy : Except Fault Int := integerReply init reply (-1)

def incrBy : Except Fault Int := integerReply init reply (-1)

def hmset (hash : List (Str × Str)) : Except Fault Str :=
  if init ≠ 0 then .ok []
  else withArgv (hash.length * 2 + 2) (textReply init reply)

def hmget (fields retValue : List Str) : Except Fault (Bool × List Str) :=
  if init ≠ 0 then .ok (false, retValue)
  else withArgv (fields.length + 2) (listReply reply retValue)

/-- `Incr`, which clears the counter first. -/
def incr : Except Fault (Int × Int) := counterReply init reply 0

def decr (value : Int) : Except Fault (Int × Int) :=
  counterReply init reply value

def lpush : Except Fault Int := integerReply init reply (-1)

def rpush : Except Fault Int := integerReply init reply (-1)

def llen : Except Fault Int := integerReply init reply (-1)

def lrange (retValue : List Str) : Except Fault (Bool × List Str) :=
  if init ≠ 0 then .ok (false, retValue) else listReply reply retValue

def zsetExit : Except Fault Int :=
  zsetReply init reply fun count => Int.bmod count (2 ^ 32)

def zsetAdd : Except Fault Int := zsetReply init reply fun _ => 0

def zsetZrem : Except Fault Int := zsetReply init reply fun _ => 0

/-- `ZsetIncr`, which compares the text of any reply with `OK`. -/
def zsetIncr : Except Fault Int :=
  if init ≠ 0 then .ok 0
  else do
    let reply ← deref reply
    let text ← cString (str reply)
    return if text = ascii "OK" then 0 else -1

def zsetZcard : Except Fault Int :=
  zsetReply init reply fun count => Int.bmod count (2 ^ 32)

/-- The loop of `ZsetZrevrange`, with the rows that are left. -/
def copyElements : List Str → List Reply → Except Fault (List Str)
  | values, [] => .ok values
  | [], _ :: _ => .error .pastEnd
  | _ :: values, element :: elements => do
      let text ← cString (str element)
      let rest ← copyElements values elements
      return (strncpy 1023 text ++ [Byte.nul]) :: rest

/-- How many elements `ZsetZrevrange` copies.  A negative count is a huge one
where it is compared with the number of elements. -/
def maxCount (fromPos endPos : Int) (elements : List Reply) : ℕ :=
  let count := Int.bmod (endPos - fromPos + 1) (2 ^ 32)
  if 0 ≤ count then min count.toNat elements.length else elements.length

def zsetZrevrange (fromPos endPos : Int) (values : List Str) (getNum : Int) :
    Except Fault (Int × List Str × Int) :=
  if init ≠ 0 then .ok (-1, values, getNum)
  else do
    let reply ← deref reply
    match reply with
    | .array elements =>
        let count := maxCount fromPos endPos elements
        let values ← copyElements values (elements.take count)
        return (0, values, count)
    | _ => return (-1, values, getNum)

def zsetGetScore : Except Fault Int :=
  if init ≠ 0 then .ok (-1)
  else do
    let reply ← deref reply
    match reply with
    | .string text => return getInt (leadingNumber (cStr text))
    | _ => return -1

/-- The loop over the fields of an entry, which keeps the last value. -/
def lastValue : Str → List Reply → Except Fault Str
  | value, [] => .ok value
  | _, [field] => do
      let _ ← cString (str field)
      .error .pastEnd
  | _, field :: value :: fields => do
      let _ ← cString (str field)
      let value ← cString (str value)
      lastValue value fields

/-- What `GetXrevrange` adds for an element of the reply. -/
def entryMessages : Reply → Except Fault (List (Str × Str))
  | .array (first :: second :: _) => do
      let messageId ← cString (str first)
      match second with
      | .array fields =>
          let value ← lastValue [] fields
          return [(messageId, value)]
      | _ => return []
  | _ => .ok []

def readEntries (msgs : List (Str × Str)) :
    List Reply → Except Fault (List (Str × Str))
  | [] => .ok msgs
  | entry :: entries => do
      let more ← entryMessages entry
      readEntries (msgs ++ more) entries

def getXrevrange (msgs : List (Str × Str)) :
    Except Fault (Bool × List (Str × Str)) :=
  if init ≠ 0 then .ok (false, msgs)
  else
    match reply with
    | some (.array elements) =>
        (readEntries msgs elements).map fun filled => (true, filled)
    | _ => .ok (false, msgs)

/-- `Xadd`, which assigns the text of any reply that is no error. -/
def xadd (id : Str) : Except Fault (Bool × Str) :=
  if init ≠ 0 then .ok (false, id)
  else
    match reply with
    | none => .ok (false, id)
    | some (.error _) => .ok (false, id)
    | some reply => (cString (str reply)).map fun text => (true, text)

def flushDb : Except Fault Bool :=
  if init ≠ 0 then .ok false
  else
    match reply with
    | some (.string text) => .ok (decide ((cStr text).take 2 = ascii "OK"))
    | _ => .ok false

end Methods

/-! ## Calls -/

/-- What the out parameters of a call hold. -/
structure Outs where
  map : Std.TreeMap Str Str
  list : List Str
  counter : Int
  buffer : Str
  rows : List Str
  getNum : Int
  msgs : List (Str × Str)

/-- What a call returns, without its out parameters. -/
inductive Returned where
  | text (value : Str)
  | flag (value : Bool)
  | number (value : Int)
  deriving DecidableEq

section Calls

open CacheConn (Command)

/-- A call, with what `Init` returns and what `redisCommand` gives. -/
def run (command : Command) (outs : Outs) (init : Int)
    (reply : Option Reply) : Except Fault Returned :=
  match command with
  | .get .. => (get init reply).map .text
  | .set .. => (set init reply).map .text
  | .setEx .. => (setEx init reply).map .text
  | .mGet keys => (mGet init reply keys outs.map).map fun (ret, _) => .flag ret
  | .isExists .. => (isExists init reply).map .flag
  | .del .. => (del init reply).map .number
  | .hdel .. => (hdel init reply).map .number
  | .hget .. => (hget init reply).map .text
  | .hgetInto .. =>
      (hgetInto init reply outs.buffer).map fun (ret, _) => .number ret
  | .hgetAll .. => (hgetAll init reply outs.map).map fun (ret, _) => .flag ret
  | .hset .. => (hset init reply).map .number
  | .hincrBy .. => (hincrBy init reply).map .number
  | .incrBy .. => (incrBy init reply).map .number
  | .hmset _ hash => (hmset init reply hash).map .text
  | .hmget _ fields =>
      (hmget init reply fields outs.list).map fun (ret, _) => .flag ret
  | .incr .. => (incr init reply).map fun (ret, _) => .number ret
  | .decr .. => (decr init reply outs.counter).map fun (ret, _) => .number ret
  | .lpush .. => (lpush init reply).map .number
  | .rpush .. => (rpush init reply).map .number
  | .llen .. => (llen init reply).map .number
  | .lrange .. => (lrange init reply outs.list).map fun (ret, _) => .flag ret
  | .zsetExit .. => (zsetExit init reply).map .number
  | .zsetAdd .. => (zsetAdd init reply).map .number
  | .zsetZrem .. => (zsetZrem init reply).map .number
  | .zsetIncr .. => (zsetIncr init reply).map .number
  | .zsetZcard .. => (zsetZcard init reply).map .number
  | .zsetZrevrange _ fromPos endPos =>
      (zsetZrevrange init reply fromPos endPos outs.rows outs.getNum).map
        fun (ret, _) => .number ret
  | .zsetGetScore .. => (zsetGetScore init reply).map .number
  | .getXrevrange .. =>
      (getXrevrange init reply outs.msgs).map fun (ret, _) => .flag ret
  | .xadd _ id _ => (xadd init reply id).map fun (ret, _) => .flag ret
  | .flushDb => (flushDb init reply).map .flag

/-- What a method returns to report a failure. -/
def failure : Command → Returned
  | .get .. | .set .. | .setEx .. | .hget .. | .hmset .. => .text []
  | .mGet .. | .isExists .. | .hgetAll .. | .hmget .. | .lrange ..
  | .getXrevrange .. | .xadd .. | .flushDb => .flag false
  | .del .. => .number 0
  | _ => .number (-1)

/-- NULL, or an error reply. -/
def Failed : Option Reply → Prop
  | none => True
  | some (.error _) => True
  | some _ => False

/-- The call returns, and reports a failure when its command fails. -/
def Handled (command : Command) (outs : Outs) (init : Int)
    (reply : Option Reply) : Prop :=
  ∃ returned, run command outs init reply = .ok returned ∧
    (init = 0 → Failed reply → returned = failure command)

/-! ## Replies that are handled -/

def NoError : Option Reply → Prop
  | some (.error _) => False
  | _ => True

/-- No error, or one without a text. -/
def NoErrorText : Option Reply → Prop
  | some (.error text) => text = []
  | _ => True

/-- The words of the command, as many as an `int` can count. -/
def Counted (words : ℕ) : Prop := words < 2 ^ 31

def HasText (reply : Reply) : Prop := (str reply).isSome = true

/-- An element of the reply to `XREVRANGE`: its id and its fields have a text,
and there is a value to each field. -/
def Readable : Reply → Prop
  | .array (first :: second :: _) =>
      HasText first ∧
        match second with
        | .array fields =>
            fields.length % 2 = 0 ∧ ∀ field ∈ fields, HasText field
        | _ => True
  | _ => True

/-- The replies that a method handles. -/
def Fits (outs : Outs) (reply : Option Reply) : Command → Prop
  | .get .. | .hget .. | .isExists .. | .del .. | .flushDb => True
  | .set .. | .setEx .. => NoErrorText reply
  | .hmset _ hash =>
      Counted (hash.length * 2 + 2) ∧ NoErrorText reply
  | .hdel .. | .hset .. | .hincrBy .. | .incrBy .. | .incr .. | .decr ..
  | .lpush .. | .rpush .. | .llen .. | .hgetAll .. | .lrange .. =>
      NoError reply
  | .hmget _ fields => Counted (fields.length + 2) ∧ NoError reply
  | .mGet keys =>
      CacheConn.mGetCommand keys = none ∨ NoError reply ∧
        ∀ elements, reply = some (.array elements) →
          ∀ text, Reply.string text ∉ elements.drop keys.length
  | .hgetInto .. =>
      ∀ text, reply = some (.string text) →
        min text.length 1024 < outs.buffer.length
  | .zsetExit .. | .zsetAdd .. | .zsetZrem .. | .zsetZcard ..
  | .zsetGetScore .. => reply ≠ none
  | .zsetIncr .. => ∃ given, reply = some given ∧ HasText given ∧
      ∀ text, given = .error text → cStr text ≠ ascii "OK"
  | .zsetZrevrange _ fromPos endPos => reply ≠ none ∧
      ∀ elements, reply = some (.array elements) →
        maxCount fromPos endPos elements ≤ outs.rows.length ∧
        ∀ element ∈ elements.take (maxCount fromPos endPos elements),
          HasText element
  | .getXrevrange .. =>
      ∀ elements, reply = some (.array elements) →
        ∀ element ∈ elements, Readable element
  | .xadd .. => ∀ given, reply = some given → HasText given

/-! ## The families -/

section Handled

variable {command : Command} {outs : Outs} {reply : Option Reply}

theorem handled_of_ok {returned : Returned}
    (isOk : run command outs 0 reply = .ok returned) :
    Handled command outs 0 reply ↔
      (Failed reply → returned = failure command) := by
  constructor
  · rintro ⟨other, isOther, reports⟩
    rw [isOk] at isOther
    cases isOther
    exact reports rfl
  · intro reports
    exact ⟨returned, isOk, fun _ => reports⟩

theorem not_handled_of_error {fault : Fault}
    (isError : run command outs 0 reply = .error fault) :
    ¬ Handled command outs 0 reply := by
  rintro ⟨returned, isOk, -⟩
  rw [isError] at isOk
  cases isOk

/-- A reply that has not failed is handled by whatever is returned. -/
theorem handled_of_not_failed {returned : Returned}
    (isOk : run command outs 0 reply = .ok returned)
    (fine : ¬ Failed reply) : Handled command outs 0 reply := by
  rw [handled_of_ok isOk]
  intro failed
  exact absurd failed fine

/-- For such a reply a call is handled when the work it does ends. -/
theorem handled_of_work {Value : Type} {work : Except Fault Value}
    {returned : Value → Returned}
    (runs : run command outs 0 reply = work.map returned)
    (fine : ¬ Failed reply) :
    Handled command outs 0 reply ↔ ∃ value, work = .ok value := by
  cases work with
  | error fault =>
      refine iff_of_false (not_handled_of_error runs) ?_
      rintro ⟨value, isOk⟩
      cases isOk
  | ok value =>
      exact iff_of_true (handled_of_not_failed runs fine) ⟨value, rfl⟩

theorem handled_of_failure (isOk : run command outs 0 reply =
    .ok (failure command)) : Handled command outs 0 reply :=
  (handled_of_ok isOk).mpr fun _ => rfl

/-- A reply is an error, or no method has to report a failure for it. -/
theorem error_or_fine (given : Reply) :
    (∃ text, given = .error text) ∨
      ¬ Failed (some given) ∧ NoError (some given) ∧
        NoErrorText (some given) := by
  cases given with
  | error text => exact .inl ⟨text, rfl⟩
  | string text => exact .inr ⟨id, trivial, trivial⟩
  | status text => exact .inr ⟨id, trivial, trivial⟩
  | integer value => exact .inr ⟨id, trivial, trivial⟩
  | nil => exact .inr ⟨id, trivial, trivial⟩
  | array elements => exact .inr ⟨id, trivial, trivial⟩

/-- Methods whose value for an error is the one for a failure. -/
theorem handled_of_failures (returned : Reply → Returned)
    (onNull : run command outs 0 none = .ok (failure command))
    (onReply : ∀ given, run command outs 0 (some given) =
      .ok (returned given))
    (fails : ∀ text, returned (.error text) = failure command) :
    Handled command outs 0 reply := by
  cases reply with
  | none => exact handled_of_failure onNull
  | some given =>
      rcases error_or_fine given with ⟨text, rfl⟩ | ⟨fine, -, -⟩
      · apply handled_of_failure
        rw [onReply, fails]
      · exact handled_of_not_failed (onReply given) fine

/-- Methods that take every reply for a success. -/
theorem handled_iff_noError (returned : Reply → Returned)
    (onNull : run command outs 0 none = .ok (failure command))
    (onReply : ∀ given, run command outs 0 (some given) =
      .ok (returned given))
    (succeeds : ∀ text, returned (.error text) ≠ failure command) :
    Handled command outs 0 reply ↔ NoError reply := by
  cases reply with
  | none => exact iff_of_true (handled_of_failure onNull) trivial
  | some given =>
      rcases error_or_fine given with ⟨text, rfl⟩ | ⟨fine, noError, -⟩
      · rw [handled_of_ok (onReply _)]
        refine iff_of_false ?_ id
        intro reports
        exact succeeds text (reports trivial)
      · exact iff_of_true (handled_of_not_failed (onReply given) fine) noError

/-- Methods that use the reply before they look whether it is there, but
return a failure for an error reply. -/
theorem handled_iff_ne_none (returned : Reply → Returned)
    (onNull : run command outs 0 none = .error .nullReply)
    (onReply : ∀ given, run command outs 0 (some given) =
      .ok (returned given))
    (fails : ∀ text, returned (.error text) = failure command) :
    Handled command outs 0 reply ↔ reply ≠ none := by
  cases reply with
  | none =>
      refine iff_of_false (not_handled_of_error onNull) ?_
      intro present
      exact present rfl
  | some given =>
      refine iff_of_true ?_ (Option.some_ne_none given)
      rcases error_or_fine given with ⟨text, rfl⟩ | ⟨fine, -, -⟩
      · apply handled_of_failure
        rw [onReply, fails]
      · exact handled_of_not_failed (onReply given) fine

theorem stringReply_some (given : Reply) :
    stringReply 0 (some given) = .ok
      (match given with
      | .string text => text
      | _ => []) := by
  cases given with
  | string text => rfl
  | _ => rfl

theorem handled_stringReply
    (runs : ∀ reply, run command outs 0 reply =
      (stringReply 0 reply).map .text)
    (fails : failure command = .text []) : Handled command outs 0 reply := by
  apply handled_of_failures
  · rw [runs, fails]
    rfl
  · intro given
    rw [runs, stringReply_some]
    rfl
  · intro text
    exact fails.symm

theorem handled_textReply
    (runs : run command outs 0 reply = (textReply 0 reply).map .text)
    (fails : failure command = .text []) :
    Handled command outs 0 reply ↔ NoErrorText reply := by
  cases reply with
  | none =>
      refine iff_of_true ?_ trivial
      apply handled_of_failure
      rw [runs, fails]
      rfl
  | some given =>
      rcases error_or_fine given with ⟨text, rfl⟩ | ⟨fine, -, noText⟩
      · rw [handled_of_ok runs, fails]
        constructor
        · intro reports
          exact Returned.text.inj (reports trivial)
        · intro empty _
          exact congrArg Returned.text empty
      · exact iff_of_true (handled_of_not_failed runs fine) noText

/-- An error reply has the integer 0. -/
theorem handled_integerReply {returned : Int → Returned}
    (runs : ∀ reply, run command outs 0 reply =
      (integerReply 0 reply 0).map returned)
    (fails : failure command = returned 0) : Handled command outs 0 reply := by
  apply handled_of_failures
  · rw [runs, fails]
    rfl
  · intro given
    exact runs (some given)
  · intro text
    exact fails.symm

theorem handled_integerReply_iff
    (runs : ∀ reply, run command outs 0 reply =
      (integerReply 0 reply (-1)).map .number)
    (fails : failure command = .number (-1)) :
    Handled command outs 0 reply ↔ NoError reply := by
  apply handled_iff_noError
  · rw [runs, fails]
    rfl
  · intro given
    exact runs (some given)
  · intro text impossible
    rw [fails] at impossible
    cases impossible

theorem handled_counterReply {value : Int}
    (runs : ∀ reply, run command outs 0 reply =
      (counterReply 0 reply value).map fun (ret, _) => .number ret)
    (fails : failure command = .number (-1)) :
    Handled command outs 0 reply ↔ NoError reply := by
  apply handled_iff_noError
  · rw [runs, fails]
    rfl
  · intro given
    exact runs (some given)
  · intro text impossible
    rw [fails] at impossible
    cases impossible

theorem listReply_some (given : Reply) (retValue : List Str) :
    (listReply (some given) retValue).map (fun (ret, _) => Returned.flag ret) =
      .ok (.flag true) := by
  cases given with
  | array elements => rfl
  | _ => rfl

theorem handled_listReply {retValue : List Str}
    (runs : ∀ reply, run command outs 0 reply =
      (listReply reply retValue).map fun (ret, _) => .flag ret)
    (fails : failure command = .flag false) :
    Handled command outs 0 reply ↔ NoError reply := by
  apply handled_iff_noError
  · rw [runs, fails]
    rfl
  · intro given
    rw [runs]
    exact listReply_some given retValue
  · intro text impossible
    rw [fails] at impossible
    cases impossible

theorem zsetReply_some (given : Reply) (result : Int → Int) :
    zsetReply 0 (some given) result = .ok
      (match given with
      | .integer value => result value
      | _ => -1) := by
  cases given with
  | integer value => rfl
  | _ => rfl

theorem handled_zsetReply {result : Int → Int}
    (runs : ∀ reply, run command outs 0 reply =
      (zsetReply 0 reply result).map .number)
    (fails : failure command = .number (-1)) :
    Handled command outs 0 reply ↔ reply ≠ none := by
  apply handled_iff_ne_none
  · exact runs none
  · intro given
    rw [runs, zsetReply_some]
    rfl
  · intro text
    exact fails.symm

theorem bmod_eq_iff_counted (words : ℕ) :
    Int.bmod words (2 ^ 32) = words ↔ Counted words := by
  rw [Counted, Int.bmod_def]
  split_ifs <;> omega

theorem withArgv_of_counted {Value : Type} {words : ℕ}
    (counted : Counted words) (next : Except Fault Value) :
    withArgv words next = next := by
  have same := (bmod_eq_iff_counted words).mpr counted
  have positive : ¬ (words : Int) < 0 := Int.not_lt.mpr (Int.natCast_nonneg _)
  unfold withArgv
  simp only
  rw [same, if_neg positive, if_neg (Int.lt_irrefl _)]

theorem withArgv_of_not_counted {Value : Type} {words : ℕ}
    (many : ¬ Counted words) (next : Except Fault Value) :
    ∃ fault, withArgv words next = .error fault := by
  have different := (not_congr (bmod_eq_iff_counted words)).mpr many
  have most : Int.bmod words (2 ^ 32) ≤ words := by
    rw [Int.bmod_def]
    split_ifs <;> omega
  have less := Int.lt_iff_le_and_ne.mpr ⟨most, different⟩
  unfold withArgv
  simp only
  rw [if_pos less]
  split_ifs with negative
  · exact ⟨_, rfl⟩
  · exact ⟨_, rfl⟩

theorem withArgv_map {First Value : Type} (words : ℕ)
    (next : Except Fault First) (function : First → Value) :
    (withArgv words next).map function =
      withArgv words (next.map function) := by
  unfold withArgv
  simp only
  split_ifs
  · rfl
  · rfl
  · rfl

theorem withArgv_ne_nullReply {Value : Type} (words : ℕ)
    {next : Except Fault Value} (fine : next ≠ .error .nullReply) :
    withArgv words next ≠ .error .nullReply := by
  unfold withArgv
  simp only
  split_ifs
  · exact nofun
  · exact nofun
  · exact fine

/-- With more words than an `int` counts the call does not return. -/
theorem handled_withArgv {words : ℕ}
    {next : Option Reply → Except Fault Returned}
    (runs : ∀ reply, run command outs 0 reply = withArgv words (next reply))
    {fits : Prop}
    (nextFits : (∀ reply, run command outs 0 reply = next reply) →
      (Handled command outs 0 reply ↔ fits)) :
    Handled command outs 0 reply ↔ Counted words ∧ fits := by
  by_cases counted : Counted words
  · have runsNext : ∀ reply, run command outs 0 reply = next reply := by
      intro reply
      rw [runs, withArgv_of_counted counted]
    rw [nextFits runsNext]
    exact (and_iff_right counted).symm
  · obtain ⟨fault, isError⟩ := withArgv_of_not_counted counted (next reply)
    rw [← runs] at isError
    refine iff_of_false (not_handled_of_error isError) ?_
    exact fun both => counted both.1

theorem handled_hmset_iff (key : Str) (hash : List (Str × Str)) :
    Handled (.hmset key hash) outs 0 reply ↔
      Counted (hash.length * 2 + 2) ∧ NoErrorText reply := by
  have runs : ∀ reply, run (.hmset key hash) outs 0 reply =
      withArgv (hash.length * 2 + 2)
        ((textReply 0 reply).map Returned.text) := by
    intro reply
    rw [run, hmset, if_neg (not_not.mpr rfl), withArgv_map]
  apply handled_withArgv runs
  intro runsText
  exact handled_textReply (runsText reply) rfl

theorem handled_hmget_iff (key : Str) (fields : List Str) :
    Handled (.hmget key fields) outs 0 reply ↔
      Counted (fields.length + 2) ∧ NoError reply := by
  have runs : ∀ reply, run (.hmget key fields) outs 0 reply =
      withArgv (fields.length + 2)
        ((listReply reply outs.list).map fun (ret, _) => .flag ret) := by
    intro reply
    rw [run, hmget, if_neg (not_not.mpr rfl), withArgv_map]
  apply handled_withArgv runs
  intro runsList
  exact handled_listReply runsList rfl

/-! ## The other methods -/

theorem mGetElements_of_not_string (retValue : Std.TreeMap Str Str)
    (keys : List Str) {element : Reply} (elements : List Reply)
    (other : ∀ text, element ≠ .string text) :
    mGetElements retValue keys (element :: elements) =
      mGetElements retValue keys.tail elements := by
  rw [mGetElements]
  exact other

/-- The loop of `MGet` goes past the keys exactly when a string stands there. -/
theorem mGetElements_isOk_iff (retValue : Std.TreeMap Str Str)
    (keys : List Str) (elements : List Reply) :
    (∃ filled, mGetElements retValue keys elements = .ok filled) ↔
      ∀ text, Reply.string text ∉ elements.drop keys.length := by
  induction elements generalizing keys retValue with
  | nil =>
      refine iff_of_true ⟨retValue, mGetElements.eq_1 retValue keys⟩ ?_
      intro text
      rw [List.drop_nil]
      exact List.not_mem_nil
  | cons element elements induction =>
      by_cases isString : ∃ text, element = .string text
      · obtain ⟨text, rfl⟩ := isString
        cases keys with
        | nil =>
            refine iff_of_false ?_ ?_
            · rintro ⟨filled, isOk⟩
              rw [mGetElements] at isOk
              cases isOk
            · intro none
              exact none text List.mem_cons_self
        | cons key keys =>
            rw [mGetElements]
            exact induction _ keys
      · have other : ∀ text, element ≠ .string text := by
          intro text same
          exact isString ⟨text, same⟩
        rw [mGetElements_of_not_string _ _ _ other, induction]
        cases keys with
        | nil =>
            simp only [List.tail_nil, List.length_nil, List.drop_zero,
              List.mem_cons, not_or]
            constructor
            · intro none text
              exact ⟨(other text).symm, none text⟩
            · intro none text
              exact (none text).2
        | cons key keys => rfl

theorem handled_mGet_iff (keys : List Str) :
    Handled (.mGet keys) outs 0 reply ↔ Fits outs reply (.mGet keys) := by
  cases sends : CacheConn.mGetCommand keys with
  | none =>
      refine iff_of_true ?_ (.inl sends)
      apply handled_of_failure
      simp only [run, mGet, sends]
      rfl
  | some sent =>
      have fits : Fits outs reply (.mGet keys) ↔ NoError reply ∧
          ∀ elements, reply = some (.array elements) →
            ∀ text, Reply.string text ∉ elements.drop keys.length := by
        simp [Fits, sends]
      have others : ∀ given, (∀ elements, given ≠ .array elements) →
          run (.mGet keys) outs 0 (some given) = .ok (.flag true) := by
        intro given notArray
        simp only [run, mGet, sends]
        cases given with
        | array elements => exact absurd rfl (notArray elements)
        | _ => rfl
      rw [fits]
      cases reply with
      | none =>
          refine iff_of_true ?_ ⟨trivial, ?_⟩
          · apply handled_of_failure
            simp only [run, mGet, sends]
            rfl
          · intro elements impossible
            cases impossible
      | some given =>
          cases given with
          | array elements =>
              have runs : run (.mGet keys) outs 0 (some (.array elements)) =
                  (mGetElements outs.map keys elements).map
                    fun _ => .flag true := by
                simp only [run, mGet, sends]
                cases mGetElements outs.map keys elements with
                | error fault => rfl
                | ok filled => rfl
              rw [handled_of_work runs id, mGetElements_isOk_iff]
              constructor
              · rintro inside
                refine ⟨trivial, ?_⟩
                rintro others ⟨rfl⟩
                exact inside
              · rintro ⟨-, inside⟩
                exact inside elements rfl
          | error text =>
              rw [handled_of_ok (others (.error text) nofun)]
              refine iff_of_false ?_ (fun both => both.1)
              intro reports
              cases reports trivial
          | _ =>
              refine iff_of_true ?_ ⟨trivial, ?_⟩
              · exact handled_of_not_failed (others _ nofun) id
              · intro elements impossible
                cases impossible

theorem handled_hgetInto_iff (key field : Str) :
    Handled (.hgetInto key field) outs 0 reply ↔
      Fits outs reply (.hgetInto key field) := by
  cases reply with
  | none =>
      refine iff_of_true (handled_of_failure rfl) ?_
      intro text impossible
      cases impossible
  | some given =>
      cases given with
      | string text =>
          have fits : Fits outs (some (.string text)) (.hgetInto key field) ↔
              min text.length 1024 < outs.buffer.length := by
            constructor
            · intro inside
              exact inside text rfl
            · rintro inside others ⟨rfl⟩
              exact inside
          rw [fits]
          by_cases inside : min text.length 1024 < outs.buffer.length
          · refine iff_of_true ?_ inside
            have runs : run (.hgetInto key field) outs 0
                (some (.string text)) = .ok (.number 0) := by
              simp only [run, hgetInto, inside, if_true]
              rfl
            exact handled_of_not_failed runs id
          · refine iff_of_false ?_ inside
            have runs : run (.hgetInto key field) outs 0
                (some (.string text)) = .error .pastEnd := by
              simp only [run, hgetInto, inside, if_false]
              rfl
            exact not_handled_of_error runs
      | error text =>
          refine iff_of_true (handled_of_failure rfl) ?_
          intro others impossible
          cases impossible
      | _ =>
          refine iff_of_true (handled_of_not_failed rfl id) ?_
          intro others impossible
          cases impossible

theorem run_zsetIncr (key member : Str) (given : Reply) :
    run (.zsetIncr key member) outs 0 (some given) =
      (cString (str given)).map fun text =>
        .number (if text = ascii "OK" then 0 else -1) := by
  change Except.map Returned.number ((cString (str given)).bind fun text =>
    .ok (if text = ascii "OK" then 0 else -1)) = _
  cases cString (str given) with
  | error fault => rfl
  | ok text => rfl

theorem cString_isOk_iff (given : Reply) :
    (∃ text, cString (str given) = .ok text) ↔ HasText given := by
  rw [HasText]
  cases str given with
  | none =>
      refine iff_of_false ?_ Bool.false_ne_true
      rintro ⟨text, isOk⟩
      cases isOk
  | some text => exact iff_of_true ⟨cStr text, rfl⟩ rfl

theorem handled_zsetIncr_iff (key member : Str) :
    Handled (.zsetIncr key member) outs 0 reply ↔
      Fits outs reply (.zsetIncr key member) := by
  cases reply with
  | none =>
      have runs : run (.zsetIncr key member) outs 0 none =
        .error .nullReply := rfl
      refine iff_of_false (not_handled_of_error runs) ?_
      rintro ⟨given, impossible, -⟩
      cases impossible
  | some given =>
      have fits : Fits outs (some given) (.zsetIncr key member) ↔
          HasText given ∧
            ∀ text, given = .error text → cStr text ≠ ascii "OK" := by
        constructor
        · rintro ⟨given, ⟨rfl⟩, rest⟩
          exact rest
        · intro rest
          exact ⟨given, rfl, rest⟩
      rw [fits]
      rcases error_or_fine given with ⟨text, rfl⟩ | ⟨fine, noError, -⟩
      · rw [handled_of_ok (run_zsetIncr key member (.error text))]
        have reports :
            Returned.number (if cStr text = ascii "OK" then 0 else -1) =
              .number (-1) ↔ cStr text ≠ ascii "OK" := by
          by_cases isOk : cStr text = ascii "OK"
          · simp [isOk]
          · simp [isOk]
        constructor
        · intro fails
          refine ⟨rfl, ?_⟩
          rintro others ⟨rfl⟩
          exact reports.mp (fails trivial)
        · rintro ⟨-, differs⟩ -
          exact reports.mpr (differs text rfl)
      · rw [handled_of_work (run_zsetIncr key member given) fine,
          cString_isOk_iff]
        refine (and_iff_left ?_).symm
        rintro text rfl
        exact noError.elim

theorem copyElements_isOk_iff (values : List Str) (elements : List Reply) :
    (∃ copied, copyElements values elements = .ok copied) ↔
      elements.length ≤ values.length ∧ ∀ element ∈ elements,
        HasText element := by
  induction elements generalizing values with
  | nil =>
      refine iff_of_true ⟨values, ?_⟩ ⟨Nat.zero_le _, ?_⟩
      · cases values with
        | nil => rfl
        | cons row values => rfl
      · intro element member
        cases member
  | cons element elements induction =>
      cases values with
      | nil =>
          refine iff_of_false ?_ ?_
          · rintro ⟨copied, isOk⟩
            cases isOk
          · rintro ⟨short, -⟩
            exact Nat.not_succ_le_zero _ short
      | cons row values =>
          rw [copyElements, List.forall_mem_cons, ← cString_isOk_iff,
            List.length_cons, List.length_cons, Nat.add_le_add_iff_right]
          cases cString (str element) with
          | error fault =>
              refine iff_of_false ?_ ?_
              · rintro ⟨copied, isOk⟩
                cases isOk
              · rintro ⟨-, ⟨text, isOk⟩, -⟩
                cases isOk
          | ok text =>
              have first : ∃ given, (Except.ok text : Except Fault Str) =
                .ok given := ⟨text, rfl⟩
              rw [and_iff_right first, ← induction values]
              cases copyElements values elements with
              | error fault =>
                  refine iff_of_false ?_ ?_
                  · rintro ⟨copied, isOk⟩
                    cases isOk
                  · rintro ⟨copied, isOk⟩
                    cases isOk
              | ok rest => exact iff_of_true ⟨_, rfl⟩ ⟨rest, rfl⟩

theorem handled_zsetZrevrange_iff (key : Str) (fromPos endPos : Int) :
    Handled (.zsetZrevrange key fromPos endPos) outs 0 reply ↔
      Fits outs reply (.zsetZrevrange key fromPos endPos) := by
  cases reply with
  | none =>
      have runs : run (.zsetZrevrange key fromPos endPos) outs 0 none =
        .error .nullReply := rfl
      refine iff_of_false (not_handled_of_error runs) ?_
      rintro ⟨present, -⟩
      exact present rfl
  | some given =>
      cases given with
      | array elements =>
          have runs : run (.zsetZrevrange key fromPos endPos) outs 0
              (some (.array elements)) = (copyElements outs.rows
                (elements.take (maxCount fromPos endPos elements))).map
                  fun _ => .number 0 := by
            change Except.map _ ((copyElements outs.rows (elements.take
              (maxCount fromPos endPos elements))).bind _) = _
            cases copyElements outs.rows
                (elements.take (maxCount fromPos endPos elements)) with
            | error fault => rfl
            | ok copied => rfl
          have atMost : maxCount fromPos endPos elements ≤ elements.length := by
            rw [maxCount]
            split_ifs
            · exact Nat.min_le_right _ _
            · exact Nat.le_refl _
          rw [handled_of_work runs id, copyElements_isOk_iff, List.length_take,
            Nat.min_eq_left atMost]
          constructor
          · rintro fitting
            refine ⟨Option.some_ne_none _, ?_⟩
            rintro others ⟨rfl⟩
            exact fitting
          · rintro ⟨-, fitting⟩
            exact fitting elements rfl
      | error text =>
          refine iff_of_true (handled_of_failure rfl)
            ⟨Option.some_ne_none _, ?_⟩
          intro others impossible
          cases impossible
      | _ =>
          refine iff_of_true (handled_of_not_failed rfl id)
            ⟨Option.some_ne_none _, ?_⟩
          intro others impossible
          cases impossible

theorem handled_zsetGetScore_iff (key member : Str) :
    Handled (.zsetGetScore key member) outs 0 reply ↔ reply ≠ none := by
  apply handled_iff_ne_none fun given =>
    match given with
    | .string text => .number (getInt (leadingNumber (cStr text)))
    | _ => .number (-1)
  · rfl
  · intro given
    cases given with
    | string text => rfl
    | _ => rfl
  · intro text
    rfl

theorem handled_xadd_iff (key id : Str) (pairs : List (Str × Str)) :
    Handled (.xadd key id pairs) outs 0 reply ↔
      Fits outs reply (.xadd key id pairs) := by
  cases reply with
  | none =>
      refine iff_of_true (handled_of_failure rfl) ?_
      intro given impossible
      cases impossible
  | some given =>
      have fits : Fits outs (some given) (.xadd key id pairs) ↔
          HasText given := by
        constructor
        · intro texts
          exact texts given rfl
        · rintro hasText others ⟨rfl⟩
          exact hasText
      rw [fits]
      rcases error_or_fine given with ⟨text, rfl⟩ | ⟨fine, -, -⟩
      · exact iff_of_true (handled_of_failure rfl) rfl
      · rw [← cString_isOk_iff]
        have runs : run (.xadd key id pairs) outs 0 (some given) =
            (cString (str given)).map fun _ => .flag true := by
          cases given with
          | error text => exact absurd trivial fine
          | _ => rfl
        exact handled_of_work runs fine

theorem handled_flushDb : Handled .flushDb outs 0 reply := by
  apply handled_of_failures fun given =>
    match given with
    | .string text => .flag (decide ((cStr text).take 2 = ascii "OK"))
    | _ => .flag false
  · rfl
  · intro given
    cases given with
    | string text => rfl
    | _ => rfl
  · intro text
    rfl

theorem handled_hgetAll_iff (key : Str) :
    Handled (.hgetAll key) outs 0 reply ↔ NoError reply := by
  apply handled_iff_noError fun _ => .flag true
  · rfl
  · intro given
    cases given with
    | array elements =>
        change Except.map _ (if elements.length % 2 = 0 then .ok (true, _)
          else .ok (true, _)) = _
        split_ifs
        · rfl
        · rfl
    | _ => rfl
  · intro text impossible
    cases impossible


/-! ## Entries of a stream -/

/-- A step of a loop, and the rest of it. -/
theorem bind_isOk_iff {First Value : Type} {first : Except Fault First}
    {next : First → Except Fault Value} :
    (∃ value, first.bind next = .ok value) ↔
      ∃ begun, first = .ok begun ∧ ∃ value, next begun = .ok value := by
  cases first with
  | error fault =>
      refine iff_of_false ?_ ?_
      · rintro ⟨value, isOk⟩
        cases isOk
      · rintro ⟨begun, isOk, -⟩
        cases isOk
  | ok begun =>
      constructor
      · intro isOk
        exact ⟨begun, rfl, isOk⟩
      · rintro ⟨others, ⟨rfl⟩, isOk⟩
        exact isOk

theorem lastValue_isOk_iff (value : Str) (fields : List Reply) :
    (∃ last, lastValue value fields = .ok last) ↔
      fields.length % 2 = 0 ∧ ∀ field ∈ fields, HasText field := by
  induction value, fields using lastValue.induct with
  | case1 value =>
      refine iff_of_true ⟨value, rfl⟩ ⟨rfl, ?_⟩
      intro field member
      cases member
  | case2 value field =>
      refine iff_of_false ?_ ?_
      · intro isOk
        obtain ⟨text, -, last, impossible⟩ := bind_isOk_iff.mp isOk
        cases impossible
      · rintro ⟨odd, -⟩
        cases odd
  | case3 value field next fields induction =>
      have even : (field :: next :: fields).length % 2 = 0 ↔
          fields.length % 2 = 0 := by
        rw [List.length_cons, List.length_cons]
        omega
      rw [even, List.forall_mem_cons, List.forall_mem_cons,
        ← cString_isOk_iff field, ← cString_isOk_iff next]
      constructor
      · intro isOk
        obtain ⟨first, firstOk, rest⟩ := bind_isOk_iff.mp isOk
        obtain ⟨second, secondOk, last⟩ := bind_isOk_iff.mp rest
        obtain ⟨isEven, texts⟩ := (induction second).mp last
        exact ⟨isEven, ⟨first, firstOk⟩, ⟨second, secondOk⟩, texts⟩
      · rintro ⟨isEven, ⟨first, firstOk⟩, ⟨second, secondOk⟩, texts⟩
        apply bind_isOk_iff.mpr
        refine ⟨first, firstOk, bind_isOk_iff.mpr ⟨second, secondOk, ?_⟩⟩
        exact (induction second).mpr ⟨isEven, texts⟩

theorem entryMessages_isOk_iff (entry : Reply) :
    (∃ more, entryMessages entry = .ok more) ↔ Readable entry := by
  cases entry with
  | array elements =>
      rcases elements with _ | ⟨first, _ | ⟨second, rest⟩⟩
      · exact iff_of_true ⟨[], rfl⟩ trivial
      · exact iff_of_true ⟨[], rfl⟩ trivial
      · unfold entryMessages Readable
        simp only
        rw [← cString_isOk_iff first]
        constructor
        · intro isOk
          obtain ⟨messageId, idOk, more⟩ := bind_isOk_iff.mp isOk
          refine ⟨⟨messageId, idOk⟩, ?_⟩
          cases second with
          | array fields =>
              obtain ⟨value, valueOk, -⟩ := bind_isOk_iff.mp more
              exact (lastValue_isOk_iff [] fields).mp ⟨value, valueOk⟩
          | _ => trivial
        · rintro ⟨⟨messageId, idOk⟩, readable⟩
          apply bind_isOk_iff.mpr
          refine ⟨messageId, idOk, ?_⟩
          cases second with
          | array fields =>
              obtain ⟨value, valueOk⟩ :=
                (lastValue_isOk_iff [] fields).mpr readable
              exact bind_isOk_iff.mpr ⟨value, valueOk, _, rfl⟩
          | _ => exact ⟨_, rfl⟩
  | _ => exact iff_of_true ⟨[], rfl⟩ trivial

theorem readEntries_isOk_iff (msgs : List (Str × Str)) (entries : List Reply) :
    (∃ filled, readEntries msgs entries = .ok filled) ↔
      ∀ entry ∈ entries, Readable entry := by
  induction entries generalizing msgs with
  | nil =>
      refine iff_of_true ⟨msgs, rfl⟩ ?_
      intro entry member
      cases member
  | cons entry entries induction =>
      rw [List.forall_mem_cons, ← entryMessages_isOk_iff]
      constructor
      · intro isOk
        obtain ⟨more, moreOk, rest⟩ := bind_isOk_iff.mp isOk
        exact ⟨⟨more, moreOk⟩, (induction _).mp rest⟩
      · rintro ⟨⟨more, moreOk⟩, readable⟩
        exact bind_isOk_iff.mpr ⟨more, moreOk, (induction _).mpr readable⟩

theorem handled_getXrevrange_iff (key start stop : Str) (count : Int) :
    Handled (.getXrevrange key start stop count) outs 0 reply ↔
      Fits outs reply (.getXrevrange key start stop count) := by
  cases reply with
  | none =>
      refine iff_of_true (handled_of_failure rfl) ?_
      intro elements impossible
      cases impossible
  | some given =>
      cases given with
      | array elements =>
          have runs : run (.getXrevrange key start stop count) outs 0
              (some (.array elements)) =
                (readEntries outs.msgs elements).map fun _ => .flag true := by
            change Except.map _ ((readEntries outs.msgs elements).map _) = _
            cases readEntries outs.msgs elements with
            | error fault => rfl
            | ok filled => rfl
          rw [handled_of_work runs id, readEntries_isOk_iff]
          constructor
          · rintro readable others ⟨rfl⟩
            exact readable
          · intro readable
            exact readable elements rfl
      | error text =>
          refine iff_of_true (handled_of_failure rfl) ?_
          intro elements impossible
          cases impossible
      | _ =>
          refine iff_of_true (handled_of_not_failed rfl id) ?_
          intro elements impossible
          cases impossible

/-! ## Every method -/

/-- The methods that use NULL here are those that crash in a session. -/
theorem run_none_iff :
    run command outs 0 none = .error .nullReply ↔
      command.onNull = .dereferences := by
  cases command with
  | zsetExit | zsetAdd | zsetZrem | zsetIncr | zsetZcard | zsetZrevrange
  | zsetGetScore => exact iff_of_true rfl rfl
  | mGet keys =>
      refine iff_of_false ?_ nofun
      simp only [run, mGet]
      cases CacheConn.mGetCommand keys with
      | none => exact nofun
      | some sent => exact nofun
  | hmset key hash =>
      refine iff_of_false ?_ nofun
      rw [run, hmset, if_neg (not_not.mpr rfl), withArgv_map]
      exact withArgv_ne_nullReply _ nofun
  | hmget key fields =>
      refine iff_of_false ?_ nofun
      rw [run, hmget, if_neg (not_not.mpr rfl), withArgv_map]
      exact withArgv_ne_nullReply _ nofun
  | _ => exact iff_of_false nofun nofun

theorem handled_zero_iff :
    Handled command outs 0 reply ↔ Fits outs reply command := by
  cases command with
  | get key =>
      exact iff_of_true (handled_stringReply (fun _ => rfl) rfl) trivial
  | set key value => exact handled_textReply rfl rfl
  | setEx key timeout value => exact handled_textReply rfl rfl
  | mGet keys => exact handled_mGet_iff keys
  | isExists key =>
      have runs : ∀ reply, run (.isExists key) outs 0 reply =
          (integerReply 0 reply 0).map fun retValue =>
            .flag (decide (retValue ≠ 0)) := by
        intro reply
        cases reply with
        | none => rfl
        | some given => rfl
      exact iff_of_true (handled_integerReply runs rfl) trivial
  | del key =>
      exact iff_of_true (handled_integerReply (fun _ => rfl) rfl) trivial
  | hdel key field => exact handled_integerReply_iff (fun _ => rfl) rfl
  | hget key field =>
      exact iff_of_true (handled_stringReply (fun _ => rfl) rfl) trivial
  | hgetInto key field => exact handled_hgetInto_iff key field
  | hgetAll key => exact handled_hgetAll_iff key
  | hset key field value => exact handled_integerReply_iff (fun _ => rfl) rfl
  | hincrBy key field value =>
      exact handled_integerReply_iff (fun _ => rfl) rfl
  | incrBy key value => exact handled_integerReply_iff (fun _ => rfl) rfl
  | hmset key hash => exact handled_hmset_iff key hash
  | hmget key fields => exact handled_hmget_iff key fields
  | incr key => exact handled_counterReply (fun _ => rfl) rfl
  | decr key => exact handled_counterReply (fun _ => rfl) rfl
  | lpush key value => exact handled_integerReply_iff (fun _ => rfl) rfl
  | rpush key value => exact handled_integerReply_iff (fun _ => rfl) rfl
  | llen key => exact handled_integerReply_iff (fun _ => rfl) rfl
  | lrange key start stop => exact handled_listReply (fun _ => rfl) rfl
  | zsetExit key member => exact handled_zsetReply (fun _ => rfl) rfl
  | zsetAdd key score member => exact handled_zsetReply (fun _ => rfl) rfl
  | zsetZrem key member => exact handled_zsetReply (fun _ => rfl) rfl
  | zsetIncr key member => exact handled_zsetIncr_iff key member
  | zsetZcard key => exact handled_zsetReply (fun _ => rfl) rfl
  | zsetZrevrange key fromPos endPos =>
      exact handled_zsetZrevrange_iff key fromPos endPos
  | zsetGetScore key member => exact handled_zsetGetScore_iff key member
  | getXrevrange key start stop count =>
      exact handled_getXrevrange_iff key start stop count
  | xadd key id fieldValuePairs =>
      exact handled_xadd_iff key id fieldValuePairs
  | flushDb => exact iff_of_true handled_flushDb trivial

/-- Without a connection every method returns. -/
theorem run_of_not_init {init : Int} (fails : init ≠ 0) :
    ∃ returned, run command outs init reply = .ok returned := by
  have mapped : ∀ {First : Type} (value : First) (function : First → Returned),
      ∃ returned, (Except.ok value : Except Fault First).map function =
        .ok returned := fun value function => ⟨function value, rfl⟩
  cases command <;>
    simp only [run, get, set, setEx, mGet, isExists, del, hdel, hget, hgetInto,
      hgetAll, hset, hincrBy, incrBy, hmset, hmget, incr, decr, lpush, rpush,
      llen, lrange, zsetExit, zsetAdd, zsetZrem, zsetIncr, zsetZcard,
      zsetZrevrange, zsetGetScore, getXrevrange, xadd, flushDb, stringReply,
      textReply, integerReply, counterReply, zsetReply, if_pos fails] <;>
    apply mapped

end Handled

/-- Exactly the replies that fit are handled: the call returns and reports a
failure for NULL and for an error. -/
theorem handled_iff_fits (command : Command) (outs : Outs) (init : Int)
    (reply : Option Reply) :
    Handled command outs init reply ↔ init ≠ 0 ∨ Fits outs reply command := by
  by_cases connects : init = 0
  · subst connects
    rw [handled_zero_iff]
    exact (or_iff_right (not_not.mpr rfl)).symm
  · have notSent : ∃ returned, run command outs init reply = .ok returned :=
      run_of_not_init connects
    obtain ⟨returned, returns⟩ := notSent
    refine iff_of_true ⟨returned, returns, ?_⟩ (.inl connects)
    intro isZero
    exact absurd isZero connects

def notInteger : Str := ascii "ERR value is not an integer or out of range"

/-- `ZADD` without a reply uses NULL, and an `INCR` that Redis refuses counts
as done. -/
theorem zsetAdd_and_incr_fail :
    ¬ Handled (.zsetAdd (ascii "rank") 1 (ascii "amy"))
      ⟨∅, [], 0, [], [], 0, []⟩ 0 none ∧
    ¬ Handled (.incr (ascii "name")) ⟨∅, [], 0, [], [], 0, []⟩ 0
      (some (.error notInteger)) := by
  constructor
  · rintro ⟨returned, returns, -⟩
    cases returns
  · rintro ⟨returned, returns, reports⟩
    have zero : returned = .number 0 := (Except.ok.inj returns).symm
    rw [zero] at reports
    cases reports rfl trivial

end Calls

end Replies

end ChatRoom
