import ChatRoom.Lib.Incremental
import ChatRoom.Redis.Session

/-!
# The reply reader of hiredis

`redisReaderFeed` appends what the socket gives to a buffer, and
`redisReaderGetReply` works through it with a stack of tasks, one for the reply
and one for each array that is not complete.  An object is put into its array
when it is complete; the source links it when it is created.
-/

namespace ChatRoom

namespace Hiredis

open Lib.Incremental (Move Pause readWithin)

/-! ## Lines and numbers -/

/-- The loop of `seekNewline` from `pos` on; `count` is `_len - pos`. -/
def seekLoop (pos : ℕ) : ℕ → Str → Option ℕ
  | 0, _ => none
  | _ + 1, [] => none
  | count + 1, byte :: s =>
      if byte = Byte.cr ∧ s.head? = some Byte.lf then some pos
      else seekLoop (pos + 1) count s

/-- `seekNewline`, whose `_len` is an `int`. -/
def seekNewline (s : Str) : Option ℕ :=
  let len := Int.bmod ((s.length : Int) - 1) (2 ^ 32)
  seekLoop 0 len.toNat s

/-- `readLine`: the line, and what is behind its end. -/
def readLine (unread : Str) : Option (Str × Str) :=
  (seekNewline unread).map fun pos =>
    (unread.take pos, unread.drop (pos + 2))

/-- The loop of `string2ll`: the value of the digits, and what is left; `none`
on overflow. -/
def string2llDigits (v : ℕ) : Str → Option (ℕ × Str)
  | [] => some (v, [])
  | digit :: p =>
      if Byte.isDigit digit then
        let d := digit.toNat - 48
        if v > (2 ^ 64 - 1) / 10 then none
        else if v * 10 > 2 ^ 64 - 1 - d then none
        else string2llDigits (v * 10 + d) p
      else some (v, digit :: p)

/-- `string2ll` behind the sign. -/
def string2llUnsigned : Str → Option ℕ
  | [] => none
  | digit :: p =>
      if 49 ≤ digit ∧ digit ≤ 57 then
        match string2llDigits (digit.toNat - 48) p with
        | some (v, []) => some v
        | _ => none
      else none

def string2ll (s : Str) : Option Int :=
  if s = ascii "0" then some 0
  else if s.head? = some 45 then
    match string2llUnsigned s.tail with
    | some v => if v > 2 ^ 63 then none else some (-(v : Int))
    | none => none
  else
    match string2llUnsigned s with
    | some v => if v > 2 ^ 63 - 1 then none else some v
    | none => none

/-! ## Errors -/

/-- What `__redisReaderSetError` is called with; the type of the error is
`REDIS_ERR_PROTOCOL` each time.  Memory does not run out in the model. -/
inductive ReadError where
  | typeByte (byte : UInt8)
  | badInteger
  | badBulkLength
  | bulkLengthOutOfRange
  | tooDeep
  | badMultiBulkLength
  | multiBulkLengthOutOfRange
  deriving DecidableEq

def hexDigit (value : ℕ) : UInt8 :=
  if value < 10 then UInt8.ofNat (48 + value) else UInt8.ofNat (87 + value)

/-- `chrtos`. -/
def chrtos (byte : UInt8) : Str :=
  let inner : Str :=
    if byte = Byte.backslash ∨ byte = Byte.doubleQuote then
      [Byte.backslash, byte]
    else if byte = Byte.lf then ascii "\\n"
    else if byte = Byte.cr then ascii "\\r"
    else if byte = 9 then ascii "\\t"
    else if byte = 7 then ascii "\\a"
    else if byte = 8 then ascii "\\b"
    else if 32 ≤ byte ∧ byte ≤ 126 then [byte]
    else
      ascii "\\x" ++ [hexDigit (byte.toNat / 16), hexDigit (byte.toNat % 16)]
  ascii "\"" ++ inner ++ ascii "\""

/-- The field `errstr`. -/
def ReadError.errstr : ReadError → Str
  | .typeByte byte =>
      ascii "Protocol error, got " ++ chrtos byte ++
        ascii " as reply type byte"
  | .badInteger => ascii "Bad integer value"
  | .badBulkLength => ascii "Bad bulk string length"
  | .bulkLengthOutOfRange => ascii "Bulk string length out of range"
  | .tooDeep =>
      ascii "No support for nested multi bulk replies with depth > 7"
  | .badMultiBulkLength => ascii "Bad multi-bulk length"
  | .multiBulkLengthOutOfRange => ascii "Multi-bulk length out of range"

/-! ## Items -/

/-- The types that a type byte can announce. -/
inductive ItemType where
  | error
  | status
  | integer
  | string
  | array
  deriving DecidableEq

/-- The `switch` over the type byte. -/
def itemType (byte : UInt8) : Option ItemType :=
  if byte = 45 then some .error
  else if byte = 43 then some .status
  else if byte = 58 then some .integer
  else if byte = 36 then some .string
  else if byte = 42 then some .array
  else none

/-- A `redisReadTask`: `none` and -1 are the values of a task that has only
been set up.  `obj` holds the elements that the array has so far. -/
structure ReadTask where
  type : Option ItemType
  elements : Int
  idx : Int
  obj : List Reply

def newTask (idx : Int) : ReadTask := ⟨none, -1, idx, []⟩

/-- The task for the reply itself. -/
def rootTask : ReadTask := newTask (-1)

/-- What a `process` function finds: nothing that is complete, an error, an
object, or an array whose elements follow. -/
inductive Item where
  | incomplete
  | bad (error : ReadError)
  | object (obj : Reply) (unread : Str)
  | opened (elements : ℕ) (unread : Str)

section Items

/-! The functions take the way to find a line as an argument: the reader uses
`readLine`, whose `int` counts up to a bound. -/

variable (line : Str → Option (Str × Str))

def processLineItem (type : ItemType) (unread : Str) : Item :=
  match line unread with
  | none => .incomplete
  | some (p, rest) =>
      match type with
      | .integer =>
          match string2ll p with
          | none => .bad .badInteger
          | some v => .object (.integer v) rest
      | .error => .object (.error p) rest
      | _ => .object (.status p) rest

/-- Behind the content of a bulk two bytes are skipped, whatever they are. -/
def processBulkItem (unread : Str) : Item :=
  match line unread with
  | none => .incomplete
  | some (p, rest) =>
      match string2ll p with
      | none => .bad .badBulkLength
      | some len =>
          if len < -1 then .bad .bulkLengthOutOfRange
          else if len = -1 then .object .nil rest
          else if len.toNat + 2 ≤ rest.length then
            .object (.string (rest.take len.toNat))
              (rest.drop (len.toNat + 2))
          else .incomplete

/-- `ridx` is the number of tasks below the current one. -/
def processMultiBulkItem (ridx : ℕ) (unread : Str) : Item :=
  if ridx = 8 then .bad .tooDeep
  else
    match line unread with
    | none => .incomplete
    | some (p, rest) =>
        match string2ll p with
        | none => .bad .badMultiBulkLength
        | some elements =>
            if elements < -1 ∨ elements > 2 ^ 31 - 1 then
              .bad .multiBulkLengthOutOfRange
            else if elements = -1 then .object .nil rest
            else if elements > 0 then .opened elements.toNat rest
            else .object (.array []) rest

def processTyped (type : ItemType) (ridx : ℕ) (unread : Str) : Item :=
  match type with
  | .error | .status | .integer => processLineItem line type unread
  | .string => processBulkItem line unread
  | .array => processMultiBulkItem line ridx unread

/-- `moveToNextTask`, when the task at `idx` has made its object; the tasks
below it are listed from the top.  The reply is there when none is left.  The
task is used again for the next element, whose `obj` is set before it is
read. -/
def moveToNextTask (obj : Reply) (idx : Int) :
    List ReadTask → List ReadTask × Option Reply
  | [] => ([], some obj)
  | prv :: below =>
      let elements := prv.obj ++ [obj]
      if idx = prv.elements - 1 then
        moveToNextTask (.array elements) prv.idx below
      else (newTask (idx + 1) :: { prv with obj := elements } :: below, none)

/-- What `processItem` does once the type of the current item is known. -/
def processKnown (type : ItemType) (cur : ReadTask) (below : List ReadTask)
    (unread : Str) : Move (List ReadTask) UInt8 Reply ReadError :=
  let cur := { cur with type := some type }
  match processTyped line type below.length unread with
  | .incomplete => .stop (.wait (cur :: below) unread)
  | .bad error => .stop (.fail error)
  | .object obj rest =>
      match moveToNextTask obj cur.idx below with
      | (rstack, none) => .go rstack rest
      | (rstack, some reply) => .stop (.out reply rstack rest)
  | .opened elements rest =>
      let cur := { cur with elements := elements, obj := [] }
      .go (newTask 0 :: cur :: below) rest

/-- `processItem`, with the root task that `redisReaderGetReply` sets up when
the stack is empty. -/
def processItem (rstack : List ReadTask) (unread : Str) :
    Move (List ReadTask) UInt8 Reply ReadError :=
  let cur := rstack.headD rootTask
  let below := rstack.tail
  match cur.type with
  | some type => processKnown line type cur below unread
  | none =>
      match unread with
      | [] => .stop (.wait (cur :: below) [])
      | byte :: rest =>
          match itemType byte with
          | none => .stop (.fail (.typeByte byte))
          | some type => processKnown line type cur below rest

end Items

/-! ## The reader -/

/-- The conversion to `int`. -/
def toInt (value : Int) : Int := Int.bmod value (2 ^ 32)

/-- An index of `sdsrange`, counted from the end when it is negative. -/
def sdsIndex (len : ℕ) (index : Int) : Int :=
  if toInt index < 0 then max 0 (toInt (len + toInt index)) else toInt index

/-- `sdsrange`. -/
def sdsrange (s : Str) (start stop : Int) : Str :=
  let start := sdsIndex s.length start
  let stop := sdsIndex s.length stop
  let newlen :=
    if start > stop ∨ start ≥ toInt s.length then 0
    else if stop ≥ toInt s.length then toInt (s.length - 1) - start + 1
    else stop - start + 1
  (s.drop start.toNat).take newlen.toNat

/-- A `redisReader`: `len` is the length of `buf`. -/
structure RedisReader where
  err : Option ReadError
  buf : Str
  pos : ℕ
  rstack : List ReadTask

def redisReaderCreate : RedisReader := ⟨none, [], 0, []⟩

namespace RedisReader

/-- `redisReaderFeed`. -/
def feed (r : RedisReader) (chunk : Str) : RedisReader :=
  if r.err.isSome then r else { r with buf := r.buf ++ chunk }

def unread (r : RedisReader) : Str := r.buf.drop r.pos

/-- The reader where its loop has stopped, and the end of
`redisReaderGetReply`: what has been read is dropped from 1024 bytes on. -/
def stopAt (r : RedisReader) (rstack : List ReadTask) (rest : Str) :
    RedisReader :=
  let pos := r.buf.length - rest.length
  if pos ≥ 1024 then
    { r with buf := sdsrange r.buf pos (-1), pos := 0, rstack := rstack }
  else { r with pos := pos, rstack := rstack }

/-- `redisReaderGetReply`: `none` for `REDIS_ERR`, else the reply, if there is
one. -/
def getReply (r : RedisReader) : RedisReader × Option (Option Reply) :=
  if r.err.isSome then (r, none)
  else if r.buf.length = 0 then (r, some none)
  else
    match Lib.Incremental.read (processItem readLine) r.rstack r.unread with
    | .fail error => (⟨some error, [], 0, []⟩, none)
    | .wait rstack rest => (r.stopAt rstack rest, some none)
    | .out reply rstack rest => (r.stopAt rstack rest, some (some reply))

end RedisReader

end Hiredis

end ChatRoom
