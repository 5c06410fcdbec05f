import ChatRoom.Api.Persistence
import ChatRoom.Api.TieredHistory

/-!
# The timestamps of persisted messages

`ApiBatchPersistMessages` writes a timestamp of 64 bits in decimal, and
`ApiGetRoomHistoryTiered` reads the column with `GetInt`.
-/

namespace ChatRoom

namespace Api

open Redis
open Mysql (getInt)

/-- A message that a batch has stored: the texts of the list were read as
these rows, and MySQL takes the statement for the same rows. -/
structure Persisted (lib : JsonCpp) where
  texts : List Str
  rows : List PersistRow
  sql : Str
  reads : readRows lib texts = some rows
  builds : batchPersistSql rows = some sql
  inserts : insertedRows sql = some rows
  row : PersistRow
  member : row ∈ rows
  uint64 : row.timestamp < 2 ^ 64

/-- The row in the table, with the number MySQL gives it as its `id`. -/
def PersistRow.stored (row : PersistRow) (id : Int) : TableRow :=
  ⟨id, some row.userId, some row.content, row.timestamp, some row.redisId⟩

/-- A call of `ApiGetRoomHistoryTiered` that returns and for which MySQL
answers with the row, among others. -/
structure RowRead (lib : JsonCpp) (row : PersistRow) where
  link : Link
  keys : Keyspace
  now : Nat
  room : Room
  msgCount : Int
  query : Int → Option (List TableRow)
  redisResult : Int
  page : MessageBatch
  fromRedis : apiGetRoomHistory lib link keys now room msgCount =
    some (redisResult, page)
  short : ¬ (redisResult = 0 ∧ enough msgCount page.messages = true)
  before : List TableRow
  id : Int
  behind : List TableRow
  answers : query (msgCount - page.messages.length) =
    some (before ++ row.stored id :: behind)
  result : Int
  batch : MessageBatch
  returns : apiGetRoomHistoryTiered lib link keys now room msgCount true
    query = some (result, batch)

/-- The timestamp of the message that the row becomes. -/
def RowRead.timestamp {lib : JsonCpp} {row : PersistRow}
    (read : RowRead lib row) : Option Nat :=
  read.batch.messages[read.page.messages.length + read.before.length]?.map
    (·.timestamp)

/-- The value of an item stands where the item does. -/
theorem getElem?_of_forall₂ {Item Value : Type} {read : Item → Option Value}
    {before behind : List Item} {item : Item} {values : List Value}
    (related : List.Forall₂ (fun item value => read item = some value)
      (before ++ item :: behind) values) :
    values[before.length]? = read item := by
  induction before generalizing values with
  | nil =>
      cases related with
      | cons first rest => exact first.symm
  | cons other before induction =>
      cases related with
      | cons first rest => exact induction rest

/-- The row becomes a message, whose timestamp is that of the row as an `int`
and then as a `uint64_t`. -/
theorem RowRead.timestamp_eq {lib : JsonCpp} {row : PersistRow}
    (read : RowRead lib row) :
    read.timestamp = some (getInt row.timestamp % 2 ^ 64).toNat := by
  obtain ⟨link, keys, now, room, msgCount, query, redisResult, page, fromRedis,
    short, before, id, behind, answers, result, batch, returns⟩ := read
  rw [apiGetRoomHistoryTiered, fromRedis] at returns
  simp only [if_neg short, if_true, answers, Option.map_eq_some_iff,
    Prod.mk.injEq] at returns
  obtain ⟨more, mapped, -, rfl⟩ := returns
  have atRow := getElem?_of_forall₂ (mapM_forall₂ mapped)
  rw [RowRead.timestamp]
  simp only
  rw [List.getElem?_append_right (Nat.le_add_right _ _),
    Nat.add_sub_cancel_left, atRow]
  rfl

theorem getInt_survives_iff {timestamp : Nat} (uint64 : timestamp < 2 ^ 64) :
    (getInt timestamp % 2 ^ 64).toNat = timestamp ↔
      timestamp < 2 ^ 31 ∨ timestamp = 2 ^ 64 - 1 := by
  rw [getInt, Int.bmod_def]
  split_ifs <;> omega

/-- A timestamp survives exactly when it is an `int`, or when cutting it down
to a `long` makes it -1 and that is what it is. -/
theorem timestamp_survives_iff {lib : JsonCpp} (persisted : Persisted lib)
    (read : RowRead lib persisted.row) :
    read.timestamp = some persisted.row.timestamp ↔
      persisted.row.timestamp < 2 ^ 31 ∨
        persisted.row.timestamp = 2 ^ 64 - 1 := by
  rw [read.timestamp_eq, Option.some.injEq]
  exact getInt_survives_iff persisted.uint64

/-- A message of the year 2038. -/
def lateRow : PersistRow :=
  ⟨ascii "2147483648000-0", ascii "0001", ascii "7", ascii "hello", 2 ^ 31⟩

/-- jsoncpp on the text of this message. -/
def lateJson : JsonCpp where
  parse _ := some lateRow.json
  writeString _ := []
  fastWrite _ := []
  realText _ := []

def latePersisted : Persisted lateJson where
  texts := [ascii "\x7b\"timestamp\":2147483648\x7d"]
  rows := [lateRow]
  sql := (batchPersistSql [lateRow]).getD []
  reads := by decide +kernel
  builds := by decide +kernel
  inserts := by decide +kernel
  row := lateRow
  member := List.mem_cons_self
  uint64 := by decide

/-- The stream of the room is empty, so that the row is the history. -/
def lateRead : RowRead lateJson lateRow where
  link := quietLink
  keys _ := none
  now := 0
  room := ⟨ascii "0001", []⟩
  msgCount := 1
  query _ := some [lateRow.stored 1]
  redisResult := 0
  page := ⟨[], false⟩
  fromRedis := by decide +kernel
  short := by decide
  before := []
  id := 1
  behind := []
  answers := rfl
  result := 0
  batch := ⟨[⟨ascii "2147483648000-0", ascii "hello", 2 ^ 64 - 2 ^ 31,
    ascii "7"⟩], true⟩
  returns := by decide +kernel

/-- Its timestamp comes back with a sign of 33 bits in front. -/
theorem lateRead_differs :
    lateRead.timestamp ≠ some latePersisted.row.timestamp := by
  rw [lateRead.timestamp_eq]
  decide

end Api

end ChatRoom
