import ChatRoom.Api.FailedHistory
import ChatRoom.Api.Statements
import ChatRoom.Api.TieredHistory
import ChatRoom.Lib.Requests
import ChatRoom.Mysql.DbPool

/-!
# The API and its connections

Every function of the API asks a pool for a connection and gets NULL when the
pool is not configured or has none to give.  Some look at what they got; most
call a method on it at once.
-/

namespace ChatRoom

namespace PoolCalls

open Api Lib.Requests
open Mysql (ResultSet getInt)

/-- The connection pools, by their names in the configuration. -/
inductive PoolName where
  | db (name : Str)
  | cache (name : Str)
  deriving DecidableEq

/-- `ExecuteQuery` on a connection: `none` when there is no result. -/
abbrev DbConn := Str → Option ResultSet

/-- Redis on a connection.  `xadd` may answer every message in another way;
where a method has no defined behaviour, the outer option is `none`. -/
structure CacheConn where
  getXrevrange : Str → Str → Str → Int → Option (Option (List (Str × Str)))
  xadd : ℕ → Str → Str → List (Str × Str) → Option (Option Str)

/-- The pools that are configured, and what each gives at a request: `none`
when it has no connection and cannot create one. -/
structure Managers where
  dbPools : Str → Option (ℕ → Option DbConn)
  cachePools : Str → Option (ℕ → Option CacheConn)

variable (managers : Managers)

/-- `CDBManager::GetDBConn`. -/
def getDbConn (poolName : Str) : Run PoolName (Option DbConn) :=
  Run.ask (.db poolName) fun request =>
    (managers.dbPools poolName).bind fun pool => pool request

/-- `CacheManager::GetCacheConn`. -/
def getCacheConn (poolName : Str) : Run PoolName (Option CacheConn) :=
  Run.ask (.cache poolName) fun request =>
    (managers.cachePools poolName).bind fun pool => pool request

/-! ## The user database -/

/-- `GetString`, as a `std::string`: there is none for NULL. -/
def stringColumn (result : ResultSet) (row : List (Option Str)) (key : Str) :
    Option Str :=
  (result.getIndex key).bind fun index => (row[index]?).join.map cStr

/-- `GetInt`: 0 for a column that is not there, no value for NULL. -/
def intColumn (result : ResultSet) (row : List (Option Str)) (key : Str) :
    Option Int :=
  match result.getIndex key with
  | none => some 0
  | some index =>
      (row[index]?).join.map fun text => getInt (leadingNumber (cStr text))

section LookUp

variable {Fields : Type}

/-- The functions that look one row up.  They do not look at the connection;
what the row has not, they leave as it is. -/
def lookUp (poolName : Str) (strSql : Statement) (fields : Fields)
    (read : ResultSet → List (Option Str) → Option Fields) :
    Run PoolName (Int × Fields) := do
  let dbConn ← getDbConn managers poolName
  let conn ← Run.use dbConn
  match conn (strSql.text.getD []) with
  | none => return (-1, fields)
  | some result =>
      match result.rows with
      | [] => return (-1, fields)
      | row :: _ =>
          let fields ← Run.ofOption (read result row)
          return (0, fields)

end LookUp

def getUserIdByUsername (userid : Int) (username : Str) :
    Run PoolName (Int × Int) :=
  lookUp managers (ascii "chatroom_slave")
    (Statement.getUserIdByUsername username) userid
    fun result row => intColumn result row (ascii "id")

def getUsernameByEmail (email username : Str) : Run PoolName (Int × Str) :=
  lookUp managers (ascii "chatroom_slave") (Statement.getUsernameByEmail email)
    username fun result row => stringColumn result row (ascii "username")

def getUsernameAndUseridByEmail (email username : Str) (userid : Int) :
    Run PoolName (Int × Str × Int) :=
  lookUp managers (ascii "chatroom_slave")
    (Statement.getUsernameAndUseridByEmail email) (username, userid)
    fun result row => do
      let username ← stringColumn result row (ascii "username")
      let userid ← intColumn result row (ascii "id")
      return (username, userid)

def apiGetUserInfoById (userid username avatar : Str) :
    Run PoolName (Int × Str × Str) :=
  lookUp managers (ascii "user_centre") (Statement.apiGetUserInfoById userid)
    (username, avatar) fun result row => do
      let username ← stringColumn result row (ascii "userName")
      let avatar ← stringColumn result row (ascii "avatarUrl")
      return (username, avatar)

/-! ## Messages -/

/-- `ApiGetRoomHistory`. -/
def apiGetRoomHistory (lib : JsonCpp) (room : Room) (batch : MessageBatch)
    (msgCount : Int) : Run PoolName (Int × Room × MessageBatch) := do
  let cacheConn ← getCacheConn managers (ascii "msg")
  let conn ← Run.use cacheConn
  let streamRef :=
    if room.historyLastMessageId = [] then ascii "+"
    else ascii "(" ++ room.historyLastMessageId
  let reply ← Run.ofOption
    (conn.getXrevrange room.roomId streamRef (ascii "-") msgCount)
  match apiGetRoomHistoryInto lib msgCount room batch reply with
  | none => Run.throw
  | some read => return read

/-- A row of `messages` as a message. -/
def historyMessage (result : ResultSet) (row : List (Option Str)) :
    Option Message := do
  let id ← match stringColumn result row (ascii "redis_id") with
    | some redisId => some redisId
    | none => (intColumn result row (ascii "id")).map intText
  let content ← stringColumn result row (ascii "content")
  let userId ← stringColumn result row (ascii "user_id")
  let timestamp ← intColumn result row (ascii "timestamp")
  return ⟨id, content, (timestamp % 2 ^ 64).toNat, userId⟩

/-- `ApiGetRoomHistoryTiered`, which reads a copy of the room.  It looks at the
connection to MySQL. -/
def apiGetRoomHistoryTiered (lib : JsonCpp) (room : Room)
    (batch : MessageBatch) (msgCount : Int) :
    Run PoolName (Int × MessageBatch) := do
  let (redisResult, _, batch) ←
    apiGetRoomHistory managers lib room batch msgCount
  if redisResult = 0 ∧ enough msgCount batch.messages = true then
    return (0, batch)
  else
    let dbConn ← getDbConn managers (ascii "chatroom_slave")
    match dbConn with
    | none => return (redisResult, batch)
    | some conn =>
        let neededCount := msgCount - batch.messages.length
        let sql := (Statement.apiGetRoomHistoryTiered room.roomId
          neededCount).text.getD []
        match conn sql with
        | none =>
            return (0, { batch with hasMore := enough msgCount batch.messages })
        | some result =>
            let more ← Run.ofOption
              (result.rows.mapM (historyMessage result))
            let messages := batch.messages ++ more
            return (0, ⟨messages, enough msgCount messages⟩)

/-- The loop of `ApiStoreMessage` and `ApiStoreMessageTiered`, with the fields
that an entry gets.  The result of the `Lpush` of the second is only logged. -/
def storeMessages (pairs : Message → List (Str × Str))
    (cacheConn : Option CacheConn) (roomName : Str) :
    ℕ → List Message → Run PoolName (Int × List Message)
  | _, [] => return (0, [])
  | turn, message :: rest => do
      let conn ← Run.use cacheConn
      let reply ← Run.ofOption
        (conn.xadd turn roomName (ascii "*") (pairs message))
      match reply with
      | none => return (-1, message :: rest)
      | some id =>
          let (ret, stored) ←
            storeMessages pairs cacheConn roomName (turn + 1) rest
          return (ret, { message with id := id } :: stored)

/-- `ApiStoreMessage`. -/
def apiStoreMessage (lib : JsonCpp) (roomName : Str) (msgs : List Message) :
    Run PoolName (Int × List Message) := do
  let cacheConn ← getCacheConn managers (ascii "msg")
  storeMessages
    (fun message => [(ascii "payload", lib.writeString message.payloadJson)])
    cacheConn roomName 0 msgs

/-- `ApiStoreMessageTiered`, which looks at its connection. -/
def apiStoreMessageTiered (lib : JsonCpp) (roomName : Str)
    (msgs : List Message) : Run PoolName (Int × List Message) := do
  let cacheConn ← getCacheConn managers (ascii "msg")
  match cacheConn with
  | none => return (-1, msgs)
  | some conn =>
      storeMessages (fieldValuePairs lib roomName) (some conn) roomName 0 msgs

/-! ## When a NULL is used -/

section Tight

variable {managers} {pools : PoolName → Prop}

theorem tight_lookUp {Fields : Type} {poolName : Str}
    (isPool : pools (.db poolName)) (strSql : Statement) (fields : Fields)
    (read : ResultSet → List (Option Str) → Option Fields) :
    Run.Tight pools (lookUp managers poolName strSql fields read) := by
  apply Run.tight_ask_use isPool
  intro conn
  cases conn (strSql.text.getD []) with
  | none => exact Run.tight_pure _
  | some result =>
      simp only
      cases result.rows with
      | nil => exact Run.tight_pure _
      | cons row rows =>
          apply Run.tight_bind
          · exact Run.tight_ofOption _
          · intro fields
            exact Run.tight_pure _

theorem tight_apiGetRoomHistory
    (isPool : pools (.cache (ascii "msg"))) (lib : JsonCpp) (room : Room)
    (batch : MessageBatch) (msgCount : Int) :
    Run.Tight pools
      (apiGetRoomHistory managers lib room batch msgCount) := by
  apply Run.tight_ask_use isPool
  intro conn
  apply Run.tight_bind
  · exact Run.tight_ofOption _
  · intro reply
    cases apiGetRoomHistoryInto lib msgCount room batch reply with
    | none => exact Run.tight_throw
    | some read => exact Run.tight_pure _

theorem tight_apiGetRoomHistoryTiered
    (isPool : pools (.cache (ascii "msg")))
    (other : ¬ pools (.db (ascii "chatroom_slave"))) (lib : JsonCpp)
    (room : Room) (batch : MessageBatch) (msgCount : Int) :
    Run.Tight pools
      (apiGetRoomHistoryTiered managers lib room batch msgCount) := by
  apply Run.tight_bind
  · exact tight_apiGetRoomHistory isPool lib room batch msgCount
  · rintro ⟨redisResult, -, batch⟩
    simp only
    split_ifs
    · exact Run.tight_pure _
    · apply Run.tight_bind
      · exact Run.tight_ask other _
      · intro dbConn
        cases dbConn with
        | none => exact Run.tight_pure _
        | some conn =>
            simp only
            split
            · exact Run.tight_pure _
            · apply Run.tight_bind
              · exact Run.tight_ofOption _
              · intro more
                exact Run.tight_pure _

/-- With a connection the loop asks for nothing more and uses no NULL. -/
theorem tight_storeMessages (pairs : Message → List (Str × Str))
    (conn : CacheConn) (roomName : Str) (turn : ℕ) (msgs : List Message) :
    Run.Tight pools
      (storeMessages pairs (some conn) roomName turn msgs) := by
  induction msgs generalizing turn with
  | nil => exact Run.tight_pure _
  | cons message rest induction =>
      apply Run.tight_bind
      · exact Run.tight_use_some conn
      · intro conn
        apply Run.tight_bind
        · exact Run.tight_ofOption _
        · intro reply
          cases reply with
          | none => exact Run.tight_pure _
          | some id =>
              apply Run.tight_bind
              · exact induction (turn + 1)
              · intro stored
                exact Run.tight_pure _

theorem tight_apiStoreMessageTiered
    (other : ¬ pools (.cache (ascii "msg"))) (lib : JsonCpp) (roomName : Str)
    (msgs : List Message) :
    Run.Tight pools
      (apiStoreMessageTiered managers lib roomName msgs) := by
  apply Run.tight_bind
  · exact Run.tight_ask other _
  · intro cacheConn
    cases cacheConn with
    | none => exact Run.tight_pure _
    | some conn => exact tight_storeMessages _ conn roomName 0 msgs

end Tight

/-! ## What is asked for -/

section Asks

variable {managers} {asked : Request PoolName → Prop}

theorem asks_lookUp {Fields : Type} {poolName : Str}
    (isAsked : ∀ found, asked ⟨.db poolName, found⟩) (strSql : Statement)
    (fields : Fields)
    (read : ResultSet → List (Option Str) → Option Fields) :
    Run.Asks asked (lookUp managers poolName strSql fields read) := by
  apply Run.asks_bind
  · exact Run.asks_ask isAsked
  · intro dbConn
    apply Run.asks_bind
    · exact Run.asks_use dbConn
    · intro conn
      cases conn (strSql.text.getD []) with
      | none => exact Run.asks_pure _
      | some result =>
          simp only
          cases result.rows with
          | nil => exact Run.asks_pure _
          | cons row rows =>
              apply Run.asks_bind
              · exact Run.asks_ofOption _
              · intro fields
                exact Run.asks_pure _

/-- The loop asks for nothing. -/
theorem asks_storeMessages (pairs : Message → List (Str × Str))
    (cacheConn : Option CacheConn) (roomName : Str) (turn : ℕ)
    (msgs : List Message) :
    Run.Asks asked (storeMessages pairs cacheConn roomName turn msgs) := by
  induction msgs generalizing turn with
  | nil => exact Run.asks_pure _
  | cons message rest induction =>
      apply Run.asks_bind
      · exact Run.asks_use cacheConn
      · intro conn
        apply Run.asks_bind
        · exact Run.asks_ofOption _
        · intro reply
          cases reply with
          | none => exact Run.asks_pure _
          | some id =>
              apply Run.asks_bind
              · exact induction (turn + 1)
              · intro stored
                exact Run.asks_pure _

/-- `ApiStoreMessage` without a connection crashes, or returns 0 when there is
nothing to store. -/
theorem apiStoreMessage_of_none
    (given : ((managers.cachePools (ascii "msg")).bind fun pool => pool 0) =
      none) (lib : JsonCpp) (roomName : Str) (msgs : List Message) :
    apiStoreMessage managers lib roomName msgs [] =
      (if msgs = [] then .returned (0, []) else .nullUse,
        [⟨.cache (ascii "msg"), false⟩]) := by
  rw [apiStoreMessage, getCacheConn, Run.ask_bind, List.length_nil, given]
  cases msgs with
  | nil => rfl
  | cons message rest => rfl

theorem apiStoreMessage_of_some {conn : CacheConn}
    (given : ((managers.cachePools (ascii "msg")).bind fun pool => pool 0) =
      some conn) (lib : JsonCpp) (roomName : Str) (msgs : List Message) :
    (apiStoreMessage managers lib roomName msgs []).1 ≠ .nullUse ∧
      (apiStoreMessage managers lib roomName msgs []).2 =
        [⟨.cache (ascii "msg"), true⟩] := by
  rw [apiStoreMessage, getCacheConn, Run.ask_bind, List.length_nil, given]
  generalize (fun message : Message =>
    [(ascii "payload", lib.writeString message.payloadJson)]) = pairs
  constructor
  · have tight : Run.Tight (fun _ => False)
        (storeMessages pairs (some conn) roomName 0 msgs) :=
      tight_storeMessages pairs conn roomName 0 msgs
    obtain ⟨requests, later, null⟩ := tight [⟨.cache (ascii "msg"), true⟩]
    intro uses
    obtain ⟨request, member, impossible, notFound⟩ := null.mp uses
    exact impossible
  · have asks : Run.Asks (fun _ => False)
        (storeMessages pairs (some conn) roomName 0 msgs) :=
      asks_storeMessages pairs (some conn) roomName 0 msgs
    obtain ⟨requests, later, none⟩ := asks [⟨.cache (ascii "msg"), true⟩]
    rw [List.eq_nil_iff_forall_not_mem.mpr none, List.append_nil] at later
    exact later

end Asks

end PoolCalls

end ChatRoom
