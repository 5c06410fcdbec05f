import ChatRoom.Api.PoolCalls
import ChatRoom.Service.HelloHistory

/-!
# The handlers without a connection

`handleHelloMessage` and `handleClientMessages` call the functions of the API.
A connection that is missing is no exception: where a function does not look,
no `catch` of the handlers helps.
-/

namespace ChatRoom

namespace PoolCalls

open Api Connection Lib.Requests

/-! ## The handlers -/

/-- A room of `rooms_map_`. -/
structure NamedRoom extends Room where
  roomName : Str

section Handlers

variable (managers : Managers) (lib : Libraries)
  (sort : List Message → List Message)

/-- The user of a message in a history; `none` when `std::stoi` throws. -/
def messageUser (message : Message) : Run PoolName (Option Json) := do
  let (ret, username, avatar) ←
    apiGetUserInfoById managers message.userId [] []
  return userObject
    (fun _ => if ret = 0 then some (username, avatar) else none) message

/-- The loop over the sorted messages.  An exception ends it, and the array
keeps what it has. -/
def historyArray : List Message → Run PoolName (List Json)
  | [] => return []
  | message :: messages => do
      let user ← messageUser managers message
      match user with
      | none => return []
      | some user =>
          let rest ← historyArray messages
          return messageObject message user :: rest

/-- The messages of a room: none when reading them throws. -/
def roomMessages (room : NamedRoom) : Run PoolName (List Json) :=
  Run.attempt (do
    let (historyResult, batch) ← apiGetRoomHistoryTiered managers
      lib.toJsonCpp room.toRoom ⟨[], false⟩ 20
    if historyResult = 0 ∧ batch.messages ≠ [] then
      historyArray managers (sort batch.messages)
    else
      return [])
    (return [])

def roomObjects : List NamedRoom → Run PoolName (List Json)
  | [] => return []
  | room :: rooms => do
      let messages ← roomMessages managers lib sort room
      let rest ← roomObjects rooms
      return .object [(ascii "id", .string room.roomId),
        (ascii "messages", .array messages),
        (ascii "name", .string room.roomName),
        (ascii "users", .array [])] :: rest

/-- `handleHelloMessage`: the return value and the response it sends. -/
def handleHelloMessage (uid : Str) (rooms : List NamedRoom) :
    Run PoolName (Int × Json) := do
  let (ret, username, avatar) ← apiGetUserInfoById managers uid [] []
  let (username, avatar) :=
    if ret = 0 then (username, avatar)
    else (utf8 "未知编程侠", ascii "/img/a.png")
  let roomsArray ← roomObjects managers lib sort rooms
  return (0, .object [
    (ascii "payload", .object [
      (ascii "rooms", .array roomsArray),
      (ascii "user", .object [(ascii "avatar", .string avatar),
        (ascii "id", .string uid), (ascii "username", .string username)])]),
    (ascii "type", .string (ascii "hello"))])

/-- The clock and the user that has been looked up, as the texts of
`handleClientMessages` take them. -/
def answersOf (now : ℕ) (user : Option (Str × Str)) : Answers where
  now := now
  getUserInfoById _ := user
  helloResponse _ := none
  storeMessageTiered _ _ := none

/-- The `clientMessages` branch, behind the checks of the payload: the return
value and what has been done. -/
def storeAndPublish (conn : Connection) (now : ℕ) (room content : Str) :
    Run PoolName (Int × List Action) := do
  let message : Message := ⟨[], content, now, conn.userid⟩
  let (storeResult, msgs) ←
    apiStoreMessageTiered managers lib.toJsonCpp room [message]
  if storeResult ≠ 0 then
    return (-1, [.store room message])
  else
    let stored := msgs.headD message
    let (ret, username, avatar) ←
      apiGetUserInfoById managers conn.userid [] []
    let answers :=
      answersOf now (if ret = 0 then some (username, avatar) else none)
    let frame := buildWebSocketFrame
      (lib.writeString (broadcastJson answers conn room stored)) 1
    let published : List Action :=
      [.store room message, .publish room conn.userid frame]
    match stoi conn.userid with
    | none => return (-1, published)
    | some userId =>
        return (0, published ++ [.forward (lib.writeString
          (logicJson answers conn room content userId))])

def handleClientMessages (conn : Connection) (now : ℕ) (root : Json) :
    Run PoolName (Int × List Action) :=
  match root.get (ascii "type") >>= (·.asString lib.toJsonCpp) with
  | none => return (-1, [])
  | some type =>
      if type = ascii "clientMessages" then
        match clientMessage lib (answersOf now none) root with
        | none => return (-1, [])
        | some (room, content) =>
            storeAndPublish managers lib conn now room content
      else if type = ascii "join_room" then
        match root.get (ascii "payload") >>= (·.get (ascii "room_id")) >>=
            (·.asString lib.toJsonCpp) with
        | none => return (-1, [])
        | some room => return (0, [.subscribe room conn.userid])
      else return (0, [])

end Handlers

/-! ## Calls -/

/-- A call, with its arguments and the values its out parameters have. -/
inductive Call where
  | apiGetUserInfoById (userid username avatar : Str)
  | getUserIdByUsername (userid : Int) (username : Str)
  | getUsernameByEmail (email username : Str)
  | getUsernameAndUseridByEmail (email username : Str) (userid : Int)
  | apiGetRoomHistory (room : Room) (batch : MessageBatch) (msgCount : Int)
  | apiStoreMessage (roomName : Str) (msgs : List Message)
  | handleHelloMessage (uid : Str) (rooms : List NamedRoom)
  | handleClientMessages (conn : Connection) (now : ℕ) (root : Json)

namespace Call

section Run

variable (managers : Managers) (lib : Libraries)
  (sort : List Message → List Message)

/-- The return value of a function, without its out parameters. -/
def returnValue {Value : Type} (function : Run PoolName (Int × Value)) :
    Run PoolName Int := do
  let (ret, _) ← function
  return ret

def run : Call → Run PoolName Int
  | apiGetUserInfoById userid username avatar =>
      returnValue
        (PoolCalls.apiGetUserInfoById managers userid username avatar)
  | getUserIdByUsername userid username =>
      returnValue (PoolCalls.getUserIdByUsername managers userid username)
  | getUsernameByEmail email username =>
      returnValue (PoolCalls.getUsernameByEmail managers email username)
  | getUsernameAndUseridByEmail email username userid =>
      returnValue
        (PoolCalls.getUsernameAndUseridByEmail managers email username userid)
  | apiGetRoomHistory room batch msgCount =>
      returnValue (PoolCalls.apiGetRoomHistory managers lib.toJsonCpp room
        batch msgCount)
  | apiStoreMessage roomName msgs =>
      returnValue
        (PoolCalls.apiStoreMessage managers lib.toJsonCpp roomName msgs)
  | handleHelloMessage uid rooms =>
      returnValue
        (PoolCalls.handleHelloMessage managers lib sort uid rooms)
  | handleClientMessages conn now root =>
      returnValue
        (PoolCalls.handleClientMessages managers lib conn now root)

end Run

/-- The pools whose connections a call works with. -/
def pools : Call → List PoolName
  | apiGetUserInfoById .. => [.db (ascii "user_centre")]
  | getUserIdByUsername .. => [.db (ascii "chatroom_slave")]
  | getUsernameByEmail .. => [.db (ascii "chatroom_slave")]
  | getUsernameAndUseridByEmail .. => [.db (ascii "chatroom_slave")]
  | apiGetRoomHistory .. => [.cache (ascii "msg")]
  | apiStoreMessage .. => [.cache (ascii "msg")]
  | handleHelloMessage .. =>
      [.db (ascii "user_centre"), .cache (ascii "msg")]
  | handleClientMessages .. =>
      [.db (ascii "user_centre"), .cache (ascii "msg")]

/-- The pools whose answer a call does not look at: all of them, but for
`ApiStoreMessageTiered` in `handleClientMessages`. -/
def uncheckedPools : Call → List PoolName
  | handleClientMessages .. => [.db (ascii "user_centre")]
  | call => call.pools

end Call

section Statement

variable (managers : Managers) (lib : Libraries)
  (sort : List Message → List Message) (call : Call)

/-- The call uses no NULL, and returns its error value when one of its pools
has no connection for it. -/
def Handled : Prop :=
  (call.run managers lib sort []).1 ≠ .nullUse ∧
    (Run.Missed (· ∈ call.pools) (call.run managers lib sort []).2 →
      (call.run managers lib sort []).1 = .returned (-1))

/-- Every connection that the call asks for and does not look at is there. -/
def Connected : Prop :=
  ∀ request ∈ (call.run managers lib sort []).2,
    request.pool ∈ call.uncheckedPools → request.found = true

end Statement

/-! ## When a NULL is used -/

section Tight

variable {managers : Managers} {pools : PoolName → Prop}

theorem tight_messageUser (isPool : pools (.db (ascii "user_centre")))
    (message : Message) :
    Run.Tight pools (messageUser managers message) := by
  apply Run.tight_bind
  · exact tight_lookUp isPool _ _ _
  · intro user
    exact Run.tight_pure _

theorem tight_historyArray (isPool : pools (.db (ascii "user_centre")))
    (messages : List Message) :
    Run.Tight pools (historyArray managers messages) := by
  induction messages with
  | nil => exact Run.tight_pure _
  | cons message messages induction =>
      apply Run.tight_bind
      · exact tight_messageUser isPool message
      · intro user
        cases user with
        | none => exact Run.tight_pure _
        | some user =>
            apply Run.tight_bind
            · exact induction
            · intro rest
              exact Run.tight_pure _

theorem tight_roomMessages (userCentre : pools (.db (ascii "user_centre")))
    (msg : pools (.cache (ascii "msg")))
    (other : ¬ pools (.db (ascii "chatroom_slave"))) (lib : Libraries)
    (sort : List Message → List Message) (room : NamedRoom) :
    Run.Tight pools (roomMessages managers lib sort room) := by
  apply Run.tight_attempt
  · apply Run.tight_bind
    · exact tight_apiGetRoomHistoryTiered msg other _ _ _ _
    · rintro ⟨historyResult, batch⟩
      simp only
      split_ifs
      · exact tight_historyArray userCentre _
      · exact Run.tight_pure _
  · exact Run.tight_pure _

theorem tight_roomObjects (userCentre : pools (.db (ascii "user_centre")))
    (msg : pools (.cache (ascii "msg")))
    (other : ¬ pools (.db (ascii "chatroom_slave"))) (lib : Libraries)
    (sort : List Message → List Message) (rooms : List NamedRoom) :
    Run.Tight pools (roomObjects managers lib sort rooms) := by
  induction rooms with
  | nil => exact Run.tight_pure _
  | cons room rooms induction =>
      apply Run.tight_bind
      · exact tight_roomMessages userCentre msg other lib sort room
      · intro messages
        apply Run.tight_bind
        · exact induction
        · intro rest
          exact Run.tight_pure _

theorem tight_handleHelloMessage
    (userCentre : pools (.db (ascii "user_centre")))
    (msg : pools (.cache (ascii "msg")))
    (other : ¬ pools (.db (ascii "chatroom_slave"))) (lib : Libraries)
    (sort : List Message → List Message) (uid : Str)
    (rooms : List NamedRoom) :
    Run.Tight pools (handleHelloMessage managers lib sort uid rooms) := by
  apply Run.tight_bind
  · exact tight_lookUp userCentre _ _ _
  · intro user
    apply Run.tight_bind
    · exact tight_roomObjects userCentre msg other lib sort rooms
    · intro roomsArray
      exact Run.tight_pure _

theorem tight_storeAndPublish
    (userCentre : pools (.db (ascii "user_centre")))
    (other : ¬ pools (.cache (ascii "msg"))) (lib : Libraries)
    (conn : Connection) (now : ℕ) (room content : Str) :
    Run.Tight pools
      (storeAndPublish managers lib conn now room content) := by
  apply Run.tight_bind
  · exact tight_apiStoreMessageTiered other _ _ _
  · rintro ⟨storeResult, msgs⟩
    simp only
    split_ifs
    · exact Run.tight_pure _
    · apply Run.tight_bind
      · exact tight_lookUp userCentre _ _ _
      · intro user
        cases stoi conn.userid with
        | none => exact Run.tight_pure _
        | some userId => exact Run.tight_pure _

theorem tight_handleClientMessages
    (userCentre : pools (.db (ascii "user_centre")))
    (other : ¬ pools (.cache (ascii "msg"))) (lib : Libraries)
    (conn : Connection) (now : ℕ) (root : Json) :
    Run.Tight pools (handleClientMessages managers lib conn now root) := by
  rw [handleClientMessages]
  cases root.get (ascii "type") >>= (·.asString lib.toJsonCpp) with
  | none => exact Run.tight_pure _
  | some type =>
      simp only
      split_ifs
      · cases clientMessage lib (answersOf now none) root with
        | none => exact Run.tight_pure _
        | some request =>
            exact tight_storeAndPublish userCentre other lib conn now _ _
      · cases root.get (ascii "payload") >>= (·.get (ascii "room_id")) >>=
          (·.asString lib.toJsonCpp) with
        | none => exact Run.tight_pure _
        | some room => exact Run.tight_pure _
      · exact Run.tight_pure _

theorem tight_returnValue {Value : Type}
    {function : Run PoolName (Int × Value)}
    (tight : Run.Tight pools function) :
    Run.Tight pools (Call.returnValue function) := by
  apply Run.tight_bind
  · exact tight
  · intro value
    exact Run.tight_pure _

end Tight

/-! ## The handler that looks at one connection -/

theorem returnValue_eq {Value : Type} (function : Run PoolName (Int × Value))
    (past : List (Request PoolName)) :
    Call.returnValue function past =
      ((function past).1.map Prod.fst, (function past).2) :=
  Run.bind_pure function Prod.fst past

section Checked

variable {managers : Managers} {lib : Libraries}

/-- A request of the pool of the messages got nothing. -/
def MessagesMissed (requests : List (Request PoolName)) : Prop :=
  Run.Missed (· = .cache (ascii "msg")) requests

theorem storeAndPublish_of_missed {conn : Connection} {now : ℕ}
    {room content : Str}
    (missed : MessagesMissed
      (storeAndPublish managers lib conn now room content []).2) :
    ∃ actions, (storeAndPublish managers lib conn now room content []).1 =
      .returned (-1, actions) := by
  revert missed
  rw [storeAndPublish, apiStoreMessageTiered, Run.bind_assoc, getCacheConn,
    Run.ask_bind]
  cases (managers.cachePools (ascii "msg")).bind fun pool => pool 0 with
  | none =>
      intro _
      exact ⟨_, rfl⟩
  | some cacheConn =>
      intro missed
      -- behind the answer only the pool of the users is asked
      refine absurd missed (Run.not_missed_of_asks ?_ ?_)
      · apply Run.asks_bind
        · exact asks_storeMessages _ _ _ _ _
        · rintro ⟨storeResult, msgs⟩
          simp only
          split_ifs
          · exact Run.asks_pure _
          · apply Run.asks_bind
            · exact asks_lookUp (by simp) _ _ _
            · intro user
              cases stoi conn.userid with
              | none => exact Run.asks_pure _
              | some userId => exact Run.asks_pure _
      · rintro ⟨request, member, -, notFound⟩
        rw [List.mem_singleton.mp member] at notFound
        cases notFound

theorem handleClientMessages_of_missed {conn : Connection} {now : ℕ}
    {root : Json}
    (missed : MessagesMissed
      (handleClientMessages managers lib conn now root []).2) :
    ∃ actions, (handleClientMessages managers lib conn now root []).1 =
      .returned (-1, actions) := by
  have silent : ∀ value : Int × List Action, ¬ MessagesMissed
      ((Pure.pure value : Run PoolName (Int × List Action)) []).2 := by
    intro value
    exact Run.not_missed_nil
  revert missed
  rw [handleClientMessages]
  cases root.get (ascii "type") >>= (·.asString lib.toJsonCpp) with
  | none => exact fun missed => absurd missed (silent _)
  | some type =>
      simp only
      split_ifs
      · cases clientMessage lib (answersOf now none) root with
        | none => exact fun missed => absurd missed (silent _)
        | some request => exact storeAndPublish_of_missed
      · cases root.get (ascii "payload") >>= (·.get (ascii "room_id")) >>=
          (·.asString lib.toJsonCpp) with
        | none => exact fun missed => absurd missed (silent _)
        | some room => exact fun missed => absurd missed (silent _)
      · exact fun missed => absurd missed (silent _)

end Checked

/-! ## Missing connections -/

section Statement

variable {managers : Managers} {lib : Libraries}
  {sort : List Message → List Message}

theorem connected_iff (call : Call) :
    Connected managers lib sort call ↔
      ¬ Run.Missed (· ∈ call.uncheckedPools)
        (call.run managers lib sort []).2 := by
  simp only [Connected, Run.Missed, not_exists, not_and,
    Bool.not_eq_false]

theorem handled_iff_of_tight {call : Call}
    (tight : Run.Tight (· ∈ call.uncheckedPools)
      (call.run managers lib sort))
    (checked : Run.Missed (· ∈ call.pools) (call.run managers lib sort []).2 →
      Connected managers lib sort call →
      (call.run managers lib sort []).1 = .returned (-1)) :
    Handled managers lib sort call ↔ Connected managers lib sort call := by
  obtain ⟨requests, asked, null⟩ := tight []
  rw [List.nil_append] at asked
  rw [← asked] at null
  constructor
  · rintro ⟨noNull, -⟩
    rw [connected_iff, ← null]
    exact noNull
  · intro connected
    refine ⟨?_, fun missed => checked missed connected⟩
    rw [Ne, null, ← connected_iff]
    exact connected

/-- For a call that looks at no connection. -/
theorem handled_iff_of_unchecked {call : Call}
    (same : call.uncheckedPools = call.pools)
    (tight : Run.Tight (· ∈ call.pools) (call.run managers lib sort)) :
    Handled managers lib sort call ↔ Connected managers lib sort call := by
  apply handled_iff_of_tight
  · rw [same]
    exact tight
  · intro missed connected
    rw [connected_iff, same] at connected
    exact absurd missed connected

theorem handled_apiStoreMessage_iff (roomName : Str) (msgs : List Message) :
    Handled managers lib sort (.apiStoreMessage roomName msgs) ↔
      Connected managers lib sort (.apiStoreMessage roomName msgs) := by
  rw [connected_iff, Handled, Call.run, returnValue_eq]
  simp only [Call.uncheckedPools, Call.pools]
  cases given : (managers.cachePools (ascii "msg")).bind fun pool => pool 0 with
  | none =>
      rw [apiStoreMessage_of_none given]
      have missed : Run.Missed (· ∈ [PoolName.cache (ascii "msg")])
          [⟨.cache (ascii "msg"), false⟩] :=
        ⟨_, List.mem_cons_self, List.mem_cons_self, rfl⟩
      refine iff_of_false ?_ (not_not.mpr missed)
      rintro ⟨noNull, returns⟩
      split_ifs at noNull returns
      · cases returns missed
      · exact noNull rfl
  | some conn =>
      obtain ⟨noNull, asks⟩ :=
        apiStoreMessage_of_some given lib.toJsonCpp roomName msgs
      have notMissed : ¬ Run.Missed (· ∈ [PoolName.cache (ascii "msg")])
          [⟨.cache (ascii "msg"), true⟩] := by
        rintro ⟨request, member, -, notFound⟩
        rw [List.mem_singleton.mp member] at notFound
        cases notFound
      rw [asks]
      refine iff_of_true ⟨?_, ?_⟩ notMissed
      · rw [Ne, Outcome.map_eq_nullUse_iff]
        exact noNull
      · exact fun missed => absurd missed notMissed

/-- Exactly the calls whose unchecked connections are all there use no NULL
and return their error value for a missing one. -/
theorem handled_iff_connected (managers : Managers) (lib : Libraries)
    (sort : List Message → List Message) (call : Call) :
    Handled managers lib sort call ↔ Connected managers lib sort call := by
  cases call with
  | apiGetUserInfoById userid username avatar =>
      apply handled_iff_of_unchecked rfl
      apply tight_returnValue
      apply tight_lookUp
      exact List.mem_cons_self
  | getUserIdByUsername userid username =>
      apply handled_iff_of_unchecked rfl
      apply tight_returnValue
      apply tight_lookUp
      exact List.mem_cons_self
  | getUsernameByEmail email username =>
      apply handled_iff_of_unchecked rfl
      apply tight_returnValue
      apply tight_lookUp
      exact List.mem_cons_self
  | getUsernameAndUseridByEmail email username userid =>
      apply handled_iff_of_unchecked rfl
      apply tight_returnValue
      apply tight_lookUp
      exact List.mem_cons_self
  | apiGetRoomHistory room batch msgCount =>
      apply handled_iff_of_unchecked rfl
      apply tight_returnValue
      apply tight_apiGetRoomHistory
      exact List.mem_cons_self
  | apiStoreMessage roomName msgs =>
      exact handled_apiStoreMessage_iff roomName msgs
  | handleHelloMessage uid rooms =>
      apply handled_iff_of_unchecked rfl
      apply tight_returnValue
      apply tight_handleHelloMessage
      · exact List.mem_cons_self
      · exact List.mem_cons_of_mem _ List.mem_cons_self
      · have different : ascii "chatroom_slave" ≠ ascii "user_centre" := by
          decide
        simp [Call.pools, different]
  | handleClientMessages conn now root =>
      apply handled_iff_of_tight
      · apply tight_returnValue
        apply tight_handleClientMessages
        · exact List.mem_cons_self
        · simp [Call.uncheckedPools]
      · intro missed connected
        rw [connected_iff] at connected
        rw [Call.run, returnValue_eq] at missed connected ⊢
        obtain ⟨request, member, isPool, notFound⟩ := missed
        have isMessages : request.pool = .cache (ascii "msg") := by
          rcases List.mem_cons.mp isPool with userCentre | rest
          · exact absurd ⟨request, member,
              List.mem_singleton.mpr userCentre, notFound⟩ connected
          · exact List.mem_singleton.mp rest
        obtain ⟨actions, returns⟩ := handleClientMessages_of_missed
          ⟨request, member, isMessages, notFound⟩
        rw [returns]
        rfl

end Statement

/-- The configuration as shipped, with MySQL and Redis at hand: there is no
pool `user_centre`. -/
def shippedManagers : Managers where
  dbPools name :=
    if name ∈ [ascii "chatroom_master", ascii "chatroom_slave"] then
      some fun _ => some fun _ => none
    else none
  cachePools name :=
    if name ∈ [ascii "token", ascii "msg"] then
      some fun _ => some
        ⟨fun _ _ _ _ => some (some []), fun _ _ _ _ => some none⟩
    else none

def silentLibraries : Libraries where
  parse _ := none
  writeString _ := []
  fastWrite _ := []
  realText _ := []
  acceptKey _ := []

/-- A hello crashes the server. -/
theorem hello_uses_null :
    (Call.run shippedManagers silentLibraries id
      (.handleHelloMessage (ascii "7") []) []).1 = .nullUse ∧
    ¬ Handled shippedManagers silentLibraries id
      (.handleHelloMessage (ascii "7") []) := by
  have uses : (Call.run shippedManagers silentLibraries id
      (.handleHelloMessage (ascii "7") []) []).1 = .nullUse := rfl
  exact ⟨uses, fun handled => handled.1 uses⟩

end PoolCalls

end ChatRoom
