import ChatRoom.Api.TieredStore
import ChatRoom.Service.ReadOutcome

/-!
# One client message, from the store to Logic

`handleClientMessages` stores the message, looks the sender up, publishes and
forwards, in this order and inside one `try`.  What a step has done stays done
when a later one throws or crashes.
-/

namespace ChatRoom

namespace ClientMessages

open Connection Redis
open Api (Link persistQueue roomKey)

/-- What MySQL has for the sender: no connection at all, no row, or a row with
the columns `userName` and `avatarUrl`, each of them possibly NULL. -/
inductive UserInfo where
  | noConnection
  | notFound
  | row (userName avatarUrl : Option Str)

/-- `ApiGetUserInfoById`; the inner `none` is its return value -1.  The outer
one is no defined behaviour: the query on a null connection, or a NULL column
assigned to a `std::string`, which is no exception. -/
def apiGetUserInfoById : UserInfo → Option (Option (Str × Str))
  | .noConnection => none
  | .notFound => some none
  | .row (some userName) (some avatarUrl) =>
      some (some (cStr userName, cStr avatarUrl))
  | .row _ _ => none

/-- What the call meets: the clock, Redis and MySQL. -/
structure Surroundings where
  now : Nat
  connection : Bool
  redisNow : Nat
  xadd : Tiered.Fate
  lpush : Tiered.Fate
  user : UserInfo

/-- The message of the connection, as it goes to the store. -/
def Surroundings.attempt (around : Surroundings) (conn : Connection)
    (content : Str) : Tiered.Attempt where
  message := ⟨[], content, around.now, conn.userid⟩
  now := around.redisNow
  xadd := around.xadd
  lpush := around.lpush

/-- The same answers, as the model of a read takes them. -/
def Surroundings.answers (around : Surroundings) (lib : Libraries)
    (link : Link) (keys : Keyspace) : Answers where
  now := around.now
  getUserInfoById _ := (apiGetUserInfoById around.user).join
  helloResponse _ := none
  storeMessageTiered room message :=
    match Tiered.apiStoreMessageTiered lib.toJsonCpp link around.connection room
        keys [⟨message, around.redisNow, around.xadd, around.lpush⟩] with
    | some (_, 0, [stored]) => some stored.id
    | _ => none

/-- Redis behind the call, what the call has done, and its result, `none` when
it does not return. -/
structure Handled where
  keys : Keyspace
  actions : List Action
  result : Option Int

section Call

variable (lib : Libraries) (link : Link) (around : Surroundings)
  (conn : Connection) (keys : Keyspace)

/-- The steps behind the checks of the payload. -/
def storeAndPublish (room content : Str) : Option Handled :=
  let message : Message := ⟨[], content, around.now, conn.userid⟩
  match Tiered.apiStoreMessageTiered lib.toJsonCpp link around.connection room
      keys [around.attempt conn content] with
  | none => none
  | some (next, 0, [stored]) =>
      match apiGetUserInfoById around.user with
      | none => some ⟨next, [.store room message], none⟩
      | some _ =>
          let answers := around.answers lib link keys
          let frame := buildWebSocketFrame
            (lib.writeString (broadcastJson answers conn room stored)) 1
          match stoi conn.userid with
          | none =>
              some ⟨next, [.store room message,
                .publish room conn.userid frame], some (-1)⟩
          | some userId =>
              some ⟨next, [.store room message,
                .publish room conn.userid frame,
                .forward (lib.writeString
                  (logicJson answers conn room content userId))], some 0⟩
  | some (next, _) => some ⟨next, [.store room message], some (-1)⟩

/-- `handleClientMessages`, with its effects on Redis and its result. -/
def handleClientMessages (root : Json) : Option Handled :=
  match root.get (ascii "type") >>= (·.asString lib.toJsonCpp) with
  | none => some ⟨keys, [], some (-1)⟩
  | some type =>
      if type = ascii "clientMessages" then
        match clientMessage lib (around.answers lib link keys) root with
        | none => some ⟨keys, [], some (-1)⟩
        | some (room, content) =>
            storeAndPublish lib link around conn keys room content
      else if type = ascii "join_room" then
        match root.get (ascii "payload") >>= (·.get (ascii "room_id")) >>=
            (·.asString lib.toJsonCpp) with
        | none => some ⟨keys, [], some (-1)⟩
        | some room => some ⟨keys, [.subscribe room conn.userid], some 0⟩
      else some ⟨keys, [], some 0⟩

/-! ## All or nothing -/

/-- The room and the content of the request, when it has them. -/
def request (root : Json) : Option (Str × Str) :=
  clientMessage lib (around.answers lib link keys) root

/-- A result of -1 leaves the stream of the room and the queue alone and
publishes nothing; with a result of 0 the message is in both, published once
and handed to Logic once. -/
def AllOrNothing (root : Json) (outcome : Option Handled) : Prop :=
  ∃ handled result, outcome = some handled ∧ handled.result = some result ∧
    (result = -1 →
      (∀ room content, request lib link around keys root = some (room, content) →
        handled.keys room = keys room ∧
          handled.keys persistQueue = keys persistQueue) ∧
      ∀ room sender frame, .publish room sender frame ∉ handled.actions) ∧
    (result = 0 → ∃ room content stored body,
      request lib link around keys root = some (room, content) ∧
      Tiered.Stored lib.toJsonCpp room [around.attempt conn content] keys
        handled.keys [stored] ∧
      handled.actions = [.store room (around.attempt conn content).message,
        .publish room conn.userid (buildWebSocketFrame (lib.writeString
          (broadcastJson (around.answers lib link keys) conn room stored)) 1),
        .forward body])

/-- When the call is all or nothing: the request is refused, the `XADD` fails
without an effect, or nothing fails. -/
def guard (root : Json) : Prop :=
  request lib link around keys root = none ∨
  ∃ room content, request lib link around keys root = some (room, content) ∧
    (around.connection = false ∨
      Tiered.Refused lib.toJsonCpp link room keys
        (around.attempt conn content) ∨
      (Tiered.Clear lib.toJsonCpp room keys [around.attempt conn content] ∧
        (around.user = .notFound ∨ ∃ userName avatarUrl,
          around.user = .row (some userName) (some avatarUrl)) ∧
        (stoi conn.userid).isSome))

end Call

section Call

variable {lib : Libraries} {link : Link} {around : Surroundings}
  {conn : Connection} {keys : Keyspace} {room content : Str}

/-! ## One message at the store -/

theorem storeOne_cases (lib : JsonCpp) (link : Link) (connection : Bool)
    (room : Str) (keys : Keyspace) (attempt : Tiered.Attempt) :
    Tiered.apiStoreMessageTiered lib link connection room keys [attempt] =
        none ∨
    (∃ next, Tiered.apiStoreMessageTiered lib link connection room keys
        [attempt] = some (next, -1, [])) ∨
    ∃ next stored, connection = true ∧
      Tiered.storeMessages lib link room keys [attempt] =
        some (next, 0, [stored]) := by
  cases connection with
  | false => exact .inr (.inl ⟨keys, rfl⟩)
  | true =>
      simp only [Tiered.apiStoreMessageTiered, Tiered.storeMessages, if_true]
      split
      · exact .inl rfl
      · exact .inr (.inl ⟨_, rfl⟩)
      · exact .inr (.inr ⟨_, _, trivial, rfl⟩)

theorem storeAndPublish_of_failed {next : Keyspace}
    (failed : Tiered.apiStoreMessageTiered lib.toJsonCpp link around.connection
      room keys [around.attempt conn content] = some (next, -1, [])) :
    storeAndPublish lib link around conn keys room content =
      some ⟨next, [.store room (around.attempt conn content).message],
        some (-1)⟩ := by
  simp only [storeAndPublish, failed]
  rfl

/-- What is left to do behind a store that returns 0. -/
theorem storeAndPublish_of_stored {next : Keyspace} {stored : Message}
    (called : Tiered.apiStoreMessageTiered lib.toJsonCpp link around.connection
      room keys [around.attempt conn content] = some (next, 0, [stored])) :
    storeAndPublish lib link around conn keys room content =
      match apiGetUserInfoById around.user with
      | none => some ⟨next, [.store room (around.attempt conn content).message],
          none⟩
      | some _ =>
          match stoi conn.userid with
          | none => some ⟨next,
              [.store room (around.attempt conn content).message,
                .publish room conn.userid (buildWebSocketFrame (lib.writeString
                  (broadcastJson (around.answers lib link keys) conn room
                    stored)) 1)], some (-1)⟩
          | some userId => some ⟨next,
              [.store room (around.attempt conn content).message,
                .publish room conn.userid (buildWebSocketFrame (lib.writeString
                  (broadcastJson (around.answers lib link keys) conn room
                    stored)) 1),
                .forward (lib.writeString
                  (logicJson (around.answers lib link keys) conn room content
                    userId))], some 0⟩ := by
  simp only [storeAndPublish, called]
  rfl

theorem lookup_isSome_iff (user : UserInfo) :
    (apiGetUserInfoById user).isSome ↔
      user = .notFound ∨ ∃ userName avatarUrl,
        user = .row (some userName) (some avatarUrl) := by
  cases user with
  | noConnection => simp [apiGetUserInfoById]
  | notFound => simp [apiGetUserInfoById]
  | row userName avatarUrl =>
      cases userName with
      | none => simp [apiGetUserInfoById]
      | some userName =>
          cases avatarUrl with
          | none => simp [apiGetUserInfoById]
          | some avatarUrl => simp [apiGetUserInfoById]

/-! ## The request -/

theorem handleClientMessages_of_refused {root : Json}
    (isType : root.get (ascii "type") >>= (·.asString lib.toJsonCpp) =
      some (ascii "clientMessages"))
    (refused : request lib link around keys root = none) :
    handleClientMessages lib link around conn keys root =
      some ⟨keys, [], some (-1)⟩ := by
  have noRequest : clientMessage lib (around.answers lib link keys) root =
      none := refused
  rw [handleClientMessages, isType]
  simp only [if_true, noRequest]

theorem handleClientMessages_of_request {root : Json}
    (isType : root.get (ascii "type") >>= (·.asString lib.toJsonCpp) =
      some (ascii "clientMessages"))
    (accepted : request lib link around keys root = some (room, content)) :
    handleClientMessages lib link around conn keys root =
      storeAndPublish lib link around conn keys room content := by
  have isRequest : clientMessage lib (around.answers lib link keys) root =
      some (room, content) := accepted
  rw [handleClientMessages, isType]
  simp only [if_true, isRequest]

theorem answers_of_failed {next : Keyspace}
    (failed : Tiered.apiStoreMessageTiered lib.toJsonCpp link around.connection
      room keys [around.attempt conn content] = some (next, -1, [])) :
    (around.answers lib link keys).storeMessageTiered room
      ⟨[], content, around.now, conn.userid⟩ = none := by
  have same : Tiered.apiStoreMessageTiered lib.toJsonCpp link
      around.connection room keys [⟨⟨[], content, around.now, conn.userid⟩,
        around.redisNow, around.xadd, around.lpush⟩] =
      some (next, -1, []) := failed
  simp only [Surroundings.answers, same]

theorem answers_of_stored {next : Keyspace} {stored : Message}
    (called : Tiered.apiStoreMessageTiered lib.toJsonCpp link around.connection
      room keys [around.attempt conn content] = some (next, 0, [stored])) :
    (around.answers lib link keys).storeMessageTiered room
      ⟨[], content, around.now, conn.userid⟩ = some stored.id := by
  have same : Tiered.apiStoreMessageTiered lib.toJsonCpp link
      around.connection room keys [⟨⟨[], content, around.now, conn.userid⟩,
        around.redisNow, around.xadd, around.lpush⟩] =
      some (next, 0, [stored]) := called
  simp only [Surroundings.answers, same]

/-- What `Xadd` gives a message is its id alone. -/
theorem stored_eq {next : Keyspace} {attempt : Tiered.Attempt}
    {stored : Message} (called : Tiered.storeMessages lib.toJsonCpp link room
      keys [attempt] = some (next, 0, [stored])) :
    stored = { attempt.message with id := stored.id } := by
  simp only [Tiered.storeMessages] at called
  split at called
  · cases called
  · cases called
  · rename_i middle message turned
    cases called
    simp only [Tiered.storeMessage] at turned
    split at turned
    · cases turned
    · cases turned
    · cases turned
      rfl

theorem actions_of_storeAndPublish {handled : Handled}
    (called : storeAndPublish lib link around conn keys room content =
      some handled) (returns : handled.result ≠ none) :
    handled.actions = Connection.storeAndPublish lib
      (around.answers lib link keys) conn room content := by
  rcases storeOne_cases lib.toJsonCpp link around.connection room keys
      (around.attempt conn content) with
    undefinedCall | ⟨next, failed⟩ | ⟨next, stored, connected, isStored⟩
  · simp only [storeAndPublish, undefinedCall] at called
    cases called
  · rw [storeAndPublish_of_failed failed] at called
    cases called
    have noId := answers_of_failed failed
    have isNow : (around.answers lib link keys).now = around.now := rfl
    simp only [Connection.storeAndPublish, isNow, noId]
    rfl
  · have result : Tiered.apiStoreMessageTiered lib.toJsonCpp link
        around.connection room keys [around.attempt conn content] =
        some (next, 0, [stored]) := by
      rw [connected]
      exact isStored
    have isId := answers_of_stored result
    have isNow : (around.answers lib link keys).now = around.now := rfl
    have whole := stored_eq isStored
    rw [storeAndPublish_of_stored result] at called
    simp only [Connection.storeAndPublish, isNow, isId]
    split at called
    · cases called
      exact absurd rfl returns
    · rw [whole] at called
      cases isNumber : stoi conn.userid with
      | none =>
          simp only [isNumber] at called
          cases called
          rfl
      | some userId =>
          simp only [isNumber] at called
          cases called
          rfl

/-- Where it returns, the call acts as in the model of a read. -/
theorem actions_of_handled {root : Json} {handled : Handled}
    (called : handleClientMessages lib link around conn keys root =
      some handled) (returns : handled.result ≠ none) :
    handled.actions = Connection.handleClientMessages lib
      (around.answers lib link keys) conn root := by
  cases isType : root.get (ascii "type") >>= (·.asString lib.toJsonCpp) with
  | none =>
      simp only [handleClientMessages, isType] at called
      cases called
      simp only [Connection.handleClientMessages, isType]
  | some type =>
      simp only [handleClientMessages, isType] at called
      simp only [Connection.handleClientMessages, isType]
      by_cases isClientMessages : type = ascii "clientMessages"
      · simp only [if_pos isClientMessages] at called ⊢
        cases isRequest : clientMessage lib (around.answers lib link keys)
            root with
        | none =>
            simp only [isRequest] at called
            cases called
            rfl
        | some request =>
            simp only [isRequest] at called
            exact actions_of_storeAndPublish called returns
      · simp only [if_neg isClientMessages] at called ⊢
        by_cases isJoin : type = ascii "join_room"
        · simp only [if_pos isJoin] at called ⊢
          cases isRoom : root.get (ascii "payload") >>=
              (·.get (ascii "room_id")) >>= (·.asString lib.toJsonCpp) with
          | none =>
              simp only [isRoom] at called
              cases called
              rfl
          | some room =>
              simp only [isRoom] at called
              cases called
              rfl
        · simp only [if_neg isJoin] at called ⊢
          cases called
          rfl

/-! ## When the call is all or nothing -/

theorem allOrNothing_of_failed {root : Json} {handled : Handled}
    {actions : List Action} {next : Keyspace}
    (isHandled : handled = ⟨next, actions, some (-1)⟩)
    (unchanged : ∀ room content,
      request lib link around keys root = some (room, content) →
        next room = keys room ∧ next persistQueue = keys persistQueue)
    (quiet : ∀ room sender frame, .publish room sender frame ∉ actions) :
    AllOrNothing lib link around conn keys root (some handled) := by
  subst isHandled
  refine ⟨_, -1, rfl, rfl, fun _ => ⟨unchanged, quiet⟩, ?_⟩
  intro impossible
  exact absurd impossible (by decide)

theorem allOrNothing_of_guard {root : Json}
    (isType : root.get (ascii "type") >>= (·.asString lib.toJsonCpp) =
      some (ascii "clientMessages"))
    (guarded : guard lib link around conn keys root) :
    AllOrNothing lib link around conn keys root
      (handleClientMessages lib link around conn keys root) := by
  rcases guarded with refused | ⟨room, content, accepted, reason⟩
  · rw [handleClientMessages_of_refused isType refused]
    apply allOrNothing_of_failed rfl
    · intro room content accepted
      rw [refused] at accepted
      cases accepted
    · intro room sender frame
      exact List.not_mem_nil
  · have failed : Tiered.apiStoreMessageTiered lib.toJsonCpp link
        around.connection room keys [around.attempt conn content] =
        some (keys, -1, []) →
        AllOrNothing lib link around conn keys root
          (handleClientMessages lib link around conn keys root) := by
      intro noEffect
      rw [handleClientMessages_of_request isType accepted,
        storeAndPublish_of_failed noEffect]
      apply allOrNothing_of_failed rfl
      · exact fun _ _ _ => ⟨rfl, rfl⟩
      · intro room sender frame
        simp
    cases connected : around.connection with
    | false =>
        apply failed
        rw [connected]
        rfl
    | true =>
        rcases reason with impossible | refused | ⟨clear, answered, isNumber⟩
        · rw [connected] at impossible
          cases impossible
        · apply failed
          rw [connected]
          exact Tiered.storeMessages_of_refused rfl refused
        · obtain ⟨next, messages, called, isStored⟩ :=
            Tiered.storeMessages_of_clear link clear
          obtain ⟨stored, rfl⟩ : ∃ stored, messages = [stored] :=
            List.length_eq_one_iff.mp isStored.messages.length_eq.symm
          obtain ⟨user, isUser⟩ :=
            Option.isSome_iff_exists.mp ((lookup_isSome_iff _).mpr answered)
          obtain ⟨userId, isUserId⟩ := Option.isSome_iff_exists.mp isNumber
          have result : Tiered.apiStoreMessageTiered lib.toJsonCpp link
              around.connection room keys [around.attempt conn content] =
              some (next, 0, [stored]) := by
            rw [connected]
            exact called
          rw [handleClientMessages_of_request isType accepted,
            storeAndPublish_of_stored result]
          simp only [isUser, isUserId]
          refine ⟨_, 0, rfl, rfl, ?_, ?_⟩
          · intro impossible
            exact absurd impossible (by decide)
          · intro _
            exact ⟨room, content, stored, _, accepted, isStored, rfl⟩

theorem guard_of_allOrNothing {root : Json}
    (isType : root.get (ascii "type") >>= (·.asString lib.toJsonCpp) =
      some (ascii "clientMessages"))
    (accepted : request lib link around keys root = some (room, content))
    (isRoom : roomKey room = some room)
    (all : AllOrNothing lib link around conn keys root
      (handleClientMessages lib link around conn keys root)) :
    guard lib link around conn keys root := by
  obtain ⟨handled, result, called, isResult, failure, success⟩ := all
  rw [handleClientMessages_of_request isType accepted] at called
  refine .inr ⟨room, content, accepted, ?_⟩
  rcases storeOne_cases lib.toJsonCpp link around.connection room keys
      (around.attempt conn content) with
    undefinedCall | ⟨next, failed⟩ | ⟨next, stored, connected, isStored⟩
  · simp only [storeAndPublish, undefinedCall] at called
    cases called
  · -- the store has failed: it must have done so without an effect
    rw [storeAndPublish_of_failed failed] at called
    cases called
    cases isResult
    obtain ⟨unchanged, -⟩ := (failure rfl).1 room content accepted
    cases connected : around.connection with
    | false => exact .inl rfl
    | true =>
        rw [connected] at failed
        obtain ⟨first, isFirst, refused⟩ := Tiered.refused_of_unchanged isRoom
          failed (by decide) unchanged
        cases isFirst
        exact .inr (.inl refused)
  · -- the store has returned 0: the call must get to its end
    have stores : Tiered.apiStoreMessageTiered lib.toJsonCpp link
        around.connection room keys [around.attempt conn content] =
        some (next, 0, [stored]) := by
      rw [connected]
      exact isStored
    rw [storeAndPublish_of_stored stores] at called
    split at called
    · cases called
      cases isResult
    · rename_i user isUser
      split at called
      · cases called
        cases isResult
        exact absurd (List.mem_cons_of_mem _ List.mem_cons_self)
          ((failure rfl).2 room conn.userid _)
      · rename_i userId isUserId
        cases called
        cases isResult
        obtain ⟨room', content', message, body, isRequest, complete, -⟩ :=
          success rfl
        rw [accepted] at isRequest
        cases isRequest
        have clear := Tiered.clear_of_stored isRoom (List.cons_ne_nil _ _)
          isStored complete
        refine .inr (.inr ⟨clear, (lookup_isSome_iff _).mp ?_, ?_⟩)
        · rw [isUser]
          rfl
        · rw [isUserId]
          rfl

end Call

/-- The call is all or nothing when the request is refused, when the `XADD`
fails without an effect, or when nothing fails; for a room that is one word of
the commands in no other case. -/
theorem handleClientMessages_allOrNothing_iff (lib : Libraries) (link : Link)
    (around : Surroundings) (conn : Connection) (keys : Keyspace) (root : Json)
    (isType : root.get (ascii "type") >>= (·.asString lib.toJsonCpp) =
      some (ascii "clientMessages")) :
    (guard lib link around conn keys root →
      AllOrNothing lib link around conn keys root
        (handleClientMessages lib link around conn keys root)) ∧
    ((∀ room content, request lib link around keys root =
        some (room, content) → roomKey room = some room) →
      AllOrNothing lib link around conn keys root
        (handleClientMessages lib link around conn keys root) →
      guard lib link around conn keys root) := by
  refine ⟨allOrNothing_of_guard isType, ?_⟩
  intro isRoom all
  cases accepted : request lib link around keys root with
  | none => exact .inl accepted
  | some request =>
      obtain ⟨room, content⟩ := request
      exact guard_of_allOrNothing isType accepted (isRoom room content accepted)
        all

/-! ## One request -/

mutual

/-- The text of a value without indentation, where no character needs an
escape. -/
def compact : Json → Str
  | .null => ascii "null"
  | .bool value => if value then ascii "true" else ascii "false"
  | .int value =>
      if value < 0 then ascii "-" ++ decimal value.natAbs
      else decimal value.natAbs
  | .real _ => []
  | .string text => [34] ++ text ++ [34]
  | .array elements => [91] ++ compactElements elements ++ [93]
  | .object members => [123] ++ compactMembers members ++ [125]

def compactElements : List Json → Str
  | [] => []
  | [last] => compact last
  | first :: second :: rest =>
      compact first ++ [44] ++ compactElements (second :: rest)

def compactMembers : List (Str × Json) → Str
  | [] => []
  | [(name, value)] => [34] ++ name ++ [34, 58] ++ compact value
  | (name, value) :: second :: rest =>
      [34] ++ name ++ [34, 58] ++ compact value ++ [44] ++
        compactMembers (second :: rest)

end

def plainLib : Libraries where
  parse _ := none
  writeString := compact
  fastWrite json := compact json ++ [10]
  realText _ := []
  acceptKey _ := []

def helloRequest : Json := .object [
  (ascii "payload", .object [(ascii "content", .string (ascii "hello")),
    (ascii "roomId", .string (ascii "0001"))]),
  (ascii "type", .string (ascii "clientMessages"))]

/-- Nothing fails, and the sender has a row. -/
def quiet : Surroundings where
  now := 1
  connection := true
  redisNow := 5
  xadd := .runs
  lpush := .runs
  user := .row (some (ascii "amy")) (some (ascii "/img/amy.png"))

def connected (uid : Str) : Connection := ⟨true, .webSocket, true, uid⟩

theorem hello_request (keys : Keyspace) :
    request plainLib Api.quietLink quiet keys helloRequest =
      some (ascii "0001", ascii "hello") := by
  rfl

/-- Nothing is in the way of a message whose words arrive. -/
theorem hello_clear {uid : Str}
    (words : Intact (CacheConn.xaddArgv (ascii "0001") (ascii "*")
      (Api.fieldValuePairs plainLib.toJsonCpp (ascii "0001")
        ⟨[], ascii "hello", 1, uid⟩))) :
    Tiered.Clear plainLib.toJsonCpp (ascii "0001") (fun _ => none)
      [quiet.attempt (connected uid) (ascii "hello")] := by
  refine ⟨by decide, rfl, rfl, ?_, ?_, ?_⟩
  · intro attempt member
    rw [List.mem_singleton.mp member]
    exact words
  · intro attempt member
    rw [List.mem_singleton.mp member]
    rfl
  · intro attempt member
    rw [List.mem_singleton.mp member]
    rfl

theorem hello_allOrNothing :
    AllOrNothing plainLib Api.quietLink quiet (connected (ascii "7"))
      (fun _ => none) helloRequest
      (handleClientMessages plainLib Api.quietLink quiet
        (connected (ascii "7")) (fun _ => none) helloRequest) := by
  apply (handleClientMessages_allOrNothing_iff plainLib Api.quietLink quiet
    (connected (ascii "7")) (fun _ => none) helloRequest rfl).1
  refine .inr ⟨ascii "0001", ascii "hello", hello_request _, ?_⟩
  exact .inr (.inr ⟨hello_clear (by decide +kernel),
    .inr ⟨_, _, rfl⟩, by decide +kernel⟩)

/-- A user id that is no number: the message is stored and published, and the
result is -1. -/
theorem hello_of_name :
    ¬ AllOrNothing plainLib Api.quietLink quiet (connected (ascii "amy"))
      (fun _ => none) helloRequest
      (handleClientMessages plainLib Api.quietLink quiet
        (connected (ascii "amy")) (fun _ => none) helloRequest) := by
  have noNumber : stoi (connected (ascii "amy")).userid = none := by
    decide +kernel
  have words : Intact (CacheConn.xaddArgv (ascii "0001") (ascii "*")
      (Api.fieldValuePairs plainLib.toJsonCpp (ascii "0001")
        ⟨[], ascii "hello", 1, ascii "amy"⟩)) := by
    decide +kernel
  obtain ⟨next, messages, called, isStored⟩ :=
    Tiered.storeMessages_of_clear Api.quietLink (hello_clear words)
  obtain ⟨stored, rfl⟩ : ∃ stored, messages = [stored] :=
    List.length_eq_one_iff.mp isStored.messages.length_eq.symm
  have stores : Tiered.apiStoreMessageTiered plainLib.toJsonCpp Api.quietLink
      quiet.connection (ascii "0001") (fun _ => none)
      [quiet.attempt (connected (ascii "amy")) (ascii "hello")] =
      some (next, 0, [stored]) := called
  have lookedUp : apiGetUserInfoById quiet.user =
      some (some (ascii "amy", ascii "/img/amy.png")) := by
    decide +kernel
  rw [handleClientMessages_of_request rfl (hello_request _),
    storeAndPublish_of_stored stores]
  simp only [lookedUp, noNumber]
  intro all
  obtain ⟨handled, result, called, isResult, failure, -⟩ := all
  cases called
  cases isResult
  exact absurd (List.mem_cons_of_mem _ List.mem_cons_self)
    ((failure rfl).2 _ _ _)

end ClientMessages

end ChatRoom
