import ChatRoom.Api.Message
import ChatRoom.Service.Frame
import ChatRoom.Service.HttpHandler

/-!
# One connection of the chat server

`HttpServer::onMessage`, `HttpHandler::OnRead` and `CWebSocketConn::OnRead` on
the bytes of one read, with a single I/O thread as `main` configures it.  What
a read does to the rest of the server is the list of its actions; what the
rest of the server answers during the read comes in as `Answers`.
-/

namespace ChatRoom

open HttpHandler (RequestType)

/-- The libraries a connection uses.  `acceptKey` is base64 of SHA-1. -/
structure Libraries extends JsonCpp where
  acceptKey : Str → Str

/-- What the calls made during one read return: `none` stands for a nonzero
return value of `ApiGetUserInfoById` and of `ApiStoreMessageTiered`, and for a
hello response that throws. -/
structure Answers where
  now : Nat
  getUserInfoById : Str → Option (Str × Str)
  helloResponse : Str → Option Json
  storeMessageTiered : Str → Message → Option Str

/-- What a read does: bytes sent on the connection, the calls that change
other state, and the JSON texts handed to the reader. -/
inductive Action where
  | switchProtocols (response : Str)
  | close (code : Nat) (reason : Str)
  | shutdown
  | insertUser (uid : Str)
  | subscribe (room uid : Str)
  | dispatch (payload : Str)
  | answer (frame : Str)
  | store (room : Str) (message : Message)
  | publish (room sender frame : Str)
  | forward (body : Str)
  | http (data : Str)
  deriving DecidableEq

/-- The TCP connection and the objects that belong to it.  `userid` is empty
until a handshake sets it. -/
structure Connection where
  connected : Bool
  requestType : RequestType
  handshakeCompleted : Bool
  userid : Str
  deriving DecidableEq

namespace Connection

def fresh : Connection := ⟨true, .unknown, false, []⟩

/-- The rooms of `s_room_list`. -/
def roomList : List Str :=
  [ascii "0001", ascii "0002", ascii "0003", ascii "0004", ascii "0005"]

/-! ## The handshake -/

/-- `extractUid`. -/
def extractUid (input : Str) : Str :=
  match splitFirst (ascii "uid=") input with
  | none => []
  | some (_, behind) =>
      behind.takeWhile fun byte => byte ≠ Byte.space ∧ byte ≠ Byte.ampersand

/-- `extractUidFromUrl`. -/
def extractUidFromUrl (url : Str) : Str :=
  match splitFirst [Byte.question] url with
  | none => []
  | some (_, query) => extractUid query

/-- The text up to the first CRLF. -/
def untilCrlf (text : Str) : Str :=
  match splitFirst [Byte.cr, Byte.lf] text with
  | none => text
  | some (before, _) => before

/-- The uid of the read that completes a handshake: its first line counts. -/
def requestUid (request : Str) : Str := extractUidFromUrl (untilCrlf request)

/-- `generateWebSocketHandshakeResponse`. -/
def generateWebSocketHandshakeResponse (lib : Libraries) (key : Str) : Str :=
  ascii "HTTP/1.1 101 Switching Protocols\r\n" ++
    ascii "Upgrade: websocket\r\n" ++
    ascii "Connection: Upgrade\r\n" ++
    ascii "Sec-WebSocket-Accept: " ++
    lib.acceptKey (key ++ ascii "258EAFA5-E914-47DA-95CA-C5AB0DC85B11") ++
    ascii "\r\n\r\n"

/-- The value of the `Sec-WebSocket-Key` line, if the request has one. -/
def secWebSocketKey (request : Str) : Option Str :=
  (splitFirst (ascii "Sec-WebSocket-Key: ") request).map fun (_, behind) =>
    untilCrlf behind

/-- The first branch of `OnRead`.  An empty uid is refused by a Close frame;
the connection stays open. -/
def handshake (lib : Libraries) (conn : Connection) (request : Str) :
    Connection × List Action :=
  match secWebSocketKey request with
  | none => (conn, [])
  | some key =>
      let response := generateWebSocketHandshakeResponse lib key
      let uid := requestUid request
      if uid = [] then
        ({ conn with handshakeCompleted := true },
          [.switchProtocols response,
            .close 1008 (ascii "uid validation failed")])
      else
        ({ conn with handshakeCompleted := true, userid := uid },
          [.switchProtocols response, .insertUser uid] ++
            roomList.map fun room => .subscribe room uid)

/-! ## The handlers -/

/-- `disconnect`: a Close frame, then `shutdown`, after which muduo no longer
counts the connection as connected. -/
def disconnect (conn : Connection) : Connection × List Action :=
  ({ conn with connected := false },
    [.close 1000 (ascii "Normal closure"), .shutdown])

/-- `std::stoi`: leading white space, a sign, digits; the rest is ignored. -/
def stoi (text : Str) : Option Int :=
  let trimmed := text.dropWhile fun byte =>
    byte = Byte.space ∨ (9 ≤ byte ∧ byte ≤ 13)
  let (negative, digits) : Bool × Str :=
    match trimmed with
    | 45 :: rest => (true, rest)
    | 43 :: rest => (false, rest)
    | rest => (false, rest)
  let number := digits.takeWhile Byte.isDigit
  if number = [] then none
  else
    let value : Int :=
      if negative then -(digitsValue number : Int) else digitsValue number
    if -2 ^ 31 ≤ value ∧ value < 2 ^ 31 then some value else none

/-- The message `handleClientMessages` publishes. -/
def broadcastJson (answers : Answers) (conn : Connection) (room : Str)
    (message : Message) : Json :=
  let user : Json :=
    match answers.getUserInfoById conn.userid with
    | some (username, avatar) =>
        .object [(ascii "avatar", .string avatar),
          (ascii "id", .string conn.userid),
          (ascii "username", .string username)]
    | none =>
        .object [(ascii "avatar", .string (ascii "/img/default.png")),
          (ascii "id",
            .string (if conn.userid = [] then ascii "0" else conn.userid)),
          (ascii "username", .string (utf8 "未知用户"))]
  .object [
    (ascii "payload", .object [
      (ascii "content", .string message.content),
      (ascii "id", .string message.id),
      (ascii "room_id", .string room),
      (ascii "timestamp", .int message.timestamp),
      (ascii "user", user)]),
    (ascii "type", .string (ascii "serverMessages"))]

/-- The request `handleClientMessages` posts to Logic.  `username_` is never
set, so a failed lookup leaves the name empty. -/
def logicJson (answers : Answers) (conn : Connection) (room content : Str)
    (userId : Int) : Json :=
  let userName : Str :=
    match answers.getUserInfoById conn.userid with
    | some (username, _) => username
    | none => []
  .object [
    (ascii "messages", .array [.object [(ascii "content", .string content)]]),
    (ascii "roomId", .string room), (ascii "userId", .int userId),
    (ascii "userName", .string userName)]

/-- The fields `handleClientMessages` needs, converted in its order: `none`
when one is missing or throws. -/
def clientMessage (lib : Libraries) (answers : Answers) (root : Json) :
    Option (Str × Str) := do
  let payload ← root.get (ascii "payload")
  let contentField ← payload.get (ascii "content")
  let roomField ← payload.get (ascii "roomId")
  if contentField.isNull ∨ roomField.isNull then none
  else
    let room ← roomField.asString lib.toJsonCpp
    let content ← contentField.asString lib.toJsonCpp
    let timestamp ← payload.get (ascii "timestamp")
    let _ ← if timestamp.isNull then some answers.now else timestamp.asUInt64
    some (room, content)

/-- The `clientMessages` branch of `handleClientMessages`: store, publish,
forward.  A user id that is no number throws before the forward. -/
def storeAndPublish (lib : Libraries) (answers : Answers)
    (conn : Connection) (room content : Str) : List Action :=
  let message : Message := ⟨[], content, answers.now, conn.userid⟩
  match answers.storeMessageTiered room message with
  | none => [.store room message]
  | some id =>
      let stored := { message with id := id }
      let frame := buildWebSocketFrame
        (lib.writeString (broadcastJson answers conn room stored)) 1
      [.store room message, .publish room conn.userid frame] ++
        match stoi conn.userid with
        | none => []
        | some userId =>
            [.forward (lib.writeString
              (logicJson answers conn room content userId))]

/-- `handleClientMessages`. -/
def handleClientMessages (lib : Libraries) (answers : Answers)
    (conn : Connection) (root : Json) : List Action :=
  match root.get (ascii "type") >>= (·.asString lib.toJsonCpp) with
  | none => []
  | some type =>
      if type = ascii "clientMessages" then
        match clientMessage lib answers root with
        | none => []
        | some (room, content) => storeAndPublish lib answers conn room content
      else if type = ascii "join_room" then
        match root.get (ascii "payload") >>= (·.get (ascii "room_id")) >>=
            (·.asString lib.toJsonCpp) with
        | none => []
        | some room => [.subscribe room conn.userid]
      else []

/-- `handleRequestRoomHistory`. -/
def handleRequestRoomHistory (lib : Libraries) (root : Json) :
    List Action :=
  match root.get (ascii "payload") >>= (·.get (ascii "room_id")) >>=
      (·.asString lib.toJsonCpp) with
  | none => []
  | some room =>
      let response : Json := .object [
        (ascii "payload", .object [
          (ascii "messages", .array []), (ascii "room_id", .string room)]),
        (ascii "type", .string (ascii "room_history"))]
      [.answer (buildWebSocketFrame (lib.fastWrite response) 1)]

/-- `handleHelloMessage`, up to the response it assembles. -/
def handleHelloMessage (lib : Libraries) (answers : Answers)
    (conn : Connection) : List Action :=
  match answers.helloResponse conn.userid with
  | none => []
  | some response => [.answer (buildWebSocketFrame (lib.fastWrite response) 1)]

/-! ## Reading -/

/-- The text-frame branch of `OnRead`.  A value that is no object throws, and
`onMessage` drops the exception. -/
def onText (lib : Libraries) (answers : Answers) (conn : Connection)
    (payload : Str) : Connection × List Action :=
  match lib.parse payload with
  | none => conn.disconnect
  | some root =>
      match root.get (ascii "type") with
      | none => (conn, [])
      | some type =>
          if type.isNull then conn.disconnect
          else
            match type.asString lib.toJsonCpp with
            | none => (conn, [])
            | some type =>
                if type = ascii "hello" then
                  (conn, handleHelloMessage lib answers conn)
                else if type = ascii "clientMessages" then
                  (conn, handleClientMessages lib answers conn root)
                else if type = ascii "requestRoomHistory" then
                  (conn, handleRequestRoomHistory lib root)
                else (conn, [])

/-- `CWebSocketConn::OnRead`: the whole buffer is taken for one handshake or
one frame. -/
def onRead (lib : Libraries) (answers : Answers) (conn : Connection)
    (data : Str) : Option (Connection × List Action) :=
  if ¬ conn.handshakeCompleted then some (handshake lib conn data)
  else
    (parseWebSocketFrame data).map fun (frame : WebSocketFrame) =>
      if frame.opcode = 1 then
        let (next, actions) := onText lib answers conn frame.payloadData
        (next, .dispatch frame.payloadData :: actions)
      else if frame.opcode = 8 then conn.disconnect
      else (conn, [])

/-- `HttpHandler::OnRead`.  Header parsing that throws leaves the connection
as it was, without the bytes read. -/
def handlerOnRead (lib : Libraries) (answers : Answers) (conn : Connection)
    (data : Str) : Option (Connection × List Action) :=
  match conn.requestType with
  | .webSocket => onRead lib answers conn data
  | .http => some (conn, [.http data])
  | .unknown =>
      match HttpHandler.classify data with
      | none => some (conn, [])
      | some .webSocket =>
          onRead lib answers { conn with requestType := .webSocket } data
      | some requestType =>
          some ({ conn with requestType := requestType }, [.http data])

/-- `HttpServer::onMessage`: `none` when the read has no defined result. -/
def onMessage (lib : Libraries) (answers : Answers) (conn : Connection)
    (data : Str) : Option (Connection × List Action) :=
  if conn.connected then handlerOnRead lib answers conn data else some (conn, [])

/-! ## What the handlers do -/

/-- The actions of the message handlers for a user: neither a Close frame nor
a payload handed to the JSON reader, nor a subscription of another user. -/
def FromHandler (uid : Str) (actions : List Action) : Prop :=
  ∀ action ∈ actions, match action with
    | .store .. | .publish .. | .forward .. | .answer .. => True
    | .subscribe _ user => user = uid
    | _ => False

theorem fromHandler_nil (uid : Str) : FromHandler uid [] :=
  fun _ member => nomatch member

theorem storeAndPublish_fromHandler (lib : Libraries) (answers : Answers)
    (conn : Connection) (room content : Str) :
    FromHandler conn.userid (storeAndPublish lib answers conn room content) := by
  intro action member
  cases stored : answers.storeMessageTiered room
      ⟨[], content, answers.now, conn.userid⟩ with
  | none =>
      simp only [storeAndPublish, stored, List.mem_singleton] at member
      rw [member]
      trivial
  | some id =>
      cases number : stoi conn.userid with
      | none =>
          simp only [storeAndPublish, stored, number, List.append_nil,
            List.mem_cons, List.not_mem_nil, or_false] at member
          rcases member with rfl | rfl <;> trivial
      | some userId =>
          simp only [storeAndPublish, stored, number, List.cons_append,
            List.nil_append, List.mem_cons, List.not_mem_nil,
            or_false] at member
          rcases member with rfl | rfl | rfl <;> trivial

theorem handleClientMessages_fromHandler (lib : Libraries)
    (answers : Answers) (conn : Connection) (root : Json) :
    FromHandler conn.userid (handleClientMessages lib answers conn root) := by
  unfold handleClientMessages
  split
  · exact fromHandler_nil _
  · split
    · split
      · exact fromHandler_nil _
      · exact storeAndPublish_fromHandler lib answers conn _ _
    · split
      · split
        · exact fromHandler_nil _
        · intro action member
          rw [List.mem_singleton.mp member]
      · exact fromHandler_nil _

theorem handleRequestRoomHistory_fromHandler (lib : Libraries) (root : Json)
    (uid : Str) : FromHandler uid (handleRequestRoomHistory lib root) := by
  unfold handleRequestRoomHistory
  split
  · exact fromHandler_nil _
  · intro action member
    rw [List.mem_singleton.mp member]
    trivial

theorem handleHelloMessage_fromHandler (lib : Libraries) (answers : Answers)
    (conn : Connection) :
    FromHandler conn.userid (handleHelloMessage lib answers conn) := by
  unfold handleHelloMessage
  split
  · exact fromHandler_nil _
  · intro action member
    rw [List.mem_singleton.mp member]
    trivial

/-- A payload that makes the server disconnect: no JSON, or no type. -/
def closes (lib : Libraries) (payload : Str) : Bool :=
  match lib.parse payload with
  | none => true
  | some root =>
      match root.get (ascii "type") with
      | some type => type.isNull
      | none => false

/-- A text frame either disconnects or runs one handler. -/
theorem onText_cases (lib : Libraries) (answers : Answers)
    (conn : Connection) (payload : Str) :
    (closes lib payload = true ∧
      onText lib answers conn payload = conn.disconnect) ∨
    (closes lib payload = false ∧
      (onText lib answers conn payload).1 = conn ∧
      FromHandler conn.userid (onText lib answers conn payload).2) := by
  cases parsed : lib.parse payload with
  | none => exact .inl (by simp [onText, closes, parsed])
  | some root =>
      cases found : root.get (ascii "type") with
      | none =>
          exact .inr (by simp [onText, closes, parsed, found, fromHandler_nil])
      | some type =>
          by_cases missing : type.isNull = true
          · exact .inl (by simp [onText, closes, parsed, found, missing])
          · right
            simp only [onText, closes, parsed, found, if_neg missing]
            refine ⟨by simpa using missing, ?_⟩
            split
            · exact ⟨rfl, fromHandler_nil _⟩
            · split
              · exact ⟨rfl, handleHelloMessage_fromHandler lib answers conn⟩
              · split
                · exact ⟨rfl,
                    handleClientMessages_fromHandler lib answers conn _⟩
                · split
                  · exact ⟨rfl, handleRequestRoomHistory_fromHandler lib _ _⟩
                  · exact ⟨rfl, fromHandler_nil _⟩

/-- The request a browser sends to open `/ws` for a user. -/
def upgradeRequest (uid : Str) : Str :=
  ascii "GET /ws?uid=" ++ uid ++ ascii " HTTP/1.1\r\n" ++
    ascii "Upgrade: websocket\r\nConnection: Upgrade\r\n" ++
    ascii "Sec-WebSocket-Key: dGhlIHNhbXBsZQ==\r\n\r\n"

end Connection

end ChatRoom
