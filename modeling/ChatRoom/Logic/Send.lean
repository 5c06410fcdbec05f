import ChatRoom.Base.Json

/-!
# The Logic server

`handleSend` turns the request of a chat server into a `PushMsg` for Kafka.
It numbers the messages itself, by its own clock.
-/

namespace ChatRoom

namespace Logic

/-- `HttpParser::parseHttpRequest`: method, path and body. -/
def parseHttpRequest (request : Str) : Option (Str × Str × Str) := do
  let (method, behind) ← splitFirst [Byte.space] request
  let (path, _) ← splitFirst [Byte.space] behind
  match splitFirst [Byte.cr, Byte.lf, Byte.cr, Byte.lf] request with
  | none => some (method, path, [])
  | some (_, body) => some (method, path, body)

/-- The id of a message: the clock in milliseconds. -/
def messageId (microSeconds : Nat) : Str :=
  decimal (microSeconds / 1000) ++ ascii "-0"

/-- One turn of the loop over the messages, for a message with a content. -/
def messageObj (cpp : JsonCpp) (idTime stampTime : Nat) (json message : Json) :
    Option Json := do
  let content ← message.get (ascii "content") >>= (·.asString cpp)
  let userId ← json.get (ascii "userId") >>= (·.asInt)
  let userName ← json.get (ascii "userName") >>= (·.asString cpp)
  some (.object [
    (ascii "content", .string content),
    (ascii "id", .string (messageId idTime)),
    (ascii "timestamp", .int (stampTime / 1000 : Nat)),
    (ascii "user", .object [
      (ascii "id", .int userId), (ascii "username", .string userName)])])

/-- The loop over the messages.  `clock` gives the readings of
`Timestamp::now`, two for each message. -/
def messagesArray (cpp : JsonCpp) (clock : Nat → Nat) (json : Json) :
    Nat → List Json → Option (List Json)
  | _, [] => some []
  | turn, message :: messages => do
      let hasContent ← message.isMember (ascii "content")
      if hasContent then
        let object ← messageObj cpp (clock (2 * turn)) (clock (2 * turn + 1))
          json message
        let objects ← messagesArray cpp clock json (turn + 1) messages
        some (object :: objects)
      else messagesArray cpp clock json turn messages

/-- The room and the messages of a `PushMsg`. -/
structure PushMsg where
  room : Str
  messages : List Json

/-- The value whose text is the `msg` of a `PushMsg`. -/
def PushMsg.messageWrapper (push : PushMsg) : Json :=
  .object [
    (ascii "payload", .object [
      (ascii "messages", .array push.messages),
      (ascii "roomId", .string push.room)]),
    (ascii "type", .string (ascii "serverMessages"))]

/-- `handleSend`, up to what it hands to Kafka: `none` when it returns early
or throws. -/
def handleSend (cpp : JsonCpp) (clock : Nat → Nat) (request : Str) :
    Option PushMsg := do
  let (_, _, body) ← parseHttpRequest request
  let json ← cpp.parse body
  let hasRoom ← json.isMember (ascii "roomId")
  let hasUser ← json.isMember (ascii "userId")
  let hasName ← json.isMember (ascii "userName")
  let hasMessages ← json.isMember (ascii "messages")
  if hasRoom && hasUser && hasName && hasMessages then
    let room ← json.get (ascii "roomId") >>= (·.asString cpp)
    let messages ← json.get (ascii "messages")
    let objects ← messagesArray cpp clock json 0 messages.elements
    some ⟨room, objects⟩
  else none

/-- `onMessage`: any other request gets a 404. -/
def onMessage (cpp : JsonCpp) (clock : Nat → Nat) (request : Str) :
    Option PushMsg :=
  match splitFirst (ascii "POST /logic/send") request with
  | none => none
  | some _ => handleSend cpp clock request

/-- The `id` of a message, if it is a string. -/
def idOf (message : Json) : Option Str :=
  match message.get (ascii "id") with
  | some (.string id) => some id
  | _ => none

theorem idOf_messageObj {cpp : JsonCpp} {idTime stampTime : Nat}
    {json message object : Json}
    (built : messageObj cpp idTime stampTime json message = some object) :
    idOf object = some (messageId idTime) := by
  simp only [messageObj, Option.bind_eq_bind, Option.bind_eq_some_iff,
    Option.some.injEq] at built
  obtain ⟨content, -, userId, -, userName, -, rfl⟩ := built
  have skips : (ascii "id" == ascii "content") = false := by decide
  simp [idOf, Json.get, List.lookup_cons, skips]

/-- The ids of the messages are the readings of Logic's clock. -/
theorem idOf_messagesArray {cpp : JsonCpp} {clock : Nat → Nat} {json : Json}
    {turn : Nat} {messages objects : List Json}
    (built : messagesArray cpp clock json turn messages = some objects) :
    objects.map idOf = (List.range objects.length).map fun index =>
      some (messageId (clock (2 * (turn + index)))) := by
  induction messages generalizing turn objects with
  | nil =>
      simp only [messagesArray, Option.some.injEq] at built
      rw [← built]
      rfl
  | cons message messages induction =>
      simp only [messagesArray, Option.bind_eq_bind,
        Option.bind_eq_some_iff] at built
      obtain ⟨hasContent, -, built⟩ := built
      split at built
      · simp only [Option.bind_eq_some_iff, Option.some.injEq] at built
        obtain ⟨object, first, later, rest, rfl⟩ := built
        rw [List.map_cons, idOf_messageObj first, induction rest,
          List.length_cons, List.range_succ_eq_map, List.map_cons,
          List.map_map]
        simp [Function.comp_def, Nat.add_assoc, Nat.add_comm 1]
      · exact induction built

theorem idOf_onMessage {cpp : JsonCpp} {clock : Nat → Nat} {request : Str}
    {push : PushMsg} (made : onMessage cpp clock request = some push) :
    push.messages.map idOf = (List.range push.messages.length).map fun index =>
      some (messageId (clock (2 * index))) := by
  unfold onMessage at made
  split at made
  · cases made
  · simp only [handleSend, Option.bind_eq_bind, Option.bind_eq_some_iff] at made
    obtain ⟨⟨method, path, body⟩, -, json, -, hasRoom, -, hasUser, -, hasName, -,
      hasMessages, -, made⟩ := made
    split at made
    · simp only [Option.bind_eq_some_iff, Option.some.injEq] at made
      obtain ⟨room, -, messages, -, objects, built, rfl⟩ := made
      simpa using idOf_messagesArray built
    · cases made

end Logic

end ChatRoom
