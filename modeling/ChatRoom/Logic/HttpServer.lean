import ChatRoom.Lib.Run
import ChatRoom.Logic.Send

/-!
# The HTTP side of Logic

muduo calls `onMessage` with the bytes of every read, and `onMessage` takes
them for a whole request.  It answers them, passes them over in silence, or
lets an exception out, which ends the process.
-/

namespace ChatRoom

namespace Logic

/-- `PushMsg_Type`. -/
inductive PushMsgType where
  | push
  | room
  | broadcast
  deriving DecidableEq

/-- The fields of a protobuf `PushMsg` that are set. -/
structure PushMsgFields where
  type : PushMsgType
  operation : Int
  room : Str
  msg : Str

def PushMsg.fields (cpp : JsonCpp) (push : PushMsg) : PushMsgFields :=
  ⟨.room, 4, push.room, cpp.fastWrite push.messageWrapper⟩

/-- `init` may have failed. -/
structure KafkaProducer where
  isInitialized : Bool

/-- `sendMessage`; `produced` is whether `produce` reports no error. -/
def KafkaProducer.sendMessage (producer : KafkaProducer) (produced : Bool) :
    Bool :=
  if !producer.isInitialized then false else produced

namespace HttpServer

/-- The bytes of one read, and what the call meets: the clock, the results of
`SerializeToString` and of `produce`. -/
structure Read where
  data : Str
  clock : Nat → Nat
  serializes : Bool
  produced : Bool

/-- What `onMessage` does to the connection and to Kafka. -/
inductive Action where
  | send (response : Str)
  | sendMessage (pushMsg : PushMsgFields)
  | shutdown

def wrapJsonInHttpResponse (jsonContent : Str) : Str :=
  ascii "HTTP/1.1 200 OK\r\nContent-Type: application/json\r\n" ++
    ascii "Content-Length: " ++ decimal jsonContent.length ++
    ascii "\r\n\r\n" ++ jsonContent

def notFound : Str := ascii "HTTP/1.1 404 Not Found\r\nContent-Length: 0\r\n\r\n"

/-- The body is four bytes shorter than the length it is sent with. -/
def sendFailed : Str :=
  ascii "HTTP/1.1 500 Internal Server Error\r\n" ++
    ascii "Content-Type: application/json\r\nContent-Length: 31\r\n\r\n" ++
    ascii "\x7b\"status\": \"send failed\"\x7d\r\n"

def sendSucceeded : Str :=
  wrapJsonInHttpResponse (ascii "\x7b\"status\": \"success\"\x7d")

section Callback

variable (cpp : JsonCpp) (readerThrows : Str → Bool) (producer : KafkaProducer)

/-- The end of `handleSend`, from `SerializeToString` on. -/
def deliver (read : Read) (push : PushMsg) : List Action :=
  if read.serializes then
    if producer.sendMessage read.produced then
      [.sendMessage (push.fields cpp), .send sendSucceeded, .shutdown]
    else [.sendMessage (push.fields cpp), .send sendFailed]
  else [.send sendFailed]

/-- The check of the required fields. -/
def hasFields (json : Json) : Option Bool := do
  let hasRoom ← json.isMember (ascii "roomId")
  let hasUser ← json.isMember (ascii "userId")
  let hasName ← json.isMember (ascii "userName")
  let hasMessages ← json.isMember (ascii "messages")
  some (hasRoom && hasUser && hasName && hasMessages)

/-- The `PushMsg` of a body. -/
def pushMsgOf (clock : Nat → Nat) (json : Json) : Option PushMsg := do
  let room ← json.get (ascii "roomId") >>= (·.asString cpp)
  let messages ← json.get (ascii "messages")
  let objects ← messagesArray cpp clock json 0 messages.elements
  some ⟨room, objects⟩

/-- `handleSend`; `none` is an exception.  The reader of jsoncpp fails on a
text it cannot parse, and throws where the text nests too deep. -/
def handleSend (read : Read) : Option (List Action) :=
  match parseHttpRequest read.data with
  | none => some []
  | some (_, _, body) =>
      match cpp.parse body with
      | none => if readerThrows body then none else some []
      | some json =>
          match hasFields json with
          | none => none
          | some false => some []
          | some true =>
              (pushMsgOf cpp read.clock json).map (deliver cpp producer read)

/-- `onMessage`. -/
def onMessage (read : Read) : Option (List Action) :=
  match splitFirst (ascii "POST /logic/send") read.data with
  | none => some [.send notFound]
  | some _ => handleSend cpp readerThrows producer read

end Callback

/-- A connection of Logic, what was sent on it and what it handed to Kafka. -/
structure Connection where
  connected : Bool
  responses : List Str
  pushMsgs : List PushMsgFields

namespace Connection

def fresh : Connection := ⟨true, [], []⟩

/-- Behind `shutdown`, muduo drops what is sent. -/
def act (conn : Connection) : Action → Connection
  | .send response =>
      if conn.connected then
        { conn with responses := conn.responses ++ [response] }
      else conn
  | .sendMessage pushMsg =>
      { conn with pushMsgs := conn.pushMsgs ++ [pushMsg] }
  | .shutdown => { conn with connected := false }

end Connection

/-- One read.  An exception ends the run. -/
def step (cpp : JsonCpp) (readerThrows : Str → Bool) (producer : KafkaProducer)
    (conn : Connection) (read : Read) : Option Connection :=
  (onMessage cpp readerThrows producer read).map fun actions =>
    actions.foldl Connection.act conn

/-! ## Requests -/

def blankLine : Str := [Byte.cr, Byte.lf, Byte.cr, Byte.lf]

/-- A request to `POST /logic/send`.  `head` is what follows the path: the
version, and the header lines. -/
structure Request where
  head : Str
  body : Str
  hasVersion : Byte.space ∈ head
  endsHead : splitFirst blankLine
    (ascii "POST /logic/send" ++ head ++ blankLine ++ body) =
      some (ascii "POST /logic/send" ++ head, body)

def Request.text (request : Request) : Str :=
  ascii "POST /logic/send" ++ request.head ++ blankLine ++ request.body

/-- The bytes of a request, divided into reads. -/
structure Division (request : Request) where
  reads : List Read
  notEmpty : ∀ read ∈ reads, read.data ≠ []
  joined : (reads.map Read.data).flatten = request.text

def requiredFields : List Str :=
  [ascii "roomId", ascii "userId", ascii "userName", ascii "messages"]

section Bodies

variable (cpp : JsonCpp) (json : Json)

/-- An element of `messages` is an object or null, and a content of it
converts to a string. -/
def Readable (message : Json) : Prop :=
  message.isMember (ascii "content") = some false ∨
    message.isMember (ascii "content") = some true ∧
      (message.get (ascii "content") >>= (·.asString cpp)).isSome

/-- An object with the four fields, each of a type that `handleSend` can
use. -/
structure Usable : Prop where
  fields : ∀ name ∈ requiredFields, json.isMember name = some true
  roomId : (json.get (ascii "roomId") >>= (·.asString cpp)).isSome
  userId : (json.get (ascii "userId") >>= (·.asInt)).isSome
  userName : (json.get (ascii "userName") >>= (·.asString cpp)).isSome
  messages : ∀ messages, json.get (ascii "messages") = some messages →
    ∀ message ∈ messages.elements, Readable cpp message

/-- The body of a request is a usable object. -/
def UsableBody (body : Str) : Prop :=
  ∃ json, cpp.parse body = some json ∧ Usable cpp json

/-- What one turn of the loop needs: it looks at the user only for an element
with a content. -/
def CanTurn (message : Json) : Prop :=
  Readable cpp message ∧ (message.isMember (ascii "content") = some true →
    (json.get (ascii "userId") >>= (·.asInt)).isSome ∧
      (json.get (ascii "userName") >>= (·.asString cpp)).isSome)

/-- An object that `handleSend` gets through. -/
structure Sendable : Prop where
  fields : ∀ name ∈ requiredFields, json.isMember name = some true
  roomId : (json.get (ascii "roomId") >>= (·.asString cpp)).isSome
  messages : ∀ messages, json.get (ascii "messages") = some messages →
    ∀ message ∈ messages.elements, CanTurn cpp json message

/-- A field is missing from an object. -/
def LacksField : Prop :=
  ∃ name ∈ requiredFields, json.isMember name = some false

end Bodies

/-! ## Reads -/

section Reads

variable (cpp : JsonCpp) (readerThrows : Str → Bool) (producer : KafkaProducer)
  (read : Read)

/-- The read does not hold `POST /logic/send`. -/
def Refused : Prop := splitFirst (ascii "POST /logic/send") read.data = none

/-- The read, taken for a request, has no body to read or misses a field. -/
def PassedOver : Prop :=
  ¬Refused read ∧ (parseHttpRequest read.data = none ∨
    ∃ method path body, parseHttpRequest read.data = some (method, path, body) ∧
      (cpp.parse body = none ∧ readerThrows body = false ∨
        ∃ json, cpp.parse body = some json ∧ LacksField json))

/-- The read, taken for a request, has a body that can be sent on. -/
def Accepted : Prop :=
  ¬Refused read ∧ ∃ method path body json,
    parseHttpRequest read.data = some (method, path, body) ∧
      cpp.parse body = some json ∧ Sendable cpp json

/-- The read is answered, with a 404 or a 500, and nothing goes to Kafka. -/
def Rejected : Prop :=
  Refused read ∨ Accepted cpp read ∧ read.serializes = false

end Reads

section Runs

variable (cpp : JsonCpp) (readerThrows : Str → Bool) (producer : KafkaProducer)

/-- The request is answered once, no exception gets out, and one `PushMsg` is
handed to Kafka if the body is usable, and none otherwise. -/
def AnswersOnce (request : Request) (reads : List Read) : Prop :=
  ∃ final, Lib.exec (step cpp readerThrows producer) .fresh reads = some final ∧
    final.responses.length = 1 ∧
    (UsableBody cpp request.body → final.pushMsgs.length = 1) ∧
    (¬UsableBody cpp request.body → final.pushMsgs = [])

/-- One read is a request that can be sent on.  Those before it are passed
over, and so are those behind it, unless the connection is shut by then and
they are only rejected. -/
def SentOnce (reads : List Read) : Prop :=
  ∃ before read after, reads = before ++ read :: after ∧
    (∀ early ∈ before, PassedOver cpp readerThrows early) ∧
    Accepted cpp read ∧ read.serializes = true ∧
    ∀ late ∈ after, PassedOver cpp readerThrows late ∨
      producer.sendMessage read.produced = true ∧ Rejected cpp late

/-- One read is rejected, and the others are passed over. -/
def RejectedOnce (reads : List Read) : Prop :=
  ∃ before read after, reads = before ++ read :: after ∧
    (∀ early ∈ before, PassedOver cpp readerThrows early) ∧
    Rejected cpp read ∧ ∀ late ∈ after, PassedOver cpp readerThrows late

end Runs

/-! ## The body -/

section Body

variable {cpp : JsonCpp} {json : Json}

theorem Usable.sendable (usable : Usable cpp json) : Sendable cpp json where
  fields := usable.fields
  roomId := usable.roomId
  messages messages isMessages message member :=
    ⟨usable.messages messages isMessages message member,
      fun _ => ⟨usable.userId, usable.userName⟩⟩

theorem forall_requiredFields {property : Str → Prop} :
    (∀ name ∈ requiredFields, property name) ↔
      property (ascii "roomId") ∧ property (ascii "userId") ∧
        property (ascii "userName") ∧ property (ascii "messages") := by
  simp only [requiredFields, List.forall_mem_cons, List.not_mem_nil,
    false_imp_iff, implies_true, and_true]

/-- The check asks for every field. -/
theorem hasFields_eq_true_iff :
    hasFields json = some true ↔
      ∀ name ∈ requiredFields, json.isMember name = some true := by
  rw [forall_requiredFields]
  cases json with
  | object members => simp [hasFields, Json.isMember, and_assoc]
  | _ => simp [hasFields, Json.isMember]

theorem hasFields_eq_false_iff :
    hasFields json = some false ↔ LacksField json := by
  have present : LacksField json ↔
      ¬∀ name ∈ requiredFields, json.isMember name ≠ some false := by
    simp [LacksField]
  rw [present, forall_requiredFields]
  cases json with
  | object members =>
      simp only [hasFields, Json.isMember, Option.bind_eq_bind,
        Option.bind_some, Option.some.injEq, ne_eq]
      cases members.lookup (ascii "roomId") <;>
        cases members.lookup (ascii "userId") <;>
        cases members.lookup (ascii "userName") <;>
        cases members.lookup (ascii "messages") <;> simp
  | _ => simp [hasFields, Json.isMember]

theorem messageObj_isSome_iff (idTime stampTime : Nat) (message : Json) :
    (messageObj cpp idTime stampTime json message).isSome ↔
      (message.get (ascii "content") >>= (·.asString cpp)).isSome ∧
        (json.get (ascii "userId") >>= (·.asInt)).isSome ∧
        (json.get (ascii "userName") >>= (·.asString cpp)).isSome := by
  unfold messageObj
  generalize message.get (ascii "content") >>= (·.asString cpp) = content
  generalize json.get (ascii "userId") >>= (·.asInt) = userId
  generalize json.get (ascii "userName") >>= (·.asString cpp) = userName
  cases content with
  | none => simp
  | some content =>
      cases userId with
      | none => simp
      | some userId => cases userName <;> simp

theorem canTurn_of_absent {message : Json}
    (absent : message.isMember (ascii "content") = some false) :
    CanTurn cpp json message := by
  refine ⟨.inl absent, ?_⟩
  intro hasContent
  rw [absent] at hasContent
  cases hasContent

theorem canTurn_iff_of_present {message : Json}
    (present : message.isMember (ascii "content") = some true)
    (idTime stampTime : Nat) :
    CanTurn cpp json message ↔
      (messageObj cpp idTime stampTime json message).isSome := by
  rw [messageObj_isSome_iff]
  simp [CanTurn, Readable, present]

theorem not_canTurn_of_throws {message : Json}
    (throws : message.isMember (ascii "content") = none) :
    ¬CanTurn cpp json message := by
  simp [CanTurn, Readable, throws]

/-- The loop gets through exactly when each turn does. -/
theorem messagesArray_isSome_iff (clock : Nat → Nat) (turn : Nat)
    (messages : List Json) :
    (messagesArray cpp clock json turn messages).isSome ↔
      ∀ message ∈ messages, CanTurn cpp json message := by
  induction messages generalizing turn with
  | nil => simp [messagesArray]
  | cons message messages induction =>
      rw [List.forall_mem_cons]
      unfold messagesArray
      cases isMember : message.isMember (ascii "content") with
      | none => simp [not_canTurn_of_throws isMember]
      | some hasContent =>
          cases hasContent with
          | false =>
              simpa [canTurn_of_absent isMember] using induction turn
          | true =>
              rw [canTurn_iff_of_present isMember (clock (2 * turn))
                (clock (2 * turn + 1)), ← induction (turn + 1)]
              cases messageObj cpp (clock (2 * turn)) (clock (2 * turn + 1))
                json message with
              | none => simp
              | some object =>
                  cases messagesArray cpp clock json (turn + 1) messages <;>
                    simp

/-- A body with the fields is sent on exactly when it can be. -/
theorem pushMsgOf_isSome_iff (clock : Nat → Nat)
    (fields : ∀ name ∈ requiredFields, json.isMember name = some true) :
    (pushMsgOf cpp clock json).isSome ↔ Sendable cpp json := by
  obtain ⟨-, -, -, hasMessages⟩ := forall_requiredFields.mp fields
  have isSome : ∃ messages, json.get (ascii "messages") = some messages := by
    cases json with
    | object members => exact ⟨_, rfl⟩
    | null => exact ⟨_, rfl⟩
    | _ => cases hasMessages
  obtain ⟨messages, isMessages⟩ := isSome
  have whole : Sendable cpp json ↔
      (json.get (ascii "roomId") >>= (·.asString cpp)).isSome ∧
        ∀ message ∈ messages.elements, CanTurn cpp json message := by
    constructor
    · intro sendable
      exact ⟨sendable.roomId, sendable.messages messages isMessages⟩
    · rintro ⟨roomId, turns⟩
      refine ⟨fields, roomId, ?_⟩
      intro other isOther
      rw [isMessages] at isOther
      cases isOther
      exact turns
  rw [whole, ← messagesArray_isSome_iff clock 0]
  unfold pushMsgOf
  generalize json.get (ascii "roomId") >>= (·.asString cpp) = room
  simp only [isMessages, Option.bind_eq_bind, Option.bind_some]
  cases room with
  | none => simp
  | some room =>
      cases messagesArray cpp clock json 0 messages.elements <;> simp

end Body

/-! ## One call -/

section Call

variable {cpp : JsonCpp} {readerThrows : Str → Bool} {producer : KafkaProducer}
  {read : Read}

theorem onMessage_of_refused (refused : Refused read) :
    onMessage cpp readerThrows producer read = some [.send notFound] := by
  have noMarker : splitFirst (ascii "POST /logic/send") read.data = none :=
    refused
  simp only [onMessage, noMarker]

theorem onMessage_of_not_refused (taken : ¬Refused read) :
    onMessage cpp readerThrows producer read =
      handleSend cpp readerThrows producer read := by
  unfold onMessage
  split
  · rename_i noMarker
    exact absurd noMarker taken
  · rfl

theorem onMessage_of_passedOver (passed : PassedOver cpp readerThrows read) :
    onMessage cpp readerThrows producer read = some [] := by
  obtain ⟨taken, reason⟩ := passed
  rw [onMessage_of_not_refused taken]
  rcases reason with noRequest | ⟨method, path, body, parsed, noBody⟩
  · simp only [handleSend, noRequest]
  · rcases noBody with ⟨noJson, returns⟩ | ⟨json, isJson, lacks⟩
    · simp only [handleSend, parsed, noJson, returns, Bool.false_eq_true,
        if_false]
    · have noField := hasFields_eq_false_iff.mpr lacks
      simp only [handleSend, parsed, isJson, noField]

theorem onMessage_of_accepted (readerThrows : Str → Bool)
    (producer : KafkaProducer) (accepted : Accepted cpp read) :
    ∃ push, onMessage cpp readerThrows producer read =
      some (deliver cpp producer read push) := by
  obtain ⟨taken, method, path, body, json, parsed, isJson, sendable⟩ := accepted
  have fields := hasFields_eq_true_iff.mpr sendable.fields
  obtain ⟨push, built⟩ := Option.isSome_iff_exists.mp
    ((pushMsgOf_isSome_iff read.clock sendable.fields).mpr sendable)
  refine ⟨push, ?_⟩
  rw [onMessage_of_not_refused taken]
  simp only [handleSend, parsed, isJson, fields, built, Option.map_some]

/-- What is neither answered nor passed over ends in an exception. -/
theorem onMessage_cases (cpp : JsonCpp) (readerThrows : Str → Bool)
    (producer : KafkaProducer) (read : Read) :
    Refused read ∨ PassedOver cpp readerThrows read ∨ Accepted cpp read ∨
      onMessage cpp readerThrows producer read = none := by
  by_cases refused : Refused read
  · exact .inl refused
  · rw [onMessage_of_not_refused refused]
    unfold handleSend
    split
    · rename_i noRequest
      exact .inr (.inl ⟨refused, .inl noRequest⟩)
    · rename_i method path body parsed
      split
      · rename_i noJson
        cases throws : readerThrows body with
        | true => exact .inr (.inr (.inr rfl))
        | false =>
            exact .inr (.inl ⟨refused, .inr ⟨method, path, body, parsed,
              .inl ⟨noJson, throws⟩⟩⟩)
      · rename_i json isJson
        split
        · exact .inr (.inr (.inr rfl))
        · rename_i noField
          exact .inr (.inl ⟨refused, .inr ⟨method, path, body, parsed,
            .inr ⟨json, isJson, hasFields_eq_false_iff.mp noField⟩⟩⟩)
        · rename_i hasAll
          have fields := hasFields_eq_true_iff.mp hasAll
          by_cases sendable : Sendable cpp json
          · exact .inr (.inr (.inl ⟨refused, method, path, body, json, parsed,
              isJson, sendable⟩))
          · have throws := mt (pushMsgOf_isSome_iff read.clock fields).mp
              sendable
            rw [Option.not_isSome_iff_eq_none.mp throws]
            exact .inr (.inr (.inr rfl))

/-- The connection behind a call that handed a `PushMsg` to Kafka. -/
def afterSending (producer : KafkaProducer) (read : Read) (conn : Connection)
    (pushMsg : PushMsgFields) (response : Str) : Connection :=
  let answered := (conn.act (.sendMessage pushMsg)).act (.send response)
  { answered with
    connected := conn.connected && !producer.sendMessage read.produced }

theorem step_of_passedOver (passed : PassedOver cpp readerThrows read)
    (conn : Connection) :
    step cpp readerThrows producer conn read = some conn := by
  simp only [step, onMessage_of_passedOver passed, Option.map_some,
    List.foldl_nil]

theorem step_of_rejected (readerThrows : Str → Bool)
    (producer : KafkaProducer) (rejected : Rejected cpp read)
    (conn : Connection) :
    ∃ response, step cpp readerThrows producer conn read =
      some (conn.act (.send response)) := by
  rcases rejected with refused | ⟨accepted, fails⟩
  · refine ⟨notFound, ?_⟩
    simp only [step, onMessage_of_refused refused, Option.map_some,
      List.foldl_cons, List.foldl_nil]
  · obtain ⟨push, called⟩ := onMessage_of_accepted readerThrows producer
      accepted
    refine ⟨sendFailed, ?_⟩
    simp only [step, called, deliver, fails, Bool.false_eq_true, if_false,
      Option.map_some, List.foldl_cons, List.foldl_nil]

theorem step_of_accepted (readerThrows : Str → Bool)
    (producer : KafkaProducer) (accepted : Accepted cpp read)
    (serializes : read.serializes = true) (conn : Connection) :
    ∃ pushMsg response, step cpp readerThrows producer conn read =
      some (afterSending producer read conn pushMsg response) := by
  obtain ⟨push, called⟩ := onMessage_of_accepted readerThrows producer
    accepted
  cases sent : producer.sendMessage read.produced with
  | true =>
      refine ⟨push.fields cpp, sendSucceeded, ?_⟩
      simp only [step, called, deliver, serializes, sent, afterSending]
      cases isOpen : conn.connected <;> simp [Connection.act, isOpen]
  | false =>
      refine ⟨push.fields cpp, sendFailed, ?_⟩
      simp only [step, called, deliver, serializes, sent, afterSending]
      cases isOpen : conn.connected <;> simp [Connection.act, isOpen]

/-- All that a call can do. -/
theorem step_cases (cpp : JsonCpp) (readerThrows : Str → Bool)
    (producer : KafkaProducer) (conn : Connection) (read : Read) :
    (PassedOver cpp readerThrows read ∧
      step cpp readerThrows producer conn read = some conn) ∨
    (Rejected cpp read ∧ ∃ response,
      step cpp readerThrows producer conn read =
        some (conn.act (.send response))) ∨
    (Accepted cpp read ∧ read.serializes = true ∧ ∃ pushMsg response,
      step cpp readerThrows producer conn read =
        some (afterSending producer read conn pushMsg response)) ∨
    step cpp readerThrows producer conn read = none := by
  rcases onMessage_cases cpp readerThrows producer read with
    refused | passed | accepted | throws
  · exact .inr (.inl ⟨.inl refused, step_of_rejected _ _ (.inl refused) conn⟩)
  · exact .inl ⟨passed, step_of_passedOver passed conn⟩
  · cases serializes : read.serializes with
    | true =>
        exact .inr (.inr (.inl ⟨accepted, rfl,
          step_of_accepted _ _ accepted serializes conn⟩))
    | false =>
        have rejected : Rejected cpp read := .inr ⟨accepted, serializes⟩
        exact .inr (.inl ⟨rejected, step_of_rejected _ _ rejected conn⟩)
  · refine .inr (.inr (.inr ?_))
    simp only [step, throws, Option.map_none]

end Call

/-! ## What goes to Kafka -/

/-- The messages that a call hands to `KafkaProducer::sendMessage`. -/
def handed (actions : List Action) : List PushMsgFields :=
  actions.filterMap fun action =>
    match action with
    | .sendMessage pushMsg => some pushMsg
    | _ => none

theorem handed_deliver (cpp : JsonCpp) (producer : KafkaProducer) {read : Read}
    (serializes : read.serializes = true) (push : PushMsg) :
    handed (deliver cpp producer read push) = [push.fields cpp] := by
  rw [deliver, if_pos serializes]
  split <;> rfl

/-- The two models of `handleSend` make the same `PushMsg`. -/
theorem handleSend_eq (cpp : JsonCpp) (clock : Nat → Nat) (request : Str) :
    Logic.handleSend cpp clock request =
      (parseHttpRequest request).bind fun (_, _, body) =>
        (cpp.parse body).bind fun json => (hasFields json).bind fun hasAll =>
          if hasAll then pushMsgOf cpp clock json else none := by
  simp only [Logic.handleSend, hasFields, pushMsgOf, Option.bind_eq_bind,
    Option.bind_assoc, Option.bind_some]

/-- A call hands on what `Logic.onMessage` makes of its bytes. -/
theorem handed_onMessage (cpp : JsonCpp) (readerThrows : Str → Bool)
    (producer : KafkaProducer) (read : Read)
    (serializes : read.serializes = true) :
    handed ((onMessage cpp readerThrows producer read).getD []) =
      ((Logic.onMessage cpp read.clock read.data).map
        (·.fields cpp)).toList := by
  cases marker : splitFirst (ascii "POST /logic/send") read.data with
  | none => simp [onMessage, Logic.onMessage, marker, handed]
  | some found =>
      simp only [onMessage, Logic.onMessage, marker, handleSend_eq, handleSend]
      cases parsed : parseHttpRequest read.data with
      | none => rfl
      | some request =>
          obtain ⟨method, path, body⟩ := request
          cases isJson : cpp.parse body with
          | none =>
              simp only [isJson, Option.bind_some, Option.bind_none]
              split <;> rfl
          | some json =>
              cases hasAll : hasFields json with
              | none => simp [isJson, hasAll, handed]
              | some all =>
                  cases all with
                  | false => simp [isJson, hasAll, handed]
                  | true =>
                      cases made : pushMsgOf cpp read.clock json with
                      | none => simp [isJson, hasAll, made, handed]
                      | some push =>
                          simp [isJson, hasAll, made,
                            handed_deliver cpp producer serializes]

/-! ## Runs -/

namespace Connection

/-- A connection with more responses and more messages handed on. -/
def Grows (before after : Connection) : Prop :=
  before.responses.length ≤ after.responses.length ∧
    before.pushMsgs.length ≤ after.pushMsgs.length

theorem act_grows (conn : Connection) (action : Action) :
    Grows conn (conn.act action) := by
  cases action with
  | send response =>
      cases isOpen : conn.connected <;> simp [Grows, act, isOpen]
  | sendMessage pushMsg => simp [Grows, act]
  | shutdown => simp [Grows, act]

theorem act_send_of_shut {conn : Connection} (shut : conn.connected = false)
    (response : Str) : conn.act (.send response) = conn := by
  simp [act, shut]

theorem length_act_send {conn : Connection} (isOpen : conn.connected = true)
    (response : Str) :
    (conn.act (.send response)).responses.length =
      conn.responses.length + 1 := by
  simp [act, isOpen]

end Connection

section Run

open Connection

variable {cpp : JsonCpp} {readerThrows : Str → Bool} {producer : KafkaProducer}

theorem step_grows {conn next : Connection} {read : Read}
    (taken : step cpp readerThrows producer conn read = some next) :
    Grows conn next := by
  simp only [step, Option.map_eq_some_iff] at taken
  obtain ⟨actions, -, rfl⟩ := taken
  induction actions generalizing conn with
  | nil => exact ⟨Nat.le_refl _, Nat.le_refl _⟩
  | cons action actions induction =>
      have first := act_grows conn action
      have later : Grows (conn.act action)
          (actions.foldl act (conn.act action)) := induction
      exact ⟨first.1.trans later.1, first.2.trans later.2⟩

/-- Nothing that was sent or handed on is taken back. -/
theorem exec_grows {conn final : Connection} {reads : List Read}
    (run : Lib.exec (step cpp readerThrows producer) conn reads = some final) :
    Grows conn final := by
  refine Lib.exec_invariant ?_ ⟨Nat.le_refl _, Nat.le_refl _⟩ run
  intro state next read grown taken
  have more := step_grows taken
  exact ⟨grown.1.trans more.1, grown.2.trans more.2⟩

/-- A read that changes nothing: on a shut connection a rejection is not
sent. -/
def Idle (cpp : JsonCpp) (readerThrows : Str → Bool) (conn : Connection)
    (read : Read) : Prop :=
  PassedOver cpp readerThrows read ∨
    conn.connected = false ∧ Rejected cpp read

theorem step_of_idle {conn : Connection} {read : Read}
    (idle : Idle cpp readerThrows conn read) :
    step cpp readerThrows producer conn read = some conn := by
  rcases idle with passed | ⟨shut, rejected⟩
  · exact step_of_passedOver passed conn
  · obtain ⟨response, taken⟩ := step_of_rejected readerThrows producer
      rejected conn
    rw [taken, act_send_of_shut shut]

theorem exec_of_idle {conn : Connection} {reads : List Read}
    (idle : ∀ read ∈ reads, Idle cpp readerThrows conn read) :
    Lib.exec (step cpp readerThrows producer) conn reads = some conn := by
  induction reads with
  | nil => rfl
  | cons read reads induction =>
      rw [List.forall_mem_cons] at idle
      rw [Lib.exec_cons_of_some (step_of_idle idle.1)]
      exact induction idle.2

theorem length_responses_afterSending {conn : Connection} {read : Read}
    (isOpen : conn.connected = true) (pushMsg : PushMsgFields)
    (response : Str) :
    (afterSending producer read conn pushMsg response).responses.length =
      conn.responses.length + 1 := by
  simp [afterSending, act, isOpen]

theorem length_pushMsgs_afterSending (conn : Connection) (read : Read)
    (pushMsg : PushMsgFields) (response : Str) :
    (afterSending producer read conn pushMsg response).pushMsgs.length =
      conn.pushMsgs.length + 1 := by
  cases isOpen : conn.connected <;> simp [afterSending, act, isOpen]

/-- Reads that add no response and, on a shut connection, no message, are
idle. -/
theorem idle_of_exec {conn final : Connection} {reads : List Read}
    (run : Lib.exec (step cpp readerThrows producer) conn reads = some final)
    (sameResponses : final.responses.length = conn.responses.length)
    (samePushMsgs : conn.connected = false →
      final.pushMsgs.length = conn.pushMsgs.length) :
    ∀ read ∈ reads, Idle cpp readerThrows conn read := by
  induction reads with
  | nil => simp
  | cons read reads induction =>
      obtain ⟨next, taken, rest⟩ := Lib.exec_cons_iff.mp run
      have grows := exec_grows rest
      have idle : Idle cpp readerThrows conn read := by
        rcases step_cases cpp readerThrows producer conn read with
          ⟨passed, -⟩ | ⟨rejected, response, isNext⟩ |
            ⟨-, -, pushMsg, response, isNext⟩ | throws
        · exact .inl passed
        · rw [taken, Option.some.injEq] at isNext
          cases isOpen : conn.connected with
          | true =>
              have longer := grows.1
              rw [isNext, length_act_send isOpen] at longer
              omega
          | false => exact .inr ⟨isOpen, rejected⟩
        · rw [taken, Option.some.injEq] at isNext
          cases isOpen : conn.connected with
          | true =>
              have longer := grows.1
              rw [isNext, length_responses_afterSending isOpen] at longer
              omega
          | false =>
              have longer := grows.2
              have same := samePushMsgs isOpen
              rw [isNext, length_pushMsgs_afterSending] at longer
              omega
        · rw [taken] at throws
          cases throws
      rw [List.forall_mem_cons]
      refine ⟨idle, ?_⟩
      rw [Lib.exec_cons_of_some (step_of_idle idle)] at run
      exact induction run

/-- The first read that is not passed over. -/
theorem first_answer {final : Connection} {reads : List Read}
    (run : Lib.exec (step cpp readerThrows producer) .fresh reads = some final)
    (answered : final.responses.length = 1) :
    ∃ before read after next, reads = before ++ read :: after ∧
      (∀ early ∈ before, PassedOver cpp readerThrows early) ∧
      Lib.exec (step cpp readerThrows producer) next after = some final ∧
      ((Rejected cpp read ∧
          ∃ response, next = Connection.fresh.act (.send response)) ∨
        (Accepted cpp read ∧ read.serializes = true ∧ ∃ pushMsg response,
          next = afterSending producer read .fresh pushMsg response)) := by
  induction reads with
  | nil =>
      cases run
      cases answered
  | cons read reads induction =>
      obtain ⟨next, taken, rest⟩ := Lib.exec_cons_iff.mp run
      rcases step_cases cpp readerThrows producer .fresh read with
        ⟨passed, isNext⟩ | ⟨rejected, response, isNext⟩ |
          ⟨accepted, serializes, pushMsg, response, isNext⟩ | throws
      · rw [taken, Option.some.injEq] at isNext
        rw [isNext] at rest
        obtain ⟨before, first, after, next, rfl, early, later, kind⟩ :=
          induction rest
        refine ⟨read :: before, first, after, next, rfl, ?_, later, kind⟩
        rw [List.forall_mem_cons]
        exact ⟨passed, early⟩
      · rw [taken, Option.some.injEq] at isNext
        exact ⟨[], read, reads, next, rfl, by simp, rest,
          .inl ⟨rejected, response, isNext⟩⟩
      · rw [taken, Option.some.injEq] at isNext
        exact ⟨[], read, reads, next, rfl, by simp, rest,
          .inr ⟨accepted, serializes, pushMsg, response, isNext⟩⟩
      · rw [taken] at throws
        cases throws

/-- The runs with one response and one message. -/
theorem sentOnce_iff {reads : List Read} :
    (∃ final, Lib.exec (step cpp readerThrows producer) .fresh reads =
        some final ∧ final.responses.length = 1 ∧ final.pushMsgs.length = 1) ↔
      SentOnce cpp readerThrows producer reads := by
  constructor
  · rintro ⟨final, run, answered, sent⟩
    obtain ⟨before, read, after, next, rfl, early, rest, kind⟩ :=
      first_answer run answered
    rcases kind with ⟨-, response, rfl⟩ |
      ⟨accepted, serializes, pushMsg, response, rfl⟩
    · -- A rejection leaves the connection open, so that a message would be
      -- answered too.
      have idle := idle_of_exec rest (by rw [answered]; rfl) (by
        intro shut
        cases shut)
      rw [exec_of_idle idle] at rest
      cases rest
      cases sent
    · refine ⟨before, read, after, rfl, early, accepted, serializes, ?_⟩
      intro late member
      have idle := idle_of_exec rest (by rw [answered]; rfl)
        (by intro _; rw [sent]; rfl) late member
      rcases idle with passed | ⟨shut, rejected⟩
      · exact .inl passed
      · refine .inr ⟨?_, rejected⟩
        simpa [afterSending, Connection.fresh] using shut
  · rintro ⟨before, read, after, rfl, early, accepted, serializes, late⟩
    obtain ⟨pushMsg, response, taken⟩ := step_of_accepted readerThrows
      producer accepted serializes .fresh
    refine ⟨afterSending producer read .fresh pushMsg response, ?_, rfl, rfl⟩
    rw [Lib.exec_append, exec_of_idle fun read member => .inl (early read member),
      Option.bind_some, Lib.exec_cons_of_some taken]
    apply exec_of_idle
    intro other member
    rcases late other member with passed | ⟨sent, rejected⟩
    · exact .inl passed
    · refine .inr ⟨?_, rejected⟩
      simp [afterSending, sent]

/-- The runs with one response and no message. -/
theorem rejectedOnce_iff {reads : List Read} :
    (∃ final, Lib.exec (step cpp readerThrows producer) .fresh reads =
        some final ∧ final.responses.length = 1 ∧ final.pushMsgs = []) ↔
      RejectedOnce cpp readerThrows reads := by
  constructor
  · rintro ⟨final, run, answered, nothing⟩
    obtain ⟨before, read, after, next, rfl, early, rest, kind⟩ :=
      first_answer run answered
    rcases kind with ⟨rejected, response, rfl⟩ |
      ⟨accepted, serializes, pushMsg, response, rfl⟩
    · refine ⟨before, read, after, rfl, early, rejected, ?_⟩
      intro late member
      have idle := idle_of_exec rest (by rw [answered]; rfl)
        (by intro _; rw [nothing]; rfl) late member
      rcases idle with passed | ⟨shut, -⟩
      · exact passed
      · cases shut
    · have longer := (exec_grows rest).2
      rw [length_pushMsgs_afterSending, nothing] at longer
      cases longer
  · rintro ⟨before, read, after, rfl, early, rejected, late⟩
    obtain ⟨response, taken⟩ := step_of_rejected readerThrows producer rejected
      .fresh
    refine ⟨Connection.fresh.act (.send response), ?_, rfl, rfl⟩
    rw [Lib.exec_append, exec_of_idle fun read member => .inl (early read member),
      Option.bind_some, Lib.exec_cons_of_some taken]
    exact exec_of_idle fun read member => .inl (late read member)

end Run

/-! ## A request in one piece -/

/-- The parser finds the body of a request. -/
theorem parseHttpRequest_text (request : Request) :
    ∃ method path, parseHttpRequest request.text =
      some (method, path, request.body) := by
  have start : ascii "POST /logic/send" =
      ascii "POST" ++ Byte.space :: ascii "/logic/send" := by rfl
  have firstSpace : splitFirst [Byte.space] request.text =
      some (ascii "POST", ascii "/logic/send" ++ request.head ++ blankLine ++
        request.body) := by
    rw [Request.text, start]
    simp only [List.append_assoc, List.cons_append]
    exact splitFirst_byte (by decide) _
  have hasSpace : Byte.space ∈ ascii "/logic/send" ++ request.head ++
      blankLine ++ request.body := by
    simp [request.hasVersion]
  obtain ⟨⟨path, behind⟩, secondSpace⟩ :=
    Option.isSome_iff_exists.mp (splitFirst_isSome_of_mem hasSpace)
  have atBlankLine : splitFirst [Byte.cr, Byte.lf, Byte.cr, Byte.lf]
      request.text = some (ascii "POST /logic/send" ++ request.head,
        request.body) := request.endsHead
  refine ⟨ascii "POST", path, ?_⟩
  simp only [parseHttpRequest, firstSpace, secondSpace, atBlankLine,
    Option.bind_eq_bind, Option.bind_some]

theorem not_refused_of_text {request : Request} {read : Read}
    (whole : read.data = request.text) : ¬Refused read := by
  intro refused
  have found := splitFirst_append_self
    (by decide : ascii "POST /logic/send" ≠ [])
    (request.head ++ blankLine ++ request.body)
  rw [Refused, whole, Request.text] at refused
  simp only [List.append_assoc] at found refused
  rw [refused] at found
  cases found

/-- In one piece, a request is answered once exactly when its body is
usable. -/
theorem answersOnce_whole_iff (cpp : JsonCpp) (readerThrows : Str → Bool)
    (producer : KafkaProducer) (request : Request) (read : Read)
    (whole : read.data = request.text) (serializes : read.serializes = true) :
    AnswersOnce cpp readerThrows producer request [read] ↔
      UsableBody cpp request.body := by
  obtain ⟨method, path, parsed⟩ := parseHttpRequest_text request
  rw [← whole] at parsed
  have taken := not_refused_of_text whole
  constructor
  · rintro ⟨final, run, answered, -, ifNot⟩
    by_contra unusable
    obtain ⟨before, first, after, same, -, rejected, -⟩ :=
      rejectedOnce_iff.mp ⟨final, run, answered, ifNot unusable⟩
    have only : before = [] ∧ first = read := by
      cases before with
      | nil => exact ⟨rfl, (List.cons.inj same).1.symm⟩
      | cons early before => simp at same
    rw [only.2] at rejected
    rcases rejected with refused | ⟨-, fails⟩
    · exact taken refused
    · rw [serializes] at fails
      cases fails
  · intro usable
    obtain ⟨json, isJson, isUsable⟩ := usable
    have accepted : Accepted cpp read :=
      ⟨taken, method, path, request.body, json, parsed, isJson,
        isUsable.sendable⟩
    have sentOnce : SentOnce cpp readerThrows producer [read] :=
      ⟨[], read, [], rfl, by simp, accepted, serializes, by simp⟩
    obtain ⟨final, run, answered, sent⟩ := sentOnce_iff.mpr sentOnce
    refine ⟨final, run, answered, fun _ => sent, ?_⟩
    intro unusable
    exact absurd ⟨json, isJson, isUsable⟩ unusable

/-! ## A request in any number of pieces -/

/-- Which divisions of a request are answered once. -/
theorem answersOnce_iff (cpp : JsonCpp) (readerThrows : Str → Bool)
    (producer : KafkaProducer) (request : Request)
    (division : Division request) :
    AnswersOnce cpp readerThrows producer request division.reads ↔
      UsableBody cpp request.body ∧
          SentOnce cpp readerThrows producer division.reads ∨
        ¬UsableBody cpp request.body ∧
          RejectedOnce cpp readerThrows division.reads := by
  by_cases usable : UsableBody cpp request.body
  · simp only [AnswersOnce, usable, true_implies, not_true_eq_false,
      false_implies, and_true, true_and, false_and, or_false]
    exact sentOnce_iff
  · simp only [AnswersOnce, usable, false_implies, not_false_eq_true,
      true_implies, true_and, false_and, false_or]
    exact rejectedOnce_iff

/-- A reader that knows the empty object. -/
def emptyReader : JsonCpp where
  parse text := if text = ascii "\x7b\x7d" then some (.object []) else none
  writeString _ := []
  fastWrite _ := []
  realText _ := []

def emptyRequest : Request where
  head := ascii " HTTP/1.1\r\nContent-Length: 2"
  body := ascii "\x7b\x7d"
  hasVersion := by decide
  endsHead := by decide +kernel

def emptyDivision : Division emptyRequest where
  reads := [⟨emptyRequest.text, fun _ => 0, true, true⟩]
  notEmpty := by
    intro read member
    rw [List.mem_singleton.mp member]
    decide +kernel
  joined := by simp

/-- A request without the fields gets no response. -/
theorem empty_object_is_not_answered :
    ¬AnswersOnce emptyReader (fun _ => false) ⟨true⟩ emptyRequest
      emptyDivision.reads := by
  intro answers
  obtain ⟨json, isJson, usable⟩ := (answersOnce_whole_iff emptyReader
    (fun _ => false) ⟨true⟩ emptyRequest _ rfl rfl).mp answers
  have isEmpty : emptyReader.parse emptyRequest.body = some (.object []) := by
    simp only [emptyReader, emptyRequest, if_true]
  rw [isEmpty, Option.some.injEq] at isJson
  have isRoom := (forall_requiredFields.mp usable.fields).1
  rw [← isJson] at isRoom
  cases isRoom

end HttpServer

end Logic

end ChatRoom
