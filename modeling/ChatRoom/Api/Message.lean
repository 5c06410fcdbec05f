import ChatRoom.Base.Json

/-!
# Messages and their JSON texts

What `SerializeMessageToJson` and `ApiStoreMessageTiered` write, and the checks
`ApiGetRoomHistory` makes on what it reads.
-/

namespace ChatRoom

structure Message where
  id : Str
  content : Str
  timestamp : Nat
  userId : Str
  deriving DecidableEq

structure MessageBatch where
  messages : List Message
  hasMore : Bool
  deriving DecidableEq

namespace Message

/-- The value `SerializeMessageToJson` writes. -/
def payloadJson (message : Message) : Json :=
  .object [
    (ascii "content", .string message.content),
    (ascii "timestamp", .int message.timestamp),
    (ascii "user_id", .string message.userId)]

/-- The value `ApiStoreMessageTiered` pushes on the queue. -/
def persistJson (roomId : Str) (message : Message) : Json :=
  .object [
    (ascii "content", .string message.content),
    (ascii "redis_id", .string message.id),
    (ascii "room_id", .string roomId),
    (ascii "timestamp", .int message.timestamp),
    (ascii "user_id", .string message.userId)]

end Message

/-- How a step of the API ends: with a value, with the return value -1, or
with an exception. -/
inductive Reading (Value : Type) where
  | value (value : Value)
  | failed
  | thrown
  deriving DecidableEq

/-- A member that must not be null, converted. -/
def readMember {Value : Type} (root : Json) (name : Str)
    (convert : Json → Option Value) : Reading Value :=
  match root.get name with
  | none => .thrown
  | some member =>
      if member.isNull then .failed
      else
        match convert member with
        | none => .thrown
        | some value => .value value

/-- The checks of `ApiGetRoomHistory` on one entry, in their order. -/
def readHistoryEntry (lib : JsonCpp) (id text : Str) : Reading Message :=
  match lib.parse text with
  | none => .failed
  | some root =>
      if root.isObject then
        match readMember root (ascii "content") (·.asString lib) with
        | .failed => .failed
        | .thrown => .thrown
        | .value content =>
            match readMember root (ascii "user_id") (·.asString lib) with
            | .failed => .failed
            | .thrown => .thrown
            | .value userId =>
                match readMember root (ascii "timestamp") (·.asUInt64) with
                | .failed => .failed
                | .thrown => .thrown
                | .value timestamp => .value ⟨id, content, timestamp, userId⟩
      else .failed

end ChatRoom
