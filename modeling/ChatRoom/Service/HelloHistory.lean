import ChatRoom.Api.TieredHistory
import ChatRoom.Lib.UnstableSort
import ChatRoom.Service.WebSocketConn

/-!
# The history in a hello response

`handleHelloMessage` sorts the history of a room by timestamps in whole
seconds.  It comes newest first, and `std::sort` may leave messages of one
second as they came.
-/

namespace ChatRoom

namespace Connection

open Redis (StreamId)

/-- The message is older than another one: its stream id is smaller. -/
def Older (first second : Message) : Prop :=
  ∃ firstId secondId : StreamId, first.id = firstId.text ∧
    second.id = secondId.text ∧ firstId < secondId

/-- A history as the stream gives it: at most twenty messages, newest first,
with timestamps that do not decrease along the ids. -/
structure Delivered (messages : List Message) : Prop where
  newestFirst : messages.Pairwise fun newer message => Older message newer
  seconds : ∀ first ∈ messages, ∀ second ∈ messages, Older first second →
    first.timestamp ≤ second.timestamp
  atMostTwenty : messages.length ≤ 20

/-- A room of the user, and what `ApiGetRoomHistoryTiered` gives for it: the
return value and the batch, `none` when it throws. -/
structure HelloRoom where
  roomId : Str
  roomName : Str
  history : Option (Int × MessageBatch)
  delivered : ∀ batch, history = some (0, batch) → Delivered batch.messages

section Response

variable (lookup : Str → Option (Str × Str))

/-- The user of a message.  A user that is not found is shown by number, which
`std::stoi` may refuse. -/
def userObject (message : Message) : Option Json :=
  match lookup message.userId with
  | some (username, avatar) =>
      some (.object [(ascii "avatar", .string avatar),
        (ascii "id", .string message.userId),
        (ascii "username", .string username)])
  | none =>
      (stoi (if message.userId = [] then ascii "0" else message.userId)).map
        fun number =>
          .object [(ascii "avatar", .string (ascii "/img/default.png")),
            (ascii "id", .int number),
            (ascii "username", .string (utf8 "未知用户"))]

def messageObject (message : Message) (user : Json) : Json :=
  .object [(ascii "content", .string message.content),
    (ascii "id", .string message.id),
    (ascii "timestamp", .int message.timestamp),
    (ascii "user", user)]

/-- The loop over the sorted messages.  An exception ends it, and the array
keeps what it has. -/
def historyArray : List Message → List Json
  | [] => []
  | message :: messages =>
      match userObject lookup message with
      | none => []
      | some user => messageObject message user :: historyArray messages

variable (sort : List Message → List Message)

/-- The messages of a room. -/
def roomMessages (room : HelloRoom) : List Json :=
  match room.history with
  | some (0, batch) =>
      if batch.messages = [] then []
      else historyArray lookup (sort batch.messages)
  | _ => []

def roomObject (room : HelloRoom) : Json :=
  .object [(ascii "id", .string room.roomId),
    (ascii "messages", .array (roomMessages lookup sort room)),
    (ascii "name", .string room.roomName),
    (ascii "users", .array [])]

/-- The response of `handleHelloMessage`. -/
def helloResponse (uid : Str) (rooms : List HelloRoom) : Json :=
  let (username, avatar) :=
    (lookup uid).getD (utf8 "未知编程侠", ascii "/img/a.png")
  .object [
    (ascii "payload", .object [
      (ascii "rooms", .array (rooms.map (roomObject lookup sort))),
      (ascii "user", .object [(ascii "avatar", .string avatar),
        (ascii "id", .string uid), (ascii "username", .string username)])]),
    (ascii "type", .string (ascii "hello"))]

end Response

/-- The `messages` arrays of a response, room by room. -/
def messageArrays (response : Json) : List (List Json) :=
  match response.get (ascii "payload") >>= (·.get (ascii "rooms")) with
  | none => []
  | some rooms => rooms.elements.filterMap fun room =>
      (room.get (ascii "messages")).map Json.elements

/-- The ids of an array ascend. -/
def Ascending (array : List Json) : Prop :=
  array.Pairwise fun first second =>
    ∃ firstId secondId : StreamId,
      first.get (ascii "id") = some (.string firstId.text) ∧
      second.get (ascii "id") = some (.string secondId.text) ∧
      firstId < secondId

/-- What `std::sort` promises for its comparator. -/
def IsSort (sort : List Message → List Message) : Prop :=
  ∀ messages, Lib.SortsBy Message.timestamp messages (sort messages)

/-- The user of the message is not found, and its id is no number. -/
def throws (lookup : Str → Option (Str × Str)) (message : Message) : Bool :=
  (lookup message.userId).isNone &&
    (stoi (if message.userId = [] then ascii "0" else message.userId)).isNone

/-! ## The order of an array -/

theorem older_asymmetric (first second : Message) (older : Older first second) :
    ¬ Older second first := by
  obtain ⟨firstId, secondId, isFirst, isSecond, less⟩ := older
  rintro ⟨otherSecond, otherFirst, sameSecond, sameFirst, greater⟩
  rw [isFirst] at sameFirst
  rw [isSecond] at sameSecond
  rw [← Api.text_injective sameFirst, ← Api.text_injective sameSecond]
    at greater
  exact lt_asymm less greater

theorem userObject_isNone (lookup : Str → Option (Str × Str))
    (message : Message) :
    (userObject lookup message).isNone = throws lookup message := by
  unfold userObject throws
  cases lookup message.userId with
  | none => simp
  | some user => rfl

/-- The array holds the messages in front of the first one that throws. -/
theorem historyArray_eq (lookup : Str → Option (Str × Str))
    (messages : List Message) :
    historyArray lookup messages =
      (messages.takeWhile fun message => !throws lookup message).map
        fun message => messageObject message
          ((userObject lookup message).getD .null) := by
  induction messages with
  | nil => rfl
  | cons message messages induction =>
      rw [historyArray, List.takeWhile_cons, ← userObject_isNone]
      cases found : userObject lookup message with
      | none => simp
      | some user => simp [found, induction]

theorem messageObject_id (message : Message) (user : Json) :
    (messageObject message user).get (ascii "id") =
      some (.string message.id) := by
  have different : (ascii "id" == ascii "content") = false := by decide
  simp [messageObject, Json.get, List.lookup_cons, different]

theorem ascending_historyArray_iff (lookup : Str → Option (Str × Str))
    (messages : List Message) :
    Ascending (historyArray lookup messages) ↔
      (messages.takeWhile fun message =>
        !throws lookup message).Pairwise Older := by
  rw [historyArray_eq, Ascending, List.pairwise_map]
  apply iff_of_eq
  congr 1
  funext first second
  simp only [messageObject_id, Option.some.injEq, Json.string.injEq, Older]

/-! ## The response -/

section Response

variable (lookup : Str → Option (Str × Str))

theorem messageArrays_helloResponse (sort : List Message → List Message)
    (uid : Str) (rooms : List HelloRoom) :
    messageArrays (helloResponse lookup sort uid rooms) =
      rooms.map (roomMessages lookup sort) := by
  have notFirst : (ascii "messages" == ascii "id") = false := by decide
  have found : ∀ room, ((roomObject lookup sort room).get
      (ascii "messages")).map Json.elements =
        some (roomMessages lookup sort room) := by
    intro room
    simp [roomObject, Json.get, List.lookup_cons, notFirst, Json.elements]
  have inside : (helloResponse lookup sort uid rooms).get (ascii "payload") >>=
      (·.get (ascii "rooms")) =
        some (.array (rooms.map (roomObject lookup sort))) := by
    simp [helloResponse, Json.get]
  simp only [messageArrays, inside, Json.elements, List.filterMap_map]
  exact List.filterMap_eq_map_iff_forall_eq_some.mpr fun room _ => found room

variable {lookup}

/-- A room shows its sorted messages, or nothing. -/
theorem roomMessages_cases {sort : List Message → List Message}
    (isSort : IsSort sort) (room : HelloRoom) :
    (∃ batch, room.history = some (0, batch) ∧
      roomMessages lookup sort room =
        historyArray lookup (sort batch.messages)) ∨
    (∀ batch, room.history ≠ some (0, batch)) ∧
      roomMessages lookup sort room = [] := by
  unfold roomMessages
  split
  · rename_i batch isHistory
    refine .inl ⟨batch, isHistory, ?_⟩
    split
    · rename_i empty
      have isEmpty : sort [] = [] := (isSort []).perm.eq_nil
      rw [empty, isEmpty, historyArray]
    · rfl
  · rename_i other
    exact .inr ⟨other, rfl⟩

end Response

/-- Exactly the responses that show every room in the order of the ids for
every sort: no two shown messages of a room are of one second. -/
theorem helloResponse_ascending_iff (lookup : Str → Option (Str × Str))
    (uid : Str) (rooms : List HelloRoom) :
    (∀ sort, IsSort sort →
      ∀ array ∈ messageArrays (helloResponse lookup sort uid rooms),
        Ascending array) ↔
      ∀ room ∈ rooms, ∀ batch, room.history = some (0, batch) →
        Lib.Untied Message.timestamp (throws lookup) batch.messages := by
  constructor
  · intro ascending room member batch isHistory
    have delivered := room.delivered batch isHistory
    apply (Lib.shown_ordered_iff older_asymmetric delivered.newestFirst
      delivered.seconds (throws lookup)).mp
    intro sorted sorts
    obtain ⟨sort, isSort, isSorted⟩ := Lib.exists_sort_of_sortsBy sorts
    rw [← ascending_historyArray_iff, ← isSorted]
    apply ascending sort isSort
    rw [messageArrays_helloResponse]
    rcases roomMessages_cases isSort room with
      ⟨other, isOther, shows⟩ | ⟨noBatch, -⟩
    · rw [isHistory, Option.some.injEq, Prod.mk.injEq] at isOther
      rw [isOther.2, ← shows]
      exact List.mem_map_of_mem member
    · exact absurd isHistory (noBatch batch)
  · intro untied sort isSort array member
    rw [messageArrays_helloResponse] at member
    obtain ⟨room, isRoom, rfl⟩ := List.mem_map.mp member
    rcases roomMessages_cases isSort room with
      ⟨batch, isHistory, shows⟩ | ⟨-, shows⟩
    · have delivered := room.delivered batch isHistory
      rw [shows, ascending_historyArray_iff]
      apply (Lib.shown_ordered_iff older_asymmetric delivered.newestFirst
        delivered.seconds (throws lookup)).mpr
      · exact untied room isRoom batch isHistory
      · exact isSort batch.messages
    · rw [shows]
      exact List.Pairwise.nil

/-- Two messages of one second. -/
def oneSecond : List Message :=
  [⟨ascii "6-0", ascii "there", 1, ascii "7"⟩,
    ⟨ascii "5-0", ascii "hello", 1, ascii "7"⟩]

theorem oneSecond_older :
    oneSecond.Pairwise fun newer message => Older message newer := by
  have older : Older ⟨ascii "5-0", ascii "hello", 1, ascii "7"⟩
      ⟨ascii "6-0", ascii "there", 1, ascii "7"⟩ := by
    refine ⟨⟨5, 0⟩, ⟨6, 0⟩, by decide, by decide, ?_⟩
    rw [StreamId.lt_iff]
    decide
  simpa [oneSecond] using older

/-- A room with a history of one second. -/
def oneSecondRoom : HelloRoom where
  roomId := ascii "0001"
  roomName := ascii "general"
  history := some (0, ⟨oneSecond, false⟩)
  delivered := by
    rintro batch ⟨rfl⟩
    refine ⟨oneSecond_older, ?_, by decide⟩
    have allOne : ∀ message ∈ oneSecond, message.timestamp = 1 := by decide
    intro first firstItem second secondItem _
    rw [allOne first firstItem, allOne second secondItem]

def amyLookup (_ : Str) : Option (Str × Str) :=
  some (ascii "amy", ascii "/img/amy.png")

/-- The newer message may be shown first. -/
theorem oneSecond_descends :
    ∃ sort, IsSort sort ∧
      ∃ array ∈ messageArrays
          (helloResponse amyLookup sort (ascii "7") [oneSecondRoom]),
        ¬ Ascending array := by
  have sorts : Lib.SortsBy Message.timestamp oneSecond oneSecond := by
    refine ⟨List.Perm.refl _, ?_⟩
    simp [oneSecond]
  obtain ⟨sort, isSort, isSorted⟩ := Lib.exists_sort_of_sortsBy sorts
  refine ⟨sort, isSort, historyArray amyLookup oneSecond, ?_, ?_⟩
  · rw [messageArrays_helloResponse, List.map_singleton, List.mem_singleton,
      ← isSorted]
    rfl
  · rw [ascending_historyArray_iff]
    have all : (oneSecond.takeWhile fun message =>
        !throws amyLookup message) = oneSecond := rfl
    rw [all]
    intro ascending
    have inOrder := List.pairwise_pair.mp ascending
    have reversed := List.pairwise_pair.mp oneSecond_older
    exact older_asymmetric _ _ inOrder reversed

end Connection

end ChatRoom
