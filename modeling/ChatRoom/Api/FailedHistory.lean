import ChatRoom.Api.History

/-!
# What a failed history read leaves behind

`ApiGetRoomHistory` writes the cursor of the room in front of the checks on an
entry, and the batch behind them.  When a check fails in the middle of the
loop, it returns without taking either back.
-/

namespace ChatRoom

namespace Api

/-- The loop of `ApiGetRoomHistory` on the room and the batch of its caller. -/
def readEntriesInto (lib : JsonCpp) (room : Room) (batch : MessageBatch) :
    List (Str × Str) → Room × MessageBatch × Reading Unit
  | [] => (room, batch, .value ())
  | (id, text) :: entries =>
      let read : Room := { room with historyLastMessageId := id }
      match readHistoryEntry lib id text with
      | .failed => (read, batch, .failed)
      | .thrown => (read, batch, .thrown)
      | .value message =>
          readEntriesInto lib read
            { batch with messages := batch.messages ++ [message] } entries

/-- `ApiGetRoomHistory` behind `GetXrevrange`, whose reply is `none` when it
returns false: the return value, the room and the batch.  Outside, `none` is
an exception. -/
def apiGetRoomHistoryInto (lib : JsonCpp) (msgCount : Int) (room : Room)
    (batch : MessageBatch) (reply : Option (List (Str × Str))) :
    Option (Int × Room × MessageBatch) :=
  match reply with
  | none => some (-1, room, batch)
  | some msgs =>
      match readEntriesInto lib room batch msgs with
      | (next, filled, .value ()) =>
          some (0, next, { filled with
            hasMore := decide (0 ≤ msgCount ∧ msgCount ≤ msgs.length) })
      | (next, filled, .failed) => some (-1, next, filled)
      | (_, _, .thrown) => none

/-- The member is missing or null. -/
def Missing (root : Json) (name : Str) : Prop :=
  ∃ member, root.get name = some member ∧ member.isNull = true

/-- The member is there, and its conversion does not throw. -/
def Converts {Value : Type} (root : Json) (name : Str)
    (convert : Json → Option Value) : Prop :=
  ∃ member value, root.get name = some member ∧ member.isNull = false ∧
    convert member = some value

/-- A text that is a message: an object with a content, a user and a time. -/
def Decodable (lib : JsonCpp) (text : Str) : Prop :=
  ∃ root, lib.parse text = some root ∧ root.isObject = true ∧
    Converts root (ascii "content") (·.asString lib) ∧
    Converts root (ascii "user_id") (·.asString lib) ∧
    Converts root (ascii "timestamp") (·.asUInt64)

/-- A text that is no JSON, no object, or misses a member behind members that
convert. -/
def Undecodable (lib : JsonCpp) (text : Str) : Prop :=
  lib.parse text = none ∨
  ∃ root, lib.parse text = some root ∧
    (root.isObject = false ∨
      Missing root (ascii "content") ∨
      Converts root (ascii "content") (·.asString lib) ∧
        (Missing root (ascii "user_id") ∨
          Converts root (ascii "user_id") (·.asString lib) ∧
            Missing root (ascii "timestamp")))

/-- A call that returns -1 leaves the room and the batch as they were. -/
def FailureKeeps (lib : JsonCpp) (msgCount : Int) (room : Room)
    (batch : MessageBatch) (reply : Option (List (Str × Str))) : Prop :=
  ∀ next filled,
    apiGetRoomHistoryInto lib msgCount room batch reply =
      some (-1, next, filled) →
    next = room ∧ filled = batch

/-- The first entry that cannot be decoded behind decodable ones is the first
of all, and the cursor of the room stands on it already. -/
def FailsAtCursor (lib : JsonCpp) (room : Room)
    (reply : Option (List (Str × Str))) : Prop :=
  ∀ before id text after, reply = some (before ++ (id, text) :: after) →
    (∀ entry ∈ before, Decodable lib entry.2) → Undecodable lib text →
    before = [] ∧ id = room.historyLastMessageId

/-! ## One entry -/

/-- A member is missing, converts, or throws. -/
theorem readMember_cases {Value : Type} (root : Json) (name : Str)
    (convert : Json → Option Value) :
    (readMember root name convert = .failed ∧ Missing root name ∧
      ¬ Converts root name convert) ∨
    (∃ value, readMember root name convert = .value value ∧
      Converts root name convert ∧ ¬ Missing root name) ∨
    (readMember root name convert = .thrown ∧ ¬ Missing root name ∧
      ¬ Converts root name convert) := by
  unfold readMember Missing Converts
  cases root.get name with
  | none => simp
  | some member =>
      by_cases missing : member.isNull = true
      · simp [missing]
      · cases converted : convert member with
        | none => simp [missing, converted]
        | some value => simp [missing, converted]

/-- An entry is a message, makes the loop return, or throws. -/
theorem readHistoryEntry_cases (lib : JsonCpp) (id text : Str) :
    (readHistoryEntry lib id text = .failed ∧ Undecodable lib text ∧
      ¬ Decodable lib text) ∨
    (∃ message, readHistoryEntry lib id text = .value message ∧
      Decodable lib text ∧ ¬ Undecodable lib text) ∨
    (readHistoryEntry lib id text = .thrown ∧ ¬ Undecodable lib text ∧
      ¬ Decodable lib text) := by
  unfold readHistoryEntry Undecodable Decodable
  cases lib.parse text with
  | none => simp
  | some root =>
      by_cases isObject : root.isObject = true
      · rcases readMember_cases root (ascii "content") (·.asString lib) with
          ⟨read, missing, noContent⟩ | ⟨content, read, converts, there⟩ |
            ⟨read, there, noContent⟩
        · simp [isObject, read, missing, noContent]
        · rcases readMember_cases root (ascii "user_id") (·.asString lib) with
            ⟨readUser, missing, noUser⟩ | ⟨user, readUser, convertsUser, isUser⟩ |
              ⟨readUser, isUser, noUser⟩
          · simp [isObject, read, converts, readUser, missing, noUser]
          · rcases readMember_cases root (ascii "timestamp")
                (·.asUInt64) with
              ⟨readTime, missing, noTime⟩ | ⟨time, readTime, convertsTime, isTime⟩ |
                ⟨readTime, isTime, noTime⟩
            · simp [isObject, read, converts, readUser, convertsUser,
                readTime, missing, noTime]
            · simp [isObject, read, converts, there, readUser, convertsUser,
                isUser, readTime, convertsTime, isTime]
            · simp [isObject, read, converts, there, readUser, convertsUser,
                isUser, readTime, isTime, noTime]
          · simp [isObject, read, converts, there, readUser, isUser, noUser]
        · simp [isObject, read, there, noContent]
      · simp [isObject]

/-! ## The loop -/

/-- The loop stops at the first entry that is no message: the cursor stands on
that entry, and the batch has the messages in front of it. -/
theorem readEntriesInto_stops {lib : JsonCpp} {before : List (Str × Str)}
    {text : Str} (decodable : ∀ entry ∈ before, Decodable lib entry.2)
    (undecodable : Undecodable lib text) (id : Str) (after : List (Str × Str))
    (room : Room) (batch : MessageBatch) :
    ∃ messages : List Message, messages.length = before.length ∧
      readEntriesInto lib room batch (before ++ (id, text) :: after) =
        ({ room with historyLastMessageId := id },
          { batch with messages := batch.messages ++ messages }, .failed) := by
  induction before generalizing room batch with
  | nil =>
      refine ⟨[], rfl, ?_⟩
      rcases readHistoryEntry_cases lib id text with
        ⟨failed, -, -⟩ | ⟨message, -, -, noFailure⟩ | ⟨-, noFailure, -⟩
      · simp [readEntriesInto, failed]
      · exact absurd undecodable noFailure
      · exact absurd undecodable noFailure
  | cons entry before induction =>
      rw [List.forall_mem_cons] at decodable
      rcases readHistoryEntry_cases lib entry.1 entry.2 with
        ⟨-, -, noMessage⟩ | ⟨message, read, -, -⟩ | ⟨-, -, noMessage⟩
      · exact absurd decodable.1 noMessage
      · obtain ⟨messages, sameLength, rest⟩ := induction decodable.2
          { room with historyLastMessageId := entry.1 }
          { batch with messages := batch.messages ++ [message] }
        refine ⟨message :: messages, by simp [sameLength], ?_⟩
        simp [readEntriesInto, read, rest]
      · exact absurd decodable.1 noMessage

/-- A loop that fails has an entry that it stops at. -/
theorem exists_stop_of_failed {lib : JsonCpp} {entries : List (Str × Str)}
    {room next : Room} {batch filled : MessageBatch}
    (failed : readEntriesInto lib room batch entries =
      (next, filled, .failed)) :
    ∃ before id text after, entries = before ++ (id, text) :: after ∧
      (∀ entry ∈ before, Decodable lib entry.2) ∧ Undecodable lib text := by
  induction entries generalizing room batch with
  | nil => simp [readEntriesInto] at failed
  | cons entry entries induction =>
      obtain ⟨id, text⟩ := entry
      rcases readHistoryEntry_cases lib id text with
        ⟨-, undecodable, -⟩ | ⟨message, read, decodable, -⟩ | ⟨thrown, -, -⟩
      · exact ⟨[], id, text, entries, rfl, by simp, undecodable⟩
      · simp only [readEntriesInto, read] at failed
        obtain ⟨before, stopId, stopText, after, rfl, earlier, undecodable⟩ :=
          induction failed
        exact ⟨(id, text) :: before, stopId, stopText, after, rfl,
          List.forall_mem_cons.mpr ⟨decodable, earlier⟩, undecodable⟩
      · simp [readEntriesInto, thrown] at failed

/-- A call that fails at an entry. -/
theorem apiGetRoomHistoryInto_stops {lib : JsonCpp}
    {before : List (Str × Str)} {text : Str}
    (decodable : ∀ entry ∈ before, Decodable lib entry.2)
    (undecodable : Undecodable lib text) (id : Str)
    (after : List (Str × Str)) (msgCount : Int) (room : Room) (batch : MessageBatch) :
    ∃ messages : List Message, messages.length = before.length ∧
      apiGetRoomHistoryInto lib msgCount room batch
          (some (before ++ (id, text) :: after)) =
        some (-1, { room with historyLastMessageId := id },
          { batch with messages := batch.messages ++ messages }) := by
  obtain ⟨messages, sameLength, stops⟩ :=
    readEntriesInto_stops decodable undecodable id after room batch
  exact ⟨messages, sameLength, by simp [apiGetRoomHistoryInto, stops]⟩

/-- A call returns -1 when there is no reply, or at an entry that is no
message. -/
theorem apiGetRoomHistoryInto_failed {lib : JsonCpp} {msgCount : Int}
    {room next : Room} {batch filled : MessageBatch}
    {reply : Option (List (Str × Str))}
    (failed : apiGetRoomHistoryInto lib msgCount room batch reply =
      some (-1, next, filled)) :
    (reply = none ∧ next = room ∧ filled = batch) ∨
    ∃ before id text after, reply = some (before ++ (id, text) :: after) ∧
      (∀ entry ∈ before, Decodable lib entry.2) ∧ Undecodable lib text := by
  cases reply with
  | none =>
      simp only [apiGetRoomHistoryInto, Option.some.injEq, Prod.mk.injEq,
        true_and] at failed
      exact .inl ⟨rfl, failed.1.symm, failed.2.symm⟩
  | some msgs =>
      right
      cases looped : readEntriesInto lib room batch msgs with
      | mk reached rest =>
          obtain ⟨collected, ending⟩ := rest
          cases ending with
          | value _ => simp [apiGetRoomHistoryInto, looped] at failed
          | thrown => simp [apiGetRoomHistoryInto, looped] at failed
          | failed =>
              obtain ⟨before, id, text, after, rfl, stop⟩ :=
                exists_stop_of_failed looped
              exact ⟨before, id, text, after, rfl, stop⟩

/-- Exactly the replies on which a failure changes nothing. -/
theorem failureKeeps_iff (lib : JsonCpp) (msgCount : Int) (room : Room)
    (batch : MessageBatch) (reply : Option (List (Str × Str))) :
    FailureKeeps lib msgCount room batch reply ↔
      FailsAtCursor lib room reply := by
  constructor
  · intro keeps before id text after isReply decodable undecodable
    obtain ⟨messages, sameLength, stops⟩ := apiGetRoomHistoryInto_stops
      decodable undecodable id after msgCount room batch
    rw [← isReply] at stops
    obtain ⟨sameRoom, sameBatch⟩ := keeps _ _ stops
    have noMessage : messages = [] := by
      have collected := congrArg MessageBatch.messages sameBatch
      exact List.append_right_eq_self.mp collected
    constructor
    · rw [← List.length_eq_zero_iff, ← sameLength, noMessage]
      rfl
    · exact congrArg Room.historyLastMessageId sameRoom
  · intro atCursor next filled failed
    rcases apiGetRoomHistoryInto_failed failed with
      ⟨-, sameRoom, sameBatch⟩ |
        ⟨before, id, text, after, isReply, decodable, undecodable⟩
    · exact ⟨sameRoom, sameBatch⟩
    · obtain ⟨rfl, rfl⟩ :=
        atCursor before id text after isReply decodable undecodable
      obtain ⟨messages, sameLength, stops⟩ := apiGetRoomHistoryInto_stops
        decodable undecodable room.historyLastMessageId after msgCount room
        batch
      obtain rfl : messages = [] := List.eq_nil_of_length_eq_zero sameLength
      rw [← isReply, failed] at stops
      simpa using stops

/-- What the loop adds to a batch does not depend on the caller. -/
theorem readEntriesInto_eq (lib : JsonCpp) (room : Room) (batch : MessageBatch)
    (entries : List (Str × Str)) :
    (readEntriesInto lib room batch entries).2 =
      ({ batch with
          messages := batch.messages ++ (readEntries lib entries).1 },
        (readEntries lib entries).2) := by
  induction entries generalizing room batch with
  | nil => simp [readEntriesInto, readEntries]
  | cons entry entries induction =>
      obtain ⟨id, text⟩ := entry
      cases read : readHistoryEntry lib id text with
      | failed => simp [readEntriesInto, readEntries, read]
      | thrown => simp [readEntriesInto, readEntries, read]
      | value message =>
          simp [readEntriesInto, readEntries, read, induction]

/-- `apiGetRoomHistory` is the call for an empty batch, without the room. -/
theorem apiGetRoomHistory_eq (lib : JsonCpp) (link : Link)
    (keys : Redis.Keyspace) (now : Nat) (room : Room) (msgCount : Int) :
    apiGetRoomHistory lib link keys now room msgCount =
      (getXrevrange link keys now room.roomId
        (if room.historyLastMessageId = [] then ascii "+"
          else ascii "(" ++ room.historyLastMessageId)
        (ascii "-") msgCount).bind fun reply =>
          (apiGetRoomHistoryInto lib msgCount room ⟨[], false⟩ reply).map
            fun (ret, _, batch) => (ret, batch) := by
  rw [apiGetRoomHistory]
  dsimp only
  cases getXrevrange link keys now room.roomId
      (if room.historyLastMessageId = [] then ascii "+"
        else ascii "(" ++ room.historyLastMessageId) (ascii "-") msgCount with
  | none => rfl
  | some reply =>
      cases reply with
      | none => rfl
      | some msgs =>
          have same := readEntriesInto_eq lib room ⟨[], false⟩ msgs
          rw [Option.bind_some, apiGetRoomHistoryInto]
          cases into : readEntriesInto lib room ⟨[], false⟩ msgs with
          | mk next rest =>
              rw [into] at same
              cases read : readEntries lib msgs with
              | mk messages ending =>
                  rw [read] at same
                  dsimp only at same
                  subst same
                  cases ending with
                  | value _ => simp [read]
                  | failed => simp [read]
                  | thrown => simp [read]

/-- Two entries, the second with a number in place of a message. -/
def halfReply : Option (List (Str × Str)) :=
  some [(ascii "6-0", helloPayload), (ascii "5-0", ascii "0001")]

/-- The call returns -1, with one message in the batch and the cursor on the
entry that is no message. -/
theorem halfReply_changes :
    ¬ FailureKeeps helloJson 10 ⟨ascii "0001", []⟩ ⟨[], false⟩ halfReply := by
  intro keeps
  have isMessage : readHistoryEntry helloJson (ascii "6-0") helloPayload =
      .value (hello (ascii "6-0")) := by decide +kernel
  have noMessage : readHistoryEntry helloJson (ascii "5-0") (ascii "0001") =
      .failed := by decide +kernel
  have failed : apiGetRoomHistoryInto helloJson 10 ⟨ascii "0001", []⟩
      ⟨[], false⟩ halfReply =
        some (-1, ⟨ascii "0001", ascii "5-0"⟩,
          ⟨[hello (ascii "6-0")], false⟩) := by
    simp [apiGetRoomHistoryInto, halfReply, readEntriesInto, isMessage,
      noMessage]
  have sameBatch := (keeps _ _ failed).2
  have collected := congrArg MessageBatch.messages sameBatch
  cases collected

end Api

end ChatRoom
