import ChatRoom.Api.History
import ChatRoom.Lib.Paging
import ChatRoom.Redis.StreamIds

/-!
# Paging through the history of a room

`ApiGetRoomHistory` keeps the id of the last entry it has read in the room and
asks for what is below it the next time.  With one field in every entry the
calls read the stream page by page.
-/

namespace ChatRoom

namespace Api

open Redis

/-- The key the commands for a room name, when the room is one word of them. -/
def roomKey (roomId : Str) : Option Str :=
  if Byte.nul ∈ roomId then none
  else
    match wordsOf (roomId ++ [Byte.space]) with
    | some [key] => some key
    | _ => none

/-- The entries of the stream of a room; without a key there are none. -/
def roomStream (keys : Keyspace) (roomId : Str) : Option (List Entry) :=
  match roomKey roomId with
  | none => none
  | some key =>
      match keys key with
      | none => some []
      | some (.stream entries _) => some entries
      | some _ => none

/-- What a call that returns 0 leaves in `history_last_message_id`. -/
def Room.advance (room : Room) (messages : List Message) : Room :=
  match messages.getLast? with
  | none => room
  | some message => { room with historyLastMessageId := message.id }

/-- `ApiGetRoomHistory` on one room, each time with a fresh batch, until
`has_more` is false; `redis` holds the keys and the clock of Redis at each
call.  `none` is a call that does not return 0, or no end after `fuel` calls. -/
def readHistory (lib : JsonCpp) (link : Link) (msgCount : Int) :
    Nat → (Nat → Keyspace × Nat) → Room → Option (List (List Message))
  | 0, _, _ => none
  | fuel + 1, redis, room =>
      match apiGetRoomHistory lib link (redis 0).1 (redis 0).2 room msgCount with
      | some (0, batch) =>
          if batch.hasMore then
            (readHistory lib link msgCount fuel (fun call => redis (call + 1))
              (room.advance batch.messages)).map (batch.messages :: ·)
          else some [batch.messages]
      | _ => none

/-- An entry with one field whose value reads as the message. -/
def Holds (lib : JsonCpp) (entry : Entry) (message : Message) : Prop :=
  ∃ field value, entry.fields = [field, value] ∧
    readHistoryEntry lib entry.id.text (cStr value) = .value message

theorem readMember_string {lib : JsonCpp} {root : Json} {name text : Str}
    (found : root.get name = some (.string text)) :
    readMember root name (·.asString lib) = .value text := by
  rw [readMember, found]
  rfl

theorem readMember_number {root : Json} {name : Str} {number : Nat}
    (found : root.get name = some (.int number)) (small : number < 2 ^ 64) :
    readMember root name (·.asUInt64) = .value number := by
  rw [readMember, found]
  simp only [Json.isNull, Bool.false_eq_true, if_false,
    Json.asUInt64_int_ofNat small]

/-- An object with the three members reads as the message. -/
theorem readHistoryEntry_of_members {lib : JsonCpp} {id text : Str}
    {message : Message} {root : Json} (parsed : lib.parse text = some root)
    (isObject : root.isObject = true)
    (content : root.get (ascii "content") = some (.string message.content))
    (userId : root.get (ascii "user_id") = some (.string message.userId))
    (timestamp : root.get (ascii "timestamp") = some (.int message.timestamp))
    (small : message.timestamp < 2 ^ 64) :
    readHistoryEntry lib id text = .value { message with id := id } := by
  simp only [readHistoryEntry, parsed, isObject, if_true,
    readMember_string content, readMember_string userId,
    readMember_number timestamp small]

/-- An entry `ApiStoreMessage` has added, when jsoncpp parses the text back. -/
theorem holds_of_payload {lib : JsonCpp} {entry : Entry} {message : Message}
    {text : Str} (fields : entry.fields = [ascii "payload", text])
    (parsed : lib.parse (cStr text) = some message.payloadJson)
    (small : message.timestamp < 2 ^ 64) :
    Holds lib entry { message with id := entry.id.text } :=
  ⟨_, _, fields, readHistoryEntry_of_members parsed rfl rfl rfl rfl small⟩

/-! ## The range of a page -/

/-- The start of the range behind a cursor. -/
def streamRef : Option StreamId → Str
  | none => ascii "+"
  | some id => ascii "(" ++ id.text

def pageBound : Option StreamId → Bound
  | none => .max
  | some id => .excl id

theorem parseBound_streamRef (cursor : Option StreamId) (missing : Nat) :
    parseBound missing (streamRef cursor) = some (pageBound cursor) := by
  cases cursor with
  | none => rfl
  | some id => exact parseBound_excl missing id

theorem streamRef_bytes (cursor : Option StreamId) :
    streamRef cursor ≠ [] ∧ Byte.nul ∉ streamRef cursor ∧
      Byte.space ∉ streamRef cursor ∧ Byte.percent ∉ streamRef cursor := by
  cases cursor with
  | none => decide
  | some id =>
      have other : ∀ byte : UInt8, Byte.isDigit byte = false → byte ≠ 45 →
          byte ≠ 40 → byte ∉ streamRef (some id) := by
        intro byte notDigit notDash notParen member
        rcases List.mem_append.mp member with paren | inText
        · exact notParen (List.mem_singleton.mp paren)
        · rcases mem_text inText with digit | dash
          · rw [digit] at notDigit
            cases notDigit
          · exact notDash dash
      refine ⟨?_, other _ rfl (by decide) (by decide),
        other _ rfl (by decide) (by decide), other _ rfl (by decide) (by decide)⟩
      simp [streamRef, ascii]

theorem intact_pageWords (cursor : Option StreamId) (msgCount : Int) :
    Intact (rangeWordsFrom (streamRef cursor) msgCount) := by
  obtain ⟨nonempty, noNul, noSpace, noPercent⟩ := streamRef_bytes cursor
  exact intact_rangeWordsFrom ⟨nonempty, noNul, noSpace⟩ noPercent msgCount

theorem roomKey_eq_some {roomId key : Str} (isKey : roomKey roomId = some key) :
    Byte.nul ∉ roomId ∧ wordsOf (roomId ++ [Byte.space]) = some [key] := by
  unfold roomKey at isKey
  split at isKey
  · cases isKey
  · rename_i noNul
    split at isKey
    · rename_i found words
      cases isKey
      exact ⟨noNul, words⟩
    · cases isKey

/-- The command of a page. -/
theorem getXrevrangeSent_page {roomId key : Str}
    (isKey : roomKey roomId = some key) (printf : Str → Int → Str)
    (cursor : Option StreamId) (msgCount : Int) :
    CacheConn.getXrevrangeSent printf roomId (streamRef cursor) (ascii "-")
        msgCount =
      .ok (ascii "XREVRANGE" :: key ::
        rangeWordsFrom (streamRef cursor) msgCount) := by
  obtain ⟨noNul, words⟩ := roomKey_eq_some isKey
  rw [CacheConn.getXrevrangeSent, redisvFormatCommand_eq_ok_iff,
    wordsOf_from noNul (intact_pageWords cursor msgCount), words]
  rfl

theorem rangeOf_page (key : Str) (cursor : Option StreamId) {msgCount : Int}
    (positive : 0 < msgCount) :
    rangeOf (ascii "XREVRANGE" :: key ::
        rangeWordsFrom (streamRef cursor) msgCount) =
      some (key, ⟨.min, pageBound cursor, some msgCount.toNat⟩) := by
  have options := parseOptions_rangeWords msgCount
  simp only [wholeRange, if_pos positive, gt_iff_lt] at options
  have words : rangeWordsFrom (streamRef cursor) msgCount =
      streamRef cursor :: ascii "-" ::
        [ascii "COUNT", decimal msgCount.toNat] := by
    rw [rangeWordsFrom, if_pos positive]
    rfl
  have lowest : parseBound 0 (ascii "-") = some .min := rfl
  rw [words]
  simp [rangeOf, parseBound_streamRef, lowest, options]

/-- `XREVRANGE` replies with a page. -/
theorem xrevrange_page {keys : Keyspace} {roomId key : Str}
    {entries : List Entry} (isKey : roomKey roomId = some key)
    (known : roomStream keys roomId = some entries) (cursor : Option StreamId)
    {count : Nat} (positive : 0 < count) :
    xrevrange keys key ⟨.min, pageBound cursor, some count⟩ =
      .entries ((Lib.Paging.page Entry.id count entries cursor).map
        fun entry => (entry.id.text, entry.fields)) := by
  have bound : ∀ id, (pageBound cursor).notBelow id =
      Lib.Paging.below cursor id := by
    intro id
    cases cursor with
    | none => rfl
    | some last => exact notBelow_excl last id
  obtain ⟨rest, isCount⟩ : ∃ rest, count = rest + 1 := ⟨count - 1, by omega⟩
  simp only [roomStream, isKey] at known
  split at known
  · rename_i absent
    cases known
    simp [xrevrange, absent, Lib.Paging.page, Lib.Paging.remaining]
  · rename_i found last stream
    cases known
    simp only [xrevrange, stream, isCount, bound, Bound.notAbove, Bool.true_and,
      Lib.Paging.page, Lib.Paging.remaining, List.map_take]
  · cases known

/-! ## A call and the loop -/

theorem id_of_readHistoryEntry {lib : JsonCpp} {id text : Str}
    {message : Message}
    (read : readHistoryEntry lib id text = .value message) :
    message.id = id := by
  unfold readHistoryEntry at read
  repeat' split at read
  all_goals cases read
  rfl

/-- What `GetXrevrange` hands on of the entry reads as the message. -/
def Decodes (lib : JsonCpp) (entry : Entry) (message : Message) : Prop :=
  readHistoryEntry lib entry.id.text (lastValue [] entry.fields) =
    .value message

theorem Holds.decodes {lib : JsonCpp} {entry : Entry} {message : Message}
    (holds : Holds lib entry message) : Decodes lib entry message := by
  obtain ⟨field, value, fields, read⟩ := holds
  rw [Decodes, fields]
  exact read

theorem readEntries_of_decodes {lib : JsonCpp} {entries : List Entry}
    {messages : List Message}
    (decodes : List.Forall₂ (Decodes lib) entries messages) :
    readEntries lib (entries.map shownEntry) = (messages, .value ()) := by
  induction decodes with
  | nil => rfl
  | @cons entry message entries messages first rest induction =>
      have read : readHistoryEntry lib entry.id.text
          (lastValue [] entry.fields) = .value message := first
      simp [shownEntry, readEntries, read, induction]

section Room

variable {lib : JsonCpp} {link : Link} {msgCount : Int}

/-- The room remembers the cursor. -/
def Room.At (room : Room) (cursor : Option StreamId) : Prop :=
  room.historyLastMessageId = cursor.elim [] StreamId.text

theorem apiGetRoomHistory_page {keys : Keyspace} {room : Room}
    {entries : List Entry} {cursor : Option StreamId}
    {messages : List Message} (positive : 0 < msgCount)
    (known : roomStream keys room.roomId = some entries)
    (isAt : room.At cursor)
    (decodes : List.Forall₂ (Decodes lib)
      (Lib.Paging.page Entry.id msgCount.toNat entries cursor) messages)
    (now : Nat) :
    apiGetRoomHistory lib link keys now room msgCount =
      some (0, ⟨messages, decide (msgCount.toNat ≤ messages.length)⟩) := by
  have count : 0 < msgCount.toNat := by omega
  have start : (if room.historyLastMessageId = [] then ascii "+"
      else ascii "(" ++ room.historyLastMessageId) = streamRef cursor := by
    rw [isAt]
    cases cursor with
    | none => rfl
    | some id =>
        have nonempty : id.text ≠ [] := by simp [StreamId.text, ascii]
        exact if_neg nonempty
  obtain ⟨key, isKey⟩ : ∃ key, roomKey room.roomId = some key := by
    cases isKey : roomKey room.roomId with
    | none => simp [roomStream, isKey] at known
    | some key => exact ⟨key, rfl⟩
  have executed : (exec link.other now keys (ascii "XREVRANGE" :: key ::
      rangeWordsFrom (streamRef cursor) msgCount)).2 =
      .entries ((Lib.Paging.page Entry.id msgCount.toNat entries cursor).map
        fun entry => (entry.id.text, entry.fields)) := by
    have other : ascii "XREVRANGE" ≠ ascii "XADD" := by decide
    simp only [exec, if_neg other, if_true, rangeOf_page key cursor positive]
    exact xrevrange_page isKey known cursor count
  have read : getXrevrange link keys now room.roomId (streamRef cursor)
      (ascii "-") msgCount =
      some (some ((Lib.Paging.page Entry.id msgCount.toNat entries cursor).map
        shownEntry)) := by
    rw [getXrevrange, getXrevrangeSent_page isKey]
    simp only [executed, List.map_map]
    rfl
  have sameLength := decodes.length_eq
  simp only [apiGetRoomHistory, start, read, readEntries_of_decodes decodes,
    List.length_map, sameLength, Option.some.injEq, Prod.mk.injEq, true_and,
    MessageBatch.mk.injEq, decide_eq_decide]
  omega

theorem ids_of_holds {entries : List Entry} {messages : List Message}
    (holds : List.Forall₂ (Holds lib) entries messages) :
    messages.map (·.id) = entries.map (·.id.text) := by
  induction holds with
  | nil => rfl
  | cons first rest induction =>
      obtain ⟨field, value, fields, read⟩ := first
      rw [List.map_cons, List.map_cons, induction, id_of_readHistoryEntry read]

/-- Behind a page the room remembers where the page ends. -/
theorem advance_at {room : Room} {cursor : Option StreamId}
    {read : List Entry} {messages : List Message} (isAt : room.At cursor)
    (holds : List.Forall₂ (Holds lib) read messages) :
    (room.advance messages).At (Lib.Paging.advance Entry.id cursor read) := by
  have lasts : messages.getLast?.map (·.id) =
      read.getLast?.map (·.id.text) := by
    rw [← List.getLast?_map, ids_of_holds holds, List.getLast?_map]
  cases isLast : messages.getLast? with
  | none =>
      cases isEntry : read.getLast? with
      | none =>
          simpa [Room.advance, Lib.Paging.advance, isLast, isEntry] using isAt
      | some entry =>
          rw [isLast, isEntry] at lasts
          cases lasts
  | some message =>
      cases isEntry : read.getLast? with
      | none =>
          rw [isLast, isEntry] at lasts
          cases lasts
      | some entry =>
          rw [isLast, isEntry] at lasts
          simpa [Room.advance, Room.At, Lib.Paging.advance, isLast, isEntry]
            using lasts

theorem roomId_advance (room : Room) (messages : List Message) :
    (room.advance messages).roomId = room.roomId := by
  unfold Room.advance
  split <;> rfl

/-- The calls read the pages of the stream, as long as what they read
decodes. -/
theorem readHistory_of_readAll {roomId : Str} {fuel : Nat}
    {redis : Nat → Keyspace × Nat} {streams : Nat → List Entry}
    {room : Room} {cursor : Option StreamId} {pages : List (List Entry)}
    (positive : 0 < msgCount) (isRoom : room.roomId = roomId)
    (isAt : room.At cursor)
    (known : ∀ call, roomStream (redis call).1 roomId = some (streams call))
    (read : Lib.Paging.readAll Entry.id msgCount.toNat fuel streams cursor =
      some pages)
    (decodes : ∀ page ∈ pages, ∃ messages,
      List.Forall₂ (Holds lib) page messages) :
    ∃ batches, readHistory lib link msgCount fuel redis room = some batches ∧
      List.Forall₂ (List.Forall₂ (Holds lib)) pages batches := by
  induction fuel generalizing redis streams room cursor pages with
  | zero => cases read
  | succ fuel induction =>
      have first : ∀ messages, List.Forall₂ (Holds lib)
          (Lib.Paging.page Entry.id msgCount.toNat (streams 0) cursor) messages →
          apiGetRoomHistory lib link (redis 0).1 (redis 0).2 room msgCount =
            some (0, ⟨messages, decide (msgCount.toNat ≤ messages.length)⟩) := by
        intro messages holds
        have stream := known 0
        rw [← isRoom] at stream
        exact apiGetRoomHistory_page positive stream isAt
          (holds.imp fun _ _ => Holds.decodes) _
      simp only [Lib.Paging.readAll] at read
      split at read
      · rename_i short
        cases read
        obtain ⟨messages, holds⟩ := decodes _ List.mem_cons_self
        have notFull : ¬ msgCount.toNat ≤ messages.length := by
          rw [← holds.length_eq]
          omega
        refine ⟨[messages], ?_, .cons holds .nil⟩
        rw [readHistory, first messages holds]
        simp [notFull]
      · rename_i full
        obtain ⟨rest, later, rfl⟩ := Option.map_eq_some_iff.mp read
        obtain ⟨messages, holds⟩ := decodes _ List.mem_cons_self
        have isFull : msgCount.toNat ≤ messages.length := by
          rw [← holds.length_eq]
          omega
        obtain ⟨batches, others, follow⟩ := induction
          ((roomId_advance room messages).trans isRoom)
          (advance_at isAt holds) (fun call => known (call + 1)) later
          (fun page member => decodes page (List.mem_cons_of_mem _ member))
        refine ⟨messages :: batches, ?_, .cons holds follow⟩
        rw [readHistory, first messages holds]
        simp [isFull, others]

end Room

theorem flatten_of_pages {Element Item : Type} {R : Element → Item → Prop}
    {pages : List (List Element)} {batches : List (List Item)}
    (related : List.Forall₂ (List.Forall₂ R) pages batches) :
    List.Forall₂ R pages.flatten batches.flatten := by
  induction related with
  | nil => exact .nil
  | cons first rest induction => exact List.rel_append first induction

/-- An entry holds one message at most. -/
theorem holds_unique {lib : JsonCpp} : Relator.RightUnique (Holds lib) := by
  intro entry message other holds otherHolds
  obtain ⟨field, value, fields, read⟩ := holds
  obtain ⟨otherField, otherValue, otherFields, otherRead⟩ := otherHolds
  rw [fields] at otherFields
  cases otherFields
  rw [read] at otherRead
  exact Reading.value.inj otherRead

theorem decodes_of_mem {lib : JsonCpp} {entries page : List Entry}
    {messages : List Message}
    (holds : List.Forall₂ (Holds lib) entries messages)
    (inside : ∀ entry ∈ page, entry ∈ entries) :
    ∃ decoded, List.Forall₂ (Holds lib) page decoded := by
  induction page with
  | nil => exact ⟨[], .nil⟩
  | cons entry page induction =>
      obtain ⟨decoded, later⟩ := induction fun other member =>
        inside other (List.mem_cons_of_mem _ member)
      obtain ⟨index, bound, isEntry⟩ := List.getElem_of_mem
        (inside entry List.mem_cons_self)
      have first := holds.get bound (holds.length_eq ▸ bound)
      rw [List.get_eq_getElem, isEntry] at first
      exact ⟨_, .cons first later⟩

/-- An entry as `ApiStoreMessage` adds it. -/
def helloEntry (ms : Nat) : Entry :=
  ⟨⟨ms, 0⟩, [ascii "payload", helloPayload]⟩

theorem helloEntry_holds (ms : Nat) :
    Holds helloJson (helloEntry ms) (hello (helloEntry ms).id.text) := by
  have whole : cStr helloPayload = helloPayload := by decide +kernel
  have parsed : helloJson.parse (cStr helloPayload) =
      some (hello []).payloadJson := by
    rw [whole]
    rfl
  have fields : (helloEntry ms).fields = [ascii "payload", helloPayload] := rfl
  exact holds_of_payload fields parsed (by decide)

def storedAt (entries : List Entry) : Keyspace :=
  fun key => if key = ascii "0001" then some (.stream entries ⟨0, 0⟩) else none

end Api

end ChatRoom
