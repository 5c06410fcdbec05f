import ChatRoom.Api.Message
import ChatRoom.Lib.Run
import ChatRoom.Redis.CommandText
import ChatRoom.Redis.Server

/-!
# Storing messages and reading them back

`ApiStoreMessageTiered` adds an entry with two fields to the stream of its
room; `GetXrevrange` keeps the value of the last field of each entry.  So what
`ApiGetRoomHistory` parses is the room id, and not the message.
-/

namespace ChatRoom

namespace Api

open Redis

/-- The number printing of libc behind the tokeniser, and the Redis server on
the commands that are not modelled. -/
structure Link where
  printf : Str → Int → Str
  other : Keyspace → List Str → Keyspace × Reply

/-- The key of the persist queue. -/
def persistQueue : Str := ascii "msg_persist_queue"

/-- A message to store: the time at Redis when it is added, and whether Redis
executes the `LPUSH` behind. -/
structure Incoming where
  message : Message
  now : Nat
  pushed : Bool

/-- The fields of a stored message. -/
def fieldValuePairs (lib : JsonCpp) (roomName : Str) (message : Message) :
    List (Str × Str) :=
  [(ascii "payload", lib.writeString message.payloadJson),
    (ascii "room_id", roomName)]

/-- `Xadd` on a connected context: the new id, `none` when it returns false.
Outside, `none` is a call without defined behaviour; a reply without a text is
one. -/
def xadd (link : Link) (keys : Keyspace) (now : Nat) (key id : Str)
    (pairs : List (Str × Str)) : Option (Keyspace × Option Str) :=
  match CacheConn.xaddSent link.printf key id pairs with
  | .undefined => none
  | .formatError => some (keys, none)
  | .ok argv =>
      match exec link.other now keys argv with
      | (next, .error) => some (next, none)
      | (next, .bulk id) => some (next, some id)
      | _ => none

/-- One turn of the loop of `ApiStoreMessageTiered`: the message with its id,
`none` when the call returns -1.  The result of `Lpush` is only logged. -/
def storeMessage (lib : JsonCpp) (link : Link) (roomName : Str)
    (keys : Keyspace) (incoming : Incoming) :
    Option (Keyspace × Option Message) :=
  match xadd link keys incoming.now roomName (ascii "*")
      (fieldValuePairs lib roomName incoming.message) with
  | none => none
  | some (next, none) => some (next, none)
  | some (next, some id) =>
      let stored := { incoming.message with id := id }
      let persistJson := lib.writeString (stored.persistJson roomName)
      some (if incoming.pushed then
          (lpush next persistQueue (cStr persistJson)).1
        else next, some stored)

/-- `ApiStoreMessageTiered`: the return value and the messages it has given an
id. -/
def apiStoreMessageTiered (lib : JsonCpp) (link : Link) (roomName : Str) :
    Keyspace → List Incoming → Option (Keyspace × Int × List Message)
  | keys, [] => some (keys, 0, [])
  | keys, incoming :: rest =>
      match storeMessage lib link roomName keys incoming with
      | none => none
      | some (next, none) => some (next, -1, [])
      | some (next, some stored) =>
          (apiStoreMessageTiered lib link roomName next rest).map
            fun (final, ret, later) => (final, ret, stored :: later)

/-- The loop over the fields of an entry, which keeps the last value, as a C
string. -/
def lastValue : Str → List Str → Str
  | _, _ :: value :: fields => lastValue (cStr value) fields
  | value, _ => value

/-- `GetXrevrange` on a connected context: the ids with a value each, `none`
when it returns false. -/
def getXrevrange (link : Link) (keys : Keyspace) (now : Nat)
    (key start stop : Str) (count : Int) : Option (Option (List (Str × Str))) :=
  match CacheConn.getXrevrangeSent link.printf key start stop count with
  | .undefined => none
  | .formatError => some none
  | .ok argv =>
      match (exec link.other now keys argv).2 with
      | .entries entries =>
          some (some (entries.map fun (id, fields) => (id, lastValue [] fields)))
      | _ => some none

/-- The fields of a `Room` that the history uses. -/
structure Room where
  roomId : Str
  historyLastMessageId : Str

/-- The loop of `ApiGetRoomHistory`: the messages in front of the first entry
that fails or throws. -/
def readEntries (lib : JsonCpp) :
    List (Str × Str) → List Message × Reading Unit
  | [] => ([], .value ())
  | (id, text) :: entries =>
      match readHistoryEntry lib id text with
      | .failed => ([], .failed)
      | .thrown => ([], .thrown)
      | .value message =>
          let (messages, ending) := readEntries lib entries
          (message :: messages, ending)

/-- `ApiGetRoomHistory`, with what it adds to an empty batch.  `none` is an
exception or undefined behaviour. -/
def apiGetRoomHistory (lib : JsonCpp) (link : Link) (keys : Keyspace)
    (now : Nat) (room : Room) (msgCount : Int) : Option (Int × MessageBatch) :=
  let streamRef :=
    if room.historyLastMessageId = [] then ascii "+"
    else ascii "(" ++ room.historyLastMessageId
  match getXrevrange link keys now room.roomId streamRef (ascii "-")
      msgCount with
  | none => none
  | some none => some (-1, ⟨[], false⟩)
  | some (some msgs) =>
      match readEntries lib msgs with
      | (messages, .value ()) =>
          -- a negative count is a huge one as `size_t`
          some (0, ⟨messages, decide (0 ≤ msgCount ∧ msgCount ≤ msgs.length)⟩)
      | (messages, .failed) => some (-1, ⟨messages, false⟩)
      | (_, .thrown) => none

/-! ## Storing, then reading -/

/-- What happens in front of the read: a call into the room that returns 0,
or anything at other keys. -/
inductive StoreEvent where
  | store (incoming : List Incoming)
  | elsewhere (keys : Keyspace)

/-- The key and the range the history of the room asks for. -/
def historyRange (link : Link) (roomId : Str) (msgCount : Int) :
    Option (Str × Range) :=
  match CacheConn.getXrevrangeSent link.printf roomId (ascii "+") (ascii "-")
      msgCount with
  | .ok argv => rangeOf argv
  | _ => none

/-- A step of a run, over the keyspace and the messages stored so far. -/
def storeStep (lib : JsonCpp) (link : Link) (roomId : Str) (msgCount : Int)
    (state : Keyspace × List Message) :
    StoreEvent → Option (Keyspace × List Message)
  | .store incoming =>
      match apiStoreMessageTiered lib link roomId state.1 incoming with
      | some (next, 0, messages) => some (next, state.2 ++ messages)
      | _ => none
  | .elsewhere next =>
      match historyRange link roomId msgCount with
      | none => some (next, state.2)
      | some (key, _) =>
          if next key = state.1 key then some (next, state.2) else none

/-- The history returns 0 and the stored messages, newest first. -/
def ReadsBack (outcome : Option (Int × MessageBatch))
    (stored : List Message) : Prop :=
  ∃ hasMore, outcome = some (0, ⟨stored.reverse, hasMore⟩)

/-- A text that reads as the message. -/
def ReadsAs (lib : JsonCpp) (text : Str) (message : Message) : Prop :=
  readHistoryEntry lib message.id text = .value message

/-! ## The words that are sent -/

theorem wordsOf_intact {words : List Str} (intact : Intact words) :
    wordsOf (commandText words) = some words := by
  have whole := (wordsOf_commandText_iff words).mpr intact
  rwa [cStr_eq_self (nul_not_mem_commandText fun word member =>
    (intact.1 word member).2.1)] at whole

/-- The words `GetXrevrange` puts behind the key. -/
def rangeWords (msgCount : Int) : List Str :=
  [ascii "+", ascii "-"] ++
    if msgCount > 0 then [ascii "COUNT", decimal msgCount.toNat] else []

/-- The words behind the key for any start of the range. -/
def rangeWordsFrom (start : Str) (msgCount : Int) : List Str :=
  [start, ascii "-"] ++
    if msgCount > 0 then [ascii "COUNT", decimal msgCount.toNat] else []

theorem intact_rangeWordsFrom {start : Str}
    (isWord : start ≠ [] ∧ Byte.nul ∉ start ∧ Byte.space ∉ start)
    (noPercentBefore : Byte.percent ∉ start) (msgCount : Int) :
    Intact (rangeWordsFrom start msgCount) := by
  have dash : ascii "-" ≠ [] ∧ Byte.nul ∉ ascii "-" ∧
      Byte.space ∉ ascii "-" := by decide
  by_cases counted : msgCount > 0
  · have noNul : Byte.nul ∉ decimal msgCount.toNat := not_mem_decimal rfl _
    have noSpace : Byte.space ∉ decimal msgCount.toNat := not_mem_decimal rfl _
    have noPercent : Byte.percent ∉ decimal msgCount.toNat :=
      not_mem_decimal rfl _
    rw [rangeWordsFrom, if_pos counted]
    constructor
    · intro word member
      simp only [List.cons_append, List.nil_append, List.mem_cons,
        List.not_mem_nil, or_false] at member
      rcases member with rfl | rfl | rfl | rfl
      · exact isWord
      · exact dash
      · decide
      · exact ⟨decimal_ne_nil _, noNul, noSpace⟩
    · intro member
      have inside := List.mem_of_mem_dropLast member
      simp [commandText, ascii, noPercent, noPercentBefore] at inside
  · rw [rangeWordsFrom, if_neg counted]
    constructor
    · intro word member
      simp only [List.append_nil, List.mem_cons, List.not_mem_nil,
        or_false] at member
      rcases member with rfl | rfl
      · exact isWord
      · exact dash
    · intro member
      have inside := List.mem_of_mem_dropLast member
      simp [commandText, ascii, noPercentBefore] at inside

theorem intact_rangeWords (msgCount : Int) : Intact (rangeWords msgCount) :=
  intact_rangeWordsFrom (by decide) (by decide) msgCount

/-- A word in front of a text. -/
theorem wordsOf_cons {word : Str}
    (isWord : wordsOf (word ++ [Byte.space]) = some [word]) (text : Str) :
    wordsOf (word ++ Byte.space :: text) = (wordsOf text).map (word :: ·) := by
  rw [wordsOf_append_space, isWord]
  rfl

theorem getXrevrangeCommand_from (roomId start : Str) (msgCount : Int) :
    CacheConn.getXrevrangeCommand roomId start (ascii "-") msgCount =
      ascii "XREVRANGE" ++ Byte.space ::
        (roomId ++ Byte.space ::
          commandText (rangeWordsFrom start msgCount)) := by
  have argv : CacheConn.getXrevrangeArgv roomId start (ascii "-") msgCount =
      ascii "XREVRANGE" :: roomId :: rangeWordsFrom start msgCount := rfl
  obtain ⟨first, words, isCons⟩ : ∃ first words,
      rangeWordsFrom start msgCount = first :: words := ⟨_, _, rfl⟩
  rw [CacheConn.getXrevrangeCommand_eq, argv, isCons, commandText_cons_cons,
    commandText_cons_cons]

theorem getXrevrangeCommand_history (roomId : Str) (msgCount : Int) :
    CacheConn.getXrevrangeCommand roomId (ascii "+") (ascii "-") msgCount =
      ascii "XREVRANGE" ++ Byte.space ::
        (roomId ++ Byte.space :: commandText (rangeWords msgCount)) :=
  getXrevrangeCommand_from roomId (ascii "+") msgCount

/-- The words `GetXrevrange` sends for a room without NUL. -/
theorem wordsOf_from {roomId start : Str} {msgCount : Int}
    (noNul : Byte.nul ∉ roomId)
    (intact : Intact (rangeWordsFrom start msgCount)) :
    wordsOf (cStr (CacheConn.getXrevrangeCommand roomId start (ascii "-")
      msgCount)) =
      (wordsOf (roomId ++ [Byte.space])).map fun words =>
        ascii "XREVRANGE" :: (words ++ rangeWordsFrom start msgCount) := by
  have tailNoNul : Byte.nul ∉ commandText (rangeWordsFrom start msgCount) :=
    nul_not_mem_commandText fun word member => (intact.1 word member).2.1
  have whole : Byte.nul ∉ ascii "XREVRANGE" ++ Byte.space ::
      (roomId ++ Byte.space ::
        commandText (rangeWordsFrom start msgCount)) := by
    simp [noNul, tailNoNul, ascii]
  rw [getXrevrangeCommand_from, cStr_eq_self whole,
    wordsOf_cons (by decide), wordsOf_append_space, wordsOf_intact intact]
  cases wordsOf (roomId ++ [Byte.space]) with
  | none => rfl
  | some words => rfl

theorem wordsOf_history {roomId : Str} (noNul : Byte.nul ∉ roomId)
    (msgCount : Int) :
    wordsOf (cStr (CacheConn.getXrevrangeCommand roomId (ascii "+") (ascii "-")
      msgCount)) =
      (wordsOf (roomId ++ [Byte.space])).map fun words =>
        ascii "XREVRANGE" :: (words ++ rangeWords msgCount) :=
  wordsOf_from noNul (intact_rangeWords msgCount)

/-- Behind a NUL in the room `GetXrevrange` sends nothing. -/
theorem wordsOf_history_of_mem {roomId : Str} (hasNul : Byte.nul ∈ roomId)
    (msgCount : Int) :
    wordsOf (cStr (CacheConn.getXrevrangeCommand roomId (ascii "+") (ascii "-")
      msgCount)) =
      (wordsOf (cStr roomId)).map (ascii "XREVRANGE" :: ·) := by
  have noNul : Byte.nul ∉ ascii "XREVRANGE" ++ [Byte.space] := by decide
  have split : ascii "XREVRANGE" ++ Byte.space ::
      (roomId ++ Byte.space :: commandText (rangeWords msgCount)) =
      (ascii "XREVRANGE" ++ [Byte.space]) ++
        (roomId ++ Byte.space :: commandText (rangeWords msgCount)) := by
    simp
  rw [getXrevrangeCommand_history, split, cStr_append noNul,
    cStr_append_of_mem hasNul, List.append_assoc]
  exact wordsOf_cons (by decide) (cStr roomId)

theorem xaddCommand_message (lib : JsonCpp) (roomName : Str)
    (message : Message) :
    CacheConn.xaddCommand roomName (ascii "*")
        (fieldValuePairs lib roomName message) =
      ascii "XADD" ++ Byte.space :: (roomName ++ Byte.space ::
        (ascii "*" ++ Byte.space :: (ascii "payload" ++ Byte.space ::
          (lib.writeString message.payloadJson ++ Byte.space ::
            (ascii "room_id" ++ Byte.space :: roomName))))) := by
  simp [CacheConn.xaddCommand, fieldValuePairs, ascii]

/-- The words `Xadd` sends for a message into a room without NUL. -/
theorem wordsOf_xadd {lib : JsonCpp} {roomName : Str} {message : Message}
    (noNul : Byte.nul ∉ roomName)
    (payloadNoNul : Byte.nul ∉ lib.writeString message.payloadJson) :
    wordsOf (cStr (CacheConn.xaddCommand roomName (ascii "*")
        (fieldValuePairs lib roomName message))) =
      (wordsOf (roomName ++ [Byte.space])).bind fun words =>
        (wordsOf (lib.writeString message.payloadJson ++ [Byte.space])).bind
          fun payload => (wordsOf roomName).map fun last =>
            ascii "XADD" :: (words ++ (ascii "*" :: ascii "payload" ::
              (payload ++ ascii "room_id" :: last))) := by
  have command : wordsOf (ascii "XADD" ++ [Byte.space]) =
      some [ascii "XADD"] := by decide
  have star : wordsOf (ascii "*" ++ [Byte.space]) = some [ascii "*"] := by decide
  have field : wordsOf (ascii "payload" ++ [Byte.space]) =
      some [ascii "payload"] := by decide
  have room : wordsOf (ascii "room_id" ++ [Byte.space]) =
      some [ascii "room_id"] := by decide
  rw [xaddCommand_message, cStr_eq_self, wordsOf_cons command,
    wordsOf_append_space roomName, wordsOf_cons star, wordsOf_cons field,
    wordsOf_append_space (lib.writeString message.payloadJson),
    wordsOf_cons room]
  · cases wordsOf (roomName ++ [Byte.space]) with
    | none => rfl
    | some words =>
        cases wordsOf (lib.writeString message.payloadJson ++ [Byte.space]) with
        | none => rfl
        | some payload =>
            cases wordsOf roomName with
            | none => rfl
            | some last => rfl
  · simp [noNul, payloadNoNul, ascii]

/-- Behind a NUL in the room `Xadd` sends nothing. -/
theorem wordsOf_xadd_of_mem (lib : JsonCpp) {roomName : Str}
    (message : Message) (hasNul : Byte.nul ∈ roomName) :
    wordsOf (cStr (CacheConn.xaddCommand roomName (ascii "*")
        (fieldValuePairs lib roomName message))) =
      (wordsOf (cStr roomName)).map (ascii "XADD" :: ·) := by
  have noNul : Byte.nul ∉ ascii "XADD" ++ [Byte.space] := by decide
  have split : ∀ rest, ascii "XADD" ++ Byte.space :: (roomName ++ rest) =
      (ascii "XADD" ++ [Byte.space]) ++ (roomName ++ rest) := by
    intro rest
    simp
  rw [xaddCommand_message, split, cStr_append noNul, cStr_append_of_mem hasNul,
    List.append_assoc]
  exact wordsOf_cons (by decide) (cStr roomName)

/-! ## One word for the room -/

/-- The range the history of a room asks for. -/
def wholeRange (msgCount : Int) : Range where
  first := .min
  last := .max
  count := if msgCount > 0 then some msgCount.toNat else none

theorem rangeWords_eq (msgCount : Int) :
    rangeWords msgCount = ascii "+" :: ascii "-" ::
      if msgCount > 0 then [ascii "COUNT", decimal msgCount.toNat] else [] := by
  rfl

theorem parseOptions_rangeWords (msgCount : Int) :
    parseOptions none
      (if msgCount > 0 then [ascii "COUNT", decimal msgCount.toNat] else []) =
      some (wholeRange msgCount).count := by
  have isCount : (ascii "COUNT").map toLower = ascii "count" := by decide
  by_cases counted : msgCount > 0
  · simp only [wholeRange, if_pos counted, parseOptions, isCount, if_true,
      parseCount_decimal]
    rfl
  · simp only [wholeRange, if_neg counted, parseOptions]

/-- Only a room of one word makes a well-formed range. -/
theorem rangeOf_rangeWords {words : List Str} {msgCount : Int} {key : Str}
    {range : Range}
    (parsed : rangeOf (ascii "XREVRANGE" :: (words ++ rangeWords msgCount)) =
      some (key, range)) : words = [key] ∧ range = wholeRange msgCount := by
  obtain ⟨last, first, options, argv, lastBound, firstBound, counted⟩ :=
    rangeOf_eq_some parsed
  have behind := (List.cons.inj argv).2
  rw [rangeWords_eq] at behind
  match words with
  | [] =>
      split at behind
      · simp only [List.nil_append, List.cons.injEq] at behind
        obtain ⟨-, -, isFirst, -⟩ := behind
        rw [← isFirst] at firstBound
        cases firstBound
      · simp at behind
  | [word] =>
      simp only [List.cons_append, List.nil_append, List.cons.injEq] at behind
      obtain ⟨rfl, rfl, rfl, rfl⟩ := behind
      refine ⟨rfl, ?_⟩
      rw [parseOptions_rangeWords] at counted
      obtain ⟨rangeFirst, rangeLast, count⟩ := range
      cases lastBound
      cases firstBound
      cases counted
      rfl
  | [word, second] =>
      simp only [List.cons_append, List.nil_append, List.cons.injEq] at behind
      obtain ⟨rfl, rfl, rfl, rfl⟩ := behind
      have noOption : (ascii "-").map toLower ≠ ascii "count" := by decide
      split at counted
      · simp [parseOptions, noOption] at counted
      · cases counted
  | word :: second :: third :: rest =>
      simp only [List.cons_append, List.cons.injEq] at behind
      obtain ⟨rfl, rfl, rfl, rfl⟩ := behind
      rw [parseOptions_append_bounds] at counted
      cases counted

/-- When the history of a room asks for a range: the room is one word, or it
holds a NUL and is a range of its own. -/
theorem historyRange_cases {link : Link} {roomId : Str} {msgCount : Int}
    {key : Str} {range : Range}
    (asks : historyRange link roomId msgCount = some (key, range)) :
    (Byte.nul ∉ roomId ∧ wordsOf (roomId ++ [Byte.space]) = some [key] ∧
      range = wholeRange msgCount) ∨
    (Byte.nul ∈ roomId ∧ ∃ words, wordsOf (cStr roomId) = some words ∧
      rangeOf (ascii "XREVRANGE" :: words) = some (key, range)) := by
  unfold historyRange at asks
  split at asks
  · rename_i argv sent
    have words := (redisvFormatCommand_eq_ok_iff _ _ _).mp sent
    by_cases hasNul : Byte.nul ∈ roomId
    · right
      rw [wordsOf_history_of_mem hasNul] at words
      obtain ⟨roomWords, read, rfl⟩ := Option.map_eq_some_iff.mp words
      exact ⟨hasNul, roomWords, read, asks⟩
    · left
      rw [wordsOf_history hasNul] at words
      obtain ⟨roomWords, read, rfl⟩ := Option.map_eq_some_iff.mp words
      obtain ⟨rfl, whole⟩ := rangeOf_rangeWords asks
      exact ⟨hasNul, read, whole⟩
  · cases asks

theorem lastValue_snoc {fields : List Str} {value : Str} (start : Str)
    (even : (fields ++ [value]).length % 2 = 0) :
    lastValue start (fields ++ [value]) = cStr value := by
  induction fields using List.twoStepInduction generalizing start with
  | nil => cases even
  | singleton field => rfl
  | cons_cons field other fields skipTwo skipOne =>
      rw [List.cons_append, List.cons_append, lastValue]
      apply skipTwo
      simp only [List.length_append, List.length_cons] at even ⊢
      omega

/-! ## One message -/

/-- An entry as `GetXrevrange` hands it on. -/
def shownEntry (entry : Entry) : Str × Str :=
  (entry.id.text, lastValue [] entry.fields)

/-- The stream of the room holds an entry for each stored message, and every
entry shows the room. -/
def Shows (roomId : Str) (keys : Keyspace) (key : Str)
    (stored : List Message) : Prop :=
  (keys key = none ∧ stored = []) ∨
    (Byte.nul ∉ roomId ∧ ∃ entries last,
      keys key = some (.stream entries last) ∧
      entries.map shownEntry = stored.map fun message => (message.id, key))

/-- An `XADD` of a message either is refused or adds an entry whose last value
is the room. -/
theorem exec_xadd_message {lib : JsonCpp} {link : Link} {roomId : Str}
    {msgCount : Int} {key : Str} {range : Range} {message : Message}
    {argv : List Str}
    (payloadNoNul : Byte.nul ∉ lib.writeString message.payloadJson)
    (asks : historyRange link roomId msgCount = some (key, range))
    (sent : CacheConn.xaddSent link.printf roomId (ascii "*")
      (fieldValuePairs lib roomId message) = .ok argv)
    (now : Nat) (keys : Keyspace) :
    exec link.other now keys argv = (keys, .error) ∨
      (Byte.nul ∉ roomId ∧ Byte.nul ∉ key ∧ ∃ fields,
        exec link.other now keys argv =
          Redis.xadd keys now key (fields ++ [key])) := by
  have words := (redisvFormatCommand_eq_ok_iff _ _ _).mp sent
  rcases historyRange_cases asks with
    ⟨noNul, isKey, -⟩ | ⟨hasNul, roomWords, read, parsed⟩
  · right
    rw [wordsOf_xadd noNul payloadNoNul, isKey,
      wordsOf_of_append_space isKey, Option.bind_some] at words
    obtain ⟨payload, -, isArgv⟩ := Option.bind_eq_some_iff.mp words
    have keyNoNul : Byte.nul ∉ key :=
      nul_not_mem_of_wordsOf (by simpa using noNul) isKey key (by simp)
    refine ⟨noNul, keyNoNul,
      ascii "payload" :: (payload ++ [ascii "room_id"]), ?_⟩
    rw [Option.map_some, Option.some.injEq] at isArgv
    subst isArgv
    simp [exec]
  · left
    rw [wordsOf_xadd_of_mem lib message hasNul, read, Option.map_some,
      Option.some.injEq] at words
    rw [← words]
    exact exec_xadd_of_range link.other now keys parsed

theorem Shows.xadd {roomId : Str} {keys next : Keyspace} {key id : Str}
    {now : Nat} {stored : List Message} {fields : List Str}
    (shows : Shows roomId keys key stored) (noNul : Byte.nul ∉ roomId)
    (keyNoNul : Byte.nul ∉ key)
    (added : Redis.xadd keys now key (fields ++ [key]) = (next, .bulk id))
    {message : Message} (isId : message.id = id) :
    Shows roomId next key (stored ++ [message]) := by
  rcases xadd_cases keys now key (fields ++ [key]) with
    refused | ⟨entries, last, before, even, result⟩
  · rw [refused] at added
    cases added
  · rw [result] at added
    obtain ⟨rfl, sameId⟩ := Prod.mk.inj added
    have idText : (last.next now).text = id := Reply.bulk.inj sameId
    have shown : entries.map shownEntry =
        stored.map fun message => (message.id, key) := by
      rcases shows with ⟨absent, rfl⟩ | ⟨-, former, last', known, shown⟩
      · rcases before with ⟨-, rfl⟩ | present
        · rfl
        · rw [absent] at present
          cases present
      · rcases before with ⟨absent, -⟩ | present
        · rw [absent] at known
          cases known
        · rw [known] at present
          cases present
          exact shown
    refine .inr ⟨noNul, _, _, Function.update_self _ _ _, ?_⟩
    rw [List.map_append, List.map_append, shown]
    simp [shownEntry, lastValue_snoc [] even, cStr_eq_self keyNoNul, idText, isId]

section Room

variable {lib : JsonCpp} {link : Link} {roomId key : Str} {msgCount : Int}
  {range : Range}

theorem storeMessage_shows
    (noNul : ∀ json, Byte.nul ∉ lib.writeString json)
    (asks : historyRange link roomId msgCount = some (key, range))
    {keys next : Keyspace} {incoming : Incoming} {stored : List Message}
    {message : Message} (shows : Shows roomId keys key stored)
    (result : storeMessage lib link roomId keys incoming =
      some (next, some message)) :
    Shows roomId next key (stored ++ [message]) := by
  unfold storeMessage at result
  split at result
  · cases result
  · cases result
  · rename_i middle id added
    simp only [Option.some.injEq, Prod.mk.injEq] at result
    obtain ⟨rfl, rfl⟩ := result
    have isAdded : Shows roomId middle key
        (stored ++ [{ incoming.message with id := id }]) := by
      unfold Api.xadd at added
      split at added
      · cases added
      · cases added
      · rename_i argv sent
        rcases exec_xadd_message (noNul _) asks sent incoming.now keys with
          refused | ⟨roomNoNul, keyNoNul, fields, executed⟩
        · rw [refused] at added
          cases added
        · split at added
          · cases added
          · rename_i executed'
            cases added
            rw [executed] at executed'
            exact shows.xadd roomNoNul keyNoNul executed' rfl
          · cases added
    split
    · rcases isAdded with ⟨-, impossible⟩ | ⟨roomNoNul, entries, last, known, shown⟩
      · simp at impossible
      · exact .inr ⟨roomNoNul, entries, last, lpush_stream known _ _, shown⟩
    · exact isAdded

theorem apiStoreMessageTiered_shows
    (noNul : ∀ json, Byte.nul ∉ lib.writeString json)
    (asks : historyRange link roomId msgCount = some (key, range))
    {incoming : List Incoming} {keys next : Keyspace}
    {stored messages : List Message} (shows : Shows roomId keys key stored)
    (result : apiStoreMessageTiered lib link roomId keys incoming =
      some (next, 0, messages)) :
    Shows roomId next key (stored ++ messages) := by
  induction incoming generalizing keys stored messages with
  | nil =>
      cases result
      simpa using shows
  | cons first rest induction =>
      simp only [apiStoreMessageTiered] at result
      split at result
      · cases result
      · cases result
      · rename_i middle message one
        obtain ⟨⟨final, ret, later⟩, others, equality⟩ :=
          Option.map_eq_some_iff.mp result
        cases equality
        have shown := induction (storeMessage_shows noNul asks shows one) others
        simpa using shown

/-- Every step of a run keeps the stream in line with the stored messages. -/
theorem storeStep_shows
    (noNul : ∀ json, Byte.nul ∉ lib.writeString json)
    (asks : historyRange link roomId msgCount = some (key, range))
    {state next : Keyspace × List Message} {event : StoreEvent}
    (shows : Shows roomId state.1 key state.2)
    (taken : storeStep lib link roomId msgCount state event = some next) :
    Shows roomId next.1 key next.2 := by
  cases event with
  | store incoming =>
      simp only [storeStep] at taken
      split at taken
      · rename_i final messages called
        cases taken
        exact apiStoreMessageTiered_shows noNul asks shows called
      · cases taken
  | elsewhere keys =>
      simp only [storeStep, asks] at taken
      split at taken
      · rename_i same
        cases taken
        simpa only [Shows, same] using shows
      · cases taken

/-- So does a whole run. -/
theorem run_shows
    (noNul : ∀ json, Byte.nul ∉ lib.writeString json)
    (asks : historyRange link roomId msgCount = some (key, range))
    {state final : Keyspace × List Message} {events : List StoreEvent}
    (shows : Shows roomId state.1 key state.2)
    (ran : Lib.exec (storeStep lib link roomId msgCount) state events =
      some final) : Shows roomId final.1 key final.2 :=
  Lib.exec_invariant
    (fun shows taken => storeStep_shows noNul asks shows taken) shows ran

/-! ## The history -/

theorem readEntries_iff (messages : List Message) :
    readEntries lib (messages.map fun message => (message.id, key)) =
        (messages, .value ()) ↔
      ∀ message ∈ messages, ReadsAs lib key message := by
  induction messages with
  | nil => simp [readEntries]
  | cons message messages induction =>
      rw [List.map_cons, List.forall_mem_cons, ← induction]
      cases entry : readHistoryEntry lib message.id key with
      | failed => simp [readEntries, entry, ReadsAs]
      | thrown => simp [readEntries, entry, ReadsAs]
      | value read =>
          simp only [readEntries, entry, ReadsAs, Reading.value.injEq,
            Prod.mk.injEq, List.cons.injEq]
          constructor
          · intro same
            obtain ⟨⟨first, rest⟩, ending⟩ := same
            exact ⟨first, Prod.ext rest ending⟩
          · intro same
            obtain ⟨first, rest⟩ := same
            simp [first, rest]

/-- A range over the whole stream gives its entries, newest first. -/
theorem xrevrange_wholeRange {keys : Keyspace} {entries : List Entry}
    {last : StreamId} (known : keys key = some (.stream entries last))
    (enough : (entries.length : Int) ≤ msgCount) (positive : 0 < msgCount) :
    xrevrange keys key (wholeRange msgCount) =
      .entries (entries.reverse.map fun entry => (entry.id.text, entry.fields)) := by
  obtain ⟨count, isCount⟩ : ∃ count, msgCount.toNat = count + 1 :=
    ⟨msgCount.toNat - 1, by omega⟩
  have everything : (entries.filter fun entry =>
      Bound.min.notAbove entry.id && Bound.max.notBelow entry.id) = entries := by
    apply List.filter_eq_self.mpr
    intro entry _
    rfl
  have all : entries.length ≤ count + 1 := by omega
  simp only [xrevrange, known, wholeRange, if_pos positive, isCount, everything]
  rw [List.take_of_length_le (by simpa using all)]

/-- The reply to the range the history asks for. -/
theorem getXrevrange_of_asks
    (asks : historyRange link roomId msgCount = some (key, range))
    (keys : Keyspace) (now : Nat) :
    getXrevrange link keys now roomId (ascii "+") (ascii "-") msgCount =
      match xrevrange keys key range with
      | .entries entries =>
          some (some (entries.map fun (id, fields) => (id, lastValue [] fields)))
      | _ => some none := by
  unfold historyRange at asks
  split at asks
  · rename_i argv sent
    obtain ⟨last, first, options, isRange, -⟩ := rangeOf_eq_some asks
    have executed : exec link.other now keys argv =
        (keys, xrevrange keys key range) := by
      rw [isRange] at asks ⊢
      simp only [exec, if_true, asks]
      rfl
    rw [getXrevrange, sent]
    simp only [executed]
  · cases asks

/-- Without a well-formed range the history has nothing to read. -/
theorem getXrevrange_of_not_asks
    (asks : historyRange link roomId msgCount = none)
    (keys : Keyspace) (now : Nat) (entries : List (Str × Str)) :
    getXrevrange link keys now roomId (ascii "+") (ascii "-") msgCount ≠
      some (some entries) := by
  have starts : ∀ argv, CacheConn.getXrevrangeSent link.printf roomId
      (ascii "+") (ascii "-") msgCount = .ok argv →
      ∃ words, argv = ascii "XREVRANGE" :: words := by
    intro argv sent
    have words := (redisvFormatCommand_eq_ok_iff _ _ _).mp sent
    by_cases hasNul : Byte.nul ∈ roomId
    · rw [wordsOf_history_of_mem hasNul] at words
      obtain ⟨roomWords, -, rfl⟩ := Option.map_eq_some_iff.mp words
      exact ⟨_, rfl⟩
    · rw [wordsOf_history hasNul] at words
      obtain ⟨roomWords, -, rfl⟩ := Option.map_eq_some_iff.mp words
      exact ⟨_, rfl⟩
  unfold historyRange at asks
  unfold getXrevrange
  split
  · simp
  · simp
  · rename_i argv sent
    rw [sent] at asks
    obtain ⟨words, rfl⟩ := starts argv sent
    have noXadd : ascii "XREVRANGE" ≠ ascii "XADD" := by decide
    simp only at asks
    simp [exec, noXadd, asks]

/-- What the history reads for a room whose stream is in line. -/
theorem getXrevrange_of_shows
    (asks : historyRange link roomId msgCount = some (key, range))
    {keys : Keyspace} {stored : List Message}
    (shows : Shows roomId keys key stored)
    (enough : (stored.length : Int) ≤ msgCount) (now : Nat) :
    getXrevrange link keys now roomId (ascii "+") (ascii "-") msgCount =
      some (some (stored.reverse.map fun message => (message.id, key))) := by
  rw [getXrevrange_of_asks asks]
  rcases shows with ⟨absent, rfl⟩ | ⟨noNul, entries, last, known, shown⟩
  · simp [xrevrange, absent]
  · have isWhole : range = wholeRange msgCount := by
      rcases historyRange_cases asks with ⟨-, -, whole⟩ | ⟨hasNul, -⟩
      · exact whole
      · exact absurd hasNul noNul
    have sameLength : entries.length = stored.length := by
      have lengths := congrArg List.length shown
      simpa using lengths
    have reversed : entries.reverse.map shownEntry =
        stored.reverse.map fun message => (message.id, key) := by
      rw [List.map_reverse, List.map_reverse, shown]
    by_cases positive : 0 < msgCount
    · rw [isWhole, xrevrange_wholeRange known (by omega) positive]
      simp only [List.map_map]
      rw [← reversed]
      rfl
    · have noStored : stored = [] :=
        List.eq_nil_of_length_eq_zero (by omega)
      have noEntries : entries = [] :=
        List.eq_nil_of_length_eq_zero (by omega)
      simp [isWhole, xrevrange, known, wholeRange, positive, noEntries,
        noStored]

/-- The history reads back the stored messages exactly when the room makes a
well-formed range and every stored message is what the room reads as. -/
theorem readsBack_iff_of_shows
    (asks : historyRange link roomId msgCount = some (key, range))
    {keys : Keyspace} {stored : List Message}
    (shows : Shows roomId keys key stored)
    (enough : (stored.length : Int) ≤ msgCount) (now : Nat) :
    ReadsBack (apiGetRoomHistory lib link keys now ⟨roomId, []⟩ msgCount)
        stored ↔ ∀ message ∈ stored, ReadsAs lib key message := by
  have reversed : (∀ message ∈ stored, ReadsAs lib key message) ↔
      ∀ message ∈ stored.reverse, ReadsAs lib key message := by
    simp only [List.mem_reverse]
  rw [reversed, ← readEntries_iff, ReadsBack, apiGetRoomHistory]
  simp only [if_true, getXrevrange_of_shows asks shows enough]
  split
  · rename_i messages ending
    rw [ending]
    simp
  · rename_i messages ending
    rw [ending]
    simp
  · rename_i messages ending
    rw [ending]
    simp

end Room

/-- What is stored in an empty stream is read back exactly when the room makes
a well-formed range and its text reads as every stored message: the history
never looks at the stored payloads. -/
theorem history_reads_back_iff (lib : JsonCpp) (link : Link)
    (noNul : ∀ json, Byte.nul ∉ lib.writeString json)
    (roomId : Str) (msgCount : Int) (start : Keyspace)
    (fresh : ∀ key range,
      historyRange link roomId msgCount = some (key, range) → start key = none)
    (events : List StoreEvent) (keys : Keyspace) (stored : List Message)
    (ran : Lib.exec (storeStep lib link roomId msgCount) (start, []) events =
      some (keys, stored))
    (enough : (stored.length : Int) ≤ msgCount) (now : Nat) :
    ReadsBack (apiGetRoomHistory lib link keys now ⟨roomId, []⟩ msgCount)
        stored ↔
      ∃ key range, historyRange link roomId msgCount = some (key, range) ∧
        ∀ message ∈ stored, ReadsAs lib key message := by
  cases asks : historyRange link roomId msgCount with
  | none =>
      constructor
      · intro readsBack
        obtain ⟨hasMore, outcome⟩ := readsBack
        simp only [apiGetRoomHistory, if_true] at outcome
        split at outcome
        · cases outcome
        · cases outcome
        · rename_i entries read
          exact absurd read (getXrevrange_of_not_asks asks keys now entries)
      · intro impossible
        obtain ⟨key, range, equality, -⟩ := impossible
        cases equality
  | some asked =>
      obtain ⟨key, range⟩ := asked
      have shows : Shows roomId keys key stored :=
        run_shows noNul asks (.inl ⟨fresh key range asks, rfl⟩) ran
      rw [readsBack_iff_of_shows asks shows enough]
      constructor
      · intro reads
        exact ⟨key, range, rfl, reads⟩
      · intro reads
        obtain ⟨sameKey, sameRange, equality, reads⟩ := reads
        cases equality
        exact reads

/-! ## One ordinary message -/

def helloPayload : Str :=
  ascii "\x7b\"content\":\"hello\",\"timestamp\":1,\"user_id\":\"amy\"\x7d"

def helloPersist : Str :=
  ascii ("\x7b\"content\":\"hello\",\"redis_id\":\"5-0\",\"room_id\":\"0001\"," ++
    "\"timestamp\":1,\"user_id\":\"amy\"\x7d")

def quietLink : Link where
  printf _ _ := []
  other keys _ := (keys, .error)

def hello (id : Str) : Message := ⟨id, ascii "hello", 1, ascii "amy"⟩

/-- jsoncpp on the texts of one message; `0001` reads as a number. -/
def helloJson : JsonCpp where
  parse text :=
    if text = ascii "0001" then some (.int 1)
    else if text = helloPayload then some (hello []).payloadJson
    else if text = helloPersist then
      some ((hello (ascii "5-0")).persistJson (ascii "0001"))
    else none
  writeString
    | .object (_ :: (name, _) :: _) =>
        if name = ascii "timestamp" then helloPayload else helloPersist
    | _ => []
  fastWrite _ := []
  realText _ := []

theorem helloJson_noNul (json : Json) :
    Byte.nul ∉ helloJson.writeString json := by
  unfold helloJson
  simp only
  split
  · split
    · decide
    · decide
  · decide

theorem store_hello :
    ∃ keys, Lib.exec (storeStep helloJson quietLink (ascii "0001") 10)
        (fun _ => none, []) [.store [⟨hello [], 5, true⟩]] =
      some (keys, [hello (ascii "5-0")]) := by
  have sent : CacheConn.xaddSent quietLink.printf (ascii "0001") (ascii "*")
      (fieldValuePairs helloJson (ascii "0001") (hello [])) =
      .ok (CacheConn.xaddArgv (ascii "0001") (ascii "*")
        (fieldValuePairs helloJson (ascii "0001") (hello []))) := by
    decide
  have added : Api.xadd quietLink (fun _ => none) 5 (ascii "0001") (ascii "*")
      (fieldValuePairs helloJson (ascii "0001") (hello [])) =
      some ((Redis.xadd (fun _ => none) 5 (ascii "0001")
        [ascii "payload", helloPayload, ascii "room_id", ascii "0001"]).1,
        some (ascii "5-0")) := by
    rw [Api.xadd, sent]
    rfl
  simp only [Lib.exec, storeStep, apiStoreMessageTiered, storeMessage, added]
  exact ⟨_, rfl⟩

theorem fresh_keyspace (link : Link) (roomId : Str) (msgCount : Int) :
    ∀ key range, historyRange link roomId msgCount = some (key, range) →
      (fun _ => none : Keyspace) key = none := by
  intro key range _
  rfl

theorem hello_reads_back_iff :
    ∃ keys, Lib.exec (storeStep helloJson quietLink (ascii "0001") 10)
        (fun _ => none, []) [.store [⟨hello [], 5, true⟩]] =
        some (keys, [hello (ascii "5-0")]) ∧
      (ReadsBack (apiGetRoomHistory helloJson quietLink keys 6
          ⟨ascii "0001", []⟩ 10) [hello (ascii "5-0")] ↔
        ∃ key range,
          historyRange quietLink (ascii "0001") 10 = some (key, range) ∧
          ∀ message ∈ [hello (ascii "5-0")], ReadsAs helloJson key message) := by
  obtain ⟨keys, ran⟩ := store_hello
  refine ⟨keys, ran, ?_⟩
  exact history_reads_back_iff helloJson quietLink helloJson_noNul
    (ascii "0001") 10 (fun _ => none) (fresh_keyspace _ _ _)
    [.store [⟨hello [], 5, true⟩]] keys [hello (ascii "5-0")] ran (by decide) 6

/-- One message is stored in room `0001`, and its history fails: it parses the
room id. -/
theorem stored_hello_is_not_read :
    ∃ keys, Lib.exec (storeStep helloJson quietLink (ascii "0001") 10)
        (fun _ => none, []) [.store [⟨hello [], 5, true⟩]] =
        some (keys, [hello (ascii "5-0")]) ∧
      ¬ ReadsBack (apiGetRoomHistory helloJson quietLink keys 6
          ⟨ascii "0001", []⟩ 10) [hello (ascii "5-0")] := by
  obtain ⟨keys, ran⟩ := store_hello
  have asks : historyRange quietLink (ascii "0001") 10 =
      some (ascii "0001", wholeRange 10) := by
    decide
  have shows := run_shows helloJson_noNul asks (.inl ⟨rfl, rfl⟩) ran
  refine ⟨keys, ran, ?_⟩
  intro readsBack
  have reads := (readsBack_iff_of_shows asks shows (by simp) 6).mp readsBack
  have first := reads (hello (ascii "5-0")) (List.mem_singleton_self _)
  cases first

end Api

end ChatRoom
