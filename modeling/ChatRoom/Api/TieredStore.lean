import ChatRoom.Api.Paging

/-!
# Storing a list of messages

Every turn of the loop of `ApiStoreMessageTiered` sends two commands, and each
of them may fail.  A failing `XADD` ends the call with -1 and leaves what the
turns before have written; a failing `LPUSH` is only logged.
-/

namespace ChatRoom

namespace Tiered

open Api Redis

/-- What becomes of a command: Redis executes it and the reply arrives, Redis
refuses it with an error reply, or there is no reply. -/
inductive Fate where
  | runs
  | refused
  | lost (executed : Bool)
  deriving DecidableEq

def Fate.executes : Fate → Bool
  | .runs => true
  | .refused => false
  | .lost executed => executed

/-- A message to store, the time at Redis, and what becomes of its commands. -/
structure Attempt where
  message : Message
  now : Nat
  xadd : Fate
  lpush : Fate

/-! ## The call -/

/-- The `XADD` of a message: the new id, `none` when `Xadd` returns false. -/
def xadd (lib : JsonCpp) (link : Link) (roomName : Str) (keys : Keyspace)
    (attempt : Attempt) : Option (Keyspace × Option Str) :=
  let pairs := fieldValuePairs lib roomName attempt.message
  match attempt.xadd with
  | .runs => Api.xadd link keys attempt.now roomName (ascii "*") pairs
  | fate =>
      match CacheConn.xaddSent link.printf roomName (ascii "*") pairs with
      | .undefined => none
      | .formatError => some (keys, none)
      | .ok argv =>
          some (if fate.executes then (exec link.other attempt.now keys argv).1
            else keys, none)

/-- The text of a message in the persist queue. -/
def persistText (lib : JsonCpp) (roomName : Str) (stored : Message) : Str :=
  cStr (lib.writeString (stored.persistJson roomName))

/-- One turn of the loop.  The result of `Lpush` is only logged. -/
def storeMessage (lib : JsonCpp) (link : Link) (roomName : Str)
    (keys : Keyspace) (attempt : Attempt) :
    Option (Keyspace × Option Message) :=
  match xadd lib link roomName keys attempt with
  | none => none
  | some (next, none) => some (next, none)
  | some (next, some id) =>
      let stored := { attempt.message with id := id }
      some (if attempt.lpush.executes then
          (lpush next persistQueue (persistText lib roomName stored)).1
        else next, some stored)

/-- The loop: the return value and the messages that have got an id. -/
def storeMessages (lib : JsonCpp) (link : Link) (roomName : Str) :
    Keyspace → List Attempt → Option (Keyspace × Int × List Message)
  | keys, [] => some (keys, 0, [])
  | keys, attempt :: rest =>
      match storeMessage lib link roomName keys attempt with
      | none => none
      | some (next, none) => some (next, -1, [])
      | some (next, some stored) =>
          (storeMessages lib link roomName next rest).map
            fun (final, ret, later) => (final, ret, stored :: later)

/-- `ApiStoreMessageTiered`. -/
def apiStoreMessageTiered (lib : JsonCpp) (link : Link) (connection : Bool)
    (roomName : Str) (keys : Keyspace) (attempts : List Attempt) :
    Option (Keyspace × Int × List Message) :=
  if connection then storeMessages lib link roomName keys attempts
  else some (keys, -1, [])

/-- When every `XADD` is answered this is the call that only loses `LPUSH`es. -/
theorem storeMessages_of_answered (lib : JsonCpp) (link : Link)
    (roomName : Str) {attempts : List Attempt}
    (answered : ∀ attempt ∈ attempts, attempt.xadd = .runs) (keys : Keyspace) :
    storeMessages lib link roomName keys attempts =
      Api.apiStoreMessageTiered lib link roomName keys
        (attempts.map fun attempt =>
          ⟨attempt.message, attempt.now, attempt.lpush.executes⟩) := by
  induction attempts generalizing keys with
  | nil => rfl
  | cons attempt rest induction =>
      have later := induction fun other member =>
        answered other (List.mem_cons_of_mem _ member)
      have ran : xadd lib link roomName keys attempt =
          Api.xadd link keys attempt.now roomName (ascii "*")
            (fieldValuePairs lib roomName attempt.message) := by
        simp only [xadd, answered attempt List.mem_cons_self]
      have first : storeMessage lib link roomName keys attempt =
          Api.storeMessage lib link roomName keys
            ⟨attempt.message, attempt.now, attempt.lpush.executes⟩ := by
        rw [storeMessage, Api.storeMessage, ran]
        rcases Api.xadd link keys attempt.now roomName (ascii "*")
            (fieldValuePairs lib roomName attempt.message) with
          _ | ⟨next, _ | id⟩
        · rfl
        · rfl
        · rfl
      rw [storeMessages, first, List.map_cons, Api.apiStoreMessageTiered]
      rcases Api.storeMessage lib link roomName keys
          ⟨attempt.message, attempt.now, attempt.lpush.executes⟩ with
        _ | ⟨next, _ | stored⟩
      · rfl
      · rfl
      · simp only [later]

/-! ## All or nothing -/

/-- The entries of a stream; an absent key is an empty one. -/
def entriesOf : Option Value → Option (List Entry)
  | none => some []
  | some (.stream entries _) => some entries
  | _ => none

/-- The elements of a list; an absent key is an empty one. -/
def elementsOf : Option Value → Option (List Str)
  | none => some []
  | some (.list elements) => some elements
  | _ => none

/-- The fields of the entry of a message. -/
def entryFields (lib : JsonCpp) (roomName : Str) (message : Message) :
    List Str :=
  (fieldValuePairs lib roomName message).flatMap fun pair => [pair.1, pair.2]

/-- The call has put every message into the stream of the room, and into the
queue with its id there. -/
structure Stored (lib : JsonCpp) (roomName : Str) (attempts : List Attempt)
    (before after : Keyspace) (stored : List Message) : Prop where
  messages : List.Forall₂
    (fun attempt message => message = { attempt.message with id := message.id })
    attempts stored
  stream : ∃ entries added, entriesOf (before roomName) = some entries ∧
    entriesOf (after roomName) = some (entries ++ added) ∧
    added.map (fun entry => (entry.id.text, entry.fields)) =
      stored.map fun message => (message.id, entryFields lib roomName message)
  queue : ∃ elements, elementsOf (before persistQueue) = some elements ∧
    elementsOf (after persistQueue) =
      some ((stored.map (persistText lib roomName)).reverse ++ elements)

/-- A call that returns 0 has stored every message, one that returns a negative
value has changed neither the stream nor the queue. -/
def Atomic (lib : JsonCpp) (roomName : Str) (attempts : List Attempt)
    (before : Keyspace) (outcome : Option (Keyspace × Int × List Message)) :
    Prop :=
  ∃ after ret stored, outcome = some (after, ret, stored) ∧
    (ret = 0 → attempts ≠ [] →
      Stored lib roomName attempts before after stored) ∧
    (ret < 0 → after roomName = before roomName ∧
      after persistQueue = before persistQueue)

/-- Nothing comes between the messages and their two places. -/
structure Clear (lib : JsonCpp) (roomName : Str) (keys : Keyspace)
    (attempts : List Attempt) : Prop where
  apart : roomName ≠ persistQueue
  stream : (entriesOf (keys roomName)).isSome
  queue : (elementsOf (keys persistQueue)).isSome
  words : ∀ attempt ∈ attempts, Intact (CacheConn.xaddArgv roomName (ascii "*")
    (fieldValuePairs lib roomName attempt.message))
  answered : ∀ attempt ∈ attempts, attempt.xadd = .runs
  pushed : ∀ attempt ∈ attempts, attempt.lpush.executes = true

/-- The `XADD` of a message fails without an effect. -/
def Refused (lib : JsonCpp) (link : Link) (roomName : Str) (keys : Keyspace)
    (attempt : Attempt) : Prop :=
  let sent := CacheConn.xaddSent link.printf roomName (ascii "*")
    (fieldValuePairs lib roomName attempt.message)
  sent = .formatError ∨ ∃ argv, sent = .ok argv ∧
    (attempt.xadd.executes = false ∨
      exec link.other attempt.now keys argv = (keys, .error))

/-- When the call is atomic. -/
def guard (lib : JsonCpp) (link : Link) (connection : Bool) (roomName : Str)
    (keys : Keyspace) (attempts : List Attempt) : Prop :=
  connection = false ∨ attempts = [] ∨ Clear lib roomName keys attempts ∨
    ∃ first ∈ attempts.head?, Refused lib link roomName keys first

/-! ## What one command does -/

/-- An entry has come behind the stream of a key, and nothing else. -/
structure Appends (key : Str) (keys next : Keyspace) (entry : Entry) :
    Prop where
  stream : ∃ entries, entriesOf (keys key) = some entries ∧
    entriesOf (next key) = some (entries ++ [entry])
  elsewhere : ∀ other, other ≠ key → next other = keys other

theorem xadd_appends (keys : Keyspace) (now : Nat) (key : Str)
    (fields : List Str) :
    Redis.xadd keys now key fields = (keys, .error) ∨
      ∃ entry next, Redis.xadd keys now key fields =
          (next, .bulk entry.id.text) ∧
        entry.fields = fields ∧ Appends key keys next entry := by
  rcases xadd_cases keys now key fields with
    refused | ⟨entries, last, before, -, result⟩
  · exact .inl refused
  · have known : entriesOf (keys key) = some entries := by
      rcases before with ⟨absent, rfl⟩ | present
      · rw [absent]
        rfl
      · rw [present]
        rfl
    refine .inr ⟨⟨last.next now, fields⟩, _, result, rfl,
      ⟨entries, known, ?_⟩, ?_⟩
    · rw [Function.update_self]
      rfl
    · intro other different
      exact Function.update_of_ne different _ _

/-- The stream of a message is neither absent nor of another type: there
`XADD` is refused only for its number of fields. -/
theorem xadd_of_stream {keys : Keyspace} {key : Str}
    (known : (entriesOf (keys key)).isSome) (now : Nat) {fields : List Str}
    (even : fields.length % 2 = 0) (nonempty : fields ≠ []) :
    ∃ entry next, Redis.xadd keys now key fields =
        (next, .bulk entry.id.text) ∧
      entry.fields = fields ∧ Appends key keys next entry := by
  rcases xadd_appends keys now key fields with refused | added
  · have noError : ¬ (fields.length % 2 = 1 ∨ fields = []) := by
      rw [not_or]
      exact ⟨by omega, nonempty⟩
    simp only [Redis.xadd, if_neg noError] at refused
    split at refused
    · cases (Prod.mk.inj refused).2
    · cases (Prod.mk.inj refused).2
    · rename_i value notStream isValue
      cases value with
      | stream entries last => exact absurd rfl (notStream entries last)
      | list elements => rw [isValue] at known; cases known
      | other => rw [isValue] at known; cases known
  · exact added

theorem lpush_elements {keys : Keyspace} {key : Str} {elements : List Str}
    (known : elementsOf (keys key) = some elements) (value : Str) :
    elementsOf ((lpush keys key value).1 key) = some (value :: elements) := by
  cases found : keys key with
  | none =>
      rw [found] at known
      cases known
      simp only [lpush, found, Function.update_self]
      rfl
  | some stored =>
      rw [found] at known
      cases stored with
      | list stored =>
          cases known
          simp only [lpush, found, Function.update_self]
          rfl
      | stream entries last => cases known
      | other => cases known

/-- `LPUSH` leaves a stream with entries as it is. -/
theorem lpush_entries {keys : Keyspace} {key : Str} {entries : List Entry}
    {entry : Entry} (known : entriesOf (keys key) = some (entries ++ [entry]))
    (list value : Str) :
    entriesOf ((lpush keys list value).1 key) = some (entries ++ [entry]) := by
  cases found : keys key with
  | none =>
      rw [found] at known
      simp [entriesOf] at known
  | some stored =>
      cases stored with
      | stream stored last =>
          rw [lpush_stream found]
          rwa [found] at known
      | list elements =>
          rw [found] at known
          cases known
      | other =>
          rw [found] at known
          cases known

section Room

variable {lib : JsonCpp} {link : Link} {roomName : Str}

/-- The command of a message. -/
def storeCommand (lib : JsonCpp) (link : Link) (roomName : Str) (message : Message) :
    FormatResult :=
  CacheConn.xaddSent link.printf roomName (ascii "*")
    (fieldValuePairs lib roomName message)

/-- The words of a message into a room of one word. -/
theorem storeCommand_room {key : Str} (isRoom : roomKey roomName = some key)
    {message : Message} {argv : List Str}
    (isSent : storeCommand lib link roomName message = .ok argv) :
    ∃ fields, argv = ascii "XADD" :: key :: ascii "*" :: fields := by
  obtain ⟨noNul, isKey⟩ := roomKey_eq_some isRoom
  have words := (redisvFormatCommand_eq_ok_iff _ _ _).mp isSent
  have frontNoNul : Byte.nul ∉ ascii "XADD" ++ [Byte.space] ++ roomName ++
      [Byte.space] ++ ascii "*" ++ [Byte.space] := by
    simp [noNul, ascii]
  have split : ∀ rest, ascii "XADD" ++ Byte.space :: (roomName ++ Byte.space ::
      (ascii "*" ++ Byte.space :: rest)) =
      (ascii "XADD" ++ [Byte.space] ++ roomName ++ [Byte.space] ++ ascii "*" ++
        [Byte.space]) ++ rest := by
    intro rest
    simp
  have command : wordsOf (ascii "XADD" ++ [Byte.space]) =
      some [ascii "XADD"] := by decide
  have star : wordsOf (ascii "*" ++ [Byte.space]) = some [ascii "*"] := by decide
  rw [xaddCommand_message, split, cStr_append frontNoNul, ← split,
    wordsOf_cons command, wordsOf_append_space roomName, isKey,
    wordsOf_cons star] at words
  simp only [Option.bind_some, Option.map_map, Option.map_eq_some_iff] at words
  obtain ⟨fields, -, rfl⟩ := words
  exact ⟨fields, rfl⟩

theorem exec_room (link : Link) (now : Nat) (keys : Keyspace) (key : Str)
    (fields : List Str) :
    exec link.other now keys (ascii "XADD" :: key :: ascii "*" :: fields) =
      Redis.xadd keys now key fields := by
  simp only [exec, if_true]

/-- The message has gone into the stream with these fields and into the queue,
if Redis has executed the `LPUSH`. -/
structure Turn (lib : JsonCpp) (link : Link) (roomName : Str)
    (attempt : Attempt) (keys next : Keyspace) (stored : Message)
    (entry : Entry) : Prop where
  answered : attempt.xadd = .runs
  words : storeCommand lib link roomName attempt.message =
    .ok (ascii "XADD" :: roomName :: ascii "*" :: entry.fields)
  message : stored = { attempt.message with id := entry.id.text }
  stream : ∃ middle, Appends roomName keys middle entry ∧
    next = if attempt.lpush.executes then
      (lpush middle persistQueue (persistText lib roomName stored)).1
    else middle

theorem xadd_of_undefined {keys : Keyspace} {attempt : Attempt}
    (command : storeCommand lib link roomName attempt.message = .undefined) :
    xadd lib link roomName keys attempt = none := by
  have undefinedCommand : CacheConn.xaddSent link.printf roomName (ascii "*")
      (fieldValuePairs lib roomName attempt.message) = .undefined := command
  cases fate : attempt.xadd with
  | runs => simp only [xadd, fate, Api.xadd, undefinedCommand]
  | refused => simp only [xadd, fate, undefinedCommand]
  | lost executed => simp only [xadd, fate, undefinedCommand]

theorem xadd_of_formatError {keys : Keyspace} {attempt : Attempt}
    (command : storeCommand lib link roomName attempt.message =
      .formatError) :
    xadd lib link roomName keys attempt = some (keys, none) := by
  have noCommand : CacheConn.xaddSent link.printf roomName (ascii "*")
      (fieldValuePairs lib roomName attempt.message) = .formatError := command
  cases fate : attempt.xadd with
  | runs => simp only [xadd, fate, Api.xadd, noCommand]
  | refused => simp only [xadd, fate, noCommand]
  | lost executed => simp only [xadd, fate, noCommand]

/-- A command that is not answered is executed or not. -/
theorem xadd_unanswered {keys : Keyspace} {attempt : Attempt}
    {argv : List Str}
    (command : storeCommand lib link roomName attempt.message = .ok argv)
    (unanswered : attempt.xadd ≠ .runs) :
    xadd lib link roomName keys attempt =
      some (if attempt.xadd.executes then
        (exec link.other attempt.now keys argv).1 else keys, none) := by
  have isCommand : CacheConn.xaddSent link.printf roomName (ascii "*")
      (fieldValuePairs lib roomName attempt.message) = .ok argv := command
  cases fate : attempt.xadd with
  | runs => exact absurd fate unanswered
  | refused => simp only [xadd, fate, isCommand]
  | lost executed => simp only [xadd, fate, isCommand]

/-- A command that is answered gives an id, or none for an error. -/
theorem xadd_answered {keys next : Keyspace} {attempt : Attempt}
    {argv : List Str} (reply : Option Str)
    (command : storeCommand lib link roomName attempt.message = .ok argv)
    (answered : attempt.xadd = .runs)
    (executed : exec link.other attempt.now keys argv =
      (next, reply.elim .error .bulk)) :
    xadd lib link roomName keys attempt = some (next, reply) := by
  have isCommand : CacheConn.xaddSent link.printf roomName (ascii "*")
      (fieldValuePairs lib roomName attempt.message) = .ok argv := command
  simp only [xadd, answered, Api.xadd, isCommand, executed]
  cases reply with
  | none => rfl
  | some id => rfl

theorem xadd_of_refused {keys : Keyspace} {attempt : Attempt}
    (refused : Refused lib link roomName keys attempt) :
    xadd lib link roomName keys attempt = some (keys, none) := by
  rcases refused with noCommand | ⟨argv, command, reason⟩
  · exact xadd_of_formatError noCommand
  · by_cases answered : attempt.xadd = .runs
    · rcases reason with unexecuted | executed
      · rw [answered] at unexecuted
        cases unexecuted
      · exact xadd_answered none command answered executed
    · rw [xadd_unanswered command answered]
      rcases reason with unexecuted | executed
      · rw [unexecuted]
        rfl
      · rw [executed, ite_self]

/-- What `Xadd` does for a message into a room of one word. -/
theorem xadd_room (isRoom : roomKey roomName = some roomName)
    {keys next : Keyspace} {attempt : Attempt} {reply : Option Str}
    (result : xadd lib link roomName keys attempt = some (next, reply)) :
    (Refused lib link roomName keys attempt ∧ next = keys ∧ reply = none) ∨
    (∃ entry, Appends roomName keys next entry ∧
      (reply = none ∨ reply = some entry.id.text ∧ attempt.xadd = .runs ∧
        storeCommand lib link roomName attempt.message =
          .ok (ascii "XADD" :: roomName :: ascii "*" :: entry.fields))) := by
  cases command : storeCommand lib link roomName attempt.message with
  | undefined =>
      rw [xadd_of_undefined command] at result
      cases result
  | formatError =>
      rw [xadd_of_formatError command] at result
      cases result
      exact .inl ⟨.inl command, rfl, rfl⟩
  | ok argv =>
      obtain ⟨fields, rfl⟩ := storeCommand_room isRoom command
      have executes := exec_room link attempt.now keys roomName fields
      rcases xadd_appends keys attempt.now roomName fields with
        refused | ⟨entry, after, added, rfl, appends⟩
      · rw [refused] at executes
        have isRefused : Refused lib link roomName keys attempt :=
          .inr ⟨_, command, .inr executes⟩
        rw [xadd_of_refused isRefused] at result
        cases result
        exact .inl ⟨isRefused, rfl, rfl⟩
      · rw [added] at executes
        by_cases answered : attempt.xadd = .runs
        · rw [xadd_answered (some _) command answered executes] at result
          cases result
          exact .inr ⟨entry, appends, .inr ⟨rfl, answered, rfl⟩⟩
        · rw [xadd_unanswered command answered, executes] at result
          cases isExecuted : attempt.xadd.executes with
          | false =>
              rw [isExecuted] at result
              cases result
              exact .inl ⟨.inr ⟨_, command, .inl isExecuted⟩, rfl, rfl⟩
          | true =>
              rw [isExecuted] at result
              cases result
              exact .inr ⟨entry, appends, .inl rfl⟩

/-! ## One turn -/

theorem Turn.entries {attempt : Attempt} {keys next : Keyspace}
    {stored : Message} {entry : Entry}
    (turn : Turn lib link roomName attempt keys next stored entry) :
    ∃ entries, entriesOf (keys roomName) = some entries ∧
      entriesOf (next roomName) = some (entries ++ [entry]) := by
  obtain ⟨middle, appends, rfl⟩ := turn.stream
  obtain ⟨entries, before, behind⟩ := appends.stream
  refine ⟨entries, before, ?_⟩
  split
  · exact lpush_entries behind _ _
  · exact behind

theorem Turn.elements {attempt : Attempt} {keys next : Keyspace}
    {stored : Message} {entry : Entry} {elements : List Str}
    (turn : Turn lib link roomName attempt keys next stored entry)
    (apart : roomName ≠ persistQueue)
    (known : elementsOf (keys persistQueue) = some elements) :
    elementsOf (next persistQueue) = some (if attempt.lpush.executes then
      persistText lib roomName stored :: elements else elements) := by
  obtain ⟨middle, appends, rfl⟩ := turn.stream
  rw [← appends.elsewhere persistQueue (Ne.symm apart)] at known
  split
  · exact lpush_elements known _
  · exact known

theorem storeMessage_of_answered {keys middle : Keyspace} {attempt : Attempt}
    {entry : Entry} (answered : attempt.xadd = .runs)
    (words : storeCommand lib link roomName attempt.message =
      .ok (ascii "XADD" :: roomName :: ascii "*" :: entry.fields))
    (appends : Appends roomName keys middle entry)
    (result : xadd lib link roomName keys attempt =
      some (middle, some entry.id.text)) :
    ∃ next stored, storeMessage lib link roomName keys attempt =
        some (next, some stored) ∧
      Turn lib link roomName attempt keys next stored entry := by
  refine ⟨_, { attempt.message with id := entry.id.text }, ?_, answered, words,
    rfl, middle, appends, rfl⟩
  simp only [storeMessage, result]

/-- How a turn ends in a room of one word: without an effect, with an entry
but no answer, or with the message stored. -/
theorem storeMessage_room (isRoom : roomKey roomName = some roomName)
    {keys next : Keyspace} {attempt : Attempt} {result : Option Message}
    (turned : storeMessage lib link roomName keys attempt =
      some (next, result)) :
    (Refused lib link roomName keys attempt ∧ next = keys ∧ result = none) ∨
    (∃ entry, Appends roomName keys next entry ∧ result = none) ∨
    (∃ entry stored, result = some stored ∧
      Turn lib link roomName attempt keys next stored entry) := by
  cases added : xadd lib link roomName keys attempt with
  | none =>
      simp only [storeMessage, added] at turned
      cases turned
  | some outcome =>
      obtain ⟨middle, reply⟩ := outcome
      rcases xadd_room isRoom added with
        ⟨refused, rfl, rfl⟩ | ⟨entry, appends, rfl | ⟨rfl, answered, words⟩⟩
      · simp only [storeMessage, added] at turned
        cases turned
        exact .inl ⟨refused, rfl, rfl⟩
      · simp only [storeMessage, added] at turned
        cases turned
        exact .inr (.inl ⟨entry, appends, rfl⟩)
      · obtain ⟨after, stored, turns, turn⟩ :=
          storeMessage_of_answered answered words appends added
        rw [turns] at turned
        cases turned
        exact .inr (.inr ⟨entry, stored, rfl, turn⟩)

/-- With nothing in the way every turn stores its message. -/
theorem storeMessage_of_clear (link : Link) {keys : Keyspace}
    {attempt : Attempt}
    {rest : List Attempt} (clear : Clear lib roomName keys (attempt :: rest)) :
    ∃ next stored entry, storeMessage lib link roomName keys attempt =
        some (next, some stored) ∧
      Turn lib link roomName attempt keys next stored entry ∧
      entry.fields = entryFields lib roomName attempt.message := by
  have answered := clear.answered attempt List.mem_cons_self
  have words : storeCommand lib link roomName attempt.message = .ok
      (ascii "XADD" :: roomName :: ascii "*" ::
        entryFields lib roomName attempt.message) := by
    rw [storeCommand, CacheConn.xaddSent, CacheConn.xaddCommand_eq]
    exact (CacheConn.sent_iff_intact _ _).mpr
      (clear.words attempt List.mem_cons_self)
  have four : (entryFields lib roomName attempt.message).length = 4 := rfl
  have even : (entryFields lib roomName attempt.message).length % 2 = 0 := by
    rw [four]
  obtain ⟨entry, middle, added, fields, appends⟩ :=
    xadd_of_stream clear.stream attempt.now even (List.cons_ne_nil _ _)
  have executed := exec_room link attempt.now keys roomName
    (entryFields lib roomName attempt.message)
  rw [added] at executed
  have result := xadd_answered (some _) words answered executed
  rw [← fields] at words
  obtain ⟨next, stored, turned, turn⟩ :=
    storeMessage_of_answered answered words appends result
  exact ⟨next, stored, entry, turned, turn, fields⟩

theorem Clear.next {keys next : Keyspace} {attempt : Attempt}
    {rest : List Attempt} {stored : Message} {entry : Entry}
    (clear : Clear lib roomName keys (attempt :: rest))
    (turn : Turn lib link roomName attempt keys next stored entry) :
    Clear lib roomName next rest where
  apart := clear.apart
  stream := by
    obtain ⟨entries, -, behind⟩ := turn.entries
    rw [behind]
    rfl
  queue := by
    obtain ⟨elements, known⟩ := Option.isSome_iff_exists.mp clear.queue
    rw [turn.elements clear.apart known]
    rfl
  words other member := clear.words other (List.mem_cons_of_mem _ member)
  answered other member := clear.answered other (List.mem_cons_of_mem _ member)
  pushed other member := clear.pushed other (List.mem_cons_of_mem _ member)

/-! ## The loop -/

theorem storeMessages_cons_of_some {keys next : Keyspace} {attempt : Attempt}
    {stored : Message} (rest : List Attempt)
    (turned : storeMessage lib link roomName keys attempt =
      some (next, some stored)) :
    storeMessages lib link roomName keys (attempt :: rest) =
      (storeMessages lib link roomName next rest).map
        fun (final, ret, later) => (final, ret, stored :: later) := by
  simp only [storeMessages, turned]

theorem storeMessages_cons_of_none {keys next : Keyspace} {attempt : Attempt}
    (rest : List Attempt)
    (turned : storeMessage lib link roomName keys attempt =
      some (next, none)) :
    storeMessages lib link roomName keys (attempt :: rest) =
      some (next, -1, []) := by
  simp only [storeMessages, turned]

/-- The first message ends the call without an entry, or behind one, or it is
stored and the call goes on. -/
theorem storeMessages_cons_cases (isRoom : roomKey roomName = some roomName)
    {keys after : Keyspace} {attempt : Attempt} {rest : List Attempt}
    {ret : Int} {stored : List Message}
    (called : storeMessages lib link roomName keys (attempt :: rest) =
      some (after, ret, stored)) :
    (ret = -1 ∧ after = keys ∧ Refused lib link roomName keys attempt) ∨
    (ret = -1 ∧ ∃ entry, Appends roomName keys after entry) ∨
    (∃ next entry first later,
      Turn lib link roomName attempt keys next first entry ∧
        storeMessages lib link roomName next rest = some (after, ret, later) ∧
        stored = first :: later) := by
  cases turned : storeMessage lib link roomName keys attempt with
  | none =>
      simp only [storeMessages, turned] at called
      cases called
  | some outcome =>
      obtain ⟨next, result⟩ := outcome
      rcases storeMessage_room isRoom turned with
        ⟨refused, rfl, rfl⟩ | ⟨entry, appends, rfl⟩ | ⟨entry, first, rfl, turn⟩
      · rw [storeMessages_cons_of_none rest turned] at called
        cases called
        exact .inl ⟨rfl, rfl, refused⟩
      · rw [storeMessages_cons_of_none rest turned] at called
        cases called
        exact .inr (.inl ⟨rfl, entry, appends⟩)
      · rw [storeMessages_cons_of_some rest turned] at called
        obtain ⟨⟨final, ret', later⟩, others, equality⟩ :=
          Option.map_eq_some_iff.mp called
        cases equality
        exact .inr (.inr ⟨next, entry, first, later, turn, others, rfl⟩)

/-- With nothing in the way the call stores the list. -/
theorem storeMessages_of_clear (link : Link) {keys : Keyspace}
    {attempts : List Attempt}
    (clear : Clear lib roomName keys attempts) :
    ∃ after stored,
      storeMessages lib link roomName keys attempts =
        some (after, 0, stored) ∧
      Stored lib roomName attempts keys after stored := by
  induction attempts generalizing keys with
  | nil =>
      obtain ⟨entries, stream⟩ := Option.isSome_iff_exists.mp clear.stream
      obtain ⟨elements, queue⟩ := Option.isSome_iff_exists.mp clear.queue
      refine ⟨keys, [], rfl, .nil, ⟨entries, [], stream, ?_, rfl⟩,
        ⟨elements, queue, queue⟩⟩
      rw [List.append_nil]
      exact stream
  | cons attempt rest induction =>
      obtain ⟨next, stored, entry, turned, turn, fields⟩ :=
        storeMessage_of_clear link clear
      obtain ⟨after, later, called, laterStored⟩ :=
        induction (clear.next turn)
      obtain ⟨entries, before, behind⟩ := turn.entries
      obtain ⟨elements, known⟩ := Option.isSome_iff_exists.mp clear.queue
      have pushed := turn.elements clear.apart known
      rw [clear.pushed attempt List.mem_cons_self, if_pos rfl] at pushed
      refine ⟨after, stored :: later, ?_, ?_, ?_, ?_⟩
      · rw [storeMessages_cons_of_some rest turned, called]
        rfl
      · refine .cons ?_ laterStored.messages
        rw [turn.message]
      · obtain ⟨others, added, others_eq, final, isAdded⟩ := laterStored.stream
        rw [behind] at others_eq
        cases others_eq
        refine ⟨entries, entry :: added, before, ?_, ?_⟩
        · rw [final, List.append_assoc]
          rfl
        · rw [List.map_cons, List.map_cons, isAdded, fields, turn.message]
          rfl
      · obtain ⟨others, others_eq, final⟩ := laterStored.queue
        rw [pushed] at others_eq
        cases others_eq
        refine ⟨elements, known, ?_⟩
        rw [final, List.map_cons, List.reverse_cons, List.append_assoc]
        rfl

/-- Whatever fails, the stream of the room only grows: in a call that returns 0
by the entries that were sent. -/
theorem storeMessages_entries (isRoom : roomKey roomName = some roomName)
    {keys after : Keyspace} {attempts : List Attempt} {ret : Int}
    {stored : List Message} {entries : List Entry}
    (called : storeMessages lib link roomName keys attempts =
      some (after, ret, stored))
    (known : entriesOf (keys roomName) = some entries) :
    ∃ added, entriesOf (after roomName) = some (entries ++ added) ∧
      (ret = 0 → List.Forall₂ (fun attempt entry => attempt.xadd = .runs ∧
        storeCommand lib link roomName attempt.message =
          .ok (ascii "XADD" :: roomName :: ascii "*" :: entry.fields))
        attempts added) := by
  induction attempts generalizing keys entries ret stored with
  | nil =>
      cases called
      exact ⟨[], by rw [known, List.append_nil], fun _ => .nil⟩
  | cons attempt rest induction =>
      rcases storeMessages_cons_cases isRoom called with
        ⟨rfl, rfl, -⟩ | ⟨rfl, entry, appends⟩ |
          ⟨next, entry, first, later, turn, others, rfl⟩
      · refine ⟨[], by rw [known, List.append_nil], ?_⟩
        intro impossible
        cases impossible
      · obtain ⟨before, isBefore, behind⟩ := appends.stream
        rw [known] at isBefore
        cases isBefore
        refine ⟨[entry], behind, ?_⟩
        intro impossible
        cases impossible
      · obtain ⟨before, isBefore, behind⟩ := turn.entries
        rw [known] at isBefore
        cases isBefore
        obtain ⟨added, grown, every⟩ := induction others behind
        refine ⟨entry :: added, ?_, ?_⟩
        · rw [grown, List.append_assoc]
          rfl
        · intro isZero
          exact .cons ⟨turn.answered, turn.words⟩ (every isZero)

/-- A call that returns 0 pushes what Redis executes, and nothing else. -/
theorem storeMessages_elements (isRoom : roomKey roomName = some roomName)
    (apart : roomName ≠ persistQueue) {keys after : Keyspace}
    {attempts : List Attempt} {stored : List Message} {elements : List Str}
    (called : storeMessages lib link roomName keys attempts =
      some (after, 0, stored))
    (known : elementsOf (keys persistQueue) = some elements) :
    ∃ pushed, elementsOf (after persistQueue) = some (pushed ++ elements) ∧
      pushed.length =
        (attempts.filter fun attempt => attempt.lpush.executes).length := by
  induction attempts generalizing keys elements stored with
  | nil =>
      cases called
      exact ⟨[], known, rfl⟩
  | cons attempt rest induction =>
      rcases storeMessages_cons_cases isRoom called with
        ⟨impossible, -, -⟩ | ⟨impossible, -⟩ |
          ⟨next, entry, first, later, turn, others, rfl⟩
      · cases impossible
      · cases impossible
      · obtain ⟨pushed, grown, count⟩ :=
          induction others (turn.elements apart known)
        cases executes : attempt.lpush.executes with
        | true =>
            rw [executes, if_pos rfl] at grown
            refine ⟨pushed ++ [persistText lib roomName first], ?_, ?_⟩
            · rw [grown, List.append_assoc]
              rfl
            · simp [executes, count]
        | false =>
            rw [executes] at grown
            refine ⟨pushed, grown, ?_⟩
            simp [executes, count]

/-! ## When the call is atomic -/

/-- Entries with the fields of their messages have been sent as they were
meant. -/
theorem intact_of_stored {attempts : List Attempt} {added : List Entry}
    {stored : List Message}
    (commands : List.Forall₂ (fun attempt entry => attempt.xadd = .runs ∧
      storeCommand lib link roomName attempt.message =
        .ok (ascii "XADD" :: roomName :: ascii "*" :: entry.fields))
      attempts added)
    (messages : List.Forall₂
      (fun attempt message => message = { attempt.message with id := message.id })
      attempts stored)
    (fields : added.map (·.fields) = stored.map (entryFields lib roomName)) :
    ∀ attempt ∈ attempts, Intact (CacheConn.xaddArgv roomName (ascii "*")
      (fieldValuePairs lib roomName attempt.message)) := by
  induction commands generalizing stored with
  | nil => simp
  | @cons attempt entry attempts added first rest induction =>
      cases messages with
      | @cons _ message _ stored isMessage others =>
          simp only [List.map_cons, List.cons.injEq] at fields
          rw [List.forall_mem_cons]
          refine ⟨?_, induction others fields.2⟩
          have same : entryFields lib roomName message =
              entryFields lib roomName attempt.message := by
            rw [isMessage]
            rfl
          have command := first.2
          rw [fields.1, same, storeCommand, CacheConn.xaddSent,
            CacheConn.xaddCommand_eq] at command
          exact (CacheConn.sent_iff_intact _ _).mp command

/-- What has been stored completely met nothing in the way. -/
theorem clear_of_stored (isRoom : roomKey roomName = some roomName)
    {keys after : Keyspace} {attempts : List Attempt}
    {stored returned : List Message} (nonempty : attempts ≠ [])
    (called : storeMessages lib link roomName keys attempts =
      some (after, 0, returned))
    (isStored : Stored lib roomName attempts keys after stored) :
    Clear lib roomName keys attempts := by
  obtain ⟨entries, gained, stream, afterStream, isGained⟩ := isStored.stream
  obtain ⟨elements, queue, afterQueue⟩ := isStored.queue
  obtain ⟨added, grown, every⟩ := storeMessages_entries isRoom called stream
  have commands := every rfl
  rw [afterStream] at grown
  have same : gained = added := List.append_cancel_left (Option.some.inj grown)
  subst same
  have apart : roomName ≠ persistQueue := by
    intro isQueue
    rw [← isQueue] at afterQueue
    have someGained : gained ≠ [] := by
      intro noneGained
      rw [noneGained] at commands
      cases commands
      exact nonempty rfl
    cases found : after roomName with
    | none =>
        rw [found] at afterStream
        simp only [entriesOf, Option.some.injEq] at afterStream
        exact someGained (List.append_eq_nil_iff.mp afterStream.symm).2
    | some value =>
        rw [found] at afterStream afterQueue
        cases value with
        | list elements => cases afterStream
        | stream entries last => cases afterQueue
        | other => cases afterStream
  have fields : gained.map (·.fields) =
      stored.map (entryFields lib roomName) := by
    have seconds := congrArg (List.map Prod.snd) isGained
    rw [List.map_map, List.map_map] at seconds
    exact seconds
  refine ⟨apart, ?_, ?_, intact_of_stored commands isStored.messages fields,
    ?_, ?_⟩
  · rw [stream]
    rfl
  · rw [queue]
    rfl
  · intro attempt member
    obtain ⟨index, bound, rfl⟩ := List.getElem_of_mem member
    exact (commands.get bound (commands.length_eq ▸ bound)).1
  · obtain ⟨pushed, queued, count⟩ :=
      storeMessages_elements isRoom apart called queue
    rw [afterQueue] at queued
    have lengths := congrArg List.length
      (List.append_cancel_right (Option.some.inj queued))
    rw [List.length_reverse, List.length_map, count,
      ← isStored.messages.length_eq] at lengths
    exact List.length_filter_eq_length_iff.mp lengths.symm

/-- A call that fails without an effect fails at its first message. -/
theorem refused_of_unchanged (isRoom : roomKey roomName = some roomName)
    {keys after : Keyspace} {attempts : List Attempt} {ret : Int}
    {stored : List Message}
    (called : storeMessages lib link roomName keys attempts =
      some (after, ret, stored))
    (negative : ret < 0) (unchanged : after roomName = keys roomName) :
    ∃ first ∈ attempts.head?, Refused lib link roomName keys first := by
  cases attempts with
  | nil =>
      cases called
      exact absurd negative (by decide)
  | cons attempt rest =>
      refine ⟨attempt, rfl, ?_⟩
      rcases storeMessages_cons_cases isRoom called with
        ⟨-, -, refused⟩ | ⟨-, entry, appends⟩ |
          ⟨next, entry, first, later, turn, others, rfl⟩
      · exact refused
      · obtain ⟨entries, before, behind⟩ := appends.stream
        rw [unchanged, before] at behind
        simp at behind
      · obtain ⟨entries, before, behind⟩ := turn.entries
        obtain ⟨added, grown, -⟩ := storeMessages_entries isRoom others behind
        rw [unchanged, before] at grown
        simp at grown

theorem storeMessages_ret {keys after : Keyspace} {attempts : List Attempt}
    {ret : Int} {stored : List Message}
    (called : storeMessages lib link roomName keys attempts =
      some (after, ret, stored)) : ret = 0 ∨ ret < 0 := by
  induction attempts generalizing keys ret stored with
  | nil =>
      cases called
      exact .inl rfl
  | cons attempt rest induction =>
      simp only [storeMessages] at called
      split at called
      · cases called
      · cases called
        exact .inr (by decide)
      · obtain ⟨⟨final, ret', later⟩, others, equality⟩ :=
          Option.map_eq_some_iff.mp called
        cases equality
        exact induction others

/-- A failure without an effect. -/
theorem atomic_of_failed (lib : JsonCpp) (roomName : Str)
    (attempts : List Attempt) (keys : Keyspace) :
    Atomic lib roomName attempts keys (some (keys, -1, [])) := by
  refine ⟨keys, -1, [], rfl, ?_, fun _ => ⟨rfl, rfl⟩⟩
  intro impossible
  exact absurd impossible (by decide)

theorem atomic_of_stored {keys after : Keyspace} {attempts : List Attempt}
    {stored : List Message} (isStored : attempts ≠ [] →
      Stored lib roomName attempts keys after stored) :
    Atomic lib roomName attempts keys (some (after, 0, stored)) := by
  refine ⟨after, 0, stored, rfl, fun _ => isStored, ?_⟩
  intro impossible
  exact absurd impossible (by decide)

theorem storeMessages_of_refused {keys : Keyspace} {attempts : List Attempt}
    {first : Attempt} (isFirst : first ∈ attempts.head?)
    (refused : Refused lib link roomName keys first) :
    storeMessages lib link roomName keys attempts = some (keys, -1, []) := by
  obtain ⟨rest, rfl⟩ := List.head?_eq_some_iff.mp isFirst
  apply storeMessages_cons_of_none
  simp only [storeMessage, xadd_of_refused refused]

theorem guard_of_atomic (isRoom : roomKey roomName = some roomName)
    {keys : Keyspace} {attempts : List Attempt}
    (atomic : Atomic lib roomName attempts keys
      (storeMessages lib link roomName keys attempts)) :
    attempts = [] ∨ Clear lib roomName keys attempts ∨
      ∃ first ∈ attempts.head?, Refused lib link roomName keys first := by
  obtain ⟨after, ret, stored, called, success, failure⟩ := atomic
  by_cases nonempty : attempts = []
  · exact .inl nonempty
  · rcases storeMessages_ret called with rfl | negative
    · exact .inr (.inl (clear_of_stored isRoom nonempty called
        (success rfl nonempty)))
    · exact .inr (.inr (refused_of_unchanged isRoom called negative
        (failure negative).1))

end Room

/-- The call is atomic when nothing comes between the messages and their two
places, or the first `XADD` fails without an effect; for a room that is one
word of the commands in no other case. -/
theorem apiStoreMessageTiered_atomic_iff (lib : JsonCpp) (link : Link)
    (connection : Bool) (roomName : Str) (keys : Keyspace)
    (attempts : List Attempt) :
    (guard lib link connection roomName keys attempts →
      Atomic lib roomName attempts keys
        (apiStoreMessageTiered lib link connection roomName keys attempts)) ∧
    (roomKey roomName = some roomName →
      Atomic lib roomName attempts keys
        (apiStoreMessageTiered lib link connection roomName keys attempts) →
      guard lib link connection roomName keys attempts) := by
  cases connection with
  | false => exact ⟨fun _ => atomic_of_failed .., fun _ _ => .inl rfl⟩
  | true =>
      have call : apiStoreMessageTiered lib link true roomName keys attempts =
          storeMessages lib link roomName keys attempts := rfl
      rw [call]
      constructor
      · intro guarded
        rcases guarded with impossible | rfl | clear | ⟨first, isFirst, refused⟩
        · cases impossible
        · exact atomic_of_stored fun nonempty => absurd rfl nonempty
        · obtain ⟨after, stored, called, isStored⟩ :=
            storeMessages_of_clear link clear
          rw [called]
          exact atomic_of_stored fun _ => isStored
        · rw [storeMessages_of_refused isFirst refused]
          exact atomic_of_failed ..
      · intro isRoom atomic
        exact .inr (guard_of_atomic isRoom atomic)

/-! ## One ordinary message -/

def helloAttempt (lpush : Fate) : Attempt := ⟨hello [], 5, .runs, lpush⟩

theorem intact_hello : Intact (CacheConn.xaddArgv (ascii "0001") (ascii "*")
    (fieldValuePairs helloJson (ascii "0001") (hello []))) := by
  decide +kernel

theorem store_hello_atomic :
    Atomic helloJson (ascii "0001") [helloAttempt .runs] (fun _ => none)
      (apiStoreMessageTiered helloJson quietLink true (ascii "0001")
        (fun _ => none) [helloAttempt .runs]) := by
  apply (apiStoreMessageTiered_atomic_iff helloJson quietLink true
    (ascii "0001") (fun _ => none) [helloAttempt .runs]).1
  refine .inr (.inr (.inl ⟨by decide, rfl, rfl, ?_, ?_, ?_⟩))
  · intro attempt member
    rw [List.mem_singleton.mp member]
    exact intact_hello
  · intro attempt member
    rw [List.mem_singleton.mp member]
    rfl
  · intro attempt member
    rw [List.mem_singleton.mp member]
    rfl

/-- Redis refuses the `LPUSH`: the call returns 0, and the message is not in
the queue. -/
theorem store_hello_not_queued :
    ¬ Atomic helloJson (ascii "0001") [helloAttempt .refused] (fun _ => none)
      (apiStoreMessageTiered helloJson quietLink true (ascii "0001")
        (fun _ => none) [helloAttempt .refused]) := by
  have isRoom : roomKey (ascii "0001") = some (ascii "0001") := by
    decide +kernel
  have command : storeCommand helloJson quietLink (ascii "0001") (hello []) =
      .ok (ascii "XADD" :: ascii "0001" :: ascii "*" ::
        entryFields helloJson (ascii "0001") (hello [])) := by
    rw [storeCommand, CacheConn.xaddSent, CacheConn.xaddCommand_eq]
    exact (CacheConn.sent_iff_intact _ _).mpr intact_hello
  have executed := exec_room quietLink 5 (fun _ => none) (ascii "0001")
    (entryFields helloJson (ascii "0001") (hello []))
  intro atomic
  rcases guard_of_atomic isRoom atomic with
    impossible | clear | ⟨first, isFirst, refused⟩
  · cases impossible
  · have pushed := clear.pushed _ List.mem_cons_self
    cases pushed
  · cases isFirst
    rcases refused with noCommand | ⟨argv, isCommand, reason⟩
    · have both := command.symm.trans noCommand
      cases both
    · have both := command.symm.trans isCommand
      cases both
      rcases reason with unexecuted | isError
      · cases unexecuted
      · have both := executed.symm.trans isError
        cases (Prod.mk.inj both).2

end Tiered

end ChatRoom
