import ChatRoom.Api.Persistence
import ChatRoom.Service.ClientMessages

/-!
# The key of the persist queue

The stream of a room and the queue of messages for MySQL share one keyspace,
and the room is a string of the client.  A run is a sequence of client messages
and of batches; Redis does with an `XADD` it has options for what its
documentation says: at most it makes or extends a stream.
-/

namespace ChatRoom

namespace PersistQueue

open Connection Redis
open Api (Link persistQueue)
open ClientMessages (Surroundings Handled request)

/-- An `XADD` changes its own key at most, and only from an absent key or a
stream to a stream. -/
def AddsOnly (other : Keyspace → List Str → Keyspace × Redis.Reply) :
    Prop :=
  ∀ keys key args changed,
    (other keys (ascii "XADD" :: key :: args)).1 changed ≠ keys changed →
      changed = key ∧ (keys changed = none ∨ ∃ entries last,
        keys changed = some (.stream entries last)) ∧ ∃ entries last,
        (other keys (ascii "XADD" :: key :: args)).1 changed =
          some (.stream entries last)

/-- What a call of `ApiBatchPersistMessages` meets: connections, an answer to
`LRANGE`, the result of `ExecuteUpdate`, and whether the `DEL` is executed. -/
structure BatchRun where
  connection : Bool
  batchSize : Int
  answered : Bool
  inserted : Bool
  deleted : Bool

/-- What `Lrange` gives: an error reply is no array and reads as no
elements. -/
def lrangeTexts (keys : Keyspace) (batchSize : Int) : List Str :=
  match keys persistQueue with
  | some (.list elements) => Redis.lrange elements 0 (batchSize - 1)
  | _ => []

/-- `ApiBatchPersistMessages`; no result is an exception. -/
def apiBatchPersistMessages (lib : JsonCpp) (keys : Keyspace)
    (run : BatchRun) : Keyspace × Option Int :=
  if run.connection then
    match if run.answered then lrangeTexts keys run.batchSize else [] with
    | [] => (keys, some 0)
    | first :: rest =>
        match (Api.readRows lib (first :: rest)).bind Api.batchPersistSql with
        | none => (keys, none)
        | some _ =>
            if run.inserted then
              (if run.deleted then Function.update keys persistQueue none
                else keys, some ((first :: rest).length))
            else (keys, some (-1))
  else (keys, some (-1))

/-- Redis, and the texts that calls of `ApiStoreMessageTiered` have pushed. -/
structure State where
  keys : Keyspace
  pushed : List Str

inductive Event where
  | message (around : Surroundings) (conn : Connection) (root : Json)
  | batch (run : BatchRun)

section Run

variable (lib : Libraries) (link : Link)

/-- The room and the content that a client message stores. -/
def accepted (around : Surroundings) (keys : Keyspace) (root : Json) :
    Option (Str × Str) :=
  if root.get (ascii "type") >>= (·.asString lib.toJsonCpp) =
      some (ascii "clientMessages") then
    request lib link around keys root
  else none

/-- The text that the call pushes. -/
def pushedBy (around : Surroundings) (conn : Connection) (keys : Keyspace)
    (root : Json) : List Str :=
  match accepted lib link around keys root with
  | none => []
  | some (room, content) =>
      match Tiered.apiStoreMessageTiered lib.toJsonCpp link around.connection
          room keys [around.attempt conn content] with
      | some (_, 0, [stored]) =>
          if around.lpush.executes then
            [Tiered.persistText lib.toJsonCpp room stored]
          else []
      | _ => []

def step (state : State) : Event → Option State
  | .message around conn root =>
      (ClientMessages.handleClientMessages lib link around conn state.keys
        root).map fun handled =>
          ⟨handled.keys,
            pushedBy lib link around conn state.keys root ++ state.pushed⟩
  | .batch run =>
      some ⟨(apiBatchPersistMessages lib.toJsonCpp state.keys run).1,
        state.pushed⟩

/-- The key is absent, or a list of texts that were pushed. -/
def Good (state : State) : Prop :=
  state.keys persistQueue = none ∨ ∃ elements,
    state.keys persistQueue = some (.list elements) ∧
      ∀ element ∈ elements, element ∈ state.pushed

/-- The `XADD` of a client message makes the key of the queue a stream: it
names that key while it is absent, Redis gets it, and does not refuse it. -/
structure Takes (state : State) (around : Surroundings) (conn : Connection)
    (room content : Str) (words : List Str) : Prop where
  connected : around.connection = true
  executed : around.xadd.executes = true
  command : Tiered.storeCommand lib.toJsonCpp link room
    (around.attempt conn content).message =
      .ok (ascii "XADD" :: persistQueue :: words)
  absent : state.keys persistQueue = none
  performed : (exec link.other around.redisNow state.keys
    (ascii "XADD" :: persistQueue :: words)).1 persistQueue ≠ none

/-- No client message takes the key of the queue. -/
def guard (state : State) : Event → Prop
  | .message around conn root => ∀ room content words,
      accepted lib link around state.keys root = some (room, content) →
        ¬ Takes lib link state around conn room content words
  | .batch _ => True

end Run

/-! ## What an `XADD` does to the key -/

/-- Every command of `Xadd` is an `XADD`. -/
theorem storeCommand_xadd {lib : JsonCpp} {link : Link} {room : Str}
    {message : Message} {argv : List Str}
    (command : Tiered.storeCommand lib link room message = .ok argv) :
    ∃ words, argv = ascii "XADD" :: words := by
  have read := (redisvFormatCommand_eq_ok_iff _ _ _).mp command
  have isWord : wordsOf (ascii "XADD" ++ [Byte.space]) =
      some [ascii "XADD"] := by decide
  have frontNoNul : Byte.nul ∉ ascii "XADD" ++ [Byte.space] := by decide
  have split : ∀ rest, ascii "XADD" ++ Byte.space :: rest =
      (ascii "XADD" ++ [Byte.space]) ++ rest := by
    intro rest
    simp
  rw [Api.xaddCommand_message, split, cStr_append frontNoNul, ← split,
    Api.wordsOf_cons isWord] at read
  obtain ⟨words, -, rfl⟩ := Option.map_eq_some_iff.mp read
  exact ⟨words, rfl⟩

/-- A key that an `XADD` changes is its own, and becomes a stream. -/
theorem exec_xadd_adds {link : Link} (adds : AddsOnly link.other) {now : Nat}
    {keys : Keyspace} {words : List Str} {changed : Str}
    (changes : (exec link.other now keys (ascii "XADD" :: words)).1 changed ≠
      keys changed) :
    (∃ args, words = changed :: args) ∧
      (keys changed = none ∨ ∃ entries last,
        keys changed = some (.stream entries last)) ∧
      ∃ entries last, (exec link.other now keys (ascii "XADD" :: words)).1
        changed = some (.stream entries last) := by
  match words with
  | [] => exact absurd rfl changes
  | [key] => exact absurd rfl changes
  | key :: id :: fields =>
      simp only [exec, if_true] at changes ⊢
      split at changes
      · rename_i isStar
        rw [if_pos isStar]
        rcases xadd_cases keys now key fields with
          refused | ⟨entries, last, before, -, result⟩
        · rw [refused] at changes
          exact absurd rfl changes
        · rw [result] at changes ⊢
          have isKey : changed = key := by
            by_contra different
            exact changes (Function.update_of_ne different _ _)
          subst isKey
          refine ⟨⟨_, rfl⟩, ?_, _, _, Function.update_self _ _ _⟩
          rcases before with ⟨absent, -⟩ | present
          · exact .inl absent
          · exact .inr ⟨_, _, present⟩
      · rename_i notStar
        rw [if_neg notStar]
        split at changes
        · exact absurd rfl changes
        · rename_i accepted
          rw [if_neg accepted]
          obtain ⟨rfl, before, behind⟩ := adds keys key (id :: fields) changed
            changes
          exact ⟨⟨_, rfl⟩, before, behind⟩

/-- Redis behind the `XADD` of the call. -/
def behindXadd (lib : JsonCpp) (link : Link) (connection : Bool) (room : Str)
    (keys : Keyspace) (attempt : Tiered.Attempt) : Keyspace :=
  match Tiered.storeCommand lib link room attempt.message with
  | .ok argv =>
      if connection ∧ attempt.xadd.executes then
        (exec link.other attempt.now keys argv).1
      else keys
  | _ => keys

theorem behindXadd_cases (lib : JsonCpp) (link : Link) (connection : Bool)
    (room : Str) (keys : Keyspace) (attempt : Tiered.Attempt) :
    behindXadd lib link connection room keys attempt = keys ∨
    ∃ words, connection = true ∧ attempt.xadd.executes = true ∧
      Tiered.storeCommand lib link room attempt.message =
        .ok (ascii "XADD" :: words) ∧
      behindXadd lib link connection room keys attempt =
        (exec link.other attempt.now keys (ascii "XADD" :: words)).1 := by
  cases command : Tiered.storeCommand lib link room attempt.message with
  | undefined => exact .inl (by rw [behindXadd, command])
  | formatError => exact .inl (by rw [behindXadd, command])
  | ok argv =>
      obtain ⟨words, rfl⟩ := storeCommand_xadd command
      by_cases performed : connection = true ∧ attempt.xadd.executes = true
      · right
        refine ⟨words, performed.1, performed.2, rfl, ?_⟩
        simp only [behindXadd, command, if_pos performed]
      · left
        simp only [behindXadd, command, if_neg performed]

theorem xadd_behind {lib : JsonCpp} {link : Link} {room : Str}
    {keys next : Keyspace} {attempt : Tiered.Attempt} {reply : Option Str}
    (result : Tiered.xadd lib link room keys attempt = some (next, reply)) :
    next = behindXadd lib link true room keys attempt := by
  cases command : Tiered.storeCommand lib link room attempt.message with
  | undefined =>
      rw [Tiered.xadd_of_undefined command] at result
      cases result
  | formatError =>
      rw [Tiered.xadd_of_formatError command] at result
      cases result
      rw [behindXadd, command]
  | ok argv =>
      rw [behindXadd, command]
      by_cases answered : attempt.xadd = .runs
      · have sent : CacheConn.xaddSent link.printf room (ascii "*")
            (Api.fieldValuePairs lib room attempt.message) = .ok argv := command
        have executes : attempt.xadd.executes = true := by
          rw [answered]
          rfl
        simp only [executes, and_self, if_true]
        simp only [Tiered.xadd, answered, Api.xadd, sent] at result
        split at result
        · rename_i executed
          cases result
          rw [executed]
        · rename_i executed
          cases result
          rw [executed]
        · cases result
      · rw [Tiered.xadd_unanswered command answered] at result
        cases result
        simp only [true_and]

/-- A call with one message makes its `XADD` and at most one `LPUSH`. -/
theorem storeOne_behind {lib : JsonCpp} {link : Link} {connection : Bool}
    {room : Str} {keys next : Keyspace} {attempt : Tiered.Attempt} {ret : Int}
    {messages : List Message}
    (called : Tiered.apiStoreMessageTiered lib link connection room keys
      [attempt] = some (next, ret, messages)) :
    next = behindXadd lib link connection room keys attempt ∨
    ∃ stored, ret = 0 ∧ messages = [stored] ∧
      attempt.lpush.executes = true ∧
      next = (lpush (behindXadd lib link connection room keys attempt)
        persistQueue (Tiered.persistText lib room stored)).1 := by
  cases connection with
  | false =>
      cases called
      left
      unfold behindXadd
      split
      · simp
      · rfl
  | true =>
      simp only [Tiered.apiStoreMessageTiered, Tiered.storeMessages, if_true,
        Tiered.storeMessage] at called
      cases added : Tiered.xadd lib link room keys attempt with
      | none =>
          rw [added] at called
          cases called
      | some outcome =>
          obtain ⟨middle, reply⟩ := outcome
          have behind := xadd_behind added
          rw [added] at called
          cases reply with
          | none =>
              cases called
              exact .inl behind
          | some id =>
              cases called
              rw [← behind]
              cases pushed : attempt.lpush.executes with
              | false => exact .inl rfl
              | true => exact .inr ⟨_, rfl, rfl, rfl, rfl⟩

/-! ## One step -/

section Step

variable {lib : Libraries} {link : Link} {around : Surroundings}
  {conn : Connection} {keys : Keyspace} {root : Json}

theorem storeAndPublish_keys {handled : Handled} {room content : Str}
    (called : ClientMessages.storeAndPublish lib link around conn keys room
      content = some handled) :
    ∃ ret messages, Tiered.apiStoreMessageTiered lib.toJsonCpp link
      around.connection room keys [around.attempt conn content] =
        some (handled.keys, ret, messages) := by
  rcases ClientMessages.storeOne_cases lib.toJsonCpp link around.connection
      room keys (around.attempt conn content) with
    undefinedCall | ⟨next, failed⟩ | ⟨next, stored, connected, isStored⟩
  · simp only [ClientMessages.storeAndPublish, undefinedCall] at called
    cases called
  · rw [ClientMessages.storeAndPublish_of_failed failed] at called
    cases called
    exact ⟨_, _, failed⟩
  · have stores : Tiered.apiStoreMessageTiered lib.toJsonCpp link
        around.connection room keys [around.attempt conn content] =
        some (next, 0, [stored]) := by
      rw [connected]
      exact isStored
    rw [ClientMessages.storeAndPublish_of_stored stores] at called
    refine ⟨0, [stored], ?_⟩
    split at called
    · cases called
      exact stores
    · split at called
      · cases called
        exact stores
      · cases called
        exact stores

/-- Redis behind a client message. -/
theorem handled_keys {handled : Handled}
    (called : ClientMessages.handleClientMessages lib link around conn keys
      root = some handled) :
    (accepted lib link around keys root = none ∧ handled.keys = keys) ∨
    ∃ room content ret messages,
      accepted lib link around keys root = some (room, content) ∧
      Tiered.apiStoreMessageTiered lib.toJsonCpp link around.connection room
        keys [around.attempt conn content] =
          some (handled.keys, ret, messages) := by
  by_cases isType : root.get (ascii "type") >>= (·.asString lib.toJsonCpp) =
      some (ascii "clientMessages")
  · rw [accepted, if_pos isType]
    cases isRequest : request lib link around keys root with
    | none =>
        rw [ClientMessages.handleClientMessages_of_refused isType isRequest]
          at called
        cases called
        exact .inl ⟨rfl, rfl⟩
    | some fields =>
        obtain ⟨room, content⟩ := fields
        rw [ClientMessages.handleClientMessages_of_request isType isRequest]
          at called
        obtain ⟨ret, messages, stores⟩ := storeAndPublish_keys called
        exact .inr ⟨room, content, ret, messages, rfl, stores⟩
  · left
    refine ⟨if_neg isType, ?_⟩
    unfold ClientMessages.handleClientMessages at called
    split at called
    · cases called
      rfl
    · rename_i type found
      have notMessage : type ≠ ascii "clientMessages" := by
        intro equality
        rw [found, equality] at isType
        exact isType rfl
      rw [if_neg notMessage] at called
      split at called
      · split at called
        · cases called
          rfl
        · cases called
          rfl
      · cases called
        rfl

/-- The text a call pushes is among those that are recorded. -/
theorem pushedBy_of_stored {room content : Str} {next : Keyspace}
    {stored : Message}
    (isRequest : accepted lib link around keys root = some (room, content))
    (called : Tiered.apiStoreMessageTiered lib.toJsonCpp link around.connection
      room keys [around.attempt conn content] = some (next, 0, [stored]))
    (pushed : around.lpush.executes = true) :
    pushedBy lib link around conn keys root =
      [Tiered.persistText lib.toJsonCpp room stored] := by
  simp only [pushedBy, isRequest, called, pushed, if_true]

/-- An `XADD` that changes the key of the queue while nothing is there. -/
theorem takes_of_changed {state : State} {room content : Str}
    (adds : AddsOnly link.other)
    (absent : state.keys persistQueue = none)
    (changes : behindXadd lib.toJsonCpp link around.connection room state.keys
      (around.attempt conn content) persistQueue ≠ none) :
    ∃ words, Takes lib link state around conn room content words := by
  rcases behindXadd_cases lib.toJsonCpp link around.connection room state.keys
      (around.attempt conn content) with
    unchanged | ⟨words, connected, executed, command, behind⟩
  · rw [unchanged] at changes
    exact absurd absent changes
  · rw [behind] at changes
    have different := changes
    rw [← absent] at different
    obtain ⟨⟨args, rfl⟩, -, -⟩ := exec_xadd_adds adds different
    exact ⟨args, connected, executed, command, absent, changes⟩

/-- A list stays what it is. -/
theorem behindXadd_list {room content : Str} (adds : AddsOnly link.other)
    {elements : List Str}
    (isList : keys persistQueue = some (.list elements)) :
    behindXadd lib.toJsonCpp link around.connection room keys
      (around.attempt conn content) persistQueue = keys persistQueue := by
  rcases behindXadd_cases lib.toJsonCpp link around.connection room keys
      (around.attempt conn content) with
    unchanged | ⟨words, -, -, -, behind⟩
  · rw [unchanged]
  · rw [behind]
    by_contra different
    obtain ⟨-, before, -⟩ := exec_xadd_adds adds different
    rw [isList] at before
    rcases before with absent | ⟨entries, last, isStream⟩
    · cases absent
    · cases isStream

end Step

section Queue

variable {lib : Libraries} {link : Link}

theorem good_of_lpush {state : State} {keys : Keyspace} {text : Str}
    (good : Good state)
    (same : keys persistQueue = state.keys persistQueue) :
    Good ⟨(lpush keys persistQueue text).1, text :: state.pushed⟩ := by
  right
  rcases good with absent | ⟨elements, isList, known⟩
  · refine ⟨[text], ?_, by simp⟩
    rw [absent] at same
    simp only [lpush, same, Function.update_self]
  · refine ⟨text :: elements, ?_, ?_⟩
    · rw [isList] at same
      simp only [lpush, same, Function.update_self]
    · intro element member
      rcases List.mem_cons.mp member with rfl | earlier
      · exact List.mem_cons_self
      · exact List.mem_cons_of_mem _ (known element earlier)

theorem good_of_same {state : State} {keys : Keyspace} {more : List Str}
    (good : Good state)
    (same : keys persistQueue = state.keys persistQueue) :
    Good ⟨keys, more ++ state.pushed⟩ := by
  rcases good with absent | ⟨elements, isList, known⟩
  · exact .inl (same.trans absent)
  · exact .inr ⟨elements, same.trans isList, fun element member =>
      List.mem_append_right _ (known element member)⟩

/-- A batch deletes the key or leaves it. -/
theorem good_of_batch {state : State} (good : Good state) (run : BatchRun) :
    Good ⟨(apiBatchPersistMessages lib.toJsonCpp state.keys run).1,
      state.pushed⟩ := by
  have same : Good ⟨state.keys, state.pushed⟩ := good
  have gone : (Function.update state.keys persistQueue none : Keyspace)
      persistQueue = none :=
    Function.update_self _ _ _
  have deleted : Good
      ⟨Function.update state.keys persistQueue none, state.pushed⟩ :=
    .inl gone
  unfold apiBatchPersistMessages
  split
  · split
    · exact same
    · split
      · exact same
      · split
        · split
          · exact deleted
          · exact same
        · exact same
  · exact same

/-- A message that does not take the key keeps the queue. -/
theorem good_of_message {state : State} {around : Surroundings}
    {conn : Connection} {root : Json} {handled : Handled}
    (adds : AddsOnly link.other) (good : Good state)
    (guarded : guard lib link state (.message around conn root))
    (called : ClientMessages.handleClientMessages lib link around conn
      state.keys root = some handled) :
    Good ⟨handled.keys,
      pushedBy lib link around conn state.keys root ++ state.pushed⟩ := by
  rcases handled_keys called with
    ⟨-, unchanged⟩ | ⟨room, content, ret, messages, isRequest, stores⟩
  · exact good_of_same good (by rw [unchanged])
  · have same : behindXadd lib.toJsonCpp link around.connection room state.keys
        (around.attempt conn content) persistQueue =
        state.keys persistQueue := by
      rcases good with absent | ⟨elements, isList, -⟩
      · rw [absent]
        by_contra changes
        obtain ⟨words, takes⟩ := takes_of_changed adds absent changes
        exact guarded room content words isRequest takes
      · exact behindXadd_list adds isList
    rcases storeOne_behind stores with
      behind | ⟨stored, rfl, rfl, pushed, behind⟩
    · rw [behind]
      exact good_of_same good same
    · rw [behind, pushedBy_of_stored isRequest stores pushed]
      exact good_of_lpush good same

/-- A message that takes the key leaves a stream there. -/
theorem not_good_of_takes {state : State} {around : Surroundings}
    {conn : Connection} {root : Json} {handled : Handled}
    {room content : Str} {words pushed : List Str}
    (adds : AddsOnly link.other)
    (isRequest : accepted lib link around state.keys root =
      some (room, content))
    (takes : Takes lib link state around conn room content words)
    (called : ClientMessages.handleClientMessages lib link around conn
      state.keys root = some handled) :
    ¬ Good ⟨handled.keys, pushed⟩ := by
  have different : (exec link.other around.redisNow state.keys
      (ascii "XADD" :: persistQueue :: words)).1 persistQueue ≠
      state.keys persistQueue := by
    rw [takes.absent]
    exact takes.performed
  obtain ⟨-, -, entries, last, isStream⟩ := exec_xadd_adds adds different
  have middle : behindXadd lib.toJsonCpp link around.connection room state.keys
      (around.attempt conn content) persistQueue =
      some (.stream entries last) := by
    have performed : around.connection = true ∧
        (around.attempt conn content).xadd.executes = true :=
      ⟨takes.connected, takes.executed⟩
    rw [behindXadd, takes.command]
    simp only [if_pos performed]
    exact isStream
  have final : handled.keys persistQueue = some (.stream entries last) := by
    rcases handled_keys called with
      ⟨noRequest, -⟩ | ⟨room', content', ret, messages, sameRequest, stores⟩
    · rw [isRequest] at noRequest
      cases noRequest
    · rw [isRequest] at sameRequest
      cases sameRequest
      rcases storeOne_behind stores with behind | ⟨stored, -, -, -, behind⟩
      · rw [behind]
        exact middle
      · rw [behind]
        exact lpush_stream middle _ _
  intro good
  rcases good with absent | ⟨elements, isList, -⟩
  · exact absurd (final.symm.trans absent) (by simp)
  · exact absurd (final.symm.trans isList) (by simp)

end Queue

/-- The key of the queue stays absent or a list of pushed texts in exactly the
runs in which no client message makes it a stream. -/
theorem persistQueue_good_iff (lib : Libraries) (link : Link)
    (adds : AddsOnly link.other) (start : State) (initially : Good start)
    (events : List Event) :
    Lib.Always (step lib link) Good start events ↔
      Lib.Meets (step lib link) (guard lib link) start events := by
  apply Lib.always_iff_meets (fun good => good) _ _ initially
  · intro state next event good guarded taken
    cases event with
    | message around conn root =>
        obtain ⟨handled, called, rfl⟩ := Option.map_eq_some_iff.mp taken
        exact good_of_message adds good guarded called
    | batch run =>
        cases taken
        exact good_of_batch good run
  · intro state next event good taken goodNext
    cases event with
    | message around conn root =>
        obtain ⟨handled, called, rfl⟩ := Option.map_eq_some_iff.mp taken
        intro room content words isRequest takes
        exact not_good_of_takes adds isRequest takes called goodNext
    | batch run => trivial

/-! ## Two rooms -/

theorem quietLink_adds : AddsOnly Api.quietLink.other := by
  intro keys key args changed changes
  exact absurd rfl changes

def empty : State := ⟨fun _ => none, []⟩

open ClientMessages (plainLib helloRequest quiet connected)

/-- A message into an ordinary room. -/
theorem hello_keeps_queue :
    Lib.Always (step plainLib Api.quietLink) Good empty
      [.message quiet (connected (ascii "7")) helloRequest] := by
  apply (persistQueue_good_iff plainLib Api.quietLink quietLink_adds empty
    (.inl rfl) [.message quiet (connected (ascii "7")) helloRequest]).2
  intro next _
  refine ⟨?_, trivial⟩
  intro room content words isRequest takes
  cases isRequest
  have command : Tiered.storeCommand plainLib.toJsonCpp Api.quietLink
      (ascii "0001") ⟨[], ascii "hello", 1, ascii "7"⟩ =
      .ok (CacheConn.xaddArgv (ascii "0001") (ascii "*")
        (Api.fieldValuePairs plainLib.toJsonCpp (ascii "0001")
          ⟨[], ascii "hello", 1, ascii "7"⟩)) := by
    decide +kernel
  have both := command.symm.trans takes.command
  cases both

/-- The same message into the room `msg_persist_queue`. -/
def queueRequest : Json := .object [
  (ascii "payload", .object [(ascii "content", .string (ascii "hello")),
    (ascii "roomId", .string persistQueue)]),
  (ascii "type", .string (ascii "clientMessages"))]

/-- The room `msg_persist_queue` makes a stream of the queue. -/
theorem queueRequest_takes_queue :
    ¬ Lib.Always (step plainLib Api.quietLink) Good empty
      [.message quiet (connected (ascii "7")) queueRequest] := by
  have isRequest : accepted plainLib Api.quietLink quiet empty.keys
      queueRequest = some (persistQueue, ascii "hello") := by
    rfl
  have command : Tiered.storeCommand plainLib.toJsonCpp Api.quietLink
      persistQueue ⟨[], ascii "hello", 1, ascii "7"⟩ =
      .ok (ascii "XADD" :: persistQueue :: ascii "*" ::
        Tiered.entryFields plainLib.toJsonCpp persistQueue
          ⟨[], ascii "hello", 1, ascii "7"⟩) := by
    decide +kernel
  have absent : (Tiered.entriesOf (empty.keys persistQueue)).isSome := rfl
  have even : (Tiered.entryFields plainLib.toJsonCpp persistQueue
      ⟨[], ascii "hello", 1, ascii "7"⟩).length % 2 = 0 := rfl
  obtain ⟨entry, middle, added, -, appends⟩ :=
    Tiered.xadd_of_stream absent 5 even (List.cons_ne_nil _ _)
  have executed := Tiered.exec_room Api.quietLink 5 empty.keys persistQueue
    (Tiered.entryFields plainLib.toJsonCpp persistQueue
      ⟨[], ascii "hello", 1, ascii "7"⟩)
  rw [added] at executed
  have created : middle persistQueue ≠ none := by
    obtain ⟨entries, -, behind⟩ := appends.stream
    intro missing
    rw [missing] at behind
    simp [Tiered.entriesOf] at behind
  have takes : Takes plainLib Api.quietLink empty quiet
      (connected (ascii "7")) persistQueue (ascii "hello") _ :=
    ⟨rfl, rfl, command, rfl, fun missing => created
      ((congrFun (congrArg Prod.fst executed) persistQueue).symm.trans missing)⟩
  have result : Tiered.xadd plainLib.toJsonCpp Api.quietLink persistQueue
      empty.keys (quiet.attempt (connected (ascii "7")) (ascii "hello")) =
      some (middle, some entry.id.text) :=
    Tiered.xadd_answered (some _) command rfl executed
  obtain ⟨next, stored, turned⟩ : ∃ next stored,
      Tiered.storeMessage plainLib.toJsonCpp Api.quietLink persistQueue
        empty.keys (quiet.attempt (connected (ascii "7")) (ascii "hello")) =
        some (next, some stored) := by
    simp only [Tiered.storeMessage, result]
    exact ⟨_, _, rfl⟩
  have stores : Tiered.apiStoreMessageTiered plainLib.toJsonCpp Api.quietLink
      quiet.connection persistQueue empty.keys
      [quiet.attempt (connected (ascii "7")) (ascii "hello")] =
      some (next, 0, [stored]) :=
    Tiered.storeMessages_cons_of_some [] turned
  have lookedUp : ClientMessages.apiGetUserInfoById quiet.user =
      some (some (ascii "amy", ascii "/img/amy.png")) := by
    decide +kernel
  have number : stoi (connected (ascii "7")).userid = some 7 := by
    decide +kernel
  obtain ⟨handled, called⟩ : ∃ handled, ClientMessages.handleClientMessages
      plainLib Api.quietLink quiet (connected (ascii "7")) empty.keys
      queueRequest = some handled := by
    rw [ClientMessages.handleClientMessages_of_request rfl isRequest,
      ClientMessages.storeAndPublish_of_stored stores]
    simp only [lookedUp, number]
    exact ⟨_, rfl⟩
  intro always
  have taken : step plainLib Api.quietLink empty
      (.message quiet (connected (ascii "7")) queueRequest) =
      some ⟨handled.keys, pushedBy plainLib Api.quietLink quiet
        (connected (ascii "7")) empty.keys queueRequest ++ empty.pushed⟩ := by
    simp only [step, called]
    rfl
  have later := (Lib.always_cons_iff.mp always).2 _ taken
  exact not_good_of_takes quietLink_adds isRequest takes called
    (later [] List.nil_prefix _ rfl)

end PersistQueue

end ChatRoom
