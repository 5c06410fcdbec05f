import ChatRoom.Api.History
import ChatRoom.Api.Statements
import Mathlib.Data.List.Nodup

/-!
# Moving the queued messages to MySQL

`ApiStoreMessageTiered` pushes every message on a Redis list.  A timer runs
`ApiBatchPersistMessages`, which reads a front of that list, inserts it into
the table `messages` and then deletes the whole list.  The steps of the calls
and of the batch interleave, and every single one may fail.
-/

namespace ChatRoom

namespace Api

namespace PersistRow

/-- The message of a call into a room, with the id `XADD` gave it. -/
def ofMessage (roomName : Str) (stored : Message) : PersistRow :=
  ⟨stored.id, roomName, stored.userId, stored.content, stored.timestamp⟩

/-- The stream of its room, and its id there. -/
def key (row : PersistRow) : Str × Str :=
  (row.roomId, row.redisId)

def values (row : PersistRow) : List Str :=
  [row.redisId, row.roomId, row.userId, row.content]

def json (row : PersistRow) : Json :=
  Message.persistJson row.roomId
    ⟨row.redisId, row.content, row.timestamp, row.userId⟩

/-- The element `LPUSH` puts on the list. -/
def text (lib : JsonCpp) (row : PersistRow) : Str :=
  cStr (lib.writeString row.json)

end PersistRow

/-! ## The statement of a batch -/

/-- A member of a queued message, converted; outside, an exception. -/
def member {Value : Type} (msg : Json) (name : Str)
    (convert : Json → Option Value) : Option Value :=
  (msg.get name).bind convert

/-- The arguments of `FormatString` for a queued message. -/
def readRow (lib : JsonCpp) (msg : Json) : Option PersistRow := do
  let redisId ← member msg (ascii "redis_id") (·.asString lib)
  let roomId ← member msg (ascii "room_id") (·.asString lib)
  let userId ← member msg (ascii "user_id") (·.asString lib)
  let content ← member msg (ascii "content") (·.asString lib)
  let timestamp ← member msg (ascii "timestamp") (·.asUInt64)
  return ⟨redisId, roomId, userId, content, timestamp⟩

/-- The rows of the texts of a list: a text that does not parse is skipped. -/
def readRows (lib : JsonCpp) : List Str → Option (List PersistRow)
  | [] => some []
  | text :: texts =>
      match lib.parse text with
      | none => readRows lib texts
      | some msg => do
          let row ← readRow lib msg
          let rows ← readRows lib texts
          return row :: rows

/-- The statement `ApiBatchPersistMessages` builds, `none` for an exception. -/
def batchSql (lib : JsonCpp) (msgList : List PersistRow) : Option Str :=
  (readRows lib (msgList.map (·.text lib))).bind batchPersistSql

end Api

namespace Persistence

open Api

/-! ## Calls and batches -/

/-- A call of `ApiStoreMessageTiered` that has not returned: the messages it is
through with, each with whether Redis executed the `LPUSH`, and the others. -/
structure Call where
  roomName : Str
  done : List (PersistRow × Bool)
  remaining : List Message
  deriving DecidableEq

/-- Where `ApiBatchPersistMessages` stands: not running, behind `LRANGE`, or
behind an `INSERT` that succeeded. -/
inductive Batch where
  | idle
  | fetched (first : PersistRow) (rest : List PersistRow)
  | inserted (first : PersistRow) (rest : List PersistRow)
  deriving DecidableEq

/-- `queue` holds the messages whose texts the list has, newest first;
`messages` is the table, `ids` are the ids `XADD` has given, and `stored` are
the messages of the calls that returned 0. -/
structure State where
  queue : List PersistRow
  messages : List PersistRow
  ids : List (Str × Str)
  calls : List Call
  stored : List PersistRow
  batch : Batch
  deriving DecidableEq

def State.start : State :=
  ⟨[], [], [], [], [], .idle⟩

/-- The steps of the calls of `ApiStoreMessageTiered`.  `XADD` changes no list,
so a turn of the loop takes effect with its `LPUSH`.  Without a connection a
call ends like one whose first `Xadd` fails. -/
inductive CallEvent where
  | called (roomName : Str) (msgs : List Message)
  | xaddFails (call : Nat)
  | turn (call : Nat) (id : Str) (pushed : Bool)
  | returns (call : Nat)

/-- What MySQL does with a statement: it fails, or it is executed and the
answer reaches the caller or not. -/
inductive Execution where
  | fails
  | executes (added : List PersistRow) (answered : Bool)

/-- The steps of the calls of `ApiBatchPersistMessages`.  Without a connection
there is no answer to `LRANGE` either. -/
inductive BatchEvent where
  | lrange (batchSize : Int) (answered : Bool)
  | insert (execution : Execution)
  | del (executed : Bool)

inductive Event where
  | call (event : CallEvent)
  | batch (event : BatchEvent)

/-- `XADD` gives every id of a stream once.  The result of `Lpush` is only
logged, and a failing `Xadd` ends the call with -1. -/
def callStep (state : State) : CallEvent → Option State
  | .called roomName msgs =>
      some { state with calls := ⟨roomName, [], msgs⟩ :: state.calls }
  | .xaddFails index =>
      match state.calls[index]? with
      | some ⟨_, _, _ :: _⟩ =>
          some { state with calls := state.calls.eraseIdx index }
      | _ => none
  | .turn index id pushed =>
      match state.calls[index]? with
      | some ⟨roomName, done, msg :: remaining⟩ =>
          let row := PersistRow.ofMessage roomName { msg with id := id }
          if row.key ∈ state.ids then none
          else
            some { state with
              ids := row.key :: state.ids
              queue := if pushed then row :: state.queue else state.queue
              calls := state.calls.set index
                ⟨roomName, done ++ [(row, pushed)], remaining⟩ }
      | _ => none
  | .returns index =>
      match state.calls[index]? with
      | some ⟨_, done, []⟩ =>
          some { state with
            stored := state.stored ++ done.map Prod.fst
            calls := state.calls.eraseIdx index }
      | _ => none

/-- `ExecuteUpdate` returns true for an answer with affected rows.  An executed
batch insert adds its rows; what another statement adds is open. -/
def batchStep (lib : JsonCpp) (state : State) : BatchEvent → Option State
  | .lrange batchSize answered =>
      match state.batch with
      | .idle =>
          if answered then
            match Redis.lrange state.queue 0 (batchSize - 1) with
            | [] => some state
            | first :: rest => some { state with batch := .fetched first rest }
          else some state
      | _ => none
  | .insert execution =>
      match state.batch with
      | .fetched first rest =>
          match batchSql lib (first :: rest), execution with
          | none, _ => some { state with batch := .idle }
          | some _, .fails => some { state with batch := .idle }
          | some sql, .executes added answered =>
              if insertedRows sql = none ∨ insertedRows sql = some added then
                some { state with
                  messages := state.messages ++ added
                  batch :=
                    if answered ∧ added ≠ [] then .inserted first rest
                    else .idle }
              else none
      | _ => none
  | .del executed =>
      match state.batch with
      | .inserted _ _ =>
          some { state with
            queue := if executed then [] else state.queue
            batch := .idle }
      | _ => none

def step (lib : JsonCpp) (state : State) : Event → Option State
  | .call event => callStep state event
  | .batch event => batchStep lib state event

/-- How often a message stands in the list and in the table. -/
def State.copies (state : State) (row : PersistRow) : Nat :=
  state.queue.count row + state.messages.count row

/-- Between batches every message of a call that returned 0 stands in the list
or in the table, and only once. -/
def State.Kept (state : State) : Prop :=
  state.batch = .idle → ∀ row ∈ state.stored, state.copies row = 1

/-! ## The guard -/

/-- A message that survives its JSON text and the SQL statement. -/
structure Writable (lib : JsonCpp) (row : PersistRow) : Prop where
  reads : readRows lib [row.text lib] = some [row]
  noNul : ∀ value ∈ row.values, Byte.nul ∉ value
  plain : ∀ value ∈ row.values, Lib.Sql.isPlain value = true

/-- A call that returns 0 has pushed all its messages; an executed `INSERT` is
answered and has rows that survive it; behind it the list holds exactly the
rows, and the `DEL` is executed. -/
def guard (lib : JsonCpp) (state : State) : Event → Prop
  | .call (.returns index) =>
      ∀ call ∈ state.calls[index]?, ∀ turn ∈ call.done, turn.2 = true
  | .batch (.insert (.executes _ answered)) =>
      answered = true ∧
        ∀ first rest, state.batch = .fetched first rest →
          ∀ row ∈ first :: rest, Writable lib row
  | .batch (.del executed) =>
      executed = true ∧
        ∀ first rest, state.batch = .inserted first rest →
          state.queue = first :: rest
  | _ => True

/-! ## The list in Redis -/

/-- The keyspace has the texts of the queue on the list. -/
def Lists (lib : JsonCpp) (keys : Redis.Keyspace) (queue : List PersistRow) :
    Prop :=
  keys persistQueue =
    if queue = [] then none else some (.list (queue.map (·.text lib)))

/-- A turn of the loop as `storeMessage` has it does to the list what a turn
does to the queue. -/
theorem storeMessage_lists {lib : JsonCpp} {link : Link} {roomName id : Str}
    {keys middle : Redis.Keyspace} {incoming : Incoming}
    {queue : List PersistRow}
    (added : Api.xadd link keys incoming.now roomName (ascii "*")
      (fieldValuePairs lib roomName incoming.message) = some (middle, some id))
    (lists : Lists lib middle queue) :
    ∃ next, storeMessage lib link roomName keys incoming =
        some (next, some { incoming.message with id := id }) ∧
      Lists lib next
        (if incoming.pushed then
          .ofMessage roomName { incoming.message with id := id } :: queue
        else queue) := by
  refine ⟨_, by rw [storeMessage, added], ?_⟩
  unfold Lists at lists
  by_cases pushed : incoming.pushed = true
  · simp only [if_pos pushed]
    by_cases empty : queue = []
    · rw [if_pos empty] at lists
      simp [Lists, Redis.lpush, lists, empty, PersistRow.text, PersistRow.json,
        PersistRow.ofMessage]
    · rw [if_neg empty] at lists
      simp [Lists, Redis.lpush, lists, PersistRow.text, PersistRow.json,
        PersistRow.ofMessage]
  · simp only [if_neg pushed]
    exact lists

/-! ## The invariant -/

/-- The messages that must not get lost are among `held`, which has none
twice. -/
structure Sound (state : State) (held : List PersistRow) : Prop where
  distinct : (held.map PersistRow.key).Nodup
  given : ∀ row ∈ held, row.key ∈ state.ids
  stored : ∀ row ∈ state.stored, row ∈ held
  pushed : ∀ call ∈ state.calls, ∀ turn ∈ call.done, turn.2 = true →
    turn.1 ∈ held

/-- Behind the `INSERT` the rows of the batch stand in the list and in the
table: there only the others count. -/
def Invariant (state : State) : Prop :=
  match state.batch with
  | .inserted first rest =>
      ∃ older, state.messages = older ++ first :: rest ∧
        Sound state (state.queue ++ older)
  | _ => Sound state (state.queue ++ state.messages)

theorem Sound.perm {state : State} {held others : List PersistRow}
    (sound : Sound state held) (permutation : held.Perm others) :
    Sound state others where
  distinct := (permutation.map PersistRow.key).nodup_iff.mp sound.distinct
  given := fun row member => sound.given row (permutation.mem_iff.mpr member)
  stored := fun row member => permutation.mem_iff.mp (sound.stored row member)
  pushed := fun call member turn inside pushed =>
    permutation.mem_iff.mp (sound.pushed call member turn inside pushed)

/-- Only the ids, the calls and the messages that are stored count. -/
theorem Sound.congr {state other : State} {held : List PersistRow}
    (sound : Sound state held) (ids : other.ids = state.ids)
    (calls : other.calls = state.calls) (stored : other.stored = state.stored) :
    Sound other held where
  distinct := sound.distinct
  given := by
    rw [ids]
    exact sound.given
  stored := by
    rw [stored]
    exact sound.stored
  pushed := by
    rw [calls]
    exact sound.pushed

/-- A step of a call leaves the batch and the table alone, and only puts
messages in front of the list. -/
theorem callStep_frame {state next : State} {event : CallEvent}
    (taken : callStep state event = some next) :
    next.batch = state.batch ∧ next.messages = state.messages ∧
      state.queue <:+ next.queue := by
  cases event with
  | called roomName msgs =>
      cases taken
      exact ⟨rfl, rfl, List.suffix_refl _⟩
  | xaddFails index =>
      simp only [callStep] at taken
      split at taken
      · cases taken
        exact ⟨rfl, rfl, List.suffix_refl _⟩
      · cases taken
  | turn index id pushed =>
      simp only [callStep] at taken
      split at taken
      · split at taken
        · cases taken
        · cases taken
          refine ⟨rfl, rfl, ?_⟩
          cases pushed with
          | false => exact List.suffix_refl _
          | true => exact List.suffix_cons _ _
      · cases taken
  | returns index =>
      simp only [callStep] at taken
      split at taken
      · cases taken
        exact ⟨rfl, rfl, List.suffix_refl _⟩
      · cases taken

/-- A message with a new id is held once, or nowhere when it is not pushed. -/
theorem Sound.turn {state : State} {older : List PersistRow} {index : Nat}
    {roomName : Str} {done : List (PersistRow × Bool)}
    {rest remaining : List Message} {row : PersistRow} {pushed : Bool}
    (sound : Sound state (state.queue ++ older))
    (running : state.calls[index]? = some ⟨roomName, done, rest⟩)
    (fresh : row.key ∉ state.ids) :
    Sound { state with
        ids := row.key :: state.ids
        queue := if pushed then row :: state.queue else state.queue
        calls := state.calls.set index
          ⟨roomName, done ++ [(row, pushed)], remaining⟩ }
      ((if pushed then row :: state.queue else state.queue) ++ older) := by
  have kept : ∀ other ∈ state.queue ++ older,
      other ∈ (if pushed then row :: state.queue else state.queue) ++ older := by
    intro other member
    cases pushed with
    | false => exact member
    | true => exact List.mem_cons_of_mem row member
  have new : ∀ other ∈
      (if pushed then row :: state.queue else state.queue) ++ older,
      other ∈ state.queue ++ older ∨ other = row := by
    intro other member
    cases pushed with
    | false => exact .inl member
    | true =>
        rcases List.mem_cons.mp member with equality | old
        · exact .inr equality
        · exact .inl old
  constructor
  · cases pushed with
    | false => exact sound.distinct
    | true =>
        refine List.nodup_cons.mpr ⟨?_, sound.distinct⟩
        intro member
        obtain ⟨other, inside, sameKey⟩ := List.mem_map.mp member
        rw [← sameKey] at fresh
        exact fresh (sound.given other inside)
  · intro other member
    rcases new other member with old | rfl
    · exact List.mem_cons_of_mem _ (sound.given other old)
    · exact List.mem_cons_self
  · intro other member
    exact kept other (sound.stored other member)
  · intro call member turn inside wasPushed
    rcases List.mem_or_eq_of_mem_set member with old | rfl
    · exact kept _ (sound.pushed call old turn inside wasPushed)
    · rcases List.mem_append.mp inside with earlier | last
      · apply kept
        exact sound.pushed _ (List.mem_of_getElem? running) turn earlier
          wasPushed
      · rw [List.mem_singleton] at last
        subst last
        rw [if_pos wasPushed]
        exact List.mem_cons_self

/-- What a step of a call does to the messages that are held. -/
theorem callStep_sound {lib : JsonCpp} {state next : State}
    {event : CallEvent} {older : List PersistRow}
    (sound : Sound state (state.queue ++ older))
    (guarded : guard lib state (.call event))
    (taken : callStep state event = some next) :
    Sound next (next.queue ++ older) := by
  cases event with
  | called roomName msgs =>
      cases taken
      refine ⟨sound.distinct, sound.given, sound.stored, ?_⟩
      intro call member turn inside pushed
      rcases List.mem_cons.mp member with rfl | old
      · cases inside
      · exact sound.pushed call old turn inside pushed
  | xaddFails index =>
      simp only [callStep] at taken
      split at taken
      · cases taken
        refine ⟨sound.distinct, sound.given, sound.stored, ?_⟩
        intro call member
        exact sound.pushed call (List.mem_of_mem_eraseIdx member)
      · cases taken
  | turn index id pushed =>
      simp only [callStep] at taken
      split at taken
      · rename_i roomName done msg remaining running
        split at taken
        · cases taken
        · rename_i fresh
          cases taken
          exact sound.turn running fresh
      · cases taken
  | returns index =>
      simp only [callStep] at taken
      split at taken
      · rename_i roomName done running
        cases taken
        have allPushed := guarded _ running
        refine ⟨sound.distinct, sound.given, ?_, ?_⟩
        · intro row member
          rcases List.mem_append.mp member with old | new
          · exact sound.stored row old
          · obtain ⟨turn, inside, rfl⟩ := List.mem_map.mp new
            exact sound.pushed _ (List.mem_of_getElem? running) turn inside
              (allPushed turn inside)
        · intro call member
          exact sound.pushed call (List.mem_of_mem_eraseIdx member)
      · cases taken

/-! ## The insert -/

theorem member_string {lib : JsonCpp} {msg : Json} {name text : Str}
    (found : msg.get name = some (.string text)) :
    member msg name (·.asString lib) = some text := by
  rw [member, found, Option.bind_some, Json.asString_string]

theorem member_number {msg : Json} {name : Str} {number : Nat}
    (found : msg.get name = some (.int number)) (small : number < 2 ^ 64) :
    member msg name (·.asUInt64) = some number := by
  rw [member, found, Option.bind_some, Json.asUInt64_int_ofNat small]

/-- A text that jsoncpp parses back reads as the message. -/
theorem readRows_of_parse {lib : JsonCpp} {row : PersistRow}
    (parsed : lib.parse (row.text lib) = some row.json)
    (small : row.timestamp < 2 ^ 64) :
    readRows lib [row.text lib] = some [row] := by
  have redisId : member row.json (ascii "redis_id") (·.asString lib) =
      some row.redisId := member_string rfl
  have roomId : member row.json (ascii "room_id") (·.asString lib) =
      some row.roomId := member_string rfl
  have userId : member row.json (ascii "user_id") (·.asString lib) =
      some row.userId := member_string rfl
  have content : member row.json (ascii "content") (·.asString lib) =
      some row.content := member_string rfl
  have timestamp : member row.json (ascii "timestamp") (·.asUInt64) =
      some row.timestamp := member_number rfl small
  have read : readRow lib row.json = some row := by
    rw [readRow, redisId, roomId, userId, content, timestamp]
    rfl
  simp [readRows, parsed, read]

/-- The texts of messages that survive read as these messages. -/
theorem readRows_text {lib : JsonCpp} {rows : List PersistRow}
    (writable : ∀ row ∈ rows, Writable lib row) :
    readRows lib (rows.map (·.text lib)) = some rows := by
  induction rows with
  | nil => rfl
  | cons row rows induction =>
      have later := induction fun other member =>
        writable other (List.mem_cons_of_mem row member)
      have first := (writable row List.mem_cons_self).reads
      simp only [readRows] at first
      simp only [List.map_cons, readRows]
      cases parsed : lib.parse (row.text lib) with
      | none => simp [parsed] at first
      | some msg =>
          cases read : readRow lib msg with
          | none => simp [parsed, read] at first
          | some other =>
              have equality : other = row := by
                simpa [parsed, read] using first
              simp [read, later, equality]

/-- The statement of a batch that survives adds the messages of the batch. -/
theorem insertedRows_batchSql {lib : JsonCpp} {first : PersistRow}
    {rest : List PersistRow}
    (writable : ∀ row ∈ first :: rest, Writable lib row) :
    ∃ sql, batchSql lib (first :: rest) = some sql ∧
      insertedRows sql = some (first :: rest) := by
  have nulFree : ∀ row ∈ first :: rest, row.NulFree := by
    intro row member slot inside
    apply (writable row member).noNul slot.1
    simp only [rowSlots, List.mem_cons, List.not_mem_nil, or_false] at inside
    rcases inside with rfl | rfl | rfl | rfl <;> simp [PersistRow.values]
  have plain : ∀ slot ∈ batchSlots (first :: rest),
      Lib.Sql.isPlain slot.1 = true := by
    rw [forall_mem_batchSlots_iff (first :: rest)
      fun value => Lib.Sql.isPlain value = true]
    intro value member
    obtain ⟨row, inside, isValue⟩ := List.mem_flatMap.mp member
    exact (writable row inside).plain value isValue
  obtain ⟨sql, text, tokens⟩ := (batch_lex_iff nulFree).mpr plain
  refine ⟨sql, ?_, insertedRows_eq nulFree tokens⟩
  rw [batchSql, readRows_text writable, Option.bind_some, text]

/-- MySQL can execute the statement of a batch that survives. -/
theorem step_insert {lib : JsonCpp} {state : State} {first : PersistRow}
    {rest : List PersistRow} (fetched : state.batch = .fetched first rest)
    (writable : ∀ row ∈ first :: rest, Writable lib row) :
    step lib state (.batch (.insert (.executes (first :: rest) true))) =
      some { state with
        messages := state.messages ++ first :: rest
        batch := .inserted first rest } := by
  obtain ⟨sql, isSql, rows⟩ := insertedRows_batchSql writable
  simp only [step, batchStep, fetched, isSql, rows]
  rw [if_pos (.inr trivial), if_pos ⟨trivial, List.cons_ne_nil _ _⟩]

/-- What a step of the batch does to the messages that are held. -/
theorem batchStep_invariant {lib : JsonCpp} {state next : State}
    {event : BatchEvent} (invariant : Invariant state)
    (guarded : guard lib state (.batch event))
    (taken : batchStep lib state event = some next) : Invariant next := by
  cases event with
  | lrange batchSize answered =>
      simp only [batchStep] at taken
      split at taken
      · rename_i idle
        simp only [Invariant, idle] at invariant
        split at taken
        · split at taken
          · cases taken
            simpa only [Invariant, idle] using invariant
          · cases taken
            exact invariant.congr rfl rfl rfl
        · cases taken
          simpa only [Invariant, idle] using invariant
      · cases taken
  | insert execution =>
      simp only [batchStep] at taken
      split at taken
      · rename_i first rest fetched
        simp only [Invariant, fetched] at invariant
        split at taken
        · cases taken
          exact invariant.congr rfl rfl rfl
        · cases taken
          exact invariant.congr rfl rfl rfl
        · rename_i sql added answered isSql
          obtain ⟨isAnswered, writable⟩ := guarded
          obtain ⟨sql', isSql', rows⟩ :=
            insertedRows_batchSql (writable first rest fetched)
          rw [isSql] at isSql'
          cases isSql'
          rw [rows] at taken
          split at taken
          · rename_i inserts
            have isBatch : added = first :: rest := by
              rcases inserts with impossible | equality
              · cases impossible
              · exact (Option.some.inj equality).symm
            cases taken
            rw [isBatch, if_pos ⟨isAnswered, List.cons_ne_nil _ _⟩]
            exact ⟨state.messages, rfl, invariant.congr rfl rfl rfl⟩
          · cases taken
      · cases taken
  | del executed =>
      simp only [batchStep] at taken
      split at taken
      · rename_i first rest inserted
        simp only [Invariant, inserted] at invariant
        obtain ⟨older, table, sound⟩ := invariant
        obtain ⟨isExecuted, whole⟩ := guarded
        cases taken
        rw [isExecuted, if_pos rfl]
        have moved : (state.queue ++ older).Perm ([] ++ state.messages) := by
          rw [table, whole first rest inserted]
          exact List.perm_append_comm
        exact (sound.perm moved).congr rfl rfl rfl
      · cases taken

theorem step_invariant {lib : JsonCpp} {state next : State} {event : Event}
    (invariant : Invariant state) (guarded : guard lib state event)
    (taken : step lib state event = some next) : Invariant next := by
  cases event with
  | call event =>
      obtain ⟨batch, messages, -⟩ := callStep_frame taken
      unfold Invariant at invariant ⊢
      rw [batch, messages]
      split at invariant
      · obtain ⟨older, table, sound⟩ := invariant
        exact ⟨older, table, callStep_sound sound guarded taken⟩
      · exact callStep_sound invariant guarded taken
  | batch event => exact batchStep_invariant invariant guarded taken

/-- Between batches the invariant counts every message. -/
theorem Invariant.kept {state : State} (invariant : Invariant state) :
    state.Kept := by
  intro idle row member
  simp only [Invariant, idle] at invariant
  have once : (state.queue ++ state.messages).Nodup :=
    List.Nodup.of_map PersistRow.key invariant.distinct
  rw [State.copies, ← List.count_append]
  exact List.count_eq_one_of_mem once (invariant.stored row member)

theorem invariant_start : Invariant .start := by
  refine ⟨List.nodup_nil, ?_, ?_, ?_⟩
  · intro row member
    cases member
  · intro row member
    cases member
  · intro call member
    cases member

/-- In a run whose steps all meet the guard no message of a call that returned
0 is lost or duplicated. -/
theorem messages_kept (lib : JsonCpp) (events : List Event)
    (meets : Lib.Meets (step lib) (guard lib) .start events) :
    Lib.Always (step lib) State.Kept .start events := by
  have always := meets.always step_invariant invariant_start
  exact always.mono fun _ invariant => invariant.kept

/-- A `DEL` that follows an `LRANGE` on `queue` and the pushes of `newer` is
safe exactly when nothing was pushed and `LRANGE` read the whole list. -/
theorem whole_list_iff {newer queue : List PersistRow} {batchSize : Int}
    (positive : 0 < batchSize) :
    newer ++ queue = Redis.lrange queue 0 (batchSize - 1) ↔
      newer = [] ∧ (queue.length : Int) ≤ batchSize := by
  rw [Redis.lrange_front queue positive]
  constructor
  · intro equality
    have lengths := congrArg List.length equality
    simp only [List.length_append, List.length_take] at lengths
    have noNewer : newer.length = 0 := by omega
    exact ⟨List.eq_nil_of_length_eq_zero noNewer, by omega⟩
  · intro whole
    obtain ⟨rfl, short⟩ := whole
    rw [List.take_of_length_le (by omega), List.nil_append]

/-- The messages of a batch. -/
def Batch.msgList : Batch → List PersistRow
  | .idle => []
  | .fetched first rest => first :: rest
  | .inserted first rest => first :: rest

/-- The messages of the batch stand together in the list. -/
def Together (state : State) : Prop :=
  state.batch.msgList <:+: state.queue

theorem step_together {lib : JsonCpp} {state next : State} {event : Event}
    (together : Together state) (taken : step lib state event = some next) :
    Together next := by
  cases event with
  | call event =>
      obtain ⟨batch, -, pushes⟩ := callStep_frame taken
      rw [Together, batch]
      exact together.trans pushes.isInfix
  | batch event =>
      cases event with
      | lrange batchSize answered =>
          simp only [step, batchStep] at taken
          split at taken
          · split at taken
            · split at taken
              · cases taken
                exact together
              · rename_i first rest read
                cases taken
                have isFront := Redis.lrange_prefix state.queue (batchSize - 1)
                rw [read] at isFront
                exact isFront.isInfix
            · cases taken
              exact together
          · cases taken
      | insert execution =>
          simp only [step, batchStep] at taken
          split at taken
          · rename_i first rest fetched
            rw [Together, fetched] at together
            split at taken
            · cases taken
              exact List.nil_infix
            · cases taken
              exact List.nil_infix
            · split at taken
              · cases taken
                rw [Together]
                split
                · exact together
                · exact List.nil_infix
              · cases taken
          · cases taken
      | del executed =>
          simp only [step, batchStep] at taken
          split at taken
          · cases taken
            exact List.nil_infix
          · cases taken

/-- A list without repetitions of which every element is in one part of it is
that part. -/
theorem eq_of_infix_of_subset {part whole : List PersistRow}
    (isInfix : part <:+: whole) (distinct : whole.Nodup)
    (inside : ∀ row ∈ whole, row ∈ part) : whole = part := by
  obtain ⟨front, behind, rfl⟩ := isInfix
  have noFront : front = [] := by
    apply List.eq_nil_iff_forall_not_mem.mpr
    intro row member
    exact List.disjoint_of_nodup_append distinct.of_append_left member
      (inside row (by simp [member]))
  have noBehind : behind = [] := by
    apply List.eq_nil_iff_forall_not_mem.mpr
    intro row member
    exact List.disjoint_of_nodup_append distinct
      (List.mem_append_right front (inside row (by simp [member]))) member
  rw [noFront, noBehind, List.nil_append, List.append_nil]

/-- A `DEL` behind which every message is kept was executed on a list with the
messages of the batch alone. -/
theorem Sound.guard_of_del {state : State} {first : PersistRow}
    {rest older : List PersistRow} {executed : Bool}
    (sound : Sound state (state.queue ++ older))
    (together : first :: rest <:+: state.queue)
    (table : state.messages = older ++ first :: rest)
    (returned : ∀ row ∈ state.queue, row ∈ state.stored)
    (once : ∀ row ∈ state.stored,
      (if executed then [] else state.queue).count row +
        state.messages.count row = 1) :
    executed = true ∧ state.queue = first :: rest := by
  have distinct : (state.queue ++ older).Nodup :=
    List.Nodup.of_map PersistRow.key sound.distinct
  have isExecuted : executed = true := by
    by_contra refused
    have firstQueued : first ∈ state.queue :=
      together.subset List.mem_cons_self
    have copies := once first (returned first firstQueued)
    have queued := List.count_pos_iff.mpr firstQueued
    have inTable : 0 < state.messages.count first := by
      rw [table]
      exact List.count_pos_iff.mpr (by simp)
    rw [if_neg refused] at copies
    omega
  refine ⟨isExecuted, ?_⟩
  apply eq_of_infix_of_subset together distinct.of_append_left
  intro row member
  have copies := once row (returned row member)
  rw [if_pos isExecuted, List.count_nil, Nat.zero_add] at copies
  have inTable : row ∈ state.messages := List.count_pos_iff.mp (by omega)
  rw [table] at inTable
  rcases List.mem_append.mp inTable with old | new
  · exact absurd old (List.disjoint_of_nodup_append distinct member)
  · exact new

/-- Once every call with a message on the list has returned 0, the condition
on the `DEL` is exact. -/
theorem del_kept_iff {lib : JsonCpp} {events : List Event}
    {state next : State} {executed : Bool}
    (meets : Lib.Meets (step lib) (guard lib) .start events)
    (reached : Lib.exec (step lib) .start events = some state)
    (returned : ∀ row ∈ state.queue, row ∈ state.stored)
    (taken : step lib state (.batch (.del executed)) = some next) :
    next.Kept ↔ guard lib state (.batch (.del executed)) := by
  have invariant : Invariant state :=
    meets.always step_invariant invariant_start events (List.prefix_refl _)
      state reached
  have initially : Together .start := List.nil_infix
  have together : Together state :=
    Lib.exec_invariant step_together initially reached
  constructor
  · intro kept
    simp only [step, batchStep] at taken
    split at taken
    · rename_i first rest inserted
      cases taken
      simp only [Invariant, inserted] at invariant
      rw [Together, inserted] at together
      obtain ⟨older, table, sound⟩ := invariant
      obtain ⟨isExecuted, whole⟩ :=
        sound.guard_of_del together table returned (kept rfl)
      refine ⟨isExecuted, ?_⟩
      intro other others isInserted
      rw [inserted] at isInserted
      cases isInserted
      exact whole
    · cases taken
  · intro guarded
    exact (step_invariant invariant guarded taken).kept

/-! ## One message, and another one during its batch -/

def helloRow (id : Str) : PersistRow :=
  .ofMessage (ascii "0001") (hello id)

/-- A call with one message, which gets the id. -/
def storeHello (id : Str) : List Event :=
  [.call (.called (ascii "0001") [hello []]), .call (.turn 0 id true),
    .call (.returns 0)]

/-- The timer reads up to 100 messages; the `INSERT` and the `DEL` succeed. -/
def insertHello : List Event :=
  [.batch (.insert (.executes [helloRow (ascii "5-0")] true)),
    .batch (.del true)]

theorem helloRow_writable :
    ∀ row ∈ [helloRow (ascii "5-0")], Writable helloJson row := by
  intro row member
  rw [List.mem_singleton.mp member]
  constructor
  · exact readRows_of_parse rfl (by decide)
  · decide +kernel
  · decide +kernel

theorem messages_kept_of_hello :
    Lib.Always (step helloJson) State.Kept .start
      (storeHello (ascii "5-0") ++ .batch (.lrange 100 true) :: insertHello) := by
  apply messages_kept
  apply Lib.Meets.cons rfl trivial
  apply Lib.Meets.cons rfl trivial
  apply Lib.Meets.cons rfl
  · intro call running turn inside
    cases running
    rw [List.mem_singleton.mp inside]
  · apply Lib.Meets.cons rfl trivial
    apply Lib.Meets.cons (step_insert rfl helloRow_writable)
    · refine ⟨rfl, ?_⟩
      intro first rest fetched
      cases fetched
      exact helloRow_writable
    · apply Lib.Meets.cons rfl
      · refine ⟨rfl, ?_⟩
        intro first rest inserted
        cases inserted
        rfl
      · trivial

/-- A message that comes between the `LRANGE` and the `DEL` of a batch is
neither on the list nor in the table. -/
theorem message_during_batch_is_lost :
    ¬ Lib.Always (step helloJson) State.Kept .start
      (storeHello (ascii "5-0") ++ .batch (.lrange 100 true) ::
        storeHello (ascii "6-0") ++ insertHello) := by
  intro always
  have fetched : Lib.exec (step helloJson) .start
      (storeHello (ascii "5-0") ++ .batch (.lrange 100 true) ::
        storeHello (ascii "6-0")) =
      some ⟨[helloRow (ascii "6-0"), helloRow (ascii "5-0")], [],
        [(ascii "0001", ascii "6-0"), (ascii "0001", ascii "5-0")], [],
        [helloRow (ascii "5-0"), helloRow (ascii "6-0")],
        .fetched (helloRow (ascii "5-0")) []⟩ := by
    decide +kernel
  have ran : Lib.exec (step helloJson) .start
      (storeHello (ascii "5-0") ++ .batch (.lrange 100 true) ::
        storeHello (ascii "6-0") ++ insertHello) =
      some ⟨[], [helloRow (ascii "5-0")],
        [(ascii "0001", ascii "6-0"), (ascii "0001", ascii "5-0")], [],
        [helloRow (ascii "5-0"), helloRow (ascii "6-0")], .idle⟩ := by
    rw [Lib.exec_append, fetched, Option.bind_some, insertHello,
      Lib.exec_cons_of_some (step_insert rfl helloRow_writable)]
    rfl
  have once := always _ (List.prefix_refl _) _ ran rfl
    (helloRow (ascii "6-0")) (by simp)
  revert once
  decide +kernel

end Persistence

end ChatRoom
