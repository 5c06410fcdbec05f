import ChatRoom.Logic.Send
import ChatRoom.Service.Forwarding
import ChatRoom.Service.Presence

/-!
# The two ways a message is delivered

A stored message is published to its room at once, and posted to Logic, whose
`PushMsg` comes back through Kafka and the Job as a `BroadcastRoom` call.  The
Job hands on the room and the text of a `PushMsg` as they are.  The network
carries posts and records in any order, and Kafka may deliver a record more
than once.
-/

namespace ChatRoom

namespace HybridDelivery

open Connection (Formed ReadOutcome)
open Presence (Server)

/-- A stored message: who sent it, where to, and its id in the Redis
stream. -/
structure Origin where
  sender : Str
  room : Str
  id : Str
  deriving DecidableEq

/-- A POST on its way to Logic. -/
structure Post where
  origin : Origin
  request : Str

/-- A record of the Kafka topic, with the clock Logic read for it. -/
structure Record where
  origin : Origin
  push : Logic.PushMsg
  clock : Nat → Nat

/-- A frame that a user has received: the value whose text it holds. -/
structure Receipt where
  origin : Origin
  user : Str
  json : Json

structure Hybrid where
  server : Server
  posts : List Post
  kafka : List Record
  received : List Receipt

/-- The user of a connection. -/
def userOf (server : Server) (conn : Nat) : Str :=
  match server.conns conn with
  | some connection => connection.userid
  | none => []

def receipts (server : Server) (origin : Origin) (json : Json)
    (targets : List Nat) : List Receipt :=
  targets.map fun target => ⟨origin, userOf server target, json⟩

/-- The frames that the publications of a read send, by connection. -/
def published (server : Server) (actions : List Action) : List (Nat × Str) :=
  actions.flatMap fun action =>
    match action with
    | .publish room sender frame =>
        (server.publishTargets room sender).map fun target => (target, frame)
    | _ => []

/-- A read of a handler.  A stored message is the origin of what the read
publishes and posts. -/
def onRead (lib : Libraries) (state : Hybrid) (handler : Nat)
    (connection : Connection) (answers : Answers) (data : Str) :
    Option Hybrid :=
  (connection.handlerOnRead lib answers data).map fun (next, actions) =>
    let server := actions.foldl (Server.perform handler) { state.server with
      conns := Function.update state.server.conns handler (some next) }
    match (connection.textPayload data).bind
        (connection.storedMessage lib answers) with
    | none => { state with server := server }
    | some (room, message) =>
        let origin : Origin := ⟨connection.userid, room, message.id⟩
        { state with
          server := server
          posts := state.posts ++ (Forwarding.forwards actions).map fun body =>
            ⟨origin, Forwarding.HttpClient.postRequest (ascii "localhost") 8090
              (ascii "/logic/send") body⟩
          received := state.received ++ receipts server origin
            (Connection.broadcastJson answers connection room message)
            (server.publishTargets room connection.userid) }

/-- The callbacks of the chat server, and the steps of Logic and the Job. -/
inductive Event where
  | connect (handler : Nat)
  | read (handler : Nat) (answers : Answers) (data : Str)
  | disconnect (handler : Nat)
  | post (index : Nat) (clock : Nat → Nat) (produced : Bool)
  | broadcastRoom (index : Nat)

def step (lib : Libraries) (logic : JsonCpp) (state : Hybrid) :
    Event → Option Hybrid
  | .connect handler =>
      match state.server.conns handler with
      | some _ => none
      | none =>
          some { state with server := { state.server with
            conns := Function.update state.server.conns handler
              (some Connection.fresh) } }
  | .read handler answers data =>
      match state.server.conns handler with
      | none => none
      | some connection => onRead lib state handler connection answers data
  | .disconnect handler =>
      match state.server.conns handler with
      | none => none
      | some connection =>
          some { state with server := { state.server with
            conns := Function.update state.server.conns handler
              (some { connection with connected := false }) } }
  | .post index clock produced =>
      match state.posts[index]? with
      | none => none
      | some post =>
          let posts := state.posts.eraseIdx index
          match Logic.onMessage logic clock post.request with
          | some push =>
              some { state with
                posts := posts
                kafka := if produced then
                    state.kafka ++ [⟨post.origin, push, clock⟩]
                  else state.kafka }
          | none => some { state with posts := posts }
  | .broadcastRoom index =>
      match state.kafka[index]? with
      | none => none
      | some record =>
          let (server, targets) := state.server.broadcastRoom record.push.room
          some { state with
            server := server
            received := state.received ++
              receipts server record.origin record.push.messageWrapper targets }

def start : Hybrid := ⟨Presence.start.server, [], [], []⟩

/-! ## Agreement of the two ways -/

/-- The message ids in a frame: the `id` of the payload, or those of its
messages. -/
def carriedIds (json : Json) : List (Option Str) :=
  match json.get (ascii "payload") with
  | some payload =>
      match payload.get (ascii "messages") with
      | some (.array messages) => messages.map Logic.idOf
      | _ => [Logic.idOf payload]
  | none => []

/-- Every frame carries the id the message was stored under, and none goes to
its sender. -/
def Agree (state : Hybrid) : Prop :=
  ∀ receipt ∈ state.received,
    carriedIds receipt.json = [some receipt.origin.id] ∧
      receipt.user ≠ receipt.origin.sender

/-- When a record is broadcast, every subscriber it reaches is another user,
and Logic made one message with the stored id. -/
def guard (state : Hybrid) : Event → Prop
  | .broadcastRoom index => ∀ record, state.kafka[index]? = some record →
      ∀ users user conn, state.server.topics record.push.room = some users →
        user ∈ users → state.server.userWsConnMap user = some (some conn) →
        state.server.isOpen conn = true →
        (record.push.messages.length = 1 ∧
          Logic.messageId (record.clock 0) = record.origin.id) ∧
        user ≠ record.origin.sender
  | _ => True

/-! ## What a frame carries -/

theorem carriedIds_broadcastJson (answers : Answers) (conn : Connection)
    (room : Str) (message : Message) :
    carriedIds (Connection.broadcastJson answers conn room message) =
      [some message.id] := by
  simp only [carriedIds, Connection.broadcastJson, Json.get, List.lookup_cons,
    List.lookup_nil]
  rfl

theorem carriedIds_messageWrapper (push : Logic.PushMsg) :
    carriedIds push.messageWrapper = push.messages.map Logic.idOf := by
  rfl

/-- The frames that a stored message sends at once hold the value its receipts
record. -/
theorem published_of_stored {lib : Libraries} {answers : Answers}
    {connection next : Connection} {data room : Str} {message : Message}
    {actions : List Action}
    (outcome : ReadOutcome lib answers connection data next actions)
    (stored : (connection.textPayload data).bind
      (connection.storedMessage lib answers) = some (room, message))
    (server : Server) :
    published server actions =
      (server.publishTargets room connection.userid).map fun target =>
        (target, buildWebSocketFrame (lib.writeString
          (Connection.broadcastJson answers connection room message)) 1) := by
  rcases outcome.stored_or_still with
    ⟨payload, other, accepted, found, -, rfl⟩ | ⟨unstored, -⟩
  · rw [stored, Option.some.injEq, Prod.mk.injEq] at found
    obtain ⟨rfl, rfl⟩ := found
    cases number : Connection.stoi connection.userid with
    | none => simp [published, Connection.storedActions, number]
    | some userId => simp [published, Connection.storedActions, number]
  · rw [stored] at unstored
    cases unstored

/-- A read that stores nothing sends no frame to another connection and posts
nothing. -/
theorem published_of_unstored {lib : Libraries} {answers : Answers}
    {connection next : Connection} {data : Str} {actions : List Action}
    (outcome : ReadOutcome lib answers connection data next actions)
    (unstored : (connection.textPayload data).bind
      (connection.storedMessage lib answers) = none)
    (server : Server) :
    published server actions = [] ∧ Forwarding.forwards actions = [] := by
  rcases outcome.stored_or_still with
    ⟨payload, room, message, found, -, -⟩ | ⟨-, still⟩
  · rw [unstored] at found
    cases found
  · constructor
    · apply List.flatMap_eq_nil_iff.mpr
      intro action member
      have stays := still action member
      cases action with
      | publish room sender frame => cases stays
      | _ => rfl
    · apply List.filterMap_eq_nil_iff.mpr
      intro action member
      have stays := still action member
      cases action with
      | forward body => cases stays
      | _ => rfl

/-! ## The connection map leads to connections of the user -/

def Mapped (server : Server) : Prop :=
  ∀ user conn, server.userWsConnMap user = some (some conn) → user ≠ [] ∧
    ∃ connection, server.conns conn = some connection ∧
      connection.userid = user

theorem Mapped.userOf {server : Server} (mapped : Mapped server) {user : Str}
    {conn : Nat} (known : server.userWsConnMap user = some (some conn)) :
    userOf server conn = user := by
  obtain ⟨-, connection, present, sameUser⟩ := mapped user conn known
  simp [HybridDelivery.userOf, present, sameUser]

/-- A handler changes without losing its user. -/
theorem Mapped.update {server changed : Server} {handler : Nat}
    {next : Connection} (mapped : Mapped server)
    (conns : changed.conns = Function.update server.conns handler (some next))
    (map : ∀ user conn, changed.userWsConnMap user = some (some conn) →
      server.userWsConnMap user = some (some conn))
    (kept : ∀ connection, server.conns handler = some connection →
      connection.userid = [] ∨ next.userid = connection.userid) :
    Mapped changed := by
  intro user conn known
  obtain ⟨nonempty, connection, present, sameUser⟩ :=
    mapped user conn (map user conn known)
  refine ⟨nonempty, ?_⟩
  rw [conns]
  by_cases same : conn = handler
  · refine ⟨next, ?_, ?_⟩
    · rw [same, Function.update_self]
    · rcases kept connection (same ▸ present) with noUser | keeps
      · rw [sameUser] at noUser
        exact absurd noUser nonempty
      · rw [keeps, sameUser]
  · refine ⟨connection, ?_, sameUser⟩
    rw [Function.update_of_ne same]
    exact present

/-- The handler that shakes hands is entered under its own user. -/
theorem Mapped.insertUser {server : Server} {handler : Nat}
    {connection : Connection} (mapped : Mapped server)
    (present : server.conns handler = some connection)
    (named : connection.userid ≠ []) :
    Mapped (server.insertUser connection.userid handler) := by
  intro user conn known
  unfold Server.insertUser at known ⊢
  split at known
  · by_cases same : user = connection.userid
    · simp only [same, Function.update_self, Option.some.injEq] at known
      rw [same, ← known]
      exact ⟨named, connection, present, rfl⟩
    · simp only [Function.update_of_ne same] at known
      exact mapped user conn known
  · exact mapped user conn known

theorem insertions_of_local {actions : List Action}
    (quiet : ∀ action ∈ actions, action.isLocal = true) :
    Presence.insertions actions = [] := by
  apply List.filterMap_eq_nil_iff.mpr
  intro action member
  have isLocal := quiet action member
  cases action with
  | insertUser user => cases isLocal
  | _ => rfl

theorem insertions_stored (lib : Libraries) (answers : Answers)
    (connection : Connection) (payload room : Str) (message : Message) :
    Presence.insertions (.dispatch payload ::
      connection.storedActions lib answers room message) = [] := by
  cases number : Connection.stoi connection.userid with
  | none => simp [Presence.insertions, Connection.storedActions, number]
  | some userId => simp [Presence.insertions, Connection.storedActions, number]

/-- An accepted handshake makes its user lead to its own handler. -/
theorem Mapped.readEntered {server : Server} {handler : Nat}
    {connection : Connection} (mapped : Mapped server)
    (known : server.conns handler = some connection)
    (noUser : connection.userid = []) (response : Str) {uid : Str}
    (named : uid ≠ []) :
    Mapped (([Action.switchProtocols response, .insertUser uid] ++
      Connection.roomList.map fun room => Action.subscribe room uid).foldl
        (Server.perform handler) { server with
          conns := Function.update server.conns handler (some {
            connection with
            requestType := .webSocket
            handshakeCompleted := true
            userid := uid }) }) := by
  let changed : Server := { server with
    conns := Function.update server.conns handler (some {
      connection with
      requestType := .webSocket
      handshakeCompleted := true
      userid := uid }) }
  have updated : Mapped changed := by
    apply mapped.update rfl
    · intro user conn found
      exact found
    · intro other present
      rw [known, Option.some.injEq] at present
      exact .inl (present ▸ noUser)
  have present : changed.conns handler = some {
      connection with
      requestType := .webSocket
      handshakeCompleted := true
      userid := uid } := Function.update_self ..
  have inserted := updated.insertUser present named
  have map := Presence.map_foldl_perform_insert
    (Presence.insertions_accepted response uid Connection.roomList) handler
    changed
  have insertedConns : (changed.insertUser uid handler).conns =
      changed.conns := by
    unfold Server.insertUser
    split <;> rfl
  intro user conn found
  rw [Presence.conns_foldl_perform]
  rw [map] at found
  have leads := inserted user conn found
  rw [insertedConns] at leads
  exact leads

/-- A read of a handler keeps the map right. -/
theorem Mapped.read {lib : Libraries} {answers : Answers} {server : Server}
    {handler : Nat} {connection next : Connection} {data : Str}
    {actions : List Action} (mapped : Mapped server)
    (formed : connection.Formed)
    (known : server.conns handler = some connection)
    (outcome : ReadOutcome lib answers connection data next actions) :
    Mapped (actions.foldl (Server.perform handler) { server with
      conns := Function.update server.conns handler (some next) }) := by
  have noUser : connection.handshakeCompleted = false →
      connection.userid = [] := by
    intro pending
    by_contra named
    rw [formed.named named] at pending
    cases pending
  have quietRead : Presence.insertions actions = [] →
      (connection.userid = [] ∨ next.userid = connection.userid) →
      Mapped (actions.foldl (Server.perform handler) { server with
        conns := Function.update server.conns handler (some next) }) := by
    intro inserted sameUser
    apply mapped.update (Presence.conns_foldl_perform handler actions _)
    · intro user conn found
      rw [Presence.map_foldl_perform inserted] at found
      exact found
    · intro other present
      rw [known, Option.some.injEq] at present
      exact present ▸ sameUser
  cases outcome with
  | http plain other pending quiet =>
      exact quietRead (insertions_of_local quiet) (.inl (noUser pending))
  | noKey upgrades pending missing =>
      exact quietRead rfl (.inl (noUser pending))
  | refused upgrades pending noUid quiet =>
      exact quietRead (insertions_of_local quiet) (.inl (noUser pending))
  | ended ends unstored quiet =>
      exact quietRead (insertions_of_local quiet) (.inr rfl)
  | kept lasts completed unstored quiet =>
      exact quietRead (insertions_of_local quiet) (.inr rfl)
  | stored lasts completed text accepted =>
      exact quietRead (insertions_stored ..) (.inr rfl)
  | entered upgrades pending named =>
      exact mapped.readEntered known (noUser pending) _ named

theorem Mapped.broadcastRoom {server : Server} (mapped : Mapped server)
    (room : Str) : Mapped (server.broadcastRoom room).1 := by
  unfold Server.broadcastRoom
  cases topic : server.topics room with
  | none => exact mapped
  | some users =>
      obtain ⟨conns, -⟩ := Presence.foldl_broadcastTo_frame users (server, [])
      intro user conn known
      simp only [conns]
      exact mapped user conn (Presence.map_of_foldl_broadcastTo_map known)

/-- Whom a broadcast reaches. -/
theorem mem_broadcastRoom_iff {server : Server} {room : Str} {conn : Nat} :
    conn ∈ (server.broadcastRoom room).2 ↔
      ∃ users user, server.topics room = some users ∧ user ∈ users ∧
        server.userWsConnMap user = some (some conn) ∧
        server.isOpen conn = true := by
  unfold Server.broadcastRoom
  constructor
  · intro sent
    split at sent
    · cases sent
    · rename_i users topic
      rcases Presence.reached_of_mem_foldl_broadcastTo sent with
        before | ⟨isOpen, user, member, known⟩
      · cases before
      · exact ⟨users, user, topic, member, known, isOpen⟩
  · rintro ⟨users, user, topic, member, known, isOpen⟩
    rw [topic]
    exact Presence.mem_foldl_broadcastTo (.inr ⟨isOpen, user, member, known⟩)

/-- No publication reaches a connection of its sender. -/
theorem Mapped.publishTargets {server : Server} (mapped : Mapped server)
    {room sender : Str} {conn : Nat}
    (target : conn ∈ server.publishTargets room sender) :
    HybridDelivery.userOf server conn ≠ sender := by
  unfold Server.publishTargets at target
  split at target
  · cases target
  · obtain ⟨user, listed, reached⟩ := List.mem_filterMap.mp target
    have different := (List.mem_filter.mp listed).2
    unfold Server.publishTarget at reached
    split at reached
    · rename_i other known
      split at reached
      · rw [Option.some.injEq] at reached
        rw [mapped.userOf (reached ▸ known)]
        simpa using different
      · cases reached
    · cases reached

/-! ## What holds in every run -/

/-- The ids in a record are the readings of its clock. -/
def Clocked (record : Record) : Prop :=
  record.push.messages.map Logic.idOf =
    (List.range record.push.messages.length).map fun index =>
      some (Logic.messageId (record.clock (2 * index)))

/-- A record carries the stored id exactly if Logic made one message with
it. -/
theorem Clocked.carries_iff {record : Record} (clocked : Clocked record) :
    carriedIds record.push.messageWrapper = [some record.origin.id] ↔
      record.push.messages.length = 1 ∧
        Logic.messageId (record.clock 0) = record.origin.id := by
  rw [carriedIds_messageWrapper, clocked]
  constructor
  · intro same
    have one : record.push.messages.length = 1 := by
      have lengths := congrArg List.length same
      simpa using lengths
    rw [one] at same ⊢
    refine ⟨rfl, ?_⟩
    simpa using same
  · rintro ⟨one, same⟩
    rw [one]
    simpa using same

structure Sound (state : Hybrid) : Prop where
  formed : Connection.AllFormed state.server.conns
  mapped : Mapped state.server
  clocked : ∀ record ∈ state.kafka, Clocked record

theorem sound_start : Sound start := by
  constructor
  · intro handler connection present
    cases present
  · intro user conn known
    cases known
  · intro record member
    cases member

/-- The receipts of a read: those of the message it stores. -/
theorem onRead_cases {lib : Libraries} {state next : Hybrid} {handler : Nat}
    {connection : Connection} {answers : Answers} {data : Str}
    (sound : Sound state)
    (known : state.server.conns handler = some connection)
    (taken : onRead lib state handler connection answers data = some next) :
    Sound next ∧ ∃ later, next.received = state.received ++ later ∧
      ∀ receipt ∈ later,
        carriedIds receipt.json = [some receipt.origin.id] ∧
          receipt.user ≠ receipt.origin.sender := by
  obtain ⟨⟨after, actions⟩, read, result⟩ := Option.map_eq_some_iff.mp taken
  have formed := sound.formed handler connection known
  have outcome := Connection.handlerOnRead_outcome formed read
  have mapped := sound.mapped.read formed known outcome
  have allFormed : Connection.AllFormed (actions.foldl (Server.perform handler)
      { state.server with
        conns := Function.update state.server.conns handler
          (some after) }).conns := by
    rw [Presence.conns_foldl_perform]
    exact sound.formed.update (outcome.formed formed) handler
  simp only at result
  split at result
  · rw [← result]
    refine ⟨⟨allFormed, mapped, sound.clocked⟩, [], ?_, ?_⟩
    · rw [List.append_nil]
    · intro receipt member
      cases member
  · rename_i room message stored
    rw [← result]
    refine ⟨⟨allFormed, mapped, sound.clocked⟩, _, rfl, ?_⟩
    intro receipt member
    obtain ⟨target, reached, rfl⟩ := List.mem_map.mp member
    constructor
    · exact carriedIds_broadcastJson answers connection room message
    · exact mapped.publishTargets reached

theorem Sound.step {lib : Libraries} {logic : JsonCpp} {state next : Hybrid}
    {event : Event} (sound : Sound state)
    (taken : HybridDelivery.step lib logic state event = some next) :
    Sound next := by
  cases event with
  | connect handler =>
      simp only [HybridDelivery.step] at taken
      split at taken
      · cases taken
      · rename_i unknown
        cases taken
        refine ⟨sound.formed.update Connection.formed_fresh handler, ?_,
          sound.clocked⟩
        apply sound.mapped.update rfl
        · intro user conn known
          exact known
        · intro connection present
          rw [unknown] at present
          cases present
  | disconnect handler =>
      simp only [HybridDelivery.step] at taken
      split at taken
      · cases taken
      · rename_i connection present
        cases taken
        have formed := sound.formed handler connection present
        have down : Connection.Formed { connection with connected := false } :=
          ⟨formed.upgraded, formed.named⟩
        refine ⟨sound.formed.update down handler, ?_, sound.clocked⟩
        apply sound.mapped.update rfl
        · intro user conn known
          exact known
        · intro other found
          rw [present, Option.some.injEq] at found
          exact .inr (found ▸ rfl)
  | read handler answers data =>
      simp only [HybridDelivery.step] at taken
      split at taken
      · cases taken
      · rename_i connection present
        exact (onRead_cases sound present taken).1
  | post index clock produced =>
      simp only [HybridDelivery.step] at taken
      split at taken
      · cases taken
      · rename_i post present
        split at taken
        · rename_i push made
          cases taken
          refine ⟨sound.formed, sound.mapped, ?_⟩
          intro record member
          simp only at member
          split at member
          · rcases List.mem_append.mp member with earlier | new
            · exact sound.clocked record earlier
            · rw [List.mem_singleton.mp new]
              exact Logic.idOf_onMessage made
          · exact sound.clocked record member
        · cases taken
          exact ⟨sound.formed, sound.mapped, sound.clocked⟩
  | broadcastRoom index =>
      simp only [HybridDelivery.step] at taken
      split at taken
      · cases taken
      · rename_i record present
        cases taken
        refine ⟨?_, sound.mapped.broadcastRoom _, sound.clocked⟩
        have conns := (Presence.broadcastRoom_frame state.server
          record.push.room).1
        simp only [conns]
        exact sound.formed

/-! ## The steps of a run -/

structure Kept (state : Hybrid) : Prop where
  sound : Sound state
  agree : Agree state

/-- The frames stay right exactly if the step is guarded. -/
theorem Kept.agree_iff {lib : Libraries} {logic : JsonCpp}
    {state next : Hybrid} {event : Event} (kept : Kept state)
    (taken : step lib logic state event = some next) :
    Agree next ↔ guard state event := by
  cases event with
  | connect handler =>
      simp only [step] at taken
      split at taken
      · cases taken
      · cases taken
        exact iff_of_true kept.agree trivial
  | disconnect handler =>
      simp only [step] at taken
      split at taken
      · cases taken
      · cases taken
        exact iff_of_true kept.agree trivial
  | read handler answers data =>
      simp only [step] at taken
      split at taken
      · cases taken
      · rename_i connection present
        obtain ⟨-, later, received, right⟩ :=
          onRead_cases kept.sound present taken
        apply iff_of_true _ trivial
        intro receipt member
        rw [received] at member
        rcases List.mem_append.mp member with earlier | new
        · exact kept.agree receipt earlier
        · exact right receipt new
  | post index clock produced =>
      simp only [step] at taken
      split at taken
      · cases taken
      · split at taken
        · cases taken
          exact iff_of_true kept.agree trivial
        · cases taken
          exact iff_of_true kept.agree trivial
  | broadcastRoom index =>
      simp only [step] at taken
      split at taken
      · cases taken
      · rename_i record present
        cases taken
        have clocked :=
          kept.sound.clocked record (List.mem_of_getElem? present)
        have conns := (Presence.broadcastRoom_frame state.server
          record.push.room).1
        have sameUser : ∀ target,
            userOf (state.server.broadcastRoom record.push.room).1 target =
              userOf state.server target := by
          intro target
          simp only [userOf, conns]
        constructor
        · intro agree other found users user conn topic member known isOpen
          rw [present, Option.some.injEq] at found
          subst found
          have reached := mem_broadcastRoom_iff.mpr
            ⟨users, user, topic, member, known, isOpen⟩
          have right := agree _ (List.mem_append_right _
            (List.mem_map_of_mem reached))
          simp only [sameUser, kept.sound.mapped.userOf known,
            clocked.carries_iff] at right
          exact right
        · intro guarded receipt member
          rcases List.mem_append.mp member with earlier | new
          · exact kept.agree receipt earlier
          · obtain ⟨target, reached, rfl⟩ := List.mem_map.mp new
            obtain ⟨users, user, topic, listed, known, isOpen⟩ :=
              mem_broadcastRoom_iff.mp reached
            simp only [sameUser, kept.sound.mapped.userOf known,
              clocked.carries_iff]
            exact guarded record present users user target topic listed known
              isOpen

/-- Logic's reader on the request for the message to room 0001. -/
def logicLibrary : JsonCpp where
  parse _ := some (.object [
    (ascii "messages",
      .array [.object [(ascii "content", .string (ascii "hi"))]]),
    (ascii "roomId", .string (ascii "0001")), (ascii "userId", .int 7),
    (ascii "userName", .string [])])
  writeString _ := ascii "null"
  fastWrite _ := ascii "null\n"
  realText _ := []

end HybridDelivery

end ChatRoom
