import ChatRoom.Service.HandlerTable
import ChatRoom.Service.Presence
import ChatRoom.Service.ReadOutcome

/-!
# Presence and the gauge of active connections

The handler table, the connection map, the room topics and the
`active_connections` gauge together.  A `CWebSocketConn` is made by the read
that upgrades its handler; it would be destroyed with the handler, but no
handler is ever erased, and no disconnect undoes what a handshake entered.
-/

namespace ChatRoom

namespace ActiveConnections

open Connection (Upgrades Ends ReadOutcome)
open Presence (Server)

/-- The server.  A handler has the number of the connection it was made
for. -/
structure Comet where
  table : HandlerTable.Server
  server : Server
  activeConnections : Int

namespace Comet

/-- The handler `onMessage` finds for a connection. -/
def handlerOf (comet : Comet) (conn : Nat) : Option Nat := do
  let current ← comet.table.conns conn
  let uuid ← HandlerTable.boostAnyCast current.context
  let entry ← comet.table.httpHandlerMap uuid
  entry

/-- The handler whose entry is erased when the table goes over to `after`. -/
def erased (comet : Comet) (context : HandlerTable.Context)
    (after : HandlerTable.Server) : Option Nat := do
  let uuid ← HandlerTable.boostAnyCast context
  let entry ← comet.table.httpHandlerMap uuid
  if (after.httpHandlerMap uuid).isNone then entry else none

/-- The destructor of an erased handler: its `CWebSocketConn` goes too unless
the connection map holds it. -/
def destroy (comet : Comet) (handler : Nat) : Comet :=
  match comet.server.conns handler with
  | none => comet
  | some connection =>
      if connection.requestType = .webSocket ∧
          comet.server.userWsConnMap connection.userid ≠ some (some handler) then
        { comet with activeConnections := comet.activeConnections - 1 }
      else comet

/-- `onConnection` for a connection that is up. -/
def onConnected (comet : Comet) (conn : Nat) : Comet :=
  { comet with
    table := comet.table.onConnected conn
    server := { comet.server with
      conns := Function.update comet.server.conns conn
        (some Connection.fresh) } }

/-- `onConnection` for a connection that is down. -/
def onDisconnected (comet : Comet) (conn : Nat) (connection : Connection)
    (context : HandlerTable.Context) : Comet :=
  let after := comet.table.onDisconnected conn context
  let down : Comet := { comet with
    server := { comet.server with
      conns := Function.update comet.server.conns conn
        (some { connection with connected := false }) } }
  match comet.erased context after with
  | none => { down with table := after }
  | some handler => { down.destroy handler with table := after }

/-- A read of a handler.  The constructor of `CWebSocketConn` counts itself. -/
def onRead (lib : Libraries) (comet : Comet) (handler : Nat)
    (connection : Connection) (answers : Answers) (data : Str) : Option Comet :=
  (connection.handlerOnRead lib answers data).map fun (next, actions) =>
    { comet with
      server := actions.foldl (Server.perform handler) { comet.server with
        conns := Function.update comet.server.conns handler (some next) }
      activeConnections :=
        if connection.requestType ≠ .webSocket ∧
            next.requestType = .webSocket then
          comet.activeConnections + 1
        else comet.activeConnections }

end Comet

/-- The callbacks of muduo and of the gRPC server. -/
inductive Event where
  | connect (conn : Nat)
  | read (conn : Nat) (answers : Answers) (data : Str)
  | disconnect (conn : Nat)
  | broadcastRoom (room : Str)

def step (lib : Libraries) (comet : Comet) : Event → Option Comet
  | .connect conn =>
      match comet.server.conns conn with
      | some _ => none
      | none => some (comet.onConnected conn)
  | .read conn answers data =>
      match comet.server.conns conn, comet.table.conns conn with
      | some connection, some current =>
          if connection.connected then
            match comet.handlerOf conn with
            | none => some { comet with table := comet.table.onMessage conn current }
            | some handler =>
                match comet.server.conns handler with
                | none => none
                | some found =>
                    Comet.onRead lib
                      { comet with table := comet.table.onMessage conn current }
                      handler found answers data
          else some comet
      | _, _ => none
  | .disconnect conn =>
      match comet.server.conns conn, comet.table.conns conn with
      | some connection, some ⟨true, context⟩ =>
          some (comet.onDisconnected conn connection context)
      | _, _ => none
  | .broadcastRoom room =>
      some { comet with server := (comet.server.broadcastRoom room).1 }

/-- The server behind `load_room_list`. -/
def start : Comet := ⟨HandlerTable.start, Presence.start.server, 0⟩

/-! ## What is to hold -/

/-- The handler has a connected, handshaken WebSocket of the user. -/
def Holds (connection : Connection) (user : Str) : Prop :=
  connection.connected = true ∧ connection.handshakeCompleted = true ∧
    connection.userid = user

def Present (server : Server) (user : Str) : Prop :=
  user ≠ [] ∧ ∃ conn connection,
    server.conns conn = some connection ∧ Holds connection user

/-- A user of some room topic. -/
def Subscribed (server : Server) (user : Str) : Prop :=
  ∃ room users, server.topics room = some users ∧ user ∈ users

def isSocket (server : Server) (conn : Nat) : Bool :=
  match server.conns conn with
  | some connection => connection.requestType = .webSocket
  | none => false

/-- The handlers that have a `CWebSocketConn`. -/
def sockets (comet : Comet) : List Nat :=
  comet.table.order.filter (isSocket comet.server)

/-- The map and the rooms know exactly the users that are present. -/
structure Agrees (server : Server) : Prop where
  users : ∀ user, (server.userWsConnMap user).isSome ↔ Present server user
  subscribers : ∀ user, Subscribed server user ↔ Present server user

/-- Besides, the gauge counts the `CWebSocketConn` objects that are
connected. -/
structure InStep (comet : Comet) : Prop where
  agrees : Agrees comet.server
  gauge : comet.activeConnections =
    ((sockets comet).filter comet.server.isOpen).length

/-- No `CWebSocketConn` loses its connection: none goes down, none is made on
a connection that is down, and no frame arrives that makes the server
disconnect. -/
def guard (lib : Libraries) (comet : Comet) : Event → Prop
  | .read conn _ data => comet.server.isOpen conn = true →
      ∀ handler connection, comet.handlerOf conn = some handler →
        comet.server.conns handler = some connection →
        connection.Upgrades data →
        connection.connected = true ∧ ¬ Ends lib connection data
  | .disconnect conn => ∀ connection, comet.server.conns conn = some connection →
      connection.requestType ≠ .webSocket
  | _ => True

/-! ## Presence under a change of one handler -/

theorem present_update_iff {server changed : Server} {handler : Nat}
    {next : Connection}
    (conns : changed.conns = Function.update server.conns handler (some next))
    (kept : ∀ connection user, server.conns handler = some connection →
      user ≠ [] → Holds connection user → Holds next user) (user : Str) :
    Present changed user ↔
      Present server user ∨ (user ≠ [] ∧ Holds next user) := by
  constructor
  · rintro ⟨nonempty, conn, connection, present, holds⟩
    rw [conns] at present
    by_cases same : conn = handler
    · rw [same, Function.update_self, Option.some.injEq] at present
      exact .inr ⟨nonempty, present ▸ holds⟩
    · rw [Function.update_of_ne same] at present
      exact .inl ⟨nonempty, conn, connection, present, holds⟩
  · intro either
    rcases either with ⟨nonempty, conn, connection, present, holds⟩ |
      ⟨nonempty, holds⟩
    · by_cases same : conn = handler
      · refine ⟨nonempty, handler, next, ?_, ?_⟩
        · rw [conns, Function.update_self]
        · exact kept connection user (same ▸ present) nonempty holds
      · refine ⟨nonempty, conn, connection, ?_, holds⟩
        rw [conns, Function.update_of_ne same]
        exact present
    · refine ⟨nonempty, handler, next, ?_, holds⟩
      rw [conns, Function.update_self]

/-- A handler that had a user keeps it, and one that had none gets none. -/
theorem present_update_of_same {server changed : Server} {handler : Nat}
    {next : Connection}
    (conns : changed.conns = Function.update server.conns handler (some next))
    (kept : ∀ connection user, server.conns handler = some connection →
      user ≠ [] → Holds connection user → Holds next user)
    (gained : ∀ user, user ≠ [] → Holds next user → Present server user)
    (user : Str) : Present changed user ↔ Present server user := by
  rw [present_update_iff conns kept]
  constructor
  · intro either
    rcases either with before | ⟨nonempty, holds⟩
    · exact before
    · exact gained user nonempty holds
  · exact .inl

/-! ## Counting -/

/-- A list without duplicates counts one more when one member changes. -/
theorem length_filter_changed {members : List Nat} {before after : Nat → Bool}
    {changed : Nat} (distinct : members.Nodup) (member : changed ∈ members)
    (wasNot : before changed = false) (becomes : after changed = true)
    (others : ∀ other, other ≠ changed → after other = before other) :
    (members.filter after).length = (members.filter before).length + 1 := by
  have split := List.perm_cons_erase member
  have rest : (members.erase changed).filter after =
      (members.erase changed).filter before := by
    apply List.filter_congr
    intro other inside
    apply others
    intro same
    rw [same] at inside
    exact distinct.not_mem_erase inside
  calc (members.filter after).length
      = ((changed :: members.erase changed).filter after).length :=
        (split.filter after).length_eq
    _ = ((members.erase changed).filter before).length + 1 := by
        rw [List.filter_cons_of_pos becomes, List.length_cons, rest]
    _ = (members.filter before).length + 1 := by
        rw [(split.filter before).length_eq, List.filter_cons_of_neg]
        simp [wasNot]

/-! ## What a read does to the rest of the server -/

/-- Local actions, publications and forwards leave the map and the topics
alone. -/
theorem foldl_perform_quiet {actions : List Action}
    (quiet : ∀ action ∈ actions, ∀ handler server,
      Server.perform handler server action = server)
    (handler : Nat) (server : Server) :
    actions.foldl (Server.perform handler) server = server := by
  induction actions with
  | nil => rfl
  | cons action actions induction =>
      rw [List.foldl_cons, quiet action (List.mem_cons_self ..)]
      apply induction
      intro later member
      exact quiet later (List.mem_cons_of_mem _ member)

theorem perform_local {action : Action} (isLocal : action.isLocal = true)
    (handler : Nat) (server : Server) :
    Server.perform handler server action = server := by
  cases action with
  | insertUser user => cases isLocal
  | subscribe room user => cases isLocal
  | _ => rfl

theorem perform_stored {lib : Libraries} {answers : Answers}
    {connection : Connection} {payload room : Str} {message : Message}
    {action : Action}
    (member : action ∈ Action.dispatch payload ::
      connection.storedActions lib answers room message)
    (handler : Nat) (server : Server) :
    Server.perform handler server action = server := by
  simp only [Connection.storedActions, List.mem_cons, List.mem_append,
    List.not_mem_nil, or_false] at member
  rcases member with rfl | (rfl | rfl) | asked
  · rfl
  · rfl
  · rfl
  · split at asked
    · cases asked
    · rw [List.mem_singleton.mp asked]
      rfl

theorem addSubscriber_topics (server : Server) (room user : Str) :
    (∀ other, ((server.addSubscriber room user).topics other).isSome ↔
      (server.topics other).isSome) ∧
    ∀ key, Subscribed (server.addSubscriber room user) key ↔
      Subscribed server key ∨
        (key = user ∧ (server.topics room).isSome) := by
  cases known : server.topics room with
  | none =>
      simp [Server.addSubscriber, known]
  | some users =>
      have topics : (server.addSubscriber room user).topics =
          Function.update server.topics room (some (users.insert user)) := by
        simp [Server.addSubscriber, known]
      constructor
      · intro other
        rw [topics]
        by_cases same : other = room
        · simp [same, known]
        · rw [Function.update_of_ne same]
      · intro key
        rw [Subscribed, topics]
        constructor
        · rintro ⟨other, listed, found, member⟩
          by_cases same : other = room
          · rw [same, Function.update_self, Option.some.injEq] at found
            rw [← found] at member
            rcases List.mem_insert_iff.mp member with isUser | before
            · exact .inr ⟨isUser, rfl⟩
            · exact .inl ⟨room, users, known, before⟩
          · rw [Function.update_of_ne same] at found
            exact .inl ⟨other, listed, found, member⟩
        · intro either
          rcases either with ⟨other, listed, found, member⟩ | ⟨rfl, -⟩
          · by_cases same : other = room
            · rw [same, known, Option.some.injEq] at found
              refine ⟨room, users.insert user, by simp, ?_⟩
              exact List.mem_insert_of_mem (found ▸ member)
            · refine ⟨other, listed, ?_, member⟩
              rw [Function.update_of_ne same]
              exact found
          · exact ⟨room, users.insert key, by simp, List.mem_insert_self⟩

/-- A user is subscribed to rooms one after the other. -/
theorem foldl_subscribe_topics (rooms : List Str) (user : Str) (handler : Nat)
    (server : Server) :
    (∀ other, (((rooms.map fun room => Action.subscribe room user).foldl
        (Server.perform handler) server).topics other).isSome ↔
      (server.topics other).isSome) ∧
    ∀ key, Subscribed ((rooms.map fun room => Action.subscribe room user).foldl
        (Server.perform handler) server) key ↔
      Subscribed server key ∨
        (key = user ∧ ∃ room ∈ rooms, (server.topics room).isSome) := by
  induction rooms generalizing server with
  | nil => simp
  | cons room rooms induction =>
      obtain ⟨sameRooms, subscribed⟩ := addSubscriber_topics server room user
      obtain ⟨laterRooms, later⟩ := induction (server.addSubscriber room user)
      constructor
      · intro other
        exact (laterRooms other).trans (sameRooms other)
      · intro key
        refine (later key).trans ?_
        rw [subscribed, or_assoc]
        apply or_congr_right
        rw [← and_or_left]
        apply and_congr_right
        intro _
        simp only [sameRooms, List.mem_cons, exists_eq_or_imp]

/-- `insert` makes its user a key of the map. -/
theorem isSome_insertUser (server : Server) (user key : Str) (conn : Nat) :
    ((server.insertUser user conn).userWsConnMap key).isSome ↔
      (server.userWsConnMap key).isSome ∨ key = user := by
  unfold Server.insertUser
  split
  · by_cases same : key = user
    · simp [same]
    · simp [same]
  · rename_i entry known
    constructor
    · exact .inl
    · intro either
      rcases either with before | rfl
      · exact before
      · rw [known]
        rfl

theorem insertUser_topics (server : Server) (user : Str) (conn : Nat) :
    (server.insertUser user conn).topics = server.topics := by
  unfold Server.insertUser
  split <;> rfl

/-- A user that enters the map, the rooms and the present users at once keeps
them in agreement. -/
theorem Agrees.enter {server changed : Server} (user : Str)
    (agrees : Agrees server)
    (map : ∀ key, (changed.userWsConnMap key).isSome ↔
      (server.userWsConnMap key).isSome ∨ key = user)
    (topics : ∀ key, Subscribed changed key ↔
      Subscribed server key ∨ key = user)
    (present : ∀ key, Present changed key ↔
      Present server key ∨ key = user) : Agrees changed := by
  constructor
  · intro key
    rw [map, present, agrees.users]
  · intro key
    rw [topics, present, agrees.subscribers]

theorem Agrees.unchanged {server changed : Server} (agrees : Agrees server)
    (map : ∀ key, (changed.userWsConnMap key).isSome ↔
      (server.userWsConnMap key).isSome)
    (topics : changed.topics = server.topics)
    (present : ∀ key, Present changed key ↔ Present server key) :
    Agrees changed := by
  constructor
  · intro user
    rw [map, present, agrees.users]
  · intro user
    rw [Subscribed, topics, present]
    exact agrees.subscribers user

/-! ## What a read does to its handler -/

section Outcome

variable {lib : Libraries} {answers : Answers} {connection next : Connection}
  {data : Str} {actions : List Action}

theorem upgraded_iff (formed : connection.Formed)
    (outcome : ReadOutcome lib answers connection data next actions) :
    next.requestType = .webSocket ↔ connection.Upgrades data := by
  cases outcome with
  | http plain other pending quiet => exact iff_of_false other plain
  | noKey upgrades pending missing => exact iff_of_true rfl upgrades
  | refused upgrades pending noUid quiet => exact iff_of_true rfl upgrades
  | entered upgrades pending named => exact iff_of_true rfl upgrades
  | ended ends unstored quiet =>
      have webSocket := formed.upgraded ends.1
      exact iff_of_true webSocket (.inl webSocket)
  | stored lasts completed text accepted =>
      have webSocket := formed.upgraded completed
      exact iff_of_true webSocket (.inl webSocket)
  | kept lasts completed unstored quiet =>
      have webSocket := formed.upgraded completed
      exact iff_of_true webSocket (.inl webSocket)

theorem connected_iff
    (outcome : ReadOutcome lib answers connection data next actions) :
    next.connected = true ↔
      connection.connected = true ∧ ¬ Ends lib connection data := by
  have lastsPending : connection.handshakeCompleted = false →
      ¬ Ends lib connection data := by
    intro pending ends
    have completed := ends.1
    rw [pending] at completed
    cases completed
  have same : ¬ Ends lib connection data →
      (connection.connected = true ↔
        connection.connected = true ∧ ¬ Ends lib connection data) := by
    intro lasts
    simp [lasts]
  cases outcome with
  | http plain other pending quiet => exact same (lastsPending pending)
  | noKey upgrades pending missing => exact same (lastsPending pending)
  | refused upgrades pending noUid quiet => exact same (lastsPending pending)
  | entered upgrades pending named => exact same (lastsPending pending)
  | ended ends unstored quiet =>
      apply iff_of_false
      · exact Bool.false_ne_true
      · intro both
        exact both.2 ends
  | stored lasts completed text accepted => exact same lasts
  | kept lasts completed unstored quiet => exact same lasts

theorem Holds.completed {connection : Connection} {user : Str}
    (holds : Holds connection user) : connection.handshakeCompleted = true :=
  holds.2.1

/-- A quiet read leaves the map and the rooms, and keeps the user of its
handler. -/
theorem Agrees.readQuiet {server : Server} {handler : Nat}
    (agrees : Agrees server)
    (known : server.conns handler = some connection)
    (quiet : ∀ action ∈ actions, ∀ handler server,
      Server.perform handler server action = server)
    (sameUser : ∀ user, user ≠ [] →
      (Holds next user ↔ Holds connection user)) :
    Agrees (actions.foldl (Server.perform handler) { server with
      conns := Function.update server.conns handler (some next) }) := by
  rw [foldl_perform_quiet quiet]
  refine agrees.unchanged (fun key => Iff.rfl) rfl ?_
  apply present_update_of_same rfl
  · intro other user present nonempty holds
    rw [known, Option.some.injEq] at present
    exact (sameUser user nonempty).mpr (present ▸ holds)
  · intro user nonempty holds
    exact ⟨nonempty, handler, connection, known,
      (sameUser user nonempty).mp holds⟩

/-- An accepted handshake enters its user in the map and in every room. -/
theorem Agrees.readEntered {server : Server} {handler : Nat}
    (agrees : Agrees server)
    (known : server.conns handler = some connection)
    (rooms : ∃ room ∈ Connection.roomList, (server.topics room).isSome)
    (isConnected : connection.connected = true)
    (pending : connection.handshakeCompleted = false) (response : Str)
    {uid : Str} (named : uid ≠ []) :
    Agrees (([Action.switchProtocols response, .insertUser uid] ++
      Connection.roomList.map fun room => Action.subscribe room uid).foldl
        (Server.perform handler) { server with
          conns := Function.update server.conns handler (some {
            connection with
            requestType := .webSocket
            handshakeCompleted := true
            userid := uid }) }) := by
  rw [List.foldl_append]
  let changed : Server := { server with
    conns := Function.update server.conns handler (some {
      connection with
      requestType := .webSocket
      handshakeCompleted := true
      userid := uid }) }
  let inserted := changed.insertUser uid handler
  have entry : [Action.switchProtocols response, .insertUser uid].foldl
      (Server.perform handler) changed = inserted := rfl
  have topics : inserted.topics = server.topics :=
    insertUser_topics changed uid handler
  have conns : inserted.conns = changed.conns := by
    rw [← entry]
    exact Presence.conns_foldl_perform handler _ changed
  obtain ⟨-, subscribed⟩ := foldl_subscribe_topics Connection.roomList uid
    handler inserted
  rw [entry]
  refine Agrees.enter uid agrees ?_ ?_ ?_
  · intro key
    rw [Presence.map_foldl_perform (Presence.insertions_subscribe _ _)]
    exact isSome_insertUser changed _ key handler
  · intro key
    rw [subscribed, Subscribed, topics]
    constructor
    · rintro (before | ⟨isUser, -⟩)
      · exact .inl before
      · exact .inr isUser
    · rintro (before | isUser)
      · exact .inl before
      · exact .inr ⟨isUser, rooms⟩
  · intro key
    rw [present_update_iff
      ((Presence.conns_foldl_perform handler _ inserted).trans conns)]
    · apply or_congr_right
      constructor
      · intro holds
        exact holds.2.2.2.symm
      · rintro rfl
        exact ⟨named, isConnected, rfl, rfl⟩
    · intro other user present _ holds
      rw [known, Option.some.injEq] at present
      have completed := (present ▸ holds : Holds connection user).completed
      rw [pending] at completed
      cases completed

/-- A read that leaves its connection open enters the user of a handshake
everywhere, or no user anywhere. -/
theorem Agrees.read {server : Server} {handler : Nat}
    (agrees : Agrees server) (formed : connection.Formed)
    (known : server.conns handler = some connection)
    (rooms : ∃ room ∈ Connection.roomList, (server.topics room).isSome)
    (goesOn : connection.Upgrades data →
      connection.connected = true ∧ ¬ Ends lib connection data)
    (outcome : ReadOutcome lib answers connection data next actions) :
    Agrees (actions.foldl (Server.perform handler) { server with
      conns := Function.update server.conns handler (some next) }) := by
  have noUser : connection.handshakeCompleted = false → ∀ user,
      ¬ Holds connection user := by
    intro pending user holds
    rw [holds.completed] at pending
    cases pending
  cases outcome with
  | http plain other pending quiet =>
      apply agrees.readQuiet known
      · intro action member
        exact perform_local (quiet action member)
      · intro user _
        exact iff_of_false (noUser pending user) (noUser pending user)
  | noKey upgrades pending missing =>
      apply agrees.readQuiet known
      · intro action member
        cases member
      · intro user _
        exact iff_of_false (noUser pending user) (noUser pending user)
  | refused upgrades pending noUid quiet =>
      apply agrees.readQuiet known
      · intro action member
        exact perform_local (quiet action member)
      · intro user nonempty
        apply iff_of_false _ (noUser pending user)
        intro holds
        have completed := formed.named (holds.2.2 ▸ nonempty)
        rw [pending] at completed
        cases completed
  | ended ends unstored quiet =>
      have webSocket := formed.upgraded ends.1
      exact absurd ends (goesOn (.inl webSocket)).2
  | stored lasts completed text accepted =>
      apply agrees.readQuiet known
      · intro action member
        exact perform_stored member
      · intro user _
        exact Iff.rfl
  | kept lasts completed unstored quiet =>
      apply agrees.readQuiet known
      · intro action member
        exact perform_local (quiet action member)
      · intro user _
        exact Iff.rfl
  | entered upgrades pending named =>
      exact agrees.readEntered known rooms (goesOn upgrades).1 pending _ named

end Outcome

/-! ## What holds in every run -/

/-- The handlers are well formed and listed once each, and the gauge counts
the `CWebSocketConn` objects ever made: none is destroyed. -/
structure Counted (comet : Comet) : Prop where
  formed : Connection.AllFormed comet.server.conns
  listed : ∀ conn,
    (comet.server.conns conn).isSome ↔ conn ∈ comet.table.order
  distinct : comet.table.order.Nodup
  counted : comet.activeConnections = (sockets comet).length

/-- Every `CWebSocketConn` has an open connection. -/
def AllOpen (server : Server) : Prop :=
  ∀ handler connection, server.conns handler = some connection →
    connection.requestType = .webSocket → connection.connected = true

/-- The gauge is right as long as no object has lost its connection. -/
theorem Counted.gauge_iff {comet : Comet} (counted : Counted comet) :
    comet.activeConnections =
        ((sockets comet).filter comet.server.isOpen).length ↔
      AllOpen comet.server := by
  rw [counted.counted, Int.natCast_inj, eq_comm,
    List.length_filter_eq_length_iff]
  constructor
  · intro allOpen handler connection known webSocket
    have listed : handler ∈ comet.table.order := by
      apply (counted.listed handler).mp
      rw [known]
      rfl
    have isOpen := allOpen handler (by
      simp [sockets, isSocket, known, listed, webSocket])
    simpa [Server.isOpen, known] using isOpen
  · intro allOpen handler member
    obtain ⟨-, isSocket⟩ := List.mem_filter.mp member
    cases known : comet.server.conns handler with
    | none => simp [ActiveConnections.isSocket, known] at isSocket
    | some connection =>
        have webSocket : connection.requestType = .webSocket := by
          simpa [ActiveConnections.isSocket, known] using isSocket
        simpa [Server.isOpen, known] using
          allOpen handler connection known webSocket

theorem allOpen_update_iff {server changed : Server} {handler : Nat}
    {next : Connection}
    (conns : changed.conns = Function.update server.conns handler (some next))
    (allOpen : AllOpen server) :
    AllOpen changed ↔
      (next.requestType = .webSocket → next.connected = true) := by
  constructor
  · intro changedOpen
    apply changedOpen handler next
    rw [conns, Function.update_self]
  · intro nextOpen other connection known webSocket
    rw [conns] at known
    by_cases same : other = handler
    · rw [same, Function.update_self, Option.some.injEq] at known
      rw [← known] at webSocket ⊢
      exact nextOpen webSocket
    · rw [Function.update_of_ne same] at known
      exact allOpen other connection known webSocket

/-- One handler changes, and the gauge goes up when it becomes a socket. -/
theorem Counted.update {comet after : Comet} {handler : Nat}
    {connection next : Connection} (counted : Counted comet)
    (known : comet.server.conns handler = some connection)
    (formed : next.Formed)
    (stays : connection.requestType = .webSocket →
      next.requestType = .webSocket)
    (conns : after.server.conns =
      Function.update comet.server.conns handler (some next))
    (order : after.table.order = comet.table.order)
    (gauge : after.activeConnections =
      if connection.requestType ≠ .webSocket ∧ next.requestType = .webSocket then
        comet.activeConnections + 1
      else comet.activeConnections) : Counted after := by
  have isKnown : (comet.server.conns handler).isSome := by
    rw [known]
    rfl
  have others : ∀ other, other ≠ handler →
      isSocket after.server other = isSocket comet.server other := by
    intro other different
    simp only [isSocket, conns, Function.update_of_ne different]
  constructor
  · rw [conns]
    exact counted.formed.update formed handler
  · intro conn
    rw [order, conns, ← counted.listed]
    by_cases same : conn = handler
    · rw [same, Function.update_self]
      exact iff_of_true rfl isKnown
    · rw [Function.update_of_ne same]
  · rw [order]
    exact counted.distinct
  · rw [gauge, counted.counted]
    by_cases becomes : connection.requestType ≠ .webSocket ∧
        next.requestType = .webSocket
    · have wasNot : isSocket comet.server handler = false := by
        simp [isSocket, known, becomes.1]
      have isNow : isSocket after.server handler = true := by
        simp [isSocket, conns, becomes.2]
      have listed := (counted.listed handler).mp isKnown
      have longer := length_filter_changed counted.distinct listed wasNot
        isNow others
      rw [if_pos becomes, sockets, sockets, order, longer]
      rfl
    · have same : ∀ conn,
          isSocket after.server conn = isSocket comet.server conn := by
        intro conn
        by_cases isHandler : conn = handler
        · have kind : next.requestType = .webSocket ↔
              connection.requestType = .webSocket := by
            constructor
            · intro upgraded
              by_contra other
              exact becomes ⟨other, upgraded⟩
            · exact stays
          simp [isHandler, isSocket, conns, known, kind]
        · exact others conn isHandler
      rw [if_neg becomes, sockets, sockets, order]
      rw [List.filter_congr fun conn _ => same conn]

theorem onMessage_order (server : HandlerTable.Server) (conn : Nat)
    (current : HandlerTable.Conn) :
    (server.onMessage conn current).order = server.order := by
  unfold HandlerTable.Server.onMessage
  split
  · split
    · rfl
    · split <;> rfl
  · rfl

/-- No handler is ever erased. -/
theorem onDisconnected_eq (comet : Comet) (conn : Nat)
    (connection : Connection) (context : HandlerTable.Context) :
    comet.onDisconnected conn connection context =
      { comet with
        table := comet.table.onDisconnected conn context
        server := { comet.server with
          conns := Function.update comet.server.conns conn
            (some { connection with connected := false }) } } := by
  have kept : comet.erased context (comet.table.onDisconnected conn context) =
      none := by
    rw [HandlerTable.disconnected_eq, Comet.erased]
    cases context with
    | empty => rfl
    | uuid value =>
        cases entry : comet.table.httpHandlerMap value with
        | none => simp [HandlerTable.boostAnyCast, entry]
        | some handler => simp [HandlerTable.boostAnyCast, entry]
  rw [Comet.onDisconnected, kept]

theorem counted_start : Counted start := by
  constructor
  · intro conn connection present
    cases present
  · intro conn
    simp [start, Presence.start, HandlerTable.start]
  · exact List.nodup_nil
  · rfl

theorem Counted.connect {comet : Comet} {conn : Nat} (counted : Counted comet)
    (unknown : comet.server.conns conn = none) :
    Counted (comet.onConnected conn) := by
  have notListed : conn ∉ comet.table.order := by
    intro listed
    have isKnown := (counted.listed conn).mpr listed
    rw [unknown] at isKnown
    cases isKnown
  have order : (comet.onConnected conn).table.order =
      comet.table.order ++ [conn] :=
    (HandlerTable.insertHandler_conns _ _ _).2.1
  constructor
  · exact counted.formed.update Connection.formed_fresh conn
  · intro other
    rw [order, List.mem_append, ← counted.listed, List.mem_singleton]
    by_cases same : other = conn
    · simp [Comet.onConnected, same]
    · simp [Comet.onConnected, same]
  · rw [order]
    apply List.Nodup.append counted.distinct (List.nodup_singleton conn)
    intro other before isNew
    rw [List.mem_singleton.mp isNew] at before
    exact notListed before
  · have earlier : comet.table.order.filter
          (isSocket (comet.onConnected conn).server) =
        comet.table.order.filter (isSocket comet.server) := by
      apply List.filter_congr
      intro other listed
      have different : other ≠ conn := by
        intro same
        exact notListed (same ▸ listed)
      simp [isSocket, Comet.onConnected, Function.update_of_ne different]
    have isNoSocket : isSocket (comet.onConnected conn).server conn = false := by
      simp [isSocket, Comet.onConnected, Connection.fresh]
    have gauge : (comet.onConnected conn).activeConnections =
        comet.activeConnections := rfl
    rw [gauge, counted.counted, sockets, sockets, order, List.filter_append,
      earlier, List.filter_singleton, isNoSocket]
    simp

/-! ## The steps of a run -/

/-- What holds while no `CWebSocketConn` loses its connection. -/
structure Kept (comet : Comet) : Prop where
  counted : Counted comet
  rooms : ∃ room ∈ Connection.roomList, (comet.server.topics room).isSome
  agrees : Agrees comet.server
  allOpen : AllOpen comet.server

theorem Kept.inStep {comet : Comet} (kept : Kept comet) : InStep comet :=
  ⟨kept.agrees, kept.counted.gauge_iff.mpr kept.allOpen⟩

theorem kept_start : Kept start := by
  constructor
  · exact counted_start
  · refine ⟨ascii "0001", List.mem_cons_self .., ?_⟩
    rfl
  · have nobody : ∀ user, ¬ Present start.server user := by
      rintro user ⟨-, conn, connection, present, -⟩
      cases present
    constructor
    · intro user
      apply iff_of_false _ (nobody user)
      exact Bool.false_ne_true
    · intro user
      apply iff_of_false _ (nobody user)
      rintro ⟨room, users, topic, member⟩
      simp only [start, Presence.start] at topic
      split at topic
      · cases topic
        cases member
      · cases topic
  · intro handler connection present
    cases present

/-- A read that reaches a handler. -/
structure ReadBy (lib : Libraries) (answers : Answers) (data : Str)
    (comet next : Comet) (handler : Nat) (connection after : Connection)
    (actions : List Action) : Prop where
  known : comet.server.conns handler = some connection
  outcome : ReadOutcome lib answers connection data after actions
  server : next.server = actions.foldl (Server.perform handler) { comet.server with
    conns := Function.update comet.server.conns handler (some after) }
  order : next.table.order = comet.table.order
  gauge : next.activeConnections =
    if connection.requestType ≠ .webSocket ∧ after.requestType = .webSocket then
      comet.activeConnections + 1
    else comet.activeConnections

theorem step_read_cases {lib : Libraries} {comet next : Comet} {conn : Nat}
    {answers : Answers} {data : Str} (counted : Counted comet)
    (taken : step lib comet (.read conn answers data) = some next) :
    ((comet.server.isOpen conn = false ∨ comet.handlerOf conn = none) ∧
      next.server = comet.server ∧
      next.activeConnections = comet.activeConnections ∧
      next.table.order = comet.table.order) ∨
    (comet.server.isOpen conn = true ∧
      ∃ handler connection after actions,
        comet.handlerOf conn = some handler ∧
        ReadBy lib answers data comet next handler connection after
          actions) := by
  simp only [step] at taken
  split at taken
  · rename_i tcp current tcpKnown currentKnown
    split at taken
    · rename_i isConnected
      have isOpen : comet.server.isOpen conn = true := by
        simpa [Server.isOpen, tcpKnown] using isConnected
      have order := onMessage_order comet.table conn current
      split at taken
      · rename_i unrouted
        cases taken
        exact .inl ⟨.inr unrouted, rfl, rfl, order⟩
      · rename_i handler routed
        split at taken
        · cases taken
        · rename_i connection known
          obtain ⟨⟨after, actions⟩, read, rfl⟩ :=
            Option.map_eq_some_iff.mp taken
          have formed := counted.formed handler connection known
          exact .inr ⟨isOpen, handler, connection, after, actions, routed,
            known, Connection.handlerOnRead_outcome formed read, rfl, order,
            rfl⟩
    · rename_i closed
      cases taken
      refine .inl ⟨.inl ?_, rfl, rfl, rfl⟩
      simpa [Server.isOpen, tcpKnown] using closed
  · cases taken

section Read

variable {lib : Libraries} {answers : Answers} {data : Str}
  {comet next : Comet} {handler : Nat} {connection after : Connection}
  {actions : List Action}

theorem ReadBy.conns
    (read : ReadBy lib answers data comet next handler connection after actions) :
    next.server.conns =
      Function.update comet.server.conns handler (some after) := by
  rw [read.server]
  exact Presence.conns_foldl_perform handler actions _

theorem ReadBy.counted
    (read : ReadBy lib answers data comet next handler connection after actions)
    (counted : Counted comet) : Counted next := by
  have formed := counted.formed handler connection read.known
  apply counted.update read.known (read.outcome.formed formed) _ read.conns
    read.order read.gauge
  intro webSocket
  exact (upgraded_iff formed read.outcome).mpr (.inl webSocket)

theorem ReadBy.allOpen_iff
    (read : ReadBy lib answers data comet next handler connection after actions)
    (counted : Counted comet) (allOpen : AllOpen comet.server) :
    AllOpen next.server ↔ (connection.Upgrades data →
      connection.connected = true ∧ ¬ Ends lib connection data) := by
  have formed := counted.formed handler connection read.known
  rw [allOpen_update_iff read.conns allOpen, upgraded_iff formed read.outcome,
    connected_iff read.outcome]

end Read

theorem foldl_perform_rooms (actions : List Action) (handler : Nat)
    (server : Server) (room : Str) :
    ((actions.foldl (Server.perform handler) server).topics room).isSome ↔
      (server.topics room).isSome := by
  induction actions generalizing server with
  | nil => exact Iff.rfl
  | cons action actions induction =>
      rw [List.foldl_cons, induction]
      cases action with
      | insertUser user =>
          rw [Server.perform, insertUser_topics]
      | subscribe other user =>
          exact (addSubscriber_topics server other user).1 room
      | _ => exact Iff.rfl

/-- A broadcast to present users adds no entry to the map. -/
theorem Agrees.broadcastRoom {server : Server} (agrees : Agrees server)
    (room : Str) : Agrees (server.broadcastRoom room).1 := by
  unfold Server.broadcastRoom
  cases topic : server.topics room with
  | none => exact agrees
  | some users =>
      obtain ⟨conns, topics⟩ :=
        Presence.foldl_broadcastTo_frame users (server, [])
      refine agrees.unchanged ?_ topics ?_
      · intro key
        by_cases member : key ∈ users
        · have isKnown : (server.userWsConnMap key).isSome := by
            apply (agrees.users key).mpr
            apply (agrees.subscribers key).mp
            exact ⟨room, users, topic, member⟩
          obtain ⟨entry, known⟩ := Option.isSome_iff_exists.mp isKnown
          have same : (users.foldl Server.broadcastTo
              (server, [])).1.userWsConnMap key = some entry :=
            Presence.foldl_broadcastTo_map users known
          simp [same, known]
        · have same : (users.foldl Server.broadcastTo
              (server, [])).1.userWsConnMap key = server.userWsConnMap key :=
            Presence.foldl_broadcastTo_map_of_not_mem member
          simp [same]
      · intro key
        simp only [Present, conns]

/-- What every step keeps, guarded or not. -/
theorem Counted.step {lib : Libraries} {comet next : Comet} {event : Event}
    (counted : Counted comet)
    (taken : ActiveConnections.step lib comet event = some next) :
    Counted next := by
  cases event with
  | connect conn =>
      simp only [ActiveConnections.step] at taken
      split at taken
      · cases taken
      · rename_i unknown
        cases taken
        exact counted.connect unknown
  | disconnect conn =>
      simp only [ActiveConnections.step] at taken
      split at taken
      · rename_i connection context known upKnown
        cases taken
        have formed := counted.formed conn connection known
        have down : Connection.Formed { connection with connected := false } :=
          ⟨formed.upgraded, formed.named⟩
        rw [onDisconnected_eq]
        apply counted.update known down id rfl
        · rw [HandlerTable.disconnected_eq]
        · simp only
          rw [if_neg]
          rintro ⟨other, webSocket⟩
          exact other webSocket
      · cases taken
  | read conn answers data =>
      rcases step_read_cases counted taken with
        ⟨-, server, gauge, order⟩ |
        ⟨-, handler, connection, after, actions, -, read⟩
      · constructor
        · rw [server]
          exact counted.formed
        · rw [server, order]
          exact counted.listed
        · rw [order]
          exact counted.distinct
        · rw [gauge, counted.counted, sockets, sockets, server, order]
      · exact read.counted counted
  | broadcastRoom room =>
      simp only [ActiveConnections.step, Option.some.injEq] at taken
      subst taken
      have conns := (Presence.broadcastRoom_frame comet.server room).1
      have sameSockets : isSocket (comet.server.broadcastRoom room).1 =
          isSocket comet.server := by
        funext handler
        simp only [isSocket, conns]
      constructor
      · simp only [conns]
        exact counted.formed
      · simp only [conns]
        exact counted.listed
      · exact counted.distinct
      · simp only [sockets, sameSockets]
        exact counted.counted

/-- A step leaves every socket open exactly if it is guarded. -/
theorem Kept.allOpen_iff {lib : Libraries} {comet next : Comet} {event : Event}
    (kept : Kept comet) (taken : step lib comet event = some next) :
    AllOpen next.server ↔ guard lib comet event := by
  cases event with
  | connect conn =>
      simp only [step] at taken
      split at taken
      · cases taken
      · cases taken
        apply iff_of_true _ trivial
        apply (allOpen_update_iff rfl kept.allOpen).mpr
        intro _
        rfl
  | disconnect conn =>
      simp only [step] at taken
      split at taken
      · rename_i connection context known upKnown
        cases taken
        rw [onDisconnected_eq, allOpen_update_iff rfl kept.allOpen]
        constructor
        · intro isOpen other found webSocket
          rw [known, Option.some.injEq] at found
          exact Bool.false_ne_true (isOpen (found ▸ webSocket))
        · intro guarded webSocket
          exact absurd webSocket (guarded connection known)
      · cases taken
  | read conn answers data =>
      rcases step_read_cases kept.counted taken with
        ⟨unread, server, -, -⟩ |
        ⟨isOpen, handler, connection, after, actions, routed, read⟩
      · rw [server]
        apply iff_of_true kept.allOpen
        intro isOpen handler connection routed
        rcases unread with closed | unrouted
        · rw [closed] at isOpen
          cases isOpen
        · rw [unrouted] at routed
          cases routed
      · rw [read.allOpen_iff kept.counted kept.allOpen]
        constructor
        · intro goesOn _ other found route known
          rw [routed, Option.some.injEq] at route
          rw [← route, read.known, Option.some.injEq] at known
          exact known ▸ goesOn
        · intro guarded
          exact guarded isOpen handler connection routed read.known
  | broadcastRoom room =>
      simp only [step, Option.some.injEq] at taken
      subst taken
      apply iff_of_true _ trivial
      rw [AllOpen, (Presence.broadcastRoom_frame comet.server room).1]
      exact kept.allOpen

/-- A guarded step keeps the map, the rooms and the gauge in step. -/
theorem Kept.step {lib : Libraries} {comet next : Comet} {event : Event}
    (kept : Kept comet) (guarded : guard lib comet event)
    (taken : ActiveConnections.step lib comet event = some next) :
    Kept next := by
  have counted := kept.counted.step taken
  have allOpen := (kept.allOpen_iff taken).mpr guarded
  cases event with
  | connect conn =>
      simp only [ActiveConnections.step] at taken
      split at taken
      · cases taken
      · rename_i unknown
        cases taken
        refine ⟨counted, kept.rooms, ?_, allOpen⟩
        refine kept.agrees.unchanged (fun key => Iff.rfl) rfl ?_
        apply present_update_of_same rfl
        · intro connection user known
          rw [unknown] at known
          cases known
        · intro user _ holds
          cases holds.2.1
  | disconnect conn =>
      simp only [ActiveConnections.step] at taken
      split at taken
      · rename_i connection context known upKnown
        cases taken
        rw [onDisconnected_eq] at counted allOpen ⊢
        refine ⟨counted, kept.rooms, ?_, allOpen⟩
        refine kept.agrees.unchanged (fun key => Iff.rfl) rfl ?_
        apply present_update_of_same rfl
        · intro other user found _ holds
          rw [known, Option.some.injEq] at found
          rw [← found] at holds
          have formed := kept.counted.formed conn connection known
          exact absurd (formed.upgraded holds.2.1) (guarded connection known)
        · intro user _ holds
          cases holds.1
      · cases taken
  | read conn answers data =>
      rcases step_read_cases kept.counted taken with
        ⟨-, server, gauge, order⟩ |
        ⟨isOpen, handler, connection, after, actions, routed, read⟩
      · refine ⟨counted, ?_, ?_, allOpen⟩
        · rw [server]
          exact kept.rooms
        · rw [server]
          exact kept.agrees
      · refine ⟨counted, ?_, ?_, allOpen⟩
        · obtain ⟨room, listed, present⟩ := kept.rooms
          refine ⟨room, listed, ?_⟩
          rw [read.server]
          exact (foldl_perform_rooms actions handler _ room).mpr present
        · rw [read.server]
          have formed := kept.counted.formed handler connection read.known
          exact kept.agrees.read formed read.known kept.rooms
            (guarded isOpen handler connection routed read.known) read.outcome
  | broadcastRoom room =>
      simp only [ActiveConnections.step, Option.some.injEq] at taken
      subst taken
      refine ⟨counted, ?_, kept.agrees.broadcastRoom room, allOpen⟩
      rw [(Presence.broadcastRoom_frame comet.server room).2]
      exact kept.rooms

/-- Presence and the gauge are right in exactly the runs in which no
`CWebSocketConn` loses its connection. -/
theorem presence_iff (lib : Libraries) (events : List Event) :
    Lib.Always (step lib) InStep start events ↔
      Lib.Meets (step lib) (guard lib) start events := by
  apply Lib.always_iff_meets _ _ _ kept_start
  · intro comet kept
    exact kept.inStep
  · intro comet next event kept guarded taken
    exact kept.step guarded taken
  · intro comet next event kept taken inStep
    have counted := kept.counted.step taken
    exact (kept.allOpen_iff taken).mp (counted.gauge_iff.mp inStep.gauge)

/-- A user that disconnects stays in the map, in the rooms and in the gauge. -/
theorem disconnected_user_stays :
    ¬ Lib.Always (step Connection.helloLibraries) InStep start
      [.connect 1,
        .read 1 Connection.helloAnswers (Connection.upgradeRequest (ascii "7")),
        .disconnect 1] := by
  intro always
  have inStep := always _ (List.prefix_refl _) _ rfl
  have gauge := inStep.gauge
  revert gauge
  decide +kernel

end ActiveConnections

end ChatRoom
