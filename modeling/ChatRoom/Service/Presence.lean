import ChatRoom.Service.Closing
import Mathlib.Logic.Function.Basic

/-!
# The server-wide connection map

All connections, `s_user_ws_conn_map` and the room topics.  A handshake
inserts its connection under its uid without replacing an older entry, and no
disconnect removes one.
-/

namespace ChatRoom

namespace Presence

open Connection (FromHandler)

/-- The connections by number, the map from users to their connections (whose
entries may be null pointers), and the subscribers of each room topic. -/
structure Server where
  conns : Nat → Option Connection
  userWsConnMap : Str → Option (Option Nat)
  topics : Str → Option (List Str)

namespace Server

/-- `IsConnected`. -/
def isConnected (server : Server) (conn : Nat) : Bool :=
  match server.conns conn with
  | some connection => connection.connected && connection.handshakeCompleted
  | none => false

/-- The TCP connection is open. -/
def isOpen (server : Server) (conn : Nat) : Bool :=
  match server.conns conn with
  | some connection => connection.connected
  | none => false

/-- The connection a publication to a subscriber is sent on. -/
def publishTarget (server : Server) (user : Str) : Option Nat :=
  match server.userWsConnMap user with
  | some (some conn) => if server.isConnected conn then some conn else none
  | _ => none

/-- The callback of `handleClientMessages`: the connections a publication is
sent on. -/
def publishTargets (server : Server) (room sender : Str) : List Nat :=
  match server.topics room with
  | none => []
  | some users =>
      (users.filter (· ≠ sender)).filterMap server.publishTarget

/-- One turn of the loop of `BroadcastRoom`: `operator[]` leaves a null entry
for a user the map does not know. -/
def broadcastTo : Server × List Nat → Str → Server × List Nat
  | (server, sent), user =>
      match server.userWsConnMap user with
      | none =>
          ({ server with
            userWsConnMap := Function.update server.userWsConnMap user (some none) },
            sent)
      | some none => (server, sent)
      | some (some conn) =>
          (server, if server.isOpen conn then sent ++ [conn] else sent)

/-- `BroadcastRoom`, with the connections it sends on. -/
def broadcastRoom (server : Server) (room : Str) : Server × List Nat :=
  match server.topics room with
  | none => (server, [])
  | some users => users.foldl broadcastTo (server, [])

/-- `s_user_ws_conn_map.insert`: an entry that exists is kept. -/
def insertUser (server : Server) (user : Str) (conn : Nat) : Server :=
  match server.userWsConnMap user with
  | none =>
      { server with
        userWsConnMap :=
          Function.update server.userWsConnMap user (some (some conn)) }
  | some _ => server

/-- `AddSubscriber`. -/
def addSubscriber (server : Server) (room user : Str) : Server :=
  match server.topics room with
  | none => server
  | some users =>
      { server with
        topics := Function.update server.topics room (some (users.insert user)) }

/-- What an action of a connection does to the rest of the server. -/
def perform (conn : Nat) (server : Server) : Action → Server
  | .insertUser user => server.insertUser user conn
  | .subscribe room user => server.addSubscriber room user
  | _ => server

end Server

inductive Event where
  | connect (conn : Nat)
  | read (conn : Nat) (answers : Answers) (data : Str)
  | disconnect (conn : Nat)
  | broadcastRoom (room : Str)

/-- The users a list of actions enters into the map. -/
def insertions (actions : List Action) : List Str :=
  actions.filterMap fun action =>
    match action with
    | .insertUser user => some user
    | _ => none

/-- The server, with the latest connection that completed a handshake for each
user. -/
structure Tracked where
  server : Server
  latest : Str → Option Nat

def step (lib : Libraries) (state : Tracked) : Event → Option Tracked
  | .connect conn =>
      match state.server.conns conn with
      | some _ => none
      | none =>
          some { state with
            server := { state.server with
              conns := Function.update state.server.conns conn
                (some Connection.fresh) } }
  | .read conn answers data =>
      match state.server.conns conn with
      | none => none
      | some connection =>
          (connection.onMessage lib answers data).map fun (next, actions) =>
            { server := actions.foldl (Server.perform conn) { state.server with
                conns := Function.update state.server.conns conn (some next) }
              latest := (insertions actions).foldl
                (fun latest user => Function.update latest user (some conn))
                state.latest }
  | .disconnect conn =>
      match state.server.conns conn with
      | none => none
      | some connection =>
          some { state with
            server := { state.server with
              conns := Function.update state.server.conns conn
                (some { connection with connected := false }) } }
  | .broadcastRoom room =>
      some { state with server := (state.server.broadcastRoom room).1 }

/-- The server behind `load_room_list`. -/
def start : Tracked where
  server :=
    { conns := fun _ => none
      userWsConnMap := fun _ => none
      topics := fun room =>
        if room ∈ Connection.roomList then some [] else none }
  latest := fun _ => none

/-! ## Reaching the live connection -/

/-- As long as the latest connection of a user is open, the map leads to it,
and both ways of publishing reach it in every room the user is subscribed
to. -/
def Live (state : Tracked) : Prop :=
  ∀ user conn, state.latest user = some conn →
    state.server.isOpen conn = true →
    state.server.userWsConnMap user = some (some conn) ∧
    ∀ room users, state.server.topics room = some users → user ∈ users →
      (∀ sender, sender ≠ user →
        conn ∈ state.server.publishTargets room sender) ∧
      conn ∈ (state.server.broadcastRoom room).2

/-- A handshake that names a user is the first one of this user. -/
def guard (state : Tracked) : Event → Prop
  | .read conn _ data => ∀ connection, state.server.conns conn = some connection →
      connection.CompletesHandshake data → Connection.requestUid data ≠ [] →
      state.latest (Connection.requestUid data) = none
  | _ => True

/-! ## What a read means for the map -/

/-- The read completes a handshake that names a user. -/
def NamesUser (conn : Connection) (data : Str) : Prop :=
  conn.CompletesHandshake data ∧ Connection.requestUid data ≠ []

/-- What the map and the topics may see of a read: either its user is entered,
or nothing is, and subscriptions are those of the connection's own user. -/
structure Seen (named : Prop) (conn next : Connection) (data : Str)
    (actions : List Action) : Prop where
  inserted : (named ∧ insertions actions = [Connection.requestUid data] ∧
      next.userid = Connection.requestUid data ∧ next.connected = true) ∨
    (¬ named ∧ insertions actions = [] ∧ next.userid = conn.userid)
  completed : named ∨ conn.handshakeCompleted = true →
    next.handshakeCompleted = true
  subscribed : ∀ room user, .subscribe room user ∈ actions → user = next.userid

theorem insertions_fromHandler {uid : Str} {actions : List Action}
    (fromHandler : FromHandler uid actions) : insertions actions = [] := by
  apply List.filterMap_eq_nil_iff.mpr
  intro action member
  have kind := fromHandler action member
  cases action with
  | insertUser user => exact absurd kind id
  | _ => rfl

theorem insertions_subscribe (rooms : List Str) (uid : Str) :
    insertions (rooms.map fun room => .subscribe room uid) = [] := by
  apply List.filterMap_eq_nil_iff.mpr
  intro action member
  obtain ⟨room, -, rfl⟩ := List.mem_map.mp member
  rfl

/-- An accepted handshake enters its user. -/
theorem insertions_accepted (response uid : Str) (rooms : List Str) :
    insertions ([.switchProtocols response, .insertUser uid] ++
      rooms.map fun room => .subscribe room uid) = [uid] := by
  have subscriptions := insertions_subscribe rooms uid
  rw [insertions] at subscriptions
  rw [insertions, List.filterMap_append, subscriptions]
  rfl

theorem handshake_seen (lib : Libraries) {conn : Connection}
    (isConnected : conn.connected = true)
    (isOpen : conn.handshakeCompleted = false) (request : Str) :
    Seen ((Connection.secWebSocketKey request).isSome ∧
        Connection.requestUid request ≠ []) conn
      (conn.handshake lib request).1 request
      (conn.handshake lib request).2 := by
  cases found : Connection.secWebSocketKey request with
  | none =>
      have result : conn.handshake lib request = (conn, []) := by
        simp [Connection.handshake, found]
      rw [result]
      constructor
      · right
        exact ⟨by simp, rfl, rfl⟩
      · simp [isOpen]
      · intro room user member
        cases member
  | some key =>
      by_cases noUid : Connection.requestUid request = []
      · simp only [Connection.handshake, found, noUid, if_true]
        constructor
        · right
          exact ⟨by simp, rfl, rfl⟩
        · intro _
          rfl
        · intro room user member
          simp at member
      · simp only [Connection.handshake, found, noUid, if_false]
        constructor
        · left
          exact ⟨by simp [noUid], insertions_accepted .., rfl, isConnected⟩
        · intro _
          rfl
        · intro room user member
          rcases List.mem_append.mp member with first | later
          · simp at first
          · obtain ⟨other, -, equality⟩ := List.mem_map.mp later
            cases equality
            rfl

/-- A read that neither names a user nor enters one. -/
theorem Seen.of_quiet {named : Prop} {conn next : Connection} {data : Str}
    {actions : List Action} (unnamed : ¬ named)
    (sameUser : next.userid = conn.userid)
    (sameHandshake : next.handshakeCompleted = conn.handshakeCompleted)
    (inserted : insertions actions = [])
    (subscribed : ∀ room user, .subscribe room user ∈ actions →
      user = conn.userid) : Seen named conn next data actions := by
  constructor
  · exact .inr ⟨unnamed, inserted, sameUser⟩
  · intro either
    rcases either with isNamed | isCompleted
    · exact absurd isNamed unnamed
    · exact sameHandshake.trans isCompleted
  · intro room user member
    exact (subscribed room user member).trans sameUser.symm

theorem onRead_seen {lib : Libraries} {answers : Answers}
    {conn next : Connection} {data : Str} {actions : List Action}
    (isConnected : conn.connected = true)
    (read : conn.onRead lib answers data = some (next, actions)) :
    Seen (conn.handshakeCompleted = false ∧
        (Connection.secWebSocketKey data).isSome ∧
        Connection.requestUid data ≠ []) conn next data actions := by
  by_cases isOpen : conn.handshakeCompleted = false
  · simp only [Connection.onRead, isOpen, Bool.false_eq_true, not_false_eq_true,
      if_true, Option.some.injEq] at read
    have seen := handshake_seen lib isConnected isOpen data
    rw [read] at seen
    simpa only [isOpen, true_and] using seen
  · have isCompleted : conn.handshakeCompleted = true := by simpa using isOpen
    have unnamed : ¬ (conn.handshakeCompleted = false ∧
        (Connection.secWebSocketKey data).isSome ∧
        Connection.requestUid data ≠ []) := fun named => isOpen named.1
    simp only [Connection.onRead, isCompleted, not_true_eq_false,
      if_false] at read
    obtain ⟨frame, -, outcome⟩ := Option.map_eq_some_iff.mp read
    split at outcome
    · obtain ⟨rfl, rfl⟩ := Prod.mk.inj outcome
      rcases Connection.onText_cases lib answers conn frame.payloadData with
        ⟨-, closed⟩ | ⟨-, kept, fromHandler⟩
      · rw [closed]
        refine Seen.of_quiet unnamed rfl rfl rfl ?_
        intro room user member
        simp [Connection.disconnect] at member
      · rw [kept]
        refine Seen.of_quiet unnamed rfl rfl ?_ ?_
        · change insertions (conn.onText lib answers frame.payloadData).2 = []
          exact insertions_fromHandler fromHandler
        · intro room user member
          rcases List.mem_cons.mp member with isDispatch | later
          · cases isDispatch
          · exact fromHandler _ later
    · split at outcome
      · obtain ⟨rfl, rfl⟩ := Prod.mk.inj outcome
        refine Seen.of_quiet unnamed rfl rfl rfl ?_
        intro room user member
        simp at member
      · obtain ⟨rfl, rfl⟩ := Prod.mk.inj outcome
        refine Seen.of_quiet unnamed rfl rfl rfl ?_
        intro room user member
        cases member

theorem onMessage_seen {lib : Libraries} {answers : Answers}
    {conn next : Connection} {data : Str} {actions : List Action}
    (read : conn.onMessage lib answers data = some (next, actions)) :
    Seen (NamesUser conn data) conn next data actions := by
  have quiet : ∀ {other : Connection} {shown : List Action},
      ¬ NamesUser conn data → other.userid = conn.userid →
      other.handshakeCompleted = conn.handshakeCompleted →
      (shown = [] ∨ shown = [.http data]) →
      Seen (NamesUser conn data) conn other data shown := by
    intro other shown unnamed sameUser sameHandshake either
    rcases either with rfl | rfl
    · refine Seen.of_quiet unnamed sameUser sameHandshake rfl ?_
      intro room user member
      cases member
    · refine Seen.of_quiet unnamed sameUser sameHandshake rfl ?_
      intro room user member
      simp at member
  by_cases isConnected : conn.connected = true
  · simp only [Connection.onMessage, isConnected, if_true,
      Connection.handlerOnRead] at read
    cases kind : conn.requestType with
    | webSocket =>
        simp only [kind] at read
        have seen := onRead_seen isConnected read
        have named : NamesUser conn data ↔ (conn.handshakeCompleted = false ∧
            (Connection.secWebSocketKey data).isSome ∧
            Connection.requestUid data ≠ []) := by
          simp [NamesUser, Connection.CompletesHandshake, isConnected, kind,
            and_assoc]
        rw [named]
        exact seen
    | http =>
        simp only [kind, Option.some.injEq] at read
        obtain ⟨rfl, rfl⟩ := Prod.mk.inj read
        refine quiet ?_ rfl rfl (.inr rfl)
        intro named
        rcases named.1.2.2.1 with webSocket | ⟨unknown, -⟩
        · cases kind.symm.trans webSocket
        · cases kind.symm.trans unknown
    | unknown =>
        simp only [kind] at read
        have unnamed : HttpHandler.classify data ≠ some .webSocket →
            ¬ NamesUser conn data := by
          intro different named
          rcases named.1.2.2.1 with webSocket | ⟨-, recognised⟩
          · cases kind.symm.trans webSocket
          · exact different recognised
        cases classified : HttpHandler.classify data with
        | none =>
            simp only [classified, Option.some.injEq] at read
            obtain ⟨rfl, rfl⟩ := Prod.mk.inj read
            exact quiet (unnamed (by simp [classified])) rfl rfl (.inl rfl)
        | some requestType =>
            cases requestType with
            | webSocket =>
                simp only [classified] at read
                have seen := onRead_seen rfl read
                have named : NamesUser conn data ↔
                    (conn.handshakeCompleted = false ∧
                      (Connection.secWebSocketKey data).isSome ∧
                      Connection.requestUid data ≠ []) := by
                  simp [NamesUser, Connection.CompletesHandshake, isConnected,
                    kind, classified, and_assoc]
                rw [named]
                exact ⟨seen.inserted, seen.completed, seen.subscribed⟩
            | http =>
                simp only [classified, Option.some.injEq] at read
                obtain ⟨rfl, rfl⟩ := Prod.mk.inj read
                exact quiet (unnamed (by simp [classified])) rfl rfl (.inr rfl)
            | unknown =>
                simp only [classified, Option.some.injEq] at read
                obtain ⟨rfl, rfl⟩ := Prod.mk.inj read
                exact quiet (unnamed (by simp [classified])) rfl rfl (.inr rfl)
  · simp only [Connection.onMessage, isConnected, Bool.false_eq_true, if_false,
      Option.some.injEq] at read
    obtain ⟨rfl, rfl⟩ := Prod.mk.inj read
    exact quiet (fun named => isConnected named.1.1) rfl rfl (.inl rfl)

/-! ## The server as a fold of actions -/

theorem conns_foldl_perform (conn : Nat) (actions : List Action)
    (server : Server) :
    (actions.foldl (Server.perform conn) server).conns = server.conns := by
  induction actions generalizing server with
  | nil => rfl
  | cons action actions induction =>
      rw [List.foldl_cons, induction]
      cases action with
      | insertUser user =>
          simp only [Server.perform, Server.insertUser]
          split <;> rfl
      | subscribe room user =>
          simp only [Server.perform, Server.addSubscriber]
          split <;> rfl
      | _ => rfl

/-- Actions that enter no user leave the map alone. -/
theorem map_foldl_perform {actions : List Action}
    (inserted : insertions actions = []) (conn : Nat) (server : Server) :
    (actions.foldl (Server.perform conn) server).userWsConnMap =
      server.userWsConnMap := by
  induction actions generalizing server with
  | nil => rfl
  | cons action actions induction =>
      have later : insertions actions = [] := by
        rw [insertions, List.filterMap_eq_nil_iff] at inserted ⊢
        intro other member
        exact inserted other (List.mem_cons_of_mem _ member)
      rw [List.foldl_cons, induction later]
      cases action with
      | insertUser user => cases inserted
      | subscribe room user =>
          simp only [Server.perform, Server.addSubscriber]
          split <;> rfl
      | _ => rfl

/-- A user that is entered gets the connection unless the map has an entry. -/
theorem map_foldl_perform_insert {actions : List Action} {user : Str}
    (inserted : insertions actions = [user]) (conn : Nat) (server : Server) :
    (actions.foldl (Server.perform conn) server).userWsConnMap =
      (server.insertUser user conn).userWsConnMap := by
  induction actions generalizing server with
  | nil => cases inserted
  | cons action actions induction =>
      rw [List.foldl_cons]
      cases action with
      | insertUser other =>
          have heads : other :: insertions actions = [user] := inserted
          obtain ⟨rfl, none⟩ := List.cons.inj heads
          exact map_foldl_perform none conn _
      | subscribe room other =>
          rw [induction inserted]
          simp only [Server.perform, Server.addSubscriber, Server.insertUser]
          split <;> split <;> simp_all
      | _ => exact induction inserted server

/-- Every subscriber was one before or is subscribed by an action. -/
theorem topics_foldl_perform {actions : List Action} {conn : Nat}
    {server : Server} {room user : Str} {users : List Str}
    (topic : (actions.foldl (Server.perform conn) server).topics room = some users)
    (member : user ∈ users) :
    (∃ earlier, server.topics room = some earlier ∧ user ∈ earlier) ∨
      .subscribe room user ∈ actions := by
  induction actions generalizing server with
  | nil => exact .inl ⟨users, topic, member⟩
  | cons action actions induction =>
      rw [List.foldl_cons] at topic
      rcases induction topic with ⟨earlier, found, inside⟩ | later
      · cases action with
        | subscribe other subscriber =>
            simp only [Server.perform, Server.addSubscriber] at found
            split at found
            · exact .inl ⟨earlier, found, inside⟩
            · rename_i before known
              by_cases sameRoom : room = other
              · subst sameRoom
                simp only [Function.update_self, Option.some.injEq] at found
                rw [← found] at inside
                rcases List.mem_insert_iff.mp inside with rfl | old
                · exact .inr (List.mem_cons_self ..)
                · exact .inl ⟨before, known, old⟩
              · simp only [Function.update_of_ne sameRoom] at found
                exact .inl ⟨earlier, found, inside⟩
        | insertUser other =>
            simp only [Server.perform, Server.insertUser] at found
            split at found <;> exact .inl ⟨earlier, found, inside⟩
        | _ => exact .inl ⟨earlier, found, inside⟩
      · exact .inr (List.mem_cons_of_mem _ later)

/-! ## A broadcast -/

theorem foldl_broadcastTo_frame (users : List Str)
    (state : Server × List Nat) :
    (users.foldl Server.broadcastTo state).1.conns = state.1.conns ∧
      (users.foldl Server.broadcastTo state).1.topics = state.1.topics := by
  induction users generalizing state with
  | nil => exact ⟨rfl, rfl⟩
  | cons user users induction =>
      obtain ⟨conns, topics⟩ := induction (Server.broadcastTo state user)
      rw [List.foldl_cons, conns, topics]
      obtain ⟨server, sent⟩ := state
      simp only [Server.broadcastTo]
      split <;> exact ⟨rfl, rfl⟩

theorem broadcastRoom_frame (server : Server) (room : Str) :
    (server.broadcastRoom room).1.conns = server.conns ∧
      (server.broadcastRoom room).1.topics = server.topics := by
  unfold Server.broadcastRoom
  split
  · exact ⟨rfl, rfl⟩
  · exact foldl_broadcastTo_frame _ _

/-- A broadcast keeps every entry of the map. -/
theorem foldl_broadcastTo_map (users : List Str) {state : Server × List Nat}
    {user : Str} {entry : Option Nat}
    (known : state.1.userWsConnMap user = some entry) :
    (users.foldl Server.broadcastTo state).1.userWsConnMap user =
      some entry := by
  induction users generalizing state with
  | nil => exact known
  | cons other users induction =>
      rw [List.foldl_cons]
      apply induction
      obtain ⟨server, sent⟩ := state
      simp only [Server.broadcastTo]
      split
      · rename_i unknown
        have different : user ≠ other := by
          intro equality
          rw [← equality, known] at unknown
          cases unknown
        simpa [Function.update_of_ne different] using known
      · exact known
      · exact known

/-- A broadcast adds entries for its own subscribers only. -/
theorem foldl_broadcastTo_map_of_not_mem {users : List Str}
    {state : Server × List Nat} {user : Str} (outside : user ∉ users) :
    (users.foldl Server.broadcastTo state).1.userWsConnMap user =
      state.1.userWsConnMap user := by
  induction users generalizing state with
  | nil => rfl
  | cons other users induction =>
      rw [List.mem_cons, not_or] at outside
      rw [List.foldl_cons, induction outside.2]
      obtain ⟨server, sent⟩ := state
      simp only [Server.broadcastTo]
      split
      · exact Function.update_of_ne outside.1 _ _
      · rfl
      · rfl

theorem mem_foldl_broadcastTo {users : List Str} {state : Server × List Nat}
    {conn : Nat}
    (reached : conn ∈ state.2 ∨
      state.1.isOpen conn = true ∧
        ∃ user ∈ users, state.1.userWsConnMap user = some (some conn)) :
    conn ∈ (users.foldl Server.broadcastTo state).2 := by
  induction users generalizing state with
  | nil =>
      rcases reached with sent | ⟨-, user, member, -⟩
      · exact sent
      · cases member
  | cons other users induction =>
      rw [List.foldl_cons]
      apply induction
      obtain ⟨server, sent⟩ := state
      rcases reached with already | ⟨isOpen, user, member, known⟩
      · left
        simp only [Server.broadcastTo]
        split
        · exact already
        · exact already
        · split
          · exact List.mem_append_left _ already
          · exact already
      · rcases List.mem_cons.mp member with rfl | later
        · left
          simp only at known isOpen
          simp [Server.broadcastTo, known, isOpen]
        · right
          have kept : (Server.broadcastTo (server, sent) other).1.userWsConnMap
              user = some (some conn) :=
            foldl_broadcastTo_map [other] known
          have frame := foldl_broadcastTo_frame [other] (server, sent)
          refine ⟨?_, user, later, kept⟩
          rw [Server.isOpen] at isOpen ⊢
          rw [show (Server.broadcastTo (server, sent) other).1.conns =
            server.conns from frame.1]
          exact isOpen

/-- A broadcast is sent only on the open connections the map gives. -/
theorem reached_of_mem_foldl_broadcastTo {users : List Str}
    {state : Server × List Nat} {conn : Nat}
    (sent : conn ∈ (users.foldl Server.broadcastTo state).2) :
    conn ∈ state.2 ∨
      state.1.isOpen conn = true ∧
        ∃ user ∈ users, state.1.userWsConnMap user = some (some conn) := by
  induction users generalizing state with
  | nil => exact .inl sent
  | cons other users induction =>
      rw [List.foldl_cons] at sent
      obtain ⟨server, already⟩ := state
      have later := induction sent
      have frame := foldl_broadcastTo_frame [other] (server, already)
      have isOpen : (Server.broadcastTo (server, already) other).1.isOpen conn =
          server.isOpen conn := by
        rw [Server.isOpen, Server.isOpen,
          show (Server.broadcastTo (server, already) other).1.conns =
            server.conns from frame.1]
      rw [isOpen] at later
      simp only [Server.broadcastTo] at later
      split at later
      · rcases later with before | ⟨opened, user, member, known⟩
        · exact .inl before
        · refine .inr ⟨opened, user, List.mem_cons_of_mem _ member, ?_⟩
          by_cases same : user = other
          · simp [same] at known
          · simpa only [Function.update_of_ne same] using known
      · rcases later with before | ⟨opened, user, member, known⟩
        · exact .inl before
        · exact .inr ⟨opened, user, List.mem_cons_of_mem _ member, known⟩
      · rename_i target known
        rcases later with before | ⟨opened, user, member, found⟩
        · split at before
          · rename_i targetOpen
            rcases List.mem_append.mp before with earlier | now
            · exact .inl earlier
            · rw [List.mem_singleton.mp now]
              exact .inr ⟨targetOpen, other, List.mem_cons_self .., known⟩
          · exact .inl before
        · exact .inr ⟨opened, user, List.mem_cons_of_mem _ member, found⟩

/-- A broadcast adds null entries only. -/
theorem map_of_foldl_broadcastTo_map {users : List Str}
    {state : Server × List Nat} {user : Str} {conn : Nat}
    (known : (users.foldl Server.broadcastTo state).1.userWsConnMap user =
      some (some conn)) : state.1.userWsConnMap user = some (some conn) := by
  induction users generalizing state with
  | nil => exact known
  | cons other users induction =>
      rw [List.foldl_cons] at known
      have later := induction known
      obtain ⟨server, sent⟩ := state
      simp only [Server.broadcastTo] at later
      split at later
      · by_cases same : user = other
        · simp [same] at later
        · simpa only [Function.update_of_ne same] using later
      · exact later
      · exact later

/-! ## The invariant -/

/-- What holds while no user completes a second handshake: the map has exactly
the latest connections, and only users with a handshake are subscribed. -/
structure Tracks (state : Tracked) : Prop where
  mapped : ∀ {user conn}, state.latest user = some conn →
    state.server.userWsConnMap user = some (some conn)
  completed : ∀ {user conn}, state.latest user = some conn →
    ∃ connection, state.server.conns conn = some connection ∧
      connection.handshakeCompleted = true
  unmapped : ∀ {user}, state.latest user = none → user ≠ [] →
    state.server.userWsConnMap user = none
  subscribers : ∀ {room users user}, state.server.topics room = some users →
    user ∈ users → user = [] ∨ state.latest user ≠ none
  users : ∀ {conn connection}, state.server.conns conn = some connection →
    connection.userid = [] ∨ state.latest connection.userid ≠ none

theorem tracks_start : Tracks start := by
  constructor
  · intro user conn latest
    cases latest
  · intro user conn latest
    cases latest
  · intro user _ _
    rfl
  · intro room users user topic member
    simp only [start] at topic
    split at topic
    · cases topic
      cases member
    · cases topic
  · intro conn connection present
    cases present

theorem Tracks.live {state : Tracked} (tracks : Tracks state) :
    Live state := by
  intro user conn latest isOpen
  have known := tracks.mapped latest
  refine ⟨known, ?_⟩
  intro room users topic member
  constructor
  · intro sender different
    obtain ⟨connection, present, completed⟩ := tracks.completed latest
    have target : state.server.publishTarget user = some conn := by
      simp only [Server.isOpen, present] at isOpen
      simp [Server.publishTarget, known, Server.isConnected, present, isOpen,
        completed]
    rw [Server.publishTargets, topic]
    apply List.mem_filterMap.mpr
    exact ⟨user, by simp [member, Ne.symm different], target⟩
  · rw [Server.broadcastRoom, topic]
    exact mem_foldl_broadcastTo (.inr ⟨isOpen, user, member, known⟩)

/-! ## The steps of a run -/

theorem Tracks.connect {lib : Libraries} {state next : Tracked} {conn : Nat}
    (tracks : Tracks state)
    (taken : step lib state (.connect conn) = some next) : Tracks next := by
  simp only [step] at taken
  split at taken
  · cases taken
  · rename_i fresh
    cases taken
    constructor
    · exact tracks.mapped
    · intro user other latest
      obtain ⟨connection, present, completed⟩ := tracks.completed latest
      have different : other ≠ conn := by
        intro equality
        rw [equality, fresh] at present
        cases present
      refine ⟨connection, ?_, completed⟩
      simpa only [Function.update_of_ne different] using present
    · exact tracks.unmapped
    · exact tracks.subscribers
    · intro other connection present
      by_cases same : other = conn
      · subst same
        simp only [Function.update_self, Option.some.injEq] at present
        left
        rw [← present]
        rfl
      · simp only [Function.update_of_ne same] at present
        exact tracks.users present

theorem Tracks.disconnect {lib : Libraries} {state next : Tracked} {conn : Nat}
    (tracks : Tracks state)
    (taken : step lib state (.disconnect conn) = some next) : Tracks next := by
  simp only [step] at taken
  split at taken
  · cases taken
  · rename_i closed known
    cases taken
    constructor
    · exact tracks.mapped
    · intro user other latest
      obtain ⟨connection, present, completed⟩ := tracks.completed latest
      by_cases same : other = conn
      · subst same
        rw [known, Option.some.injEq] at present
        refine ⟨{ closed with connected := false }, ?_, ?_⟩
        · simp only [Function.update_self]
        · rw [← present] at completed
          exact completed
      · refine ⟨connection, ?_, completed⟩
        simpa only [Function.update_of_ne same] using present
    · exact tracks.unmapped
    · exact tracks.subscribers
    · intro other connection present
      by_cases same : other = conn
      · subst same
        simp only [Function.update_self, Option.some.injEq] at present
        have former := tracks.users known
        rw [← present]
        exact former
      · simp only [Function.update_of_ne same] at present
        exact tracks.users present

theorem Tracks.broadcastRoom {lib : Libraries} {state next : Tracked}
    {room : Str} (tracks : Tracks state)
    (taken : step lib state (.broadcastRoom room) = some next) :
    Tracks next := by
  simp only [step, Option.some.injEq] at taken
  subst taken
  cases topic : state.server.topics room with
  | none =>
      simp only [Server.broadcastRoom, topic]
      exact tracks
  | some users =>
      simp only [Server.broadcastRoom, topic]
      obtain ⟨conns, topics⟩ := foldl_broadcastTo_frame users (state.server, [])
      constructor
      · intro user conn latest
        exact foldl_broadcastTo_map users (tracks.mapped latest)
      · intro user conn latest
        simp only [conns]
        exact tracks.completed latest
      · intro user latest nonempty
        have outside : user ∉ users := by
          intro member
          rcases tracks.subscribers topic member with empty | hasLatest
          · exact nonempty empty
          · exact hasLatest latest
        exact (foldl_broadcastTo_map_of_not_mem outside).trans
          (tracks.unmapped latest nonempty)
      · intro other subscribed user found member
        simp only [topics] at found
        exact tracks.subscribers found member
      · intro conn connection present
        simp only [conns] at present
        exact tracks.users present

/-- What one read does to the server. -/
structure ReadBy (state next : Tracked) (conn : Nat)
    (connection after : Connection) (data : Str) : Prop where
  present : state.server.conns conn = some connection
  conns : next.server.conns =
    Function.update state.server.conns conn (some after)
  entered : (NamesUser connection data ∧ after.connected = true ∧
      after.userid = Connection.requestUid data ∧
      after.handshakeCompleted = true ∧
      next.latest = Function.update state.latest (Connection.requestUid data)
        (some conn) ∧
      next.server.userWsConnMap =
        (state.server.insertUser (Connection.requestUid data)
          conn).userWsConnMap) ∨
    (¬ NamesUser connection data ∧ after.userid = connection.userid ∧
      (connection.handshakeCompleted = true →
        after.handshakeCompleted = true) ∧
      next.latest = state.latest ∧
      next.server.userWsConnMap = state.server.userWsConnMap)
  topics : ∀ {room users user}, next.server.topics room = some users →
    user ∈ users →
    (∃ earlier, state.server.topics room = some earlier ∧ user ∈ earlier) ∨
      user = after.userid

theorem step_read_cases {lib : Libraries} {state next : Tracked} {conn : Nat}
    {answers : Answers} {data : Str}
    (taken : step lib state (.read conn answers data) = some next) :
    ∃ connection after, ReadBy state next conn connection after data := by
  simp only [step] at taken
  split at taken
  · cases taken
  · rename_i connection present
    obtain ⟨⟨after, actions⟩, read, result⟩ := Option.map_eq_some_iff.mp taken
    have seen := onMessage_seen read
    subst result
    refine ⟨connection, after, present, ?_, ?_, ?_⟩
    · exact conns_foldl_perform conn actions _
    · rcases seen.inserted with
        ⟨named, inserted, userid, connected⟩ | ⟨unnamed, inserted, userid⟩
      · left
        refine ⟨named, connected, userid, seen.completed (.inl named), ?_, ?_⟩
        · simp only [inserted, List.foldl_cons, List.foldl_nil]
        · refine (map_foldl_perform_insert inserted conn _).trans ?_
          simp only [Server.insertUser]
          split <;> rfl
      · right
        refine ⟨unnamed, userid, ?_, ?_, ?_⟩
        · intro completed
          exact seen.completed (.inr completed)
        · simp only [inserted, List.foldl_nil]
        · exact map_foldl_perform inserted conn _
    · intro room users user topic member
      rcases topics_foldl_perform topic member with old | subscribed
      · exact .inl old
      · exact .inr (seen.subscribed room user subscribed)

/-- An unknown user is entered with the connection of its handshake. -/
theorem insertUser_of_unknown {server : Server} {user : Str} {conn : Nat}
    (unknown : server.userWsConnMap user = none) :
    (server.insertUser user conn).userWsConnMap =
      Function.update server.userWsConnMap user (some (some conn)) := by
  simp [Server.insertUser, unknown]

/-- A known user keeps the entry it has. -/
theorem insertUser_of_known {server : Server} {user : Str} {conn : Nat}
    {entry : Option Nat} (known : server.userWsConnMap user = some entry) :
    server.insertUser user conn = server := by
  simp [Server.insertUser, known]

/-- A read that completes the first handshake of its user. -/
theorem Tracks.readNamed {state next : Tracked} {conn : Nat}
    {connection after : Connection} {data : Str} (tracks : Tracks state)
    (read : ReadBy state next conn connection after data)
    (first : state.latest (Connection.requestUid data) = none)
    (named : NamesUser connection data)
    (userid : after.userid = Connection.requestUid data)
    (completed : after.handshakeCompleted = true)
    (latest : next.latest = Function.update state.latest
      (Connection.requestUid data) (some conn))
    (map : next.server.userWsConnMap = (state.server.insertUser
      (Connection.requestUid data) conn).userWsConnMap) : Tracks next := by
  rw [insertUser_of_unknown (tracks.unmapped first named.2)] at map
  have keepsLatest : ∀ {user : Str}, state.latest user ≠ none →
      next.latest user ≠ none := by
    intro user hasLatest
    have different : user ≠ Connection.requestUid data := by
      intro equality
      rw [equality] at hasLatest
      exact hasLatest first
    rw [latest, Function.update_of_ne different]
    exact hasLatest
  constructor
  · intro user other isLatest
    rw [map]
    by_cases same : user = Connection.requestUid data
    · rw [latest, same, Function.update_self] at isLatest
      rw [same, Function.update_self, isLatest]
    · rw [latest, Function.update_of_ne same] at isLatest
      rw [Function.update_of_ne same]
      exact tracks.mapped isLatest
  · intro user other isLatest
    rw [read.conns]
    by_cases sameConn : other = conn
    · refine ⟨after, ?_, completed⟩
      rw [sameConn, Function.update_self]
    · have different : user ≠ Connection.requestUid data := by
        intro same
        rw [latest, same, Function.update_self,
          Option.some.injEq] at isLatest
        exact sameConn isLatest.symm
      rw [latest, Function.update_of_ne different] at isLatest
      rw [Function.update_of_ne sameConn]
      exact tracks.completed isLatest
  · intro user noLatest nonempty
    rw [map]
    by_cases same : user = Connection.requestUid data
    · rw [latest, same, Function.update_self] at noLatest
      cases noLatest
    · rw [latest, Function.update_of_ne same] at noLatest
      rw [Function.update_of_ne same]
      exact tracks.unmapped noLatest nonempty
  · intro room users user topic member
    rcases read.topics topic member with ⟨earlier, found, inside⟩ | subscribed
    · rcases tracks.subscribers found inside with empty | hasLatest
      · exact .inl empty
      · exact .inr (keepsLatest hasLatest)
    · right
      rw [subscribed, userid, latest, Function.update_self]
      simp
  · intro other shown present
    rw [read.conns] at present
    by_cases sameConn : other = conn
    · rw [sameConn, Function.update_self, Option.some.injEq] at present
      right
      rw [← present, userid, latest, Function.update_self]
      simp
    · rw [Function.update_of_ne sameConn] at present
      rcases tracks.users present with empty | hasLatest
      · exact .inl empty
      · exact .inr (keepsLatest hasLatest)

/-- A read that names no user. -/
theorem Tracks.readQuiet {state next : Tracked} {conn : Nat}
    {connection after : Connection} {data : Str} (tracks : Tracks state)
    (read : ReadBy state next conn connection after data)
    (userid : after.userid = connection.userid)
    (completed : connection.handshakeCompleted = true →
      after.handshakeCompleted = true)
    (latest : next.latest = state.latest)
    (map : next.server.userWsConnMap = state.server.userWsConnMap) :
    Tracks next := by
  constructor
  · intro user other isLatest
    rw [latest] at isLatest
    rw [map]
    exact tracks.mapped isLatest
  · intro user other isLatest
    rw [latest] at isLatest
    obtain ⟨former, present, wasCompleted⟩ := tracks.completed isLatest
    rw [read.conns]
    by_cases sameConn : other = conn
    · rw [sameConn, read.present, Option.some.injEq] at present
      rw [← present] at wasCompleted
      refine ⟨after, ?_, completed wasCompleted⟩
      rw [sameConn, Function.update_self]
    · refine ⟨former, ?_, wasCompleted⟩
      rw [Function.update_of_ne sameConn]
      exact present
  · intro user noLatest nonempty
    rw [latest] at noLatest
    rw [map]
    exact tracks.unmapped noLatest nonempty
  · intro room users user topic member
    rw [latest]
    rcases read.topics topic member with ⟨earlier, found, inside⟩ | subscribed
    · exact tracks.subscribers found inside
    · rw [subscribed, userid]
      exact tracks.users read.present
  · intro other shown present
    rw [read.conns] at present
    rw [latest]
    by_cases sameConn : other = conn
    · rw [sameConn, Function.update_self, Option.some.injEq] at present
      rw [← present, userid]
      exact tracks.users read.present
    · rw [Function.update_of_ne sameConn] at present
      exact tracks.users present

/-- A guarded step keeps the invariant. -/
theorem Tracks.step {lib : Libraries} {state next : Tracked} {event : Event}
    (tracks : Tracks state) (guarded : guard state event)
    (taken : step lib state event = some next) : Tracks next := by
  cases event with
  | connect conn => exact tracks.connect taken
  | disconnect conn => exact tracks.disconnect taken
  | broadcastRoom room => exact tracks.broadcastRoom taken
  | read conn answers data =>
      obtain ⟨connection, after, read⟩ := step_read_cases taken
      rcases read.entered with
        ⟨named, -, userid, completed, latest, map⟩ |
        ⟨-, userid, completed, latest, map⟩
      · have first := guarded connection read.present named.1 named.2
        exact tracks.readNamed read first named userid completed latest map
      · exact tracks.readQuiet read userid completed latest map

/-- After a second handshake of a user the map still leads to the first. -/
theorem Tracks.guard_of_live {lib : Libraries} {state next : Tracked}
    {event : Event} (tracks : Tracks state)
    (taken : Presence.step lib state event = some next) (live : Live next) :
    guard state event := by
  cases event with
  | connect conn => trivial
  | disconnect conn => trivial
  | broadcastRoom room => trivial
  | read conn answers data =>
      intro connection present completes nonempty
      cases earlier : state.latest (Connection.requestUid data) with
      | none => rfl
      | some first =>
          obtain ⟨shown, after, read⟩ := step_read_cases taken
          have same : shown = connection := by
            have equality := read.present.symm.trans present
            exact Option.some.inj equality
          subst same
          rcases read.entered with
            ⟨-, connected, -, -, latest, map⟩ | ⟨unnamed, -⟩
          · have known := tracks.mapped earlier
            rw [insertUser_of_known known] at map
            have isLatest :
                next.latest (Connection.requestUid data) = some conn := by
              rw [latest, Function.update_self]
            have isOpen : next.server.isOpen conn = true := by
              rw [Server.isOpen, read.conns, Function.update_self]
              exact connected
            have leads := (live _ _ isLatest isOpen).1
            rw [map, known, Option.some.injEq, Option.some.injEq] at leads
            obtain ⟨former, found, completed⟩ := tracks.completed earlier
            rw [leads, present, Option.some.injEq] at found
            rw [← found, completes.2.1] at completed
            cases completed
          · exact absurd ⟨completes, nonempty⟩ unnamed

/-- The map always leads to the live connection of every user exactly when no
user completes a second handshake. -/
theorem reaches_live_connection_iff (lib : Libraries) (events : List Event) :
    Lib.Always (step lib) Live start events ↔
      Lib.Meets (step lib) guard start events :=
  Lib.always_iff_meets Tracks.live Tracks.step Tracks.guard_of_live tracks_start

/-- A user that reconnects is not reached. -/
theorem reconnection_keeps_closed_socket :
    ¬ Lib.Always (step Connection.helloLibraries) Live start
      [.connect 1,
        .read 1 Connection.helloAnswers (Connection.upgradeRequest (ascii "7")),
        .disconnect 1, .connect 2,
        .read 2 Connection.helloAnswers
          (Connection.upgradeRequest (ascii "7"))] := by
  intro always
  have live := always _ (List.prefix_refl _) _ rfl
  have leads := (live (ascii "7") 2 (by decide +kernel) (by decide +kernel)).1
  revert leads
  decide +kernel

end Presence

end ChatRoom
