import ChatRoom.Service.Presence
import ChatRoom.Service.ReadOutcome

/-!
# Broadcasts during handshakes

The I/O thread takes the steps of a read one by one; `BroadcastRoom` runs on
the threads of gRPC, copies the subscribers of a room under one lock and looks
each of them up under another.  A handshake sends its response, enters its
user and subscribes it in this order, so a subscriber can always be reached.
-/

namespace ChatRoom

namespace Broadcast

open Presence (Server)

/-- What is sent on a connection that upgrades. -/
inductive Sent where
  | switching (response : Str)
  | frame (bytes : Str)
  deriving DecidableEq

/-- A step of the I/O thread: an action of a read, or a turn of the loop over
the subscribers of a publication. -/
inductive IoStep where
  | act (action : Action)
  | push (user frame : Str)
  deriving DecidableEq

/-- A call of `BroadcastRoom`: the users not looked up yet, and the connection
of the last one until the frame is sent on it. -/
structure Call where
  frame : Str
  users : List Str
  held : Option Nat

/-- The I/O thread works on a read of the connection `reading`; `sent` holds the
calls of `send` on a connection, of which muduo drops those behind its end. -/
structure State where
  server : Server
  sent : Nat → List Sent
  reading : Nat
  steps : List IoStep
  calls : List Call

namespace State

def send (state : State) (conn : Nat) (what : Sent) : State :=
  { state with
    sent := Function.update state.sent conn (state.sent conn ++ [what]) }

/-- The 101 response has been sent on the connection. -/
def Responded (state : State) (conn : Nat) : Prop :=
  ∃ response, .switching response ∈ state.sent conn

/-- The map leads from the user to a connection with a 101 response. -/
def Registered (state : State) (user : Str) : Prop :=
  ∃ conn, state.server.userWsConnMap user = some (some conn) ∧
    state.Responded conn

end State

/-- `sendCloseFrame`. -/
def closeFrame (code : Nat) (reason : Str) : Str :=
  buildWebSocketFrame (WebSocketFrame.bigEndianBytes 2 code ++ reason) 8

/-- The loop over the subscribers of a publication. -/
def pushes (server : Server) (room sender frame : Str) : List IoStep :=
  match server.topics room with
  | none => []
  | some users => (users.filter (· ≠ sender)).map (.push · frame)

/-- An action of a read. -/
def perform (state : State) (action : Action) : State :=
  let next :=
    { state with server := state.server.perform state.reading action }
  match action with
  | .switchProtocols response => next.send state.reading (.switching response)
  | .close code reason =>
      next.send state.reading (.frame (closeFrame code reason))
  | .answer frame => next.send state.reading (.frame frame)
  | .publish room sender frame =>
      { next with steps := pushes state.server room sender frame ++ state.steps }
  | _ => next

/-- The next step of the I/O thread. -/
def ioStep (state : State) : Option State :=
  match state.steps with
  | [] => none
  | .act action :: steps => some (perform { state with steps := steps } action)
  | .push user frame :: steps =>
      let next := { state with steps := steps }
      match state.server.publishTarget user with
      | none => some next
      | some conn => some (next.send conn (.frame frame))

/-- `operator[]` of the map on the next user of a call. -/
def lookUp (state : State) (index : Nat) : Option State :=
  match state.calls[index]? with
  | some ⟨frame, user :: users, none⟩ =>
      let map := state.server.userWsConnMap
      match map user with
      | some entry =>
          some { state with calls := state.calls.set index ⟨frame, users, entry⟩ }
      | none =>
          some { state with
            server := { state.server with
              userWsConnMap := Function.update map user (some none) }
            calls := state.calls.set index ⟨frame, users, none⟩ }
  | _ => none

/-- A call sends its frame on the connection it holds. -/
def sendHeld (state : State) (index : Nat) : Option State :=
  match state.calls[index]? with
  | some ⟨frame, users, some conn⟩ =>
      some ({ state with
        calls := state.calls.set index ⟨frame, users, none⟩ }.send conn
          (.frame frame))
  | _ => none

inductive Event where
  | connect (conn : Nat)
  | read (conn : Nat) (answers : Answers) (data : Str)
  | disconnect (conn : Nat)
  | io
  | broadcastRoom (room body : Str)
  | lookUp (call : Nat)
  | sendHeld (call : Nat)

/-- The I/O thread takes up something new behind its last step; the calls of
`BroadcastRoom` come in between. -/
def step (lib : Libraries) (state : State) : Event → Option State
  | .connect conn =>
      match state.steps, state.server.conns conn with
      | [], none =>
          some { state with
            server := { state.server with
              conns := Function.update state.server.conns conn
                (some Connection.fresh) } }
      | _, _ => none
  | .read conn answers data =>
      match state.steps, state.server.conns conn with
      | [], some connection =>
          (connection.onMessage lib answers data).map fun (next, actions) =>
            { state with
              server := { state.server with
                conns := Function.update state.server.conns conn (some next) }
              reading := conn
              steps := actions.map .act }
      | _, _ => none
  | .disconnect conn =>
      match state.steps, state.server.conns conn with
      | [], some connection =>
          some { state with
            server := { state.server with
              conns := Function.update state.server.conns conn
                (some { connection with connected := false }) } }
      | _, _ => none
  | .io => ioStep state
  | .broadcastRoom room body =>
      match state.server.topics room with
      | none => some state
      | some users =>
          some { state with
            calls := state.calls ++ [⟨buildWebSocketFrame body 1, users, none⟩] }
  | .lookUp call => lookUp state call
  | .sendHeld call => sendHeld state call

def start : State where
  server := Presence.start.server
  sent := fun _ => []
  reading := 0
  steps := []
  calls := []

/-- Every subscriber is in the map with a connection that has its 101
response, no look-up adds an entry to the map, and the first thing sent on a
connection is the response. -/
structure Sound (state : State) : Prop where
  subscribed : ∀ room users user, state.server.topics room = some users →
    user ∈ users → state.Registered user
  lookUps : ∀ call next, lookUp state call = some next →
    next.server.userWsConnMap = state.server.userWsConnMap
  responseFirst : ∀ conn first, (state.sent conn).head? = some first →
    ∃ response, first = .switching response

/-! ## Safe steps -/

/-- No frame comes before the response, no user is entered before it, and no
user is subscribed before it is entered. -/
def Safe (responded : Prop) (registered : Str → Prop) : List IoStep → Prop
  | [] => True
  | .act (.switchProtocols _) :: steps => Safe True registered steps
  | .act (.insertUser user) :: steps =>
      responded ∧ Safe responded (fun other => other = user ∨ registered other)
        steps
  | .act (.subscribe _ user) :: steps =>
      registered user ∧ Safe responded registered steps
  | .act (.close ..) :: steps => responded ∧ Safe responded registered steps
  | .act (.answer _) :: steps => responded ∧ Safe responded registered steps
  | _ :: steps => Safe responded registered steps

/-- An action that enters or subscribes a user. -/
def registers : Action → Bool
  | .insertUser .. | .subscribe .. => true
  | _ => false

theorem Safe.mono {responded other : Prop} {registered more : Str → Prop}
    {steps : List IoStep} (safe : Safe responded registered steps)
    (stays : responded → other)
    (grows : ∀ user, registered user → more user) : Safe other more steps := by
  induction steps generalizing responded other registered more with
  | nil => trivial
  | cons step steps induction =>
      cases step with
      | push user frame => exact induction safe stays grows
      | act action =>
          cases action with
          | switchProtocols response => exact induction safe id grows
          | insertUser user =>
              refine ⟨stays safe.1, induction safe.2 stays ?_⟩
              intro other either
              exact either.imp id (grows other)
          | subscribe room user =>
              exact ⟨grows user safe.1, induction safe.2 stays grows⟩
          | close code reason =>
              exact ⟨stays safe.1, induction safe.2 stays grows⟩
          | answer frame =>
              exact ⟨stays safe.1, induction safe.2 stays grows⟩
          | _ => exact induction safe stays grows

/-- Behind the response every action is safe that registers nobody. -/
theorem safe_of_plain {responded : Prop} (holds : responded)
    (registered : Str → Prop) {actions : List Action}
    (plain : ∀ action ∈ actions, registers action = false) :
    Safe responded registered (actions.map .act) := by
  induction actions with
  | nil => trivial
  | cons action actions induction =>
      have later := induction fun other member =>
        plain other (List.mem_cons_of_mem _ member)
      have first := plain action List.mem_cons_self
      cases action with
      | insertUser user => cases first
      | subscribe room user => cases first
      | switchProtocols response => exact later.mono (fun _ => trivial) fun _ => id
      | close code reason => exact ⟨holds, later⟩
      | answer frame => exact ⟨holds, later⟩
      | _ => exact later

/-- Subscriptions of a user that is entered. -/
theorem safe_subscriptions {responded : Prop} {registered : Str → Prop}
    {user : Str} (entered : registered user) (rooms : List Str) :
    Safe responded registered
      ((rooms.map fun room => Action.subscribe room user).map .act) := by
  induction rooms with
  | nil => trivial
  | cons room rooms induction => exact ⟨entered, induction⟩

theorem safe_pushes {responded : Prop} {registered : Str → Prop}
    {steps : List IoStep} (server : Server) (room sender frame : Str)
    (safe : Safe responded registered steps) :
    Safe responded registered
      (pushes server room sender frame ++ steps) := by
  unfold pushes
  split
  · exact safe
  · rename_i users known
    induction users.filter (· ≠ sender) with
    | nil => exact safe
    | cons user others induction => exact induction

/-! ## What a read asks for -/

theorem registers_of_local {action : Action} (isLocal : action.isLocal = true) :
    registers action = false := by
  cases action with
  | insertUser user => cases isLocal
  | subscribe room user => cases isLocal
  | _ => rfl

/-- No message handler registers a user: `OnRead` has no route to the
`join_room` branch. -/
theorem onText_plain (lib : Libraries) (answers : Answers) (conn : Connection)
    (payload : Str) :
    ∀ action ∈ (conn.onText lib answers payload).2,
      registers action = false := by
  rcases Connection.onText_outcome lib answers conn payload with
    ⟨-, outcome⟩ | ⟨-, room, message, -, outcome⟩ | ⟨-, -, -, quiet⟩
  · rw [outcome]
    intro action member
    simp only [Connection.disconnect, List.mem_cons, List.not_mem_nil,
      or_false] at member
    rcases member with rfl | rfl <;> rfl
  · rw [outcome]
    intro action member
    simp only [Connection.storedActions, List.mem_append, List.mem_cons,
      List.not_mem_nil, or_false] at member
    rcases member with (rfl | rfl) | forwarded
    · rfl
    · rfl
    · split at forwarded
      · cases forwarded
      · rw [List.mem_singleton.mp forwarded]
        rfl
  · intro action member
    exact registers_of_local (quiet action member)

/-- The steps of a read are safe once the response of a completed handshake
has been sent, and a read that completes a handshake sends it. -/
structure SafeRead (conn next : Connection) (actions : List Action) :
    Prop where
  safe : Safe (conn.handshakeCompleted = true) (fun _ => False)
    (actions.map .act)
  completes : next.handshakeCompleted = true →
    conn.handshakeCompleted = true ∨
      ∃ response, .switchProtocols response ∈ actions

theorem handshake_safe (lib : Libraries) (conn : Connection) (data : Str) :
    SafeRead conn (conn.handshake lib data).1 (conn.handshake lib data).2 := by
  cases found : Connection.secWebSocketKey data with
  | none =>
      simp only [Connection.handshake, found]
      exact ⟨trivial, .inl⟩
  | some key =>
      by_cases noUid : Connection.requestUid data = []
      · simp only [Connection.handshake, found, noUid, if_true]
        refine ⟨⟨trivial, trivial⟩, ?_⟩
        intro _
        exact .inr ⟨_, List.mem_cons_self⟩
      · simp only [Connection.handshake, found, noUid, if_false]
        refine ⟨⟨trivial, safe_subscriptions (.inl rfl) _⟩, ?_⟩
        intro _
        exact .inr ⟨_, List.mem_cons_self⟩

theorem onRead_safe {lib : Libraries} {answers : Answers}
    {conn next : Connection} {data : Str} {actions : List Action}
    (read : conn.onRead lib answers data = some (next, actions)) :
    SafeRead conn next actions := by
  by_cases completed : conn.handshakeCompleted = true
  · have plain : ∀ action ∈ actions, registers action = false := by
      simp only [Connection.onRead, completed, not_true_eq_false,
        if_false] at read
      obtain ⟨frame, -, outcome⟩ := Option.map_eq_some_iff.mp read
      split at outcome
      · obtain ⟨-, rfl⟩ := Prod.mk.inj outcome
        intro action member
        rcases List.mem_cons.mp member with rfl | later
        · rfl
        · exact onText_plain lib answers conn _ action later
      · split at outcome
        · obtain ⟨-, rfl⟩ := Prod.mk.inj outcome
          intro action member
          simp only [List.mem_cons, List.not_mem_nil, or_false] at member
          rcases member with rfl | rfl <;> rfl
        · obtain ⟨-, rfl⟩ := Prod.mk.inj outcome
          intro action member
          cases member
    exact ⟨safe_of_plain completed _ plain, fun _ => .inl completed⟩
  · have first : conn.onRead lib answers data =
        some (conn.handshake lib data) := if_pos completed
    have safe := handshake_safe lib conn data
    rw [first, Option.some.injEq] at read
    rwa [read] at safe

theorem onMessage_safe {lib : Libraries} {answers : Answers}
    {conn next : Connection} {data : Str} {actions : List Action}
    (read : conn.onMessage lib answers data = some (next, actions)) :
    SafeRead conn next actions := by
  unfold Connection.onMessage at read
  split at read
  · unfold Connection.handlerOnRead at read
    split at read
    · exact onRead_safe read
    · obtain ⟨rfl, rfl⟩ := Prod.mk.inj (Option.some.inj read)
      exact ⟨trivial, .inl⟩
    · split at read
      · obtain ⟨rfl, rfl⟩ := Prod.mk.inj (Option.some.inj read)
        exact ⟨trivial, .inl⟩
      · have safe := onRead_safe read
        exact ⟨safe.safe, safe.completes⟩
      · obtain ⟨rfl, rfl⟩ := Prod.mk.inj (Option.some.inj read)
        exact ⟨trivial, .inl⟩
  · obtain ⟨rfl, rfl⟩ := Prod.mk.inj (Option.some.inj read)
    exact ⟨trivial, .inl⟩

/-! ## The invariant -/

/-- The map and the topics lead to connections with a response, and so do the
calls under way; frames follow responses. -/
structure Linked (state : State) : Prop where
  entries : ∀ user entry, state.server.userWsConnMap user = some entry →
    ∃ conn, entry = some conn ∧ state.Responded conn
  subscribed : ∀ room users user, state.server.topics room = some users →
    user ∈ users → state.Registered user
  users : ∀ call ∈ state.calls, ∀ user ∈ call.users, state.Registered user
  held : ∀ call ∈ state.calls, ∀ conn, call.held = some conn →
    state.Responded conn
  responseFirst : ∀ conn first, (state.sent conn).head? = some first →
    ∃ response, first = .switching response

/-- The steps the I/O thread has still to take are safe, and a connection that
counts as upgraded has its response or gets it with them. -/
structure Invariant (state : State) : Prop extends Linked state where
  safe : Safe (state.Responded state.reading) state.Registered state.steps
  completed : ∀ conn connection, state.server.conns conn = some connection →
    connection.handshakeCompleted = true →
    state.Responded conn ∨ conn = state.reading ∧
      ∃ response, .act (.switchProtocols response) ∈ state.steps

/-! ### Sending -/

theorem responded_send {state : State} {conn : Nat}
    (responded : state.Responded conn) (target : Nat) (what : Sent) :
    (state.send target what).Responded conn := by
  obtain ⟨response, member⟩ := responded
  refine ⟨response, ?_⟩
  by_cases same : conn = target
  · subst same
    simp [State.send, member]
  · simpa [State.send, Function.update_of_ne same] using member

theorem registered_send {state : State} {user : Str}
    (registered : state.Registered user) (target : Nat) (what : Sent) :
    (state.send target what).Registered user := by
  obtain ⟨conn, known, responded⟩ := registered
  exact ⟨conn, known, responded_send responded target what⟩

theorem responded_send_switching (state : State) (conn : Nat)
    (response : Str) :
    (state.send conn (.switching response)).Responded conn := by
  refine ⟨response, ?_⟩
  simp [State.send]

theorem Linked.send {state : State} (linked : Linked state) {conn : Nat}
    {what : Sent}
    (allowed : state.Responded conn ∨ ∃ response, what = .switching response) :
    Linked (state.send conn what) where
  entries := by
    intro user entry known
    obtain ⟨target, isTarget, responded⟩ := linked.entries user entry known
    exact ⟨target, isTarget, responded_send responded conn what⟩
  subscribed := by
    intro room users user known member
    exact registered_send (linked.subscribed room users user known member) ..
  users := by
    intro call member user inside
    exact registered_send (linked.users call member user inside) ..
  held := by
    intro call member target held
    exact responded_send (linked.held call member target held) ..
  responseFirst := by
    intro other first isFirst
    by_cases same : other = conn
    · subst same
      simp only [State.send, Function.update_self] at isFirst
      cases sent : state.sent other with
      | nil =>
          rw [sent, List.nil_append, List.head?_cons] at isFirst
          obtain rfl := Option.some.inj isFirst
          rcases allowed with ⟨response, member⟩ | switching
          · rw [sent] at member
            cases member
          · exact switching
      | cons earlier rest =>
          rw [sent, List.cons_append, List.head?_cons] at isFirst
          apply linked.responseFirst other
          rw [sent, List.head?_cons]
          exact isFirst
    · simp only [State.send, Function.update_of_ne same] at isFirst
      exact linked.responseFirst other first isFirst

/-- Other steps that are safe, with the responses still to be sent. -/
theorem Invariant.withSteps {state : State} (invariant : Invariant state)
    {steps : List IoStep}
    (safe : Safe (state.Responded state.reading) state.Registered steps)
    (keeps : ∀ response, .act (.switchProtocols response) ∈ state.steps →
      .act (.switchProtocols response) ∈ steps) :
    Invariant { state with steps := steps } where
  entries := invariant.entries
  subscribed := invariant.subscribed
  users := invariant.users
  held := invariant.held
  responseFirst := invariant.responseFirst
  safe := safe
  completed := by
    intro conn connection known isCompleted
    rcases invariant.completed conn connection known isCompleted with
      responded | ⟨same, response, member⟩
    · exact .inl responded
    · exact .inr ⟨same, response, keeps response member⟩

/-- A frame on a connection with a response. -/
theorem Invariant.send {state : State} (invariant : Invariant state)
    {conn : Nat} (responded : state.Responded conn) (bytes : Str) :
    Invariant (state.send conn (.frame bytes)) where
  toLinked := invariant.toLinked.send (.inl responded)
  safe := by
    apply invariant.safe.mono
    · intro before
      exact responded_send before conn _
    · intro user registered
      exact registered_send registered conn _
  completed := by
    intro other connection known isCompleted
    rcases invariant.completed other connection known isCompleted with
      before | isPending
    · exact .inl (responded_send before conn _)
    · exact .inr isPending

/-! ### The map and the topics -/

/-- A server with the same connections whose map and topics lead to connections
with a response, and that forgets no entry of the map. -/
theorem Invariant.withServer {state : State} (invariant : Invariant state)
    {server : Server} (sameConns : server.conns = state.server.conns)
    (grows : ∀ user conn, state.server.userWsConnMap user = some (some conn) →
      server.userWsConnMap user = some (some conn))
    (entries : ∀ user entry, server.userWsConnMap user = some entry →
      ∃ conn, entry = some conn ∧ state.Responded conn)
    (subscribed : ∀ room users user, server.topics room = some users →
      user ∈ users → State.Registered { state with server := server } user) :
    Invariant { state with server := server } := by
  have moves : ∀ user, state.Registered user →
      State.Registered { state with server := server } user := by
    intro user registered
    obtain ⟨conn, known, responded⟩ := registered
    exact ⟨conn, grows user conn known, responded⟩
  constructor
  · constructor
    · exact entries
    · exact subscribed
    · intro call member user inside
      exact moves user (invariant.users call member user inside)
    · exact invariant.held
    · exact invariant.responseFirst
  · exact invariant.safe.mono id moves
  · intro conn connection known
    rw [sameConns] at known
    exact invariant.completed conn connection known

/-- `insert` forgets nobody. -/
theorem map_insertUser {server : Server} {other : Str} {entry : Option Nat}
    (known : server.userWsConnMap other = some entry) (user : Str)
    (conn : Nat) :
    (server.insertUser user conn).userWsConnMap other = some entry := by
  unfold Server.insertUser
  split
  · rename_i absent
    have different : other ≠ user := by
      intro same
      rw [same, absent] at known
      cases known
    simp only [Function.update_of_ne different, known]
  · exact known

theorem registered_insertUser {state : State} {other : Str}
    (registered : state.Registered other) (user : Str) (conn : Nat) :
    State.Registered
      { state with server := state.server.insertUser user conn } other := by
  obtain ⟨target, known, responded⟩ := registered
  exact ⟨target, map_insertUser known user conn, responded⟩

theorem Invariant.insertUser {state : State} (invariant : Invariant state)
    {conn : Nat} (responded : state.Responded conn) (user : Str) :
    Invariant { state with server := state.server.insertUser user conn } ∧
      State.Registered
        { state with server := state.server.insertUser user conn } user := by
  cases known : state.server.userWsConnMap user with
  | some entry =>
      have same : state.server.insertUser user conn = state.server := by
        simp only [Server.insertUser, known]
      rw [same]
      obtain ⟨target, rfl, reached⟩ := invariant.entries user entry known
      exact ⟨invariant, target, known, reached⟩
  | none =>
      have entered : (state.server.insertUser user conn).userWsConnMap =
          Function.update state.server.userWsConnMap user
            (some (some conn)) := by
        simp only [Server.insertUser, known]
      have others : (state.server.insertUser user conn).conns =
            state.server.conns ∧
          (state.server.insertUser user conn).topics =
            state.server.topics := by
        simp only [Server.insertUser, known, and_self]
      refine ⟨?_, conn, by rw [entered, Function.update_self], responded⟩
      apply Invariant.withServer invariant
      · exact others.1
      · intro other target found
        exact map_insertUser found user conn
      · intro other entry found
        rw [entered] at found
        by_cases same : other = user
        · subst same
          rw [Function.update_self, Option.some.injEq] at found
          exact ⟨conn, found.symm, responded⟩
        · rw [Function.update_of_ne same] at found
          exact invariant.entries other entry found
      · intro room users other topic member
        rw [others.2] at topic
        exact registered_insertUser
          (invariant.subscribed room users other topic member) user conn

theorem registered_addSubscriber {state : State} {other : Str}
    (registered : state.Registered other) (room user : Str) :
    State.Registered
      { state with server := state.server.addSubscriber room user } other := by
  obtain ⟨target, known, responded⟩ := registered
  refine ⟨target, ?_, responded⟩
  simp only [Server.addSubscriber]
  split <;> exact known

theorem Invariant.addSubscriber {state : State} (invariant : Invariant state)
    {user : Str} (registered : state.Registered user) (room : Str) :
    Invariant { state with server := state.server.addSubscriber room user } := by
  cases known : state.server.topics room with
  | none =>
      have same : state.server.addSubscriber room user = state.server := by
        simp only [Server.addSubscriber, known]
      rw [same]
      exact invariant
  | some users =>
      have added : state.server.addSubscriber room user =
          ⟨state.server.conns, state.server.userWsConnMap,
            Function.update state.server.topics room
              (some (users.insert user))⟩ := by
        simp only [Server.addSubscriber, known]
      rw [added]
      apply Invariant.withServer invariant
      · rfl
      · intro _ _ found
        exact found
      · exact invariant.entries
      · intro other others member topic inside
        simp only at topic
        by_cases same : other = room
        · subst same
          rw [Function.update_self, Option.some.injEq] at topic
          subst topic
          rcases List.mem_insert_iff.mp inside with rfl | earlier
          · exact registered
          · exact invariant.subscribed other users member known earlier
        · rw [Function.update_of_ne same] at topic
          exact invariant.subscribed other others member topic inside

/-! ### The steps -/

/-- A step that does not send a response leaves the others to be sent. -/
theorem keeps_rest {step : IoStep} {steps : List IoStep}
    (other : ∀ response, step ≠ .act (.switchProtocols response)) :
    ∀ response, .act (.switchProtocols response) ∈ step :: steps →
      .act (.switchProtocols response) ∈ steps := by
  intro response member
  rcases List.mem_cons.mp member with same | later
  · exact absurd same.symm (other response)
  · exact later

/-- The response of a handshake. -/
theorem Invariant.respond {state : State} {steps : List IoStep}
    {response : Str} (invariant : Invariant state)
    (next : state.steps = .act (.switchProtocols response) :: steps) :
    Invariant ({ state with steps := steps }.send state.reading
      (.switching response)) := by
  have safe := invariant.safe
  rw [next] at safe
  have later : Safe True state.Registered steps := safe
  constructor
  · apply Linked.send
    · exact ⟨invariant.entries, invariant.subscribed, invariant.users,
        invariant.held, invariant.responseFirst⟩
    · exact .inr ⟨response, rfl⟩
  · apply later.mono
    · intro _
      exact responded_send_switching _ _ response
    · intro user registered
      exact registered_send registered _ _
  · intro conn connection known isCompleted
    rcases invariant.completed conn connection known isCompleted with
      responded | ⟨rfl, -⟩
    · exact .inl (responded_send responded _ _)
    · exact .inl (responded_send_switching _ _ response)

theorem perform_invariant {state : State} {action : Action}
    {steps : List IoStep} (invariant : Invariant state)
    (next : state.steps = .act action :: steps) :
    Invariant (perform { state with steps := steps } action) := by
  have safe := invariant.safe
  have keeps : (∀ response, IoStep.act action ≠
      .act (.switchProtocols response)) →
      ∀ response, .act (.switchProtocols response) ∈ state.steps →
        .act (.switchProtocols response) ∈ steps := by
    rw [next]
    exact keeps_rest
  rw [next] at safe
  cases action with
  | switchProtocols response => exact invariant.respond next
  | insertUser user =>
      obtain ⟨entered, registered⟩ := invariant.insertUser safe.1 user
      apply entered.withSteps _ (keeps nofun)
      apply safe.2.mono id
      intro other either
      rcases either with rfl | earlier
      · exact registered
      · exact registered_insertUser earlier user _
  | subscribe room user =>
      apply (invariant.addSubscriber safe.1 room).withSteps _ (keeps nofun)
      apply safe.2.mono id
      intro other registered
      exact registered_addSubscriber registered room user
  | close code reason =>
      exact (invariant.withSteps safe.2 (keeps nofun)).send safe.1 _
  | answer frame =>
      exact (invariant.withSteps safe.2 (keeps nofun)).send safe.1 _
  | publish room sender frame =>
      have later : Safe (state.Responded state.reading) state.Registered
          steps := safe
      apply invariant.withSteps (safe_pushes _ _ _ _ later)
      intro response member
      exact List.mem_append_right _ (keeps nofun response member)
  | shutdown => exact invariant.withSteps safe (keeps nofun)
  | dispatch payload => exact invariant.withSteps safe (keeps nofun)
  | store room message => exact invariant.withSteps safe (keeps nofun)
  | forward body => exact invariant.withSteps safe (keeps nofun)
  | http data => exact invariant.withSteps safe (keeps nofun)

/-- A publication finds connections with a response only. -/
theorem Linked.publishTarget {state : State} (linked : Linked state)
    {user : Str} {conn : Nat}
    (target : state.server.publishTarget user = some conn) :
    state.Responded conn := by
  unfold Server.publishTarget at target
  split at target
  · rename_i found known
    split at target
    · obtain rfl := Option.some.inj target
      obtain ⟨other, same, responded⟩ := linked.entries user _ known
      cases same
      exact responded
    · cases target
  · cases target

theorem ioStep_invariant {state next : State} (invariant : Invariant state)
    (taken : ioStep state = some next) : Invariant next := by
  unfold ioStep at taken
  split at taken
  · cases taken
  · rename_i action steps isNext
    obtain rfl := Option.some.inj taken
    exact perform_invariant invariant isNext
  · rename_i user frame steps isNext
    have safe := invariant.safe
    rw [isNext] at safe
    have later : Safe (state.Responded state.reading) state.Registered
        steps := safe
    have rest : Invariant { state with steps := steps } := by
      apply invariant.withSteps later
      rw [isNext]
      exact keeps_rest nofun
    split at taken
    · obtain rfl := Option.some.inj taken
      exact rest
    · rename_i conn target
      obtain rfl := Option.some.inj taken
      exact rest.send (invariant.publishTarget target) _

/-! ### The calls -/

/-- Other calls under way that lead to connections with a response. -/
theorem Invariant.withCalls {state : State} (invariant : Invariant state)
    {calls : List Call}
    (leads : ∀ call ∈ calls, (∀ user ∈ call.users, state.Registered user) ∧
      ∀ conn, call.held = some conn → state.Responded conn) :
    Invariant { state with calls := calls } where
  entries := invariant.entries
  subscribed := invariant.subscribed
  users := fun call member => (leads call member).1
  held := fun call member => (leads call member).2
  responseFirst := invariant.responseFirst
  safe := invariant.safe
  completed := invariant.completed

theorem Invariant.setCall {state : State} (invariant : Invariant state)
    {index : Nat} {call : Call}
    (users : ∀ user ∈ call.users, state.Registered user)
    (held : ∀ conn, call.held = some conn → state.Responded conn) :
    Invariant { state with calls := state.calls.set index call } := by
  apply invariant.withCalls
  intro other member
  rcases List.mem_or_eq_of_mem_set member with earlier | rfl
  · exact ⟨invariant.users other earlier, invariant.held other earlier⟩
  · exact ⟨users, held⟩

/-- A look-up finds a connection with a response. -/
theorem lookUp_finds {state next : State} {index : Nat}
    (linked : Linked state) (taken : lookUp state index = some next) :
    ∃ frame user users conn,
      state.calls[index]? = some ⟨frame, user :: users, none⟩ ∧
      state.Responded conn ∧
      next = { state with
        calls := state.calls.set index ⟨frame, users, some conn⟩ } := by
  unfold lookUp at taken
  split at taken
  · rename_i frame user users isCall
    have registered := linked.users _ (List.mem_of_getElem? isCall) user
      List.mem_cons_self
    obtain ⟨conn, known, responded⟩ := registered
    simp only [known] at taken
    exact ⟨frame, user, users, conn, isCall, responded,
      (Option.some.inj taken).symm⟩
  · cases taken

/-! ### The connections -/

/-- Between two reads a connection that counts as upgraded has its response. -/
theorem Invariant.responded {state : State} (invariant : Invariant state)
    (idle : state.steps = []) {conn : Nat} {connection : Connection}
    (known : state.server.conns conn = some connection)
    (isCompleted : connection.handshakeCompleted = true) :
    state.Responded conn := by
  rcases invariant.completed conn connection known isCompleted with
    responded | ⟨-, response, member⟩
  · exact responded
  · rw [idle] at member
    cases member

/-- The I/O thread takes up the steps of a connection. -/
theorem Invariant.takeUp {state : State} (invariant : Invariant state)
    (idle : state.steps = []) {conn reading : Nat} {connection : Connection}
    {steps : List IoStep}
    (safe : Safe (state.Responded reading) state.Registered steps)
    (completed : connection.handshakeCompleted = true →
      state.Responded conn ∨ conn = reading ∧
        ∃ response, .act (.switchProtocols response) ∈ steps) :
    Invariant { state with
      server := { state.server with
        conns := Function.update state.server.conns conn (some connection) }
      reading := reading
      steps := steps } where
  entries := invariant.entries
  subscribed := invariant.subscribed
  users := invariant.users
  held := invariant.held
  responseFirst := invariant.responseFirst
  safe := safe
  completed := by
    intro other shown known isCompleted
    simp only at known
    by_cases same : other = conn
    · subst same
      rw [Function.update_self, Option.some.injEq] at known
      subst known
      exact completed isCompleted
    · rw [Function.update_of_ne same] at known
      exact .inl (invariant.responded idle known isCompleted)

theorem step_invariant {lib : Libraries} {state next : State} {event : Event}
    (invariant : Invariant state)
    (taken : step lib state event = some next) : Invariant next := by
  cases event with
  | connect conn =>
      simp only [step] at taken
      split at taken
      · rename_i idle absent
        cases taken
        apply invariant.takeUp idle invariant.safe
        intro isCompleted
        cases isCompleted
      · cases taken
  | read conn answers data =>
      simp only [step] at taken
      split at taken
      · rename_i connection idle known
        obtain ⟨⟨after, actions⟩, read, rfl⟩ := Option.map_eq_some_iff.mp taken
        have safeRead := onMessage_safe read
        apply invariant.takeUp idle
        · apply safeRead.safe.mono (invariant.responded idle known)
          intro user impossible
          cases impossible
        · intro isCompleted
          rcases safeRead.completes isCompleted with before | ⟨response, member⟩
          · exact .inl (invariant.responded idle known before)
          · exact .inr ⟨rfl, response, List.mem_map_of_mem member⟩
      · cases taken
  | disconnect conn =>
      simp only [step] at taken
      split at taken
      · rename_i connection idle known
        cases taken
        apply invariant.takeUp idle invariant.safe
        intro isCompleted
        exact .inl (invariant.responded idle known isCompleted)
      · cases taken
  | io => exact ioStep_invariant invariant taken
  | broadcastRoom room body =>
      simp only [step] at taken
      split at taken
      · cases taken
        exact invariant
      · rename_i users known
        cases taken
        apply invariant.withCalls
        intro call member
        rcases List.mem_append.mp member with earlier | new
        · exact ⟨invariant.users call earlier, invariant.held call earlier⟩
        · rw [List.mem_singleton.mp new]
          exact ⟨fun user => invariant.subscribed room users user known, nofun⟩
  | lookUp index =>
      obtain ⟨frame, user, users, conn, isCall, responded, rfl⟩ :=
        lookUp_finds invariant.toLinked taken
      apply invariant.setCall
      · intro other member
        exact invariant.users _ (List.mem_of_getElem? isCall) other
          (List.mem_cons_of_mem _ member)
      · intro other isHeld
        cases isHeld
        exact responded
  | sendHeld index =>
      simp only [step, sendHeld] at taken
      split at taken
      · rename_i frame users conn isCall
        cases taken
        have member := List.mem_of_getElem? isCall
        have released : Invariant { state with
            calls := state.calls.set index ⟨frame, users, none⟩ } := by
          apply invariant.setCall
          · intro user inside
            exact invariant.users _ member user inside
          · nofun
        exact released.send (invariant.held _ member conn rfl) frame
      · cases taken

/-! ## Every interleaving -/

theorem Invariant.sound {state : State} (invariant : Invariant state) :
    Sound state where
  subscribed := invariant.subscribed
  lookUps := by
    intro index next taken
    obtain ⟨frame, user, users, conn, -, -, rfl⟩ :=
      lookUp_finds invariant.toLinked taken
    rfl
  responseFirst := invariant.responseFirst

theorem invariant_start : Invariant start where
  entries := nofun
  subscribed := by
    intro room users user topic member
    simp only [start, Presence.start] at topic
    split at topic
    · cases topic
      cases member
    · cases topic
  users := nofun
  held := nofun
  responseFirst := nofun
  safe := trivial
  completed := nofun

/-- In every interleaving of handshakes, frames and broadcasts the subscribers
can be reached, no broadcast adds an entry to the map, and no frame comes
before a response. -/
theorem subscribers_reachable (lib : Libraries) (events : List Event) :
    Lib.Always (step lib) Sound start events := by
  have preserved : Lib.Always (step lib) Invariant start events := by
    intro before isPrefix reached ran
    exact Lib.exec_invariant step_invariant invariant_start ran
  exact preserved.mono fun _ invariant => invariant.sound

end Broadcast

end ChatRoom
