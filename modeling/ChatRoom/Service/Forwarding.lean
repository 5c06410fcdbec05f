import ChatRoom.Service.ReadOutcome

/-!
# Forwarding to Logic

`handleClientMessages` hands the request for Logic to an `HttpClient` and
returns before the loop gets to the connect attempt.  The only shared pointer
to the client is a local variable of the handler: the callbacks of the
`TcpClient` hold `this`, and the response callback holds strings.
-/

namespace ChatRoom

namespace Forwarding

/-- The connect attempt of a `TcpClient`. -/
inductive Attempt where
  | connecting
  | connected
  | failed
  | stopped
  deriving DecidableEq

/-- What a callback holds of the `HttpClient`. -/
inductive Capture where
  | nothing
  | this
  | shared
  deriving DecidableEq

/-- An `HttpClient` with the `TcpClient` it owns; `tcpClient` is none before
`AsyncPost`. -/
structure HttpClient where
  pendingRequest : Str
  callback : Capture
  connectionCallback : Capture
  messageCallback : Capture
  tcpClient : Option Attempt
  sent : Bool
  alive : Bool
  deriving DecidableEq

namespace HttpClient

/-- `std::make_shared<HttpClient>`. -/
def makeShared : HttpClient :=
  ⟨[], .nothing, .nothing, .nothing, none, false, true⟩

/-- The text of the POST request. -/
def postRequest (host : Str) (port : Nat) (path jsonBody : Str) : Str :=
  ascii "POST " ++ path ++ ascii " HTTP/1.1\r\n" ++
    ascii "Host: " ++ host ++ ascii ":" ++ decimal port ++ ascii "\r\n" ++
    ascii "Content-Type: application/json\r\n" ++
    ascii "Content-Length: " ++ decimal jsonBody.length ++ ascii "\r\n" ++
    ascii "Connection: close\r\n" ++ ascii "\r\n" ++ jsonBody

/-- `AsyncPost`: the connect is started, the request waits. -/
def asyncPost (client : HttpClient) (host : Str) (port : Nat)
    (path jsonBody : Str) (callback : Capture) : HttpClient :=
  { client with
    callback := callback
    pendingRequest := postRequest host port path jsonBody
    tcpClient := some .connecting
    connectionCallback := .this
    messageCallback := .this }

/-- A callback of the client holds a shared pointer to it. -/
def isShared (client : HttpClient) : Bool :=
  client.callback = .shared ∨ client.connectionCallback = .shared ∨
    client.messageCallback = .shared

/-- `~HttpClient` and `~TcpClient`: a connect that is under way is stopped. -/
def destroy (client : HttpClient) : HttpClient :=
  { client with
    alive := false
    tcpClient := client.tcpClient.map fun attempt =>
      if attempt = .connecting then .stopped else attempt }

/-- A local shared pointer to the client goes out of scope. -/
def leaveScope (client : HttpClient) : HttpClient :=
  if client.isShared then client else client.destroy

/-- `onConnection` with a connected socket. -/
def onConnected (client : HttpClient) : HttpClient :=
  { client with tcpClient := some .connected, sent := true }

def onFailed (client : HttpClient) : HttpClient :=
  { client with tcpClient := some .failed }

end HttpClient

/-- The client of one request to Logic, as `handleClientMessages` leaves it
when it returns.  The lambda captures the room and the user id. -/
def forwardClient (logicJson : Str) : HttpClient :=
  (HttpClient.makeShared.asyncPost (ascii "localhost") 8090
    (ascii "/logic/send") logicJson .nothing).leaveScope

/-- The requests to Logic among the actions of a read. -/
def forwards (actions : List Action) : List Str :=
  actions.filterMap fun action =>
    match action with
    | .forward body => some body
    | _ => none

/-- The handlers of the Comet loop, and every `HttpClient` that was made. -/
structure Loop where
  handlers : Nat → Option Connection
  clients : List HttpClient

inductive Event where
  | connect (handler : Nat)
  | read (handler : Nat) (answers : Answers) (data : Str)
  | disconnect (handler : Nat)
  | socketConnected (client : Nat)
  | socketFailed (client : Nat)

/-- The socket of a client becomes ready, if its attempt is under way. -/
def ready (loop : Loop) (index : Nat) (callback : HttpClient → HttpClient) :
    Option Loop :=
  match loop.clients[index]? with
  | some client =>
      if client.tcpClient = some .connecting then
        some { loop with clients := loop.clients.set index (callback client) }
      else none
  | none => none

/-- One callback of the event loop. -/
def step (lib : Libraries) (loop : Loop) : Event → Option Loop
  | .connect handler =>
      match loop.handlers handler with
      | some _ => none
      | none =>
          some { loop with
            handlers := Function.update loop.handlers handler
              (some Connection.fresh) }
  | .read handler answers data =>
      match loop.handlers handler with
      | none => none
      | some conn =>
          (conn.handlerOnRead lib answers data).map fun (next, actions) =>
            { handlers := Function.update loop.handlers handler (some next)
              clients := loop.clients ++ (forwards actions).map forwardClient }
  | .disconnect handler =>
      match loop.handlers handler with
      | none => none
      | some conn =>
          some { loop with
            handlers := Function.update loop.handlers handler
              (some { conn with connected := false }) }
  | .socketConnected index => ready loop index HttpClient.onConnected
  | .socketFailed index => ready loop index HttpClient.onFailed

def start : Loop := ⟨fun _ => none, []⟩

/-! ## Clients that outlive their handler -/

/-- A client is alive until its request is sent or its connect has failed. -/
def Survives (loop : Loop) : Prop :=
  ∀ client ∈ loop.clients,
    client.alive = true ∨ client.sent = true ∨ client.tcpClient = some .failed

/-- The read brings a `clientMessages` that is stored, from a user whose id is
a number: `handleClientMessages` gets to the request for Logic and returns
0. -/
def Forwards (lib : Libraries) (answers : Answers) (conn : Connection)
    (data : Str) : Prop :=
  ((conn.textPayload data).bind (conn.storedMessage lib answers)).isSome ∧
    (Connection.stoi conn.userid).isSome

/-- No read brings a message to forward. -/
def guard (lib : Libraries) (loop : Loop) : Event → Prop
  | .read handler answers data => ∀ conn, loop.handlers handler = some conn →
      ¬ Forwards lib answers conn data
  | _ => True

/-! ## The requests of a read -/

/-- A read hands a request to Logic exactly if it brings a message to
forward. -/
theorem forwards_ne_nil_iff {lib : Libraries} {answers : Answers}
    {conn next : Connection} {data : Str} {actions : List Action}
    (outcome : conn.ReadOutcome lib answers data next actions) :
    forwards actions ≠ [] ↔ Forwards lib answers conn data := by
  rcases outcome.stored_or_still with
    ⟨payload, room, message, stored, -, rfl⟩ | ⟨unstored, still⟩
  · rw [Forwards, stored]
    cases number : Connection.stoi conn.userid with
    | none => simp [forwards, Connection.storedActions, number]
    | some userId => simp [forwards, Connection.storedActions, number]
  · have nothing : forwards actions = [] := by
      apply List.filterMap_eq_nil_iff.mpr
      intro action member
      have stays := still action member
      cases action with
      | forward body => cases stays
      | _ => rfl
    rw [nothing, Forwards, unstored]
    simp

/-! ## Runs -/

/-- A client whose handler has returned: dead, and its request unsent. -/
structure Lost (client : HttpClient) : Prop where
  dead : client.alive = false
  unsent : client.sent = false
  stopped : client.tcpClient = some .stopped

theorem forwardClient_lost (logicJson : Str) :
    Lost (forwardClient logicJson) := by
  constructor <;> rfl

/-- No socket of a lost client becomes ready any more. -/
theorem ready_eq_none {loop : Loop} (lost : ∀ client ∈ loop.clients, Lost client)
    (index : Nat) (callback : HttpClient → HttpClient) :
    ready loop index callback = none := by
  unfold ready
  cases found : loop.clients[index]? with
  | none => rfl
  | some client =>
      have stopped := (lost client (List.mem_of_getElem? found)).stopped
      simp [stopped]

/-- In every state of every run the handlers are well formed, and every client
ever made is lost. -/
structure AllLost (loop : Loop) : Prop where
  formed : Connection.AllFormed loop.handlers
  lost : ∀ client ∈ loop.clients, Lost client

theorem allLost_start : AllLost start := by
  constructor
  · intro handler conn present
    cases present
  · intro client member
    cases member

/-- What a read does to its handler and to the clients. -/
theorem AllLost.read_cases {lib : Libraries} {loop next : Loop}
    {handler : Nat} {answers : Answers} {data : Str}
    (allLost : AllLost loop)
    (taken : step lib loop (.read handler answers data) = some next) :
    ∃ conn after actions, loop.handlers handler = some conn ∧
      conn.Formed ∧ Connection.ReadOutcome lib answers conn data after actions ∧
      next = ⟨Function.update loop.handlers handler (some after),
        loop.clients ++ (forwards actions).map forwardClient⟩ := by
  simp only [Forwarding.step] at taken
  split at taken
  · cases taken
  · rename_i conn present
    obtain ⟨⟨after, actions⟩, read, rfl⟩ := Option.map_eq_some_iff.mp taken
    have formed := allLost.formed handler conn present
    exact ⟨conn, after, actions, present, formed,
      Connection.handlerOnRead_outcome formed read, rfl⟩

theorem AllLost.step {lib : Libraries} {loop next : Loop} {event : Event}
    (allLost : AllLost loop) (taken : step lib loop event = some next) :
    AllLost next := by
  cases event with
  | connect handler =>
      simp only [Forwarding.step] at taken
      split at taken
      · cases taken
      · cases taken
        exact ⟨allLost.formed.update Connection.formed_fresh handler,
          allLost.lost⟩
  | disconnect handler =>
      simp only [Forwarding.step] at taken
      split at taken
      · cases taken
      · rename_i conn present
        cases taken
        have formed := allLost.formed handler conn present
        have down : Connection.Formed { conn with connected := false } :=
          ⟨formed.upgraded, formed.named⟩
        exact ⟨allLost.formed.update down handler, allLost.lost⟩
  | socketConnected index =>
      rw [Forwarding.step, ready_eq_none allLost.lost] at taken
      cases taken
  | socketFailed index =>
      rw [Forwarding.step, ready_eq_none allLost.lost] at taken
      cases taken
  | read handler answers data =>
      obtain ⟨conn, after, actions, present, formed, outcome, rfl⟩ :=
        allLost.read_cases taken
      constructor
      · exact allLost.formed.update (outcome.formed formed) handler
      · intro client member
        rcases List.mem_append.mp member with earlier | made
        · exact allLost.lost client earlier
        · obtain ⟨body, -, rfl⟩ := List.mem_map.mp made
          exact forwardClient_lost body

/-- No request to Logic is ever sent. -/
theorem never_sent (lib : Libraries) {events : List Event} {loop : Loop}
    (reached : Lib.exec (step lib) start events = some loop)
    {client : HttpClient} (member : client ∈ loop.clients) :
    client.sent = false := by
  have allLost : AllLost loop :=
    Lib.exec_invariant AllLost.step allLost_start reached
  exact (allLost.lost client member).unsent

/-- All clients have survived only if there are none. -/
theorem AllLost.survives_iff {loop : Loop} (allLost : AllLost loop) :
    Survives loop ↔ loop.clients = [] := by
  constructor
  · intro survives
    apply List.eq_nil_iff_forall_not_mem.mpr
    intro client member
    have lost := allLost.lost client member
    rcases survives client member with alive | sent | failed
    · rw [lost.dead] at alive
      cases alive
    · rw [lost.unsent] at sent
      cases sent
    · rw [lost.stopped] at failed
      cases failed
  · intro empty client member
    rw [empty] at member
    cases member

/-- What is kept while nothing is forwarded. -/
structure Unused (loop : Loop) : Prop where
  allLost : AllLost loop
  none : loop.clients = []

theorem Unused.step_iff {lib : Libraries} {loop next : Loop} {event : Event}
    (unused : Unused loop) (taken : step lib loop event = some next) :
    next.clients = [] ↔ guard lib loop event := by
  have same : next.clients = loop.clients →
      guard lib loop event → (next.clients = [] ↔ guard lib loop event) := by
    intro unchanged guarded
    rw [unchanged]
    exact iff_of_true unused.none guarded
  cases event with
  | connect handler =>
      simp only [Forwarding.step] at taken
      split at taken
      · cases taken
      · cases taken
        exact same rfl trivial
  | disconnect handler =>
      simp only [Forwarding.step] at taken
      split at taken
      · cases taken
      · cases taken
        exact same rfl trivial
  | socketConnected index =>
      rw [Forwarding.step, ready_eq_none unused.allLost.lost] at taken
      cases taken
  | socketFailed index =>
      rw [Forwarding.step, ready_eq_none unused.allLost.lost] at taken
      cases taken
  | read handler answers data =>
      obtain ⟨conn, after, actions, present, -, outcome, rfl⟩ :=
        unused.allLost.read_cases taken
      have asked := forwards_ne_nil_iff outcome
      have clients : loop.clients ++ (forwards actions).map forwardClient =
          [] ↔ ¬ Forwards lib answers conn data := by
        rw [unused.none, List.nil_append, List.map_eq_nil_iff, ← asked,
          not_not]
      rw [clients]
      constructor
      · intro nothing other found
        rw [present, Option.some.injEq] at found
        exact found ▸ nothing
      · intro guarded
        exact guarded conn present

/-- The JSON text of a message to room 0001. -/
def clientText : Str :=
  ascii ("\x7b\"payload\":\x7b\"content\":\"hi\",\"roomId\":\"0001\"\x7d," ++
    "\"type\":\"clientMessages\"\x7d")

/-- A reader that knows this text, and a plain writer. -/
def clientLibraries : Libraries where
  parse text :=
    if text = clientText then
      some (.object [
        (ascii "payload", .object [(ascii "content", .string (ascii "hi")),
          (ascii "roomId", .string (ascii "0001"))]),
        (ascii "type", .string (ascii "clientMessages"))])
    else none
  writeString _ := ascii "null"
  fastWrite _ := ascii "null\n"
  realText _ := []
  acceptKey _ := []

/-- Redis stores every message under the id 5-0. -/
def clientAnswers : Answers where
  now := 5
  getUserInfoById _ := none
  helloResponse _ := none
  storeMessageTiered _ _ := some (ascii "5-0")

/-- The masked text frame of the message, with a zero mask. -/
def clientFrame : Str :=
  [0x81, 0x80 + clientText.length.toUInt8, 0, 0, 0, 0] ++ clientText

end Forwarding

end ChatRoom
