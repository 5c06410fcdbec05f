import ChatRoom.Service.Closing
import Mathlib.Logic.Function.Basic

/-!
# What one read can do

`HttpHandler::OnRead` taken apart: the kinds of result a read has, each with
the state of the handler behind it and the actions it takes.  Everything that
is said about runs of handlers is read off this list.
-/

namespace ChatRoom

open HttpHandler (RequestType)

/-- An action that stays between the handler, its client and the storage. -/
def Action.isLocal : Action → Bool
  | .insertUser .. | .subscribe .. | .publish .. | .forward .. => false
  | _ => true

/-- An action that takes a message out of its handler. -/
def Action.spreads : Action → Bool
  | .publish .. | .forward .. => true
  | _ => false

namespace Connection

/-- Only an upgraded handler has shaken hands, and only behind the handshake
does it know a user. -/
structure Formed (conn : Connection) : Prop where
  upgraded : conn.handshakeCompleted = true → conn.requestType = .webSocket
  named : conn.userid ≠ [] → conn.handshakeCompleted = true

theorem formed_fresh : Formed fresh := by
  constructor
  · intro completed
    cases completed
  · intro named
    exact absurd rfl named

/-- The read finds or makes a `CWebSocketConn`. -/
def Upgrades (conn : Connection) (data : Str) : Prop :=
  conn.requestType = .webSocket ∨
    conn.requestType = .unknown ∧ HttpHandler.classify data = some .webSocket

/-- The payload of the text frame that `OnRead` takes the bytes for. -/
def textPayload (conn : Connection) (data : Str) : Option Str :=
  if conn.handshakeCompleted then
    (parseWebSocketFrame data).bind fun frame =>
      if frame.opcode = 1 then some frame.payloadData else none
  else none

/-- A Close frame, or a text frame that makes the server disconnect. -/
def Ends (lib : Libraries) (conn : Connection) (data : Str) : Prop :=
  conn.handshakeCompleted = true ∧
    ((∃ payload, textPayload conn data = some payload ∧
      closes lib payload = true) ∨
    ∃ frame, parseWebSocketFrame data = some frame ∧ frame.opcode = 8)

/-- The room and the message that the `clientMessages` of a payload stores. -/
def storedMessage (lib : Libraries) (answers : Answers) (conn : Connection)
    (payload : Str) : Option (Str × Message) := do
  let root ← lib.parse payload
  let type ← root.get (ascii "type") >>= (·.asString lib.toJsonCpp)
  if type = ascii "clientMessages" then
    let (room, content) ← clientMessage lib answers root
    let id ← answers.storeMessageTiered room
      ⟨[], content, answers.now, conn.userid⟩
    some (room, ⟨id, content, answers.now, conn.userid⟩)
  else none

/-- What `handleClientMessages` does with a message that is stored. -/
def storedActions (lib : Libraries) (answers : Answers) (conn : Connection)
    (room : Str) (message : Message) : List Action :=
  [.store room { message with id := [] },
    .publish room conn.userid (buildWebSocketFrame
      (lib.writeString (broadcastJson answers conn room message)) 1)] ++
    match stoi conn.userid with
    | none => []
    | some userId =>
        [.forward (lib.writeString
          (logicJson answers conn room message.content userId))]

/-- The results of a read of a handler. -/
inductive ReadOutcome (lib : Libraries) (answers : Answers)
    (conn : Connection) (data : Str) : Connection → List Action → Prop
  | http {kind : RequestType} {actions : List Action}
      (plain : ¬ conn.Upgrades data) (other : kind ≠ .webSocket)
      (pending : conn.handshakeCompleted = false)
      (quiet : ∀ action ∈ actions, action.isLocal = true) :
      ReadOutcome lib answers conn data { conn with requestType := kind } actions
  | noKey (upgrades : conn.Upgrades data)
      (pending : conn.handshakeCompleted = false)
      (missing : secWebSocketKey data = none) :
      ReadOutcome lib answers conn data
        { conn with requestType := .webSocket } []
  | refused {actions : List Action} (upgrades : conn.Upgrades data)
      (pending : conn.handshakeCompleted = false)
      (noUid : requestUid data = [])
      (quiet : ∀ action ∈ actions, action.isLocal = true) :
      ReadOutcome lib answers conn data
        { conn with requestType := .webSocket, handshakeCompleted := true }
        actions
  | entered {response : Str} (upgrades : conn.Upgrades data)
      (pending : conn.handshakeCompleted = false)
      (named : requestUid data ≠ []) :
      ReadOutcome lib answers conn data
        { conn with
          requestType := .webSocket
          handshakeCompleted := true
          userid := requestUid data }
        ([.switchProtocols response, .insertUser (requestUid data)] ++
          roomList.map fun room => .subscribe room (requestUid data))
  | ended {actions : List Action} (ends : Ends lib conn data)
      (unstored : (textPayload conn data).bind
        (storedMessage lib answers conn) = none)
      (quiet : ∀ action ∈ actions, action.isLocal = true) :
      ReadOutcome lib answers conn data { conn with connected := false } actions
  | stored {payload room : Str} {message : Message}
      (lasts : ¬ Ends lib conn data) (completed : conn.handshakeCompleted = true)
      (text : textPayload conn data = some payload)
      (accepted : storedMessage lib answers conn payload = some (room, message)) :
      ReadOutcome lib answers conn data conn
        (.dispatch payload :: storedActions lib answers conn room message)
  | kept {actions : List Action} (lasts : ¬ Ends lib conn data)
      (completed : conn.handshakeCompleted = true)
      (unstored : (textPayload conn data).bind
        (storedMessage lib answers conn) = none)
      (quiet : ∀ action ∈ actions, action.isLocal = true) :
      ReadOutcome lib answers conn data conn actions

/-! ## A text frame -/

/-- A payload that makes the server disconnect stores nothing. -/
theorem storedMessage_of_closes {lib : Libraries} {answers : Answers}
    {conn : Connection} {payload : Str} (ends : closes lib payload = true) :
    storedMessage lib answers conn payload = none := by
  unfold closes at ends
  cases parsed : lib.parse payload with
  | none => simp [storedMessage, parsed]
  | some root =>
      cases found : root.get (ascii "type") with
      | none => simp [parsed, found] at ends
      | some type =>
          simp only [parsed, found] at ends
          cases type with
          | null =>
              have differs : ([] : Str) ≠ ascii "clientMessages" := by decide
              simp [storedMessage, parsed, found, Json.asString, differs]
          | _ => cases ends

/-- Storing and publishing, for a message that is stored and one that is
not. -/
theorem storeAndPublish_cases (lib : Libraries) (answers : Answers)
    (conn : Connection) (room content : Str) :
    (∃ id, answers.storeMessageTiered room
        ⟨[], content, answers.now, conn.userid⟩ = some id ∧
      storeAndPublish lib answers conn room content =
        storedActions lib answers conn room
          ⟨id, content, answers.now, conn.userid⟩) ∨
    (answers.storeMessageTiered room
        ⟨[], content, answers.now, conn.userid⟩ = none ∧
      ∀ action ∈ storeAndPublish lib answers conn room content,
        action.isLocal = true) := by
  cases stored : answers.storeMessageTiered room
      ⟨[], content, answers.now, conn.userid⟩ with
  | some id =>
      left
      refine ⟨id, rfl, ?_⟩
      simp only [storeAndPublish, stored]
      rfl
  | none =>
      right
      refine ⟨rfl, ?_⟩
      intro action member
      simp only [storeAndPublish, stored, List.mem_singleton] at member
      rw [member]
      rfl

/-- The handlers that answer the client alone. -/
theorem answers_local (lib : Libraries) (answers : Answers)
    (conn : Connection) (root : Json) :
    (∀ action ∈ handleHelloMessage lib answers conn, action.isLocal = true) ∧
    ∀ action ∈ handleRequestRoomHistory lib root, action.isLocal = true := by
  constructor
  · intro action member
    unfold handleHelloMessage at member
    split at member
    · cases member
    · rw [List.mem_singleton.mp member]
      rfl
  · intro action member
    unfold handleRequestRoomHistory at member
    split at member
    · cases member
    · rw [List.mem_singleton.mp member]
      rfl

/-- A text frame disconnects, stores a message, or stays local.  Its
`join_room` branch is never reached: `OnRead` calls `handleClientMessages` for
`clientMessages` only. -/
theorem onText_outcome (lib : Libraries) (answers : Answers)
    (conn : Connection) (payload : Str) :
    (closes lib payload = true ∧
      onText lib answers conn payload = conn.disconnect) ∨
    (closes lib payload = false ∧ ∃ room message,
      storedMessage lib answers conn payload = some (room, message) ∧
      onText lib answers conn payload =
        (conn, storedActions lib answers conn room message)) ∨
    (closes lib payload = false ∧
      storedMessage lib answers conn payload = none ∧
      (onText lib answers conn payload).1 = conn ∧
      ∀ action ∈ (onText lib answers conn payload).2,
        action.isLocal = true) := by
  rcases onText_cases lib answers conn payload with
    ⟨ends, result⟩ | ⟨lasts, sameConn, -⟩
  · exact .inl ⟨ends, result⟩
  · right
    have quiet : ∀ {actions : List Action}, actions = [] →
        ∀ action ∈ actions, action.isLocal = true := by
      intro actions empty action member
      rw [empty] at member
      cases member
    cases parsed : lib.parse payload with
    | none => simp [closes, parsed] at lasts
    | some root =>
        cases found : root.get (ascii "type") with
        | none =>
            right
            exact ⟨lasts, by simp [storedMessage, parsed, found], sameConn,
              quiet (by simp [onText, parsed, found])⟩
        | some type =>
            have present : type.isNull = false := by
              simpa [closes, parsed, found] using lasts
            cases text : type.asString lib.toJsonCpp with
            | none =>
                right
                exact ⟨lasts, by simp [storedMessage, parsed, found, text],
                  sameConn,
                  quiet (by simp [onText, parsed, found, present, text])⟩
            | some kind =>
                by_cases isClient : kind = ascii "clientMessages"
                · subst isClient
                  have notHello :
                      ascii "clientMessages" ≠ ascii "hello" := by decide
                  have handled : onText lib answers conn payload =
                      (conn, handleClientMessages lib answers conn root) := by
                    simp [onText, parsed, found, present, text, notHello]
                  cases read : clientMessage lib answers root with
                  | none =>
                      right
                      exact ⟨lasts,
                        by simp [storedMessage, parsed, found, text, read],
                        sameConn, quiet (by simp [handled,
                          handleClientMessages, found, text, read])⟩
                  | some fields =>
                      obtain ⟨room, content⟩ := fields
                      have published : handleClientMessages lib answers conn
                          root = storeAndPublish lib answers conn room
                            content := by
                        simp [handleClientMessages, found, text, read]
                      rcases storeAndPublish_cases lib answers conn room
                        content with ⟨id, stored, result⟩ | ⟨failed, isLocal⟩
                      · left
                        refine ⟨lasts, room,
                          ⟨id, content, answers.now, conn.userid⟩, ?_, ?_⟩
                        · simp [storedMessage, parsed, found, text, read,
                            stored]
                        · rw [handled, published, result]
                      · right
                        refine ⟨lasts, ?_, sameConn, ?_⟩
                        · simp [storedMessage, parsed, found, text, read,
                            failed]
                        · rw [handled, published]
                          exact isLocal
                · right
                  refine ⟨lasts, ?_, sameConn, ?_⟩
                  · simp [storedMessage, parsed, found, text, isClient]
                  · simp only [onText, parsed, found, present, text, isClient,
                      Bool.false_eq_true, if_false]
                    split
                    · exact (answers_local lib answers conn root).1
                    · split
                      · exact (answers_local lib answers conn root).2
                      · exact quiet rfl

/-! ## A frame and a handshake -/

theorem textPayload_of_parsed {conn : Connection} {data : Str}
    {frame : WebSocketFrame} (completed : conn.handshakeCompleted = true)
    (parsed : parseWebSocketFrame data = some frame) :
    textPayload conn data =
      if frame.opcode = 1 then some frame.payloadData else none := by
  simp [textPayload, completed, parsed]

theorem ends_iff {lib : Libraries} {conn : Connection} {data : Str}
    {frame : WebSocketFrame} (completed : conn.handshakeCompleted = true)
    (parsed : parseWebSocketFrame data = some frame) :
    Ends lib conn data ↔
      (frame.opcode = 1 ∧ closes lib frame.payloadData = true) ∨
        frame.opcode = 8 := by
  simp [Ends, textPayload_of_parsed completed parsed, completed, parsed]

theorem textFrame_outcome {lib : Libraries} {answers : Answers}
    {conn : Connection} {data : Str} {frame : WebSocketFrame}
    (completed : conn.handshakeCompleted = true)
    (parsed : parseWebSocketFrame data = some frame)
    (isText : frame.opcode = 1) :
    ReadOutcome lib answers conn data
      (onText lib answers conn frame.payloadData).1
      (.dispatch frame.payloadData ::
        (onText lib answers conn frame.payloadData).2) := by
  have text : textPayload conn data = some frame.payloadData := by
    rw [textPayload_of_parsed completed parsed, if_pos isText]
  have lasts : closes lib frame.payloadData = false → ¬ Ends lib conn data := by
    intro goesOn
    rw [ends_iff completed parsed, goesOn, isText]
    decide
  rcases onText_outcome lib answers conn frame.payloadData with
    ⟨closing, outcome⟩ | ⟨goesOn, room, message, accepted, outcome⟩ |
    ⟨goesOn, unstored, sameConn, quiet⟩
  · rw [outcome]
    apply ReadOutcome.ended
    · exact ⟨completed, .inl ⟨_, text, closing⟩⟩
    · rw [text]
      exact storedMessage_of_closes closing
    · intro action member
      simp only [disconnect, List.mem_cons, List.not_mem_nil,
        or_false] at member
      rcases member with rfl | rfl | rfl <;> rfl
  · rw [outcome]
    exact .stored (lasts goesOn) completed text accepted
  · rw [sameConn]
    apply ReadOutcome.kept (lasts goesOn) completed
    · rw [text]
      exact unstored
    · intro action member
      rcases List.mem_cons.mp member with rfl | later
      · rfl
      · exact quiet action later

theorem frame_outcome {lib : Libraries} {answers : Answers}
    {conn next : Connection} {data : Str} {actions : List Action}
    (completed : conn.handshakeCompleted = true)
    (read : onRead lib answers conn data = some (next, actions)) :
    ReadOutcome lib answers conn data next actions := by
  simp only [onRead, completed, not_true_eq_false, if_false] at read
  obtain ⟨frame, parsed, result⟩ := Option.map_eq_some_iff.mp read
  by_cases isText : frame.opcode = 1
  · simp only [isText, if_true] at result
    obtain ⟨rfl, rfl⟩ := Prod.mk.inj result
    exact textFrame_outcome completed parsed isText
  · have unstored : (textPayload conn data).bind
        (storedMessage lib answers conn) = none := by
      rw [textPayload_of_parsed completed parsed, if_neg isText]
      rfl
    simp only [isText, if_false] at result
    by_cases isClose : frame.opcode = 8
    · simp only [isClose, if_true] at result
      obtain ⟨rfl, rfl⟩ := Prod.mk.inj result
      apply ReadOutcome.ended _ unstored
      · intro action member
        simp only [List.mem_cons, List.not_mem_nil, or_false] at member
        rcases member with rfl | rfl <;> rfl
      · exact (ends_iff completed parsed).mpr (.inr isClose)
    · simp only [isClose, if_false] at result
      obtain ⟨rfl, rfl⟩ := Prod.mk.inj result
      apply ReadOutcome.kept _ completed unstored
      · intro action member
        cases member
      · rw [ends_iff completed parsed]
        simp [isText, isClose]

theorem handshake_outcome {lib : Libraries} {answers : Answers}
    {conn : Connection} {data : Str} (upgrades : conn.Upgrades data)
    (pending : conn.handshakeCompleted = false) :
    ReadOutcome lib answers conn data
      (handshake lib { conn with requestType := .webSocket } data).1
      (handshake lib { conn with requestType := .webSocket } data).2 := by
  cases found : secWebSocketKey data with
  | none =>
      simp only [handshake, found]
      exact .noKey upgrades pending found
  | some key =>
      by_cases noUid : requestUid data = []
      · simp only [handshake, found, noUid, if_true]
        apply ReadOutcome.refused upgrades pending noUid
        intro action member
        simp only [List.mem_cons, List.not_mem_nil, or_false] at member
        rcases member with rfl | rfl <;> rfl
      · simp only [handshake, found, noUid, if_false]
        exact .entered upgrades pending noUid

/-! ## A whole read -/

theorem onRead_outcome {lib : Libraries} {answers : Answers}
    {conn next : Connection} {data : Str} {actions : List Action}
    (upgrades : conn.Upgrades data)
    (read : onRead lib answers { conn with requestType := .webSocket } data =
      some (next, actions))
    (formed : conn.Formed) : ReadOutcome lib answers conn data next actions := by
  by_cases completed : conn.handshakeCompleted = true
  · have webSocket := formed.upgraded completed
    have same : { conn with requestType := .webSocket } = conn := by
      rw [← webSocket]
    rw [same] at read
    exact frame_outcome completed read
  · have pending : conn.handshakeCompleted = false := by simpa using completed
    have first : onRead lib answers { conn with requestType := .webSocket }
        data = some (handshake lib { conn with requestType := .webSocket }
          data) := if_pos completed
    rw [first, Option.some.injEq] at read
    have outcome : ReadOutcome lib answers conn data _ _ :=
      handshake_outcome upgrades pending
    rwa [read] at outcome

/-- Every read has one of the results. -/
theorem handlerOnRead_outcome {lib : Libraries} {answers : Answers}
    {conn next : Connection} {data : Str} {actions : List Action}
    (formed : conn.Formed)
    (read : handlerOnRead lib answers conn data = some (next, actions)) :
    ReadOutcome lib answers conn data next actions := by
  have pending : conn.requestType ≠ .webSocket →
      conn.handshakeCompleted = false := by
    intro other
    by_contra completed
    exact other (formed.upgraded (by simpa using completed))
  unfold handlerOnRead at read
  split at read
  · rename_i isWebSocket
    have same : { conn with requestType := .webSocket } = conn := by
      rw [← isWebSocket]
    apply onRead_outcome (.inl isWebSocket) _ formed
    rw [same]
    exact read
  · rename_i isHttp
    have other : conn.requestType ≠ .webSocket := by
      rw [isHttp]
      exact nofun
    obtain ⟨rfl, rfl⟩ := Prod.mk.inj (Option.some.inj read)
    apply ReadOutcome.http _ other (pending other)
    · intro action member
      rw [List.mem_singleton.mp member]
      rfl
    · intro upgrades
      rcases upgrades with isWebSocket | ⟨isUnknown, -⟩
      · exact other isWebSocket
      · rw [isHttp] at isUnknown
        cases isUnknown
  · rename_i isUnknown
    have other : conn.requestType ≠ .webSocket := by
      rw [isUnknown]
      exact nofun
    have plain : HttpHandler.classify data ≠ some .webSocket →
        ¬ conn.Upgrades data := by
      intro different upgrades
      rcases upgrades with isWebSocket | ⟨-, classified⟩
      · exact other isWebSocket
      · exact different classified
    split at read
    · rename_i classified
      obtain ⟨rfl, rfl⟩ := Prod.mk.inj (Option.some.inj read)
      apply ReadOutcome.http _ other (pending other)
      · intro action member
        cases member
      · apply plain
        rw [classified]
        exact nofun
    · rename_i classified
      exact onRead_outcome (.inr ⟨isUnknown, classified⟩) read formed
    · rename_i kind different classified
      obtain ⟨rfl, rfl⟩ := Prod.mk.inj (Option.some.inj read)
      have kindOther : kind ≠ .webSocket := by
        intro same
        exact different same
      apply ReadOutcome.http _ kindOther (pending other)
      · intro action member
        rw [List.mem_singleton.mp member]
        rfl
      · apply plain
        rw [classified]
        intro same
        exact kindOther (Option.some.inj same)

/-- A read keeps the handler well formed. -/
theorem ReadOutcome.formed {lib : Libraries} {answers : Answers}
    {conn next : Connection} {data : Str} {actions : List Action}
    (formed : conn.Formed)
    (outcome : ReadOutcome lib answers conn data next actions) :
    next.Formed := by
  cases outcome with
  | http plain other pending quiet =>
      constructor
      · intro completed
        rw [pending] at completed
        cases completed
      · exact formed.named
  | noKey upgrades pending missing =>
      exact ⟨fun _ => rfl, formed.named⟩
  | refused upgrades pending noUid quiet =>
      exact ⟨fun _ => rfl, fun _ => rfl⟩
  | entered upgrades pending named =>
      exact ⟨fun _ => rfl, fun _ => rfl⟩
  | ended ends unstored quiet =>
      exact ⟨formed.upgraded, formed.named⟩
  | stored lasts completed text accepted => exact formed
  | kept lasts completed unstored quiet => exact formed

theorem textPayload_of_pending {conn : Connection}
    (pending : conn.handshakeCompleted = false) (data : Str) :
    textPayload conn data = none := by
  simp [textPayload, pending]

theorem spreads_of_local {action : Action} (isLocal : action.isLocal = true) :
    action.spreads = false := by
  cases action with
  | publish room sender frame => cases isLocal
  | forward body => cases isLocal
  | _ => rfl

/-- A read stores a message, or nothing leaves its handler. -/
theorem ReadOutcome.stored_or_still {lib : Libraries} {answers : Answers}
    {conn next : Connection} {data : Str} {actions : List Action}
    (outcome : ReadOutcome lib answers conn data next actions) :
    (∃ payload room message,
      (textPayload conn data).bind (storedMessage lib answers conn) =
        some (room, message) ∧
      next = conn ∧
      actions = .dispatch payload ::
        storedActions lib answers conn room message) ∨
    ((textPayload conn data).bind (storedMessage lib answers conn) = none ∧
      ∀ action ∈ actions, action.spreads = false) := by
  have still : (∀ action ∈ actions, action.isLocal = true) →
      ∀ action ∈ actions, action.spreads = false := by
    intro quiet action member
    exact spreads_of_local (quiet action member)
  have unstored : conn.handshakeCompleted = false →
      (textPayload conn data).bind (storedMessage lib answers conn) = none := by
    intro pending
    rw [textPayload_of_pending pending]
    rfl
  cases outcome with
  | http plain other pending quiet =>
      exact .inr ⟨unstored pending, still quiet⟩
  | noKey upgrades pending missing =>
      refine .inr ⟨unstored pending, ?_⟩
      intro action member
      cases member
  | refused upgrades pending noUid quiet =>
      exact .inr ⟨unstored pending, still quiet⟩
  | entered upgrades pending named =>
      refine .inr ⟨unstored pending, ?_⟩
      intro action member
      simp only [List.mem_append, List.mem_cons, List.not_mem_nil, or_false,
        List.mem_map] at member
      rcases member with (rfl | rfl) | ⟨room, -, rfl⟩ <;> rfl
  | ended ends nothing quiet => exact .inr ⟨nothing, still quiet⟩
  | kept lasts completed nothing quiet => exact .inr ⟨nothing, still quiet⟩
  | @stored payload room message lasts completed text accepted =>
      refine .inl ⟨payload, room, message, ?_, rfl, rfl⟩
      rw [text, Option.bind_some, accepted]

/-! ## Tables of handlers -/

/-- Every handler of a table is well formed. -/
def AllFormed (handlers : Nat → Option Connection) : Prop :=
  ∀ handler conn, handlers handler = some conn → conn.Formed

theorem AllFormed.update {handlers : Nat → Option Connection}
    (allFormed : AllFormed handlers) {conn : Connection} (formed : conn.Formed)
    (handler : Nat) :
    AllFormed (Function.update handlers handler (some conn)) := by
  intro other shown present
  by_cases same : other = handler
  · rw [same, Function.update_self, Option.some.injEq] at present
    exact present ▸ formed
  · rw [Function.update_of_ne same] at present
    exact allFormed other shown present

end Connection

end ChatRoom
