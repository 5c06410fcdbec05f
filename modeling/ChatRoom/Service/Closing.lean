import ChatRoom.Lib.Run
import ChatRoom.Service.WebSocketConn

/-!
# What happens behind a Close frame

A run of one connection is a list of reads.  Its trace collects the actions in
order; after the first Close frame nothing may be stored, published, forwarded
or answered.
-/

namespace ChatRoom

/-- A Close frame sent by the server. -/
def Action.isClose : Action → Bool
  | .close .. => true
  | _ => false

/-- Something a closing connection must not cause: a store, a publication, a
forward, or bytes sent on the connection. -/
def Action.isEffect : Action → Bool
  | .store .. | .publish .. | .forward .. => true
  | .answer .. | .close .. | .switchProtocols .. | .http .. => true
  | .shutdown | .insertUser .. | .subscribe .. | .dispatch .. => false

/-- Behind the first Close frame the trace has no effect. -/
def SilentAfterClose (trace : List Action) : Prop :=
  ∀ action ∈ (trace.dropWhile fun action => ¬ action.isClose).tail,
    action.isEffect = false

namespace Connection

/-- A connection and the trace of its actions so far. -/
abbrev Run := Connection × List Action

/-- One read of a run. -/
def readStep (lib : Libraries) (run : Run) (read : Answers × Str) :
    Option Run :=
  (onMessage lib read.1 run.1 read.2).map fun (next, actions) =>
    (next, run.2 ++ actions)

/-- The read completes the handshake of the connection. -/
def CompletesHandshake (conn : Connection) (data : Str) : Prop :=
  conn.connected = true ∧ conn.handshakeCompleted = false ∧
    (conn.requestType = .webSocket ∨
      conn.requestType = .unknown ∧
        HttpHandler.classify data = some .webSocket) ∧
    (secWebSocketKey data).isSome

/-- A handshake names a user. -/
def namesUser (run : Run) (read : Answers × Str) : Prop :=
  CompletesHandshake run.1 read.2 → requestUid read.2 ≠ []

/-! ## No handler sends a Close frame -/

def NoClose (actions : List Action) : Prop :=
  ∀ action ∈ actions, action.isClose = false

theorem FromHandler.noClose {uid : Str} {actions : List Action}
    (fromHandler : FromHandler uid actions) : NoClose actions := by
  intro action member
  have kind := fromHandler action member
  cases action with
  | close code reason => exact absurd kind id
  | _ => rfl

/-! ## One read -/

/-- A read either sends no Close frame, or ends with one on a connection that
is shut down. -/
def Orderly (next : Connection) (actions : List Action) : Prop :=
  NoClose actions ∨ (next.connected = false ∧ SilentAfterClose actions)

theorem disconnect_orderly (conn : Connection) :
    Orderly conn.disconnect.1 conn.disconnect.2 := by
  right
  refine ⟨rfl, ?_⟩
  intro action member
  simp only [disconnect, Action.isClose, not_true_eq_false, decide_false,
    Bool.false_eq_true, not_false_eq_true, List.dropWhile_cons_of_neg,
    List.tail_cons, List.mem_singleton] at member
  rw [member]
  rfl

theorem onText_orderly (lib : Libraries) (answers : Answers)
    (conn : Connection) (payload : Str) :
    Orderly (onText lib answers conn payload).1
      (onText lib answers conn payload).2 := by
  rcases onText_cases lib answers conn payload with
    ⟨-, result⟩ | ⟨-, -, fromHandler⟩
  · rw [result]
    exact disconnect_orderly conn
  · exact .inl fromHandler.noClose

theorem Orderly.dispatch {next : Connection} {actions : List Action}
    (orderly : Orderly next actions) (payload : Str) :
    Orderly next (.dispatch payload :: actions) := by
  rcases orderly with noClose | ⟨shut, silent⟩
  · left
    intro action member
    rcases List.mem_cons.mp member with rfl | later
    · rfl
    · exact noClose action later
  · exact .inr ⟨shut, silent⟩

/-- A handshake that names a user sends no Close frame. -/
theorem handshake_noClose (lib : Libraries) {conn : Connection}
    {request : Str}
    (named : (secWebSocketKey request).isSome → requestUid request ≠ []) :
    NoClose (handshake lib conn request).2 := by
  intro action member
  unfold handshake at member
  split at member
  · cases member
  · rename_i key found
    have nonempty : requestUid request ≠ [] := named (by simp [found])
    rw [if_neg nonempty] at member
    rcases List.mem_append.mp member with first | subscribed
    · simp only [List.mem_cons, List.not_mem_nil, or_false] at first
      rcases first with rfl | rfl <;> rfl
    · obtain ⟨room, -, rfl⟩ := List.mem_map.mp subscribed
      rfl

theorem onRead_orderly {lib : Libraries} {answers : Answers}
    {conn next : Connection} {data : Str} {actions : List Action}
    (named : conn.handshakeCompleted = false →
      (secWebSocketKey data).isSome → requestUid data ≠ [])
    (read : onRead lib answers conn data = some (next, actions)) :
    Orderly next actions := by
  unfold onRead at read
  split at read
  · rename_i isOpen
    simp only [Option.some.injEq] at read
    have noClose : NoClose (handshake lib conn data).2 :=
      handshake_noClose lib (named (by simpa using isOpen))
    rw [read] at noClose
    exact .inl noClose
  · obtain ⟨frame, -, result⟩ := Option.map_eq_some_iff.mp read
    split at result
    · have orderly := onText_orderly lib answers conn frame.payloadData
      rw [← (Prod.mk.inj result).1, ← (Prod.mk.inj result).2]
      exact orderly.dispatch frame.payloadData
    · split at result
      · have orderly := disconnect_orderly conn
        rw [result] at orderly
        exact orderly
      · rw [← (Prod.mk.inj result).2]
        exact .inl fun _ member => nomatch member

/-- One read of a connection whose handshakes name their users. -/
theorem onMessage_orderly {lib : Libraries} {answers : Answers}
    {conn next : Connection} {data : Str} {actions : List Action}
    (named : CompletesHandshake conn data → requestUid data ≠ [])
    (read : onMessage lib answers conn data = some (next, actions)) :
    Orderly next actions := by
  have httpOnly : Orderly next [.http data] := by
    left
    intro action member
    rw [List.mem_singleton.mp member]
    rfl
  unfold onMessage at read
  split at read
  · rename_i isConnected
    unfold handlerOnRead at read
    split at read
    · rename_i isWebSocket
      apply onRead_orderly _ read
      intro isOpen key
      exact named ⟨isConnected, isOpen, .inl isWebSocket, key⟩
    · rw [← (Prod.mk.inj (Option.some.inj read)).2]
      exact httpOnly
    · rename_i isUnknown
      split at read
      · rw [← (Prod.mk.inj (Option.some.inj read)).2]
        exact .inl fun _ member => nomatch member
      · rename_i classified
        apply onRead_orderly _ read
        intro isOpen key
        exact named ⟨isConnected, isOpen, .inr ⟨isUnknown, classified⟩, key⟩
      · rw [← (Prod.mk.inj (Option.some.inj read)).2]
        exact httpOnly
  · rw [← (Prod.mk.inj (Option.some.inj read)).2]
    exact .inl fun _ member => nomatch member

/-! ## Runs -/

/-- A closed connection is shut down, and its trace is silent behind the
Close frame. -/
def ClosesOnce (run : Run) : Prop :=
  NoClose run.2 ∨ (run.1.connected = false ∧ SilentAfterClose run.2)

theorem silentAfterClose_append {trace actions : List Action}
    (noClose : NoClose trace) (silent : SilentAfterClose actions) :
    SilentAfterClose (trace ++ actions) := by
  have passed : (trace ++ actions).dropWhile (fun action => ¬ action.isClose) =
      actions.dropWhile fun action => ¬ action.isClose := by
    apply List.dropWhile_append_of_pos
    intro action member
    simp [noClose action member]
  rw [SilentAfterClose, passed]
  exact silent

theorem silentAfterClose_of_noClose {trace : List Action}
    (noClose : NoClose trace) : SilentAfterClose trace := by
  have silent : SilentAfterClose [] := fun _ member => nomatch member
  have passed := silentAfterClose_append noClose silent
  simpa using passed

theorem ClosesOnce.readStep {lib : Libraries} {run next : Run}
    {read : Answers × Str} (closesOnce : ClosesOnce run)
    (named : namesUser run read)
    (taken : readStep lib run read = some next) : ClosesOnce next := by
  obtain ⟨⟨conn, actions⟩, result, rfl⟩ := Option.map_eq_some_iff.mp taken
  rcases closesOnce with noClose | ⟨shut, silent⟩
  · rcases onMessage_orderly named result with orderly | ⟨shut, silent⟩
    · left
      intro action member
      rcases List.mem_append.mp member with earlier | later
      · exact noClose action earlier
      · exact orderly action later
    · exact .inr ⟨shut, silentAfterClose_append noClose silent⟩
  · right
    simp only [onMessage, shut, Bool.false_eq_true, if_false,
      Option.some.injEq, Prod.mk.injEq] at result
    obtain ⟨rfl, rfl⟩ := result
    exact ⟨shut, by simpa using silent⟩

/-- In a run whose handshake names a user, nothing happens behind a Close
frame. -/
theorem silent_after_close (lib : Libraries) (reads : List (Answers × Str))
    (meets : Lib.Meets (readStep lib) namesUser (fresh, []) reads) :
    Lib.Always (readStep lib) (fun run => SilentAfterClose run.2)
      (fresh, []) reads := by
  have always : Lib.Always (readStep lib) ClosesOnce (fresh, []) reads := by
    refine meets.always (fun closesOnce named taken => ?_) ?_
    · exact closesOnce.readStep named taken
    · exact .inl fun _ member => nomatch member
  refine always.mono fun run closesOnce => ?_
  rcases closesOnce with noClose | ⟨-, silent⟩
  · exact silentAfterClose_of_noClose noClose
  · exact silent

/-- jsoncpp on the one text of the runs below. -/
def helloLibraries : Libraries where
  parse text :=
    if text = ascii "\x7b\"type\":\"hello\"\x7d" then
      some (.object [(ascii "type", .string (ascii "hello"))])
    else none
  writeString _ := ascii "null"
  fastWrite _ := ascii "null\n"
  realText _ := []
  acceptKey _ := []

def helloAnswers : Answers where
  now := 0
  getUserInfoById _ := none
  helloResponse _ := some .null
  storeMessageTiered _ _ := none

/-- The frame of a client that says hello, with a zero mask. -/
def helloFrame : Str :=
  [0x81, 0x90, 0, 0, 0, 0] ++ ascii "\x7b\"type\":\"hello\"\x7d"

/-- A named user closes, and a later hello changes nothing. -/
theorem silent_after_close_of_user :
    Lib.Always (readStep helloLibraries) (fun run => SilentAfterClose run.2)
      (fresh, [])
      [(helloAnswers, upgradeRequest (ascii "7")),
        (helloAnswers, [0x88, 0x80, 0, 0, 0, 0]), (helloAnswers, helloFrame)] := by
  apply silent_after_close
  have opened : (readStep helloLibraries (fresh, [])
      (helloAnswers, upgradeRequest (ascii "7"))).map (·.1) =
        some ⟨true, .webSocket, true, ascii "7"⟩ := by
    decide +kernel
  intro first firstTaken
  rw [firstTaken, Option.map_some, Option.some.injEq] at opened
  refine ⟨fun _ => by decide +kernel, ?_⟩
  intro second secondTaken
  constructor
  · intro completes
    rw [CompletesHandshake, opened] at completes
    cases completes.2.1
  · intro third thirdTaken
    obtain ⟨⟨closed, actions⟩, result, rfl⟩ :=
      Option.map_eq_some_iff.mp secondTaken
    rw [opened] at result
    cases result
    refine ⟨?_, trivial⟩
    intro completes
    cases completes.1

/-- Without a uid the server sends a Close frame and still answers a hello. -/
theorem hello_answered_after_close :
    ¬ Lib.Always (readStep helloLibraries) (fun run => SilentAfterClose run.2)
      (fresh, [])
      [(helloAnswers, upgradeRequest []), (helloAnswers, helloFrame)] := by
  intro always
  have silent := always _ (List.prefix_refl _) _ rfl
  have unanswered := silent
    (.answer (buildWebSocketFrame (ascii "null\n") 1)) (by decide)
  cases unanswered

end Connection

end ChatRoom
