import ChatRoom.Service.Closing

/-!
# Cutting the byte stream of a client

A client sends one upgrade request and then masked text frames; TCP cuts the
stream into reads.  The server takes the first read for the whole request and
each later read for exactly one frame.
-/

namespace ChatRoom

/-- The payloads a trace hands to the JSON reader. -/
def dispatched (trace : List Action) : List Str :=
  trace.filterMap fun action =>
    match action with
    | .dispatch payload => some payload
    | _ => none

namespace Connection

/-- An upgrade request: lines ended by CRLF, and a key. -/
structure UpgradeRequest where
  text : Str
  crlf : ∀ line ∈ HttpHandler.linesFrom [] text, line.getLast? = some Byte.cr
  keyLine : (secWebSocketKey text).isSome

/-- The bytes of the frames, one after the other. -/
def wire (frames : List ClientFrame) : Str :=
  (frames.map ClientFrame.encode).flatten

/-- The payloads to dispatch: all of them, or those up to the first one that
makes the server disconnect. -/
def expectedDispatch (lib : Libraries) : List ClientFrame → List Str
  | [] => []
  | frame :: frames =>
      frame.payload ::
        if closes lib frame.payload then [] else expectedDispatch lib frames

/-- The server recognises the upgrade, takes the uid of the request and
dispatches the payloads of the frames in order, each once. -/
def ServesStream (lib : Libraries) (request : UpgradeRequest)
    (frames : List ClientFrame) (reads : List (Answers × Str)) : Prop :=
  ∃ conn trace, Lib.exec (readStep lib) (fresh, []) reads = some (conn, trace) ∧
    conn.requestType = .webSocket ∧ conn.handshakeCompleted = true ∧
    conn.userid = requestUid request.text ∧
    dispatched trace = expectedDispatch lib frames

/-- Every read is exactly one frame, until one makes the server disconnect. -/
def AtFrames (lib : Libraries) : List ClientFrame → List Str → Prop
  | [], chunks => chunks = []
  | frame :: frames, chunks =>
      ∃ rest, chunks = frame.encode :: rest ∧
        (closes lib frame.payload = false → AtFrames lib frames rest)

/-- The request is recognised and has a read of its own, as has every frame. -/
def InFrames (lib : Libraries) (request : UpgradeRequest)
    (frames : List ClientFrame) (reads : List (Answers × Str)) : Prop :=
  HttpHandler.classify request.text = some .webSocket ∧
    ∃ answers rest, reads = (answers, request.text) :: rest ∧
      AtFrames lib frames (rest.map (·.2))

/-! ## Traces -/

theorem dispatched_append (first second : List Action) :
    dispatched (first ++ second) = dispatched first ++ dispatched second :=
  List.filterMap_append

theorem FromHandler.dispatched {uid : Str} {actions : List Action}
    (fromHandler : FromHandler uid actions) : dispatched actions = [] := by
  apply List.filterMap_eq_nil_iff.mpr
  intro action member
  have kind := fromHandler action member
  cases action with
  | dispatch payload => exact absurd kind id
  | _ => rfl

/-! ## One read of an open WebSocket -/

/-- A connection behind its handshake. -/
def Ready (conn : Connection) : Prop :=
  conn.connected = true ∧ conn.requestType = .webSocket ∧
    conn.handshakeCompleted = true

/-- What a text frame leaves of a connection. -/
def afterText (lib : Libraries) (conn : Connection) (payload : Str) :
    Connection :=
  if closes lib payload then { conn with connected := false } else conn

theorem onMessage_undefined {lib : Libraries} {answers : Answers}
    {conn : Connection} {data : Str} (ready : Ready conn)
    (undefined : parseWebSocketFrame data = none) :
    onMessage lib answers conn data = none := by
  obtain ⟨connected, webSocket, completed⟩ := ready
  simp [onMessage, handlerOnRead, onRead, connected, webSocket, completed,
    undefined]

theorem onMessage_text (lib : Libraries) (answers : Answers)
    {conn : Connection} {data : Str} {frame : WebSocketFrame}
    (ready : Ready conn) (parsed : parseWebSocketFrame data = some frame)
    (text : frame.opcode = 1) :
    ∃ actions, onMessage lib answers conn data =
        some (afterText lib conn frame.payloadData, actions) ∧
      dispatched actions = [frame.payloadData] := by
  obtain ⟨connected, webSocket, completed⟩ := ready
  refine ⟨.dispatch frame.payloadData ::
    (onText lib answers conn frame.payloadData).2, ?_, ?_⟩
  · have next : (onText lib answers conn frame.payloadData).1 =
        afterText lib conn frame.payloadData := by
      rcases onText_cases lib answers conn frame.payloadData with
        ⟨isClosing, result⟩ | ⟨stays, result, -⟩
      · simp [result, afterText, isClosing, disconnect]
      · simp [result, afterText, stays]
    simp [onMessage, handlerOnRead, onRead, connected, webSocket, completed,
      parsed, text, next]
  · have quiet : dispatched (onText lib answers conn frame.payloadData).2 = [] := by
      rcases onText_cases lib answers conn frame.payloadData with
        ⟨-, result⟩ | ⟨-, -, fromHandler⟩
      · rw [result]
        rfl
      · exact fromHandler.dispatched
    rw [← quiet]
    rfl

/-- A shut connection reads on without doing anything. -/
theorem exec_shut {lib : Libraries} {conn : Connection} {trace : List Action}
    (shut : conn.connected = false) (reads : List (Answers × Str)) :
    Lib.exec (readStep lib) (conn, trace) reads = some (conn, trace) := by
  induction reads with
  | nil => rfl
  | cons read reads induction =>
      have idle : readStep lib (conn, trace) read = some (conn, trace) := by
        simp [readStep, onMessage, shut]
      rw [Lib.exec_cons_of_some idle]
      exact induction

/-! ## The frames -/

/-- A read at the start of a frame is served only if it is that frame. -/
theorem chunk_cases (frame : ClientFrame) {chunk rest more : Str}
    (cut : chunk ++ rest = frame.encode ++ more) :
    parseWebSocketFrame chunk = none ∨
    (∃ parsed, parseWebSocketFrame chunk = some parsed ∧ parsed.opcode = 1 ∧
      (parsed.payloadData = frame.payload ↔ chunk = frame.encode)) := by
  have isPrefix : chunk <+: frame.header ++
      (WebSocketFrame.applyMask frame.key frame.payload ++ more) := by
    refine ⟨rest, ?_⟩
    rw [cut, ClientFrame.encode, List.append_assoc]
  by_cases short : chunk.length < frame.header.length
  · left
    have inHeader : chunk <+: frame.header :=
      List.prefix_of_prefix_length_le isPrefix
        (List.prefix_append frame.header _) (by omega)
    exact parseWebSocketFrame_short inHeader short
  · right
    have whole : frame.header <+: chunk :=
      List.prefix_of_prefix_length_le (List.prefix_append frame.header _)
        isPrefix (by omega)
    obtain ⟨tail, rfl⟩ := whole
    obtain ⟨parsed, result, opcode, payload⟩ :=
      parseWebSocketFrame_header frame tail
    refine ⟨parsed, result, opcode, ?_⟩
    rw [payload]
    constructor
    · intro equality
      have unmasked :=
        congrArg (WebSocketFrame.applyMask frame.key) equality
      rw [applyMask_applyMask] at unmasked
      rw [unmasked, ClientFrame.encode]
    · intro equality
      have tails := List.append_cancel_left equality
      rw [tails, applyMask_applyMask]

theorem exec_extends {lib : Libraries} {run final : Run}
    {reads : List (Answers × Str)}
    (executed : Lib.exec (readStep lib) run reads = some final) :
    ∃ more, final.2 = run.2 ++ more := by
  induction reads generalizing run with
  | nil =>
      cases executed
      exact ⟨[], by simp⟩
  | cons read reads induction =>
      obtain ⟨next, taken, later⟩ := Lib.exec_cons_iff.mp executed
      obtain ⟨more, trace⟩ := induction later
      obtain ⟨⟨conn, actions⟩, -, rfl⟩ := Option.map_eq_some_iff.mp taken
      exact ⟨actions ++ more, by simp [trace]⟩

theorem readStep_ready (lib : Libraries) (trace : List Action)
    (answers : Answers) {conn : Connection} {data : Str}
    {frame : WebSocketFrame} (ready : Ready conn)
    (parsed : parseWebSocketFrame data = some frame) (text : frame.opcode = 1) :
    ∃ later, readStep lib (conn, trace) (answers, data) =
        some (afterText lib conn frame.payloadData, later) ∧
      dispatched later = dispatched trace ++ [frame.payloadData] := by
  obtain ⟨actions, result, payloads⟩ :=
    onMessage_text lib answers ready parsed text
  refine ⟨trace ++ actions, by simp [readStep, result], ?_⟩
  rw [dispatched_append, payloads]

theorem atFrames_cons_iff {lib : Libraries} {frame : ClientFrame}
    {frames : List ClientFrame} {chunk : Str} {chunks : List Str} :
    AtFrames lib (frame :: frames) (chunk :: chunks) ↔
      chunk = frame.encode ∧
        (closes lib frame.payload = false → AtFrames lib frames chunks) := by
  rw [AtFrames]
  constructor
  · intro atFrames
    obtain ⟨rest, equality, later⟩ := atFrames
    obtain ⟨rfl, rfl⟩ := List.cons.inj equality
    exact ⟨rfl, later⟩
  · intro atFrames
    exact ⟨chunks, by rw [atFrames.1], atFrames.2⟩

/-- An open WebSocket serves the reads of its frames exactly when every read
is one frame. -/
theorem exec_served_iff (lib : Libraries) {conn : Connection}
    (ready : Ready conn) (frames : List ClientFrame) (trace : List Action)
    (reads : List (Answers × Str))
    (cut : (reads.map (·.2)).flatten = wire frames) :
    (∃ next final,
      Lib.exec (readStep lib) (conn, trace) reads = some (next, final) ∧
      dispatched final = dispatched trace ++ expectedDispatch lib frames) ↔
    AtFrames lib frames (reads.map (·.2)) := by
  induction frames generalizing trace reads with
  | nil =>
      cases reads with
      | nil => simp [AtFrames, expectedDispatch]
      | cons read reads =>
          have empty : read.2 = [] := by
            simp only [wire, List.map_nil, List.flatten_nil, List.map_cons,
              List.flatten_cons, List.append_eq_nil_iff] at cut
            exact cut.1
          have undefined : parseWebSocketFrame read.2 = none := by
            rw [empty]
            rfl
          have stuck : readStep lib (conn, trace) read = none := by
            simp [readStep, onMessage_undefined ready undefined]
          simp [Lib.exec, stuck, AtFrames]
  | cons frame frames induction =>
      cases reads with
      | nil => simp [AtFrames, expectedDispatch]
      | cons read reads =>
          obtain ⟨answers, chunk⟩ := read
          have front : chunk ++ (reads.map (·.2)).flatten =
              frame.encode ++ wire frames := by
            simpa [wire] using cut
          rcases chunk_cases frame front with
            undefined | ⟨parsed, result, text, isFrame⟩
          · have stuck : readStep lib (conn, trace) (answers, chunk) = none := by
              simp [readStep, onMessage_undefined ready undefined]
            have different : chunk ≠ frame.encode := by
              intro equality
              obtain ⟨parsed, whole, -⟩ := parseWebSocketFrame_encode frame
              rw [equality, whole] at undefined
              cases undefined
            simp [Lib.exec, stuck, AtFrames, different]
          · obtain ⟨later, taken, payloads⟩ :=
              readStep_ready lib trace answers ready result text
            rw [Lib.exec_cons_of_some taken]
            by_cases whole : chunk = frame.encode
            · have payload : parsed.payloadData = frame.payload :=
                isFrame.mpr whole
              have rest : (reads.map (·.2)).flatten = wire frames := by
                rw [whole] at front
                exact List.append_cancel_left front
              rw [payload] at payloads ⊢
              rw [List.map_cons, atFrames_cons_iff, expectedDispatch]
              by_cases closing : closes lib frame.payload = true
              · rw [afterText, if_pos closing, exec_shut rfl]
                simp [payloads, closing, whole]
              · have stays : closes lib frame.payload = false := by
                  simpa using closing
                have later_iff := induction later reads rest
                rw [afterText, if_neg closing]
                rw [payloads, List.append_assoc, List.singleton_append]
                  at later_iff
                simpa [closing, stays, whole] using later_iff
            · rw [List.map_cons, atFrames_cons_iff, expectedDispatch]
              constructor
              · intro served
                obtain ⟨next, final, executed, payloads'⟩ := served
                obtain ⟨more, extended⟩ := exec_extends executed
                simp only at extended
                rw [extended, dispatched_append, payloads, List.append_assoc,
                  List.singleton_append] at payloads'
                have heads := List.append_cancel_left payloads'
                exact absurd (isFrame.mp (List.cons.inj heads).1) whole
              · intro atFrames
                exact absurd atFrames.1 whole

/-! ## The whole stream -/

theorem handshake_completes (lib : Libraries) (conn : Connection)
    {request : Str} (key : (secWebSocketKey request).isSome) :
    (handshake lib conn request).1 =
      { conn with
        handshakeCompleted := true
        userid := if requestUid request = [] then conn.userid
          else requestUid request } ∧
    dispatched (handshake lib conn request).2 = [] := by
  obtain ⟨value, found⟩ := Option.isSome_iff_exists.mp key
  by_cases noUid : requestUid request = []
  · simp [handshake, found, noUid, dispatched]
  · simp [handshake, found, noUid, dispatched]

/-- A recognised request in a read of its own opens the WebSocket. -/
theorem readStep_request (lib : Libraries) (request : UpgradeRequest)
    (answers : Answers)
    (recognised : HttpHandler.classify request.text = some .webSocket) :
    ∃ trace,
      readStep lib (fresh, []) (answers, request.text) =
        some (⟨true, .webSocket, true, requestUid request.text⟩, trace) ∧
      dispatched trace = [] := by
  obtain ⟨opened, quiet⟩ := handshake_completes lib
    ⟨true, .webSocket, false, []⟩ request.keyLine
  refine ⟨_, ?_, quiet⟩
  have uid : (if requestUid request.text = [] then []
      else requestUid request.text) = requestUid request.text := by
    split
    · rename_i empty
      exact empty.symm
    · rfl
  simp only [uid] at opened
  simp [readStep, onMessage, handlerOnRead, onRead, fresh, recognised,
    ← opened]

/-- The type of a connection that reads on as plain HTTP stays. -/
theorem readStep_http {lib : Libraries} {run next : Run}
    {read : Answers × Str} (isHttp : run.1.requestType = .http)
    (taken : readStep lib run read = some next) :
    next.1.requestType = .http := by
  obtain ⟨⟨conn, actions⟩, result, rfl⟩ := Option.map_eq_some_iff.mp taken
  by_cases connected : run.1.connected = true
  · simp only [onMessage, connected, if_true, handlerOnRead, isHttp,
      Option.some.injEq, Prod.mk.injEq] at result
    rw [← result.1]
    exact isHttp
  · simp only [onMessage, connected, Bool.false_eq_true, if_false,
      Option.some.injEq, Prod.mk.injEq] at result
    rw [← result.1]
    exact isHttp

theorem readStep_keeps {lib : Libraries} {run next : Run}
    {read : Answers × Str} (webSocket : run.1.requestType = .webSocket)
    (completed : run.1.handshakeCompleted = true)
    (taken : readStep lib run read = some next) :
    next.1.requestType = .webSocket ∧ next.1.handshakeCompleted = true ∧
      next.1.userid = run.1.userid := by
  obtain ⟨⟨conn, actions⟩, result, rfl⟩ := Option.map_eq_some_iff.mp taken
  have same : ∀ other : Connection, other = run.1 ∨ other = run.1.disconnect.1 →
      other.requestType = .webSocket ∧ other.handshakeCompleted = true ∧
        other.userid = run.1.userid := by
    intro other kept
    rcases kept with rfl | rfl
    · exact ⟨webSocket, completed, rfl⟩
    · exact ⟨webSocket, completed, rfl⟩
  apply same
  by_cases connected : run.1.connected = true
  · simp only [onMessage, connected, if_true, handlerOnRead, webSocket, onRead,
      completed, not_true_eq_false, if_false] at result
    obtain ⟨frame, -, outcome⟩ := Option.map_eq_some_iff.mp result
    split at outcome
    · rw [← (Prod.mk.inj outcome).1]
      rcases onText_cases lib read.1 run.1 frame.payloadData with
        ⟨-, closed⟩ | ⟨-, kept, -⟩
      · exact .inr (by rw [closed])
      · exact .inl kept
    · split at outcome
      · exact .inr (by rw [outcome])
      · exact .inl (Prod.mk.inj outcome).1.symm
  · simp only [onMessage, connected, Bool.false_eq_true, if_false,
      Option.some.injEq, Prod.mk.injEq] at result
    exact .inl result.1.symm

/-- What an open WebSocket is at the end of its reads. -/
theorem exec_keeps {lib : Libraries} {run final : Run}
    {reads : List (Answers × Str)}
    (webSocket : run.1.requestType = .webSocket)
    (completed : run.1.handshakeCompleted = true)
    (executed : Lib.exec (readStep lib) run reads = some final) :
    final.1.requestType = .webSocket ∧ final.1.handshakeCompleted = true ∧
      final.1.userid = run.1.userid := by
  induction reads generalizing run with
  | nil =>
      cases executed
      exact ⟨webSocket, completed, rfl⟩
  | cons read reads induction =>
      obtain ⟨next, taken, later⟩ := Lib.exec_cons_iff.mp executed
      obtain ⟨webSocket', completed', uid⟩ :=
        readStep_keeps webSocket completed taken
      obtain ⟨finalType, finalCompleted, finalUid⟩ :=
        induction webSocket' completed' later
      exact ⟨finalType, finalCompleted, finalUid.trans uid⟩

theorem exec_http {lib : Libraries} {run final : Run}
    {reads : List (Answers × Str)} (isHttp : run.1.requestType = .http)
    (executed : Lib.exec (readStep lib) run reads = some final) :
    final.1.requestType = .http :=
  Lib.exec_invariant (fun isHttp taken => readStep_http isHttp taken) isHttp
    executed

/-- A stream whose first read is the request is served exactly when the
request is recognised and every later read is one frame. -/
theorem servesStream_iff (lib : Libraries) (request : UpgradeRequest)
    (frames : List ClientFrame) (answers : Answers)
    (reads : List (Answers × Str))
    (cut : (reads.map (·.2)).flatten = wire frames) :
    ServesStream lib request frames ((answers, request.text) :: reads) ↔
      HttpHandler.classify request.text = some .webSocket ∧
        AtFrames lib frames (reads.map (·.2)) := by
  rcases HttpHandler.classify_of_crlf request.crlf with recognised | isHttp
  · obtain ⟨trace, opened, quiet⟩ := readStep_request lib request answers recognised
    have ready : Ready ⟨true, .webSocket, true, requestUid request.text⟩ :=
      ⟨rfl, rfl, rfl⟩
    have served := exec_served_iff lib ready frames trace reads cut
    rw [quiet, List.nil_append] at served
    rw [ServesStream, Lib.exec_cons_of_some opened, ← served]
    constructor
    · intro stream
      obtain ⟨conn, final, executed, -, -, -, payloads⟩ := stream
      exact ⟨recognised, conn, final, executed, payloads⟩
    · intro stream
      obtain ⟨-, conn, final, executed, payloads⟩ := stream
      obtain ⟨webSocket, completed, uid⟩ := exec_keeps rfl rfl executed
      exact ⟨conn, final, executed, webSocket, completed, uid, payloads⟩
  · constructor
    · intro stream
      obtain ⟨conn, final, executed, webSocket, -⟩ := stream
      have plain : readStep lib (fresh, []) (answers, request.text) =
          some (⟨true, .http, false, []⟩, [.http request.text]) := by
        simp [readStep, onMessage, handlerOnRead, fresh, isHttp]
      rw [Lib.exec_cons_of_some plain] at executed
      have stays : conn.requestType = .http := exec_http rfl executed
      rw [stays] at webSocket
      cases webSocket
    · intro recognised
      rw [isHttp] at recognised
      cases recognised.1

/-- However the stream is cut: a recognised request and frames in reads of
their own are served, and a stream whose request has a read of its own is
served in no other way. -/
theorem stream_served (lib : Libraries) (request : UpgradeRequest)
    (frames : List ClientFrame) (reads : List (Answers × Str))
    (cut : (reads.map (·.2)).flatten = request.text ++ wire frames) :
    (InFrames lib request frames reads →
      ServesStream lib request frames reads) ∧
    (reads.head?.map (·.2) = some request.text →
      ServesStream lib request frames reads →
      InFrames lib request frames reads) := by
  constructor
  · intro inFrames
    obtain ⟨recognised, answers, rest, rfl, atFrames⟩ := inFrames
    rw [List.map_cons, List.flatten_cons] at cut
    exact (servesStream_iff lib request frames answers rest
      (List.append_cancel_left cut)).mpr ⟨recognised, atFrames⟩
  · intro head stream
    cases reads with
    | nil => cases head
    | cons read rest =>
        obtain ⟨answers, text⟩ := read
        simp only [List.head?_cons, Option.map_some, Option.some.injEq] at head
        subst head
        rw [List.map_cons, List.flatten_cons] at cut
        obtain ⟨recognised, atFrames⟩ :=
          (servesStream_iff lib request frames answers rest
            (List.append_cancel_left cut)).mp stream
        exact ⟨recognised, answers, rest, rfl, atFrames⟩

/-- The upgrade request of user 7. -/
def requestOfUser : UpgradeRequest where
  text := upgradeRequest (ascii "7")
  crlf := by decide +kernel
  keyLine := by decide +kernel

/-- A client says hello. -/
def helloClient : ClientFrame where
  key := [0, 0, 0, 0]
  payload := ascii "\x7b\"type\":\"hello\"\x7d"
  fourBytes := rfl
  fits := by decide

/-- One frame in a read of its own is served. -/
theorem stream_served_of_hello :
    ServesStream helloLibraries requestOfUser [helloClient]
      [(helloAnswers, upgradeRequest (ascii "7")),
        (helloAnswers, helloClient.encode)] := by
  refine (stream_served helloLibraries requestOfUser [helloClient] _
    (by decide +kernel)).1 ?_
  exact ⟨by decide +kernel, _, _, rfl, _, rfl, fun _ => rfl⟩

/-- Two frames in one read are taken for one. -/
theorem two_frames_in_one_read :
    ¬ ServesStream helloLibraries requestOfUser [helloClient, helloClient]
      [(helloAnswers, upgradeRequest (ascii "7")),
        (helloAnswers, helloClient.encode ++ helloClient.encode)] := by
  intro stream
  have cut : ([(helloAnswers, helloClient.encode ++ helloClient.encode)].map
      (·.2)).flatten = wire [helloClient, helloClient] := by
    simp [wire]
  obtain ⟨-, rest, equality, -⟩ :=
    (servesStream_iff helloLibraries requestOfUser _ helloAnswers _ cut).mp
      stream
  have whole := (List.cons.inj equality).1
  have lengths := congrArg List.length whole
  have positive : 0 < helloClient.encode.length := by decide
  rw [List.length_append] at lengths
  omega

end Connection

end ChatRoom
