import ChatRoom.Lib.Run
import ChatRoom.Service.HttpHandler

/-!
# Plain HTTP on a connection

`CHttpConn::OnRead` parses the whole buffer anew with every read, answers once
when any message in it is complete, and then drops the buffer.  The wrapper
appends the URLs and bodies of all messages to the same strings.  Of
`http_parser_execute` only its callbacks are used.
-/

namespace ChatRoom

namespace HttpConn

open HttpHandler (RequestType)

/-- The callbacks of `http_parser_execute` that `OnRead` depends on. -/
inductive Callback where
  | onUrl (text : Str)
  | onBody (text : Str)
  | onMessageComplete
  deriving DecidableEq

/-- `CHttpParserWrapper`. -/
structure HttpParserWrapper where
  readAll : Bool
  url : Str
  bodyContent : Str

namespace HttpParserWrapper

def call (wrapper : HttpParserWrapper) : Callback → HttpParserWrapper
  | .onUrl text => { wrapper with url := wrapper.url ++ text }
  | .onBody text => { wrapper with bodyContent := wrapper.bodyContent ++ text }
  | .onMessageComplete => { wrapper with readAll := true }

/-- `ParseHttpContent`: the fields are cleared, and the parser runs over the
buffer. -/
def parseHttpContent (execute : Str → List Callback) (buf : Str) :
    HttpParserWrapper :=
  (execute buf).foldl call ⟨false, [], []⟩

end HttpParserWrapper

/-! ## The handlers -/

/-- What the API calls made during one read return: the return value and the
text, `none` when the call throws. -/
structure HttpAnswers where
  apiUserLogin : Str → Option (Int × Str)
  apiRegisterUser : Str → Option (Int × Str)

/-- `strncmp(text, literal, size) == 0`, for a literal of at least that
size. -/
def strncmpEq (text literal : Str) (size : Nat) : Bool :=
  (literal.take size).isPrefixOf (cStr text)

/-- `snprintf` into a buffer of the size, and `send` of the C string. -/
def sendBuffer (size : Nat) (text : Str) : Str := cStr (text.take (size - 1))

def httpResponseHtml (html : Str) : Str :=
  ascii "HTTP/1.1 200 OK\r\nConnection: close\r\nContent-Length: " ++
    decimal html.length ++
    ascii "\r\nContent-Type: text/html; charset=utf-8\r\n\r\n" ++ cStr html

def httpResponseWithCode (status body : Str) : Str :=
  ascii "HTTP/1.1 " ++ status ++
    ascii "\r\nConnection: close\r\nContent-Length: " ++ decimal body.length ++
    ascii "\r\nContent-Type: application/json; charset=utf-8\r\n\r\n" ++ cStr body

def httpResponseWithCookie (cookie : Str) : Str :=
  ascii "HTTP/1.1 204 No Content\r\nConnection: close\r\nSet-Cookie: sid=" ++
    cStr cookie ++ ascii "; HttpOnly; Max-Age=86400; SameSite=Strict\r\n" ++
    ascii "Content-Length: 0\r\n" ++
    ascii "Content-Type: application/json; charset=utf-8\r\n\r\n"

/-- `_HandleLoginRequest` and `_HandleRegisterRequest`: a cookie, or the error
text of the call. -/
def respondJson (answer : Option (Int × Str)) : Option Str :=
  answer.map fun (ret, respJson) =>
    sendBuffer 4096
      (if ret = 0 then httpResponseWithCookie respJson
        else httpResponseWithCode (ascii "400 Bad Request") respJson)

def indexPage : Str :=
  ascii ("<!DOCTYPE html>" ++
    "<html><head><title>ChatRoom Server</title></head>" ++ "<body>" ++
    "<h1>Welcome to ChatRoom Server!</h1>" ++
    "<p>Server is running on port 8080</p>" ++ "<p>Available APIs:</p>" ++
    "<ul>" ++ "<li>POST /api/login - User login</li>" ++
    "<li>POST /api/create-account - User registration</li>" ++
    "<li>GET /api/html - Test page</li>" ++ "</ul>" ++ "</body></html>")

def htmlPage : Str :=
  ascii ("\n<!DOCTYPE html>\n<html>\n<head>\n" ++
    "    <title>ChatRoom Test</title>\n</head>\n<body>\n" ++
    "    <h1>Welcome to ChatRoom</h1>\n    <p>This is a test page.</p>\n" ++
    "</body>\n</html>\n")

def memHtmlPage : Str :=
  ascii ("\n        <!DOCTYPE html>\n        <html>\n        <head>\n" ++
    "            <title>ChatRoom Memory Test</title>\n        </head>\n" ++
    "        <body>\n            <h1>Memory Test Page</h1>\n" ++
    "            <p>This is a memory test page for ChatRoom.</p>\n" ++
    "        </body>\n        </html>\n        ")

/-- The dispatch of `OnRead` by URL: the response, `none` when the handler
throws. -/
def respond (answers : HttpAnswers) (url content : Str) : Option Str :=
  if strncmpEq url (ascii "/api/login") 10 then
    respondJson (answers.apiUserLogin content)
  else if url = ascii "/" ∨ url = ascii "/index.html" then
    some (sendBuffer 2048 (httpResponseHtml indexPage))
  else if strncmpEq url (ascii "/api/html") 9 then
    some (sendBuffer 4096 (httpResponseHtml htmlPage))
  else if strncmpEq url (ascii "/api/memhtml") 12 then
    some (sendBuffer 4096 (httpResponseHtml memHtmlPage))
  else if strncmpEq url (ascii "/api/create-account") 18 then
    respondJson (answers.apiRegisterUser content)
  else
    some (sendBuffer 256 (httpResponseWithCode (ascii "404 Not Found")
      (ascii "\x7b\"code\": 1, \"message\": \"Not Found\"\x7d")))

/-! ## Reading -/

/-- A request as it was handled, with what was sent for it. -/
structure Handled where
  url : Str
  body : Str
  response : Option Str

/-- A connection with its buffer. -/
structure HttpState where
  requestType : RequestType
  buffer : Str
  handled : List Handled

namespace HttpState

def fresh : HttpState := ⟨.unknown, [], []⟩

/-- `CHttpConn::OnRead`.  When the handler throws, `onMessage` empties the
buffer in its place. -/
def onRead (execute : Str → List Callback) (answers : HttpAnswers)
    (state : HttpState) : HttpState :=
  let parser := HttpParserWrapper.parseHttpContent execute state.buffer
  if parser.readAll then
    { state with
      buffer := []
      handled := state.handled ++ [⟨parser.url, parser.bodyContent,
        respond answers parser.url parser.bodyContent⟩] }
  else state

/-- `onMessage` and `HttpHandler::OnRead` for the bytes of one read.  What an
upgraded connection does is not modelled here: it takes its bytes. -/
def read (execute : Str → List Callback) (state : HttpState)
    (answers : HttpAnswers) (data : Str) : HttpState :=
  let buffer := state.buffer ++ data
  match state.requestType with
  | .webSocket => { state with buffer := [] }
  | .http => onRead execute answers { state with buffer := buffer }
  | .unknown =>
      match HttpHandler.classify buffer with
      | none => { state with buffer := [] }
      | some requestType =>
          if requestType = .webSocket then
            { state with requestType := .webSocket, buffer := [] }
          else
            onRead execute answers
              { state with requestType := .http, buffer := buffer }

end HttpState

def step (execute : Str → List Callback) (state : HttpState)
    (read : HttpAnswers × Str) : Option HttpState :=
  some (state.read execute read.1 read.2)

/-! ## Streams of requests -/

/-- A complete request: its bytes on the wire, its URL and its body. -/
structure Request where
  bytes : Str
  url : Str
  body : Str
  started : bytes ≠ []
  hasUrl : url ≠ []

def Request.asked (request : Request) : Str × Str := (request.url, request.body)

def Handled.asked (handled : Handled) : Str × Str := (handled.url, handled.body)

/-- The bytes of a sequence of requests. -/
def wire (requests : List Request) : Str :=
  (requests.map Request.bytes).flatten

/-- Exactly the requests are handled, in order and each with its own URL and
body, and each is answered. -/
def Served (execute : Str → List Callback) (requests : List Request)
    (reads : List (HttpAnswers × Str)) : Prop :=
  ∃ final, Lib.exec (step execute) .fresh reads = some final ∧
    final.handled.map Handled.asked = requests.map Request.asked ∧
    ∀ handled ∈ final.handled, handled.response.isSome

/-- The text the parser reports of the URLs. -/
def urlOf (callbacks : List Callback) : Str :=
  callbacks.flatMap fun callback =>
    match callback with
    | .onUrl text => text
    | _ => []

def bodyOf (callbacks : List Callback) : Str :=
  callbacks.flatMap fun callback =>
    match callback with
    | .onBody text => text
    | _ => []

/-- `http_parser_execute` issues its callbacks for each consecutive request of
the stream, and reports completion for whole requests only. -/
structure Consecutive (execute : Str → List Callback)
    (requests : List Request) : Prop where
  empty : execute [] = []
  whole : ∀ request ∈ requests,
    urlOf (execute request.bytes) = request.url ∧
    bodyOf (execute request.bytes) = request.body ∧
    .onMessageComplete ∈ execute request.bytes
  incomplete : ∀ request ∈ requests, ∀ part, part <+: request.bytes →
    part ≠ request.bytes → .onMessageComplete ∉ execute part
  next : ∀ before request later, requests = before ++ request :: later →
    ∀ rest, rest <+: wire later →
      execute (request.bytes ++ rest) = execute request.bytes ++ execute rest

/-- Each request by itself gives its callbacks, and no part of one completes
it. -/
structure Apart (execute : Str → List Callback) (requests : List Request) :
    Prop where
  empty : execute [] = []
  whole : ∀ request ∈ requests,
    urlOf (execute request.bytes) = request.url ∧
    bodyOf (execute request.bytes) = request.body ∧
    .onMessageComplete ∈ execute request.bytes
  incomplete : ∀ request ∈ requests, ∀ part, part <+: request.bytes →
    part ≠ request.bytes → .onMessageComplete ∉ execute part

theorem Consecutive.apart {execute : Str → List Callback}
    {requests : List Request} (consecutive : Consecutive execute requests) :
    Apart execute requests :=
  ⟨consecutive.empty, consecutive.whole, consecutive.incomplete⟩

/-- The read ends at or before the end of the request it is in; the request it
completes is answered, and the first read is taken for HTTP. -/
def guard (requests : List Request) (state : HttpState)
    (read : HttpAnswers × Str) : Prop :=
  (state.requestType = .unknown →
    HttpHandler.classify (state.buffer ++ read.2) = some .http) ∧
  ∀ request, requests[state.handled.length]? = some request →
    state.buffer ++ read.2 <+: request.bytes ∧
    (state.buffer ++ read.2 = request.bytes →
      (respond read.1 request.url request.body).isSome)

/-- The header lines of the first read do not throw, and a read that ends
within a request, behind another one, has reached its URL. -/
def shown (execute : Str → List Callback) (requests : List Request)
    (state : HttpState) (read : HttpAnswers × Str) : Prop :=
  (state.requestType = .unknown →
    (HttpHandler.classify (state.buffer ++ read.2)).isSome) ∧
  ∀ request next later begun,
    requests.drop state.handled.length = request :: next :: later →
    state.buffer ++ read.2 = request.bytes ++ begun → begun ≠ [] →
    begun <+: next.bytes → begun ≠ next.bytes → urlOf (execute begun) ≠ []

/-! ## What the wrapper collects -/

theorem foldl_call (callbacks : List Callback) (wrapper : HttpParserWrapper) :
    callbacks.foldl HttpParserWrapper.call wrapper =
      ⟨wrapper.readAll || decide (.onMessageComplete ∈ callbacks),
        wrapper.url ++ urlOf callbacks,
        wrapper.bodyContent ++ bodyOf callbacks⟩ := by
  induction callbacks generalizing wrapper with
  | nil => simp [urlOf, bodyOf]
  | cons callback callbacks induction =>
      rw [List.foldl_cons, induction]
      cases callback with
      | onUrl text => simp [HttpParserWrapper.call, urlOf, bodyOf]
      | onBody text => simp [HttpParserWrapper.call, urlOf, bodyOf]
      | onMessageComplete => simp [HttpParserWrapper.call, urlOf, bodyOf]

theorem parseHttpContent_eq (execute : Str → List Callback) (buf : Str) :
    HttpParserWrapper.parseHttpContent execute buf =
      ⟨decide (.onMessageComplete ∈ execute buf), urlOf (execute buf),
        bodyOf (execute buf)⟩ := by
  rw [HttpParserWrapper.parseHttpContent, foldl_call]
  simp

theorem onRead_of_incomplete {execute : Str → List Callback}
    {answers : HttpAnswers} {state : HttpState}
    (incomplete : .onMessageComplete ∉ execute state.buffer) :
    state.onRead execute answers = state := by
  simp [HttpState.onRead, parseHttpContent_eq, incomplete]

theorem onRead_of_complete {execute : Str → List Callback}
    {answers : HttpAnswers} {state : HttpState}
    (complete : .onMessageComplete ∈ execute state.buffer) :
    state.onRead execute answers = { state with
      buffer := []
      handled := state.handled ++ [⟨urlOf (execute state.buffer),
        bodyOf (execute state.buffer),
        respond answers (urlOf (execute state.buffer))
          (bodyOf (execute state.buffer))⟩] } := by
  simp [HttpState.onRead, parseHttpContent_eq, complete]

/-- A plain HTTP read parses the buffer with the new bytes. -/
theorem read_of_plain {execute : Str → List Callback} {state : HttpState}
    {read : HttpAnswers × Str} (plain : state.requestType ≠ .webSocket)
    (classified : state.requestType = .unknown →
      HttpHandler.classify (state.buffer ++ read.2) = some .http) :
    state.read execute read.1 read.2 =
      HttpState.onRead execute read.1 { state with
        requestType := .http, buffer := state.buffer ++ read.2 } := by
  cases kind : state.requestType with
  | webSocket => exact absurd kind plain
  | http =>
      simp only [HttpState.read, kind]
  | unknown =>
      simp only [HttpState.read, kind, classified kind]
      rfl

/-- Requests are only added to those handled. -/
theorem handled_prefix_read (execute : Str → List Callback)
    (state : HttpState) (answers : HttpAnswers) (data : Str) :
    state.handled <+: (state.read execute answers data).handled := by
  have onRead : ∀ other : HttpState, other.handled = state.handled →
      state.handled <+: (other.onRead execute answers).handled := by
    intro other same
    unfold HttpState.onRead
    simp only
    split
    · exact same ▸ List.prefix_append _ _
    · exact same ▸ List.prefix_refl _
  unfold HttpState.read
  simp only
  split
  · exact List.prefix_refl _
  · exact onRead _ rfl
  · split
    · exact List.prefix_refl _
    · split
      · exact List.prefix_refl _
      · exact onRead _ rfl

theorem handled_prefix {execute : Str → List Callback}
    {state final : HttpState} {reads : List (HttpAnswers × Str)}
    (executed : Lib.exec (step execute) state reads = some final) :
    state.handled <+: final.handled := by
  induction reads generalizing state with
  | nil =>
      cases executed
      exact List.prefix_refl _
  | cons read reads induction =>
      obtain ⟨next, taken, later⟩ := Lib.exec_cons_iff.mp executed
      cases taken
      exact (handled_prefix_read execute state read.1 read.2).trans
        (induction later)

/-- An upgraded connection handles no request. -/
theorem handled_of_webSocket {execute : Str → List Callback}
    {state final : HttpState} {reads : List (HttpAnswers × Str)}
    (upgraded : state.requestType = .webSocket)
    (executed : Lib.exec (step execute) state reads = some final) :
    final.handled = state.handled := by
  induction reads generalizing state with
  | nil =>
      cases executed
      rfl
  | cons read reads induction =>
      obtain ⟨next, taken, later⟩ := Lib.exec_cons_iff.mp executed
      cases taken
      have still : (state.read execute read.1 read.2).requestType =
            .webSocket ∧
          (state.read execute read.1 read.2).handled = state.handled := by
        simp [HttpState.read, upgraded]
      exact (induction still.1 later).trans still.2

/-! ## Reads within their requests -/

/-- Between reads: the requests handled so far are the first ones, each
answered, and the buffer holds the part of the next one that has arrived. -/
structure Ready (requests : List Request) (state : HttpState)
    (reads : List (HttpAnswers × Str)) : Prop where
  plain : state.requestType ≠ .webSocket
  done : state.handled.map Handled.asked =
    (requests.take state.handled.length).map Request.asked
  answered : ∀ handled ∈ state.handled, handled.response.isSome
  part : state.buffer = [] ∨
    ∃ request, requests[state.handled.length]? = some request ∧
      state.buffer <+: request.bytes ∧ state.buffer ≠ request.bytes
  stream : state.buffer ++ (reads.map (·.2)).flatten =
    wire (requests.drop state.handled.length)

theorem ready_fresh {requests : List Request}
    {reads : List (HttpAnswers × Str)}
    (cut : (reads.map (·.2)).flatten = wire requests) :
    Ready requests .fresh reads := by
  constructor
  · exact nofun
  · rfl
  · intro handled member
    cases member
  · exact .inl rfl
  · exact cut

theorem wire_drop {requests : List Request} {count : Nat} {request : Request}
    (found : requests[count]? = some request) :
    wire (requests.drop count) =
      request.bytes ++ wire (requests.drop (count + 1)) := by
  obtain ⟨inside, isThere⟩ := List.getElem?_eq_some_iff.mp found
  rw [List.drop_eq_getElem_cons inside, isThere]
  rfl

/-- Behind the last read every request is handled. -/
theorem Ready.finished {requests : List Request} {state : HttpState}
    (ready : Ready requests state []) :
    state.handled.map Handled.asked = requests.map Request.asked := by
  have stream := ready.stream
  rw [List.map_nil, List.flatten_nil, List.append_nil] at stream
  cases found : requests[state.handled.length]? with
  | none =>
      have all := List.getElem?_eq_none_iff.mp found
      rw [ready.done, List.take_of_length_le all]
  | some request =>
      rw [wire_drop found] at stream
      rcases ready.part with empty | ⟨other, same, isPrefix, differs⟩
      · rw [empty] at stream
        exact absurd (List.append_eq_nil_iff.mp stream.symm).1 request.started
      · rw [found, Option.some.injEq] at same
        subst same
        have whole : request.bytes <+: state.buffer :=
          stream ▸ List.prefix_append _ _
        exact absurd (isPrefix.eq_of_length
          (Nat.le_antisymm isPrefix.length_le whole.length_le)) differs

/-- A guarded read keeps the connection between requests, or inside one. -/
theorem Ready.read_apart {execute : Str → List Callback} {requests : List Request}
    {state : HttpState} {read : HttpAnswers × Str}
    {reads : List (HttpAnswers × Str)}
    (apart : Apart execute requests)
    (ready : Ready requests state (read :: reads))
    (guarded : guard requests state read) :
    Ready requests (state.read execute read.1 read.2) reads := by
  rw [read_of_plain ready.plain guarded.1]
  have stream := ready.stream
  rw [List.map_cons, List.flatten_cons, ← List.append_assoc] at stream
  cases found : requests[state.handled.length]? with
  | none =>
      -- Nothing is left to come.
      have all := List.getElem?_eq_none_iff.mp found
      rw [List.drop_of_length_le all] at stream
      obtain ⟨noBytes, nothing⟩ := List.append_eq_nil_iff.mp stream
      rw [onRead_of_incomplete]
      · refine ⟨nofun, ready.done, ready.answered, .inl noBytes, ?_⟩
        rw [List.drop_of_length_le all]
        exact stream
      · simp [noBytes, apart.empty]
  | some request =>
      have member := List.mem_of_getElem? found
      obtain ⟨isPrefix, answered⟩ := guarded.2 request found
      by_cases whole : state.buffer ++ read.2 = request.bytes
      · obtain ⟨url, body, complete⟩ := apart.whole request member
        rw [onRead_of_complete (by rw [whole]; exact complete)]
        simp only [whole, url, body]
        have length : (state.handled ++ [(⟨request.url, request.body,
            respond read.1 request.url request.body⟩ : Handled)]).length =
            state.handled.length + 1 := List.length_append
        refine ⟨nofun, ?_, ?_, .inl rfl, ?_⟩
        · simp only [length]
          rw [List.map_append, ready.done, List.take_add_one, found,
            List.map_append]
          rfl
        · intro handled inside
          rcases List.mem_append.mp inside with earlier | new
          · exact ready.answered handled earlier
          · rw [List.mem_singleton.mp new]
            exact answered whole
        · simp only [length]
          rw [wire_drop found, whole] at stream
          exact List.append_cancel_left stream
      · rw [onRead_of_incomplete
          (apart.incomplete request member _ isPrefix whole)]
        exact ⟨nofun, ready.done, ready.answered,
          .inr ⟨request, found, isPrefix, whole⟩, stream⟩

theorem Ready.read {execute : Str → List Callback} {requests : List Request}
    {state : HttpState} {read : HttpAnswers × Str}
    {reads : List (HttpAnswers × Str)}
    (consecutive : Consecutive execute requests)
    (ready : Ready requests state (read :: reads))
    (guarded : guard requests state read) :
    Ready requests (state.read execute read.1 read.2) reads :=
  ready.read_apart consecutive.apart guarded

/-- Guarded reads come to the end of the stream. -/
theorem ready_of_meets_apart {execute : Str → List Callback}
    {requests : List Request}
    (apart : Apart execute requests) {state : HttpState}
    {reads : List (HttpAnswers × Str)} (ready : Ready requests state reads)
    (meets : Lib.Meets (step execute) (guard requests) state reads) :
    ∃ final, Lib.exec (step execute) state reads = some final ∧
      Ready requests final [] := by
  induction reads generalizing state with
  | nil => exact ⟨state, rfl, ready⟩
  | cons read reads induction =>
      obtain ⟨guarded, rest⟩ := meets _ rfl
      obtain ⟨final, executed, finished⟩ :=
        induction (ready.read_apart apart guarded) rest
      exact ⟨final, Lib.exec_cons_iff.mpr ⟨_, rfl, executed⟩, finished⟩

theorem ready_of_meets {execute : Str → List Callback}
    {requests : List Request}
    (consecutive : Consecutive execute requests) {state : HttpState}
    {reads : List (HttpAnswers × Str)} (ready : Ready requests state reads)
    (meets : Lib.Meets (step execute) (guard requests) state reads) :
    ∃ final, Lib.exec (step execute) state reads = some final ∧
      Ready requests final [] :=
  ready_of_meets_apart consecutive.apart ready meets

/-! ## Reads across the end of a request -/

/-- A read that upgrades the connection serves no stream. -/
theorem Ready.not_upgraded {execute : Str → List Callback}
    {requests : List Request} {state final : HttpState}
    {read : HttpAnswers × Str} {reads : List (HttpAnswers × Str)}
    (ready : Ready requests state (read :: reads))
    (unknown : state.requestType = .unknown)
    (executed : Lib.exec (step execute)
      (state.read execute read.1 read.2) reads = some final)
    (served : final.handled.map Handled.asked = requests.map Request.asked) :
    HttpHandler.classify (state.buffer ++ read.2) ≠ some .webSocket := by
  intro upgrades
  have next : state.read execute read.1 read.2 =
      { state with requestType := .webSocket, buffer := [] } := by
    simp [HttpState.read, unknown, upgrades]
  have upgraded :
      (state.read execute read.1 read.2).requestType = .webSocket := by
    rw [next]
  have same : (state.read execute read.1 read.2).handled = state.handled := by
    rw [next]
  have handled := (handled_of_webSocket upgraded executed).trans same
  have lengths := congrArg List.length served
  rw [handled, List.length_map, List.length_map] at lengths
  have stream := ready.stream
  rw [lengths, List.drop_length, List.map_cons, List.flatten_cons,
    ← List.append_assoc] at stream
  rw [(List.append_eq_nil_iff.mp stream).1] at upgrades
  have plain : HttpHandler.classify [] = some .http := by decide
  rw [plain] at upgrades
  cases upgrades

/-- Behind a whole request the parser reports the URL of what follows too. -/
theorem urlOf_behind {execute : Str → List Callback}
    {requests later : List Request} {request next : Request} {extra : Str}
    (consecutive : Consecutive execute requests) {count : Nat}
    (rest : requests.drop count = request :: next :: later)
    (behind : extra <+: wire (next :: later)) (nonempty : extra ≠ [])
    (begun : extra <+: next.bytes → extra ≠ next.bytes →
      urlOf (execute extra) ≠ []) :
    .onMessageComplete ∈ execute (request.bytes ++ extra) ∧
      urlOf (execute (request.bytes ++ extra)) ≠ request.url := by
  have split : requests = requests.take count ++ request :: next :: later := by
    rw [← rest, List.take_append_drop]
  have member : request ∈ requests := by
    rw [split]
    simp
  have nextMember : next ∈ requests := by
    rw [split]
    simp
  obtain ⟨url, -, complete⟩ := consecutive.whole request member
  have parsed := consecutive.next _ request _ split extra behind
  have shows : urlOf (execute extra) ≠ [] := by
    by_cases inside : extra <+: next.bytes
    · by_cases whole : extra = next.bytes
      · rw [whole, (consecutive.whole next nextMember).1]
        exact next.hasUrl
      · exact begun inside whole
    · have bytes : next.bytes <+: wire (next :: later) := List.prefix_append _ _
      have contains : next.bytes <+: extra := by
        rcases List.prefix_or_prefix_of_prefix behind bytes with short | long
        · exact absurd short inside
        · exact long
      obtain ⟨more, rfl⟩ := contains
      have moreBehind : more <+: wire later :=
        (List.prefix_append_right_inj next.bytes).mp behind
      have splitNext : requests =
          (requests.take count ++ [request]) ++ next :: later := by
        rw [List.append_assoc]
        exact split
      rw [consecutive.next _ next _ splitNext more moreBehind, urlOf,
        List.flatMap_append]
      intro empty
      have noUrl := (List.append_eq_nil_iff.mp empty).1
      rw [← urlOf, (consecutive.whole next nextMember).1] at noUrl
      exact next.hasUrl noUrl
  rw [parsed]
  refine ⟨List.mem_append_left _ complete, ?_⟩
  rw [urlOf, List.flatMap_append, ← urlOf, ← urlOf, url]
  intro same
  exact shows (by simpa using same)

theorem Ready.classified_of_served {execute : Str → List Callback}
    {requests : List Request} {state final : HttpState}
    {read : HttpAnswers × Str} {reads : List (HttpAnswers × Str)}
    (ready : Ready requests state (read :: reads))
    (isShown : shown execute requests state read)
    (executed : Lib.exec (step execute)
      (state.read execute read.1 read.2) reads = some final)
    (served : final.handled.map Handled.asked = requests.map Request.asked)
    (unknown : state.requestType = .unknown) :
    HttpHandler.classify (state.buffer ++ read.2) = some .http := by
  have notUpgraded := ready.not_upgraded unknown executed served
  have isSome := isShown.1 unknown
  unfold HttpHandler.classify at notUpgraded isSome ⊢
  cases parsed : HttpHandler.parseHttpHeaders (state.buffer ++ read.2) with
  | none =>
      rw [parsed] at isSome
      cases isSome
  | some headers =>
      rw [parsed] at notUpgraded
      cases upgrade : HttpHandler.isWebSocketRequest headers with
      | false => simp [upgrade]
      | true => simp [upgrade] at notUpgraded

/-- A request that a read completes has its own URL and is answered. -/
theorem Ready.completed_of_served {execute : Str → List Callback}
    {requests : List Request} {state final : HttpState} {request : Request}
    {read : HttpAnswers × Str} {reads : List (HttpAnswers × Str)}
    (ready : Ready requests state (read :: reads))
    (classified : state.requestType = .unknown →
      HttpHandler.classify (state.buffer ++ read.2) = some .http)
    (executed : Lib.exec (step execute)
      (state.read execute read.1 read.2) reads = some final)
    (served : final.handled.map Handled.asked = requests.map Request.asked)
    (answered : ∀ handled ∈ final.handled, handled.response.isSome)
    (found : requests[state.handled.length]? = some request)
    (complete : .onMessageComplete ∈ execute (state.buffer ++ read.2)) :
    urlOf (execute (state.buffer ++ read.2)) = request.url ∧
      (respond read.1 (urlOf (execute (state.buffer ++ read.2)))
        (bodyOf (execute (state.buffer ++ read.2)))).isSome := by
  have handles : (state.read execute read.1 read.2).handled =
      state.handled ++ [⟨urlOf (execute (state.buffer ++ read.2)),
        bodyOf (execute (state.buffer ++ read.2)),
        respond read.1 (urlOf (execute (state.buffer ++ read.2)))
          (bodyOf (execute (state.buffer ++ read.2)))⟩] := by
    rw [read_of_plain ready.plain classified]
    rw [onRead_of_complete (by exact complete)]
  obtain ⟨later, extended⟩ := handled_prefix executed
  rw [handles] at extended
  constructor
  · have atPlace := congrArg (·[state.handled.length]?) served
    rw [← extended] at atPlace
    simp [found, Handled.asked, Request.asked] at atPlace
    exact atPlace.1
  · apply answered ⟨_, _, _⟩
    rw [← extended]
    apply List.mem_append_left
    exact List.mem_append_right _ (List.mem_singleton_self _)

/-- A read that completes no request but its own stays inside it. -/
theorem Ready.within_of_url {execute : Str → List Callback}
    {requests : List Request} {state : HttpState} {request : Request}
    {read : HttpAnswers × Str} {reads : List (HttpAnswers × Str)}
    (consecutive : Consecutive execute requests)
    (ready : Ready requests state (read :: reads))
    (isShown : shown execute requests state read)
    (found : requests[state.handled.length]? = some request)
    (ownUrl : .onMessageComplete ∈ execute (state.buffer ++ read.2) →
      urlOf (execute (state.buffer ++ read.2)) = request.url) :
    state.buffer ++ read.2 <+: request.bytes := by
  have stream := ready.stream
  rw [List.map_cons, List.flatten_cons, ← List.append_assoc,
    wire_drop found] at stream
  have bufferPrefix : state.buffer ++ read.2 <+:
      request.bytes ++ wire (requests.drop (state.handled.length + 1)) :=
    stream ▸ List.prefix_append _ _
  rcases List.prefix_or_prefix_of_prefix bufferPrefix
    (List.prefix_append _ _) with inside | ⟨extra, whole⟩
  · exact inside
  · rw [← whole] at bufferPrefix ⊢
    have behind := (List.prefix_append_right_inj request.bytes).mp bufferPrefix
    cases rest : requests.drop (state.handled.length + 1) with
    | nil =>
        rw [rest] at behind
        rw [List.prefix_nil.mp behind, List.append_nil]
    | cons next later =>
        by_contra outside
        have nonempty : extra ≠ [] := by
          rintro rfl
          exact outside (by rw [List.append_nil])
        obtain ⟨inside, isThere⟩ := List.getElem?_eq_some_iff.mp found
        have dropped : requests.drop state.handled.length =
            request :: next :: later := by
          rw [List.drop_eq_getElem_cons inside, isThere, rest]
        rw [rest] at behind
        obtain ⟨complete, wrong⟩ := urlOf_behind consecutive dropped behind
          nonempty (isShown.2 request next later extra dropped whole.symm
            nonempty)
        rw [whole] at complete wrong
        exact wrong (ownUrl complete)

/-- A read behind which the whole stream is served was guarded. -/
theorem Ready.guard_of_served {execute : Str → List Callback}
    {requests : List Request} {state final : HttpState}
    {read : HttpAnswers × Str} {reads : List (HttpAnswers × Str)}
    (consecutive : Consecutive execute requests)
    (ready : Ready requests state (read :: reads))
    (isShown : shown execute requests state read)
    (executed : Lib.exec (step execute)
      (state.read execute read.1 read.2) reads = some final)
    (served : final.handled.map Handled.asked = requests.map Request.asked)
    (answered : ∀ handled ∈ final.handled, handled.response.isSome) :
    guard requests state read := by
  have classified := ready.classified_of_served isShown executed served
  refine ⟨classified, ?_⟩
  intro request found
  have completed := ready.completed_of_served classified executed served
    answered found
  refine ⟨ready.within_of_url consecutive isShown found
    fun complete => (completed complete).1, ?_⟩
  intro whole
  obtain ⟨url, body, complete⟩ :=
    consecutive.whole request (List.mem_of_getElem? found)
  rw [← whole] at url body complete
  have isAnswered := (completed complete).2
  rw [url, body] at isAnswered
  exact isAnswered

/-- However the stream is cut: reads that keep to the requests serve it, and
reads that show where they are serve it in no other way. -/
theorem requests_served {execute : Str → List Callback}
    {requests : List Request} (consecutive : Consecutive execute requests)
    (reads : List (HttpAnswers × Str))
    (cut : (reads.map (·.2)).flatten = wire requests) :
    (Lib.Meets (step execute) (guard requests) .fresh reads →
      Served execute requests reads) ∧
    (Lib.Meets (step execute) (shown execute requests) .fresh reads →
      Served execute requests reads →
      Lib.Meets (step execute) (guard requests) .fresh reads) := by
  constructor
  · intro meets
    obtain ⟨final, executed, finished⟩ :=
      ready_of_meets consecutive (ready_fresh cut) meets
    exact ⟨final, executed, finished.finished, finished.answered⟩
  · rintro isShown ⟨final, executed, served, answered⟩
    have ready := ready_fresh cut
    generalize HttpState.fresh = state at ready isShown executed ⊢
    clear cut
    induction reads generalizing state with
    | nil => trivial
    | cons read reads induction =>
        obtain ⟨now, later⟩ := isShown _ rfl
        obtain ⟨next, taken, rest⟩ := Lib.exec_cons_iff.mp executed
        have same : state.read execute read.1 read.2 = next :=
          Option.some.inj taken
        rw [← same] at rest
        have guarded :=
          ready.guard_of_served consecutive now rest served answered
        intro other otherTaken
        cases otherTaken
        exact ⟨guarded, induction _ (ready.read consecutive guarded) later
          rest⟩

/-- A request for the index page. -/
def getIndex : Request where
  bytes := ascii "GET / HTTP/1.1\r\nHost: a\r\n\r\n"
  url := ascii "/"
  body := []
  started := by decide
  hasUrl := by decide

/-- The callbacks for requests of the index page, one after the other. -/
def executeIndex : Nat → Str → List Callback
  | 0, _ => []
  | count + 1, text =>
      if getIndex.bytes.isPrefixOf text then
        [.onUrl (ascii "/"), .onMessageComplete] ++
          executeIndex count (text.drop getIndex.bytes.length)
      else if 5 ≤ text.length then [.onUrl (ascii "/")]
      else []

def execute (text : Str) : List Callback := executeIndex text.length text

def noApi : HttpAnswers := ⟨fun _ => none, fun _ => none⟩

theorem prefix_cases {part whole : Str} (isPrefix : part <+: whole) :
    ∃ count < whole.length + 1, part = whole.take count := by
  refine ⟨part.length, Nat.lt_succ_of_le isPrefix.length_le, ?_⟩
  exact List.prefix_iff_eq_take.mp isPrefix

theorem execute_incomplete {part : Str} (isPrefix : part <+: getIndex.bytes)
    (strict : part ≠ getIndex.bytes) : .onMessageComplete ∉ execute part := by
  obtain ⟨count, bound, rfl⟩ := prefix_cases isPrefix
  revert strict
  revert count
  decide +kernel

theorem execute_next {rest : Str} (isPrefix : rest <+: getIndex.bytes) :
    execute (getIndex.bytes ++ rest) =
      execute getIndex.bytes ++ execute rest := by
  obtain ⟨count, bound, rfl⟩ := prefix_cases isPrefix
  revert count
  decide +kernel

/-- Up to two such requests are parsed one after the other. -/
theorem execute_consecutive {requests : List Request}
    (few : requests.length ≤ 2)
    (same : ∀ request ∈ requests, request = getIndex) :
    Consecutive execute requests := by
  constructor
  · rfl
  · intro request member
    rw [same request member]
    decide +kernel
  · intro request member
    rw [same request member]
    intro part isPrefix strict
    exact execute_incomplete isPrefix strict
  · intro before request later split rest behind
    have isIndex : request = getIndex := same request (by rw [split]; simp)
    rw [isIndex]
    apply execute_next
    cases later with
    | nil =>
        rw [List.prefix_nil.mp behind]
        exact List.nil_prefix
    | cons next later =>
        have nextIndex : next = getIndex := same next (by rw [split]; simp)
        have last : later = [] := by
          rw [split, List.length_append, List.length_cons,
            List.length_cons] at few
          exact List.eq_nil_of_length_eq_zero (by omega)
        rw [last, nextIndex] at behind
        simpa [wire] using behind

/-- The index page in two reads. -/
theorem requests_served_of_index :
    Served execute [getIndex]
      [(noApi, getIndex.bytes.take 8), (noApi, getIndex.bytes.drop 8)] := by
  have consecutive : Consecutive execute [getIndex] :=
    execute_consecutive (by decide) (by simp)
  refine (requests_served consecutive _ (by decide +kernel)).1 ?_
  intro next taken
  cases taken
  refine ⟨⟨fun _ => by decide +kernel, ?_⟩, ?_⟩
  · intro request found
    cases found
    exact ⟨by decide +kernel, fun whole => by revert whole; decide +kernel⟩
  · intro final finished
    cases finished
    refine ⟨⟨fun unknown => by revert unknown; decide +kernel, ?_⟩, trivial⟩
    intro request found
    have first : [getIndex][(HttpState.fresh.read execute noApi
        (getIndex.bytes.take 8)).handled.length]? = some getIndex := by
      rfl
    rw [first] at found
    cases found
    exact ⟨by decide +kernel, fun _ => by decide +kernel⟩

/-- Two requests in one read are handled once, as a request for `//`. -/
theorem two_requests_in_one_read :
    Consecutive execute [getIndex, getIndex] ∧
    ¬ Served execute [getIndex, getIndex]
      [(noApi, getIndex.bytes ++ getIndex.bytes)] := by
  constructor
  · exact execute_consecutive (by decide) (by simp)
  · rintro ⟨final, executed, served, -⟩
    have once : ((Lib.exec (step execute) .fresh
        [(noApi, getIndex.bytes ++ getIndex.bytes)]).map
          fun state => state.handled.length) = some 1 := by
      decide +kernel
    rw [executed, Option.map_some, Option.some.injEq] at once
    have lengths := congrArg List.length served
    rw [List.length_map, once] at lengths
    cases lengths

end HttpConn

end ChatRoom
