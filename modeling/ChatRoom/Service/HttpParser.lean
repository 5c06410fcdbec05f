import ChatRoom.Base.Bytes
import ChatRoom.Lib.Scanner

/-!
# The HTTP parser

`http_parser_execute` for requests, in its strict build: `CHttpParserWrapper`
initializes the parser with `HTTP_REQUEST`, and all of its callbacks return 0.
A failed `assert` ends the process, and so does, in the model, a read behind
the end of a string; both are `none`.
-/

namespace ChatRoom

namespace HttpParser

open Lib.Scanner (Move Status loop)

/-! ## Characters -/

abbrev chr (character : Char) : UInt8 := UInt8.ofNat character.toNat

/-- `LOWER`. -/
def lower (byte : UInt8) : UInt8 := byte ||| 0x20

def isAlpha (byte : UInt8) : Bool := 97 ≤ lower byte && lower byte ≤ 122

/-- `TOKEN`: the table `tokens`, which lowercases; 0 where no token is. -/
def token (byte : UInt8) : UInt8 :=
  if 65 ≤ byte ∧ byte ≤ 90 then byte + 32
  else if 97 ≤ byte ∧ byte ≤ 122 then byte
  else if Byte.isDigit byte then byte
  else if byte ∈ ascii "!#$%&'*+-.^_`|~" then byte
  else 0

/-- `IS_URL_CHAR`: the bits of `normal_url_char`. -/
def isUrlChar (byte : UInt8) : Bool :=
  33 ≤ byte && byte ≤ 126 && byte != chr '#' && byte != chr '?'

/-- `IS_USERINFO_CHAR`. -/
def isUserinfoChar (byte : UInt8) : Bool :=
  isAlpha byte || Byte.isDigit byte ||
    (ascii "-_.!~*'()%;:&=+$,").contains byte

/-- `unhex`, `none` for -1.  Only half of the table is written out, so the
bytes from 128 on have the value 0. -/
def unhex (byte : UInt8) : Option ℕ :=
  if Byte.isDigit byte then some (byte.toNat - 48)
  else if 65 ≤ byte ∧ byte ≤ 70 then some (byte.toNat - 55)
  else if 97 ≤ byte ∧ byte ≤ 102 then some (byte.toNat - 87)
  else if 128 ≤ byte then some 0
  else none

/-! ## The parser -/

/-- `enum state`, without the states of responses. -/
inductive State where
  | dead
  | startReq
  | reqMethod
  | reqSpacesBeforeUrl
  | reqSchema
  | reqSchemaSlash
  | reqSchemaSlashSlash
  | reqServerStart
  | reqServer
  | reqServerWithAt
  | reqPath
  | reqQueryStringStart
  | reqQueryString
  | reqFragmentStart
  | reqFragment
  | reqHttpStart
  | reqHttpH
  | reqHttpHT
  | reqHttpHTT
  | reqHttpHTTP
  | reqFirstHttpMajor
  | reqHttpMajor
  | reqFirstHttpMinor
  | reqHttpMinor
  | reqLineAlmostDone
  | headerFieldStart
  | headerField
  | headerValueStart
  | headerValue
  | headerValueLws
  | headerAlmostDone
  | chunkSizeStart
  | chunkSize
  | chunkParameters
  | chunkSizeAlmostDone
  | headersAlmostDone
  | headersDone
  | chunkData
  | chunkDataAlmostDone
  | chunkDataDone
  | bodyIdentity
  | messageDone
  deriving DecidableEq

/-- `PARSING_HEADER`. -/
def State.parsingHeader : State → Bool
  | .chunkData | .chunkDataAlmostDone | .chunkDataDone | .bodyIdentity |
    .messageDone => false
  | _ => true

/-- `enum header_states`. -/
inductive HeaderState where
  | general
  | C
  | CO
  | CON
  | matchingConnection
  | matchingProxyConnection
  | matchingContentLength
  | matchingTransferEncoding
  | matchingUpgrade
  | connection
  | contentLength
  | transferEncoding
  | upgrade
  | matchingTransferEncodingChunked
  | matchingConnectionKeepAlive
  | matchingConnectionClose
  | transferEncodingChunked
  | connectionKeepAlive
  | connectionClose
  deriving DecidableEq

/-- `enum http_method`. -/
inductive Method where
  | delete
  | get
  | head
  | post
  | put
  | connect
  | options
  | trace
  | copy
  | lock
  | mkcol
  | move
  | propfind
  | proppatch
  | search
  | unlock
  | report
  | mkactivity
  | checkout
  | merge
  | msearch
  | notify
  | subscribe
  | unsubscribe
  | patch
  | purge
  deriving DecidableEq

/-- `method_strings`.  The preprocessor writes the text of `M - SEARCH` with
the blanks it has in the table. -/
def Method.text : Method → Str
  | .delete => ascii "DELETE"
  | .get => ascii "GET"
  | .head => ascii "HEAD"
  | .post => ascii "POST"
  | .put => ascii "PUT"
  | .connect => ascii "CONNECT"
  | .options => ascii "OPTIONS"
  | .trace => ascii "TRACE"
  | .copy => ascii "COPY"
  | .lock => ascii "LOCK"
  | .mkcol => ascii "MKCOL"
  | .move => ascii "MOVE"
  | .propfind => ascii "PROPFIND"
  | .proppatch => ascii "PROPPATCH"
  | .search => ascii "SEARCH"
  | .unlock => ascii "UNLOCK"
  | .report => ascii "REPORT"
  | .mkactivity => ascii "MKACTIVITY"
  | .checkout => ascii "CHECKOUT"
  | .merge => ascii "MERGE"
  | .msearch => ascii "M - SEARCH"
  | .notify => ascii "NOTIFY"
  | .subscribe => ascii "SUBSCRIBE"
  | .unsubscribe => ascii "UNSUBSCRIBE"
  | .patch => ascii "PATCH"
  | .purge => ascii "PURGE"

/-- `enum http_errno`, the errors of a request parser. -/
inductive Errno where
  | ok
  | invalidEofState
  | headerOverflow
  | closedConnection
  | invalidVersion
  | invalidMethod
  | invalidUrl
  | lfExpected
  | invalidHeaderToken
  | invalidContentLength
  | invalidChunkSize
  | invalidConstant
  | strict
  deriving DecidableEq

/-- The bits of `parser->flags`.  `F_SKIPBODY` is never set, since
`on_headers_complete` returns 0. -/
structure Flags where
  chunked : Bool
  connectionKeepAlive : Bool
  connectionClose : Bool
  trailing : Bool
  upgrade : Bool
  deriving DecidableEq

def Flags.none : Flags := ⟨false, false, false, false, false⟩

/-- `struct http_parser`.  `contentLength` is an `uint64_t`. -/
structure Parser where
  flags : Flags
  state : State
  headerState : HeaderState
  index : ℕ
  nread : ℕ
  contentLength : ℕ
  httpMajor : ℕ
  httpMinor : ℕ
  method : Method
  httpErrno : Errno
  upgrade : Bool
  deriving DecidableEq

/-- `http_parser_init`: all fields are 0 but the state. -/
def Parser.init : Parser where
  flags := .none
  state := .startReq
  headerState := .general
  index := 0
  nread := 0
  contentLength := 0
  httpMajor := 0
  httpMinor := 0
  method := .delete
  httpErrno := .ok
  upgrade := false

def ullongMax : ℕ := 2 ^ 64 - 1

/-- `HTTP_MAX_HEADER_SIZE`. -/
def maxHeaderSize : ℕ := 80 * 1024

/-- `http_should_keep_alive`; a request never needs an end of file. -/
def Parser.shouldKeepAlive (parser : Parser) : Bool :=
  if 0 < parser.httpMajor ∧ 0 < parser.httpMinor then
    !parser.flags.connectionClose
  else parser.flags.connectionKeepAlive

/-- `NEW_MESSAGE`. -/
def Parser.newMessage (parser : Parser) : State :=
  if parser.shouldKeepAlive then .startReq else .dead

/-! ## Callbacks -/

theorem guard_of {condition : Prop} [Decidable condition]
    (holds : condition) : (guard condition : Option Unit) = some () := by
  simp [guard, holds]

theorem guard_not {condition : Prop} [Decidable condition]
    (fails : ¬ condition) : (guard condition : Option Unit) = none := by
  rw [guard, if_neg fails]
  rfl

inductive Field where
  | url
  | headerField
  | headerValue
  | body
  deriving DecidableEq

/-- The callbacks of `CHttpParserWrapper`. -/
inductive Call where
  | data (field : Field) (text : Str)
  | headersComplete
  | messageComplete
  deriving DecidableEq

/-- The marks of `http_parser_execute`, each with the text from the mark to
the current byte. -/
structure Marks where
  url : Option Str
  headerField : Option Str
  headerValue : Option Str
  body : Option Str
  deriving DecidableEq

namespace Marks

def none : Marks := ⟨.none, .none, .none, .none⟩

def get (marks : Marks) : Field → Option Str
  | .url => marks.url
  | .headerField => marks.headerField
  | .headerValue => marks.headerValue
  | .body => marks.body

def put (marks : Marks) (field : Field) (mark : Option Str) : Marks :=
  match field with
  | .url => { marks with url := mark }
  | .headerField => { marks with headerField := mark }
  | .headerValue => { marks with headerValue := mark }
  | .body => { marks with body := mark }

@[simp] theorem get_put (marks : Marks) (field other : Field)
    (mark : Option Str) : (marks.put field mark).get other =
      if other = field then mark else marks.get other := by
  cases field <;> cases other <;> rfl

theorem put_self {marks : Marks} {field : Field} {mark : Option Str}
    (same : marks.get field = mark) : marks.put field mark = marks := by
  subst same
  cases field <;> rfl

@[simp] theorem put_put (marks : Marks) (field : Field)
    (first second : Option Str) :
    (marks.put field first).put field second = marks.put field second := by
  cases field <;> rfl

/-- The bytes of a move are behind every mark that is set. -/
def advance (marks : Marks) (text : Str) : Marks where
  url := marks.url.map (· ++ text)
  headerField := marks.headerField.map (· ++ text)
  headerValue := marks.headerValue.map (· ++ text)
  body := marks.body.map (· ++ text)

/-- How many marks are set. -/
def count (marks : Marks) : ℕ :=
  marks.url.toList.length + marks.headerField.toList.length +
    marks.headerValue.toList.length + marks.body.toList.length

end Marks

/-- The variables of `http_parser_execute`: the parser, `p - data`, the marks,
and the callbacks made so far. -/
structure Machine where
  parser : Parser
  p : ℕ
  marks : Marks
  calls : List Call
  deriving DecidableEq

namespace Machine

def goto (machine : Machine) (state : State) : Machine :=
  { machine with parser := { machine.parser with state := state } }

def setParser (machine : Machine) (parser : Parser) : Machine :=
  { machine with parser := parser }

def setErrno (machine : Machine) (errno : Errno) : Machine :=
  { machine with parser := { machine.parser with httpErrno := errno } }

/-- `MARK`. -/
def mark (machine : Machine) (field : Field) : Machine :=
  match machine.marks.get field with
  | some _ => machine
  | none => { machine with marks := machine.marks.put field (some []) }

/-- `CALLBACK_DATA_`, with the text from the current byte on that belongs to
the field. -/
def callbackData (machine : Machine) (field : Field) (last : Str) :
    Option Machine := do
  guard (machine.parser.httpErrno = .ok)
  match machine.marks.get field with
  | none => some machine
  | some text =>
      some { machine with
        marks := machine.marks.put field none
        calls := machine.calls ++ [.data field (text ++ last)] }

/-- `CALLBACK_NOTIFY_`. -/
def callbackNotify (machine : Machine) (call : Call) : Option Machine := do
  guard (machine.parser.httpErrno = .ok)
  some { machine with calls := machine.calls ++ [call] }

variable {machine : Machine}

/-- A mark that is set keeps its text. -/
theorem mark_eq (machine : Machine) (field : Field) :
    machine.mark field = { machine with
      marks := machine.marks.put field
        (some ((machine.marks.get field).getD [])) } := by
  cases marked : machine.marks.get field with
  | none => simp [mark, marked]
  | some text =>
      rw [Option.getD_some, Marks.put_self marked]
      simp [mark, marked]

theorem callbackData_of {field : Field} {text : Str}
    (noError : machine.parser.httpErrno = .ok)
    (marked : machine.marks.get field = some text) (last : Str) :
    machine.callbackData field last = some { machine with
      marks := machine.marks.put field none
      calls := machine.calls ++ [.data field (text ++ last)] } := by
  rw [callbackData, guard_of noError, marked]
  rfl

theorem callbackData_unmarked {field : Field}
    (noError : machine.parser.httpErrno = .ok)
    (unmarked : machine.marks.get field = none) (last : Str) :
    machine.callbackData field last = some machine := by
  rw [callbackData, guard_of noError, unmarked]
  rfl

theorem callbackData_error (error : machine.parser.httpErrno ≠ .ok)
    (field : Field) (last : Str) : machine.callbackData field last = none := by
  rw [callbackData, guard_not error]
  rfl

theorem callbackNotify_of (noError : machine.parser.httpErrno = .ok)
    (call : Call) : machine.callbackNotify call =
      some { machine with calls := machine.calls ++ [call] } := by
  rw [callbackNotify, guard_of noError]
  rfl

/-- The move over a text: `p` is behind it. -/
def advance (machine : Machine) (text : Str) : Machine :=
  { machine with
    p := machine.p + text.length
    marks := machine.marks.advance text }

end Machine

/-! ## The cases of the loop -/

/-- `parse_url_char`. -/
def parseUrlChar (s : State) (ch : UInt8) : State :=
  if ch = Byte.space ∨ ch = Byte.cr ∨ ch = Byte.lf ∨ ch = 9 ∨ ch = 12 then .dead
  else
    match s with
    | .reqSpacesBeforeUrl =>
        if ch = chr '/' ∨ ch = chr '*' then .reqPath
        else if isAlpha ch then .reqSchema
        else .dead
    | .reqSchema =>
        if isAlpha ch then .reqSchema
        else if ch = chr ':' then .reqSchemaSlash
        else .dead
    | .reqSchemaSlash => if ch = chr '/' then .reqSchemaSlashSlash else .dead
    | .reqSchemaSlashSlash => if ch = chr '/' then .reqServerStart else .dead
    | .reqServerWithAt => if ch = chr '@' then .dead else server ch
    | .reqServerStart | .reqServer => server ch
    | .reqPath =>
        if isUrlChar ch then .reqPath
        else if ch = chr '?' then .reqQueryStringStart
        else if ch = chr '#' then .reqFragmentStart
        else .dead
    | .reqQueryStringStart | .reqQueryString =>
        if isUrlChar ch then .reqQueryString
        else if ch = chr '?' then .reqQueryString
        else if ch = chr '#' then .reqFragmentStart
        else .dead
    | .reqFragmentStart =>
        if isUrlChar ch then .reqFragment
        else if ch = chr '?' then .reqFragment
        else if ch = chr '#' then .reqFragmentStart
        else .dead
    | .reqFragment =>
        if isUrlChar ch ∨ ch = chr '?' ∨ ch = chr '#' then .reqFragment
        else .dead
    | _ => .dead
where
  /-- The cases that fall through to `s_req_server`. -/
  server (ch : UInt8) : State :=
    if ch = chr '/' then .reqPath
    else if ch = chr '?' then .reqQueryStringStart
    else if ch = chr '@' then .reqServerWithAt
    else if isUserinfoChar ch ∨ ch = chr '[' ∨ ch = chr ']' then .reqServer
    else .dead

/-- How a case of the loop ends: with `break`, with `goto error`, or with a
`return` behind the byte. -/
inductive Exit where
  | next (machine : Machine)
  | error (machine : Machine)
  | returned (machine : Machine)

namespace Machine

def pass (machine : Machine) : Option Exit := some (.next machine)

def fail (machine : Machine) (errno : Errno) : Option Exit :=
  some (.error (machine.setErrno errno))

/-- `STRICT_CHECK`, and the state behind it. -/
def expect (machine : Machine) (ch wanted : UInt8) (state : State) :
    Option Exit :=
  if ch ≠ wanted then machine.fail .strict else (machine.goto state).pass

def dead (machine : Machine) (ch : UInt8) : Option Exit :=
  if ch = Byte.cr ∨ ch = Byte.lf then machine.pass
  else machine.fail .closedConnection

/-- The method that the first byte stands for until another byte differs. -/
def firstMethod (ch : UInt8) : Option Method :=
  if ch = chr 'C' then some .connect
  else if ch = chr 'D' then some .delete
  else if ch = chr 'G' then some .get
  else if ch = chr 'H' then some .head
  else if ch = chr 'L' then some .lock
  else if ch = chr 'M' then some .mkcol
  else if ch = chr 'N' then some .notify
  else if ch = chr 'O' then some .options
  else if ch = chr 'P' then some .post
  else if ch = chr 'R' then some .report
  else if ch = chr 'S' then some .subscribe
  else if ch = chr 'T' then some .trace
  else if ch = chr 'U' then some .unlock
  else none

def startReq (machine : Machine) (ch : UInt8) : Option Exit := do
  if ch = Byte.cr ∨ ch = Byte.lf then machine.pass
  else
    let machine := { machine with parser := { machine.parser with
      flags := .none, contentLength := ullongMax } }
    if !isAlpha ch then machine.fail .invalidMethod
    else
      let machine := { machine with parser := { machine.parser with
        method := .delete, index := 1 } }
      match firstMethod ch with
      | none => machine.fail .invalidMethod
      | some method =>
          -- `on_message_begin` is not set.
          guard (machine.parser.httpErrno = .ok)
          pass { machine with parser := { machine.parser with
            method := method, state := .reqMethod } }

/-- The method that a byte which differs from the text so far leads to. -/
def switchMethod (method : Method) (index : ℕ) (ch : UInt8) : Option Method :=
  if method = .connect then
    if index = 1 ∧ ch = chr 'H' then some .checkout
    else if index = 2 ∧ ch = chr 'P' then some .copy
    else none
  else if method = .mkcol then
    if index = 1 ∧ ch = chr 'O' then some .move
    else if index = 1 ∧ ch = chr 'E' then some .merge
    else if index = 1 ∧ ch = chr '-' then some .msearch
    else if index = 2 ∧ ch = chr 'A' then some .mkactivity
    else none
  else if method = .subscribe then
    if index = 1 ∧ ch = chr 'E' then some .search else none
  else if index = 1 ∧ method = .post then
    if ch = chr 'R' then some .propfind
    else if ch = chr 'U' then some .put
    else if ch = chr 'A' then some .patch
    else none
  else if index = 2 then
    if method = .put then if ch = chr 'R' then some .purge else none
    else if method = .unlock then
      if ch = chr 'S' then some .unsubscribe else none
    else none
  else if index = 4 ∧ method = .propfind ∧ ch = chr 'P' then some .proppatch
  else none

def reqMethod (machine : Machine) (ch : UInt8) : Option Exit := do
  if ch = Byte.nul then machine.fail .invalidMethod
  else
    let parser := machine.parser
    let expected ← (parser.method.text ++ [Byte.nul])[parser.index]?
    if ch = Byte.space ∧ expected = Byte.nul then
      pass { machine with parser := { parser with
        state := .reqSpacesBeforeUrl, index := parser.index + 1 } }
    else if ch = expected then
      pass { machine with parser := { parser with index := parser.index + 1 } }
    else
      match switchMethod parser.method parser.index ch with
      | none => machine.fail .invalidMethod
      | some method =>
          pass { machine with parser := { parser with
            method := method, index := parser.index + 1 } }

/-- The state `parse_url_char` gives, or the error. -/
def urlChar (machine : Machine) (ch : UInt8) : Option Exit :=
  let machine := machine.goto (parseUrlChar machine.parser.state ch)
  if machine.parser.state = .dead then machine.fail .invalidUrl
  else machine.pass

def reqSpacesBeforeUrl (machine : Machine) (ch : UInt8) : Option Exit :=
  if ch = Byte.space then machine.pass
  else
    let machine := machine.mark .url
    if machine.parser.method = .connect then
      (machine.goto .reqServerStart).urlChar ch
    else machine.urlChar ch

/-- `s_req_schema` to `s_req_server_start`. -/
def reqSchema (machine : Machine) (ch : UInt8) : Option Exit :=
  if ch = Byte.space ∨ ch = Byte.cr ∨ ch = Byte.lf then
    machine.fail .invalidUrl
  else machine.urlChar ch

/-- `s_req_server` to `s_req_fragment`. -/
def reqUrl (machine : Machine) (ch : UInt8) : Option Exit := do
  if ch = Byte.space then
    ((← (machine.goto .reqHttpStart).callbackData .url [])).pass
  else if ch = Byte.cr ∨ ch = Byte.lf then
    let machine := { machine with parser := { machine.parser with
      httpMajor := 0
      httpMinor := 9
      state :=
        if ch = Byte.cr then .reqLineAlmostDone else .headerFieldStart } }
    (← machine.callbackData .url []).pass
  else machine.urlChar ch

def reqHttpStart (machine : Machine) (ch : UInt8) : Option Exit :=
  if ch = chr 'H' then (machine.goto .reqHttpH).pass
  else if ch = Byte.space then machine.pass
  else machine.fail .invalidConstant

def digit (ch : UInt8) : ℕ := ch.toNat - 48

def reqFirstHttpMajor (machine : Machine) (ch : UInt8) : Option Exit :=
  if ch < chr '1' ∨ chr '9' < ch then machine.fail .invalidVersion
  else
    pass { machine with parser := { machine.parser with
      httpMajor := digit ch, state := .reqHttpMajor } }

def reqHttpMajor (machine : Machine) (ch : UInt8) : Option Exit :=
  if ch = chr '.' then (machine.goto .reqFirstHttpMinor).pass
  else if !Byte.isDigit ch then machine.fail .invalidVersion
  else
    let machine := { machine with parser := { machine.parser with
      httpMajor := machine.parser.httpMajor * 10 + digit ch } }
    if 999 < machine.parser.httpMajor then machine.fail .invalidVersion
    else machine.pass

def reqFirstHttpMinor (machine : Machine) (ch : UInt8) : Option Exit :=
  if !Byte.isDigit ch then machine.fail .invalidVersion
  else
    pass { machine with parser := { machine.parser with
      httpMinor := digit ch, state := .reqHttpMinor } }

def reqHttpMinor (machine : Machine) (ch : UInt8) : Option Exit :=
  if ch = Byte.cr then (machine.goto .reqLineAlmostDone).pass
  else if ch = Byte.lf then (machine.goto .headerFieldStart).pass
  else if !Byte.isDigit ch then machine.fail .invalidVersion
  else
    let machine := { machine with parser := { machine.parser with
      httpMinor := machine.parser.httpMinor * 10 + digit ch } }
    if 999 < machine.parser.httpMinor then machine.fail .invalidVersion
    else machine.pass

def reqLineAlmostDone (machine : Machine) (ch : UInt8) : Option Exit :=
  if ch ≠ Byte.lf then machine.fail .lfExpected
  else (machine.goto .headerFieldStart).pass

def messageDone (machine : Machine) : Option Exit := do
  ((← (machine.goto machine.parser.newMessage).callbackNotify
    .messageComplete)).pass

def headersDone (machine : Machine) (ch : UInt8) : Option Exit := do
  if ch ≠ Byte.lf then machine.fail .strict
  else
    let machine := { machine with parser := { machine.parser with nread := 0 } }
    let parser := machine.parser
    if parser.upgrade then
      some (.returned (← (machine.goto parser.newMessage).callbackNotify
        .messageComplete))
    else if parser.flags.chunked then (machine.goto .chunkSizeStart).pass
    else if parser.contentLength = 0 then machine.messageDone
    else if parser.contentLength ≠ ullongMax then
      (machine.goto .bodyIdentity).pass
    else machine.messageDone

def headersAlmostDone (machine : Machine) (ch : UInt8) : Option Exit := do
  if ch ≠ Byte.lf then machine.fail .strict
  else if machine.parser.flags.trailing then machine.messageDone
  else
    let parser := machine.parser
    let machine : Machine := { machine with parser := { parser with
      state := .headersDone
      upgrade := parser.flags.upgrade || parser.method == .connect } }
    let machine : Machine :=
      { machine with calls := machine.calls ++ [.headersComplete] }
    if machine.parser.httpErrno ≠ .ok then some (.error machine)
    else machine.headersDone ch

def headerFieldStart (machine : Machine) (ch : UInt8) : Option Exit :=
  if ch = Byte.cr then (machine.goto .headersAlmostDone).pass
  else if ch = Byte.lf then
    (machine.goto .headersAlmostDone).headersAlmostDone ch
  else
    let c := token ch
    if c = 0 then machine.fail .invalidHeaderToken
    else
      let machine := machine.mark .headerField
      pass { machine with parser := { machine.parser with
        index := 0
        state := .headerField
        headerState :=
          if c = chr 'c' then .C
          else if c = chr 'p' then .matchingProxyConnection
          else if c = chr 't' then .matchingTransferEncoding
          else if c = chr 'u' then .matchingUpgrade
          else .general } }

/-- The next byte of a text that is matched, from the second one on. -/
def matchNext (parser : Parser) (text : Str) (found : HeaderState)
    (c : UInt8) : Parser :=
  let index := parser.index + 1
  { parser with
    index := index
    headerState :=
      if text.length < index ∨ (text ++ [Byte.nul])[index]? ≠ some c then
        .general
      else if index = text.length - 1 then found
      else parser.headerState }

/-- The header state behind another byte of a field name. -/
def matchField (parser : Parser) (ch c : UInt8) : Option Parser :=
  match parser.headerState with
  | .general => some parser
  | .C => some { parser with
      index := parser.index + 1
      headerState := if c = chr 'o' then .CO else .general }
  | .CO => some { parser with
      index := parser.index + 1
      headerState := if c = chr 'n' then .CON else .general }
  | .CON => some { parser with
      index := parser.index + 1
      headerState :=
        if c = chr 'n' then .matchingConnection
        else if c = chr 't' then .matchingContentLength
        else .general }
  | .matchingConnection =>
      some (matchNext parser (ascii "connection") .connection c)
  | .matchingProxyConnection =>
      some (matchNext parser (ascii "proxy-connection") .connection c)
  | .matchingContentLength =>
      some (matchNext parser (ascii "content-length") .contentLength c)
  | .matchingTransferEncoding =>
      some (matchNext parser (ascii "transfer-encoding") .transferEncoding c)
  | .matchingUpgrade => some (matchNext parser (ascii "upgrade") .upgrade c)
  | .connection | .contentLength | .transferEncoding | .upgrade =>
      some (if ch ≠ Byte.space then { parser with headerState := .general }
        else parser)
  -- `assert(0 && "Unknown header_state")`
  | _ => none

def headerField (machine : Machine) (ch : UInt8) : Option Exit := do
  let c := token ch
  if c ≠ 0 then
    (machine.setParser (← matchField machine.parser ch c)).pass
  else if ch = chr ':' then
    (← (machine.goto .headerValueStart).callbackData .headerField []).pass
  else if ch = Byte.cr then
    (← (machine.goto .headerAlmostDone).callbackData .headerField []).pass
  else if ch = Byte.lf then
    (← (machine.goto .headerFieldStart).callbackData .headerField []).pass
  else machine.fail .invalidHeaderToken

def headerValueStart (machine : Machine) (ch : UInt8) : Option Exit := do
  if ch = Byte.space ∨ ch = 9 then machine.pass
  else
    let machine := machine.mark .headerValue
    let machine := { machine with parser := { machine.parser with
      state := .headerValue, index := 0 } }
    if ch = Byte.cr then
      let machine := { machine with parser := { machine.parser with
        headerState := .general, state := .headerAlmostDone } }
      (← machine.callbackData .headerValue []).pass
    else if ch = Byte.lf then
      (← (machine.goto .headerFieldStart).callbackData .headerValue []).pass
    else
      let c := lower ch
      let parser := machine.parser
      match parser.headerState with
      | .upgrade => pass { machine with parser := { parser with
          flags := { parser.flags with upgrade := true }
          headerState := .general } }
      | .transferEncoding => pass { machine with parser := { parser with
          headerState :=
            if c = chr 'c' then .matchingTransferEncodingChunked
            else .general } }
      | .contentLength =>
          if !Byte.isDigit ch then machine.fail .invalidContentLength
          else pass { machine with parser := { parser with
            contentLength := digit ch } }
      | .connection => pass { machine with parser := { parser with
          headerState :=
            if c = chr 'k' then .matchingConnectionKeepAlive
            else if c = chr 'c' then .matchingConnectionClose
            else .general } }
      | _ => pass { machine with parser := { parser with
          headerState := .general } }

def headerAlmostDone (machine : Machine) (ch : UInt8) : Option Exit :=
  if ch ≠ Byte.lf then machine.fail .strict
  else
    let parser := machine.parser
    let flags := parser.flags
    pass { machine with parser := { parser with
      state := .headerValueLws
      flags :=
        match parser.headerState with
        | .connectionKeepAlive => { flags with connectionKeepAlive := true }
        | .connectionClose => { flags with connectionClose := true }
        | .transferEncodingChunked => { flags with chunked := true }
        | _ => flags } }

/-- The next digit of an `uint64_t`, `none` where the check for an overflow
finds one. -/
def pushDigit (base value digit : ℕ) : Option ℕ :=
  let t := (value * base % 2 ^ 64 + digit) % 2 ^ 64
  if t < value ∨ t = ullongMax then none else some t

/-- Another byte of a field value that is neither CR nor LF. -/
def valueByte (machine : Machine) (ch : UInt8) : Option Exit :=
  let c := lower ch
  let parser := machine.parser
  match parser.headerState with
  | .general => machine.pass
  -- `assert(0 && "Shouldn't get here.")`
  | .connection | .transferEncoding => none
  | .contentLength =>
      if ch = Byte.space then machine.pass
      else if !Byte.isDigit ch then machine.fail .invalidContentLength
      else
        match pushDigit 10 parser.contentLength (digit ch) with
        | none => machine.fail .invalidContentLength
        | some t => pass { machine with parser := { parser with
            contentLength := t } }
  | .matchingTransferEncodingChunked => (machine.setParser
      (matchNext parser (ascii "chunked") .transferEncodingChunked c)).pass
  | .matchingConnectionKeepAlive => (machine.setParser
      (matchNext parser (ascii "keep-alive") .connectionKeepAlive c)).pass
  | .matchingConnectionClose => (machine.setParser
      (matchNext parser (ascii "close") .connectionClose c)).pass
  | .transferEncodingChunked | .connectionKeepAlive | .connectionClose =>
      if ch ≠ Byte.space then
        pass { machine with parser := { parser with headerState := .general } }
      else machine.pass
  | _ => pass { machine with parser := { parser with headerState := .general } }

def headerValue (machine : Machine) (ch : UInt8) : Option Exit := do
  if ch = Byte.cr then
    (← (machine.goto .headerAlmostDone).callbackData .headerValue []).pass
  else if ch = Byte.lf then
    (← (machine.goto .headerAlmostDone).callbackData .headerValue []
      ).headerAlmostDone ch
  else machine.valueByte ch

def headerValueLws (machine : Machine) (ch : UInt8) : Option Exit :=
  if ch = Byte.space ∨ ch = 9 then (machine.goto .headerValueStart).pass
  else (machine.goto .headerFieldStart).headerFieldStart ch

/-- A case that takes its byte only. -/
def oneByte (exit : Option Exit) : Option (Exit × ℕ) := exit.map (·, 0)

/-- `body_mark` is set, and as many bytes as the content length asks for, or
as there are, are read at once: the case takes all but the first besides its
byte. -/
def bodyIdentity (machine : Machine) (ch : UInt8) (rest : Str) :
    Option (Exit × ℕ) := do
  let parser := machine.parser
  let toRead := min parser.contentLength (rest.length + 1)
  guard (parser.contentLength ≠ 0 ∧ parser.contentLength ≠ ullongMax)
  let machine := machine.mark .body
  let machine := { machine with parser := { parser with
    contentLength := parser.contentLength - toRead } }
  if machine.parser.contentLength = 0 then
    let machine ← (machine.goto .messageDone).callbackData .body
      ((ch :: rest).take toRead)
    some (← machine.messageDone, toRead - 1)
  else some (.next machine, toRead - 1)

def chunkSizeStart (machine : Machine) (ch : UInt8) : Option Exit := do
  guard (machine.parser.nread = 1)
  guard machine.parser.flags.chunked
  match unhex ch with
  | none => machine.fail .invalidChunkSize
  | some value => pass { machine with parser := { machine.parser with
      contentLength := value, state := .chunkSize } }

def chunkSize (machine : Machine) (ch : UInt8) : Option Exit := do
  let parser := machine.parser
  guard parser.flags.chunked
  if ch = Byte.cr then (machine.goto .chunkSizeAlmostDone).pass
  else
    match unhex ch with
    | none =>
        if ch = chr ';' ∨ ch = Byte.space then
          (machine.goto .chunkParameters).pass
        else machine.fail .invalidChunkSize
    | some value =>
        match pushDigit 16 parser.contentLength value with
        | none => machine.fail .invalidContentLength
        | some t => pass { machine with parser := { parser with
            contentLength := t } }

def chunkParameters (machine : Machine) (ch : UInt8) : Option Exit := do
  guard machine.parser.flags.chunked
  if ch = Byte.cr then (machine.goto .chunkSizeAlmostDone).pass
  else machine.pass

def chunkSizeAlmostDone (machine : Machine) (ch : UInt8) : Option Exit := do
  guard machine.parser.flags.chunked
  if ch ≠ Byte.lf then machine.fail .strict
  else
    let parser := { machine.parser with nread := 0 }
    if parser.contentLength = 0 then
      pass { machine with parser := { parser with
        flags := { parser.flags with trailing := true }
        state := .headerFieldStart } }
    else pass { machine with parser := { parser with state := .chunkData } }

def chunkData (machine : Machine) (rest : Str) : Option (Exit × ℕ) := do
  let parser := machine.parser
  let toRead := min parser.contentLength (rest.length + 1)
  guard parser.flags.chunked
  guard (parser.contentLength ≠ 0 ∧ parser.contentLength ≠ ullongMax)
  let machine := machine.mark .body
  let machine := { machine with parser := { parser with
    contentLength := parser.contentLength - toRead } }
  if machine.parser.contentLength = 0 then
    some (.next (machine.goto .chunkDataAlmostDone), toRead - 1)
  else some (.next machine, toRead - 1)

def chunkDataAlmostDone (machine : Machine) (ch : UInt8) : Option Exit := do
  guard machine.parser.flags.chunked
  guard (machine.parser.contentLength = 0)
  if ch ≠ Byte.cr then machine.fail .strict
  else (← (machine.goto .chunkDataDone).callbackData .body []).pass

def chunkDataDone (machine : Machine) (ch : UInt8) : Option Exit := do
  guard machine.parser.flags.chunked
  if ch ≠ Byte.lf then machine.fail .strict
  else pass { machine with parser := { machine.parser with
    nread := 0, state := .chunkSizeStart } }

/-- The `switch` over the state. -/
def dispatch (machine : Machine) (ch : UInt8) (rest : Str) :
    Option (Exit × ℕ) :=
  match machine.parser.state with
  | .dead => oneByte (machine.dead ch)
  | .startReq => oneByte (machine.startReq ch)
  | .reqMethod => oneByte (machine.reqMethod ch)
  | .reqSpacesBeforeUrl => oneByte (machine.reqSpacesBeforeUrl ch)
  | .reqSchema | .reqSchemaSlash | .reqSchemaSlashSlash | .reqServerStart =>
      oneByte (machine.reqSchema ch)
  | .reqServer | .reqServerWithAt | .reqPath | .reqQueryStringStart |
    .reqQueryString | .reqFragmentStart | .reqFragment => oneByte (machine.reqUrl ch)
  | .reqHttpStart => oneByte (machine.reqHttpStart ch)
  | .reqHttpH => oneByte (machine.expect ch (chr 'T') .reqHttpHT)
  | .reqHttpHT => oneByte (machine.expect ch (chr 'T') .reqHttpHTT)
  | .reqHttpHTT => oneByte (machine.expect ch (chr 'P') .reqHttpHTTP)
  | .reqHttpHTTP => oneByte (machine.expect ch (chr '/') .reqFirstHttpMajor)
  | .reqFirstHttpMajor => oneByte (machine.reqFirstHttpMajor ch)
  | .reqHttpMajor => oneByte (machine.reqHttpMajor ch)
  | .reqFirstHttpMinor => oneByte (machine.reqFirstHttpMinor ch)
  | .reqHttpMinor => oneByte (machine.reqHttpMinor ch)
  | .reqLineAlmostDone => oneByte (machine.reqLineAlmostDone ch)
  | .headerFieldStart => oneByte (machine.headerFieldStart ch)
  | .headerField => oneByte (machine.headerField ch)
  | .headerValueStart => oneByte (machine.headerValueStart ch)
  | .headerValue => oneByte (machine.headerValue ch)
  | .headerValueLws => oneByte (machine.headerValueLws ch)
  | .headerAlmostDone => oneByte (machine.headerAlmostDone ch)
  | .headersAlmostDone => oneByte (machine.headersAlmostDone ch)
  | .headersDone => oneByte (machine.headersDone ch)
  | .bodyIdentity => machine.bodyIdentity ch rest
  | .messageDone => oneByte machine.messageDone
  | .chunkSizeStart => oneByte (machine.chunkSizeStart ch)
  | .chunkSize => oneByte (machine.chunkSize ch)
  | .chunkParameters => oneByte (machine.chunkParameters ch)
  | .chunkSizeAlmostDone => oneByte (machine.chunkSizeAlmostDone ch)
  | .chunkData => machine.chunkData rest
  | .chunkDataAlmostDone => oneByte (machine.chunkDataAlmostDone ch)
  | .chunkDataDone => oneByte (machine.chunkDataDone ch)

/-- The byte is counted when it belongs to a header. -/
def counted (machine : Machine) : Machine :=
  if machine.parser.state.parsingHeader then
    { machine with parser := { machine.parser with
      nread := machine.parser.nread + 1 } }
  else machine

/-- The end of a turn: `p` moves behind the bytes that are taken, or the
function returns. -/
def settle (text : Str) : Exit × ℕ → Move Machine
  | (.next machine, skip) => .go (machine.advance (text.take (skip + 1))) skip
  | (.error machine, _) => .leave machine
  | (.returned machine, _) => .leave { machine with p := machine.p + 1 }

/-- One turn of the loop of `http_parser_execute`. -/
def turn (machine : Machine) (ch : UInt8) (rest : Str) :
    Option (Move Machine) :=
  let machine := machine.counted
  if machine.parser.state.parsingHeader ∧
      maxHeaderSize < machine.parser.nread then
    some (.leave (machine.setErrno .headerOverflow))
  else (machine.dispatch ch rest).map (settle (ch :: rest))

/-- The callbacks for the marks that are left over behind the last byte. -/
def flush (machine : Machine) : Option Machine := do
  guard (machine.marks.count ≤ 1)
  let machine ← machine.callbackData .headerField []
  let machine ← machine.callbackData .headerValue []
  let machine ← machine.callbackData .url []
  machine.callbackData .body []

end Machine

/-! ## The call -/

/-- The field whose mark is at the start of the data. -/
def State.marked : State → Option Field
  | .headerField => some .headerField
  | .headerValue => some .headerValue
  | .reqPath | .reqSchema | .reqSchemaSlash | .reqSchemaSlashSlash |
    .reqServerStart | .reqServer | .reqServerWithAt | .reqQueryStringStart |
    .reqQueryString | .reqFragmentStart | .reqFragment => some .url
  | _ => none

def Parser.start (parser : Parser) : Machine where
  parser := parser
  p := 0
  marks :=
    match parser.state.marked with
    | none => .none
    | some field => Marks.none.put field (some [])
  calls := []

/-- What a call leaves: the parser, the callbacks it made, and the bytes it
has parsed. -/
structure Result where
  parser : Parser
  calls : List Call
  parsed : ℕ
  deriving DecidableEq

def Machine.result (machine : Machine) : Result :=
  ⟨machine.parser, machine.calls, machine.p⟩

/-- `http_parser_execute`. -/
def execute (parser : Parser) (data : Str) : Option Result :=
  if parser.httpErrno ≠ .ok then some ⟨parser, [], 0⟩
  else if data = [] then
    if parser.state = .dead ∨ parser.state = .startReq then
      some ⟨parser, [], 0⟩
    else some ⟨{ parser with httpErrno := .invalidEofState }, [], 1⟩
  else do
    match ← loop Machine.turn parser.start 0 data with
    | .left machine => some machine.result
    | .reading machine => some (← machine.flush).result

end HttpParser

end ChatRoom
