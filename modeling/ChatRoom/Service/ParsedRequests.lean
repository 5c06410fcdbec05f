import ChatRoom.Service.ParserFields

/-!
# How the parser reads requests

Requests that keep their connection are read one behind the other: each gives
the callbacks for its URL, its fields and its body, and the parser is then
where it was before the first.
-/

namespace ChatRoom

namespace HttpParser

open Lib.Scanner (Move Reads Leads)
open Machine (oneByte digit)

/-! ## The head -/

/-- The parser is behind the request line or behind a line of the header. -/
def AtLine (info : Info) (machine : Machine) : Prop :=
  ∃ state : State, state.startsLine ∧ At state info machine

theorem leads_lines (lines : List HeaderLine) (info : Info)
    (room : info.nread + (lines.flatMap HeaderLine.text).length ≤
      maxHeaderSize) :
    Leads Machine.turn (AtLine info) (lines.flatMap HeaderLine.text)
      (AtLine (lines.foldl Info.field info)) := by
  induction lines generalizing info with
  | nil => exact Leads.nil _
  | cons line lines induction =>
      rw [List.flatMap_cons] at room ⊢
      rw [List.length_append] at room
      have first : Leads Machine.turn (AtLine info) line.text
          (AtLine (info.field line)) := by
        rintro machine ⟨state, starts, isAt⟩
        obtain ⟨next, reads, isAt⟩ :=
          leads_line info line starts (by omega) machine isAt
        exact ⟨next, reads, _, .inr rfl, isAt⟩
      have later := induction (info.field line)
        (by simp only [Info.field]; omega)
      exact first.append later

/-- What a line does to the flags. -/
def Flags.line (flags : Flags) (line : HeaderLine) : Flags :=
  Flags.grant
    (if line.kind = .upgrade ∧ line.value ≠ [] then
      { flags with upgrade := true } else flags)
    (wish line.kind line.value)

/-- What a line does to the content length. -/
def lengthLine (length : ℕ) (line : HeaderLine) : ℕ :=
  if line.kind = .contentLength then digitsValue line.value else length

def HeaderLine.calls (line : HeaderLine) : List Call :=
  [.data .headerField line.name, .data .headerValue line.value]

theorem foldl_field (lines : List HeaderLine) (info : Info) :
    lines.foldl Info.field info = { info with
      flags := lines.foldl Flags.line info.flags
      contentLength := lines.foldl lengthLine info.contentLength
      nread := info.nread + (lines.flatMap HeaderLine.text).length
      calls := info.calls ++ lines.flatMap HeaderLine.calls } := by
  induction lines generalizing info with
  | nil => simp
  | cons line lines induction =>
      rw [List.foldl_cons, induction]
      simp [Info.field, Flags.line, lengthLine, HeaderLine.calls,
        Nat.add_assoc]

theorem Flags.line_trailing (lines : List HeaderLine) (flags : Flags) :
    (lines.foldl Flags.line flags).trailing = flags.trailing := by
  induction lines generalizing flags with
  | nil => rfl
  | cons line lines induction =>
      rw [List.foldl_cons, induction, Flags.line]
      generalize wish line.kind line.value = wish
      cases wish <;> simp only [Flags.grant] <;> split_ifs <;> rfl

theorem leads_blankLine (info : Info) (room : info.nread < maxHeaderSize) :
    Leads Machine.turn (AtLine info) [Byte.cr]
      (At .headersAlmostDone (info.count 1)) := by
  rintro machine ⟨state, starts, isAt⟩
  have header : state.parsingHeader = true := by
    rcases starts with rfl | rfl
    all_goals rfl
  have leads : Leads Machine.turn (At state info) [Byte.cr]
      (At .headersAlmostDone (info.count 1)) := by
    apply leads_header .none rfl header room
    rintro rest -
    refine ⟨rest, trivial, ?_⟩
    rw [dispatch_startsLine (by exact starts) (by decide),
      Machine.headerFieldStart, if_pos rfl]
    rfl
  exact leads machine isAt

/-! ## Behind the head -/

/-- The state behind a message: `NEW_MESSAGE`. -/
def Info.newMessage (info : Info) : State :=
  if (if 0 < info.httpMajor ∧ 0 < info.httpMinor then
      !info.flags.connectionClose else info.flags.connectionKeepAlive) then
    .startReq
  else .dead

/-- The head neither asks for another protocol nor for chunks. -/
structure Info.Plain (info : Info) : Prop where
  notTrailing : info.flags.trailing = false
  noUpgrade : info.flags.upgrade = false
  notChunked : info.flags.chunked = false
  noConnect : info.method ≠ .connect

theorem headersAlmostDone_plain (info : Info) (plain : info.Plain)
    (rest : Rest) :
    ∃ machine : Machine,
      machine = { (info.machine .headersDone .none rest).setParser
        { (info.machine .headersDone .none rest).parser with
          nread := 0, upgrade := false } with
        calls := info.calls ++ [.headersComplete] } ∧
      (info.machine .headersAlmostDone .none rest).headersAlmostDone Byte.lf =
        (if info.contentLength = 0 then machine.messageDone
          else if info.contentLength ≠ ullongMax then
            (machine.goto .bodyIdentity).pass
          else machine.messageDone) := by
  refine ⟨_, rfl, ?_⟩
  have notConnect : (info.method == .connect) = false := by
    rw [beq_eq_false_iff_ne]
    exact plain.noConnect
  simp [Machine.headersAlmostDone, Machine.headersDone, Info.machine,
    Machine.setParser, Machine.goto, plain.notTrailing, plain.noUpgrade,
    plain.notChunked, notConnect]

theorem messageDone_eq {machine : Machine}
    (noError : machine.parser.httpErrno = .ok) :
    machine.messageDone = some (.next
      { machine.goto machine.parser.newMessage with
        calls := machine.calls ++ [.messageComplete] }) := by
  rw [Machine.messageDone, Machine.callbackNotify_of (by exact noError)]
  rfl

theorem leads_headOnly {info : Info} (plain : info.Plain)
    (room : info.nread < maxHeaderSize)
    (noBody : info.contentLength = 0 ∨ info.contentLength = ullongMax) :
    Leads Machine.turn (At .headersAlmostDone info) [Byte.lf]
      (At info.newMessage { info with
        nread := 0
        calls := info.calls ++ [.headersComplete, .messageComplete] }) := by
  apply leads_header .none rfl rfl room
  rintro rest -
  obtain ⟨machine, same, done⟩ := headersAlmostDone_plain
    (info.count 1) ⟨plain.notTrailing, plain.noUpgrade,
      plain.notChunked, plain.noConnect⟩ rest
  refine ⟨{ rest with upgrade := false }, trivial, ?_⟩
  have branch : (if (info.count 1).contentLength = 0 then machine.messageDone
      else if (info.count 1).contentLength ≠ ullongMax then
        (machine.goto .bodyIdentity).pass
      else machine.messageDone) = machine.messageDone := by
    rcases noBody with none | unknown
    · exact if_pos none
    · split_ifs with isZero known
      · rfl
      · exact absurd unknown known
      · rfl
  change oneByte (Machine.headersAlmostDone _ _) = _
  rw [done, branch, messageDone_eq (by rw [same]; rfl), same]
  change some (Exit.next (Info.machine { info with
    nread := 0
    calls := info.calls ++ [.headersComplete] ++ [.messageComplete] }
      info.newMessage .none { rest with upgrade := false }), 0) = _
  rw [List.append_assoc]
  rfl

theorem leads_headBody {info : Info} (plain : info.Plain)
    (room : info.nread < maxHeaderSize) (present : info.contentLength ≠ 0)
    (known : info.contentLength ≠ ullongMax) :
    Leads Machine.turn (At .headersAlmostDone info) [Byte.lf]
      (At .bodyIdentity { info with
        nread := 0, calls := info.calls ++ [.headersComplete] }) := by
  apply leads_header .none rfl rfl room
  rintro rest -
  obtain ⟨machine, same, done⟩ := headersAlmostDone_plain
    (info.count 1) ⟨plain.notTrailing, plain.noUpgrade,
      plain.notChunked, plain.noConnect⟩ rest
  refine ⟨{ rest with upgrade := false }, trivial, ?_⟩
  change oneByte (Machine.headersAlmostDone _ _) = _
  rw [done, if_neg (by exact present), if_pos (by exact known), same]
  rfl

/-! ## The body -/

/-- The marks inside a body of which this has been read. -/
def bodyMarks (read : Str) : Marks :=
  if read = [] then .none else Marks.none.put .body (some read)

/-- A byte of a body. -/
theorem leads_bodyByte {state : State} {marks final : Marks}
    {info behind : Info} {ch : UInt8} (after : Marks)
    (moved : after.advance [ch] = final)
    (taken : ∀ rest, (info.machine .bodyIdentity marks rest).bodyIdentity ch [] =
      some (.next (behind.machine state after rest), 0)) :
    Leads Machine.turn (In .bodyIdentity marks (fun _ _ => True) info) [ch]
      (In state final (fun _ _ => True) behind) := by
  subst moved
  rintro machine ⟨rest, -, rfl⟩
  have goes : (info.machine .bodyIdentity marks rest).turn ch [] = some
      (.go ((behind.machine state after rest).advance [ch]) 0) := by
    rw [Machine.turn_body rfl, taken]
    rfl
  exact ⟨_, Reads.cons goes (Reads.nil _), { rest with p := rest.p + 1 },
    trivial, rfl⟩

theorem bodyMarks_mark (read : Str) (machine : Machine)
    (marks : machine.marks = bodyMarks read) :
    machine.mark .body = { machine with
      marks := Marks.none.put .body (some read) } := by
  rw [Machine.mark_eq, marks]
  unfold bodyMarks
  split_ifs with empty
  · rw [empty]
    rfl
  · rfl

/-- The bytes of a body in front of its end. -/
theorem leads_bodyFront (front : Str) (info : Info) (read : Str)
    (inside : front.length < info.contentLength)
    (known : info.contentLength < ullongMax) :
    Leads Machine.turn
      (In .bodyIdentity (bodyMarks read) (fun _ _ => True) info) front
      (In .bodyIdentity (bodyMarks (read ++ front)) (fun _ _ => True)
        { info with contentLength := info.contentLength - front.length }) := by
  induction front generalizing info read with
  | nil =>
      rw [List.append_nil]
      exact Leads.nil _
  | cons byte front induction =>
      rw [List.length_cons] at inside ⊢
      have first : Leads Machine.turn
          (In .bodyIdentity (bodyMarks read) (fun _ _ => True) info) [byte]
          (In .bodyIdentity (bodyMarks (read ++ [byte])) (fun _ _ => True)
            { info with contentLength := info.contentLength - 1 }) := by
        have marksAfter : bodyMarks (read ++ [byte]) =
            Marks.none.put .body (some (read ++ [byte])) :=
          if_neg (by simp)
        rw [marksAfter]
        apply leads_bodyByte (Marks.none.put .body (some read)) rfl
        intro rest
        have marks := bodyMarks_mark read
          (info.machine .bodyIdentity (bodyMarks read) rest) rfl
        have one : min info.contentLength (0 + 1) = 1 := by omega
        have more : info.contentLength - 1 ≠ 0 := by omega
        unfold Machine.bodyIdentity
        simp only [marks, List.length_nil]
        rw [guard_of (by
          change info.contentLength ≠ 0 ∧ info.contentLength ≠ ullongMax
          omega)]
        simp only [Info.machine, one, Option.bind_eq_bind, Option.bind_some,
          if_neg more]
      have later := induction
        { info with contentLength := info.contentLength - 1 } (read ++ [byte])
        (show front.length < info.contentLength - 1 by omega)
        (show info.contentLength - 1 < ullongMax by omega)
      have counted : info.contentLength - 1 - front.length =
          info.contentLength - (front.length + 1) := by
        omega
      simp only [counted] at later
      rw [List.append_assoc] at later
      exact Leads.cons first later

theorem leads_bodyLast (info : Info) (read : Str) (byte : UInt8)
    (last : info.contentLength = 1) :
    Leads Machine.turn
      (In .bodyIdentity (bodyMarks read) (fun _ _ => True) info) [byte]
      (At info.newMessage { info with
        contentLength := 0
        calls := info.calls ++
          [.data .body (read ++ [byte]), .messageComplete] }) := by
  apply leads_bodyByte .none rfl
  intro rest
  have marks := bodyMarks_mark read
    (info.machine .bodyIdentity (bodyMarks read) rest) rfl
  have one : min info.contentLength (0 + 1) = 1 := by
    rw [last]
    rfl
  have none : info.contentLength - 1 = 0 := by
    rw [last]
  unfold Machine.bodyIdentity
  simp only [marks, List.length_nil]
  rw [guard_of (by
    change info.contentLength ≠ 0 ∧ info.contentLength ≠ ullongMax
    rw [last]
    decide)]
  simp only [Info.machine, one, none, Option.bind_eq_bind, Option.bind_some,
    if_pos]
  rw [Machine.callbackData_of rfl rfl, Option.bind_some, messageDone_eq rfl]
  change some (Exit.next (Info.machine { info with
    contentLength := 0
    calls := info.calls ++ [.data .body (read ++ [byte])] ++
      [.messageComplete] } info.newMessage .none rest), 0) = _
  rw [List.append_assoc]
  rfl

/-! ## Requests -/

/-- A request whose body, if it has one, is as long as its head says. -/
structure Request where
  method : Method
  target : Target
  version : Version
  lines : List HeaderLine
  body : Str
  parsed : method ≠ .msearch ∧ method ≠ .connect

namespace Request

def requestLine (request : Request) : Str :=
  request.method.text ++ [Byte.space] ++ (request.target.text ++ [Byte.space]) ++
    request.version.text

def head (request : Request) : Str :=
  request.requestLine ++ request.lines.flatMap HeaderLine.text ++
    [Byte.cr, Byte.lf]

def text (request : Request) : Str := request.head ++ request.body

def flags (request : Request) : Flags :=
  request.lines.foldl Flags.line .none

/-- The length the head gives the body; `ullongMax` where it gives none. -/
def contentLength (request : Request) : ℕ :=
  request.lines.foldl lengthLine ullongMax

def keepAlive (request : Request) : Bool :=
  if 0 < digit request.version.major ∧ 0 < digit request.version.minor then
    !request.flags.connectionClose
  else request.flags.connectionKeepAlive

/-- The request is one the parser takes for a whole message and behind which it
takes another one. -/
structure Plain (request : Request) : Prop where
  noUpgrade : request.flags.upgrade = false
  notChunked : request.flags.chunked = false
  keepsAlive : request.keepAlive = true
  fits : request.head.length ≤ maxHeaderSize
  length : request.body = [] ∧ request.contentLength = ullongMax ∨
    request.contentLength = request.body.length ∧
      request.body.length < ullongMax

/-- The callbacks for the request. -/
def calls (request : Request) : List Call :=
  .data .url request.target.text ::
    request.lines.flatMap HeaderLine.calls ++ .headersComplete ::
    (if request.body = [] then [.messageComplete]
      else [.data .body request.body, .messageComplete])

end Request

/-- Between requests, these callbacks have been made. -/
def Between (calls : List Call) (machine : Machine) : Prop :=
  ∃ info : Info, info.nread = 0 ∧ info.calls = calls ∧
    At .startReq info machine

theorem between_start : Between [] Parser.init.start :=
  ⟨⟨.none, 0, 0, 0, .delete, 0, []⟩, rfl, rfl, ⟨.general, 0, 0, false⟩,
    trivial, rfl⟩

theorem leads_requestLine (request : Request) (info : Info)
    (fresh : info.nread = 0)
    (room : request.requestLine.length ≤ maxHeaderSize) :
    Leads Machine.turn (At .startReq info) request.requestLine
      (AtLine {
        flags := .none
        contentLength := ullongMax
        httpMajor := digit request.version.major
        httpMinor := digit request.version.minor
        method := request.method
        nread := request.requestLine.length
        calls := info.calls ++ [.data .url request.target.text] }) := by
  have length : request.requestLine.length = request.method.text.length + 1 +
      (request.target.text.length + 1) + request.version.text.length := by
    simp only [Request.requestLine, List.length_append, List.length_singleton]
  rw [length] at room ⊢
  have method := leads_method info request.parsed.1 (by omega)
  have target := leads_target
    { info.count (request.method.text.length + 1) with
      flags := .none, contentLength := ullongMax, method := request.method }
    request.target
    (show info.nread + (request.method.text.length + 1) +
      request.target.text.length < maxHeaderSize by omega) request.parsed.2
  have version := leads_version
    ((({ info.count (request.method.text.length + 1) with
      flags := .none, contentLength := ullongMax,
      method := request.method } : Info).count
        (request.target.text.length + 1)).call
          (.data .url request.target.text)) request.version
    (show info.nread + (request.method.text.length + 1) +
      (request.target.text.length + 1) + request.version.text.length ≤
        maxHeaderSize by omega)
  apply ((method.append target).append version).mono
  rintro machine isAt
  refine ⟨.headerFieldStart, .inl rfl, ?_⟩
  simpa only [Info.count, Info.call, fresh, Nat.zero_add] using isAt

/-- What the parser knows behind the head of a request, but for its last
byte. -/
def Request.info (request : Request) (calls : List Call) : Info where
  flags := request.flags
  contentLength := request.contentLength
  httpMajor := digit request.version.major
  httpMinor := digit request.version.minor
  method := request.method
  nread := request.requestLine.length +
    (request.lines.flatMap HeaderLine.text).length + 1
  calls := calls ++ .data .url request.target.text ::
    request.lines.flatMap HeaderLine.calls

/-- The head of a request but for its last byte. -/
def Request.headFront (request : Request) : Str :=
  request.requestLine ++ request.lines.flatMap HeaderLine.text ++ [Byte.cr]

theorem Request.text_eq (request : Request) :
    request.text = request.headFront ++ ([Byte.lf] ++ request.body) := by
  simp [text, head, headFront]

theorem Request.head_length (request : Request) :
    request.head.length = request.requestLine.length +
      (request.lines.flatMap HeaderLine.text).length + 2 := by
  simp only [head, List.length_append]
  rfl

theorem Request.info_plain {request : Request} (plain : request.Plain)
    (calls : List Call) : (request.info calls).Plain :=
  ⟨Flags.line_trailing request.lines .none, plain.noUpgrade, plain.notChunked,
    request.parsed.2⟩

theorem leads_headFront (request : Request) (calls : List Call)
    (fits : request.head.length ≤ maxHeaderSize) :
    Leads Machine.turn (Between calls) request.headFront
      (At .headersAlmostDone (request.info calls)) := by
  rintro machine ⟨info, fresh, rfl, isAt⟩
  have length := request.head_length
  have line := leads_requestLine request info fresh (by omega)
  have lines := leads_lines request.lines {
      flags := .none
      contentLength := ullongMax
      httpMajor := digit request.version.major
      httpMinor := digit request.version.minor
      method := request.method
      nread := request.requestLine.length
      calls := info.calls ++ [.data .url request.target.text] }
    (show request.requestLine.length +
      (request.lines.flatMap HeaderLine.text).length ≤ maxHeaderSize by omega)
  rw [foldl_field] at lines
  have blank := leads_blankLine {
      flags := request.flags
      contentLength := request.contentLength
      httpMajor := digit request.version.major
      httpMinor := digit request.version.minor
      method := request.method
      nread := request.requestLine.length +
        (request.lines.flatMap HeaderLine.text).length
      calls := info.calls ++ [.data .url request.target.text] ++
        request.lines.flatMap HeaderLine.calls }
    (show request.requestLine.length +
      (request.lines.flatMap HeaderLine.text).length < maxHeaderSize by omega)
  obtain ⟨next, reads, isAt⟩ :=
    ((line.append lines).append blank) machine isAt
  refine ⟨next, reads, ?_⟩
  rw [List.append_assoc] at isAt
  exact isAt

/-- The head of a request that has a body, and a part of the body. -/
theorem leads_bodyPart {request : Request} (plain : request.Plain)
    (calls : List Call) (front : Str)
    (inside : front.length < request.contentLength)
    (known : request.contentLength < ullongMax) :
    Leads Machine.turn (Between calls)
      (request.headFront ++ ([Byte.lf] ++ front))
      (In .bodyIdentity (bodyMarks front) (fun _ _ => True)
        { request.info calls with
          nread := 0
          contentLength := request.contentLength - front.length
          calls := (request.info calls).calls ++ [.headersComplete] }) := by
  have fits := plain.fits
  have length := request.head_length
  have feed := leads_headBody (Request.info_plain plain calls)
    (show request.requestLine.length +
      (request.lines.flatMap HeaderLine.text).length + 1 < maxHeaderSize by
        omega)
    (show request.contentLength ≠ 0 by omega)
    (show request.contentLength ≠ ullongMax by omega)
  have body := leads_bodyFront front { request.info calls with
      nread := 0
      calls := (request.info calls).calls ++ [.headersComplete] } [] inside
    known
  exact (leads_headFront request calls fits).append (feed.append body)

theorem Request.Plain.length_eq {request : Request} (plain : request.Plain)
    {front : Str} {last : UInt8} (whole : request.body = front ++ [last]) :
    request.contentLength = front.length + 1 ∧
      request.contentLength < ullongMax := by
  have size : request.body.length = front.length + 1 := by
    rw [whole, List.length_append, List.length_singleton]
  rcases plain.length with none | some
  · rw [none.1] at size
    cases size
  · omega

/-- **One request** gives its callbacks, and the next one may follow. -/
theorem leads_request (request : Request) (plain : request.Plain)
    (calls : List Call) :
    Leads Machine.turn (Between calls) request.text
      (Between (calls ++ request.calls)) := by
  have fits := plain.fits
  have length := request.head_length
  rw [request.text_eq]
  rcases List.eq_nil_or_concat' request.body with empty | ⟨front, last, whole⟩
  · have noBody : request.contentLength = 0 ∨
        request.contentLength = ullongMax := by
      rcases plain.length with none | some
      · exact .inr none.2
      · exact .inl (by rw [some.1, empty]; rfl)
    have feed := leads_headOnly (Request.info_plain plain calls)
      (show request.requestLine.length +
        (request.lines.flatMap HeaderLine.text).length + 1 < maxHeaderSize by
          omega) noBody
    have behind : (request.info calls).newMessage = .startReq :=
      if_pos plain.keepsAlive
    rw [behind] at feed
    rw [empty, List.append_nil]
    apply ((leads_headFront request calls fits).append feed).mono
    intro machine isAt
    refine ⟨_, ?_, ?_, isAt⟩
    · rfl
    · simp [Request.calls, Request.info, empty]
  · have present : request.body ≠ [] := by
      rw [whole]
      simp
    have counted := plain.length_eq whole
    have part := leads_bodyPart plain calls front (by omega)
      counted.2
    have lastByte := leads_bodyLast { request.info calls with
        nread := 0
        contentLength := request.contentLength - front.length
        calls := (request.info calls).calls ++ [.headersComplete] } front last
      (show request.contentLength - front.length = 1 by omega)
    have behind : Info.newMessage { request.info calls with
        nread := 0
        contentLength := request.contentLength - front.length
        calls := (request.info calls).calls ++ [.headersComplete] } =
          .startReq :=
      if_pos plain.keepsAlive
    rw [behind] at lastByte
    have text : request.headFront ++ ([Byte.lf] ++ request.body) =
        request.headFront ++ ([Byte.lf] ++ front) ++ [last] := by
      rw [whole]
      simp
    rw [text]
    apply (part.append lastByte).mono
    intro machine isAt
    refine ⟨_, ?_, ?_, isAt⟩
    · rfl
    · rw [← whole]
      simp [Request.calls, Request.info, present]

/-- Up to its last byte a request is not complete. -/
theorem leads_requestFront (request : Request) (plain : request.Plain) :
    ∃ front last, request.text = front ++ [last] ∧
      ∀ calls, Leads Machine.turn (Between calls) front fun machine =>
        ∃ made, machine.calls = calls ++ made ∧ .messageComplete ∉ made := by
  rcases List.eq_nil_or_concat' request.body with empty | ⟨front, last, whole⟩
  · refine ⟨request.headFront, Byte.lf, ?_, ?_⟩
    · rw [request.text_eq, empty, List.append_nil]
    · intro calls
      apply (leads_headFront request calls plain.fits).mono
      rintro machine ⟨rest, -, rfl⟩
      exact ⟨_, rfl, by simp [HeaderLine.calls]⟩
  · have counted := plain.length_eq whole
    refine ⟨request.headFront ++ ([Byte.lf] ++ front), last, ?_, ?_⟩
    · rw [request.text_eq, whole]
      simp
    · intro calls
      apply (leads_bodyPart plain calls front (by omega) counted.2).mono
      rintro machine ⟨rest, -, rfl⟩
      refine ⟨.data .url request.target.text ::
        request.lines.flatMap HeaderLine.calls ++ [.headersComplete], ?_, ?_⟩
      · simp [Info.machine, Request.info]
      · simp [HeaderLine.calls]

theorem leads_requests (requests : List Request)
    (plain : ∀ request ∈ requests, request.Plain) (calls : List Call) :
    Leads Machine.turn (Between calls) (requests.flatMap Request.text)
      (Between (calls ++ requests.flatMap Request.calls)) := by
  induction requests generalizing calls with
  | nil =>
      rw [List.flatMap_nil, List.flatMap_nil, List.append_nil]
      exact Leads.nil _
  | cons request requests induction =>
      rw [List.forall_mem_cons] at plain
      rw [List.flatMap_cons, List.flatMap_cons, ← List.append_assoc]
      exact (leads_request request plain.1 calls).append
        (induction plain.2 (calls ++ request.calls))

/-- Where no mark is set nothing is left over. -/
theorem flush_unmarked {machine : Machine}
    (noError : machine.parser.httpErrno = .ok)
    (unmarked : machine.marks = .none) : machine.flush = some machine := by
  have called : ∀ field, machine.callbackData field [] = some machine := by
    intro field
    apply Machine.callbackData_unmarked noError
    rw [unmarked]
    cases field
    all_goals rfl
  unfold Machine.flush
  rw [guard_of (by rw [unmarked]; decide)]
  simp only [Option.bind_eq_bind, Option.bind_some, called]

/-- **Requests are read as they were written**: the callbacks for a buffer of
requests are those of the requests, in order, and the parser waits for the
next one without an error. -/
theorem requests_read (requests : List Request)
    (plain : ∀ request ∈ requests, request.Plain) :
    ∃ result, execute .init (requests.flatMap Request.text) = some result ∧
      result.calls = requests.flatMap Request.calls ∧
      result.parser.httpErrno = .ok ∧ result.parser.state = .startReq := by
  by_cases nothing : requests.flatMap Request.text = []
  · have none : requests = [] := by
      cases requests with
      | nil => rfl
      | cons request requests =>
          simp [Request.text, Request.head] at nothing
    rw [none]
    exact ⟨_, rfl, rfl, rfl, rfl⟩
  · obtain ⟨last, reads, info, -, calls, rest, -, isAt⟩ :=
      leads_requests requests plain [] _ between_start
    have ended : Lib.Scanner.loop Machine.turn Parser.init.start 0
        (requests.flatMap Request.text) = some (.reading last) := by
      rw [Machine.loop_eq_exec (Parser.start_sound init_rests rfl)]
      exact reads
    have flushed : last.flush = some last := by
      rw [isAt]
      exact flush_unmarked rfl rfl
    refine ⟨last.result, ?_, ?_, ?_, ?_⟩
    · unfold execute
      rw [if_neg (by exact not_not_intro rfl), if_neg nothing, ended]
      simp only [Option.bind_eq_bind, Option.bind_some, flushed]
    · rw [isAt]
      exact calls
    · rw [isAt]
      rfl
    · rw [isAt]
      rfl

def hostLine : HeaderLine where
  name := ascii "Host"
  blanks := ascii " "
  value := ascii "a"
  named := by decide +kernel
  areToken := by decide +kernel
  areBlank := by decide +kernel
  begins := by
    intro byte head
    obtain rfl : chr 'a' = byte := Option.some.inj head
    decide +kernel
  oneLine := by decide +kernel
  counts := fun isLength => absurd isLength (by decide +kernel)

def fourBytes : HeaderLine where
  name := ascii "Content-Length"
  blanks := ascii " "
  value := ascii "4"
  named := by decide +kernel
  areToken := by decide +kernel
  areBlank := by decide +kernel
  begins := by
    intro byte head
    obtain rfl : chr '4' = byte := Option.some.inj head
    decide +kernel
  oneLine := by decide +kernel
  counts := fun _ => ⟨4, by decide +kernel, by decide +kernel⟩

def getRoot : Request where
  method := .get
  target := ⟨chr '/', [], .inl rfl, nofun⟩
  version := ⟨chr '1', chr '1', by decide +kernel, by decide +kernel⟩
  lines := [hostLine]
  body := []
  parsed := by decide +kernel

def postLogin : Request where
  method := .post
  target := ⟨chr '/', ascii "login", .inl rfl, by decide +kernel⟩
  version := ⟨chr '1', chr '1', by decide +kernel, by decide +kernel⟩
  lines := [hostLine, fourBytes]
  body := ascii "name"
  parsed := by decide +kernel

theorem getRoot_plain : getRoot.Plain :=
  ⟨by decide +kernel, by decide +kernel, by decide +kernel, by decide +kernel,
    .inl ⟨rfl, by decide +kernel⟩⟩

theorem postLogin_plain : postLogin.Plain :=
  ⟨by decide +kernel, by decide +kernel, by decide +kernel, by decide +kernel,
    .inr ⟨by decide +kernel, by decide +kernel⟩⟩

/-- A request without a body and one with. -/
theorem requests_read_of_two :
    ∃ result, execute .init
        ([getRoot, postLogin].flatMap Request.text) = some result ∧
      result.calls = [getRoot, postLogin].flatMap Request.calls ∧
      result.parser.httpErrno = .ok ∧ result.parser.state = .startReq :=
  requests_read [getRoot, postLogin] (by
    intro request member
    rcases List.mem_pair.mp member with rfl | rfl
    · exact getRoot_plain
    · exact postLogin_plain)

end HttpParser

end ChatRoom
