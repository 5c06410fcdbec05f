import ChatRoom.Logic.HttpServer
import Mathlib.Data.List.Nodup
import Mathlib.Order.Monotone.Basic

/-!
# The ids of one request

`handleSend` makes an id of the clock alone: the comment at it promises an
index, and `-0` stands in its place.  Messages of one request are told apart
when the millisecond changes between them.
-/

namespace ChatRoom

namespace Logic

namespace HttpServer

/-- The readings of a clock that does not go back. -/
structure Clock where
  reading : Nat → Nat
  forward : Monotone reading

/-- A request with a body that `handleSend` gets through. -/
structure SendRequest (cpp : JsonCpp) extends Request where
  json : Json
  parsed : cpp.parse body = some json
  sendable : Sendable cpp json

namespace SendRequest

variable {cpp : JsonCpp} (request : SendRequest cpp)

/-- The elements of `messages` that have a content. -/
def withContent : List Json :=
  ((request.json.get (ascii "messages")).getD .null).elements.filter
    fun message => message.isMember (ascii "content") = some true

/-- A `PushMsg` is made of the elements with a content, in order and with
their content, and no two of its messages share an id. -/
def OwnIds (outcome : Option PushMsg) : Prop :=
  ∃ push, outcome = some push ∧
    push.messages.map (fun message => message.get (ascii "content")) =
      request.withContent.map (fun message =>
        (message.get (ascii "content") >>= (·.asString cpp)).map
          Json.string) ∧
    (push.messages.map idOf).Nodup

/-- The millisecond changes between each two neighbouring messages. -/
def Ticks (clock : Clock) : Prop :=
  ∀ index, index + 1 < request.withContent.length →
    clock.reading (2 * index) / 1000 ≠ clock.reading (2 * (index + 1)) / 1000

end SendRequest

/-! ## The contents -/

theorem content_messageObj {cpp : JsonCpp} {idTime stampTime : Nat}
    {json message object : Json}
    (built : messageObj cpp idTime stampTime json message = some object) :
    object.get (ascii "content") =
      (message.get (ascii "content") >>= (·.asString cpp)).map
        Json.string := by
  simp only [messageObj, Option.bind_eq_bind, Option.bind_eq_some_iff,
    Option.some.injEq] at built
  obtain ⟨content, ⟨value, isValue, converts⟩, userId, -, userName, -, rfl⟩ :=
    built
  rw [isValue]
  simp [Json.get, converts]

/-- The loop keeps the elements with a content, in order. -/
theorem contents_messagesArray {cpp : JsonCpp} {clock : Nat → Nat}
    {json : Json} {turn : Nat} {messages objects : List Json}
    (built : messagesArray cpp clock json turn messages = some objects) :
    objects.map (fun message => message.get (ascii "content")) =
      (messages.filter fun message =>
        message.isMember (ascii "content") = some true).map fun message =>
          (message.get (ascii "content") >>= (·.asString cpp)).map
            Json.string := by
  induction messages generalizing turn objects with
  | nil =>
      simp only [messagesArray, Option.some.injEq] at built
      rw [← built]
      rfl
  | cons message messages induction =>
      simp only [messagesArray, Option.bind_eq_bind,
        Option.bind_eq_some_iff] at built
      obtain ⟨hasContent, isMember, built⟩ := built
      rw [List.filter_cons, isMember]
      cases hasContent with
      | false => simpa using induction built
      | true =>
          simp only [if_true, Option.bind_eq_some_iff,
            Option.some.injEq] at built
          obtain ⟨object, first, later, rest, rfl⟩ := built
          simp [content_messageObj first, induction rest]

/-! ## The ids -/

theorem messageId_eq_iff {first second : Nat} :
    messageId first = messageId second ↔ first / 1000 = second / 1000 := by
  constructor
  · intro same
    have digits := List.append_cancel_right same
    have values := congrArg digitsValue digits
    rwa [digitsValue_decimal, digitsValue_decimal] at values
  · intro same
    rw [messageId, same, messageId]

/-- Values that do not go down are told apart when neighbours are. -/
theorem injOn_range_iff {value : Nat → Nat} (forward : Monotone value)
    (count : Nat) :
    (∀ first ∈ List.range count, ∀ second ∈ List.range count,
      value first = value second → first = second) ↔
      ∀ index, index + 1 < count → value index ≠ value (index + 1) := by
  constructor
  · intro injective index inside same
    have equal := injective index (List.mem_range.mpr (by omega)) (index + 1)
      (List.mem_range.mpr inside) same
    omega
  · intro ticks
    have smaller : ∀ first second, second < count → first < second →
        value first ≠ value second := by
      intro first second inside less same
      have next := forward (Nat.le_succ first)
      have rest := forward (Nat.succ_le_of_lt less)
      apply ticks first (Nat.lt_of_le_of_lt less inside)
      exact le_antisymm next (same ▸ rest)
    intro first firstInside second secondInside same
    rw [List.mem_range] at firstInside secondInside
    rcases lt_trichotomy first second with less | equal | greater
    · exact absurd same (smaller first second secondInside less)
    · exact equal
    · exact absurd same.symm (smaller second first firstInside greater)

/-- The ids of `count` messages differ when the millisecond changes between
neighbours. -/
theorem nodup_ids_iff (clock : Clock) (count : Nat) :
    ((List.range count).map fun index =>
        some (messageId (clock.reading (2 * index)))).Nodup ↔
      ∀ index, index + 1 < count →
        clock.reading (2 * index) / 1000 ≠
          clock.reading (2 * (index + 1)) / 1000 := by
  have forward : Monotone fun index => clock.reading (2 * index) / 1000 := by
    intro first second less
    apply Nat.div_le_div_right
    apply clock.forward
    omega
  rw [List.nodup_map_iff_inj_on List.nodup_range, ← injOn_range_iff forward]
  simp only [Option.some.injEq, messageId_eq_iff]

/-! ## The request -/

/-- What `onMessage` makes of the request. -/
theorem onMessage_text {cpp : JsonCpp} (request : SendRequest cpp)
    (clock : Nat → Nat) :
    Logic.onMessage cpp clock request.text =
      pushMsgOf cpp clock request.json := by
  have marker : splitFirst (ascii "POST /logic/send") request.text ≠ none := by
    have read : (⟨request.text, clock, true, true⟩ : Read).data =
        request.text := rfl
    exact not_refused_of_text read
  obtain ⟨found, isFound⟩ := Option.ne_none_iff_exists'.mp marker
  obtain ⟨method, path, split⟩ := parseHttpRequest_text request.toRequest
  have hasAll : hasFields request.json = some true :=
    hasFields_eq_true_iff.mpr request.sendable.fields
  simp [Logic.onMessage, isFound, handleSend_eq, split, request.parsed, hasAll]

/-- Exactly the requests whose messages have ids of their own: the millisecond
changes between neighbours. -/
theorem ownIds_iff {cpp : JsonCpp} (request : SendRequest cpp)
    (clock : Clock) :
    request.OwnIds (Logic.onMessage cpp clock.reading request.text) ↔
      request.Ticks clock := by
  have made := (pushMsgOf_isSome_iff clock.reading
    request.sendable.fields).mpr request.sendable
  obtain ⟨push, isPush⟩ := Option.isSome_iff_exists.mp made
  have isMessage := (onMessage_text request clock.reading).trans isPush
  have ids := idOf_onMessage isMessage
  have contents : push.messages.map (fun message =>
      message.get (ascii "content")) =
        request.withContent.map fun message =>
          (message.get (ascii "content") >>= (·.asString cpp)).map
            Json.string := by
    simp only [pushMsgOf, Option.bind_eq_bind, Option.bind_eq_some_iff,
      Option.some.injEq] at isPush
    obtain ⟨room, -, messages, isMessages, objects, built, rfl⟩ := isPush
    have kept := contents_messagesArray built
    rw [SendRequest.withContent, isMessages]
    exact kept
  have sameLength : push.messages.length = request.withContent.length := by
    have lengths := congrArg List.length contents
    rwa [List.length_map, List.length_map] at lengths
  rw [SendRequest.Ticks, ← sameLength, ← nodup_ids_iff, ← ids]
  constructor
  · rintro ⟨other, isOther, -, distinct⟩
    rw [isMessage, Option.some.injEq] at isOther
    rw [isOther]
    exact distinct
  · intro distinct
    exact ⟨push, isMessage, contents, distinct⟩

/-! ## Two messages in one millisecond -/

def twoBody : Str :=
  ascii ("\x7b\"roomId\":\"0001\",\"userId\":7,\"userName\":\"amy\"," ++
    "\"messages\":[\x7b\"content\":\"a\"\x7d,\x7b\"content\":\"b\"\x7d]\x7d")

def twoMessages : Json := .object [
  (ascii "messages", .array [
    .object [(ascii "content", .string (ascii "a"))],
    .object [(ascii "content", .string (ascii "b"))]]),
  (ascii "roomId", .string (ascii "0001")), (ascii "userId", .int 7),
  (ascii "userName", .string (ascii "amy"))]

/-- jsoncpp on the text of the body. -/
def twoReader : JsonCpp where
  parse text := if text = twoBody then some twoMessages else none
  writeString _ := []
  fastWrite _ := []
  realText _ := []

def twoRequest : SendRequest twoReader where
  head := ascii " HTTP/1.1\r\nContent-Length: 90"
  body := twoBody
  hasVersion := by decide
  endsHead := by decide +kernel
  json := twoMessages
  parsed := by simp [twoReader]
  sendable := by
    refine ⟨by decide, by decide, ?_⟩
    intro messages isMessages
    have isArray : twoMessages.get (ascii "messages") = some (.array [
        .object [(ascii "content", .string (ascii "a"))],
        .object [(ascii "content", .string (ascii "b"))]]) := by
      simp [twoMessages, Json.get]
    rw [isArray, Option.some.injEq] at isMessages
    have user : (twoMessages.get (ascii "userId") >>= (·.asInt)).isSome ∧
        (twoMessages.get (ascii "userName") >>=
          (·.asString twoReader)).isSome := by
      decide
    intro message member
    rw [← isMessages, Json.elements, List.mem_pair] at member
    rcases member with rfl | rfl
    · exact ⟨.inr (by decide), fun _ => user⟩
    · exact ⟨.inr (by decide), fun _ => user⟩

/-- A clock that stands at 5 ms. -/
def standing : Clock where
  reading _ := 5000
  forward := monotone_const

/-- Both messages get the id `5-0`. -/
theorem twoRequest_shares_id :
    ¬ twoRequest.OwnIds
      (Logic.onMessage twoReader standing.reading twoRequest.text) := by
  rintro ⟨push, isMessage, contents, distinct⟩
  have ids := idOf_onMessage isMessage
  have isTwo : push.messages.length = 2 := by
    have lengths := congrArg List.length contents
    rw [List.length_map, List.length_map] at lengths
    exact lengths
  rw [ids, isTwo] at distinct
  exact absurd distinct (by decide)

end HttpServer

end Logic

end ChatRoom
