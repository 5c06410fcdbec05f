import ChatRoom.Service.ParsedRequests

/-!
# What the parser has reported

Callbacks are only added: what the parser has reported of a buffer it reports
of every longer one.
-/

namespace ChatRoom

namespace HttpParser

open Lib.Scanner (Move Status Reads Leads loop single)

/-- The machine a case ends with. -/
def Exit.machine : Exit → Machine
  | .next machine | .error machine | .returned machine => machine

/-- The case keeps the callbacks that have been made. -/
def Grown (calls : List Call) : Option Exit → Prop
  | none => True
  | some exit => calls <+: exit.machine.calls

namespace Machine

variable {machine : Machine} {ch : UInt8} {calls : List Call}

@[simp] theorem mark_calls (machine : Machine) (field : Field) :
    (machine.mark field).calls = machine.calls := by
  rw [mark_eq]

theorem grown_guard {condition : Prop} [Decidable condition]
    {case : Unit → Option Exit} (grown : Grown calls (case ())) :
    Grown calls (guard condition >>= case) := by
  by_cases holds : condition
  · rw [guard_of holds]
    exact grown
  · rw [guard_not holds]
    exact trivial

theorem callbackData_longer {field : Field} {last : Str} {next : Machine}
    (called : machine.callbackData field last = some next) :
    machine.calls <+: next.calls := by
  by_cases noError : machine.parser.httpErrno = .ok
  · cases marked : machine.marks.get field with
    | none =>
        rw [callbackData_unmarked noError marked] at called
        cases called
        exact List.prefix_refl _
    | some text =>
        rw [callbackData_of noError marked] at called
        cases called
        exact List.prefix_append _ _
  · rw [callbackData_error noError] at called
    cases called

theorem grown_data {field : Field} {last : Str} {case : Machine → Option Exit}
    (longer : calls <+: machine.calls)
    (grown : ∀ next : Machine, calls <+: next.calls → Grown calls (case next)) :
    Grown calls (machine.callbackData field last >>= case) := by
  cases called : machine.callbackData field last with
  | none => exact trivial
  | some next => exact grown next (longer.trans (callbackData_longer called))

/-- A callback for the data of a field, and the case is done. -/
theorem grown_dataPass {field : Field} {last : Str}
    (longer : calls <+: machine.calls) :
    Grown calls (machine.callbackData field last >>= fun next => next.pass) :=
  grown_data longer fun _ grown => grown

theorem grown_messageDone (longer : calls <+: machine.calls) :
    Grown calls machine.messageDone := by
  unfold messageDone callbackNotify
  by_cases noError : machine.parser.httpErrno = .ok
  · rw [guard_of (by exact noError)]
    exact longer.trans (List.prefix_append _ _)
  · rw [guard_not (by exact noError)]
    exact trivial

theorem grown_expect {wanted : UInt8} {state : State} :
    Grown machine.calls (machine.expect ch wanted state) := by
  unfold expect
  split
  all_goals exact List.prefix_refl _

theorem grown_dead : Grown machine.calls (machine.dead ch) := by
  unfold dead
  split
  all_goals exact List.prefix_refl _

theorem grown_startReq : Grown machine.calls (machine.startReq ch) := by
  unfold startReq
  simp only
  split_ifs
  · exact List.prefix_refl _
  · exact List.prefix_refl _
  · split
    · exact List.prefix_refl _
    · exact grown_guard (List.prefix_refl _)

theorem grown_reqMethod : Grown machine.calls (machine.reqMethod ch) := by
  unfold reqMethod
  simp only
  split_ifs
  · exact List.prefix_refl _
  · cases (machine.parser.method.text ++ [Byte.nul])[machine.parser.index]? with
    | none => exact trivial
    | some expected =>
        simp only [Option.bind_eq_bind, Option.bind_some]
        split_ifs
        · exact List.prefix_refl _
        · exact List.prefix_refl _
        · split
          all_goals exact List.prefix_refl _

theorem grown_urlChar (longer : calls <+: machine.calls) :
    Grown calls (machine.urlChar ch) := by
  unfold urlChar
  simp only
  split_ifs
  all_goals exact longer

theorem grown_reqSpacesBeforeUrl :
    Grown machine.calls (machine.reqSpacesBeforeUrl ch) := by
  unfold reqSpacesBeforeUrl
  simp only
  have longer : machine.calls <+: (machine.mark .url).calls := by
    rw [mark_calls]
  split_ifs
  · exact List.prefix_refl _
  · exact grown_urlChar longer
  · exact grown_urlChar longer

theorem grown_reqSchema : Grown machine.calls (machine.reqSchema ch) := by
  unfold reqSchema
  split
  · exact List.prefix_refl _
  · exact grown_urlChar (List.prefix_refl _)

theorem grown_reqUrl : Grown machine.calls (machine.reqUrl ch) := by
  unfold reqUrl
  simp only
  split_ifs
  · exact grown_dataPass (List.prefix_refl _)
  · exact grown_dataPass (List.prefix_refl _)
  · exact grown_dataPass (List.prefix_refl _)
  · exact grown_urlChar (List.prefix_refl _)

theorem grown_reqHttpStart : Grown machine.calls (machine.reqHttpStart ch) := by
  unfold reqHttpStart
  split_ifs
  all_goals exact List.prefix_refl _

theorem grown_reqFirstHttpMajor :
    Grown machine.calls (machine.reqFirstHttpMajor ch) := by
  unfold reqFirstHttpMajor
  split_ifs
  all_goals exact List.prefix_refl _

theorem grown_reqHttpMajor : Grown machine.calls (machine.reqHttpMajor ch) := by
  unfold reqHttpMajor
  simp only
  split_ifs
  all_goals exact List.prefix_refl _

theorem grown_reqFirstHttpMinor :
    Grown machine.calls (machine.reqFirstHttpMinor ch) := by
  unfold reqFirstHttpMinor
  split_ifs
  all_goals exact List.prefix_refl _

theorem grown_reqHttpMinor : Grown machine.calls (machine.reqHttpMinor ch) := by
  unfold reqHttpMinor
  simp only
  split_ifs
  all_goals exact List.prefix_refl _

theorem grown_reqLineAlmostDone :
    Grown machine.calls (machine.reqLineAlmostDone ch) := by
  unfold reqLineAlmostDone
  split_ifs
  all_goals exact List.prefix_refl _

theorem grown_headersDone (longer : calls <+: machine.calls) :
    Grown calls (machine.headersDone ch) := by
  unfold headersDone callbackNotify
  simp only
  split_ifs
  · exact longer
  · by_cases noError : machine.parser.httpErrno = .ok
    · rw [guard_of (by exact noError)]
      exact longer.trans (List.prefix_append _ _)
    · rw [guard_not (by exact noError)]
      exact trivial
  · exact longer
  · exact grown_messageDone longer
  · exact longer
  · exact grown_messageDone longer

theorem grown_headersAlmostDone (longer : calls <+: machine.calls) :
    Grown calls (machine.headersAlmostDone ch) := by
  have more := longer.trans (List.prefix_append machine.calls [.headersComplete])
  unfold headersAlmostDone
  simp only
  split_ifs
  · exact longer
  · exact grown_messageDone longer
  · exact more
  · exact grown_headersDone more

theorem grown_headerFieldStart (longer : calls <+: machine.calls) :
    Grown calls (machine.headerFieldStart ch) := by
  have marked : calls <+: (machine.mark .headerField).calls := by
    rw [mark_calls]
    exact longer
  unfold headerFieldStart
  simp only
  split_ifs
  all_goals first
    | exact longer
    | exact marked
    | exact grown_headersAlmostDone longer

theorem grown_headerField : Grown machine.calls (machine.headerField ch) := by
  unfold headerField
  simp only
  split_ifs
  · cases matchField machine.parser ch (token ch) with
    | none => exact trivial
    | some parser => exact List.prefix_refl _
  all_goals first
    | exact List.prefix_refl _
    | exact grown_dataPass (List.prefix_refl _)

theorem grown_headerValueStart :
    Grown machine.calls (machine.headerValueStart ch) := by
  have marked : machine.calls <+: (machine.mark .headerValue).calls := by
    rw [mark_calls]
  unfold headerValueStart
  simp only
  split
  · exact List.prefix_refl _
  · split
    · exact grown_dataPass marked
    · split
      · exact grown_dataPass marked
      · split
        · exact marked
        · exact marked
        · split
          all_goals exact marked
        · exact marked
        · exact marked

theorem grown_headerAlmostDone (longer : calls <+: machine.calls) :
    Grown calls (machine.headerAlmostDone ch) := by
  unfold headerAlmostDone
  split
  all_goals exact longer

theorem grown_valueByte : Grown machine.calls (machine.valueByte ch) := by
  unfold valueByte
  simp only
  split
  · exact List.prefix_refl _
  · exact trivial
  · exact trivial
  · split_ifs
    · exact List.prefix_refl _
    · exact List.prefix_refl _
    · split
      all_goals exact List.prefix_refl _
  all_goals first
    | exact List.prefix_refl _
    | split_ifs <;> exact List.prefix_refl _

theorem grown_headerValue : Grown machine.calls (machine.headerValue ch) := by
  unfold headerValue
  split_ifs
  · exact grown_dataPass (List.prefix_refl _)
  · exact grown_data (List.prefix_refl _) fun _ => grown_headerAlmostDone
  · exact grown_valueByte

theorem grown_headerValueLws :
    Grown machine.calls (machine.headerValueLws ch) := by
  unfold headerValueLws
  split_ifs
  · exact List.prefix_refl _
  · exact grown_headerFieldStart (List.prefix_refl _)

/-! ## Bodies and chunks -/

/-- `Grown`, with the bytes that are taken. -/
theorem grown_taking {exit : Option Exit} (grown : Grown calls exit)
    (skip : ℕ) :
    Grown calls ((exit >>= fun exit => some (exit, skip)).map Prod.fst) := by
  cases exit with
  | none => exact trivial
  | some exit => exact grown

theorem grown_bodyIdentity (rest : Str) :
    Grown machine.calls ((machine.bodyIdentity ch rest).map Prod.fst) := by
  have marked : machine.calls <+: (machine.mark .body).calls := by
    rw [mark_calls]
  unfold bodyIdentity
  simp only
  by_cases inside : machine.parser.contentLength ≠ 0 ∧
      machine.parser.contentLength ≠ ullongMax
  · rw [guard_of inside]
    simp only [Option.bind_eq_bind, Option.bind_some]
    split_ifs
    · generalize last : List.take _ _ = text
      clear last
      cases called : callbackData _ .body text with
      | none => exact trivial
      | some next =>
          have longer := callbackData_longer called
          exact grown_taking (grown_messageDone (marked.trans longer)) _
    · exact marked
  · rw [guard_not inside]
    exact trivial

theorem grown_chunkSizeStart :
    Grown machine.calls (machine.chunkSizeStart ch) := by
  unfold chunkSizeStart
  apply grown_guard
  apply grown_guard
  split
  all_goals exact List.prefix_refl _

theorem grown_chunkSize : Grown machine.calls (machine.chunkSize ch) := by
  unfold chunkSize
  apply grown_guard
  split
  · exact List.prefix_refl _
  · split
    · split
      all_goals exact List.prefix_refl _
    · split
      all_goals exact List.prefix_refl _

theorem grown_chunkParameters :
    Grown machine.calls (machine.chunkParameters ch) := by
  unfold chunkParameters
  apply grown_guard
  split_ifs
  all_goals exact List.prefix_refl _

theorem grown_chunkSizeAlmostDone :
    Grown machine.calls (machine.chunkSizeAlmostDone ch) := by
  unfold chunkSizeAlmostDone
  apply grown_guard
  simp only
  split_ifs
  all_goals exact List.prefix_refl _

theorem grown_chunkData (rest : Str) :
    Grown machine.calls ((machine.chunkData rest).map Prod.fst) := by
  have marked : machine.calls <+: (machine.mark .body).calls := by
    rw [mark_calls]
  unfold chunkData
  simp only
  by_cases chunked : machine.parser.flags.chunked = true
  · by_cases inside : machine.parser.contentLength ≠ 0 ∧
        machine.parser.contentLength ≠ ullongMax
    · rw [guard_of chunked, guard_of inside]
      simp only [Option.bind_eq_bind, Option.bind_some]
      split_ifs
      all_goals exact marked
    · rw [guard_of chunked, guard_not inside]
      exact trivial
  · rw [guard_not chunked]
    exact trivial

theorem grown_chunkDataAlmostDone :
    Grown machine.calls (machine.chunkDataAlmostDone ch) := by
  unfold chunkDataAlmostDone
  apply grown_guard
  apply grown_guard
  split_ifs
  · exact List.prefix_refl _
  · exact grown_dataPass (List.prefix_refl _)

theorem grown_chunkDataDone :
    Grown machine.calls (machine.chunkDataDone ch) := by
  unfold chunkDataDone
  apply grown_guard
  split_ifs
  all_goals exact List.prefix_refl _

/-! ## The loop -/

theorem grown_oneByte {exit : Option Exit} (grown : Grown calls exit) :
    Grown calls ((oneByte exit).map Prod.fst) := by
  cases exit with
  | none => exact trivial
  | some exit => exact grown

theorem grown_dispatch (machine : Machine) (ch : UInt8) (rest : Str) :
    Grown machine.calls ((machine.dispatch ch rest).map Prod.fst) := by
  have same := List.prefix_refl machine.calls
  unfold dispatch
  split
  · exact grown_oneByte grown_dead
  · exact grown_oneByte grown_startReq
  · exact grown_oneByte grown_reqMethod
  · exact grown_oneByte grown_reqSpacesBeforeUrl
  iterate 4 exact grown_oneByte grown_reqSchema
  iterate 7 exact grown_oneByte grown_reqUrl
  · exact grown_oneByte grown_reqHttpStart
  iterate 4 exact grown_oneByte grown_expect
  · exact grown_oneByte grown_reqFirstHttpMajor
  · exact grown_oneByte grown_reqHttpMajor
  · exact grown_oneByte grown_reqFirstHttpMinor
  · exact grown_oneByte grown_reqHttpMinor
  · exact grown_oneByte grown_reqLineAlmostDone
  · exact grown_oneByte (grown_headerFieldStart same)
  · exact grown_oneByte grown_headerField
  · exact grown_oneByte grown_headerValueStart
  · exact grown_oneByte grown_headerValue
  · exact grown_oneByte grown_headerValueLws
  · exact grown_oneByte (grown_headerAlmostDone same)
  · exact grown_oneByte (grown_headersAlmostDone same)
  · exact grown_oneByte (grown_headersDone same)
  · exact grown_bodyIdentity rest
  · exact grown_oneByte (grown_messageDone same)
  · exact grown_oneByte grown_chunkSizeStart
  · exact grown_oneByte grown_chunkSize
  · exact grown_oneByte grown_chunkParameters
  · exact grown_oneByte grown_chunkSizeAlmostDone
  · exact grown_chunkData rest
  · exact grown_oneByte grown_chunkDataAlmostDone
  · exact grown_oneByte grown_chunkDataDone

/-- The callbacks a scanner has made, reading or not. -/
def callsOf : Status Machine → List Call
  | .reading machine => machine.calls
  | .left machine => machine.calls

theorem turn_calls {rest : Str} {move : Move Machine}
    (turned : machine.turn ch rest = some move) :
    machine.calls <+: callsOf move.status := by
  have counted : machine.counted.calls = machine.calls := by
    unfold counted
    split_ifs
    all_goals rfl
  unfold turn at turned
  simp only at turned
  split at turned
  · cases turned
    exact counted ▸ List.prefix_refl _
  · have grown := grown_dispatch machine.counted ch rest
    rw [counted] at grown
    cases dispatched : machine.counted.dispatch ch rest with
    | none =>
        rw [dispatched] at turned
        cases turned
    | some taken =>
        rw [dispatched] at turned grown
        cases turned
        obtain ⟨exit, skip⟩ := taken
        cases exit
        all_goals exact grown

theorem single_calls {status next : Status Machine}
    (taken : single turn status ch = some next) :
    callsOf status <+: callsOf next := by
  cases status with
  | left machine =>
      cases taken
      exact List.prefix_refl _
  | reading machine =>
      obtain ⟨move, turned, same⟩ := Option.map_eq_some_iff.mp taken
      rw [← same]
      exact turn_calls turned

/-- **Callbacks are only added**, over any bytes. -/
theorem exec_calls {text : Str} {status next : Status Machine}
    (ran : Lib.exec (single turn) status text = some next) :
    callsOf status <+: callsOf next := by
  induction text generalizing status with
  | nil =>
      cases ran
      exact List.prefix_refl _
  | cons ch text induction =>
      obtain ⟨middle, taken, rest⟩ := Lib.exec_cons_iff.mp ran
      exact (single_calls taken).trans (induction rest)

end Machine

/-! ## A buffer that ends within a request -/

/-- Behind the last byte only data are handed over. -/
theorem callbackData_complete {machine next : Machine} {field : Field}
    {last : Str} (called : machine.callbackData field last = some next)
    (incomplete : .messageComplete ∉ machine.calls) :
    .messageComplete ∉ next.calls := by
  by_cases noError : machine.parser.httpErrno = .ok
  · cases marked : machine.marks.get field with
    | none =>
        rw [Machine.callbackData_unmarked noError marked] at called
        cases called
        exact incomplete
    | some text =>
        rw [Machine.callbackData_of noError marked] at called
        cases called
        simpa using incomplete
  · rw [Machine.callbackData_error noError] at called
    cases called

theorem flush_complete {machine next : Machine}
    (flushed : machine.flush = some next)
    (incomplete : .messageComplete ∉ machine.calls) :
    .messageComplete ∉ next.calls := by
  unfold Machine.flush at flushed
  obtain ⟨-, -, flushed⟩ := Option.bind_eq_some_iff.mp flushed
  obtain ⟨first, firstCall, flushed⟩ := Option.bind_eq_some_iff.mp flushed
  obtain ⟨second, secondCall, flushed⟩ := Option.bind_eq_some_iff.mp flushed
  obtain ⟨third, thirdCall, lastCall⟩ := Option.bind_eq_some_iff.mp flushed
  exact callbackData_complete lastCall (callbackData_complete thirdCall
    (callbackData_complete secondCall
      (callbackData_complete firstCall incomplete)))

/-- A part of a request is no complete message. -/
theorem part_incomplete {request : Request} (plain : request.Plain)
    {part : Str} (isPart : part <+: request.text) (strict : part ≠ request.text)
    {result : Result} (called : execute .init part = some result) :
    .messageComplete ∉ result.calls := by
  obtain ⟨front, last, text, leads⟩ := leads_requestFront request plain
  obtain ⟨next, reads, made, calls, incomplete⟩ := leads [] _ between_start
  have inFront : part <+: front := by
    rw [text, List.prefix_concat_iff] at isPart
    exact isPart.resolve_left (text ▸ strict)
  obtain ⟨rest, rfl⟩ := inFront
  rw [Reads, Lib.exec_append] at reads
  obtain ⟨status, reached, behind⟩ := Option.bind_eq_some_iff.mp reads
  have fewer := Machine.exec_calls behind
  rw [Machine.callsOf, calls, List.nil_append] at fewer
  unfold execute at called
  rw [if_neg (by exact not_not_intro rfl)] at called
  split at called
  · cases called
    exact List.not_mem_nil
  · rw [Machine.loop_eq_exec (Parser.start_sound init_rests rfl), reached]
      at called
    cases status with
    | left machine =>
        cases called
        exact fun complete => incomplete (fewer.subset complete)
    | reading machine =>
        change (machine.flush.bind fun final => some final.result) = _ at called
        obtain ⟨final, flushed, same⟩ := Option.bind_eq_some_iff.mp called
        cases same
        exact flush_complete flushed
          fun complete => incomplete (fewer.subset complete)

end HttpParser

end ChatRoom
