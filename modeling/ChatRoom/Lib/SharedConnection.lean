import ChatRoom.Lib.Run
import Mathlib.Logic.Function.Basic

/-!
# Clients that share one connection

A connection carries requests in order and answers them in order.  Clients
write their request and take the next reply, without knowing of one another,
so a client may take the reply to a request of another.  The main result says
that nobody does exactly when the replies are taken in the order in which the
requests were written.
-/

namespace Lib

/-- What a client still has to do: send requests, one after the other, and
decide by the replies.  `halt` leaves the connection for good. -/
inductive Script (Request Reply Result : Type) where
  | done (result : Result)
  | halt
  | send (request : Request) (next : Reply → Script Request Reply Result)

namespace SharedConnection

variable {Name Server Request Reply Result : Type}

/-- A client between two requests, or waiting for the reply to the request it
has written, of the given number. -/
inductive Client (Request Reply Result : Type) where
  | running (script : Script Request Reply Result)
  | waiting (number : Nat) (next : Reply → Script Request Reply Result)

/-- The connection.  Requests and replies carry the number of the request;
behind them stand the clients in the order of their writes and of their reads,
and for each read the number of its own request with that of the reply. -/
structure State (Name Server Request Reply Result : Type) where
  server : Server
  unanswered : List (Nat × Request)
  replies : List (Nat × Reply)
  clients : Name → Client Request Reply Result
  writers : List Name
  readers : List Name
  matched : List (Nat × Nat)

inductive Event (Name Request Reply Result : Type) where
  | start (name : Name) (script : Script Request Reply Result)
  | write (name : Name)
  | answer
  | read (name : Name)

variable [DecidableEq Name]

/-- One step over the connection; `serve` is what the server does. -/
def step (serve : Server → Request → Server × Reply)
    (state : State Name Server Request Reply Result) :
    Event Name Request Reply Result →
      Option (State Name Server Request Reply Result)
  | .start name script =>
      match state.clients name with
      | .running (.done _) =>
          some { state with
            clients := Function.update state.clients name (.running script) }
      | _ => none
  | .write name =>
      match state.clients name with
      | .running (.send request next) =>
          let number := state.writers.length
          some { state with
            unanswered := state.unanswered ++ [(number, request)]
            clients := Function.update state.clients name (.waiting number next)
            writers := state.writers ++ [name] }
      | _ => none
  | .answer =>
      match state.unanswered with
      | [] => none
      | (number, request) :: rest =>
          let (server, reply) := serve state.server request
          some { state with
            server := server
            unanswered := rest
            replies := state.replies ++ [(number, reply)] }
  | .read name =>
      match state.clients name, state.replies with
      | .waiting own next, (number, reply) :: rest =>
          some { state with
            replies := rest
            clients := Function.update state.clients name (.running (next reply))
            readers := state.readers ++ [name]
            matched := (own, number) :: state.matched }
      | _, _ => none

/-- All clients are at rest on a fresh connection. -/
def start (server : Server) (result : Result) :
    State Name Server Request Reply Result :=
  ⟨server, [], [], fun _ => .running (.done result), [], [], []⟩

/-- Every client has read the replies to its own requests. -/
def OwnReplies (state : State Name Server Request Reply Result) : Prop :=
  ∀ own number, (own, number) ∈ state.matched → number = own

/-- Replies are read in the order in which the requests were written. -/
def guard (state : State Name Server Request Reply Result) :
    Event Name Request Reply Result → Prop
  | .read name => state.readers ++ [name] <+: state.writers
  | _ => True

/-- In front of every step of a run that goes well: the requests on their way
are numbered from the number of the reads on, and each of them has its writer
waiting for it, and nobody else. -/
structure InOrder (state : State Name Server Request Reply Result) : Prop where
  own : OwnReplies state
  sofar : state.readers <+: state.writers
  numbered : (state.replies.map Prod.fst) ++ (state.unanswered.map Prod.fst) =
    List.range' state.readers.length
      (state.writers.length - state.readers.length)
  writer : ∀ name number next, state.clients name = .waiting number next →
    state.writers[number]? = some name ∧ state.readers.length ≤ number
  awaited : ∀ number name, state.readers.length ≤ number →
    state.writers[number]? = some name →
    ∃ next, state.clients name = .waiting number next

/-! ## One step -/

omit [DecidableEq Name] in
theorem prefix_concat_iff {first second : List Name} {name : Name}
    (sofar : first <+: second) :
    first ++ [name] <+: second ↔ second[first.length]? = some name := by
  obtain ⟨rest, rfl⟩ := sofar
  rw [List.prefix_append_right_inj, List.getElem?_append_right (Nat.le_refl _),
    Nat.sub_self]
  cases rest with
  | nil => simp
  | cons head rest =>
      simp [List.cons_prefix_cons, eq_comm]

section Steps

variable {state : State Name Server Request Reply Result} {name : Name}

omit [DecidableEq Name] in
/-- The next reply is that to the oldest request whose reply is not read. -/
theorem InOrder.oldest {first : Nat × Reply} {rest : List (Nat × Reply)}
    (inOrder : InOrder state) (isNext : state.replies = first :: rest) :
    first.1 = state.readers.length ∧
    (rest.map Prod.fst) ++ (state.unanswered.map Prod.fst) =
      List.range' (state.readers.length + 1)
        (state.writers.length - (state.readers.length + 1)) := by
  have numbered := inOrder.numbered
  rw [isNext, List.map_cons, List.cons_append] at numbered
  cases outstanding : state.writers.length - state.readers.length with
  | zero =>
      rw [outstanding] at numbered
      cases numbered
  | succ count =>
      rw [outstanding, List.range'_succ] at numbered
      obtain ⟨isFirst, others⟩ := List.cons.inj numbered
      refine ⟨isFirst, ?_⟩
      rw [others]
      congr 1
      omega

/-- A client that starts a script was not waiting and does not wait. -/
theorem InOrder.start (inOrder : InOrder state) {result : Result}
    (atRest : state.clients name = .running (.done result))
    (script : Script Request Reply Result) :
    InOrder { state with
      clients := Function.update state.clients name (.running script) } := by
  refine ⟨inOrder.own, inOrder.sofar, inOrder.numbered, ?_, ?_⟩
  · intro other number next waits
    have different : other ≠ name := by
      intro same
      rw [same] at waits
      simp at waits
    simp only [Function.update_of_ne different] at waits
    exact inOrder.writer other number next waits
  · intro number other unread isWriter
    obtain ⟨next, waits⟩ := inOrder.awaited number other unread isWriter
    have different : other ≠ name := by
      intro same
      rw [same, atRest] at waits
      cases waits
    exact ⟨next, by simpa only [Function.update_of_ne different] using waits⟩

theorem InOrder.write (inOrder : InOrder state) {request : Request}
    {next : Reply → Script Request Reply Result}
    (sends : state.clients name = .running (.send request next)) :
    InOrder { state with
      unanswered := state.unanswered ++ [(state.writers.length, request)]
      clients :=
        Function.update state.clients name (.waiting state.writers.length next)
      writers := state.writers ++ [name] } := by
  have shorter := inOrder.sofar.length_le
  constructor
  · exact inOrder.own
  · exact inOrder.sofar.trans (List.prefix_append _ _)
  · have longer : (state.writers ++ [name]).length - state.readers.length =
        state.writers.length - state.readers.length + 1 := by
      simp only [List.length_append, List.length_singleton]
      omega
    simp only [List.map_append, List.map_cons, List.map_nil, longer]
    rw [← List.append_assoc, inOrder.numbered, List.range'_1_concat]
    congr 2
    omega
  · intro other number other' waits
    by_cases same : other = name
    · subst same
      simp only [Function.update_self, Client.waiting.injEq] at waits
      obtain ⟨rfl, -⟩ := waits
      exact ⟨by simp, shorter⟩
    · simp only [Function.update_of_ne same] at waits
      obtain ⟨isWriter, unread⟩ := inOrder.writer other number other' waits
      have inside := (List.getElem?_eq_some_iff.mp isWriter).1
      refine ⟨?_, unread⟩
      rw [List.getElem?_append_left inside]
      exact isWriter
  · intro number other unread isWriter
    by_cases inside : number < state.writers.length
    · rw [List.getElem?_append_left inside] at isWriter
      obtain ⟨earlier, waits⟩ := inOrder.awaited number other unread isWriter
      have different : other ≠ name := by
        intro same
        rw [same, sends] at waits
        cases waits
      exact ⟨earlier, by simpa only [Function.update_of_ne different] using waits⟩
    · have atEnd : number = state.writers.length := by
        have bound := (List.getElem?_eq_some_iff.mp isWriter).1
        simp only [List.length_append, List.length_singleton] at bound
        omega
      rw [atEnd, List.getElem?_concat_length, Option.some.injEq] at isWriter
      rw [← isWriter, atEnd]
      exact ⟨next, Function.update_self _ _ _⟩

omit [DecidableEq Name] in
theorem InOrder.answer (inOrder : InOrder state) {number : Nat}
    {request : Request} {rest : List (Nat × Request)}
    (isNext : state.unanswered = (number, request) :: rest) (server : Server)
    (reply : Reply) :
    InOrder { state with
      server := server
      unanswered := rest
      replies := state.replies ++ [(number, reply)] } := by
  refine ⟨inOrder.own, inOrder.sofar, ?_, inOrder.writer, inOrder.awaited⟩
  rw [← inOrder.numbered, isNext]
  simp

omit [DecidableEq Name] in
/-- A client reads the reply to its own request exactly when its request is
the oldest whose reply is not read. -/
theorem InOrder.read_own_iff (inOrder : InOrder state) {own : Nat}
    {next : Reply → Script Request Reply Result}
    (waits : state.clients name = .waiting own next) :
    state.readers.length = own ↔ state.readers ++ [name] <+: state.writers := by
  rw [prefix_concat_iff inOrder.sofar]
  constructor
  · intro isOwn
    rw [isOwn]
    exact (inOrder.writer name own next waits).1
  · intro isWriter
    obtain ⟨other, same⟩ := inOrder.awaited _ name (Nat.le_refl _) isWriter
    rw [waits] at same
    cases same
    rfl

theorem InOrder.read (inOrder : InOrder state) {number own : Nat}
    {reply : Reply} {rest : List (Nat × Reply)}
    {next : Reply → Script Request Reply Result}
    (waits : state.clients name = .waiting own next)
    (isNext : state.replies = (number, reply) :: rest)
    (inTurn : state.readers ++ [name] <+: state.writers) :
    InOrder { state with
      replies := rest
      clients := Function.update state.clients name (.running (next reply))
      readers := state.readers ++ [name]
      matched := (own, number) :: state.matched } := by
  obtain ⟨isOldest, others⟩ := inOrder.oldest isNext
  have isOwn := (inOrder.read_own_iff waits).mpr inTurn
  have longer : (state.readers ++ [name]).length = state.readers.length + 1 := by
    simp
  have isReader := (prefix_concat_iff inOrder.sofar).mp inTurn
  constructor
  · intro first second member
    rcases List.mem_cons.mp member with latest | earlier
    · cases latest
      exact isOldest.trans isOwn
    · exact inOrder.own first second earlier
  · exact inTurn
  · simp only [longer]
    exact others
  · intro other outstanding waiting stillWaits
    have different : other ≠ name := by
      intro same
      rw [same] at stillWaits
      simp at stillWaits
    simp only [Function.update_of_ne different] at stillWaits
    obtain ⟨isWriter, unread⟩ :=
      inOrder.writer other outstanding waiting stillWaits
    refine ⟨isWriter, ?_⟩
    have notRead : outstanding ≠ state.readers.length := by
      intro same
      rw [same, isReader, Option.some.injEq] at isWriter
      exact different isWriter.symm
    rw [longer]
    omega
  · intro outstanding other unread isWriter
    rw [longer] at unread
    obtain ⟨waiting, stillWaits⟩ :=
      inOrder.awaited outstanding other (by omega) isWriter
    have different : other ≠ name := by
      intro same
      rw [same, waits] at stillWaits
      cases stillWaits
      omega
    exact ⟨waiting, by simpa only [Function.update_of_ne different] using stillWaits⟩

/-- Every step in which replies are read in turn keeps the order. -/
theorem InOrder.step {serve : Server → Request → Server × Reply}
    {next : State Name Server Request Reply Result}
    {event : Event Name Request Reply Result} (inOrder : InOrder state)
    (guarded : guard state event)
    (taken : SharedConnection.step serve state event = some next) :
    InOrder next := by
  cases event with
  | start name script =>
      simp only [SharedConnection.step] at taken
      split at taken
      · rename_i result atRest
        cases taken
        exact inOrder.start atRest script
      · cases taken
  | write name =>
      simp only [SharedConnection.step] at taken
      split at taken
      · rename_i request later sends
        cases taken
        exact inOrder.write sends
      · cases taken
  | answer =>
      simp only [SharedConnection.step] at taken
      split at taken
      · cases taken
      · rename_i number request rest isNext
        cases taken
        exact inOrder.answer isNext _ _
  | read name =>
      simp only [SharedConnection.step] at taken
      split at taken
      · rename_i own later number reply rest waits isNext
        cases taken
        exact inOrder.read waits isNext guarded
      · cases taken

/-- A step that leaves every client with its own replies reads in turn. -/
theorem InOrder.guard_of_own {serve : Server → Request → Server × Reply}
    {next : State Name Server Request Reply Result}
    {event : Event Name Request Reply Result} (inOrder : InOrder state)
    (taken : SharedConnection.step serve state event = some next)
    (own : OwnReplies next) : guard state event := by
  cases event with
  | read name =>
      simp only [SharedConnection.step] at taken
      split at taken
      · rename_i ownNumber later number reply rest waits isNext
        cases taken
        have isOwn := own ownNumber number List.mem_cons_self
        have isOldest := (inOrder.oldest isNext).1
        exact (inOrder.read_own_iff waits).mp (isOldest.symm.trans isOwn)
      · cases taken
  | _ => trivial

end Steps

omit [DecidableEq Name] in
theorem inOrder_start (server : Server) (result : Result) :
    InOrder (start server result :
      State Name Server Request Reply Result) := by
  constructor
  · intro own number member
    cases member
  · exact List.prefix_refl _
  · rfl
  · intro name number next waits
    cases waits
  · intro number name _ isWriter
    cases isWriter

/-- On a shared connection, every client reads the replies to its own requests
exactly in the runs in which replies are read in the order of the writes. -/
theorem own_replies_iff (serve : Server → Request → Server × Reply)
    (server : Server) (result : Result)
    (events : List (Event Name Request Reply Result)) :
    Always (step serve) OwnReplies (start server result) events ↔
      Meets (step serve) guard (start server result) events := by
  apply always_iff_meets _ _ _ (inOrder_start server result)
  · intro state inOrder
    exact inOrder.own
  · intro state next event inOrder guarded taken
    exact inOrder.step guarded taken
  · intro state next event inOrder taken own
    exact inOrder.guard_of_own taken own

end SharedConnection

end Lib
