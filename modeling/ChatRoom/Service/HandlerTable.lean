import ChatRoom.Lib.Run
import Mathlib.Algebra.Group.Nat.Defs
import Mathlib.Data.List.Nodup
import Mathlib.Logic.Function.Basic

/-!
# The table of connection handlers

`HttpServer` numbers its connections with a 32-bit counter, keeps the number
in the muduo context of the connection, and the handler in a map under that
number.  The disconnect branch reads the context with `std::any_cast`, which
always throws, so no handler is ever erased.
-/

namespace ChatRoom

namespace HandlerTable

/-- The `boost::any` of a muduo connection. -/
inductive Context where
  | empty
  | uuid (value : UInt32)
  deriving DecidableEq

/-- What a `std::any` holds. -/
inductive StdAny where
  | uint32 (value : UInt32)
  | boostAny (context : Context)

/-- `boost::any_cast<uint32_t>`; `none` is `boost::bad_any_cast`. -/
def boostAnyCast : Context → Option UInt32
  | .empty => none
  | .uuid value => some value

/-- `std::any_cast<uint32_t>`; `none` is `std::bad_any_cast`. -/
def stdAnyCast : StdAny → Option UInt32
  | .uint32 value => some value
  | .boostAny _ => none

structure Conn where
  connected : Bool
  context : Context
  deriving DecidableEq

/-- The server.  A handler is named by the connection it was created for; a
key of the map may lead to a null pointer.  `order` lists the connections as
they came, and `delivered` the messages with the handler each went to. -/
structure Server where
  connUuidGenerator : UInt32
  httpHandlerMap : UInt32 → Option (Option Nat)
  conns : Nat → Option Conn
  order : List Nat
  delivered : List (Nat × Option Nat)

namespace Server

/-- `std::map::insert`: an entry that exists is kept. -/
def insertHandler (server : Server) (uuid : UInt32) (handler : Nat) : Server :=
  match server.httpHandlerMap uuid with
  | some _ => server
  | none =>
      { server with
        httpHandlerMap :=
          Function.update server.httpHandlerMap uuid (some (some handler)) }

/-- `onConnection` for a connection that is up. -/
def onConnected (server : Server) (conn : Nat) : Server :=
  let uuid := server.connUuidGenerator
  insertHandler { server with
    connUuidGenerator := uuid + 1
    conns := Function.update server.conns conn (some ⟨true, .uuid uuid⟩)
    order := server.order ++ [conn] } uuid conn

/-- `onConnection` for a connection that is down.  The `boost::any` becomes a
`std::any` that holds it. -/
def onDisconnected (server : Server) (conn : Nat) (context : Context) : Server :=
  let down := { server with
    conns := Function.update server.conns conn (some ⟨false, context⟩) }
  match context with
  | .empty => down
  | .uuid _ =>
      match stdAnyCast (.boostAny context) with
      | none => down
      | some uuid =>
          { down with
            httpHandlerMap := Function.update down.httpHandlerMap uuid none }

/-- `onMessage`, with the handler the message goes to.  `operator[]` leaves a
null entry for a number the map does not know. -/
def onMessage (server : Server) (conn : Nat) (current : Conn) : Server :=
  if current.connected then
    match boostAnyCast current.context with
    | none => { server with delivered := (conn, none) :: server.delivered }
    | some uuid =>
        match server.httpHandlerMap uuid with
        | none =>
            { server with
              httpHandlerMap :=
                Function.update server.httpHandlerMap uuid (some none)
              delivered := (conn, none) :: server.delivered }
        | some handler =>
            { server with delivered := (conn, handler) :: server.delivered }
  else server

end Server

/-- The callbacks muduo makes for a connection: up once, messages, down
once. -/
inductive Event where
  | connect (conn : Nat)
  | message (conn : Nat)
  | disconnect (conn : Nat)

def step (server : Server) : Event → Option Server
  | .connect conn =>
      match server.conns conn with
      | some _ => none
      | none => some (server.onConnected conn)
  | .message conn => (server.conns conn).map (server.onMessage conn)
  | .disconnect conn =>
      match server.conns conn with
      | some ⟨true, context⟩ => some (server.onDisconnected conn context)
      | _ => none

def start : Server := ⟨0, fun _ => none, fun _ => none, [], []⟩

/-! ## What is to hold -/

/-- An open connection with the number. -/
def OpenWith (server : Server) (conn : Nat) (uuid : UInt32) : Prop :=
  server.conns conn = some ⟨true, .uuid uuid⟩

/-- The keys of the map are the numbers of the open connections, and every
message went to the handler of its connection. -/
structure InStep (server : Server) : Prop where
  keys : ∀ uuid, (server.httpHandlerMap uuid).isSome ↔
    ∃ conn, OpenWith server conn uuid
  own : ∀ conn handler, (conn, handler) ∈ server.delivered → handler = some conn

/-- A connection goes down only while another open one has its number, and
messages come on the first 2^32 connections. -/
def guard (server : Server) : Event → Prop
  | .connect _ => True
  | .message conn => ∀ uuid, OpenWith server conn uuid →
      conn ∈ server.order.take (2 ^ 32)
  | .disconnect conn => ∀ uuid, OpenWith server conn uuid →
      ∃ other, other ≠ conn ∧ OpenWith server other uuid

/-! ## What the table holds in every run -/

/-- The connections carry the numbers in the order they came, and the map
leads from a number to the first connection that had it. -/
structure Numbered (server : Server) : Prop where
  generator : server.connUuidGenerator = UInt32.ofNat server.order.length
  numbers : ∀ conn place, server.order[place]? = some conn →
    ∃ connected, server.conns conn = some ⟨connected, .uuid (UInt32.ofNat place)⟩
  known : ∀ conn, (server.conns conn).isSome ↔ conn ∈ server.order
  table : ∀ uuid,
    server.httpHandlerMap uuid = (server.order[uuid.toNat]?).map some

theorem numbered_start : Numbered start := by
  constructor
  · rfl
  · intro conn place isAt
    cases isAt
  · intro conn
    simp [start]
  · intro uuid
    rfl

theorem insertHandler_conns (server : Server) (uuid : UInt32) (handler : Nat) :
    (server.insertHandler uuid handler).conns = server.conns ∧
    (server.insertHandler uuid handler).order = server.order ∧
    (server.insertHandler uuid handler).delivered = server.delivered ∧
    (server.insertHandler uuid handler).connUuidGenerator =
      server.connUuidGenerator := by
  unfold Server.insertHandler
  split
  · exact ⟨rfl, rfl, rfl, rfl⟩
  · exact ⟨rfl, rfl, rfl, rfl⟩

theorem isSome_insertHandler (server : Server) (uuid key : UInt32)
    (handler : Nat) :
    ((server.insertHandler uuid handler).httpHandlerMap key).isSome ↔
      (server.httpHandlerMap key).isSome ∨ key = uuid := by
  unfold Server.insertHandler
  split
  · rename_i found known
    constructor
    · exact .inl
    · intro either
      rcases either with before | same
      · exact before
      · rw [same, known]
        rfl
  · by_cases same : key = uuid
    · simp [same]
    · simp [same]

theorem disconnected_eq (server : Server) (conn : Nat) (context : Context) :
    server.onDisconnected conn context = { server with
      conns := Function.update server.conns conn (some ⟨false, context⟩) } := by
  cases context with
  | empty => rfl
  | uuid value => rfl

section Steps

variable {server : Server} {conn : Nat}

theorem Numbered.generator_toNat (numbered : Numbered server) :
    server.connUuidGenerator.toNat = server.order.length % 2 ^ 32 := by
  rw [numbered.generator, UInt32.toNat_ofNat']

/-- When the next number is in the map, the counter has wrapped and every
number is. -/
theorem Numbered.wrapped_of_known (numbered : Numbered server)
    {found : Option Nat}
    (known : server.httpHandlerMap server.connUuidGenerator = some found) :
    2 ^ 32 ≤ server.order.length := by
  have former := numbered.table server.connUuidGenerator
  rw [known] at former
  obtain ⟨first, isAt, -⟩ := Option.map_eq_some_iff.mp former.symm
  have inside := (List.getElem?_eq_some_iff.mp isAt).1
  rw [numbered.generator_toNat] at inside
  by_contra short
  rw [Nat.mod_eq_of_lt (by omega)] at inside
  omega

/-- Otherwise it is the number of handlers made so far. -/
theorem Numbered.place_of_missing (numbered : Numbered server)
    (missing : server.httpHandlerMap server.connUuidGenerator = none) :
    server.connUuidGenerator.toNat = server.order.length := by
  have former := numbered.table server.connUuidGenerator
  rw [missing] at former
  have isNone := Option.map_eq_none_iff.mp former.symm
  have free := List.getElem?_eq_none_iff.mp isNone
  have value := numbered.generator_toNat
  have bound := Nat.mod_le server.order.length (2 ^ 32)
  omega

theorem Numbered.connect (numbered : Numbered server)
    (unknown : server.conns conn = none) :
    Numbered (server.onConnected conn) := by
  have notListed : conn ∉ server.order := by
    intro listed
    have isKnown := (numbered.known conn).mpr listed
    rw [unknown] at isKnown
    cases isKnown
  have generator := numbered.generator
  constructor
  · simp only [Server.onConnected, (insertHandler_conns _ _ _).2.1,
      (insertHandler_conns _ _ _).2.2.2]
    rw [generator, List.length_append, List.length_singleton, UInt32.ofNat_add]
    rfl
  · intro other place isAt
    simp only [Server.onConnected, (insertHandler_conns _ _ _).1,
      (insertHandler_conns _ _ _).2.1] at isAt ⊢
    by_cases inside : place < server.order.length
    · rw [List.getElem?_append_left inside] at isAt
      have different : other ≠ conn := by
        intro same
        rw [same] at isAt
        exact notListed (List.mem_of_getElem? isAt)
      rw [Function.update_of_ne different]
      exact numbered.numbers other place isAt
    · have atEnd : place = server.order.length := by
        have bound := (List.getElem?_eq_some_iff.mp isAt).1
        simp only [List.length_append, List.length_singleton] at bound
        omega
      rw [atEnd, List.getElem?_concat_length, Option.some.injEq] at isAt
      rw [← isAt, Function.update_self, generator, atEnd]
      exact ⟨true, rfl⟩
  · intro other
    simp only [Server.onConnected, (insertHandler_conns _ _ _).1,
      (insertHandler_conns _ _ _).2.1, List.mem_append, List.mem_singleton]
    by_cases same : other = conn
    · simp [same]
    · simp [same, numbered.known other]
  · intro key
    simp only [Server.onConnected, (insertHandler_conns _ _ _).2.1]
    have keyBound : key.toNat < 2 ^ 32 := key.toNat_lt
    unfold Server.insertHandler
    split
    · rename_i found known
      have wrapped := numbered.wrapped_of_known known
      rw [List.getElem?_append_left (by omega)]
      exact numbered.table key
    · rename_i missing
      have place := numbered.place_of_missing missing
      simp only
      by_cases same : key = server.connUuidGenerator
      · rw [same, Function.update_self, place, List.getElem?_concat_length]
        rfl
      · have different : key.toNat ≠ server.order.length := by
          intro equality
          exact same (UInt32.toNat_inj.mp (equality.trans place.symm))
        rw [Function.update_of_ne same, numbered.table key]
        by_cases inside : key.toNat < server.order.length
        · rw [List.getElem?_append_left inside]
        · rw [List.getElem?_eq_none (by omega), List.getElem?_eq_none]
          simp only [List.length_append, List.length_singleton]
          omega

theorem Numbered.disconnect (numbered : Numbered server) {context : Context}
    (isOpen : server.conns conn = some ⟨true, context⟩) :
    Numbered (server.onDisconnected conn context) := by
  rw [disconnected_eq]
  constructor
  · exact numbered.generator
  · intro other place isAt
    obtain ⟨connected, found⟩ := numbered.numbers other place isAt
    by_cases same : other = conn
    · rw [same, isOpen] at found
      cases found
      rw [same]
      exact ⟨false, Function.update_self _ _ _⟩
    · refine ⟨connected, ?_⟩
      simp only
      rw [Function.update_of_ne same]
      exact found
  · intro other
    by_cases same : other = conn
    · have isKnown := (numbered.known conn).mp (by simp [isOpen])
      simp [same, isKnown]
    · simp [same, numbered.known other]
  · exact numbered.table

/-- An open connection has a number, and the map leads from it to the first
connection that had it. -/
theorem Numbered.of_open (numbered : Numbered server) {context : Context}
    (isOpen : server.conns conn = some ⟨true, context⟩) :
    ∃ place first, context = .uuid (UInt32.ofNat place) ∧
      server.order[place]? = some conn ∧
      server.order[place % 2 ^ 32]? = some first ∧
      server.httpHandlerMap (UInt32.ofNat place) = some (some first) := by
  have listed := (numbered.known conn).mp (by simp [isOpen])
  obtain ⟨place, isAt⟩ := List.mem_iff_getElem?.mp listed
  obtain ⟨connected, found⟩ := numbered.numbers conn place isAt
  rw [isOpen] at found
  cases found
  have inside := (List.getElem?_eq_some_iff.mp isAt).1
  have smaller : place % 2 ^ 32 < server.order.length :=
    Nat.lt_of_le_of_lt (Nat.mod_le _ _) inside
  have isFirst := List.getElem?_eq_getElem smaller
  refine ⟨place, _, rfl, isAt, isFirst, ?_⟩
  rw [numbered.table, UInt32.toNat_ofNat', isFirst]
  rfl

/-- What a message on an open connection does. -/
theorem Numbered.onMessage_open (numbered : Numbered server)
    {context : Context} (isOpen : server.conns conn = some ⟨true, context⟩) :
    ∃ place first, context = .uuid (UInt32.ofNat place) ∧
      server.order[place]? = some conn ∧
      server.order[place % 2 ^ 32]? = some first ∧
      server.onMessage conn ⟨true, context⟩ =
        { server with delivered := (conn, some first) :: server.delivered } := by
  obtain ⟨place, first, rfl, isAt, isFirst, found⟩ := numbered.of_open isOpen
  refine ⟨place, first, rfl, isAt, isFirst, ?_⟩
  simp only [Server.onMessage, if_true, boostAnyCast, found]

/-- Every step keeps the numbering. -/
theorem Numbered.step {next : Server} {event : Event}
    (numbered : Numbered server)
    (taken : HandlerTable.step server event = some next) : Numbered next := by
  cases event with
  | connect conn =>
      simp only [HandlerTable.step] at taken
      split at taken
      · cases taken
      · rename_i unknown
        cases taken
        exact numbered.connect unknown
  | message conn =>
      obtain ⟨⟨connected, context⟩, found, rfl⟩ := Option.map_eq_some_iff.mp taken
      cases connected with
      | false => exact numbered
      | true =>
          obtain ⟨place, first, -, -, -, result⟩ := numbered.onMessage_open found
          rw [result]
          exact ⟨numbered.generator, numbered.numbers, numbered.known,
            numbered.table⟩
  | disconnect conn =>
      simp only [HandlerTable.step] at taken
      split at taken
      · rename_i context isOpen
        cases taken
        exact numbered.disconnect isOpen
      · cases taken

/-! ## When the table stays in step -/

theorem InStep.connect (inStep : InStep server)
    (unknown : server.conns conn = none) : InStep (server.onConnected conn) := by
  constructor
  · intro key
    simp only [Server.onConnected, isSome_insertHandler, OpenWith,
      (insertHandler_conns _ _ _).1]
    rw [inStep.keys key]
    constructor
    · intro either
      rcases either with ⟨other, isOpen⟩ | same
      · have different : other ≠ conn := by
          intro equality
          rw [OpenWith, equality, unknown] at isOpen
          cases isOpen
        exact ⟨other, by rwa [Function.update_of_ne different]⟩
      · exact ⟨conn, by rw [Function.update_self, same]⟩
    · intro someone
      obtain ⟨other, isOpen⟩ := someone
      by_cases same : other = conn
      · rw [same, Function.update_self] at isOpen
        cases isOpen
        exact .inr rfl
      · rw [Function.update_of_ne same] at isOpen
        exact .inl ⟨other, isOpen⟩
  · intro other handler member
    simp only [Server.onConnected, (insertHandler_conns _ _ _).2.2.1] at member
    exact inStep.own other handler member

/-- A connection that goes down leaves the keys right exactly when another
open one has its number. -/
theorem InStep.disconnect_iff (inStep : InStep server) {uuid : UInt32}
    (isOpen : OpenWith server conn uuid) :
    InStep (server.onDisconnected conn (.uuid uuid)) ↔
      ∃ other, other ≠ conn ∧ OpenWith server other uuid := by
  rw [disconnected_eq]
  have openBehind : ∀ other key,
      OpenWith { server with
        conns := Function.update server.conns conn
          (some ⟨false, .uuid uuid⟩) } other key ↔
        other ≠ conn ∧ OpenWith server other key := by
    intro other key
    by_cases same : other = conn
    · simp [OpenWith, same]
    · simp [OpenWith, same]
  constructor
  · intro behind
    have isKey := (inStep.keys uuid).mpr ⟨conn, isOpen⟩
    obtain ⟨other, stillOpen⟩ := (behind.keys uuid).mp isKey
    exact ⟨other, (openBehind other uuid).mp stillOpen⟩
  · intro someone
    constructor
    · intro key
      rw [inStep.keys key]
      constructor
      · intro holder
        obtain ⟨other, otherOpen⟩ := holder
        by_cases same : other = conn
        · have sameKey : key = uuid := by
            rw [OpenWith, same, isOpen] at otherOpen
            cases otherOpen
            rfl
          obtain ⟨third, different, thirdOpen⟩ := someone
          refine ⟨third, (openBehind third key).mpr ⟨different, ?_⟩⟩
          rw [sameKey]
          exact thirdOpen
        · exact ⟨other, (openBehind other key).mpr ⟨same, otherOpen⟩⟩
      · intro holder
        obtain ⟨other, otherOpen⟩ := holder
        exact ⟨other, ((openBehind other key).mp otherOpen).2⟩
    · exact inStep.own

/-- A message reaches the handler of its connection exactly when this is one
of the first 2^32. -/
theorem InStep.message_iff (inStep : InStep server) (numbered : Numbered server)
    (distinct : server.order.Nodup) {uuid : UInt32}
    (isOpen : OpenWith server conn uuid) :
    InStep (server.onMessage conn ⟨true, .uuid uuid⟩) ↔
      conn ∈ server.order.take (2 ^ 32) := by
  obtain ⟨place, first, -, isAt, isFirst, result⟩ :=
    numbered.onMessage_open isOpen
  have early : conn ∈ server.order.take (2 ^ 32) ↔ first = conn := by
    constructor
    · intro member
      obtain ⟨other, inside, isOther⟩ := List.mem_take_iff_getElem.mp member
      have bound : other < server.order.length := by omega
      have samePlace : other = place := by
        have isAtOther : server.order[other]? = some conn := by
          rw [List.getElem?_eq_getElem bound, isOther]
        exact (List.getElem?_inj bound distinct).mp (isAtOther.trans isAt.symm)
      rw [Nat.mod_eq_of_lt (by omega), isAt, Option.some.injEq] at isFirst
      exact isFirst.symm
    · intro same
      rw [same] at isFirst
      obtain ⟨inside, isConn⟩ := List.getElem?_eq_some_iff.mp isFirst
      have small : place % 2 ^ 32 < 2 ^ 32 := Nat.mod_lt _ (by omega)
      exact List.mem_take_iff_getElem.mpr
        ⟨place % 2 ^ 32, by omega, isConn⟩
  rw [early, result]
  constructor
  · intro behind
    have own := behind.own conn (some first) (by simp)
    exact Option.some.inj own
  · intro same
    constructor
    · exact inStep.keys
    · intro other handler member
      rcases List.mem_cons.mp member with latest | earlier
      · cases latest
        rw [same]
      · exact inStep.own other handler earlier

end Steps

/-! ## Whole runs -/

/-- The connections come one after the other, each under its own name. -/
structure Kept (server : Server) : Prop where
  inStep : InStep server
  numbered : Numbered server
  distinct : server.order.Nodup

theorem kept_start : Kept start := by
  constructor
  · constructor
    · intro uuid
      simp [start, OpenWith]
    · intro conn handler member
      cases member
  · exact numbered_start
  · exact List.nodup_nil

theorem order_step {server next : Server} {event : Event}
    (numbered : Numbered server) (distinct : server.order.Nodup)
    (taken : step server event = some next) : next.order.Nodup := by
  cases event with
  | connect conn =>
      simp only [step] at taken
      split at taken
      · cases taken
      · rename_i unknown
        cases taken
        simp only [Server.onConnected, (insertHandler_conns _ _ _).2.1]
        have notListed : conn ∉ server.order := by
          intro listed
          have isKnown := (numbered.known conn).mpr listed
          rw [unknown] at isKnown
          cases isKnown
        exact (List.perm_append_singleton conn _).nodup_iff.mpr
          (List.nodup_cons.mpr ⟨notListed, distinct⟩)
  | message conn =>
      obtain ⟨⟨connected, context⟩, found, rfl⟩ := Option.map_eq_some_iff.mp taken
      cases connected with
      | false => exact distinct
      | true =>
          obtain ⟨place, first, -, -, -, result⟩ := numbered.onMessage_open found
          rw [result]
          exact distinct
  | disconnect conn =>
      simp only [step] at taken
      split at taken
      · cases taken
        rw [disconnected_eq]
        exact distinct
      · cases taken

/-- A step keeps the table in step exactly when it is guarded. -/
theorem Kept.inStep_iff {server next : Server} {event : Event}
    (kept : Kept server) (taken : step server event = some next) :
    InStep next ↔ guard server event := by
  cases event with
  | connect conn =>
      simp only [step] at taken
      split at taken
      · cases taken
      · rename_i unknown
        cases taken
        simp [guard, kept.inStep.connect unknown]
  | message conn =>
      obtain ⟨⟨connected, context⟩, found, rfl⟩ := Option.map_eq_some_iff.mp taken
      cases connected with
      | false =>
          have ignored : server.onMessage conn ⟨false, context⟩ = server := rfl
          simp [ignored, guard, OpenWith, found, kept.inStep]
      | true =>
          obtain ⟨place, first, rfl, -⟩ := kept.numbered.onMessage_open found
          rw [kept.inStep.message_iff kept.numbered kept.distinct found]
          constructor
          · intro early uuid isOpen
            exact early
          · intro guarded
            exact guarded _ found
  | disconnect conn =>
      simp only [step] at taken
      split at taken
      · rename_i context isOpen
        cases taken
        obtain ⟨place, first, rfl, -⟩ := kept.numbered.of_open isOpen
        rw [kept.inStep.disconnect_iff isOpen]
        constructor
        · intro someone uuid sameOpen
          rw [OpenWith, isOpen] at sameOpen
          cases sameOpen
          exact someone
        · intro guarded
          exact guarded _ isOpen
      · cases taken

/-- The table is in step with the connections after every callback exactly
when no connection goes down, unless another open one has its number, and
messages come on the first 2^32 connections only. -/
theorem handler_table_iff (events : List Event) :
    Lib.Always step InStep start events ↔ Lib.Meets step guard start events := by
  apply Lib.always_iff_meets _ _ _ kept_start
  · intro server kept
    exact kept.inStep
  · intro server next event kept guarded taken
    exact ⟨(kept.inStep_iff taken).mpr guarded, kept.numbered.step taken,
      order_step kept.numbered kept.distinct taken⟩
  · intro server next event kept taken inStep
    exact (kept.inStep_iff taken).mp inStep

/-- The handler of a closed connection stays. -/
theorem closed_connection_keeps_handler :
    ¬ Lib.Always step InStep start [.connect 1, .disconnect 1] := by
  intro always
  have inStep := always _ (List.prefix_refl _) _ rfl
  obtain ⟨conn, isOpen⟩ := (inStep.keys 0).mp rfl
  by_cases same : conn = 1
  · rw [same] at isOpen
    cases isOpen
  · simp [OpenWith, start, disconnected_eq, Server.onConnected,
      insertHandler_conns, same] at isOpen

end HandlerTable

end ChatRoom
