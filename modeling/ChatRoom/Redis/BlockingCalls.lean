import ChatRoom.Redis.CommandBytes

/-!
# Calls over a blocking context

`redisCommand` appends a command to the output buffer, writes until the buffer
is empty and reads until the reader has a reply.  The model has the bytes on
their way in both directions; every `write` and every `read` may take a part
of them, be interrupted or fail.  The server answers one command after the
other.
-/

namespace ChatRoom

namespace Hiredis

/-! ## The context -/

/-- `REDIS_ERR_IO`, `REDIS_ERR_EOF`, or an error of the reader. -/
inductive ContextError where
  | io
  | eof
  | reader (error : ReadError)
  deriving DecidableEq

structure RedisContext where
  err : Option ContextError
  obuf : Str
  reader : RedisReader

/-- What `read` and `write` return: a count, -1 with `EINTR`, or -1 with an
error. -/
inductive IoResult where
  | count (number : ℕ)
  | interrupted
  | failed

/-- The bytes that a call has moved. -/
def IoResult.bytes : IoResult → ℕ
  | .count number => number
  | .interrupted => 0
  | .failed => 0

namespace RedisContext

def start : RedisContext := ⟨none, [], redisReaderCreate⟩

/-- `__redisAppendCommand`. -/
def appendCommand (c : RedisContext) (cmd : Str) : RedisContext :=
  { c with obuf := c.obuf ++ cmd }

/-- `redisGetReplyFromReader`. -/
def getReplyFromReader (c : RedisContext) :
    RedisContext × Option (Option Reply) :=
  let (reader, answer) := c.reader.getReply
  match answer with
  | none => ({ c with err := reader.err.map .reader, reader := reader }, none)
  | some reply => ({ c with reader := reader }, some reply)

/-- `redisBufferWrite`: `none` for `REDIS_ERR`, else `done`. -/
def bufferWrite (c : RedisContext) (result : IoResult) :
    RedisContext × Option Bool :=
  if c.err.isSome then (c, none)
  else if c.obuf = [] then (c, some true)
  else
    match result with
    | .failed => ({ c with err := some .io }, none)
    | .interrupted => (c, some false)
    | .count nwritten =>
        let obuf :=
          if nwritten = 0 then c.obuf
          else if toInt nwritten = toInt c.obuf.length then []
          else sdsrange c.obuf nwritten (-1)
        ({ c with obuf := obuf }, some (obuf = []))

/-- `redisBufferRead`, with the bytes that were read; a count of 0 is the end
of the connection. -/
def bufferRead (c : RedisContext) (result : IoResult) (chunk : Str) :
    RedisContext × Bool :=
  if c.err.isSome then (c, false)
  else
    match result with
    | .failed => ({ c with err := some .io }, false)
    | .interrupted => (c, true)
    | .count nread =>
        if nread = 0 then ({ c with err := some .eof }, false)
        else if c.reader.err.isSome then
          ({ c with err := c.reader.err.map .reader }, false)
        else ({ c with reader := c.reader.feed chunk }, true)

end RedisContext

/-! ## Caller, connection and server -/

/-- Where the caller is in `redisCommand`. -/
inductive Phase where
  | idle
  | writing (argv : List Str)
  | reading (argv : List Str)

/-- The command of the call that is under way. -/
def Phase.underWay : Phase → List (List Str)
  | .idle => []
  | .writing argv => [argv]
  | .reading argv => [argv]

/-- The caller with its context, the bytes on their way, the server, and what
the calls so far have returned. -/
structure Link (Server : Type) where
  context : RedisContext
  phase : Phase
  toServer : Str
  fromServer : Str
  server : Server
  results : List (List Str × Option Reply)

/-- `served` is the server with the next command, which has arrived
completely. -/
inductive LinkEvent where
  | call (argv : List Str)
  | write (result : IoResult)
  | served (argv : List Str)
  | read (result : IoResult)

/-- The size of the buffer of `redisBufferRead`. -/
def readSize : ℕ := 1024 * 16

/-- A command that the server answers and whose size its `int` can hold. -/
def Sendable (argv : List Str) : Prop :=
  argv ≠ [] ∧ Counted argv ∧ (formatArgv argv).length < 2 ^ 31

instance decidableSendable (argv : List Str) : Decidable (Sendable argv) :=
  inferInstanceAs (Decidable (_ ∧ _))

namespace Link

section Steps

variable {Server : Type} (serve : Server → List Str → Server × Reply)
  (encode : Reply → Str)

/-- The end of a call. -/
def returns (link : Link Server) (context : RedisContext) (argv : List Str)
    (result : Option Reply) : Link Server :=
  { link with
    context := context
    phase := .idle
    results := link.results ++ [(argv, result)] }

/-- `redisGetReply` up to its first write: a reply that is there is taken. -/
def call (link : Link Server) (argv : List Str) : Link Server :=
  let context := link.context.appendCommand (formatArgv argv)
  match context.getReplyFromReader with
  | (context, none) => link.returns context argv none
  | (context, some (some reply)) => link.returns context argv (some reply)
  | (context, some none) =>
      { link with context := context, phase := .writing argv }

def write (link : Link Server) (argv : List Str) (result : IoResult) :
    Link Server :=
  match link.context.bufferWrite result with
  | (context, none) => link.returns context argv none
  | (context, some done) =>
      let written := link.context.obuf.length - context.obuf.length
      { link with
        context := context
        phase := if done then .reading argv else .writing argv
        toServer := link.toServer ++ link.context.obuf.take written }

def read (link : Link Server) (argv : List Str) (result : IoResult) :
    Link Server :=
  let chunk := link.fromServer.take result.bytes
  let link' := { link with fromServer := link.fromServer.drop result.bytes }
  match link.context.bufferRead result chunk with
  | (context, false) => link'.returns context argv none
  | (context, true) =>
      match context.getReplyFromReader with
      | (context, none) => link'.returns context argv none
      | (context, some (some reply)) => link'.returns context argv (some reply)
      | (context, some none) => { link' with context := context }

/-- One step.  A `write` takes at most what is in the buffer, a `read` at most
what has arrived and what its buffer holds. -/
def step (link : Link Server) : LinkEvent → Option (Link Server)
  | .call argv =>
      match link.phase with
      | .idle => if Sendable argv then some (link.call argv) else none
      | _ => none
  | .write result =>
      match link.phase with
      | .writing argv =>
          if result.bytes ≤ link.context.obuf.length then
            some (link.write argv result)
          else none
      | _ => none
  | .served argv =>
      if Counted argv ∧ formatArgv argv <+: link.toServer then
        let (server, reply) := serve link.server argv
        some { link with
          server := server
          toServer := link.toServer.drop (formatArgv argv).length
          fromServer := link.fromServer ++ encode reply }
      else none
  | .read result =>
      match link.phase with
      | .reading argv =>
          if result.bytes ≤ min readSize link.fromServer.length then
            some (link.read argv result)
          else none
      | _ => none

def start (server : Server) : Link Server :=
  ⟨.start, .idle, [], [], server, []⟩

end Steps

end Link

/-! ## The reader between two replies -/

/-- The reader goes on as an idle one would in front of `rest`. -/
structure Pending (r : RedisReader) (rest : Str) : Prop where
  sound : r.Sound
  early : r.pos < 1024
  noErr : r.err = none
  short : r.unread.length ≤ rest.length
  goesOn : plainReader.next r.rstack r.unread = plainReader.next [] rest

/-- The bytes are not yet a reply, and not an error. -/
def Incomplete (rest : Str) : Prop :=
  ∃ rstack left, plainReader.next [] rest = .wait rstack left

theorem incomplete_nil : Incomplete [] := by
  rw [Incomplete, next_idle]
  exact ⟨[rootTask], [], plainReader.next_of_stop (next_nil (-1) [])⟩

/-- A reply of which the end is missing. -/
theorem incomplete_of_wires {reply : Reply} {rest more : Str}
    (wires : Wires 8 [reply] (rest ++ more)) (missing : more ≠ []) :
    Incomplete rest := by
  have found := next_of_reply wires []
  rw [List.append_nil, plainReader.next_append] at found
  unfold Incomplete
  cases stops : plainReader.next [] rest with
  | wait rstack left => exact ⟨rstack, left, rfl⟩
  | fail error =>
      rw [stops] at found
      cases found
  | out other rstack left =>
      rw [stops] at found
      injection found with _ _ nothing
      exact absurd (List.append_eq_nil_iff.mp nothing).2 missing

theorem pending_start : Pending redisReaderCreate [] :=
  ⟨ReaderRun.start_sound, by decide, rfl, le_refl _, rfl⟩

theorem Pending.feed {r : RedisReader} {rest : Str} (pending : Pending r rest)
    {chunk : Str} (small : (rest ++ chunk).length + 1024 ≤ bufferBound) :
    Pending (r.feed chunk) (rest ++ chunk) := by
  obtain ⟨sound, early, noErr, short, goesOn⟩ := pending
  have fed : r.feed chunk = { r with buf := r.buf ++ chunk } :=
    if_neg (by simp [noErr])
  have unread : ({ r with buf := r.buf ++ chunk } : RedisReader).unread =
      r.unread ++ chunk :=
    List.drop_append_of_le_length sound.inside
  have size : r.buf.length = r.pos + r.unread.length := by
    have := sound.inside
    rw [RedisReader.unread, List.length_drop]
    omega
  rw [List.length_append] at small
  rw [fed]
  refine ⟨⟨?_, ?_, ?_⟩, early, noErr, ?_, ?_⟩
  · rw [List.length_append]
    exact Nat.le_add_right_of_le sound.inside
  · rw [List.length_append]
    omega
  · intro empty
    exact sound.idle (List.append_eq_nil_iff.mp empty).1
  · rw [unread, List.length_append, List.length_append]
    omega
  · rw [unread]
    change plainReader.next r.rstack (r.unread ++ chunk) = _
    rw [plainReader.next_append, plainReader.next_append, goesOn]

theorem stopAt_pos (r : RedisReader) (rstack : List ReadTask) (rest : Str) :
    (r.stopAt rstack rest).pos < 1024 := by
  by_cases long : r.buf.length - rest.length ≥ 1024
  · rw [RedisReader.stopAt]
    simp only [if_pos long]
    decide
  · rw [RedisReader.stopAt]
    simp only [if_neg long]
    omega

/-- Where no reply is complete, the reader has none and goes on. -/
theorem Pending.getReply_none {r : RedisReader} {rest : Str}
    (pending : Pending r rest) (incomplete : Incomplete rest) :
    r.getReply.2 = some none ∧ Pending r.getReply.1 rest := by
  obtain ⟨rstack, left, waits⟩ := incomplete
  rcases RedisReader.getReply_cases pending.sound with
    ⟨error, failed, -⟩ | ⟨-, -, same⟩ | ⟨-, stops⟩
  · rw [pending.noErr] at failed
    cases failed
  · rw [same]
    exact ⟨rfl, pending⟩
  · have found := pending.goesOn.trans waits
    rw [found] at stops
    simp only [] at stops
    have kept : left <:+ r.unread :=
      plainReader.next_suffix (by rw [found]; rfl)
    obtain ⟨sound, unread, stack, err⟩ := RedisReader.stopAt_spec pending.sound
      kept (RedisReader.stops_of_wait found)
    rw [stops]
    refine ⟨rfl, sound, stopAt_pos r rstack left,
      err.trans pending.noErr, ?_, ?_⟩
    · rw [unread]
      exact kept.length_le.trans pending.short
    · rw [unread, stack, ← plainReader.next_of_wait found]
      exact pending.goesOn

/-- A complete reply is handed out, and nothing is left. -/
theorem Pending.getReply_some {r : RedisReader} {rest : Str} {reply : Reply}
    (pending : Pending r rest) (wires : Wires 8 [reply] rest) :
    r.getReply.2 = some (some reply) ∧ Pending r.getReply.1 [] := by
  have found := next_of_reply wires []
  rw [List.append_nil, ← pending.goesOn] at found
  rcases RedisReader.getReply_cases pending.sound with
    ⟨error, failed, -⟩ | ⟨-, empty, -⟩ | ⟨-, stops⟩
  · rw [pending.noErr] at failed
    cases failed
  · obtain ⟨rstack, waits⟩ := pending.sound.idle empty
    rw [RedisReader.unread, empty, List.drop_nil, waits] at found
    cases found
  · rw [found] at stops
    simp only [] at stops
    obtain ⟨sound, unread, stack, err⟩ := RedisReader.stopAt_spec pending.sound
      (plainReader.next_suffix (by rw [found]; rfl))
      (RedisReader.stops_of_out found)
    rw [stops]
    refine ⟨rfl, sound, stopAt_pos r [] [], err.trans pending.noErr, ?_, ?_⟩
    · rw [unread]
    · rw [unread, stack]

end Hiredis

end ChatRoom
