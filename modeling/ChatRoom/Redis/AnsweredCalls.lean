import ChatRoom.Redis.BlockingCalls

/-!
# A call returns the answer to its command

Over a connection that cuts what it carries into any pieces, `redisCommand` is
a remote call: up to the first failure every call returns what the server
makes of its own command, and from then on every call returns NULL.
-/

namespace ChatRoom

namespace Hiredis

namespace Link

section Answers

variable {Server : Type} (serve : Server → List Str → Server × Reply)
  (encode : Reply → Str)

/-- The server behind some commands. -/
def after (server : Server) (commands : List (List Str)) : Server :=
  commands.foldl (fun server argv => (serve server argv).1) server

/-- What calls return that are all answered. -/
def answered (server : Server) :
    List (List Str) → List (List Str × Option Reply)
  | [] => []
  | argv :: commands =>
      (argv, some (serve server argv).2) ::
        answered (serve server argv).1 commands

theorem after_snoc (server : Server) (commands : List (List Str))
    (argv : List Str) :
    after serve server (commands ++ [argv]) =
      (serve (after serve server commands) argv).1 := by
  rw [after, List.foldl_append]
  rfl

theorem answered_snoc (server : Server) (commands : List (List Str))
    (argv : List Str) :
    answered serve server (commands ++ [argv]) =
      answered serve server commands ++
        [(argv, some (serve (after serve server commands) argv).2)] := by
  induction commands generalizing server with
  | nil => rfl
  | cons first commands induction =>
      rw [List.cons_append, answered, induction]
      rfl

/-- What the server speaks: a reply is encoded by a wire form of it, which fits
into the buffer of the reader. -/
structure Speaks : Prop where
  wires : ∀ server argv,
    Wires 8 [(serve server argv).2] (encode (serve server argv).2)
  short : ∀ server argv,
    (encode (serve server argv).2).length + 1024 ≤ bufferBound

/-- A link on which nothing has failed, by the phase of its caller. -/
def InPhase (server : Server) (link : Link Server) : Phase → Prop
  | .idle =>
      link.context.obuf = [] ∧ link.toServer = [] ∧ link.fromServer = [] ∧
        Pending link.context.reader [] ∧ link.server = server
  | .writing argv =>
      Sendable argv ∧ link.toServer ++ link.context.obuf = formatArgv argv ∧
        link.context.obuf ≠ [] ∧ link.fromServer = [] ∧
        Pending link.context.reader [] ∧ link.server = server
  | .reading argv =>
      Sendable argv ∧ link.context.obuf = [] ∧
        (link.toServer = formatArgv argv ∧ link.fromServer = [] ∧
            Pending link.context.reader [] ∧ link.server = server ∨
          link.toServer = [] ∧ link.fromServer ≠ [] ∧
            link.server = (serve server argv).1 ∧
            ∃ rest, Pending link.context.reader rest ∧
              rest ++ link.fromServer = encode (serve server argv).2)

/-- All calls that have returned were answered. -/
structure Fine (first : Server) (good : List (List Str))
    (link : Link Server) : Prop where
  noErr : link.context.err = none
  results : link.results = answered serve first good
  phase : link.InPhase serve encode (after serve first good) link.phase

/-- A call has failed: no call reads any more. -/
structure Broken (first : Server) (good : List (List Str))
    (link : Link Server) : Prop where
  failed : link.context.err.isSome
  results : ∃ bad : List (List Str),
    link.results = answered serve first good ++ bad.map fun argv => (argv, none)
  drained : ∃ rest, Pending link.context.reader rest ∧ Incomplete rest
  notReading : ∀ argv, link.phase ≠ .reading argv

variable {serve encode} {first : Server} {good : List (List Str)}
  {link next : Link Server}

theorem fine_start (server : Server) :
    Fine serve encode server [] (start server) :=
  ⟨rfl, rfl, rfl, rfl, rfl, pending_start, rfl⟩

/-! ## Calls -/

/-- Nothing that is complete waits in the reader, so the call goes on to
write. -/
theorem call_eq {argv : List Str} {rest : Str}
    (pending : Pending link.context.reader rest)
    (incomplete : Incomplete rest) :
    link.call argv =
      { link with
        context :=
          { err := link.context.err
            obuf := link.context.obuf ++ formatArgv argv
            reader := link.context.reader.getReply.1 }
        phase := .writing argv } := by
  have nothing := (pending.getReply_none incomplete).1
  rw [call, RedisContext.getReplyFromReader, RedisContext.appendCommand]
  simp only [nothing]

theorem fine_call (fine : Fine serve encode first good link)
    (idle : link.phase = .idle) {argv : List Str} (sendable : Sendable argv) :
    Fine serve encode first good (link.call argv) := by
  obtain ⟨noErr, results, phase⟩ := fine
  rw [idle] at phase
  obtain ⟨obuf, toServer, fromServer, pending, server⟩ := phase
  have later := (pending.getReply_none incomplete_nil).2
  rw [call_eq pending incomplete_nil]
  refine ⟨noErr, results, sendable, ?_, ?_, fromServer, later, server⟩
  · change link.toServer ++ (link.context.obuf ++ formatArgv argv) = _
    rw [toServer, obuf]
    rfl
  · change link.context.obuf ++ formatArgv argv ≠ []
    rw [obuf]
    exact formatArgv_ne_nil argv

theorem broken_call (broken : Broken serve first good link)
    (argv : List Str) : Broken serve first good (link.call argv) := by
  obtain ⟨failed, results, ⟨rest, pending, incomplete⟩, -⟩ := broken
  have later := (pending.getReply_none incomplete).2
  rw [call_eq pending incomplete]
  exact ⟨failed, results, ⟨rest, later, incomplete⟩, by simp⟩

/-! ## Writing -/

theorem bufferWrite_count {c : RedisContext} (noErr : c.err = none)
    (notEmpty : c.obuf ≠ []) (small : c.obuf.length < bufferBound)
    {number : ℕ} (fits : number ≤ c.obuf.length) :
    c.bufferWrite (.count number) =
      ({ c with obuf := c.obuf.drop number },
        some (decide (c.obuf.drop number = []))) := by
  have bound : c.obuf.length < 2 ^ 31 := small
  have obuf : (if number = 0 then c.obuf
      else if toInt number = toInt c.obuf.length then []
      else sdsrange c.obuf number (-1)) = c.obuf.drop number := by
    rw [toInt_eq (by omega) (by omega), toInt_eq (by omega) (by omega)]
    split_ifs with none all
    · rw [none, List.drop_zero]
    · rw [Int.ofNat_inj.mp all, List.drop_length]
    · exact sdsrange_pos fits small
  rw [RedisContext.bufferWrite, noErr]
  simp only [Option.isSome_none, Bool.false_eq_true, if_false, if_neg notEmpty,
    obuf]

/-- What a `write` gets is part of one command. -/
theorem obuf_small {argv : List Str} (sendable : Sendable argv)
    (bytes : link.toServer ++ link.context.obuf = formatArgv argv) :
    link.context.obuf.length < bufferBound := by
  have size := congrArg List.length bytes
  rw [List.length_append] at size
  have := sendable.2.2
  unfold bufferBound
  omega

theorem fine_write_count (fine : Fine serve encode first good link)
    {argv : List Str} (writing : link.phase = .writing argv) {number : ℕ}
    (fits : number ≤ link.context.obuf.length) :
    Fine serve encode first good (link.write argv (.count number)) := by
  obtain ⟨noErr, results, phase⟩ := fine
  rw [writing] at phase
  obtain ⟨sendable, bytes, notEmpty, fromServer, pending, server⟩ := phase
  have small := obuf_small sendable bytes
  have written : link.context.obuf.length -
      (link.context.obuf.drop number).length = number := by
    rw [List.length_drop]
    omega
  have whole : link.toServer ++ link.context.obuf.take number ++
      link.context.obuf.drop number = formatArgv argv := by
    rw [List.append_assoc, List.take_append_drop]
    exact bytes
  rw [write, bufferWrite_count noErr notEmpty small fits]
  simp only [written]
  by_cases done : link.context.obuf.drop number = []
  · rw [done, List.append_nil] at whole
    refine ⟨noErr, results, ?_⟩
    simp only [done, decide_true, if_true]
    exact ⟨sendable, rfl, .inl ⟨whole, fromServer, pending, server⟩⟩
  · refine ⟨noErr, results, ?_⟩
    simp only [done, decide_false, Bool.false_eq_true, if_false]
    exact ⟨sendable, whole, done, fromServer, pending, server⟩

theorem fine_write_interrupted (fine : Fine serve encode first good link)
    {argv : List Str} (writing : link.phase = .writing argv) :
    Fine serve encode first good (link.write argv .interrupted) := by
  obtain ⟨noErr, results, phase⟩ := fine
  rw [writing] at phase
  have notEmpty := phase.2.2.1
  rw [write, RedisContext.bufferWrite, noErr]
  simp only [Option.isSome_none, Bool.false_eq_true, if_false, if_neg notEmpty,
    Nat.sub_self, List.take_zero, List.append_nil]
  exact ⟨noErr, results, phase⟩

/-- A call that fails while the reader has nothing complete. -/
theorem broken_returns {context : RedisContext} {argv : List Str}
    {rest : Str} (failed : context.err.isSome)
    (results : ∃ bad : List (List Str), link.results =
      answered serve first good ++ bad.map fun argv => (argv, none))
    (pending : Pending context.reader rest) (incomplete : Incomplete rest) :
    Broken serve first good (link.returns context argv none) := by
  obtain ⟨bad, results⟩ := results
  refine ⟨failed, ⟨bad ++ [argv], ?_⟩, ⟨rest, pending, incomplete⟩, ?_⟩
  · rw [returns, results, List.map_append, List.append_assoc]
    rfl
  · intro other isReading
    cases isReading

theorem fine_write_failed (fine : Fine serve encode first good link)
    {argv : List Str} (writing : link.phase = .writing argv) :
    Broken serve first good (link.write argv .failed) := by
  obtain ⟨noErr, results, phase⟩ := fine
  rw [writing] at phase
  obtain ⟨-, -, notEmpty, -, pending, -⟩ := phase
  rw [write, RedisContext.bufferWrite, noErr]
  simp only [Option.isSome_none, Bool.false_eq_true, if_false, if_neg notEmpty]
  refine broken_returns rfl ⟨[], ?_⟩ pending incomplete_nil
  rw [results, List.map_nil, List.append_nil]

theorem broken_write (broken : Broken serve first good link)
    (argv : List Str) (result : IoResult) :
    Broken serve first good (link.write argv result) := by
  obtain ⟨failed, results, ⟨rest, pending, incomplete⟩, -⟩ := broken
  have stops : link.context.bufferWrite result = (link.context, none) :=
    if_pos failed
  rw [write, stops]
  exact broken_returns failed results pending incomplete

/-! ## The server -/

theorem Speaks.encode_ne_nil (speaks : Speaks serve encode) (server : Server)
    (argv : List Str) : encode (serve server argv).2 ≠ [] := by
  intro empty
  have wires := speaks.wires server argv
  rw [empty] at wires
  obtain ⟨rstack, left, waits⟩ := incomplete_nil
  have found := next_of_reply wires []
  rw [List.append_nil, waits] at found
  cases found

/-- The link when the server has taken a command. -/
def serveNext (serve : Server → List Str → Server × Reply)
    (encode : Reply → Str) (link : Link Server) (argv : List Str) :
    Link Server :=
  { link with
    server := (serve link.server argv).1
    toServer := link.toServer.drop (formatArgv argv).length
    fromServer := link.fromServer ++ encode (serve link.server argv).2 }

/-- The server can only take the command of the call, and only when all of it
has been written. -/
theorem fine_served (speaks : Speaks serve encode)
    (fine : Fine serve encode first good link) {argv : List Str}
    (counted : Counted argv) (arrived : formatArgv argv <+: link.toServer) :
    Fine serve encode first good (serveNext serve encode link argv) := by
  obtain ⟨noErr, results, phase⟩ := fine
  obtain ⟨more, arrived⟩ := arrived
  refine ⟨noErr, results, ?_⟩
  change InPhase serve encode _ _ link.phase
  cases isPhase : link.phase with
  | idle =>
      rw [isPhase] at phase
      rw [phase.2.1] at arrived
      exact absurd (List.append_eq_nil_iff.mp arrived).1 (formatArgv_ne_nil argv)
  | writing current =>
      rw [isPhase] at phase
      obtain ⟨sendable, bytes, notEmpty, -⟩ := phase
      rw [← arrived, List.append_assoc] at bytes
      have nothing :=
        (formatArgv_begins counted sendable.2.1 bytes.symm).2
      exact absurd (List.append_eq_nil_iff.mp nothing).2 notEmpty
  | reading current =>
      rw [isPhase] at phase
      obtain ⟨sendable, obuf, ⟨toServer, fromServer, pending, server⟩ |
        ⟨toServer, -⟩⟩ := phase
      · obtain ⟨rfl, rfl⟩ := formatArgv_begins counted sendable.2.1
          (toServer.symm.trans arrived.symm)
        have reply : link.fromServer ++ encode (serve link.server current).2 =
            encode (serve (after serve first good) current).2 := by
          rw [fromServer, server]
          rfl
        refine ⟨sendable, obuf, .inr ⟨?_, ?_, ?_, [], pending, ?_⟩⟩
        · change link.toServer.drop _ = []
          rw [toServer, List.drop_length]
        · change link.fromServer ++ _ ≠ []
          rw [reply]
          exact speaks.encode_ne_nil _ _
        · change (serve link.server current).1 = _
          rw [server]
        · exact reply
      · rw [toServer] at arrived
        exact absurd (List.append_eq_nil_iff.mp arrived).1
          (formatArgv_ne_nil argv)

theorem broken_served (broken : Broken serve first good link)
    (argv : List Str) :
    Broken serve first good (serveNext serve encode link argv) := by
  obtain ⟨failed, results, drained, notReading⟩ := broken
  exact ⟨failed, results, drained, notReading⟩

/-! ## Reading -/

theorem fine_read_failed (fine : Fine serve encode first good link)
    {argv : List Str} (reading : link.phase = .reading argv)
    (speaks : Speaks serve encode) {result : IoResult}
    (fails : result = .failed ∨ result = .count 0) :
    Broken serve first good (link.read argv result) := by
  obtain ⟨noErr, results, phase⟩ := fine
  rw [reading] at phase
  have drained : ∃ rest, Pending link.context.reader rest ∧
      Incomplete rest := by
    obtain ⟨-, -, ⟨-, -, pending, -⟩ | ⟨-, more, -, rest, pending, whole⟩⟩ :=
      phase
    · exact ⟨[], pending, incomplete_nil⟩
    · have wires := speaks.wires (after serve first good) argv
      rw [← whole] at wires
      exact ⟨rest, pending, incomplete_of_wires wires more⟩
  obtain ⟨rest, pending, incomplete⟩ := drained
  have stops : ∃ error, link.context.bufferRead result
      (link.fromServer.take result.bytes) =
        ({ link.context with err := some error }, false) := by
    rcases fails with rfl | rfl
    · exact ⟨.io, by rw [RedisContext.bufferRead, noErr]; rfl⟩
    · exact ⟨.eof, by rw [RedisContext.bufferRead, noErr]; rfl⟩
  obtain ⟨error, stops⟩ := stops
  rw [read]
  simp only [stops]
  refine broken_returns rfl ⟨[], ?_⟩ pending incomplete
  rw [List.map_nil, List.append_nil]
  exact results

/-- A read that leaves the reply incomplete, or that gets nothing. -/
theorem read_incomplete {argv : List Str} {result : IoResult}
    {context : RedisContext} {rest : Str}
    (reads : link.context.bufferRead result
      (link.fromServer.take result.bytes) = (context, true))
    (pending : Pending context.reader rest) (incomplete : Incomplete rest) :
    link.read argv result =
      { link with
        fromServer := link.fromServer.drop result.bytes
        context := { context with reader := context.reader.getReply.1 } } := by
  have nothing := (pending.getReply_none incomplete).1
  rw [read]
  simp only [reads, RedisContext.getReplyFromReader, nothing]

theorem read_complete {argv : List Str} {result : IoResult}
    {context : RedisContext} {rest : Str} {reply : Reply}
    (reads : link.context.bufferRead result
      (link.fromServer.take result.bytes) = (context, true))
    (pending : Pending context.reader rest) (wires : Wires 8 [reply] rest) :
    link.read argv result =
      returns { link with fromServer := link.fromServer.drop result.bytes }
        { context with reader := context.reader.getReply.1 } argv
        (some reply) := by
  have found := (pending.getReply_some wires).1
  rw [read]
  simp only [reads, RedisContext.getReplyFromReader, found]

theorem bufferRead_count {c : RedisContext} {rest : Str}
    (noErr : c.err = none) (pending : Pending c.reader rest) {number : ℕ}
    (positive : number ≠ 0) (chunk : Str) :
    c.bufferRead (.count number) chunk =
      ({ c with reader := c.reader.feed chunk }, true) := by
  rw [RedisContext.bufferRead, noErr]
  simp only [Option.isSome_none, Bool.false_eq_true, if_false, if_neg positive,
    pending.noErr]

theorem fine_read_interrupted (fine : Fine serve encode first good link)
    {argv : List Str} (reading : link.phase = .reading argv)
    (speaks : Speaks serve encode) :
    Fine serve encode first good (link.read argv .interrupted) := by
  obtain ⟨noErr, results, phase⟩ := fine
  rw [reading] at phase
  have reads : link.context.bufferRead .interrupted
      (link.fromServer.take (IoResult.bytes .interrupted)) =
        (link.context, true) := by
    rw [RedisContext.bufferRead, noErr]
    rfl
  obtain ⟨sendable, obuf, ⟨toServer, fromServer, pending, server⟩ |
    ⟨toServer, more, server, rest, pending, whole⟩⟩ := phase
  · rw [read_incomplete reads pending incomplete_nil]
    refine ⟨noErr, results, ?_⟩
    simp only [reading]
    have later := (pending.getReply_none incomplete_nil).2
    exact ⟨sendable, obuf, .inl ⟨toServer, fromServer, later, server⟩⟩
  · have wires := speaks.wires (after serve first good) argv
    rw [← whole] at wires
    have incomplete := incomplete_of_wires wires more
    rw [read_incomplete reads pending incomplete]
    refine ⟨noErr, results, ?_⟩
    simp only [reading]
    have later := (pending.getReply_none incomplete).2
    exact ⟨sendable, obuf,
      .inr ⟨toServer, more, server, rest, later, whole⟩⟩

/-- Bytes of the reply: with the last of them the call returns it. -/
theorem fine_read_count (fine : Fine serve encode first good link)
    {argv : List Str} (reading : link.phase = .reading argv)
    (speaks : Speaks serve encode) {number : ℕ} (positive : number ≠ 0)
    (fits : number ≤ link.fromServer.length) :
    (link.fromServer.drop number = [] ∧
        (link.read argv (.count number)).phase = .idle ∧
        Fine serve encode first (good ++ [argv])
          (link.read argv (.count number))) ∨
      (link.fromServer.drop number ≠ [] ∧
        (link.read argv (.count number)).phase = .reading argv ∧
        (link.read argv (.count number)).fromServer =
          link.fromServer.drop number ∧
        Fine serve encode first good (link.read argv (.count number))) := by
  obtain ⟨noErr, results, phase⟩ := fine
  rw [reading] at phase
  obtain ⟨sendable, obuf, ⟨-, fromServer, -⟩ |
    ⟨toServer, more, server, rest, pending, whole⟩⟩ := phase
  · rw [fromServer, List.length_nil] at fits
    omega
  · have split : rest ++ link.fromServer.take number ++
        link.fromServer.drop number =
          encode (serve (after serve first good) argv).2 := by
      rw [List.append_assoc, List.take_append_drop]
      exact whole
    have wires := speaks.wires (after serve first good) argv
    have short := speaks.short (after serve first good) argv
    rw [← split] at wires short
    have part : rest ++ link.fromServer.take number <+:
        rest ++ link.fromServer.take number ++
          link.fromServer.drop number :=
      List.prefix_append _ _
    have size := part.length_le
    have fed := pending.feed (show
        (rest ++ link.fromServer.take number).length + 1024 ≤ bufferBound by
      omega)
    have reads := bufferRead_count noErr pending positive
      (link.fromServer.take number)
    by_cases last : link.fromServer.drop number = []
    · left
      rw [last, List.append_nil] at wires
      rw [read_complete reads fed wires]
      refine ⟨last, rfl, noErr, ?_, obuf, toServer, last,
        (fed.getReply_some wires).2, ?_⟩
      · rw [answered_snoc, ← results]
        rfl
      · rw [after_snoc]
        exact server
    · right
      have incomplete := incomplete_of_wires wires last
      rw [read_incomplete reads fed incomplete]
      refine ⟨last, reading, rfl, noErr, results, ?_⟩
      simp only [reading]
      exact ⟨sendable, obuf, .inr ⟨toServer, last, server, _,
        (fed.getReply_none incomplete).2, split⟩⟩

/-! ## Runs -/

/-- Calls that were answered, then calls that failed. -/
def Answered (serve : Server → List Str → Server × Reply)
    (encode : Reply → Str) (first : Server) (link : Link Server) : Prop :=
  ∃ good, Fine serve encode first good link ∨ Broken serve first good link

theorem answered_step (speaks : Speaks serve encode) {event : LinkEvent}
    (answered : Answered serve encode first link)
    (taken : step serve encode link event = some next) :
    Answered serve encode first next := by
  obtain ⟨good, fine | broken⟩ := answered
  · cases event with
    | call argv =>
        simp only [step] at taken
        split at taken
        · rename_i idle
          split_ifs at taken with sendable
          cases taken
          exact ⟨good, .inl (fine_call fine idle sendable)⟩
        · cases taken
    | write result =>
        simp only [step] at taken
        split at taken
        · rename_i argv writing
          split_ifs at taken with fits
          cases taken
          cases result with
          | count number =>
              exact ⟨good, .inl (fine_write_count fine writing fits)⟩
          | interrupted =>
              exact ⟨good, .inl (fine_write_interrupted fine writing)⟩
          | failed => exact ⟨good, .inr (fine_write_failed fine writing)⟩
        · cases taken
    | served argv =>
        simp only [step] at taken
        split_ifs at taken with arrived
        cases taken
        exact ⟨good, .inl (fine_served speaks fine arrived.1 arrived.2)⟩
    | read result =>
        simp only [step] at taken
        split at taken
        · rename_i argv reading
          split_ifs at taken with fits
          cases taken
          cases result with
          | count number =>
              by_cases ends : number = 0
              · subst ends
                exact ⟨good,
                  .inr (fine_read_failed fine reading speaks (.inr rfl))⟩
              · have inside : number ≤ link.fromServer.length :=
                  le_trans fits (Nat.min_le_right _ _)
                rcases fine_read_count fine reading speaks ends inside with
                  ⟨-, -, longer⟩ | ⟨-, -, -, same⟩
                · exact ⟨good ++ [argv], .inl longer⟩
                · exact ⟨good, .inl same⟩
          | interrupted =>
              exact ⟨good, .inl (fine_read_interrupted fine reading speaks)⟩
          | failed =>
              exact ⟨good,
                .inr (fine_read_failed fine reading speaks (.inl rfl))⟩
        · cases taken
  · cases event with
    | call argv =>
        simp only [step] at taken
        split at taken
        · split_ifs at taken
          cases taken
          exact ⟨good, .inr (broken_call broken argv)⟩
        · cases taken
    | write result =>
        simp only [step] at taken
        split at taken
        · rename_i argv _
          split_ifs at taken
          cases taken
          exact ⟨good, .inr (broken_write broken argv result)⟩
        · cases taken
    | served argv =>
        simp only [step] at taken
        split_ifs at taken
        cases taken
        exact ⟨good, .inr (broken_served broken argv)⟩
    | read result =>
        simp only [step] at taken
        split at taken
        · rename_i argv reading
          exact absurd reading (broken.notReading argv)
        · cases taken

/-- A server that says whether it has seen an even number of commands. -/
def parity (even : Bool) (_ : List Str) : Bool × Reply :=
  (!even, .status (if even then ascii "even" else ascii "odd"))

def encodeStatus : Reply → Str
  | .status text => ascii "+" ++ text ++ crlf
  | _ => []

theorem parity_speaks : Speaks parity encodeStatus := by
  have status (text : Str) (clean : ¬ crlf <:+: text) :
      Wires 8 [.status text] (encodeStatus (.status text)) := by
    have wires := Wires.leaf (Leaf.status clean) (.nil 8)
    rw [List.append_nil] at wires
    exact wires
  constructor
  · intro even argv
    cases even
    · exact status _ (by decide)
    · exact status _ (by decide)
  · intro even argv
    have size : (encodeStatus (parity even argv).2).length ≤ 7 := by
      cases even
      · exact (by decide : (encodeStatus (.status (ascii "odd"))).length ≤ 7)
      · exact (by decide : (encodeStatus (.status (ascii "even"))).length ≤ 7)
    have : bufferBound = 2147483648 := rfl
    omega

/-- Two calls over a connection that cuts the bytes, and a third one that
fails. -/
def threeCalls : List LinkEvent :=
  let ping := [ascii "PING"]
  [.call ping, .write (.count 5), .write .interrupted, .write (.count 9),
    .served ping, .read (.count 3), .read .interrupted, .read (.count 4),
    .call ping, .write (.count 14), .served ping, .read (.count 6),
    .call ping, .write (.count 3), .write .failed]

/-- The link goes on to a state in which no call is under way, and in which
nothing has failed. -/
def Completes (serve : Server → List Str → Server × Reply)
    (encode : Reply → Str) (first : Server) (good : List (List Str))
    (link : Link Server) : Prop :=
  ∃ events final, Lib.exec (step serve encode) link events = some final ∧
    final.phase = .idle ∧ Fine serve encode first good final

theorem completes_step {event : LinkEvent}
    (taken : step serve encode link event = some next)
    (completes : Completes serve encode first good next) :
    Completes serve encode first good link := by
  obtain ⟨events, final, ran, finishes⟩ := completes
  exact ⟨event :: events, final,
    Lib.exec_cons_iff.mpr ⟨next, taken, ran⟩, finishes⟩

/-- The answer has been sent: it is read, piece by piece. -/
theorem completes_reading (speaks : Speaks serve encode)
    (fine : Fine serve encode first good link) {argv : List Str}
    (reading : link.phase = .reading argv) (arrived : link.fromServer ≠ []) :
    Completes serve encode first (good ++ [argv]) link := by
  induction size : link.fromServer.length using Nat.strongRecOn
    generalizing link with
  | _ size induction =>
      have more := List.length_pos_of_ne_nil arrived
      have someBytes : min readSize link.fromServer.length ≠ 0 := by
        have : readSize = 16384 := rfl
        omega
      have taken : step serve encode link
          (.read (.count (min readSize link.fromServer.length))) =
            some (link.read argv
              (.count (min readSize link.fromServer.length))) := by
        simp only [step, reading]
        exact if_pos (le_refl _)
      apply completes_step taken
      rcases fine_read_count fine reading speaks someBytes
          (Nat.min_le_right _ _) with
        ⟨-, idle, longer⟩ | ⟨left, stays, rest, same⟩
      · exact ⟨[], _, rfl, idle, longer⟩
      · refine induction _ ?_ same stays (rest ▸ left) rfl
        rw [rest, List.length_drop]
        omega

theorem completes_unserved (speaks : Speaks serve encode)
    (fine : Fine serve encode first good link) {argv : List Str}
    (reading : link.phase = .reading argv) :
    Completes serve encode first (good ++ [argv]) link := by
  by_cases arrived : link.fromServer = []
  · have phase := fine.phase
    rw [reading] at phase
    obtain ⟨sendable, -, ⟨toServer, -⟩ | ⟨-, more, -⟩⟩ := phase
    · have whole : formatArgv argv <+: link.toServer := by rw [toServer]
      have taken : step serve encode link (.served argv) =
          some (serveNext serve encode link argv) :=
        if_pos ⟨sendable.2.1, whole⟩
      have later := fine_served speaks fine sendable.2.1 whole
      apply completes_step taken
      apply completes_reading speaks later reading
      change link.fromServer ++ _ ≠ []
      rw [arrived]
      exact speaks.encode_ne_nil _ _
    · exact absurd arrived more
  · exact completes_reading speaks fine reading arrived

theorem completes_writing (speaks : Speaks serve encode)
    (fine : Fine serve encode first good link) {argv : List Str}
    (writing : link.phase = .writing argv) :
    Completes serve encode first (good ++ [argv]) link := by
  have taken : step serve encode link
      (.write (.count link.context.obuf.length)) =
        some (link.write argv (.count link.context.obuf.length)) := by
    simp only [step, writing]
    exact if_pos (le_refl _)
  have later := fine_write_count fine writing (le_refl _)
  apply completes_step taken
  apply completes_unserved speaks later
  have phase := fine.phase
  rw [writing] at phase
  obtain ⟨sendable, bytes, notEmpty, -⟩ := phase
  rw [write, bufferWrite_count fine.noErr notEmpty
    (obuf_small sendable bytes) (le_refl _), List.drop_length]
  rfl

/-- **No call hangs.**  As long as nothing fails, a call that is under way can
be written, served and read to its end, and it is answered. -/
theorem call_completes (speaks : Speaks serve encode) {server : Server}
    {events : List LinkEvent}
    (ran : Lib.exec (step serve encode) (start server) events = some link)
    (noErr : link.context.err = none) :
    ∃ rest final good, Lib.exec (step serve encode) link rest = some final ∧
      final.phase = .idle ∧ final.context.err = none ∧
      link.results = answered serve server good ∧
      final.results = answered serve server (good ++ link.phase.underWay) := by
  have invariant : Answered serve encode server link :=
    Lib.exec_invariant (fun answered taken => answered_step speaks answered taken)
      ⟨[], .inl (fine_start server)⟩ ran
  obtain ⟨good, fine | broken⟩ := invariant
  · have completes : Completes serve encode server
        (good ++ link.phase.underWay) link := by
      cases phase : link.phase with
      | idle =>
          refine ⟨[], link, rfl, phase, ?_⟩
          rw [Phase.underWay, List.append_nil]
          exact fine
      | writing argv => exact completes_writing speaks fine phase
      | reading argv => exact completes_unserved speaks fine phase
    obtain ⟨rest, final, finishes, idle, fineFinal⟩ := completes
    exact ⟨rest, final, good, finishes, idle, fineFinal.noErr, fine.results,
      fineFinal.results⟩
  · have failed := broken.failed
    rw [noErr] at failed
    cases failed

/-- The first call, in the middle of its command. -/
theorem call_completes_halfWritten : ∃ link,
    Lib.exec (step parity encodeStatus) (start true) (threeCalls.take 2) =
        some link ∧
      ∃ rest final good,
        Lib.exec (step parity encodeStatus) link rest = some final ∧
          final.phase = .idle ∧ final.context.err = none ∧
          link.results = answered parity true good ∧
          final.results =
            answered parity true (good ++ link.phase.underWay) := by
  obtain ⟨link, ran, noErr⟩ : ∃ link, Lib.exec (step parity encodeStatus)
      (start true) (threeCalls.take 2) = some link ∧
        link.context.err = none := ⟨_, rfl, rfl⟩
  exact ⟨link, ran, call_completes parity_speaks ran noErr⟩

end Answers

end Link

end Hiredis

end ChatRoom
