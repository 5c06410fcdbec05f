import ChatRoom.Lib.Run
import ChatRoom.Redis.CommandText

/-!
# The Redis session of a `CacheConn`

Every method of `CacheConn` starts with `Init`, sends one command over the
shared `context_` and treats a `NULL` reply in its own way.  The outcome of
each interaction with Redis is part of the event, so a run ranges over every
order of failures.
-/

namespace ChatRoom

/-- A `redisReply`. -/
inductive Reply where
  | status (text : Str)
  | error (text : Str)
  | integer (value : Int)
  | string (text : Str)
  | nil
  | array (elements : List Reply)

/-- What the server has accepted on a `redisContext`, and its `err` field. -/
structure Context where
  err : Bool
  authed : Bool
  selected : Option Int
  deriving DecidableEq

structure CacheConn where
  dbIndex : Int
  password : Str
  context : Option Context
  lastConnectTime : Nat
  deriving DecidableEq

namespace CacheConn

/-! ## `Init` -/

/-- What `redisConnectWithTimeout` gives: no context at all, one with `err`
set, or a connected one. -/
inductive Connect where
  | noContext
  | refused
  | connected
  deriving DecidableEq

/-- What Redis answers during one `Init`; `none` is a `NULL` reply. -/
structure InitReplies where
  connect : Connect
  auth : Option Reply
  select : Option Reply

/-- The end of `Init`: `SELECT 0`, whatever the pool's `db_index_` is.  A
context that is not selected is kept. -/
def selectDb (conn : CacheConn) (context : Context) :
    Option Reply → Int × CacheConn
  | some (.status text) =>
      if text.take 2 = ascii "OK" then
        (0, { conn with context := some { context with selected := some 0 } })
      else (2, { conn with context := some context })
  | some _ => (2, { conn with context := some context })
  | none => (2, { conn with context := some { context with err := true } })

/-- `CacheConn::Init`, with its return value. -/
def init (conn : CacheConn) (now : Nat) (replies : InitReplies) :
    Int × CacheConn :=
  if conn.context.isSome then (0, conn)
  else if now < conn.lastConnectTime + 1 then (1, conn)
  else
    let conn := { conn with lastConnectTime := now }
    match replies.connect with
    | .noContext => (1, conn)
    | .refused => (1, conn)
    | .connected =>
        let context : Context := ⟨false, false, none⟩
        if conn.password ≠ [] then
          match replies.auth with
          | none => (-1, { conn with context := some { context with err := true } })
          | some (.error _) => (-1, { conn with context := some context })
          | some _ => conn.selectDb { context with authed := true } replies.select
        else conn.selectDb context replies.select

/-! ## The commands -/

/-- How a method hands its command to hiredis. -/
inductive CommandText where
  | format (text : Str) (args : List VArg)
  | argv (words : List Str)

/-- The argument vector hiredis sends.  `redisCommandArgv` is called without
lengths, so it measures its words by `strlen`. -/
def CommandText.sent (printf : Str → Int → Str) : CommandText → FormatResult
  | .format text args => redisvFormatCommand printf text args
  | .argv words => .ok (words.map cStr)

/-- A call of one of the command methods, with its arguments.  `hgetInto` is
the overload of `Hget` that fills a buffer; the pairs of `hmset` come in the
order of its map. -/
inductive Command where
  | get (key : Str)
  | set (key value : Str)
  | setEx (key : Str) (timeout : Int) (value : Str)
  | mGet (keys : List Str)
  | isExists (key : Str)
  | del (key : Str)
  | hdel (key field : Str)
  | hget (key field : Str)
  | hgetInto (key field : Str)
  | hgetAll (key : Str)
  | hset (key field value : Str)
  | hincrBy (key field : Str) (value : Int)
  | incrBy (key : Str) (value : Int)
  | hmset (key : Str) (hash : List (Str × Str))
  | hmget (key : Str) (fields : List Str)
  | incr (key : Str)
  | decr (key : Str)
  | lpush (key value : Str)
  | rpush (key value : Str)
  | llen (key : Str)
  | lrange (key : Str) (start stop : Int)
  | zsetExit (key member : Str)
  | zsetAdd (key : Str) (score : Int) (member : Str)
  | zsetZrem (key member : Str)
  | zsetIncr (key member : Str)
  | zsetZcard (key : Str)
  | zsetZrevrange (key : Str) (fromPos endPos : Int)
  | zsetGetScore (key member : Str)
  | getXrevrange (key start stop : Str) (count : Int)
  | xadd (key id : Str) (fieldValuePairs : List (Str × Str))
  | flushDb

namespace Command

/-- The command a method sends, `none` when it returns before sending. -/
def text : Command → Option CommandText
  | get key => some (.format (ascii "GET %s") [.str key])
  | set key value => some (.format (ascii "SET %s %s") [.str key, .str value])
  | setEx key timeout value =>
      some (.format (ascii "SETEX %s %d %s") [.str key, .int timeout, .str value])
  | mGet keys => (mGetCommand keys).map fun command => .format command []
  | isExists key => some (.format (ascii "EXISTS %s") [.str key])
  | del key => some (.format (ascii "DEL %s") [.str key])
  | hdel key field => some (.format (ascii "HDEL %s %s") [.str key, .str field])
  | hget key field => some (.format (ascii "HGET %s %s") [.str key, .str field])
  | hgetInto key field =>
      some (.format (ascii "hget %s %s") [.str key, .str field])
  | hgetAll key => some (.format (ascii "HGETALL %s") [.str key])
  | hset key field value =>
      some (.format (ascii "HSET %s %s %s") [.str key, .str field, .str value])
  | hincrBy key field value =>
      some (.format (ascii "HINCRBY %s %s %ld")
        [.str key, .str field, .int value])
  | incrBy key value =>
      some (.format (ascii "INCRBY %s %ld") [.str key, .int value])
  | hmset key hash =>
      some (.argv (ascii "HMSET" :: key ::
        hash.flatMap fun pair => [pair.1, pair.2]))
  | hmget key fields => some (.argv (ascii "HMGET" :: key :: fields))
  | incr key => some (.format (ascii "INCR %s") [.str key])
  | decr key => some (.format (ascii "DECR %s") [.str key])
  | lpush key value =>
      some (.format (ascii "LPUSH %s %s") [.str key, .str value])
  | rpush key value =>
      some (.format (ascii "RPUSH %s %s") [.str key, .str value])
  | llen key => some (.format (ascii "LLEN %s") [.str key])
  | lrange key start stop =>
      some (.format (ascii "LRANGE %s %d %d") [.str key, .int start, .int stop])
  | zsetExit key member =>
      some (.format (ascii "zlexcount %s [%s [%s")
        [.str key, .str member, .str member])
  | zsetAdd key score member =>
      some (.format (ascii "ZADD %s %ld %s") [.str key, .int score, .str member])
  | zsetZrem key member =>
      some (.format (ascii "ZREM %s %s") [.str key, .str member])
  | zsetIncr key member =>
      some (.format (ascii "ZINCRBY %s 1 %s") [.str key, .str member])
  | zsetZcard key => some (.format (ascii "ZCARD %s") [.str key])
  | zsetZrevrange key fromPos endPos =>
      some (.format (ascii "ZREVRANGE %s %d %d")
        [.str key, .int fromPos, .int endPos])
  | zsetGetScore key member =>
      some (.format (ascii "ZSCORE %s %s") [.str key, .str member])
  | getXrevrange key start stop count =>
      some (.format (getXrevrangeCommand key start stop count) [])
  | xadd key id fieldValuePairs =>
      some (.format (xaddCommand key id fieldValuePairs) [])
  | flushDb => some (.format (ascii "FLUSHDB") [])

/-- What a method does when `redisCommand` returns `NULL`. -/
inductive OnNull where
  | freesContext
  | keepsContext
  | dereferences
  deriving DecidableEq

def onNull : Command → OnNull
  | hgetInto .. | getXrevrange .. | xadd .. => .keepsContext
  | zsetExit .. | zsetAdd .. | zsetZrem .. | zsetIncr .. | zsetZcard ..
  | zsetZrevrange .. | zsetGetScore .. => .dereferences
  | _ => .freesContext

end Command

/-! ## Runs -/

/-- A connection between two calls, or a process that went on through a
`NULL` pointer or a missing variadic argument. -/
inductive Session where
  | running (conn : CacheConn)
  | crashed
  deriving DecidableEq

/-- The branch of a method behind a `NULL` reply, which leaves `err` set. -/
def afterNull (conn : CacheConn) (context : Context) (command : Command) :
    Session :=
  match command.onNull with
  | .freesContext => .running { conn with context := none }
  | .keepsContext =>
      .running { conn with context := some { context with err := true } }
  | .dereferences => .crashed

/-- A command method.  `reply` is what Redis answers if the command is sent;
a context in error sends nothing. -/
def call (printf : Str → Int → Str) (conn : CacheConn) (command : Command)
    (now : Nat) (replies : InitReplies) (reply : Option Reply) : Session :=
  let (ret, conn) := conn.init now replies
  if ret ≠ 0 then .running conn
  else
    match conn.context, command.text with
    | some context, some text =>
        match text.sent printf with
        | .undefined => .crashed
        | .formatError => afterNull conn context command
        | .ok _ =>
            if context.err then afterNull conn context command
            else
              match reply with
              | none => afterNull conn context command
              | some _ => .running conn
    | _, _ => .running conn

inductive Event where
  | init (now : Nat) (replies : InitReplies)
  | call (command : Command) (now : Nat) (replies : InitReplies)
      (reply : Option Reply)

def step (printf : Str → Int → Str) : Session → Event → Option Session
  | .running conn, .init now replies => some (.running (conn.init now replies).2)
  | .running conn, .call command now replies reply =>
      some (call printf conn command now replies reply)
  | .crashed, _ => none

/-! ## The invariant -/

/-- The context, if there is one, is free of errors, authenticated and on the
database of the pool. -/
def Healthy (conn : CacheConn) : Prop :=
  ∀ context, conn.context = some context →
    context.err = false ∧ (conn.password ≠ [] → context.authed = true) ∧
      context.selected = some conn.dbIndex

def authAccepted (password : Str) (replies : InitReplies) : Prop :=
  password ≠ [] → ∃ reply, replies.auth = some reply ∧ ∀ text, reply ≠ .error text

def selectAccepted (replies : InitReplies) : Prop :=
  ∃ text, replies.select = some (.status text) ∧ text.take 2 = ascii "OK"

/-- An `Init` outside the retry limit that Redis answers ends on a context
without an error. -/
def Recovers (conn : CacheConn) : Prop :=
  ∀ now replies, conn.lastConnectTime + 1 ≤ now →
    replies.connect = .connected → authAccepted conn.password replies →
    selectAccepted replies →
    (conn.init now replies).1 = 0 ∧
      ∃ context, (conn.init now replies).2.context = some context ∧
        context.err = false

/-- What the pool expects of a connection between two calls. -/
def Usable : Session → Prop
  | .running conn => Healthy conn ∧ Recovers conn
  | .crashed => False

/-! ## The steps that keep it -/

/-- `Init` gets a fresh connection. -/
def Reconnects (conn : CacheConn) (now : Nat) (replies : InitReplies) : Prop :=
  conn.context = none ∧ conn.lastConnectTime + 1 ≤ now ∧
    replies.connect = .connected

/-- A fresh connection is accepted to the end of `Init`. -/
def InitMeets (conn : CacheConn) (now : Nat) (replies : InitReplies) : Prop :=
  Reconnects conn now replies →
    authAccepted conn.password replies ∧ selectAccepted replies

/-- The command reaches `redisCommand`. -/
def Sends (conn : CacheConn) (now : Nat) (replies : InitReplies) : Prop :=
  conn.context ≠ none ∨ Reconnects conn now replies

/-- hiredis rejects the text of the command, or no reply comes. -/
def Fails (printf : Str → Int → Str) (text : CommandText)
    (reply : Option Reply) : Prop :=
  text.sent printf = .formatError ∨ reply.isNone

/-- The command is formatted and answered, or its method frees the context. -/
def CommandMeets (printf : Str → Int → Str) (command : Command)
    (reply : Option Reply) : Prop :=
  ∀ text, command.text = some text →
    text.sent printf ≠ .undefined ∧
      (Fails printf text reply → command.onNull = .freesContext)

/-- The command fails and its method frees the context. -/
def CommandFrees (printf : Str → Int → Str) (command : Command)
    (reply : Option Reply) : Prop :=
  command.onNull = .freesContext ∧
    ∃ text, command.text = some text ∧ Fails printf text reply

/-- A step under which a usable connection stays usable.  On a pool of
another database than 0 only a fresh connection that is freed at once will
do. -/
def guard (printf : Str → Int → Str) : Session → Event → Prop
  | .running conn, .init now replies =>
      InitMeets conn now replies ∧
        (Reconnects conn now replies → conn.dbIndex = 0)
  | .running conn, .call command now replies reply =>
      InitMeets conn now replies ∧
        (Sends conn now replies → CommandMeets printf command reply) ∧
        (Reconnects conn now replies →
          conn.dbIndex = 0 ∨ CommandFrees printf command reply)
  | .crashed, _ => True

/-! ## What `Init` can do -/

theorem init_of_context {conn : CacheConn} {context : Context}
    (present : conn.context = some context) (now : Nat)
    (replies : InitReplies) : conn.init now replies = (0, conn) := by
  simp [init, present]

theorem init_of_limit {conn : CacheConn} {now : Nat}
    (absent : conn.context = none) (limited : now < conn.lastConnectTime + 1)
    (replies : InitReplies) : conn.init now replies = (1, conn) := by
  simp [init, absent, limited]

theorem init_of_unconnected {conn : CacheConn} {now : Nat}
    {replies : InitReplies} (absent : conn.context = none)
    (allowed : conn.lastConnectTime + 1 ≤ now)
    (unconnected : replies.connect ≠ .connected) :
    conn.init now replies = (1, { conn with lastConnectTime := now }) := by
  have notLimited : ¬ now < conn.lastConnectTime + 1 := by omega
  cases connect : replies.connect with
  | noContext => simp [init, absent, notLimited, connect]
  | refused => simp [init, absent, notLimited, connect]
  | connected => exact absurd connect unconnected

theorem init_of_accepted {conn : CacheConn} {now : Nat}
    {replies : InitReplies} (fresh : Reconnects conn now replies)
    (auth : authAccepted conn.password replies)
    (select : selectAccepted replies) :
    ∃ authed, (conn.password ≠ [] → authed = true) ∧
      conn.init now replies =
        (0, { conn with
          lastConnectTime := now, context := some ⟨false, authed, some 0⟩ }) := by
  obtain ⟨absent, allowed, connected⟩ := fresh
  have notLimited : ¬ now < conn.lastConnectTime + 1 := by omega
  obtain ⟨text, selected, isOk⟩ := select
  by_cases noPassword : conn.password = []
  · refine ⟨false, fun password => absurd noPassword password, ?_⟩
    simp [init, absent, notLimited, connected, noPassword, selectDb, selected,
      isOk]
  · obtain ⟨reply, answered, notError⟩ := auth noPassword
    refine ⟨true, fun _ => rfl, ?_⟩
    cases reply with
    | error message => exact absurd rfl (notError message)
    | status message | integer value | string message | nil | array elements =>
        simp [init, absent, notLimited, connected, noPassword, answered,
          selectDb, selected, isOk]

/-- `Init` ended well: by its return value, or by the context it left. -/
def EndsWell (result : Int × CacheConn) : Prop :=
  result.1 = 0 ∨ Healthy result.2

theorem selectAccepted_of_selectDb {conn : CacheConn} {authed : Bool}
    {replies : InitReplies}
    (well : EndsWell (conn.selectDb ⟨false, authed, none⟩ replies.select)) :
    selectAccepted replies := by
  rcases answered : replies.select with _ | reply
  · rw [answered] at well
    rcases well with zero | healthy
    · cases zero
    · cases (healthy _ rfl).1
  · cases reply with
    | status text =>
        by_cases isOk : text.take 2 = ascii "OK"
        · exact ⟨text, answered, isOk⟩
        · rw [answered, selectDb, if_neg isOk] at well
          rcases well with zero | healthy
          · cases zero
          · cases (healthy _ rfl).2.2
    | error text | integer value | string text | nil | array elements =>
        rw [answered, selectDb] at well
        · rcases well with zero | healthy
          · cases zero
          · cases (healthy _ rfl).2.2
        · simp

/-- A fresh connection ends well only if Redis accepted all of it. -/
theorem accepted_of_init {conn : CacheConn} {now : Nat}
    {replies : InitReplies} (fresh : Reconnects conn now replies)
    (well : EndsWell (conn.init now replies)) :
    authAccepted conn.password replies ∧ selectAccepted replies := by
  obtain ⟨absent, allowed, connected⟩ := fresh
  have notLimited : ¬ now < conn.lastConnectTime + 1 := by omega
  simp only [init, absent, Option.isSome_none, Bool.false_eq_true, if_false,
    if_neg notLimited, connected] at well
  by_cases noPassword : conn.password = []
  · simp only [noPassword, ne_eq, not_true_eq_false, if_false] at well
    exact ⟨fun password => absurd noPassword password,
      selectAccepted_of_selectDb well⟩
  · simp only [noPassword, ne_eq, not_false_eq_true, if_true] at well
    rcases answered : replies.auth with _ | reply
    · rw [answered] at well
      rcases well with nonzero | healthy
      · cases nonzero
      · cases (healthy _ rfl).1
    · rw [answered] at well
      cases reply with
      | error text =>
          rcases well with nonzero | healthy
          · cases nonzero
          · cases (healthy _ rfl).2.2
      | status text | integer value | string text | nil | array elements =>
          exact ⟨fun _ => ⟨_, answered, by simp⟩,
            selectAccepted_of_selectDb well⟩

theorem initMeets_of_endsWell {conn : CacheConn} {now : Nat}
    {replies : InitReplies} (well : EndsWell (conn.init now replies)) :
    InitMeets conn now replies := by
  intro fresh
  exact accepted_of_init fresh well

/-- `Init` under the guard either returns an error and stays healthy, or ends
on a context over which a command can be sent. -/
theorem init_cases {conn : CacheConn} {now : Nat} {replies : InitReplies}
    (healthy : Healthy conn) (meets : InitMeets conn now replies) :
    (Sends conn now replies ∧ (conn.init now replies).1 = 0 ∧
      (∃ context, (conn.init now replies).2.context = some context ∧
        context.err = false) ∧
      (Healthy (conn.init now replies).2 ↔
        (Reconnects conn now replies → conn.dbIndex = 0))) ∨
    (¬ Sends conn now replies ∧ (conn.init now replies).1 ≠ 0 ∧
      Healthy (conn.init now replies).2) := by
  cases present : conn.context with
  | some context =>
      have stays : ¬ Reconnects conn now replies := by
        intro fresh
        cases present.symm.trans fresh.1
      left
      rw [init_of_context present]
      refine ⟨.inl (by simp [present]), rfl,
        ⟨context, present, (healthy context present).1⟩, ?_⟩
      exact ⟨fun _ fresh => absurd fresh stays, fun _ => healthy⟩
  | none =>
      by_cases fresh : Reconnects conn now replies
      · obtain ⟨auth, select⟩ := meets fresh
        obtain ⟨authed, password, result⟩ := init_of_accepted fresh auth select
        left
        rw [result]
        refine ⟨.inr fresh, rfl, ⟨_, rfl, rfl⟩, ?_⟩
        constructor
        · intro later _
          exact (Option.some.inj (later _ rfl).2.2).symm
        · intro isZero context equality
          cases equality
          exact ⟨rfl, password, by simp [isZero fresh]⟩
      · right
        refine ⟨?_, ?_⟩
        · intro sends
          rcases sends with other | again
          · exact other present
          · exact fresh again
        · by_cases limited : now < conn.lastConnectTime + 1
          · rw [init_of_limit present limited]
            exact ⟨by simp, healthy⟩
          · have allowed : conn.lastConnectTime + 1 ≤ now := by omega
            have unconnected : replies.connect ≠ .connected := by
              intro connected
              exact fresh ⟨present, allowed, connected⟩
            rw [init_of_unconnected present allowed unconnected]
            exact ⟨by simp, fun context some => healthy context some⟩

/-! ## What a command can do -/

theorem call_of_init_failed {printf : Str → Int → Str} {conn : CacheConn}
    {now : Nat} {replies : InitReplies}
    (failed : (conn.init now replies).1 ≠ 0) (command : Command)
    (reply : Option Reply) :
    call printf conn command now replies reply =
      .running (conn.init now replies).2 := by
  simp [call, failed]

/-- After a successful `Init` the command changes nothing, crashes, or takes
the branch behind a `NULL` reply. -/
theorem call_cases {printf : Str → Int → Str} {conn : CacheConn}
    {now : Nat} {replies : InitReplies} {context : Context}
    (ready : (conn.init now replies).1 = 0)
    (present : (conn.init now replies).2.context = some context)
    (noError : context.err = false) (command : Command)
    (reply : Option Reply) :
    ((∀ text, command.text = some text →
        text.sent printf ≠ .undefined ∧ ¬ Fails printf text reply) ∧
      call printf conn command now replies reply =
        .running (conn.init now replies).2) ∨
    (∃ text, command.text = some text ∧ text.sent printf = .undefined ∧
      call printf conn command now replies reply = .crashed) ∨
    (∃ text, command.text = some text ∧ text.sent printf ≠ .undefined ∧
      Fails printf text reply ∧
      call printf conn command now replies reply =
        afterNull (conn.init now replies).2 context command) := by
  cases built : command.text with
  | none =>
      left
      simp [call, ready, present, built]
  | some text =>
      cases sent : text.sent printf with
      | undefined =>
          right; left
          exact ⟨text, rfl, sent, by simp [call, ready, present, built, sent]⟩
      | formatError =>
          right; right
          exact ⟨text, rfl, by simp [sent], .inl sent,
            by simp [call, ready, present, built, sent]⟩
      | ok argv =>
          cases reply with
          | none =>
              right; right
              exact ⟨text, rfl, by simp [sent], .inr rfl,
                by simp [call, ready, present, built, sent, noError]⟩
          | some reply =>
              left
              simp [call, ready, present, built, sent, noError, Fails]

theorem afterNull_healthy_iff {conn : CacheConn} {context : Context}
    {command : Command} :
    (∃ next, afterNull conn context command = .running next ∧ Healthy next) ↔
      command.onNull = .freesContext := by
  cases kind : command.onNull with
  | freesContext => simp [afterNull, kind, Healthy]
  | keepsContext => simp [afterNull, kind, Healthy]
  | dereferences => simp [afterNull, kind]

/-- What a command must do after a successful `Init` to leave a healthy
connection. -/
theorem call_healthy_iff {printf : Str → Int → Str} {conn : CacheConn}
    {now : Nat} {replies : InitReplies} {context : Context}
    (ready : (conn.init now replies).1 = 0)
    (present : (conn.init now replies).2.context = some context)
    (noError : context.err = false) (command : Command)
    (reply : Option Reply) :
    (∃ next, call printf conn command now replies reply = .running next ∧
      Healthy next) ↔
    CommandMeets printf command reply ∧
      (Healthy (conn.init now replies).2 ∨
        CommandFrees printf command reply) := by
  rcases call_cases ready present noError command reply with
    ⟨answered, result⟩ | ⟨text, built, undefined, result⟩ |
    ⟨text, built, defined, fails, result⟩
  · rw [result]
    constructor
    · intro running
      obtain ⟨next, equality, healthy⟩ := running
      cases equality
      refine ⟨?_, .inl healthy⟩
      intro text built
      obtain ⟨defined, succeeds⟩ := answered text built
      exact ⟨defined, fun fails => absurd fails succeeds⟩
    · intro meets
      rcases meets.2 with healthy | ⟨-, text, built, fails⟩
      · exact ⟨_, rfl, healthy⟩
      · exact absurd fails (answered text built).2
  · rw [result]
    constructor
    · intro running
      obtain ⟨next, equality, -⟩ := running
      cases equality
    · intro meets
      exact absurd undefined (meets.1 text built).1
  · rw [result, afterNull_healthy_iff]
    constructor
    · intro frees
      refine ⟨?_, .inr ⟨frees, text, built, fails⟩⟩
      intro other otherBuilt
      rw [built] at otherBuilt
      cases otherBuilt
      exact ⟨defined, fun _ => frees⟩
    · intro meets
      exact (meets.1 text built).2 fails

/-! ## Runs -/

theorem Healthy.recovers {conn : CacheConn} (healthy : Healthy conn) :
    Recovers conn := by
  intro now replies allowed connected auth select
  cases present : conn.context with
  | some context =>
      rw [init_of_context present]
      exact ⟨rfl, context, present, (healthy context present).1⟩
  | none =>
      obtain ⟨authed, -, result⟩ :=
        init_of_accepted ⟨present, allowed, connected⟩ auth select
      rw [result]
      exact ⟨rfl, _, rfl, rfl⟩

theorem usable_iff {session : Session} :
    Usable session ↔ ∃ conn, session = .running conn ∧ Healthy conn := by
  cases session with
  | running conn =>
      constructor
      · intro usable
        exact ⟨conn, rfl, usable.1⟩
      · intro running
        obtain ⟨other, equality, healthy⟩ := running
        cases equality
        exact ⟨healthy, healthy.recovers⟩
  | crashed => simp [Usable]

theorem init_healthy_iff {conn : CacheConn} (healthy : Healthy conn)
    (now : Nat) (replies : InitReplies) :
    Healthy (conn.init now replies).2 ↔
      InitMeets conn now replies ∧
        (Reconnects conn now replies → conn.dbIndex = 0) := by
  constructor
  · intro later
    have meets := initMeets_of_endsWell (.inr later)
    refine ⟨meets, ?_⟩
    rcases init_cases healthy meets with
      ⟨-, -, -, onZero⟩ | ⟨silent, -, -⟩
    · exact onZero.mp later
    · intro fresh
      exact absurd (.inr fresh) silent
  · intro guarded
    obtain ⟨meets, isZero⟩ := guarded
    rcases init_cases healthy meets with
      ⟨-, -, -, onZero⟩ | ⟨-, -, later⟩
    · exact onZero.mpr isZero
    · exact later

/-- One step from a usable connection ends usable exactly under the guard. -/
theorem step_usable_iff {printf : Str → Int → Str}
    {session next : Session} {event : Event} (usable : Usable session)
    (taken : step printf session event = some next) :
    Usable next ↔ guard printf session event := by
  obtain ⟨conn, rfl, healthy⟩ := usable_iff.mp usable
  cases event with
  | init now replies =>
      simp only [step, Option.some.injEq] at taken
      subst taken
      have later := init_healthy_iff healthy now replies
      constructor
      · intro usableNext
        exact later.mp usableNext.1
      · intro guarded
        have healthyNext := later.mpr guarded
        exact ⟨healthyNext, healthyNext.recovers⟩
  | call command now replies reply =>
      simp only [step, Option.some.injEq] at taken
      subst taken
      rw [usable_iff]
      constructor
      · intro running
        have meets : InitMeets conn now replies := by
          by_cases failed : (conn.init now replies).1 = 0
          · exact initMeets_of_endsWell (.inl failed)
          · rw [call_of_init_failed failed] at running
            obtain ⟨next, equality, healthyNext⟩ := running
            cases equality
            exact initMeets_of_endsWell (.inr healthyNext)
        rcases init_cases healthy meets with
          ⟨-, zero, ⟨context, present, noError⟩, onZero⟩ | ⟨silent, -, -⟩
        · obtain ⟨commandMeets, cause⟩ :=
            (call_healthy_iff zero present noError command reply).mp running
          refine ⟨meets, fun _ => commandMeets, ?_⟩
          intro fresh
          exact cause.imp (fun later => onZero.mp later fresh) id
        · exact ⟨meets, fun sends => absurd sends silent,
            fun fresh => absurd (.inr fresh) silent⟩
      · intro guarded
        obtain ⟨meets, commandMeets, cause⟩ := guarded
        rcases init_cases healthy meets with
          ⟨sends, zero, ⟨context, present, noError⟩, onZero⟩ |
          ⟨-, failed, later⟩
        · refine (call_healthy_iff zero present noError command reply).mpr
            ⟨commandMeets sends, ?_⟩
          by_cases fresh : Reconnects conn now replies
          · exact (cause fresh).imp (fun isZero => onZero.mpr fun _ => isZero) id
          · exact .inl (onZero.mpr fun again => absurd again fresh)
        · exact ⟨_, call_of_init_failed failed command reply, later⟩

/-- A pool connection is usable between any two calls of a run exactly when
every step of the run keeps it so: `Init` is accepted to its end on database
0, and a command without a reply belongs to a method that frees the context. -/
theorem session_usable_iff (printf : Str → Int → Str) (dbIndex : Int)
    (password : Str) (lastConnectTime : Nat) (events : List Event) :
    Lib.Always (step printf) Usable
        (.running ⟨dbIndex, password, none, lastConnectTime⟩) events ↔
      Lib.Meets (step printf) (guard printf)
        (.running ⟨dbIndex, password, none, lastConnectTime⟩) events := by
  have initially :
      Usable (.running ⟨dbIndex, password, none, lastConnectTime⟩) := by
    rw [usable_iff]
    refine ⟨_, rfl, ?_⟩
    intro context present
    cases present
  refine Lib.always_iff_meets (fun usable => usable) ?_ ?_ initially
  · intro state next event usable guarded taken
    exact (step_usable_iff usable taken).mpr guarded
  · intro state next event usable taken usableNext
    exact (step_usable_iff usable taken).mp usableNext

/-- Redis accepts a connection and closes it on the first `XADD`. -/
theorem xadd_keeps_broken_context :
    ¬ Lib.Always (step fun _ _ => []) Usable (.running ⟨0, [], none, 0⟩)
      [.call (.xadd (ascii "0001") (ascii "*") [(ascii "payload", ascii "x")])
        1 ⟨.connected, none, some (.status (ascii "OK"))⟩ none] := by
  intro always
  have usable := always _ (List.prefix_refl _)
    (.running ⟨0, [], some ⟨true, false, some 0⟩, 1⟩) (by rfl)
  have noError := (usable.1 _ rfl).1
  cases noError

end CacheConn

end ChatRoom
