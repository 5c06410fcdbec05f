import ChatRoom.Job.Consumer
import ChatRoom.Lib.SharedConnection
import Mathlib.Data.List.Dedup

/-!
# One Redis context for all consumers

`RouteService::GetInstance` hands the same `redis_context_` to every consumer
thread of a process, and nothing guards it.  Here the calls of `RouteService`
are scripts of Redis commands, and the threads run them over one connection.
-/

namespace ChatRoom

namespace Job

open Lib (Script)

/-- A `redisReply`. -/
inductive Reply where
  | status (text : Str)
  | error
  | nil
  | integer (value : Int)
  | string (text : Str)
  | array (elements : List Str)
  deriving DecidableEq

/-- What a thread goes on to do on the context. -/
abbrev Call := Script (List Str) Reply

namespace RouteService

variable {Result : Type}

/-- `CheckConnection` on a context that is there.  A `PING` that is refused
ends in `Reconnect`, which frees the context. -/
def checkConnection (next : Call Result) : Call Result :=
  .send [ascii "PING"] fun reply =>
    match reply with
    | .error => .halt
    | _ => next

/-- `SET key value NX EX seconds`, and whether `OK` comes back. -/
def setNxEx (key value : Str) (seconds : Nat) (next : Bool → Call Result) :
    Call Result :=
  .send [ascii "SET", cStr key, cStr value, ascii "NX", ascii "EX",
    decimal seconds] fun reply => next (decide (reply = .status (ascii "OK")))

def checkAndMarkMessageProcessed (msgId room : Str) (seconds : Nat)
    (next : Bool → Call Result) : Call Result :=
  checkConnection (setNxEx (dedupKey room msgId) (ascii "1") seconds next)

def isRoomInCooldown (room : Str) (seconds : Nat)
    (next : Bool → Call Result) : Call Result :=
  checkConnection
    (setNxEx (cooldownKey room) (ascii "1") seconds fun ok => next (!ok))

def acquireLock (key value : Str) (seconds : Nat)
    (next : Bool → Call Result) : Call Result :=
  checkConnection (setNxEx key value seconds next)

/-- `GetRoomConnections`: any reply but an array counts as no connections. -/
def getRoomConnections (room : Str) (next : List Str → Call Result) :
    Call Result :=
  checkConnection
    (.send [ascii "SMEMBERS", cStr (ascii "room:connections:" ++ room)]
      fun reply =>
        match reply with
        | .array connIds => next connIds
        | _ => next [])

structure ConnectionInfo where
  connId : Str
  cometAddr : Str
  userId : Str
  roomId : Str

/-- The loop over the fields of a hash. -/
def readInfo (info : ConnectionInfo) : List Str → ConnectionInfo
  | field :: value :: fields =>
      readInfo
        (if field = ascii "comet_id" then { info with cometAddr := value }
        else if field = ascii "user_id" then { info with userId := value }
        else if field = ascii "room_id" then { info with roomId := value }
        else info) fields
  | _ => info

/-- The loop of `GetConnectionInfoBatch`. -/
def readInfos (infos : List ConnectionInfo)
    (next : List ConnectionInfo → Call Result) : List Str → Call Result
  | [] => next infos
  | connId :: connIds =>
      .send [ascii "HGETALL", cStr (ascii "connection:info:" ++ connId)]
        fun reply =>
          match reply with
          | .array (field :: fields) =>
              let info := readInfo ⟨connId, [], [], []⟩ (field :: fields)
              readInfos (if info.cometAddr = [] then infos else infos ++ [info])
                next connIds
          | _ => readInfos infos next connIds

def getConnectionInfoBatch (connIds : List Str)
    (next : List ConnectionInfo → Call Result) : Call Result :=
  checkConnection (readInfos [] next connIds)

/-- `GroupConnectionsByComet`: the Comet nodes, `none` when it returns
false. -/
def groupConnectionsByComet (connIds : List Str)
    (next : Option (List Str) → Call Result) : Call Result :=
  checkConnection (getConnectionInfoBatch connIds fun infos =>
    next (if infos.isEmpty then none
      else some (infos.map ConnectionInfo.cometAddr).dedup))

def luaScript : Str :=
  ascii ("if redis.call('get', KEYS[1]) == ARGV[1] then " ++
    "    return redis.call('del', KEYS[1]) " ++ "else " ++
    "    return 0 " ++ "end")

/-- `ExecuteLuaScript`: the integer that comes back, if one does. -/
def executeLuaScript (script : Str) (keys args : List Str)
    (next : Option Int → Call Result) : Call Result :=
  checkConnection
    (.send ([ascii "EVAL", script, decimal keys.length] ++ keys ++ args)
      fun reply =>
        match reply with
        | .integer value => next (some value)
        | _ => next none)

def releaseLock (key value : Str) (next : Bool → Call Result) : Call Result :=
  checkConnection
    (executeLuaScript luaScript [key] [value] fun result =>
      next (decide (result = some 1)))

end RouteService

/-- How a pass of the consumer loop ends. -/
inductive PassResult where
  | rest
  | duplicate
  | cooldown
  | busy
  | noConnections
  | ungrouped
  | broadcast (comets : List Str)
  deriving DecidableEq

/-- The Redis commands of one pass, with the two clock reads of the loop. -/
def consumerPass (index : Nat) (room : Str) (seconds lockSeconds : Nat) :
    Call PassResult :=
  let key := lockKey room
  let value := lockValue index lockSeconds
  RouteService.checkAndMarkMessageProcessed (msgId room seconds index) room 60
      fun isNew =>
    if !isNew then .done .duplicate
    else
      RouteService.isRoomInCooldown room 1 fun inCooldown =>
        if inCooldown then .done .cooldown
        else
          RouteService.acquireLock key value 5 fun acquired =>
            if !acquired then .done .busy
            else
              RouteService.getRoomConnections room fun connIds =>
                if connIds.isEmpty then
                  RouteService.releaseLock key value
                    fun _ => .done .noConnections
                else
                  RouteService.groupConnectionsByComet connIds fun comets =>
                    match comets with
                    | none =>
                        RouteService.releaseLock key value
                          fun _ => .done .ungrouped
                    | some comets =>
                        RouteService.releaseLock key value
                          fun _ => .done (.broadcast comets)

/-- The steps of the consumer threads on the context, and of Redis. -/
inductive ContextEvent where
  | consume (thread : Nat) (room : Str) (seconds lockSeconds : Nat)
  | write (thread : Nat)
  | answer
  | read (thread : Nat)

def ContextEvent.shared :
    ContextEvent → Lib.SharedConnection.Event Nat (List Str) Reply PassResult
  | .consume thread room seconds lockSeconds =>
      .start thread (consumerPass thread room seconds lockSeconds)
  | .write thread => .write thread
  | .answer => .answer
  | .read thread => .read thread

abbrev ContextState (Server : Type) :=
  Lib.SharedConnection.State Nat Server (List Str) Reply PassResult

/-- A step over the context; `serve` is what Redis does with a command. -/
def contextStep {Server : Type}
    (serve : Server → List Str → Server × Reply) (state : ContextState Server)
    (event : ContextEvent) : Option (ContextState Server) :=
  Lib.SharedConnection.step serve state event.shared

def freshContext {Server : Type} (server : Server) : ContextState Server :=
  Lib.SharedConnection.start server .rest

/-- The thread that reads is the one whose command is next in the order in
which the commands were written. -/
def contextGuard {Server : Type} (state : ContextState Server) :
    ContextEvent → Prop
  | .read thread => state.readers ++ [thread] <+: state.writers
  | _ => True

/-- Every call of every thread interprets the reply to its own command exactly
in the runs in which the threads read in the order in which they wrote. -/
theorem context_replies_iff {Server : Type}
    (serve : Server → List Str → Server × Reply) (server : Server)
    (events : List ContextEvent) :
    Lib.Always (contextStep serve) Lib.SharedConnection.OwnReplies
        (freshContext server) events ↔
      Lib.Meets (contextStep serve) contextGuard (freshContext server)
        events := by
  have shared : ∀ (state : ContextState Server) (event : ContextEvent),
      contextGuard state event ↔
        Lib.SharedConnection.guard state event.shared := by
    intro state event
    cases event <;> rfl
  calc
    Lib.Always (contextStep serve) Lib.SharedConnection.OwnReplies
        (freshContext server) events
      ↔ Lib.Always (Lib.SharedConnection.step serve)
          Lib.SharedConnection.OwnReplies (freshContext server)
          (events.map ContextEvent.shared) :=
        Lib.always_map_iff ContextEvent.shared
    _ ↔ Lib.Meets (Lib.SharedConnection.step serve)
          Lib.SharedConnection.guard (freshContext server)
          (events.map ContextEvent.shared) :=
        Lib.SharedConnection.own_replies_iff serve server PassResult.rest _
    _ ↔ Lib.Meets (contextStep serve) contextGuard (freshContext server)
          events :=
        (Lib.meets_map_iff ContextEvent.shared shared).symm

/-- Redis on `PING` and `SET … NX`, as far as it knows its keys. -/
def serveKeys (keys : List Str) : List Str → List Str × Reply
  | command :: key :: _ =>
      if command = ascii "SET" then
        if key ∈ keys then (keys, .nil)
        else (key :: keys, .status (ascii "OK"))
      else (keys, .array [])
  | _ => (keys, .status (ascii "PONG"))

/-- A thread takes the `OK` of another for its `PING`; the other is left with
`PONG` and skips its message as a duplicate. -/
theorem reply_goes_to_other_thread :
    ¬ Lib.Always (contextStep serveKeys) Lib.SharedConnection.OwnReplies
      (freshContext [])
      [.consume 0 (ascii "0001") 100 100, .write 0, .answer, .read 0, .write 0,
        .consume 1 (ascii "0002") 100 100, .write 1, .answer, .answer,
        .read 1, .read 0] := by
  intro always
  have own := always _ (List.prefix_refl _) _ rfl
  have same := own 2 1 (by decide)
  cases same

end Job

end ChatRoom
