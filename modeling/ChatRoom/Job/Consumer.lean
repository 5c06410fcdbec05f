import ChatRoom.Base.Bytes
import ChatRoom.Lib.Lease
import ChatRoom.Lib.Run

/-!
# The room lock of the Job consumers

Each consumer thread takes a message through duplicate check, cooldown,
`AcquireLock`, lookup, one gRPC broadcast per Comet node and `ReleaseLock`.
The steps of different consumers interleave freely, and Redis expires keys by
its own clock.
-/

namespace ChatRoom

namespace Job

open Lib (ExpiringStore Exclusive)

/-- A consumer thread: the process it belongs to and its number `i` there. -/
structure Consumer where
  process : Nat
  index : Nat
  deriving DecidableEq

/-! ## Keys and values -/

def dedupKey (room msgId : Str) : Str :=
  ascii "msg:processed:" ++ room ++ ascii ":" ++ msgId

def cooldownKey (room : Str) : Str := ascii "room:cooldown:" ++ room

def lockKey (room : Str) : Str := ascii "lock:broadcast:" ++ room

/-- `room_id + timestamp + consumer_id`. -/
def msgId (room : Str) (seconds index : Nat) : Str :=
  room ++ ascii "_" ++ decimal seconds ++ ascii "_" ++ decimal index

/-- `consumer_{i}_{timestamp}`: the process is not part of it. -/
def lockValue (index seconds : Nat) : Str :=
  ascii "consumer_" ++ decimal index ++ ascii "_" ++ decimal seconds

/-! ## Redis -/

/-- How one Redis command of a consumer goes: answered, executed without the
answer arriving, or not executed. -/
inductive Link where
  | answered
  | replyLost
  | unreachable
  deriving DecidableEq

abbrev Redis := ExpiringStore Str Str

/-- `SET key value NX EX seconds` through `%s`, with the reply: `OK`, nil, or
none. -/
def setNxEx (redis : Redis) (link : Link) (key value : Str) (seconds : Nat) :
    Redis × Option Bool :=
  match link, redis.setNx (cStr key) (cStr value) (1000 * seconds) with
  | .unreachable, _ => (redis, none)
  | .replyLost, some next => (next, none)
  | .replyLost, none => (redis, none)
  | .answered, some next => (next, some true)
  | .answered, none => (redis, some false)

/-- `CheckAndMarkMessageProcessed`. -/
def checkAndMarkMessageProcessed (redis : Redis) (link : Link)
    (msgId room : Str) (seconds : Nat) : Redis × Bool :=
  let (redis, reply) := setNxEx redis link (dedupKey room msgId) (ascii "1") seconds
  (redis, reply = some true)

/-- `IsRoomInCooldown`: without a reply the room is taken to be free. -/
def isRoomInCooldown (redis : Redis) (link : Link) (room : Str)
    (seconds : Nat) : Redis × Bool :=
  let (redis, reply) := setNxEx redis link (cooldownKey room) (ascii "1") seconds
  (redis, reply = some false)

/-- `AcquireLock`. -/
def acquireLock (redis : Redis) (link : Link) (key value : Str)
    (seconds : Nat) : Redis × Bool :=
  let (redis, reply) := setNxEx redis link key value seconds
  (redis, reply = some true)

/-- `ReleaseLock`: the Lua script gets key and value with their lengths. -/
def releaseLock (redis : Redis) (link : Link) (key value : Str) : Redis :=
  match link with
  | .unreachable => redis
  | .answered | .replyLost => redis.compareAndDelete key value

/-! ## The consumer loop -/

/-- Where a consumer stands in its loop: between two messages, behind the
duplicate check, behind the cooldown, behind `AcquireLock`, behind
`GetRoomConnections`, before the Comet nodes still to be called, and before
`ReleaseLock`. -/
inductive Phase where
  | idle
  | marked (room : Str)
  | cooled (room : Str)
  | locked (room value : Str)
  | found (room value : Str)
  | broadcasting (room value : Str) (comet : Str) (remaining : List Str)
  | releasing (room value : Str)

structure State where
  redis : Redis
  phase : Consumer → Phase

/-- The steps of the consumers, and time passing at Redis.  `seconds` is what
`time(nullptr)` returns to the consumer. -/
inductive Event where
  | consume (consumer : Consumer) (room : Str) (seconds : Nat) (link : Link)
  | checkCooldown (consumer : Consumer) (link : Link)
  | acquire (consumer : Consumer) (seconds : Nat) (link : Link)
  | lookup (consumer : Consumer) (connIds : Option (List Str))
  | group (consumer : Consumer) (comets : Option (List Str))
  | broadcast (consumer : Consumer) (sent : Bool)
  | release (consumer : Consumer) (link : Link)
  | crash (consumer : Consumer)
  | tick (elapsed : Nat)

def State.goto (state : State) (consumer : Consumer) (phase : Phase) : State :=
  { state with phase := Function.update state.phase consumer phase }

/-- The phase behind the grouping or behind one gRPC call. -/
def nextBroadcast (room value : Str) : List Str → Phase
  | [] => .releasing room value
  | comet :: remaining => .broadcasting room value comet remaining

def step (state : State) : Event → Option State
  | .consume consumer room seconds link =>
      match state.phase consumer with
      | .idle =>
          let (redis, isNew) := checkAndMarkMessageProcessed state.redis link
            (msgId room seconds consumer.index) room 60
          some (({ state with redis := redis } : State).goto consumer
            (if isNew then .marked room else .idle))
      | _ => none
  | .checkCooldown consumer link =>
      match state.phase consumer with
      | .marked room =>
          let (redis, inCooldown) := isRoomInCooldown state.redis link room 1
          some (({ state with redis := redis } : State).goto consumer
            (if inCooldown then .idle else .cooled room))
      | _ => none
  | .acquire consumer seconds link =>
      match state.phase consumer with
      | .cooled room =>
          let value := lockValue consumer.index seconds
          let (redis, acquired) := acquireLock state.redis link (lockKey room) value 5
          some (({ state with redis := redis } : State).goto consumer
            (if acquired then .locked room value else .idle))
      | _ => none
  | .lookup consumer connIds =>
      match state.phase consumer with
      | .locked room value =>
          some (state.goto consumer (match connIds with
            | none | some [] => .releasing room value
            | some (_ :: _) => .found room value))
      | _ => none
  | .group consumer comets =>
      match state.phase consumer with
      | .found room value =>
          some (state.goto consumer (match comets with
            | none => .releasing room value
            | some comets => nextBroadcast room value comets))
      | _ => none
  | .broadcast consumer _ =>
      match state.phase consumer with
      | .broadcasting room value _ remaining =>
          some (state.goto consumer (nextBroadcast room value remaining))
      | _ => none
  | .release consumer link =>
      match state.phase consumer with
      | .releasing room value =>
          some (({ state with
            redis := releaseLock state.redis link (lockKey room) value } : State).goto
              consumer .idle)
      | _ => none
  | .crash consumer => some (state.goto consumer .idle)
  | .tick elapsed => some { state with redis := state.redis.tick elapsed }

def start : State := ⟨⟨fun _ => none, 0⟩, fun _ => .idle⟩

/-! ## What each step does -/

section Steps

variable {state next : State} {consumer : Consumer} {seconds : Nat}
  {link : Link}

theorem step_consume {room : Str}
    (taken : step state (.consume consumer room seconds link) = some next) :
    state.phase consumer = .idle ∧
      next = (⟨(checkAndMarkMessageProcessed state.redis link
          (msgId room seconds consumer.index) room 60).1, state.phase⟩ :
        State).goto consumer
          (if (checkAndMarkMessageProcessed state.redis link
            (msgId room seconds consumer.index) room 60).2 then .marked room
          else .idle) := by
  cases phase : state.phase consumer with
  | idle =>
      simp only [step, phase, Option.some.injEq] at taken
      exact ⟨rfl, taken.symm⟩
  | _ => simp [step, phase] at taken

theorem step_checkCooldown
    (taken : step state (.checkCooldown consumer link) = some next) :
    ∃ room, state.phase consumer = .marked room ∧
      next = (⟨(isRoomInCooldown state.redis link room 1).1, state.phase⟩ :
        State).goto consumer
          (if (isRoomInCooldown state.redis link room 1).2 then .idle
          else .cooled room) := by
  cases phase : state.phase consumer with
  | marked room =>
      simp only [step, phase, Option.some.injEq] at taken
      exact ⟨room, rfl, taken.symm⟩
  | _ => simp [step, phase] at taken

theorem step_acquire
    (taken : step state (.acquire consumer seconds link) = some next) :
    ∃ room, state.phase consumer = .cooled room ∧
      next = (⟨(acquireLock state.redis link (lockKey room)
          (lockValue consumer.index seconds) 5).1, state.phase⟩ :
        State).goto consumer
          (if (acquireLock state.redis link (lockKey room)
            (lockValue consumer.index seconds) 5).2 then
            .locked room (lockValue consumer.index seconds)
          else .idle) := by
  cases phase : state.phase consumer with
  | cooled room =>
      simp only [step, phase, Option.some.injEq] at taken
      exact ⟨room, rfl, taken.symm⟩
  | _ => simp [step, phase] at taken

theorem step_lookup {connIds : Option (List Str)} :
    step state (.lookup consumer connIds) = some next →
    ∃ room value, state.phase consumer = .locked room value ∧
      next = state.goto consumer (match connIds with
        | none | some [] => .releasing room value
        | some (_ :: _) => .found room value) := by
  intro taken
  cases phase : state.phase consumer with
  | locked room value =>
      simp only [step, phase, Option.some.injEq] at taken
      exact ⟨room, value, rfl, taken.symm⟩
  | _ => simp [step, phase] at taken

theorem step_group {comets : Option (List Str)} :
    step state (.group consumer comets) = some next →
    ∃ room value, state.phase consumer = .found room value ∧
      next = state.goto consumer (match comets with
        | none => .releasing room value
        | some comets => nextBroadcast room value comets) := by
  intro taken
  cases phase : state.phase consumer with
  | found room value =>
      simp only [step, phase, Option.some.injEq] at taken
      exact ⟨room, value, rfl, taken.symm⟩
  | _ => simp [step, phase] at taken

theorem step_broadcast {sent : Bool}
    (taken : step state (.broadcast consumer sent) = some next) :
    ∃ room value comet remaining,
      state.phase consumer = .broadcasting room value comet remaining ∧
      next = state.goto consumer (nextBroadcast room value remaining) := by
  cases phase : state.phase consumer with
  | broadcasting room value comet remaining =>
      simp only [step, phase, Option.some.injEq] at taken
      exact ⟨room, value, comet, remaining, rfl, taken.symm⟩
  | _ => simp [step, phase] at taken

theorem step_release
    (taken : step state (.release consumer link) = some next) :
    ∃ room value, state.phase consumer = .releasing room value ∧
      next = (⟨releaseLock state.redis link (lockKey room) value,
        state.phase⟩ : State).goto consumer .idle := by
  cases phase : state.phase consumer with
  | releasing room value =>
      simp only [step, phase, Option.some.injEq] at taken
      exact ⟨room, value, rfl, taken.symm⟩
  | _ => simp [step, phase] at taken

end Steps

/-! ## Mutual exclusion -/

/-- The room and lock value of a consumer between its `AcquireLock` and the
end of its broadcast loop. -/
def Phase.critical : Phase → Option (Str × Str)
  | .locked room value | .found room value
  | .broadcasting room value _ _ => some (room, value)
  | _ => none

/-- No two consumers are in the critical section of one room. -/
def MutualExclusion (state : State) : Prop :=
  ∀ first second room firstValue secondValue,
    (state.phase first).critical = some (room, firstValue) →
    (state.phase second).critical = some (room, secondValue) →
    first = second

/-- The lock entry a consumer relies on. -/
def State.occupies (state : State) (consumer : Consumer) : Option (Str × Str) :=
  (state.phase consumer).critical.map fun (room, value) =>
    (cStr (lockKey room), value)

/-- What a step must respect: time does not pass the deadline of a lock whose
owner is still in its critical section, and a lock value that is released is
not that of another owner. -/
def guard (state : State) : Event → Prop
  | .tick elapsed => ∀ consumer key value deadline,
      state.occupies consumer = some (key, value) →
      state.redis.entries key = some (value, deadline) →
      state.redis.now + elapsed ≤ deadline
  | .release consumer link => ∀ room value,
      link ≠ .unreachable → state.phase consumer = .releasing room value →
      ∀ other, state.occupies other ≠ some (lockKey room, value)
  | _ => True

/-! ## What the steps do to the lock -/

/-- A lock value is what `%s` makes of it. -/
theorem cStr_lockValue (index seconds : Nat) :
    cStr (lockValue index seconds) = lockValue index seconds := by
  apply cStr_eq_self
  have noDigits : ∀ number, Byte.nul ∉ decimal number := by
    intro number
    exact not_mem_decimal (by decide) number
  simp only [lockValue, List.mem_append, not_or]
  exact ⟨⟨⟨by decide, noDigits index⟩, by decide⟩, noDigits seconds⟩

theorem setNxEx_cases (redis : Redis) (link : Link) (key value : Str)
    (seconds : Nat) :
    (∃ next, redis.setNx (cStr key) (cStr value) (1000 * seconds) = some next ∧
      (setNxEx redis link key value seconds).1 = next) ∨
    ((setNxEx redis link key value seconds).1 = redis ∧
      (setNxEx redis link key value seconds).2 ≠ some true) := by
  cases outcome : redis.setNx (cStr key) (cStr value) (1000 * seconds) with
  | none =>
      right
      cases link with
      | answered => simp [setNxEx, outcome]
      | replyLost => simp [setNxEx, outcome]
      | unreachable => simp [setNxEx]
  | some next =>
      cases link with
      | answered => exact .inl ⟨next, rfl, by simp [setNxEx, outcome]⟩
      | replyLost => exact .inl ⟨next, rfl, by simp [setNxEx, outcome]⟩
      | unreachable => exact .inr (by simp [setNxEx])

/-! ## What the steps write -/

/-- The three kinds of keys differ in their first byte. -/
theorem head?_cStr_dedupKey (room msgId : Str) :
    (cStr (dedupKey room msgId)).head? = some 109 := by
  rfl

theorem head?_cStr_cooldownKey (room : Str) :
    (cStr (cooldownKey room)).head? = some 114 := by
  rfl

theorem head?_cStr_lockKey (room : Str) :
    (cStr (lockKey room)).head? = some 108 := by
  rfl

/-- The first byte of the keys a step writes. -/
def Event.writes : Event → Option UInt8
  | .consume .. => some 109
  | .checkCooldown .. => some 114
  | .acquire .. => some 108
  | .release .. => some 108
  | _ => none

def Event.elapsed : Event → Nat
  | .tick elapsed => elapsed
  | _ => 0

/-- The entry is set when the command is executed and the key free; the reply
arrives when Redis answers. -/
theorem setNxEx_eq (redis : Redis) (link : Link) (key value : Str)
    (seconds : Nat) :
    setNxEx redis link key value seconds =
      (if link ≠ .unreachable ∧ redis.get (cStr key) = none then
          { redis with
            entries := Function.update redis.entries (cStr key)
              (some (cStr value, redis.now + 1000 * seconds)) }
        else redis,
        if link = .answered then some (decide (redis.get (cStr key) = none))
        else none) := by
  cases known : redis.get (cStr key) with
  | none =>
      cases link with
      | answered => simp [setNxEx, ExpiringStore.setNx, known]
      | replyLost => simp [setNxEx, ExpiringStore.setNx, known]
      | unreachable => simp [setNxEx]
  | some held =>
      cases link with
      | answered => simp [setNxEx, ExpiringStore.setNx, known]
      | replyLost => simp [setNxEx, ExpiringStore.setNx, known]
      | unreachable => simp [setNxEx]

theorem setNxEx_now (redis : Redis) (link : Link) (key value : Str)
    (seconds : Nat) : (setNxEx redis link key value seconds).1.now = redis.now := by
  rw [setNxEx_eq]
  split <;> rfl

theorem setNxEx_entries (redis : Redis) (link : Link) (key value : Str)
    (seconds : Nat) :
    (setNxEx redis link key value seconds).1.entries =
      if link ≠ .unreachable ∧ redis.get (cStr key) = none then
        Function.update redis.entries (cStr key)
          (some (cStr value, redis.now + 1000 * seconds))
      else redis.entries := by
  rw [setNxEx_eq]
  exact apply_ite ExpiringStore.entries _ _ _

/-- `OK` arrives when Redis answers and the key was free. -/
theorem setNxEx_ok_iff (redis : Redis) (link : Link) (key value : Str)
    (seconds : Nat) :
    (setNxEx redis link key value seconds).2 = some true ↔
      link = .answered ∧ redis.get (cStr key) = none := by
  rw [setNxEx_eq]
  by_cases answered : link = .answered
  · simp [answered]
  · simp [answered]

theorem setNxEx_fst (redis : Redis) (link : Link) (key value : Str)
    (seconds : Nat) :
    (setNxEx redis link key value seconds).1 =
      { redis with
        entries :=
          if link ≠ .unreachable ∧ redis.get (cStr key) = none then
            Function.update redis.entries (cStr key)
              (some (cStr value, redis.now + 1000 * seconds))
          else redis.entries } := by
  rw [← setNxEx_entries, ← setNxEx_now redis link key value seconds]

theorem setNxEx_entries_of_ne (redis : Redis) (link : Link)
    {key other : Str} (value : Str) (seconds : Nat)
    (different : other ≠ cStr key) :
    (setNxEx redis link key value seconds).1.entries other =
      redis.entries other := by
  rcases setNxEx_cases redis link key value seconds with
    ⟨next, set, result⟩ | ⟨result, -⟩
  · obtain ⟨-, rfl⟩ := ExpiringStore.setNx_eq_some_iff.mp set
    rw [result]
    exact Function.update_of_ne different _ _
  · rw [result]

theorem releaseLock_now (redis : Redis) (link : Link) (key value : Str) :
    (releaseLock redis link key value).now = redis.now := by
  have unchanged : (redis.compareAndDelete key value).now = redis.now := by
    unfold ExpiringStore.compareAndDelete
    split <;> rfl
  cases link with
  | answered => exact unchanged
  | replyLost => exact unchanged
  | unreachable => rfl

theorem releaseLock_entries_of_ne (redis : Redis) (link : Link)
    {key other : Str} (value : Str) (different : other ≠ key) :
    (releaseLock redis link key value).entries other = redis.entries other := by
  have unchanged : (redis.compareAndDelete key value).entries other =
      redis.entries other := by
    unfold ExpiringStore.compareAndDelete
    split
    · exact Function.update_of_ne different _ _
    · rfl
  cases link with
  | answered => exact unchanged
  | replyLost => exact unchanged
  | unreachable => rfl

/-- A step lets its time pass and leaves the keys it does not write alone. -/
theorem step_redis {state next : State} {event : Event}
    (taken : step state event = some next) :
    next.redis.now = state.redis.now + event.elapsed ∧
    ∀ key : Str, (∀ byte, event.writes = some byte → key.head? ≠ some byte) →
      next.redis.entries key = state.redis.entries key := by
  have different : ∀ {key written : Str} {byte : UInt8},
      written.head? = some byte → key.head? ≠ some byte → key ≠ written := by
    intro key written byte head other same
    rw [same] at other
    exact other head
  cases event with
  | consume consumer room seconds link =>
      obtain ⟨-, rfl⟩ := step_consume taken
      refine ⟨setNxEx_now _ _ _ _ _, ?_⟩
      intro key unwritten
      exact setNxEx_entries_of_ne _ _ _ _
        (different (head?_cStr_dedupKey _ _) (unwritten 109 rfl))
  | checkCooldown consumer link =>
      obtain ⟨room, -, rfl⟩ := step_checkCooldown taken
      refine ⟨setNxEx_now _ _ _ _ _, ?_⟩
      intro key unwritten
      exact setNxEx_entries_of_ne _ _ _ _
        (different (head?_cStr_cooldownKey _) (unwritten 114 rfl))
  | acquire consumer seconds link =>
      obtain ⟨room, -, rfl⟩ := step_acquire taken
      refine ⟨setNxEx_now _ _ _ _ _, ?_⟩
      intro key unwritten
      exact setNxEx_entries_of_ne _ _ _ _
        (different (head?_cStr_lockKey _) (unwritten 108 rfl))
  | lookup consumer connIds =>
      obtain ⟨room, value, -, rfl⟩ := step_lookup taken
      exact ⟨rfl, fun _ _ => rfl⟩
  | group consumer comets =>
      obtain ⟨room, value, -, rfl⟩ := step_group taken
      exact ⟨rfl, fun _ _ => rfl⟩
  | broadcast consumer sent =>
      obtain ⟨room, value, comet, remaining, -, rfl⟩ := step_broadcast taken
      exact ⟨rfl, fun _ _ => rfl⟩
  | release consumer link =>
      obtain ⟨room, value, -, rfl⟩ := step_release taken
      refine ⟨releaseLock_now _ _ _ _, ?_⟩
      intro key unwritten
      have isLock : (lockKey room).head? = some 108 := rfl
      exact releaseLock_entries_of_ne _ _ _
        (different isLock (unwritten 108 rfl))
  | crash consumer =>
      simp only [step, Option.some.injEq] at taken
      subst taken
      exact ⟨rfl, fun _ _ => rfl⟩
  | tick elapsed =>
      simp only [step, Option.some.injEq] at taken
      subst taken
      exact ⟨rfl, fun _ _ => rfl⟩

theorem State.occupies_goto (state : State) (consumer : Consumer)
    (phase : Phase) :
    (state.goto consumer phase).occupies =
      Function.update state.occupies consumer
        (phase.critical.map fun (room, value) =>
          (cStr (lockKey room), value)) := by
  funext other
  by_cases same : other = consumer
  · rw [same]
    simp [State.occupies, State.goto]
  · simp [State.occupies, State.goto, same]

/-- The consumers in their critical sections own their lock entries. -/
def Owned (state : State) : Prop := Exclusive state.redis state.occupies

/-- A consumer that is not, or no longer, in a critical section. -/
theorem Owned.goto_outside {state : State} {phase : Phase}
    (owned : Owned state) (consumer : Consumer)
    (outside : phase.critical = none) : Owned (state.goto consumer phase) := by
  rw [Owned, State.occupies_goto, outside]
  exact owned.leave consumer

theorem Owned.goto_inside {state : State} {phase : Phase}
    {consumer : Consumer} (owned : Owned state)
    (same : phase.critical = (state.phase consumer).critical) :
    Owned (state.goto consumer phase) := by
  rw [Owned, State.occupies_goto, same]
  have unchanged : Function.update state.occupies consumer
      ((state.phase consumer).critical.map fun (room, value) =>
        (cStr (lockKey room), value)) = state.occupies :=
    Function.update_eq_self consumer state.occupies
  rw [unchanged]
  exact owned

/-- Setting a key, be it a lock or not, leaves every owner its entry. -/
theorem Owned.setNxEx {state : State} (owned : Owned state) (link : Link)
    (key value : Str) (seconds : Nat) :
    Owned { state with
      redis := (setNxEx state.redis link key value seconds).1 } := by
  rcases setNxEx_cases state.redis link key value seconds with
    ⟨next, set, result⟩ | ⟨result, -⟩
  · rw [result]
    exact Exclusive.setNx owned set
  · rw [result]
    exact owned

theorem Owned.acquire {state : State} (owned : Owned state) (link : Link)
    (consumer : Consumer) (room : Str) (seconds : Nat) :
    Owned (({ state with
      redis := (acquireLock state.redis link (lockKey room)
        (lockValue consumer.index seconds) 5).1 } : State).goto consumer
          (if (acquireLock state.redis link (lockKey room)
            (lockValue consumer.index seconds) 5).2
          then .locked room (lockValue consumer.index seconds) else .idle)) := by
  by_cases acquired : (acquireLock state.redis link (lockKey room)
      (lockValue consumer.index seconds) 5).2 = true
  · rw [if_pos acquired]
    rcases setNxEx_cases state.redis link (lockKey room)
        (lockValue consumer.index seconds) 5 with
      ⟨next, set, result⟩ | ⟨-, refused⟩
    · have entered := Exclusive.enter owned consumer set
      rw [cStr_lockValue] at entered
      rw [Owned, State.occupies_goto, ← result] at *
      exact entered
    · simp only [acquireLock, decide_eq_true_eq] at acquired
      exact absurd acquired refused
  · rw [if_neg acquired]
    exact (owned.setNxEx link (lockKey room) _ 5).goto_outside consumer rfl

theorem Owned.release {state : State} (owned : Owned state) (link : Link)
    (key value : Str)
    (foreign : link ≠ .unreachable →
      ∀ other, state.occupies other ≠ some (key, value)) :
    Owned { state with redis := releaseLock state.redis link key value } := by
  cases link with
  | answered => exact Exclusive.compareAndDelete owned (foreign (by simp))
  | replyLost => exact Exclusive.compareAndDelete owned (foreign (by simp))
  | unreachable => exact owned

theorem nextBroadcast_critical (room value : Str) (comets : List Str) :
    (nextBroadcast room value comets).critical = none ∨
      (nextBroadcast room value comets).critical = some (room, value) := by
  cases comets with
  | nil => exact .inl rfl
  | cons comet remaining => exact .inr rfl

/-- An owner keeps its lock from one Comet node to the next. -/
theorem Owned.goto_nextBroadcast {state : State} {consumer : Consumer}
    {room value : Str} (owned : Owned state)
    (critical : (state.phase consumer).critical = some (room, value))
    (comets : List Str) :
    Owned (state.goto consumer (nextBroadcast room value comets)) := by
  rcases nextBroadcast_critical room value comets with outside | inside
  · exact owned.goto_outside consumer outside
  · apply owned.goto_inside
    rw [critical]
    exact inside

/-- Every guarded step leaves the owners their locks. -/
theorem Owned.step {state next : State} {event : Event}
    (owned : Owned state) (guarded : guard state event)
    (taken : step state event = some next) : Owned next := by
  cases event with
  | consume consumer room seconds link =>
      obtain ⟨-, rfl⟩ := step_consume taken
      apply Owned.goto_outside (owned.setNxEx link _ _ 60)
      split <;> rfl
  | checkCooldown consumer link =>
      obtain ⟨room, -, rfl⟩ := step_checkCooldown taken
      apply Owned.goto_outside (owned.setNxEx link _ _ 1)
      split <;> rfl
  | acquire consumer seconds link =>
      obtain ⟨room, -, rfl⟩ := step_acquire taken
      exact owned.acquire link consumer room seconds
  | lookup consumer connIds =>
      obtain ⟨room, value, phase, rfl⟩ := step_lookup taken
      match connIds with
      | none => exact owned.goto_outside consumer rfl
      | some [] => exact owned.goto_outside consumer rfl
      | some (connId :: connIds) =>
          apply owned.goto_inside
          rw [phase]
          rfl
  | group consumer comets =>
      obtain ⟨room, value, phase, rfl⟩ := step_group taken
      cases comets with
      | none => exact owned.goto_outside consumer rfl
      | some comets =>
          apply owned.goto_nextBroadcast
          rw [phase]
          rfl
  | broadcast consumer sent =>
      obtain ⟨room, value, comet, remaining, phase, rfl⟩ :=
        step_broadcast taken
      apply owned.goto_nextBroadcast
      rw [phase]
      rfl
  | release consumer link =>
      obtain ⟨room, value, phase, rfl⟩ := step_release taken
      apply Owned.goto_outside _ consumer rfl
      exact owned.release link _ _ fun executed =>
        guarded room value executed phase
  | crash consumer =>
      simp only [Job.step, Option.some.injEq] at taken
      subst taken
      exact owned.goto_outside consumer rfl
  | tick elapsed =>
      simp only [Job.step, Option.some.injEq] at taken
      subst taken
      exact Exclusive.tick owned guarded

theorem Owned.mutualExclusion {state : State} (owned : Owned state) :
    MutualExclusion state := by
  intro first second room firstValue secondValue firstInside secondInside
  have firstOccupies : state.occupies first =
      some (cStr (lockKey room), firstValue) := by
    simp [State.occupies, firstInside]
  have secondOccupies : state.occupies second =
      some (cStr (lockKey room), secondValue) := by
    simp [State.occupies, secondInside]
  exact Exclusive.alone owned firstOccupies secondOccupies

theorem owned_start : Owned start := by
  constructor
  · intro consumer key value inside
    simp [State.occupies, start, Phase.critical] at inside
  · intro first second key value held inside
    simp [State.occupies, start, Phase.critical] at inside

/-- As long as no lock runs out on an owner that is still broadcasting and no
released value is that of another owner, the consumers exclude one another. -/
theorem mutual_exclusion (events : List Event)
    (meets : Lib.Meets step guard start events) :
    Lib.Always step MutualExclusion start events := by
  have always : Lib.Always step Owned start events :=
    meets.always (fun owned guarded taken => owned.step guarded taken) owned_start
  exact always.mono fun state owned => owned.mutualExclusion

/-- A run in which the second consumer finds the lock taken. -/
theorem mutual_exclusion_of_second_consumer :
    Lib.Always step MutualExclusion start
      [.consume ⟨0, 0⟩ (ascii "0001") 100 .answered,
        .checkCooldown ⟨0, 0⟩ .answered,
        .acquire ⟨0, 0⟩ 100 .answered,
        .lookup ⟨0, 0⟩ (some [ascii "conn_1"]),
        .consume ⟨1, 0⟩ (ascii "0001") 101 .answered,
        .checkCooldown ⟨1, 0⟩ .unreachable,
        .acquire ⟨1, 0⟩ 101 .answered] := by
  apply mutual_exclusion
  exact fun _ _ => ⟨trivial, fun _ _ => ⟨trivial, fun _ _ => ⟨trivial,
    fun _ _ => ⟨trivial, fun _ _ => ⟨trivial, fun _ _ => ⟨trivial,
      fun _ _ => ⟨trivial, trivial⟩⟩⟩⟩⟩⟩⟩

/-- A lock that runs out during a slow gRPC call lets the next consumer in. -/
theorem lock_expires_during_broadcast :
    ¬ Lib.Always step MutualExclusion start
      [.consume ⟨0, 0⟩ (ascii "0001") 100 .answered,
        .checkCooldown ⟨0, 0⟩ .answered,
        .acquire ⟨0, 0⟩ 100 .answered,
        .lookup ⟨0, 0⟩ (some [ascii "conn_1"]),
        .group ⟨0, 0⟩ (some [ascii "localhost:50051"]),
        .tick 5001,
        .consume ⟨0, 1⟩ (ascii "0001") 105 .answered,
        .checkCooldown ⟨0, 1⟩ .answered,
        .acquire ⟨0, 1⟩ 105 .answered] := by
  intro always
  have exclusive := always _ (List.prefix_refl _) _ rfl
  have same : (⟨0, 0⟩ : Consumer) = ⟨0, 1⟩ :=
    exclusive ⟨0, 0⟩ ⟨0, 1⟩ (ascii "0001") (lockValue 0 100) (lockValue 1 105)
      rfl rfl
  cases same

end Job

end ChatRoom
