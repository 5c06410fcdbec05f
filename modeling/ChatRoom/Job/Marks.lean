import ChatRoom.Job.Deduplication

/-!
# Marks that outlive their iteration

The duplicate check marks a message as processed before the four steps that
decide whether it is broadcast.  The exits behind `AcquireLock` give the lock
back; no exit takes the mark back, so that it stays until it runs out.
-/

namespace ChatRoom

namespace Job

open Lib (ExpiringStore)

/-- The consumers with what their running iterations have done: the mark that
was set, with its deadline, and whether `broadcastToComet` was called.  `ended`
is the mark of an iteration that the last step ended without a call. -/
structure Rounds where
  job : State
  marks : Consumer → Option (Str × Nat)
  called : Consumer → Bool
  ended : Option (Str × Nat)

def Phase.isIdle : Phase → Bool
  | .idle => true
  | _ => false

/-- The consumer whose iteration goes on.  A crash does not end an iteration:
nothing runs behind it. -/
def Event.worker : Event → Option Consumer
  | .consume consumer .. | .checkCooldown consumer _ | .acquire consumer ..
  | .lookup consumer _ | .group consumer _ | .broadcast consumer _
  | .release consumer _ => some consumer
  | .crash _ | .tick _ => none

/-- The mark that the duplicate check of a delivery sets. -/
def newMark (redis : Redis) (room : Str) (seconds index : Nat) (link : Link) :
    Option (Str × Nat) :=
  if link ≠ .unreachable ∧ redis.get (markKey room seconds index) = none then
    some (markKey room seconds index, redis.now + 60000)
  else none

def marksBehind (state : Rounds) : Event → Consumer → Option (Str × Nat)
  | .consume consumer room seconds link =>
      Function.update state.marks consumer
        (newMark state.job.redis room seconds consumer.index link)
  | _ => state.marks

def calledBehind (state : Rounds) : Event → Consumer → Bool
  | .consume consumer .. => Function.update state.called consumer false
  | .broadcast consumer _ => Function.update state.called consumer true
  | _ => state.called

def roundStep (state : Rounds) (event : Event) : Option Rounds :=
  (step state.job event).map fun next =>
    { job := next
      marks := marksBehind state event
      called := calledBehind state event
      ended := event.worker.bind fun consumer =>
        if (next.phase consumer).isIdle = true ∧
            calledBehind state event consumer = false then
          marksBehind state event consumer
        else none }

def noRounds : Rounds := ⟨start, fun _ => none, fun _ => false, none⟩

/-- The mark is in Redis and has not run out. -/
def LiveMark (redis : Redis) (key : Str) (deadline : Nat) : Prop :=
  (∃ value, redis.entries key = some (value, deadline)) ∧ redis.now ≤ deadline

/-- An iteration that ends without a call of `broadcastToComet` leaves no mark
of its own in Redis. -/
def NoMarkLeft (state : Rounds) : Prop :=
  ∀ key deadline, state.ended = some (key, deadline) →
    ¬ LiveMark state.job.redis key deadline

/-- The mark of the iteration has run out, if it has set one. -/
def Expired (state : Rounds) (consumer : Consumer) : Prop :=
  ∀ key deadline, state.marks consumer = some (key, deadline) →
    deadline < state.job.redis.now

/-- The reply to a mark that is set is not lost.  A room in cooldown, a lock
that is not acquired, and a release without a call before it find the mark of
their iteration run out. -/
def roundGuard (state : Rounds) : Event → Prop
  | .consume consumer room seconds link =>
      link = .replyLost →
        (state.job.redis.get (markKey room seconds consumer.index)).isSome
  | .checkCooldown consumer link => ∀ room,
      state.job.phase consumer = .marked room → link = .answered →
      (state.job.redis.get (cStr (cooldownKey room))).isSome →
      state.called consumer = false → Expired state consumer
  | .acquire consumer _ link => ∀ room,
      state.job.phase consumer = .cooled room →
      ¬ (link = .answered ∧
        state.job.redis.get (cStr (lockKey room)) = none) →
      state.called consumer = false → Expired state consumer
  | .release consumer _ =>
      state.called consumer = false → Expired state consumer
  | _ => True

/-! ## The marks in Redis -/

/-- A mark that has not run out is in Redis as it was set. -/
def Kept (state : Rounds) : Prop :=
  ∀ consumer key deadline, state.marks consumer = some (key, deadline) →
    key.head? = some 109 ∧ (state.job.redis.now ≤ deadline →
      state.job.redis.entries key = some (ascii "1", deadline))

section Steps

variable {state next : Rounds}

theorem roundStep_spec {event : Event}
    (taken : roundStep state event = some next) :
    step state.job event = some next.job ∧
      next.marks = marksBehind state event ∧
      next.called = calledBehind state event ∧
      next.ended = event.worker.bind fun consumer =>
        if (next.job.phase consumer).isIdle = true ∧
            next.called consumer = false then next.marks consumer
        else none := by
  obtain ⟨job, stepped, rfl⟩ := Option.map_eq_some_iff.mp taken
  exact ⟨stepped, rfl, rfl, rfl⟩

theorem Kept.consume (kept : Kept state) {consumer : Consumer} {room : Str}
    {seconds : Nat} {link : Link}
    (taken : roundStep state (.consume consumer room seconds link) =
      some next) : Kept next := by
  obtain ⟨stepped, marks, -, -⟩ := roundStep_spec taken
  obtain ⟨now, entries⟩ := consume_entries stepped
  intro other key deadline isMark
  rw [marks, marksBehind] at isMark
  rw [now, entries]
  by_cases same : other = consumer
  · rw [same, Function.update_self, newMark] at isMark
    split at isMark
    · rename_i executed
      cases isMark
      refine ⟨head?_cStr_dedupKey _ _, ?_⟩
      intro _
      rw [if_pos executed, Function.update_self]
    · cases isMark
  · rw [Function.update_of_ne same] at isMark
    obtain ⟨isKey, stored⟩ := kept other key deadline isMark
    refine ⟨isKey, ?_⟩
    intro live
    have entry := stored live
    split
    · rename_i executed
      by_cases sameKey : key = markKey room seconds consumer.index
      · -- a live mark keeps the key from being set
        have held := ExpiringStore.get_eq_some_iff.mpr ⟨deadline, entry, live⟩
        rw [sameKey, executed.2] at held
        cases held
      · rw [Function.update_of_ne sameKey]
        exact entry
    · exact entry

theorem Kept.step (kept : Kept state) {event : Event}
    (taken : roundStep state event = some next) : Kept next := by
  by_cases isDelivery : event.isDelivery = true
  · cases event with
    | consume consumer room seconds link => exact kept.consume taken
    | _ => cases isDelivery
  · obtain ⟨stepped, marks, -, -⟩ := roundStep_spec taken
    have unwritten : event.writes ≠ some 109 ∧
        marksBehind state event = state.marks := by
      cases event with
      | consume consumer room seconds link => exact absurd rfl isDelivery
      | _ => exact ⟨by simp [Event.writes], rfl⟩
    obtain ⟨now, others⟩ := step_redis stepped
    intro consumer key deadline isMark
    rw [marks, unwritten.2] at isMark
    obtain ⟨isKey, stored⟩ := kept consumer key deadline isMark
    refine ⟨isKey, ?_⟩
    intro live
    have same : next.job.redis.entries key = state.job.redis.entries key := by
      apply others
      intro byte writes isByte
      rw [isKey] at isByte
      cases isByte
      exact unwritten.1 writes
    rw [same]
    apply stored
    omega

/-- The last step left no mark when its iteration went on, made a call, or has
a mark that has run out. -/
theorem noMarkLeft_iff (kept : Kept next) {event : Event}
    (taken : roundStep state event = some next) :
    NoMarkLeft next ↔ ∀ consumer, event.worker = some consumer →
      (next.job.phase consumer).isIdle = true →
      next.called consumer = false → Expired next consumer := by
  obtain ⟨-, -, -, ended⟩ := roundStep_spec taken
  unfold NoMarkLeft
  rw [ended]
  cases event.worker with
  | none => simp
  | some consumer =>
      simp only [Option.bind_some, Option.some.injEq, forall_eq']
      by_cases exits : (next.job.phase consumer).isIdle = true ∧
          next.called consumer = false
      · rw [if_pos exits]
        simp only [exits.1, exits.2, true_implies]
        constructor
        · intro noMark key deadline isMark
          rw [← Nat.not_le]
          intro live
          have entry := (kept consumer key deadline isMark).2 live
          exact noMark key deadline isMark ⟨⟨_, entry⟩, live⟩
        · rintro expired key deadline isMark ⟨-, live⟩
          exact absurd live (Nat.not_le.mpr (expired key deadline isMark))
      · rw [if_neg exits]
        constructor
        · intro _ isIdle notCalled
          exact absurd ⟨isIdle, notCalled⟩ exits
        · intro _ key deadline isMark
          cases isMark

/-! ## The exits -/

/-- Behind a step without time and without a mark of its own, an iteration
leaves no mark when the one in front of the step has run out. -/
theorem noMarkLeft_iff_expired (kept : Kept next) {event : Event}
    {consumer : Consumer} (taken : roundStep state event = some next)
    (worker : event.worker = some consumer) (noTime : event.elapsed = 0)
    (marks : marksBehind state event = state.marks) :
    NoMarkLeft next ↔ ((next.job.phase consumer).isIdle = true →
      next.called consumer = false → Expired state consumer) := by
  obtain ⟨stepped, sameMarks, -, -⟩ := roundStep_spec taken
  have now := (step_redis stepped).1
  have expired : Expired next consumer ↔ Expired state consumer := by
    rw [Expired, Expired, sameMarks, marks, now, noTime, Nat.add_zero]
  rw [noMarkLeft_iff kept taken, worker]
  simp only [Option.some.injEq, forall_eq', expired]

theorem consume_isIdle_iff {job : State} {consumer : Consumer} {room : Str}
    {seconds : Nat} {link : Link}
    (stepped : step state.job (.consume consumer room seconds link) =
      some job) :
    (job.phase consumer).isIdle = true ↔ ¬ (link = .answered ∧
      state.job.redis.get (markKey room seconds consumer.index) = none) := by
  obtain ⟨-, rfl⟩ := step_consume stepped
  have isNew := setNxEx_ok_iff state.job.redis link
    (dedupKey room (msgId room seconds consumer.index)) (ascii "1") 60
  rw [← markKey] at isNew
  rw [← isNew]
  simp only [checkAndMarkMessageProcessed, State.goto,
    Function.update_self, decide_eq_true_eq]
  split
  · rename_i isOk
    exact iff_of_false (by simp [Phase.isIdle]) (not_not_intro isOk)
  · rename_i notOk
    exact iff_of_true rfl notOk

/-- A delivery leaves no mark unless it sets one and the reply is lost. -/
theorem consume_noMarkLeft_iff (kept : Kept next) {consumer : Consumer}
    {room : Str} {seconds : Nat} {link : Link}
    (taken : roundStep state (.consume consumer room seconds link) =
      some next) :
    NoMarkLeft next ↔
      roundGuard state (.consume consumer room seconds link) := by
  obtain ⟨stepped, marks, called, -⟩ := roundStep_spec taken
  have now := (consume_entries stepped).1
  have isMark : next.marks consumer =
      newMark state.job.redis room seconds consumer.index link := by
    rw [marks, marksBehind, Function.update_self]
  have notCalled : next.called consumer = false := by
    rw [called, calledBehind, Function.update_self]
  have expired : Expired next consumer ↔
      ¬ (link ≠ .unreachable ∧ state.job.redis.get
        (markKey room seconds consumer.index) = none) := by
    rw [Expired, isMark, newMark, now]
    split
    · rename_i executed
      simp [executed]
    · rename_i notExecuted
      simp [notExecuted]
  rw [noMarkLeft_iff kept taken]
  simp only [Event.worker, Option.some.injEq, forall_eq', notCalled,
    consume_isIdle_iff stepped, expired, roundGuard, true_implies]
  cases state.job.redis.get (markKey room seconds consumer.index) with
  | none => cases link <;> simp
  | some value => simp

theorem isRoomInCooldown_iff (redis : Redis) (link : Link) (room : Str)
    (seconds : Nat) :
    (isRoomInCooldown redis link room seconds).2 = true ↔
      link = .answered ∧ (redis.get (cStr (cooldownKey room))).isSome := by
  simp only [isRoomInCooldown, setNxEx_eq, decide_eq_true_eq]
  by_cases answered : link = .answered
  · cases redis.get (cStr (cooldownKey room)) with
    | none => simp [answered]
    | some value => simp [answered]
  · simp [answered]

theorem checkCooldown_noMarkLeft_iff (kept : Kept next) {consumer : Consumer}
    {link : Link}
    (taken : roundStep state (.checkCooldown consumer link) = some next) :
    NoMarkLeft next ↔ roundGuard state (.checkCooldown consumer link) := by
  rw [noMarkLeft_iff_expired kept taken rfl rfl rfl]
  obtain ⟨stepped, -, called, -⟩ := roundStep_spec taken
  obtain ⟨room, phase, result⟩ := step_checkCooldown stepped
  have exits : (next.job.phase consumer).isIdle = true ↔
      link = .answered ∧
        (state.job.redis.get (cStr (cooldownKey room))).isSome := by
    rw [← isRoomInCooldown_iff _ _ _ 1, result]
    simp only [State.goto, Function.update_self]
    split
    · rename_i inCooldown
      exact iff_of_true rfl inCooldown
    · rename_i free
      exact iff_of_false (by simp [Phase.isIdle]) free
  simp only [roundGuard, phase, Phase.marked.injEq, forall_eq', exits,
    called, calledBehind, and_imp]

theorem acquire_noMarkLeft_iff (kept : Kept next) {consumer : Consumer}
    {seconds : Nat} {link : Link}
    (taken : roundStep state (.acquire consumer seconds link) = some next) :
    NoMarkLeft next ↔ roundGuard state (.acquire consumer seconds link) := by
  rw [noMarkLeft_iff_expired kept taken rfl rfl rfl]
  obtain ⟨stepped, -, called, -⟩ := roundStep_spec taken
  obtain ⟨room, phase, result⟩ := step_acquire stepped
  have exits : (next.job.phase consumer).isIdle = true ↔
      ¬ (link = .answered ∧
        state.job.redis.get (cStr (lockKey room)) = none) := by
    rw [← setNxEx_ok_iff _ _ _ (lockValue consumer.index seconds) 5, result]
    simp only [State.goto, Function.update_self, acquireLock,
      decide_eq_true_eq]
    split
    · rename_i acquired
      exact iff_of_false (by simp [Phase.isIdle]) (not_not_intro acquired)
    · rename_i refused
      exact iff_of_true rfl refused
  simp only [roundGuard, phase, Phase.cooled.injEq, forall_eq', exits,
    called, calledBehind]

theorem release_noMarkLeft_iff (kept : Kept next) {consumer : Consumer}
    {link : Link}
    (taken : roundStep state (.release consumer link) = some next) :
    NoMarkLeft next ↔ roundGuard state (.release consumer link) := by
  rw [noMarkLeft_iff_expired kept taken rfl rfl rfl]
  obtain ⟨stepped, -, called, -⟩ := roundStep_spec taken
  obtain ⟨room, value, -, result⟩ := step_release stepped
  have exits : (next.job.phase consumer).isIdle = true := by
    rw [result]
    simp [State.goto, Phase.isIdle]
  simp only [roundGuard, exits, called, calledBehind, true_implies]

theorem nextBroadcast_isIdle (room value : Str) (comets : List Str) :
    (nextBroadcast room value comets).isIdle = false := by
  cases comets with
  | nil => rfl
  | cons comet remaining => rfl

/-- The other steps of an iteration go on, or to the release of the lock. -/
theorem goes_on {event : Event} {consumer : Consumer}
    (stepped : step state.job event = some next.job)
    (worker : event.worker = some consumer) (noExit : event.writes = none) :
    (next.job.phase consumer).isIdle = false := by
  cases event with
  | lookup other connIds =>
      cases worker
      obtain ⟨room, value, -, result⟩ := step_lookup stepped
      rw [result]
      simp only [State.goto, Function.update_self]
      split
      · rfl
      · rfl
      · rfl
  | group other comets =>
      cases worker
      obtain ⟨room, value, -, result⟩ := step_group stepped
      rw [result]
      simp only [State.goto, Function.update_self]
      split
      · rfl
      · exact nextBroadcast_isIdle _ _ _
  | broadcast other sent =>
      cases worker
      obtain ⟨room, value, comet, remaining, -, result⟩ :=
        step_broadcast stepped
      rw [result]
      simp only [State.goto, Function.update_self]
      exact nextBroadcast_isIdle _ _ _
  | crash other => cases worker
  | tick elapsed => cases worker
  | _ => cases noExit

/-- One step leaves no mark exactly when it is guarded. -/
theorem noMarkLeft_step_iff (kept : Kept state) {event : Event}
    (taken : roundStep state event = some next) :
    NoMarkLeft next ↔ roundGuard state event := by
  have keptNext := kept.step taken
  cases event with
  | consume consumer room seconds link =>
      exact consume_noMarkLeft_iff keptNext taken
  | checkCooldown consumer link =>
      exact checkCooldown_noMarkLeft_iff keptNext taken
  | acquire consumer seconds link =>
      exact acquire_noMarkLeft_iff keptNext taken
  | release consumer link => exact release_noMarkLeft_iff keptNext taken
  | _ =>
      apply iff_of_true _ trivial
      apply (noMarkLeft_iff keptNext taken).mpr
      intro consumer worker isIdle
      have working := goes_on (roundStep_spec taken).1 worker rfl
      rw [working] at isIdle
      cases isIdle

end Steps

/-- What holds in front of every step of a run that goes well. -/
structure Unmarked (state : Rounds) : Prop where
  noMarkLeft : NoMarkLeft state
  kept : Kept state

end Job

end ChatRoom
