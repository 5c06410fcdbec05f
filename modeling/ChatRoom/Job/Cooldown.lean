import ChatRoom.Job.Consumer
import Mathlib.Data.List.Count

/-!
# How often and how completely a room is broadcast

A delivery reaches `AcquireLock` through the cooldown of its room, a key of one
second that nothing else writes, and from there its `ReleaseLock` through one
call for each Comet node.  The history kept here says for every run what
passes the cooldown and what the iterations behind it call.
-/

namespace ChatRoom

namespace Job

/-- A cooldown check that let its consumer go on, the time at Redis, and
whether Redis answered it. -/
structure Pass where
  consumer : Consumer
  room : Str
  time : Nat
  answered : Bool

/-- An iteration that came to its `ReleaseLock`: the Comet nodes it found, and
its calls with their outcomes. -/
structure Round where
  room : Str
  comets : List Str
  calls : List (Str × Bool)

/-- The consumers with what has happened, the latest first, and what the
running iterations have found and called. -/
structure Broadcasts where
  job : State
  passes : List Pass
  acquired : List (Consumer × Str)
  comets : Consumer → List Str
  calls : Consumer → List (Str × Bool)
  rounds : List Round

/-- What a step from the old phase of its consumer to the new one adds. -/
def Broadcasts.note (state : Broadcasts) (next : State) : Event → Broadcasts
  | .checkCooldown consumer link =>
      match next.phase consumer with
      | .cooled room =>
          { state with
            job := next
            passes := ⟨consumer, room, state.job.redis.now,
              decide (link = .answered)⟩ :: state.passes }
      | _ => { state with job := next }
  | .acquire consumer _ _ =>
      match next.phase consumer with
      | .locked room _ =>
          { state with
            job := next
            acquired := (consumer, room) :: state.acquired
            comets := Function.update state.comets consumer []
            calls := Function.update state.calls consumer [] }
      | _ => { state with job := next }
  | .group consumer comets =>
      { state with
        job := next
        comets := Function.update state.comets consumer (comets.getD []) }
  | .broadcast consumer sent =>
      match state.job.phase consumer with
      | .broadcasting _ _ comet _ =>
          { state with
            job := next
            calls := Function.update state.calls consumer
              (state.calls consumer ++ [(comet, sent)]) }
      | _ => { state with job := next }
  | .release consumer _ =>
      match state.job.phase consumer with
      | .releasing room _ =>
          { state with
            job := next
            rounds := ⟨room, state.comets consumer, state.calls consumer⟩ ::
              state.rounds }
      | _ => { state with job := next }
  | _ => { state with job := next }

def broadcastsStep (state : Broadcasts) (event : Event) : Option Broadcasts :=
  (step state.job event).map fun next => state.note next event

def noBroadcasts : Broadcasts := ⟨start, [], [], fun _ => [], fun _ => [], []⟩

/-! ## What is kept -/

/-- Of two checks of one key that Redis answered, the later is more than a
second behind the earlier. -/
def Rationed (passes : List Pass) : Prop :=
  passes.Pairwise fun later earlier =>
    later.answered = true → earlier.answered = true →
      cStr (cooldownKey later.room) = cStr (cooldownKey earlier.room) →
        earlier.time + 1000 < later.time

/-- The passes of a consumer in a room. -/
def passesOf (passes : List Pass) (consumer : Consumer) (room : Str) : Nat :=
  passes.countP fun pass =>
    decide (pass.consumer = consumer) && decide (pass.room = room)

/-- The cooldown rations the rooms, every lock comes behind a pass of its own,
and every iteration that releases its lock has called each of its Comet nodes
once, in their order. -/
structure Orderly (state : Broadcasts) : Prop where
  rationed : Rationed state.passes
  letThrough : ∀ consumer room, state.acquired.count (consumer, room) ≤
    passesOf state.passes consumer room
  whole : ∀ round ∈ state.rounds, round.calls.map Prod.fst = round.comets

/-- The cooldown key of an answered pass runs at least a second. -/
def Cooling (state : Broadcasts) : Prop :=
  ∀ pass ∈ state.passes, pass.answered = true → ∃ value deadline,
    state.job.redis.entries (cStr (cooldownKey pass.room)) =
      some (value, deadline) ∧ pass.time + 1000 ≤ deadline

/-- The calls of an iteration are those in front of where it stands. -/
def Phase.Called (comets : List Str) (calls : List (Str × Bool)) : Phase → Prop
  | .locked .. | .found .. => comets = [] ∧ calls = []
  | .broadcasting _ _ comet remaining =>
      comets = calls.map Prod.fst ++ comet :: remaining
  | .releasing .. => comets = calls.map Prod.fst
  | _ => True

/-- The pass that has not led to a lock yet. -/
def Phase.waiting (phase : Phase) (room : Str) : Nat :=
  match phase with
  | .cooled passed => if passed = room then 1 else 0
  | _ => 0

structure Noted (state : Broadcasts) : Prop where
  rationed : Rationed state.passes
  cooling : Cooling state
  counted : ∀ consumer room, state.acquired.count (consumer, room) +
    (state.job.phase consumer).waiting room ≤
      passesOf state.passes consumer room
  called : ∀ consumer, (state.job.phase consumer).Called
    (state.comets consumer) (state.calls consumer)
  whole : ∀ round ∈ state.rounds, round.calls.map Prod.fst = round.comets

theorem Noted.orderly {state : Broadcasts} (noted : Noted state) :
    Orderly state :=
  ⟨noted.rationed, fun consumer room =>
    (Nat.le_add_right _ _).trans (noted.counted consumer room), noted.whole⟩

/-! ## The cooldown keys -/

/-- A key that is set again runs longer than before. -/
theorem setNxEx_deadline (redis : Redis) (link : Link) (key value : Str)
    (seconds : Nat) {other stored : Str} {deadline : Nat}
    (entry : redis.entries other = some (stored, deadline)) :
    ∃ held later, (setNxEx redis link key value seconds).1.entries other =
      some (held, later) ∧ deadline ≤ later := by
  rw [setNxEx_entries]
  split
  · rename_i free
    by_cases same : other = cStr key
    · subst same
      refine ⟨cStr value, redis.now + 1000 * seconds, Function.update_self .., ?_⟩
      have expired : ¬ redis.now ≤ deadline := by
        intro live
        have found := Lib.ExpiringStore.get_eq_some_iff.mpr
          ⟨deadline, entry, live⟩
        rw [free.2] at found
        cases found
      omega
    · rw [Function.update_of_ne same]
      exact ⟨stored, deadline, entry, Nat.le_refl deadline⟩
  · exact ⟨stored, deadline, entry, Nat.le_refl deadline⟩

/-- No step shortens the time of a cooldown key. -/
theorem step_cooldown {state next : State} {event : Event}
    (taken : step state event = some next) {room value : Str} {deadline : Nat}
    (entry : state.redis.entries (cStr (cooldownKey room)) =
      some (value, deadline)) :
    ∃ held later, next.redis.entries (cStr (cooldownKey room)) =
      some (held, later) ∧ deadline ≤ later := by
  by_cases checks : event.writes = some 114
  · cases event with
    | checkCooldown consumer link =>
        obtain ⟨checked, -, rfl⟩ := step_checkCooldown taken
        exact setNxEx_deadline _ _ _ _ _ entry
    | _ => cases checks
  · have kept := (step_redis taken).2 (cStr (cooldownKey room)) (by
      intro byte writes head
      rw [head?_cStr_cooldownKey] at head
      cases head
      exact checks writes)
    exact ⟨value, deadline, kept.trans entry, Nat.le_refl deadline⟩

theorem Cooling.kept {state : Broadcasts} (cooling : Cooling state)
    {next : State} {event : Event} (taken : step state.job event = some next) :
    ∀ pass ∈ state.passes, pass.answered = true → ∃ value deadline,
      next.redis.entries (cStr (cooldownKey pass.room)) =
        some (value, deadline) ∧ pass.time + 1000 ≤ deadline := by
  intro pass member answered
  obtain ⟨value, deadline, entry, long⟩ := cooling pass member answered
  obtain ⟨held, later, still, longer⟩ := step_cooldown taken entry
  exact ⟨held, later, still, long.trans longer⟩

/-! ## What the steps keep -/

section Steps

variable {state after : Broadcasts} {consumer : Consumer} {phase : Phase}

/-- A consumer moves on, and what is noted changes for it only. -/
theorem Noted.goto (noted : Noted state)
    (phases : after.job.phase =
      Function.update state.job.phase consumer phase)
    (rationed : Rationed after.passes) (cooling : Cooling after)
    (counted : ∀ room, after.acquired.count (consumer, room) +
      phase.waiting room ≤ passesOf after.passes consumer room)
    (called : phase.Called (after.comets consumer) (after.calls consumer))
    (others : ∀ other, other ≠ consumer →
      after.comets other = state.comets other ∧
      after.calls other = state.calls other ∧
      ∀ room, after.acquired.count (other, room) =
          state.acquired.count (other, room) ∧
        passesOf after.passes other room = passesOf state.passes other room)
    (whole : ∀ round ∈ after.rounds,
      round.calls.map Prod.fst = round.comets) : Noted after := by
  refine ⟨rationed, cooling, fun other room => ?_, fun other => ?_, whole⟩
  · rw [phases]
    by_cases same : other = consumer
    · subst same
      rw [Function.update_self]
      exact counted room
    · obtain ⟨-, -, counts⟩ := others other same
      rw [Function.update_of_ne same, (counts room).1, (counts room).2]
      exact noted.counted other room
  · rw [phases]
    by_cases same : other = consumer
    · subst same
      rw [Function.update_self]
      exact called
    · obtain ⟨comets, calls, -⟩ := others other same
      rw [Function.update_of_ne same, comets, calls]
      exact noted.called other

/-- A consumer moves on without anything to note. -/
theorem Noted.move (noted : Noted state) {next : State} {event : Event}
    (taken : step state.job event = some next)
    (phases : next.phase = Function.update state.job.phase consumer phase)
    (waits : ∀ room, phase.waiting room = 0)
    (called : phase.Called (state.comets consumer) (state.calls consumer)) :
    Noted { state with job := next } := by
  refine noted.goto phases noted.rationed (Cooling.kept noted.cooling taken)
    (fun room => ?_) called
    (fun other _ => ⟨rfl, rfl, fun room => ⟨rfl, rfl⟩⟩) noted.whole
  rw [waits]
  exact (Nat.le_add_right _ _).trans (noted.counted consumer room)

theorem passesOf_cons (pass : Pass) (passes : List Pass) (other : Consumer)
    (room : Str) :
    passesOf (pass :: passes) other room = passesOf passes other room +
      if pass.consumer = other ∧ pass.room = room then 1 else 0 := by
  rw [passesOf, List.countP_cons]
  simp only [Bool.and_eq_true, decide_eq_true_eq]
  rfl

theorem Noted.checkCooldown (noted : Noted state) {next : State} {link : Link}
    (taken : step state.job (.checkCooldown consumer link) = some next) :
    Noted (state.note next (.checkCooldown consumer link)) := by
  obtain ⟨room, isMarked, result⟩ := step_checkCooldown taken
  have kept := Cooling.kept noted.cooling taken
  by_cases cold :
      (isRoomInCooldown state.job.redis link room 1).2 = true
  · rw [if_pos cold] at result
    have phases : next.phase =
        Function.update state.job.phase consumer .idle := by
      rw [result]
      rfl
    have here : next.phase consumer = .idle := by
      rw [phases, Function.update_self]
    have noNote : state.note next (.checkCooldown consumer link) =
        { state with job := next } := by
      simp only [Broadcasts.note, here]
    rw [noNote]
    exact noted.move taken phases (fun _ => rfl) trivial
  · rw [if_neg cold] at result
    have phases : next.phase =
        Function.update state.job.phase consumer (.cooled room) := by
      rw [result]
      rfl
    have here : next.phase consumer = .cooled room := by
      rw [phases, Function.update_self]
    have noteOne : state.note next (.checkCooldown consumer link) =
        { state with
          job := next
          passes := ⟨consumer, room, state.job.redis.now,
            decide (link = .answered)⟩ :: state.passes } := by
      simp only [Broadcasts.note, here]
    have free : link = .answered →
        state.job.redis.get (cStr (cooldownKey room)) = none := by
      intro answered
      simpa [isRoomInCooldown, setNxEx_eq, answered] using cold
    rw [noteOne]
    refine noted.goto phases ?_ ?_ ?_ trivial ?_ noted.whole
    · refine List.pairwise_cons.mpr ⟨?_, noted.rationed⟩
      intro earlier member answered answeredToo sameKey
      obtain ⟨value, deadline, entry, long⟩ :=
        noted.cooling earlier member answeredToo
      have notLive : ¬ state.job.redis.now ≤ deadline := by
        intro live
        have found := Lib.ExpiringStore.get_eq_some_iff.mpr
          ⟨deadline, entry, live⟩
        rw [← sameKey, free (of_decide_eq_true answered)] at found
        cases found
      change earlier.time + 1000 < state.job.redis.now
      omega
    · intro pass member
      rcases List.mem_cons.mp member with rfl | earlier
      · intro answered
        have isAnswered : link = .answered := of_decide_eq_true answered
        refine ⟨cStr (ascii "1"), state.job.redis.now + 1000 * 1, ?_,
          Nat.le_refl _⟩
        have set := setNxEx_entries state.job.redis link (cooldownKey room)
          (ascii "1") 1
        rw [if_pos ⟨by rw [isAnswered]; decide, free isAnswered⟩] at set
        rw [result]
        refine (congrFun set _).trans ?_
        exact Function.update_self ..
      · exact kept pass earlier
    · intro other
      have before := noted.counted consumer other
      have more : (Phase.cooled room).waiting other =
          if room = other then 1 else 0 := rfl
      have alone := (Nat.le_add_right _ _).trans before
      rw [passesOf_cons, more]
      by_cases same : room = other
      · rw [if_pos same, if_pos ⟨rfl, same⟩]
        exact Nat.succ_le_succ alone
      · rw [if_neg same]
        exact alone.trans (Nat.le_add_right _ _)
    · refine fun other differs => ⟨rfl, rfl, fun own => ⟨rfl, ?_⟩⟩
      rw [passesOf_cons, if_neg (fun both => differs both.1.symm)]
      rfl

theorem Noted.acquire (noted : Noted state) {next : State} {seconds : Nat}
    {link : Link}
    (taken : step state.job (.acquire consumer seconds link) = some next) :
    Noted (state.note next (.acquire consumer seconds link)) := by
  obtain ⟨room, isCooled, result⟩ := step_acquire taken
  by_cases acquired : (acquireLock state.job.redis link (lockKey room)
      (lockValue consumer.index seconds) 5).2 = true
  · rw [if_pos acquired] at result
    have phases : next.phase = Function.update state.job.phase consumer
        (.locked room (lockValue consumer.index seconds)) := by
      rw [result]
      rfl
    have here : next.phase consumer =
        .locked room (lockValue consumer.index seconds) := by
      rw [phases, Function.update_self]
    have noteOne : state.note next (.acquire consumer seconds link) =
        { state with
          job := next
          acquired := (consumer, room) :: state.acquired
          comets := Function.update state.comets consumer []
          calls := Function.update state.calls consumer [] } := by
      simp only [Broadcasts.note, here]
    rw [noteOne]
    refine noted.goto phases noted.rationed
      (Cooling.kept noted.cooling taken) ?_ ?_ ?_ noted.whole
    · intro other
      have before := noted.counted consumer other
      have passed : (Phase.cooled room).waiting other =
          if room = other then 1 else 0 := rfl
      rw [isCooled, passed] at before
      change List.count _ (_ :: _) + 0 ≤ _
      rw [List.count_cons]
      by_cases same : room = other
      · rw [if_pos same] at before
        rw [same, beq_self_eq_true, if_pos rfl]
        omega
      · rw [if_neg same] at before
        rw [if_neg (by simpa using same)]
        omega
    · exact ⟨Function.update_self .., Function.update_self ..⟩
    · refine fun other differs => ⟨Function.update_of_ne differs _ _,
        Function.update_of_ne differs _ _, fun own => ⟨?_, rfl⟩⟩
      refine List.count_cons_of_ne (fun same => ?_)
      cases same
      exact differs rfl
  · rw [if_neg acquired] at result
    have phases : next.phase =
        Function.update state.job.phase consumer .idle := by
      rw [result]
      rfl
    have here : next.phase consumer = .idle := by
      rw [phases, Function.update_self]
    have noNote : state.note next (.acquire consumer seconds link) =
        { state with job := next } := by
      simp only [Broadcasts.note, here]
    rw [noNote]
    exact noted.move taken phases (fun _ => rfl) trivial

theorem Phase.called_nextBroadcast {room value : Str} {comets : List Str}
    {calls : List (Str × Bool)} {remaining : List Str}
    (split : comets = calls.map Prod.fst ++ remaining) :
    (nextBroadcast room value remaining).Called comets calls := by
  cases remaining with
  | nil =>
      rw [List.append_nil] at split
      exact split
  | cons comet remaining => exact split

theorem Phase.waiting_nextBroadcast (room value other : Str)
    (remaining : List Str) :
    (nextBroadcast room value remaining).waiting other = 0 := by
  cases remaining <;> rfl

theorem Noted.group (noted : Noted state) {next : State}
    {comets : Option (List Str)}
    (taken : step state.job (.group consumer comets) = some next) :
    Noted (state.note next (.group consumer comets)) := by
  obtain ⟨room, value, isFound, result⟩ := step_group taken
  have called := noted.called consumer
  rw [isFound] at called
  have behind : ∃ target, next.phase =
        Function.update state.job.phase consumer target ∧
      (∀ other, target.waiting other = 0) ∧
      target.Called (comets.getD []) [] := by
    cases comets with
    | none => exact ⟨.releasing room value, by rw [result]; rfl,
        fun _ => rfl, rfl⟩
    | some comets => exact ⟨nextBroadcast room value comets,
        by rw [result]; rfl,
        fun other => Phase.waiting_nextBroadcast room value other comets,
        Phase.called_nextBroadcast rfl⟩
  obtain ⟨target, phases, waits, calls⟩ := behind
  refine noted.goto phases noted.rationed (Cooling.kept noted.cooling taken)
    (fun other => ?_) ?_
    (fun other differs => ⟨Function.update_of_ne differs _ _, rfl,
      fun own => ⟨rfl, rfl⟩⟩) noted.whole
  · rw [waits]
    exact (Nat.le_add_right _ _).trans (noted.counted consumer other)
  · change target.Called
      (Function.update state.comets consumer (comets.getD []) consumer)
      (state.calls consumer)
    rw [Function.update_self, called.2]
    exact calls

theorem Noted.broadcast (noted : Noted state) {next : State} {sent : Bool}
    (taken : step state.job (.broadcast consumer sent) = some next) :
    Noted (state.note next (.broadcast consumer sent)) := by
  obtain ⟨room, value, comet, remaining, here, result⟩ := step_broadcast taken
  have called := noted.called consumer
  rw [here] at called
  have phases : next.phase = Function.update state.job.phase consumer
      (nextBroadcast room value remaining) := by
    rw [result]
    rfl
  have noteOne : state.note next (.broadcast consumer sent) =
      { state with
        job := next
        calls := Function.update state.calls consumer
          (state.calls consumer ++ [(comet, sent)]) } := by
    simp only [Broadcasts.note, here]
  rw [noteOne]
  refine noted.goto phases noted.rationed (Cooling.kept noted.cooling taken)
    (fun other => ?_) ?_
    (fun other differs => ⟨rfl, Function.update_of_ne differs _ _,
      fun own => ⟨rfl, rfl⟩⟩) noted.whole
  · rw [Phase.waiting_nextBroadcast]
    exact (Nat.le_add_right _ _).trans (noted.counted consumer other)
  · apply Phase.called_nextBroadcast
    dsimp only
    rw [Function.update_self, List.map_append, List.append_assoc]
    exact called

theorem Noted.release (noted : Noted state) {next : State} {link : Link}
    (taken : step state.job (.release consumer link) = some next) :
    Noted (state.note next (.release consumer link)) := by
  obtain ⟨room, value, here, result⟩ := step_release taken
  have called := noted.called consumer
  rw [here] at called
  have phases : next.phase =
      Function.update state.job.phase consumer .idle := by
    rw [result]
    rfl
  have noteOne : state.note next (.release consumer link) =
      { state with
        job := next
        rounds := ⟨room, state.comets consumer, state.calls consumer⟩ ::
          state.rounds } := by
    simp only [Broadcasts.note, here]
  have moved := noted.move taken phases (fun _ => rfl) trivial
  rw [noteOne]
  refine ⟨moved.rationed, moved.cooling, moved.counted, moved.called, ?_⟩
  intro round member
  rcases List.mem_cons.mp member with rfl | earlier
  · exact called.symm
  · exact noted.whole round earlier

/-- **Every step keeps what is noted.** -/
theorem Noted.step {event : Event} (noted : Noted state)
    (taken : broadcastsStep state event = some after) : Noted after := by
  obtain ⟨next, stepped, rfl⟩ := Option.map_eq_some_iff.mp taken
  cases event with
  | consume consumer room seconds link =>
      obtain ⟨-, result⟩ := step_consume stepped
      refine noted.move stepped (by rw [result]; rfl) (fun other => ?_) ?_
      · split <;> rfl
      · split <;> trivial
  | checkCooldown consumer link => exact noted.checkCooldown stepped
  | acquire consumer seconds link => exact noted.acquire stepped
  | lookup consumer connIds =>
      obtain ⟨room, value, here, result⟩ := step_lookup stepped
      have called := noted.called consumer
      rw [here] at called
      refine noted.move stepped (by rw [result]; rfl) (fun other => ?_) ?_
      · split <;> rfl
      · rw [called.1, called.2]
        split
        · rfl
        · rfl
        · exact ⟨rfl, rfl⟩
  | group consumer comets => exact noted.group stepped
  | broadcast consumer sent => exact noted.broadcast stepped
  | release consumer link => exact noted.release stepped
  | crash consumer =>
      have phases : next.phase =
          Function.update state.job.phase consumer .idle := by
        cases stepped
        rfl
      exact noted.move stepped phases (fun _ => rfl) trivial
  | tick elapsed =>
      have kept := Cooling.kept noted.cooling stepped
      cases stepped
      exact ⟨noted.rationed, kept, noted.counted, noted.called, noted.whole⟩

end Steps

end Job

end ChatRoom
