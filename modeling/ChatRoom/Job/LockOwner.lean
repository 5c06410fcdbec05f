import ChatRoom.Job.Consumer

/-!
# Who releases a room lock

The consumer loop with the clock read, the `SET NX EX`, the expiry and the
compare-and-delete as separate steps.  A lock value is made of the number of
the consumer in its process and of a second, so two processes can make the
same one.
-/

namespace ChatRoom

namespace Job

open Lib (ExpiringStore)

/-- One pass of a consumer through its loop. -/
structure Ticket where
  consumer : Consumer
  pass : Nat
  deriving DecidableEq

/-- A `SET` of a lock that Redis executed: by which pass, under which key, the
second in its value, and the time at Redis. -/
structure Acquisition where
  ticket : Ticket
  key : Str
  seconds : Nat
  time : Nat

def Acquisition.value (acquisition : Acquisition) : Str :=
  lockValue acquisition.ticket.consumer.index acquisition.seconds

/-- A `ReleaseLock` call. -/
structure Release where
  ticket : Ticket
  key : Str
  value : Str
  deriving DecidableEq

/-- The consumers, the clock they read, the second each of them has read for
its lock value, and the number of its pass.  Behind these stands what has
happened: the executed `SET`s, who set each key last, the calls of
`ReleaseLock`, the deletions with the pass whose lock went, and the passes
whose `AcquireLock` returned true or that crashed. -/
structure Locks where
  job : State
  clock : Nat
  planned : Consumer → Option Nat
  pass : Consumer → Nat
  acquisitions : List Acquisition
  holder : Str → Option Ticket
  releases : List Release
  deletions : List (Ticket × Option Ticket)
  acquired : List Release
  crashed : List Ticket

def Locks.ticket (state : Locks) (consumer : Consumer) : Ticket :=
  ⟨consumer, state.pass consumer⟩

inductive LockEvent where
  | clock (seconds : Nat)
  | readClock (consumer : Consumer)
  | acquire (consumer : Consumer) (link : Link)
  | release (consumer : Consumer) (link : Link)
  | consume (consumer : Consumer) (room : Str) (seconds : Nat) (link : Link)
  | crash (consumer : Consumer)
  | other (event : Event)

/-- The steps that have an event of their own here. -/
def Event.isLockStep : Event → Bool
  | .acquire .. => true
  | .release .. => true
  | .consume .. => true
  | .crash .. => true
  | _ => false

def lockStep (state : Locks) : LockEvent → Option Locks
  | .clock seconds =>
      if state.clock ≤ seconds then some { state with clock := seconds } else none
  | .readClock consumer =>
      match state.planned consumer, state.job.phase consumer with
      | none, .cooled _ =>
          some { state with
            planned := Function.update state.planned consumer (some state.clock) }
      | _, _ => none
  | .acquire consumer link =>
      match state.planned consumer, state.job.phase consumer with
      | some seconds, .cooled room =>
          let key := cStr (lockKey room)
          let value := lockValue consumer.index seconds
          let redis := state.job.redis
          let executed := decide (link ≠ .unreachable) && (redis.get key).isNone
          (step state.job (.acquire consumer seconds link)).map fun next =>
            { state with
              job := next
              planned := Function.update state.planned consumer none
              acquisitions :=
                if executed then
                  ⟨state.ticket consumer, key, seconds, redis.now⟩ ::
                    state.acquisitions
                else state.acquisitions
              holder :=
                if executed then
                  Function.update state.holder key (some (state.ticket consumer))
                else state.holder
              acquired :=
                if (acquireLock redis link (lockKey room) value 5).2 then
                  ⟨state.ticket consumer, lockKey room, value⟩ :: state.acquired
                else state.acquired }
      | _, _ => none
  | .release consumer link =>
      match state.job.phase consumer with
      | .releasing room value =>
          let key := lockKey room
          (step state.job (.release consumer link)).map fun next =>
            { state with
              job := next
              releases := ⟨state.ticket consumer, key, value⟩ :: state.releases
              deletions :=
                if link ≠ .unreachable ∧
                    state.job.redis.get key = some value then
                  (state.ticket consumer, state.holder key) :: state.deletions
                else state.deletions }
      | _ => none
  | .consume consumer room seconds link =>
      (step state.job (.consume consumer room seconds link)).map fun next =>
        { state with
          job := next
          pass := Function.update state.pass consumer (state.pass consumer + 1) }
  | .crash consumer =>
      (step state.job (.crash consumer)).map fun next =>
        { state with
          job := next
          planned := Function.update state.planned consumer none
          crashed := state.ticket consumer :: state.crashed }
  | .other event =>
      if event.isLockStep then none
      else (step state.job event).map fun next => { state with job := next }

def noLocks : Locks :=
  ⟨start, 0, fun _ => none, fun _ => 0, [], fun _ => none, [], [], [], []⟩

/-! ## Releases by the owner -/

/-- The room and the lock value of a consumer from its `AcquireLock` up to its
`ReleaseLock`. -/
def Phase.holding : Phase → Option (Str × Str)
  | .locked room value => some (room, value)
  | .found room value => some (room, value)
  | .broadcasting room value _ _ => some (room, value)
  | .releasing room value => some (room, value)
  | _ => none

/-- A pass that acquired a lock has released it once, under the same key and
value, unless it is still on its way there or has crashed. -/
structure ReleasedOnce (state : Locks) : Prop where
  once : (state.releases.map Release.ticket).Nodup
  same : ∀ release ∈ state.releases, release ∈ state.acquired
  settled : ∀ acquired ∈ state.acquired,
    acquired ∈ state.releases ∨ acquired.ticket ∈ state.crashed ∨
      (acquired.ticket = state.ticket acquired.ticket.consumer ∧
        ∃ room, (state.job.phase acquired.ticket.consumer).holding =
          some (room, acquired.value) ∧ acquired.key = lockKey room)

/-- Only the pass that holds a lock deletes it, and it releases it once. -/
structure ReleasedByOwner (state : Locks) : Prop where
  own : ∀ ticket holder, (ticket, holder) ∈ state.deletions →
    holder = some ticket
  released : ReleasedOnce state

/-- The lock was set at most 5 seconds ago and not deleted since. -/
def InForce (state : Locks) (acquisition : Acquisition) : Prop :=
  state.job.redis.now ≤ acquisition.time + 5000 ∧
    ∀ ticket, (ticket, some acquisition.ticket) ∉ state.deletions

/-- No lock of another pass, set under the same key by a consumer of the same
number that read the same second, is in force when Redis executes a release. -/
def lockGuard (state : Locks) : LockEvent → Prop
  | .release consumer link => link ≠ .unreachable →
      ∀ room value, state.job.phase consumer = .releasing room value →
      ∀ acquisition ∈ state.acquisitions, InForce state acquisition →
        acquisition.key = lockKey room → acquisition.value = value →
        acquisition.ticket = state.ticket consumer
  | _ => True

/-! ## The passes of a consumer -/

/-- The consumer has taken a record and not yet asked for the lock. -/
def Phase.early : Phase → Bool
  | .marked _ => true
  | .cooled _ => true
  | _ => false

/-- The other steps move no consumer into or out of the part between
`AcquireLock` and `ReleaseLock`, nor out of its rest. -/
theorem step_phase {state next : State} {event : Event}
    (taken : step state event = some next) (notLock : event.isLockStep = false)
    (consumer : Consumer) :
    (next.phase consumer).holding = (state.phase consumer).holding ∧
    (state.phase consumer = .idle → next.phase consumer = .idle) ∧
    ((next.phase consumer).early = true →
      (state.phase consumer).early = true) := by
  have moved : ∀ {mover : Consumer} {redis : Redis} {target : Phase},
      target.holding = (state.phase mover).holding →
      state.phase mover ≠ .idle →
      (target.early = true → (state.phase mover).early = true) →
      next = (⟨redis, state.phase⟩ : State).goto mover target →
      (next.phase consumer).holding = (state.phase consumer).holding ∧
      (state.phase consumer = .idle → next.phase consumer = .idle) ∧
      ((next.phase consumer).early = true →
        (state.phase consumer).early = true) := by
    intro mover redis target sameHolding notIdle earlier result
    subst result
    by_cases same : consumer = mover
    · subst same
      simp only [State.goto, Function.update_self]
      exact ⟨sameHolding, fun idle => absurd idle notIdle, earlier⟩
    · simp only [State.goto, Function.update_of_ne same]
      exact ⟨trivial, id, id⟩
  cases event with
  | consume mover room seconds link => cases notLock
  | acquire mover seconds link => cases notLock
  | release mover link => cases notLock
  | crash mover => cases notLock
  | checkCooldown mover link =>
      obtain ⟨room, phase, result⟩ := step_checkCooldown taken
      apply moved _ _ _ result
      · rw [phase]
        split <;> rfl
      · simp [phase]
      · intro _
        simp [phase, Phase.early]
  | lookup mover connIds =>
      obtain ⟨room, value, phase, result⟩ := step_lookup taken
      apply moved _ _ _ result
      · rw [phase]
        split <;> rfl
      · simp [phase]
      · split <;> simp [Phase.early]
  | group mover comets =>
      obtain ⟨room, value, phase, result⟩ := step_group taken
      apply moved _ _ _ result
      · rw [phase]
        split
        · rfl
        · rename_i comets
          cases comets <;> rfl
      · simp [phase]
      · split
        · simp [Phase.early]
        · rename_i comets
          cases comets <;> simp [nextBroadcast, Phase.early]
  | broadcast mover sent =>
      obtain ⟨room, value, comet, remaining, phase, result⟩ :=
        step_broadcast taken
      apply moved _ _ _ result
      · rw [phase]
        cases remaining <;> rfl
      · simp [phase]
      · cases remaining <;> simp [nextBroadcast, Phase.early]
  | tick elapsed =>
      simp only [step, Option.some.injEq] at taken
      subst taken
      exact ⟨rfl, id, id⟩

/-- What the history knows of the passes: a consumer on its way to the release
has acquired its lock, a pass that released is over, and a pass that has set
a lock does not ask again. -/
structure Books (state : Locks) : Prop where
  released : ReleasedOnce state
  held : ∀ consumer room value,
    (state.job.phase consumer).holding = some (room, value) →
    ⟨state.ticket consumer, lockKey room, value⟩ ∈ state.acquired
  done : ∀ release ∈ state.releases,
    release.ticket.pass ≤ state.pass release.ticket.consumer ∧
    (release.ticket.pass = state.pass release.ticket.consumer →
      state.job.phase release.ticket.consumer = .idle)
  set : ∀ acquisition ∈ state.acquisitions,
    acquisition.ticket.pass ≤ state.pass acquisition.ticket.consumer ∧
    (acquisition.ticket.pass = state.pass acquisition.ticket.consumer →
      (state.job.phase acquisition.ticket.consumer).early = false)
  unique : ∀ first ∈ state.acquisitions, ∀ second ∈ state.acquisitions,
    first.ticket = second.ticket → first = second

/-- What Redis holds of the locks: those in force, and no others. -/
structure Stored (state : Locks) : Prop where
  locks : ∀ acquisition ∈ state.acquisitions, acquisition.key.head? = some 108
  stored : ∀ acquisition ∈ state.acquisitions, InForce state acquisition →
    state.job.redis.entries acquisition.key =
        some (acquisition.value, acquisition.time + 5000) ∧
      state.holder acquisition.key = some acquisition.ticket
  earned : ∀ key value deadline, key.head? = some 108 →
    state.job.redis.entries key = some (value, deadline) →
    ∃ acquisition ∈ state.acquisitions, acquisition.key = key ∧
      acquisition.value = value ∧ deadline = acquisition.time + 5000 ∧
      state.holder key = some acquisition.ticket ∧
      ∀ ticket, (ticket, some acquisition.ticket) ∉ state.deletions
  deleted : ∀ ticket holder, (ticket, some holder) ∈ state.deletions →
    ∃ acquisition ∈ state.acquisitions, acquisition.ticket = holder

/-- The live lock of a key is one in force, that of its holder. -/
theorem Stored.of_get {state : Locks} (stored : Stored state) {key value : Str}
    (isLock : key.head? = some 108)
    (live : state.job.redis.get key = some value) :
    ∃ acquisition ∈ state.acquisitions, acquisition.key = key ∧
      acquisition.value = value ∧ InForce state acquisition ∧
      state.holder key = some acquisition.ticket := by
  obtain ⟨deadline, entry, inTime⟩ := ExpiringStore.get_eq_some_iff.mp live
  obtain ⟨acquisition, member, sameKey, sameValue, rfl, isHolder, kept⟩ :=
    stored.earned key value deadline isLock entry
  exact ⟨acquisition, member, sameKey, sameValue, ⟨inTime, kept⟩, isHolder⟩

theorem Stored.get {state : Locks} (stored : Stored state)
    {acquisition : Acquisition} (member : acquisition ∈ state.acquisitions)
    (inForce : InForce state acquisition) :
    state.job.redis.get acquisition.key = some acquisition.value :=
  ExpiringStore.get_eq_some_iff.mpr
    ⟨_, (stored.stored acquisition member inForce).1, inForce.1⟩

section Steps

variable {state : Locks} {job : State}

/-! ### Steps that are no lock steps -/

theorem ReleasedOnce.other (released : ReleasedOnce state)
    (phases : ∀ consumer,
      (job.phase consumer).holding = (state.job.phase consumer).holding) :
    ReleasedOnce { state with job := job } := by
  refine ⟨released.once, released.same, ?_⟩
  intro acquired member
  simp only [phases]
  exact released.settled acquired member

theorem Books.other (books : Books state) {event : Event}
    (notLock : event.isLockStep = false)
    (stepped : step state.job event = some job) :
    Books { state with job := job } := by
  have phases := step_phase stepped notLock
  constructor
  · exact books.released.other fun consumer => (phases consumer).1
  · intro consumer room value holding
    rw [(phases consumer).1] at holding
    exact books.held consumer room value holding
  · intro release member
    obtain ⟨bound, idle⟩ := books.done release member
    exact ⟨bound, fun same => (phases _).2.1 (idle same)⟩
  · intro acquisition member
    obtain ⟨bound, notEarly⟩ := books.set acquisition member
    refine ⟨bound, ?_⟩
    intro same
    by_contra isEarly
    have wasEarly := (phases _).2.2 (by simpa using isEarly)
    rw [notEarly same] at wasEarly
    cases wasEarly
  · exact books.unique

/-- Redis may let time pass and change keys that are no locks. -/
theorem Stored.other (stored : Stored state)
    (later : state.job.redis.now ≤ job.redis.now)
    (entries : ∀ key : Str, key.head? = some 108 →
      job.redis.entries key = state.job.redis.entries key) :
    Stored { state with job := job } := by
  constructor
  · exact stored.locks
  · intro acquisition member inForce
    have before : InForce state acquisition :=
      ⟨Nat.le_trans later inForce.1, inForce.2⟩
    simp only [entries _ (stored.locks acquisition member)]
    exact stored.stored acquisition member before
  · intro key value deadline isLock entry
    simp only [entries key isLock] at entry
    exact stored.earned key value deadline isLock entry
  · exact stored.deleted

/-! ### A new pass -/

theorem Books.consume (books : Books state) {consumer : Consumer}
    {room : Str} {seconds : Nat} {link : Link}
    (stepped : step state.job (.consume consumer room seconds link) = some job) :
    Books { state with
      job := job
      pass := Function.update state.pass consumer
        (state.pass consumer + 1) } := by
  obtain ⟨idle, result⟩ := step_consume stepped
  have phases : ∀ other, (job.phase other).holding =
      (state.job.phase other).holding ∧
      (other ≠ consumer → job.phase other = state.job.phase other) := by
    intro other
    subst result
    by_cases same : other = consumer
    · subst same
      simp only [State.goto, Function.update_self, idle]
      refine ⟨?_, fun different => absurd rfl different⟩
      split <;> rfl
    · simp only [State.goto, Function.update_of_ne same]
      exact ⟨trivial, fun _ => trivial⟩
  have passes : ∀ other, state.pass other ≤
      Function.update state.pass consumer (state.pass consumer + 1) other ∧
      (other = consumer → state.pass other <
        Function.update state.pass consumer (state.pass consumer + 1) other) := by
    intro other
    by_cases same : other = consumer
    · simp [same]
    · simp [same]
  have others : ∀ {other} {number : Nat}, number ≤ state.pass other →
      number = Function.update state.pass consumer (state.pass consumer + 1)
        other →
      other ≠ consumer ∧ number = state.pass other := by
    intro other number bound same
    have later := passes other
    constructor
    · intro isConsumer
      have := later.2 isConsumer
      omega
    · omega
  constructor
  · refine ⟨books.released.once, books.released.same, ?_⟩
    intro acquired member
    rcases books.released.settled acquired member with
      done | crashed | ⟨isTicket, onTheWay⟩
    · exact .inl done
    · exact .inr (.inl crashed)
    · right; right
      obtain ⟨heldRoom, holding, isKey⟩ := onTheWay
      have different : acquired.ticket.consumer ≠ consumer := by
        intro same
        rw [same, idle] at holding
        cases holding
      simp only [Locks.ticket, Function.update_of_ne different, phases]
      exact ⟨isTicket, heldRoom, holding, isKey⟩
  · intro other heldRoom value holding
    rw [(phases other).1] at holding
    have different : other ≠ consumer := by
      intro same
      rw [same, idle] at holding
      cases holding
    simp only [Locks.ticket, Function.update_of_ne different]
    exact books.held other heldRoom value holding
  · intro release member
    obtain ⟨bound, isOver⟩ := books.done release member
    refine ⟨Nat.le_trans bound (passes _).1, ?_⟩
    intro same
    obtain ⟨different, isPass⟩ := others bound same
    simp only [(phases _).2 different]
    exact isOver isPass
  · intro acquisition member
    obtain ⟨bound, notEarly⟩ := books.set acquisition member
    refine ⟨Nat.le_trans bound (passes _).1, ?_⟩
    intro same
    obtain ⟨different, isPass⟩ := others bound same
    simp only [(phases _).2 different]
    exact notEarly isPass
  · exact books.unique

/-! ### A consumer that goes on -/

theorem phase_goto_self (redis : Redis) (consumer : Consumer)
    (target : Phase) :
    ((⟨redis, state.job.phase⟩ : State).goto consumer target).phase consumer =
      target :=
  Function.update_self _ _ _

theorem phase_goto_of_ne (redis : Redis) {consumer other : Consumer}
    (different : other ≠ consumer) (target : Phase) :
    ((⟨redis, state.job.phase⟩ : State).goto consumer target).phase other =
      state.job.phase other :=
  Function.update_of_ne different _ _

/-- The pass that acquired a lock is on its way to the release. -/
def OnTheWay (state : Locks) (job : State) (acquired : Release) : Prop :=
  acquired.ticket = state.ticket acquired.ticket.consumer ∧
    ∃ room, (job.phase acquired.ticket.consumer).holding =
      some (room, acquired.value) ∧ acquired.key = lockKey room

/-- Only for the lock of the consumer itself something changes. -/
theorem ReleasedOnce.settled_goto (released : ReleasedOnce state)
    {acquired : Release} (member : acquired ∈ state.acquired) (redis : Redis)
    (consumer : Consumer) (target : Phase) :
    acquired ∈ state.releases ∨ acquired.ticket ∈ state.crashed ∨
      OnTheWay state ((⟨redis, state.job.phase⟩ : State).goto consumer target)
        acquired ∨
      (acquired.ticket.consumer = consumer ∧
        OnTheWay state state.job acquired) := by
  rcases released.settled acquired member with done | crashed | onTheWay
  · exact .inl done
  · exact .inr (.inl crashed)
  · right; right
    by_cases same : acquired.ticket.consumer = consumer
    · exact .inr ⟨same, onTheWay⟩
    · left
      rw [OnTheWay, phase_goto_of_ne redis same]
      exact onTheWay

theorem Books.held_goto (books : Books state) (redis : Redis)
    {consumer : Consumer} {target : Phase} (outside : target.holding = none) :
    ∀ other room value,
      (((⟨redis, state.job.phase⟩ : State).goto consumer target).phase
        other).holding = some (room, value) →
      ⟨state.ticket other, lockKey room, value⟩ ∈ state.acquired := by
  intro other room value holding
  by_cases same : other = consumer
  · rw [same, phase_goto_self, outside] at holding
    cases holding
  · rw [phase_goto_of_ne redis same] at holding
    exact books.held other room value holding

theorem Books.done_goto (books : Books state) (redis : Redis)
    {consumer : Consumer} {target : Phase}
    (rests : state.job.phase consumer = .idle → target = .idle) :
    ∀ release ∈ state.releases,
      release.ticket.pass ≤ state.pass release.ticket.consumer ∧
      (release.ticket.pass = state.pass release.ticket.consumer →
        ((⟨redis, state.job.phase⟩ : State).goto consumer target).phase
          release.ticket.consumer = .idle) := by
  intro release member
  obtain ⟨bound, isOver⟩ := books.done release member
  refine ⟨bound, ?_⟩
  intro isPass
  have idle := isOver isPass
  by_cases same : release.ticket.consumer = consumer
  · rw [same] at idle
    rw [same, phase_goto_self]
    exact rests idle
  · rw [phase_goto_of_ne redis same]
    exact idle

theorem Books.set_goto (books : Books state) (redis : Redis)
    {consumer : Consumer} {target : Phase} (notEarly : target.early = false) :
    ∀ acquisition ∈ state.acquisitions,
      acquisition.ticket.pass ≤ state.pass acquisition.ticket.consumer ∧
      (acquisition.ticket.pass = state.pass acquisition.ticket.consumer →
        (((⟨redis, state.job.phase⟩ : State).goto consumer target).phase
          acquisition.ticket.consumer).early = false) := by
  intro acquisition member
  obtain ⟨bound, wasNotEarly⟩ := books.set acquisition member
  refine ⟨bound, ?_⟩
  intro isPass
  by_cases same : acquisition.ticket.consumer = consumer
  · rw [same, phase_goto_self]
    exact notEarly
  · rw [phase_goto_of_ne redis same]
    exact wasNotEarly isPass

/-! ### A crash -/

theorem Books.crash (books : Books state) (consumer : Consumer)
    (planned : Consumer → Option Nat) :
    Books { state with
      job := state.job.goto consumer .idle
      planned := planned
      crashed := state.ticket consumer :: state.crashed } := by
  constructor
  · refine ⟨books.released.once, books.released.same, ?_⟩
    intro acquired member
    rcases books.released.settled_goto member state.job.redis consumer .idle with
      done | crashed | onTheWay | ⟨own, isTicket, -⟩
    · exact .inl done
    · exact .inr (.inl (List.mem_cons_of_mem _ crashed))
    · exact .inr (.inr onTheWay)
    · right; left
      rw [isTicket, own]
      exact List.mem_cons_self
  · exact books.held_goto _ rfl
  · exact books.done_goto _ fun _ => rfl
  · exact books.set_goto _ rfl
  · exact books.unique

/-! ### `ReleaseLock` -/

/-- A pass that is about to release has not released yet. -/
theorem Books.not_released (books : Books state) {consumer : Consumer}
    {room value : Str}
    (releasing : state.job.phase consumer = .releasing room value) :
    ∀ release ∈ state.releases, release.ticket ≠ state.ticket consumer := by
  intro release member same
  have idle := (books.done release member).2 (by rw [same]; rfl)
  rw [same, show (state.ticket consumer).consumer = consumer from rfl,
    releasing] at idle
  cases idle

theorem Books.release (books : Books state) {consumer : Consumer}
    {room value : Str} (releasing : state.job.phase consumer = .releasing room value)
    (redis : Redis) (deletions : List (Ticket × Option Ticket)) :
    Books { state with
      job := (⟨redis, state.job.phase⟩ : State).goto consumer .idle
      releases := ⟨state.ticket consumer, lockKey room, value⟩ :: state.releases
      deletions := deletions } := by
  have isHeld := books.held consumer room value (by rw [releasing]; rfl)
  constructor
  · constructor
    · apply List.nodup_cons.mpr
      refine ⟨?_, books.released.once⟩
      intro member
      obtain ⟨release, isRelease, same⟩ := List.mem_map.mp member
      exact books.not_released releasing release isRelease same
    · intro release member
      rcases List.mem_cons.mp member with latest | earlier
      · rw [latest]
        exact isHeld
      · exact books.released.same release earlier
    · intro acquired member
      rcases books.released.settled_goto member redis consumer .idle with
        done | crashed | onTheWay | ⟨own, isTicket, heldRoom, holding, isKey⟩
      · exact .inl (List.mem_cons_of_mem _ done)
      · exact .inr (.inl crashed)
      · exact .inr (.inr onTheWay)
      · left
        rw [own, releasing] at holding
        obtain ⟨sameRoom, sameValue⟩ := Prod.mk.inj (Option.some.inj holding)
        rw [own] at isTicket
        obtain ⟨ticket, key, acquiredValue⟩ := acquired
        simp only at isTicket isKey sameValue
        rw [isTicket, isKey, ← sameRoom, ← sameValue]
        exact List.mem_cons_self
  · exact books.held_goto redis rfl
  · intro release member
    rcases List.mem_cons.mp member with latest | earlier
    · rw [latest]
      refine ⟨Nat.le_refl _, ?_⟩
      intro _
      exact phase_goto_self redis consumer .idle
    · exact books.done_goto redis (fun _ => rfl) release earlier
  · exact books.set_goto redis rfl
  · exact books.unique

/-- The deletion of a live lock of the key by a pass. -/
theorem Stored.delete (stored : Stored state)
    (unique : ∀ first ∈ state.acquisitions, ∀ second ∈ state.acquisitions,
      first.ticket = second.ticket → first = second)
    {key value : Str} (isLock : key.head? = some 108)
    (live : state.job.redis.get key = some value) (ticket : Ticket)
    (phase : Consumer → Phase) (releases : List Release) :
    Stored { state with
      job := ⟨state.job.redis.compareAndDelete key value, phase⟩
      releases := releases
      deletions := (ticket, state.holder key) :: state.deletions } := by
  obtain ⟨gone, goneMember, goneKey, -, -, isHolder⟩ := stored.of_get isLock live
  have entries : (state.job.redis.compareAndDelete key value).entries =
      Function.update state.job.redis.entries key none := by
    simp [ExpiringStore.compareAndDelete, live]
  have now : (state.job.redis.compareAndDelete key value).now =
      state.job.redis.now := by
    simp [ExpiringStore.compareAndDelete, live]
  constructor
  · exact stored.locks
  · intro acquisition member inForce
    simp only [InForce, now, List.mem_cons, Prod.mk.injEq, not_or] at inForce
    have before : InForce state acquisition :=
      ⟨inForce.1, fun other => (inForce.2 other).2⟩
    obtain ⟨entry, holds⟩ := stored.stored acquisition member before
    have different : acquisition.key ≠ key := by
      intro same
      rw [same] at holds
      exact (inForce.2 ticket).1 ⟨rfl, holds.symm⟩
    simp only [entries, Function.update_of_ne different]
    exact ⟨entry, holds⟩
  · intro other otherValue deadline isOtherLock entry
    simp only [entries] at entry
    have different : other ≠ key := by
      intro same
      rw [same, Function.update_self] at entry
      cases entry
    rw [Function.update_of_ne different] at entry
    obtain ⟨acquisition, member, isKey, isValue, isDeadline, holds, kept⟩ :=
      stored.earned other otherValue deadline isOtherLock entry
    refine ⟨acquisition, member, isKey, isValue, isDeadline, holds, ?_⟩
    intro deleter isDeleted
    rcases List.mem_cons.mp isDeleted with latest | earlier
    · obtain ⟨-, sameHolder⟩ := Prod.mk.inj latest
      rw [isHolder, Option.some.injEq] at sameHolder
      have same := unique acquisition member gone goneMember sameHolder
      rw [same] at isKey
      exact different (isKey.symm.trans goneKey)
    · exact kept deleter earlier
  · intro deleter holder isDeleted
    rcases List.mem_cons.mp isDeleted with latest | earlier
    · obtain ⟨-, sameHolder⟩ := Prod.mk.inj latest
      rw [isHolder, Option.some.injEq] at sameHolder
      exact ⟨gone, goneMember, sameHolder.symm⟩
    · exact stored.deleted deleter holder earlier

/-! ### `AcquireLock` -/

/-- A pass that is about to ask for its lock has not set one yet. -/
theorem Books.not_set (books : Books state) {consumer : Consumer} {room : Str}
    (cooled : state.job.phase consumer = .cooled room) :
    ∀ acquisition ∈ state.acquisitions,
      acquisition.ticket ≠ state.ticket consumer := by
  intro acquisition member same
  have notEarly := (books.set acquisition member).2 (by rw [same]; rfl)
  rw [same, show (state.ticket consumer).consumer = consumer from rfl,
    cooled] at notEarly
  cases notEarly

/-- One more pass sets a lock. -/
theorem unique_cons {acquisitions : List Acquisition} {acquisition : Acquisition}
    (unique : ∀ first ∈ acquisitions, ∀ second ∈ acquisitions,
      first.ticket = second.ticket → first = second)
    (new : ∀ earlier ∈ acquisitions, earlier.ticket ≠ acquisition.ticket) :
    ∀ first ∈ acquisition :: acquisitions,
      ∀ second ∈ acquisition :: acquisitions,
        first.ticket = second.ticket → first = second := by
  intro first firstMember second secondMember sameTicket
  rcases List.mem_cons.mp firstMember with rfl | firstEarlier
  · rcases List.mem_cons.mp secondMember with rfl | secondEarlier
    · rfl
    · exact absurd sameTicket.symm (new second secondEarlier)
  · rcases List.mem_cons.mp secondMember with rfl | secondEarlier
    · exact absurd sameTicket (new first firstEarlier)
    · exact unique first firstEarlier second secondEarlier sameTicket

theorem Books.acquire (books : Books state) {consumer : Consumer} {room : Str}
    (cooled : state.job.phase consumer = .cooled room) (redis : Redis)
    (value : Str) (planned : Consumer → Option Nat)
    (holder : Str → Option Ticket) (executed granted : Bool)
    {acquisition : Acquisition}
    (isTicket : acquisition.ticket = state.ticket consumer) :
    Books { state with
      job := (⟨redis, state.job.phase⟩ : State).goto consumer
        (if granted then .locked room value else .idle)
      planned := planned
      acquisitions :=
        if executed then acquisition :: state.acquisitions
        else state.acquisitions
      holder := holder
      acquired :=
        if granted then
          ⟨state.ticket consumer, lockKey room, value⟩ :: state.acquired
        else state.acquired } := by
  have notEarly : ∀ granted : Bool,
      (if granted then Phase.locked room value else .idle).early = false := by
    intro granted
    cases granted <;> rfl
  have settled : ∀ (target : Phase), ∀ acquired ∈ state.acquired,
      acquired ∈ state.releases ∨ acquired.ticket ∈ state.crashed ∨
        OnTheWay state ((⟨redis, state.job.phase⟩ : State).goto consumer target)
          acquired := by
    intro target acquired member
    rcases books.released.settled_goto member redis consumer target with
      done | crashed | onTheWay | ⟨own, -, heldRoom, holding, -⟩
    · exact .inl done
    · exact .inr (.inl crashed)
    · exact .inr (.inr onTheWay)
    · rw [own, cooled] at holding
      cases holding
  constructor
  · cases granted with
    | false =>
        exact ⟨books.released.once, books.released.same, settled .idle⟩
    | true =>
        refine ⟨books.released.once, ?_, ?_⟩
        · intro release member
          exact List.mem_cons_of_mem _ (books.released.same release member)
        · intro acquired member
          rcases List.mem_cons.mp member with latest | earlier
          · right; right
            rw [latest]
            refine ⟨rfl, room, ?_, rfl⟩
            exact congrArg Phase.holding
              (phase_goto_self redis consumer (.locked room value))
          · exact settled (.locked room value) acquired earlier
  · cases granted with
    | false => exact books.held_goto redis rfl
    | true =>
        intro other heldRoom heldValue holding
        by_cases same : other = consumer
        · rw [same]
          rw [same, if_pos rfl, phase_goto_self] at holding
          cases holding
          exact List.mem_cons_self
        · rw [phase_goto_of_ne redis same] at holding
          exact List.mem_cons_of_mem _
            (books.held other heldRoom heldValue holding)
  · apply books.done_goto redis
    intro idle
    rw [cooled] at idle
    cases idle
  · cases executed with
    | false => exact books.set_goto redis (notEarly granted)
    | true =>
        intro set member
        rcases List.mem_cons.mp member with latest | earlier
        · rw [latest, isTicket]
          refine ⟨Nat.le_refl _, ?_⟩
          intro _
          exact (congrArg Phase.early (phase_goto_self redis consumer _)).trans
            (notEarly granted)
        · exact books.set_goto redis (notEarly granted) set earlier
  · cases executed with
    | false => exact books.unique
    | true =>
        apply unique_cons books.unique
        rw [isTicket]
        exact books.not_set cooled

/-- A lock that is set under a free key. -/
theorem Stored.set (stored : Stored state) {acquisition : Acquisition}
    (isLock : acquisition.key.head? = some 108)
    (free : state.job.redis.get acquisition.key = none)
    (fresh : ∀ ticket, (ticket, some acquisition.ticket) ∉ state.deletions)
    (phase : Consumer → Phase) (planned : Consumer → Option Nat)
    (acquired : List Release) :
    Stored { state with
      job := ⟨{ state.job.redis with
        entries := Function.update state.job.redis.entries acquisition.key
          (some (acquisition.value, acquisition.time + 5000)) }, phase⟩
      planned := planned
      acquisitions := acquisition :: state.acquisitions
      holder := Function.update state.holder acquisition.key
        (some acquisition.ticket)
      acquired := acquired } := by
  constructor
  · intro other member
    rcases List.mem_cons.mp member with latest | earlier
    · rw [latest]
      exact isLock
    · exact stored.locks other earlier
  · intro other member inForce
    rcases List.mem_cons.mp member with latest | earlier
    · rw [latest]
      simp only [Function.update_self, true_and]
    · have live := stored.get earlier inForce
      have different : other.key ≠ acquisition.key := by
        intro same
        rw [same, free] at live
        cases live
      simp only [Function.update_of_ne different]
      exact stored.stored other earlier inForce
  · intro key value deadline isOtherLock entry
    by_cases same : key = acquisition.key
    · simp only [same, Function.update_self, Option.some.injEq,
        Prod.mk.injEq] at entry
      obtain ⟨isValue, isDeadline⟩ := entry
      refine ⟨acquisition, List.mem_cons_self, same.symm, isValue,
        isDeadline.symm, ?_, fresh⟩
      simp only [same, Function.update_self]
    · simp only [Function.update_of_ne same] at entry
      obtain ⟨other, member, isKey, isValue, isDeadline, holds, kept⟩ :=
        stored.earned key value deadline isOtherLock entry
      refine ⟨other, List.mem_cons_of_mem _ member, isKey, isValue, isDeadline,
        ?_, kept⟩
      simp only [Function.update_of_ne same]
      exact holds
  · intro ticket holder isDeleted
    obtain ⟨other, member, isTicket⟩ := stored.deleted ticket holder isDeleted
    exact ⟨other, List.mem_cons_of_mem _ member, isTicket⟩

end Steps

/-! ## Whole runs -/

/-- The history and Redis agree about the locks. -/
structure Accounted (state : Locks) : Prop where
  books : Books state
  stored : Stored state

theorem Accounted.other {state : Locks} {job : State} {event : Event}
    (accounted : Accounted state) (notLock : event.isLockStep = false)
    (stepped : step state.job event = some job) :
    Accounted { state with job := job } := by
  obtain ⟨now, entries⟩ := step_redis stepped
  refine ⟨accounted.books.other notLock stepped, ?_⟩
  apply accounted.stored.other
  · omega
  · intro key isLock
    apply entries
    intro byte writes same
    rw [isLock] at same
    cases same
    cases event with
    | acquire consumer seconds link => cases notLock
    | release consumer link => cases notLock
    | _ => cases writes

theorem Accounted.acquire {state : Locks} {job : State} {consumer : Consumer}
    {room : Str} {seconds : Nat} {link : Link} (accounted : Accounted state)
    (cooled : state.job.phase consumer = .cooled room)
    (stepped : step state.job (.acquire consumer seconds link) = some job) :
    Accounted { state with
      job := job
      planned := Function.update state.planned consumer none
      acquisitions :=
        if decide (link ≠ .unreachable) &&
            (state.job.redis.get (cStr (lockKey room))).isNone then
          ⟨state.ticket consumer, cStr (lockKey room), seconds,
            state.job.redis.now⟩ :: state.acquisitions
        else state.acquisitions
      holder :=
        if decide (link ≠ .unreachable) &&
            (state.job.redis.get (cStr (lockKey room))).isNone then
          Function.update state.holder (cStr (lockKey room))
            (some (state.ticket consumer))
        else state.holder
      acquired :=
        if (acquireLock state.job.redis link (lockKey room)
            (lockValue consumer.index seconds) 5).2 then
          ⟨state.ticket consumer, lockKey room,
            lockValue consumer.index seconds⟩ :: state.acquired
        else state.acquired } := by
  have books := accounted.books
  have fresh : ∀ ticket,
      (ticket, some (state.ticket consumer)) ∉ state.deletions := by
    intro ticket isDeleted
    obtain ⟨earlier, member, same⟩ :=
      accounted.stored.deleted ticket _ isDeleted
    exact books.not_set cooled earlier member same
  have redis := setNxEx_fst state.job.redis link (lockKey room)
    (lockValue consumer.index seconds) 5
  simp only [step, cooled, Option.some.injEq] at stepped
  subst stepped
  refine ⟨?_, ?_⟩
  · exact books.acquire cooled _ _ _ _ _ _ rfl
  · by_cases executed : link ≠ .unreachable ∧
        state.job.redis.get (cStr (lockKey room)) = none
    · have isExecuted : (decide (link ≠ .unreachable) &&
          (state.job.redis.get (cStr (lockKey room))).isNone) = true := by
        simp [executed.1, executed.2]
      rw [if_pos executed, cStr_lockValue] at redis
      simp only [isExecuted, if_true, acquireLock, redis, State.goto]
      have isLock : (⟨state.ticket consumer, cStr (lockKey room), seconds,
          state.job.redis.now⟩ : Acquisition).key.head? = some 108 :=
        head?_cStr_lockKey room
      exact accounted.stored.set isLock executed.2 fresh _ _ _
    · have notExecuted : (decide (link ≠ .unreachable) &&
          (state.job.redis.get (cStr (lockKey room))).isNone) = false := by
        simpa [Option.isSome_iff_ne_none] using executed
      rw [if_neg executed] at redis
      simp only [notExecuted, Bool.false_eq_true, if_false, acquireLock, redis]
      exact ⟨accounted.stored.locks, accounted.stored.stored,
        accounted.stored.earned, accounted.stored.deleted⟩

theorem Accounted.release {state : Locks} {job : State} {consumer : Consumer}
    {room value : Str} {link : Link} (accounted : Accounted state)
    (releasing : state.job.phase consumer = .releasing room value)
    (stepped : step state.job (.release consumer link) = some job) :
    Accounted { state with
      job := job
      releases :=
        ⟨state.ticket consumer, lockKey room, value⟩ :: state.releases
      deletions :=
        if link ≠ .unreachable ∧
            state.job.redis.get (lockKey room) = some value then
          (state.ticket consumer, state.holder (lockKey room)) ::
            state.deletions
        else state.deletions } := by
  simp only [step, releasing, Option.some.injEq] at stepped
  subst stepped
  refine ⟨accounted.books.release releasing _ _, ?_⟩
  by_cases deletes : link ≠ .unreachable ∧
      state.job.redis.get (lockKey room) = some value
  · have executed : releaseLock state.job.redis link (lockKey room) value =
        state.job.redis.compareAndDelete (lockKey room) value := by
      cases link with
      | answered => rfl
      | replyLost => rfl
      | unreachable => exact absurd rfl deletes.1
    have isLock : (lockKey room).head? = some 108 := rfl
    simp only [if_pos deletes, executed, State.goto]
    exact accounted.stored.delete accounted.books.unique isLock deletes.2 _ _ _
  · have unchanged : releaseLock state.job.redis link (lockKey room) value =
        state.job.redis := by
      cases link with
      | answered =>
          simp only [ne_eq, reduceCtorEq, not_false_eq_true, true_and] at deletes
          simp [releaseLock, ExpiringStore.compareAndDelete, deletes]
      | replyLost =>
          simp only [ne_eq, reduceCtorEq, not_false_eq_true, true_and] at deletes
          simp [releaseLock, ExpiringStore.compareAndDelete, deletes]
      | unreachable => rfl
    simp only [if_neg deletes, unchanged]
    exact ⟨accounted.stored.locks, accounted.stored.stored,
      accounted.stored.earned, accounted.stored.deleted⟩

/-- Every step keeps the account. -/
theorem Accounted.step {state next : Locks} {event : LockEvent}
    (accounted : Accounted state) (taken : lockStep state event = some next) :
    Accounted next := by
  have same : ∀ {clock : Nat} {planned : Consumer → Option Nat},
      Accounted { state with clock := clock, planned := planned } := by
    intro clock planned
    obtain ⟨released, held, done, set, unique⟩ := accounted.books
    exact ⟨⟨⟨released.once, released.same, released.settled⟩, held, done, set,
      unique⟩,
      ⟨accounted.stored.locks, accounted.stored.stored,
        accounted.stored.earned, accounted.stored.deleted⟩⟩
  cases event with
  | clock seconds =>
      simp only [lockStep] at taken
      split at taken
      · cases taken
        exact same
      · cases taken
  | readClock consumer =>
      simp only [lockStep] at taken
      split at taken
      · cases taken
        exact same
      · cases taken
  | acquire consumer link =>
      simp only [lockStep] at taken
      split at taken
      · rename_i seconds room planned cooled
        obtain ⟨job, stepped, rfl⟩ := Option.map_eq_some_iff.mp taken
        exact accounted.acquire cooled stepped
      · cases taken
  | release consumer link =>
      simp only [lockStep] at taken
      split at taken
      · rename_i room value releasing
        obtain ⟨job, stepped, rfl⟩ := Option.map_eq_some_iff.mp taken
        exact accounted.release releasing stepped
      · cases taken
  | consume consumer room seconds link =>
      obtain ⟨job, stepped, rfl⟩ := Option.map_eq_some_iff.mp taken
      obtain ⟨now, entries⟩ := step_redis stepped
      refine ⟨accounted.books.consume stepped, ?_⟩
      have stored := accounted.stored.other (Nat.le_of_eq now.symm)
        (fun key isLock => entries key (by simp [Event.writes, isLock]))
      exact ⟨stored.locks, stored.stored, stored.earned, stored.deleted⟩
  | crash consumer =>
      cases taken
      refine ⟨accounted.books.crash consumer _, ?_⟩
      exact ⟨accounted.stored.locks, accounted.stored.stored,
        accounted.stored.earned, accounted.stored.deleted⟩
  | other event =>
      simp only [lockStep] at taken
      split at taken
      · cases taken
      · rename_i notLock
        obtain ⟨job, stepped, rfl⟩ := Option.map_eq_some_iff.mp taken
        exact accounted.other (by simpa using notLock) stepped

/-- Only `ReleaseLock` deletes. -/
theorem deletions_step {state next : Locks} {event : LockEvent}
    (taken : lockStep state event = some next)
    (notRelease : ∀ consumer link, event ≠ .release consumer link) :
    next.deletions = state.deletions := by
  cases event with
  | release consumer link => exact absurd rfl (notRelease consumer link)
  | clock seconds =>
      simp only [lockStep] at taken
      split at taken
      · cases taken
        rfl
      · cases taken
  | readClock consumer =>
      simp only [lockStep] at taken
      split at taken
      · cases taken
        rfl
      · cases taken
  | acquire consumer link =>
      simp only [lockStep] at taken
      split at taken
      · obtain ⟨job, -, rfl⟩ := Option.map_eq_some_iff.mp taken
        rfl
      · cases taken
  | consume consumer room seconds link =>
      obtain ⟨job, -, rfl⟩ := Option.map_eq_some_iff.mp taken
      rfl
  | crash consumer =>
      cases taken
      rfl
  | other event =>
      simp only [lockStep] at taken
      split at taken
      · cases taken
      · obtain ⟨job, -, rfl⟩ := Option.map_eq_some_iff.mp taken
        rfl

/-- A release that is executed deletes the lock of its own pass, or none,
exactly when no other lock with its value is in force. -/
theorem Accounted.release_own_iff {state : Locks} {consumer : Consumer}
    {room value : Str} {link : Link} (accounted : Accounted state)
    (releasing : state.job.phase consumer = .releasing room value) :
    (link ≠ .unreachable ∧ state.job.redis.get (lockKey room) = some value →
      state.holder (lockKey room) = some (state.ticket consumer)) ↔
    lockGuard state (.release consumer link) := by
  have isLock : (lockKey room).head? = some 108 := rfl
  constructor
  · intro own executed otherRoom otherValue isReleasing acquisition member
      inForce isKey isValue
    rw [releasing] at isReleasing
    cases isReleasing
    have live := accounted.stored.get member inForce
    rw [isKey, isValue] at live
    have holds := (accounted.stored.stored acquisition member inForce).2
    rw [isKey, own ⟨executed, live⟩, Option.some.injEq] at holds
    exact holds.symm
  · intro guarded deletes
    obtain ⟨acquisition, member, isKey, isValue, inForce, holds⟩ :=
      accounted.stored.of_get isLock deletes.2
    have same := guarded deletes.1 room value releasing acquisition member
      inForce isKey isValue
    rw [holds, same]

/-- A step leaves only deletions by owners exactly when it is guarded. -/
theorem Accounted.own_iff {state next : Locks} {event : LockEvent}
    (accounted : Accounted state)
    (before : ∀ ticket holder, (ticket, holder) ∈ state.deletions →
      holder = some ticket)
    (taken : lockStep state event = some next) :
    (∀ ticket holder, (ticket, holder) ∈ next.deletions →
      holder = some ticket) ↔ lockGuard state event := by
  cases event with
  | release consumer link =>
      simp only [lockStep] at taken
      split at taken
      · rename_i room value releasing
        obtain ⟨job, stepped, rfl⟩ := Option.map_eq_some_iff.mp taken
        rw [← accounted.release_own_iff releasing]
        constructor
        · intro own deletes
          simp only [if_pos deletes] at own
          exact own _ _ List.mem_cons_self
        · intro own ticket holder member
          simp only at member
          split at member
          · rename_i deletes
            rcases List.mem_cons.mp member with latest | earlier
            · cases latest
              exact own deletes
            · exact before ticket holder earlier
          · exact before ticket holder member
      · cases taken
  | _ =>
      rw [deletions_step taken (by simp)]
      simp only [lockGuard, iff_true]
      exact before

theorem accounted_start : Accounted noLocks := by
  constructor
  · constructor
    · constructor
      · exact List.nodup_nil
      · intro release member
        cases member
      · intro acquired member
        cases member
    · intro consumer room value holding
      cases holding
    · intro release member
      cases member
    · intro acquisition member
      cases member
    · intro first member
      cases member
  · constructor
    · intro acquisition member
      cases member
    · intro acquisition member
      cases member
    · intro key value deadline _ entry
      cases entry
    · intro ticket holder member
      cases member

/-- What holds in front of every step of a run that goes well. -/
structure OwnedReleases (state : Locks) : Prop where
  accounted : Accounted state
  own : ∀ ticket holder, (ticket, holder) ∈ state.deletions →
    holder = some ticket

/-- Every lock is deleted by the pass that set it, and released once by it,
exactly in the runs in which no executed `ReleaseLock` meets a lock of another
pass with the same value. -/
theorem released_by_owner_iff (events : List LockEvent) :
    Lib.Always lockStep ReleasedByOwner noLocks events ↔
      Lib.Meets lockStep lockGuard noLocks events := by
  have initially : OwnedReleases noLocks := by
    refine ⟨accounted_start, ?_⟩
    intro ticket holder member
    cases member
  apply Lib.always_iff_meets _ _ _ initially
  · intro state owned
    exact ⟨owned.own, owned.accounted.books.released⟩
  · intro state next event owned guarded taken
    exact ⟨owned.accounted.step taken,
      (owned.accounted.own_iff owned.own taken).mpr guarded⟩
  · intro state next event owned taken released
    exact (owned.accounted.own_iff owned.own taken).mp released.own

/-- Consumer 0 of one process deletes the lock of consumer 0 of another, which
read the same second and set its lock after the first one had run out. -/
theorem other_process_loses_lock :
    ¬ Lib.Always lockStep ReleasedByOwner noLocks
      [.clock 100,
        .consume ⟨0, 0⟩ (ascii "0001") 100 .answered,
        .other (.checkCooldown ⟨0, 0⟩ .answered),
        .clock 101,
        .other (.tick 1001),
        .consume ⟨1, 0⟩ (ascii "0001") 101 .answered,
        .other (.checkCooldown ⟨1, 0⟩ .answered),
        .readClock ⟨0, 0⟩,
        .readClock ⟨1, 0⟩,
        .acquire ⟨0, 0⟩ .answered,
        .other (.lookup ⟨0, 0⟩ (some [])),
        .other (.tick 5001),
        .acquire ⟨1, 0⟩ .answered,
        .release ⟨0, 0⟩ .answered] := by
  intro always
  have released := always _ (List.prefix_refl _) _ rfl
  have own := released.own ⟨⟨0, 0⟩, 1⟩ (some ⟨⟨1, 0⟩, 1⟩) (by decide)
  cases own

end Job

end ChatRoom
