import ChatRoom.Job.Consumer

/-!
# Duplicate deliveries

Kafka may deliver a record more than once, to any consumer.  The key under
which a delivery is marked is made of the room, the second and the number of
the consumer, and not of the record; a delivery whose mark gets no answer is
skipped as well.
-/

namespace ChatRoom

namespace Job

open Lib (ExpiringStore)

/-- Where a record stands in Kafka. -/
structure Record where
  partition : Nat
  offset : Nat
  deriving DecidableEq

/-- A delivery that was marked as processed: by whom, the second it read, and
the time at Redis. -/
structure Mark where
  record : Record
  index : Nat
  seconds : Nat
  time : Nat

/-- What became of a delivery: the marks in front of it and the time at
Redis. -/
structure Delivery where
  record : Record
  skipped : Bool
  marks : List Mark
  time : Nat

/-- The consumers, the marks so far and the latest delivery. -/
structure Deliveries where
  job : State
  marks : List Mark
  latest : Option Delivery

/-- A delivery of a record, or any other step of a consumer or of time. -/
inductive DeliveryEvent where
  | deliver (consumer : Consumer) (record : Record) (seconds : Nat) (link : Link)
  | other (event : Event)

/-- The key of the mark of a delivery. -/
def markKey (room : Str) (seconds index : Nat) : Str :=
  cStr (dedupKey room (msgId room seconds index))

def Event.isDelivery : Event → Bool
  | .consume .. => true
  | _ => false

/-- `topic` is the room of each record. -/
def deliveryStep (topic : Record → Str) (state : Deliveries) :
    DeliveryEvent → Option Deliveries
  | .deliver consumer record seconds link =>
      let room := topic record
      let redis := state.job.redis
      (step state.job (.consume consumer room seconds link)).map fun next =>
        { job := next
          marks :=
            -- the mark is made when the command is executed and the key free
            if link ≠ .unreachable ∧
                redis.get (markKey room seconds consumer.index) = none then
              ⟨record, consumer.index, seconds, redis.now⟩ :: state.marks
            else state.marks
          latest := some ⟨record,
            !(checkAndMarkMessageProcessed redis link
              (msgId room seconds consumer.index) room 60).2,
            state.marks, redis.now⟩ }
  | .other event =>
      if event.isDelivery then none
      else (step state.job event).map fun next => { state with job := next }

def noDeliveries : Deliveries := ⟨start, [], none⟩

/-- The record was marked less than 60 seconds ago. -/
def MarkedRecently (marks : List Mark) (record : Record) (now : Nat) : Prop :=
  ∃ mark ∈ marks, mark.record = record ∧ now < mark.time + 60000

/-- The latest delivery was skipped exactly if its record was marked less than
60 seconds before. -/
def Deduplicated (state : Deliveries) : Prop :=
  ∀ delivery, state.latest = some delivery →
    (delivery.skipped = true ↔
      MarkedRecently delivery.marks delivery.record delivery.time)

/-- A mark under the key that Redis still holds. -/
def MarkedUnder (topic : Record → Str) (marks : List Mark) (key : Str)
    (now : Nat) : Prop :=
  ∃ mark ∈ marks, markKey (topic mark.record) mark.seconds mark.index = key ∧
    now ≤ mark.time + 60000

/-- When Redis answers, a mark under the key of the delivery is in force
exactly if its record was marked recently; when it does not, the record was
marked recently. -/
def deliveryGuard (topic : Record → Str) (state : Deliveries) :
    DeliveryEvent → Prop
  | .deliver consumer record seconds link =>
      (link = .answered ∧ MarkedUnder topic state.marks
        (markKey (topic record) seconds consumer.index) state.job.redis.now) ∨
        link ≠ .answered ↔
      MarkedRecently state.marks record state.job.redis.now
  | .other _ => True

/-! ## What Redis holds -/

/-- The keys of the marks are in Redis until 60 seconds behind the latest mark
under them, and no other keys of their kind. -/
structure Marked (topic : Record → Str) (state : Deliveries) : Prop where
  stored : ∀ mark ∈ state.marks, ∃ value deadline,
    state.job.redis.entries
      (markKey (topic mark.record) mark.seconds mark.index) =
        some (value, deadline) ∧ mark.time + 60000 ≤ deadline
  earned : ∀ key value deadline, key.head? = some 109 →
    state.job.redis.entries key = some (value, deadline) →
    ∃ mark ∈ state.marks,
      markKey (topic mark.record) mark.seconds mark.index = key ∧
      deadline = mark.time + 60000

theorem Marked.get_isSome_iff {topic : Record → Str} {state : Deliveries}
    (marked : Marked topic state) {key : Str} (isMark : key.head? = some 109) :
    (state.job.redis.get key).isSome ↔
      MarkedUnder topic state.marks key state.job.redis.now := by
  constructor
  · intro live
    obtain ⟨value, found⟩ := Option.isSome_iff_exists.mp live
    obtain ⟨deadline, entry, inTime⟩ := ExpiringStore.get_eq_some_iff.mp found
    obtain ⟨mark, member, sameKey, rfl⟩ := marked.earned key value deadline isMark entry
    exact ⟨mark, member, sameKey, inTime⟩
  · intro under
    obtain ⟨mark, member, rfl, inTime⟩ := under
    obtain ⟨value, deadline, entry, late⟩ := marked.stored mark member
    have found := ExpiringStore.get_eq_some_iff.mpr
      ⟨deadline, entry, Nat.le_trans inTime late⟩
    rw [found]
    rfl

/-- A delivery is skipped when its mark is refused or gets no answer. -/
theorem checkAndMark_eq_false_iff (redis : Redis) (link : Link)
    (msgId room : Str) :
    (checkAndMarkMessageProcessed redis link msgId room 60).2 = false ↔
      (link = .answered ∧ (redis.get (cStr (dedupKey room msgId))).isSome) ∨
        link ≠ .answered := by
  have isNew := setNxEx_ok_iff redis link (dedupKey room msgId) (ascii "1") 60
  cases known : redis.get (cStr (dedupKey room msgId)) with
  | none =>
      simp only [known, and_true] at isNew
      simp [checkAndMarkMessageProcessed, isNew]
  | some value =>
      simp only [known, reduceCtorEq, and_false, iff_false] at isNew
      simp [checkAndMarkMessageProcessed, isNew, Classical.em]

/-- What a delivery does to the keys of the marks. -/
theorem consume_entries {state next : State} {consumer : Consumer}
    {room : Str} {seconds : Nat} {link : Link}
    (taken : step state (.consume consumer room seconds link) = some next) :
    next.redis.now = state.redis.now ∧
    next.redis.entries =
      if link ≠ .unreachable ∧
          state.redis.get (markKey room seconds consumer.index) = none then
        Function.update state.redis.entries
          (markKey room seconds consumer.index)
          (some (ascii "1", state.redis.now + 60000))
      else state.redis.entries := by
  have one : cStr (ascii "1") = ascii "1" := by rfl
  obtain ⟨-, rfl⟩ := step_consume taken
  refine ⟨setNxEx_now _ _ _ _ _, ?_⟩
  have entries := setNxEx_entries state.redis link
    (dedupKey room (msgId room seconds consumer.index)) (ascii "1") 60
  rw [one] at entries
  exact entries

section Steps

variable {topic : Record → Str} {state next : Deliveries}

theorem Marked.deliver (marked : Marked topic state) {consumer : Consumer}
    {record : Record} {seconds : Nat} {link : Link}
    (taken : deliveryStep topic state (.deliver consumer record seconds link) =
      some next) : Marked topic next := by
  obtain ⟨job, consumed, rfl⟩ := Option.map_eq_some_iff.mp taken
  obtain ⟨-, entries⟩ := consume_entries consumed
  by_cases executed : link ≠ .unreachable ∧ state.job.redis.get
      (markKey (topic record) seconds consumer.index) = none
  · rw [if_pos executed] at entries
    constructor
    · simp only [if_pos executed, entries]
      intro mark member
      rcases List.mem_cons.mp member with latest | earlier
      · subst latest
        exact ⟨ascii "1", _, Function.update_self _ _ _, Nat.le_refl _⟩
      · by_cases same : markKey (topic mark.record) mark.seconds mark.index =
            markKey (topic record) seconds consumer.index
        · -- an older mark under the key has run out
          refine ⟨ascii "1", _, by rw [same, Function.update_self], ?_⟩
          have expired : ¬ state.job.redis.now ≤ mark.time + 60000 := by
            intro inTime
            have isMark := head?_cStr_dedupKey (topic record)
              (msgId (topic record) seconds consumer.index)
            have live := (marked.get_isSome_iff isMark).mpr
              ⟨mark, earlier, same, inTime⟩
            rw [← markKey, executed.2] at live
            cases live
          omega
        · obtain ⟨value, deadline, entry, late⟩ := marked.stored mark earlier
          exact ⟨value, deadline, by rwa [Function.update_of_ne same], late⟩
    · simp only [if_pos executed, entries]
      intro key value deadline isMark entry
      by_cases same : key = markKey (topic record) seconds consumer.index
      · rw [same, Function.update_self] at entry
        cases entry
        exact ⟨_, List.mem_cons_self, same.symm, rfl⟩
      · rw [Function.update_of_ne same] at entry
        obtain ⟨mark, member, sameKey, isDeadline⟩ :=
          marked.earned key value deadline isMark entry
        exact ⟨mark, List.mem_cons_of_mem _ member, sameKey, isDeadline⟩
  · rw [if_neg executed] at entries
    constructor
    · simp only [if_neg executed, entries]
      exact marked.stored
    · simp only [if_neg executed, entries]
      exact marked.earned

theorem deliveryStep_other {event : Event}
    (taken : deliveryStep topic state (.other event) = some next) :
    event.isDelivery = false ∧ ∃ job, step state.job event = some job ∧
      { state with job := job } = next := by
  simp only [deliveryStep] at taken
  split at taken
  · cases taken
  · rename_i notDelivery
    obtain ⟨job, stepped, result⟩ := Option.map_eq_some_iff.mp taken
    exact ⟨by simpa using notDelivery, job, stepped, result⟩

/-- The other steps leave the keys of the marks alone. -/
theorem Marked.other (marked : Marked topic state) {event : Event}
    (taken : deliveryStep topic state (.other event) = some next) :
    Marked topic next := by
  obtain ⟨notDelivery, job, stepped, rfl⟩ := deliveryStep_other taken
  have notMark : event.writes ≠ some 109 := by
    cases event with
    | consume consumer room seconds link => cases notDelivery
    | _ => simp [Event.writes]
  have entries : ∀ key : Str, key.head? = some 109 →
      job.redis.entries key = state.job.redis.entries key := by
    intro key isMark
    apply (step_redis stepped).2
    intro byte writes same
    rw [isMark] at same
    cases same
    exact notMark writes
  constructor
  · intro mark member
    obtain ⟨value, deadline, entry, late⟩ := marked.stored mark member
    refine ⟨value, deadline, ?_, late⟩
    exact (entries _ (head?_cStr_dedupKey _ _)).trans entry
  · intro key value deadline isMark entry
    rw [entries key isMark] at entry
    exact marked.earned key value deadline isMark entry

theorem Marked.step (marked : Marked topic state) {event : DeliveryEvent}
    (taken : deliveryStep topic state event = some next) : Marked topic next := by
  cases event with
  | deliver consumer record seconds link => exact marked.deliver taken
  | other event => exact marked.other taken

/-- A delivery is handled as its record demands exactly when it is guarded. -/
theorem Marked.right_iff (marked : Marked topic state)
    (before : Deduplicated state) {event : DeliveryEvent}
    (taken : deliveryStep topic state event = some next) :
    Deduplicated next ↔ deliveryGuard topic state event := by
  cases event with
  | deliver consumer record seconds link =>
      obtain ⟨job, consumed, rfl⟩ := Option.map_eq_some_iff.mp taken
      have isMark := head?_cStr_dedupKey (topic record)
        (msgId (topic record) seconds consumer.index)
      have skipped := checkAndMark_eq_false_iff state.job.redis link
        (msgId (topic record) seconds consumer.index) (topic record)
      rw [marked.get_isSome_iff isMark] at skipped
      simp only [Deduplicated, deliveryGuard, Option.some.injEq,
        forall_eq', Bool.not_eq_true', skipped]
      rfl
  | other event =>
      obtain ⟨-, job, -, rfl⟩ := deliveryStep_other taken
      simp only [deliveryGuard, iff_true]
      exact before

end Steps

/-- What holds in front of every delivery of a run that goes well. -/
structure Exact (topic : Record → Str) (state : Deliveries) : Prop where
  deduplicated : Deduplicated state
  marked : Marked topic state

end Job

end ChatRoom
