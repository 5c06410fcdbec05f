import ChatRoom.Lib.Run
import Mathlib.Data.List.Nodup
import Mathlib.Logic.Function.Basic

/-!
# A pool of connections behind a mutex

A free list, a count of the connections that exist, and callers that wait for
one.  Every event is what one caller does while it holds the mutex; between
two of its events it may sleep.  The invariant ties the free list, the count
and the connections that are out together.
-/

namespace Lib

structure Pool (Conn : Type*) where
  curConnCnt : Int
  maxConnCnt : Int
  freeList : List Conn
  abortRequest : Bool

namespace Pool

variable {Conn Caller : Type*}

/-- How a critical section ends: with a connection, with a null pointer,
asleep, or at `front` of an empty list. -/
inductive Outcome (Conn : Type*) where
  | obtained (conn : Conn)
  | null
  | asleep
  | emptyFront

/-- `front` and `pop_front`. -/
def takeFront (pool : Pool Conn) : Pool Conn × Outcome Conn :=
  match pool.freeList with
  | [] => (pool, .emptyFront)
  | conn :: rest => ({ pool with freeList := rest }, .obtained conn)

/-- A call that gets the mutex for the first time.  `opened` is the outcome of
a new connection, `none` when it cannot be initialised. -/
def get (pool : Pool Conn) (opened : Option Conn) : Pool Conn × Outcome Conn :=
  if pool.abortRequest then (pool, .null)
  else if pool.freeList.isEmpty then
    if pool.curConnCnt ≥ pool.maxConnCnt then (pool, .asleep)
    else
      match opened with
      | none => (pool, .null)
      | some conn =>
          takeFront { pool with
            freeList := pool.freeList ++ [conn]
            curConnCnt := pool.curConnCnt + 1 }
  else pool.takeFront

/-- A sleeping call that gets the mutex back.  Its predicate sends it to sleep
again, unless a timed wait is over. -/
def wake (pool : Pool Conn) (timed timedOut : Bool) :
    Pool Conn × Outcome Conn :=
  if !(!pool.freeList.isEmpty || pool.abortRequest) && !(timed && timedOut) then
    (pool, .asleep)
  else if timed && pool.freeList.isEmpty then (pool, .null)
  else if pool.abortRequest then (pool, .null)
  else pool.takeFront

variable [DecidableEq Conn]

/-- A connection that is in the free list is not taken back again. -/
def release (pool : Pool Conn) (conn : Conn) : Pool Conn :=
  if conn ∈ pool.freeList then pool
  else { pool with freeList := pool.freeList ++ [conn] }

/-- Fill the free list with as many connections as are counted; `none` when
one cannot be initialised.  No address is given to two live objects. -/
def fill : Nat → List (Option Conn) → Pool Conn → Option (Pool Conn)
  | 0, _, pool => some pool
  | count + 1, some conn :: opened, pool =>
      if conn ∈ pool.freeList then none
      else fill count opened { pool with freeList := pool.freeList ++ [conn] }
  | _, _, _ => none

/-! ## Callers -/

/-- The pool, the callers with the connection each of them holds, those asleep
and whether their wait is timed, and whether `front` was called on an empty
list. -/
structure State (Conn Caller : Type*) where
  pool : Pool Conn
  holds : List (Caller × Conn)
  asleep : Caller → Option Bool
  frontOnEmpty : Bool

/-- What a caller does while it holds the mutex. -/
inductive Event (Conn Caller : Type*) where
  | get (caller : Caller) (timeoutMs : Int) (opened : Option Conn)
  | wake (caller : Caller) (timedOut : Bool)
  | release (caller : Caller)

namespace State

/-- The connections that are out. -/
def held (state : State Conn Caller) : List Conn := state.holds.map Prod.snd

variable [DecidableEq Caller]

/-- The caller leaves its critical section. -/
def settle (state : State Conn Caller) (caller : Caller) (timed : Bool) :
    Pool Conn × Outcome Conn → State Conn Caller
  | (pool, .obtained conn) =>
      { state with
        pool := pool
        holds := (caller, conn) :: state.holds
        asleep := Function.update state.asleep caller none }
  | (pool, .null) =>
      { state with
        pool := pool, asleep := Function.update state.asleep caller none }
  | (pool, .asleep) =>
      { state with
        pool := pool
        asleep := Function.update state.asleep caller (some timed) }
  | (pool, .emptyFront) => { state with pool := pool, frontOnEmpty := true }

end State

variable [DecidableEq Caller]

/-- A caller asks when it neither waits nor holds a connection, and gives back
the one it holds.  A new connection is no live one. -/
def step (state : State Conn Caller) :
    Event Conn Caller → Option (State Conn Caller)
  | .get caller timeoutMs opened =>
      if state.asleep caller ≠ none ∨ caller ∈ state.holds.map Prod.fst ∨
          ∃ conn ∈ opened, conn ∈ state.held ++ state.pool.freeList then none
      else
        some (state.settle caller (decide (0 < timeoutMs))
          (state.pool.get opened))
  | .wake caller timedOut =>
      match state.asleep caller with
      | none => none
      | some timed =>
          some (state.settle caller timed (state.pool.wake timed timedOut))
  | .release caller =>
      match state.holds.find? fun hold => hold.1 = caller with
      | none => none
      | some hold =>
          some { state with
            pool := state.pool.release hold.2
            holds := state.holds.erase hold }

/-- Nobody holds or waits. -/
def start (pool : Pool Conn) : State Conn Caller := ⟨pool, [], fun _ => none, false⟩

/-! ## The invariant -/

/-- Every connection is held by one caller or free, once; together they are
those counted, at most `limit`; and `front` always found a connection. -/
structure Intact (limit : Int) (state : State Conn Caller) : Prop where
  apart : (state.held ++ state.pool.freeList).Nodup
  counted : ((state.held.length + state.pool.freeList.length : Nat) : Int) =
    state.pool.curConnCnt
  bounded : state.pool.curConnCnt ≤ limit
  found : state.frontOnEmpty = false

/-! ## What a critical section can do -/

omit [DecidableEq Conn] in
/-- A call ends empty-handed or asleep, takes the front of the free list, or
takes the connection it has just opened. -/
theorem get_cases (pool : Pool Conn) (opened : Option Conn) :
    pool.get opened = (pool, .null) ∨
    pool.get opened = (pool, .asleep) ∨
    (∃ conn rest, pool.freeList = conn :: rest ∧
      pool.get opened = ({ pool with freeList := rest }, .obtained conn)) ∨
    (∃ conn, pool.freeList = [] ∧ opened = some conn ∧
      pool.curConnCnt < pool.maxConnCnt ∧
      pool.get opened = ({ pool with
        freeList := [], curConnCnt := pool.curConnCnt + 1 }, .obtained conn)) := by
  by_cases aborted : pool.abortRequest = true
  · exact .inl (by simp only [get, if_pos aborted])
  · cases free : pool.freeList with
    | cons conn rest =>
        right; right; left
        refine ⟨conn, rest, rfl, ?_⟩
        simp only [get, if_neg aborted, free, List.isEmpty_cons,
          Bool.false_eq_true, if_false, takeFront]
    | nil =>
        by_cases full : pool.curConnCnt ≥ pool.maxConnCnt
        · right; left
          simp only [get, if_neg aborted, free, List.isEmpty_nil, if_true,
            if_pos full]
        · cases opened with
          | none =>
              left
              simp only [get, if_neg aborted, free, List.isEmpty_nil, if_true,
                if_neg full]
          | some conn =>
              right; right; right
              refine ⟨conn, rfl, rfl, Int.not_le.mp full, ?_⟩
              simp only [get, if_neg aborted, free, List.isEmpty_nil, if_true,
                if_neg full, List.nil_append, takeFront]

omit [DecidableEq Conn] in
/-- A caller that wakes up never finds the free list empty when it takes its
front. -/
theorem wake_cases (pool : Pool Conn) (timed timedOut : Bool) :
    pool.wake timed timedOut = (pool, .null) ∨
    pool.wake timed timedOut = (pool, .asleep) ∨
    (∃ conn rest, pool.freeList = conn :: rest ∧
      pool.wake timed timedOut =
        ({ pool with freeList := rest }, .obtained conn)) := by
  cases free : pool.freeList with
  | cons conn rest =>
      cases aborted : pool.abortRequest with
      | true => simp [wake, free, aborted]
      | false =>
          right; right
          refine ⟨conn, rest, rfl, ?_⟩
          simp [wake, free, aborted, takeFront]
  | nil =>
      cases aborted : pool.abortRequest with
      | true => simp [wake, free, aborted]
      | false =>
          -- the predicate is false, so only a wait that is over goes on
          cases waiting : timed && timedOut with
          | false => simp [wake, free, aborted, waiting]
          | true =>
              have isTimed : timed = true := (Bool.and_eq_true_iff.mp waiting).1
              simp [wake, free, aborted, isTimed]

/-! ## The invariant is kept -/

section Keeps

variable {limit : Int} {state : State Conn Caller} {caller : Caller}
  {timed : Bool}

omit [DecidableEq Conn] in
theorem Intact.settle_null (intact : Intact limit state) :
    Intact limit (state.settle caller timed (state.pool, .null)) :=
  ⟨intact.apart, intact.counted, intact.bounded, intact.found⟩

omit [DecidableEq Conn] in
theorem Intact.settle_asleep (intact : Intact limit state) :
    Intact limit (state.settle caller timed (state.pool, .asleep)) :=
  ⟨intact.apart, intact.counted, intact.bounded, intact.found⟩

omit [DecidableEq Conn] in
/-- The front of the free list goes to the caller. -/
theorem Intact.settle_front (intact : Intact limit state) {conn : Conn}
    {rest : List Conn} (isCons : state.pool.freeList = conn :: rest) :
    Intact limit (state.settle caller timed
      ({ state.pool with freeList := rest }, .obtained conn)) := by
  have apart := intact.apart
  have counted := intact.counted
  rw [isCons] at apart counted
  constructor
  · change (conn :: state.held ++ rest).Nodup
    exact (List.perm_middle.nodup_iff).mp apart
  · change (((conn :: state.held).length + rest.length : Nat) : Int) =
      state.pool.curConnCnt
    rw [← counted]
    simp only [List.length_cons]
    omega
  · exact intact.bounded
  · exact intact.found

omit [DecidableEq Conn] in
/-- A new connection goes to the caller and is counted. -/
theorem Intact.settle_opened (intact : Intact limit state) {conn : Conn}
    (isNil : state.pool.freeList = [])
    (isNew : conn ∉ state.held ++ state.pool.freeList)
    (room : state.pool.curConnCnt < limit) :
    Intact limit (state.settle caller timed ({ state.pool with
      freeList := [], curConnCnt := state.pool.curConnCnt + 1 },
        .obtained conn)) := by
  have apart := intact.apart
  have counted := intact.counted
  rw [isNil, List.append_nil] at apart isNew
  rw [isNil] at counted
  constructor
  · change (conn :: state.held ++ []).Nodup
    rw [List.append_nil]
    exact List.nodup_cons.mpr ⟨isNew, apart⟩
  · change (((conn :: state.held).length + ([] : List Conn).length : Nat) : Int) =
      state.pool.curConnCnt + 1
    rw [← counted]
    simp
  · exact room
  · exact intact.found

/-- A connection that comes back was not in the free list. -/
theorem Intact.release (intact : Intact limit state) {hold : Caller × Conn}
    (member : hold ∈ state.holds) :
    Intact limit { state with
      pool := state.pool.release hold.2
      holds := state.holds.erase hold } := by
  have moved : (state.held).Perm
      (hold.2 :: (state.holds.erase hold).map Prod.snd) :=
    (List.perm_cons_erase member).map Prod.snd
  have apart := ((moved.append_right state.pool.freeList).nodup_iff).mp
    intact.apart
  have notFree : hold.2 ∉ state.pool.freeList := by
    intro isFree
    have fresh := (List.nodup_cons.mp apart).1
    exact fresh (List.mem_append_right _ isFree)
  have lengths := moved.length_eq
  have counted := intact.counted
  constructor
  · simp only [State.held, Pool.release, if_neg notFree, ← List.append_assoc]
    exact (List.perm_append_singleton _ _).nodup_iff.mpr apart
  · simp only [State.held, Pool.release, if_neg notFree]
    rw [← counted, lengths]
    simp only [List.length_append, List.length_cons, List.length_nil]
    omega
  · simp only [Pool.release, if_neg notFree]
    exact intact.bounded
  · exact intact.found

end Keeps

/-- What a step leaves unchanged: the limit of the pool. -/
theorem step_maxConnCnt {state next : State Conn Caller}
    {event : Event Conn Caller} (taken : step state event = some next) :
    next.pool.maxConnCnt = state.pool.maxConnCnt := by
  cases event with
  | get caller timeoutMs opened =>
      simp only [step] at taken
      split at taken
      · cases taken
      · cases taken
        rcases get_cases state.pool opened with
          result | result | ⟨conn, rest, -, result⟩ | ⟨conn, -, -, -, result⟩
        all_goals
          rw [result]
          rfl
  | wake caller timedOut =>
      simp only [step] at taken
      split at taken
      · cases taken
      · rename_i timed _
        cases taken
        rcases wake_cases state.pool timed timedOut with
          result | result | ⟨conn, rest, -, result⟩
        all_goals
          rw [result]
          rfl
  | release caller =>
      simp only [step] at taken
      split at taken
      · cases taken
      · cases taken
        simp only [Pool.release]
        split <;> rfl

/-- Every step keeps the invariant, with a limit no smaller than that of the
pool. -/
theorem Intact.step {limit : Int} {state next : State Conn Caller}
    {event : Event Conn Caller} (intact : Intact limit state)
    (allowed : state.pool.maxConnCnt ≤ limit)
    (taken : Pool.step state event = some next) : Intact limit next := by
  cases event with
  | get caller timeoutMs opened =>
      simp only [Pool.step] at taken
      split at taken
      · cases taken
      · rename_i enabled
        cases taken
        rcases get_cases state.pool opened with
          result | result | ⟨conn, rest, isCons, result⟩ |
          ⟨conn, isNil, isOpened, room, result⟩
        · rw [result]
          exact intact.settle_null
        · rw [result]
          exact intact.settle_asleep
        · rw [result]
          exact intact.settle_front isCons
        · have isNew : conn ∉ state.held ++ state.pool.freeList := by
            intro live
            exact enabled (.inr (.inr ⟨conn, isOpened, live⟩))
          rw [result]
          exact intact.settle_opened isNil isNew (by omega)
  | wake caller timedOut =>
      simp only [Pool.step] at taken
      split at taken
      · cases taken
      · rename_i timed _
        cases taken
        rcases wake_cases state.pool timed timedOut with
          result | result | ⟨conn, rest, isCons, result⟩
        · rw [result]
          exact intact.settle_null
        · rw [result]
          exact intact.settle_asleep
        · rw [result]
          exact intact.settle_front isCons
  | release caller =>
      simp only [Pool.step] at taken
      split at taken
      · cases taken
      · rename_i hold found
        cases taken
        exact intact.release (List.mem_of_find?_eq_some found)

/-! ## From a filled pool -/

/-- A filled pool holds as many connections as it was asked for. -/
theorem fill_spec {count : Nat} {opened : List (Option Conn)}
    {pool filled : Pool Conn} (isFilled : fill count opened pool = some filled)
    (apart : pool.freeList.Nodup) :
    filled.freeList.Nodup ∧
      filled.freeList.length = pool.freeList.length + count ∧
      filled.curConnCnt = pool.curConnCnt ∧
      filled.maxConnCnt = pool.maxConnCnt := by
  induction count generalizing opened pool with
  | zero =>
      cases isFilled
      exact ⟨apart, rfl, rfl, rfl⟩
  | succ count induction =>
      match opened with
      | [] => cases isFilled
      | none :: opened => cases isFilled
      | some conn :: opened =>
          simp only [fill] at isFilled
          split at isFilled
          · cases isFilled
          · rename_i isNew
            have longer : (pool.freeList ++ [conn]).Nodup :=
              (List.perm_append_singleton conn _).nodup_iff.mpr
                (List.nodup_cons.mpr ⟨isNew, apart⟩)
            obtain ⟨isApart, lengths, counted, limited⟩ :=
              induction isFilled longer
            refine ⟨isApart, ?_, counted, limited⟩
            rw [lengths]
            simp only [List.length_append, List.length_cons, List.length_nil]
            omega

/-- The limit covers that of the pool, and the pool is intact. -/
def Kept (limit : Int) (state : State Conn Caller) : Prop :=
  Intact limit state ∧ state.pool.maxConnCnt ≤ limit

theorem Kept.step {limit : Int} {state next : State Conn Caller}
    {event : Event Conn Caller} (kept : Kept limit state)
    (taken : Pool.step state event = some next) : Kept limit next := by
  obtain ⟨intact, allowed⟩ := kept
  refine ⟨intact.step allowed taken, ?_⟩
  rw [step_maxConnCnt taken]
  exact allowed

/-- A pool whose free list was filled from empty stays intact in every run. -/
theorem always_intact {count : Nat} {maxConnCnt : Int}
    {opened : List (Option Conn)} {pool : Pool Conn}
    (isFilled : fill count opened ⟨count, maxConnCnt, [], false⟩ = some pool)
    (events : List (Event Conn Caller)) :
    Always step (Intact (max (count : Int) maxConnCnt)) (start pool) events := by
  obtain ⟨apart, lengths, counted, limited⟩ := fill_spec isFilled List.nodup_nil
  have initially : Kept (max (count : Int) maxConnCnt)
      (start pool : State Conn Caller) := by
    constructor
    · constructor
      · simpa [State.held, start] using apart
      · simp only [State.held, start, counted, lengths]
        simp
      · simp only [start, counted]
        exact Int.le_max_left _ _
      · rfl
    · simp only [start, limited]
      exact Int.le_max_right _ _
  intro before _ reached executed
  have kept : Kept (max (count : Int) maxConnCnt) reached :=
    exec_invariant (fun kept taken => Kept.step kept taken) initially executed
  exact kept.1

end Pool

end Lib
