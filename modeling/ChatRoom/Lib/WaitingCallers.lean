import ChatRoom.Lib.ConnectionPool

/-!
# Callers at the condition variable

The pool with the queue of its condition variable: a call that finds no
connection blocks, a connection that comes back wakes one blocked call, and a
woken call gets the mutex later, when others may have overtaken it.  No
wake-up is lost: while calls are blocked, there are as many calls on their way
to the mutex as there are free connections.
-/

namespace Lib

namespace Pool

variable {Conn Caller : Type*}

/-- The pool and its callers, the calls blocked in the wait, and those on
their way from it to the mutex. -/
structure Waiting (Conn Caller : Type*) where
  state : State Conn Caller
  blocked : List Caller
  woken : List Caller

/-- `stir` is a wait that is over, or a spurious wake-up. -/
inductive WaitEvent (Conn Caller : Type*) where
  | get (caller : Caller) (timeoutMs : Int) (opened : Option Conn)
  | release (caller : Caller) (notified : Option Caller)
  | stir (caller : Caller)
  | reacquire (caller : Caller) (timedOut : Bool)

namespace Waiting

variable [DecidableEq Conn] [DecidableEq Caller]

/-- `notify_one` wakes some blocked call, if there is one. -/
def notifyOne (waiting : Waiting Conn Caller) :
    Option Caller → Option (Waiting Conn Caller)
  | none => if waiting.blocked = [] then some waiting else none
  | some caller =>
      if caller ∈ waiting.blocked then
        some { waiting with
          blocked := waiting.blocked.erase caller
          woken := caller :: waiting.woken }
      else none

/-- A call that goes on has left the wait, or is blocked. -/
def settle (waiting : Waiting Conn Caller) (caller : Caller)
    (next : State Conn Caller) : Waiting Conn Caller :=
  { waiting with
    state := next
    blocked :=
      if next.asleep caller = none then waiting.blocked
      else caller :: waiting.blocked }

def step (waiting : Waiting Conn Caller) :
    WaitEvent Conn Caller → Option (Waiting Conn Caller)
  | .get caller timeoutMs opened =>
      (Pool.step waiting.state (.get caller timeoutMs opened)).map
        (waiting.settle caller)
  | .release caller notified =>
      match Pool.step waiting.state (.release caller) with
      | none => none
      | some next =>
          -- a connection that was already free is not announced
          if next.pool.freeList = waiting.state.pool.freeList then
            some { waiting with state := next }
          else notifyOne { waiting with state := next } notified
  | .stir caller =>
      if caller ∈ waiting.blocked then
        some { waiting with
          blocked := waiting.blocked.erase caller
          woken := caller :: waiting.woken }
      else none
  | .reacquire caller timedOut =>
      if caller ∈ waiting.woken then
        (Pool.step waiting.state (.wake caller timedOut)).map
          ({ waiting with woken := waiting.woken.erase caller }.settle caller)
      else none

def start (pool : Pool Conn) : Waiting Conn Caller := ⟨Pool.start pool, [], []⟩

/-! ## The pool underneath -/

/-- The step of the pool that an event is; waking up is none. -/
def underneath : WaitEvent Conn Caller → List (Event Conn Caller)
  | .get caller timeoutMs opened => [.get caller timeoutMs opened]
  | .release caller _ => [.release caller]
  | .stir _ => []
  | .reacquire caller timedOut => [.wake caller timedOut]

omit [DecidableEq Conn] in
theorem notifyOne_cases {waiting next : Waiting Conn Caller}
    {notified : Option Caller}
    (taken : waiting.notifyOne notified = some next) :
    (waiting.blocked = [] ∧ next = waiting) ∨
      ∃ caller ∈ waiting.blocked, next = { waiting with
        blocked := waiting.blocked.erase caller
        woken := caller :: waiting.woken } := by
  cases notified with
  | none =>
      simp only [notifyOne] at taken
      split at taken
      · rename_i nobody
        cases taken
        exact .inl ⟨nobody, rfl⟩
      · cases taken
  | some caller =>
      simp only [notifyOne] at taken
      split at taken
      · rename_i isBlocked
        cases taken
        exact .inr ⟨caller, isBlocked, rfl⟩
      · cases taken

/-- **Every step is one of the pool, or none.** -/
theorem step_underneath {waiting next : Waiting Conn Caller}
    {event : WaitEvent Conn Caller} (taken : waiting.step event = some next) :
    Lib.exec Pool.step waiting.state (underneath event) = some next.state := by
  cases event with
  | get caller timeoutMs opened =>
      obtain ⟨state, below, rfl⟩ := Option.map_eq_some_iff.mp taken
      exact exec_cons_of_some below []
  | release caller notified =>
      simp only [step] at taken
      split at taken
      · cases taken
      · rename_i state below
        rw [underneath, exec_cons_of_some below]
        split at taken
        · cases taken
          rfl
        · rcases notifyOne_cases taken with ⟨-, rfl⟩ | ⟨_, -, rfl⟩ <;> rfl
  | stir caller =>
      simp only [step] at taken
      split at taken
      · cases taken
        rfl
      · cases taken
  | reacquire caller timedOut =>
      simp only [step] at taken
      split at taken
      · obtain ⟨state, below, rfl⟩ := Option.map_eq_some_iff.mp taken
        exact exec_cons_of_some below []
      · cases taken

/-! ## What a call leaves behind -/

omit [DecidableEq Conn] [DecidableEq Caller] in
theorem get_front {pool : Pool Conn} {opened : Option Conn} {conn : Conn}
    {rest : List Conn} (running : pool.abortRequest = false)
    (free : pool.freeList = conn :: rest) :
    pool.get opened = ({ pool with freeList := rest }, .obtained conn) := by
  simp [get, running, free, takeFront]

omit [DecidableEq Conn] [DecidableEq Caller] in
theorem wake_front {pool : Pool Conn} {timed timedOut : Bool} {conn : Conn}
    {rest : List Conn} (running : pool.abortRequest = false)
    (free : pool.freeList = conn :: rest) :
    pool.wake timed timedOut =
      ({ pool with freeList := rest }, .obtained conn) := by
  simp [wake, running, free, takeFront]

/-- A caller has left with the front of the free list, if there was one, or
sleeps in front of an empty list. -/
def Leaves (state : State Conn Caller) (caller : Caller)
    (next : State Conn Caller) : Prop :=
  (next.asleep = Function.update state.asleep caller none ∧
      next.pool.freeList.length ≤ state.pool.freeList.length - 1) ∨
    ∃ timed, next.asleep = Function.update state.asleep caller (some timed) ∧
      next.pool.freeList = []

omit [DecidableEq Conn] in
theorem get_leaves {state : State Conn Caller} {caller : Caller}
    (running : state.pool.abortRequest = false) (timed : Bool)
    (opened : Option Conn) :
    Leaves state caller
      (state.settle caller timed (state.pool.get opened)) := by
  cases free : state.pool.freeList with
  | cons conn rest =>
      rw [get_front running free]
      refine .inl ⟨rfl, ?_⟩
      rw [free]
      exact Nat.le_refl rest.length
  | nil =>
      rcases get_cases state.pool opened with
        result | result | ⟨conn, rest, isCons, -⟩ | ⟨conn, -, -, -, result⟩
      · rw [result]
        refine .inl ⟨rfl, ?_⟩
        change state.pool.freeList.length ≤ _
        rw [free]
        exact Nat.le_refl 0
      · rw [result]
        exact .inr ⟨timed, rfl, free⟩
      · rw [free] at isCons
        cases isCons
      · rw [result]
        exact .inl ⟨rfl, Nat.zero_le _⟩

omit [DecidableEq Conn] in
theorem wake_leaves {state : State Conn Caller} {caller : Caller}
    (running : state.pool.abortRequest = false) (timed timedOut : Bool) :
    Leaves state caller
      (state.settle caller timed (state.pool.wake timed timedOut)) := by
  cases free : state.pool.freeList with
  | cons conn rest =>
      rw [wake_front running free]
      refine .inl ⟨rfl, ?_⟩
      rw [free]
      exact Nat.le_refl rest.length
  | nil =>
      rcases wake_cases state.pool timed timedOut with
        result | result | ⟨conn, rest, isCons, -⟩
      · rw [result]
        refine .inl ⟨rfl, ?_⟩
        change state.pool.freeList.length ≤ _
        rw [free]
        exact Nat.le_refl 0
      · rw [result]
        exact .inr ⟨timed, rfl, free⟩
      · rw [free] at isCons
        cases isCons

/-! ## No wake-up is lost -/

/-- The calls asleep are those blocked or woken, each once; while calls are
blocked, as many are woken as connections are free. -/
structure Awaited (waiting : Waiting Conn Caller) : Prop where
  apart : (waiting.blocked ++ waiting.woken).Nodup
  asleep : ∀ caller, waiting.state.asleep caller ≠ none ↔
    caller ∈ waiting.blocked ++ waiting.woken
  noneLost : waiting.blocked ≠ [] →
    waiting.state.pool.freeList.length ≤ waiting.woken.length

omit [DecidableEq Conn] in
/-- A caller that is in neither list goes on from where it stands. -/
theorem Awaited.settle {waiting : Waiting Conn Caller} {caller : Caller}
    {next : State Conn Caller}
    (apart : (waiting.blocked ++ waiting.woken).Nodup)
    (outside : caller ∉ waiting.blocked ++ waiting.woken)
    (others : ∀ other, other ≠ caller →
      (waiting.state.asleep other ≠ none ↔
        other ∈ waiting.blocked ++ waiting.woken))
    (bound : waiting.blocked ≠ [] →
      waiting.state.pool.freeList.length - 1 ≤ waiting.woken.length)
    (leaves : Leaves waiting.state caller next) :
    (waiting.settle caller next).Awaited := by
  rcases leaves with ⟨awake, fewer⟩ | ⟨timed, sleeps, none⟩
  · have left : next.asleep caller = none := by
      rw [awake, Function.update_self]
    have kept : waiting.settle caller next = { waiting with state := next } := by
      rw [Waiting.settle, if_pos left]
    rw [kept]
    refine ⟨apart, fun other => ?_, fun some => ?_⟩
    · by_cases same : other = caller
      · subst same
        exact iff_of_false (not_not_intro left) outside
      · change next.asleep other ≠ .none ↔ _
        rw [awake, Function.update_of_ne same]
        exact others other same
    · exact fewer.trans (bound some)
  · have asleep : next.asleep caller = some timed := by
      rw [sleeps, Function.update_self]
    have blocks : waiting.settle caller next =
        { waiting with
          state := next, blocked := caller :: waiting.blocked } := by
      rw [Waiting.settle, if_neg (by rw [asleep]; exact Option.some_ne_none timed)]
    rw [blocks]
    refine ⟨List.nodup_cons.mpr ⟨outside, apart⟩, fun other => ?_, fun _ => ?_⟩
    · change next.asleep other ≠ .none ↔
        other ∈ caller :: (waiting.blocked ++ waiting.woken)
      rw [List.mem_cons]
      by_cases same : other = caller
      · subst same
        exact iff_of_true (by rw [asleep]; exact Option.some_ne_none timed)
          (.inl rfl)
      · rw [sleeps, Function.update_of_ne same, others other same,
          or_iff_right same]
    · change next.pool.freeList.length ≤ _
      rw [none]
      exact Nat.zero_le _

omit [DecidableEq Conn] in
/-- A blocked call is woken, for at most one connection more. -/
theorem Awaited.wake {waiting : Waiting Conn Caller} {caller : Caller}
    {next : State Conn Caller} (awaited : waiting.Awaited)
    (isBlocked : caller ∈ waiting.blocked)
    (asleep : next.asleep = waiting.state.asleep)
    (oneMore : next.pool.freeList.length ≤
      waiting.state.pool.freeList.length + 1) :
    Awaited { waiting with
      state := next
      blocked := waiting.blocked.erase caller
      woken := caller :: waiting.woken } := by
  have moved : (waiting.blocked ++ waiting.woken).Perm
      (waiting.blocked.erase caller ++ caller :: waiting.woken) := by
    refine ((List.perm_cons_erase isBlocked).append_right _).trans ?_
    exact List.perm_middle.symm
  refine ⟨moved.nodup_iff.mp awaited.apart, fun other => ?_, fun _ => ?_⟩
  · change next.asleep other ≠ none ↔ _
    rw [asleep, awaited.asleep, moved.mem_iff]
  · have before := awaited.noneLost (List.ne_nil_of_mem isBlocked)
    exact oneMore.trans (Nat.succ_le_succ before)

/-- **No step loses a wake-up.** -/
theorem Awaited.step {waiting next : Waiting Conn Caller}
    {event : WaitEvent Conn Caller} (awaited : waiting.Awaited)
    (running : waiting.state.pool.abortRequest = false)
    (taken : waiting.step event = some next) : next.Awaited := by
  cases event with
  | get caller timeoutMs opened =>
      obtain ⟨state, below, rfl⟩ := Option.map_eq_some_iff.mp taken
      simp only [Pool.step] at below
      split at below
      · cases below
      · rename_i enabled
        cases below
        have outside : caller ∉ waiting.blocked ++ waiting.woken := by
          rw [← awaited.asleep]
          exact fun asleep => enabled (.inl asleep)
        refine .settle awaited.apart outside
          (fun other _ => awaited.asleep other) (fun some => ?_)
          (get_leaves running _ _)
        exact (Nat.sub_le _ _).trans (awaited.noneLost some)
  | release caller notified =>
      simp only [Waiting.step] at taken
      split at taken
      · cases taken
      · rename_i state below
        simp only [Pool.step] at below
        split at below
        · cases below
        · rename_i hold _
          cases below
          split at taken
          · rename_i same
            cases taken
            refine ⟨awaited.apart, awaited.asleep, fun some => ?_⟩
            rw [same]
            exact awaited.noneLost some
          · have oneMore : (waiting.state.pool.release hold.2).freeList.length ≤
                waiting.state.pool.freeList.length + 1 := by
              rw [Pool.release]
              split
              · exact Nat.le_succ _
              · exact (List.length_append ..).le
            rcases notifyOne_cases taken with ⟨nobody, rfl⟩ | ⟨other, isBlocked, rfl⟩
            · exact ⟨awaited.apart, awaited.asleep, fun some => (some nobody).elim⟩
            · exact awaited.wake isBlocked rfl oneMore
  | stir caller =>
      simp only [Waiting.step] at taken
      split at taken
      · rename_i isBlocked
        cases taken
        exact awaited.wake isBlocked rfl (Nat.le_succ _)
      · cases taken
  | reacquire caller timedOut =>
      simp only [Waiting.step] at taken
      split at taken
      · rename_i isWoken
        obtain ⟨state, below, rfl⟩ := Option.map_eq_some_iff.mp taken
        have moved : (waiting.blocked ++ waiting.woken).Perm
            (caller :: (waiting.blocked ++ waiting.woken.erase caller)) :=
          ((List.perm_cons_erase isWoken).append_left _).trans List.perm_middle
        have apart := List.nodup_cons.mp (moved.nodup_iff.mp awaited.apart)
        simp only [Pool.step] at below
        split at below
        · cases below
        · cases below
          refine .settle apart.2 apart.1 (fun other differs => ?_)
            (fun some => ?_) (wake_leaves running _ _)
          · rw [awaited.asleep, moved.mem_iff, List.mem_cons,
              or_iff_right differs]
          · have before := awaited.noneLost some
            rw [(List.perm_cons_erase isWoken).length_eq, List.length_cons]
              at before
            exact Nat.sub_le_of_le_add before
      · cases taken

/-! ## Nobody waits for nothing -/

/-- No step ends the service or forgets a connection. -/
theorem step_running {state next : State Conn Caller}
    {event : Event Conn Caller} (taken : Pool.step state event = some next) :
    next.pool.abortRequest = state.pool.abortRequest ∧
      state.pool.curConnCnt ≤ next.pool.curConnCnt := by
  cases event with
  | get caller timeoutMs opened =>
      simp only [Pool.step] at taken
      split at taken
      · cases taken
      · cases taken
        rcases get_cases state.pool opened with
          result | result | ⟨conn, rest, -, result⟩ | ⟨conn, -, -, -, result⟩
        all_goals
          rw [result]
          refine ⟨rfl, ?_⟩
        · exact Int.le_refl _
        · exact Int.le_refl _
        · exact Int.le_refl _
        · exact Int.le_add_one (Int.le_refl _)
  | wake caller timedOut =>
      simp only [Pool.step] at taken
      split at taken
      · cases taken
      · rename_i timed _
        cases taken
        rcases wake_cases state.pool timed timedOut with
          result | result | ⟨conn, rest, -, result⟩
        all_goals
          rw [result]
          exact ⟨rfl, Int.le_refl _⟩
  | release caller =>
      simp only [Pool.step] at taken
      split at taken
      · cases taken
      · cases taken
        simp only [Pool.release]
        split
        · exact ⟨rfl, Int.le_refl _⟩
        · exact ⟨rfl, Int.le_refl _⟩

/-- What a filled pool keeps: the invariant of the pool, that it serves, and
that it has a connection. -/
structure Serving (limit : Int) (state : State Conn Caller) : Prop where
  kept : Kept limit state
  running : state.pool.abortRequest = false
  counted : 0 < state.pool.curConnCnt

theorem Serving.step {limit : Int} {state next : State Conn Caller}
    {event : Event Conn Caller} (serving : Serving limit state)
    (taken : Pool.step state event = some next) : Serving limit next := by
  obtain ⟨same, more⟩ := step_running taken
  exact ⟨serving.kept.step taken, same.trans serving.running,
    Int.lt_of_lt_of_le serving.counted more⟩

/-- While a call waits, some connection is out, or a woken call gets one as
soon as it has the mutex. -/
def Moves (waiting : Waiting Conn Caller) : Prop :=
  ∀ caller, waiting.state.asleep caller ≠ none →
    waiting.state.holds ≠ [] ∨
      ∃ other ∈ waiting.woken, ∀ timedOut, ∃ next conn,
        waiting.step (.reacquire other timedOut) = some next ∧
          (other, conn) ∈ next.state.holds

/-- A woken call with a free connection in front of it. -/
theorem Awaited.reacquire {waiting : Waiting Conn Caller} {caller : Caller}
    {conn : Conn} {rest : List Conn} (awaited : waiting.Awaited)
    (running : waiting.state.pool.abortRequest = false)
    (isWoken : caller ∈ waiting.woken)
    (free : waiting.state.pool.freeList = conn :: rest) (timedOut : Bool) :
    ∃ next, waiting.step (.reacquire caller timedOut) = some next ∧
      (caller, conn) ∈ next.state.holds := by
  have asleep := (awaited.asleep caller).mpr
    (List.mem_append_right waiting.blocked isWoken)
  obtain ⟨timed, isTimed⟩ := Option.ne_none_iff_exists'.mp asleep
  have taken : Pool.step waiting.state (.wake caller timedOut) =
      some (waiting.state.settle caller timed
        ({ waiting.state.pool with freeList := rest }, .obtained conn)) := by
    rw [Pool.step, isTimed]
    dsimp only
    rw [wake_front running free]
  have goesOn : waiting.step (.reacquire caller timedOut) =
      some ({ waiting with woken := waiting.woken.erase caller }.settle caller
        (waiting.state.settle caller timed
          ({ waiting.state.pool with freeList := rest }, .obtained conn))) := by
    rw [Waiting.step, if_pos isWoken, taken]
    rfl
  exact ⟨_, goesOn, List.mem_cons_self⟩

theorem Awaited.moves {limit : Int} {waiting : Waiting Conn Caller}
    (awaited : waiting.Awaited) (serving : Serving limit waiting.state) :
    waiting.Moves := by
  intro caller asleep
  by_cases nobodyHolds : waiting.state.holds = []
  · right
    have counted := serving.kept.1.counted
    have someConn := serving.counted
    rw [State.held, nobodyHolds] at counted
    obtain ⟨conn, rest, free⟩ :
        ∃ conn rest, waiting.state.pool.freeList = conn :: rest := by
      apply List.exists_cons_of_length_pos
      simp only [List.map_nil, List.length_nil] at counted
      omega
    obtain ⟨other, isWoken⟩ : ∃ other, other ∈ waiting.woken := by
      by_cases nobody : waiting.blocked = []
      · refine ⟨caller, ?_⟩
        have waits := (awaited.asleep caller).mp asleep
        rw [nobody] at waits
        exact waits
      · have enough := awaited.noneLost nobody
        rw [free, List.length_cons] at enough
        exact List.exists_mem_of_length_pos (by omega)
    refine ⟨other, isWoken, fun timedOut => ?_⟩
    obtain ⟨next, taken, gets⟩ :=
      awaited.reacquire serving.running isWoken free timedOut
    exact ⟨next, conn, taken, gets⟩
  · exact .inl nobodyHolds

/-- Both invariants, and what follows from them for those who wait. -/
structure Attended (limit : Int) (waiting : Waiting Conn Caller) : Prop where
  intact : Intact limit waiting.state
  awaited : waiting.Awaited
  moves : waiting.Moves

omit [DecidableEq Caller] in
theorem fill_running {count : ℕ} {opened : List (Option Conn)}
    {pool filled : Pool Conn} (isFilled : fill count opened pool = some filled) :
    filled.abortRequest = pool.abortRequest := by
  induction count generalizing opened pool with
  | zero =>
      cases isFilled
      rfl
  | succ count induction =>
      match opened with
      | [] => cases isFilled
      | none :: opened => cases isFilled
      | some conn :: opened =>
          simp only [fill] at isFilled
          split at isFilled
          · cases isFilled
          · have kept := induction isFilled
            exact kept

/-- **A filled pool attends to its callers in every run.** -/
theorem attended_of_run {count : ℕ} {maxConnCnt : Int}
    {opened : List (Option Conn)} {pool : Pool Conn} (positive : 0 < count)
    (isFilled : fill count opened ⟨count, maxConnCnt, [], false⟩ = some pool)
    {events : List (WaitEvent Conn Caller)} {final : Waiting Conn Caller}
    (ran : Lib.exec step (start pool) events = some final) :
    Attended (max (count : Int) maxConnCnt) final := by
  obtain ⟨-, -, counted, limited⟩ := fill_spec isFilled List.nodup_nil
  have initially : Serving (max (count : Int) maxConnCnt)
      (Pool.start pool : State Conn Caller) := by
    constructor
    · constructor
      · exact always_intact isFilled [] [] (List.prefix_refl []) _ rfl
      · rw [Pool.start, limited]
        exact Int.le_max_right _ _
    · exact fill_running isFilled
    · rw [Pool.start, counted]
      exact Int.natCast_pos.mpr positive
  have nobody : (start pool : Waiting Conn Caller).Awaited :=
    ⟨List.nodup_nil, fun _ => iff_of_false (not_not_intro rfl)
      List.not_mem_nil, fun some => (some rfl).elim⟩
  have preserved : ∀ {waiting next : Waiting Conn Caller}
      {event : WaitEvent Conn Caller},
      Serving (max (count : Int) maxConnCnt) waiting.state ∧ waiting.Awaited →
      step waiting event = some next →
      Serving (max (count : Int) maxConnCnt) next.state ∧ next.Awaited := by
    intro waiting next event both taken
    exact ⟨exec_invariant Serving.step both.1 (step_underneath taken),
      both.2.step both.1.running taken⟩
  have both := exec_invariant preserved ⟨initially, nobody⟩ ran
  exact ⟨both.1.kept.1, both.2, both.2.moves both.1⟩

end Waiting

end Pool

end Lib
