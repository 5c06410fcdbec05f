import ChatRoom.Lib.WaitingCallers

/-!
# The Redis and the MySQL pool

`CachePool` and `CDBPool` run the same critical sections over their own
connections; they differ in the number they open at the start.  A caller is
one scope with its `AutoRel` guard, so it gives back what it obtained once.
-/

namespace ChatRoom

open Lib (Pool)

/-- One scope that asks a pool for a connection: the thread and the number of
the scope. -/
structure Scope where
  thread : Nat
  number : Nat
  deriving DecidableEq

namespace CachePool

/-- A `CacheConn *`. -/
structure Conn where
  address : Nat
  deriving DecidableEq

/-- `MIN_CACHE_CONN_CNT`. -/
def minCacheConnCnt : Nat := 2

/-- `CachePool` and its `Init`; `none` when `Init` returns nonzero. -/
def init (maxConnCnt : Int) (opened : List (Option Conn)) :
    Option (Pool Conn) :=
  Pool.fill minCacheConnCnt opened ⟨minCacheConnCnt, maxConnCnt, [], false⟩

/-- `GetCacheConn` up to its wait, `GetCacheConn` behind it, and
`RelCacheConn`. -/
def step : Pool.State Conn Scope → Pool.Event Conn Scope →
    Option (Pool.State Conn Scope) := Pool.step

end CachePool

namespace CDBPool

/-- A `CDBConn *`. -/
structure Conn where
  address : Nat
  deriving DecidableEq

/-- `MIN_DB_CONN_CNT`. -/
def minDbConnCnt : Nat := 1

/-- `CDBPool` and its `Init`; `none` when `Init` returns nonzero. -/
def init (maxConnCnt : Int) (opened : List (Option Conn)) :
    Option (Pool Conn) :=
  Pool.fill minDbConnCnt opened ⟨minDbConnCnt, maxConnCnt, [], false⟩

/-- `GetDBConn` up to its wait, `GetDBConn` behind it, and `RelDBConn`. -/
def step : Pool.State Conn Scope → Pool.Event Conn Scope →
    Option (Pool.State Conn Scope) := Pool.step

end CDBPool

/-- Behind a successful `Init`, both pools keep their connections apart and
counted in every interleaving of their callers. -/
theorem pools_intact (maxCacheConnCnt maxDbConnCnt : Int)
    (openedCache : List (Option CachePool.Conn)) (cachePool : Pool CachePool.Conn)
    (cacheInit : CachePool.init maxCacheConnCnt openedCache = some cachePool)
    (openedDb : List (Option CDBPool.Conn)) (dbPool : Pool CDBPool.Conn)
    (dbInit : CDBPool.init maxDbConnCnt openedDb = some dbPool) :
    (∀ events, Lib.Always CachePool.step
      (Pool.Intact (max CachePool.minCacheConnCnt maxCacheConnCnt))
      (Pool.start cachePool) events) ∧
    (∀ events, Lib.Always CDBPool.step
      (Pool.Intact (max CDBPool.minDbConnCnt maxDbConnCnt))
      (Pool.start dbPool) events) := by
  constructor
  · intro events
    exact Pool.always_intact cacheInit events
  · intro events
    exact Pool.always_intact dbInit events

/-- The two pools with one connection more than they start with. -/
theorem pools_intact_of_started :
    (∀ events, Lib.Always CachePool.step
      (Pool.Intact (max CachePool.minCacheConnCnt 3))
      (Pool.start ⟨2, 3, [⟨1⟩, ⟨2⟩], false⟩) events) ∧
    (∀ events, Lib.Always CDBPool.step
      (Pool.Intact (max CDBPool.minDbConnCnt 3))
      (Pool.start ⟨1, 3, [⟨7⟩], false⟩) events) := by
  apply pools_intact 3 3 [some ⟨1⟩, some ⟨2⟩] _ _ [some ⟨7⟩]
  · rfl
  · rfl

/-- A timed wait that a released connection does not reach in time ends
without one. -/
example : ((Lib.exec CDBPool.step
      (Pool.start ⟨1, 1, [⟨7⟩], false⟩)
      [.get ⟨0, 0⟩ 0 none, .get ⟨1, 0⟩ 50 none, .release ⟨0, 0⟩,
        .get ⟨2, 0⟩ 0 none, .wake ⟨1, 0⟩ true]).map
      fun state => (state.holds, state.pool.freeList)) =
    some ([(⟨2, 0⟩, ⟨7⟩)], []) := by
  decide

/-! ## The condition variables -/

/-- `GetCacheConn` with its wait in `cond_var_`, and `RelCacheConn` with its
`notify_one`. -/
def CachePool.waitStep :
    Pool.Waiting CachePool.Conn Scope → Pool.WaitEvent CachePool.Conn Scope →
      Option (Pool.Waiting CachePool.Conn Scope) :=
  Pool.Waiting.step

/-- `GetDBConn` with its wait in `cond_var_`, and `RelDBConn` with its
`notify_one`. -/
def CDBPool.waitStep :
    Pool.Waiting CDBPool.Conn Scope → Pool.WaitEvent CDBPool.Conn Scope →
      Option (Pool.Waiting CDBPool.Conn Scope) :=
  Pool.Waiting.step

/-- **No wake-up is lost.**  Behind a successful `Init`, in every interleaving
of the callers of both pools: while calls are blocked, as many are on their way
to the mutex as connections are free, and nobody waits in vain. -/
theorem waiting_calls_attended (maxCacheConnCnt maxDbConnCnt : Int)
    (openedCache : List (Option CachePool.Conn)) (cachePool : Pool CachePool.Conn)
    (cacheInit : CachePool.init maxCacheConnCnt openedCache = some cachePool)
    (openedDb : List (Option CDBPool.Conn)) (dbPool : Pool CDBPool.Conn)
    (dbInit : CDBPool.init maxDbConnCnt openedDb = some dbPool) :
    (∀ events final, Lib.exec CachePool.waitStep
        (Pool.Waiting.start cachePool) events = some final →
      final.Attended (max CachePool.minCacheConnCnt maxCacheConnCnt)) ∧
    (∀ events final, Lib.exec CDBPool.waitStep
        (Pool.Waiting.start dbPool) events = some final →
      final.Attended (max CDBPool.minDbConnCnt maxDbConnCnt)) := by
  constructor
  · intro events final ran
    exact Pool.Waiting.attended_of_run Nat.two_pos cacheInit ran
  · intro events final ran
    exact Pool.Waiting.attended_of_run Nat.one_pos dbInit ran

/-- The only connection comes back while two calls are blocked: one of them is
on its way. -/
theorem waiting_calls_attended_of_two : ∃ final,
    Lib.exec CDBPool.waitStep (Pool.Waiting.start ⟨1, 1, [⟨7⟩], false⟩)
        [.get ⟨0, 0⟩ 0 none, .get ⟨1, 0⟩ 0 none, .get ⟨2, 0⟩ 0 none,
          .release ⟨0, 0⟩ (some ⟨1, 0⟩)] = some final ∧
      final.woken = [⟨1, 0⟩] ∧ final.Attended 1 := by
  obtain ⟨final, ran, woken⟩ : ∃ final,
      Lib.exec CDBPool.waitStep (Pool.Waiting.start ⟨1, 1, [⟨7⟩], false⟩)
        [.get ⟨0, 0⟩ 0 none, .get ⟨1, 0⟩ 0 none, .get ⟨2, 0⟩ 0 none,
          .release ⟨0, 0⟩ (some ⟨1, 0⟩)] = some final ∧
        final.woken = [⟨1, 0⟩] :=
    ⟨_, rfl, rfl⟩
  exact ⟨final, ran, woken,
    (waiting_calls_attended 3 1 [some ⟨1⟩, some ⟨2⟩] _ rfl [some ⟨7⟩] _ rfl).2
      _ final ran⟩

end ChatRoom
