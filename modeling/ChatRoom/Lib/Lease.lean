import Mathlib.Logic.Function.Basic

/-!
# Leases in an expiring store

A store whose entries live until a deadline, with the two operations a lock
needs: set if absent, and delete if the value matches.  `Exclusive` says that
the clients inside a section own distinct live entries; the rules below say
what each operation must respect to keep it.
-/

namespace Lib

/-- A key-value store with deadlines, read by its own clock. -/
structure ExpiringStore (Key Value : Type*) where
  entries : Key → Option (Value × Nat)
  now : Nat

namespace ExpiringStore

variable {Key Value : Type*}

/-- The value of a key, as long as its deadline has not passed. -/
def get (store : ExpiringStore Key Value) (key : Key) : Option Value :=
  match store.entries key with
  | some (value, deadline) => if store.now ≤ deadline then some value else none
  | none => none

def tick (store : ExpiringStore Key Value) (elapsed : Nat) :
    ExpiringStore Key Value :=
  { store with now := store.now + elapsed }

variable {store next : ExpiringStore Key Value} {key other : Key}
  {value held : Value}

theorem get_eq_some_iff :
    store.get key = some value ↔
      ∃ deadline, store.entries key = some (value, deadline) ∧
        store.now ≤ deadline := by
  unfold get
  cases entry : store.entries key with
  | none => simp
  | some pair =>
      obtain ⟨stored, deadline⟩ := pair
      by_cases live : store.now ≤ deadline
      · simp only [if_pos live, Option.some.injEq, Prod.mk.injEq]
        constructor
        · intro equality
          exact ⟨deadline, ⟨equality, rfl⟩, live⟩
        · intro present
          exact present.elim fun _ both => both.1.1
      · simp only [if_neg live, reduceCtorEq, Option.some.injEq, Prod.mk.injEq,
          false_iff, not_exists, not_and]
        intro other equality
        rw [← equality.2]
        exact live

theorem get_tick_of_le {elapsed deadline : Nat}
    (entry : store.entries key = some (value, deadline))
    (inTime : store.now + elapsed ≤ deadline) :
    (store.tick elapsed).get key = some value :=
  get_eq_some_iff.mpr ⟨deadline, entry, inTime⟩

variable [DecidableEq Key]

/-- Set a key that has no live value, `none` when it has one. -/
def setNx (store : ExpiringStore Key Value) (key : Key) (value : Value)
    (ttl : Nat) : Option (ExpiringStore Key Value) :=
  if (store.get key).isSome then none
  else some { store with
    entries := Function.update store.entries key (some (value, store.now + ttl)) }

theorem setNx_eq_some_iff {ttl : Nat} :
    store.setNx key value ttl = some next ↔
      store.get key = none ∧ next = { store with
        entries :=
          Function.update store.entries key (some (value, store.now + ttl)) } := by
  unfold setNx
  cases found : store.get key with
  | none => simp [eq_comm]
  | some stored => simp

theorem get_setNx_self {ttl : Nat}
    (set : store.setNx key value ttl = some next) :
    next.get key = some value := by
  obtain ⟨-, rfl⟩ := setNx_eq_some_iff.mp set
  exact get_eq_some_iff.mpr ⟨store.now + ttl, by simp, by simp⟩

theorem get_setNx_ne {ttl : Nat} (different : other ≠ key)
    (set : store.setNx key value ttl = some next) :
    next.get other = store.get other := by
  obtain ⟨-, rfl⟩ := setNx_eq_some_iff.mp set
  simp [get, different]

/-- Setting an absent key takes no live value away. -/
theorem get_setNx_of_some {ttl : Nat}
    (set : store.setNx key value ttl = some next)
    (live : store.get other = some held) : next.get other = some held := by
  have different : other ≠ key := by
    intro equality
    rw [equality, (setNx_eq_some_iff.mp set).1] at live
    cases live
  rw [get_setNx_ne different set]
  exact live

variable [DecidableEq Value]

/-- Delete a key whose live value is the given one. -/
def compareAndDelete (store : ExpiringStore Key Value) (key : Key)
    (value : Value) : ExpiringStore Key Value :=
  if store.get key = some value then
    { store with entries := Function.update store.entries key none }
  else store

theorem get_compareAndDelete_of_ne
    (different : other ≠ key ∨ held ≠ value)
    (live : store.get other = some held) :
    (store.compareAndDelete key value).get other = some held := by
  unfold compareAndDelete
  by_cases owned : store.get key = some value
  · have keys : other ≠ key := by
      rcases different with keys | values
      · exact keys
      · intro equality
        rw [equality, owned] at live
        exact values (Option.some.inj live).symm
    rw [if_pos owned]
    simpa [get, keys] using live
  · rw [if_neg owned]
    exact live

end ExpiringStore

/-! ## Clients in sections -/

section Leases

variable {Client Key Value : Type*}

/-- Every client inside a section owns the live entry of its key, and no two
of them have the same key. -/
structure Exclusive (store : ExpiringStore Key Value)
    (occupies : Client → Option (Key × Value)) : Prop where
  owned : ∀ {client key value}, occupies client = some (key, value) →
    store.get key = some value
  alone : ∀ {client other key value held}, occupies client = some (key, value) →
    occupies other = some (key, held) → client = other

variable {store next : ExpiringStore Key Value}
  {occupies : Client → Option (Key × Value)}

/-- The store may change as long as the entries of the clients inside stay
live. -/
theorem Exclusive.store_change (exclusive : Exclusive store occupies)
    (kept : ∀ {client key value}, occupies client = some (key, value) →
      store.get key = some value → next.get key = some value) :
    Exclusive next occupies := by
  constructor
  · intro client key value inside
    exact kept inside (exclusive.owned inside)
  · intro first second key value held firstInside secondInside
    exact exclusive.alone firstInside secondInside

/-- Time must not pass the deadline of a client inside. -/
theorem Exclusive.tick {elapsed : Nat} (exclusive : Exclusive store occupies)
    (inTime : ∀ client key value deadline,
      occupies client = some (key, value) →
      store.entries key = some (value, deadline) →
      store.now + elapsed ≤ deadline) :
    Exclusive (store.tick elapsed) occupies := by
  apply exclusive.store_change
  intro client key value inside live
  obtain ⟨deadline, entry, -⟩ := ExpiringStore.get_eq_some_iff.mp live
  exact ExpiringStore.get_tick_of_le entry
    (inTime client key value deadline inside entry)

section Entries

variable [DecidableEq Key]

theorem Exclusive.setNx {key : Key} {value : Value} {ttl : Nat}
    (exclusive : Exclusive store occupies)
    (set : store.setNx key value ttl = some next) :
    Exclusive next occupies := by
  apply exclusive.store_change
  intro client ownKey held _ live
  exact ExpiringStore.get_setNx_of_some set live

variable [DecidableEq Value]

/-- A deletion must not name the value of a client inside. -/
theorem Exclusive.compareAndDelete {key : Key} {value : Value}
    (exclusive : Exclusive store occupies)
    (foreign : ∀ client, occupies client ≠ some (key, value)) :
    Exclusive (store.compareAndDelete key value) occupies := by
  apply exclusive.store_change
  intro client ownKey held inside live
  apply ExpiringStore.get_compareAndDelete_of_ne _ live
  by_cases sameKey : ownKey = key
  · right
    intro sameValue
    rw [sameKey, sameValue] at inside
    exact foreign client inside
  · exact .inl sameKey

end Entries

variable [DecidableEq Client]

/-- A client may leave its section at any time. -/
theorem Exclusive.leave (exclusive : Exclusive store occupies)
    (client : Client) :
    Exclusive store (Function.update occupies client none) := by
  have earlier : ∀ {other pair},
      Function.update occupies client none other = some pair →
        occupies other = some pair := by
    intro other pair inside
    by_cases same : other = client
    · rw [same, Function.update_self] at inside
      cases inside
    · rwa [Function.update_of_ne same] at inside
  constructor
  · intro other key value inside
    exact exclusive.owned (earlier inside)
  · intro first second key value held firstInside secondInside
    exact exclusive.alone (earlier firstInside) (earlier secondInside)

variable [DecidableEq Key]

/-- A client that has set its key may enter. -/
theorem Exclusive.enter {key : Key} {value : Value} {ttl : Nat}
    (exclusive : Exclusive store occupies) (client : Client)
    (set : store.setNx key value ttl = some next) :
    Exclusive next (Function.update occupies client (some (key, value))) := by
  have free : store.get key = none := (ExpiringStore.setNx_eq_some_iff.mp set).1
  have unused : ∀ other held, occupies other ≠ some (key, held) := by
    intro other held inside
    rw [exclusive.owned inside] at free
    cases free
  constructor
  · intro other otherKey held inside
    by_cases same : other = client
    · rw [same, Function.update_self] at inside
      cases inside
      exact ExpiringStore.get_setNx_self set
    · rw [Function.update_of_ne same] at inside
      exact ExpiringStore.get_setNx_of_some set (exclusive.owned inside)
  · intro first second sharedKey firstValue secondValue firstInside secondInside
    by_cases isFirst : first = client
    · by_cases isSecond : second = client
      · rw [isFirst, isSecond]
      · rw [isFirst, Function.update_self] at firstInside
        cases firstInside
        rw [Function.update_of_ne isSecond] at secondInside
        exact absurd secondInside (unused second secondValue)
    · rw [Function.update_of_ne isFirst] at firstInside
      by_cases isSecond : second = client
      · rw [isSecond, Function.update_self] at secondInside
        cases secondInside
        exact absurd firstInside (unused first firstValue)
      · rw [Function.update_of_ne isSecond] at secondInside
        exact exclusive.alone firstInside secondInside

end Leases

end Lib
