import Mathlib.Data.List.Basic

/-!
# Programs that ask for resources

A program asks pools for resources and may get none.  Whether it uses one that
it did not get depends on its requests: where every request of some pools is
followed by a use without a look, the program fails exactly when one of these
pools has nothing to give.
-/

namespace Lib

namespace Requests

/-- A request, and whether it got a resource. -/
structure Request (Pool : Type) where
  pool : Pool
  found : Bool
  deriving DecidableEq

/-- How a program ends: it uses a resource that is not there, its behaviour is
undefined for another reason, it throws, or it returns. -/
inductive Outcome (Value : Type) where
  | nullUse
  | undefined
  | thrown
  | returned (value : Value)

def Outcome.map {Value Next : Type} (function : Value → Next) :
    Outcome Value → Outcome Next
  | nullUse => nullUse
  | undefined => undefined
  | thrown => thrown
  | returned value => returned (function value)

theorem Outcome.map_eq_nullUse_iff {Value Next : Type}
    {function : Value → Next} {outcome : Outcome Value} :
    outcome.map function = nullUse ↔ outcome = nullUse := by
  cases outcome with
  | nullUse => simp [map]
  | undefined => simp [map]
  | thrown => simp [map]
  | returned value => simp [map]

/-- A program, over the requests made so far, to which it adds its own. -/
def Run (Pool Value : Type) : Type :=
  List (Request Pool) → Outcome Value × List (Request Pool)

namespace Run

variable {Pool Value Next Resource : Type}

def pure (value : Value) : Run Pool Value :=
  fun past => (.returned value, past)

def bind (first : Run Pool Value) (next : Value → Run Pool Next) :
    Run Pool Next :=
  fun past =>
    match first past with
    | (.returned value, later) => next value later
    | (.nullUse, later) => (.nullUse, later)
    | (.undefined, later) => (.undefined, later)
    | (.thrown, later) => (.thrown, later)

instance : Monad (Run Pool) where
  pure := Run.pure
  bind := Run.bind

def throw : Run Pool Value := fun past => (.thrown, past)

def undefined : Run Pool Value := fun past => (.undefined, past)

/-- A value that may be undefined. -/
def ofOption : Option Value → Run Pool Value
  | none => undefined
  | some value => pure value

/-- A request; what the pool gives may change from one request to the next. -/
def ask (pool : Pool) (give : ℕ → Option Resource) :
    Run Pool (Option Resource) :=
  fun past =>
    let resource := give past.length
    (.returned resource, past ++ [⟨pool, resource.isSome⟩])

/-- The use of a resource without a look whether it is there. -/
def use : Option Resource → Run Pool Resource
  | none => fun past => (.nullUse, past)
  | some resource => pure resource

/-- `try` and `catch`. -/
def attempt (first handler : Run Pool Value) : Run Pool Value :=
  fun past =>
    match first past with
    | (.thrown, later) => handler later
    | other => other

/-! ## Tight programs -/

/-- A request of one of the pools that got nothing. -/
def Missed (pools : Pool → Prop) (requests : List (Request Pool)) : Prop :=
  ∃ request ∈ requests, pools request.pool ∧ request.found = false

theorem missed_append {pools : Pool → Prop}
    {first second : List (Request Pool)} :
    Missed pools (first ++ second) ↔
      Missed pools first ∨ Missed pools second := by
  simp only [Missed, List.mem_append, or_and_right, exists_or]

theorem not_missed_nil {pools : Pool → Prop} :
    ¬ Missed pools ([] : List (Request Pool)) := by
  rintro ⟨request, member, -⟩
  cases member

/-- The requests of the program, and when it uses a resource that is not
there: exactly when one of the pools had nothing for it. -/
def Tight (pools : Pool → Prop) (run : Run Pool Value) : Prop :=
  ∀ past, ∃ requests, (run past).2 = past ++ requests ∧
    ((run past).1 = .nullUse ↔ Missed pools requests)

variable {pools : Pool → Prop}

theorem tight_of_quiet {run : Run Pool Value}
    (quiet : ∀ past, (run past).2 = past ∧ (run past).1 ≠ .nullUse) :
    Tight pools run := by
  intro past
  obtain ⟨silent, fine⟩ := quiet past
  refine ⟨[], ?_, iff_of_false fine not_missed_nil⟩
  rw [silent, List.append_nil]

theorem tight_pure (value : Value) :
    Tight pools (Pure.pure value : Run Pool Value) := by
  apply tight_of_quiet
  intro past
  refine ⟨rfl, ?_⟩
  intro impossible
  cases impossible

theorem tight_throw : Tight pools (throw : Run Pool Value) := by
  apply tight_of_quiet
  intro past
  refine ⟨rfl, ?_⟩
  intro impossible
  cases impossible

theorem tight_use_some (resource : Resource) :
    Tight pools (use (some resource) : Run Pool Resource) :=
  tight_pure resource

theorem tight_ofOption (value : Option Value) :
    Tight pools (ofOption value : Run Pool Value) := by
  apply tight_of_quiet
  intro past
  cases value with
  | none =>
      refine ⟨rfl, ?_⟩
      intro impossible
      cases impossible
  | some value =>
      refine ⟨rfl, ?_⟩
      intro impossible
      cases impossible

/-- A program that goes on behind requests which were answered. -/
theorem Tight.behind {run : Run Pool Value} (tight : Tight pools run)
    (past : List (Request Pool)) {requests : List (Request Pool)}
    (answered : ¬ Missed pools requests) :
    ∃ all, (run (past ++ requests)).2 = past ++ all ∧
      ((run (past ++ requests)).1 = .nullUse ↔ Missed pools all) := by
  obtain ⟨more, latest, null⟩ := tight (past ++ requests)
  refine ⟨requests ++ more, ?_, ?_⟩
  · rw [latest, List.append_assoc]
  · rw [null, missed_append]
    exact (or_iff_right answered).symm

theorem tight_bind {first : Run Pool Value} {next : Value → Run Pool Next}
    (firstTight : Tight pools first)
    (nextTight : ∀ value, Tight pools (next value)) :
    Tight pools (first >>= next) := by
  intro past
  obtain ⟨requests, later, null⟩ := firstTight past
  change ∃ requests, (Run.bind first next past).2 = past ++ requests ∧
    ((Run.bind first next past).1 = .nullUse ↔ Missed pools requests)
  rw [Run.bind]
  cases ends : first past with
  | mk outcome behind =>
      rw [ends] at later null
      simp only at later null
      cases outcome with
      | returned value =>
          have answered : ¬ Missed pools requests := by
            intro missed
            cases null.mpr missed
          rw [later]
          exact (nextTight value).behind past answered
      | nullUse => exact ⟨requests, later, iff_of_true rfl (null.mp rfl)⟩
      | undefined => exact ⟨requests, later, by simpa using null⟩
      | thrown => exact ⟨requests, later, by simpa using null⟩

theorem tight_attempt {first handler : Run Pool Value}
    (firstTight : Tight pools first) (handlerTight : Tight pools handler) :
    Tight pools (attempt first handler) := by
  intro past
  obtain ⟨requests, later, null⟩ := firstTight past
  rw [attempt]
  cases ends : first past with
  | mk outcome behind =>
      rw [ends] at later null
      simp only at later null
      cases outcome with
      | thrown =>
          have answered : ¬ Missed pools requests := by
            intro missed
            cases null.mpr missed
          rw [later]
          exact handlerTight.behind past answered
      | returned value => exact ⟨requests, later, null⟩
      | nullUse => exact ⟨requests, later, null⟩
      | undefined => exact ⟨requests, later, null⟩

/-- A request of another pool does no harm. -/
theorem tight_ask {pool : Pool} (other : ¬ pools pool)
    (give : ℕ → Option Resource) : Tight pools (ask pool give) := by
  intro past
  refine ⟨_, rfl, iff_of_false ?_ ?_⟩
  · intro impossible
    cases impossible
  · rintro ⟨request, member, isPool, -⟩
    rw [List.mem_singleton.mp member] at isPool
    exact other isPool

/-- A request of one of the pools, with the use at once. -/
theorem tight_ask_use {pool : Pool} (isPool : pools pool)
    (give : ℕ → Option Resource) {next : Resource → Run Pool Next}
    (nextTight : ∀ resource, Tight pools (next resource)) :
    Tight pools (ask pool give >>= fun resource => use resource >>= next) := by
  intro past
  change ∃ requests,
    (Run.bind (ask pool give) (fun resource => Run.bind (use resource) next)
      past).2 = past ++ requests ∧ ((Run.bind (ask pool give)
        (fun resource => Run.bind (use resource) next) past).1 = .nullUse ↔
      Missed pools requests)
  rw [Run.bind, ask]
  cases given : give past.length with
  | none =>
      refine ⟨[⟨pool, false⟩], rfl, iff_of_true rfl ?_⟩
      exact ⟨_, List.mem_singleton_self _, isPool, rfl⟩
  | some resource =>
      have answered : ¬ Missed pools [⟨pool, true⟩] := by
        rintro ⟨request, member, -, notFound⟩
        rw [List.mem_singleton.mp member] at notFound
        cases notFound
      exact (nextTight resource).behind past answered

/-! ## What a program asks for -/

/-- Every request of the program is one of these. -/
def Asks (asked : Request Pool → Prop) (run : Run Pool Value) : Prop :=
  ∀ past, ∃ requests, (run past).2 = past ++ requests ∧
    ∀ request ∈ requests, asked request

variable {asked : Request Pool → Prop}

theorem asks_of_silent {run : Run Pool Value}
    (silent : ∀ past, (run past).2 = past) : Asks asked run := by
  intro past
  refine ⟨[], ?_, ?_⟩
  · rw [List.append_nil, silent]
  · intro request member
    cases member

theorem asks_pure (value : Value) :
    Asks asked (Pure.pure value : Run Pool Value) :=
  asks_of_silent fun _ => rfl

theorem asks_use (resource : Option Resource) :
    Asks asked (use resource : Run Pool Resource) := by
  apply asks_of_silent
  intro past
  cases resource with
  | none => rfl
  | some resource => rfl

theorem asks_ofOption (value : Option Value) :
    Asks asked (ofOption value : Run Pool Value) := by
  apply asks_of_silent
  intro past
  cases value with
  | none => rfl
  | some value => rfl

theorem asks_ask {pool : Pool} {give : ℕ → Option Resource}
    (isAsked : ∀ found, asked ⟨pool, found⟩) :
    Asks asked (ask pool give) := by
  intro past
  refine ⟨_, rfl, ?_⟩
  intro request member
  rw [List.mem_singleton.mp member]
  exact isAsked _

theorem asks_bind {first : Run Pool Value} {next : Value → Run Pool Next}
    (firstAsks : Asks asked first)
    (nextAsks : ∀ value, Asks asked (next value)) :
    Asks asked (first >>= next) := by
  intro past
  obtain ⟨requests, later, all⟩ := firstAsks past
  change ∃ requests, (Run.bind first next past).2 = past ++ requests ∧ _
  rw [Run.bind]
  cases ends : first past with
  | mk outcome behind =>
      rw [ends] at later
      simp only at later
      cases outcome with
      | returned value =>
          obtain ⟨more, latest, moreAll⟩ := nextAsks value behind
          refine ⟨requests ++ more, ?_, ?_⟩
          · rw [← List.append_assoc, ← later]
            exact latest
          · intro request member
            rcases List.mem_append.mp member with early | late
            · exact all request early
            · exact moreAll request late
      | nullUse => exact ⟨requests, later, all⟩
      | undefined => exact ⟨requests, later, all⟩
      | thrown => exact ⟨requests, later, all⟩

/-- A program whose requests of some pools are all answered misses nothing. -/
theorem not_missed_of_asks {run : Run Pool Value}
    (asks : Asks (fun request => pools request.pool → request.found = true) run)
    {past : List (Request Pool)} (fine : ¬ Missed pools past) :
    ¬ Missed pools (run past).2 := by
  obtain ⟨requests, later, all⟩ := asks past
  rw [later, missed_append]
  rintro (early | ⟨request, member, isPool, notFound⟩)
  · exact fine early
  · rw [all request member isPool] at notFound
    cases notFound

/-- A request in front of a program. -/
theorem ask_bind (pool : Pool) (give : ℕ → Option Resource)
    (next : Option Resource → Run Pool Value) (past : List (Request Pool)) :
    (ask pool give >>= next) past =
      next (give past.length) (past ++ [⟨pool, (give past.length).isSome⟩]) :=
  rfl

theorem bind_pure (run : Run Pool Value) (function : Value → Next)
    (past : List (Request Pool)) :
    (run >>= fun value => Pure.pure (function value)) past =
      ((run past).1.map function, (run past).2) := by
  change Run.bind run _ past = _
  rw [Run.bind]
  rcases run past with ⟨_ | _ | _ | value, later⟩
  · rfl
  · rfl
  · rfl
  · rfl

theorem bind_assoc (first : Run Pool Resource)
    (second : Resource → Run Pool Value) (next : Value → Run Pool Next) :
    first >>= second >>= next =
      first >>= fun value => second value >>= next := by
  funext past
  change Run.bind (Run.bind first second) next past =
    Run.bind first (fun value => Run.bind (second value) next) past
  simp only [Run.bind]
  rcases first past with ⟨_ | _ | _ | value, later⟩
  · rfl
  · rfl
  · rfl
  · rfl

end Run

end Requests

end Lib
