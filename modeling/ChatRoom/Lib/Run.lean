import Mathlib.Data.List.Infix

/-!
# Runs of partial transition functions

A system is a partial step function from a state and an event to the next
state; the event carries every choice of the environment.  `exec` runs a list
of events, `Always` says that a predicate holds in every state a run passes
through, and `Meets` says that every step the run takes satisfies a guard.
The rules at the end turn a one-step argument into a statement about runs.
-/

namespace Lib

variable {State Event : Type*}

/-- The state after a list of events, `none` once an event is not enabled. -/
def exec (step : State → Event → Option State) :
    State → List Event → Option State
  | state, [] => some state
  | state, event :: events =>
      match step state event with
      | some next => exec step next events
      | none => none

/-- Every state the run passes through, the first one included, is good. -/
def Always (step : State → Event → Option State) (good : State → Prop)
    (start : State) (events : List Event) : Prop :=
  ∀ before, before <+: events →
    ∀ reached, exec step start before = some reached → good reached

/-- Every step the run takes satisfies the guard in the state it is taken
from. -/
def Meets (step : State → Event → Option State)
    (guard : State → Event → Prop) : State → List Event → Prop
  | _, [] => True
  | state, event :: events =>
      ∀ next, step state event = some next →
        guard state event ∧ Meets step guard next events

variable {step : State → Event → Option State}

@[simp] theorem exec_nil (state : State) : exec step state [] = some state :=
  rfl

theorem exec_cons_of_some {state next : State} {event : Event}
    (taken : step state event = some next) (events : List Event) :
    exec step state (event :: events) = exec step next events := by
  simp [exec, taken]

theorem exec_cons_iff {state final : State} {event : Event}
    {events : List Event} :
    exec step state (event :: events) = some final ↔
      ∃ next, step state event = some next ∧
        exec step next events = some final := by
  cases taken : step state event with
  | none => simp [exec, taken]
  | some next => simp [exec, taken]

theorem exec_append (state : State) (first second : List Event) :
    exec step state (first ++ second) =
      (exec step state first).bind fun middle => exec step middle second := by
  induction first generalizing state with
  | nil => rfl
  | cons event first induction =>
      cases taken : step state event with
      | none => simp [exec, taken]
      | some next => simp [exec, taken, induction]

/-- A predicate every step preserves holds at the end of every run. -/
theorem exec_invariant {inv : State → Prop}
    (preserved : ∀ {state next event}, inv state →
      step state event = some next → inv next)
    {start final : State} {events : List Event}
    (initially : inv start) (reached : exec step start events = some final) :
    inv final := by
  induction events generalizing start with
  | nil =>
      cases reached
      exact initially
  | cons event events induction =>
      obtain ⟨next, taken, rest⟩ := exec_cons_iff.mp reached
      exact induction (preserved initially taken) rest

theorem always_nil_iff {good : State → Prop} {start : State} :
    Always step good start [] ↔ good start := by
  constructor
  · intro always
    exact always [] (List.prefix_refl _) start rfl
  · intro holds before isPrefix reached executed
    rw [List.prefix_nil.mp isPrefix] at executed
    cases executed
    exact holds

theorem always_cons_iff {good : State → Prop} {start : State}
    {event : Event} {events : List Event} :
    Always step good start (event :: events) ↔
      good start ∧ ∀ next, step start event = some next →
        Always step good next events := by
  constructor
  · intro always
    refine ⟨always [] List.nil_prefix start rfl, ?_⟩
    intro next taken before isPrefix reached executed
    exact always (event :: before)
      (List.cons_prefix_cons.mpr ⟨rfl, isPrefix⟩) reached
      (exec_cons_iff.mpr ⟨next, taken, executed⟩)
  · rintro ⟨holds, later⟩ before isPrefix reached executed
    cases before with
    | nil =>
        cases executed
        exact holds
    | cons first before =>
        obtain ⟨rfl, tailPrefix⟩ := List.cons_prefix_cons.mp isPrefix
        obtain ⟨next, taken, rest⟩ := exec_cons_iff.mp executed
        exact later next taken before tailPrefix reached rest

theorem Meets.cons {guard : State → Event → Prop} {state next : State}
    {event : Event} {events : List Event}
    (taken : step state event = some next) (guarded : guard state event)
    (rest : Meets step guard next events) :
    Meets step guard state (event :: events) := by
  intro other otherTaken
  rw [taken] at otherTaken
  cases otherTaken
  exact ⟨guarded, rest⟩

/-- In a run whose steps all meet the guard, an invariant that guarded steps
preserve holds in every state. -/
theorem Meets.always {guard : State → Event → Prop} {inv : State → Prop}
    (preserved : ∀ {state next event}, inv state → guard state event →
      step state event = some next → inv next)
    {start : State} {events : List Event}
    (meets : Meets step guard start events) (initially : inv start) :
    Always step inv start events := by
  induction events generalizing start with
  | nil => exact always_nil_iff.mpr initially
  | cons event events induction =>
      refine always_cons_iff.mpr ⟨initially, ?_⟩
      intro next taken
      obtain ⟨guarded, rest⟩ := meets next taken
      exact induction rest (preserved initially guarded taken)

/-- Every event the run comes to satisfies the guard in the state that it
finds. -/
def Admits (step : State → Event → Option State)
    (guard : State → Event → Prop) (start : State) (events : List Event) :
    Prop :=
  ∀ before event, before ++ [event] <+: events →
    ∀ reached, exec step start before = some reached → guard reached event

/-- A run goes through exactly when it admits a guard that says where the step
function is defined. -/
theorem exec_isSome_iff {guard : State → Event → Prop}
    (defined : ∀ state event, (step state event).isSome ↔ guard state event)
    {start : State} {events : List Event} :
    (exec step start events).isSome ↔ Admits step guard start events := by
  induction events generalizing start with
  | nil =>
      constructor
      · intro _ before event isPrefix
        exact absurd (List.prefix_nil.mp isPrefix) (by simp)
      · intro _
        rfl
  | cons event events induction =>
      have here := defined start event
      cases taken : step start event with
      | none =>
          rw [taken] at here
          constructor
          · intro went
            simp [exec, taken] at went
          · intro admits
            have guarded := admits [] event
              (List.cons_prefix_cons.mpr ⟨rfl, List.nil_prefix⟩) start rfl
            cases here.mpr guarded
      | some next =>
          rw [taken] at here
          rw [exec_cons_of_some taken, induction]
          constructor
          · intro admits before later isPrefix reached executed
            cases before with
            | nil =>
                cases executed
                obtain ⟨rfl, -⟩ := List.cons_prefix_cons.mp isPrefix
                exact here.mp rfl
            | cons first before =>
                obtain ⟨rfl, tailPrefix⟩ := List.cons_prefix_cons.mp isPrefix
                rw [exec_cons_of_some taken] at executed
                exact admits before later tailPrefix reached executed
          · intro admits before later isPrefix reached executed
            apply admits (event :: before) later
            · exact List.cons_prefix_cons.mpr ⟨rfl, isPrefix⟩
            · rw [exec_cons_of_some taken]
              exact executed

theorem Always.mono {good better : State → Prop} {start : State}
    {events : List Event} (weaker : ∀ state, better state → good state)
    (always : Always step better start events) :
    Always step good start events := by
  intro before isPrefix reached executed
  exact weaker reached (always before isPrefix reached executed)

/-- The exactness rule.  When guarded steps preserve the invariant, and a step
from an invariant state can only end in a good state if it was guarded, the
runs that stay good are exactly the runs whose steps all meet the guard. -/
theorem always_iff_meets {guard : State → Event → Prop}
    {inv good : State → Prop}
    (sound : ∀ {state}, inv state → good state)
    (preserved : ∀ {state next event}, inv state → guard state event →
      step state event = some next → inv next)
    (exactness : ∀ {state next event}, inv state →
      step state event = some next → good next → guard state event)
    {start : State} {events : List Event} (initially : inv start) :
    Always step good start events ↔ Meets step guard start events := by
  constructor
  · intro always
    induction events generalizing start with
    | nil => trivial
    | cons event events induction =>
        intro next taken
        have later := (always_cons_iff.mp always).2 next taken
        have goodNext : good next :=
          later [] List.nil_prefix next rfl
        have guarded := exactness initially taken goodNext
        exact ⟨guarded, induction (preserved initially guarded taken) later⟩
  · intro meets
    exact (meets.always preserved initially).mono fun _ => sound

/-! ## Systems that share a step function -/

section Mapped

variable {Other : Type*} (translate : Other → Event)

/-- A system whose events stand for events of another one passes through the
same states. -/
theorem always_map_iff {good : State → Prop} {start : State}
    {others : List Other} :
    Always (fun state other => step state (translate other)) good start
        others ↔
      Always step good start (others.map translate) := by
  induction others generalizing start with
  | nil => rw [List.map_nil, always_nil_iff, always_nil_iff]
  | cons other others induction =>
      rw [List.map_cons, always_cons_iff, always_cons_iff]
      apply and_congr_right
      intro _
      apply forall_congr'
      intro next
      apply imp_congr_right
      intro _
      exact induction

theorem meets_map_iff {guard : State → Event → Prop}
    {otherGuard : State → Other → Prop}
    (same : ∀ state other,
      otherGuard state other ↔ guard state (translate other))
    {start : State} {others : List Other} :
    Meets (fun state other => step state (translate other)) otherGuard start
        others ↔
      Meets step guard start (others.map translate) := by
  induction others generalizing start with
  | nil => rfl
  | cons other others induction =>
      apply forall_congr'
      intro next
      apply imp_congr_right
      intro _
      exact and_congr (same start other) induction

end Mapped

end Lib
