import ChatRoom.Lib.Run

/-!
# Scanners

A scanner works through a buffer from left to right.  Mostly it takes one
symbol at a time; where it knows what the next symbols are it takes them in one
move.  A scanner whose long moves only shorten single ones leaves every buffer
as the single moves would.
-/

namespace Lib

namespace Scanner

variable {State Symbol : Type*}

/-- A scanner that is still reading, or one that has left its buffer. -/
inductive Status (State : Type*) where
  | reading (state : State)
  | left (state : State)

/-- What a move on a symbol does: it takes the symbol and the `skip` symbols
behind it, or leaves the buffer. -/
inductive Move (State : Type*) where
  | go (state : State) (skip : ℕ)
  | leave (state : State)

def Move.status : Move State → Status State
  | .go state _ => .reading state
  | .leave state => .left state

/-- While a scanner reads its states are good, and the last one is what it may
be when the scanner leaves. -/
def Status.Keeps (good last : State → Prop) : Status State → Prop
  | .reading state => good state
  | .left state => last state

def Move.Keeps (good last : State → Prop) (move : Move State) : Prop :=
  move.status.Keeps good last

/-- The loop over a buffer, of which `skip` symbols are taken already; `none`
when a move fails. -/
def loop (move : State → Symbol → List Symbol → Option (Move State)) :
    State → ℕ → List Symbol → Option (Status State)
  | state, _, [] => some (.reading state)
  | state, skip + 1, _ :: rest => loop move state skip rest
  | state, 0, symbol :: rest =>
      match move state symbol rest with
      | none => none
      | some (.go next skip) => loop move next skip rest
      | some (.leave last) => some (.left last)

/-- A move on one symbol, as if the buffer ended behind it. -/
def single (move : State → Symbol → List Symbol → Option (Move State)) :
    Status State → Symbol → Option (Status State)
  | .reading state, symbol => (move state symbol []).map Move.status
  | .left state, _ => some (.left state)

/-- What a move does at once, single moves do one by one, and the state behind
it is good. -/
def Agrees (move : State → Symbol → List Symbol → Option (Move State))
    (good : State → Prop) (state : State) (symbol : Symbol)
    (rest : List Symbol) : Option (Move State) → Prop
  | none => exec (single move) (.reading state) (symbol :: rest) = none
  | some (.leave last) =>
      exec (single move) (.reading state) (symbol :: rest) = some (.left last)
  | some (.go next skip) => good next ∧
      exec (single move) (.reading state) (symbol :: rest.take skip) =
        some (.reading next)

/-- Moves from good states only shorten single ones. -/
def Shortens (move : State → Symbol → List Symbol → Option (Move State))
    (good : State → Prop) : Prop :=
  ∀ state, good state → ∀ symbol rest,
    Agrees move good state symbol rest (move state symbol rest)

variable {move : State → Symbol → List Symbol → Option (Move State)}

theorem loop_skip (state : State) (skip : ℕ) (text : List Symbol) :
    loop move state skip text = loop move state 0 (text.drop skip) := by
  induction skip generalizing text with
  | zero => rw [List.drop_zero]
  | succ skip induction =>
      cases text with
      | nil => rfl
      | cons symbol text =>
          rw [loop, induction, List.drop_succ_cons]

@[simp] theorem exec_left (state : State) (text : List Symbol) :
    exec (single move) (.left state) text = some (.left state) := by
  induction text with
  | nil => rfl
  | cons symbol text induction =>
      rw [exec_cons_of_some rfl, induction]

/-- Where every move is possible and keeps an invariant, so is every loop and
so does it. -/
theorem loop_invariant {good last : State → Prop}
    (moved : ∀ {state} symbol rest, good state →
      ∃ outcome, move state symbol rest = some outcome ∧
        outcome.Keeps good last)
    {state : State} (initially : good state) (skip : ℕ) (text : List Symbol) :
    ∃ status, loop move state skip text = some status ∧
      status.Keeps good last := by
  induction text generalizing state skip with
  | nil => exact ⟨.reading state, by cases skip <;> rfl, initially⟩
  | cons symbol rest induction =>
      cases skip with
      | succ skip => exact induction initially skip
      | zero =>
          obtain ⟨outcome, taken, holds⟩ := moved symbol rest initially
          rw [loop, taken]
          cases outcome with
          | go next skip => exact induction holds skip
          | leave next => exact ⟨.left next, rfl, holds⟩

/-- A scanner that shortens its moves reads as one that does not. -/
theorem loop_eq_exec {good : State → Prop} (shortens : Shortens move good)
    {state : State} (initially : good state) (text : List Symbol) :
    loop move state 0 text = exec (single move) (.reading state) text := by
  induction size : text.length using Nat.strong_induction_on
    generalizing state text with
  | _ size induction =>
      subst size
      cases text with
      | nil => rfl
      | cons symbol rest =>
          have moved := shortens state initially symbol rest
          rw [loop]
          cases taken : move state symbol rest with
          | none =>
              rw [taken] at moved
              exact moved.symm
          | some outcome =>
              rw [taken] at moved
              cases outcome with
              | leave last =>
                  exact moved.symm
              | go next skip =>
                  simp only at moved ⊢
                  have shorter : (rest.drop skip).length <
                      (symbol :: rest).length := by
                    rw [List.length_drop, List.length_cons]
                    omega
                  have whole : symbol :: rest =
                      symbol :: rest.take skip ++ rest.drop skip := by
                    rw [List.cons_append, List.take_append_drop]
                  rw [loop_skip, induction _ shorter moved.1 _ rfl, whole,
                    exec_append, moved.2, Option.bind_some]

/-! ## What a text does -/

/-- Behind the text the scanner is in the state. -/
def Reads (move : State → Symbol → List Symbol → Option (Move State))
    (state : State) (text : List Symbol) (next : State) : Prop :=
  exec (single move) (.reading state) text = some (.reading next)

theorem Reads.nil (state : State) : Reads move state [] state := rfl

theorem Reads.append {first second third : State} {text more : List Symbol}
    (front : Reads move first text second) (back : Reads move second more third) :
    Reads move first (text ++ more) third := by
  rw [Reads, exec_append, front]
  exact back

theorem Reads.cons {first second third : State} {symbol : Symbol}
    {text : List Symbol} {skip : ℕ}
    (taken : move first symbol [] = some (.go second skip))
    (rest : Reads move second text third) :
    Reads move first (symbol :: text) third := by
  have moved : single move (.reading first) symbol =
      some (.reading second) := by
    simp [single, taken, Move.status]
  exact (exec_cons_of_some moved text).trans rest

/-- From every state of the first kind the text leads to one of the second. -/
def Leads (move : State → Symbol → List Symbol → Option (Move State))
    (before : State → Prop) (text : List Symbol) (after : State → Prop) :
    Prop :=
  ∀ state, before state → ∃ next, Reads move state text next ∧ after next

variable {before between after : State → Prop}

theorem Leads.nil (before : State → Prop) : Leads move before [] before :=
  fun state holds => ⟨state, .nil state, holds⟩

theorem Leads.append {text more : List Symbol}
    (front : Leads move before text between)
    (back : Leads move between more after) :
    Leads move before (text ++ more) after := by
  intro state holds
  obtain ⟨middle, first, holds⟩ := front state holds
  obtain ⟨next, second, holds⟩ := back middle holds
  exact ⟨next, first.append second, holds⟩

theorem Leads.cons {symbol : Symbol} {text : List Symbol}
    (first : Leads move before [symbol] between)
    (rest : Leads move between text after) :
    Leads move before (symbol :: text) after :=
  first.append rest

theorem Leads.mono {text : List Symbol} {wider : State → Prop}
    (leads : Leads move before text between)
    (weaker : ∀ state, between state → wider state) :
    Leads move before text wider := by
  intro state holds
  obtain ⟨next, reads, holds⟩ := leads state holds
  exact ⟨next, reads, weaker next holds⟩

end Scanner

end Lib
