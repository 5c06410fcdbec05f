import Mathlib.Data.List.Basic

/-!
# Readers that are fed piece by piece

A reader works through an input that arrives in pieces.  One move uses up part
of the input, or stops: because more input is needed, because the input is
wrong, or because a result is complete.  A reader that loses nothing when it
stops for more input gives the same results however the input is cut.
-/

namespace Lib

namespace Incremental

variable {State Symbol Out Err : Type}

/-- Why a reader stops, with the input that it has not used. -/
inductive Pause (State Symbol Out Err : Type) where
  | wait (state : State) (rest : List Symbol)
  | fail (error : Err)
  | out (result : Out) (state : State) (rest : List Symbol)

inductive Move (State Symbol Out Err : Type) where
  | go (state : State) (rest : List Symbol)
  | stop (pause : Pause State Symbol Out Err)

/-- The input that is still unused. -/
def Pause.rest : Pause State Symbol Out Err → Option (List Symbol)
  | .wait _ rest => some rest
  | .fail _ => none
  | .out _ _ rest => some rest

def Move.rest : Move State Symbol Out Err → Option (List Symbol)
  | .go _ rest => some rest
  | .stop pause => pause.rest

/-- What becomes of a pause when more input arrives. -/
def Pause.more (resume : State → List Symbol → Pause State Symbol Out Err)
    (extra : List Symbol) :
    Pause State Symbol Out Err → Pause State Symbol Out Err
  | .wait state rest => resume state (rest ++ extra)
  | .fail error => .fail error
  | .out result state rest => .out result state (rest ++ extra)

def Move.more (resume : State → List Symbol → Move State Symbol Out Err)
    (extra : List Symbol) :
    Move State Symbol Out Err → Move State Symbol Out Err
  | .go state rest => .go state (rest ++ extra)
  | .stop (.wait state rest) => resume state (rest ++ extra)
  | .stop (.fail error) => .stop (.fail error)
  | .stop (.out result state rest) => .stop (.out result state (rest ++ extra))

/-- At most `fuel` moves, up to the first pause. -/
def readWithin (move : State → List Symbol → Move State Symbol Out Err) :
    Nat → State → List Symbol → Pause State Symbol Out Err
  | 0, state, input => .wait state input
  | fuel + 1, state, input =>
      match move state input with
      | .go next rest => readWithin move fuel next rest
      | .stop pause => pause

/-- Moves up to the first pause.  Every move uses a symbol, so that the length
of the input is fuel enough. -/
def read (move : State → List Symbol → Move State Symbol Out Err)
    (state : State) (input : List Symbol) : Pause State Symbol Out Err :=
  readWithin move (input.length + 1) state input

/-- A reader whose moves use up input and do not depend on what has not arrived
yet. -/
structure Reader (State Symbol Out Err : Type) where
  move : State → List Symbol → Move State Symbol Out Err
  go_shrinks : ∀ {state input next rest},
    move state input = .go next rest → rest.length < input.length
  out_shrinks : ∀ {state input result next rest},
    move state input = .stop (.out result next rest) →
      rest.length < input.length
  suffix : ∀ {state input rest},
    (move state input).rest = some rest → rest <:+ input
  resumes : ∀ state input extra,
    move state (input ++ extra) = (move state input).more move extra

namespace Reader

variable (reader : Reader State Symbol Out Err)

/-- The reader up to its next pause. -/
def next (state : State) (input : List Symbol) : Pause State Symbol Out Err :=
  read reader.move state input

/-! ## Up to the next pause -/

theorem readWithin_eq_of_lt {state : State} {input : List Symbol}
    {fuel other : Nat} (enough : input.length < fuel)
    (enoughToo : input.length < other) :
    readWithin reader.move fuel state input =
      readWithin reader.move other state input := by
  induction fuel generalizing state input other with
  | zero => omega
  | succ fuel induction =>
      cases other with
      | zero => omega
      | succ other =>
          rw [readWithin, readWithin]
          cases moved : reader.move state input with
          | stop pause => rfl
          | go next rest =>
              have shorter := reader.go_shrinks moved
              exact induction (by omega) (by omega)

theorem next_of_stop {state : State} {input : List Symbol}
    {pause : Pause State Symbol Out Err}
    (moved : reader.move state input = .stop pause) :
    reader.next state input = pause := by
  rw [next, read, readWithin, moved]

/-- A machine that agrees with the reader on inputs up to a bound. -/
theorem read_eq_next {bound : ℕ}
    {move : State → List Symbol → Move State Symbol Out Err}
    (agrees : ∀ state input, input.length ≤ bound →
      move state input = reader.move state input)
    (state : State) {input : List Symbol} (fits : input.length ≤ bound) :
    read move state input = reader.next state input := by
  have within (fuel : ℕ) : ∀ state input, input.length ≤ bound →
      readWithin move fuel state input =
        readWithin reader.move fuel state input := by
    induction fuel with
    | zero => exact fun _ _ _ => rfl
    | succ fuel induction =>
        intro state input fits
        rw [readWithin, readWithin, agrees state input fits]
        cases moved : reader.move state input with
        | stop pause => rfl
        | go later rest =>
            have shorter := reader.go_shrinks moved
            exact induction later rest (by omega)
  exact within (input.length + 1) state input fits

theorem next_of_go {state later : State} {input rest : List Symbol}
    (moved : reader.move state input = .go later rest) :
    reader.next state input = reader.next later rest := by
  have shorter := reader.go_shrinks moved
  rw [next, read, readWithin, moved]
  exact reader.readWithin_eq_of_lt shorter (Nat.lt_succ_self _)

theorem next_congr {state other : State} {input inputToo : List Symbol}
    (same : reader.move state input = reader.move other inputToo) :
    reader.next state input = reader.next other inputToo := by
  cases moved : reader.move other inputToo with
  | go later rest =>
      rw [reader.next_of_go moved, reader.next_of_go (same.trans moved)]
  | stop pause =>
      rw [reader.next_of_stop moved, reader.next_of_stop (same.trans moved)]

/-- **Waiting loses nothing**: what the reader finds in an input is what it
finds when the end of the input comes later. -/
theorem next_append (state : State) (input extra : List Symbol) :
    reader.next state (input ++ extra) =
      (reader.next state input).more reader.next extra := by
  induction shorter : input.length using Nat.strongRecOn
    generalizing state input with
  | _ size induction =>
      have resumed := reader.resumes state input extra
      cases moved : reader.move state input with
      | go later rest =>
          rw [moved] at resumed
          have less := reader.go_shrinks moved
          rw [reader.next_of_go resumed, reader.next_of_go moved]
          exact induction rest.length (by omega) later rest rfl
      | stop pause =>
          rw [moved] at resumed
          rw [reader.next_of_stop moved]
          cases pause with
          | wait later rest => exact reader.next_congr resumed
          | fail error => exact reader.next_of_stop resumed
          | out result later rest => exact reader.next_of_stop resumed

/-- To ask again before more input has come changes nothing. -/
theorem next_of_wait {state later : State} {input rest : List Symbol}
    (found : reader.next state input = .wait later rest) :
    reader.next state input = reader.next later rest := by
  have again := reader.next_append state input []
  rw [List.append_nil, found] at again
  rw [found, again, Pause.more, List.append_nil]

theorem next_out_shrinks {state later : State} {input rest : List Symbol}
    {result : Out} (found : reader.next state input = .out result later rest) :
    rest.length < input.length := by
  induction shorter : input.length using Nat.strongRecOn
    generalizing state input with
  | _ size induction =>
      cases moved : reader.move state input with
      | go middle unread =>
          have less := reader.go_shrinks moved
          rw [reader.next_of_go moved] at found
          have := induction unread.length (by omega) found rfl
          omega
      | stop pause =>
          rw [reader.next_of_stop moved] at found
          subst found
          rw [← shorter]
          exact reader.out_shrinks moved

theorem next_suffix {state : State} {input rest : List Symbol}
    (stops : (reader.next state input).rest = some rest) : rest <:+ input := by
  induction shorter : input.length using Nat.strongRecOn
    generalizing state input with
  | _ size induction =>
      have kept {left : List Symbol} :
          (reader.move state input).rest = some left → left <:+ input :=
        reader.suffix
      cases moved : reader.move state input with
      | go middle unread =>
          have less := reader.go_shrinks moved
          rw [reader.next_of_go moved] at stops
          rw [moved] at kept
          exact (induction unread.length (by omega) stops rfl).trans (kept rfl)
      | stop pause =>
          rw [reader.next_of_stop moved] at stops
          rw [moved] at kept
          exact kept stops

/-- A result is put together in one move. -/
theorem next_out_move {state later : State} {input rest : List Symbol}
    {result : Out} (found : reader.next state input = .out result later rest) :
    ∃ last unread, reader.move last unread = .stop (.out result later rest) := by
  induction shorter : input.length using Nat.strongRecOn
    generalizing state input with
  | _ size induction =>
      cases moved : reader.move state input with
      | go middle unread =>
          have less := reader.go_shrinks moved
          rw [reader.next_of_go moved] at found
          exact induction unread.length (by omega) found rfl
      | stop pause =>
          rw [reader.next_of_stop moved] at found
          subst found
          exact ⟨state, input, moved⟩

/-! ## Result after result -/

/-- The reader hands out results, one after the other, and is then in front of
the rest of its input. -/
inductive Hands : State → List Symbol → List Out → State → List Symbol →
    Prop where
  | nil (state : State) (input : List Symbol) : Hands state input [] state input
  | cons {state later last : State} {input rest left : List Symbol}
      {result : Out} {results : List Out} :
      reader.next state input = .out result later rest →
      Hands later rest results last left →
      Hands state input (result :: results) last left

variable {reader}

theorem Hands.append {state last : State} {input left : List Symbol}
    {results : List Out} (hands : reader.Hands state input results last left)
    (extra : List Symbol) :
    reader.Hands state (input ++ extra) results last (left ++ extra) := by
  induction hands with
  | nil state input => exact .nil state (input ++ extra)
  | cons found _ induction =>
      apply Hands.cons _ induction
      rw [reader.next_append, found]
      rfl

/-- Of two lists of results of one input, one goes on where the other ends. -/
theorem Hands.prefix_or_prefix {state first second : State}
    {input left right : List Symbol} {results others : List Out}
    (hands : reader.Hands state input results first left)
    (handsToo : reader.Hands state input others second right) :
    (∃ more, results = others ++ more ∧
        reader.Hands second right more first left) ∨
      ∃ result more, others = results ++ result :: more ∧
        reader.Hands first left (result :: more) second right := by
  induction hands generalizing others with
  | nil state input =>
      cases handsToo with
      | nil => exact .inl ⟨[], rfl, .nil _ _⟩
      | cons found later => exact .inr ⟨_, _, rfl, .cons found later⟩
  | @cons state _ _ input _ _ result results found later induction =>
      cases handsToo with
      | nil => exact .inl ⟨result :: results, rfl, .cons found later⟩
      | cons foundToo laterToo =>
          cases found.symm.trans foundToo
          rcases induction laterToo with ⟨more, rfl, goesOn⟩ |
            ⟨next, more, rfl, goesOn⟩
          · exact .inl ⟨more, rfl, goesOn⟩
          · exact .inr ⟨next, more, rfl, goesOn⟩

theorem Hands.snoc {state last later : State} {input left rest : List Symbol}
    {results : List Out} {result : Out}
    (hands : reader.Hands state input results last left)
    (found : reader.next last left = .out result later rest) :
    reader.Hands state input (results ++ [result]) later rest := by
  induction hands with
  | nil state input => exact .cons found (.nil later rest)
  | cons first _ induction => exact .cons first (induction found)

end Reader

/-! ## A reader in use -/

/-- A reader between two results, with the input that it keeps, or one that has
met an error, which is final. -/
inductive Progress (State Symbol Err : Type) where
  | working (state : State) (unread : List Symbol)
  | failed (error : Err)

/-- A reader in use, with all that it has handed out. -/
structure Session (State Symbol Out Err : Type) where
  progress : Progress State Symbol Err
  handed : List Out

namespace Session

/-- A new piece of the input. -/
def feed (session : Session State Symbol Out Err) (piece : List Symbol) :
    Session State Symbol Out Err :=
  match session.progress with
  | .working state unread =>
      ⟨.working state (unread ++ piece), session.handed⟩
  | .failed error => ⟨.failed error, session.handed⟩

/-- The session when its reader has stopped. -/
def stopped (handed : List Out) :
    Pause State Symbol Out Err → Session State Symbol Out Err
  | .wait state rest => ⟨.working state rest, handed⟩
  | .fail error => ⟨.failed error, handed⟩
  | .out result state rest => ⟨.working state rest, handed ++ [result]⟩

variable (reader : Reader State Symbol Out Err)

/-- The session after it has been asked for a result. -/
def ask (session : Session State Symbol Out Err) :
    Session State Symbol Out Err :=
  match session.progress with
  | .working state unread =>
      stopped session.handed (reader.next state unread)
  | .failed error => ⟨.failed error, session.handed⟩

/-- Progress that leads where the reader gets from `origin` in front of
`rest`. -/
def GoesOnAs (origin : State) (rest : List Symbol) :
    Progress State Symbol Err → Prop
  | .working state unread =>
      reader.next state unread = reader.next origin rest
  | .failed error => reader.next origin rest = .fail error

/-- What the session has handed out is what the reader hands out when the whole
input is there from the beginning. -/
def Serves (start : State) (fed : List Symbol)
    (session : Session State Symbol Out Err) : Prop :=
  ∃ origin rest, reader.Hands start fed session.handed origin rest ∧
    GoesOnAs reader origin rest session.progress

variable {reader} {start : State} {fed : List Symbol}
variable {session : Session State Symbol Out Err}

theorem serves_start (start : State) :
    Serves reader start [] ⟨.working start [], []⟩ :=
  ⟨start, [], .nil start [], rfl⟩

theorem Serves.feed (serves : Serves reader start fed session)
    (piece : List Symbol) :
    Serves reader start (fed ++ piece) (session.feed piece) := by
  obtain ⟨progress, handed⟩ := session
  obtain ⟨origin, rest, hands, goesOn⟩ := serves
  cases progress with
  | working state unread =>
      have same : reader.next state unread = reader.next origin rest := goesOn
      refine ⟨origin, rest ++ piece, hands.append piece, ?_⟩
      change reader.next state (unread ++ piece) = _
      rw [reader.next_append, reader.next_append, same]
  | failed error =>
      have fails : reader.next origin rest = .fail error := goesOn
      refine ⟨origin, rest ++ piece, hands.append piece, ?_⟩
      change reader.next origin (rest ++ piece) = _
      rw [reader.next_append, fails]
      rfl

theorem Serves.ask (serves : Serves reader start fed session) :
    Serves reader start fed (session.ask reader) := by
  obtain ⟨progress, handed⟩ := session
  cases progress with
  | failed error => exact serves
  | working state unread =>
      obtain ⟨origin, rest, hands, goesOn⟩ := serves
      have same : reader.next state unread = reader.next origin rest := goesOn
      unfold Session.ask
      simp only []
      cases found : reader.next state unread with
      | wait later left =>
          refine ⟨origin, rest, hands, ?_⟩
          exact (reader.next_of_wait found).symm.trans same
      | fail error => exact ⟨origin, rest, hands, same.symm.trans found⟩
      | out result later left =>
          exact ⟨later, left, hands.snoc (same.symm.trans found), rfl⟩

end Session

end Incremental

end Lib
