import ChatRoom.Lib.Incremental

/-!
# Inputs taken in blocks

A state that is changed by one block of the input at a time.  The blocks are
counted from the beginning of the input, whatever the pieces in which it
comes, so that a machine that keeps the unfinished block in a buffer does what
a fold over the blocks of the whole input does.
-/

namespace Lib

namespace Blocks

open Incremental

variable {State Symbol : Type} (size : ℕ)
  (compress : State → List Symbol → State)

/-- One block, as long as there is a whole one. -/
def move (state : State) (input : List Symbol) :
    Move State Symbol Empty Empty :=
  if size ≤ input.length then
    .go (compress state (input.take size)) (input.drop size)
  else .stop (.wait state input)

/-- Blocks never end and never fail: the reader only waits for more. -/
def reader (positive : 0 < size) : Reader State Symbol Empty Empty where
  move := move size compress
  go_shrinks := by
    intro state input next rest moved
    unfold move at moved
    split at moved
    · rename_i whole
      cases moved
      rw [List.length_drop]
      omega
    · cases moved
  out_shrinks := by
    intro state input result
    cases result
  suffix := by
    intro state input rest kept
    unfold move at kept
    split at kept
    · cases kept
      exact List.drop_suffix size input
    · cases kept
      exact List.suffix_refl input
  resumes := by
    intro state input extra
    by_cases whole : size ≤ input.length
    · have longer : size ≤ (input ++ extra).length := by
        rw [List.length_append]
        omega
      rw [move, if_pos longer, move, if_pos whole,
        List.take_append_of_le_length whole,
        List.drop_append_of_le_length whole]
      rfl
    · rw [move.eq_def _ _ _ input, if_neg whole]
      rfl

/-- The state behind the whole blocks of an input, and the unfinished one. -/
def absorb (positive : 0 < size) (state : State) (input : List Symbol) :
    State × List Symbol :=
  match (reader size compress positive).next state input with
  | .wait state rest => (state, rest)
  | .out result _ _ => nomatch result
  | .fail error => nomatch error

variable {size compress} {positive : 0 < size} {state : State}
  {input : List Symbol}

theorem next_eq : (reader size compress positive).next state input =
    .wait (absorb size compress positive state input).1
      (absorb size compress positive state input).2 := by
  rw [absorb]
  cases (reader size compress positive).next state input with
  | wait state rest => rfl
  | out result _ _ => cases result
  | fail error => cases error

theorem absorb_short (short : input.length < size) :
    absorb size compress positive state input = (state, input) := by
  have stops : (reader size compress positive).move state input =
      .stop (.wait state input) :=
    if_neg (by omega)
  rw [absorb, Reader.next_of_stop _ stops]

/-- The first block of an input. -/
theorem absorb_block {block : List Symbol} (whole : block.length = size) :
    absorb size compress positive state (block ++ input) =
      absorb size compress positive (compress state block) input := by
  have moves : (reader size compress positive).move state (block ++ input) =
      .go (compress state block) input := by
    have longer : size ≤ (block ++ input).length := by
      rw [List.length_append]
      omega
    refine (if_pos longer).trans ?_
    rw [← whole, List.take_left, List.drop_left]
  rw [absorb, Reader.next_of_go _ moves]
  rfl

/-- **What is absorbed in pieces is absorbed at once.** -/
theorem absorb_append (extra : List Symbol) :
    absorb size compress positive state (input ++ extra) =
      absorb size compress positive
        (absorb size compress positive state input).1
        ((absorb size compress positive state input).2 ++ extra) := by
  rw [absorb, Reader.next_append, next_eq]
  rfl

theorem absorb_rest :
    (absorb size compress positive state input).2.length =
      input.length % size := by
  induction length : input.length using Nat.strongRecOn
    generalizing state input with
  | _ count induction =>
      by_cases short : input.length < size
      · rw [absorb_short short, ← length, Nat.mod_eq_of_lt short]
      · obtain ⟨block, rest, rfl, whole⟩ :
            ∃ block rest, input = block ++ rest ∧ block.length = size := by
          refine ⟨input.take size, input.drop size, ?_, ?_⟩
          · rw [List.take_append_drop]
          · rw [List.length_take]
            omega
        rw [List.length_append, whole] at length
        rw [absorb_block whole, induction rest.length (by omega) rfl, ← length,
          Nat.add_mod_left]

/-- What is left is the end of the input. -/
theorem absorb_drop :
    (absorb size compress positive state input).2 =
      input.drop (input.length - input.length % size) := by
  have suffix : (absorb size compress positive state input).2 <:+ input := by
    apply (reader size compress positive).next_suffix
    rw [next_eq]
    rfl
  rw [List.suffix_iff_eq_drop, absorb_rest] at suffix
  exact suffix

/-- Whole blocks, and what follows them. -/
theorem absorb_whole {whole : List Symbol} (blocks : size ∣ whole.length)
    (short : input.length < size) :
    absorb size compress positive state (whole ++ input) =
      ((absorb size compress positive state whole).1, input) := by
  have none : (absorb size compress positive state whole).2 = [] := by
    rw [← List.length_eq_zero_iff, absorb_rest]
    exact Nat.mod_eq_zero_of_dvd blocks
  rw [absorb_append, none, List.nil_append, absorb_short short]

/-- The machine that takes whole blocks out of its input. -/
theorem read_move :
    read (move size compress) state input =
      .wait (absorb size compress positive state input).1
        (absorb size compress positive state input).2 :=
  next_eq

end Blocks

end Lib
