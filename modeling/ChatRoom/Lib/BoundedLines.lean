import Mathlib.Data.List.Basic

/-!
# Reading lines into a buffer

A reader that takes a text up to the end of a line, but no more at a time than
its buffer holds.  Short lines come out one by one; where the end of a line is
missing, lines are glued together, and fewer pieces come out than lines went
in.
-/

namespace Lib

namespace BoundedLines

variable {Symbol : Type} [DecidableEq Symbol] (newline : Symbol) (bound : ℕ)

/-- The pieces of a text, with what is in the buffer already. -/
def pieces (current : List Symbol) : List Symbol → List (List Symbol)
  | [] => if current = [] then [] else [current]
  | symbol :: rest =>
      if symbol = newline ∨ current.length + 1 = bound then
        (current ++ [symbol]) :: pieces [] rest
      else pieces (current ++ [symbol]) rest

variable {newline bound} {current text rest : List Symbol}

/-- What does not fill the buffer waits for the rest. -/
theorem pieces_append (noNewline : newline ∉ text)
    (fits : current.length + text.length < bound) :
    pieces newline bound current (text ++ rest) =
      pieces newline bound (current ++ text) rest := by
  induction text generalizing current with
  | nil => rw [List.append_nil, List.nil_append]
  | cons symbol text induction =>
      rw [List.length_cons] at fits
      have goesOn : ¬ (symbol = newline ∨ current.length + 1 = bound) := by
        rintro (isNewline | full)
        · exact noNewline (List.mem_cons.mpr (.inl isNewline.symm))
        · omega
      rw [List.cons_append, pieces, if_neg goesOn, induction]
      · rw [List.append_assoc, List.singleton_append]
      · exact fun member => noNewline (List.mem_cons_of_mem _ member)
      · rw [List.length_append, List.length_singleton]
        omega

/-- A piece ends with its line or with the buffer. -/
theorem pieces_cut {symbol : Symbol} (noNewline : newline ∉ text)
    (fits : current.length + text.length < bound)
    (ends : symbol = newline ∨ current.length + text.length + 1 = bound) :
    pieces newline bound current (text ++ symbol :: rest) =
      (current ++ text ++ [symbol]) :: pieces newline bound [] rest := by
  rw [pieces_append noNewline fits, pieces, List.length_append, if_pos ends]

theorem pieces_append_nil (noNewline : newline ∉ text)
    (fits : text.length < bound) :
    pieces newline bound [] (text ++ rest) =
      pieces newline bound text rest := by
  apply pieces_append noNewline
  rw [List.length_nil, Nat.zero_add]
  exact fits

/-- A line that fits into the empty buffer is a piece. -/
theorem pieces_line (noNewline : newline ∉ text)
    (fits : text.length < bound) :
    pieces newline bound [] (text ++ newline :: rest) =
      (text ++ [newline]) :: pieces newline bound [] rest := by
  apply pieces_cut noNewline
  · rw [List.length_nil, Nat.zero_add]
    exact fits
  · exact .inl rfl

/-- The end of a line stands at the end of a piece only. -/
theorem newline_not_mem_dropLast (noNewline : newline ∉ current)
    {piece : List Symbol} (member : piece ∈ pieces newline bound current text) :
    newline ∉ piece.dropLast := by
  induction text generalizing current with
  | nil =>
      rw [pieces] at member
      split at member
      · cases member
      · rw [List.mem_singleton.mp member]
        exact fun inside => noNewline (List.dropLast_subset current inside)
  | cons symbol text induction =>
      rw [pieces] at member
      split at member
      · rcases List.mem_cons.mp member with first | later
        · rw [first, List.dropLast_concat]
          exact noNewline
        · exact induction List.not_mem_nil later
      · rename_i goesOn
        apply induction _ member
        intro inside
        rcases List.mem_append.mp inside with before | last
        · exact noNewline before
        · exact goesOn (.inl (List.mem_singleton.mp last).symm)

/-! ## Whole lines -/

variable (newline) in
/-- A text with the end of its line, which fits into the buffer. -/
def IsWhole (bound : ℕ) (line : List Symbol) : Prop :=
  ∃ text, line = text ++ [newline] ∧ newline ∉ text ∧ text.length < bound

/-- Whole lines come out as they are. -/
theorem pieces_flatten {lines : List (List Symbol)}
    (whole : ∀ line ∈ lines, IsWhole newline bound line) :
    pieces newline bound [] (lines.flatten ++ rest) =
      lines ++ pieces newline bound [] rest := by
  induction lines with
  | nil => rfl
  | cons line lines induction =>
      obtain ⟨⟨text, rfl, noNewline, fits⟩, others⟩ :=
        List.forall_mem_cons.mp whole
      rw [List.flatten_cons, List.append_assoc, List.append_assoc,
        List.singleton_append, pieces_line noNewline fits, induction others]
      rfl

/-! ## Lines without an end -/

variable (newline) in
/-- A line that may lack its end. -/
structure IsShort (short : ℕ) (line : List Symbol) : Prop where
  length_le : line.length ≤ short
  inside : newline ∉ line.dropLast

/-- How many pieces come out of a number of lines, by what is in the buffer:
nothing, as much as one line, or more. -/
def room (short carry lines : ℕ) : ℕ :=
  if carry = 0 then lines
  else if carry ≤ short then max lines 1
  else lines + 1

theorem IsShort.cases {short : ℕ} {line : List Symbol}
    (isShort : IsShort newline short line) :
    newline ∉ line ∨ ∃ text, line = text ++ [newline] ∧ newline ∉ text := by
  rcases List.eq_nil_or_concat line with rfl | ⟨text, last, rfl⟩
  · exact .inl List.not_mem_nil
  · have inside := isShort.inside
    rw [List.concat_eq_append, List.dropLast_concat] at inside
    by_cases isNewline : last = newline
    · refine .inr ⟨text, ?_, inside⟩
      rw [List.concat_eq_append, isNewline]
    · left
      rw [List.concat_eq_append]
      intro member
      rcases List.mem_append.mp member with before | atEnd
      · exact inside before
      · exact isNewline (List.mem_singleton.mp atEnd).symm

/-- A text that does not fit fills the buffer and leaves some of it for the
next piece. -/
theorem pieces_overflow (noNewline : newline ∉ text)
    (room_left : current.length < bound)
    (tooLong : bound ≤ current.length + text.length) :
    ∃ piece behind, newline ∉ behind ∧ behind.length < text.length ∧
      ∀ rest, pieces newline bound current (text ++ rest) =
        piece :: pieces newline bound [] (behind ++ rest) := by
  have inside : bound - current.length - 1 < text.length := by omega
  refine ⟨current ++ text.take (bound - current.length - 1) ++
    [text[bound - current.length - 1]], text.drop (bound - current.length),
    ?_, ?_, ?_⟩
  · exact fun member => noNewline (List.mem_of_mem_drop member)
  · rw [List.length_drop]
    omega
  · intro rest
    have front : newline ∉ text.take (bound - current.length - 1) :=
      fun member => noNewline (List.mem_of_mem_take member)
    have next : bound - current.length - 1 + 1 = bound - current.length := by
      omega
    have split : text = text.take (bound - current.length - 1) ++
        text[bound - current.length - 1] ::
          text.drop (bound - current.length) := by
      calc
        text = text.take (bound - current.length - 1) ++
            text.drop (bound - current.length - 1) :=
          (List.take_append_drop _ text).symm
        _ = _ := by rw [List.drop_eq_getElem_cons inside, next]
    have size : (text.take (bound - current.length - 1)).length =
        bound - current.length - 1 := by
      rw [List.length_take]
      omega
    conv_lhs => rw [split, List.append_assoc, List.cons_append]
    exact pieces_cut front (by omega) (.inr (by omega))

section Counting

variable {short : ℕ} {lines : List (List Symbol)}

/-- Short lines give at most as many pieces as there is room for. -/
theorem length_pieces_le (small : 2 * short < bound)
    (isShort : ∀ line ∈ lines, IsShort newline short line)
    (carry : current.length < bound) :
    (pieces newline bound current lines.flatten).length ≤
      room short current.length lines.length := by
  induction lines generalizing current with
  | nil =>
      rw [List.flatten_nil, pieces, room]
      split
      · rename_i nothing
        rw [nothing]
        exact Nat.zero_le _
      · rename_i something
        have := List.length_pos_iff.mpr something
        rw [List.length_singleton, List.length_nil]
        split_ifs <;> omega
  | cons line lines induction =>
      obtain ⟨first, others⟩ := List.forall_mem_cons.mp isShort
      have bounded := first.length_le
      have after : ∀ carried : List Symbol, carried.length ≤ short →
          (pieces newline bound carried lines.flatten).length ≤
            lines.length + 1 := by
        intro carried notLong
        have counted : (pieces newline bound carried lines.flatten).length ≤
            room short carried.length lines.length :=
          induction others (by omega)
        rw [room] at counted
        split_ifs at counted <;> omega
      have afterAll : (pieces newline bound [] lines.flatten).length ≤
          lines.length := induction others (by rw [List.length_nil]; omega)
      rw [List.flatten_cons, List.length_cons]
      rcases first.cases with open_line | ⟨text, rfl, noNewline⟩
      · by_cases fits : current.length + line.length < bound
        · rw [pieces_append open_line fits]
          rw [← List.length_append] at fits
          have counted := induction others fits
          apply Nat.le_trans counted
          rw [List.length_append, room, room]
          split_ifs <;> omega
        · obtain ⟨piece, behind, noNewline, shorter, split⟩ :=
            pieces_overflow open_line carry (Nat.le_of_not_lt fits)
          rw [split, pieces_append_nil noNewline (by omega), List.length_cons]
          have counted := after behind (by omega)
          rw [room]
          split_ifs <;> omega
      · rw [List.length_append, List.length_singleton] at bounded
        rw [List.append_assoc, List.singleton_append]
        by_cases fits : current.length + text.length < bound
        · rw [pieces_cut noNewline fits (.inl rfl), List.length_cons]
          rw [room]
          split_ifs <;> omega
        · obtain ⟨piece, behind, noNewline, shorter, split⟩ :=
            pieces_overflow noNewline carry (Nat.le_of_not_lt fits)
          rw [split, pieces_line noNewline (by omega), List.length_cons,
            List.length_cons]
          rw [room]
          split_ifs <;> omega

/-- Where as many pieces come out as lines went in, only the last line can
lack its end. -/
theorem isWhole_of_length_le (small : 2 * short < bound)
    (isShort : ∀ line ∈ lines, IsShort newline short line)
    (enough : lines.length ≤ (pieces newline bound [] lines.flatten).length) :
    ∀ line ∈ lines.dropLast, IsWhole newline bound line := by
  induction lines with
  | nil => simp
  | cons line lines induction =>
      obtain ⟨first, others⟩ := List.forall_mem_cons.mp isShort
      have bounded := first.length_le
      by_cases last : lines = []
      · rw [last]
        simp
      · have positive := List.length_pos_iff.mpr last
        rw [List.dropLast_cons_of_ne_nil last]
        rw [List.flatten_cons, List.length_cons] at enough
        rcases first.cases with open_line | ⟨text, rfl, noNewline⟩
        · -- an open line leaves room for fewer pieces
          rw [pieces_append_nil open_line (by omega)] at enough
          have counted : (pieces newline bound line lines.flatten).length ≤
              room short line.length lines.length :=
            length_pieces_le small others (by omega)
          rw [room] at counted
          split_ifs at counted <;> omega
        · rw [List.length_append, List.length_singleton] at bounded
          rw [List.append_assoc, List.singleton_append,
            pieces_line noNewline (by omega), List.length_cons] at enough
          intro line member
          rcases List.mem_cons.mp member with rfl | later
          · exact ⟨text, rfl, noNewline, by omega⟩
          · exact induction others (by omega) line later

end Counting

end BoundedLines

end Lib
