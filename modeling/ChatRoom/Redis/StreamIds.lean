import ChatRoom.Redis.Server
import Mathlib.Data.Prod.Lex

/-!
# Ids of stream entries

The order of the ids, their texts as bounds of a range, and the range that
reads a stream below an id.
-/

namespace ChatRoom

namespace Redis

namespace StreamId

instance : LinearOrder StreamId :=
  LinearOrder.lift' (fun id => toLex (id.ms, id.seq)) (by
    rintro ⟨ms, seq⟩ ⟨otherMs, otherSeq⟩ same
    cases same
    rfl)

theorem lt_iff (first second : StreamId) :
    first < second ↔ first.ms < second.ms ∨
      first.ms = second.ms ∧ first.seq < second.seq :=
  Prod.Lex.toLex_lt_toLex

/-- The id of a new entry lies above the last one. -/
theorem lt_next (last : StreamId) (now : Nat) : last < last.next now := by
  rw [lt_iff, next]
  split
  · rename_i later
    exact .inl later
  · exact .inr ⟨rfl, Nat.lt_succ_self _⟩

end StreamId

/-- A bound that excludes its id lets through what is below the id. -/
theorem notBelow_excl (bound id : StreamId) :
    (Bound.excl bound).notBelow id = decide (id < bound) := by
  obtain ⟨boundMs, boundSeq⟩ := bound
  obtain ⟨ms, seq⟩ := id
  simp only [Bound.notBelow, StreamId.le, StreamId.lt_iff, ne_eq,
    StreamId.mk.injEq]
  rw [Bool.eq_iff_iff]
  simp
  omega

/-! ## The text of an id -/

theorem parseId_text (missing : Nat) (id : StreamId) :
    parseId missing id.text = some id := by
  have noDash : (45 : UInt8) ∉ decimal id.ms := not_mem_decimal rfl _
  have split : splitFirst (ascii "-") id.text =
      some (decimal id.ms, decimal id.seq) := by
    rw [StreamId.text, List.append_assoc]
    exact splitFirst_byte noDash _
  simp only [parseId, split, parseDecimal_decimal]
  rfl

theorem parseBound_excl (missing : Nat) (id : StreamId) :
    parseBound missing (ascii "(" ++ id.text) = some (.excl id) := by
  have isParen : ascii "(" = [40] := by rfl
  have notMin : (40 : UInt8) :: id.text ≠ ascii "-" := by
    intro same
    cases (List.cons.inj same).1
  have notMax : (40 : UInt8) :: id.text ≠ ascii "+" := by
    intro same
    cases (List.cons.inj same).1
  rw [isParen, List.singleton_append, parseBound, if_neg notMin, if_neg notMax,
    parseId_text]
  rfl

/-- No byte of a text but its digits and the dash. -/
theorem mem_text {id : StreamId} {byte : UInt8} (member : byte ∈ id.text) :
    Byte.isDigit byte = true ∨ byte = 45 := by
  rw [StreamId.text, List.mem_append, List.mem_append] at member
  rcases member with (ms | dash) | seq
  · exact .inl (isDigit_of_mem_decimal ms)
  · exact .inr (List.mem_singleton.mp dash)
  · exact .inl (isDigit_of_mem_decimal seq)

end Redis

end ChatRoom
