import ChatRoom.Base.Md5

/-!
# What `MD5` computes

The digest of an input that comes in pieces is that of the whole input: the
fold of `transform` over its blocks, padded as the algorithm says.  To ask for
it a second time gives the digest of another input when the padding has taken a
block of its own, for then the buffer no longer holds the end of the input.
-/

namespace ChatRoom

namespace MD5

open Lib.Blocks (absorb)

/-! ## The algorithm -/

/-- The fold over the blocks, and the bytes behind the last one. -/
def blocks (state : MD5State) (text : Str) : MD5State × Str :=
  absorb 64 transform (by decide) state text

def stateBytes (state : MD5State) : Str :=
  encode [state.a, state.b, state.c, state.d]

/-- The number of bits as eight bytes, modulo 2^64. -/
def lengthBytes (length : ℕ) : Str :=
  encode [UInt32.ofNat (8 * length), UInt32.ofNat (8 * length / 2 ^ 32)]

def padLen (length : ℕ) : ℕ :=
  if length % 64 < 56 then 56 - length % 64 else 120 - length % 64

/-- The message up to 56 bytes of its last block. -/
def padBytes (message : Str) : Str :=
  message ++ padding.take (padLen message.length)

/-- The algorithm on a whole message. -/
def md5 (message : Str) : Str :=
  stateBytes (blocks initial (padBytes message ++
    lengthBytes message.length)).1

/-! ## The counters -/

theorem index_eq {m : MD5} {length : ℕ}
    (low : m.low = UInt32.ofNat (8 * length)) : m.index = length % 64 := by
  rw [index, low, UInt32.toNat_and, UInt32.toNat_shiftRight,
    UInt32.toNat_ofNat']
  have mask : (0x3f : UInt32).toNat = 2 ^ 6 - 1 := rfl
  have shift : (3 : UInt32).toNat % 32 = 3 := rfl
  rw [mask, shift, Nat.and_two_pow_sub_one_eq_mod, Nat.shiftRight_eq_div_pow]
  omega

/-- The two words count the bits modulo 2^64. -/
theorem count_eq {m : MD5} {length more : ℕ}
    (low : m.low = UInt32.ofNat (8 * length))
    (high : m.high = UInt32.ofNat (8 * length / 2 ^ 32))
    (fits : more < 2 ^ 32) :
    m.count more = (UInt32.ofNat (8 * (length + more)),
      UInt32.ofNat (8 * (length + more) / 2 ^ 32)) := by
  have bits : (UInt32.ofNat more <<< 3).toNat = 8 * more % 2 ^ 32 := by
    rw [UInt32.toNat_shiftLeft, UInt32.toNat_ofNat']
    have shift : (3 : UInt32).toNat % 32 = 3 := rfl
    rw [shift, Nat.shiftLeft_eq]
    omega
  have top : (UInt32.ofNat more >>> 29).toNat = more / 2 ^ 29 := by
    rw [UInt32.toNat_shiftRight, UInt32.toNat_ofNat']
    have shift : (29 : UInt32).toNat % 32 = 29 := rfl
    rw [shift, Nat.shiftRight_eq_div_pow]
    omega
  have lowSum : (m.low + UInt32.ofNat more <<< 3).toNat =
      8 * (length + more) % 2 ^ 32 := by
    rw [UInt32.toNat_add, bits, low, UInt32.toNat_ofNat']
    omega
  have carry : (if m.low + UInt32.ofNat more <<< 3 < UInt32.ofNat more <<< 3
      then m.high + 1 else m.high).toNat =
        (8 * length / 2 ^ 32 +
          (8 * length % 2 ^ 32 + 8 * more % 2 ^ 32) / 2 ^ 32) % 2 ^ 32 := by
    have one : (1 : UInt32).toNat = 1 := rfl
    split_ifs with overflows
    · rw [UInt32.lt_iff_toNat_lt, lowSum, bits] at overflows
      rw [UInt32.toNat_add, high, UInt32.toNat_ofNat', one]
      omega
    · rw [UInt32.lt_iff_toNat_lt, lowSum, bits] at overflows
      rw [high, UInt32.toNat_ofNat']
      omega
  apply Prod.ext
  · apply UInt32.toNat_inj.mp
    rw [UInt32.toNat_ofNat']
    exact lowSum
  · apply UInt32.toNat_inj.mp
    change (_ + UInt32.ofNat more >>> 29).toNat = _
    rw [UInt32.toNat_add, carry, top, UInt32.toNat_ofNat']
    omega

/-! ## The buffer -/

theorem overwrite_length {buffer bytes : Str} {index : ℕ}
    (fits : index + bytes.length ≤ buffer.length) :
    (overwrite buffer index bytes).length = buffer.length := by
  simp only [overwrite, List.length_append, List.length_take,
    List.length_drop]
  omega

/-- The buffer up to the end of what has been written. -/
theorem overwrite_take {buffer bytes : Str} {index : ℕ}
    (fits : index + bytes.length ≤ buffer.length) :
    (overwrite buffer index bytes).take (index + bytes.length) =
      buffer.take index ++ bytes := by
  have size : (buffer.take index ++ bytes).length = index + bytes.length := by
    rw [List.length_append, List.length_take]
    omega
  rw [overwrite, ← size, List.take_left]

/-- What is written up to the end of the buffer. -/
theorem overwrite_full {buffer bytes : Str} {index : ℕ}
    (fills : index + bytes.length = buffer.length) :
    overwrite buffer index bytes = buffer.take index ++ bytes := by
  rw [overwrite, fills, List.drop_length, List.append_nil]

/-- The object holds an input: the state behind its blocks, its number of bits
and, in the buffer, what is behind the last block. -/
structure Holds (m : MD5) (fed : Str) : Prop where
  low : m.low = UInt32.ofNat (8 * fed.length)
  high : m.high = UInt32.ofNat (8 * fed.length / 2 ^ 32)
  size : m.buffer.length = 64
  blocks : blocks initial fed = (m.state, m.buffer.take (fed.length % 64))

theorem Holds.index {m : MD5} {fed : Str} (holds : m.Holds fed) :
    m.index = fed.length % 64 :=
  index_eq holds.low

theorem blocks_short {state : MD5State} {text : Str}
    (short : text.length < 64) : blocks state text = (state, text) :=
  Lib.Blocks.absorb_short short

theorem blocks_block {state : MD5State} {block text : Str}
    (whole : block.length = 64) :
    blocks state (block ++ text) = blocks (transform state block) text :=
  Lib.Blocks.absorb_block whole

/-- What is fed next is absorbed behind the unfinished block. -/
theorem Holds.blocks_append {m : MD5} {fed : Str} (holds : m.Holds fed)
    (input : Str) :
    MD5.blocks initial (fed ++ input) =
      MD5.blocks m.state (m.buffer.take (fed.length % 64) ++ input) := by
  have whole : MD5.blocks initial (fed ++ input) =
      MD5.blocks (MD5.blocks initial fed).1
        ((MD5.blocks initial fed).2 ++ input) :=
    Lib.Blocks.absorb_append input
  rw [whole, holds.blocks]

theorem Holds.create (buffer digestBytes : Str) (size : buffer.length = 64) :
    (create buffer digestBytes).Holds [] where
  low := rfl
  high := rfl
  size := size
  blocks := blocks_short (by decide)

/-- The lengths for which the index of `update` stays in 32 bits. -/
def Fits (input : Str) : Prop := input.length + 64 ≤ 2 ^ 32

/-- `update` in one equation for each branch. -/
theorem update_short {m : MD5} {input : Str}
    (short : input.length < 64 - m.index) :
    m.update input =
      { m with
        low := (m.count input.length).1
        high := (m.count input.length).2
        buffer := overwrite m.buffer m.index input
        finished := false } := by
  unfold update
  exact if_neg (by omega)

theorem update_long {m : MD5} {input : Str}
    (long : 64 - m.index ≤ input.length) :
    m.update input =
      { m with
        state := (MD5.blocks (transform m.state
          (overwrite m.buffer m.index (input.take (64 - m.index))))
          (input.drop (64 - m.index))).1
        low := (m.count input.length).1
        high := (m.count input.length).2
        buffer := overwrite
          (overwrite m.buffer m.index (input.take (64 - m.index))) 0
          (MD5.blocks (transform m.state
            (overwrite m.buffer m.index (input.take (64 - m.index))))
            (input.drop (64 - m.index))).2
        finished := false } := by
  unfold update
  refine (if_pos long).trans ?_
  dsimp only
  rw [Lib.Blocks.read_move]
  rfl

/-- **`update` keeps what the object holds.** -/
theorem Holds.update {m : MD5} {fed input : Str} (holds : m.Holds fed)
    (fits : Fits input) : (m.update input).Holds (fed ++ input) := by
  have index := holds.index
  have size := holds.size
  have below := Nat.mod_lt fed.length (show 64 > 0 by decide)
  have counted := count_eq holds.low holds.high
    (show input.length < 2 ^ 32 by unfold Fits at fits; omega)
  rw [← List.length_append] at counted
  have absorbed := holds.blocks_append input
  rcases Nat.lt_or_ge input.length (64 - m.index) with short | long
  · have room : m.index + input.length ≤ m.buffer.length := by omega
    have behind : (fed ++ input).length % 64 = m.index + input.length := by
      rw [List.length_append]
      omega
    rw [update_short short, counted]
    constructor
    · rfl
    · rfl
    · exact (overwrite_length room).trans size
    · rw [absorbed, behind, overwrite_take room, index]
      refine blocks_short ?_
      rw [List.length_append, List.length_take]
      omega
  · have part : (input.take (64 - m.index)).length = 64 - m.index := by
      rw [List.length_take]
      omega
    have filled : overwrite m.buffer m.index (input.take (64 - m.index)) =
        m.buffer.take m.index ++ input.take (64 - m.index) :=
      overwrite_full (by omega)
    have whole : (overwrite m.buffer m.index
        (input.take (64 - m.index))).length = 64 := by
      rw [overwrite_length (by omega), size]
    have passed : MD5.blocks initial (fed ++ input) =
        MD5.blocks (transform m.state (overwrite m.buffer m.index
          (input.take (64 - m.index)))) (input.drop (64 - m.index)) := by
      rw [absorbed, ← blocks_block whole, filled, index, List.append_assoc,
        List.take_append_drop]
    have rest : (MD5.blocks initial (fed ++ input)).2.length =
        (fed ++ input).length % 64 :=
      Lib.Blocks.absorb_rest
    have room : 0 + (MD5.blocks initial (fed ++ input)).2.length ≤
        (overwrite m.buffer m.index (input.take (64 - m.index))).length := by
      have bound := Nat.mod_lt (fed ++ input).length (show 64 > 0 by decide)
      omega
    rw [update_long long, counted, ← passed]
    constructor
    · rfl
    · rfl
    · exact (overwrite_length room).trans whole
    · have written := overwrite_take room
      rw [Nat.zero_add, rest, List.take_zero, List.nil_append] at written
      change _ = (_, List.take _ (overwrite _ _ _))
      rw [written]

/-! ## The padding -/

theorem length_padding (message : Str) :
    (padding.take (padLen message.length)).length = padLen message.length := by
  have whole : padding.length = 64 := rfl
  have below := Nat.mod_lt message.length (show 64 > 0 by decide)
  rw [List.length_take, whole]
  unfold padLen
  split_ifs <;> omega

theorem padded_mod (message : Str) : (padBytes message).length % 64 = 56 := by
  have below := Nat.mod_lt message.length (show 64 > 0 by decide)
  rw [padBytes, List.length_append, length_padding]
  unfold padLen
  split_ifs <;> omega

theorem length_encode (words : List UInt32) :
    (encode words).length = 4 * words.length := by
  induction words with
  | nil => rfl
  | cons word words induction =>
      rw [encode, List.flatMap_cons, List.length_append]
      change 4 + (encode words).length = _
      rw [induction, List.length_cons]
      omega

theorem length_lengthBytes (length : ℕ) : (lengthBytes length).length = 8 :=
  length_encode _

/-- The end of the padded message up to the length: the beginning of its last
block. -/
def lastBlock (message : Str) : Str :=
  (padBytes message).drop ((padBytes message).length - 56)

/-- What the object holds after its digest: behind the last whole block, the
beginning of the last block of the padded message. -/
def again (fed : Str) : Str :=
  fed.take (fed.length - fed.length % 64) ++
    (lastBlock fed ++ lengthBytes fed.length).take (fed.length % 64)

theorem length_lastBlock (message : Str) :
    (lastBlock message).length = 56 := by
  have whole := padded_mod message
  rw [lastBlock, List.length_drop]
  omega

theorem length_again (fed : Str) : (again fed).length = fed.length := by
  have below := Nat.mod_lt fed.length (show 64 > 0 by decide)
  simp only [again, List.length_append, List.length_take, length_lastBlock,
    length_lengthBytes]
  omega

/-- A message that leaves room for the length is still there. -/
theorem again_eq_self {fed : Str} (room : fed.length % 64 < 56) :
    again fed = fed := by
  have pad : padLen fed.length = 56 - fed.length % 64 := if_pos room
  have start : (padBytes fed).length - 56 =
      fed.length - fed.length % 64 := by
    rw [padBytes, List.length_append, length_padding, pad]
    omega
  have kept : fed.length - fed.length % 64 ≤ fed.length := Nat.sub_le _ _
  have rest : (fed.drop (fed.length - fed.length % 64)).length =
      fed.length % 64 := by
    rw [List.length_drop]
    omega
  rw [again, lastBlock, start, padBytes, List.drop_append_of_le_length kept,
    List.append_assoc, List.take_left' rest, List.take_append_drop]

/-- Behind the padding the buffer ends in the length. -/
theorem buffer_of_bits {m : MD5} {fed bits : Str} (holds : m.Holds fed)
    (behind : fed.length % 64 = 56) (size : bits.length = 8) :
    (m.update bits).buffer = m.buffer.take 56 ++ bits := by
  have index : m.index = 56 := holds.index.trans behind
  have part : 64 - m.index = 8 := by omega
  have all : bits.take (64 - m.index) = bits := by
    rw [part, ← size, List.take_length]
  have none : bits.drop (64 - m.index) = [] := by
    rw [part, ← size, List.drop_length]
  have length := holds.size
  have filled : overwrite m.buffer m.index bits = m.buffer.take 56 ++ bits := by
    rw [index]
    exact overwrite_full (by omega)
  rw [update_long (by omega), all, none, filled, blocks_short (by decide)]
  rfl

/-- **The digest is that of the input, and the object then holds `again`.** -/
theorem Holds.final {m : MD5} {fed : Str} (holds : m.Holds fed) :
    m.final.Holds (again fed) ∧ m.final.digestBytes = md5 fed := by
  have below := Nat.mod_lt fed.length (show 64 > 0 by decide)
  have pads : (if m.index < 56 then 56 - m.index else 120 - m.index) =
      padLen fed.length := by
    rw [holds.index]
    rfl
  have bits : encode [m.low, m.high] = lengthBytes fed.length := by
    rw [holds.low, holds.high]
    rfl
  have size : (encode [m.low, m.high]).length = 8 := length_encode _
  have small : Fits (padding.take (padLen fed.length)) := by
    unfold Fits
    rw [length_padding]
    unfold padLen
    split_ifs <;> omega
  have padded : (m.update (padding.take (padLen fed.length))).Holds
      (padBytes fed) :=
    holds.update small
  have whole := padded.update (show Fits (encode [m.low, m.high]) by
    unfold Fits
    omega)
  have ends := buffer_of_bits padded (padded_mod fed) size
  have tail : (m.update (padding.take (padLen fed.length))).buffer.take 56 =
      lastBlock fed := by
    have rest := congrArg Prod.snd padded.blocks
    rw [MD5.blocks, Lib.Blocks.absorb_drop, padded_mod] at rest
    exact rest.symm
  have state := congrArg Prod.fst whole.blocks
  rw [tail, bits] at ends
  constructor
  · constructor
    · rw [length_again]
      exact holds.low
    · rw [length_again]
      exact holds.high
    · unfold MD5.final
      rw [pads]
      exact whole.size
    · have first : 64 ∣ (fed.take (fed.length - fed.length % 64)).length := by
        rw [List.length_take]
        omega
      have own : (MD5.blocks initial
          (fed.take (fed.length - fed.length % 64))).1 = m.state := by
        have split := congrArg Prod.fst holds.blocks
        rw [← List.take_append_drop (fed.length - fed.length % 64) fed,
          MD5.blocks, Lib.Blocks.absorb_whole first (by
            rw [List.length_drop]
            omega)] at split
        exact split
      unfold MD5.final
      rw [pads]
      dsimp only
      rw [length_again, bits, ends, again, MD5.blocks,
        Lib.Blocks.absorb_whole first (by
          rw [List.length_take]
          omega)]
      exact congrArg (·, _) own
  · unfold MD5.final
    rw [pads]
    dsimp only
    rw [md5, ← bits]
    exact congrArg stateBytes state.symm

/-! ## An object in use -/

/-- The calls that the class offers. -/
inductive Call
  | update (input : Str)
  | reset
  | toString

/-- A call: the object behind it, and what it returns. -/
def call (m : MD5) : Call → MD5 × Option Str
  | .update input => (m.update input, none)
  | .reset => (m.reset, none)
  | .toString =>
      let (m, text) := m.toString
      (m, some text)

/-- What some calls return, one after the other. -/
def results (m : MD5) : List Call → List Str
  | [] => []
  | one :: calls => (m.call one).2.toList ++ results (m.call one).1 calls

/-- The input that an object holds behind a call. -/
def feed (fed : Str) : Call → Str
  | .update input => fed ++ input
  | .reset => []
  | .toString => again fed

/-- What the calls should return for the inputs that the object holds. -/
def answers (fed : Str) : List Call → List Str
  | [] => []
  | .toString :: calls =>
      bytesToHexString (md5 fed) :: answers (feed fed .toString) calls
  | one :: calls => answers (feed fed one) calls

/-- No input is too long for `update`. -/
def Call.Fits : Call → Prop
  | .update input => MD5.Fits input
  | _ => True

/-- `final` takes the mark of `digest` away again. -/
theorem final_finished (m : MD5) : m.final.finished = false := by
  have updated (m : MD5) (input : Str) : (m.update input).finished = false := by
    rcases Nat.lt_or_ge input.length (64 - m.index) with short | long
    · rw [update_short short]
    · rw [update_long long]
  exact updated _ _

/-- One call keeps the input that the object holds, and returns its digest. -/
theorem Holds.call {m : MD5} {fed : Str} (holds : m.Holds fed)
    (open_ : m.finished = false) {one : Call} (fits : one.Fits) :
    (m.call one).1.Holds (feed fed one) ∧
      (m.call one).1.finished = false ∧
      ∀ calls, (m.call one).2.toList ++ answers (feed fed one) calls =
        answers fed (one :: calls) := by
  cases one with
  | update input =>
      refine ⟨holds.update fits, ?_, fun calls => rfl⟩
      rcases Nat.lt_or_ge input.length (64 - m.index) with short | long
      · rw [MD5.call, update_short short]
      · rw [MD5.call, update_long long]
  | reset =>
      have fresh := Holds.create m.buffer m.digestBytes holds.size
      exact ⟨fresh, rfl, fun calls => rfl⟩
  | toString =>
      have marked : { m with finished := true }.Holds fed :=
        ⟨holds.low, holds.high, holds.size, holds.blocks⟩
      have digests : m.digest = ({ m with finished := true }.final,
          { m with finished := true }.final.digestBytes) := by
        rw [digest, open_]
        rfl
      obtain ⟨kept, digested⟩ := marked.final
      rw [MD5.call, MD5.toString, digests]
      refine ⟨kept, final_finished _, fun calls => ?_⟩
      change _ = bytesToHexString (md5 fed) :: _
      rw [← digested]
      rfl

/-- A digest asked for twice is the same digest where there was room. -/
theorem answers_twice {fed : Str} (room : fed.length % 64 < 56)
    (calls : List Call) :
    answers fed (.toString :: .toString :: calls) =
      bytesToHexString (md5 fed) :: bytesToHexString (md5 fed) ::
        answers fed calls := by
  rw [answers, feed, again_eq_self room, answers, feed, again_eq_self room]

end MD5

end ChatRoom
