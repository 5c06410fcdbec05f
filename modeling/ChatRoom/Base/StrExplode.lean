import ChatRoom.Base.Bytes
import Mathlib.Algebra.Order.BigOperators.Group.List
import Mathlib.Algebra.Order.Group.Nat

/-!
# Splitting a list of names

`CStrExplode` counts the separators for the number of its slots, and fills the
slots in a second pass.  The second pass does not cut at a separator that
stands where an item would begin, and stores nothing behind a separator at the
end.
-/

namespace ChatRoom

namespace Util

/-- A C string: the bytes in front of its NUL. -/
structure CString where
  bytes : Str
  noNul : Byte.nul ∉ bytes

/-- The separators plus one, as a `uint32_t`. -/
def itemCnt (seperator : UInt8) (bytes : Str) : ℕ :=
  bytes.foldl
    (fun cnt byte => if byte = seperator then (cnt + 1) % 2 ^ 32 else cnt) 1

/-- A copy of the bytes between `start` and `pos` in the next free slot.
`len` is a `uint32_t`, and so is the size `len + 1` of the copy; it is `none`
when there is no slot left or the copy does not fit. -/
def storeItem (cnt : ℕ) (items : List Str) (current : Str) :
    Option (List Str) :=
  let len := current.length % 2 ^ 32
  if items.length < cnt ∧ len < (len + 1) % 2 ^ 32 then
    some (items ++ [current.take len])
  else none

/-- The second pass, with the bytes between `start` and `pos`.  The slots are
filled in order, so that `idx`, an `int`, is the number of items. -/
def explodeLoop (seperator : UInt8) (cnt : ℕ) (items : List Str)
    (current : Str) : Str → Option (List Str)
  | [] =>
      if current.length % 2 ^ 32 ≠ 0 then storeItem cnt items current
      else some items
  | byte :: rest =>
      if current ≠ [] ∧ byte = seperator then
        match storeItem cnt items current with
        | none => none
        | some items =>
            if items.length < 2 ^ 31 then
              explodeLoop seperator cnt items [] rest
            else none
      else explodeLoop seperator cnt items (current ++ [byte]) rest

/-- `CStrExplode`: the items of the slots that got one.  The `itemCnt` slots
behind them are indeterminate. -/
def strExplode (text : CString) (seperator : UInt8) : Option (List Str) :=
  explodeLoop seperator (itemCnt seperator text.bytes) [] [] text.bytes

/-- Every slot has an item, and joined they are the text. -/
def Exploded (text : CString) (seperator : UInt8) : Prop :=
  ∃ items, strExplode text seperator = some items ∧
    items.length = itemCnt seperator text.bytes ∧
    [seperator].intercalate items = text.bytes

/-- No name of the list is empty or too long, and `idx` does not overflow. -/
def NamesOnly (text : CString) (seperator : UInt8) : Prop :=
  text.bytes.count seperator < 2 ^ 31 ∧
    ∀ name ∈ text.bytes.splitOn seperator,
      name ≠ [] ∧ name.length + 1 < 2 ^ 32

/-! ## Counting -/

variable {seperator : UInt8}

theorem itemCnt_eq (seperator : UInt8) (bytes : Str) :
    itemCnt seperator bytes = (1 + bytes.count seperator) % 2 ^ 32 := by
  have counted : ∀ (cnt : ℕ), cnt < 2 ^ 32 →
      bytes.foldl (fun cnt byte =>
        if byte = seperator then (cnt + 1) % 2 ^ 32 else cnt) cnt =
      (cnt + bytes.count seperator) % 2 ^ 32 := by
    induction bytes with
    | nil =>
        intro cnt small
        exact (Nat.mod_eq_of_lt small).symm
    | cons byte rest induction =>
        intro cnt small
        rw [List.foldl_cons, List.count_cons]
        by_cases isSeperator : byte = seperator
        · rw [if_pos isSeperator, induction _ (Nat.mod_lt _ (by decide)),
            if_pos (beq_iff_eq.mpr isSeperator)]
          omega
        · rw [if_neg isSeperator, induction _ small,
            if_neg (mt beq_iff_eq.mp isSeperator), Nat.add_zero]
  exact counted 1 (by decide)

theorem length_splitOn (seperator : UInt8) (bytes : Str) :
    (bytes.splitOn seperator).length = bytes.count seperator + 1 := by
  induction bytes with
  | nil => rfl
  | cons byte rest induction =>
      rw [List.splitOn_cons_eq_if_modifyHead, List.count_cons]
      split
      · rw [List.length_cons, induction]
      · rw [List.length_modifyHead, induction, Nat.add_zero]

/-- The bytes of the items with one separator each. -/
def weight (items : List Str) : ℕ :=
  (items.map fun item => item.length + 1).sum

theorem length_intercalate {items : List Str} (some_item : items ≠ []) :
    ([seperator].intercalate items).length + 1 = weight items := by
  induction items with
  | nil => exact absurd rfl some_item
  | cons item items induction =>
      by_cases last : items = []
      · rw [last, List.intercalate_singleton]
        rfl
      · rw [List.intercalate_cons_of_ne_nil last]
        have others := induction last
        simp only [weight, List.map_cons, List.sum_cons, List.length_append,
          List.length_singleton] at others ⊢
        omega

theorem count_intercalate {items : List Str} (some_item : items ≠ []) :
    ([seperator].intercalate items).count seperator + 1 =
      (items.map (List.count seperator)).sum + items.length := by
  induction items with
  | nil => exact absurd rfl some_item
  | cons item items induction =>
      by_cases last : items = []
      · rw [last, List.intercalate_singleton]
        simp
      · rw [List.intercalate_cons_of_ne_nil last]
        have others := induction last
        simp only [List.map_cons, List.sum_cons, List.count_append,
          List.count_singleton_self, List.length_cons]
        omega

/-! ## What the second pass stores -/

theorem storeItem_cases {cnt : ℕ} {items out : List Str} {current : Str}
    (some_byte : current ≠ [])
    (stored : storeItem cnt items current = some out) :
    ∃ item, out = items ++ [item] ∧ item.Sublist current ∧
      item.length + 1 < 2 ^ 32 ∧
      (item = [] → item.length < current.length) := by
  rw [storeItem] at stored
  split at stored
  · rename_i fits
    cases stored
    refine ⟨_, rfl, List.take_sublist _ _, ?_, ?_⟩
    · rw [List.length_take]
      omega
    · intro empty
      rw [empty]
      exact List.length_pos_iff.mpr some_byte
  · cases stored

theorem storeItem_eq {cnt : ℕ} {items : List Str} {current : Str}
    (free : items.length < cnt) (short : current.length + 1 < 2 ^ 32) :
    storeItem cnt items current = some (items ++ [current]) := by
  have len : current.length % 2 ^ 32 = current.length :=
    Nat.mod_eq_of_lt (by omega)
  have size : (current.length + 1) % 2 ^ 32 = current.length + 1 :=
    Nat.mod_eq_of_lt short
  rw [storeItem, len, size, if_pos ⟨free, Nat.lt_succ_self _⟩,
    List.take_length]

/-- The items that the pass adds from a place of the text on: they take at
most the bytes that are left, and all of them only when none is empty; each
has at most the separator it begins with. -/
structure Added (seperator : UInt8) (left : ℕ) (more : List Str) : Prop where
  weight_le : weight more ≤ left
  nonempty : weight more = left → [] ∉ more
  short : ∀ item ∈ more, item.length + 1 < 2 ^ 32
  glued : ∀ item ∈ more, item.count seperator ≤ 1

theorem Added.nil (left : ℕ) : Added seperator left [] where
  weight_le := Nat.zero_le _
  nonempty _ := List.not_mem_nil
  short _ member := by cases member
  glued _ member := by cases member

/-- One item of the bytes in front, and what the rest adds. -/
theorem Added.cons {left : ℕ} {item current : Str} {more : List Str}
    (part : item.Sublist current) (short : item.length + 1 < 2 ^ 32)
    (empty : item = [] → item.length < current.length)
    (glued : current.count seperator ≤ 1)
    (others : Added seperator left more) :
    Added seperator (current.length + 1 + left) (item :: more) where
  weight_le := by
    have := part.length_le
    have := others.weight_le
    simp only [weight, List.map_cons, List.sum_cons] at this ⊢
    omega
  nonempty := by
    intro whole
    have := part.length_le
    have bound := others.weight_le
    have same : weight (item :: more) = item.length + 1 + weight more := rfl
    have othersWhole : weight more = left := by omega
    intro member
    rcases List.mem_cons.mp member with isEmpty | later
    · have := empty isEmpty.symm
      omega
    · exact others.nonempty othersWhole later
  short := List.forall_mem_cons.mpr ⟨short, others.short⟩
  glued :=
    List.forall_mem_cons.mpr ⟨(part.count_le _).trans glued, others.glued⟩

/-- A separator counts as a part of the item that it begins. -/
theorem count_le_one {current : Str} (glued : seperator ∉ current.tail) :
    current.count seperator ≤ 1 := by
  cases current with
  | nil => exact Nat.zero_le 1
  | cons byte rest =>
      have none_behind : rest.count seperator = 0 :=
        List.count_eq_zero_of_not_mem glued
      rw [List.count_cons, none_behind]
      split <;> omega

theorem explodeLoop_added {cnt : ℕ} {items out : List Str}
    {current rest : Str} (glued : seperator ∉ current.tail)
    (few : items.length < 2 ^ 31)
    (done : explodeLoop seperator cnt items current rest = some out) :
    ∃ more, out = items ++ more ∧ out.length ≤ 2 ^ 31 ∧
      Added seperator (current.length + 1 + rest.length) more := by
  induction rest generalizing items current with
  | nil =>
      rw [explodeLoop] at done
      split at done
      · rename_i some_left
        have some_byte : current ≠ [] := by
          rintro rfl
          exact some_left rfl
        obtain ⟨item, rfl, part, short, empty⟩ :=
          storeItem_cases some_byte done
        refine ⟨[item], rfl, ?_, ?_⟩
        · rw [List.length_append, List.length_singleton]
          omega
        · exact .cons part short empty (count_le_one glued) (.nil 0)
      · cases done
        exact ⟨[], (List.append_nil _).symm, few.le, .nil _⟩
  | cons byte rest induction =>
      rw [explodeLoop] at done
      split at done
      · rename_i cut
        split at done
        · cases done
        · rename_i stored isStored
          obtain ⟨item, rfl, part, short, empty⟩ :=
            storeItem_cases cut.1 isStored
          split at done
          · rename_i next
            have noHead : seperator ∉ ([] : Str).tail := List.not_mem_nil
            obtain ⟨more, rfl, bound, added⟩ := induction noHead next done
            refine ⟨item :: more, ?_, bound, ?_⟩
            · rw [List.append_assoc, List.singleton_append]
            · have all := Added.cons part short empty (count_le_one glued) added
              rw [List.length_nil, Nat.zero_add, Nat.add_comm 1] at all
              exact all
          · cases done
      · rename_i noCut
        have stillGlued : seperator ∉ (current ++ [byte]).tail := by
          cases current with
          | nil => exact List.not_mem_nil
          | cons first others =>
              intro member
              rcases List.mem_append.mp member with before | last
              · exact glued before
              · have same := List.mem_singleton.mp last
                exact noCut ⟨List.cons_ne_nil _ _, same.symm⟩
        obtain ⟨more, isMore, bound, added⟩ := induction stillGlued few done
        refine ⟨more, isMore, bound, ?_⟩
        rw [List.length_append, List.length_singleton] at added
        rw [List.length_cons, ← Nat.add_assoc, Nat.add_right_comm _ rest.length]
        exact added

/-! ## Lists of names -/

/-- Where every name fits, the pass stores them all. -/
theorem explodeLoop_eq {cnt : ℕ} {items : List Str} {current rest : Str}
    {names : List Str}
    (split : (rest.splitOn seperator).modifyHead (current ++ ·) = names)
    (fits : ∀ name ∈ names, name ≠ [] ∧ name.length + 1 < 2 ^ 32)
    (slots : items.length + names.length ≤ cnt)
    (few : items.length + names.length ≤ 2 ^ 31) :
    explodeLoop seperator cnt items current rest = some (items ++ names) := by
  induction rest generalizing items current names with
  | nil =>
      rw [List.splitOn_nil, List.modifyHead_cons, List.append_nil] at split
      subst split
      obtain ⟨some_byte, short⟩ := fits current List.mem_cons_self
      rw [List.length_singleton] at slots
      have positive := List.length_pos_iff.mpr some_byte
      rw [explodeLoop, if_pos (by omega), storeItem_eq slots short]
  | cons byte rest induction =>
      rw [List.splitOn_cons_eq_if_modifyHead] at split
      by_cases isSeperator : byte = seperator
      · rw [if_pos (beq_iff_eq.mpr isSeperator), List.modifyHead_cons,
          List.append_nil] at split
        subst split
        obtain ⟨⟨some_byte, short⟩, othersFit⟩ := List.forall_mem_cons.mp fits
        rw [List.length_cons] at slots few
        have others : 0 < (rest.splitOn seperator).length := by
          rw [length_splitOn]
          omega
        rw [explodeLoop, if_pos ⟨some_byte, isSeperator⟩,
          storeItem_eq (by omega) short]
        simp only
        rw [if_pos (by rw [List.length_append, List.length_singleton]; omega)]
        have behind : explodeLoop seperator cnt (items ++ [current]) [] rest =
            some (items ++ [current] ++ rest.splitOn seperator) := by
          apply induction _ othersFit
          · rw [List.length_append, List.length_singleton]
            omega
          · rw [List.length_append, List.length_singleton]
            omega
          · exact congrFun List.modifyHead_id _
        rw [behind, List.append_assoc, List.singleton_append]
      · rw [if_neg (mt beq_iff_eq.mp isSeperator), List.modifyHead_modifyHead]
          at split
        rw [explodeLoop, if_neg fun cut => isSeperator cut.2]
        apply induction _ fits slots few
        rw [← split]
        congr 1
        funext field
        exact List.append_assoc current [byte] field

theorem namesOnly_of_exploded {text : CString}
    (exploded : Exploded text seperator) : NamesOnly text seperator := by
  obtain ⟨items, done, full, joined⟩ := exploded
  rw [strExplode] at done
  have noHead : seperator ∉ ([] : Str).tail := List.not_mem_nil
  obtain ⟨more, isMore, bound, added⟩ :=
    explodeLoop_added noHead (by decide) done
  rw [List.nil_append] at isMore
  subst isMore
  rw [itemCnt_eq] at full
  have some_item : items ≠ [] := by
    rintro rfl
    rw [← joined] at full
    cases full
  have size : text.bytes.length + 1 = weight items := by
    rw [← joined]
    exact length_intercalate some_item
  have counted : text.bytes.count seperator + 1 =
      (items.map (List.count seperator)).sum + items.length := by
    rw [← joined]
    exact count_intercalate some_item
  -- the bytes of the text leave room for no item that is cut short
  have noEmpty : [] ∉ items := by
    apply added.nonempty
    rw [← size, List.length_nil]
    omega
  -- and the slots for no separator inside an item
  have gluedSum : (items.map (List.count seperator)).sum ≤ items.length := by
    have each := List.sum_le_card_nsmul (items.map (List.count seperator)) 1
      (by simpa using added.glued)
    simpa using each
  have positive := List.length_pos_iff.mpr some_item
  have gluedNone : (items.map (List.count seperator)).sum = 0 := by omega
  have noSeperator : ∀ item ∈ items, seperator ∉ item := by
    intro item member
    have each := List.sum_eq_zero_iff_forall_eq_nat.mp gluedNone _
      (List.mem_map_of_mem member)
    exact List.count_eq_zero.mp each
  refine ⟨by omega, ?_⟩
  rw [← joined, List.splitOn_intercalate seperator noSeperator some_item]
  intro name member
  refine ⟨?_, added.short name member⟩
  rintro rfl
  exact noEmpty member

theorem exploded_of_namesOnly {text : CString}
    (names : NamesOnly text seperator) : Exploded text seperator := by
  obtain ⟨few, fits⟩ := names
  have slots : itemCnt seperator text.bytes =
      (text.bytes.splitOn seperator).length := by
    rw [itemCnt_eq, length_splitOn]
    omega
  refine ⟨text.bytes.splitOn seperator, ?_, slots.symm, ?_⟩
  · rw [strExplode, slots]
    apply explodeLoop_eq (congrFun List.modifyHead_id _) fits
    · rw [List.length_nil, Nat.zero_add]
    · rw [List.length_nil, length_splitOn]
      omega
  · exact List.intercalate_splitOn seperator

/-- A list of names is taken apart soundly exactly when it has no empty name,
none that is too long and not too many. -/
theorem exploded_iff_namesOnly (text : CString) (seperator : UInt8) :
    Exploded text seperator ↔ NamesOnly text seperator :=
  ⟨namesOnly_of_exploded, exploded_of_namesOnly⟩

/-- `a,`, a list with a separator at its end. -/
def aComma : CString where
  bytes := ascii "a,"
  noNul := by decide

/-- Of its two slots the second one stays indeterminate. -/
theorem aComma_not_exploded : ¬ Exploded aComma Byte.comma := by
  rintro ⟨items, done, full, -⟩
  have first : strExplode aComma Byte.comma = some [ascii "a"] := by
    decide +kernel
  have slots : itemCnt Byte.comma aComma.bytes = 2 := by decide +kernel
  rw [first] at done
  cases done
  rw [slots] at full
  cases full

end Util

end ChatRoom
