import ChatRoom.Base.Bytes
import Mathlib.Data.Nat.Find

/-!
# Finding bytes in bytes

`MemFind` compares its pattern with the source at one position after another,
upwards for the first occurrence and downwards for the last.  The two loops do
not cover the same positions.
-/

namespace ChatRoom

namespace Util

/-- `0 == memcmp(p, sub_str, sub_len)`; `none` when it reads behind one of the
two. -/
def memcmpIsZero (bytes subStr : Str) (subLen : Nat) : Option Bool :=
  if subLen ≤ bytes.length ∧ subLen ≤ subStr.length then
    some (decide (bytes.take subLen = subStr.take subLen))
  else none

/-- The comparison at a position of the source. -/
def sameAt (srcStr subStr : Str) (subLen i : Nat) : Option Bool :=
  memcmpIsZero (srcStr.drop i) subStr subLen

/-- The loop upwards, with `left` positions to go.  `i` is an `int`, so that
`i++` overflows behind 2^31 - 1. -/
def findUp (same : Nat → Option Bool) : Nat → Nat → Option (Option Nat)
  | _, 0 => some none
  | i, left + 1 =>
      match same i with
      | none => none
      | some true => some (some i)
      | some false => if i + 1 < 2 ^ 31 then findUp same (i + 1) left else none

/-- The loop downwards, over the positions below a bound. -/
def findDown (same : Nat → Option Bool) : Nat → Option (Option Nat)
  | 0 => some none
  | i + 1 =>
      match same i with
      | none => none
      | some true => some (some i)
      | some false => findDown same i

/-- `MemFind`: the offset of the pointer it returns, or NULL.  It is undefined
when a comparison reads outside or `i` overflows. -/
def memFind (srcStr : Option Str) (srcLen : Nat) (subStr : Option Str)
    (subLen : Nat) (flag : Bool) : Option (Option Nat) :=
  match srcStr, subStr with
  | some srcStr, some subStr =>
      if srcLen = 0 then some none
      else if srcLen < subLen then some none
      else
        let subLen := if subLen = 0 then (cStr subStr).length else subLen
        if srcLen = subLen then
          (memcmpIsZero srcStr subStr srcLen).map fun isZero =>
            if isZero then some 0 else none
        else
          -- the difference is a `size_t`, and an `int` where the loop starts
          let difference := (srcLen + 2 ^ 64 - subLen) % 2 ^ 64
          if flag then findUp (sameAt srcStr subStr subLen) 0 difference
          else
            findDown (sameAt srcStr subStr subLen)
              ((difference : Int).bmod (2 ^ 32) + 1).toNat
  | _, _ => some none

/-! ## What it is meant to find -/

/-- A source in memory and a pattern of at least one byte that is not
longer. -/
structure Search where
  source : Str
  pattern : Str
  positive : 1 ≤ pattern.length
  fits : pattern.length ≤ source.length
  addressable : source.length < 2 ^ 64

namespace Search

variable (search : Search)

def memFind (flag : Bool) : Option (Option Nat) :=
  Util.memFind (some search.source) search.source.length (some search.pattern)
    search.pattern.length flag

/-- The pattern stands at the position. -/
def Occurs (position : Nat) : Prop :=
  search.pattern <+: search.source.drop position

instance (position : Nat) : Decidable (search.Occurs position) :=
  inferInstanceAs (Decidable (_ <+: _))

/-- The last position at which the pattern can stand. -/
def last : Nat := search.source.length - search.pattern.length

/-- Every comparison stays inside the source, and the result is the first or
the last occurrence, or NULL when there is none. -/
def Finds (flag : Bool) : Prop :=
  ∃ found, search.memFind flag = some found ∧
    (found = none ↔ ∀ position, ¬ search.Occurs position) ∧
    ∀ position, found = some position → search.Occurs position ∧
      ∀ other, search.Occurs other →
        if flag then position ≤ other else other ≤ position

/-- Upwards: the two are equally long, or the pattern occurs below the last
position and below 2^31, or it does not occur and the loop stays below 2^31.
Downwards: it does not occur above the last position taken as an `int`. -/
def Covered : Bool → Prop
  | true =>
      search.last = 0 ∨
        (∃ position, position < search.last ∧ position < 2 ^ 31 ∧
          search.Occurs position) ∨
        (search.last < 2 ^ 31 ∧ ∀ position, ¬ search.Occurs position)
  | false =>
      ∀ position, search.Occurs position →
        (position : Int) ≤ (search.last : Int).bmod (2 ^ 32)

end Search

/-! ## The loops -/

section Loops

variable {Holds : Nat → Prop} [DecidablePred Holds]
  {same : Nat → Option Bool}

/-- A hit ends the loop upwards when nothing in front of it is one. -/
theorem findUp_of_hit {start left position : Nat}
    (inside : ∀ i, i < start + left → same i = some (decide (Holds i)))
    (reached : start ≤ position) (below : position < start + left)
    (small : position < 2 ^ 31) (hit : Holds position)
    (earlier : ∀ i, start ≤ i → i < position → ¬ Holds i) :
    findUp same start left = some (some position) := by
  induction left generalizing start with
  | zero => omega
  | succ left induction =>
      rw [findUp, inside start (by omega)]
      by_cases isHit : Holds start
      · have atStart : position = start := by
          by_contra different
          exact earlier start (Nat.le_refl _) (by omega) isHit
        simp [isHit, atStart]
      · have behind : start ≠ position := by
          rintro rfl
          exact isHit hit
        simp only [isHit, decide_false]
        rw [if_pos (by omega)]
        apply induction
        · intro i bound
          exact inside i (by omega)
        · omega
        · omega
        · intro i above before
          exact earlier i (by omega) before

/-- Without a hit the loop upwards goes through, if `i` does not overflow. -/
theorem findUp_of_miss {start left : Nat}
    (inside : ∀ i, i < start + left → same i = some (decide (Holds i)))
    (missed : ∀ i, start ≤ i → i < start + left → i < 2 ^ 31 → ¬ Holds i)
    (begins : start < 2 ^ 31) :
    findUp same start left =
      if start + left < 2 ^ 31 then some none else none := by
  induction left generalizing start with
  | zero => rw [findUp, if_pos (by omega)]
  | succ left induction =>
      have notHit : ¬ Holds start :=
        missed start (Nat.le_refl _) (by omega) begins
      rw [findUp, inside start (by omega)]
      simp only [notHit, decide_false]
      by_cases goesOn : start + 1 < 2 ^ 31
      · rw [if_pos goesOn, induction]
        · congr 1
          simp only [eq_iff_iff]
          omega
        · intro i bound
          exact inside i (by omega)
        · intro i above bound small
          exact missed i (by omega) (by omega) small
        · exact goesOn
      · rw [if_neg goesOn, if_neg (by omega)]

/-- The loop downwards ends at the last hit below its bound. -/
theorem findDown_spec {bound : Nat}
    (inside : ∀ i, i < bound → same i = some (decide (Holds i))) :
    ∃ found, findDown same bound = some found ∧
      (found = none ↔ ∀ i, i < bound → ¬ Holds i) ∧
      ∀ position, found = some position → position < bound ∧
        Holds position ∧ ∀ i, i < bound → Holds i → i ≤ position := by
  induction bound with
  | zero =>
      refine ⟨none, rfl, by simp, ?_⟩
      intro position impossible
      cases impossible
  | succ bound induction =>
      rw [findDown, inside bound (by omega)]
      by_cases isHit : Holds bound
      · simp only [isHit, decide_true]
        refine ⟨some bound, rfl, ?_, ?_⟩
        · constructor
          · intro impossible
            cases impossible
          · intro nowhere
            exact absurd isHit (nowhere bound (by omega))
        · intro position isFound
          cases isFound
          exact ⟨by omega, isHit, fun i below _ => by omega⟩
      · simp only [isHit, decide_false]
        obtain ⟨found, result, isNone, isSome⟩ :=
          induction fun i below => inside i (by omega)
        have only : ∀ i, i < bound + 1 → Holds i → i < bound := by
          intro i below holds
          have different : i ≠ bound := by
            rintro rfl
            exact isHit holds
          omega
        refine ⟨found, result, isNone.trans ?_, ?_⟩
        · constructor
          · intro nowhere i below holds
            exact nowhere i (only i below holds) holds
          · intro nowhere i below
            exact nowhere i (by omega)
        · intro position isFound
          obtain ⟨below, holds, greatest⟩ := isSome position isFound
          refine ⟨by omega, holds, ?_⟩
          intro i inRange other
          exact greatest i (only i inRange other) other

end Loops

namespace Search

variable {search : Search}

theorem Occurs.le_last {position : Nat} (occurs : search.Occurs position) :
    position ≤ search.last := by
  have shorter := List.IsPrefix.length_le occurs
  have positive := search.positive
  rw [List.length_drop] at shorter
  rw [last]
  omega

/-- Up to the last position a comparison stays inside. -/
theorem sameAt_eq {position : Nat} (inside : position ≤ search.last) :
    sameAt search.source search.pattern search.pattern.length position =
      some (decide (search.Occurs position)) := by
  have fits := search.fits
  have enough : search.pattern.length ≤
      (search.source.drop position).length := by
    rw [last] at inside
    rw [List.length_drop]
    omega
  have stands : (search.source.drop position).take search.pattern.length =
      search.pattern ↔ search.Occurs position := by
    rw [Occurs, List.prefix_iff_eq_take, eq_comm]
  rw [sameAt, memcmpIsZero, if_pos ⟨enough, Nat.le_refl _⟩, List.take_length]
  simp only [stands]

/-- Which loop runs, and how far. -/
theorem memFind_eq (search : Search) (flag : Bool) :
    search.memFind flag =
      if search.last = 0 then
        some (if search.Occurs 0 then some 0 else none)
      else if flag then
        findUp (sameAt search.source search.pattern search.pattern.length) 0
          search.last
      else
        findDown (sameAt search.source search.pattern search.pattern.length)
          ((search.last : Int).bmod (2 ^ 32) + 1).toNat := by
  have positive := search.positive
  have fits := search.fits
  have addressable := search.addressable
  have difference : (search.source.length + 2 ^ 64 - search.pattern.length) %
      2 ^ 64 = search.last := by
    rw [last]
    omega
  rw [Search.memFind, Util.memFind, if_neg (by omega), if_neg (by omega)]
  simp only [if_neg (show ¬ search.pattern.length = 0 by omega), difference]
  by_cases same : search.source.length = search.pattern.length
  · have none_left : search.last = 0 := by
      rw [last]
      omega
    have whole : sameAt search.source search.pattern search.pattern.length 0 =
        some (decide (search.Occurs 0)) := sameAt_eq (Nat.zero_le _)
    rw [sameAt, List.drop_zero, ← same] at whole
    rw [if_pos same, if_pos none_left, whole]
    simp
  · have some_left : ¬ search.last = 0 := by
      rw [last]
      omega
    rw [if_neg same, if_neg some_left]

theorem finds_of_found {flag : Bool} {position : Nat}
    (result : search.memFind flag = some (some position))
    (occurs : search.Occurs position)
    (extreme : ∀ other, search.Occurs other →
      if flag then position ≤ other else other ≤ position) :
    search.Finds flag := by
  refine ⟨some position, result, ?_, ?_⟩
  · constructor
    · intro impossible
      cases impossible
    · intro nowhere
      exact absurd occurs (nowhere position)
  · intro other isFound
    cases isFound
    exact ⟨occurs, extreme⟩

theorem finds_of_nowhere {flag : Bool}
    (result : search.memFind flag = some none)
    (nowhere : ∀ position, ¬ search.Occurs position) :
    search.Finds flag := by
  refine ⟨none, result, iff_of_true rfl nowhere, ?_⟩
  intro position impossible
  cases impossible

/-- Of two positions there is only one. -/
theorem finds_of_last_zero (noOther : search.last = 0) (flag : Bool) :
    search.Finds flag := by
  have atZero : ∀ position, search.Occurs position → position = 0 := by
    intro position occurs
    have := occurs.le_last
    omega
  have result := search.memFind_eq flag
  rw [if_pos noOther] at result
  by_cases occurs : search.Occurs 0
  · rw [if_pos occurs] at result
    apply finds_of_found result occurs
    intro other isOther
    rw [atZero other isOther]
    simp
  · rw [if_neg occurs] at result
    apply finds_of_nowhere result
    intro position isOther
    exact occurs (atZero position isOther ▸ isOther)

/-- Upwards, what is looked at below the last position and below 2^31. -/
theorem finds_up_iff (more : ¬ search.last = 0) :
    search.Finds true ↔ search.Covered true := by
  have inside : ∀ i, i < 0 + search.last →
      sameAt search.source search.pattern search.pattern.length i =
        some (decide (search.Occurs i)) := by
    intro i below
    exact sameAt_eq (by omega)
  have result := search.memFind_eq true
  rw [if_neg more, if_pos rfl] at result
  rw [Covered]
  by_cases hit : ∃ position, position < search.last ∧ position < 2 ^ 31 ∧
      search.Occurs position
  · refine iff_of_true ?_ (.inr (.inl hit))
    obtain ⟨below, small, occurs⟩ := Nat.find_spec hit
    have earlier : ∀ i, search.Occurs i → Nat.find hit ≤ i := by
      intro i isOther
      by_contra before
      exact Nat.find_min hit (by omega) ⟨by omega, by omega, isOther⟩
    refine finds_of_found ?_ occurs earlier
    rw [result]
    apply findUp_of_hit inside (Nat.zero_le _) (by omega) small occurs
    intro i _ before isOther
    have := earlier i isOther
    omega
  · have missed : ∀ i, 0 ≤ i → i < 0 + search.last → i < 2 ^ 31 →
        ¬ search.Occurs i := by
      intro i _ below small occurs
      exact hit ⟨i, by omega, small, occurs⟩
    rw [findUp_of_miss inside missed (by omega), Nat.zero_add] at result
    constructor
    · rintro ⟨found, returned, isNone, -⟩
      rw [result] at returned
      by_cases small : search.last < 2 ^ 31
      · rw [if_pos small] at returned
        cases returned
        exact .inr (.inr ⟨small, isNone.mp rfl⟩)
      · rw [if_neg small] at returned
        cases returned
    · rintro (noOther | isHit | ⟨small, nowhere⟩)
      · exact absurd noOther more
      · exact absurd isHit hit
      · rw [if_pos small] at result
        exact finds_of_nowhere result nowhere

/-- Downwards, what stands above the `int` the loop starts at is missed. -/
theorem finds_down_iff (more : ¬ search.last = 0) :
    search.Finds false ↔ search.Covered false := by
  have start : (search.last : Int).bmod (2 ^ 32) ≤ search.last := by
    rw [Int.bmod_def]
    split_ifs <;> omega
  generalize begins : (search.last : Int).bmod (2 ^ 32) = begin at start
  have inside : ∀ i, i < (begin + 1).toNat →
      sameAt search.source search.pattern search.pattern.length i =
        some (decide (search.Occurs i)) := by
    intro i below
    exact sameAt_eq (by omega)
  obtain ⟨found, result, isNone, isSome⟩ := findDown_spec inside
  rw [Finds, memFind_eq, if_neg more, if_neg Bool.false_ne_true, Covered,
    begins, result]
  constructor
  · rintro ⟨other, same, nowhere, finds⟩ position occurs
    cases same
    cases found with
    | none => exact absurd occurs (nowhere.mp rfl position)
    | some last =>
        have greatest : position ≤ last := (finds last rfl).2 position occurs
        have below := (isSome last rfl).1
        omega
  · intro covered
    have reached : ∀ i, search.Occurs i → i < (begin + 1).toNat := by
      intro i occurs
      have := covered i occurs
      omega
    refine ⟨found, rfl, isNone.trans ?_, ?_⟩
    · constructor
      · intro nowhere i occurs
        exact nowhere i (reached i occurs) occurs
      · intro nowhere i _
        exact nowhere i
    · intro position isFound
      obtain ⟨-, occurs, greatest⟩ := isSome position isFound
      refine ⟨occurs, ?_⟩
      intro other isOther
      exact greatest other (reached other isOther) isOther

/-- `MemFind` finds the first or the last occurrence exactly when its loop
gets there. -/
theorem finds_iff_covered (search : Search) (flag : Bool) :
    search.Finds flag ↔ search.Covered flag := by
  by_cases noOther : search.last = 0
  · refine iff_of_true (finds_of_last_zero noOther flag) ?_
    cases flag with
    | true => exact .inl noOther
    | false =>
        intro position occurs
        have := occurs.le_last
        rw [noOther] at this ⊢
        simpa using this
  · cases flag with
    | true => exact finds_up_iff noOther
    | false => exact finds_down_iff noOther

/-- `b` in `ab`. -/
def bInAb : Search where
  source := ascii "ab"
  pattern := ascii "b"
  positive := by decide
  fits := by decide
  addressable := by decide

/-- The only occurrence is at the last position, which the loop upwards leaves
out. -/
theorem bInAb_not_found : ¬ bInAb.Finds true := by
  rintro ⟨found, result, isNone, -⟩
  have null : bInAb.memFind true = some none := by decide
  rw [null] at result
  cases result
  exact isNone.mp rfl 1 (by decide)

end Search

end Util

end ChatRoom
