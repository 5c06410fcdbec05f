import Mathlib.Data.List.Basic
import Mathlib.Order.Defs.LinearOrder
import Mathlib.Order.Lattice

/-!
# Reading an ordered log page by page

A log is a list with ascending keys.  A reader takes pages from the newest
element downwards: a page holds what is below a cursor, and the cursor moves to
the last key of the page.  Elements that are appended while it reads lie above
the cursor, so the pages are exactly the log as it was at the first one.
-/

namespace Lib.Paging

variable {Element Key : Type*} [LinearOrder Key] (key : Element → Key)

def Ascending (elements : List Element) : Prop :=
  elements.Pairwise fun first second => key first < key second

/-- Without a cursor every key is below it. -/
def below (cursor : Option Key) (value : Key) : Bool :=
  match cursor with
  | none => true
  | some bound => value < bound

/-- What is below the cursor, newest first. -/
def remaining (elements : List Element) (cursor : Option Key) : List Element :=
  (elements.filter fun element => below cursor (key element)).reverse

def page (size : Nat) (elements : List Element) (cursor : Option Key) :
    List Element :=
  (remaining key elements cursor).take size

/-- The last key of a page; an empty page leaves the cursor where it is. -/
def advance (cursor : Option Key) (read : List Element) : Option Key :=
  (read.getLast?.map key).or cursor

/-- Pages until one is not full; `logs` holds what each call finds. -/
def readAll (size : Nat) :
    Nat → (Nat → List Element) → Option Key → Option (List (List Element))
  | 0, _, _ => none
  | fuel + 1, logs, cursor =>
      let read := page key size (logs 0) cursor
      if read.length < size then some [read]
      else
        (readAll size fuel (fun call => logs (call + 1))
          (advance key cursor read)).map (read :: ·)

variable {key}

theorem remaining_none (elements : List Element) :
    remaining key elements none = elements.reverse := by
  simp [remaining, below]

/-- Newer elements are not below the cursor. -/
theorem remaining_append {bound : Key} {newer : List Element}
    (isNewer : ∀ element ∈ newer, bound ≤ key element)
    (elements : List Element) :
    remaining key (elements ++ newer) (some bound) =
      remaining key elements (some bound) := by
  have noneBelow : newer.filter (fun element => below (some bound) (key element)) =
      [] := by
    apply List.filter_eq_nil_iff.mpr
    intro element member
    simpa [below] using isNewer element member
  rw [remaining, List.filter_append, noneBelow, List.append_nil]
  rfl

/-- A page that is not full is the rest. -/
theorem page_of_short {size : Nat} {elements : List Element}
    {cursor : Option Key}
    (short : (page key size elements cursor).length < size) :
    page key size elements cursor = remaining key elements cursor := by
  rw [page, List.length_take] at short
  exact List.take_of_length_le (by omega)

theorem remaining_descending {elements : List Element}
    (ascending : Ascending key elements) (cursor : Option Key) :
    (remaining key elements cursor).Pairwise
      fun first second => key second < key first := by
  rw [remaining, List.pairwise_reverse]
  exact ascending.filter _

/-- Below a key of what remains stands exactly what follows it. -/
theorem remaining_of_split {elements front behind : List Element}
    {cursor : Option Key} {last : Element}
    (ascending : Ascending key elements)
    (split : remaining key elements cursor = front ++ last :: behind) :
    remaining key elements (some (key last)) = behind := by
  have descending := remaining_descending ascending cursor
  rw [split, List.pairwise_append, List.pairwise_cons] at descending
  obtain ⟨-, ⟨behindLower, -⟩, frontHigher⟩ := descending
  have member : last ∈ remaining key elements cursor := by
    simp [split]
  have lastBelow : below cursor (key last) = true := by
    simp only [remaining, List.mem_reverse, List.mem_filter] at member
    exact member.2
  have inner : remaining key elements (some (key last)) =
      (remaining key elements cursor).filter
        fun element => below (some (key last)) (key element) := by
    rw [remaining, remaining, List.filter_reverse, List.filter_filter]
    congr 1
    apply List.filter_congr
    intro element _
    cases cursor with
    | none => simp [below]
    | some bound =>
        simp only [below, decide_eq_true_eq] at lastBelow
        by_cases lower : key element < key last
        · simp [below, lower, lt_trans lower lastBelow]
        · simp [below, lower]
  rw [inner, split, List.filter_append, List.filter_cons]
  have noFront : front.filter
      (fun element => below (some (key last)) (key element)) = [] := by
    apply List.filter_eq_nil_iff.mpr
    intro element inFront
    have higher := frontHigher element inFront last List.mem_cons_self
    simp [below, le_of_lt higher]
  have allBehind : behind.filter
      (fun element => below (some (key last)) (key element)) = behind := by
    apply List.filter_eq_self.mpr
    intro element inBehind
    simpa [below] using behindLower element inBehind
  rw [noFront, allBehind]
  simp [below]

/-- The cursor moves to the end of the page. -/
theorem remaining_advance {elements : List Element} {cursor : Option Key}
    {size : Nat} (ascending : Ascending key elements) (positive : 0 < size) :
    remaining key elements
        (advance key cursor (page key size elements cursor)) =
      (remaining key elements cursor).drop size := by
  have whole : page key size elements cursor ++
      (remaining key elements cursor).drop size =
        remaining key elements cursor := List.take_append_drop _ _
  rcases List.eq_nil_or_concat (page key size elements cursor) with
    empty | ⟨front, last, isPage⟩
  · have nothing : remaining key elements cursor = [] := by
      rw [page, List.take_eq_nil_iff] at empty
      exact empty.resolve_left (by omega)
    rw [empty, nothing, advance]
    simpa using nothing
  · rw [isPage, List.concat_eq_append, List.append_assoc] at whole
    rw [isPage, List.concat_eq_append, advance]
    simpa using remaining_of_split ascending whole.symm

/-- Behind a full page the cursor is the key of an element. -/
theorem advance_of_full {elements : List Element} {cursor : Option Key}
    {size : Nat} (positive : 0 < size)
    (full : ¬ (page key size elements cursor).length < size) :
    ∃ last ∈ elements,
      advance key cursor (page key size elements cursor) = some (key last) := by
  rcases List.eq_nil_or_concat (page key size elements cursor) with
    empty | ⟨front, last, isPage⟩
  · rw [empty, List.length_nil] at full
    omega
  · have onPage : last ∈ page key size elements cursor := by
      simp [isPage]
    refine ⟨last, ?_, ?_⟩
    · have remains := List.mem_of_mem_take onPage
      simp only [remaining, List.mem_reverse, List.mem_filter] at remains
      exact remains.1
    · rw [isPage, List.concat_eq_append, advance]
      simp

/-- Enough calls read everything that remains, page after page. -/
theorem readAll_remaining {entries : List Element} {size : Nat}
    (positive : 0 < size) {fuel : Nat} {logs : Nat → List Element}
    {cursor : Option Key}
    (first : remaining key (logs 0) cursor = remaining key entries cursor)
    (appended : ∀ call, ∃ newer, logs call = entries ++ newer)
    (ascending : ∀ call, Ascending key (logs call))
    (enough : (remaining key entries cursor).length < fuel) :
    ∃ pages, readAll key size fuel logs cursor = some pages ∧
      pages.flatten = remaining key entries cursor := by
  induction fuel generalizing logs cursor with
  | zero => omega
  | succ fuel induction =>
      have isPage : page key size (logs 0) cursor =
          page key size entries cursor := by
        rw [page, page, first]
      rw [readAll]
      simp only [isPage]
      split
      · rename_i short
        refine ⟨_, rfl, ?_⟩
        rw [List.flatten_singleton, page_of_short short]
      · rename_i full
        obtain ⟨last, member, isLast⟩ := advance_of_full positive full
        have entriesAscending : Ascending key entries := by
          obtain ⟨newer, isLog⟩ := appended 0
          have whole := ascending 0
          rw [isLog] at whole
          exact (List.pairwise_append.mp whole).1
        have rest : remaining key entries
            (advance key cursor (page key size entries cursor)) =
            (remaining key entries cursor).drop size :=
          remaining_advance entriesAscending positive
        have next : remaining key (logs 1)
            (advance key cursor (page key size entries cursor)) =
            remaining key entries
              (advance key cursor (page key size entries cursor)) := by
          obtain ⟨newer, isLog⟩ := appended 1
          have whole := ascending 1
          rw [isLog] at whole
          rw [isLast, isLog]
          apply remaining_append
          intro element isNewer
          exact le_of_lt ((List.pairwise_append.mp whole).2.2 last member
            element isNewer)
        have fewer : (remaining key entries
            (advance key cursor (page key size entries cursor))).length <
            fuel := by
          rw [rest, List.length_drop]
          rw [page, List.length_take] at full
          omega
        obtain ⟨pages, read, flat⟩ := induction next
          (fun call => appended (call + 1)) (fun call => ascending (call + 1))
          fewer
        refine ⟨page key size entries cursor :: pages, ?_, ?_⟩
        · rw [read]
          rfl
        · rw [List.flatten_cons, flat, rest]
          exact List.take_append_drop _ _

/-- Reading page after page terminates and gives the log as the first call
finds it, newest first, whatever is appended meanwhile. -/
theorem readAll_complete {entries : List Element} {size : Nat}
    (positive : 0 < size) {logs : Nat → List Element}
    (first : logs 0 = entries)
    (appended : ∀ call, ∃ newer, logs call = entries ++ newer)
    (ascending : ∀ call, Ascending key (logs call)) :
    ∃ pages, readAll key size (entries.length + 1) logs none = some pages ∧
      pages.flatten = entries.reverse := by
  have whole : remaining key entries none = entries.reverse :=
    remaining_none entries
  rw [← whole]
  apply readAll_remaining positive _ appended ascending
  · rw [remaining_none, List.length_reverse]
    omega
  · rw [first]

end Lib.Paging
