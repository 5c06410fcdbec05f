import Mathlib.Data.List.Pairwise
import Mathlib.Data.List.Perm.Subperm
import Mathlib.Data.List.TakeWhile
import Mathlib.Order.Basic
import Mathlib.Order.Lattice

/-!
# Sorting by a key that does not tell all items apart

A sort that is not stable promises a permutation that is ordered by the key,
and nothing about items with one key.  When the items come newest first, such
a sort gives the oldest first exactly when no two of those that are shown have
one key.
-/

namespace Lib

variable {Item Key : Type*} [LinearOrder Key]

/-- What a sort by a key promises. -/
structure SortsBy (key : Item → Key) (items sorted : List Item) : Prop where
  perm : sorted.Perm items
  ordered : sorted.Pairwise fun first second => key first ≤ key second

/-- Two items with one key are told apart by neither the sort nor a stop: no
item stops the reading at or before them. -/
def Untied (key : Item → Key) (stops : Item → Bool) (items : List Item) :
    Prop :=
  items.Pairwise fun first second => key first = key second →
    stops first = true ∨ stops second = true ∨
      ∃ item ∈ items, key item < key first ∧ stops item = true

variable {key : Item → Key} {items : List Item}

/-- It does not matter in which order the two stand. -/
theorem Untied.of_mem {stops : Item → Bool} (untied : Untied key stops items)
    {first second : Item} (firstItem : first ∈ items)
    (secondItem : second ∈ items) (notSame : first ≠ second)
    (tied : key first = key second) :
    stops first = true ∨ stops second = true ∨
      ∃ item ∈ items, key item < key first ∧ stops item = true := by
  have symmetric : Std.Symm fun first second => key first = key second →
      stops first = true ∨ stops second = true ∨
        ∃ item ∈ items, key item < key first ∧ stops item = true := by
    constructor
    intro first second stopped same
    rw [same]
    exact or_left_comm.mp (stopped same.symm)
  exact List.Pairwise.forall untied firstItem secondItem notSame tied

theorem exists_sortsBy (key : Item → Key) (items : List Item) :
    ∃ sorted, SortsBy key items sorted := by
  refine ⟨items.mergeSort fun first second => decide (key first ≤ key second),
    List.mergeSort_perm _ _, ?_⟩
  have transitive : ∀ first second third : Item,
      decide (key first ≤ key second) = true →
      decide (key second ≤ key third) = true →
        decide (key first ≤ key third) = true := by
    intro first second third before behind
    rw [decide_eq_true_eq] at before behind ⊢
    exact before.trans behind
  have total : ∀ first second : Item,
      (decide (key first ≤ key second) || decide (key second ≤ key first)) =
        true := by
    intro first second
    rw [Bool.or_eq_true, decide_eq_true_eq, decide_eq_true_eq]
    exact le_total _ _
  apply (List.pairwise_mergeSort transitive total items).imp
  intro first second isLe
  exact of_decide_eq_true isLe

/-- Every result that is allowed for one list is that of some sort. -/
theorem exists_sort_of_sortsBy {sorted : List Item}
    (sorts : SortsBy key items sorted) :
    ∃ sort : List Item → List Item,
      (∀ items, SortsBy key items (sort items)) ∧ sort items = sorted := by
  classical
  choose any isSort using exists_sortsBy key
  refine ⟨fun others => if others = items then sorted else any others, ?_,
    if_pos rfl⟩
  intro others
  dsimp only
  by_cases same : others = items
  · rw [if_pos same, same]
    exact sorts
  · rw [if_neg same]
    exact isSort others

/-- Of two items with one key the sort may put either first, right behind the
items with smaller keys. -/
theorem exists_sortsBy_tied {first second : Item} {rest : List Item}
    (isPerm : items.Perm (first :: second :: rest))
    (tied : key first = key second) :
    ∃ front back, SortsBy key items (front ++ first :: second :: back) ∧
      ∀ item ∈ front, key item < key first := by
  obtain ⟨front, frontPerm, frontOrdered⟩ :=
    exists_sortsBy key (rest.filter fun item => key item < key first)
  obtain ⟨back, backPerm, backOrdered⟩ :=
    exists_sortsBy key (rest.filter fun item => ¬ key item < key first)
  have smaller : ∀ item ∈ front, key item < key first := by
    intro item member
    simpa using List.of_mem_filter (frontPerm.mem_iff.mp member)
  have larger : ∀ item ∈ back, key first ≤ key item := by
    intro item member
    simpa using List.of_mem_filter (backPerm.mem_iff.mp member)
  refine ⟨front, back, ⟨?_, ?_⟩, smaller⟩
  · have parts : (front ++ back).Perm rest := by
      apply (frontPerm.append backPerm).trans
      simpa only [decide_not] using List.filter_append_perm
        (fun item => decide (key item < key first)) rest
    calc
      (front ++ first :: second :: back).Perm
          (first :: second :: (front ++ back)) :=
        List.perm_middle.trans (List.perm_middle.cons first)
      _ |>.Perm (first :: second :: rest) :=
        (parts.cons second).cons first
      _ |>.Perm items := isPerm.symm
  · rw [List.pairwise_append, List.pairwise_cons, List.pairwise_cons]
    refine ⟨frontOrdered, ⟨?_, ?_, backOrdered⟩, ?_⟩
    · rw [List.forall_mem_cons]
      exact ⟨tied.le, larger⟩
    · intro item member
      exact tied ▸ larger item member
    · intro item member other behind
      simp only [List.mem_cons] at behind
      rcases behind with rfl | rfl | behind
      · exact (smaller item member).le
      · exact tied ▸ (smaller item member).le
      · exact (smaller item member).le.trans (larger other behind)

/-! ## What a reader shows -/

/-- Two items with one key that nothing stops are shown in either order. -/
theorem exists_shown_tied {stops : Item → Bool} {first second : Item}
    {rest : List Item} (isPerm : items.Perm (first :: second :: rest))
    (tied : key first = key second) (firstGoes : ¬ stops first = true)
    (secondGoes : ¬ stops second = true)
    (othersGo : ∀ item ∈ items, key item < key first → ¬ stops item = true) :
    ∃ sorted, SortsBy key items sorted ∧
      [first, second].Sublist (sorted.takeWhile fun item => !stops item) := by
  obtain ⟨front, back, sorts, smaller⟩ := exists_sortsBy_tied isPerm tied
  refine ⟨_, sorts, ?_⟩
  have goes : ∀ item ∈ front ++ [first, second], (!stops item) = true := by
    intro item member
    rw [Bool.not_eq_true', ← Bool.not_eq_true]
    rcases List.mem_append.mp member with inFront | isTied
    · have inItems : item ∈ items := sorts.perm.mem_iff.mp (by simp [inFront])
      exact othersGo item inItems (smaller item inFront)
    · simp only [List.mem_cons, List.not_mem_nil, or_false] at isTied
      rcases isTied with rfl | rfl
      · exact firstGoes
      · exact secondGoes
  have split : front ++ first :: second :: back =
      (front ++ [first, second]) ++ back := by simp
  rw [split, List.takeWhile_append_of_pos goes]
  apply List.Sublist.trans (List.sublist_append_right front [first, second])
  exact List.sublist_append_left _ _

/-- No two items that are shown have one key. -/
theorem Untied.shown_lt {stops : Item → Bool}
    (untied : Untied key stops items) (distinct : items.Nodup)
    {sorted : List Item} (sorts : SortsBy key items sorted) :
    (sorted.takeWhile fun item => !stops item).Pairwise
      fun first second => key first < key second := by
  have split := List.takeWhile_append_dropWhile
    (p := fun item => !stops item) (l := sorted)
  have ordered := sorts.ordered
  have sortedDistinct := sorts.perm.nodup_iff.mpr distinct
  rw [← split, List.pairwise_append] at ordered
  rw [← split] at sortedDistinct
  have different := (List.pairwise_append.mp sortedDistinct).1
  apply (ordered.1.and different).imp_of_mem
  rintro first second firstShown secondShown ⟨keys, notSame⟩
  have isItem : ∀ item ∈ sorted.takeWhile fun item => !stops item,
      item ∈ items ∧ stops item = false := by
    intro item shown
    constructor
    · exact sorts.perm.mem_iff.mp
        ((List.takeWhile_sublist _).subset shown)
    · simpa using List.mem_takeWhile_imp shown
  obtain ⟨firstItem, firstGoes⟩ := isItem first firstShown
  obtain ⟨secondItem, secondGoes⟩ := isItem second secondShown
  apply lt_of_le_of_ne keys
  intro tied
  rcases untied.of_mem firstItem secondItem notSame tied with
    firstStops | secondStops | ⟨item, member, smaller, itemStops⟩
  · rw [firstGoes] at firstStops
    cases firstStops
  · rw [secondGoes] at secondStops
    cases secondStops
  · -- the item that stops stands in front of both
    have inSorted := sorts.perm.mem_iff.mpr member
    rw [← split, List.mem_append] at inSorted
    rcases inSorted with shown | behind
    · rw [(isItem item shown).2] at itemStops
      cases itemStops
    · have larger := ordered.2.2 first firstShown item behind
      exact absurd smaller (not_lt.mpr larger)

section Reading

variable {older : Item → Item → Prop}

/-- The items a reader shows, up to the first one that stops it, are in the
finer order for every result of the sort exactly when there is no tie among
them. -/
theorem shown_ordered_iff (asymmetric : ∀ first second,
      older first second → ¬ older second first)
    (newestFirst : items.Pairwise fun newer item => older item newer)
    (agrees : ∀ first ∈ items, ∀ second ∈ items, older first second →
      key first ≤ key second) (stops : Item → Bool) :
    (∀ sorted, SortsBy key items sorted →
      (sorted.takeWhile fun item => !stops item).Pairwise older) ↔
      Untied key stops items := by
  constructor
  · intro ordered
    apply List.pairwise_iff_forall_sublist.mpr
    intro first second isSublist tied
    by_contra noStop
    simp only [not_or, not_exists, not_and] at noStop
    obtain ⟨firstGoes, secondGoes, othersGo⟩ := noStop
    obtain ⟨rest, isPerm⟩ := isSublist.exists_perm_append
    obtain ⟨sorted, sorts, shown⟩ :=
      exists_shown_tied isPerm tied firstGoes secondGoes othersGo
    have inOrder : older first second :=
      List.pairwise_iff_forall_sublist.mp (ordered sorted sorts) shown
    have reversed : older second first :=
      List.pairwise_iff_forall_sublist.mp newestFirst isSublist
    exact asymmetric first second inOrder reversed
  · intro untied sorted sorts
    have distinct : items.Nodup := by
      apply newestFirst.imp
      rintro newer item isOlder rfl
      exact asymmetric newer newer isOlder isOlder
    have comparable : ∀ {first second}, first ∈ items → second ∈ items →
        first ≠ second → older first second ∨ older second first := by
      have symmetric : Std.Symm fun first second =>
          older first second ∨ older second first := ⟨fun _ _ => Or.symm⟩
      intro first second firstItem secondItem notSame
      exact (newestFirst.imp Or.inr).forall firstItem secondItem notSame
    have isItem : ∀ item ∈ sorted.takeWhile fun item => !stops item,
        item ∈ items := by
      intro item shown
      exact sorts.perm.mem_iff.mp ((List.takeWhile_sublist _).subset shown)
    apply (untied.shown_lt distinct sorts).imp_of_mem
    intro first second firstShown secondShown less
    have firstItem := isItem first firstShown
    have secondItem := isItem second secondShown
    have notSame : first ≠ second := by
      rintro rfl
      exact lt_irrefl _ less
    rcases comparable firstItem secondItem notSame with inOrder | reversed
    · exact inOrder
    · have keys := agrees second secondItem first firstItem reversed
      exact absurd less (not_lt.mpr keys)

end Reading

end Lib
