import Mathlib.Data.Finset.Card
import Mathlib.Data.List.Perm.Subperm
import Mathlib.Data.Finset.Dedup
import Mathlib.Order.Defs.LinearOrder

/-!
# The newest keys of several stores

A reader that wants the newest keys of two stores takes a page of the first one
and, when that is too short, fills up from the second.  What it gets are the
newest keys of both exactly when the two parts have no key in common and the
second store keeps back only older ones.
-/

namespace Lib

variable {Key : Type*} [LinearOrder Key]

/-- The picked keys are the newest of those available, as many as asked for,
each once. -/
structure Newest (count : Nat) (available picked : List Key) : Prop where
  inside : ∀ key ∈ picked, key ∈ available
  distinct : picked.Nodup
  complete : picked.length = min count available.toFinset.card
  newest : ∀ key ∈ available, key ∉ picked →
    ∀ other ∈ picked, key < other

namespace Newest

variable {count : Nat} {first second page given : List Key}

/-- The last keys of an ascending store. -/
theorem of_ascending (count : Nat)
    (ascending : first.Pairwise (· < ·)) :
    Newest count first (first.reverse.take count) where
  inside key member := List.mem_reverse.mp (List.mem_of_mem_take member)
  distinct := by
    have distinct : first.Nodup := ascending.imp ne_of_lt
    exact (List.nodup_reverse.mpr distinct).sublist (List.take_sublist _ _)
  complete := by
    have distinct : first.Nodup := ascending.imp ne_of_lt
    rw [List.toFinset_card_of_nodup distinct, List.length_take,
      List.length_reverse]
  newest := by
    intro key member notPicked other picked
    have split : first.reverse.take count ++ first.reverse.drop count =
        first.reverse := List.take_append_drop _ _
    have descending : first.reverse.Pairwise (fun key other => other < key) :=
      List.pairwise_reverse.mpr ascending
    rw [← split, List.pairwise_append] at descending
    have inReverse : key ∈ first.reverse := List.mem_reverse.mpr member
    rw [← split, List.mem_append] at inReverse
    rcases inReverse with inPage | behind
    · exact absurd inPage notPicked
    · exact descending.2.2 other picked key behind

/-- A page that is not full holds every key of its store. -/
theorem mem_of_short (newest : Newest count first page)
    (short : page.length < count) {key : Key} (member : key ∈ first) :
    key ∈ page := by
  have size : page.length = first.toFinset.card := by
    have complete := newest.complete
    omega
  have inside : page.toFinset ⊆ first.toFinset := by
    intro key member
    rw [List.mem_toFinset] at member ⊢
    exact newest.inside key member
  have same : page.toFinset = first.toFinset := by
    apply Finset.eq_of_subset_of_card_le inside
    rw [List.toFinset_card_of_nodup newest.distinct, size]
  rw [← List.mem_toFinset, same, List.mem_toFinset]
  exact member

/-- When a page filled up from a second store is the newest of both. -/
theorem append_iff (newest : Newest count first page)
    (subperm : given.Subperm second)
    (filled : given.length = min (count - page.length) second.length) :
    Newest count (first ++ second) (page ++ given) ↔
      (page ++ given).Nodup ∧ ∀ key ∈ second, key ∉ page ++ given →
        ∀ other ∈ page ++ given, key < other := by
  constructor
  · intro both
    refine ⟨both.distinct, ?_⟩
    intro key member
    exact both.newest key (List.mem_append_right _ member)
  · intro conditions
    obtain ⟨distinct, older⟩ := conditions
    have inside : ∀ key ∈ page ++ given, key ∈ first ++ second := by
      intro key member
      rcases List.mem_append.mp member with inPage | inGiven
      · exact List.mem_append_left _ (newest.inside key inPage)
      · exact List.mem_append_right _ (subperm.subset inGiven)
    have atMost : page.length ≤ count := by
      rw [newest.complete]
      exact min_le_left _ _
    refine ⟨inside, distinct, ?_, ?_⟩
    · have noMore : (page ++ given).length ≤
          (first ++ second).toFinset.card := by
        rw [← List.toFinset_card_of_nodup distinct]
        apply Finset.card_le_card
        intro key member
        rw [List.mem_toFinset] at member ⊢
        exact inside key member
      by_cases exhausted : second.length < count - page.length
      · -- the second store is given whole, and the page held the first one
        have short : page.length < count := by omega
        have isWhole : given.Perm second :=
          subperm.perm_of_length_le (by omega)
        have everything : (first ++ second).toFinset.card ≤
            (page ++ given).length := by
          rw [← List.toFinset_card_of_nodup distinct]
          apply Finset.card_le_card
          intro key member
          rw [List.mem_toFinset] at member ⊢
          rcases List.mem_append.mp member with inFirst | inSecond
          · exact List.mem_append_left _ (newest.mem_of_short short inFirst)
          · exact List.mem_append_right _ (isWhole.mem_iff.mpr inSecond)
        rw [List.length_append] at everything noMore ⊢
        omega
      · rw [List.length_append] at noMore ⊢
        omega
    · intro key member notPicked other picked
      rcases List.mem_append.mp member with inFirst | inSecond
      · have notInPage : key ∉ page := fun inPage =>
          notPicked (List.mem_append_left _ inPage)
        have full : ¬ page.length < count := fun short =>
          notInPage (newest.mem_of_short short inFirst)
        have nothingGiven : given = [] :=
          List.eq_nil_of_length_eq_zero (by omega)
        rw [nothingGiven, List.append_nil] at picked
        exact newest.newest key inFirst notInPage other picked
      · exact older key inSecond notPicked other picked

end Newest

end Lib
