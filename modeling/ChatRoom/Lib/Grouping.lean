import Mathlib.Algebra.BigOperators.Group.List.Lemmas
import Mathlib.Algebra.GroupWithZero.Nat

/-!
# Grouping by a key

A loop that files every item under its key, in a map from keys to vectors.
Each group has the items with its key as they came, and no group is empty.
-/

namespace Lib

variable {Key Item Value : Type*} [Ord Key]

/-- A `std::map` from keys to vectors. -/
abbrev Groups (Key Value : Type*) [Ord Key] := Std.TreeMap Key (List Value)

namespace Groups

/-- `groups[key].push_back(value)`. -/
def push (groups : Groups Key Value) (key : Key) (value : Value) :
    Groups Key Value :=
  groups.alter key fun group => some (group.getD [] ++ [value])

/-- The loop over the items. -/
def groupBy (key : Item → Key) (value : Item → Value) (items : List Item) :
    Groups Key Value :=
  items.foldl (fun groups item => groups.push (key item) (value item)) ∅

/-- Only the keys and values of the items matter. -/
theorem groupBy_eq_pairs (key : Item → Key) (value : Item → Value)
    (items : List Item) : groupBy key value items =
      groupBy Prod.fst Prod.snd
        (items.map fun item => (key item, value item)) := by
  rw [groupBy, groupBy, List.foldl_map]

variable [DecidableEq Key] [Std.TransOrd Key] [Std.LawfulEqOrd Key]

theorem getD_push (groups : Groups Key Value) (key other : Key)
    (value : Value) : (groups.push key value).getD other [] =
      groups.getD other [] ++ if key = other then [value] else [] := by
  rw [push, Std.TreeMap.getD_alter]
  simp only [Std.LawfulEqCmp.compare_eq_iff_eq]
  by_cases same : key = other
  · rw [if_pos same, if_pos same, same, Std.TreeMap.getD_eq_getD_getElem?]
    rfl
  · rw [if_neg same, if_neg same, List.append_nil]

theorem mem_push {groups : Groups Key Value} {key other : Key}
    {value : Value} :
    other ∈ groups.push key value ↔ key = other ∨ other ∈ groups := by
  rw [push, Std.TreeMap.mem_alter]
  simp only [Std.LawfulEqCmp.compare_eq_iff_eq]
  by_cases same : key = other
  · simp [same]
  · rw [if_neg same]
    exact (or_iff_right same).symm

variable {key : Item → Key} {value : Item → Value}

theorem getD_foldl_push (items : List Item) (groups : Groups Key Value)
    (other : Key) :
    (items.foldl (fun groups item => groups.push (key item) (value item))
      groups).getD other [] =
      groups.getD other [] ++
        (items.filter fun item => key item = other).map value := by
  induction items generalizing groups with
  | nil => exact (List.append_nil _).symm
  | cons item items induction =>
      rw [List.foldl_cons, induction, getD_push, List.append_assoc,
        List.filter_cons]
      by_cases same : key item = other
      · simp [same]
      · simp [same]

theorem mem_foldl_push {items : List Item} {groups : Groups Key Value}
    {other : Key} :
    other ∈ items.foldl
        (fun groups item => groups.push (key item) (value item)) groups ↔
      other ∈ groups ∨ ∃ item ∈ items, key item = other := by
  induction items generalizing groups with
  | nil => simp
  | cons item items induction =>
      rw [List.foldl_cons, induction, mem_push, List.exists_mem_cons_iff]
      tauto

/-- A group has the values of the items with its key, in order. -/
theorem getD_groupBy (items : List Item) (other : Key) :
    (groupBy key value items).getD other [] =
      (items.filter fun item => key item = other).map value := by
  rw [groupBy, getD_foldl_push, Std.TreeMap.getD_emptyc, List.nil_append]

/-- The keys are those of the items. -/
theorem mem_groupBy {items : List Item} {other : Key} :
    other ∈ groupBy key value items ↔ ∃ item ∈ items, key item = other := by
  rw [groupBy, mem_foldl_push]
  exact or_iff_right Std.TreeMap.not_mem_emptyc

theorem isEmpty_groupBy (items : List Item) :
    (groupBy key value items).isEmpty = items.isEmpty := by
  cases items with
  | nil => exact Std.TreeMap.isEmpty_emptyc
  | cons item items =>
      apply Std.TreeMap.isEmpty_eq_false_iff_exists_mem.mpr
      exact ⟨key item, mem_groupBy.mpr ⟨item, List.mem_cons_self, rfl⟩⟩

theorem mem_toList_groupBy {items : List Item} {other : Key}
    {group : List Value} :
    (other, group) ∈ (groupBy key value items).toList ↔
      (∃ item ∈ items, key item = other) ∧
        group = (items.filter fun item => key item = other).map value := by
  have isKey : other ∈ groupBy key value items ↔
      ∃ item ∈ items, key item = other := mem_groupBy
  rw [Std.TreeMap.mem_toList_iff_getElem?_eq_some, ← isKey, ← getD_groupBy]
  constructor
  · intro found
    refine ⟨Std.TreeMap.mem_iff_isSome_getElem?.mpr (by rw [found]; rfl), ?_⟩
    rw [Std.TreeMap.getD_eq_getD_getElem?, found]
    rfl
  · rintro ⟨member, rfl⟩
    exact Std.TreeMap.getElem?_eq_some_getD member

/-- The sizes of the groups whose keys are chosen add up to the number of
items with a chosen key. -/
theorem sum_sizes (chosen : Key → Bool) (items : List Item) :
    (((groupBy key value items).toList.filter fun entry => chosen entry.1).map
      fun entry => entry.2.length).sum =
      items.countP fun item => chosen (key item) := by
  have sizes : ∀ entry ∈ (groupBy key value items).toList,
      entry.2.length = (items.map key).count entry.1 := by
    rintro ⟨other, group⟩ member
    obtain ⟨-, rfl⟩ := mem_toList_groupBy.mp member
    simp only [List.length_map, List.count, List.countP_map,
      ← List.countP_eq_length_filter]
    rfl
  have keys : ((groupBy key value items).toList.map Prod.fst).Perm
      (items.map key).dedup := by
    rw [Std.TreeMap.map_fst_toList_eq_keys]
    apply (List.perm_ext_iff_of_nodup Std.TreeMap.nodup_keys
      (List.nodup_dedup _)).mpr
    intro other
    rw [Std.TreeMap.mem_keys, mem_groupBy, List.mem_dedup, List.mem_map]
  calc
    _ = (((groupBy key value items).toList.filter
          fun entry => chosen entry.1).map
          fun entry => (items.map key).count entry.1).sum := by
        congr 1
        apply List.map_congr_left
        intro entry member
        exact sizes entry (List.mem_of_mem_filter member)
    _ = ((((groupBy key value items).toList.map Prod.fst).filter chosen).map
          fun other => (items.map key).count other).sum := by
        rw [List.filter_map, List.map_map]
        rfl
    _ = (((items.map key).dedup.filter chosen).map
          fun other => (items.map key).count other).sum :=
        ((keys.filter chosen).map _).sum_eq
    _ = (items.map key).countP chosen :=
        List.sum_map_count_dedup_filter_eq_countP chosen _
    _ = items.countP fun item => chosen (key item) := List.countP_map

end Groups

end Lib
