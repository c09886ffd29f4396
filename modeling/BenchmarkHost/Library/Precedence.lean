import Mathlib.Algebra.BigOperators.Intervals
import Mathlib.Data.List.Basic

/-! What comes before an item in a list without repetitions.

Of two items one comes before the other, and the items before each one add up
to the number of pairs.
-/

set_option autoImplicit false

namespace Library

variable {Item : Type} [DecidableEq Item]

def preceding (order : List Item) (item : Item) : List Item := order.take (order.idxOf item)

theorem preceding_append {order : List Item} {item : Item} (member : item ∈ order)
    (later : List Item) : preceding (order ++ later) item = preceding order item := by
  rw [preceding, List.idxOf_append_of_mem member,
    List.take_append_of_le_length List.idxOf_le_length]
  rfl

theorem preceding_last {order : List Item} {item : Item} (fresh : item ∉ order) :
    preceding (order ++ [item]) item = order := by
  rw [preceding, List.idxOf_append_of_notMem fresh, List.idxOf_cons_self, Nat.add_zero,
    List.take_left]

theorem preceding_sublist (order : List Item) (item : Item) :
    (preceding order item).Sublist order :=
  List.take_sublist _ _

theorem mem_preceding {order : List Item} {item other : Item} (member : other ∈ order) :
    other ∈ preceding order item ↔ order.idxOf other < order.idxOf item :=
  List.mem_take_iff_idxOf_lt member

theorem not_mem_preceding (order : List Item) (item : Item) : item ∉ preceding order item := by
  intro member
  have before := (mem_preceding ((preceding_sublist order item).subset member)).mp member
  exact Nat.lt_irrefl _ before

theorem preceding_total {order : List Item} {item other : Item} (first : item ∈ order)
    (second : other ∈ order) (different : item ≠ other) :
    item ∈ preceding order other ↔ other ∉ preceding order item := by
  have apart : order.idxOf item ≠ order.idxOf other := fun same =>
    different ((List.idxOf_inj first).mp same)
  rw [mem_preceding first, mem_preceding second]
  omega

theorem map_length_preceding {order : List Item} (once : order.Nodup) :
    (order.map fun item => (preceding order item).length) = List.range order.length := by
  apply List.ext_getElem
  · simp
  · intro position inside _
    rw [List.length_map] at inside
    rw [List.getElem_map, List.getElem_range, preceding, List.length_take,
      once.idxOf_getElem position inside]
    omega

/-- Each pair of items is counted once. -/
theorem sum_length_preceding {order : List Item} (once : order.Nodup) :
    (order.map fun item => (preceding order item).length).sum =
      order.length * (order.length - 1) / 2 := by
  rw [map_length_preceding once, ← Finset.sum_range_id, ← List.toFinset_range,
    List.sum_toFinset _ List.nodup_range, List.map_id']

/-- A list is counted by counting its items under distinct keys. -/
theorem length_eq_sum_count {keys items : List Item} (once : keys.Nodup)
    (among : ∀ item ∈ items, item ∈ keys) :
    items.length = (keys.map fun key => items.count key).sum := by
  rw [← List.sum_toFinset _ once, ← List.sum_toFinset_count_eq_length items]
  apply Finset.sum_subset
  · intro item member
    rw [List.mem_toFinset] at member ⊢
    exact among item member
  · intro item _ absent
    rw [List.mem_toFinset] at absent
    exact List.count_eq_zero.mpr absent

theorem flatMap_grow_absent {Part : Type} {keys : List Item} {key : Item} (absent : key ∉ keys)
    (parts : Item → List Part) (part : Part) :
    (keys.flatMap fun other => parts other ++ if key = other then [part] else []) =
      keys.flatMap parts := by
  refine List.flatMap_congr fun other member => ?_
  have different : key ≠ other := fun same => absent (same ▸ member)
  rw [if_neg different, List.append_nil]

theorem flatMap_grow_last {Part : Type} {keys : List Item} {key : Item} (absent : key ∉ keys)
    (parts : Item → List Part) (part : Part) :
    ((keys ++ [key]).flatMap fun other => parts other ++ if key = other then [part] else []) =
      (keys ++ [key]).flatMap parts ++ [part] := by
  rw [List.flatMap_append, flatMap_grow_absent absent, List.flatMap_append]
  simp

end Library
