import Mathlib.Data.List.Basic

/-! Transfers that may start over.

An item either starts the transfer over or continues it. What a receiver holds
at the end is what the items since the last restart carry, however they were
cut.
-/

set_option autoImplicit false

namespace Library

variable {Item Part : Type} (restarts : Item → Bool) (carried : Item → List Part)

/-- What is held after one more item. -/
def accumulate (held : List Part) (item : Item) : List Part :=
  if restarts item then carried item else held ++ carried item

/-- The items from the last restart on, or all of them when there is none. -/
def sinceRestart : List Item → List Item
  | [] => []
  | item :: rest => if rest.any restarts then sinceRestart rest else item :: rest

variable {restarts carried}

theorem any_eq_false_of_none {items : List Item} (none : ∀ item ∈ items, restarts item = false) :
    items.any restarts = false :=
  List.any_eq_false.mpr fun item member => by simp [none item member]

theorem sinceRestart_of_none {items : List Item} (none : ∀ item ∈ items, restarts item = false) :
    sinceRestart restarts items = items := by
  cases items with
  | nil => rfl
  | cons item rest =>
    rw [sinceRestart, any_eq_false_of_none fun other member =>
      none other (List.mem_cons_of_mem item member)]
    rfl

theorem sinceRestart_split {before after : List Item} {item : Item} (begins : restarts item = true)
    (none : ∀ later ∈ after, restarts later = false) :
    sinceRestart restarts (before ++ item :: after) = item :: after := by
  induction before with
  | nil =>
    rw [List.nil_append, sinceRestart, any_eq_false_of_none none]
    rfl
  | cons other before ih =>
    have again : (before ++ item :: after).any restarts = true := by simp [begins]
    rw [List.cons_append, sinceRestart, again, if_pos rfl, ih]

/-- A receiver ends up with what came since the last restart, and keeps what it
held before only when there was none. -/
theorem foldl_accumulate (items : List Item) (held : List Part) :
    items.foldl (accumulate restarts carried) held =
      (if items.any restarts then [] else held) ++
        (sinceRestart restarts items).flatMap carried := by
  induction items generalizing held with
  | nil => simp [sinceRestart]
  | cons item rest ih =>
    rw [List.foldl_cons, ih, List.any_cons, sinceRestart]
    by_cases again : rest.any restarts = true
    · simp [again]
    · rw [Bool.not_eq_true] at again
      have none : ∀ other ∈ rest, restarts other = false := fun other member => by
        simpa using List.any_eq_false.mp again other member
      rw [again, sinceRestart_of_none none]
      cases begins : restarts item <;> simp [accumulate, begins]

theorem foldl_accumulate_restart {item : Item} (begins : restarts item = true)
    (before after : List Item) (held : List Part) :
    (before ++ item :: after).foldl (accumulate restarts carried) held =
      (item :: after).foldl (accumulate restarts carried) [] := by
  rw [List.foldl_append, List.foldl_cons, List.foldl_cons, accumulate, accumulate, if_pos begins,
    if_pos begins]

theorem foldl_accumulate_of_none {items : List Item}
    (none : ∀ item ∈ items, restarts item = false) (held : List Part) :
    items.foldl (accumulate restarts carried) held = held ++ items.flatMap carried := by
  rw [foldl_accumulate, any_eq_false_of_none none, sinceRestart_of_none none]
  rfl

/-- Items that do not start over may be cut in any other way. -/
theorem foldl_accumulate_cut {pieces others : List Item}
    (continues : ∀ item ∈ pieces, restarts item = false)
    (continued : ∀ item ∈ others, restarts item = false)
    (same : pieces.flatMap carried = others.flatMap carried) (before after : List Item)
    (held : List Part) :
    (before ++ pieces ++ after).foldl (accumulate restarts carried) held =
      (before ++ others ++ after).foldl (accumulate restarts carried) held := by
  simp only [List.foldl_append]
  rw [foldl_accumulate_of_none continues, foldl_accumulate_of_none continued, same]

end Library
