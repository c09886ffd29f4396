import Mathlib.Data.List.Basic

/-! An observation pipeline with two hops.

A source appends events to a first queue; its consumer filters each event and
hands the kept ones to a second queue, whose consumer is the subscriber. Either
consumer may run at any time, so the events still to reach the subscriber are
spread over both queues: `pending` lists them in the order they will arrive.
-/

set_option autoImplicit false

namespace Library

/-- Only kept events pass the first hop. -/
structure Pipeline {Event : Type} (keep : Event → Bool) where
  observed : List Event
  selected : List Event
  kept : ∀ event ∈ selected, keep event = true

namespace Pipeline
variable {Event : Type} {keep : Event → Bool}

def empty : Pipeline keep := ⟨[], [], by simp⟩

def onNext (pipeline : Pipeline keep) (event : Event) : Pipeline keep :=
  { pipeline with observed := pipeline.observed ++ [event] }

def observe (pipeline : Pipeline keep) : Option (Pipeline keep) :=
  match pipeline.observed with
  | [] => none
  | event :: rest =>
    if passes : keep event then
      some ⟨rest, pipeline.selected ++ [event], by
        simpa [or_imp, forall_and, passes] using pipeline.kept⟩
    else some { pipeline with observed := rest }

def take (pipeline : Pipeline keep) : Option (Event × Pipeline keep) :=
  match found : pipeline.selected with
  | [] => none
  | event :: rest => some (event, ⟨pipeline.observed, rest, fun other member =>
      pipeline.kept other (found ▸ List.mem_cons_of_mem event member)⟩)

/-- The events the subscriber has yet to see, next first. -/
def pending (pipeline : Pipeline keep) : List Event :=
  pipeline.selected ++ pipeline.observed.filter keep

@[simp] theorem pending_empty : (empty : Pipeline keep).pending = [] := rfl

theorem pending_onNext (pipeline : Pipeline keep) (event : Event) :
    (pipeline.onNext event).pending = pipeline.pending ++ if keep event then [event] else [] := by
  by_cases passes : keep event <;> simp [pending, onNext, List.filter_append, passes]

theorem pending_observe {pipeline after : Pipeline keep}
    (observed : pipeline.observe = some after) : after.pending = pipeline.pending := by
  unfold observe at observed
  split at observed
  · cases observed
  · rename_i event rest queue
    split at observed <;> cases observed <;> rename_i passes <;>
      simp [pending, queue, passes]

theorem pending_take {pipeline after : Pipeline keep} {event : Event}
    (taken : pipeline.take = some (event, after)) :
    pipeline.pending = event :: after.pending := by
  unfold take at taken
  split at taken
  · cases taken
  · rename_i head rest queue
    cases taken
    simp [pending, queue]

/-- The supply of a pipeline whose subscriber spends `amount` on an event; each
hop before it takes one more. -/
def supply (amount : Nat) (pipeline : Pipeline keep) : Nat :=
  pipeline.observed.length * (amount + 1) + pipeline.selected.length * amount

theorem supply_onNext (amount : Nat) (pipeline : Pipeline keep) (event : Event) :
    (pipeline.onNext event).supply amount = pipeline.supply amount + (amount + 1) := by
  simp only [supply, onNext, List.length_append, List.length_singleton, Nat.add_mul, Nat.one_mul]
  omega

theorem supply_observe (amount : Nat) {pipeline after : Pipeline keep}
    (observed : pipeline.observe = some after) :
    after.supply amount + 1 ≤ pipeline.supply amount := by
  unfold observe at observed
  split at observed
  · cases observed
  · rename_i event rest queue
    split at observed <;> cases observed <;>
      simp only [supply, queue, List.length_append, List.length_cons, List.length_nil,
        Nat.add_mul, Nat.one_mul] <;> omega

theorem supply_take (amount : Nat) {pipeline after : Pipeline keep} {event : Event}
    (taken : pipeline.take = some (event, after)) :
    after.supply amount + amount = pipeline.supply amount := by
  unfold take at taken
  split at taken
  · cases taken
  · rename_i head rest queue
    cases taken
    simp only [supply, queue, List.length_cons, Nat.add_mul, Nat.one_mul]
    omega

theorem pending_eq_nil {pipeline : Pipeline keep} (observed : pipeline.observe = none)
    (taken : pipeline.take = none) : pipeline.pending = [] := by
  unfold observe at observed
  unfold take at taken
  split at observed
  · rename_i empty
    split at taken
    · rename_i none
      rw [pending, none, empty]
      rfl
    · cases taken
  · split at observed <;> cases observed

theorem keep_of_pending {pipeline : Pipeline keep} {event : Event}
    (member : event ∈ pipeline.pending) : keep event = true := by
  rcases List.mem_append.mp member with selected | waiting
  · exact pipeline.kept event selected
  · exact (List.mem_filter.mp waiting).2

end Pipeline

end Library
