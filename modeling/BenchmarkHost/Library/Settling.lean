import BenchmarkHost.Library.Machine
import Mathlib.Algebra.BigOperators.Group.Finset.Basic

/-! Machines that come to rest.

Some actions a machine takes on its own; the others come from outside. Where
each own action spends of a supply, the machine left to itself stops, however
its actions are ordered.
-/

set_option autoImplicit false

namespace Library

/-! ### A supply kept in several places -/

section
variable {Place : Type} [DecidableEq Place] {places : Finset Place} {place : Place}
  {before after : Place → Nat} (others : ∀ other, other ≠ place → after other = before other)

include others

theorem sum_erase_eq :
    ∑ other ∈ places.erase place, after other = ∑ other ∈ places.erase place, before other :=
  Finset.sum_congr rfl fun other remains => others other (Finset.ne_of_mem_erase remains)

theorem sum_spend {amount : Nat} (member : place ∈ places)
    (spent : after place + amount ≤ before place) :
    ∑ other ∈ places, after other + amount ≤ ∑ other ∈ places, before other := by
  have elsewhere := @sum_erase_eq _ _ places _ _ _ others
  have now := Finset.add_sum_erase places after member
  have earlier := Finset.add_sum_erase places before member
  omega

theorem sum_gain {amount : Nat} (gained : after place ≤ before place + amount) :
    ∑ other ∈ places, after other ≤ ∑ other ∈ places, before other + amount := by
  by_cases member : place ∈ places
  · have elsewhere := @sum_erase_eq _ _ places _ _ _ others
    have now := Finset.add_sum_erase places after member
    have earlier := Finset.add_sum_erase places before member
    omega
  · have elsewhere : ∑ other ∈ places, after other = ∑ other ∈ places, before other :=
      Finset.sum_congr rfl fun other remains => others other fun same => member (same ▸ remains)
    omega

end

namespace Machine

section
variable {State Action Observation : Type} (machine : Machine State Action Observation)
  (own : Action → Bool)

/-- Nothing is left that the machine would do on its own. -/
def Settled (state : State) : Prop :=
  ∀ action, own action = true → machine.step state action = none

/-- Every own action keeps the condition and spends of the supply. -/
structure Spends (holds : State → Prop) (supply : State → Nat) : Prop where
  kept : ∀ {state action after out}, holds state → own action = true →
    machine.step state action = some (after, out) → holds after
  spent : ∀ {state action after out}, holds state → own action = true →
    machine.step state action = some (after, out) → supply after < supply state

theorem exec_enabled {schedule : List Action}
    (enabled : ∀ state, ∀ action ∈ schedule, machine.step state action ≠ none) (state : State) :
    machine.exec state schedule ≠ none := by
  induction schedule generalizing state with
  | nil => simp
  | cons action rest ih =>
    obtain ⟨⟨after, out⟩, stepped⟩ := Option.ne_none_iff_exists'.mp
      (enabled state action List.mem_cons_self)
    obtain ⟨result, remaining⟩ := Option.ne_none_iff_exists'.mp
      (ih (fun state other member => enabled state other (List.mem_cons_of_mem action member)) after)
    simp [exec, stepped, remaining]

variable {machine own} {holds : State → Prop} {supply : State → Nat}

theorem exec_gain {amount : Nat} {schedule : List Action}
    (gained : ∀ action ∈ schedule, ∀ {state after out},
      machine.step state action = some (after, out) → supply after ≤ supply state + amount)
    {state final : State} {later : List Observation}
    (executed : machine.exec state schedule = some (final, later)) :
    supply final ≤ supply state + schedule.length * amount := by
  induction schedule generalizing state later with
  | nil =>
    cases executed
    exact Nat.le_add_right _ _
  | cons action rest ih =>
    obtain ⟨after, out, tail, stepped, remaining, rfl⟩ := machine.exec_cons executed
    have first := gained action List.mem_cons_self stepped
    have others := ih (fun other member => gained other (List.mem_cons_of_mem action member))
      remaining
    rw [List.length_cons, Nat.add_mul, Nat.one_mul]
    omega

namespace Spends

theorem held_exec (spends : machine.Spends own holds supply) {state final : State}
    {schedule : List Action} {later : List Observation} (held : holds state)
    (owned : ∀ action ∈ schedule, own action = true)
    (executed : machine.exec state schedule = some (final, later)) : holds final := by
  refine exec_invariant (fun action member {state after out} held stepped => ?_) held executed
  exact spends.kept held (owned action member) stepped

theorem length_le (spends : machine.Spends own holds supply) {state final : State}
    {schedule : List Action} {later : List Observation} (held : holds state)
    (owned : ∀ action ∈ schedule, own action = true)
    (executed : machine.exec state schedule = some (final, later)) :
    schedule.length + supply final ≤ supply state := by
  induction schedule generalizing state later with
  | nil =>
    cases executed
    exact Nat.le_of_eq (Nat.zero_add _)
  | cons action rest ih =>
    obtain ⟨after, out, tail, stepped, remaining, rfl⟩ := machine.exec_cons executed
    have first := owned action List.mem_cons_self
    have shorter := ih (spends.kept held first stepped)
      (fun other member => owned other (List.mem_cons_of_mem action member)) remaining
    have spent := spends.spent held first stepped
    rw [List.length_cons]
    omega

theorem settled_of_empty (spends : machine.Spends own holds supply) {state : State}
    (held : holds state) (empty : supply state = 0) : machine.Settled own state := by
  intro action owned
  cases stepped : machine.step state action with
  | none => rfl
  | some result =>
    have spent := spends.spent held owned (show _ = some (result.1, result.2) from stepped)
    omega

/-- A machine left to itself comes to rest. -/
theorem settles (spends : machine.Spends own holds supply) {state : State} (held : holds state) :
    ∃ schedule final later, (∀ action ∈ schedule, own action = true) ∧
      machine.exec state schedule = some (final, later) ∧ machine.Settled own final := by
  -- By induction on the supply: each own action leaves less of it.
  generalize bound : supply state = amount
  induction amount using Nat.strongRecOn generalizing state with
  | _ amount ih =>
    by_cases settled : machine.Settled own state
    · exact ⟨[], state, [], by simp, rfl, settled⟩
    · simp only [Settled, not_forall] at settled
      obtain ⟨action, owned, enabled⟩ := settled
      obtain ⟨⟨after, out⟩, stepped⟩ := Option.ne_none_iff_exists'.mp enabled
      have spent := spends.spent held owned stepped
      obtain ⟨schedule, final, later, rest, executed, settled⟩ :=
        ih (supply after) (bound ▸ spent) (spends.kept held owned stepped) rfl
      refine ⟨action :: schedule, final, out ++ later, ?_, ?_, settled⟩
      · exact List.forall_mem_cons.mpr ⟨owned, rest⟩
      · simp [exec, stepped, executed]

end Spends
end
end Machine
end Library
