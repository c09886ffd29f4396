import Mathlib.Data.List.Basic
import Mathlib.Data.Option.Basic

/-! Machines that answer an action with a new state and observations.

A run records the actions taken and everything observed, so that a property of
a history is a property of one run. Projections carry the runs of a composed
machine to the runs of one of its parts.
-/

set_option autoImplicit false

namespace Library

/-! ### Observations of one part among those of a whole -/

section
variable {Whole Part Kept : Type} {embed : Part → Whole}

theorem filterMap_map_some {select : Whole → Option Part}
    (kept : ∀ part, select (embed part) = some part)
    (seen : List Part) : (seen.map embed).filterMap select = seen := by
  rw [List.filterMap_map]
  exact (List.filterMap_congr fun part _ => kept part).trans List.filterMap_some

theorem filterMap_map_none {select : Whole → Option Kept}
    (lost : ∀ part, select (embed part) = none)
    (seen : List Part) : (seen.map embed).filterMap select = [] := by
  rw [List.filterMap_map]
  exact List.filterMap_eq_nil_iff.mpr fun part _ => lost part

theorem filterMap_through {choose : Whole → Option Kept} {select : Whole → Option Part}
    {next : Part → Option Kept} (same : ∀ whole, choose whole = (select whole).bind next)
    (seen : List Whole) : seen.filterMap choose = (seen.filterMap select).filterMap next := by
  rw [List.filterMap_filterMap]
  exact List.filterMap_congr fun whole _ => same whole

theorem filterMap_same {Other : Type} {choose : Whole → Option Kept} {select : Whole → Option Part}
    {chosen : Other → Option Kept} {selected : Other → Option Part} (next : Part → Option Kept)
    (first : ∀ whole, choose whole = (select whole).bind next)
    (second : ∀ other, chosen other = (selected other).bind next) {seen : List Whole}
    {heard : List Other} (same : seen.filterMap select = heard.filterMap selected) :
    seen.filterMap choose = heard.filterMap chosen := by
  rw [filterMap_through first, same, ← filterMap_through second]

end

/-- An action that is not enabled in a state has no successor there. -/
structure Machine (State Action Observation : Type) where
  initial : State
  step : State → Action → Option (State × List Observation)

namespace Machine

section
variable {State Action Observation : Type} (machine : Machine State Action Observation)

/-- The states reached from the initial one, with the actions taken and the
observations made on the way, oldest first. -/
inductive Run : List Action → List Observation → State → Prop where
  | start : Run [] [] machine.initial
  | next {actions : List Action} {seen out : List Observation} {state after : State}
      {action : Action} :
      Run actions seen state → machine.step state action = some (after, out) →
      Run (actions ++ [action]) (seen ++ out) after

/-- Execute a schedule; it fails at the first action that is not enabled. -/
def exec : State → List Action → Option (State × List Observation)
  | state, [] => some (state, [])
  | state, action :: rest => do
      let (after, out) ← machine.step state action
      let (final, later) ← exec after rest
      return (final, out ++ later)

@[simp] theorem exec_nil (state : State) : machine.exec state [] = some (state, []) := rfl

theorem exec_cons {state final : State} {action : Action} {rest : List Action}
    {seen : List Observation}
    (executed : machine.exec state (action :: rest) = some (final, seen)) :
    ∃ after out later, machine.step state action = some (after, out) ∧
      machine.exec after rest = some (final, later) ∧ seen = out ++ later := by
  simp only [exec, Option.bind_eq_bind, Option.bind_eq_some_iff, Option.pure_def,
    Option.some.injEq, Prod.exists, Prod.mk.injEq] at executed
  obtain ⟨after, out, stepped, final', later, rest, rfl, rfl⟩ := executed
  exact ⟨after, out, later, stepped, rest, rfl⟩

@[simp] theorem exec_singleton (state : State) (action : Action) :
    machine.exec state [action] = machine.step state action := by
  cases stepped : machine.step state action with
  | none => simp [exec, stepped]
  | some result => simp [exec, stepped]

variable {machine}

theorem Run.extend {actions more : List Action} {seen later : List Observation}
    {state final : State} (run : machine.Run actions seen state)
    (executed : machine.exec state more = some (final, later)) :
    machine.Run (actions ++ more) (seen ++ later) final := by
  induction more generalizing actions seen state later with
  | nil =>
    simp only [exec_nil, Option.some.injEq, Prod.mk.injEq] at executed
    obtain ⟨rfl, rfl⟩ := executed
    simpa using run
  | cons action rest ih =>
    obtain ⟨after, out, tail, stepped, remaining, rfl⟩ := machine.exec_cons executed
    have extended := ih (run.next stepped) remaining
    simpa only [List.append_assoc, List.singleton_append] using extended

/-- A concrete schedule is evaluated, not derived. -/
theorem Run.of_exec {actions : List Action} {seen : List Observation} {state : State}
    (executed : machine.exec machine.initial actions = some (state, seen)) :
    machine.Run actions seen state := by
  simpa using Run.start.extend executed

/-- What holds at the start and is kept by every step from a reached state
holds at the end of every run. -/
theorem Run.invariant {Holds : List Observation → State → Prop}
    (initially : Holds [] machine.initial)
    (kept : ∀ actions seen state action after out, machine.Run actions seen state →
      Holds seen state → machine.step state action = some (after, out) →
      Holds (seen ++ out) after)
    {actions : List Action} {seen : List Observation} {state : State}
    (run : machine.Run actions seen state) : Holds seen state := by
  induction run with
  | start => exact initially
  | next earlier stepped ih => exact kept _ _ _ _ _ _ earlier ih stepped

@[elab_as_elim] theorem exec_invariant {holds : State → Prop} {schedule : List Action}
    (kept : ∀ action ∈ schedule, ∀ {state after out}, holds state →
      machine.step state action = some (after, out) → holds after)
    {state final : State} {later : List Observation} (held : holds state)
    (executed : machine.exec state schedule = some (final, later)) : holds final := by
  induction schedule generalizing state later with
  | nil =>
    cases executed
    exact held
  | cons action rest ih =>
    obtain ⟨after, out, tail, stepped, remaining, rfl⟩ := machine.exec_cons executed
    exact ih (fun other member => kept other (List.mem_cons_of_mem action member))
      (kept action List.mem_cons_self held stepped) remaining

theorem exec_append {state middle final : State} {rest : List Action} {action : Action}
    {out later : List Observation} (executed : machine.exec state rest = some (middle, later))
    (stepped : machine.step middle action = some (final, out)) :
    machine.exec state (rest ++ [action]) = some (final, later ++ out) := by
  induction rest generalizing state later with
  | nil =>
    simp only [exec_nil, Option.some.injEq, Prod.mk.injEq] at executed
    obtain ⟨rfl, rfl⟩ := executed
    simpa using stepped
  | cons head tail ih =>
    obtain ⟨after, first, tailSeen, headStep, remaining, rfl⟩ := machine.exec_cons executed
    simp [exec, headStep, ih remaining]

/-- A run can be stopped after any of its actions and resumed. -/
theorem Run.split {first later : List Action} {seen : List Observation} {final : State}
    (run : machine.Run (first ++ later) seen final) :
    ∃ before state after, machine.Run first before state ∧
      machine.exec state later = some (final, after) ∧ seen = before ++ after := by
  -- By induction on the run, from its last action back to where it is to be split.
  generalize whole : first ++ later = actions at run
  induction run generalizing later with
  | start =>
    obtain ⟨rfl, rfl⟩ := List.append_eq_nil_iff.mp whole
    exact ⟨[], machine.initial, [], .start, rfl, rfl⟩
  | @next actions seen out state after action earlier stepped ih =>
    rcases List.eq_nil_or_concat later with rfl | ⟨rest, last, rfl⟩
    · rw [List.append_nil] at whole
      subst whole
      exact ⟨seen ++ out, after, [], earlier.next stepped, rfl, by simp⟩
    · rw [List.concat_eq_append, ← List.append_assoc] at whole
      obtain ⟨same, lastSame⟩ := List.append_inj' whole rfl
      obtain ⟨before, middle, between, run, executed, rfl⟩ := ih same
      cases lastSame
      refine ⟨before, middle, between ++ out, run, ?_, by simp⟩
      rw [List.concat_eq_append]
      exact exec_append executed stepped

/-- An observation was made by one step, from a state reached with exactly the
observations before it. -/
theorem Run.emitted {actions : List Action} {seen before later : List Observation}
    {state : State} {observation : Observation} (run : machine.Run actions seen state)
    (split : seen = before ++ observation :: later) :
    ∃ earlier first middle action after early late, machine.Run earlier first middle ∧
      machine.step middle action = some (after, early ++ observation :: late) ∧
      before = first ++ early := by
  induction run generalizing later with
  | start => simp at split
  | @next actions seen out state after action earlier stepped ih =>
    rcases List.append_eq_append_iff.mp split with ⟨early, rfl, rfl⟩ | ⟨rest, rfl, tail⟩
    · exact ⟨actions, seen, state, action, after, early, later, earlier, stepped, rfl⟩
    -- The observation is one of the last step's, or was there before it.
    · cases rest with
      | nil =>
        rw [List.nil_append] at tail
        subst tail
        exact ⟨actions, before, state, action, after, [], later, by simpa using earlier,
          stepped, by simp⟩
      | cons first rest =>
        obtain ⟨rfl, rfl⟩ := List.cons.inj tail
        exact ih rfl

end

section
variable {State Action Observation Part PartAction PartObservation : Type}
  {machine : Machine State Action Observation} {part : Machine Part PartAction PartObservation}

/-- A composed machine shows a part of itself: each of its steps is, seen
through `view`, a schedule of the part with the same observations. -/
structure Projects (machine : Machine State Action Observation)
    (part : Machine Part PartAction PartObservation)
    (view : State → Part) (sees : Observation → Option PartObservation) : Prop where
  initially : view machine.initial = part.initial
  follows : ∀ state action after out, machine.step state action = some (after, out) →
    ∃ schedule, part.exec (view state) schedule = some (view after, out.filterMap sees)

theorem Run.project {view : State → Part} {sees : Observation → Option PartObservation}
    (projects : Projects machine part view sees) {actions : List Action}
    {seen : List Observation} {state : State} (run : machine.Run actions seen state) :
    ∃ schedule, part.Run schedule (seen.filterMap sees) (view state) := by
  induction run with
  | start => exact ⟨[], by rw [projects.initially]; exact Run.start⟩
  | @next actions seen out state after action _ stepped ih =>
    obtain ⟨earlier, run⟩ := ih
    obtain ⟨schedule, executed⟩ := projects.follows _ _ _ _ stepped
    exact ⟨earlier ++ schedule, by simpa only [List.filterMap_append] using run.extend executed⟩

end

end Machine

end Library
