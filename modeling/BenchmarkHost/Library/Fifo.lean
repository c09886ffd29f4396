import BenchmarkHost.Library.Machine

/-! First-in first-out parts of a machine.

A part that hands items on in order is described by what enters it, what leaves
it and what it holds. One equation or inclusion for a step gives the history of
a whole run: a part that may lose items lets out a subsequence of what entered,
and a part that loses nothing lets out a prefix of it.
-/

set_option autoImplicit false

namespace Library

/-! ### Histories in a row

A record of a part's history may be read at the items or at what they carry:
`Passes.filterMap` goes from one to the other.
-/

section
variable {Item : Type}

/-- What entered a part, what left it and what it still holds; `kept` says when
nothing is lost. -/
structure Passes (kept : Prop) (entered left held : List Item) : Prop where
  order : (left ++ held).Sublist entered
  all : kept → left ++ held = entered

theorem Passes.exact (kept : Prop) {entered left held : List Item}
    (same : left ++ held = entered) : Passes kept entered left held :=
  ⟨same ▸ .refl _, fun _ => same⟩

/-- The next part receives what the first one lets out; together they hold the
items of both, those nearest to the exit first. -/
theorem Passes.trans {kept : Prop} {entered between left first second : List Item}
    (before : Passes kept entered between first) (after : Passes kept between left second) :
    Passes kept entered left (second ++ first) := by
  constructor
  · rw [← List.append_assoc]
    exact (after.order.append_right first).trans before.order
  · intro none
    rw [← List.append_assoc, after.all none, before.all none]

theorem Passes.of_imp {kept other : Prop} {entered left held : List Item}
    (passes : Passes kept entered left held) (implies : other → kept) :
    Passes other entered left held :=
  ⟨passes.order, fun none => passes.all (implies none)⟩

theorem Passes.filterMap {Carried : Type} {kept : Prop} {entered left held : List Item}
    (passes : Passes kept entered left held) (carried : Item → Option Carried) :
    Passes kept (entered.filterMap carried) (left.filterMap carried) (held.filterMap carried) := by
  constructor
  · rw [← List.filterMap_append]
    exact passes.order.filterMap carried
  · intro none
    rw [← List.filterMap_append, passes.all none]

theorem filterMap_sublist {Observation : Type} {all some : Observation → Option Item}
    (weaker : ∀ observation item, some observation = .some item → all observation = .some item)
    (seen : List Observation) : (seen.filterMap some).Sublist (seen.filterMap all) := by
  induction seen with
  | nil => exact .slnil
  | cons observation rest ih =>
    cases chosen : some observation with
    | none =>
      rw [List.filterMap_cons_none chosen]
      exact ih.trans ((List.sublist_cons_self observation rest).filterMap all)
    | some item =>
      rw [List.filterMap_cons_some chosen,
        List.filterMap_cons_some (weaker observation item chosen)]
      exact ih.cons_cons item

/-- An observation that an enabling condition keeps out of a duplicate-free
record is not made up for by another one. -/
theorem not_mem_of_dropped {Observation : Type} {all some : Observation → Option Item}
    (weaker : ∀ observation item, some observation = .some item → all observation = .some item)
    {seen : List Observation} (once : (seen.filterMap all).Nodup) {observation : Observation}
    (member : observation ∈ seen) {item : Item} (sent : all observation = .some item)
    (dropped : some observation = none) : item ∉ seen.filterMap some := by
  obtain ⟨before, later, rfl⟩ := List.append_of_mem member
  have among : ∀ part : List Observation, item ∈ part.filterMap some → item ∈ part.filterMap all :=
    fun part held => (filterMap_sublist weaker part).subset held
  rw [List.filterMap_append, List.filterMap_cons_some sent, List.nodup_append,
    List.nodup_cons] at once
  rw [List.filterMap_append, List.filterMap_cons_none dropped, List.mem_append]
  rintro (held | held)
  · exact once.2.2 item (among before held) item List.mem_cons_self rfl
  · exact once.2.1.1 (among later held)

end

namespace Machine
variable {State Action Observation Item : Type} {machine : Machine State Action Observation}

/-- Items leave in the order they entered; some may be lost on the way. -/
structure Conveys (machine : Machine State Action Observation)
    (enters leaves : Observation → Option Item) (contents : State → List Item) : Prop where
  empty : contents machine.initial = []
  step : ∀ actions seen state action after out, machine.Run actions seen state →
    machine.step state action = some (after, out) →
    (out.filterMap leaves ++ contents after).Sublist (contents state ++ out.filterMap enters)

theorem Conveys.history {enters leaves : Observation → Option Item} {contents : State → List Item}
    (conveys : Conveys machine enters leaves contents) {actions : List Action}
    {seen : List Observation} {state : State} (run : machine.Run actions seen state) :
    (seen.filterMap leaves ++ contents state).Sublist (seen.filterMap enters) := by
  induction run with
  | start => simp [conveys.empty]
  | @next actions seen out state after action earlier stepped ih =>
    have onward := conveys.step _ _ _ _ _ _ earlier stepped
    simp only [List.filterMap_append, List.append_assoc]
    calc (seen.filterMap leaves ++ (out.filterMap leaves ++ contents after)).Sublist
          (seen.filterMap leaves ++ (contents state ++ out.filterMap enters)) :=
            onward.append_left _
      _ = seen.filterMap leaves ++ contents state ++ out.filterMap enters :=
            (List.append_assoc ..).symm
      List.Sublist _ (seen.filterMap enters ++ out.filterMap enters) := ih.append_right _

/-- Nothing is lost in a step whose observations are all acceptable. -/
structure ConveysAll (machine : Machine State Action Observation) (acceptable : Observation → Prop)
    (enters leaves : Observation → Option Item) (contents : State → List Item) : Prop where
  empty : contents machine.initial = []
  step : ∀ actions seen state action after out, machine.Run actions seen state →
    machine.step state action = some (after, out) →
    (∀ observation ∈ seen ++ out, acceptable observation) →
    out.filterMap leaves ++ contents after = contents state ++ out.filterMap enters

theorem ConveysAll.history {acceptable : Observation → Prop}
    {enters leaves : Observation → Option Item} {contents : State → List Item}
    (conveys : ConveysAll machine acceptable enters leaves contents) {actions : List Action}
    {seen : List Observation} {state : State} (run : machine.Run actions seen state)
    (accepted : ∀ observation ∈ seen, acceptable observation) :
    seen.filterMap leaves ++ contents state = seen.filterMap enters := by
  induction run with
  | start => simp [conveys.empty]
  | @next actions seen out state after action earlier stepped ih =>
    have onward := conveys.step _ _ _ _ _ _ earlier stepped accepted
    have before := ih fun observation member =>
      accepted observation (List.mem_append_left out member)
    simp only [List.filterMap_append, List.append_assoc, onward, ← before]

end Machine

end Library
