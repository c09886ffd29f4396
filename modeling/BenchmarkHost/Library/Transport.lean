import BenchmarkHost.Library.Machine

/-! Messages that travel as packets.

A codec need not encode every message. A machine whose streams hold packets
takes the steps of the one whose streams hold messages, those apart that put a
message on a stream that cannot be encoded.
-/

set_option autoImplicit false

namespace Library

structure Codec (Message Packet : Type) where
  encode : Message → Option Packet
  decode : Packet → Option Message
  decode_encode : ∀ {message packet}, encode message = some packet → decode packet = some message

namespace Codec
variable {Message Packet : Type} (codec : Codec Message Packet)

def Encodes (message : Message) : Prop := (codec.encode message).isSome

instance (message : Message) : Decidable (codec.Encodes message) :=
  inferInstanceAs (Decidable (_ = true))

def encodeAll (messages : List Message) : List Packet := messages.filterMap codec.encode

@[simp] theorem encodeAll_nil : codec.encodeAll [] = [] := rfl

@[simp] theorem encodeAll_append (messages later : List Message) :
    codec.encodeAll (messages ++ later) = codec.encodeAll messages ++ codec.encodeAll later :=
  List.filterMap_append

variable {codec}

theorem encodeAll_cons {message : Message} (encodes : codec.Encodes message)
    (rest : List Message) : ∃ packet, codec.encodeAll (message :: rest) =
      packet :: codec.encodeAll rest ∧ codec.decode packet = some message := by
  obtain ⟨packet, encoded⟩ := Option.isSome_iff_exists.mp encodes
  exact ⟨packet, List.filterMap_cons_some encoded, codec.decode_encode encoded⟩

end Codec

namespace Machine
variable {State Other Action Observation : Type} {full : Machine State Action Observation}
  {limited : Machine Other Action Observation} {image : State → Other} {fit : State → Prop}
  {allowed : Observation → Prop}

/-- One machine takes the steps of the other in the image of its states, those
apart with observations that are not allowed. -/
structure Restricts (full : Machine State Action Observation)
    (limited : Machine Other Action Observation) (image : State → Other) (fit : State → Prop)
    (allowed : Observation → Prop) : Prop where
  initially : limited.initial = image full.initial
  fits : fit full.initial
  follows : ∀ {state}, fit state → ∀ {action next out},
    limited.step (image state) action = some (next, out) ↔
      ∃ after, full.step state action = some (after, out) ∧ next = image after ∧
        ∀ observation ∈ out, allowed observation
  kept : ∀ {state}, fit state → ∀ {action after out},
    full.step state action = some (after, out) → (∀ observation ∈ out, allowed observation) →
      fit after

namespace Restricts
variable (restricts : Restricts full limited image fit allowed)
  {schedule : List Action} {seen : List Observation} {state : State} {other : Other}

include restricts

theorem lift (run : limited.Run schedule seen other) :
    ∃ state, full.Run schedule seen state ∧ other = image state ∧ fit state ∧
      ∀ observation ∈ seen, allowed observation := by
  induction run with
  | start =>
    exact ⟨full.initial, .start, restricts.initially, restricts.fits, List.forall_mem_nil allowed⟩
  | next _ stepped ih =>
    obtain ⟨state, run, rfl, good, fine⟩ := ih
    obtain ⟨after, followed, rfl, allowedToo⟩ := (restricts.follows good).mp stepped
    exact ⟨after, run.next followed, rfl, restricts.kept good followed allowedToo,
      List.forall_mem_append.mpr ⟨fine, allowedToo⟩⟩

theorem take (run : full.Run schedule seen state)
    (fine : ∀ observation ∈ seen, allowed observation) :
    limited.Run schedule seen (image state) ∧ fit state := by
  induction run with
  | start => exact ⟨restricts.initially ▸ .start, restricts.fits⟩
  | @next _ _ _ _ after _ _ stepped ih =>
    obtain ⟨before, allowedToo⟩ := List.forall_mem_append.mp fine
    obtain ⟨run, good⟩ := ih before
    have followed := (restricts.follows good).mpr ⟨after, stepped, rfl, allowedToo⟩
    exact ⟨run.next followed, restricts.kept good stepped allowedToo⟩

theorem exec_iff {state : State} (good : fit state) {schedule : List Action} {other : Other}
    {out : List Observation} :
    limited.exec (image state) schedule = some (other, out) ↔
      ∃ after, full.exec state schedule = some (after, out) ∧ other = image after ∧
        ∀ observation ∈ out, allowed observation := by
  induction schedule generalizing state out with
  | nil =>
    simp only [exec_nil, Option.some.injEq, Prod.mk.injEq]
    constructor
    · rintro ⟨rfl, rfl⟩
      exact ⟨state, ⟨rfl, rfl⟩, rfl, List.forall_mem_nil allowed⟩
    · rintro ⟨after, ⟨rfl, rfl⟩, rfl, _⟩
      exact ⟨rfl, rfl⟩
  | cons action rest ih =>
    constructor
    · intro executed
      obtain ⟨next, first, later, stepped, remaining, rfl⟩ := limited.exec_cons executed
      obtain ⟨between, followed, rfl, fine⟩ := (restricts.follows good).mp stepped
      obtain ⟨after, finished, same, others⟩ :=
        (ih (restricts.kept good followed fine)).mp remaining
      refine ⟨after, ?_, same, List.forall_mem_append.mpr ⟨fine, others⟩⟩
      simp [exec, followed, finished]
    · rintro ⟨after, executed, same, fine⟩
      obtain ⟨between, first, later, stepped, remaining, rfl⟩ := full.exec_cons executed
      obtain ⟨now, others⟩ := List.forall_mem_append.mp fine
      have followed := (restricts.follows good).mpr ⟨between, stepped, rfl, now⟩
      have finished := (ih (restricts.kept good stepped now)).mpr ⟨after, remaining, same, others⟩
      simp [exec, followed, finished]

theorem kept_exec {state final : State} (good : fit state) {schedule : List Action}
    {out : List Observation} (executed : full.exec state schedule = some (final, out))
    (fine : ∀ observation ∈ out, allowed observation) : fit final := by
  induction schedule generalizing state out with
  | nil =>
    cases executed
    exact good
  | cons action rest ih =>
    obtain ⟨between, first, later, stepped, remaining, rfl⟩ := full.exec_cons executed
    obtain ⟨now, others⟩ := List.forall_mem_append.mp fine
    exact ih (restricts.kept good stepped now) remaining others

/-- The runs are those whose observations are all allowed. -/
theorem run_iff : limited.Run schedule seen other ↔
    ∃ state, full.Run schedule seen state ∧ other = image state ∧
      ∀ observation ∈ seen, allowed observation := by
  constructor
  · intro run
    obtain ⟨state, run, same, _, fine⟩ := restricts.lift run
    exact ⟨state, run, same, fine⟩
  · rintro ⟨state, run, rfl, fine⟩
    exact (restricts.take run fine).1

end Restricts
end Machine
end Library
