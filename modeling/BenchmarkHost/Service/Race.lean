import BenchmarkHost.Service.RequestStream
import Mathlib.Data.List.TakeWhile

/-! The race between the reads of a call and its cancellation.

A message is received when its read completes, and it wins when `WhenAny`
answers with that read. The first end, fault or cancellation dooms the loop: no
message received after it wins.
-/

set_option autoImplicit false

namespace BenchmarkHost

open Library

/-! ### What a history tells -/

namespace CallObservation

def stops : CallObservation → Bool
  | .read .noMore | .read .faulted | .cancelled => true
  | _ => false

def receivedMessage : CallObservation → Option StreamingMessage
  | .read (.message message) => some message
  | _ => none

def wonMessage : CallObservation → Option StreamingMessage
  | .won (.message message) => some message
  | _ => none

def publishedEvent : CallObservation → Option RpcEvent
  | .published event => some event
  | _ => none

end CallObservation

section
variable (past : List CallObservation)

def received : List StreamingMessage := past.filterMap (·.receivedMessage)

def won : List StreamingMessage := past.filterMap (·.wonMessage)

def published : List RpcEvent := past.filterMap (·.publishedEvent)

def stopped : Bool := past.any (·.stops)

def beforeStop : List CallObservation := past.takeWhile (!·.stops)

end

section
variable {past : List CallObservation}

theorem received_append (past out : List CallObservation) :
    received (past ++ out) = received past ++ received out :=
  List.filterMap_append

theorem won_append (past out : List CallObservation) : won (past ++ out) = won past ++ won out :=
  List.filterMap_append

theorem published_append (past out : List CallObservation) :
    published (past ++ out) = published past ++ published out :=
  List.filterMap_append

theorem stopped_append (past out : List CallObservation) :
    stopped (past ++ out) = (stopped past || stopped out) :=
  List.any_append

theorem beforeStop_prefix_append (past out : List CallObservation) :
    beforeStop past <+: beforeStop (past ++ out) := by
  induction past with
  | nil => exact List.nil_prefix
  | cons first rest ih =>
    unfold beforeStop at ih ⊢
    rw [List.cons_append, List.takeWhile_cons, List.takeWhile_cons]
    cases first.stops with
    | true => exact List.prefix_refl _
    | false => exact (List.prefix_cons_inj first).mpr ih

theorem beforeStop_of_clean (clean : stopped past = false) : beforeStop past = past := by
  apply List.takeWhile_eq_self_iff.mpr
  intro observation member
  have quiet := List.any_eq_false.mp clean observation member
  simpa using quiet

theorem received_in_time (past : List CallObservation) :
    received (beforeStop past) <+: received past :=
  (List.takeWhile_prefix _).filterMap _

theorem wins_append (wins : won past <+: received (beforeStop past)) {out : List CallObservation}
    (none : won out = []) : won (past ++ out) <+: received (beforeStop (past ++ out)) := by
  rw [won_append, none, List.append_nil]
  exact wins.trans ((beforeStop_prefix_append past out).filterMap _)

theorem wins_of_clean (clean : stopped past = false) {rest : List StreamingMessage}
    (same : received past = won past ++ rest) : won past <+: received (beforeStop past) := by
  rw [beforeStop_of_clean clean, same]
  exact List.prefix_append _ _

end

/-! ### The tasks of a loop -/

theorem Winner.result_ok {completed : Winner} (available : completed.result = .ok ()) :
    ∃ message, completed = .requestTask (.message message) := by
  rcases completed with _ | _ | _ | _
  · cases available
  · exact ⟨_, rfl⟩
  · cases available
  · cases available

def RequestTask.stops : RequestTask → Bool
  | .completed .noMore | .completed .faulted => true
  | _ => false

namespace RequestLoop

/-- The loop stops before another read can win. -/
def doomed (loop : RequestLoop) : Bool := loop.cancelSource || loop.requestTask.stops

/-- A message that was received and that `WhenAny` has not been asked about. -/
def unclaimed (loop : RequestLoop) : List StreamingMessage :=
  match loop.position, loop.requestTask with
  | .whenAny, .completed (.message message) => [message]
  | _, _ => []

def Holds (loop : RequestLoop) (message : StreamingMessage) : Prop :=
  loop.requestTask = .completed (.message message) ∧ loop.current = some message

/-- What the position of a loop says of its tasks. -/
def Consistent (loop : RequestLoop) : Prop :=
  match loop.position with
  | .notStarted => loop = .initial
  | .moveNext => loop.requestTask ≠ .running ∧ loop.requestTask.stops = false
  | .whenAny => ∀ message, loop.requestTask = .completed (.message message) →
      loop.current = some message
  | .waiting => loop.cancelSource = false ∧ loop.requestTask.stops = false
  | .resume .cancelSource => loop.cancelSource = true
  | .resume (.requestTask outcome) => loop.requestTask = .completed outcome ∧
      ∀ message, outcome = .message message → loop.current = some message
  | .publish => ∃ message, loop.Holds message
  | .returned => True

end RequestLoop

/-- The reads of a call up to now, against the tasks of its loop. -/
structure Racing (past : List CallObservation) (loop : RequestLoop) : Prop where
  consistent : loop.Consistent
  wins : won past <+: received (beforeStop past)
  dooms : loop.position ≠ .returned → stopped past = loop.doomed
  claims : loop.position ≠ .returned → loop.doomed = false →
    received past = won past ++ loop.unclaimed

namespace Racing
variable {past out : List CallObservation} {loop after : RequestLoop}

theorem initial : Racing [] .initial := by
  constructor
  case consistent => exact rfl
  case wins => exact List.prefix_refl _
  case dooms => exact fun _ => rfl
  case claims => exact fun _ _ => rfl

theorem start (racing : Racing past loop) (unused : loop.position = .notStarted) :
    Racing past loop.start := by
  have same := racing.consistent
  simp only [RequestLoop.Consistent, unused] at same
  subst same
  constructor
  case consistent => exact ⟨by simp [RequestLoop.initial, RequestLoop.start], rfl⟩
  case wins => exact racing.wins
  case dooms => exact fun _ => racing.dooms (by simp [RequestLoop.initial])
  case claims => exact fun _ free => racing.claims (by simp [RequestLoop.initial]) free

theorem cancel (racing : Racing past loop) (cancelled : loop.cancel = some (after, out)) :
    Racing (past ++ out) after := by
  obtain ⟨unset, started, rfl, rfl⟩ := RequestLoop.cancel_some cancelled
  have consistent := racing.consistent
  constructor
  case consistent =>
    cases position : loop.position with
    | resume completed => cases completed <;> simp_all [RequestLoop.Consistent]
    | _ => simp_all [RequestLoop.Consistent, RequestLoop.Holds]
  case wins => exact wins_append racing.wins rfl
  case dooms =>
    intro _
    rw [stopped_append]
    exact Bool.or_true _
  case claims =>
    intro _ free
    cases free

theorem moveNext (racing : Racing past loop) (moved : loop.moveNext = some (after, out)) :
    Racing (past ++ out) after := by
  obtain ⟨position, rfl, rfl⟩ := RequestLoop.moveNext_some moved
  rw [List.append_nil]
  have consistent := racing.consistent
  simp only [RequestLoop.Consistent, position] at consistent
  have doomed : loop.doomed = loop.cancelSource := by
    rw [RequestLoop.doomed, consistent.2, Bool.or_false]
  have inside : loop.position ≠ .returned := by simp [position]
  constructor
  case consistent => simp [RequestLoop.Consistent]
  case wins => exact racing.wins
  case dooms =>
    intro _
    rw [racing.dooms inside, doomed]
    exact (Bool.or_false _).symm
  case claims =>
    intro _ free
    have unset : loop.doomed = false := doomed.trans ((Bool.or_false _).symm.trans free)
    have claims := racing.claims inside unset
    rw [RequestLoop.unclaimed, position] at claims
    exact claims

theorem stops_read (outcome : ReadOutcome) :
    (CallObservation.read outcome).stops = (RequestTask.completed outcome).stops := by
  cases outcome <;> rfl

theorem finishAwaited (racing : Racing past loop) (outcome : ReadOutcome)
    (waiting : loop.position = .waiting) :
    Racing (past ++ [.read outcome, .won outcome]) ⟨loop.cancelSource, .completed outcome,
      loop.currentAfter outcome, .resume (.requestTask outcome)⟩ := by
  have consistent := racing.consistent
  simp only [RequestLoop.Consistent, waiting] at consistent
  have inside : loop.position ≠ .returned := by simp [waiting]
  have free : loop.doomed = false := by
    rw [RequestLoop.doomed, consistent.1, consistent.2]
    rfl
  have clean : stopped past = false := (racing.dooms inside).trans free
  have claims := racing.claims inside free
  rw [RequestLoop.unclaimed, waiting, List.append_nil] at claims
  have ended : stopped (past ++ [.read outcome, .won outcome]) =
      (RequestTask.completed outcome).stops := by
    rw [stopped_append, clean, ← stops_read]
    exact Bool.or_false _
  have doomed : (RequestLoop.mk loop.cancelSource (.completed outcome)
      (loop.currentAfter outcome) (.resume (.requestTask outcome))).doomed =
      (RequestTask.completed outcome).stops := by
    rw [RequestLoop.doomed, consistent.1]
    rfl
  have received' : ∀ message, outcome = .message message →
      received (past ++ [.read outcome, .won outcome]) =
        won (past ++ [.read outcome, .won outcome]) ++ [] := by
    rintro message rfl
    rw [received_append, won_append, claims, List.append_nil]
    rfl
  constructor
  case consistent =>
    refine ⟨rfl, ?_⟩
    rintro message rfl
    rfl
  case wins =>
    cases outcome with
    | message message => exact wins_of_clean ended (received' message rfl)
    | noMore => exact wins_append racing.wins rfl
    | faulted => exact wins_append racing.wins rfl
  case dooms => exact fun _ => ended.trans doomed.symm
  case claims =>
    intro _ unstopped
    rw [doomed] at unstopped
    cases outcome with
    | message message => exact received' message rfl
    | noMore => cases unstopped
    | faulted => cases unstopped

/-- A read that completes before it is awaited, or after the loop was stopped. -/
theorem finishUnawaited (racing : Racing past loop) (outcome : ReadOutcome)
    (running : loop.requestTask = .running) (elsewhere : loop.position ≠ .waiting) :
    Racing (past ++ [.read outcome]) { loop with
      requestTask := .completed outcome, current := loop.currentAfter outcome } := by
  have consistent := racing.consistent
  have ended : stopped (past ++ [.read outcome]) =
      (stopped past || (RequestTask.completed outcome).stops) := by
    rw [stopped_append, ← stops_read]
    exact congrArg (stopped past || ·) (Bool.or_false _)
  have doomed : loop.doomed = loop.cancelSource := by
    rw [RequestLoop.doomed, running]
    exact Bool.or_false _
  -- A read is only running between `MoveNext` and the end of the race.
  have cases : loop.position = .whenAny ∨ loop.position = .resume .cancelSource ∨
      loop.position = .returned := by
    cases position : loop.position with
    | resume completed => cases completed <;> simp_all [RequestLoop.Consistent]
    | _ => simp_all [RequestLoop.Consistent, RequestLoop.Holds, RequestLoop.initial]
  constructor
  case consistent =>
    rcases cases with position | position | position <;>
      simp only [RequestLoop.Consistent, position] at consistent ⊢
    · rintro message same
      cases same
      rfl
    · exact consistent
  case wins => exact wins_append racing.wins rfl
  case dooms =>
    intro inside
    rw [ended, racing.dooms inside, doomed]
    rfl
  case claims =>
    intro inside free
    obtain ⟨unset, unstopped⟩ := Bool.or_eq_false_iff.mp free
    have claims := racing.claims inside (doomed.trans unset)
    rcases cases with position | position | position
    · rw [RequestLoop.unclaimed, position, running, List.append_nil] at claims
      rw [received_append, won_append, claims, RequestLoop.unclaimed, position]
      cases outcome with
      | message message => exact congrArg (· ++ _) (List.append_nil _).symm
      | noMore => cases unstopped
      | faulted => cases unstopped
    · simp only [RequestLoop.Consistent, position] at consistent
      dsimp only at unset
      rw [consistent] at unset
      cases unset
    · exact absurd position inside

theorem finishRead (racing : Racing past loop) {outcome : ReadOutcome}
    (finished : loop.finishRead outcome = some (after, out)) : Racing (past ++ out) after := by
  obtain ⟨running, ⟨waiting, rfl, rfl⟩ | ⟨elsewhere, rfl, rfl⟩⟩ :=
    RequestLoop.finishRead_some finished
  · exact racing.finishAwaited outcome waiting
  · exact racing.finishUnawaited outcome running elsewhere

theorem chooseCancel (racing : Racing past loop) (position : loop.position = .whenAny)
    (cancelled : loop.cancelSource = true) :
    Racing past { loop with position := .resume .cancelSource } := by
  constructor
  case consistent => exact cancelled
  case wins => exact racing.wins
  case dooms => exact fun _ => racing.dooms (by simp [position])
  case claims =>
    intro _ free
    rw [RequestLoop.doomed, cancelled] at free
    cases free

theorem chooseRead (racing : Racing past loop) {outcome : ReadOutcome}
    (position : loop.position = .whenAny) (unset : loop.cancelSource = false)
    (completed : loop.requestTask = .completed outcome) :
    Racing (past ++ [.won outcome]) { loop with position := .resume (.requestTask outcome) } := by
  have consistent := racing.consistent
  simp only [RequestLoop.Consistent, position] at consistent
  have inside : loop.position ≠ .returned := by simp [position]
  have doomed : loop.doomed = (RequestTask.completed outcome).stops := by
    rw [RequestLoop.doomed, unset, completed]
    rfl
  have ended : stopped (past ++ [.won outcome]) = (RequestTask.completed outcome).stops := by
    rw [stopped_append, racing.dooms inside, doomed]
    exact Bool.or_false _
  have claimed : ∀ message, outcome = .message message →
      received (past ++ [.won outcome]) = won (past ++ [.won outcome]) ++ [] := by
    rintro message rfl
    have before := racing.claims inside doomed
    rw [RequestLoop.unclaimed, position, completed] at before
    rw [received_append, won_append, before]
    rfl
  constructor
  case consistent =>
    refine ⟨completed, ?_⟩
    rintro message rfl
    exact consistent message completed
  case wins =>
    cases outcome with
    | message message => exact wins_of_clean ended (claimed message rfl)
    | noMore => exact wins_append racing.wins rfl
    | faulted => exact wins_append racing.wins rfl
  case dooms => exact fun _ => ended.trans doomed.symm
  case claims =>
    intro _ free
    have unstopped := doomed.symm.trans free
    cases outcome with
    | message message => exact claimed message rfl
    | noMore => cases unstopped
    | faulted => cases unstopped

theorem chooseNone (racing : Racing past loop) (position : loop.position = .whenAny)
    (unset : loop.cancelSource = false)
    (pending : ∀ outcome, loop.requestTask ≠ .completed outcome) :
    Racing past { loop with position := .waiting } := by
  have inside : loop.position ≠ .returned := by simp [position]
  have unstopped : loop.requestTask.stops = false := by
    cases task : loop.requestTask with
    | completed outcome => exact absurd task (pending outcome)
    | notCalled => rfl
    | running => rfl
  have unclaimed : loop.unclaimed = [] := by
    rw [RequestLoop.unclaimed, position]
    cases task : loop.requestTask with
    | completed outcome => exact absurd task (pending outcome)
    | notCalled => rfl
    | running => rfl
  constructor
  case consistent => exact ⟨unset, unstopped⟩
  case wins => exact racing.wins
  case dooms => exact fun _ => racing.dooms inside
  case claims =>
    intro _ free
    have claims := racing.claims inside free
    rw [unclaimed] at claims
    exact claims

theorem whenAny (racing : Racing past loop) (chosen : loop.whenAny = some (after, out)) :
    Racing (past ++ out) after := by
  obtain ⟨position, cases⟩ := RequestLoop.whenAny_some chosen
  rcases cases with ⟨cancelled, rfl, rfl⟩ | ⟨outcome, unset, completed, rfl, rfl⟩ |
    ⟨unset, pending, rfl, rfl⟩
  · rw [List.append_nil]
    exact racing.chooseCancel position cancelled
  · exact racing.chooseRead position unset completed
  · rw [List.append_nil]
    exact racing.chooseNone position unset pending

theorem toPublish (racing : Racing past loop) {completed : Winner}
    (position : loop.position = .resume completed) (available : completed.result = .ok ()) :
    Racing past loop.toPublish := by
  have consistent := racing.consistent
  have inside : loop.position ≠ .returned := by simp [position]
  obtain ⟨message, rfl⟩ := Winner.result_ok available
  simp only [RequestLoop.Consistent, position] at consistent
  constructor
  case consistent => exact ⟨message, consistent.1, consistent.2 message rfl⟩
  case wins => exact racing.wins
  case dooms => exact fun _ => racing.dooms inside
  case claims =>
    intro _ free
    have claims := racing.claims inside free
    rw [RequestLoop.unclaimed, position] at claims
    exact claims

theorem leave (racing : Racing past loop) : Racing past loop.leave := by
  constructor
  case consistent => exact trivial
  case wins => exact racing.wins
  case dooms => exact fun inside => absurd rfl inside
  case claims => exact fun inside => absurd rfl inside

theorem publish (racing : Racing past loop) (position : loop.position = .publish)
    (event : RpcEvent) : Racing (past ++ [.published event]) loop.start := by
  have consistent := racing.consistent
  have inside : loop.position ≠ .returned := by simp [position]
  simp only [RequestLoop.Consistent, position] at consistent
  obtain ⟨message, completed, _⟩ := consistent
  have silent : stopped (past ++ [.published event]) = stopped past :=
    (stopped_append _ _).trans (Bool.or_false _)
  constructor
  case consistent => simp [RequestLoop.Consistent, RequestLoop.start, completed, RequestTask.stops]
  case wins => exact wins_append racing.wins rfl
  case dooms => exact fun _ => silent.trans (racing.dooms inside)
  case claims =>
    intro _ free
    have claims := racing.claims inside free
    rw [RequestLoop.unclaimed, position] at claims
    rw [received_append, won_append, claims]
    rfl

theorem step {identity moved : EventStreamCall} (racing : Racing past loop)
    (unused : identity = .notStarted → loop.position = .notStarted)
    (moves : CallMoves identity loop moved after out) : Racing (past ++ out) after := by
  cases moves with
  | rests => simpa using racing
  | starts fresh => simpa using racing.start (unused fresh)
  | cancels cancelled => exact racing.cancel cancelled
  | moves moved => exact racing.moveNext moved
  | reads outcome finished => exact racing.finishRead finished
  | chooses chosen => exact racing.whenAny chosen
  | greets position available _ _ => simpa using racing.toPublish position available
  | continues position available _ => simpa using racing.toPublish position available
  | refuses _ _ _ _ => simpa using racing.leave
  | stops _ _ => simpa using racing.leave
  | publishes position _ _ => exact racing.publish position _

theorem won_received (racing : Racing past loop) : won past <+: received past :=
  racing.wins.trans (received_in_time past)

end Racing

end BenchmarkHost
