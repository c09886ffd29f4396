import BenchmarkHost.Service.EventStream

/-! The read loop of `EventStream`, one await at a time.

`messageAvailable` starts a read and waits until it completes or the call is
cancelled. The loop resumes some time later, and publishes later still, so that
a read, a cancellation and the other calls may come in between. A handshake and
a `finally` block are single steps of the service all calls share.
-/

set_option autoImplicit false

namespace BenchmarkHost

open Library

inductive ReadOutcome where
  | message (message : StreamingMessage)
  | noMore
  | faulted
  deriving DecidableEq, Repr

/-- The task of the last `MoveNext` of a call. -/
inductive RequestTask where
  | notCalled
  | running
  | completed (outcome : ReadOutcome)
  deriving DecidableEq, Repr

/-- The task that `WhenAny` answers with. -/
inductive Winner where
  | cancelSource
  | requestTask (outcome : ReadOutcome)
  deriving DecidableEq, Repr

/-- What the handler of a call does next. -/
inductive LoopPosition where
  | notStarted
  | moveNext
  | whenAny
  /-- `WhenAny` has no answer yet. -/
  | waiting
  | resume (completed : Winner)
  | publish
  | returned
  deriving DecidableEq, Repr

structure RequestLoop where
  /-- The result of the cancel source is set. -/
  cancelSource : Bool
  requestTask : RequestTask
  current : Option StreamingMessage
  position : LoopPosition
  deriving DecidableEq, Repr

inductive CallObservation where
  | read (outcome : ReadOutcome)
  | won (outcome : ReadOutcome)
  | cancelled
  | published (event : RpcEvent)
  deriving DecidableEq, Repr

/-- `completed.Result`: there is a message, or this is how the loop stops. -/
def Winner.result : Winner → Except StreamEnd Unit
  | .cancelSource => .error .cancelled
  | .requestTask (.message _) => .ok ()
  | .requestTask .noMore => .error .completed
  | .requestTask .faulted => .error .faulted

namespace RequestLoop

def initial : RequestLoop := ⟨false, .notCalled, none, .notStarted⟩

def start (loop : RequestLoop) : RequestLoop := { loop with position := .moveNext }

/-- The token of the call fires. A result that is set already stays. -/
def cancel (loop : RequestLoop) : Option (RequestLoop × List CallObservation) :=
  if loop.cancelSource then none
  else
    match loop.position with
    -- The callback is registered when the handler starts.
    | .notStarted => none
    | .waiting =>
      some ({ loop with cancelSource := true, position := .resume .cancelSource }, [.cancelled])
    | _ => some ({ loop with cancelSource := true }, [.cancelled])

def moveNext (loop : RequestLoop) : Option (RequestLoop × List CallObservation) :=
  match loop.position with
  | .moveNext => some ({ loop with requestTask := .running, position := .whenAny }, [])
  | _ => none

def currentAfter (loop : RequestLoop) : ReadOutcome → Option StreamingMessage
  | .message message => some message
  | .noMore => none
  | .faulted => loop.current

/-- A read completes, be it awaited or not; it may outlive its call. -/
def finishRead (loop : RequestLoop) (outcome : ReadOutcome) :
    Option (RequestLoop × List CallObservation) :=
  match loop.requestTask with
  | .running =>
    let loop :=
      { loop with requestTask := .completed outcome, current := loop.currentAfter outcome }
    match loop.position with
    -- `WhenAny` answers with the first task to complete.
    | .waiting =>
      some ({ loop with position := .resume (.requestTask outcome) }, [.read outcome, .won outcome])
    | _ => some (loop, [.read outcome])
  | _ => none

/-- Of two tasks that are completed when it is called, `WhenAny` answers with
the first it was given. -/
def whenAny (loop : RequestLoop) : Option (RequestLoop × List CallObservation) :=
  match loop.position with
  | .whenAny =>
    if loop.cancelSource then some ({ loop with position := .resume .cancelSource }, [])
    else
      match loop.requestTask with
      | .completed outcome =>
        some ({ loop with position := .resume (.requestTask outcome) }, [.won outcome])
      | _ => some ({ loop with position := .waiting }, [])
  | _ => none

def toPublish (loop : RequestLoop) : RequestLoop := { loop with position := .publish }

/-- The `finally` block sets the result of the cancel source. -/
def leave (loop : RequestLoop) : RequestLoop :=
  { loop with cancelSource := true, position := .returned }

end RequestLoop

structure EventStreams where
  service : FunctionRpcService
  loops : CallId → RequestLoop

inductive StreamAction where
  | start (call : CallId)
  | cancel (call : CallId)
  | moveNext (call : CallId)
  | finishRead (call : CallId) (outcome : ReadOutcome)
  | whenAny (call : CallId)
  | resume (call : CallId)
  | publish (call : CallId)
  | outbound (event : RpcEvent)
  | write (workerId : String) (succeeds : Bool)
  | written (workerId : String)
  deriving DecidableEq, Repr

inductive StreamObservation where
  | call (call : CallId) (observation : CallObservation)
  | service (observation : ServiceObservation)
  deriving DecidableEq, Repr

namespace EventStreams

def initial : EventStreams := ⟨.initial, fun _ => .initial⟩

def setLoop (streams : EventStreams) (call : CallId) (loop : RequestLoop) : EventStreams :=
  { streams with loops := Function.update streams.loops call loop }

def advance (streams : EventStreams) (call : CallId)
    (moved : Option (RequestLoop × List CallObservation)) :
    Option (EventStreams × List StreamObservation) :=
  moved.map fun (loop, out) => (streams.setLoop call loop, out.map (.call call))

def serve (streams : EventStreams)
    (moved : Option (FunctionRpcService × List ServiceObservation)) :
    Option (EventStreams × List StreamObservation) :=
  moved.map fun (service, out) => ({ streams with service }, out.map .service)

def start (streams : EventStreams) (call : CallId) :
    Option (EventStreams × List StreamObservation) :=
  match streams.service.calls call with
  | .notStarted =>
    some ({ streams.setLoop call (streams.loops call).start with
      service := streams.service.setCall call .awaitingFirst }, [])
  | _ => none

def finallyBlock (streams : EventStreams) (call : CallId) : EventStreams :=
  { streams.setLoop call (streams.loops call).leave with
    service := streams.service.finallyBlock call }

def handshake (streams : EventStreams) (call : CallId) (workerId : String) : EventStreams :=
  { streams.setLoop call (streams.loops call).toPublish with
    service := streams.service.handshake call workerId }

/-- The handler goes on once `messageAvailable` has completed. -/
def resume (streams : EventStreams) (call : CallId) :
    Option (EventStreams × List StreamObservation) :=
  match (streams.loops call).position with
  | .resume completed =>
    match completed.result, streams.service.calls call with
    | .ok (), .awaitingFirst =>
      match (streams.loops call).current.bind (·.startStream) with
      | none =>
        some (streams.finallyBlock call, [.service (.malformed call), .service (.ended call)])
      | some startStream =>
        some (streams.handshake call startStream.workerId,
          [.service (.handshook call startStream.workerId)])
    | .ok (), .serving _ => some (streams.setLoop call (streams.loops call).toPublish, [])
    | .error _, .awaitingFirst | .error _, .serving _ =>
      some (streams.finallyBlock call, [.service (.ended call)])
    | _, _ => none
  | _ => none

def publish (streams : EventStreams) (call : CallId) :
    Option (EventStreams × List StreamObservation) :=
  match (streams.loops call).position, streams.service.calls call, (streams.loops call).current with
  | .publish, .serving workerId, some message =>
    some (streams.setLoop call (streams.loops call).start,
      [.call call (.published ⟨workerId, message⟩)])
  | _, _, _ => none

def step (streams : EventStreams) : StreamAction → Option (EventStreams × List StreamObservation)
  | .start call => streams.start call
  | .cancel call => streams.advance call (streams.loops call).cancel
  | .moveNext call => streams.advance call (streams.loops call).moveNext
  | .finishRead call outcome => streams.advance call ((streams.loops call).finishRead outcome)
  | .whenAny call => streams.advance call (streams.loops call).whenAny
  | .resume call => streams.resume call
  | .publish call => streams.publish call
  | .outbound event => streams.serve (streams.service.step (.outbound event))
  | .write workerId succeeds => streams.serve (streams.service.step (.write workerId succeeds))
  | .written workerId => streams.serve (streams.service.step (.written workerId))

end EventStreams

def eventStreamMachine : Machine EventStreams StreamAction StreamObservation :=
  ⟨.initial, EventStreams.step⟩

/-! ### What a step does to one loop -/

namespace RequestLoop
variable {loop after : RequestLoop} {out : List CallObservation}

theorem cancel_some (cancelled : loop.cancel = some (after, out)) :
    loop.cancelSource = false ∧ loop.position ≠ .notStarted ∧ out = [.cancelled] ∧
      after = { loop with
        cancelSource := true
        position := if loop.position = .waiting then .resume .cancelSource else loop.position } := by
  unfold cancel at cancelled
  split at cancelled
  · cases cancelled
  · rename_i unset
    split at cancelled <;> cases cancelled
    · rename_i waiting
      exact ⟨by simpa using unset, by simp [waiting], rfl, by rw [if_pos waiting]⟩
    · rename_i started elsewhere
      exact ⟨by simpa using unset, started, rfl, by rw [if_neg elsewhere]⟩

theorem moveNext_some (moved : loop.moveNext = some (after, out)) :
    loop.position = .moveNext ∧ out = [] ∧
      after = { loop with requestTask := .running, position := .whenAny } := by
  unfold moveNext at moved
  split at moved <;> cases moved
  rename_i position
  exact ⟨position, rfl, rfl⟩

theorem finishRead_some {outcome : ReadOutcome}
    (finished : loop.finishRead outcome = some (after, out)) :
    loop.requestTask = .running ∧
      ((loop.position = .waiting ∧ out = [.read outcome, .won outcome] ∧
          after = ⟨loop.cancelSource, .completed outcome, loop.currentAfter outcome,
            .resume (.requestTask outcome)⟩) ∨
        (loop.position ≠ .waiting ∧ out = [.read outcome] ∧
          after = { loop with
            requestTask := .completed outcome, current := loop.currentAfter outcome })) := by
  unfold finishRead at finished
  split at finished
  · rename_i running
    dsimp only at finished
    split at finished <;> cases finished
    · rename_i waiting
      exact ⟨running, .inl ⟨waiting, rfl, rfl⟩⟩
    · rename_i elsewhere
      exact ⟨running, .inr ⟨elsewhere, rfl, rfl⟩⟩
  · cases finished

theorem whenAny_some (chosen : loop.whenAny = some (after, out)) :
    loop.position = .whenAny ∧
      ((loop.cancelSource = true ∧ out = [] ∧
          after = { loop with position := .resume .cancelSource }) ∨
        (∃ outcome, loop.cancelSource = false ∧ loop.requestTask = .completed outcome ∧
          out = [.won outcome] ∧
          after = { loop with position := .resume (.requestTask outcome) }) ∨
        (loop.cancelSource = false ∧ (∀ outcome, loop.requestTask ≠ .completed outcome) ∧
          out = [] ∧ after = { loop with position := .waiting })) := by
  unfold whenAny at chosen
  split at chosen
  · rename_i position
    refine ⟨position, ?_⟩
    split at chosen
    · rename_i cancelled
      cases chosen
      exact .inl ⟨cancelled, rfl, rfl⟩
    · rename_i unset
      split at chosen <;> cases chosen
      · rename_i outcome completed
        exact .inr (.inl ⟨outcome, by simpa using unset, completed, rfl, rfl⟩)
      · rename_i pending
        exact .inr (.inr ⟨by simpa using unset, pending, rfl, rfl⟩)
  · cases chosen

/-! Only the loop body publishes. -/

theorem cancel_unpublished (cancelled : loop.cancel = some (after, out)) (event : RpcEvent) :
    .published event ∉ out := by
  obtain ⟨_, _, rfl, _⟩ := cancel_some cancelled
  simp

theorem moveNext_unpublished (moved : loop.moveNext = some (after, out)) (event : RpcEvent) :
    .published event ∉ out := by
  obtain ⟨_, rfl, _⟩ := moveNext_some moved
  simp

theorem finishRead_unpublished {outcome : ReadOutcome}
    (finished : loop.finishRead outcome = some (after, out)) (event : RpcEvent) :
    .published event ∉ out := by
  obtain ⟨_, ⟨_, rfl, _⟩ | ⟨_, rfl, _⟩⟩ := finishRead_some finished <;> simp

theorem whenAny_unpublished (chosen : loop.whenAny = some (after, out)) (event : RpcEvent) :
    .published event ∉ out := by
  obtain ⟨_, ⟨_, rfl, _⟩ | ⟨_, _, _, rfl, _⟩ | ⟨_, _, rfl, _⟩⟩ := whenAny_some chosen <;> simp

end RequestLoop

/-! ### What a step does to one call -/

/-- How a call and its loop move in one step, with what is observed of it. -/
inductive CallMoves (identity : EventStreamCall) (loop : RequestLoop) :
    EventStreamCall → RequestLoop → List CallObservation → Prop where
  | rests : CallMoves identity loop identity loop []
  | starts : identity = .notStarted → CallMoves identity loop .awaitingFirst loop.start []
  | cancels {after : RequestLoop} {out : List CallObservation} :
      loop.cancel = some (after, out) → CallMoves identity loop identity after out
  | moves {after : RequestLoop} {out : List CallObservation} :
      loop.moveNext = some (after, out) → CallMoves identity loop identity after out
  | reads {after : RequestLoop} {out : List CallObservation} (outcome : ReadOutcome) :
      loop.finishRead outcome = some (after, out) → CallMoves identity loop identity after out
  | chooses {after : RequestLoop} {out : List CallObservation} :
      loop.whenAny = some (after, out) → CallMoves identity loop identity after out
  | greets {startStream : StartStream} {completed : Winner} :
      loop.position = .resume completed → completed.result = .ok () →
      identity = .awaitingFirst → loop.current.bind (·.startStream) = some startStream →
      CallMoves identity loop (.serving startStream.workerId) loop.toPublish []
  | continues {workerId : String} {completed : Winner} :
      loop.position = .resume completed → completed.result = .ok () →
      identity = .serving workerId → CallMoves identity loop identity loop.toPublish []
  | refuses {completed : Winner} :
      loop.position = .resume completed → completed.result = .ok () →
      identity = .awaitingFirst → loop.current.bind (·.startStream) = none →
      CallMoves identity loop .ended loop.leave []
  | stops {how : StreamEnd} {completed : Winner} :
      loop.position = .resume completed → completed.result = .error how →
      CallMoves identity loop .ended loop.leave []
  | publishes {workerId : String} {message : StreamingMessage} :
      loop.position = .publish → identity = .serving workerId → loop.current = some message →
      CallMoves identity loop identity loop.start [.published ⟨workerId, message⟩]

def StreamObservation.about (call : CallId) : StreamObservation → Option CallObservation
  | .call other observation => if other = call then some observation else none
  | .service _ => none

def history (call : CallId) (seen : List StreamObservation) : List CallObservation :=
  seen.filterMap (·.about call)

theorem history_append (call : CallId) (seen out : List StreamObservation) :
    history call (seen ++ out) = history call seen ++ history call out :=
  List.filterMap_append

theorem history_own (call : CallId) (out : List CallObservation) :
    history call (out.map (.call call)) = out :=
  filterMap_map_some (fun _ => if_pos rfl) out

theorem history_other {call other : CallId} (different : other ≠ call)
    (out : List CallObservation) : history call (out.map (.call other)) = [] := by
  apply filterMap_map_none
  intro observation
  exact if_neg different

theorem history_service (call : CallId) (out : List ServiceObservation) :
    history call (out.map .service) = [] :=
  filterMap_map_none (fun _ => rfl) out

namespace EventStreams
variable {streams after : EventStreams} {out : List StreamObservation}

theorem advance_some {call : CallId} {moved : Option (RequestLoop × List CallObservation)}
    (advanced : streams.advance call moved = some (after, out)) :
    ∃ loop observed, moved = some (loop, observed) ∧ after = streams.setLoop call loop ∧
      out = observed.map (.call call) := by
  rw [advance, Option.map_eq_some_iff] at advanced
  obtain ⟨⟨loop, observed⟩, same, pair⟩ := advanced
  cases pair
  exact ⟨loop, observed, same, rfl, rfl⟩

theorem serve_some {moved : Option (FunctionRpcService × List ServiceObservation)}
    (served : streams.serve moved = some (after, out)) :
    ∃ service observed, moved = some (service, observed) ∧
      after = { streams with service } ∧ out = observed.map .service := by
  rw [serve, Option.map_eq_some_iff] at served
  obtain ⟨⟨service, observed⟩, same, pair⟩ := served
  cases pair
  exact ⟨service, observed, same, rfl, rfl⟩

theorem start_some {call : CallId} (started : streams.start call = some (after, out)) :
    streams.service.calls call = .notStarted ∧ out = [] ∧
      after = { streams.setLoop call (streams.loops call).start with
        service := streams.service.setCall call .awaitingFirst } := by
  unfold start at started
  split at started <;> cases started
  rename_i unused
  exact ⟨unused, rfl, rfl⟩

theorem resume_some {call : CallId} (resumed : streams.resume call = some (after, out)) :
    ∃ completed, (streams.loops call).position = .resume completed ∧
      ((∃ startStream, completed.result = .ok () ∧
          streams.service.calls call = .awaitingFirst ∧
          (streams.loops call).current.bind (·.startStream) = some startStream ∧
          after = streams.handshake call startStream.workerId ∧
          out = [.service (.handshook call startStream.workerId)]) ∨
        (completed.result = .ok () ∧ streams.service.calls call = .awaitingFirst ∧
          (streams.loops call).current.bind (·.startStream) = none ∧
          after = streams.finallyBlock call ∧
          out = [.service (.malformed call), .service (.ended call)]) ∨
        (∃ workerId, completed.result = .ok () ∧
          streams.service.calls call = .serving workerId ∧
          after = streams.setLoop call (streams.loops call).toPublish ∧ out = []) ∨
        ∃ how, completed.result = .error how ∧
          (streams.service.calls call = .awaitingFirst ∨
            ∃ workerId, streams.service.calls call = .serving workerId) ∧
          after = streams.finallyBlock call ∧ out = [.service (.ended call)]) := by
  unfold resume at resumed
  split at resumed
  · rename_i completed position
    refine ⟨completed, position, ?_⟩
    split at resumed
    · rename_i available waiting
      split at resumed
      · rename_i null
        cases resumed
        exact .inr (.inl ⟨available, waiting, null, rfl, rfl⟩)
      · rename_i startStream found
        cases resumed
        exact .inl ⟨startStream, available, waiting, found, rfl, rfl⟩
    · rename_i workerId available serving
      cases resumed
      exact .inr (.inr (.inl ⟨workerId, available, serving, rfl, rfl⟩))
    · rename_i how stopped waiting
      cases resumed
      exact .inr (.inr (.inr ⟨how, stopped, .inl waiting, rfl, rfl⟩))
    · rename_i how workerId stopped serving
      cases resumed
      exact .inr (.inr (.inr ⟨how, stopped, .inr ⟨workerId, serving⟩, rfl, rfl⟩))
    · cases resumed
  · cases resumed

theorem publish_some {call : CallId} (published : streams.publish call = some (after, out)) :
    ∃ workerId message, (streams.loops call).position = .publish ∧
      streams.service.calls call = .serving workerId ∧
      (streams.loops call).current = some message ∧
      after = streams.setLoop call (streams.loops call).start ∧
      out = [.call call (.published ⟨workerId, message⟩)] := by
  unfold publish at published
  split at published
  · rename_i workerId message position serving current
    cases published
    exact ⟨workerId, message, position, serving, current, rfl, rfl⟩
  · cases published

theorem loops_setLoop (streams : EventStreams) (call other : CallId) (loop : RequestLoop) :
    (streams.setLoop call loop).loops other =
      if other = call then loop else streams.loops other :=
  Function.update_apply ..

theorem calls_setCall (service : FunctionRpcService) (call other : CallId)
    (state : EventStreamCall) :
    (service.setCall call state).calls other = if other = call then state else service.calls other :=
  Function.update_apply ..

theorem moves_of_advance {call : CallId} {moved : Option (RequestLoop × List CallObservation)}
    (advanced : streams.advance call moved = some (after, out))
    (own : ∀ loop observed, moved = some (loop, observed) →
      CallMoves (streams.service.calls call) (streams.loops call)
        (streams.service.calls call) loop observed) (other : CallId) :
    CallMoves (streams.service.calls other) (streams.loops other)
      (after.service.calls other) (after.loops other) (history other out) := by
  obtain ⟨loop, observed, moved, rfl, rfl⟩ := advance_some advanced
  rw [loops_setLoop]
  by_cases same : other = call
  · subst other
    rw [if_pos rfl, history_own]
    exact own loop observed moved
  · rw [if_neg same, history_other (Ne.symm same)]
    exact .rests

theorem moves_of_serve {moved : Option (FunctionRpcService × List ServiceObservation)}
    (served : streams.serve moved = some (after, out))
    (keeps : ∀ service observed, moved = some (service, observed) →
      service.calls = streams.service.calls) (call : CallId) :
    CallMoves (streams.service.calls call) (streams.loops call)
      (after.service.calls call) (after.loops call) (history call out) := by
  obtain ⟨service, observed, moved, rfl, rfl⟩ := serve_some served
  rw [history_service]
  change CallMoves _ _ (service.calls call) _ _
  rw [keeps service observed moved]
  exact .rests

theorem moves_of_leave {call : CallId} {noted : List StreamObservation}
    (silent : ∀ other, history other noted = [])
    (own : CallMoves (streams.service.calls call) (streams.loops call) .ended
      (streams.loops call).leave []) (other : CallId) :
    CallMoves (streams.service.calls other) (streams.loops other)
      ((streams.finallyBlock call).service.calls other) ((streams.finallyBlock call).loops other)
      (history other noted) := by
  rw [silent]
  change CallMoves _ _ ((streams.service.setCall call .ended).calls other)
    ((streams.setLoop call (streams.loops call).leave).loops other) _
  rw [calls_setCall, loops_setLoop]
  by_cases same : other = call
  · subst other
    rw [if_pos rfl, if_pos rfl]
    exact own
  · rw [if_neg same, if_neg same]
    exact .rests

theorem moves_of_step {action : StreamAction} (stepped : streams.step action = some (after, out))
    (call : CallId) :
    CallMoves (streams.service.calls call) (streams.loops call)
      (after.service.calls call) (after.loops call) (history call out) := by
  cases action with
  | start actor =>
    obtain ⟨unused, rfl, rfl⟩ := start_some stepped
    change CallMoves _ _ ((streams.service.setCall actor .awaitingFirst).calls call)
      ((streams.setLoop actor (streams.loops actor).start).loops call) []
    rw [calls_setCall, loops_setLoop]
    by_cases same : call = actor
    · subst call
      rw [if_pos rfl, if_pos rfl]
      exact .starts unused
    · rw [if_neg same, if_neg same]
      exact .rests
  | cancel actor => exact moves_of_advance stepped (fun _ _ moved => .cancels moved) call
  | moveNext actor => exact moves_of_advance stepped (fun _ _ moved => .moves moved) call
  | finishRead actor outcome =>
    exact moves_of_advance stepped (fun _ _ moved => .reads outcome moved) call
  | whenAny actor => exact moves_of_advance stepped (fun _ _ moved => .chooses moved) call
  | resume actor =>
    obtain ⟨completed, position, cases⟩ := resume_some stepped
    rcases cases with ⟨startStream, available, waiting, found, rfl, rfl⟩ |
      ⟨available, waiting, null, rfl, rfl⟩ | ⟨workerId, available, serving, rfl, rfl⟩ |
      ⟨how, stopped, _, rfl, rfl⟩
    · change CallMoves _ _ ((streams.service.handshake actor startStream.workerId).calls call)
        ((streams.setLoop actor (streams.loops actor).toPublish).loops call) []
      rw [FunctionRpcService.calls_handshake, Function.update_apply, loops_setLoop]
      by_cases same : call = actor
      · subst call
        rw [if_pos rfl, if_pos rfl]
        exact .greets position available waiting found
      · rw [if_neg same, if_neg same]
        exact .rests
    · exact moves_of_leave (fun _ => rfl) (.refuses position available waiting null) call
    · rw [loops_setLoop]
      by_cases same : call = actor
      · subst call
        rw [if_pos rfl]
        exact .continues position available serving
      · rw [if_neg same]
        exact .rests
    · exact moves_of_leave (fun _ => rfl) (.stops position stopped) call
  | publish actor =>
    obtain ⟨workerId, message, position, serving, current, rfl, rfl⟩ := publish_some stepped
    rw [loops_setLoop]
    by_cases same : call = actor
    · subst call
      rw [if_pos rfl]
      change CallMoves _ _ _ _ (history actor ([.published ⟨workerId, message⟩].map (.call actor)))
      rw [history_own]
      exact .publishes position serving current
    · rw [if_neg same]
      change CallMoves _ _ _ _ (history call ([.published ⟨workerId, message⟩].map (.call actor)))
      rw [history_other (Ne.symm same)]
      exact .rests
  | outbound event =>
    apply moves_of_serve stepped
    intro service observed moved
    rw [(FunctionRpcService.outbound_some moved).1]
    rfl
  | write owner succeeds =>
    apply moves_of_serve stepped
    intro service observed moved
    obtain ⟨_, _, _, _, _, _, _, calls, _⟩ := FunctionRpcService.write_some moved
    exact calls
  | written owner =>
    apply moves_of_serve stepped
    intro service observed moved
    obtain ⟨_, _, _, calls, _⟩ := FunctionRpcService.written_some moved
    exact calls

end EventStreams

end BenchmarkHost
