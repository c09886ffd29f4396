import BenchmarkHost.Library.Machine
import BenchmarkHost.Library.Dictionary
import BenchmarkHost.Messages

/-! `FunctionRpcService`, one instance for every `EventStream` call.

The outbound subscriptions of all calls share one dictionary. An entry under a
worker id stands for the subscription created under it: the stream it writes
to, whether it is still subscribed, and the events behind its `ObserveOn`.
Handshakes and `finally` blocks are single steps; a peer may send anything.
-/

set_option autoImplicit false

namespace BenchmarkHost

open Library

/-- An `EventStream` call, and the response stream that belongs to it. -/
abbrev CallId := Nat

/-- How `messageAvailable` stops: no further message, a cancelled call, or a
read that faults. -/
inductive StreamEnd where
  | completed | cancelled | faulted
  deriving DecidableEq, Repr

inductive EventStreamCall where
  | notStarted
  | awaitingFirst
  | serving (workerId : String)
  | ended
  deriving DecidableEq, Repr

structure OutboundSubscription where
  responseStream : CallId
  live : Bool
  queue : List RpcEvent
  /-- A `WriteAsync` of the subscriber has not returned yet. -/
  writing : Bool
  deriving DecidableEq, Repr

namespace OutboundSubscription

def create (responseStream : CallId) : OutboundSubscription := ⟨responseStream, true, [], false⟩

def onNext (subscription : OutboundSubscription) (event : RpcEvent) : OutboundSubscription :=
  if subscription.live then { subscription with queue := subscription.queue ++ [event] }
  else subscription

def dispose (subscription : OutboundSubscription) : OutboundSubscription :=
  { subscription with live := false, queue := [] }

end OutboundSubscription

structure FunctionRpcService where
  outboundEventSubscriptions : Dictionary String OutboundSubscription
  calls : CallId → EventStreamCall

inductive ServiceAction where
  | start (call : CallId)
  | receiveFirst (call : CallId) (message : StreamingMessage)
  | receive (call : CallId) (message : StreamingMessage)
  | finish (call : CallId) (how : StreamEnd)
  | outbound (event : RpcEvent)
  | write (workerId : String) (succeeds : Bool)
  | written (workerId : String)
  deriving DecidableEq, Repr

inductive ServiceObservation where
  | inbound (event : RpcEvent)
  | outbound (event : RpcEvent) (recipients : List CallId)
  | handshook (call : CallId) (workerId : String)
  | malformed (call : CallId)
  | attempted (call : CallId) (event : RpcEvent) (succeeds : Bool)
  | returned (call : CallId)
  | ended (call : CallId)
  deriving DecidableEq, Repr

namespace FunctionRpcService

def initial : FunctionRpcService := ⟨.empty, fun _ => .notStarted⟩

def setCall (service : FunctionRpcService) (call : CallId) (state : EventStreamCall) :
    FunctionRpcService :=
  { service with calls := Function.update service.calls call state }

/-- The `finally` block: every entry of the shared dictionary is disposed. -/
def finallyBlock (service : FunctionRpcService) (call : CallId) : FunctionRpcService :=
  { service.setCall call .ended with
    outboundEventSubscriptions :=
      service.outboundEventSubscriptions.mapEntries fun _ subscription => subscription.dispose }

/-- Look up the worker's subscription, or subscribe this call's stream. -/
def handshake (service : FunctionRpcService) (call : CallId) (workerId : String) :
    FunctionRpcService :=
  match service.outboundEventSubscriptions.tryGetValue workerId with
  | some _ => service.setCall call (.serving workerId) -- no-op
  | none =>
    { service.setCall call (.serving workerId) with
      outboundEventSubscriptions :=
        (service.outboundEventSubscriptions.tryAdd workerId (.create call)).1 }

/-- The first message of a call. Reading `WorkerId` of any other message raises. -/
def receiveFirst (service : FunctionRpcService) (call : CallId) (message : StreamingMessage) :
    Option (FunctionRpcService × List ServiceObservation) :=
  match service.calls call with
  | .awaitingFirst =>
    match message.startStream with
    | none => some (service.finallyBlock call, [.malformed call, .ended call])
    | some startStream =>
      some (service.handshake call startStream.workerId,
        [.handshook call startStream.workerId, .inbound ⟨startStream.workerId, message⟩])
  | _ => none

/-- A later message keeps the identity of the first. -/
def receive (service : FunctionRpcService) (call : CallId) (message : StreamingMessage) :
    Option (FunctionRpcService × List ServiceObservation) :=
  match service.calls call with
  | .serving workerId => some (service, [.inbound ⟨workerId, message⟩])
  | _ => none

def finish (service : FunctionRpcService) (call : CallId) :
    Option (FunctionRpcService × List ServiceObservation) :=
  match service.calls call with
  | .awaitingFirst | .serving _ => some (service.finallyBlock call, [.ended call])
  | .notStarted | .ended => none

/-- The response streams that an outbound event published now is handed to. -/
def recipients (service : FunctionRpcService) (event : RpcEvent) : List CallId :=
  service.outboundEventSubscriptions.collect fun workerId subscription =>
    if workerId = event.workerId then
      if subscription.live then some subscription.responseStream else none
    else none

def onNext (service : FunctionRpcService) (event : RpcEvent) : FunctionRpcService :=
  { service with
    outboundEventSubscriptions :=
      service.outboundEventSubscriptions.modify event.workerId (·.onNext event) }

/-- The subscriber takes its next event and calls `WriteAsync`; a failure is
caught. It takes no other event before that call returns. -/
def write (service : FunctionRpcService) (workerId : String) (succeeds : Bool) :
    Option (FunctionRpcService × List ServiceObservation) :=
  match service.outboundEventSubscriptions.tryGetValue workerId with
  | none => none
  | some subscription =>
    if subscription.live ∧ ¬ subscription.writing then
      match subscription.queue with
      | [] => none
      | event :: rest =>
        some ({ service with
            outboundEventSubscriptions := service.outboundEventSubscriptions.modify workerId
              fun subscription => { subscription with queue := rest, writing := true } },
          [.attempted subscription.responseStream event succeeds])
    else none

def written (service : FunctionRpcService) (workerId : String) :
    Option (FunctionRpcService × List ServiceObservation) :=
  match service.outboundEventSubscriptions.tryGetValue workerId with
  | none => none
  | some subscription =>
    if subscription.writing then
      some ({ service with
          outboundEventSubscriptions := service.outboundEventSubscriptions.modify workerId
            fun subscription => { subscription with writing := false } },
        [.returned subscription.responseStream])
    else none

def step (service : FunctionRpcService) :
    ServiceAction → Option (FunctionRpcService × List ServiceObservation)
  | .start call =>
    if service.calls call = .notStarted then some (service.setCall call .awaitingFirst, [])
    else none
  | .receiveFirst call message => service.receiveFirst call message
  | .receive call message => service.receive call message
  | .finish call _ => service.finish call
  | .outbound event => some (service.onNext event, [.outbound event (service.recipients event)])
  | .write workerId succeeds => service.write workerId succeeds
  | .written workerId => service.written workerId

def entry (service : FunctionRpcService) (workerId : String) : Option OutboundSubscription :=
  service.outboundEventSubscriptions.tryGetValue workerId

theorem recipients_eq (service : FunctionRpcService) (event : RpcEvent) :
    service.recipients event = ((service.entry event.workerId).bind fun subscription =>
      if subscription.live then some subscription.responseStream else none).toList :=
  Dictionary.collect_at _ _ _

theorem mem_recipients {service : FunctionRpcService} {event : RpcEvent} {call : CallId} :
    call ∈ service.recipients event ↔ ∃ subscription,
      service.entry event.workerId = some subscription ∧ subscription.live = true ∧
        subscription.responseStream = call := by
  rw [recipients_eq]
  cases found : service.entry event.workerId with
  | none => simp
  | some subscription =>
    cases live : subscription.live with
    | false => simp [live]
    | true => simpa [live] using eq_comm

/-! ### What each action does to the calls and the entries -/

theorem entry_finallyBlock (service : FunctionRpcService) (call : CallId) (workerId : String) :
    (service.finallyBlock call).entry workerId = (service.entry workerId).map (·.dispose) :=
  Dictionary.tryGetValue_mapEntries _ _ _

theorem calls_handshake (service : FunctionRpcService) (call : CallId) (workerId : String) :
    (service.handshake call workerId).calls =
      Function.update service.calls call (.serving workerId) := by
  unfold handshake
  split <;> rfl

theorem entry_handshake (service : FunctionRpcService) (call : CallId) (workerId other : String) :
    (service.handshake call workerId).entry other =
      if other = workerId then some ((service.entry workerId).getD (.create call))
      else service.entry other := by
  unfold handshake
  split
  · rename_i subscription found
    change service.entry other = _
    by_cases same : other = workerId
    · subst other
      simp [entry, found]
    · simp [same]
  · exact Dictionary.tryGetValue_tryAdd _ _ _ _

theorem entry_onNext (service : FunctionRpcService) (event : RpcEvent) (workerId : String) :
    (service.onNext event).entry workerId =
      if workerId = event.workerId then (service.entry workerId).map (·.onNext event)
      else service.entry workerId := by
  refine (Dictionary.tryGetValue_modify _ _ _ _).trans ?_
  by_cases same : workerId = event.workerId <;> simp [same, entry]

theorem start_some {service after : FunctionRpcService} {call : CallId}
    {out : List ServiceObservation} (stepped : service.step (.start call) = some (after, out)) :
    service.calls call = .notStarted ∧ after = service.setCall call .awaitingFirst ∧ out = [] := by
  simp only [step, Option.ite_none_right_eq_some, Option.some.injEq, Prod.mk.injEq] at stepped
  exact ⟨stepped.1, stepped.2.1.symm, stepped.2.2.symm⟩

theorem receiveFirst_some {service after : FunctionRpcService} {call : CallId}
    {message : StreamingMessage} {out : List ServiceObservation}
    (stepped : service.step (.receiveFirst call message) = some (after, out)) :
    service.calls call = .awaitingFirst ∧
      match message.startStream with
      | none => after = service.finallyBlock call ∧ out = [.malformed call, .ended call]
      | some startStream => after = service.handshake call startStream.workerId ∧
          out = [.handshook call startStream.workerId,
            .inbound ⟨startStream.workerId, message⟩] := by
  simp only [step, receiveFirst] at stepped
  split at stepped
  · rename_i waiting
    refine ⟨waiting, ?_⟩
    cases content : message.startStream with
    | none =>
      simp only [content, Option.some.injEq, Prod.mk.injEq] at stepped
      exact ⟨stepped.1.symm, stepped.2.symm⟩
    | some startStream =>
      simp only [content, Option.some.injEq, Prod.mk.injEq] at stepped
      exact ⟨stepped.1.symm, stepped.2.symm⟩
  · cases stepped

theorem receive_some {service after : FunctionRpcService} {call : CallId}
    {message : StreamingMessage} {out : List ServiceObservation}
    (stepped : service.step (.receive call message) = some (after, out)) :
    ∃ workerId, service.calls call = .serving workerId ∧ after = service ∧
      out = [.inbound ⟨workerId, message⟩] := by
  simp only [step, receive] at stepped
  split at stepped <;> cases stepped
  rename_i workerId serving
  exact ⟨workerId, serving, rfl, rfl⟩

theorem finish_some {service after : FunctionRpcService} {call : CallId} {how : StreamEnd}
    {out : List ServiceObservation}
    (stepped : service.step (.finish call how) = some (after, out)) :
    (service.calls call = .awaitingFirst ∨ ∃ workerId, service.calls call = .serving workerId) ∧
      after = service.finallyBlock call ∧ out = [.ended call] := by
  simp only [step, finish] at stepped
  split at stepped <;> cases stepped
  · rename_i waiting
    exact ⟨.inl waiting, rfl, rfl⟩
  · rename_i workerId serving
    exact ⟨.inr ⟨workerId, serving⟩, rfl, rfl⟩

theorem outbound_some {service after : FunctionRpcService} {event : RpcEvent}
    {out : List ServiceObservation} (stepped : service.step (.outbound event) = some (after, out)) :
    after = service.onNext event ∧ out = [.outbound event (service.recipients event)] := by
  cases stepped
  exact ⟨rfl, rfl⟩

theorem write_some {service after : FunctionRpcService} {workerId : String} {succeeds : Bool}
    {out : List ServiceObservation}
    (stepped : service.step (.write workerId succeeds) = some (after, out)) :
    ∃ subscription event rest, service.entry workerId = some subscription ∧
      subscription.live = true ∧ subscription.writing = false ∧
      subscription.queue = event :: rest ∧ after.calls = service.calls ∧
      (∀ other, after.entry other =
        if other = workerId then some { subscription with queue := rest, writing := true }
        else service.entry other) ∧
      out = [.attempted subscription.responseStream event succeeds] := by
  simp only [step, write] at stepped
  split at stepped
  · cases stepped
  · rename_i subscription found
    split at stepped
    · rename_i ready
      split at stepped
      · cases stepped
      · rename_i event rest queue
        cases stepped
        refine ⟨subscription, event, rest, found, ready.1, by simpa using ready.2, queue, rfl,
          fun other => ?_, rfl⟩
        simp only [entry, Dictionary.tryGetValue_modify, found, Option.map_some]
    · cases stepped

theorem written_some {service after : FunctionRpcService} {workerId : String}
    {out : List ServiceObservation}
    (stepped : service.step (.written workerId) = some (after, out)) :
    ∃ subscription, service.entry workerId = some subscription ∧ subscription.writing = true ∧
      after.calls = service.calls ∧
      (∀ other, after.entry other =
        if other = workerId then some { subscription with writing := false }
        else service.entry other) ∧
      out = [.returned subscription.responseStream] := by
  simp only [step, written] at stepped
  split at stepped
  · cases stepped
  · rename_i subscription found
    split at stepped
    · rename_i pending
      cases stepped
      refine ⟨subscription, found, pending, rfl, fun other => ?_, rfl⟩
      simp only [entry, Dictionary.tryGetValue_modify, found, Option.map_some]
    · cases stepped

def Idle (service : FunctionRpcService) (call : CallId) : Prop :=
  service.calls call = .notStarted ∨ service.calls call = .awaitingFirst

theorem idle_of_step {service after : FunctionRpcService} {action : ServiceAction}
    {out : List ServiceObservation} (stepped : service.step action = some (after, out))
    {call : CallId} (idle : after.Idle call) :
    service.Idle call ∧
      ∀ message, action ≠ .receiveFirst call message ∧ action ≠ .receive call message := by
  have disposal : ∀ other, (service.finallyBlock other).Idle call →
      service.Idle call ∧ call ≠ other := by
    intro other idle
    by_cases same : call = other
    · simp [Idle, finallyBlock, setCall, same] at idle
    · exact ⟨by simpa [Idle, finallyBlock, setCall, Function.update_of_ne same] using idle, same⟩
  cases action with
  | start other =>
    obtain ⟨unused, rfl, _⟩ := start_some stepped
    refine ⟨?_, by simp⟩
    by_cases same : call = other
    · exact .inl (same ▸ unused)
    · simpa [Idle, setCall, Function.update_of_ne same] using idle
  | receiveFirst other message =>
    obtain ⟨_, rest⟩ := receiveFirst_some stepped
    cases content : message.startStream with
    | none =>
      rw [content] at rest
      obtain ⟨before, different⟩ := disposal other (rest.1 ▸ idle)
      exact ⟨before, by simp [Ne.symm different]⟩
    | some startStream =>
      rw [content] at rest
      rw [Idle, rest.1, calls_handshake] at idle
      by_cases same : call = other
      · simp [same] at idle
      · rw [Function.update_of_ne same] at idle
        exact ⟨idle, by simp [Ne.symm same]⟩
  | receive other message =>
    obtain ⟨_, serving, rfl, _⟩ := receive_some stepped
    refine ⟨idle, fun later => ⟨by simp, ?_⟩⟩
    rintro same
    cases same
    rcases idle with idle | idle <;> rw [serving] at idle <;> cases idle
  | finish other how =>
    obtain ⟨_, rfl, _⟩ := finish_some stepped
    exact ⟨(disposal other idle).1, by simp⟩
  | outbound event =>
    obtain ⟨rfl, _⟩ := outbound_some stepped
    exact ⟨idle, by simp⟩
  | write workerId succeeds =>
    obtain ⟨_, _, _, _, _, _, _, calls, _⟩ := write_some stepped
    exact ⟨by simpa [Idle, calls] using idle, by simp⟩
  | written workerId =>
    obtain ⟨_, _, _, calls, _⟩ := written_some stepped
    exact ⟨by simpa [Idle, calls] using idle, by simp⟩

theorem greeting_cases {service after : FunctionRpcService} {action : ServiceAction}
    {out : List ServiceObservation} (stepped : service.step action = some (after, out))
    {call : CallId} {name : Option String}
    (greets : match name with
      | some workerId => .handshook call workerId ∈ out
      | none => .malformed call ∈ out) :
    ∃ message, action = .receiveFirst call message ∧
      message.startStream = name.map StartStream.mk := by
  cases action with
  | receiveFirst other message =>
    obtain ⟨_, rest⟩ := receiveFirst_some stepped
    cases content : message.startStream <;> rw [content] at rest <;> cases name <;>
      simp [rest.2] at greets
    · exact ⟨message, by rw [greets], content⟩
    · exact ⟨message, by rw [greets.1], by rw [content, greets.2]; rfl⟩
  | start other =>
    obtain ⟨_, _, rfl⟩ := start_some stepped
    cases name <;> simp at greets
  | receive other message =>
    obtain ⟨_, _, _, rfl⟩ := receive_some stepped
    cases name <;> simp at greets
  | finish other how =>
    obtain ⟨_, _, rfl⟩ := finish_some stepped
    cases name <;> simp at greets
  | outbound event =>
    obtain ⟨_, rfl⟩ := outbound_some stepped
    cases name <;> simp at greets
  | write owner succeeds =>
    obtain ⟨_, _, _, _, _, _, _, _, _, rfl⟩ := write_some stepped
    cases name <;> simp at greets
  | written owner =>
    obtain ⟨_, _, _, _, _, rfl⟩ := written_some stepped
    cases name <;> simp at greets

theorem handshook_cases {service after : FunctionRpcService} {action : ServiceAction}
    {out : List ServiceObservation} (stepped : service.step action = some (after, out))
    {call : CallId} {workerId : String} (shook : .handshook call workerId ∈ out) :
    ∃ message, action = .receiveFirst call message ∧ message.startStream = some ⟨workerId⟩ :=
  @greeting_cases _ _ _ _ stepped call (some workerId) shook

theorem malformed_cases {service after : FunctionRpcService} {action : ServiceAction}
    {out : List ServiceObservation} (stepped : service.step action = some (after, out))
    {call : CallId} (malformed : .malformed call ∈ out) :
    ∃ message, action = .receiveFirst call message ∧ message.startStream = none :=
  @greeting_cases _ _ _ _ stepped call none malformed

end FunctionRpcService

def serviceMachine : Machine FunctionRpcService ServiceAction ServiceObservation :=
  ⟨.initial, FunctionRpcService.step⟩

end BenchmarkHost
