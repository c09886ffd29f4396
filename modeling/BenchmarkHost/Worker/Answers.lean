import BenchmarkHost.Worker.Client

/-! The test worker answers the requests it receives in order, each once.

Both hops of the inbound subscription and the queue of the outbound one are
first-in first-out; a response is lost only when its `WriteAsync` raises or
when there is no outbound subscription yet.
-/

set_option autoImplicit false

namespace BenchmarkHost

open Library

namespace ClientObservation

def receivedRequest : ClientObservation → Option String
  | .received message => message.requestedId
  | _ => none

def receivedMessage : ClientObservation → Option StreamingMessage
  | .received message => some message
  | _ => none

def handledId : ClientObservation → Option String
  | .handled id => some id
  | _ => none

def wroteMessage : ClientObservation → Option StreamingMessage
  | .wrote message => some message
  | _ => none

def wroteResponse : ClientObservation → Option String
  | .wrote message => message.respondedId
  | _ => none

def lossless : ClientObservation → Bool
  | .failed _ | .overlapped _ | .published _ false => false
  | .received _ | .handled _ | .raised | .published _ true | .wrote _ => true

end ClientObservation

open ClientObservation

namespace FunctionRpcClient

/-- The requests received and not handled yet, next first. -/
def requests (client : FunctionRpcClient) : List String :=
  client.inboundWorkerEvents.pending.filterMap (·.message.requestedId)

/-- The responses published and not written yet, next first. -/
def responses (client : FunctionRpcClient) : List String :=
  (client.outboundEvents.getD []).filterMap (·.message.respondedId)

/-- `RpcStream` has not come to the write of `StartStream`. -/
def Unstarted (client : FunctionRpcClient) : Prop :=
  client.phase = .constructed ∨ client.phase = .opened ∨ client.phase = .subscribed

structure WellFormed (client : FunctionRpcClient) : Prop where
  subscribed : client.outboundEvents = none ↔
    client.phase = .constructed ∨ client.phase = .opened
  answers : ∀ event ∈ client.outboundEvents.getD [], event.message.respondedId ≠ none

/-! ### What each action does -/

theorem requests_onNext (client : FunctionRpcClient) (message : StreamingMessage) :
    (client.inboundWorkerEvents.onNext ⟨client.workerId, message⟩).pending.filterMap
        (·.message.requestedId) = client.requests ++ message.requestedId.toList := by
  rw [Pipeline.pending_onNext, List.filterMap_append]
  congr 1
  have chosen := message.contentCase_eq_invocationRequest
  cases request : message.invocationRequest with
  | none =>
    have unset : message.requestedId = none := by simp [StreamingMessage.requestedId, request]
    split <;> simp [unset]
  | some content =>
    have passes : selectsRequest client.workerId ⟨client.workerId, message⟩ = true := by
      simp [selectsRequest, RpcEvent.messageType, chosen, request]
    simp [passes, StreamingMessage.requestedId, request]

theorem publish_own (client : FunctionRpcClient) (event : RpcEvent)
    (own : event.workerId = client.workerId) :
    client.publish event =
      ({ client with outboundEvents := client.outboundEvents.map (· ++ [event]) },
        client.outboundEvents.isSome) := by
  obtain ⟨workerId, phase, pipeline, queue, responding⟩ := client
  cases queue with
  | none => rfl
  | some queue => exact if_pos own

theorem receive_some {client after : FunctionRpcClient} {message : StreamingMessage}
    {out : List ClientObservation} (stepped : client.receive message = some (after, out)) :
    client.phase ≠ .constructed ∧
      after = { client with
        inboundWorkerEvents := client.inboundWorkerEvents.onNext ⟨client.workerId, message⟩ } ∧
      out = [.received message] := by
  unfold receive at stepped
  split at stepped <;> cases stepped <;> rename_i phase <;> exact ⟨by simp [phase], rfl, rfl⟩

theorem observe_some {client after : FunctionRpcClient} {out : List ClientObservation}
    (stepped : client.observe = some (after, out)) :
    ∃ pipeline, pipeline.pending = client.inboundWorkerEvents.pending ∧
      after = { client with inboundWorkerEvents := pipeline } ∧ out = [] := by
  unfold observe at stepped
  split at stepped <;> cases stepped
  rename_i pipeline observed
  exact ⟨pipeline, Pipeline.pending_observe observed, rfl, rfl⟩

/-- The filters let only requests through, so the handler never meets a null
`InvocationRequest`. -/
theorem handle_some {client after : FunctionRpcClient} {out : List ClientObservation}
    (stepped : client.handle = some (after, out)) :
    ∃ event pipeline request,
      client.inboundWorkerEvents.pending = event :: pipeline.pending ∧
      event.message.invocationRequest = some request ∧
      after = { client with
        inboundWorkerEvents := pipeline
        outboundEvents := client.outboundEvents.map (· ++ [client.responseTo request]) } ∧
      out = [.handled request.invocationId,
        .published (client.responseTo request) client.outboundEvents.isSome] := by
  unfold handle at stepped
  split at stepped
  · cases stepped
  · rename_i event pipeline taken
    have arrives := Pipeline.pending_take taken
    have passes := Pipeline.keep_of_pending (arrives ▸ List.mem_cons_self)
    simp only [selectsRequest, Bool.and_eq_true, beq_iff_eq, RpcEvent.messageType] at passes
    obtain ⟨request, content⟩ := StreamingMessage.contentCase_eq_invocationRequest.mp passes.2
    simp only [content] at stepped
    rw [publish_own _ _ (by rfl)] at stepped
    cases stepped
    exact ⟨event, pipeline, request, arrives, content, rfl, rfl⟩

theorem respond_some {client after : FunctionRpcClient} {succeeds : Bool}
    {out : List ClientObservation} (stepped : client.respond succeeds = some (after, out)) :
    ∃ event rest, client.outboundEvents = some (event :: rest) ∧ client.responding = false ∧
      ((client.phase = .starting ∧ after = { client with outboundEvents := some rest } ∧
          out = [.overlapped event.message]) ∨
        (client.phase ≠ .starting ∧ after = { client with outboundEvents := some rest } ∧
          out = [.failed event.message]) ∨
        (client.phase ≠ .starting ∧ client.phase ≠ .closed ∧
          after = { client with outboundEvents := some rest, responding := true } ∧
          out = [.wrote event.message])) := by
  unfold respond at stepped
  split at stepped
  · cases stepped
  · cases stepped
  · rename_i event rest queue
    split at stepped
    · cases stepped
    · rename_i free
      refine ⟨event, rest, queue, by simpa using free, ?_⟩
      dsimp only at stepped
      split at stepped
      · rename_i phase
        cases stepped
        exact .inl ⟨phase, rfl, rfl⟩
      · rename_i phase
        cases stepped
        exact .inr (.inl ⟨by simp [phase], rfl, rfl⟩)
      · rename_i notStarting notClosed
        split at stepped <;> cases stepped
        · exact .inr (.inr ⟨notStarting, notClosed, rfl, rfl⟩)
        · exact .inr (.inl ⟨notStarting, rfl, rfl⟩)

theorem writeStart_some {client after : FunctionRpcClient} {succeeds : Bool}
    {out : List ClientObservation} (stepped : client.writeStart succeeds = some (after, out)) :
    client.phase = .subscribed ∧
      ((client.responding = true ∧ after = { client with phase := .closed } ∧
          out = [.overlapped client.startMessage]) ∨
        (after = { client with phase := .starting } ∧ out = [.wrote client.startMessage]) ∨
        (after = { client with phase := .closed } ∧ out = [.failed client.startMessage])) := by
  unfold writeStart at stepped
  split at stepped
  · rename_i phase
    refine ⟨phase, ?_⟩
    split at stepped
    · rename_i pending
      cases stepped
      exact .inl ⟨pending, rfl, rfl⟩
    · split at stepped <;> cases stepped
      · exact .inr (.inl ⟨rfl, rfl⟩)
      · exact .inr (.inr ⟨rfl, rfl⟩)
  · cases stepped

/-- What one action does to the requests and responses held and to the record
of them. -/
structure Carries (client after : FunctionRpcClient) (out : List ClientObservation) : Prop where
  identity : after.workerId = client.workerId
  requests : out.filterMap handledId ++ after.requests =
    client.requests ++ out.filterMap receivedRequest
  responses : (out.filterMap wroteResponse ++ after.responses).Sublist
    (client.responses ++ out.filterMap handledId)
  lossless : (∀ observation ∈ out, observation.lossless = true) →
    out.filterMap wroteResponse ++ after.responses = client.responses ++ out.filterMap handledId

theorem Carries.frame {client after : FunctionRpcClient}
    (identity : after.workerId = client.workerId)
    (requests : after.requests = client.requests) (responses : after.responses = client.responses) :
    Carries client after [] := by
  constructor <;> simp [identity, requests, responses]

theorem startMessage_respondedId (client : FunctionRpcClient) :
    client.startMessage.respondedId = none := rfl

theorem carries_of_writeStart {client after : FunctionRpcClient} {succeeds : Bool}
    {out : List ClientObservation} (stepped : client.writeStart succeeds = some (after, out)) :
    Carries client after out := by
  obtain ⟨_, ⟨_, rfl, rfl⟩ | ⟨rfl, rfl⟩ | ⟨rfl, rfl⟩⟩ := writeStart_some stepped <;>
    constructor <;> simp [FunctionRpcClient.requests, FunctionRpcClient.responses,
      List.filterMap_cons, ClientObservation.lossless, handledId,
      receivedRequest, wroteResponse, startMessage_respondedId]

theorem carries_of_handle {client after : FunctionRpcClient} {out : List ClientObservation}
    (stepped : client.handle = some (after, out)) : Carries client after out := by
  obtain ⟨event, pipeline, request, arrives, content, rfl, rfl⟩ := handle_some stepped
  have taken : client.requests = request.invocationId ::
      pipeline.pending.filterMap (·.message.requestedId) := by
    unfold FunctionRpcClient.requests
    rw [arrives]
    simp [StreamingMessage.requestedId, content]
  have answer : (client.responseTo request).message.respondedId = some request.invocationId := rfl
  constructor
  · rfl
  · rw [taken]
    simp [FunctionRpcClient.requests, List.filterMap_cons, handledId, receivedRequest]
  · cases queue : client.outboundEvents <;>
      simp [FunctionRpcClient.responses, List.filterMap_cons, queue, answer, handledId,
        wroteResponse]
  · intro kept
    cases queue : client.outboundEvents with
    | none => simp [queue, ClientObservation.lossless] at kept
    | some events =>
      simp [FunctionRpcClient.responses, List.filterMap_cons, queue, answer, handledId,
        wroteResponse]

theorem carries_of_respond {client after : FunctionRpcClient} {succeeds : Bool}
    {out : List ClientObservation} (stepped : client.respond succeeds = some (after, out)) :
    Carries client after out := by
  obtain ⟨event, rest, queue, _, outcome⟩ := respond_some stepped
  have held : client.responses = event.message.respondedId.toList ++
      rest.filterMap (·.message.respondedId) := by
    unfold FunctionRpcClient.responses
    rw [queue]
    cases answer : event.message.respondedId <;> simp [answer]
  -- A write that raises or fails loses the answer; one that succeeds passes it on.
  rcases outcome with ⟨_, rfl, rfl⟩ | ⟨_, rfl, rfl⟩ | ⟨_, _, rfl, rfl⟩
  · refine ⟨rfl, ?_, ?_, by simp [ClientObservation.lossless]⟩
    · simp [FunctionRpcClient.requests, List.filterMap_cons, handledId, receivedRequest]
    · rw [held]
      simp [FunctionRpcClient.responses, List.filterMap_cons, handledId, wroteResponse]
  · refine ⟨rfl, ?_, ?_, by simp [ClientObservation.lossless]⟩
    · simp [FunctionRpcClient.requests, List.filterMap_cons, handledId, receivedRequest]
    · rw [held]
      simp [FunctionRpcClient.responses, List.filterMap_cons, handledId, wroteResponse]
  · have onward : [ClientObservation.wrote event.message].filterMap wroteResponse ++
        ({ client with outboundEvents := some rest, responding := true } :
          FunctionRpcClient).responses =
        client.responses ++ [ClientObservation.wrote event.message].filterMap handledId := by
      rw [held]
      cases answer : event.message.respondedId <;>
        simp [FunctionRpcClient.responses, List.filterMap_cons, handledId, wroteResponse, answer]
    refine ⟨rfl, ?_, onward ▸ .refl _, fun _ => onward⟩
    simp [FunctionRpcClient.requests, List.filterMap_cons, handledId, receivedRequest]

theorem carries_of_step {client after : FunctionRpcClient} {action : ClientAction}
    {out : List ClientObservation} (stepped : client.step action = some (after, out)) :
    Carries client after out := by
  cases action with
  | openCall =>
    simp only [step, openCall] at stepped
    split at stepped <;> cases stepped
    exact .frame rfl rfl rfl
  | subscribe =>
    simp only [step, subscribe] at stepped
    split at stepped <;> cases stepped
    rename_i vacant
    exact .frame rfl rfl (by simp [FunctionRpcClient.responses, vacant])
  | writeStart succeeds => exact carries_of_writeStart stepped
  | startWritten =>
    simp only [step, startWritten] at stepped
    split at stepped <;> cases stepped
    exact .frame rfl rfl rfl
  | receive message =>
    obtain ⟨_, rfl, rfl⟩ := receive_some stepped
    have arrived := client.requests_onNext message
    constructor
    · rfl
    · unfold FunctionRpcClient.requests at arrived ⊢
      simp only [arrived]
      cases request : message.requestedId <;>
        simp [List.filterMap_cons, handledId, receivedRequest, request]
    · simp [FunctionRpcClient.responses, List.filterMap_cons, handledId, wroteResponse]
    · simp [FunctionRpcClient.responses, List.filterMap_cons, handledId, wroteResponse]
  | observe =>
    obtain ⟨pipeline, same, rfl, rfl⟩ := observe_some stepped
    refine .frame rfl ?_ rfl
    simp [FunctionRpcClient.requests, same]
  | handle => exact carries_of_handle stepped
  | respond succeeds => exact carries_of_respond stepped
  | responded =>
    simp only [step, responded, Option.ite_none_right_eq_some] at stepped
    cases stepped.2
    exact .frame rfl rfl rfl
  | close =>
    simp only [step, close] at stepped
    split at stepped <;> cases stepped
    exact .frame rfl rfl rfl

theorem WellFormed.step {client after : FunctionRpcClient} (formed : client.WellFormed)
    {action : ClientAction} {out : List ClientObservation}
    (stepped : client.step action = some (after, out)) : after.WellFormed := by
  cases action with
  | openCall =>
    simp only [FunctionRpcClient.step, openCall] at stepped
    split at stepped <;> cases stepped
    rename_i phase
    exact ⟨by simpa [phase] using formed.subscribed, formed.answers⟩
  | subscribe =>
    simp only [FunctionRpcClient.step, subscribe] at stepped
    split at stepped <;> cases stepped
    constructor <;> simp
  | writeStart succeeds =>
    obtain ⟨phase, outcome⟩ := writeStart_some stepped
    have present := formed.subscribed
    rw [phase] at present
    rcases outcome with ⟨_, rfl, _⟩ | ⟨rfl, _⟩ | ⟨rfl, _⟩ <;>
      exact ⟨by simpa using present, formed.answers⟩
  | startWritten =>
    simp only [FunctionRpcClient.step, startWritten] at stepped
    split at stepped <;> cases stepped
    rename_i phase
    exact ⟨by simpa [phase] using formed.subscribed, formed.answers⟩
  | receive message =>
    obtain ⟨_, rfl, _⟩ := receive_some stepped
    exact ⟨formed.subscribed, formed.answers⟩
  | observe =>
    obtain ⟨_, _, rfl, _⟩ := observe_some stepped
    exact ⟨formed.subscribed, formed.answers⟩
  | handle =>
    obtain ⟨_, _, request, _, _, rfl, _⟩ := handle_some stepped
    constructor
    · simpa using formed.subscribed
    · intro event member
      cases queue : client.outboundEvents with
      | none => simp [queue] at member
      | some events =>
        simp only [queue, Option.map_some, Option.getD_some, List.mem_append,
          List.mem_singleton] at member
        rcases member with earlier | rfl
        · exact formed.answers event (by simpa [queue] using earlier)
        · simp [responseTo, StreamingMessage.respondedId, StreamingMessage.invocationResponse]
  | respond succeeds =>
    obtain ⟨event, rest, queue, _, outcome⟩ := respond_some stepped
    have later : ∀ other ∈ rest, other.message.respondedId ≠ none := fun other member =>
      formed.answers other (by simp [queue, member])
    have phase := formed.subscribed
    rw [queue] at phase
    rcases outcome with ⟨_, rfl, _⟩ | ⟨_, rfl, _⟩ | ⟨_, _, rfl, _⟩ <;>
      exact ⟨by simpa using phase, later⟩
  | responded =>
    simp only [FunctionRpcClient.step, responded, Option.ite_none_right_eq_some] at stepped
    cases stepped.2
    exact ⟨formed.subscribed, formed.answers⟩
  | close =>
    simp only [FunctionRpcClient.step, close] at stepped
    split at stepped <;> cases stepped
    rename_i phase
    exact ⟨by simpa [phase] using formed.subscribed, formed.answers⟩

theorem receivedMessage_of_step {client after : FunctionRpcClient} {action : ClientAction}
    {out : List ClientObservation} (stepped : client.step action = some (after, out))
    (unsent : ∀ message, action ≠ .receive message) : out.filterMap receivedMessage = [] := by
  cases action with
  | openCall | subscribe | startWritten | close =>
    simp only [step, openCall, subscribe, startWritten, close] at stepped
    split at stepped <;> cases stepped
    rfl
  | writeStart succeeds =>
    obtain ⟨_, ⟨_, _, rfl⟩ | ⟨_, rfl⟩ | ⟨_, rfl⟩⟩ := writeStart_some stepped <;> rfl
  | receive message => exact absurd rfl (unsent message)
  | observe =>
    obtain ⟨_, _, _, rfl⟩ := observe_some stepped
    rfl
  | handle =>
    obtain ⟨_, _, _, _, _, _, rfl⟩ := handle_some stepped
    rfl
  | respond succeeds =>
    obtain ⟨_, _, _, _, ⟨_, _, rfl⟩ | ⟨_, _, rfl⟩ | ⟨_, _, _, rfl⟩⟩ := respond_some stepped <;> rfl
  | responded =>
    simp only [step, responded, Option.ite_none_right_eq_some] at stepped
    cases stepped.2
    rfl

theorem wrote_cases {client after : FunctionRpcClient} {action : ClientAction}
    {out : List ClientObservation} (stepped : client.step action = some (after, out)) :
    out.filterMap wroteMessage = [] ∨
      (client.phase = .subscribed ∧ out.filterMap wroteMessage = [client.startMessage] ∧
        ¬ after.Unstarted) ∨
      client.phase ≠ .closed ∧ ∃ event rest, client.outboundEvents = some (event :: rest) ∧
        out.filterMap wroteMessage = [event.message] := by
  cases action with
  | openCall | subscribe | startWritten | close =>
    simp only [step, openCall, subscribe, startWritten, close] at stepped
    split at stepped <;> cases stepped
    exact .inl rfl
  | writeStart succeeds =>
    obtain ⟨phase, ⟨_, _, rfl⟩ | ⟨rfl, rfl⟩ | ⟨_, rfl⟩⟩ := writeStart_some stepped
    · exact .inl rfl
    · exact .inr (.inl ⟨phase, rfl, by simp [Unstarted]⟩)
    · exact .inl rfl
  | receive message =>
    obtain ⟨_, _, rfl⟩ := receive_some stepped
    exact .inl rfl
  | observe =>
    obtain ⟨_, _, _, rfl⟩ := observe_some stepped
    exact .inl rfl
  | handle =>
    obtain ⟨_, _, _, _, _, _, rfl⟩ := handle_some stepped
    exact .inl rfl
  | respond succeeds =>
    obtain ⟨event, rest, queue, _, ⟨_, _, rfl⟩ | ⟨_, _, rfl⟩ | ⟨_, opened, _, rfl⟩⟩ :=
      respond_some stepped
    · exact .inl rfl
    · exact .inl rfl
    · exact .inr (.inr ⟨opened, event, rest, queue, rfl⟩)
  | responded =>
    simp only [step, responded, Option.ite_none_right_eq_some] at stepped
    cases stepped.2
    exact .inl rfl

/-- A client publishes while it handles a request, and is heard by its own
outbound subscription only. -/
theorem published_cases {client after : FunctionRpcClient} {action : ClientAction}
    {out : List ClientObservation} (stepped : client.step action = some (after, out))
    {event : RpcEvent} {heard : Bool} (published : .published event heard ∈ out) :
    client.requests ≠ [] ∧ heard = client.outboundEvents.isSome := by
  cases action with
  | openCall | subscribe | startWritten | close =>
    simp only [step, openCall, subscribe, startWritten, close] at stepped
    split at stepped <;> cases stepped
    simp at published
  | writeStart succeeds =>
    obtain ⟨_, ⟨_, _, rfl⟩ | ⟨_, rfl⟩ | ⟨_, rfl⟩⟩ := writeStart_some stepped <;>
      simp at published
  | receive message =>
    obtain ⟨_, _, rfl⟩ := receive_some stepped
    simp at published
  | observe =>
    obtain ⟨_, _, _, rfl⟩ := observe_some stepped
    simp at published
  | handle =>
    obtain ⟨first, pipeline, request, arrives, content, _, rfl⟩ := handle_some stepped
    simp only [List.mem_cons, reduceCtorEq, ClientObservation.published.injEq, List.not_mem_nil,
      or_false, false_or] at published
    refine ⟨?_, published.2⟩
    unfold FunctionRpcClient.requests
    rw [arrives]
    simp [StreamingMessage.requestedId, content]
  | respond succeeds =>
    obtain ⟨_, _, _, _, ⟨_, _, rfl⟩ | ⟨_, _, rfl⟩ | ⟨_, _, _, rfl⟩⟩ := respond_some stepped <;>
      simp at published
  | responded =>
    simp only [step, responded, Option.ite_none_right_eq_some] at stepped
    cases stepped.2
    simp at published

/-- `RpcStream` goes through its phases one after the other. -/
theorem phase_cases {client after : FunctionRpcClient} {action : ClientAction}
    {out : List ClientObservation} (stepped : client.step action = some (after, out)) :
    (action = .startWritten ∧ client.phase = .starting ∧ after.phase = .reading) ∨
    action ≠ .startWritten ∧
      (after.phase = client.phase ∨
        (client.phase = .constructed ∧ after.phase = .opened) ∨
        (client.phase = .opened ∧ after.phase = .subscribed) ∨
        (client.phase = .subscribed ∧ (after.phase = .starting ∨
          after.phase = .closed ∧ out.filterMap (·.wroteMessage) = [])) ∨
        (client.phase = .reading ∧ after.phase = .closed)) := by
  cases action with
  | openCall =>
    simp only [step, openCall] at stepped
    split at stepped <;> cases stepped
    rename_i phase
    exact .inr ⟨by simp, .inr (.inl ⟨phase, rfl⟩)⟩
  | subscribe =>
    simp only [step, subscribe] at stepped
    split at stepped <;> cases stepped
    rename_i phase _
    exact .inr ⟨by simp, .inr (.inr (.inl ⟨phase, rfl⟩))⟩
  | writeStart succeeds =>
    obtain ⟨phase, outcome⟩ := writeStart_some stepped
    refine .inr ⟨by simp, .inr (.inr (.inr (.inl ⟨phase, ?_⟩)))⟩
    rcases outcome with ⟨_, rfl, rfl⟩ | ⟨rfl, _⟩ | ⟨rfl, rfl⟩
    · exact .inr ⟨rfl, rfl⟩
    · exact .inl rfl
    · exact .inr ⟨rfl, rfl⟩
  | startWritten =>
    simp only [step, startWritten] at stepped
    split at stepped <;> cases stepped
    rename_i phase
    exact .inl ⟨rfl, phase, rfl⟩
  | close =>
    simp only [step, close] at stepped
    split at stepped <;> cases stepped
    rename_i phase
    exact .inr ⟨by simp, .inr (.inr (.inr (.inr ⟨phase, rfl⟩)))⟩
  -- The subscribers leave the phase alone.
  | receive message =>
    obtain ⟨_, rfl, _⟩ := receive_some stepped
    exact .inr ⟨by simp, .inl rfl⟩
  | observe =>
    obtain ⟨_, _, rfl, _⟩ := observe_some stepped
    exact .inr ⟨by simp, .inl rfl⟩
  | handle =>
    obtain ⟨_, _, _, _, _, rfl, _⟩ := handle_some stepped
    exact .inr ⟨by simp, .inl rfl⟩
  | respond succeeds =>
    obtain ⟨_, _, _, _, ⟨_, rfl, _⟩ | ⟨_, rfl, _⟩ | ⟨_, _, rfl, _⟩⟩ := respond_some stepped <;>
      exact .inr ⟨by simp, .inl rfl⟩
  | responded =>
    simp only [step, responded, Option.ite_none_right_eq_some] at stepped
    cases stepped.2
    exact .inr ⟨by simp, .inl rfl⟩

theorem unstarted_of_step {client after : FunctionRpcClient} {action : ClientAction}
    {out : List ClientObservation} (stepped : client.step action = some (after, out))
    (unstarted : after.Unstarted) : client.Unstarted := by
  unfold Unstarted at unstarted ⊢
  rcases phase_cases stepped with
    ⟨_, _, reads⟩ | ⟨_, same | fresh | opened | subscribed | ⟨_, closed⟩⟩
  · simp [reads] at unstarted
  · rwa [same] at unstarted
  · exact .inl fresh.1
  · exact .inr (.inl opened.1)
  · exact .inr (.inr subscribed.1)
  · simp [closed] at unstarted

end FunctionRpcClient

open FunctionRpcClient

section
variable {workerId : String} {actions : List ClientAction} {seen : List ClientObservation}
  {client : FunctionRpcClient} (run : (clientMachine workerId).Run actions seen client)

include run

theorem client_identity : client.workerId = workerId := by
  induction run with
  | start => rfl
  | next _ stepped ih => exact (carries_of_step stepped).identity.trans ih

theorem client_wellFormed : client.WellFormed := by
  induction run with
  | start => constructor <;> simp [clientMachine, create]
  | next _ stepped ih => exact ih.step stepped

end

theorem conveys_requests (workerId : String) :
    (clientMachine workerId).ConveysAll (fun _ => True) receivedRequest handledId requests :=
  ⟨rfl, fun _ _ _ _ _ _ _ stepped _ => (carries_of_step stepped).requests⟩

theorem conveys_responses (workerId : String) :
    (clientMachine workerId).Conveys handledId wroteResponse responses :=
  ⟨rfl, fun _ _ _ _ _ _ _ stepped => (carries_of_step stepped).responses⟩

theorem conveys_all_responses (workerId : String) :
    (clientMachine workerId).ConveysAll (·.lossless = true) handledId wroteResponse responses :=
  ⟨rfl, fun _ _ _ _ _ _ _ stepped kept => (carries_of_step stepped).lossless
    fun observation member => kept observation (List.mem_append_right _ member)⟩

theorem silent_of_unheard {workerId : String} {actions : List ClientAction}
    {seen : List ClientObservation} {client : FunctionRpcClient}
    (run : (clientMachine workerId).Run actions seen client)
    (unheard : seen.filterMap receivedMessage = []) :
    seen.filterMap handledId = [] ∧ client.requests = [] ∧
      client.outboundEvents.getD [] = [] ∧ seen.filterMap wroteResponse = [] := by
  have requests : seen.filterMap receivedRequest = [] := by
    rw [List.filterMap_eq_nil_iff] at unheard ⊢
    intro observation member
    have nothing := unheard observation member
    cases observation <;> first | rfl | cases nothing
  have handled := (conveys_requests workerId).history run (by simp)
  rw [requests, List.append_eq_nil_iff] at handled
  have written := (conveys_responses workerId).history run
  rw [handled.1, List.sublist_nil, List.append_eq_nil_iff] at written
  refine ⟨handled.1, handled.2, ?_, written.1⟩
  rw [List.eq_nil_iff_forall_not_mem]
  intro event member
  have answers := (client_wellFormed run).answers event member
  exact answers (List.filterMap_eq_nil_iff.mp written.2 event member)

end BenchmarkHost
