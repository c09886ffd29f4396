import BenchmarkHost.Library.Machine
import BenchmarkHost.Library.Dictionary
import BenchmarkHost.Library.Pipeline
import BenchmarkHost.Messages

/-! Language worker channels on one script event manager.

A channel keeps the invocations it has sent in `_executingInvocations` and
completes one when a response with its id comes through the two hops of its
inbound subscription. `Host` holds every channel of the process together with
the calls of `SendInvocationRequest` that stand between `TryAdd` and `Publish`.
-/

set_option autoImplicit false

namespace BenchmarkHost

open Library

/-- A completion source holds its result once that is set. -/
structure TaskCompletionSource where
  result : Option String
  deriving DecidableEq, Repr

/-- Setting a source that is already set raises. -/
def TaskCompletionSource.setResult (source : TaskCompletionSource) (value : String) :
    Option TaskCompletionSource :=
  match source.result with
  | none => some ⟨some value⟩
  | some _ => none

/-- `resultSource` refers to a completion source by its order of creation. -/
structure ScriptInvocationContext where
  invocationId : String
  functionId : String
  resultSource : Nat
  deriving DecidableEq, Repr

/-- The two `Where` filters between the hops of a channel's subscription. -/
def selectsResponse (workerId : String) (event : RpcEvent) : Bool :=
  event.workerId == workerId && event.messageType == .invocationResponse

structure LanguageWorkerChannel where
  workerId : String
  executingInvocations : Dictionary String ScriptInvocationContext
  inboundWorkerEvents : Pipeline (selectsResponse workerId)

namespace LanguageWorkerChannel

def create (workerId : String) : LanguageWorkerChannel := ⟨workerId, .empty, .empty⟩

/-- The channel after `TryAdd`, and the event it is about to publish. -/
def sendInvocationRequest (channel : LanguageWorkerChannel) (context : ScriptInvocationContext) :
    LanguageWorkerChannel × RpcEvent :=
  let invocationRequest : InvocationRequest :=
    { functionId := context.functionId, invocationId := context.invocationId }
  ({ channel with
      executingInvocations :=
        (channel.executingInvocations.tryAdd invocationRequest.invocationId context).1 },
    ⟨channel.workerId, { content := .invocationRequest invocationRequest }⟩)

/-- `TryRemove`, with the context found and the result it is to be given. -/
def invokeResponse (channel : LanguageWorkerChannel) (response : InvocationResponse) :
    LanguageWorkerChannel × Option (ScriptInvocationContext × String) :=
  let (remaining, context) := channel.executingInvocations.tryRemove response.invocationId
  ({ channel with executingInvocations := remaining },
    context.map fun context => (context, "Hello-" ++ response.invocationId))

def onNext (channel : LanguageWorkerChannel) (event : RpcEvent) : LanguageWorkerChannel :=
  { channel with inboundWorkerEvents := channel.inboundWorkerEvents.onNext event }

end LanguageWorkerChannel

structure Host where
  channels : String → Option LanguageWorkerChannel
  /-- `FunctionDispatcher._workerChannels`, by worker id. -/
  workerChannels : List String
  /-- Every id `Guid.NewGuid` has returned to a request. -/
  issued : List String
  /-- The event each call of `SendInvocationRequest` past `TryAdd` will publish. -/
  sending : Dictionary String RpcEvent
  resultSources : Nat → TaskCompletionSource
  created : Nat

inductive HostAction where
  | construct (workerId : String)
  | addWorkerChannel (workerId : String)
  | get (workerId functionId invocationId : String)
  | publish (invocationId : String)
  | inbound (event : RpcEvent)
  | observe (workerId : String)
  | invoke (workerId : String)
  deriving DecidableEq, Repr

inductive HostObservation where
  | registered (workerId : String) (context : ScriptInvocationContext)
  | outbound (event : RpcEvent)
  | inbound (event : RpcEvent)
  | resultSet (workerId : String) (context : ScriptInvocationContext) (value : String)
  | unmatched (workerId : String) (response : InvocationResponse)
  | raised (workerId : String)
  deriving DecidableEq, Repr

namespace Host

def initial : Host := ⟨fun _ => none, [], [], .empty, fun _ => ⟨none⟩, 0⟩

def setChannel (host : Host) (workerId : String) (channel : LanguageWorkerChannel) : Host :=
  { host with channels := Function.update host.channels workerId (some channel) }

def construct (host : Host) (workerId : String) : Option (Host × List HostObservation) :=
  match host.channels workerId with
  | none => some (host.setChannel workerId (.create workerId), [])
  | some _ => none

def addWorkerChannel (host : Host) (workerId : String) : Option (Host × List HostObservation) :=
  if (host.channels workerId).isSome then
    some ({ host with workerChannels := host.workerChannels ++ [workerId] }, [])
  else none

-- The controller takes the first channel of the dispatcher; any added channel
-- may be asked here. The id and the completion source are new.
def get (host : Host) (workerId functionId invocationId : String) :
    Option (Host × List HostObservation) :=
  match host.channels workerId with
  | none => none
  | some channel =>
    if workerId ∈ host.workerChannels ∧ invocationId ∉ host.issued then
      let context : ScriptInvocationContext := ⟨invocationId, functionId, host.created⟩
      let (channel, event) := channel.sendInvocationRequest context
      some ({ host.setChannel workerId channel with
          issued := host.issued ++ [invocationId]
          sending := (host.sending.tryAdd invocationId event).1
          created := host.created + 1 },
        [.registered workerId context])
    else none

def publish (host : Host) (invocationId : String) : Option (Host × List HostObservation) :=
  match host.sending.tryRemove invocationId with
  | (_, none) => none
  | (remaining, some event) => some ({ host with sending := remaining }, [.outbound event])

-- Every channel subscribes to every inbound event; the filters come after the
-- first hop.
def inbound (host : Host) (event : RpcEvent) : Host × List HostObservation :=
  ({ host with channels := fun workerId => (host.channels workerId).map (·.onNext event) },
    [.inbound event])

def observe (host : Host) (workerId : String) : Option (Host × List HostObservation) :=
  match host.channels workerId with
  | none => none
  | some channel =>
    match channel.inboundWorkerEvents.observe with
    | none => none
    | some pipeline =>
      some (host.setChannel workerId { channel with inboundWorkerEvents := pipeline }, [])

/-- The subscriber of one channel: `InvokeResponse` on the next response. -/
def invoke (host : Host) (workerId : String) : Option (Host × List HostObservation) :=
  match host.channels workerId with
  | none => none
  | some channel =>
    match channel.inboundWorkerEvents.take with
    | none => none
    | some (event, pipeline) =>
      let channel := { channel with inboundWorkerEvents := pipeline }
      match event.message.invocationResponse with
      | none => some (host.setChannel workerId channel, [.raised workerId])
      | some response =>
        match channel.invokeResponse response with
        | (channel, none) => some (host.setChannel workerId channel, [.unmatched workerId response])
        | (channel, some (context, value)) =>
          match (host.resultSources context.resultSource).setResult value with
          | none => some (host.setChannel workerId channel, [.raised workerId])
          | some source =>
            some ({ host.setChannel workerId channel with
                resultSources :=
                  Function.update host.resultSources context.resultSource source },
              [.resultSet workerId context value])

def step (host : Host) : HostAction → Option (Host × List HostObservation)
  | .construct workerId => host.construct workerId
  | .addWorkerChannel workerId => host.addWorkerChannel workerId
  | .get workerId functionId invocationId => host.get workerId functionId invocationId
  | .publish invocationId => host.publish invocationId
  | .inbound event => some (host.inbound event)
  | .observe workerId => host.observe workerId
  | .invoke workerId => host.invoke workerId

end Host

namespace Host

def executing (host : Host) (workerId invocationId : String) : Option ScriptInvocationContext :=
  (host.channels workerId).bind fun channel =>
    channel.executingInvocations.tryGetValue invocationId

/-- The responses a channel has still to take, next first. -/
def awaiting (host : Host) (workerId : String) : List RpcEvent :=
  (host.channels workerId).elim [] fun channel => channel.inboundWorkerEvents.pending

def Named (host : Host) : Prop :=
  ∀ workerId channel, host.channels workerId = some channel → channel.workerId = workerId

theorem executing_of_channel {host : Host} {workerId : String} {channel : LanguageWorkerChannel}
    (found : host.channels workerId = some channel) (invocationId : String) :
    host.executing workerId invocationId =
      channel.executingInvocations.tryGetValue invocationId := by
  simp [executing, found]

theorem awaiting_of_channel {host : Host} {workerId : String} {channel : LanguageWorkerChannel}
    (found : host.channels workerId = some channel) :
    host.awaiting workerId = channel.inboundWorkerEvents.pending := by
  simp [awaiting, found]

theorem executing_setChannel (host : Host) (workerId other invocationId : String)
    (channel : LanguageWorkerChannel) :
    (host.setChannel workerId channel).executing other invocationId =
      if other = workerId then channel.executingInvocations.tryGetValue invocationId
      else host.executing other invocationId := by
  by_cases same : other = workerId <;> simp [executing, setChannel, Function.update, same]

theorem awaiting_setChannel (host : Host) (workerId other : String)
    (channel : LanguageWorkerChannel) :
    (host.setChannel workerId channel).awaiting other =
      if other = workerId then channel.inboundWorkerEvents.pending else host.awaiting other := by
  by_cases same : other = workerId <;> simp [awaiting, setChannel, Function.update, same]

theorem Named.setChannel {host : Host} (named : host.Named) {workerId : String}
    {channel : LanguageWorkerChannel} (own : channel.workerId = workerId) :
    (host.setChannel workerId channel).Named := by
  intro other found lookup
  by_cases same : other = workerId
  · subst other
    simp only [Host.setChannel, Function.update_self, Option.some.injEq] at lookup
    exact lookup ▸ own
  · exact named other found (by simpa [Host.setChannel, Function.update_of_ne same] using lookup)

theorem awaiting_response {host : Host} (named : host.Named) {workerId : String} {event : RpcEvent}
    (member : event ∈ host.awaiting workerId) :
    event.workerId = workerId ∧ ∃ response, event.message.invocationResponse = some response := by
  cases found : host.channels workerId with
  | none => simp [awaiting, found] at member
  | some channel =>
    rw [awaiting_of_channel found] at member
    have passes := Pipeline.keep_of_pending member
    simp only [selectsResponse, Bool.and_eq_true, beq_iff_eq, RpcEvent.messageType] at passes
    exact ⟨passes.1.trans (named workerId channel found),
      StreamingMessage.contentCase_eq_invocationResponse.mp passes.2⟩

/-! ### What each action does -/

theorem construct_some {host after : Host} {workerId : String} {out : List HostObservation}
    (stepped : host.construct workerId = some (after, out)) :
    host.channels workerId = none ∧ after = host.setChannel workerId (.create workerId) ∧
      out = [] := by
  unfold construct at stepped
  split at stepped <;> cases stepped
  rename_i absent
  exact ⟨absent, rfl, rfl⟩

theorem get_some {host after : Host} {workerId functionId invocationId : String}
    {out : List HostObservation}
    (stepped : host.get workerId functionId invocationId = some (after, out)) :
    ∃ channel, host.channels workerId = some channel ∧ workerId ∈ host.workerChannels ∧
      invocationId ∉ host.issued ∧
      after = { host.setChannel workerId
            (channel.sendInvocationRequest ⟨invocationId, functionId, host.created⟩).1 with
          issued := host.issued ++ [invocationId]
          sending := (host.sending.tryAdd invocationId
            ⟨channel.workerId, { content := .invocationRequest ⟨invocationId, functionId⟩ }⟩).1
          created := host.created + 1 } ∧
      out = [.registered workerId ⟨invocationId, functionId, host.created⟩] := by
  unfold get at stepped
  split at stepped
  · cases stepped
  · rename_i channel found
    split at stepped <;> cases stepped
    rename_i allowed
    exact ⟨channel, found, allowed.1, allowed.2, rfl, rfl⟩

theorem publish_some {host after : Host} {invocationId : String} {out : List HostObservation}
    (stepped : host.publish invocationId = some (after, out)) :
    ∃ event, host.sending.tryGetValue invocationId = some event ∧
      after = { host with sending := (host.sending.tryRemove invocationId).1 } ∧
      out = [.outbound event] := by
  unfold publish at stepped
  split at stepped <;> cases stepped
  rename_i remaining event removed
  have found := congrArg Prod.snd removed
  exact ⟨event, found, by rw [removed], rfl⟩

theorem observe_some {host after : Host} {workerId : String} {out : List HostObservation}
    (stepped : host.observe workerId = some (after, out)) :
    ∃ channel pipeline, host.channels workerId = some channel ∧
      pipeline.pending = channel.inboundWorkerEvents.pending ∧
      after = host.setChannel workerId { channel with inboundWorkerEvents := pipeline } ∧
      out = [] := by
  unfold observe at stepped
  split at stepped
  · cases stepped
  · rename_i channel found
    split at stepped <;> cases stepped
    rename_i pipeline observed
    exact ⟨channel, pipeline, found, Pipeline.pending_observe observed, rfl, rfl⟩

/-- The outcome of one response for the entry `TryRemove` found under its id. -/
def Answers (host : Host) (workerId : String) (response : InvocationResponse) :
    Option ScriptInvocationContext → (Nat → TaskCompletionSource) → List HostObservation → Prop
  | none, sources, out =>
    sources = host.resultSources ∧ out = [.unmatched workerId response]
  | some context, sources, out =>
    let value := "Hello-" ++ response.invocationId
    let set := (host.resultSources context.resultSource).setResult value
    (set = none ∧ sources = host.resultSources ∧ out = [.raised workerId]) ∨
      ∃ source, set = some source ∧
        sources = Function.update host.resultSources context.resultSource source ∧
        out = [.resultSet workerId context value]

/-- The filters let only responses through, so the subscriber never meets a
null `InvocationResponse`. What is left depends on `TryRemove` and `SetResult`. -/
theorem invoke_some {host after : Host} {workerId : String} {out : List HostObservation}
    (stepped : host.invoke workerId = some (after, out)) :
    ∃ (channel : LanguageWorkerChannel) (event : RpcEvent)
      (pipeline : Pipeline (selectsResponse channel.workerId)) (response : InvocationResponse)
      (sources : Nat → TaskCompletionSource),
      host.channels workerId = some channel ∧
      channel.inboundWorkerEvents.pending = event :: pipeline.pending ∧
      event.message.invocationResponse = some response ∧
      after = { host.setChannel workerId
            { channel with
              inboundWorkerEvents := pipeline
              executingInvocations :=
                (channel.executingInvocations.tryRemove response.invocationId).1 } with
          resultSources := sources } ∧
      host.Answers workerId response
        (channel.executingInvocations.tryGetValue response.invocationId) sources out := by
  unfold invoke at stepped
  split at stepped
  · cases stepped
  · rename_i channel found
    split at stepped
    · cases stepped
    · rename_i event pipeline taken
      have arrives := Pipeline.pending_take taken
      -- What is pending has passed the filters of the channel.
      have passes := Pipeline.keep_of_pending (arrives ▸ List.mem_cons_self)
      simp only [selectsResponse, Bool.and_eq_true, beq_iff_eq, RpcEvent.messageType] at passes
      obtain ⟨response, content⟩ :=
        StreamingMessage.contentCase_eq_invocationResponse.mp passes.2
      simp only [content, LanguageWorkerChannel.invokeResponse, Dictionary.tryRemove_value]
        at stepped
      cases entry : channel.executingInvocations.tryGetValue response.invocationId with
      | none =>
        simp only [entry, Option.map_none] at stepped
        cases stepped
        exact ⟨channel, event, pipeline, response, _, found, arrives, content, rfl,
          entry ▸ ⟨rfl, rfl⟩⟩
      | some context =>
        simp only [entry, Option.map_some] at stepped
        cases set : (host.resultSources context.resultSource).setResult
            ("Hello-" ++ response.invocationId) with
        | none =>
          simp only [set] at stepped
          cases stepped
          exact ⟨channel, event, pipeline, response, _, found, arrives, content, rfl,
            entry ▸ .inl ⟨set, rfl, rfl⟩⟩
        | some source =>
          simp only [set] at stepped
          cases stepped
          exact ⟨channel, event, pipeline, response, _, found, arrives, content, rfl,
            entry ▸ .inr ⟨source, set, rfl, rfl⟩⟩

theorem step_inbound {host after : Host} {event : RpcEvent} {out : List HostObservation}
    (stepped : host.step (.inbound event) = some (after, out)) :
    after = (host.inbound event).1 ∧ out = [.inbound event] := by
  cases stepped
  exact ⟨rfl, rfl⟩

/-! ### How the views change -/

theorem channels_inbound (host : Host) (event : RpcEvent) (workerId : String) :
    (host.inbound event).1.channels workerId = (host.channels workerId).map (·.onNext event) := rfl

theorem executing_inbound (host : Host) (event : RpcEvent) (workerId invocationId : String) :
    (host.inbound event).1.executing workerId invocationId =
      host.executing workerId invocationId := by
  cases found : host.channels workerId <;>
    simp [executing, channels_inbound, found, LanguageWorkerChannel.onNext]

theorem awaiting_inbound {host : Host} (named : host.Named) (event : RpcEvent) (workerId : String) :
    (host.inbound event).1.awaiting workerId =
      host.awaiting workerId ++
        if (host.channels workerId).isSome ∧ selectsResponse workerId event then [event]
        else [] := by
  cases found : host.channels workerId with
  | none => simp [awaiting, channels_inbound, found]
  | some channel =>
    obtain rfl := named workerId channel found
    simp [awaiting, channels_inbound, found, LanguageWorkerChannel.onNext, Pipeline.pending_onNext]

theorem executing_get {host after : Host} {workerId functionId invocationId : String}
    {out : List HostObservation}
    (stepped : host.get workerId functionId invocationId = some (after, out))
    (absent : host.executing workerId invocationId = none) (other id : String) :
    after.executing other id =
      if other = workerId ∧ id = invocationId then some ⟨invocationId, functionId, host.created⟩
      else host.executing other id := by
  obtain ⟨channel, found, _, _, rfl, _⟩ := get_some stepped
  rw [executing_of_channel found] at absent
  change (host.setChannel workerId _).executing other id = _
  rw [executing_setChannel]
  by_cases same : other = workerId
  · subst other
    simp [LanguageWorkerChannel.sendInvocationRequest, Dictionary.tryGetValue_tryAdd, absent,
      executing_of_channel found]
  · simp [same]

theorem awaiting_get {host after : Host} {workerId functionId invocationId : String}
    {out : List HostObservation}
    (stepped : host.get workerId functionId invocationId = some (after, out)) (other : String) :
    after.awaiting other = host.awaiting other := by
  obtain ⟨channel, found, _, _, rfl, _⟩ := get_some stepped
  change (host.setChannel workerId _).awaiting other = _
  rw [awaiting_setChannel]
  split
  · subst other
    exact (awaiting_of_channel found).symm
  · rfl

theorem invoke_views {host after : Host} {workerId : String} {out : List HostObservation}
    (named : host.Named) (stepped : host.invoke workerId = some (after, out)) :
    ∃ event response rest, host.awaiting workerId = event :: rest ∧
      event.message.invocationResponse = some response ∧
      (∀ other, after.awaiting other = if other = workerId then rest else host.awaiting other) ∧
      (∀ other id, after.executing other id =
        if other = workerId ∧ id = response.invocationId then none else host.executing other id) ∧
      host.Answers workerId response (host.executing workerId response.invocationId)
        after.resultSources out ∧
      after.Named ∧ after.created = host.created ∧ after.issued = host.issued ∧
      after.sending = host.sending := by
  obtain ⟨channel, event, pipeline, response, sources, found, arrives, content, rfl, answers⟩ :=
    invoke_some stepped
  refine ⟨event, response, pipeline.pending, (awaiting_of_channel found).trans arrives, content,
    fun other => ?_, fun other id => ?_, executing_of_channel found _ ▸ answers, ?_, rfl, rfl, rfl⟩
  · exact awaiting_setChannel host workerId other _
  · refine (executing_setChannel host workerId other id _).trans ?_
    by_cases same : other = workerId
    · subst other
      simp [Dictionary.tryGetValue_tryRemove, executing_of_channel found]
    · simp [same]
  · exact named.setChannel (named workerId channel found)

theorem Named.step {host after : Host} (named : host.Named) {action : HostAction}
    {out : List HostObservation} (stepped : host.step action = some (after, out)) :
    after.Named := by
  cases action with
  | construct workerId =>
    obtain ⟨_, rfl, _⟩ := construct_some stepped
    exact named.setChannel rfl
  | addWorkerChannel workerId =>
    simp only [Host.step, addWorkerChannel, Option.ite_none_right_eq_some] at stepped
    cases stepped.2
    exact named
  | get workerId functionId invocationId =>
    obtain ⟨channel, found, _, _, rfl, _⟩ := get_some stepped
    exact named.setChannel (named workerId channel found)
  | publish invocationId =>
    obtain ⟨event, _, rfl, _⟩ := publish_some stepped
    exact named
  | inbound event =>
    obtain ⟨rfl, _⟩ := step_inbound stepped
    intro workerId channel found
    obtain ⟨earlier, present, rfl⟩ := Option.map_eq_some_iff.mp found
    exact named workerId earlier present
  | observe workerId =>
    obtain ⟨channel, pipeline, found, _, rfl, _⟩ := observe_some stepped
    exact named.setChannel (named workerId channel found)
  | invoke workerId =>
    obtain ⟨_, _, _, _, _, _, _, _, after, _⟩ := invoke_views named stepped
    exact after

end Host

def hostMachine : Machine Host HostAction HostObservation := ⟨.initial, Host.step⟩

end BenchmarkHost
