import BenchmarkHost.Composition.Handshake

/-! Which stream a worker's invocations travel on.

The first call that shakes hands for a worker carries all of its requests and
so all of its responses; the streams of its other calls carry none.
-/

set_option autoImplicit false

namespace BenchmarkHost

open Library PairObservation

def ServiceObservation.returnedId (workerId : String) : ServiceObservation → Option String
  | .inbound event => if event.workerId = workerId then event.message.respondedId else none
  | _ => none

namespace FunctionRpcService

def stream (service : FunctionRpcService) (workerId : String) : Option CallId :=
  (service.binding workerId).map (·.1)

theorem stream_eq_some {service : FunctionRpcService} {workerId : String} {call : CallId} :
    service.stream workerId = some call ↔ ∃ live, service.binding workerId = some (call, live) := by
  simp [stream]

/-- A worker's stream is chosen once, by the handshake that names it first. -/
theorem stream_of_step {service after : FunctionRpcService} {action : ServiceAction}
    {out : List ServiceObservation} (stepped : service.step action = some (after, out))
    (workerId : String) :
    after.stream workerId = service.stream workerId ∨
      service.stream workerId = none ∧ ∃ call, action.handshakes = some (call, workerId) ∧
        after.stream workerId = some call := by
  have moves := moves_of_step stepped
  unfold stream
  cases ends : action.endsCall with
  | some call =>
    obtain ⟨rfl, _⟩ := moves.ends call ends
    rw [binding_finallyBlock]
    exact .inl (by cases service.binding workerId <;> rfl)
  | none =>
    cases handshake : action.handshakes with
    | some pair =>
      obtain ⟨rfl, _⟩ := moves.handshakes pair.1 pair.2 handshake
      rw [binding_handshake]
      split
      · rename_i same
        subst same
        cases bound : service.binding pair.2 with
        | none => exact .inr ⟨rfl, pair.1, rfl, rfl⟩
        | some old => exact .inl rfl
      · exact .inl rfl
    | none => exact .inl (by rw [(moves.keeps ends handshake).1])

theorem returnedId_of_step {service after : FunctionRpcService} {action : ServiceAction}
    {out : List ServiceObservation} (stepped : service.step action = some (after, out))
    (workerId : String) :
    out.filterMap (·.returnedId workerId) = [] ∨
      ∃ call message, action = .receive call message ∧
        service.calls call = .serving workerId ∧
        out.filterMap (·.returnedId workerId) = message.respondedId.toList := by
  cases action with
  | start call =>
    obtain ⟨_, _, rfl⟩ := start_some stepped
    exact .inl rfl
  | receiveFirst call message =>
    obtain ⟨_, rest⟩ := receiveFirst_some stepped
    refine .inl ?_
    cases content : message.startStream with
    | none =>
      rw [content] at rest
      rw [rest.2]
      rfl
    | some startStream =>
      rw [content] at rest
      have unset : message.respondedId = none := by
        rcases message with ⟨_, _ | _ | _ | _⟩ <;> first | rfl | cases content
      simp [rest.2, ServiceObservation.returnedId, unset]
  | receive call message =>
    obtain ⟨owner, serving, rfl, rfl⟩ := receive_some stepped
    by_cases same : owner = workerId
    · subst same
      refine .inr ⟨call, message, rfl, serving, ?_⟩
      cases answer : message.respondedId <;> simp [ServiceObservation.returnedId, answer]
    · exact .inl (by simp [ServiceObservation.returnedId, same])
  | finish call how =>
    obtain ⟨_, _, rfl⟩ := finish_some stepped
    exact .inl rfl
  | outbound event =>
    obtain ⟨_, rfl⟩ := outbound_some stepped
    exact .inl rfl
  | write owner succeeds =>
    obtain ⟨_, _, _, _, _, _, _, _, _, rfl⟩ := write_some stepped
    exact .inl rfl
  | written owner =>
    obtain ⟨_, _, _, _, _, rfl⟩ := written_some stepped
    exact .inl rfl

end FunctionRpcService

section
variable {workerOf : CallId → String} {actions : List PairAction} {seen : List PairObservation}
  {pair : Pair} (run : (pairMachine workerOf).Run actions seen pair)

include run

theorem worker_of_stream {workerId : String} {call : CallId}
    (bound : pair.service.stream workerId = some call) : workerOf call = workerId := by
  obtain ⟨schedule, service⟩ := service_run run
  obtain ⟨live, bound⟩ := FunctionRpcService.stream_eq_some.mp bound
  exact (identity_of_handshook run
    (mem_servicePart.mp (handshook_of_binding service bound))).symm

/-- A call that no entry writes to carries no invocation in either direction. -/
theorem silent_of_unbound {call : CallId}
    (unbound : pair.service.stream (workerOf call) ≠ some call) :
    pair.responseStream call = [] ∧ (pair.clients call).requests = [] ∧
      (pair.clients call).responses = [] ∧
      (seen.filterMap (clientPart call)).filterMap (·.handledId) = [] ∧
      (seen.filterMap (Pair.wroteOn call)).filterMap (·.respondedId) = [] := by
  have undelivered : seen.filterMap (Pair.deliveredOn call) = [] := by
    by_contra delivered
    obtain ⟨workerId, live, bound⟩ := bound_of_delivered run delivered
    have bound := FunctionRpcService.stream_eq_some.mpr ⟨live, bound⟩
    rw [worker_of_stream run bound] at unbound
    exact unbound bound
  have passed := response_history run call
  rw [undelivered, List.append_eq_nil_iff] at passed
  obtain ⟨unheard, empty⟩ := passed
  rw [Pair.filterMap_receivedOn] at unheard
  obtain ⟨schedule, client⟩ := client_run run call
  obtain ⟨handled, requests, events, written⟩ := silent_of_unheard client unheard
  refine ⟨empty, requests, ?_, handled, ?_⟩
  · rw [FunctionRpcClient.responses, events]
    rfl
  · rw [Pair.filterMap_wroteOn, ← written]
    exact (filterMap_through (fun observation => by cases observation <;> rfl) _).symm

theorem mute_of_unbound {call : CallId}
    (unbound : pair.service.stream (workerOf call) ≠ some call) {message : StreamingMessage}
    {rest : List StreamingMessage} (head : pair.requestStream call = message :: rest) :
    message.respondedId = none := by
  obtain ⟨_, _, _, _, written⟩ := silent_of_unbound run unbound
  refine List.filterMap_eq_nil_iff.mp written message ?_
  rw [← request_history run call, head]
  simp

end

theorem returned_of_run {workerOf : CallId → String} {actions : List PairAction}
    {seen : List PairObservation} {pair : Pair} (run : (pairMachine workerOf).Run actions seen pair)
    (workerId : String) :
    (seen.filterMap servicePart).filterMap (·.returnedId workerId) =
      (pair.service.stream workerId).elim [] fun call =>
        (seen.filterMap (readOn call)).filterMap (·.respondedId) := by
  induction run with
  | start => rfl
  | @next actions seen out pair after action earlier stepped ih =>
    simp only [List.filterMap_append]
    cases Pair.moves_of_step stepped with
    | service part shown moved _ _ _ same unread =>
      have silent : shown.filterMap (·.returnedId workerId) = [] := by
        rcases FunctionRpcService.returnedId_of_step moved workerId with none | some
        · exact none
        · obtain ⟨call, message, reads, _⟩ := some
          exact absurd reads (unread call message).2
      have stays : after.service.stream workerId = pair.service.stream workerId := by
        rcases FunctionRpcService.stream_of_step moved workerId with stays | ⟨_, call, shook, _⟩
        · exact stays
        · cases part <;> simp only [ServiceAction.handshakes, reduceCtorEq] at shook
          exact absurd rfl (unread _ _).1
      rw [same, Pair.servicePart_service, silent, List.append_nil, ih, stays]
      simp only [Pair.readOn_service, List.filterMap_nil, List.append_nil]
    | client _ _ _ _ _ service _ _ _ same =>
      rw [same, Pair.servicePart_client, service, ih]
      simp only [Pair.readOn_client, List.filterMap_nil, List.append_nil]
    | deliver _ _ _ _ _ _ service _ _ _ same =>
      rw [same, service, ih]
      simp [List.filterMap_cons, servicePart, readOn]
    | read reader message rest part shown _ head moved _ _ _ same choice =>
      rw [same, Pair.servicePart_read, Pair.servicePart_service, ih]
      have reads : ∀ call, (PairObservation.read reader message :: shown.map
          PairObservation.service).filterMap (readOn call) =
            if reader = call then [message] else [] := by
        intro call
        rw [List.filterMap_cons, Pair.readOn_service]
        by_cases here : reader = call <;> simp [readOn, here]
      simp only [reads]
      rcases choice with ⟨rfl, waiting⟩ | ⟨rfl, _⟩
      · -- A handshake carries no response, and nothing was read before it.
        have unread := (greeted_of_run earlier).unread reader (.inr waiting)
        have greeting := first_read earlier (show _ = message :: rest by rw [unread, head]; rfl)
        have unset : message.respondedId = none := by
          rw [greeting]
          rfl
        have silent : shown.filterMap (·.returnedId workerId) = [] := by
          rcases FunctionRpcService.returnedId_of_step moved workerId with none | some
          · exact none
          · obtain ⟨_, _, reads, _⟩ := some
            cases reads
        have nothing : ∀ call, (if reader = call then [message] else []).filterMap
            (·.respondedId) = [] := by
          intro call
          split <;> simp [unset]
        rw [silent, List.append_nil]
        simp only [nothing, List.append_nil]
        rcases FunctionRpcService.stream_of_step moved workerId with stays | fresh
        · rw [stays]
        · obtain ⟨vacant, call, shook, chosen⟩ := fresh
          simp only [ServiceAction.handshakes, Option.map_eq_some_iff, Prod.mk.injEq] at shook
          obtain ⟨_, _, rfl, _⟩ := shook
          rw [vacant, chosen]
          simp [unread]
      · obtain ⟨schedule, service⟩ := service_run earlier
        obtain ⟨owner, serving, stays, rfl⟩ := FunctionRpcService.receive_some moved
        have own := identity_of_handshook earlier
          (mem_servicePart.mp (handshook_of_serving service serving))
        rw [stays]
        have shows : ([ServiceObservation.inbound ⟨owner, message⟩]).filterMap
            (·.returnedId workerId) =
              if owner = workerId then message.respondedId.toList else [] := by
          by_cases here : owner = workerId <;> cases answer : message.respondedId <;>
            simp [ServiceObservation.returnedId, here, answer]
        rw [shows]
        -- A stream that no subscription writes to has no responses to carry.
        by_cases bound : pair.service.stream (workerOf reader) = some reader
        · by_cases here : owner = workerId
          · rw [if_pos here, ← here, own, bound]
            cases answer : message.respondedId <;> simp [answer]
          · rw [if_neg here, List.append_nil]
            cases chosen : pair.service.stream workerId with
            | none => rfl
            | some call =>
              have other : reader ≠ call := by
                rintro rfl
                exact here (own.trans (worker_of_stream earlier chosen))
              simp [other]
        · have unset := mute_of_unbound earlier bound head
          cases pair.service.stream workerId with
          | none => simp [unset]
          | some call => by_cases here : reader = call <;> simp [unset, here]

/-! ### From the publication of a request to the return of its response -/

def ServiceObservation.sentId (workerId : String) : ServiceObservation → Option String
  | .outbound event _ => if event.workerId = workerId then event.message.requestedId else none
  | _ => none

/-- The invocation of a request published while the worker's subscription is live. -/
def ServiceObservation.acceptedId (workerId : String) (observation : ServiceObservation) :
    Option String :=
  (observation.publishedLive workerId).bind (·.message.requestedId)

/-- No stream has ended and no write has failed here. -/
def PairObservation.reliable : PairObservation → Bool
  | .service (.ended _) | .service (.attempted _ _ false) => false
  | .client _ (.failed _) | .client _ (.overlapped _) => false
  | _ => true

def Reliable (seen : List PairObservation) : Prop :=
  ∀ observation ∈ seen, observation.reliable = true

/-- The invocations behind the `ObserveOn` of a worker's subscription. -/
def FunctionRpcService.queued (service : FunctionRpcService) (workerId : String) : List String :=
  ((service.entry workerId).elim [] (·.queue)).filterMap (·.message.requestedId)

/-- The invocations on the streams of a call and in its client, those nearest to
the service's reader first. -/
def Pair.inFlight (pair : Pair) (call : CallId) : List String :=
  (pair.requestStream call).filterMap (·.respondedId) ++ (pair.clients call).responses ++
    (pair.clients call).requests ++ (pair.responseStream call).filterMap (·.requestedId)

theorem ended_of_endsCall {service after : FunctionRpcService} {action : ServiceAction}
    {out : List ServiceObservation} (stepped : service.step action = some (after, out))
    {call : CallId} (ends : action.endsCall = some call) : .ended call ∈ out := by
  cases action with
  | finish other how =>
    obtain ⟨_, _, rfl⟩ := FunctionRpcService.finish_some stepped
    cases ends
    simp
  | receiveFirst other message =>
    obtain ⟨_, rest⟩ := FunctionRpcService.receiveFirst_some stepped
    cases content : message.startStream <;> rw [content] at rest <;>
      simp [ServiceAction.endsCall, content] at ends
    subst ends
    simp [rest.2]
  | _ => cases ends

theorem live_of_endless {actions : List ServiceAction} {seen : List ServiceObservation}
    {service : FunctionRpcService} (run : serviceMachine.Run actions seen service)
    (endless : ∀ call, .ended call ∉ seen) {workerId : String} {call : CallId} {live : Bool}
    (bound : service.binding workerId = some (call, live)) : live = true := by
  induction run generalizing live with
  | start => cases bound
  | @next actions seen out state after action earlier stepped ih =>
    have before : ∀ other, .ended other ∉ seen := fun other member =>
      endless other (List.mem_append_left _ member)
    have moves := FunctionRpcService.moves_of_step stepped
    cases ends : action.endsCall with
    | some other =>
      -- A step that ends a call shows it.
      exact absurd (List.mem_append_right _ (ended_of_endsCall stepped ends)) (endless other)
    | none =>
      cases handshake : action.handshakes with
      | some pair =>
        obtain ⟨rfl, _⟩ := moves.handshakes pair.1 pair.2 handshake
        rw [FunctionRpcService.binding_handshake] at bound
        split at bound
        · cases found : state.binding pair.2 with
          | none =>
            rw [found] at bound
            cases bound
            rfl
          | some old =>
            rename_i same
            rw [found] at bound
            exact ih before (same ▸ found.trans bound)
        · exact ih before bound
      | none => exact ih before ((moves.keeps ends handshake).1 workerId ▸ bound)

theorem bound_of_handshook {actions : List ServiceAction} {seen : List ServiceObservation}
    {service : FunctionRpcService} (run : serviceMachine.Run actions seen service)
    {call : CallId} {workerId : String} (shook : .handshook call workerId ∈ seen) :
    ∃ bound, service.binding workerId = some bound := by
  induction run with
  | start => simp at shook
  | @next actions seen out state after action earlier stepped ih =>
    rcases List.mem_append.mp shook with before | now
    · obtain ⟨⟨stream, live⟩, bound⟩ := ih before
      have chosen := FunctionRpcService.stream_eq_some.mpr ⟨live, bound⟩
      rcases FunctionRpcService.stream_of_step stepped workerId with stays | ⟨vacant, _⟩
      · obtain ⟨live, bound⟩ := FunctionRpcService.stream_eq_some.mp (stays.trans chosen)
        exact ⟨_, bound⟩
      · rw [chosen] at vacant
        cases vacant
    · obtain ⟨message, rfl, names⟩ := FunctionRpcService.handshook_cases stepped now
      obtain ⟨_, rest⟩ := FunctionRpcService.receiveFirst_some stepped
      rw [names] at rest
      rw [rest.1, FunctionRpcService.binding_handshake, if_pos rfl]
      exact ⟨_, rfl⟩

theorem attempts_pass {actions : List ServiceAction} {seen : List ServiceObservation}
    {service : FunctionRpcService} (run : serviceMachine.Run actions seen service)
    {workerId : String} {subscription : OutboundSubscription}
    (found : service.entry workerId = some subscription) :
    Passes (∀ call, .ended call ∉ seen) (seen.filterMap (·.publishedLive workerId))
      (seen.filterMap (·.attemptedOn subscription.responseStream)) subscription.queue := by
  have ordered := ordered_of_run run
  have live : (∀ call, .ended call ∉ seen) → subscription.live = true := fun endless =>
    live_of_endless run endless
      (FunctionRpcService.binding_eq_some.mpr ⟨subscription, found, rfl, rfl⟩)
  refine ⟨?_, fun endless => ordered.queued workerId subscription found (live endless)⟩
  cases open' : subscription.live with
  | true => rw [ordered.queued workerId subscription found open']
  | false =>
    rw [(sessions_of_run run).drained workerId subscription found open', List.append_nil]
    exact (ordered.begun workerId subscription found).sublist

theorem delivered_pass {seen : List ServiceObservation} (call : CallId) :
    Passes (∀ event, .attempted call event false ∉ seen) (seen.filterMap (·.attemptedOn call))
      (seen.filterMap (·.deliveredOn call)) [] := by
  constructor
  · rw [List.append_nil]
    refine filterMap_sublist (fun observation event shown => ?_) seen
    cases observation with
    | attempted stream event succeeds =>
      cases succeeds with
      | false => cases shown
      | true => exact shown
    | _ => cases shown
  · intro succeed
    rw [List.append_nil]
    refine List.filterMap_congr fun observation member => ?_
    cases observation with
    | attempted stream event succeeds =>
      cases succeeds with
      | false =>
        have other : stream ≠ call := by
          rintro rfl
          exact succeed event member
        simp [ServiceObservation.deliveredOn, ServiceObservation.attemptedOn, other]
      | true => rfl
    | _ => rfl

section
variable {workerOf : CallId → String} {actions : List PairAction} {seen : List PairObservation}
  {pair : Pair} (run : (pairMachine workerOf).Run actions seen pair)

include run

/-- The service's half of the way: from the publication to the client. -/
theorem requests_pass {workerId : String} {call : CallId}
    (bound : pair.service.stream workerId = some call) :
    Passes (Reliable seen) ((seen.filterMap servicePart).filterMap (·.acceptedId workerId))
      ((seen.filterMap (clientPart call)).filterMap (·.receivedRequest))
      ((pair.responseStream call).filterMap (·.requestedId) ++ pair.service.queued workerId) := by
  obtain ⟨schedule, service⟩ := service_run run
  obtain ⟨live, bound⟩ := FunctionRpcService.stream_eq_some.mp bound
  obtain ⟨subscription, found, rfl, _⟩ := FunctionRpcService.binding_eq_some.mp bound
  have told : ∀ {observation}, Reliable seen → observation ∈ seen.filterMap servicePart →
      (PairObservation.service observation).reliable = true :=
    fun reliable member => reliable _ (mem_servicePart.mp member)
  -- From the subscription to the writer, from there to the stream, and to the reader.
  have attempts := ((attempts_pass service found).of_imp fun reliable call ended => by
    simpa [PairObservation.reliable] using told reliable ended).filterMap (·.message.requestedId)
  have deliveries := ((delivered_pass subscription.responseStream).of_imp
    fun reliable event failed => by
      simpa [PairObservation.reliable] using told reliable failed).filterMap (·.message.requestedId)
  have stream := (Passes.exact (Reliable seen)
    (response_history run subscription.responseStream)).filterMap (·.requestedId)
  have received : (seen.filterMap (Pair.receivedOn subscription.responseStream)).filterMap
      (·.requestedId) = (seen.filterMap (clientPart subscription.responseStream)).filterMap
        (·.receivedRequest) := by
    rw [Pair.filterMap_receivedOn]
    exact (filterMap_through (fun observation => by cases observation <;> rfl) _).symm
  have delivered : (seen.filterMap (Pair.deliveredOn subscription.responseStream)).filterMap
      (·.requestedId) = ((seen.filterMap servicePart).filterMap
        (·.deliveredOn subscription.responseStream)).filterMap (·.message.requestedId) := by
    rw [Pair.filterMap_deliveredOn, List.filterMap_map]
    rfl
  have accepted : (seen.filterMap servicePart).filterMap (·.acceptedId workerId) =
      ((seen.filterMap servicePart).filterMap (·.publishedLive workerId)).filterMap
        (·.message.requestedId) := filterMap_through (fun _ => rfl) _
  have queued : pair.service.queued workerId =
      subscription.queue.filterMap (·.message.requestedId) := by
    rw [FunctionRpcService.queued, found]
    rfl
  rw [received, delivered] at stream
  rw [accepted, queued]
  exact (attempts.trans deliveries).trans stream

/-- The worker's half of the way: from the client's reader to the service's. -/
theorem responses_pass {call : CallId} :
    Passes (Reliable seen) ((seen.filterMap (clientPart call)).filterMap (·.receivedRequest))
      ((seen.filterMap (readOn call)).filterMap (·.respondedId))
      ((pair.requestStream call).filterMap (·.respondedId) ++
        ((pair.clients call).responses ++ (pair.clients call).requests)) := by
  obtain ⟨schedule, client⟩ := client_run run call
  have handled := Passes.exact (Reliable seen)
    ((conveys_requests (workerOf call)).history client (by simp))
  have written : Passes (Reliable seen) _ _ _ :=
    ⟨(conveys_responses (workerOf call)).history client, fun reliable =>
      (conveys_all_responses (workerOf call)).history client fun observation member => ?_⟩
  · have stream := (Passes.exact (Reliable seen) (request_history run call)).filterMap
      (·.respondedId)
    have wrote : (seen.filterMap (Pair.wroteOn call)).filterMap (·.respondedId) =
        (seen.filterMap (clientPart call)).filterMap (·.wroteResponse) := by
      rw [Pair.filterMap_wroteOn]
      exact (filterMap_through (fun observation => by cases observation <;> rfl) _).symm
    rw [wrote] at stream
    exact (handled.trans written).trans stream
  · have inside := mem_clientPart.mp member
    -- The local subject of a client that reads always has its subscriber.
    have fine := reliable _ inside
    cases observation with
    | published event heard =>
      rw [heard_of_run run inside]
      rfl
    | failed message => cases fine
    | overlapped message => cases fine
    | _ => rfl

theorem inFlight_of_unbound {call : CallId}
    (unbound : pair.service.stream (workerOf call) ≠ some call) : pair.inFlight call = [] := by
  obtain ⟨responseStream, requests, responses, _, written⟩ := silent_of_unbound run unbound
  rw [← request_history run call, List.filterMap_append, List.append_eq_nil_iff] at written
  rw [Pair.inFlight, written.2, responses, requests, responseStream]
  rfl

theorem returns_pass {workerId : String} {call : CallId}
    (bound : pair.service.stream workerId = some call) :
    Passes (Reliable seen) ((seen.filterMap servicePart).filterMap (·.acceptedId workerId))
      ((seen.filterMap servicePart).filterMap (·.returnedId workerId))
      (pair.inFlight call ++ pair.service.queued workerId) := by
  have returned := returned_of_run run workerId
  rw [bound] at returned
  rw [returned]
  have whole := (requests_pass run bound).trans (responses_pass run)
  simpa [Pair.inFlight, List.append_assoc] using whole

end

end BenchmarkHost
