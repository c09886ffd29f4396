import BenchmarkHost.Composition.StartUp
import BenchmarkHost.Composition.Supply

/-! Where the messages on the streams come from.

A channel asks for what the controller has registered, the service passes that
on to the worker of the channel, and a worker answers what it has received. So a
call carries the greeting of its own worker, requests of invocations registered
for that worker, and responses to them; nothing else ever gets on its streams.
-/

set_option autoImplicit false

namespace BenchmarkHost

open Library

/-- A message that a step puts on a stream. -/
def PairObservation.written : PairObservation → Option StreamingMessage
  | .service (.attempted _ event true) => some event.message
  | .client _ (.wrote message) => some message
  | _ => none

def SystemObservation.written (observation : SystemObservation) : Option StreamingMessage :=
  observation.pairPart.bind (·.written)

/-- One of the two streams of a call: its client writes the requests, and the
service the responses. -/
inductive CallStream where
  | request (call : CallId)
  | response (call : CallId)
  deriving DecidableEq, Repr

def PairObservation.writtenOn : PairObservation → Option (CallStream × StreamingMessage)
  | .service (.attempted call event true) => some (.response call, event.message)
  | .client call (.wrote message) => some (.request call, message)
  | _ => none

def SystemObservation.writtenOn (observation : SystemObservation) :
    Option (CallStream × StreamingMessage) :=
  observation.pairPart.bind (·.writtenOn)

theorem PairObservation.written_eq (observation : PairObservation) :
    observation.written = observation.writtenOn.map Prod.snd := by
  unfold written writtenOn
  split <;> rfl

theorem SystemObservation.exists_writtenOn {observation : SystemObservation}
    {message : StreamingMessage} (written : observation.written = some message) :
    ∃ stream, observation.writtenOn = some (stream, message) := by
  obtain ⟨part, whole, puts⟩ := Option.bind_eq_some_iff.mp written
  rw [part.written_eq, Option.map_eq_some_iff] at puts
  obtain ⟨⟨stream, own⟩, puts, rfl⟩ := puts
  exact ⟨stream, Option.bind_eq_some_iff.mpr ⟨part, whole, puts⟩⟩

namespace ScriptInvocationContext

def request (context : ScriptInvocationContext) : StreamingMessage :=
  { content := .invocationRequest
      { invocationId := context.invocationId, functionId := context.functionId } }

end ScriptInvocationContext

def FunctionRpcClient.success (invocationId : String) : StreamingMessage :=
  { content := .invocationResponse { invocationId, result := "Success" } }

/-! ### The channels -/

/-- The event asks its worker for an invocation of the worker's channel. -/
def Asks (seen : List HostObservation) (event : RpcEvent) : Prop :=
  ∃ context, .registered event.workerId context ∈ seen ∧ event.message = context.request

theorem Asks.later {seen : List HostObservation} {event : RpcEvent} (asks : Asks seen event)
    (out : List HostObservation) : Asks (seen ++ out) event := by
  obtain ⟨context, registered, same⟩ := asks
  exact ⟨context, List.mem_append_left out registered, same⟩

/-- All that is published, or about to be, asks for something. -/
structure Asking (seen : List HostObservation) (host : Host) : Prop where
  sending : ∀ id event, host.sending.tryGetValue id = some event → Asks seen event
  sent : ∀ event, .outbound event ∈ seen → Asks seen event

theorem Asking.frame {seen out : List HostObservation} {host after : Host}
    (asking : Asking seen host) (sending : after.sending = host.sending)
    (silent : ∀ event, .outbound event ∉ out) : Asking (seen ++ out) after := by
  constructor
  case sending =>
    intro id event held
    rw [sending] at held
    exact (asking.sending id event held).later out
  case sent =>
    intro event member
    rcases List.mem_append.mp member with earlier | now
    · exact (asking.sent event earlier).later out
    · exact absurd now (silent event)

theorem Asking.get {seen out : List HostObservation} {host after : Host}
    (asking : Asking seen host) (named : host.Named) {workerId functionId invocationId : String}
    (stepped : host.get workerId functionId invocationId = some (after, out)) :
    Asking (seen ++ out) after := by
  obtain ⟨channel, found, _, _, rfl, rfl⟩ := Host.get_some stepped
  have own := named workerId channel found
  constructor
  case sending =>
    intro id event held
    change (host.sending.tryAdd invocationId _).1.tryGetValue id = some event at held
    rw [Dictionary.tryGetValue_tryAdd] at held
    split at held
    · cases waiting : host.sending.tryGetValue invocationId with
      | some other =>
        rw [waiting] at held
        cases held
        exact (asking.sending invocationId _ waiting).later _
      | none =>
        rw [waiting] at held
        cases held
        refine ⟨⟨invocationId, functionId, host.created⟩, ?_, rfl⟩
        rw [own]
        exact List.mem_append_right seen List.mem_cons_self
    · exact (asking.sending id event held).later _
  case sent =>
    intro event member
    exact (asking.sent event (by simpa using member)).later _

theorem Asking.publish {seen out : List HostObservation} {host after : Host}
    (asking : Asking seen host) {invocationId : String}
    (stepped : host.publish invocationId = some (after, out)) : Asking (seen ++ out) after := by
  obtain ⟨event, held, rfl, rfl⟩ := Host.publish_some stepped
  constructor
  case sending =>
    intro id other kept
    change (host.sending.tryRemove invocationId).1.tryGetValue id = some other at kept
    rw [Dictionary.tryGetValue_tryRemove] at kept
    split at kept
    · cases kept
    · exact (asking.sending id other kept).later _
  case sent =>
    intro other member
    rcases List.mem_append.mp member with earlier | now
    · exact (asking.sent other earlier).later _
    · cases List.mem_singleton.mp now
      exact (asking.sending invocationId event held).later _

theorem Asking.step {seen out : List HostObservation} {host after : Host}
    (asking : Asking seen host) (named : host.Named) {action : HostAction}
    (stepped : host.step action = some (after, out)) : Asking (seen ++ out) after := by
  cases action with
  | construct workerId =>
    obtain ⟨_, rfl, rfl⟩ := Host.construct_some stepped
    exact asking.frame rfl (by simp)
  | addWorkerChannel workerId =>
    simp only [Host.step, Host.addWorkerChannel, Option.ite_none_right_eq_some] at stepped
    cases stepped.2
    exact asking.frame rfl (by simp)
  | get workerId functionId invocationId => exact asking.get named stepped
  | publish invocationId => exact asking.publish stepped
  | inbound event =>
    obtain ⟨rfl, rfl⟩ := Host.step_inbound stepped
    exact asking.frame rfl (by simp)
  | observe workerId =>
    obtain ⟨_, _, _, _, rfl, rfl⟩ := Host.observe_some stepped
    exact asking.frame rfl (by simp)
  | invoke workerId =>
    obtain ⟨_, _, _, _, _, _, _, answers, _, _, _, sending⟩ := Host.invoke_views named stepped
    exact asking.frame sending (answers_registers_nothing answers workerId).2

theorem asking_of_run {actions : List HostAction} {seen : List HostObservation} {host : Host}
    (run : hostMachine.Run actions seen host) : Asking seen host := by
  induction run with
  | start => constructor <;> simp [hostMachine, Host.initial]
  | next earlier stepped ih => exact ih.step (correlated_of_run earlier).named stepped

/-! ### The workers -/

section
variable {client after : FunctionRpcClient} {action : ClientAction} {out : List ClientObservation}

/-- Only the handler adds to what waits for the outbound subscriber. -/
theorem FunctionRpcClient.outboundEvents_cases
    (stepped : client.step action = some (after, out)) {event : RpcEvent}
    (waits : event ∈ after.outboundEvents.getD []) :
    event ∈ client.outboundEvents.getD [] ∨ ∃ request, event = client.responseTo request := by
  cases action with
  | openCall | startWritten | close =>
    simp only [step, openCall, startWritten, close] at stepped
    split at stepped <;> cases stepped
    exact .inl waits
  | subscribe =>
    simp only [step, subscribe] at stepped
    split at stepped <;> cases stepped
    cases waits
  | writeStart succeeds =>
    obtain ⟨_, ⟨_, rfl, _⟩ | ⟨rfl, _⟩ | ⟨rfl, _⟩⟩ := writeStart_some stepped <;> exact .inl waits
  | receive message =>
    obtain ⟨_, rfl, _⟩ := receive_some stepped
    exact .inl waits
  | observe =>
    obtain ⟨_, _, rfl, _⟩ := observe_some stepped
    exact .inl waits
  | handle =>
    obtain ⟨_, _, request, _, _, rfl, _⟩ := handle_some stepped
    -- Nothing waits where nobody has subscribed.
    cases queue : client.outboundEvents with
    | none =>
      rw [queue] at waits
      cases waits
    | some events =>
      simp only [queue, Option.map_some, Option.getD_some, List.mem_append,
        List.mem_singleton] at waits
      exact waits.imp_right fun last => ⟨request, last⟩
  | respond succeeds =>
    obtain ⟨first, rest, queue, _, outcome⟩ := respond_some stepped
    have later : after.outboundEvents = some rest := by
      rcases outcome with ⟨_, rfl, _⟩ | ⟨_, rfl, _⟩ | ⟨_, _, rfl, _⟩ <;> rfl
    rw [later] at waits
    rw [queue]
    exact .inl (List.mem_cons_of_mem first waits)
  | responded =>
    simp only [step, responded, Option.ite_none_right_eq_some] at stepped
    cases stepped.2
    exact .inl waits

end

section
variable {workerId : String} {actions : List ClientAction} {seen : List ClientObservation}
  {client : FunctionRpcClient} (run : (clientMachine workerId).Run actions seen client)

include run

theorem waiting_success {event : RpcEvent} (waits : event ∈ client.outboundEvents.getD []) :
    ∃ id, event.message = FunctionRpcClient.success id := by
  induction run with
  | start => cases waits
  | next _ stepped ih =>
    rcases FunctionRpcClient.outboundEvents_cases stepped waits with earlier | ⟨request, rfl⟩
    · exact ih earlier
    · exact ⟨request.invocationId, rfl⟩

theorem wrote_shape {message : StreamingMessage} (wrote : .wrote message ∈ seen) :
    message = { content := .startStream ⟨workerId⟩ } ∨
      ∃ id, message = FunctionRpcClient.success id := by
  induction run with
  | start => cases wrote
  | @next actions seen out before after action earlier stepped ih =>
    rcases List.mem_append.mp wrote with old | new
    · exact ih old
    · have listed : message ∈ out.filterMap ClientObservation.wroteMessage :=
        List.mem_filterMap.mpr ⟨_, new, rfl⟩
      rcases FunctionRpcClient.wrote_cases stepped with
        none | ⟨_, start, _⟩ | ⟨_, event, rest, queue, response⟩
      · rw [none] at listed
        cases listed
      · rw [start] at listed
        rw [List.mem_singleton.mp listed, FunctionRpcClient.startMessage, client_identity earlier]
        exact .inl rfl
      · rw [response] at listed
        rw [List.mem_singleton.mp listed]
        apply Or.inr
        apply waiting_success earlier
        rw [queue]
        exact List.mem_cons_self

theorem wrote_received {id : String} (wrote : .wrote (FunctionRpcClient.success id) ∈ seen) :
    ∃ message, .received message ∈ seen ∧ message.requestedId = some id := by
  have written : id ∈ seen.filterMap ClientObservation.wroteResponse :=
    List.mem_filterMap.mpr ⟨_, wrote, rfl⟩
  -- A response is one of those handled, and those are requests received before.
  have handled := ((conveys_responses workerId).history run).subset
    (List.mem_append_left client.responses written)
  have received := (conveys_requests workerId).history run (fun _ _ => trivial)
  have arrived := List.mem_append_left client.requests handled
  rw [received] at arrived
  obtain ⟨observation, member, same⟩ := List.mem_filterMap.mp arrived
  cases observation with
  | received message => exact ⟨message, member, same⟩
  | _ => cases same

end

/-! ### The streams -/

/-- What the service tries to write on a stream it has been offered, for the
worker that shook hands there. -/
theorem offered_of_attempted {actions : List ServiceAction} {seen : List ServiceObservation}
    {service : FunctionRpcService} (run : serviceMachine.Run actions seen service) {call : CallId}
    {event : RpcEvent} {succeeds : Bool} (attempted : .attempted call event succeeds ∈ seen) :
    .handshook call event.workerId ∈ seen ∧ ∃ recipients, .outbound event recipients ∈ seen := by
  have listed : event ∈ seen.filterMap (ServiceObservation.attemptedOn call) :=
    List.mem_filterMap.mpr ⟨_, attempted, if_pos rfl⟩
  have ordered := ordered_of_run run
  -- A stream without a subscription has never been written to.
  by_cases bound : ∃ workerId subscription, service.entry workerId = some subscription ∧
      subscription.responseStream = call
  · obtain ⟨workerId, subscription, found, rfl⟩ := bound
    have published := (ordered.begun workerId subscription found).subset listed
    obtain ⟨observation, member, same⟩ := List.mem_filterMap.mp published
    cases observation with
    | outbound other recipients =>
      simp only [ServiceObservation.publishedLive, Option.ite_none_right_eq_some,
        Option.some.injEq] at same
      obtain ⟨⟨rfl, _⟩, rfl⟩ := same
      have bound := FunctionRpcService.binding_eq_some.mpr ⟨subscription, found, rfl, rfl⟩
      exact ⟨handshook_of_binding run bound, recipients, member⟩
    | _ => cases same
  · have nothing := (ordered.unbound call fun workerId subscription found same =>
      bound ⟨workerId, subscription, found, same⟩).1
    rw [nothing] at listed
    cases listed

theorem attempted_of_received {workerOf : CallId → String} {actions : List PairAction}
    {seen : List PairObservation} {pair : Pair} (run : (pairMachine workerOf).Run actions seen pair)
    {call : CallId} {message : StreamingMessage}
    (received : .client call (.received message) ∈ seen) :
    ∃ event, .service (.attempted call event true) ∈ seen ∧ event.message = message := by
  have listed : message ∈ seen.filterMap (Pair.receivedOn call) :=
    List.mem_filterMap.mpr ⟨_, received, by simp [Pair.receivedOn, PairObservation.clientPart,
      ClientObservation.receivedMessage]⟩
  have delivered := List.mem_append_left (pair.responseStream call) listed
  rw [response_history run] at delivered
  obtain ⟨observation, member, same⟩ := List.mem_filterMap.mp delivered
  simp only [Pair.deliveredOn, Option.bind_eq_some_iff, Option.map_eq_some_iff] at same
  obtain ⟨shown, part, event, written, rfl⟩ := same
  cases shown with
  | attempted stream other succeeds =>
    cases succeeds with
    | false => cases written
    | true =>
      simp only [ServiceObservation.deliveredOn, Option.ite_none_right_eq_some,
        Option.some.injEq] at written
      obtain ⟨rfl, rfl⟩ := written
      cases observation with
      | service inner =>
        cases part
        exact ⟨other, member, rfl⟩
      | _ => cases part
  | _ => cases written

/-! ### Registrations -/

/-- Only the controller registers, and it does nothing else in that step. -/
theorem Host.registered_of_step {host after : Host} (named : host.Named) {action : HostAction}
    {out : List HostObservation} (stepped : host.step action = some (after, out))
    {workerId : String} {context : ScriptInvocationContext}
    (registered : .registered workerId context ∈ out) :
    action = .get workerId context.functionId context.invocationId ∧
      out = [.registered workerId context] := by
  cases action with
  | construct owner =>
    obtain ⟨_, _, rfl⟩ := Host.construct_some stepped
    cases registered
  | addWorkerChannel owner =>
    simp only [Host.step, Host.addWorkerChannel, Option.ite_none_right_eq_some] at stepped
    cases stepped.2
    cases registered
  | get owner functionId invocationId =>
    obtain ⟨_, _, _, _, _, rfl⟩ := Host.get_some stepped
    cases List.mem_singleton.mp registered
    exact ⟨rfl, rfl⟩
  | publish invocationId =>
    obtain ⟨_, _, _, rfl⟩ := Host.publish_some stepped
    cases List.mem_singleton.mp registered
  | inbound event =>
    obtain ⟨_, rfl⟩ := Host.step_inbound stepped
    cases List.mem_singleton.mp registered
  | observe owner =>
    obtain ⟨_, _, _, _, _, rfl⟩ := Host.observe_some stepped
    cases registered
  | invoke owner =>
    obtain ⟨_, _, _, _, _, _, _, answers, _⟩ := Host.invoke_views named stepped
    -- A channel that handles an event completes or drops, and registers nothing.
    have nothing := (answers_registers_nothing answers workerId).1
    have listed : context.invocationId ∈ registeredIds workerId out :=
      mem_registeredIds.mpr ⟨context, registered, rfl⟩
    rw [nothing] at listed
    cases listed

theorem System.registered_of_step {workerOf : CallId → String} {system after : System}
    (named : system.host.Named) {action : SystemAction} {out : List SystemObservation}
    (stepped : system.step workerOf action = some (after, out)) {workerId : String}
    {context : ScriptInvocationContext} (registered : .registered workerId context ∈ hostSeen out) :
    action = .host (.get workerId context.functionId context.invocationId) ∧ pairSeen out = [] := by
  rcases System.step_cases stepped with ⟨part, shown, heard, rfl, _, moved, executed, rfl⟩ |
    ⟨_, shown, heard, _, _, _, executed, rfl⟩
  · rw [hostSeen, (System.hostPart_parts _ _).1] at registered
    obtain ⟨rfl, rfl⟩ := Host.registered_of_step named moved registered
    have silent : [] = heard := congrArg Prod.snd (Option.some.inj executed)
    subst silent
    exact ⟨rfl, rfl⟩
  · rw [hostSeen, (System.pairPart_parts _ _).1, System.exec_inbound executed] at registered
    obtain ⟨event, _, same⟩ := List.mem_map.mp registered
    cases same

/-! ### The system -/

/-- What there is on the streams of a call: the greeting of its worker, requests
of invocations registered for that worker, and responses to them. -/
inductive Known (workerOf : CallId → String) (seen : List HostObservation) :
    CallStream → StreamingMessage → Prop where
  | greeting {call : CallId} :
      Known workerOf seen (.request call) { content := .startStream ⟨workerOf call⟩ }
  | request {call : CallId} {context : ScriptInvocationContext}
      (registered : .registered (workerOf call) context ∈ seen) :
      Known workerOf seen (.response call) context.request
  | response {call : CallId} {context : ScriptInvocationContext}
      (registered : .registered (workerOf call) context ∈ seen) :
      Known workerOf seen (.request call) (FunctionRpcClient.success context.invocationId)

section
variable {workerOf : CallId → String} {actions : List SystemAction}
  {seen : List SystemObservation} {system : System}
  (run : (systemMachine workerOf).Run actions seen system)

include run

theorem attempted_registered {call : CallId} {event : RpcEvent} {succeeds : Bool}
    (attempted : .attempted call event succeeds ∈ serviceSeen seen) :
    ∃ context, .registered (workerOf call) context ∈ hostSeen seen ∧
      event.message = context.request := by
  obtain ⟨_, pair⟩ := pair_run run
  obtain ⟨_, service⟩ := service_run pair
  obtain ⟨_, host⟩ := host_run run
  obtain ⟨shook, recipients, offered⟩ := offered_of_attempted service attempted
  have own := identity_of_handshook pair (PairObservation.mem_servicePart.mp shook)
  exact own ▸ (asking_of_run host).sent event (outbound_seen run offered)

theorem wrote_known {call : CallId} {message : StreamingMessage}
    (wrote : .client call (.wrote message) ∈ pairSeen seen) :
    Known workerOf (hostSeen seen) (.request call) message := by
  obtain ⟨_, pair⟩ := pair_run run
  obtain ⟨_, client⟩ := client_run pair call
  have own := PairObservation.mem_clientPart.mpr wrote
  rcases wrote_shape client own with rfl | ⟨id, rfl⟩
  · exact .greeting
  · obtain ⟨request, received, carries⟩ := wrote_received client own
    obtain ⟨event, attempted, rfl⟩ :=
      attempted_of_received pair (PairObservation.mem_clientPart.mp received)
    obtain ⟨context, registered, same⟩ :=
      attempted_registered run (PairObservation.mem_servicePart.mpr attempted)
    rw [same] at carries
    cases carries
    exact .response registered

theorem written_known {observation : SystemObservation} (member : observation ∈ seen)
    {stream : CallStream} {message : StreamingMessage}
    (written : observation.writtenOn = some (stream, message)) :
    Known workerOf (hostSeen seen) stream message := by
  obtain ⟨part, whole, puts⟩ := Option.bind_eq_some_iff.mp written
  have listed : part ∈ pairSeen seen := List.mem_filterMap.mpr ⟨observation, member, whole⟩
  cases part with
  | service shown =>
    cases shown with
    | attempted call event succeeds =>
      cases succeeds with
      | false => cases puts
      | true =>
        cases puts
        obtain ⟨context, registered, same⟩ :=
          attempted_registered run (PairObservation.mem_servicePart.mpr listed)
        rw [same]
        exact .request registered
    | _ => cases puts
  | client call shown =>
    cases shown with
    | wrote own =>
      cases puts
      exact wrote_known run listed
    | _ => cases puts
  | read call own => cases puts

theorem got_of_registered {workerId : String} {context : ScriptInvocationContext}
    (registered : .registered workerId context ∈ hostSeen seen) :
    .host (.get workerId context.functionId context.invocationId) ∈ actions := by
  induction run with
  | start => cases registered
  | @next actions seen out before after action earlier stepped ih =>
    obtain ⟨_, host⟩ := host_run earlier
    unfold hostSeen at registered
    rw [List.filterMap_append] at registered
    rcases List.mem_append.mp registered with old | new
    · exact List.mem_append_left _ (ih old)
    · rw [(System.registered_of_step (correlated_of_run host).named stepped new).1]
      exact List.mem_append_right _ List.mem_cons_self

/-- Whatever is put on a stream is the greeting of that call's worker, asks for an
invocation that is registered for it by then, or answers one. -/
theorem known_before {before later : List SystemObservation} {observation : SystemObservation}
    (split : seen = before ++ observation :: later) {stream : CallStream}
    {message : StreamingMessage} (written : observation.writtenOn = some (stream, message)) :
    Known workerOf (hostSeen before) stream message := by
  obtain ⟨actions, first, middle, action, after, early, late, earlier, stepped, rfl⟩ :=
    run.emitted split
  obtain ⟨_, host⟩ := host_run earlier
  -- A step that puts something on a stream registers nothing.
  have registered : ∀ {workerId context},
      .registered workerId context ∈ hostSeen (first ++ (early ++ observation :: late)) →
      .registered workerId context ∈ hostSeen (first ++ early) := by
    intro workerId context member
    unfold hostSeen at member ⊢
    rw [List.filterMap_append] at member ⊢
    rcases List.mem_append.mp member with old | new
    · exact List.mem_append_left _ old
    · obtain ⟨part, whole, _⟩ := Option.bind_eq_some_iff.mp written
      have silent := (System.registered_of_step (correlated_of_run host).named stepped new).2
      have listed : part ∈ pairSeen (early ++ observation :: late) :=
        List.mem_filterMap.mpr ⟨observation, by simp, whole⟩
      rw [silent] at listed
      cases listed
  cases written_known (earlier.next stepped) (by simp) written with
  | greeting => exact .greeting
  | request known => exact .request (registered known)
  | response known => exact .response (registered known)

end

theorem known_before_write : ∃ system seen after,
    (systemMachine fun _ => "w").exec (System.initial fun _ => "w") busySession =
        some (system, seen) ∧
      (systemMachine fun _ => "w").exec system [.pair (.write "w" true)] =
        some (after, [.pair (.service (.attempted 0
          ⟨"w", { content := .invocationRequest ⟨"i", "5"⟩ }⟩ true))]) ∧
      Known (fun _ => "w") (hostSeen seen) (.response 0)
        { content := .invocationRequest ⟨"i", "5"⟩ } := by
  refine ⟨_, _, _, rfl, rfl, ?_⟩
  have run := @Machine.Run.of_exec _ _ _ (systemMachine fun _ => "w")
    (busySession ++ [.pair (.write "w" true)]) _ _ rfl
  exact @known_before _ _ _ _ run _ []
    (.pair (.service (.attempted 0 ⟨"w", { content := .invocationRequest ⟨"i", "5"⟩ }⟩ true)))
    rfl _ _ rfl

end BenchmarkHost
