import BenchmarkHost.Service.Sessions
import BenchmarkHost.Composition.Pair

/-! Causality between the service and its workers.

The service writes to a response stream only after the first message of that
call has been read, so a worker that has not written anything has received
nothing. This orders the reader, the outbound subscription and the first write
of `RpcStream`, which nothing in the client does.
-/

set_option autoImplicit false

namespace BenchmarkHost

open Library PairObservation

section
variable {workerOf : CallId → String} {actions : List PairAction} {seen : List PairObservation}
  {pair : Pair} (run : (pairMachine workerOf).Run actions seen pair)

include run

theorem service_run :
    ∃ schedule, serviceMachine.Run schedule (seen.filterMap servicePart) pair.service :=
  Machine.Run.project (Pair.projects_service workerOf) run

theorem client_run (call : CallId) :
    ∃ schedule, (clientMachine (workerOf call)).Run schedule (seen.filterMap (clientPart call))
      (pair.clients call) :=
  Machine.Run.project (Pair.projects_client workerOf call) run

theorem request_history (call : CallId) :
    seen.filterMap (readOn call) ++ pair.requestStream call = seen.filterMap (Pair.wroteOn call) :=
  (Pair.requests_conveyed workerOf call).history run (by simp)

theorem response_history (call : CallId) :
    seen.filterMap (Pair.receivedOn call) ++ pair.responseStream call =
      seen.filterMap (Pair.deliveredOn call) :=
  (Pair.responses_conveyed workerOf call).history run (by simp)

theorem bound_of_delivered {call : CallId}
    (delivered : seen.filterMap (Pair.deliveredOn call) ≠ []) :
    ∃ workerId live, pair.service.binding workerId = some (call, live) := by
  obtain ⟨schedule, service⟩ := service_run run
  by_contra free
  refine delivered ?_
  have untouched := ((ordered_of_run service).unbound call fun workerId subscription found same =>
    free ⟨workerId, subscription.live,
      FunctionRpcService.binding_eq_some.mpr ⟨subscription, found, same, rfl⟩⟩).1
  rw [Pair.filterMap_deliveredOn, List.map_eq_nil_iff]
  rw [List.filterMap_eq_nil_iff] at untouched ⊢
  intro observation member
  have nothing := untouched observation member
  cases observation with
  | attempted stream event succeeds =>
    cases succeeds with
    | false => rfl
    | true => exact nothing
  | _ => rfl

end

/-- What has been read of a call's request stream, against the state of the call. -/
structure Greeted (seen : List PairObservation) (pair : Pair) : Prop where
  unread : ∀ call, pair.service.Idle call → seen.filterMap (readOn call) = []
  greeting : ∀ call workerId, .service (.handshook call workerId) ∈ seen →
    ∃ message rest, seen.filterMap (readOn call) = message :: rest ∧
      message.startStream = some ⟨workerId⟩

theorem Greeted.step {seen out : List PairObservation} {pair after : Pair} {action : PairAction}
    (greeted : Greeted seen pair) (stepped : pair.step action = some (after, out)) :
    Greeted (seen ++ out) after := by
  have later : ∀ call workerId, .service (.handshook call workerId) ∈ seen →
      ∃ message rest, (seen ++ out).filterMap (readOn call) = message :: rest ∧
        message.startStream = some ⟨workerId⟩ := by
    intro call workerId shook
    obtain ⟨message, rest, first, names⟩ := greeted.greeting call workerId shook
    exact ⟨message, rest ++ out.filterMap (readOn call),
      by simp [List.filterMap_append, first], names⟩
  cases Pair.moves_of_step stepped with
  | service part shown moved _ _ _ same unread =>
    subst same
    constructor
    · intro call idle
      rw [List.filterMap_append, Pair.readOn_service, List.append_nil]
      exact greeted.unread call (FunctionRpcService.idle_of_step moved idle).1
    · intro call workerId shook
      rcases List.mem_append.mp shook with before | now
      · exact later call workerId before
      · obtain ⟨message, first, _⟩ := FunctionRpcService.handshook_cases moved (by simpa using now)
        exact absurd first (unread call message).1
  | read reader message rest part shown _ head moved _ _ _ same choice =>
    subst same
    constructor
    · intro call idle
      obtain ⟨before, other⟩ := FunctionRpcService.idle_of_step moved idle
      have different : reader ≠ call := by
        rintro rfl
        rcases choice with ⟨first, _⟩ | ⟨next, _⟩
        · exact (other message).1 first
        · exact (other message).2 next
      simp [List.filterMap_append, greeted.unread call before, readOn, different]
    · intro call workerId shook
      rcases List.mem_append.mp shook with before | now
      · exact later call workerId before
      · obtain ⟨greeting, first, names⟩ :=
          FunctionRpcService.handshook_cases moved (by simpa using now)
        rcases choice with ⟨chosen, waiting⟩ | ⟨chosen, _⟩
        · rw [first] at chosen
          cases chosen
          have nothing := greeted.unread reader (.inr waiting)
          exact ⟨message, [], by simp [List.filterMap_append, nothing, readOn], names⟩
        · rw [first] at chosen
          cases chosen
  | client other _ shown _ _ service _ _ _ same =>
    subst same
    constructor
    · intro call idle
      rw [List.filterMap_append, Pair.readOn_client, List.append_nil]
      exact greeted.unread call (by rwa [service] at idle)
    · intro call workerId shook
      exact later call workerId (by simpa using shook)
  | deliver other message _ _ _ _ service _ _ _ same =>
    subst same
    constructor
    · intro call idle
      rw [List.filterMap_append]
      simpa [readOn] using greeted.unread call (by rwa [service] at idle)
    · intro call workerId shook
      exact later call workerId (by simpa using shook)

section
variable {workerOf : CallId → String} {actions : List PairAction} {seen : List PairObservation}
  {pair : Pair} (run : (pairMachine workerOf).Run actions seen pair)

include run

theorem greeted_of_run : Greeted seen pair := by
  refine run.invariant ?_ fun _ _ _ _ _ _ _ greeted stepped => greeted.step stepped
  constructor <;> simp

theorem wrote_of_received {call : CallId} (received : seen.filterMap (Pair.receivedOn call) ≠ []) :
    seen.filterMap (Pair.wroteOn call) ≠ [] := by
  have delivered : seen.filterMap (Pair.deliveredOn call) ≠ [] := by
    rw [← response_history run call]
    simp [received]
  obtain ⟨workerId, live, bound⟩ := bound_of_delivered run delivered
  obtain ⟨schedule, service⟩ := service_run run
  have shook := mem_servicePart.mp (handshook_of_binding service bound)
  obtain ⟨message, rest, first, _⟩ := (greeted_of_run run).greeting call workerId shook
  rw [← request_history run call, first]
  simp

theorem silent_of_unwritten {call : CallId} (unwritten : seen.filterMap (Pair.wroteOn call) = []) :
    (pair.clients call).requests = [] ∧ (pair.clients call).outboundEvents.getD [] = [] := by
  have unheard : seen.filterMap (Pair.receivedOn call) = [] := by
    by_contra received
    exact wrote_of_received run received unwritten
  rw [Pair.filterMap_receivedOn] at unheard
  obtain ⟨schedule, client⟩ := client_run run call
  obtain ⟨_, requests, events, _⟩ := silent_of_unheard client unheard
  exact ⟨requests, events⟩

end

def startMessageOf (workerOf : CallId → String) (call : CallId) : StreamingMessage :=
  { content := .startStream ⟨workerOf call⟩ }

/-- Nothing goes before `StartStream` on a request stream. -/
theorem begins_of_run {workerOf : CallId → String} {actions : List PairAction}
    {seen : List PairObservation} {pair : Pair} (run : (pairMachine workerOf).Run actions seen pair)
    (call : CallId) :
    (seen.filterMap (Pair.wroteOn call) = [] ∨
      ∃ rest, seen.filterMap (Pair.wroteOn call) = startMessageOf workerOf call :: rest) ∧
    ((pair.clients call).Unstarted → seen.filterMap (Pair.wroteOn call) = []) := by
  induction run with
  | start => exact ⟨.inl rfl, fun _ => rfl⟩
  | @next actions seen out pair after action earlier stepped ih =>
    -- Only a step of this client changes what is on the stream.
    have unchanged : out.filterMap (Pair.wroteOn call) = [] →
        ((after.clients call).Unstarted → (pair.clients call).Unstarted) →
        ((seen ++ out).filterMap (Pair.wroteOn call) = [] ∨
          ∃ rest, (seen ++ out).filterMap (Pair.wroteOn call) =
            startMessageOf workerOf call :: rest) ∧
        ((after.clients call).Unstarted → (seen ++ out).filterMap (Pair.wroteOn call) = []) := by
      intro silent unstarted
      rw [List.filterMap_append, silent, List.append_nil]
      exact ⟨ih.1, fun still => ih.2 (unstarted still)⟩
    rcases Pair.client_of_step call stepped with ⟨part, shown, moved, same, _⟩ | ⟨same, none, _⟩
    · have wrote : out.filterMap (Pair.wroteOn call) = shown.filterMap (·.wroteMessage) := by
        rw [Pair.filterMap_wroteOn, same]
      rcases FunctionRpcClient.wrote_cases moved with silent | ⟨phase, start, started⟩ | answer
      · exact unchanged (wrote.trans silent) (FunctionRpcClient.unstarted_of_step moved)
      · have nothing := ih.2 (.inr (.inr phase))
        obtain ⟨schedule, client⟩ := client_run earlier call
        refine ⟨.inr ⟨[], ?_⟩, fun still => absurd still started⟩
        rw [List.filterMap_append, nothing, wrote, start, FunctionRpcClient.startMessage,
          client_identity client]
        rfl
      · obtain ⟨_, event, rest, queue, answer⟩ := answer
        -- An answer to write means that something was written before it.
        have spoken : seen.filterMap (Pair.wroteOn call) ≠ [] := by
          intro unwritten
          have events := (silent_of_unwritten earlier unwritten).2
          rw [queue] at events
          cases events
        rcases ih.1 with nothing | ⟨first, begins⟩
        · exact absurd nothing spoken
        · refine ⟨.inr ⟨first ++ [event.message], ?_⟩, fun still => ?_⟩
          · rw [List.filterMap_append, begins, wrote, answer]
            rfl
          · exact absurd (ih.2 (FunctionRpcClient.unstarted_of_step moved still)) spoken
    · refine unchanged ?_ (by rw [same]; exact id)
      rw [Pair.filterMap_wroteOn, none]
      rfl

/-- What the order of the handshake guarantees, with no help from the client. -/
structure CausallySafe (workerOf : CallId → String) (seen : List PairObservation)
    (pair : Pair) : Prop where
  /-- The messages ever put on a request stream begin with the client's `StartStream`. -/
  first : ∀ call message,
    (seen.filterMap (readOn call) ++ pair.requestStream call).head? = some message →
    message = startMessageOf workerOf call
  neverNull : ∀ call, .service (.malformed call) ∉ seen
  identified : ∀ call workerId, .service (.handshook call workerId) ∈ seen →
    workerId = workerOf call
  heard : ∀ call event heard, .client call (.published event heard) ∈ seen → heard = true

/-- The first message the service reads is the one its client wrote first. -/
theorem first_read {workerOf : CallId → String} {actions : List PairAction}
    {seen : List PairObservation} {pair : Pair} (run : (pairMachine workerOf).Run actions seen pair)
    {call : CallId} {message : StreamingMessage} {rest : List StreamingMessage}
    (first : seen.filterMap (readOn call) ++ pair.requestStream call = message :: rest) :
    message = startMessageOf workerOf call := by
  rw [request_history run call] at first
  rcases (begins_of_run run call).1 with nothing | ⟨later, begins⟩
  · rw [nothing] at first
    cases first
  · rw [begins] at first
    exact (List.cons.inj first).1.symm

theorem not_malformed {workerOf : CallId → String} {actions : List PairAction}
    {seen : List PairObservation} {pair : Pair} (run : (pairMachine workerOf).Run actions seen pair)
    (call : CallId) : .service (.malformed call) ∉ seen := by
  induction run with
  | start => simp
  | @next actions seen out pair after action earlier stepped ih =>
    rw [List.mem_append, not_or]
    refine ⟨ih, fun malformed => ?_⟩
    cases Pair.moves_of_step stepped with
    | service part shown moved _ _ _ same unread =>
      rw [same, List.mem_map] at malformed
      obtain ⟨observation, member, shown⟩ := malformed
      cases shown
      obtain ⟨message, first, _⟩ := FunctionRpcService.malformed_cases moved member
      exact (unread call message).1 first
    | read reader message rest part shown _ head moved _ _ _ same choice =>
      simp only [same, List.mem_cons, reduceCtorEq, List.mem_map, false_or] at malformed
      obtain ⟨observation, member, shown⟩ := malformed
      cases shown
      obtain ⟨other, first, null⟩ := FunctionRpcService.malformed_cases moved member
      rcases choice with ⟨chosen, waiting⟩ | ⟨chosen, _⟩ <;> rw [first] at chosen <;> cases chosen
      have nothing := (greeted_of_run earlier).unread call (.inr waiting)
      have begins := first_read earlier (show _ = message :: rest by rw [nothing, head]; rfl)
      rw [begins] at null
      cases null
    | client _ _ _ _ _ _ _ _ _ same => simp [same] at malformed
    | deliver _ _ _ _ _ _ _ _ _ _ same => simp [same] at malformed

theorem heard_of_run {workerOf : CallId → String} {actions : List PairAction}
    {seen : List PairObservation} {pair : Pair} (run : (pairMachine workerOf).Run actions seen pair)
    {call : CallId} {event : RpcEvent} {heard : Bool}
    (published : .client call (.published event heard) ∈ seen) : heard = true := by
  induction run with
  | start => simp at published
  | @next actions seen out pair after action earlier stepped ih =>
    rcases List.mem_append.mp published with before | now
    · exact ih before
    · have own := mem_clientPart.mpr now
      rcases Pair.client_of_step call stepped with ⟨part, shown, moved, same, _⟩ | ⟨_, none, _⟩
      · rw [same] at own
        obtain ⟨busy, same⟩ := FunctionRpcClient.published_cases moved own
        have spoken : seen.filterMap (Pair.wroteOn call) ≠ [] := fun unwritten =>
          busy (silent_of_unwritten earlier unwritten).1
        obtain ⟨schedule, client⟩ := client_run earlier call
        rw [same, Option.isSome_iff_ne_none]
        intro absent
        have phase := (client_wellFormed client).subscribed.mp absent
        exact spoken ((begins_of_run earlier call).2 (phase.imp_right .inl))
      · simp [none] at own

theorem identity_of_handshook {workerOf : CallId → String} {actions : List PairAction}
    {seen : List PairObservation} {pair : Pair} (run : (pairMachine workerOf).Run actions seen pair)
    {call : CallId} {workerId : String} (shook : .service (.handshook call workerId) ∈ seen) :
    workerId = workerOf call := by
  obtain ⟨message, rest, first, names⟩ := (greeted_of_run run).greeting call workerId shook
  have begins := first_read run (show _ = message :: (rest ++ pair.requestStream call) by
    rw [first]; rfl)
  rw [begins] at names
  cases names
  rfl

theorem causally_safe {workerOf : CallId → String} {actions : List PairAction}
    {seen : List PairObservation} {pair : Pair}
    (run : (pairMachine workerOf).Run actions seen pair) : CausallySafe workerOf seen pair := by
  constructor
  · intro call message first
    obtain ⟨rest, begins⟩ := List.head?_eq_some_iff.mp first
    exact first_read run begins
  · exact not_malformed run
  · exact fun call workerId shook => identity_of_handshook run shook
  · intro call event heard published
    exact heard_of_run run published

/-- Events published before, during and after the handshakes of two workers. -/
def busyStart : List PairAction :=
  let request (workerId id : String) : RpcEvent :=
    ⟨workerId, { content := .invocationRequest ⟨id, "5"⟩ }⟩
  [.publish (request "a" "lost"), .client 0 .openCall, .accept 0, .client 1 .openCall,
    .client 0 .subscribe, .client 0 (.writeStart true), .accept 1, .publish (request "b" "early"),
    .read 0, .publish (request "a" "i"), .write "a" true, .client 1 .subscribe, .deliver 0,
    .client 0 .startWritten, .client 1 (.writeStart true), .client 0 .observe, .client 0 .handle,
    .read 1, .written "a", .client 0 (.respond true), .read 0]

theorem causally_safe_busy :
    ∃ pair seen, (pairMachine fun call => if call = 0 then "a" else "b").exec
        (Pair.initial fun call => if call = 0 then "a" else "b") busyStart = some (pair, seen) ∧
      CausallySafe (fun call => if call = 0 then "a" else "b") seen pair ∧
      seen.filterMap (clientPart 0) = [.wrote { content := .startStream ⟨"a"⟩ },
        .received { content := .invocationRequest ⟨"i", "5"⟩ }, .handled "i",
        .published ⟨"a", { content := .invocationResponse ⟨"i", "Success"⟩ }⟩ true,
        .wrote { content := .invocationResponse ⟨"i", "Success"⟩ }] :=
  ⟨_, _, rfl, causally_safe (@Machine.Run.of_exec _ _ _ (pairMachine _) busyStart _ _ rfl),
    by decide⟩

end BenchmarkHost
