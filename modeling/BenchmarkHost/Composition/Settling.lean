import BenchmarkHost.Composition.StartUp
import BenchmarkHost.Composition.Supply

/-! The system at rest.

When no thread has anything left to do, nothing is held for a worker that still
reads, so every invocation that was heard has been completed. Where the workers
that have opened a call have written `StartStream`, the threads lose nothing, so
they come to that.
-/

set_option autoImplicit false

namespace BenchmarkHost

open Library PairObservation

/-! ### Where no thread has anything left to do -/

namespace Host

theorem awaiting_of_settled {host : Host} (settled : hostMachine.Settled HostAction.own host)
    (workerId : String) : host.awaiting workerId = [] := by
  cases found : host.channels workerId with
  | none =>
    rw [awaiting, found]
    rfl
  | some channel =>
    rw [awaiting_of_channel found]
    -- Each of the two hops has a thread that would move what is in it.
    apply Pipeline.pending_eq_nil
    · have stuck : host.observe workerId = none := settled (.observe workerId) rfl
      unfold observe at stuck
      rw [found] at stuck
      dsimp only at stuck
      cases hop : channel.inboundWorkerEvents.observe with
      | none => rfl
      | some pipeline =>
        rw [hop] at stuck
        cases stuck
    · have stuck : host.invoke workerId = none := settled (.invoke workerId) rfl
      unfold invoke at stuck
      rw [found] at stuck
      dsimp only at stuck
      cases taken : channel.inboundWorkerEvents.take with
      | none => rfl
      | some pair =>
        obtain ⟨event, pipeline⟩ := pair
        rw [taken] at stuck
        dsimp only at stuck
        split at stuck
        · cases stuck
        -- An event at the subscriber is handled whatever it is.
        · split at stuck
          · cases stuck
          · split at stuck <;> cases stuck

theorem sending_of_settled {host : Host} (settled : hostMachine.Settled HostAction.own host)
    (invocationId : String) : host.sending.tryGetValue invocationId = none := by
  have stuck : host.publish invocationId = none := settled (.publish invocationId) rfl
  unfold publish at stuck
  cases waits : host.sending.tryGetValue invocationId with
  | none => rfl
  | some event =>
    have removed : host.sending.tryRemove invocationId =
        ((host.sending.tryRemove invocationId).1, some event) := Prod.ext rfl waits
    rw [removed] at stuck
    cases stuck

end Host

namespace FunctionRpcClient

/-- A client with nothing to do has no write pending, nothing to handle and
nothing to say. -/
theorem idle_of_settled {workerId : String} {client : FunctionRpcClient}
    (settled : (clientMachine workerId).Settled ClientAction.own client) :
    client.phase ≠ .starting ∧ client.requests = [] ∧ client.responses = [] := by
  have free : client.responding = false := by
    have stuck : client.responded = none := settled .responded rfl
    unfold responded at stuck
    split at stuck
    · cases stuck
    · rename_i free
      exact eq_false_of_ne_true free
  -- With no write pending the outbound subscriber is free to write.
  refine ⟨fun starting => ?_, ?_, ?_⟩
  · have stuck : client.startWritten = none := settled .startWritten rfl
    rw [startWritten, starting] at stuck
    cases stuck
  · have nothing : client.inboundWorkerEvents.pending = [] := by
      apply Pipeline.pending_eq_nil
      · have stuck : client.observe = none := settled .observe rfl
        unfold observe at stuck
        split at stuck
        · rename_i none
          exact none
        · cases stuck
      · have stuck : client.handle = none := settled .handle rfl
        unfold handle at stuck
        split at stuck
        · rename_i none
          exact none
        · dsimp only at stuck
          split at stuck <;> cases stuck
    rw [requests, nothing]
    rfl
  · have stuck : client.respond true = none := settled (.respond true) rfl
    unfold respond at stuck
    rw [free] at stuck
    unfold responses
    split at stuck
    · rename_i none
      rw [none]
      rfl
    · rename_i empty
      rw [empty]
      rfl
    · dsimp only at stuck
      split at stuck
      · rename_i same
        cases same
      · split at stuck <;> cases stuck

end FunctionRpcClient

theorem serving_of_handshook {actions : List ServiceAction} {seen : List ServiceObservation}
    {service : FunctionRpcService} (run : serviceMachine.Run actions seen service)
    (endless : ∀ call, .ended call ∉ seen) {call : CallId} {workerId : String}
    (shook : .handshook call workerId ∈ seen) : service.calls call = .serving workerId := by
  induction run with
  | start => cases shook
  | @next actions seen out state after action earlier stepped ih =>
    rcases List.mem_append.mp shook with before | now
    · have served := ih (fun other member => endless other (List.mem_append_left _ member)) before
      have moves := FunctionRpcService.moves_of_step stepped
      cases ends : action.endsCall with
      | some other =>
        exact absurd (List.mem_append_right _ (ended_of_endsCall stepped ends)) (endless other)
      | none =>
        cases handshake : action.handshakes with
        | some pair =>
          obtain ⟨rfl, _, waiting⟩ := moves.handshakes pair.1 pair.2 handshake
          -- A handshake is for a call that awaits its first message, so not for this one.
          have different : call ≠ pair.1 := by
            rintro rfl
            rw [waiting] at served
            cases served
          rw [FunctionRpcService.calls_handshake, Function.update_of_ne different]
          exact served
        | none => exact ((moves.keeps ends handshake).2.1 call workerId).mpr served
    · obtain ⟨message, rfl, names⟩ := FunctionRpcService.handshook_cases stepped now
      obtain ⟨_, rest⟩ := FunctionRpcService.receiveFirst_some stepped
      rw [names] at rest
      rw [rest.1, FunctionRpcService.calls_handshake, Function.update_self]

namespace Pair
variable {workerOf : CallId → String} {pair : Pair}
  (settled : (pairMachine workerOf).Settled PairAction.own pair)

include settled

theorem client_settled (call : CallId) :
    (clientMachine (workerOf call)).Settled ClientAction.own (pair.clients call) := by
  intro action own
  have stuck : pair.step (.client call action) = none := settled (.client call action) own
  rw [step_client own, clientStep] at stuck
  split at stuck
  · rename_i none
    exact none
  · cases stuck

theorem responseStream_of_settled {call : CallId} (reads : (pair.clients call).phase = .reading) :
    pair.responseStream call = [] := by
  have stuck : pair.deliver call = none := settled (.deliver call) rfl
  unfold deliver at stuck
  split at stuck
  · rename_i empty
    exact empty
  · rw [clientStep, FunctionRpcClient.step, FunctionRpcClient.receive, reads] at stuck
    cases stuck

theorem requestStream_of_settled {call : CallId} {workerId : String}
    (serving : pair.service.calls call = .serving workerId) : pair.requestStream call = [] := by
  have stuck : pair.read call = none := settled (.read call) rfl
  unfold read at stuck
  split at stuck
  · rename_i empty
    exact empty
  · simp only [serving, serviceStep, FunctionRpcService.step, FunctionRpcService.receive] at stuck
    cases stuck

theorem queue_of_settled {workerId : String} {subscription : OutboundSubscription}
    (found : pair.service.entry workerId = some subscription) (live : subscription.live = true) :
    subscription.queue = [] := by
  have stuck : ∀ {action : ServiceAction}, pair.serviceStep action = none →
      pair.service.step action = none := by
    intro action whole
    unfold serviceStep at whole
    split at whole
    · rename_i none
      exact none
    · cases whole
  -- A pending write would return, and without one the next would begin.
  have written : pair.service.written workerId = none := stuck (settled (.written workerId) rfl)
  have write : pair.service.write workerId true = none := stuck (settled (.write workerId true) rfl)
  rw [FunctionRpcService.entry] at found
  rw [FunctionRpcService.written, found] at written
  rw [FunctionRpcService.write, found] at write
  dsimp only at written write
  split at written
  · cases written
  · rename_i free
    rw [if_pos ⟨live, free⟩] at write
    split at write
    · rename_i empty
      exact empty
    · cases write

end Pair

/-! ### The whole system -/

theorem exec_publish_enabled (workerOf : CallId → String) (events : List RpcEvent) (pair : Pair) :
    (pairMachine workerOf).exec pair (events.map .publish) ≠ none := by
  apply Machine.exec_enabled
  intro state action member
  obtain ⟨event, _, rfl⟩ := List.mem_map.mp member
  exact Option.some_ne_none _

theorem exec_inbound_enabled (events : List RpcEvent) (host : Host) :
    hostMachine.exec host (events.map .inbound) ≠ none := by
  apply Machine.exec_enabled
  intro state action member
  obtain ⟨event, _, rfl⟩ := List.mem_map.mp member
  exact Option.some_ne_none _

namespace System
variable {workerOf : CallId → String} {system : System}
  (settled : (systemMachine workerOf).Settled SystemAction.own system)

include settled

theorem host_settled : hostMachine.Settled HostAction.own system.host := by
  intro action own
  have stuck : system.step workerOf (.host action) = none := settled (.host action) own
  have whole : system.hostStep workerOf action = none := by
    cases action with
    | inbound event => cases own
    | _ => exact stuck
  cases stepped : hostMachine.step system.host action with
  | none => rfl
  | some result =>
    -- The host never waits for the service: a step of its own is a step of the system.
    obtain ⟨taken, offered⟩ := Option.ne_none_iff_exists'.mp
      (exec_publish_enabled workerOf (result.2.filterMap (·.outboundEvent)) system.pair)
    change system.host.step action = some result at stepped
    simp [hostStep, stepped, offered] at whole

theorem pair_settled : (pairMachine workerOf).Settled PairAction.own system.pair := by
  intro action own
  have stuck : system.step workerOf (.pair action) = none := settled (.pair action) own
  have whole : system.pairStep action = none := by
    cases action with
    | publish event => cases own
    | _ => exact stuck
  cases stepped : (pairMachine workerOf).step system.pair action with
  | none => rfl
  | some result =>
    obtain ⟨taken, offered⟩ := Option.ne_none_iff_exists'.mp
      (exec_inbound_enabled ((result.2.filterMap PairObservation.servicePart).filterMap
        (·.inboundEvent)) system.host)
    change system.pair.step action = some result at stepped
    simp [pairStep, stepped, offered] at whole

end System

/-- What has come of a worker's invocations: those that were heard are completed
in the order in which they were published, and no message is left of the others. -/
structure Answered (seen : List SystemObservation) (system : System) (workerId : String) :
    Prop where
  completed : completedIds workerId (hostSeen seen) =
    (serviceSeen seen).filterMap (·.acceptedId workerId)
  pending : ∀ id context, system.host.executing workerId id = some context →
    ∃ event, .outbound event [] ∈ serviceSeen seen ∧ event.workerId = workerId ∧
      event.message.requestedId = some id

section
variable {workerOf : CallId → String} {actions : List SystemAction}
  {seen : List SystemObservation} {system : System}
  (run : (systemMachine workerOf).Run actions seen system)

include run

theorem completed_eq_taken (workerId : String) :
    completedIds workerId (hostSeen seen) = (hostSeen seen).filterMap (·.takenId workerId) := by
  rw [completedIds, List.map_filterMap]
  apply List.filterMap_congr
  intro observation member
  cases observation with
  | resultSet owner context value =>
    by_cases same : owner = workerId <;>
      simp [HostObservation.completedOn, HostObservation.takenId, same]
  | unmatched owner response => exact absurd member (never_unmatched run owner response)
  | _ => rfl

theorem reading_of_settled (settled : (systemMachine workerOf).Settled SystemAction.own system)
    {call : CallId} {workerId : String} (bound : system.pair.service.stream workerId = some call)
    (reads : (system.pair.clients call).phase ≠ .closed) :
    (system.pair.clients call).phase = .reading := by
  obtain ⟨_, pair⟩ := pair_run run
  have started := started_of_bound pair bound
  have written :=
    (FunctionRpcClient.idle_of_settled (Pair.client_settled (System.pair_settled settled) call)).1
  unfold FunctionRpcClient.Unstarted at started
  cases phase : (system.pair.clients call).phase <;> simp_all

theorem held_of_settled (settled : (systemMachine workerOf).Settled SystemAction.own system)
    (reliable : Reliable (pairSeen seen)) {workerId : String}
    (reads : ∀ call, system.pair.service.stream workerId = some call →
      (system.pair.clients call).phase ≠ .closed) : system.held workerId = [] := by
  unfold System.held
  cases bound : system.pair.service.stream workerId with
  | none => rfl
  | some call =>
    obtain ⟨_, pair⟩ := pair_run run
    obtain ⟨_, service⟩ := service_run pair
    have still := System.pair_settled settled
    have endless := endless_of_reliable reliable
    have reading := reading_of_settled run settled bound (reads call bound)
    obtain ⟨_, requests, responses⟩ :=
      FunctionRpcClient.idle_of_settled (Pair.client_settled still call)
    obtain ⟨live, binding⟩ := FunctionRpcService.stream_eq_some.mp bound
    have shook := handshook_of_binding service binding
    have serving := serving_of_handshook service endless shook
    obtain rfl := live_of_endless service endless binding
    obtain ⟨subscription, found, rfl, live⟩ := FunctionRpcService.binding_eq_some.mp binding
    -- Every place that an invocation can be in is empty.
    rw [Option.elim_some, System.carried, Host.awaitingIds,
      Host.awaiting_of_settled (System.host_settled settled), Pair.inFlight, requests, responses,
      Pair.responseStream_of_settled still reading, Pair.requestStream_of_settled still serving,
      FunctionRpcService.queued, found, Option.elim_some, Pair.queue_of_settled still found live]
    rfl

/-- Once nothing is left to do, and no write has failed and no stream ended, the
invocations that were heard are completed. -/
theorem settled_answered (settled : (systemMachine workerOf).Settled SystemAction.own system)
    (reliable : Reliable (pairSeen seen)) {workerId : String}
    (reads : ∀ call, system.pair.service.stream workerId = some call →
      (system.pair.clients call).phase ≠ .closed) : Answered seen system workerId := by
  have held := held_of_settled run settled reliable reads
  constructor
  case completed =>
    have whole := (held_pass run workerId).all reliable
    rw [held, List.append_nil] at whole
    rw [completed_eq_taken run, whole]
  case pending =>
    intro id context pending
    rcases pending_cases run pending with ⟨event, sending⟩ | ⟨event, recipients, offered, own, carries⟩
    · rw [Host.sending_of_settled (System.host_settled settled)] at sending
      cases sending
    · refine ⟨event, ?_, own, carries⟩
      -- An invocation that some subscription took would be held, and nothing is.
      by_cases unheard : recipients = []
      · exact unheard ▸ offered
      · have accepted : id ∈ (serviceSeen seen).filterMap (·.acceptedId workerId) := by
          refine List.mem_filterMap.mpr ⟨_, offered, ?_⟩
          simp [ServiceObservation.acceptedId, ServiceObservation.publishedLive, own, unheard,
            carries]
        have lost := held_of_accepted run reliable accepted pending
        rw [held] at lost
        cases lost

end

/-! ### Threads that lose nothing -/

/-- The client has not opened its call, or its first write is over. Between the
two a response may be written while `StartStream` is. -/
def FunctionRpcClient.Ready (client : FunctionRpcClient) : Prop :=
  client.phase = .constructed ∨ client.phase = .reading

theorem FunctionRpcClient.Ready.phase_ne {client : FunctionRpcClient} (ready : client.Ready) :
    client.phase ≠ .opened ∧ client.phase ≠ .subscribed ∧ client.phase ≠ .starting ∧
      client.phase ≠ .closed := by
  rcases ready with unopened | reads
  · simp [unopened]
  · simp [reads]

theorem FunctionRpcClient.ready_of_own {client after : FunctionRpcClient} {action : ClientAction}
    {out : List ClientObservation} (ready : client.Ready) (own : action.own = true)
    (stepped : client.step action = some (after, out)) :
    after.Ready ∧ ∀ call, ∀ observation ∈ out,
      (PairObservation.client call observation).reliable = true := by
  obtain ⟨opened, subscribed, starting, closed⟩ := ready.phase_ne
  cases action with
  | subscribe =>
    simp only [step, subscribe] at stepped
    split at stepped <;> cases stepped
    rename_i waiting _
    exact absurd waiting opened
  | writeStart succeeds => exact absurd (writeStart_some stepped).1 subscribed
  | startWritten =>
    change client.startWritten = some (after, out) at stepped
    unfold startWritten at stepped
    split at stepped
    · rename_i waiting
      exact absurd waiting starting
    · cases stepped
  | observe =>
    obtain ⟨_, _, rfl, rfl⟩ := observe_some stepped
    exact ⟨ready, by simp⟩
  | handle =>
    obtain ⟨_, _, _, _, _, rfl, rfl⟩ := handle_some stepped
    exact ⟨ready, by simp [PairObservation.reliable]⟩
  | respond succeeds =>
    cases succeeds with
    | false => cases own
    | true =>
      change client.respond true = some (after, out) at stepped
      unfold respond at stepped
      split at stepped
      · cases stepped
      · cases stepped
      · split at stepped
        · cases stepped
        · dsimp only at stepped
          split at stepped
          · rename_i waiting
            exact absurd waiting starting
          · rename_i ended
            exact absurd ended closed
          · rw [if_pos rfl] at stepped
            cases stepped
            exact ⟨ready, by simp [PairObservation.reliable]⟩
  | responded =>
    simp only [step, responded, Option.ite_none_right_eq_some] at stepped
    cases stepped.2
    exact ⟨ready, by simp⟩
  | _ => cases own

theorem Pair.ready_of_own {workerOf : CallId → String} {actions : List PairAction}
    {seen out : List PairObservation} {pair after : Pair} {action : PairAction}
    (run : (pairMachine workerOf).Run actions seen pair) (ready : ∀ call, (pair.clients call).Ready)
    (own : action.own = true) (stepped : pair.step action = some (after, out)) :
    (∀ call, (after.clients call).Ready) ∧ Reliable out := by
  have updated : ∀ {call client}, client.Ready →
      ∀ other, (Function.update pair.clients call client other).Ready := by
    intro call client still other
    by_cases same : other = call
    · rw [same, Function.update_self]
      exact still
    · rw [Function.update_of_ne same]
      exact ready other
  cases action with
  | accept call =>
    simp only [step] at stepped
    split at stepped
    · cases stepped
    · obtain ⟨shown, moved, clients, _, _, rfl⟩ := serviceStep_some stepped
      obtain ⟨_, _, rfl⟩ := FunctionRpcService.start_some moved
      exact ⟨fun other => clients ▸ ready other, by simp [Reliable]⟩
  | read call =>
    obtain ⟨message, rest, part, shown, _, reads, moved, clients, _, _, same⟩ := read_some stepped
    refine ⟨fun other => clients ▸ ready other, ?_⟩
    have whole := run.next (show (pairMachine workerOf).step pair (.read call) = _ from stepped)
    have named := not_malformed whole call
    rw [List.mem_append, not_or, same, List.mem_cons, not_or] at named
    rw [same]
    rcases reads with rfl | rfl
    · obtain ⟨_, outcome⟩ := FunctionRpcService.receiveFirst_some moved
      cases content : message.startStream with
      | none =>
        rw [content] at outcome
        obtain ⟨_, rfl⟩ := outcome
        exact absurd List.mem_cons_self named.2.2
      | some startStream =>
        rw [content] at outcome
        obtain ⟨_, rfl⟩ := outcome
        simp [Reliable, PairObservation.reliable]
    · obtain ⟨_, _, _, rfl⟩ := FunctionRpcService.receive_some moved
      simp [Reliable, PairObservation.reliable]
  | deliver call =>
    change pair.deliver call = some (after, out) at stepped
    unfold deliver at stepped
    split at stepped
    · cases stepped
    · split at stepped <;> cases stepped
      rename_i inner
      obtain ⟨client, shown, moved, _, clients, _, _, rfl⟩ := clientStep_some inner
      obtain ⟨_, rfl, rfl⟩ := FunctionRpcClient.receive_some moved
      refine ⟨fun other => ?_, by simp [Reliable, PairObservation.reliable]⟩
      rw [clients]
      apply updated
      exact ready call
  | client call part =>
    have inner : part.own = true := own
    rw [step_client inner] at stepped
    obtain ⟨client, shown, acted, _, clients, _, _, rfl⟩ := clientStep_some stepped
    obtain ⟨still, lossless⟩ := FunctionRpcClient.ready_of_own (ready call) inner acted
    constructor
    · exact clients ▸ updated still
    · intro observation member
      obtain ⟨told, shows, rfl⟩ := List.mem_map.mp member
      exact lossless call told shows
  | write workerId succeeds =>
    cases succeeds with
    | false => cases own
    | true =>
      obtain ⟨shown, moved, clients, _, _, rfl⟩ := serviceStep_some stepped
      obtain ⟨_, _, _, _, _, _, _, _, _, rfl⟩ := FunctionRpcService.write_some moved
      exact ⟨fun other => clients ▸ ready other, by simp [Reliable, PairObservation.reliable]⟩
  | written workerId =>
    obtain ⟨shown, moved, clients, _, _, rfl⟩ := serviceStep_some stepped
    obtain ⟨_, _, _, _, _, rfl⟩ := FunctionRpcService.written_some moved
    exact ⟨fun other => clients ▸ ready other, by simp [Reliable, PairObservation.reliable]⟩
  | _ => cases own

theorem reliable_of_exec {workerOf : CallId → String} {events : List RpcEvent} {pair after : Pair}
    {out : List PairObservation}
    (executed : (pairMachine workerOf).exec pair (events.map .publish) = some (after, out)) :
    Reliable out := by
  induction events generalizing pair out with
  | nil =>
    cases executed
    simp [Reliable]
  | cons event rest ih =>
    obtain ⟨between, _, later, stepped, remaining, rfl⟩ := (pairMachine workerOf).exec_cons executed
    obtain ⟨_, moved, _, _, _, rfl⟩ :=
      Pair.serviceStep_some (show pair.serviceStep (.outbound event) = _ from stepped)
    obtain ⟨_, rfl⟩ := FunctionRpcService.outbound_some moved
    intro observation member
    rcases List.mem_append.mp member with now | after
    · rw [List.mem_singleton.mp now]
      rfl
    · exact ih remaining observation after

theorem System.ready_of_own {workerOf : CallId → String} {actions : List SystemAction}
    {seen out : List SystemObservation} {system after : System} {action : SystemAction}
    (run : (systemMachine workerOf).Run actions seen system)
    (ready : ∀ call, (system.pair.clients call).Ready) (own : action.own = true)
    (stepped : system.step workerOf action = some (after, out)) :
    (∀ call, (after.pair.clients call).Ready) ∧ Reliable (pairSeen out) := by
  rcases step_cases stepped with ⟨part, shown, heard, rfl, _, _, executed, rfl⟩ |
    ⟨part, shown, heard, rfl, _, moved, _, rfl⟩
  · rw [clients_of_exec executed, pairSeen, (hostPart_parts shown heard).2]
    exact ⟨ready, reliable_of_exec executed⟩
  · obtain ⟨_, pair⟩ := pair_run run
    rw [pairSeen, (pairPart_parts shown heard).2]
    exact Pair.ready_of_own pair ready own moved

/-- Once the workers have begun, what is heard is completed when the threads come
to rest, in whatever order they ran. -/
theorem answered_at_rest {workerOf : CallId → String} {actions : List SystemAction}
    {seen : List SystemObservation} {system : System}
    (run : (systemMachine workerOf).Run actions seen system) (reliable : Reliable (pairSeen seen))
    (ready : ∀ call, (system.pair.clients call).Ready) {schedule : List SystemAction}
    {later : List SystemObservation} {rest : System}
    (owned : ∀ action ∈ schedule, action.own = true)
    (executed : (systemMachine workerOf).exec system schedule = some (rest, later))
    (settled : (systemMachine workerOf).Settled SystemAction.own rest) (workerId : String) :
    Answered (seen ++ later) rest workerId := by
  have whole := run.extend executed
  -- Readiness makes the next step lossless, so both go through the induction together.
  suffices kept : (∀ call, (rest.pair.clients call).Ready) ∧ Reliable (pairSeen (seen ++ later)) by
    exact settled_answered whole settled kept.2 fun call _ => (kept.1 call).phase_ne.2.2.2
  clear whole settled
  induction schedule generalizing actions seen system later with
  | nil =>
    cases executed
    rw [List.append_nil]
    exact ⟨ready, reliable⟩
  | cons action more ih =>
    obtain ⟨after, out, tail, stepped, remaining, rfl⟩ := (systemMachine workerOf).exec_cons executed
    obtain ⟨still, lossless⟩ :=
      System.ready_of_own run ready (owned action List.mem_cons_self) stepped
    have extended : Reliable (pairSeen (seen ++ out)) := by
      intro observation member
      rw [pairSeen, List.filterMap_append, List.mem_append] at member
      exact member.elim (reliable observation) (lossless observation)
    rw [← List.append_assoc]
    exact ih (run.next stepped) extended still
      (fun other member => owned other (List.mem_cons_of_mem action member)) remaining

/-- A worker connects and an invocation is asked for. -/
def sessionStart : List SystemAction :=
  [.host (.construct "w"), .host (.addWorkerChannel "w"), .pair (.client 0 .openCall),
    .pair (.accept 0), .pair (.client 0 .subscribe), .pair (.client 0 (.writeStart true)),
    .pair (.client 0 .startWritten), .pair (.read 0), .host (.get "w" "5" "i")]

def sessionRest : List SystemAction :=
  [.host (.publish "i"), .pair (.write "w" true), .pair (.deliver 0), .pair (.client 0 .observe),
    .pair (.written "w"), .pair (.client 0 .handle), .pair (.client 0 (.respond true)),
    .host (.observe "w"), .pair (.read 0), .pair (.client 0 .responded), .host (.observe "w"),
    .host (.invoke "w")]

theorem answered_at_rest_session : ∃ system seen rest later,
    (systemMachine fun _ => "w").exec (System.initial fun _ => "w") sessionStart =
        some (system, seen) ∧
      (systemMachine fun _ => "w").exec system sessionRest = some (rest, later) ∧
      Answered (seen ++ later) rest "w" ∧ completedIds "w" (hostSeen (seen ++ later)) = ["i"] := by
  refine ⟨_, _, _, _, rfl, rfl, ?_, by decide⟩
  have run := @Machine.Run.of_exec _ _ _ (systemMachine fun _ => "w") sessionStart _ _ rfl
  refine @answered_at_rest _ sessionStart _ _ run (by unfold Reliable; decide) (fun call => ?_)
    sessionRest _ _ (by decide) rfl ?_ "w"
  · by_cases own : call = 0
    · subst own
      exact .inr (by decide)
    · have unopened : .pair (.client call .openCall) ∉ sessionStart := by simp [sessionStart, own]
      exact .inl (not_not.mp fun opened => unopened (opened_of_run run opened))
  · refine @Machine.Spends.settled_of_empty _ _ _ _ _ _ _ (spends_of_run sessionStart) _
      ⟨sessionRest, _, by decide, run.extend rfl⟩ ?_
    decide

end BenchmarkHost
