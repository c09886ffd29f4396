import BenchmarkHost.Host.Dispatch
import BenchmarkHost.Composition.Handshake

/-! The host process and its workers.

Channels and service share one script event manager: what a channel publishes
reaches the outbound subscriptions in the same step, and what the service reads
reaches the channels in the same step. Everything else interleaves.
-/

set_option autoImplicit false

namespace BenchmarkHost

open Library

structure System where
  host : Host
  pair : Pair

inductive SystemAction where
  | host (action : HostAction)
  | pair (action : PairAction)
  deriving DecidableEq, Repr

inductive SystemObservation where
  | host (observation : HostObservation)
  | pair (observation : PairObservation)
  deriving DecidableEq, Repr

namespace SystemObservation

def hostPart : SystemObservation → Option HostObservation
  | .host observation => some observation
  | .pair _ => none

def pairPart : SystemObservation → Option PairObservation
  | .host _ => none
  | .pair observation => some observation

end SystemObservation

def HostObservation.outboundEvent : HostObservation → Option RpcEvent
  | .outbound event => some event
  | _ => none

def HostObservation.inboundEvent : HostObservation → Option RpcEvent
  | .inbound event => some event
  | _ => none

def ServiceObservation.inboundEvent : ServiceObservation → Option RpcEvent
  | .inbound event => some event
  | _ => none

def ServiceObservation.outboundEvent : ServiceObservation → Option RpcEvent
  | .outbound event _ => some event
  | _ => none

namespace System

def initial (workerOf : CallId → String) : System := ⟨.initial, .initial workerOf⟩

/-- A step of the host, and its events handed to the service. -/
def hostStep (workerOf : CallId → String) (system : System) (action : HostAction) :
    Option (System × List SystemObservation) := do
  let (host, out) ← system.host.step action
  let events := out.filterMap (·.outboundEvent)
  let (pair, heard) ← (pairMachine workerOf).exec system.pair (events.map .publish)
  return (⟨host, pair⟩, out.map .host ++ heard.map .pair)

/-- A step of the service or of a worker, and the service's events handed to the
channels. -/
def pairStep (system : System) (action : PairAction) :
    Option (System × List SystemObservation) := do
  let (pair, out) ← system.pair.step action
  let events := (out.filterMap PairObservation.servicePart).filterMap (·.inboundEvent)
  let (host, heard) ← hostMachine.exec system.host (events.map .inbound)
  return (⟨host, pair⟩, out.map .pair ++ heard.map .host)

def step (workerOf : CallId → String) (system : System) :
    SystemAction → Option (System × List SystemObservation)
  -- These happen as part of a step of the other side only.
  | .host (.inbound _) | .pair (.publish _) => none
  | .host action => system.hostStep workerOf action
  | .pair action => system.pairStep action

end System

def systemMachine (workerOf : CallId → String) :
    Machine System SystemAction SystemObservation :=
  ⟨.initial workerOf, System.step workerOf⟩

open SystemObservation

namespace System

/-! ### What each step does -/

theorem step_cases {workerOf : CallId → String} {system after : System} {action : SystemAction}
    {out : List SystemObservation} (stepped : system.step workerOf action = some (after, out)) :
    (∃ part shown heard, action = .host part ∧ (∀ event, part ≠ .inbound event) ∧
      system.host.step part = some (after.host, shown) ∧
      (pairMachine workerOf).exec system.pair
        ((shown.filterMap (·.outboundEvent)).map .publish) = some (after.pair, heard) ∧
      out = shown.map .host ++ heard.map .pair) ∨
    (∃ part shown heard, action = .pair part ∧ (∀ event, part ≠ .publish event) ∧
      system.pair.step part = some (after.pair, shown) ∧
      hostMachine.exec system.host (((shown.filterMap PairObservation.servicePart).filterMap
        (·.inboundEvent)).map .inbound) = some (after.host, heard) ∧
      out = shown.map .pair ++ heard.map .host) := by
  cases action with
  | host part =>
    have taken : system.hostStep workerOf part = some (after, out) ∧
        ∀ event, part ≠ .inbound event := by
      cases part <;> first | exact ⟨stepped, by simp⟩ | cases stepped
    obtain ⟨moved, foreign⟩ := taken
    simp only [hostStep, Option.bind_eq_bind, Option.bind_eq_some_iff, Option.pure_def,
      Option.some.injEq, Prod.exists, Prod.mk.injEq] at moved
    obtain ⟨host, shown, first, pair, heard, second, rfl, rfl⟩ := moved
    exact .inl ⟨part, shown, heard, rfl, foreign, first, second, rfl⟩
  | pair part =>
    have taken : system.pairStep part = some (after, out) ∧ ∀ event, part ≠ .publish event := by
      cases part <;> first | exact ⟨stepped, by simp⟩ | cases stepped
    obtain ⟨moved, foreign⟩ := taken
    simp only [pairStep, Option.bind_eq_bind, Option.bind_eq_some_iff, Option.pure_def,
      Option.some.injEq, Prod.exists, Prod.mk.injEq] at moved
    obtain ⟨pair, shown, first, host, heard, second, rfl, rfl⟩ := moved
    exact .inr ⟨part, shown, heard, rfl, foreign, first, second, rfl⟩

theorem hostPart_parts (shown : List HostObservation) (heard : List PairObservation) :
    (shown.map SystemObservation.host ++ heard.map SystemObservation.pair).filterMap hostPart =
        shown ∧
      (shown.map SystemObservation.host ++ heard.map SystemObservation.pair).filterMap pairPart =
        heard := by
  have own : (shown.map SystemObservation.host).filterMap hostPart = shown :=
    filterMap_map_some (fun _ => by rfl) shown
  have other : (heard.map SystemObservation.pair).filterMap pairPart = heard :=
    filterMap_map_some (fun _ => by rfl) heard
  rw [List.filterMap_append, List.filterMap_append, own, other, filterMap_map_none fun _ => by rfl,
    filterMap_map_none fun _ => by rfl]
  exact ⟨List.append_nil shown, rfl⟩

theorem pairPart_parts (shown : List PairObservation) (heard : List HostObservation) :
    (shown.map SystemObservation.pair ++ heard.map SystemObservation.host).filterMap hostPart =
        heard ∧
      (shown.map SystemObservation.pair ++ heard.map SystemObservation.host).filterMap pairPart =
        shown := by
  have own : (shown.map SystemObservation.pair).filterMap pairPart = shown :=
    filterMap_map_some (fun _ => by rfl) shown
  have other : (heard.map SystemObservation.host).filterMap hostPart = heard :=
    filterMap_map_some (fun _ => by rfl) heard
  rw [List.filterMap_append, List.filterMap_append, own, other, filterMap_map_none fun _ => by rfl,
    filterMap_map_none fun _ => by rfl]
  exact ⟨rfl, List.append_nil shown⟩

theorem projects_host (workerOf : CallId → String) :
    (systemMachine workerOf).Projects hostMachine (·.host) hostPart := by
  refine ⟨rfl, fun system action after out stepped => ?_⟩
  rcases step_cases stepped with ⟨part, shown, heard, _, _, moved, _, rfl⟩ |
    ⟨_, shown, heard, _, _, _, moved, rfl⟩
  · exact ⟨[part], by rw [Machine.exec_singleton, (hostPart_parts _ _).1]; exact moved⟩
  · exact ⟨_, by rw [(pairPart_parts _ _).1]; exact moved⟩

theorem projects_pair (workerOf : CallId → String) :
    (systemMachine workerOf).Projects (pairMachine workerOf) (·.pair) pairPart := by
  refine ⟨rfl, fun system action after out stepped => ?_⟩
  rcases step_cases stepped with ⟨_, shown, heard, _, _, _, moved, rfl⟩ |
    ⟨part, shown, heard, _, _, moved, _, rfl⟩
  · exact ⟨_, by rw [(hostPart_parts _ _).2]; exact moved⟩
  · exact ⟨[part], by rw [Machine.exec_singleton, (pairPart_parts _ _).2]; exact moved⟩

/-! ### Events of the shared event manager -/

theorem exec_publish {workerOf : CallId → String} {pair after : Pair} {events : List RpcEvent}
    {out : List PairObservation}
    (executed : (pairMachine workerOf).exec pair (events.map .publish) = some (after, out)) :
    (out.filterMap PairObservation.servicePart).filterMap (·.outboundEvent) = events ∧
      (out.filterMap PairObservation.servicePart).filterMap (·.inboundEvent) = [] := by
  induction events generalizing pair out with
  | nil =>
    cases executed
    exact ⟨rfl, rfl⟩
  | cons event rest ih =>
    obtain ⟨between, first, later, stepped, remaining, rfl⟩ :=
      (pairMachine workerOf).exec_cons executed
    obtain ⟨shown, moved, _, _, _, rfl⟩ :=
      Pair.serviceStep_some (show pair.serviceStep (.outbound event) = _ from stepped)
    obtain ⟨_, rfl⟩ := FunctionRpcService.outbound_some moved
    obtain ⟨offered, silent⟩ := ih remaining
    rw [List.filterMap_append, List.filterMap_append, List.filterMap_append, offered, silent,
      Pair.servicePart_service]
    exact ⟨rfl, rfl⟩

theorem exec_inbound {host after : Host} {events : List RpcEvent} {out : List HostObservation}
    (executed : hostMachine.exec host (events.map .inbound) = some (after, out)) :
    out = events.map .inbound := by
  induction events generalizing host out with
  | nil =>
    cases executed
    rfl
  | cons event rest ih =>
    obtain ⟨between, first, later, stepped, remaining, rfl⟩ := hostMachine.exec_cons executed
    obtain ⟨_, rfl⟩ := Host.step_inbound stepped
    rw [ih remaining]
    rfl

theorem outboundEvent_of_step {service after : FunctionRpcService} {action : ServiceAction}
    {out : List ServiceObservation} (stepped : service.step action = some (after, out))
    (other : ∀ event, action ≠ .outbound event) : out.filterMap (·.outboundEvent) = [] := by
  cases action with
  | start call =>
    obtain ⟨_, _, rfl⟩ := FunctionRpcService.start_some stepped
    rfl
  | receiveFirst call message =>
    obtain ⟨_, rest⟩ := FunctionRpcService.receiveFirst_some stepped
    cases content : message.startStream <;> rw [content] at rest <;> rw [rest.2] <;> rfl
  | receive call message =>
    obtain ⟨_, _, _, rfl⟩ := FunctionRpcService.receive_some stepped
    rfl
  | finish call how =>
    obtain ⟨_, _, rfl⟩ := FunctionRpcService.finish_some stepped
    rfl
  | outbound event => exact absurd rfl (other event)
  | write workerId succeeds =>
    obtain ⟨_, _, _, _, _, _, _, _, _, rfl⟩ := FunctionRpcService.write_some stepped
    rfl
  | written workerId =>
    obtain ⟨_, _, _, _, _, rfl⟩ := FunctionRpcService.written_some stepped
    rfl

theorem inboundEvent_of_step {seen : List HostObservation} {host after : Host} {action : HostAction}
    {out : List HostObservation} (correlated : Correlated seen host)
    (stepped : host.step action = some (after, out)) (other : ∀ event, action ≠ .inbound event) :
    out.filterMap (·.inboundEvent) = [] := by
  cases action with
  | construct workerId =>
    obtain ⟨_, _, rfl⟩ := Host.construct_some stepped
    rfl
  | addWorkerChannel workerId =>
    simp only [Host.step, Host.addWorkerChannel, Option.ite_none_right_eq_some] at stepped
    cases stepped.2
    rfl
  | get workerId functionId invocationId =>
    obtain ⟨_, _, _, _, _, rfl⟩ := Host.get_some stepped
    rfl
  | publish invocationId =>
    obtain ⟨_, _, _, rfl⟩ := Host.publish_some stepped
    rfl
  | inbound event => exact absurd rfl (other event)
  | observe workerId =>
    obtain ⟨_, _, _, _, _, rfl⟩ := Host.observe_some stepped
    rfl
  | invoke workerId =>
    obtain ⟨_, response, _, _, _, _, _, answers, _⟩ :=
      Host.invoke_views correlated.named stepped
    cases found : host.executing workerId response.invocationId with
    | none =>
      rw [found] at answers
      rw [answers.2]
      rfl
    | some context =>
      rw [found] at answers
      rcases answers with ⟨_, _, rfl⟩ | ⟨_, _, _, rfl⟩ <;> rfl

end System

/-! ### What each part of the system has shown -/

def hostSeen (seen : List SystemObservation) : List HostObservation := seen.filterMap hostPart

def pairSeen (seen : List SystemObservation) : List PairObservation := seen.filterMap pairPart

def serviceSeen (seen : List SystemObservation) : List ServiceObservation :=
  (pairSeen seen).filterMap PairObservation.servicePart

def clientSeen (call : CallId) (seen : List SystemObservation) : List ClientObservation :=
  (pairSeen seen).filterMap (PairObservation.clientPart call)

section
variable {workerOf : CallId → String} {actions : List SystemAction}
  {seen : List SystemObservation} {system : System}
  (run : (systemMachine workerOf).Run actions seen system)

include run

theorem host_run : ∃ schedule, hostMachine.Run schedule (hostSeen seen) system.host :=
  Machine.Run.project (System.projects_host workerOf) run

theorem pair_run : ∃ schedule, (pairMachine workerOf).Run schedule (pairSeen seen) system.pair :=
  Machine.Run.project (System.projects_pair workerOf) run

theorem published_same : (hostSeen seen).filterMap (·.outboundEvent) =
    (serviceSeen seen).filterMap (·.outboundEvent) := by
  induction run with
  | start => rfl
  | @next actions seen out system after action earlier stepped ih =>
    unfold hostSeen serviceSeen pairSeen at ih ⊢
    simp only [List.filterMap_append, ih]
    congr 1
    rcases System.step_cases stepped with ⟨part, shown, heard, _, _, _, moved, rfl⟩ |
      ⟨part, shown, heard, _, foreign, moved, executed, rfl⟩
    · rw [(System.hostPart_parts _ _).1, (System.hostPart_parts _ _).2,
        (System.exec_publish moved).1]
    · rw [(System.pairPart_parts _ _).1, (System.pairPart_parts _ _).2,
        System.exec_inbound executed]
      -- The service publishes an outbound event only when a channel does.
      have silent : (shown.filterMap PairObservation.servicePart).filterMap
          (·.outboundEvent) = [] := by
        cases Pair.moves_of_step moved with
        | service inner told moved _ _ _ same _ _ published =>
          rw [same, Pair.servicePart_service]
          exact System.outboundEvent_of_step moved fun event same =>
            foreign event (published event same)
        | read _ _ _ inner told _ _ moved _ _ _ same choice =>
          rw [same, Pair.servicePart_read, Pair.servicePart_service]
          exact System.outboundEvent_of_step moved fun event same => by
            rcases choice with ⟨rfl, _⟩ | ⟨rfl, _⟩ <;> cases same
        | client _ _ _ _ _ _ _ _ _ same =>
          rw [same, Pair.servicePart_client]
          rfl
        | deliver _ _ _ _ _ _ _ _ _ _ same =>
          rw [same]
          rfl
      rw [silent]
      exact filterMap_map_none (fun _ => by rfl) _

theorem returned_same : (hostSeen seen).filterMap (·.inboundEvent) =
    (serviceSeen seen).filterMap (·.inboundEvent) := by
  induction run with
  | start => rfl
  | @next actions seen out system after action earlier stepped ih =>
    unfold hostSeen serviceSeen pairSeen at ih ⊢
    simp only [List.filterMap_append, ih]
    congr 1
    rcases System.step_cases stepped with ⟨part, shown, heard, _, foreign, moved, executed, rfl⟩ |
      ⟨part, shown, heard, _, _, _, executed, rfl⟩
    · rw [(System.hostPart_parts _ _).1, (System.hostPart_parts _ _).2]
      obtain ⟨schedule, host⟩ := host_run earlier
      rw [System.inboundEvent_of_step (correlated_of_run host) moved foreign,
        (System.exec_publish executed).2]
    · rw [(System.pairPart_parts _ _).1, (System.pairPart_parts _ _).2,
        System.exec_inbound executed]
      exact filterMap_map_some (fun _ => by rfl) _

end

end BenchmarkHost
