import BenchmarkHost.Composition.Routing
import BenchmarkHost.Composition.System
import BenchmarkHost.Library.Settling
import Mathlib.Algebra.Order.BigOperators.Group.Finset

/-! The system left to itself.

The threads of the host, the service and the workers act on what they have; new
channels, new invocations, new calls, their ends and the failures of writes come
from outside. Once its call is open, `RpcStream` goes on by itself. Each message
is worth the steps it may cause: a response that the service reads is offered to
both hops of every channel, and what comes before is worth more. So every step
spends, and the threads stop in any order.
-/

set_option autoImplicit false

namespace BenchmarkHost

open Library PairObservation

def ClientAction.own : ClientAction → Bool
  | .subscribe | .writeStart true | .startWritten | .observe | .handle | .respond true
  | .responded => true
  | .openCall | .writeStart false | .receive _ | .respond false | .close => false

def PairAction.own : PairAction → Bool
  | .accept _ | .read _ | .write _ true | .written _ | .deliver _ => true
  | .client _ action => action.own
  | .publish _ | .finish _ _ | .write _ false => false

def HostAction.own : HostAction → Bool
  | .publish _ | .observe _ | .invoke _ => true
  | .construct _ | .addWorkerChannel _ | .get _ _ _ | .inbound _ => false

/-- What the threads of the system do when nothing new comes from outside. -/
def SystemAction.own : SystemAction → Bool
  | .host action => action.own
  | .pair action => action.own

/-! ### The supply of each part -/

def Host.supply (workers : Finset String) (host : Host) : Nat :=
  ∑ workerId ∈ workers,
    (host.channels workerId).elim 0 fun channel => channel.inboundWorkerEvents.supply 1

/-- The statements that `RpcStream` still has before it reads, with `reading` for
a message that the service reads. -/
def RpcStreamPhase.supply (reading : Nat) : RpcStreamPhase → Nat
  | .opened => reading + 3
  | .subscribed => reading + 2
  | .starting => 1
  | .constructed | .reading | .closed => 0

/-- A request costs a client its handling, its writing and the return of the write. -/
def FunctionRpcClient.supply (reading : Nat) (client : FunctionRpcClient) : Nat :=
  client.phase.supply reading + client.inboundWorkerEvents.supply (reading + 3) +
    (client.outboundEvents.getD []).length * (reading + 2) + if client.responding then 1 else 0

def OutboundSubscription.supply (reading : Nat) (subscription : OutboundSubscription) : Nat :=
  subscription.queue.length * (reading + 7) + if subscription.writing then 1 else 0

namespace Pair

/-- A call that the service has not accepted yet costs it one step. -/
def callSupply (reading : Nat) (pair : Pair) (call : CallId) : Nat :=
  (pair.clients call).supply reading + (pair.requestStream call).length * reading +
    (pair.responseStream call).length * (reading + 5) +
    if pair.service.calls call = .notStarted then 1 else 0

def entrySupply (reading : Nat) (pair : Pair) (workerId : String) : Nat :=
  (pair.service.entry workerId).elim 0 (·.supply reading)

def supply (workers : Finset String) (calls : Finset CallId) (reading : Nat) (pair : Pair) : Nat :=
  ∑ call ∈ calls, pair.callSupply reading call +
    ∑ workerId ∈ workers, pair.entrySupply reading workerId

end Pair

/-- An event that is read reaches every channel. -/
def readingSupply (workers : Finset String) : Nat := 2 * workers.card + 1

def System.supply (workers : Finset String) (calls : Finset CallId) (system : System) : Nat :=
  system.host.sending.keys.length * (readingSupply workers + 8) + system.host.supply workers +
    system.pair.supply workers calls (readingSupply workers)

/-! ### What a step of a channel spends -/

namespace Host
variable {workers : Finset String} {host after : Host}

theorem channels_setChannel (host : Host) (workerId other : String)
    (channel : LanguageWorkerChannel) : (host.setChannel workerId channel).channels other =
      if other = workerId then some channel else host.channels other :=
  Function.update_apply host.channels workerId (some channel) other

theorem supply_setChannel {workerId : String} {channel replaced : LanguageWorkerChannel}
    {amount : Nat} (found : host.channels workerId = some channel) (member : workerId ∈ workers)
    (spent : replaced.inboundWorkerEvents.supply 1 + amount ≤
      channel.inboundWorkerEvents.supply 1) :
    (host.setChannel workerId replaced).supply workers + amount ≤ host.supply workers := by
  apply sum_spend _ member
  · rw [channels_setChannel, if_pos rfl, found]
    exact spent
  · intro other different
    rw [channels_setChannel, if_neg different]

theorem supply_inbound (host : Host) (event : RpcEvent) :
    (host.inbound event).1.supply workers ≤ host.supply workers + 2 * workers.card := by
  have each : ∀ workerId ∈ workers, ((host.inbound event).1.channels workerId).elim 0
      (fun channel => channel.inboundWorkerEvents.supply 1) ≤
        (host.channels workerId).elim 0 (fun channel => channel.inboundWorkerEvents.supply 1) +
          2 := by
    intro workerId _
    rw [channels_inbound]
    cases host.channels workerId with
    | none => exact Nat.zero_le 2
    | some channel => exact Nat.le_of_eq (Pipeline.supply_onNext 1 _ event)
  -- Two hops for each channel, whether the event is for it or not.
  have total := Finset.sum_le_sum each
  rw [Finset.sum_add_distrib, Finset.sum_const_nat fun _ _ => rfl, Nat.mul_comm] at total
  exact total

theorem supply_exec {events : List RpcEvent} {out : List HostObservation}
    (executed : hostMachine.exec host (events.map .inbound) = some (after, out)) :
    after.supply workers ≤ host.supply workers + events.length * (2 * workers.card) ∧
      after.sending = host.sending := by
  constructor
  · rw [← List.length_map HostAction.inbound]
    refine Machine.exec_gain (fun action member {state next shown} stepped => ?_) executed
    obtain ⟨event, _, rfl⟩ := List.mem_map.mp member
    obtain ⟨rfl, rfl⟩ := step_inbound stepped
    exact supply_inbound state event
  · refine Machine.exec_invariant (fun action member {state next shown} same stepped => ?_) rfl
      executed
    obtain ⟨event, _, rfl⟩ := List.mem_map.mp member
    obtain ⟨rfl, rfl⟩ := step_inbound stepped
    exact same

/-- A thread of the host passes on the event it publishes or spends a step. -/
theorem supply_own {action : HostAction} {out : List HostObservation}
    (known : ∀ workerId, (host.channels workerId).isSome → workerId ∈ workers)
    (own : action.own = true) (stepped : host.step action = some (after, out)) :
    ((out.filterMap (·.outboundEvent)).length = 1 ∧ after.supply workers = host.supply workers ∧
      after.sending.keys.length + 1 = host.sending.keys.length) ∨
    (out.filterMap (·.outboundEvent) = [] ∧ after.sending = host.sending ∧
      after.supply workers + 1 ≤ host.supply workers) := by
  cases action with
  | publish invocationId =>
    obtain ⟨event, waits, rfl, rfl⟩ := publish_some stepped
    refine .inl ⟨rfl, rfl, ?_⟩
    have member := Dictionary.mem_keys.mpr ⟨event, waits⟩
    have remaining := List.length_erase_add_one member
    unfold Dictionary.tryRemove Dictionary.keys
    rw [AList.keys_erase]
    exact remaining
  | observe workerId =>
    change host.observe workerId = some (after, out) at stepped
    unfold observe at stepped
    split at stepped
    · cases stepped
    · rename_i channel found
      have member := known workerId (by rw [found]; rfl)
      split at stepped <;> cases stepped
      rename_i pipeline hop
      exact .inr ⟨rfl, rfl, supply_setChannel found member (Pipeline.supply_observe 1 hop)⟩
  | invoke workerId =>
    change host.invoke workerId = some (after, out) at stepped
    unfold invoke at stepped
    split at stepped
    · cases stepped
    · rename_i channel found
      have member := known workerId (by rw [found]; rfl)
      split at stepped
      · cases stepped
      · rename_i event pipeline taken
        have spent := Nat.le_of_eq (Pipeline.supply_take 1 taken)
        -- Whatever becomes of the response, the event is off the pipeline.
        cases content : event.message.invocationResponse with
        | none =>
          simp only [content] at stepped
          cases stepped
          exact .inr ⟨rfl, rfl, supply_setChannel found member spent⟩
        | some response =>
          simp only [content, LanguageWorkerChannel.invokeResponse, Dictionary.tryRemove_value]
            at stepped
          cases entry : channel.executingInvocations.tryGetValue response.invocationId with
          | none =>
            simp only [entry, Option.map_none] at stepped
            cases stepped
            exact .inr ⟨rfl, rfl, supply_setChannel found member spent⟩
          | some context =>
            simp only [entry, Option.map_some] at stepped
            split at stepped <;> cases stepped
            · exact .inr ⟨rfl, rfl, supply_setChannel found member spent⟩
            · exact .inr ⟨rfl, rfl, supply_setChannel found member spent⟩
  | _ => cases own

end Host

namespace FunctionRpcClient

theorem supply_receive (reading : Nat) (client : FunctionRpcClient) (event : RpcEvent) :
    { client with inboundWorkerEvents := client.inboundWorkerEvents.onNext event }.supply reading =
      client.supply reading + (reading + 4) := by
  simp only [supply, Pipeline.supply_onNext]
  omega

/-- A thread of a client spends a step beyond what it writes. -/
theorem supply_own {reading : Nat} {client after : FunctionRpcClient} {action : ClientAction}
    {out : List ClientObservation} (own : action.own = true)
    (stepped : client.step action = some (after, out)) :
    after.supply reading + (out.filterMap (·.wroteMessage)).length * reading + 1 ≤
      client.supply reading := by
  cases action with
  | subscribe =>
    simp only [step, subscribe] at stepped
    split at stepped <;> cases stepped
    rename_i opened unheard
    simp only [supply, opened, unheard, RpcStreamPhase.supply, Option.getD_some, Option.getD_none,
      List.filterMap_nil, List.length_nil, Nat.zero_mul]
    omega
  | writeStart succeeds =>
    obtain ⟨subscribed, outcome⟩ := writeStart_some stepped
    -- Only `StartStream` that gets onto the stream is left for the service to read.
    rcases outcome with ⟨_, rfl, rfl⟩ | ⟨rfl, rfl⟩ | ⟨rfl, rfl⟩
    · simp only [supply, subscribed, RpcStreamPhase.supply, ClientObservation.wroteMessage,
        List.filterMap_cons, List.filterMap_nil, List.length_nil]
      omega
    · simp only [supply, subscribed, RpcStreamPhase.supply, ClientObservation.wroteMessage,
        List.filterMap_cons, List.filterMap_nil, List.length_singleton]
      omega
    · simp only [supply, subscribed, RpcStreamPhase.supply, ClientObservation.wroteMessage,
        List.filterMap_cons, List.filterMap_nil, List.length_nil]
      omega
  | startWritten =>
    simp only [step, startWritten] at stepped
    split at stepped <;> cases stepped
    rename_i starting
    simp only [supply, starting, RpcStreamPhase.supply, List.filterMap_nil, List.length_nil,
      Nat.zero_mul]
    omega
  | observe =>
    simp only [step, observe] at stepped
    split at stepped <;> cases stepped
    rename_i pipeline hop
    have spent := Pipeline.supply_observe (reading + 3) hop
    simp only [supply, List.filterMap_nil, List.length_nil, Nat.zero_mul]
    omega
  | handle =>
    simp only [step, handle] at stepped
    split at stepped
    · cases stepped
    · rename_i event pipeline taken
      have spent := Pipeline.supply_take (reading + 3) taken
      split at stepped
      · cases stepped
        simp only [supply, List.filterMap_cons, List.filterMap_nil, ClientObservation.wroteMessage,
          List.length_nil, Nat.zero_mul]
        omega
      · rename_i request content
        rw [publish_own _ _ (by rfl)] at stepped
        cases stepped
        -- Before `RpcStream` has subscribed the response is published to nobody.
        cases queue : client.outboundEvents <;>
          simp [supply, queue, ClientObservation.wroteMessage, Nat.add_mul] <;> omega
  | respond succeeds =>
    obtain ⟨event, rest, queue, free, outcome⟩ := respond_some stepped
    have waiting : (client.outboundEvents.getD []).length * (reading + 2) =
        rest.length * (reading + 2) + (reading + 2) := by
      rw [queue, Option.getD_some, List.length_cons, Nat.add_mul, Nat.one_mul]
    rcases outcome with ⟨_, rfl, rfl⟩ | ⟨_, rfl, rfl⟩ | ⟨_, _, rfl, rfl⟩
    · simp only [supply, waiting, Option.getD_some, ClientObservation.wroteMessage,
        List.filterMap_cons, List.filterMap_nil, List.length_nil]
      omega
    · simp only [supply, waiting, Option.getD_some, ClientObservation.wroteMessage,
        List.filterMap_cons, List.filterMap_nil, List.length_nil]
      omega
    -- What is written pays for its reading, and for its return.
    · simp only [supply, waiting, free, Option.getD_some, ClientObservation.wroteMessage,
        List.filterMap_cons, List.filterMap_nil, List.length_singleton, if_true]
      omega
  | responded =>
    simp only [step, responded, Option.ite_none_right_eq_some] at stepped
    obtain ⟨busy, same⟩ := stepped
    cases same
    simp [supply, busy]
  | _ => cases own

end FunctionRpcClient

namespace OutboundSubscription

theorem supply_onNext (reading : Nat) (subscription : OutboundSubscription) (event : RpcEvent) :
    (subscription.onNext event).supply reading ≤ subscription.supply reading + (reading + 7) := by
  unfold onNext
  split
  · simp only [supply, List.length_append, List.length_singleton, Nat.add_mul, Nat.one_mul]
    omega
  · omega

theorem supply_dispose (reading : Nat) (subscription : OutboundSubscription) :
    subscription.dispose.supply reading ≤ subscription.supply reading := by
  have freed : ([] : List RpcEvent).length * (reading + 7) ≤
      subscription.queue.length * (reading + 7) := by simp
  exact Nat.add_le_add_right freed _

end OutboundSubscription

namespace Pair
variable {workers : Finset String} {calls : Finset CallId} {reading : Nat} {pair after : Pair}
  {out : List PairObservation}

theorem supply_publish {event : RpcEvent}
    (stepped : pair.step (.publish event) = some (after, out)) :
    after.supply workers calls reading ≤ pair.supply workers calls reading + (reading + 7) := by
  obtain ⟨shown, moved, clients, requests, responses, _⟩ :=
    serviceStep_some (show pair.serviceStep (.outbound event) = _ from stepped)
  obtain ⟨same, rfl⟩ := FunctionRpcService.outbound_some moved
  have streams : ∑ call ∈ calls, after.callSupply reading call =
      ∑ call ∈ calls, pair.callSupply reading call := by
    apply Finset.sum_congr rfl
    intro call _
    rw [callSupply, callSupply, clients, requests, responses, same]
    simp [ServiceObservation.deliveredOn]
    rfl
  have queued : ∑ workerId ∈ workers, after.entrySupply reading workerId ≤
      ∑ workerId ∈ workers, pair.entrySupply reading workerId + (reading + 7) := by
    apply @sum_gain _ _ workers event.workerId
    · intro other different
      rw [entrySupply, same, FunctionRpcService.entry_onNext, if_neg different, entrySupply]
    · rw [entrySupply, same, FunctionRpcService.entry_onNext, if_pos rfl, entrySupply]
      cases pair.service.entry event.workerId with
      | none => exact Nat.zero_le _
      | some subscription => exact subscription.supply_onNext reading event
  rw [supply, supply]
  omega

theorem supply_exec {workerOf : CallId → String} {events : List RpcEvent}
    (executed : (pairMachine workerOf).exec pair (events.map .publish) = some (after, out)) :
    after.supply workers calls reading ≤
      pair.supply workers calls reading + events.length * (reading + 7) := by
  rw [← List.length_map PairAction.publish]
  refine Machine.exec_gain (fun action member {state next shown} stepped => ?_) executed
  obtain ⟨event, _, rfl⟩ := List.mem_map.mp member
  exact supply_publish stepped

theorem supply_write {workerId : String} (member : workerId ∈ workers)
    (stepped : pair.step (.write workerId true) = some (after, out)) :
    after.supply workers calls reading + 1 ≤ pair.supply workers calls reading := by
  obtain ⟨shown, moved, clients, requests, responses, _⟩ := serviceStep_some stepped
  obtain ⟨subscription, event, rest, found, _, free, queue, same, entries, rfl⟩ :=
    FunctionRpcService.write_some moved
  have streams : ∑ call ∈ calls, after.callSupply reading call ≤
      ∑ call ∈ calls, pair.callSupply reading call + (reading + 5) := by
    apply @sum_gain _ _ calls subscription.responseStream
    · intro other different
      rw [callSupply, clients, requests, responses, same]
      simp [ServiceObservation.deliveredOn, callSupply, Ne.symm different]
    · rw [callSupply, clients, requests, responses, same]
      simp only [ServiceObservation.deliveredOn, callSupply, List.filterMap_cons, if_true,
        List.filterMap_nil, List.map_cons, List.map_nil, List.length_append, List.length_singleton,
        Nat.add_mul, Nat.one_mul]
      omega
  -- What leaves the queue of the subscription arrives on the response stream.
  have queued : ∑ owner ∈ workers, after.entrySupply reading owner + (reading + 6) ≤
      ∑ owner ∈ workers, pair.entrySupply reading owner := by
    apply sum_spend _ member
    · rw [entrySupply, entries, if_pos rfl, entrySupply, found]
      simp [OutboundSubscription.supply, queue, free, Nat.add_mul]
      omega
    · intro other different
      rw [entrySupply, entries, if_neg different, entrySupply]
  rw [supply, supply]
  omega

theorem supply_written {workerId : String} (member : workerId ∈ workers)
    (stepped : pair.step (.written workerId) = some (after, out)) :
    after.supply workers calls reading + 1 ≤ pair.supply workers calls reading := by
  obtain ⟨shown, moved, clients, requests, responses, _⟩ := serviceStep_some stepped
  obtain ⟨subscription, found, busy, same, entries, rfl⟩ := FunctionRpcService.written_some moved
  have streams : ∑ call ∈ calls, after.callSupply reading call =
      ∑ call ∈ calls, pair.callSupply reading call := by
    apply Finset.sum_congr rfl
    intro call _
    rw [callSupply, callSupply, clients, requests, responses, same]
    simp [ServiceObservation.deliveredOn]
  have queued : ∑ owner ∈ workers, after.entrySupply reading owner + 1 ≤
      ∑ owner ∈ workers, pair.entrySupply reading owner := by
    apply sum_spend _ member
    · rw [entrySupply, entries, if_pos rfl, entrySupply, found]
      simp [OutboundSubscription.supply, busy]
    · intro other different
      rw [entrySupply, entries, if_neg different, entrySupply]
  rw [supply, supply]
  omega

theorem supply_call {call : CallId} {amount : Nat} (member : call ∈ calls)
    (entries : ∀ workerId, after.service.entry workerId = pair.service.entry workerId)
    (others : ∀ other, other ≠ call → after.callSupply reading other = pair.callSupply reading other)
    (spent : after.callSupply reading call + amount ≤ pair.callSupply reading call) :
    after.supply workers calls reading + amount ≤ pair.supply workers calls reading := by
  have streams : ∑ call ∈ calls, after.callSupply reading call + amount ≤
      ∑ call ∈ calls, pair.callSupply reading call := sum_spend others member spent
  have queued : ∑ owner ∈ workers, after.entrySupply reading owner =
      ∑ owner ∈ workers, pair.entrySupply reading owner := by
    apply Finset.sum_congr rfl
    intro owner _
    rw [entrySupply, entries, entrySupply]
  rw [supply, supply]
  omega

theorem read_some {call : CallId} (stepped : pair.read call = some (after, out)) :
    ∃ message rest part shown, pair.requestStream call = message :: rest ∧
      (part = .receiveFirst call message ∨ part = .receive call message) ∧
      pair.service.step part = some (after.service, shown) ∧ after.clients = pair.clients ∧
      after.requestStream = Function.update pair.requestStream call rest ∧
      after.responseStream = pair.responseStream ∧ out = .read call message :: shown.map .service := by
  unfold read at stepped
  split at stepped
  · cases stepped
  · rename_i message rest head
    dsimp only at stepped
    split at stepped <;> cases stepped
    rename_i between shown inner
    -- From here on it does not matter which of the two reads it is.
    obtain ⟨part, choice, inner⟩ : ∃ part, (part = .receiveFirst call message ∨
        part = .receive call message) ∧ pair.serviceStep part = some (between, shown) := by
      refine ⟨_, ?_, inner⟩
      split
      · exact .inl rfl
      · exact .inr rfl
    obtain ⟨told, moved, clients, requests, responses, rfl⟩ := serviceStep_some inner
    refine ⟨message, rest, part, told, head, choice, moved, clients, ?_, ?_, rfl⟩
    · rw [requests]
    · funext other
      change between.responseStream other = _
      rw [responses, deliveredOn_read moved choice, List.map_nil, List.append_nil]

theorem entrySupply_read {call : CallId} {message : StreamingMessage} {part : ServiceAction}
    {shown : List ServiceObservation} (moved : pair.service.step part = some (after.service, shown))
    (reads : part = .receiveFirst call message ∨ part = .receive call message)
    (workerId : String) : after.entrySupply reading workerId ≤ pair.entrySupply reading workerId ∧
      (shown.filterMap (·.inboundEvent)).length ≤ 1 := by
  unfold entrySupply
  rcases reads with rfl | rfl
  · obtain ⟨_, rest⟩ := FunctionRpcService.receiveFirst_some moved
    cases content : message.startStream with
    | none =>
      rw [content] at rest
      obtain ⟨same, rfl⟩ := rest
      rw [same, FunctionRpcService.entry_finallyBlock]
      -- A first message that is no `StartStream` raises, and `finally` disposes.
      refine ⟨?_, Nat.zero_le 1⟩
      cases pair.service.entry workerId with
      | none => exact Nat.zero_le _
      | some subscription => exact subscription.supply_dispose reading
    | some startStream =>
      rw [content] at rest
      obtain ⟨same, rfl⟩ := rest
      rw [same, FunctionRpcService.entry_handshake]
      refine ⟨?_, Nat.le_refl 1⟩
      split
      · rename_i own
        subst own
        cases pair.service.entry startStream.workerId with
        | none =>
          -- The subscription that the handshake adds has nothing queued.
          have fresh : (OutboundSubscription.create call).supply reading = 0 := by
            simp [OutboundSubscription.supply, OutboundSubscription.create]
          exact Nat.le_of_eq fresh
        | some subscription => exact Nat.le_refl _
      · exact Nat.le_refl _
  · obtain ⟨_, _, same, rfl⟩ := FunctionRpcService.receive_some moved
    rw [same]
    exact ⟨Nat.le_refl _, Nat.le_refl 1⟩

theorem notStarted_read {call : CallId} {message : StreamingMessage} {part : ServiceAction}
    {shown : List ServiceObservation} (moved : pair.service.step part = some (after.service, shown))
    (reads : part = .receiveFirst call message ∨ part = .receive call message) (other : CallId) :
    after.service.calls other = .notStarted ↔ pair.service.calls other = .notStarted := by
  rcases reads with rfl | rfl
  · obtain ⟨waiting, rest⟩ := FunctionRpcService.receiveFirst_some moved
    obtain ⟨state, begun, same⟩ : ∃ state : EventStreamCall, state ≠ .notStarted ∧
        after.service.calls = Function.update pair.service.calls call state := by
      cases content : message.startStream with
      | none =>
        rw [content] at rest
        exact ⟨.ended, by simp, by rw [rest.1]; rfl⟩
      | some startStream =>
        rw [content] at rest
        exact ⟨.serving startStream.workerId, by simp,
          by rw [rest.1, FunctionRpcService.calls_handshake]⟩
    by_cases own : other = call
    · rw [same, own, Function.update_self, waiting]
      simp [begun]
    · rw [same, Function.update_of_ne own]
  · obtain ⟨_, _, same, _⟩ := FunctionRpcService.receive_some moved
    rw [same]

/-- The parts of the state that have something to spend. -/
structure Confined (workerOf : CallId → String) (workers : Finset String) (calls : Finset CallId)
    (pair : Pair) : Prop where
  unopened : ∀ call ∉ calls, (pair.clients call).phase = .constructed
  requests : ∀ call ∉ calls, pair.requestStream call = []
  responses : ∀ call ∉ calls, pair.responseStream call = []
  clients : ∀ call ∉ calls, (clientMachine (workerOf call)).Settled ClientAction.own
    (pair.clients call)
  entries : ∀ workerId ∉ workers, pair.service.entry workerId = none

theorem Confined.mem_workers {workerOf : CallId → String}
    (confined : pair.Confined workerOf workers calls) {workerId : String}
    {subscription : OutboundSubscription}
    (found : pair.service.entry workerId = some subscription) : workerId ∈ workers := by
  by_contra outside
  rw [confined.entries workerId outside] at found
  cases found

theorem step_client {call : CallId} {part : ClientAction} (own : part.own = true) :
    pair.step (.client call part) = pair.clientStep call part := by
  cases part with
  | receive message => cases own
  | _ => rfl

section
variable {workerOf : CallId → String} (confined : pair.Confined workerOf workers calls)

include confined

theorem supply_accept {call : CallId} (stepped : pair.step (.accept call) = some (after, out)) :
    (out.filterMap servicePart).filterMap (·.inboundEvent) = [] ∧
      after.supply workers calls reading + 1 ≤ pair.supply workers calls reading := by
  simp only [step] at stepped
  split at stepped
  · cases stepped
  · rename_i opened
    have member : call ∈ calls := by
      by_contra outside
      exact opened (confined.unopened call outside)
    obtain ⟨shown, moved, clients, requests, responses, rfl⟩ := serviceStep_some stepped
    obtain ⟨fresh, same, rfl⟩ := FunctionRpcService.start_some moved
    refine ⟨rfl, supply_call member (fun workerId => by rw [same]; rfl) ?_ ?_⟩
    · intro other different
      rw [callSupply, clients, requests, responses, same]
      simp [callSupply, FunctionRpcService.setCall, Function.update_of_ne different]
    · rw [callSupply, clients, requests, responses, same]
      simp [callSupply, FunctionRpcService.setCall, fresh]

theorem supply_read {call : CallId} (stepped : pair.read call = some (after, out)) :
    ((out.filterMap servicePart).filterMap (·.inboundEvent)).length ≤ 1 ∧
      after.supply workers calls reading + reading ≤ pair.supply workers calls reading := by
  obtain ⟨message, rest, part, shown, head, reads, moved, clients, requests, responses, rfl⟩ :=
    read_some stepped
  have member : call ∈ calls := by
    by_contra outside
    rw [confined.requests call outside] at head
    cases head
  constructor
  · rw [servicePart_read, servicePart_service]
    exact (@entrySupply_read reading _ _ _ _ _ _ moved reads (workerOf call)).2
  · have streams : ∑ other ∈ calls, after.callSupply reading other + reading ≤
        ∑ other ∈ calls, pair.callSupply reading other := by
      apply sum_spend _ member
      · simp only [callSupply, clients, requests, responses, Function.update_self, head,
          notStarted_read moved reads, List.length_cons, Nat.add_mul, Nat.one_mul]
        omega
      · intro other different
        simp only [callSupply, clients, requests, responses, notStarted_read moved reads,
          Function.update_of_ne different]
    have queued : ∑ owner ∈ workers, after.entrySupply reading owner ≤
        ∑ owner ∈ workers, pair.entrySupply reading owner :=
      Finset.sum_le_sum fun owner _ => (entrySupply_read moved reads owner).1
    rw [supply, supply]
    omega

theorem supply_deliver {call : CallId} (stepped : pair.deliver call = some (after, out)) :
    (out.filterMap servicePart).filterMap (·.inboundEvent) = [] ∧
      after.supply workers calls reading + 1 ≤ pair.supply workers calls reading := by
  unfold deliver at stepped
  split at stepped
  · cases stepped
  · rename_i message rest head
    have member : call ∈ calls := by
      by_contra outside
      rw [confined.responses call outside] at head
      cases head
    split at stepped <;> cases stepped
    rename_i between inner
    obtain ⟨client, shown, moved, service, clients, requests, responses, rfl⟩ :=
      clientStep_some inner
    obtain ⟨_, rfl, rfl⟩ := FunctionRpcClient.receive_some moved
    refine ⟨rfl, supply_call member (fun workerId => by rw [service]) ?_ ?_⟩
    · intro other different
      simp [callSupply, service, clients, requests, responses, Function.update_of_ne different]
    · simp only [callSupply, service, clients, requests, Function.update_self, head,
        FunctionRpcClient.supply_receive, ClientObservation.wroteMessage, List.filterMap_cons,
        List.filterMap_nil, List.append_nil, List.length_cons, Nat.add_mul, Nat.one_mul]
      omega

theorem supply_client {call : CallId} {action : ClientAction} (own : action.own = true)
    (stepped : pair.clientStep call action = some (after, out)) :
    (out.filterMap servicePart).filterMap (·.inboundEvent) = [] ∧
      after.supply workers calls reading + 1 ≤ pair.supply workers calls reading := by
  obtain ⟨client, shown, moved, service, clients, requests, responses, rfl⟩ :=
    clientStep_some stepped
  have member : call ∈ calls := by
    by_contra outside
    have stuck := confined.clients call outside action own
    change (pair.clients call).step action = none at stuck
    rw [moved] at stuck
    cases stuck
  have spent := @FunctionRpcClient.supply_own reading _ _ _ _ own moved
  refine ⟨by rw [servicePart_client]; rfl,
    supply_call member (fun workerId => by rw [service]) ?_ ?_⟩
  · intro other different
    simp [callSupply, service, clients, requests, responses, Function.update_of_ne different]
  · simp only [callSupply, service, clients, requests, responses, Function.update_self,
      List.length_append, Nat.add_mul]
    omega

/-- What the service reads costs its way to the channels; any other step of the
threads costs one. -/
theorem supply_own {action : PairAction} (own : action.own = true)
    (stepped : pair.step action = some (after, out)) :
    (((out.filterMap servicePart).filterMap (·.inboundEvent)).length ≤ 1 ∧
      after.supply workers calls reading + reading ≤ pair.supply workers calls reading) ∨
    ((out.filterMap servicePart).filterMap (·.inboundEvent) = [] ∧
      after.supply workers calls reading + 1 ≤ pair.supply workers calls reading) := by
  cases action with
  | accept call => exact .inr (supply_accept confined stepped)
  | read call => exact .inl (supply_read confined stepped)
  | deliver call => exact .inr (supply_deliver confined stepped)
  | client call part =>
    have inner : part.own = true := own
    rw [step_client inner] at stepped
    exact .inr (supply_client confined inner stepped)
  | write workerId succeeds =>
    cases succeeds with
    | false => cases own
    | true =>
      obtain ⟨shown, moved, _, _, _, rfl⟩ := serviceStep_some stepped
      obtain ⟨_, _, _, found, _, _, _, _, _, rfl⟩ := FunctionRpcService.write_some moved
      exact .inr ⟨rfl, supply_write (confined.mem_workers found) stepped⟩
  | written workerId =>
    obtain ⟨shown, moved, _, _, _, rfl⟩ := serviceStep_some stepped
    obtain ⟨_, found, _, _, _, rfl⟩ := FunctionRpcService.written_some moved
    exact .inr ⟨rfl, supply_written (confined.mem_workers found) stepped⟩
  | _ => cases own

end

end Pair

/-! ### What the run of a system has opened -/

theorem started_of_bound {workerOf : CallId → String} {actions : List PairAction}
    {seen : List PairObservation} {pair : Pair} (run : (pairMachine workerOf).Run actions seen pair)
    {call : CallId} {workerId : String} (bound : pair.service.stream workerId = some call) :
    ¬ (pair.clients call).Unstarted := by
  intro unstarted
  obtain ⟨_, service⟩ := service_run run
  obtain ⟨live, binding⟩ := FunctionRpcService.stream_eq_some.mp bound
  have shook := mem_servicePart.mp (handshook_of_binding service binding)
  obtain ⟨message, rest, first, _⟩ := (greeted_of_run run).greeting call workerId shook
  have unwritten := (begins_of_run run call).2 unstarted
  rw [← request_history run call, first] at unwritten
  cases unwritten

def SystemAction.opens : SystemAction → Option CallId
  | .pair (.client call .openCall) => some call
  | _ => none

def SystemAction.constructs : SystemAction → Option String
  | .host (.construct workerId) => some workerId
  | _ => none

theorem opens_nothing {action : SystemAction} (own : action.own = true) :
    action.constructs = none ∧ action.opens = none := by
  -- Only the part of a client has cases of its own to look at.
  rcases action with (_ | _ | _ | _ | _ | _ | _) | (_ | _ | _ | _ | _ | _ | _ | ⟨call, part⟩)
  all_goals first | exact ⟨rfl, rfl⟩ | cases own | skip
  cases part <;> first | exact ⟨rfl, rfl⟩ | cases own

def openedCalls (actions : List SystemAction) : Finset CallId :=
  (actions.filterMap SystemAction.opens).toFinset

def namedWorkers (workerOf : CallId → String) (actions : List SystemAction) : Finset String :=
  (actions.filterMap SystemAction.constructs).toFinset ∪ (openedCalls actions).image workerOf

theorem openCall_of_create {workerId : String} {after : FunctionRpcClient} {action : ClientAction}
    {out : List ClientObservation}
    (stepped : (FunctionRpcClient.create workerId).step action = some (after, out)) :
    action = .openCall := by
  cases action with
  | openCall => rfl
  | _ => cases stepped

theorem constructed_of_step {client after : FunctionRpcClient} {action : ClientAction}
    {out : List ClientObservation} (stepped : client.step action = some (after, out))
    (constructed : after.phase = .constructed) : client.phase = .constructed := by
  rcases FunctionRpcClient.phase_cases stepped with
    ⟨_, _, reads⟩ | ⟨_, same | fresh | opened | ⟨_, starting | closed⟩ | closed⟩
  · simp [reads] at constructed
  · rwa [same] at constructed
  · exact fresh.1
  · simp [opened.2] at constructed
  · simp [starting] at constructed
  · simp [closed.1] at constructed
  · simp [closed.2] at constructed

theorem created_of_constructed {workerId : String} {actions : List ClientAction}
    {seen : List ClientObservation} {client : FunctionRpcClient}
    (run : (clientMachine workerId).Run actions seen client)
    (constructed : client.phase = .constructed) : client = .create workerId := by
  induction run with
  | start => rfl
  | next earlier stepped ih =>
    have before := ih (constructed_of_step stepped constructed)
    rw [before] at stepped
    obtain rfl := openCall_of_create stepped
    cases stepped
    cases constructed

theorem clients_of_exec {workerOf : CallId → String} {events : List RpcEvent} {pair after : Pair}
    {out : List PairObservation}
    (executed : (pairMachine workerOf).exec pair (events.map .publish) = some (after, out)) :
    after.clients = pair.clients := by
  refine Machine.exec_invariant (fun action member {state next shown} same stepped => ?_) rfl executed
  obtain ⟨event, _, rfl⟩ := List.mem_map.mp member
  obtain ⟨_, _, clients, _⟩ :=
    Pair.serviceStep_some (show state.serviceStep (.outbound event) = _ from stepped)
  exact clients.trans same

theorem channels_of_exec {events : List RpcEvent} {host after : Host}
    {out : List HostObservation}
    (executed : hostMachine.exec host (events.map .inbound) = some (after, out))
    (workerId : String) : (after.channels workerId).isSome = (host.channels workerId).isSome := by
  refine Machine.exec_invariant (fun action member {state next shown} same stepped => ?_) rfl executed
  obtain ⟨event, _, rfl⟩ := List.mem_map.mp member
  obtain ⟨rfl, _⟩ := Host.step_inbound stepped
  rw [Host.channels_inbound, Option.isSome_map]
  exact same

theorem channel_of_step {host after : Host} {action : HostAction} {out : List HostObservation}
    (stepped : host.step action = some (after, out)) {workerId : String}
    (present : (after.channels workerId).isSome) :
    (host.channels workerId).isSome ∨ action = .construct workerId := by
  have kept : ∀ owner channel, (host.channels owner).isSome →
      ((host.setChannel owner channel).channels workerId).isSome →
      (host.channels workerId).isSome := by
    intro owner channel known found
    rw [Host.channels_setChannel] at found
    by_cases same : workerId = owner
    · exact same ▸ known
    · rwa [if_neg same] at found
  cases action with
  | construct owner =>
    obtain ⟨_, rfl, _⟩ := Host.construct_some stepped
    rw [Host.channels_setChannel] at present
    by_cases same : workerId = owner
    · exact .inr (same ▸ rfl)
    · rw [if_neg same] at present
      exact .inl present
  | addWorkerChannel owner =>
    simp only [Host.step, Host.addWorkerChannel, Option.ite_none_right_eq_some] at stepped
    cases stepped.2
    exact .inl present
  | get owner functionId invocationId =>
    obtain ⟨channel, found, _, _, rfl, _⟩ := Host.get_some stepped
    exact .inl (kept owner _ (by rw [found]; rfl) present)
  | publish invocationId =>
    obtain ⟨_, _, rfl, _⟩ := Host.publish_some stepped
    exact .inl present
  | inbound event =>
    obtain ⟨rfl, _⟩ := Host.step_inbound stepped
    rw [Host.channels_inbound, Option.isSome_map] at present
    exact .inl present
  | observe owner =>
    obtain ⟨channel, _, found, _, rfl, _⟩ := Host.observe_some stepped
    exact .inl (kept owner _ (by rw [found]; rfl) present)
  | invoke owner =>
    obtain ⟨channel, _, _, _, _, found, _, _, rfl, _⟩ := Host.invoke_some stepped
    exact .inl (kept owner _ (by rw [found]; rfl) present)

section
variable {workerOf : CallId → String} {actions : List SystemAction}
  {seen : List SystemObservation} {system : System}
  (run : (systemMachine workerOf).Run actions seen system)

include run

theorem opened_of_run {call : CallId} (opened : (system.pair.clients call).phase ≠ .constructed) :
    .pair (.client call .openCall) ∈ actions := by
  induction run with
  | start => exact absurd rfl opened
  | @next actions seen out system after action earlier stepped ih =>
    rw [List.mem_append]
    rcases System.step_cases stepped with ⟨_, _, _, _, _, _, executed, _⟩ |
      ⟨part, shown, _, rfl, _, moved, _, _⟩
    · rw [clients_of_exec executed] at opened
      exact .inl (ih opened)
    · rcases Pair.client_of_step call moved with ⟨own, told, inner, _, chosen⟩ | ⟨same, _⟩
      · by_cases constructed : (system.pair.clients call).phase = .constructed
        -- The client was as created, and from there it can only open its call.
        · obtain ⟨_, pair⟩ := pair_run earlier
          obtain ⟨_, client⟩ := client_run pair call
          rw [created_of_constructed client constructed] at inner
          have first := openCall_of_create inner
          have origin := (chosen .openCall (by simp)).mpr first
          exact .inr (origin ▸ List.mem_cons_self)
        · exact .inl (ih constructed)
      · rw [same] at opened
        exact .inl (ih opened)

theorem constructed_of_run {workerId : String}
    (present : (system.host.channels workerId).isSome) :
    .host (.construct workerId) ∈ actions := by
  induction run with
  | start => cases present
  | @next actions seen out system after action earlier stepped ih =>
    rw [List.mem_append]
    rcases System.step_cases stepped with ⟨part, _, _, rfl, _, moved, _, _⟩ |
      ⟨_, _, _, _, _, _, executed, _⟩
    · rcases channel_of_step moved present with before | rfl
      · exact .inl (ih before)
      · exact .inr List.mem_cons_self
    · rw [channels_of_exec executed] at present
      exact .inl (ih present)

theorem mem_namedWorkers {workerId : String} (present : (system.host.channels workerId).isSome) :
    workerId ∈ namedWorkers workerOf actions := by
  have constructed := constructed_of_run run present
  exact Finset.mem_union_left _
    (List.mem_toFinset.mpr (List.mem_filterMap.mpr ⟨_, constructed, rfl⟩))

theorem mem_openedCalls {call : CallId} (opened : (system.pair.clients call).phase ≠ .constructed) :
    call ∈ openedCalls actions :=
  List.mem_toFinset.mpr (List.mem_filterMap.mpr ⟨_, opened_of_run run opened, rfl⟩)

/-- What has not been opened has nothing to spend. -/
theorem confined_of_run :
    system.pair.Confined workerOf (namedWorkers workerOf actions) (openedCalls actions) := by
  obtain ⟨_, pair⟩ := pair_run run
  have unopened : ∀ call ∉ openedCalls actions,
      (system.pair.clients call).phase = .constructed := fun call outside =>
    not_not.mp fun opened => outside (mem_openedCalls run opened)
  constructor
  case unopened => exact unopened
  case requests =>
    intro call outside
    have unwritten := (begins_of_run pair call).2 (.inl (unopened call outside))
    rw [← request_history pair call, List.append_eq_nil_iff] at unwritten
    exact unwritten.2
  case responses =>
    intro call outside
    exact (silent_of_unbound pair fun bound =>
      started_of_bound pair bound (.inl (unopened call outside))).1
  case clients =>
    intro call outside action own
    obtain ⟨_, client⟩ := client_run pair call
    rw [created_of_constructed client (unopened call outside)]
    cases stepped : (clientMachine (workerOf call)).step (.create (workerOf call)) action with
    | none => rfl
    | some result =>
      obtain rfl := openCall_of_create (show _ = some (result.1, result.2) from stepped)
      cases own
  case entries =>
    intro workerId outside
    cases found : system.pair.service.entry workerId with
    | none => rfl
    | some subscription =>
      have bound : system.pair.service.stream workerId = some subscription.responseStream :=
        FunctionRpcService.stream_eq_some.mpr ⟨_, FunctionRpcService.binding_eq_some.mpr
          ⟨subscription, found, rfl, rfl⟩⟩
      have opened : (system.pair.clients subscription.responseStream).phase ≠ .constructed :=
        fun constructed => started_of_bound pair bound (.inl constructed)
      refine absurd (Finset.mem_union_right _ ?_) outside
      exact Finset.mem_image.mpr ⟨_, mem_openedCalls run opened, worker_of_stream pair bound⟩

end

/-! ### The system comes to rest -/

theorem System.supply_own {workerOf : CallId → String} {workers : Finset String}
    {calls : Finset CallId} {system after : System} {action : SystemAction}
    {out : List SystemObservation}
    (known : ∀ workerId, (system.host.channels workerId).isSome → workerId ∈ workers)
    (confined : system.pair.Confined workerOf workers calls) (own : action.own = true)
    (stepped : system.step workerOf action = some (after, out)) :
    after.supply workers calls < system.supply workers calls := by
  unfold System.supply
  rcases System.step_cases stepped with ⟨part, shown, _, rfl, _, moved, executed, _⟩ |
    ⟨part, shown, _, rfl, _, moved, executed, _⟩
  -- A published request leaves the host's supply for that of the pair, and pays on the way.
  · rcases Host.supply_own known own moved with ⟨one, channels, sending⟩ |
      ⟨silent, sending, channels⟩
    · have offered := @Pair.supply_exec workers calls (readingSupply workers) _ _ _ _ _ executed
      rw [one, Nat.one_mul] at offered
      rw [← sending, Nat.add_mul, Nat.one_mul, channels]
      omega
    · rw [silent] at executed
      have same : system.pair = after.pair := congrArg Prod.fst (Option.some.inj executed)
      rw [sending, ← same]
      omega
  · obtain ⟨channels, sending⟩ := @Host.supply_exec workers _ _ _ _ executed
    rw [sending]
    rcases @Pair.supply_own workers calls (readingSupply workers) _ _ _ _ confined _ own moved with
      ⟨read, spent⟩ | ⟨silent, spent⟩
    -- A read message pays `reading`, which is one more than all channels take up.
    · have offered := Nat.mul_le_mul_right (2 * workers.card) read
      rw [Nat.one_mul] at offered
      unfold readingSupply at spent ⊢
      omega
    · rw [silent, List.length_nil, Nat.zero_mul] at channels
      omega

theorem spends_of_run {workerOf : CallId → String} (actions : List SystemAction) :
    (systemMachine workerOf).Spends SystemAction.own
      (fun system => ∃ more seen, (∀ action ∈ more, action.own = true) ∧
        (systemMachine workerOf).Run (actions ++ more) seen system)
      (System.supply (namedWorkers workerOf actions) (openedCalls actions)) := by
  constructor
  case kept =>
    rintro system action after out ⟨more, seen, owned, run⟩ own stepped
    refine ⟨more ++ [action], seen ++ out, ?_, ?_⟩
    · intro other member
      rcases List.mem_append.mp member with before | last
      · exact owned other before
      · exact List.mem_singleton.mp last ▸ own
    · rw [← List.append_assoc]
      exact run.next stepped
  case spent =>
    rintro system action after out ⟨more, seen, owned, run⟩ own stepped
    have constructs : more.filterMap SystemAction.constructs = [] :=
      List.filterMap_eq_nil_iff.mpr fun other member => (opens_nothing (owned other member)).1
    have opens : more.filterMap SystemAction.opens = [] :=
      List.filterMap_eq_nil_iff.mpr fun other member => (opens_nothing (owned other member)).2
    have calls : openedCalls (actions ++ more) = openedCalls actions := by
      rw [openedCalls, List.filterMap_append, opens, List.append_nil, openedCalls]
    have workers : namedWorkers workerOf (actions ++ more) = namedWorkers workerOf actions := by
      rw [namedWorkers, List.filterMap_append, constructs, List.append_nil, calls, namedWorkers]
    have confined := confined_of_run run
    rw [workers, calls] at confined
    apply System.supply_own (fun workerId present => ?_) confined own stepped
    exact workers ▸ mem_namedWorkers run present

/-- Left to itself the system stops, whichever thread goes first: no schedule is
longer than what the run has left to spend, and each can be carried on to rest. -/
theorem comes_to_rest {workerOf : CallId → String} {actions : List SystemAction}
    {seen : List SystemObservation} {system : System}
    (run : (systemMachine workerOf).Run actions seen system) {schedule : List SystemAction}
    {later : List SystemObservation} {reached : System}
    (owned : ∀ action ∈ schedule, action.own = true)
    (executed : (systemMachine workerOf).exec system schedule = some (reached, later)) :
    schedule.length ≤ system.supply (namedWorkers workerOf actions) (openedCalls actions) ∧
      ∃ more rest last, (∀ action ∈ more, action.own = true) ∧
        (systemMachine workerOf).exec reached more = some (rest, last) ∧
        (systemMachine workerOf).Settled SystemAction.own rest := by
  have spends := @spends_of_run workerOf actions
  have held : (systemMachine workerOf).Run (actions ++ []) seen system := by
    rwa [List.append_nil]
  have spent := spends.length_le ⟨[], seen, by simp, held⟩ owned executed
  refine ⟨by omega, ?_⟩
  exact spends.settles ⟨schedule, seen ++ later, owned, run.extend executed⟩

/-- A worker connects, and an invocation is asked for and published. -/
def busySession : List SystemAction :=
  [.host (.construct "w"), .host (.addWorkerChannel "w"), .pair (.client 0 .openCall),
    .pair (.accept 0), .pair (.client 0 .subscribe), .pair (.client 0 (.writeStart true)),
    .pair (.read 0), .host (.get "w" "5" "i"), .host (.publish "i")]

theorem comes_to_rest_busy : ∃ system seen reached later,
    (systemMachine fun _ => "w").exec (System.initial fun _ => "w") busySession =
        some (system, seen) ∧
      (systemMachine fun _ => "w").exec system
        [.pair (.write "w" true), .pair (.deliver 0), .host (.observe "w")] =
          some (reached, later) ∧
      3 ≤ system.supply (namedWorkers (fun _ => "w") busySession) (openedCalls busySession) ∧
      ∃ more rest last, (∀ action ∈ more, action.own = true) ∧
        (systemMachine fun _ => "w").exec reached more = some (rest, last) ∧
        (systemMachine fun _ => "w").Settled SystemAction.own rest := by
  refine ⟨_, _, _, _, rfl, rfl, ?_⟩
  have run := @Machine.Run.of_exec _ _ _ (systemMachine fun _ => "w") busySession _ _ rfl
  exact @comes_to_rest _ busySession _ _ run
    [.pair (.write "w" true), .pair (.deliver 0), .host (.observe "w")] _ _ (by decide) rfl

end BenchmarkHost
