import BenchmarkHost.Service.EventStream
import BenchmarkHost.Service.Writes
import BenchmarkHost.Worker.Answers

/-! `FunctionRpcService` and any number of test workers.

Each worker runs `RpcStream` once, so a call has one client, and one reliable
first-in first-out stream for each direction. A message is on its stream from
the call of `WriteAsync` on. The host may publish any outbound event at any
time; a worker that connects again is another client under the same worker id.
-/

set_option autoImplicit false

namespace BenchmarkHost

open Library

structure Pair where
  service : FunctionRpcService
  clients : CallId → FunctionRpcClient
  requestStream : CallId → List StreamingMessage
  responseStream : CallId → List StreamingMessage

inductive PairAction where
  | publish (event : RpcEvent)
  | accept (call : CallId)
  | read (call : CallId)
  | finish (call : CallId) (how : StreamEnd)
  | write (workerId : String) (succeeds : Bool)
  | written (workerId : String)
  | deliver (call : CallId)
  | client (call : CallId) (action : ClientAction)
  deriving DecidableEq, Repr

inductive PairObservation where
  | service (observation : ServiceObservation)
  | client (call : CallId) (observation : ClientObservation)
  | read (call : CallId) (message : StreamingMessage)
  deriving DecidableEq, Repr

namespace PairObservation

def servicePart : PairObservation → Option ServiceObservation
  | .service observation => some observation
  | _ => none

def clientPart (call : CallId) : PairObservation → Option ClientObservation
  | .client other observation => if other = call then some observation else none
  | _ => none

def readOn (call : CallId) : PairObservation → Option StreamingMessage
  | .read other message => if other = call then some message else none
  | _ => none

theorem mem_servicePart {seen : List PairObservation} {observation : ServiceObservation} :
    observation ∈ seen.filterMap servicePart ↔ .service observation ∈ seen := by
  rw [List.mem_filterMap]
  constructor
  · rintro ⟨whole, member, same⟩
    cases whole <;> simp only [servicePart, reduceCtorEq, Option.some.injEq] at same
    exact same ▸ member
  · exact fun member => ⟨_, member, rfl⟩

theorem mem_clientPart {seen : List PairObservation} {call : CallId}
    {observation : ClientObservation} :
    observation ∈ seen.filterMap (clientPart call) ↔ .client call observation ∈ seen := by
  rw [List.mem_filterMap]
  constructor
  · rintro ⟨whole, member, same⟩
    cases whole <;> simp only [clientPart, reduceCtorEq, Option.ite_none_right_eq_some,
      Option.some.injEq] at same
    exact same.1 ▸ same.2 ▸ member
  · exact fun member => ⟨_, member, by rw [clientPart, if_pos rfl]⟩

end PairObservation

namespace Pair

def initial (workerOf : CallId → String) : Pair :=
  ⟨.initial, fun call => .create (workerOf call), fun _ => [], fun _ => []⟩

/-- A step of the service. What it writes is put on the response streams. -/
def serviceStep (pair : Pair) (action : ServiceAction) : Option (Pair × List PairObservation) :=
  match pair.service.step action with
  | none => none
  | some (service, out) =>
    some ({ pair with
        service := service
        responseStream := fun call =>
          pair.responseStream call ++ (out.filterMap (·.deliveredOn call)).map (·.message) },
      out.map .service)

/-- A step of one client. What it writes is put on its request stream. -/
def clientStep (pair : Pair) (call : CallId) (action : ClientAction) :
    Option (Pair × List PairObservation) :=
  match (pair.clients call).step action with
  | none => none
  | some (client, out) =>
    some ({ pair with
        clients := Function.update pair.clients call client
        requestStream := Function.update pair.requestStream call
          (pair.requestStream call ++ out.filterMap (·.wroteMessage)) },
      out.map (.client call))

/-- `MoveNext` of the service has the next message of a request stream. -/
def read (pair : Pair) (call : CallId) : Option (Pair × List PairObservation) :=
  match pair.requestStream call with
  | [] => none
  | message :: rest =>
    let action : ServiceAction := match pair.service.calls call with
      | .awaitingFirst => .receiveFirst call message
      | _ => .receive call message
    match pair.serviceStep action with
    | none => none
    | some (after, out) =>
      some ({ after with requestStream := Function.update after.requestStream call rest },
        .read call message :: out)

/-- `MoveNext` of a client's reader has the next message of its response stream. -/
def deliver (pair : Pair) (call : CallId) : Option (Pair × List PairObservation) :=
  match pair.responseStream call with
  | [] => none
  | message :: rest =>
    match pair.clientStep call (.receive message) with
    | none => none
    | some (after, out) =>
      some ({ after with responseStream := Function.update after.responseStream call rest }, out)

def step (pair : Pair) : PairAction → Option (Pair × List PairObservation)
  | .publish event => pair.serviceStep (.outbound event)
  | .accept call =>
    if (pair.clients call).phase = .constructed then none else pair.serviceStep (.start call)
  | .read call => pair.read call
  | .finish call how => pair.serviceStep (.finish call how)
  | .write workerId succeeds => pair.serviceStep (.write workerId succeeds)
  | .written workerId => pair.serviceStep (.written workerId)
  | .deliver call => pair.deliver call
  -- A client receives what is delivered to it and nothing else.
  | .client _ (.receive _) => none
  | .client call action => pair.clientStep call action

end Pair

def pairMachine (workerOf : CallId → String) : Machine Pair PairAction PairObservation :=
  ⟨.initial workerOf, Pair.step⟩

open PairObservation

namespace Pair

/-! ### What each step does -/

theorem serviceStep_some {pair after : Pair} {action : ServiceAction} {out : List PairObservation}
    (stepped : pair.serviceStep action = some (after, out)) :
    ∃ shown, pair.service.step action = some (after.service, shown) ∧
      after.clients = pair.clients ∧ after.requestStream = pair.requestStream ∧
      (∀ call, after.responseStream call =
        pair.responseStream call ++ (shown.filterMap (·.deliveredOn call)).map (·.message)) ∧
      out = shown.map .service := by
  unfold serviceStep at stepped
  split at stepped <;> cases stepped
  rename_i service shown moved
  exact ⟨shown, moved, rfl, rfl, fun _ => rfl, rfl⟩

theorem clientStep_some {pair after : Pair} {call : CallId} {action : ClientAction}
    {out : List PairObservation} (stepped : pair.clientStep call action = some (after, out)) :
    ∃ client shown, (pair.clients call).step action = some (client, shown) ∧
      after.service = pair.service ∧ after.clients = Function.update pair.clients call client ∧
      after.requestStream = Function.update pair.requestStream call
        (pair.requestStream call ++ shown.filterMap (·.wroteMessage)) ∧
      after.responseStream = pair.responseStream ∧ out = shown.map (.client call) := by
  unfold clientStep at stepped
  split at stepped <;> cases stepped
  rename_i client shown moved
  exact ⟨client, shown, moved, rfl, rfl, rfl, rfl, rfl⟩

/-- Every action is one step of the service or of one client, and takes at most
one message off a stream. -/
inductive Moves (pair after : Pair) (action : PairAction) (out : List PairObservation) : Prop where
  | service (part : ServiceAction) (shown : List ServiceObservation)
      (moved : pair.service.step part = some (after.service, shown))
      (clients : after.clients = pair.clients)
      (requests : after.requestStream = pair.requestStream)
      (responses : ∀ call, after.responseStream call =
        pair.responseStream call ++ (shown.filterMap (·.deliveredOn call)).map (·.message))
      (same : out = shown.map .service)
      (unread : ∀ call message, part ≠ .receiveFirst call message ∧ part ≠ .receive call message)
      (foreign : ∀ call part, action ≠ .client call part)
      (published : ∀ event, part = .outbound event → action = .publish event)
  | read (call : CallId) (message : StreamingMessage) (rest : List StreamingMessage)
      (part : ServiceAction) (shown : List ServiceObservation)
      (origin : action = .read call)
      (head : pair.requestStream call = message :: rest)
      (moved : pair.service.step part = some (after.service, shown))
      (clients : after.clients = pair.clients)
      (requests : after.requestStream = Function.update pair.requestStream call rest)
      (responses : ∀ other, after.responseStream other = pair.responseStream other)
      (same : out = .read call message :: shown.map .service)
      (choice : part = .receiveFirst call message ∧ pair.service.calls call = .awaitingFirst ∨
        part = .receive call message ∧ pair.service.calls call ≠ .awaitingFirst)
  | client (call : CallId) (part : ClientAction) (shown : List ClientObservation)
      (moved : (pair.clients call).step part = some (after.clients call, shown))
      (origin : action = .client call part)
      (service : after.service = pair.service)
      (others : ∀ other, other ≠ call → after.clients other = pair.clients other)
      (requests : after.requestStream = Function.update pair.requestStream call
        (pair.requestStream call ++ shown.filterMap (·.wroteMessage)))
      (responses : after.responseStream = pair.responseStream)
      (same : out = shown.map (.client call))
      (unsent : ∀ message, part ≠ .receive message)
  | deliver (call : CallId) (message : StreamingMessage) (rest : List StreamingMessage)
      (origin : action = .deliver call)
      (head : pair.responseStream call = message :: rest)
      (moved : (pair.clients call).step (.receive message) =
        some (after.clients call, [.received message]))
      (service : after.service = pair.service)
      (others : ∀ other, other ≠ call → after.clients other = pair.clients other)
      (requests : after.requestStream = pair.requestStream)
      (responses : after.responseStream = Function.update pair.responseStream call rest)
      (same : out = [.client call (.received message)])

theorem moves_of_serviceStep {pair after : Pair} {part : ServiceAction} {action : PairAction}
    {out : List PairObservation} (stepped : pair.serviceStep part = some (after, out))
    (unread : ∀ call message, part ≠ .receiveFirst call message ∧ part ≠ .receive call message)
    (foreign : ∀ call part, action ≠ .client call part)
    (published : ∀ event, part = .outbound event → action = .publish event) :
    Moves pair after action out := by
  obtain ⟨shown, moved, clients, requests, responses, same⟩ := serviceStep_some stepped
  exact .service part shown moved clients requests responses same unread foreign published

theorem moves_of_clientStep {pair after : Pair} {call : CallId} {part : ClientAction}
    {action : PairAction} {out : List PairObservation}
    (stepped : pair.clientStep call part = some (after, out)) (origin : action = .client call part)
    (unsent : ∀ message, part ≠ .receive message) : Moves pair after action out := by
  obtain ⟨client, shown, moved, service, clients, requests, responses, same⟩ :=
    clientStep_some stepped
  refine .client call part shown ?_ origin service ?_ requests responses same unsent
  · rw [clients, Function.update_self]
    exact moved
  · intro other different
    rw [clients, Function.update_of_ne different]

theorem deliveredOn_read {service after : FunctionRpcService} {part : ServiceAction}
    {shown : List ServiceObservation} (stepped : service.step part = some (after, shown))
    {reader : CallId} {message : StreamingMessage}
    (reads : part = .receiveFirst reader message ∨ part = .receive reader message)
    (call : CallId) :
    shown.filterMap (·.deliveredOn call) = [] := by
  rcases reads with rfl | rfl
  · obtain ⟨_, rest⟩ := FunctionRpcService.receiveFirst_some stepped
    cases content : message.startStream with
    | none =>
      rw [content] at rest
      rw [rest.2]
      rfl
    | some startStream =>
      rw [content] at rest
      rw [rest.2]
      rfl
  · obtain ⟨_, _, _, rfl⟩ := FunctionRpcService.receive_some stepped
    rfl

theorem moves_of_read {pair after : Pair} {call : CallId} {out : List PairObservation}
    (stepped : pair.read call = some (after, out)) : Moves pair after (.read call) out := by
  unfold read at stepped
  split at stepped
  · cases stepped
  · rename_i message rest head
    dsimp only at stepped
    split at stepped <;> cases stepped
    rename_i between shown inner
    obtain ⟨told, moved, clients, requests, responses, rfl⟩ := serviceStep_some inner
    -- Reading writes nothing, so the response streams stay as they are.
    have silent := @deliveredOn_read _ _ _ _ moved call message
    refine .read call message rest _ told rfl head moved clients ?_ ?_ rfl ?_
    · rw [requests]
    · intro other
      change between.responseStream other = _
      rw [responses, silent]
      · simp
      · split <;> simp
    · split
      · rename_i waiting
        exact .inl ⟨rfl, waiting⟩
      · rename_i busy
        exact .inr ⟨rfl, busy⟩

theorem moves_of_deliver {pair after : Pair} {call : CallId} {out : List PairObservation}
    (stepped : pair.deliver call = some (after, out)) : Moves pair after (.deliver call) out := by
  unfold deliver at stepped
  split at stepped
  · cases stepped
  · rename_i message rest head
    split at stepped <;> cases stepped
    rename_i between inner
    obtain ⟨client, shown, moved, service, clients, requests, responses, rfl⟩ :=
      clientStep_some inner
    obtain ⟨_, _, rfl⟩ := FunctionRpcClient.receive_some moved
    refine .deliver call message rest rfl head ?_ service ?_ ?_ ?_ rfl
    · change _ = some (between.clients call, _)
      rw [clients, Function.update_self]
      exact moved
    · intro other different
      change between.clients other = _
      rw [clients, Function.update_of_ne different]
    · change between.requestStream = _
      rw [requests]
      simp [ClientObservation.wroteMessage]
    · rw [responses]

theorem moves_of_step {pair after : Pair} {action : PairAction} {out : List PairObservation}
    (stepped : pair.step action = some (after, out)) : Moves pair after action out := by
  cases action with
  | publish event =>
    have inner : pair.serviceStep (.outbound event) = some (after, out) := stepped
    exact moves_of_serviceStep inner (by simp) (by simp) (by simp)
  | accept call =>
    simp only [step, Option.ite_none_left_eq_some] at stepped
    exact moves_of_serviceStep stepped.2 (by simp) (by simp) (by simp)
  | read call => exact moves_of_read stepped
  | finish call how => exact moves_of_serviceStep stepped (by simp) (by simp) (by simp)
  | write workerId succeeds => exact moves_of_serviceStep stepped (by simp) (by simp) (by simp)
  | written workerId => exact moves_of_serviceStep stepped (by simp) (by simp) (by simp)
  | deliver call => exact moves_of_deliver stepped
  | client call part =>
    cases part with
    | receive message => simp [step] at stepped
    | _ => exact moves_of_clientStep stepped rfl (by simp)

/-! ### The parts of a pair, and its streams -/

section
variable (workerOf : CallId → String) (call : CallId)

theorem servicePart_service (shown : List ServiceObservation) :
    (shown.map PairObservation.service).filterMap servicePart = shown :=
  filterMap_map_some (fun _ => by rfl) shown

theorem servicePart_client (shown : List ClientObservation) :
    (shown.map (PairObservation.client call)).filterMap servicePart = [] :=
  filterMap_map_none (fun _ => by rfl) shown

theorem clientPart_service (shown : List ServiceObservation) :
    (shown.map PairObservation.service).filterMap (clientPart call) = [] :=
  filterMap_map_none (fun _ => by rfl) shown

theorem clientPart_client (other : CallId) (shown : List ClientObservation) :
    (shown.map (PairObservation.client other)).filterMap (clientPart call) =
      if other = call then shown else [] := by
  by_cases same : other = call
  · rw [if_pos same]
    exact filterMap_map_some (fun _ => by simp [clientPart, same]) shown
  · rw [if_neg same]
    exact filterMap_map_none (fun _ => by simp [clientPart, same]) shown

theorem readOn_service (shown : List ServiceObservation) :
    (shown.map PairObservation.service).filterMap (readOn call) = [] :=
  filterMap_map_none (fun _ => by rfl) shown

theorem readOn_client (other : CallId) (shown : List ClientObservation) :
    (shown.map (PairObservation.client other)).filterMap (readOn call) = [] :=
  filterMap_map_none (fun _ => by rfl) shown

theorem servicePart_read (message : StreamingMessage) (rest : List PairObservation) :
    (PairObservation.read call message :: rest).filterMap servicePart =
      rest.filterMap servicePart := rfl

theorem clientPart_read (other : CallId) (message : StreamingMessage)
    (rest : List PairObservation) :
    (PairObservation.read other message :: rest).filterMap (clientPart call) =
      rest.filterMap (clientPart call) := rfl

theorem projects_service :
    (pairMachine workerOf).Projects serviceMachine (·.service) servicePart := by
  refine ⟨rfl, fun pair action after out stepped => ?_⟩
  cases moves_of_step stepped with
  | service part shown moved _ _ _ same =>
    exact ⟨[part], by rw [Machine.exec_singleton, same, servicePart_service]; exact moved⟩
  | read _ _ _ part shown _ _ moved _ _ _ same =>
    refine ⟨[part], ?_⟩
    rw [Machine.exec_singleton, same, servicePart_read, servicePart_service]
    exact moved
  | client other _ shown _ _ service _ _ _ same =>
    exact ⟨[], by rw [Machine.exec_nil, same, servicePart_client, service]⟩
  | deliver _ _ _ _ _ _ service _ _ _ same =>
    exact ⟨[], by rw [Machine.exec_nil, same, service]; rfl⟩

theorem projects_client :
    (pairMachine workerOf).Projects (clientMachine (workerOf call)) (·.clients call)
      (clientPart call) := by
  refine ⟨rfl, fun pair action after out stepped => ?_⟩
  cases moves_of_step stepped with
  | service _ _ _ clients _ _ same =>
    exact ⟨[], by rw [Machine.exec_nil, same, clientPart_service, clients]⟩
  | read _ _ _ _ _ _ _ _ clients _ _ same =>
    exact ⟨[], by rw [Machine.exec_nil, same, clientPart_read, clientPart_service, clients]⟩
  | client other part shown moved _ _ others _ _ same =>
    by_cases here : other = call
    · subst here
      refine ⟨[part], ?_⟩
      rw [Machine.exec_singleton, same, clientPart_client, if_pos rfl]
      exact moved
    · refine ⟨[], ?_⟩
      rw [Machine.exec_nil, same, clientPart_client, if_neg here, others call (Ne.symm here)]
  | deliver other message _ _ _ moved _ others _ _ same =>
    by_cases here : other = call
    · subst here
      have own : [PairObservation.client other (.received message)].filterMap
          (clientPart other) = [.received message] := by simp [clientPart]
      refine ⟨[.receive message], ?_⟩
      rw [Machine.exec_singleton, same, own]
      exact moved
    · refine ⟨[], ?_⟩
      rw [Machine.exec_nil, same, others call (Ne.symm here)]
      simp [clientPart, here]

end

/-! ### Streams -/

section
variable (workerOf : CallId → String) (call : CallId)

def wroteOn : PairObservation → Option StreamingMessage :=
  fun observation => (clientPart call observation).bind (·.wroteMessage)

def deliveredOn : PairObservation → Option StreamingMessage :=
  fun observation => (servicePart observation).bind fun shown =>
    (shown.deliveredOn call).map (·.message)

def receivedOn : PairObservation → Option StreamingMessage :=
  fun observation => (clientPart call observation).bind (·.receivedMessage)

theorem filterMap_wroteOn (seen : List PairObservation) :
    seen.filterMap (wroteOn call) = (seen.filterMap (clientPart call)).filterMap (·.wroteMessage) :=
  filterMap_through (fun _ => rfl) seen

theorem filterMap_receivedOn (seen : List PairObservation) :
    seen.filterMap (receivedOn call) =
      (seen.filterMap (clientPart call)).filterMap (·.receivedMessage) :=
  filterMap_through (fun _ => rfl) seen

theorem filterMap_deliveredOn (seen : List PairObservation) :
    seen.filterMap (deliveredOn call) =
      ((seen.filterMap servicePart).filterMap (·.deliveredOn call)).map (·.message) := by
  rw [List.map_filterMap, List.filterMap_filterMap]
  rfl

theorem client_of_step {pair after : Pair} {action : PairAction} {out : List PairObservation}
    (stepped : pair.step action = some (after, out)) :
    (∃ part shown, (pair.clients call).step part = some (after.clients call, shown) ∧
      out.filterMap (clientPart call) = shown ∧
      ∀ other, (∀ message, other ≠ .receive message) →
        (action = .client call other ↔ part = other)) ∨
    (after.clients call = pair.clients call ∧ out.filterMap (clientPart call) = [] ∧
      ∀ other, action ≠ .client call other) := by
  cases moves_of_step stepped with
  | service _ _ _ clients _ _ same _ foreign _ =>
    exact .inr ⟨by rw [clients], by rw [same, clientPart_service], foreign call⟩
  | read _ _ _ _ _ origin _ _ clients _ _ same =>
    refine .inr ⟨by rw [clients], ?_, by simp [origin]⟩
    rw [same, clientPart_read, clientPart_service]
  | client other part shown moved origin _ others _ _ same =>
    by_cases here : other = call
    · subst here
      refine .inl ⟨part, shown, moved, ?_, fun action _ => by simp [origin]⟩
      rw [same, clientPart_client, if_pos rfl]
    · refine .inr ⟨others call (Ne.symm here), ?_, by simp [origin, here]⟩
      rw [same, clientPart_client, if_neg here]
  | deliver other message _ origin _ moved _ others _ _ same =>
    by_cases here : other = call
    · subst here
      refine .inl ⟨_, _, moved, by simp [same, clientPart], fun action sent => ?_⟩
      simpa [origin] using Ne.symm (sent message)
    · exact .inr ⟨others call (Ne.symm here), by simp [same, clientPart, here], by simp [origin]⟩

theorem requests_conveyed :
    (pairMachine workerOf).ConveysAll (fun _ => True) (wroteOn call) (readOn call)
      (·.requestStream call) := by
  refine ⟨rfl, fun _ _ pair action after out _ stepped _ => ?_⟩
  rw [filterMap_wroteOn]
  cases moves_of_step stepped with
  | service _ _ _ _ requests _ same =>
    rw [same, requests, readOn_service, clientPart_service]
    simp
  | read other message rest _ _ _ head _ _ requests _ same =>
    rw [same, requests, clientPart_read, clientPart_service, List.filterMap_cons, readOn_service]
    by_cases here : other = call
    · subst here
      simp [readOn, head]
    · simp [readOn, here, Function.update_of_ne (Ne.symm here)]
  | client other _ shown _ _ _ _ requests _ same =>
    rw [same, requests, readOn_client, clientPart_client]
    by_cases here : other = call
    · subst here
      simp
    · simp [here, Function.update_of_ne (Ne.symm here)]
  | deliver other message _ _ _ _ _ _ requests _ same =>
    rw [same, requests]
    by_cases here : other = call <;> simp [readOn, clientPart, here, ClientObservation.wroteMessage]

theorem responses_conveyed :
    (pairMachine workerOf).ConveysAll (fun _ => True) (deliveredOn call) (receivedOn call)
      (·.responseStream call) := by
  refine ⟨rfl, fun _ _ pair action after out _ stepped _ => ?_⟩
  rw [filterMap_deliveredOn, filterMap_receivedOn]
  cases moves_of_step stepped with
  | service _ _ _ _ _ responses same =>
    rw [same, responses, servicePart_service, clientPart_service]
    simp
  | read other message rest part shown _ _ moved _ _ responses same choice =>
    have silent := deliveredOn_read moved (choice.imp (·.1) (·.1)) call
    rw [same, responses, servicePart_read, servicePart_service, clientPart_read,
      clientPart_service, silent]
    simp
  | client other part shown moved _ _ _ _ responses same unsent =>
    rw [same, responses, servicePart_client, clientPart_client]
    by_cases here : other = call
    · simp [here, FunctionRpcClient.receivedMessage_of_step moved unsent]
    · simp [here]
  | deliver other message rest _ head _ _ _ _ responses same =>
    rw [same, responses]
    by_cases here : other = call
    · subst here
      simp [clientPart, servicePart, ClientObservation.receivedMessage, head]
    · simp [clientPart, servicePart, here, Function.update_of_ne (Ne.symm here)]

end

end Pair

end BenchmarkHost
