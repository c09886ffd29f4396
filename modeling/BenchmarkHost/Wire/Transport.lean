import BenchmarkHost.Library.Transport
import BenchmarkHost.Composition.Provenance
import BenchmarkHost.Composition.Settling
import BenchmarkHost.Wire.Marshalling

/-! `FunctionRpcService` and its workers with bytes on the streams.

A write serializes its message and a read parses what the peer wrote, both with
the marshaller of `EventStream`. Except for messages too large for an array, the
parties do exactly what they do when the messages themselves are handed over.
-/

set_option autoImplicit false

namespace BenchmarkHost

open Library

namespace Wire
variable {Kept : Type} (coding : Coding) (unknown : UnknownFieldSet coding Kept)

namespace Content

def ofContent : BenchmarkHost.Content → Content Kept
  | .none => .none
  | .startStream content => .startStream ⟨content.workerId, unknown.empty⟩
  | .invocationRequest content =>
    .invocationRequest ⟨content.invocationId, content.functionId, unknown.empty⟩
  | .invocationResponse content =>
    .invocationResponse ⟨content.invocationId, content.result, unknown.empty⟩

def toContent : Content Kept → BenchmarkHost.Content
  | .none => .none
  | .startStream content => .startStream ⟨content.workerId⟩
  | .invocationRequest content => .invocationRequest ⟨content.invocationId, content.functionId⟩
  | .invocationResponse content => .invocationResponse ⟨content.invocationId, content.result⟩

end Content

namespace StreamingMessage

/-- A message as the program makes it has no unknown fields. -/
def ofMessage (message : BenchmarkHost.StreamingMessage) : StreamingMessage Kept :=
  ⟨message.requestId, .ofContent coding unknown message.content, unknown.empty⟩

/-- What the program looks at in a message. -/
def toMessage (message : StreamingMessage Kept) : BenchmarkHost.StreamingMessage :=
  ⟨message.requestId, message.content.toContent⟩

variable {coding unknown}

theorem toMessage_ofMessage (message : BenchmarkHost.StreamingMessage) :
    toMessage (ofMessage coding unknown message) = message := by
  obtain ⟨requestId, content⟩ := message
  cases content <;> rfl

theorem ofMessage_wellFormed (message : BenchmarkHost.StreamingMessage) :
    (ofMessage coding unknown message).WellFormed coding unknown := by
  constructor
  case unknownFields => exact unknown.foreign_empty _
  case content =>
    unfold ofMessage
    cases message.content with
    | none => exact trivial
    | startStream content => exact unknown.foreign_empty _
    | invocationRequest content => exact unknown.foreign_empty _
    | invocationResponse content => exact unknown.foreign_empty _

end StreamingMessage

def messageCodec : Codec BenchmarkHost.StreamingMessage (List UInt8) where
  encode message :=
    ((marshallerStreamingMessage coding unknown).serializer (.ofMessage coding unknown message)
      ).toOption
  decode bytes := ((marshallerStreamingMessage coding unknown).deserializer bytes).map (·.toMessage)
  decode_encode := by
    intro message bytes encoded
    cases serialized : (marshallerStreamingMessage coding unknown).serializer
        (.ofMessage coding unknown message) with
    | error raised =>
      rw [serialized] at encoded
      cases encoded
    | ok written =>
      rw [serialized] at encoded
      cases encoded
      have read := StreamingMessage.describes.parseFrom_toByteArray
        (StreamingMessage.ofMessage_wellFormed message) serialized
      change ((coding.parseFrom _ bytes).map _) = _
      rw [read, Option.map_some, StreamingMessage.toMessage_ofMessage]

variable {coding unknown}

theorem encodes_iff {message : BenchmarkHost.StreamingMessage} :
    (messageCodec coding unknown).Encodes message ↔
      ((StreamingMessage.ofMessage coding unknown message).writeTo coding unknown).length ≤
        maxLength := by
  have serializer (bytes : List UInt8) := @Coding.Describes.toByteArray_eq_ok _ _ _ _ _
    (@StreamingMessage.describes Kept coding unknown) (.ofMessage coding unknown message) bytes
  change (Except.toOption (MessageType.toByteArray _ _)).isSome ↔ _
  constructor
  · intro encodes
    cases serialized : (StreamingMessage.type coding unknown).toByteArray
        (.ofMessage coding unknown message) with
    | error raised =>
      rw [serialized] at encodes
      cases encodes
    | ok bytes =>
      obtain ⟨rfl, small⟩ := (serializer bytes).mp serialized
      exact small
  · intro small
    rw [(serializer _).mpr ⟨rfl, small⟩]
    rfl

end Wire

def PairObservation.Serialized (codec : Codec StreamingMessage (List UInt8))
    (observation : PairObservation) : Prop :=
  ∀ message ∈ observation.written, codec.Encodes message

instance (codec : Codec StreamingMessage (List UInt8)) (observation : PairObservation) :
    Decidable (observation.Serialized codec) :=
  inferInstanceAs (Decidable (∀ message ∈ observation.written, codec.Encodes message))

/-- The message that is read starts its call, or belongs to it. -/
def FunctionRpcService.reading (service : FunctionRpcService) (call : CallId)
    (message : StreamingMessage) : ServiceAction :=
  match service.calls call with
  | .awaitingFirst => .receiveFirst call message
  | _ => .receive call message

structure WirePair where
  service : FunctionRpcService
  clients : CallId → FunctionRpcClient
  requestStream : CallId → List (List UInt8)
  responseStream : CallId → List (List UInt8)

namespace WirePair

def initial (workerOf : CallId → String) : WirePair :=
  ⟨.initial, fun call => .create (workerOf call), fun _ => [], fun _ => []⟩

section
variable (codec : Codec StreamingMessage (List UInt8))

/-- A step of the service. A message that cannot be serialized is not written:
its `WriteAsync` fails. -/
def serviceStep (pair : WirePair) (action : ServiceAction) :
    Option (WirePair × List PairObservation) :=
  match pair.service.step action with
  | none => none
  | some (service, out) =>
    if ∀ observation ∈ out, (PairObservation.service observation).Serialized codec then
      some ({ pair with
          service := service
          responseStream := fun call => pair.responseStream call ++
            codec.encodeAll ((out.filterMap (·.deliveredOn call)).map (·.message)) },
        out.map .service)
    else none

def clientStep (pair : WirePair) (call : CallId) (action : ClientAction) :
    Option (WirePair × List PairObservation) :=
  match (pair.clients call).step action with
  | none => none
  | some (client, out) =>
    if ∀ observation ∈ out, (PairObservation.client call observation).Serialized codec then
      some ({ pair with
          clients := Function.update pair.clients call client
          requestStream := Function.update pair.requestStream call
            (pair.requestStream call ++ codec.encodeAll (out.filterMap (·.wroteMessage))) },
        out.map (.client call))
    else none

/-- `MoveNext` of the service parses the next bytes of a request stream. It does
not have a message when they are refused. -/
def read (pair : WirePair) (call : CallId) : Option (WirePair × List PairObservation) :=
  match pair.requestStream call with
  | [] => none
  | bytes :: rest =>
    match codec.decode bytes with
    | none => none
    | some message =>
      match pair.serviceStep codec (pair.service.reading call message) with
      | none => none
      | some (after, out) =>
        some ({ after with requestStream := Function.update after.requestStream call rest },
          .read call message :: out)

def deliver (pair : WirePair) (call : CallId) : Option (WirePair × List PairObservation) :=
  match pair.responseStream call with
  | [] => none
  | bytes :: rest =>
    match codec.decode bytes with
    | none => none
    | some message =>
      match pair.clientStep codec call (.receive message) with
      | none => none
      | some (after, out) =>
        some ({ after with responseStream := Function.update after.responseStream call rest }, out)

def step (pair : WirePair) : PairAction → Option (WirePair × List PairObservation)
  | .publish event => pair.serviceStep codec (.outbound event)
  | .accept call =>
    if (pair.clients call).phase = .constructed then none
    else pair.serviceStep codec (.start call)
  | .read call => pair.read codec call
  | .finish call how => pair.serviceStep codec (.finish call how)
  | .write workerId succeeds => pair.serviceStep codec (.write workerId succeeds)
  | .written workerId => pair.serviceStep codec (.written workerId)
  | .deliver call => pair.deliver codec call
  | .client _ (.receive _) => none
  | .client call action => pair.clientStep codec call action

end
end WirePair

def wirePairMachine (codec : Codec StreamingMessage (List UInt8)) (workerOf : CallId → String) :
    Machine WirePair PairAction PairObservation :=
  ⟨.initial workerOf, WirePair.step codec⟩

namespace Pair
variable (codec : Codec StreamingMessage (List UInt8))

/-- The same parties, and on every stream the bytes of the messages there. -/
def serialized (pair : Pair) : WirePair where
  service := pair.service
  clients := pair.clients
  requestStream call := codec.encodeAll (pair.requestStream call)
  responseStream call := codec.encodeAll (pair.responseStream call)

structure Serializes (pair : Pair) : Prop where
  requests : ∀ call, ∀ message ∈ pair.requestStream call, codec.Encodes message
  responses : ∀ call, ∀ message ∈ pair.responseStream call, codec.Encodes message

end Pair

namespace WirePair
variable {codec : Codec StreamingMessage (List UInt8)} {pair after : Pair} {next : WirePair}
  {out : List PairObservation}

theorem serviceStep_serialized {action : ServiceAction} :
    (pair.serialized codec).serviceStep codec action = some (next, out) ↔
      ∃ after, pair.serviceStep action = some (after, out) ∧ next = after.serialized codec ∧
        ∀ observation ∈ out, observation.Serialized codec := by
  unfold serviceStep Pair.serviceStep
  change (match pair.service.step action with | none => none | some (service, out) => _) = _ ↔ _
  cases pair.service.step action with
  | none => simp
  | some moved =>
    obtain ⟨service, shown⟩ := moved
    dsimp only
    constructor
    · intro stepped
      split at stepped <;> cases stepped
      rename_i serialized
      refine ⟨_, rfl, ?_, List.forall_mem_map.mpr serialized⟩
      simp [Pair.serialized]
    · rintro ⟨after, stepped, rfl, serialized⟩
      cases stepped
      rw [if_pos (List.forall_mem_map.mp serialized)]
      simp [Pair.serialized]

theorem clientStep_serialized {call : CallId} {action : ClientAction} :
    (pair.serialized codec).clientStep codec call action = some (next, out) ↔
      ∃ after, pair.clientStep call action = some (after, out) ∧ next = after.serialized codec ∧
        ∀ observation ∈ out, observation.Serialized codec := by
  unfold clientStep Pair.clientStep
  change (match (pair.clients call).step action with | none => none | some (client, out) => _) =
    _ ↔ _
  cases (pair.clients call).step action with
  | none => simp
  | some moved =>
    obtain ⟨client, shown⟩ := moved
    -- Appending messages and serializing is serializing and appending packets.
    have streams (written : List StreamingMessage) :
        Function.update (pair.serialized codec).requestStream call
          ((pair.serialized codec).requestStream call ++ codec.encodeAll written) =
        fun other => codec.encodeAll (Function.update pair.requestStream call
          (pair.requestStream call ++ written) other) := by
      funext other
      by_cases here : other = call
      · subst here
        simp [Pair.serialized]
      · simp [Pair.serialized, here]
    dsimp only
    constructor
    · intro stepped
      split at stepped <;> cases stepped
      rename_i serialized
      refine ⟨_, rfl, ?_, List.forall_mem_map.mpr serialized⟩
      rw [streams]
      rfl
    · rintro ⟨after, stepped, rfl, serialized⟩
      cases stepped
      rw [if_pos (List.forall_mem_map.mp serialized), streams]
      rfl

theorem update_serialized (streams : CallId → List StreamingMessage) (call : CallId)
    (rest : List StreamingMessage) :
    Function.update (fun other => codec.encodeAll (streams other)) call (codec.encodeAll rest) =
      fun other => codec.encodeAll (Function.update streams call rest other) := by
  funext other
  by_cases here : other = call
  · subst here
    simp
  · simp [here]

theorem read_cons {call : CallId} {message : StreamingMessage} {rest : List StreamingMessage}
    (waiting : pair.requestStream call = message :: rest) :
    pair.read call = match pair.serviceStep (pair.service.reading call message) with
      | none => none
      | some (after, out) =>
        some ({ after with requestStream := Function.update after.requestStream call rest },
          .read call message :: out) := by
  unfold Pair.read
  rw [waiting]
  unfold FunctionRpcService.reading
  cases pair.service.calls call <;> rfl

theorem read_serialized (good : pair.Serializes codec) {call : CallId} :
    (pair.serialized codec).read codec call = some (next, out) ↔
      ∃ after, pair.read call = some (after, out) ∧ next = after.serialized codec ∧
        ∀ observation ∈ out, observation.Serialized codec := by
  have stream : (pair.serialized codec).requestStream call =
      codec.encodeAll (pair.requestStream call) := rfl
  have service : (pair.serialized codec).service = pair.service := rfl
  unfold read
  rw [stream, service]
  cases waiting : pair.requestStream call with
  | nil => simp [Pair.read, waiting]
  | cons message rest =>
    -- What is on the stream was serialized when it was written, so it is read back.
    have encodes := good.requests call message (waiting ▸ List.mem_cons_self)
    obtain ⟨packet, first, decoded⟩ := Codec.encodeAll_cons encodes rest
    rw [first, read_cons waiting]
    dsimp only
    rw [decoded]
    dsimp only
    constructor
    · intro stepped
      split at stepped <;> cases stepped
      rename_i between shown inner
      obtain ⟨after, moved, rfl, serialized⟩ := serviceStep_serialized.mp inner
      -- A read puts nothing on a stream, and needs no array.
      have unwritten : (PairObservation.read call message).Serialized codec := by
        intro _ none
        cases none
      rw [moved]
      refine ⟨_, rfl, ?_, List.forall_mem_cons.mpr ⟨unwritten, serialized⟩⟩
      simp only [Pair.serialized, update_serialized]
    · rintro ⟨after, stepped, rfl, serialized⟩
      split at stepped <;> cases stepped
      rename_i between shown inner
      obtain ⟨own, others⟩ := List.forall_mem_cons.mp serialized
      rw [serviceStep_serialized.mpr ⟨_, inner, rfl, others⟩]
      simp only [Pair.serialized, update_serialized]

theorem deliver_serialized (good : pair.Serializes codec) {call : CallId} :
    (pair.serialized codec).deliver codec call = some (next, out) ↔
      ∃ after, pair.deliver call = some (after, out) ∧ next = after.serialized codec ∧
        ∀ observation ∈ out, observation.Serialized codec := by
  unfold deliver Pair.deliver
  have stream : (pair.serialized codec).responseStream call =
      codec.encodeAll (pair.responseStream call) := rfl
  rw [stream]
  cases waiting : pair.responseStream call with
  | nil => simp
  | cons message rest =>
    have encodes := good.responses call message (waiting ▸ List.mem_cons_self)
    obtain ⟨packet, first, decoded⟩ := Codec.encodeAll_cons encodes rest
    rw [first]
    dsimp only
    rw [decoded]
    dsimp only
    constructor
    · intro stepped
      split at stepped <;> cases stepped
      rename_i between inner
      obtain ⟨after, moved, rfl, serialized⟩ := clientStep_serialized.mp inner
      rw [moved]
      refine ⟨_, rfl, ?_, serialized⟩
      simp only [Pair.serialized, update_serialized]
    · rintro ⟨after, stepped, rfl, serialized⟩
      split at stepped <;> cases stepped
      rename_i between inner
      rw [clientStep_serialized.mpr ⟨_, inner, rfl, serialized⟩]
      simp only [Pair.serialized, update_serialized]

theorem step_serialized (good : pair.Serializes codec) {action : PairAction} :
    (pair.serialized codec).step codec action = some (next, out) ↔
      ∃ after, pair.step action = some (after, out) ∧ next = after.serialized codec ∧
        ∀ observation ∈ out, observation.Serialized codec := by
  cases action with
  | publish event => exact @serviceStep_serialized codec pair next out (.outbound event)
  | accept call =>
    unfold step Pair.step
    -- The guard on the client's phase looks at no stream.
    by_cases unopened : (pair.clients call).phase = .constructed
    · have also : ((pair.serialized codec).clients call).phase = .constructed := unopened
      simp [unopened, also]
    · have also : ((pair.serialized codec).clients call).phase ≠ .constructed := unopened
      dsimp only
      rw [if_neg unopened, if_neg also]
      exact serviceStep_serialized
  | read call => exact read_serialized good
  | finish call how => exact serviceStep_serialized
  | write workerId succeeds => exact serviceStep_serialized
  | written workerId => exact serviceStep_serialized
  | deliver call => exact deliver_serialized good
  | client call part =>
    cases part with
    | receive message => simp [step, Pair.step]
    | _ => exact clientStep_serialized

theorem delivered_encodes {shown : List ServiceObservation} (call : CallId)
    (serialized : ∀ observation ∈ shown, (PairObservation.service observation).Serialized codec) :
    ∀ message ∈ (shown.filterMap (·.deliveredOn call)).map (·.message), codec.Encodes message := by
  intro message member
  obtain ⟨event, delivered, rfl⟩ := List.mem_map.mp member
  obtain ⟨observation, seen, told⟩ := List.mem_filterMap.mp delivered
  apply serialized observation seen
  unfold ServiceObservation.deliveredOn at told
  split at told
  · split at told <;> cases told
    rfl
  · cases told

theorem wrote_encodes {shown : List ClientObservation} (call : CallId)
    (serialized : ∀ observation ∈ shown,
      (PairObservation.client call observation).Serialized codec) :
    ∀ message ∈ shown.filterMap (·.wroteMessage), codec.Encodes message := by
  intro message member
  obtain ⟨observation, seen, told⟩ := List.mem_filterMap.mp member
  apply serialized observation seen
  unfold ClientObservation.wroteMessage at told
  split at told <;> cases told
  rfl

theorem serializes_of_step {action : PairAction} (good : pair.Serializes codec)
    (stepped : pair.step action = some (after, out))
    (serialized : ∀ observation ∈ out, observation.Serialized codec) :
    after.Serializes codec := by
  have updated {streams : CallId → List StreamingMessage} (call : CallId)
      {stream : List StreamingMessage} (kept : ∀ message ∈ stream, codec.Encodes message)
      (others : ∀ call, ∀ message ∈ streams call, codec.Encodes message) :
      ∀ other, ∀ message ∈ Function.update streams call stream other, codec.Encodes message :=
    (Function.forall_update_iff streams fun _ messages =>
      ∀ message ∈ messages, codec.Encodes message).mpr ⟨kept, fun other _ => others other⟩
  cases Pair.moves_of_step stepped with
  | service _ _ _ _ requests responses same =>
    rw [same] at serialized
    constructor
    case requests =>
      rw [requests]
      exact good.requests
    case responses =>
      intro call
      rw [responses]
      exact List.forall_mem_append.mpr ⟨good.responses call,
        delivered_encodes call (List.forall_mem_map.mp serialized)⟩
  | read reader message rest _ _ _ head _ _ requests responses _ =>
    have waiting := good.requests reader
    rw [head] at waiting
    constructor
    case requests =>
      rw [requests]
      exact updated reader (List.forall_mem_cons.mp waiting).2 good.requests
    case responses =>
      intro call
      rw [responses]
      exact good.responses call
  | client writer _ shown _ _ _ _ requests responses same =>
    rw [same] at serialized
    have written := wrote_encodes writer (List.forall_mem_map.mp serialized)
    constructor
    case requests =>
      rw [requests]
      exact updated writer (List.forall_mem_append.mpr ⟨good.requests writer, written⟩)
        good.requests
    case responses =>
      rw [responses]
      exact good.responses
  | deliver reader message rest _ head _ _ _ requests responses _ =>
    have waiting := good.responses reader
    rw [head] at waiting
    constructor
    case requests =>
      rw [requests]
      exact good.requests
    case responses =>
      rw [responses]
      exact updated reader (List.forall_mem_cons.mp waiting).2 good.responses

theorem restricts (workerOf : CallId → String) :
    (pairMachine workerOf).Restricts (wirePairMachine codec workerOf) (Pair.serialized codec)
      (Pair.Serializes codec) (PairObservation.Serialized codec) := by
  constructor
  case initially => rfl
  case fits => exact ⟨fun _ => List.forall_mem_nil _, fun _ => List.forall_mem_nil _⟩
  case follows => exact fun good _ _ _ => step_serialized good
  case kept => exact fun good _ _ _ stepped => serializes_of_step good stepped

end WirePair

/-! ### The host process over bytes -/

structure WireSystem where
  host : Host
  pair : WirePair

namespace WireSystem
variable (codec : Codec StreamingMessage (List UInt8)) (workerOf : CallId → String)

def initial : WireSystem := ⟨.initial, .initial workerOf⟩

def hostStep (system : WireSystem) (action : HostAction) :
    Option (WireSystem × List SystemObservation) := do
  let (host, out) ← system.host.step action
  let events := out.filterMap (·.outboundEvent)
  let (pair, heard) ← (wirePairMachine codec workerOf).exec system.pair (events.map .publish)
  return (⟨host, pair⟩, out.map .host ++ heard.map .pair)

def pairStep (system : WireSystem) (action : PairAction) :
    Option (WireSystem × List SystemObservation) := do
  let (pair, out) ← system.pair.step codec action
  let events := (out.filterMap PairObservation.servicePart).filterMap (·.inboundEvent)
  let (host, heard) ← hostMachine.exec system.host (events.map .inbound)
  return (⟨host, pair⟩, out.map .pair ++ heard.map .host)

def step (system : WireSystem) : SystemAction → Option (WireSystem × List SystemObservation)
  | .host (.inbound _) | .pair (.publish _) => none
  | .host action => system.hostStep codec workerOf action
  | .pair action => system.pairStep codec action

end WireSystem

def wireSystemMachine (codec : Codec StreamingMessage (List UInt8)) (workerOf : CallId → String) :
    Machine WireSystem SystemAction SystemObservation :=
  ⟨.initial workerOf, WireSystem.step codec workerOf⟩

def System.serialized (codec : Codec StreamingMessage (List UInt8)) (system : System) :
    WireSystem :=
  ⟨system.host, system.pair.serialized codec⟩

def SystemObservation.Serialized (codec : Codec StreamingMessage (List UInt8)) :
    SystemObservation → Prop
  | .host _ => True
  | .pair observation => observation.Serialized codec

namespace WireSystem
variable {codec : Codec StreamingMessage (List UInt8)} {workerOf : CallId → String}
  {system : System} {next : WireSystem} {out : List SystemObservation}

theorem serialized_host_pair (shown : List HostObservation) (heard : List PairObservation) :
    (∀ observation ∈ shown.map SystemObservation.host ++ heard.map SystemObservation.pair,
        observation.Serialized codec) ↔
      ∀ observation ∈ heard, observation.Serialized codec := by
  rw [List.forall_mem_append, List.forall_mem_map, List.forall_mem_map]
  exact and_iff_right fun _ _ => trivial

theorem serialized_pair_host (shown : List PairObservation) (heard : List HostObservation) :
    (∀ observation ∈ shown.map SystemObservation.pair ++ heard.map SystemObservation.host,
        observation.Serialized codec) ↔
      ∀ observation ∈ shown, observation.Serialized codec := by
  rw [List.forall_mem_append, List.forall_mem_map, List.forall_mem_map]
  exact and_iff_left fun _ _ => trivial

theorem hostStep_serialized (good : system.pair.Serializes codec) {action : HostAction} :
    (system.serialized codec).hostStep codec workerOf action = some (next, out) ↔
      ∃ after, system.hostStep workerOf action = some (after, out) ∧
        next = after.serialized codec ∧ ∀ observation ∈ out, observation.Serialized codec := by
  have parties := @WirePair.restricts codec workerOf
  unfold hostStep System.hostStep
  simp only [Option.bind_eq_bind, Option.bind_eq_some_iff, Option.pure_def, Option.some.injEq,
    Prod.exists, Prod.mk.injEq]
  constructor
  · rintro ⟨host, shown, moved, wire, heard, executed, rfl, rfl⟩
    obtain ⟨pair, followed, rfl, fine⟩ := (parties.exec_iff good).mp executed
    exact ⟨⟨host, pair⟩, ⟨host, shown, moved, pair, heard, followed, rfl, rfl⟩, rfl,
      (serialized_host_pair shown heard).mpr fine⟩
  · rintro ⟨after, ⟨host, shown, moved, pair, heard, executed, rfl, rfl⟩, rfl, fine⟩
    have followed := (parties.exec_iff good).mpr
      ⟨pair, executed, rfl, (serialized_host_pair shown heard).mp fine⟩
    exact ⟨host, shown, moved, _, heard, followed, rfl, rfl⟩

theorem pairStep_serialized (good : system.pair.Serializes codec) {action : PairAction} :
    (system.serialized codec).pairStep codec action = some (next, out) ↔
      ∃ after, system.pairStep action = some (after, out) ∧
        next = after.serialized codec ∧ ∀ observation ∈ out, observation.Serialized codec := by
  unfold pairStep System.pairStep
  simp only [Option.bind_eq_bind, Option.bind_eq_some_iff, Option.pure_def, Option.some.injEq,
    Prod.exists, Prod.mk.injEq]
  constructor
  · rintro ⟨wire, shown, moved, host, heard, executed, rfl, rfl⟩
    obtain ⟨pair, followed, rfl, fine⟩ := (WirePair.step_serialized good).mp moved
    exact ⟨⟨host, pair⟩, ⟨pair, shown, followed, host, heard, executed, rfl, rfl⟩, rfl,
      (serialized_pair_host shown heard).mpr fine⟩
  · rintro ⟨after, ⟨pair, shown, moved, host, heard, executed, rfl, rfl⟩, rfl, fine⟩
    have followed := (WirePair.step_serialized good).mpr
      ⟨pair, moved, rfl, (serialized_pair_host shown heard).mp fine⟩
    exact ⟨_, shown, followed, host, heard, executed, rfl, rfl⟩

theorem restricts (workerOf : CallId → String) :
    (systemMachine workerOf).Restricts (wireSystemMachine codec workerOf)
      (System.serialized codec) (fun system => system.pair.Serializes codec)
      (SystemObservation.Serialized codec) := by
  have parties := @WirePair.restricts codec workerOf
  constructor
  case initially => rfl
  case fits => exact parties.fits
  case follows =>
    intro system good action next out
    cases action with
    | host part =>
      cases part with
      | inbound event => simp [wireSystemMachine, systemMachine, step, System.step]
      | _ => exact hostStep_serialized good
    | pair part =>
      cases part with
      | publish event => simp [wireSystemMachine, systemMachine, step, System.step]
      | _ => exact pairStep_serialized good
  case kept =>
    intro system good action after out stepped serialized
    rcases System.step_cases stepped with ⟨_, shown, heard, _, _, _, executed, rfl⟩ |
      ⟨_, shown, heard, _, _, moved, _, rfl⟩
    · exact parties.kept_exec good executed ((serialized_host_pair shown heard).mp serialized)
    · exact WirePair.serializes_of_step good moved
        ((serialized_pair_host shown heard).mp serialized)

end WireSystem

theorem serialized_iff {Kept : Type} {coding : Coding} {unknown : UnknownFieldSet coding Kept}
    {seen : List SystemObservation} :
    (∀ observation ∈ seen, observation.Serialized (Wire.messageCodec coding unknown)) ↔
      ∀ message ∈ seen.filterMap (·.written),
        ((Wire.StreamingMessage.ofMessage coding unknown message).writeTo coding unknown).length ≤
          maxLength := by
  simp only [List.mem_filterMap, forall_exists_index, and_imp]
  constructor
  · intro fine message observation member written
    cases observation with
    | host shown => cases written
    | pair shown => exact Wire.encodes_iff.mp (fine _ member message written)
  · intro small observation member
    cases observation with
    | host shown => exact trivial
    | pair shown =>
      exact fun message written => Wire.encodes_iff.mpr (small message _ member written)

/-- Over bytes the system has the runs it has with messages on the streams,
except those that write a message too large for an array: nothing that is
written is refused or read as anything else. -/
theorem transported {Kept : Type} (coding : Coding) (unknown : UnknownFieldSet coding Kept)
    (workerOf : CallId → String) (schedule : List SystemAction) (seen : List SystemObservation)
    (wire : WireSystem) :
    (wireSystemMachine (Wire.messageCodec coding unknown) workerOf).Run schedule seen wire ↔
      ∃ system, (systemMachine workerOf).Run schedule seen system ∧
        wire = system.serialized (Wire.messageCodec coding unknown) ∧
        ∀ message ∈ seen.filterMap (·.written),
          ((Wire.StreamingMessage.ofMessage coding unknown message).writeTo coding unknown).length ≤
            maxLength := by
  rw [(WireSystem.restricts workerOf).run_iff]
  simp only [serialized_iff]

theorem transported_session : ∃ seen wire,
    (wireSystemMachine (Wire.messageCodec Base128.coding Base128.unknownFields) fun _ => "w").Run
        (sessionStart ++ sessionRest) seen wire ∧
      seen.filterMap (·.written) = [{ content := .startStream ⟨"w"⟩ },
        { content := .invocationRequest ⟨"i", "5"⟩ },
        { content := .invocationResponse ⟨"i", "Success"⟩ }] := by
  have run := @Machine.Run.of_exec _ _ _ (systemMachine fun _ => "w")
    (sessionStart ++ sessionRest) _ _ rfl
  refine ⟨_, _, (transported _ _ _ _ _ _).mpr ⟨_, run, rfl, ?_⟩, rfl⟩
  decide

end BenchmarkHost
