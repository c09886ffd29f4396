import BenchmarkHost.Library.Lengths
import BenchmarkHost.Wire.Transport

/-! How long the messages of the system are.

The texts in a message are the id of a worker and those of an invocation. While
these are short, every message is far from what the server, a client's channel
and an array can hold, and bytes on the streams make no difference at all.
-/

set_option autoImplicit false

namespace BenchmarkHost

open Library

def GrpcServer.maxMessageLengthBytes : Nat := 128 * 1024 * 1024

namespace Wire
variable {Kept : Type} {coding : Coding} {unknown : UnknownFieldSet coding Kept}

variable (coding unknown) in
def serialize (message : BenchmarkHost.StreamingMessage) : List UInt8 :=
  (StreamingMessage.ofMessage coding unknown message).writeTo coding unknown

theorem writeTo_empty : unknown.writeTo unknown.empty = [] := by
  rw [UnknownFieldSet.writeTo, unknown.fields_empty]
  rfl

section
variable (lengths : coding.Lengths) {limit : Nat} (small : 2 * limit + 25 < 2 ^ 31)

include lengths small

theorem length_greeting_le {workerId : String} (short : workerId.utf8ByteSize ≤ limit) :
    (serialize coding unknown { content := .startStream ⟨workerId⟩ }).length ≤ limit + 13 := by
  have text := lengths.length_string_le short (by omega) 18
  have inner : ((StartStream.type coding unknown).writeTo
      ⟨workerId, unknown.empty⟩).length ≤ 6 + limit := by
    change (_ ++ unknown.writeTo unknown.empty).length ≤ _
    rw [writeTo_empty, List.append_nil]
    exact text
  have nested := lengths.length_message_le StartStream.describes inner (by omega) [162, 1]
  change (([] ++ ([] ++ [] ++ _)) ++ unknown.writeTo unknown.empty).length ≤ _
  rw [writeTo_empty, List.append_nil]
  exact Nat.le_trans nested (by change 2 + _ ≤ _; omega)

theorem length_request_le {context : ScriptInvocationContext}
    (shortId : context.invocationId.utf8ByteSize ≤ limit)
    (shortFunction : context.functionId.utf8ByteSize ≤ limit) :
    (serialize coding unknown context.request).length ≤ 2 * limit + 18 := by
  have id := lengths.length_string_le shortId (by omega) 10
  have function := lengths.length_string_le shortFunction (by omega) 18
  have inner : ((InvocationRequest.type coding unknown).writeTo
      ⟨context.invocationId, context.functionId, unknown.empty⟩).length ≤ 12 + 2 * limit := by
    change (_ ++ _ ++ unknown.writeTo unknown.empty).length ≤ _
    rw [writeTo_empty, List.append_nil, List.length_append]
    exact Nat.le_trans (Nat.add_le_add id function) (by omega)
  have nested := lengths.length_message_le InvocationRequest.describes inner (by omega) [34]
  change (([] ++ (_ ++ [] ++ [])) ++ unknown.writeTo unknown.empty).length ≤ _
  rw [writeTo_empty, List.append_nil, List.append_nil, List.append_nil]
  exact Nat.le_trans nested (by change 1 + _ ≤ _; omega)

theorem length_response_le {id : String} (short : id.utf8ByteSize ≤ limit) :
    (serialize coding unknown (FunctionRpcClient.success id)).length ≤ limit + 25 := by
  have text := lengths.length_string_le short (by omega) 10
  have result := lengths.length_string_le (show "Success".utf8ByteSize ≤ 7 by decide) (by decide) 26
  have inner : ((InvocationResponse.type coding unknown).writeTo
      ⟨id, "Success", unknown.empty⟩).length ≤ 19 + limit := by
    change (_ ++ _ ++ unknown.writeTo unknown.empty).length ≤ _
    rw [writeTo_empty, List.append_nil, List.length_append]
    exact Nat.le_trans (Nat.add_le_add text result) (by omega)
  have nested := lengths.length_message_le InvocationResponse.describes inner (by omega) [42]
  change (([] ++ ([] ++ _ ++ [])) ++ unknown.writeTo unknown.empty).length ≤ _
  rw [writeTo_empty, List.append_nil, List.append_nil]
  exact Nat.le_trans nested (by change 1 + _ ≤ _; omega)

end

end Wire

section
variable {Kept : Type} {coding : Coding} {unknown : UnknownFieldSet coding Kept}
  (lengths : coding.Lengths) {workerOf : CallId → String} {schedule : List SystemAction}
  {limit : Nat} (workers : ∀ call, (workerOf call).utf8ByteSize ≤ limit)
  (ids : ∀ workerId functionId invocationId,
    .host (.get workerId functionId invocationId) ∈ schedule →
      functionId.utf8ByteSize ≤ limit ∧ invocationId.utf8ByteSize ≤ limit)

include lengths workers ids

theorem length_written_le (small : 2 * limit + 25 < 2 ^ 31) {seen : List SystemObservation}
    {system : System} (run : (systemMachine workerOf).Run schedule seen system)
    {message : StreamingMessage} (written : message ∈ seen.filterMap (·.written)) :
    (Wire.serialize coding unknown message).length ≤ 2 * limit + 25 := by
  have short : ∀ {workerId : String} {context : ScriptInvocationContext},
      .registered workerId context ∈ hostSeen seen →
      context.functionId.utf8ByteSize ≤ limit ∧ context.invocationId.utf8ByteSize ≤ limit :=
    fun registered => ids _ _ _ (got_of_registered run registered)
  obtain ⟨observation, member, puts⟩ := List.mem_filterMap.mp written
  obtain ⟨stream, puts⟩ := SystemObservation.exists_writtenOn puts
  cases written_known run member puts with
  | @greeting call =>
    exact Nat.le_trans (Wire.length_greeting_le lengths small (workers call)) (by omega)
  | request registered =>
    obtain ⟨function, id⟩ := short registered
    exact Nat.le_trans (Wire.length_request_le lengths small id function) (by omega)
  | response registered =>
    exact Nat.le_trans (Wire.length_response_le lengths small (short registered).2) (by omega)

/-- While the ids are short no message is too long for the server or for what the
channel of a client takes, so that the system over bytes has all the runs of the
system, and no others. -/
theorem within_limits {channelLimit : Nat}
    (allowed : 2 * limit + 25 ≤ GrpcServer.maxMessageLengthBytes)
    (taken : 2 * limit + 25 ≤ channelLimit) (seen : List SystemObservation) (wire : WireSystem) :
    ((wireSystemMachine (Wire.messageCodec coding unknown) workerOf).Run schedule seen wire ↔
      ∃ system, (systemMachine workerOf).Run schedule seen system ∧
        wire = system.serialized (Wire.messageCodec coding unknown)) ∧
    ((wireSystemMachine (Wire.messageCodec coding unknown) workerOf).Run schedule seen wire →
      ∀ message ∈ seen.filterMap (·.written),
        (Wire.serialize coding unknown message).length ≤ GrpcServer.maxMessageLengthBytes ∧
        (Wire.serialize coding unknown message).length ≤ channelLimit) := by
  have countable : GrpcServer.maxMessageLengthBytes < 2 ^ 31 := by decide
  have served : ∀ {system}, (systemMachine workerOf).Run schedule seen system →
      ∀ message ∈ seen.filterMap (·.written),
        (Wire.serialize coding unknown message).length ≤ 2 * limit + 25 :=
    fun run message written => length_written_le lengths workers ids (by omega) run written
  rw [(WireSystem.restricts workerOf).run_iff]
  simp only [serialized_iff]
  constructor
  · constructor
    · rintro ⟨system, run, serialized, _⟩
      exact ⟨system, run, serialized⟩
    · rintro ⟨system, run, serialized⟩
      refine ⟨system, run, serialized, fun message written => ?_⟩
      exact Nat.le_trans (served run message written) (Nat.le_trans allowed (by decide))
  · rintro ⟨system, run, _⟩ message written
    have short := served run message written
    exact ⟨Nat.le_trans short allowed, Nat.le_trans short taken⟩

end

theorem within_limits_busy : ∃ seen wire,
    (wireSystemMachine (Wire.messageCodec Base128.coding Base128.unknownFields) fun _ => "w").Run
        busySession seen wire ∧
      ∀ message ∈ seen.filterMap (·.written),
        (Wire.serialize Base128.coding Base128.unknownFields message).length ≤
            GrpcServer.maxMessageLengthBytes ∧
          (Wire.serialize Base128.coding Base128.unknownFields message).length ≤ 4194304 := by
  have run := @Machine.Run.of_exec _ _ _ (systemMachine fun _ => "w") busySession _ _ rfl
  have limits := @within_limits _ Base128.coding Base128.unknownFields Base128.lengths
    (fun _ => "w") busySession 36 (fun _ => by decide) (by
    intro workerId functionId invocationId got
    simp only [busySession, List.mem_cons, SystemAction.host.injEq, HostAction.get.injEq,
      reduceCtorEq, List.not_mem_nil, false_or, or_false] at got
    obtain ⟨_, rfl, rfl⟩ := got
    decide) 4194304 (by decide) (by decide)
  have wired := (limits _ _).1.mpr ⟨_, run, rfl⟩
  exact ⟨_, _, wired, (limits _ _).2 wired⟩

end BenchmarkHost
