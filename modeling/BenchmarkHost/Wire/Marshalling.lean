import BenchmarkHost.Library.Base128
import BenchmarkHost.Wire.FunctionRpc

/-! `StreamingMessage` on the wire.

The marshaller of `EventStream` serializes into an array of the computed size
and parses from a new message. Both ends of a call use the same one.
-/

set_option autoImplicit false

namespace BenchmarkHost

open Library

structure Marshaller (Message : Type) where
  serializer : Message → Except RuntimeException (List UInt8)
  deserializer : List UInt8 → Option Message

def Marshallers.create {Message : Type} (coding : Coding) (type : MessageType Message) :
    Marshaller Message :=
  ⟨type.toByteArray, coding.parseFrom type⟩

namespace Wire
variable {Kept : Type} (coding : Coding) (unknown : UnknownFieldSet coding Kept)

def marshallerStreamingMessage : Marshaller (StreamingMessage Kept) :=
  Marshallers.create coding (StreamingMessage.type coding unknown)

namespace Content

def contentCase : Content Kept → ContentOneofCase
  | .none => .none
  | .startStream _ => .startStream
  | .invocationRequest _ => .invocationRequest
  | .invocationResponse _ => .invocationResponse

end Content

variable {coding unknown}

theorem deserialized {message : StreamingMessage Kept} (good : message.WellFormed coding unknown)
    (fits : Fits (message.writeTo coding unknown)) :
    (marshallerStreamingMessage coding unknown).deserializer (message.writeTo coding unknown) =
      some message :=
  StreamingMessage.describes.parseFrom_writeTo good fits

/-! ### Messages read one after the other -/

def mergeAll (coding : Coding) (unknown : UnknownFieldSet coding Kept)
    (messages : List (StreamingMessage Kept)) : StreamingMessage Kept :=
  messages.foldl (StreamingMessage.mergeFrom coding unknown) (StreamingMessage.new coding unknown)

theorem deserialized_together {messages : List (StreamingMessage Kept)}
    (good : ∀ message ∈ messages, message.WellFormed coding unknown)
    (fits : ∀ message ∈ messages, Fits (message.writeTo coding unknown)) :
    (marshallerStreamingMessage coding unknown).deserializer
      (messages.flatMap (StreamingMessage.writeTo coding unknown)) =
        some (mergeAll coding unknown messages) := by
  have merged := StreamingMessage.describes.mergeFrom_flatMap good fits
    (StreamingMessage.new coding unknown)
  have same : (fun message other => actAll (StreamingMessage.fields coding unknown other) message) =
      StreamingMessage.mergeFrom coding unknown := by
    funext message other
    exact StreamingMessage.actAll_fields message other
  rw [same] at merged
  exact merged

theorem contentCase_mergeContent (message other : StreamingMessage Kept)
    (present : other.content.contentCase ≠ .none) :
    (StreamingMessage.mergeContent coding unknown message other).contentCase =
      other.content.contentCase := by
  unfold StreamingMessage.mergeContent
  cases content : other.content with
  | none =>
    rw [content] at present
    exact absurd rfl present
  | startStream _ => rfl
  | invocationRequest _ => rfl
  | invocationResponse _ => rfl

theorem mergeContent_other {message other : StreamingMessage Kept}
    (present : other.content.contentCase ≠ .none)
    (different : message.content.contentCase ≠ other.content.contentCase) :
    StreamingMessage.mergeContent coding unknown message other = other.content := by
  obtain ⟨requestId, content, kept⟩ := message
  obtain ⟨otherId, otherContent, otherKept⟩ := other
  cases otherContent with
  | none => exact absurd rfl present
  | startStream start =>
    have absent : (⟨requestId, content, kept⟩ : StreamingMessage Kept).startStream = none := by
      cases content with
      | startStream _ => exact absurd rfl different
      | _ => rfl
    simp only [StreamingMessage.mergeContent, absent, Option.getD_none]
    exact congrArg Content.startStream (StartStream.new_mergeFrom start)
  | invocationRequest request =>
    have absent : (⟨requestId, content, kept⟩ : StreamingMessage Kept).invocationRequest = none := by
      cases content with
      | invocationRequest _ => exact absurd rfl different
      | _ => rfl
    simp only [StreamingMessage.mergeContent, absent, Option.getD_none]
    exact congrArg Content.invocationRequest (InvocationRequest.new_mergeFrom request)
  | invocationResponse response =>
    have absent : (⟨requestId, content, kept⟩ : StreamingMessage Kept).invocationResponse = none := by
      cases content with
      | invocationResponse _ => exact absurd rfl different
      | _ => rfl
    simp only [StreamingMessage.mergeContent, absent, Option.getD_none]
    exact congrArg Content.invocationResponse (InvocationResponse.new_mergeFrom response)

theorem content_foldl_of_none {messages : List (StreamingMessage Kept)}
    (silent : ∀ message ∈ messages, message.content = .none) (message : StreamingMessage Kept) :
    (messages.foldl (StreamingMessage.mergeFrom coding unknown) message).content =
      message.content := by
  induction messages generalizing message with
  | nil => rfl
  | cons first rest ih =>
    rw [List.foldl_cons, ih fun other member => silent other (List.mem_cons_of_mem first member)]
    change StreamingMessage.mergeContent coding unknown message first = message.content
    rw [StreamingMessage.mergeContent, silent first List.mem_cons_self]

/-- Of all the contents that came the last one counts. It is merged with those
of its own case only if no other case came between. -/
theorem last_content_wins {before after : List (StreamingMessage Kept)}
    {last : StreamingMessage Kept}
    (good : ∀ message ∈ before ++ last :: after, message.WellFormed coding unknown)
    (fits : ∀ message ∈ before ++ last :: after, Fits (message.writeTo coding unknown))
    (present : last.content.contentCase ≠ .none)
    (silent : ∀ message ∈ after, message.content = .none) :
    ∃ merged, (marshallerStreamingMessage coding unknown).deserializer
        ((before ++ last :: after).flatMap (StreamingMessage.writeTo coding unknown)) =
          some merged ∧
      merged.content.contentCase = last.content.contentCase ∧
      ((mergeAll coding unknown before).content.contentCase ≠ last.content.contentCase →
        merged.content = last.content) := by
  have content : (mergeAll coding unknown (before ++ last :: after)).content =
      StreamingMessage.mergeContent coding unknown (mergeAll coding unknown before) last := by
    rw [mergeAll, List.foldl_append, List.foldl_cons, content_foldl_of_none silent]
    rfl
  refine ⟨_, deserialized_together good fits, ?_, fun different => ?_⟩
  · rw [content, contentCase_mergeContent _ _ present]
  · rw [content, mergeContent_other present different]

theorem last_content_wins_response :
    ∃ merged, (marshallerStreamingMessage Base128.coding Base128.unknownFields).deserializer
        [34, 3, 10, 1, 49, 42, 3, 26, 1, 52, 10, 1, 55] = some merged ∧
      merged.content.contentCase = .invocationResponse ∧
      (ContentOneofCase.invocationRequest ≠ .invocationResponse →
        merged.content = .invocationResponse ⟨"", "4", []⟩) :=
  @last_content_wins _ Base128.coding Base128.unknownFields
    [⟨"", .invocationRequest ⟨"1", "", []⟩, []⟩] [⟨"7", .none, []⟩]
    ⟨"", .invocationResponse ⟨"", "4", []⟩, []⟩
    (by decide) (by decide) (by decide) (List.forall_mem_singleton.mpr rfl)

/-! ### Messages written back -/

/-- The computed size is exact: only an array that is too large cannot be
allocated, and what is serialized is read back. -/
theorem serialized_exactly {message : StreamingMessage Kept}
    (good : message.WellFormed coding unknown) (bytes : List UInt8) :
    ((marshallerStreamingMessage coding unknown).serializer message = .ok bytes ↔
      bytes = message.writeTo coding unknown ∧ bytes.length ≤ maxLength) ∧
    ((marshallerStreamingMessage coding unknown).serializer message = .ok bytes →
      (marshallerStreamingMessage coding unknown).deserializer bytes = some message) :=
  ⟨StreamingMessage.describes.toByteArray_eq_ok,
    StreamingMessage.describes.parseFrom_toByteArray good⟩

theorem serialized_exactly_start :
    ((marshallerStreamingMessage Base128.coding Base128.unknownFields).serializer
        ⟨"", .startStream ⟨"1", []⟩, []⟩ = .ok [162, 1, 3, 18, 1, 49] ↔
      ([162, 1, 3, 18, 1, 49] : List UInt8) = [162, 1, 3, 18, 1, 49] ∧ 6 ≤ maxLength) ∧
    ((marshallerStreamingMessage Base128.coding Base128.unknownFields).serializer
        ⟨"", .startStream ⟨"1", []⟩, []⟩ = .ok [162, 1, 3, 18, 1, 49] →
      (marshallerStreamingMessage Base128.coding Base128.unknownFields).deserializer
        [162, 1, 3, 18, 1, 49] = some ⟨"", .startStream ⟨"1", []⟩, []⟩) :=
  @serialized_exactly _ Base128.coding Base128.unknownFields ⟨"", .startStream ⟨"1", []⟩, []⟩
    (by decide) [162, 1, 3, 18, 1, 49]

/-- Whatever bytes a peer sends: once accepted, the message is written back in
such a way that it is read as the same message, unknown fields included. -/
theorem relayed {input bytes : List UInt8} {message : StreamingMessage Kept}
    (accepted : (marshallerStreamingMessage coding unknown).deserializer input = some message)
    (serialized : (marshallerStreamingMessage coding unknown).serializer message = .ok bytes) :
    (marshallerStreamingMessage coding unknown).deserializer bytes = some message :=
  StreamingMessage.describes.parseFrom_toByteArray (StreamingMessage.parseFrom_wellFormed accepted)
    serialized

theorem relayed_unknown :
    (marshallerStreamingMessage Base128.coding Base128.unknownFields).deserializer
      [10, 1, 55, 40, 1] = some ⟨"7", .none, [⟨40, [1], by decide, fun _ => rfl⟩]⟩ := by
  have accepted := @deserialized _ Base128.coding Base128.unknownFields
    ⟨"7", .none, [⟨40, [1], by decide, fun _ => rfl⟩]⟩ (by decide) (by decide)
  exact relayed accepted rfl

/-! ### Messages cut short -/

theorem take_of_short {Value : Type} {values : List Value} (short : values.length ≤ 1)
    (count : Nat) : values.take count = [] ∨ values.take count = values := by
  cases count with
  | zero => exact .inl rfl
  | succ count => exact .inr (List.take_of_length_le (by omega))

theorem contentFields_short (message : StreamingMessage Kept) :
    (StreamingMessage.contentFields coding unknown message).length ≤ 1 := by
  obtain ⟨requestId, content, kept⟩ := message
  cases content with
  | none => exact Nat.zero_le 1
  | startStream _ => exact Nat.le_refl 1
  | invocationRequest _ => exact Nat.le_refl 1
  | invocationResponse _ => exact Nat.le_refl 1

/-- What there is of a message besides its unknown fields. -/
def known (message : StreamingMessage Kept) : String × Content Kept :=
  (message.requestId, message.content)

theorem known_actAll_keep {source : Kept} {kept : List (TaggedField (StreamingMessage Kept))}
    (listed : ∀ field ∈ kept, field ∈ unknown.keep StreamingMessage.unknownSlot source)
    (message : StreamingMessage Kept) : known (actAll kept message) = known message := by
  apply actAll_preserves
  intro field member other
  obtain ⟨old, _, rfl⟩ := List.mem_map.mp (listed field member)
  rfl

theorem actAll_content_of_new {message other : StreamingMessage Kept}
    (empty : other.content = .none) :
    actAll (StreamingMessage.contentFields coding unknown message) other =
      StreamingMessage.setContent message.content other := by
  rw [StreamingMessage.actAll_contentFields]
  obtain ⟨requestId, content, kept⟩ := other
  obtain rfl := empty
  have whole := congrArg StreamingMessage.content
    (@StreamingMessage.new_mergeFrom _ coding unknown message)
  exact congrArg (StreamingMessage.setContent · _) whole

theorem known_setContent {message other : StreamingMessage Kept} {count : Nat}
    (empty : other.content = .none) :
    known (actAll ((StreamingMessage.contentFields coding unknown message).take count) other) ∈
      [(other.requestId, .none), (other.requestId, message.content)] := by
  rcases take_of_short (@contentFields_short _ coding unknown message) count
    with none | whole
  · rw [none, actAll_nil, known, empty]
    exact List.mem_cons_self
  · rw [whole, actAll_content_of_new empty]
    exact List.mem_cons_of_mem _ List.mem_cons_self

theorem known_actAll_take (message : StreamingMessage Kept) (count : Nat) :
    known (actAll ((StreamingMessage.fields coding unknown message).take count)
      (StreamingMessage.new coding unknown)) ∈
        [("", .none), (message.requestId, .none), known message] := by
  unfold StreamingMessage.fields
  rw [List.take_append, actAll_append,
    known_actAll_keep fun field member => List.mem_of_mem_take member, List.take_append,
    actAll_append]
  by_cases written : message.requestId.length != 0
  · rw [Library.optional.eq_def, if_pos written]
    cases count with
    | zero => exact List.mem_cons_self
    | succ count =>
      rw [List.take_succ_cons, List.take_nil, actAll_cons, actAll_nil]
      apply List.mem_cons_of_mem
      exact @known_setContent _ _ _ message
        ⟨message.requestId, .none, unknown.empty⟩ _ rfl
  · rw [Library.optional.eq_def, if_neg written]
    have empty : message.requestId = "" := by
      rw [← unless_empty message.requestId, if_neg written]
    rw [List.take_nil, actAll_nil, known, empty]
    apply List.mem_cons_of_mem
    exact known_setContent rfl

/-- A message cut short is refused, or it lost its last fields: no field is
altered, and the content is not read without the request before it. -/
theorem cut_short {message last : StreamingMessage Kept}
    (good : message.WellFormed coding unknown) {bytes front back : List UInt8}
    (serialized : (marshallerStreamingMessage coding unknown).serializer message = .ok bytes)
    (cut : front ++ back = bytes)
    (accepted : (marshallerStreamingMessage coding unknown).deserializer front = some last) :
    known last ∈ [("", .none), (message.requestId, .none), known message] := by
  obtain ⟨rfl, small⟩ := StreamingMessage.describes.toByteArray_eq_ok.mp serialized
  have fits : Fits (message.writeTo coding unknown) := .of_length_le small
  obtain ⟨count, _, rfl⟩ := StreamingMessage.describes.parseFrom_truncated good fits cut accepted
  exact known_actAll_take message count

theorem cut_short_request :
    known (⟨"7", .none, []⟩ : StreamingMessage (List (UnknownField Base128.coding))) ∈
      [("", .none), ("7", .none), ("7", .invocationRequest ⟨"1", "", []⟩)] :=
  @cut_short _ Base128.coding Base128.unknownFields ⟨"7", .invocationRequest ⟨"1", "", []⟩, []⟩
    ⟨"7", .none, []⟩
    (by decide) [10, 1, 55, 34, 3, 10, 1, 49] [10, 1, 55] [34, 3, 10, 1, 49] rfl rfl
    (@deserialized _ Base128.coding Base128.unknownFields ⟨"7", .none, []⟩ (by decide) (by decide))

end Wire
end BenchmarkHost
