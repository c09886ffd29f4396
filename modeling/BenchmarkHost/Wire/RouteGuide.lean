import BenchmarkHost.RouteGuide.Transfer
import BenchmarkHost.Wire.Marshalling
import BenchmarkHost.Wire.TestProto

/-! The messages of the route guide on the wire.

The methods of the service share nine marshallers. All of them read the fields
of a message in any order and pass over the fields of other versions; maps are
read with what an earlier binding of a key held replaced.
-/

set_option autoImplicit false

namespace BenchmarkHost

open Library

open RouteGuideImpl (respond result)

namespace RouteGuide

section
variable (coding : Coding)

def marshallerPoint : Marshaller Point := Marshallers.create coding (Point.type coding)

def marshallerFeature : Marshaller Feature := Marshallers.create coding (Feature.type coding)

def marshallerRectangle : Marshaller Rectangle :=
  Marshallers.create coding (Rectangle.type coding)

def marshallerRouteSummary : Marshaller RouteSummary :=
  Marshallers.create coding (RouteSummary.type coding)

def marshallerRouteNote : Marshaller RouteNote :=
  Marshallers.create coding (RouteNote.type coding)

def marshallerChunReq : Marshaller ChunReq := Marshallers.create coding (ChunReq.type coding)

def marshallerChunk : Marshaller Chunk := Marshallers.create coding (Chunk.type coding)

def marshallerFullFile : Marshaller FullFile := Marshallers.create coding (FullFile.type coding)

end

def marshallerFunctionMetadata {coding : Coding} {Map : Type}
    (maps : MapField coding String (List UInt8) Map) : Marshaller (Wire.FunctionMetadata Map) :=
  Marshallers.create coding (Wire.FunctionMetadata.type maps)

inductive Kind where
  | point
  | feature
  | rectangle
  | routeSummary
  | routeNote
  | functionMetadata
  | chunReq
  | chunk
  | fullFile
  deriving DecidableEq, Repr

namespace Kind

abbrev Message (Map : Type) : Kind → Type
  | point => Point
  | feature => Feature
  | rectangle => Rectangle
  | routeSummary => RouteSummary
  | routeNote => RouteNote
  | functionMetadata => Wire.FunctionMetadata Map
  | chunReq => ChunReq
  | chunk => Chunk
  | fullFile => FullFile

variable {coding : Coding} {Map : Type}

section
variable (maps : MapField coding String (List UInt8) Map)

def marshaller : (kind : Kind) → Marshaller (kind.Message Map)
  | point => marshallerPoint coding
  | feature => marshallerFeature coding
  | rectangle => marshallerRectangle coding
  | routeSummary => marshallerRouteSummary coding
  | routeNote => marshallerRouteNote coding
  | functionMetadata => marshallerFunctionMetadata maps
  | chunReq => marshallerChunReq coding
  | chunk => marshallerChunk coding
  | fullFile => marshallerFullFile coding

def type : (kind : Kind) → MessageType (kind.Message Map)
  | point => Point.type coding
  | feature => Feature.type coding
  | rectangle => Rectangle.type coding
  | routeSummary => RouteSummary.type coding
  | routeNote => RouteNote.type coding
  | functionMetadata => Wire.FunctionMetadata.type maps
  | chunReq => ChunReq.type coding
  | chunk => Chunk.type coding
  | fullFile => FullFile.type coding

def fields : (kind : Kind) → kind.Message Map → List (TaggedField (kind.Message Map))
  | point => Point.fields coding
  | feature => Feature.fields coding
  | rectangle => Rectangle.fields coding
  | routeSummary => RouteSummary.fields coding
  | routeNote => RouteNote.fields coding
  | functionMetadata => Wire.FunctionMetadata.fields maps
  | chunReq => ChunReq.fields coding
  | chunk => Chunk.fields coding
  | fullFile => FullFile.fields coding

end

def known : Kind → List UInt32
  | point => Point.known
  | feature => Feature.known
  | rectangle => Rectangle.known
  | routeSummary => RouteSummary.known
  | routeNote => RouteNote.known
  | functionMetadata => Wire.FunctionMetadata.known
  | chunReq => ChunReq.known
  | chunk => Chunk.known
  | fullFile => FullFile.known

abbrev Content (Map : Type) : Kind → Type
  | functionMetadata =>
    String × String × (String → Option (List UInt8)) × (String → Option (List UInt8))
  | kind => kind.Message Map

/-- A message up to the order in which its maps were filled. -/
def content (maps : MapField coding String (List UInt8) Map) :
    (kind : Kind) → kind.Message Map → kind.Content Map
  | point => id
  | feature => id
  | rectangle => id
  | routeSummary => id
  | routeNote => id
  | functionMetadata => Wire.FunctionMetadata.content maps
  | chunReq => id
  | chunk => id
  | fullFile => id

variable {maps : MapField coding String (List UInt8) Map}

theorem marshaller_eq (kind : Kind) :
    kind.marshaller maps = Marshallers.create coding (kind.type maps) := by
  cases kind <;> rfl

theorem describes (kind : Kind) :
    coding.Describes (kind.type maps) (fun _ => True) (kind.fields maps) := by
  cases kind with
  | point => exact Point.describes
  | feature => exact Feature.describes
  | rectangle => exact Rectangle.describes
  | routeSummary => exact RouteSummary.describes
  | routeNote => exact RouteNote.describes
  | functionMetadata => exact Wire.FunctionMetadata.describes
  | chunReq => exact ChunReq.describes
  | chunk => exact Chunk.describes
  | fullFile => exact FullFile.describes

theorem tolerates (kind : Kind) :
    coding.Tolerates (kind.type maps) (kind.fields maps) kind.known (kind.content maps) := by
  cases kind with
  | point => exact Point.tolerates
  | feature => exact Feature.tolerates
  | rectangle => exact Rectangle.tolerates
  | routeSummary => exact RouteSummary.tolerates
  | routeNote => exact RouteNote.tolerates
  | functionMetadata => exact Wire.FunctionMetadata.tolerates
  | chunReq => exact ChunReq.tolerates
  | chunk => exact Chunk.tolerates
  | fullFile => exact FullFile.tolerates

end Kind

variable {coding : Coding} {Map : Type} {maps : MapField coding String (List UInt8) Map}
  {kind : Kind}

/-- What a peer of another version sends is read as far as it is known: the
fields of a message, in any order and with others between them. -/
theorem read_in_any_order {message : kind.Message Map} {bytes : List UInt8}
    (serialized : (kind.marshaller maps).serializer message = .ok bytes)
    {others : List (UnknownField coding)} (unknown : ∀ field ∈ others, field.tag ∉ kind.known)
    {shuffled : List (TaggedField (kind.Message Map))}
    (same : (kind.fields maps message ++ others.map UnknownField.dropped).Perm shuffled) :
    bytes = (kind.fields maps message).flatMap TaggedField.bytes ∧
    (kind.marshaller maps).deserializer bytes = some message ∧
    ∃ read, (kind.marshaller maps).deserializer (shuffled.flatMap TaggedField.bytes) =
        some read ∧
      kind.content maps read = kind.content maps message := by
  rw [Kind.marshaller_eq] at serialized ⊢
  have back := kind.describes.parseFrom_toByteArray trivial serialized
  obtain ⟨rfl, small⟩ := kind.describes.toByteArray_eq_ok.mp serialized
  have fits : Fits ((kind.type maps).writeTo message) := .of_length_le small
  refine ⟨kind.describes.written message, back, ?_⟩
  exact kind.tolerates.parseFrom_shuffled kind.describes trivial fits unknown same

def dictionaries : MapField Base128.coding String (List UInt8) (Dictionary String (List UInt8)) :=
  Dictionary.mapField Base128.coding

theorem read_in_any_order_note :
    ∃ read, (marshallerRouteNote Base128.coding).deserializer [40, 1, 18, 1, 97, 10, 2, 8, 1] =
        some read ∧
      read = ⟨some ⟨1, 0⟩, "a"⟩ := by
  have read := @read_in_any_order Base128.coding _ dictionaries .routeNote ⟨some ⟨1, 0⟩, "a"⟩
    [10, 2, 8, 1, 18, 1, 97] (by decide) [⟨40, [1], by decide, fun _ => rfl⟩] (by decide) _
    (List.reverse_perm _).symm
  exact read.2.2

/-! ### Metadata merged in memory and from the wire -/

theorem mergeFrom_eq_ok {message other merged : Wire.FunctionMetadata Map} :
    message.mergeFrom maps other = .ok merged ↔
      merged = message.absorb maps other ∧
        maps.Disjoint message.input other.input ∧ maps.Disjoint message.output other.output := by
  unfold Wire.FunctionMetadata.mergeFrom
  dsimp only
  split
  · rename_i refused
    simp only [reduceCtorEq, false_iff]
    rintro ⟨_, free, _⟩
    rw [MapField.addAll_eq_some.mpr ⟨rfl, free⟩] at refused
    cases refused
  · rename_i input added
    obtain ⟨rfl, free⟩ := MapField.addAll_eq_some.mp added
    split
    · rename_i refused
      simp only [reduceCtorEq, false_iff]
      rintro ⟨_, _, free⟩
      rw [MapField.addAll_eq_some.mpr ⟨rfl, free⟩] at refused
      cases refused
    · rename_i output too
      obtain ⟨rfl, freeToo⟩ := MapField.addAll_eq_some.mp too
      constructor
      · intro same
        exact ⟨(Except.ok.inj same).symm, free, freeToo⟩
      · rintro ⟨rfl, _⟩
        rfl

/-- What `InvokeFunction` makes of a request is a merge in memory, and raises as
that does. -/
theorem respond_merges (request : FunctionMetadata) :
    (respond request).map .ofMetadata =
      Wire.FunctionMetadata.mergeFrom (Dictionary.mapField coding) (.ofMetadata request)
        ⟨"", " Queue trigger out", .empty, Dictionary.empty.set request.invocationId result⟩ := by
  have input : (Dictionary.mapField coding).addAll request.input .empty = some request.input := rfl
  -- The other metadata has one entry, which is the one the handler adds.
  have output : (Dictionary.mapField coding).addAll request.output
      (Dictionary.empty.set request.invocationId result) =
      request.output.add request.invocationId result := Option.bind_fun_some _
  unfold respond Wire.FunctionMetadata.mergeFrom
  dsimp only [Wire.FunctionMetadata.ofMetadata]
  rw [input, output, if_neg (by decide), if_pos (by decide)]
  cases request.output.add request.invocationId result <;> rfl

/-- Metadata that comes over the wire replaces the entries there are. Merged in
memory it raises where a key is bound twice, and is the same everywhere else. -/
theorem merges_agree_iff {message other : Wire.FunctionMetadata Map} {bytes : List UInt8}
    (serialized : (marshallerFunctionMetadata maps).serializer other = .ok bytes) :
    ∃ read, coding.mergeFrom (Wire.FunctionMetadata.type maps) message bytes = some read ∧
      (∀ key, maps.tryGetValue read.input key =
        (maps.tryGetValue other.input key).or (maps.tryGetValue message.input key)) ∧
      (∀ key, maps.tryGetValue read.output key =
        (maps.tryGetValue other.output key).or (maps.tryGetValue message.output key)) ∧
      ∀ merged, message.mergeFrom maps other = .ok merged ↔
        merged = read ∧
          maps.Disjoint message.input other.input ∧ maps.Disjoint message.output other.output := by
  obtain ⟨rfl, small⟩ := Wire.FunctionMetadata.describes.toByteArray_eq_ok.mp serialized
  have fits : Fits ((Wire.FunctionMetadata.type maps).writeTo other) := .of_length_le small
  refine ⟨message.absorb maps other, ?_, ?_, ?_, fun merged => mergeFrom_eq_ok⟩
  · rw [Wire.FunctionMetadata.describes.mergeFrom_writeTo trivial fits,
      Wire.FunctionMetadata.actAll_fields]
  · exact MapField.tryGetValue_setAll_toList message.input other.input
  · exact MapField.tryGetValue_setAll_toList message.output other.output

theorem merges_agree_iff_shared :
    ∃ read, Base128.coding.mergeFrom (Wire.FunctionMetadata.type dictionaries)
        ⟨"1", "", Dictionary.empty.set "k" [2], .empty⟩ [122, 6, 10, 1, 107, 18, 1, 1] = some read ∧
      read.input.tryGetValue "k" = some [1] ∧
      ∀ merged, Wire.FunctionMetadata.mergeFrom dictionaries
        ⟨"1", "", Dictionary.empty.set "k" [2], .empty⟩
        ⟨"", "", Dictionary.empty.set "k" [1], .empty⟩ ≠ .ok merged := by
  obtain ⟨read, parsed, input, _, agrees⟩ := @merges_agree_iff _ _ dictionaries
    ⟨"1", "", Dictionary.empty.set "k" [2], .empty⟩ ⟨"", "", Dictionary.empty.set "k" [1], .empty⟩
    [122, 6, 10, 1, 107, 18, 1, 1] (by decide)
  refine ⟨read, parsed, (input "k").trans (by decide), fun merged same => ?_⟩
  rcases ((agrees merged).mp same).2.1 "k" with free | free
  · exact absurd free (by decide)
  · exact absurd free (by decide)

/-! ### Files -/

theorem written_short {testBytes : ManagedArray UInt8} {faults : Faults} {chunk : Chunk}
    (written : chunk ∈ ((RouteGuideImpl.create testBytes).getBytes faults).written) :
    chunk.chunkBytes.length ≤ 64000 ∧ chunk.lastChunk = false := by
  have piece : ∀ count, chunk ∈ pieces testBytes.elements 64000 0 count →
      chunk.chunkBytes.length ≤ 64000 ∧ chunk.lastChunk = false := by
    intro count member
    obtain ⟨number, _, rfl⟩ := List.mem_map.mp member
    exact ⟨List.length_take_le _ _, rfl⟩
  have sized := sized_create testBytes
  obtain ⟨number, counted, sent⟩ := getBytes_eq sized (by decide) faults
  obtain ⟨_, same, _, covers, tight⟩ := numberOfChunks_spec sized (by decide)
  rw [counted] at same
  cases same
  rw [sent] at written
  by_cases small : testBytes.elements.length ≤ 64000
  · rw [body_small sized rfl small] at written
    cases written
  · rw [body_large sized (Nat.lt_of_not_le small)] at written
    rcases sendLoop_outcome sized (by decide) covers tight with
      ⟨_, whole⟩ | ⟨count, _, _, part⟩
    · rw [whole] at written
      exact piece _ written
    · rw [part] at written
      exact piece count written

section
variable (lengths : coding.Lengths)

include lengths

theorem length_writeTo_chunk {chunk : Chunk} (short : chunk.chunkBytes.length ≤ 64000)
    (last : chunk.lastChunk = false) : (Chunk.writeTo coding chunk).length ≤ 64006 := by
  have counted := length_varint_le 5 (show chunk.chunkBytes.length < 128 ^ (2 + 1) by omega)
  have written := lengths.length_bytes (Nat.lt_of_le_of_lt short (by decide))
  have bytes : ([10] ++ coding.bytes.write chunk.chunkBytes).length =
      1 + (coding.bytes.write chunk.chunkBytes).length := List.length_append
  have flag : ([24] ++ coding.bool.write chunk.firstChunk).length = 2 := by
    rw [List.length_append, lengths.bool]
    rfl
  have first := length_present_le (chunk.chunkBytes.length != 0)
    ([10] ++ coding.bytes.write chunk.chunkBytes)
  have second := length_present_le (chunk.firstChunk != false)
    ([24] ++ coding.bool.write chunk.firstChunk)
  rw [Chunk.writeTo, last, if_neg (show ¬ (false != false) = true by decide), List.append_nil,
    List.length_append]
  omega

theorem length_writeTo_fullFile {file : FullFile} (nonempty : file.allBytes ≠ [])
    (fits : Fits file.allBytes) : (FullFile.writeTo coding file).length =
      1 + ((varint 5 file.allBytes.length).length + file.allBytes.length) := by
  have present : (file.allBytes.length != 0) = true := by simpa using nonempty
  unfold FullFile.writeTo
  rw [if_pos present, List.length_append, lengths.length_bytes fits]
  rfl

theorem fullFile_serialized_iff (testBytes : ManagedArray UInt8) :
    (∃ bytes, (marshallerFullFile coding).serializer
        (RouteGuideImpl.create testBytes).getAllBytes = .ok bytes) ↔
      testBytes.elements.length ≤ 2147483585 := by
  have bound := testBytes.length_lt
  constructor
  · rintro ⟨bytes, serialized⟩
    obtain ⟨rfl, small⟩ := FullFile.describes.toByteArray_eq_ok.mp serialized
    by_contra above
    have large : 128 ^ 4 ≤ testBytes.elements.length := by omega
    have nonempty : testBytes.elements ≠ [] := by
      intro empty
      rw [empty, List.length_nil] at above
      omega
    have counted := le_length_varint (show 4 < 5 by decide) large
    have whole := @length_writeTo_fullFile _ lengths ⟨testBytes.elements⟩ nonempty bound
    change (FullFile.writeTo coding ⟨testBytes.elements⟩).length ≤ maxLength at small
    unfold maxLength at small
    dsimp only at whole
    omega
  · intro below
    refine ⟨_, FullFile.describes.toByteArray_eq_ok.mpr ⟨rfl, ?_⟩⟩
    change (FullFile.writeTo coding ⟨testBytes.elements⟩).length ≤ maxLength
    by_cases empty : testBytes.elements = []
    · rw [empty]
      exact Nat.zero_le _
    · have counted := length_varint_le 5 (show testBytes.elements.length < 128 ^ (4 + 1) by omega)
      have whole := @length_writeTo_fullFile _ lengths ⟨testBytes.elements⟩ empty bound
      unfold maxLength
      dsimp only at whole
      omega

end

/-- A file that arrives whole in chunks could have been sent in one message. -/
theorem fits_of_received {testBytes : ManagedArray UInt8} {faults : Faults}
    (received : RouteGuideClient.getBytes ((RouteGuideImpl.create testBytes).getBytes faults) =
      .ok testBytes.elements) : testBytes.elements.length ≤ 2147483585 := by
  have whole := Except.ok.inj ((received_create testBytes faults).symm.trans received)
  rcases (whole_iff (sized_create testBytes) (by decide) rfl faults).mp whole with
    empty | ⟨_, every⟩
  · have none : testBytes.elements = [] := empty
    rw [none]
    exact Nat.zero_le _
  · have fits := (ends_fit_iff testBytes.elements.length).mp fun k inside => (every k inside).1
    exact Nat.le_trans fits (by decide)

/-- Every chunk is serialized in few bytes, whatever the file and its faults. One
message takes longer files than the chunks ever do, and not the longest. -/
theorem carried_both_ways (lengths : coding.Lengths) (testBytes : ManagedArray UInt8)
    (faults : Faults) :
    (∀ chunk ∈ ((RouteGuideImpl.create testBytes).getBytes faults).written,
      ∃ bytes, (marshallerChunk coding).serializer chunk = .ok bytes ∧
        bytes.length ≤ 64006 ∧ (marshallerChunk coding).deserializer bytes = some chunk) ∧
    ((∃ bytes, (marshallerFullFile coding).serializer
        (RouteGuideImpl.create testBytes).getAllBytes = .ok bytes) ↔
      testBytes.elements.length ≤ 2147483585) ∧
    (RouteGuideClient.getBytes ((RouteGuideImpl.create testBytes).getBytes faults) =
        .ok testBytes.elements →
      ∃ bytes, (marshallerFullFile coding).serializer
        (RouteGuideImpl.create testBytes).getAllBytes = .ok bytes) := by
  have serialized_iff := fullFile_serialized_iff lengths testBytes
  refine ⟨?_, serialized_iff, fun received => serialized_iff.mpr (fits_of_received received)⟩
  intro chunk written
  obtain ⟨short, last⟩ := written_short written
  have length := length_writeTo_chunk lengths short last
  have serialized : (marshallerChunk coding).serializer chunk = .ok (Chunk.writeTo coding chunk) :=
    Chunk.describes.toByteArray_eq_ok.mpr ⟨rfl, Nat.le_trans length (by decide)⟩
  exact ⟨_, serialized, length, Chunk.describes.parseFrom_toByteArray trivial serialized⟩

theorem carried_both_ways_zeros :
    (∀ chunk ∈ ((RouteGuideImpl.create (zeros 64001 (by decide))).getBytes noFault).written,
      ∃ bytes, (marshallerChunk Base128.coding).serializer chunk = .ok bytes ∧
        bytes.length ≤ 64006) ∧
    ∃ bytes, (marshallerFullFile Base128.coding).serializer
      (RouteGuideImpl.create (zeros 64001 (by decide))).getAllBytes = .ok bytes := by
  obtain ⟨chunks, whole, _⟩ := carried_both_ways Base128.lengths (zeros 64001 (by decide)) noFault
  constructor
  · intro chunk written
    obtain ⟨bytes, serialized, short, _⟩ := chunks chunk written
    exact ⟨bytes, serialized, short⟩
  · exact whole.mpr (by rw [elements_zeros, List.length_replicate]; decide)

end RouteGuide
end BenchmarkHost
