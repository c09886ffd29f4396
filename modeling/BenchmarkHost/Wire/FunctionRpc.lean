import BenchmarkHost.Library.UnknownFields
import BenchmarkHost.Messages

/-! The messages of the `FunctionRpc` service as they are generated.

Each has the object merge and the reading loop of its own; fields that no case
of the loop selects are kept and written back last.
-/

set_option autoImplicit false

namespace BenchmarkHost.Wire

open Library

structure StartStream (Kept : Type) where
  workerId : String
  unknownFields : Kept
  deriving DecidableEq

structure InvocationRequest (Kept : Type) where
  invocationId : String
  functionId : String
  unknownFields : Kept
  deriving DecidableEq

structure InvocationResponse (Kept : Type) where
  invocationId : String
  result : String
  unknownFields : Kept
  deriving DecidableEq

inductive Content (Kept : Type) where
  | none
  | startStream : StartStream Kept → Content Kept
  | invocationRequest : InvocationRequest Kept → Content Kept
  | invocationResponse : InvocationResponse Kept → Content Kept
  deriving DecidableEq

structure StreamingMessage (Kept : Type) where
  requestId : String
  content : Content Kept
  unknownFields : Kept
  deriving DecidableEq

section
variable {Kept : Type} (coding : Coding) (unknown : UnknownFieldSet coding Kept)

/-! ### `StartStream` -/

namespace StartStream

def new : StartStream Kept := ⟨"", unknown.empty⟩

def writeTo (message : StartStream Kept) : List UInt8 :=
  (if message.workerId.length != 0 then
    [18] ++ coding.string.write message.workerId else []) ++
  unknown.writeTo message.unknownFields

def calculateSize (message : StartStream Kept) : Int32 :=
  (if message.workerId.length != 0 then
    1 + coding.string.size message.workerId else 0) +
  unknown.calculateSize message.unknownFields

def select (number : UInt32) (message : StartStream Kept) : Reader (StartStream Kept) :=
  match number with
  | 18 => coding.string.through fun value => some { message with workerId := value }
  | other =>
    (unknown.mergeFieldFrom other message.unknownFields).through fun kept =>
      some { message with unknownFields := kept }

def mergeFrom (message other : StartStream Kept) : StartStream Kept where
  workerId := if other.workerId.length != 0 then other.workerId else message.workerId
  unknownFields := unknown.mergeFrom message.unknownFields other.unknownFields

def type : MessageType (StartStream Kept) where
  new := new coding unknown
  writeTo := writeTo coding unknown
  calculateSize := calculateSize coding unknown
  select := select coding unknown

/-- The unknown fields are none that a case of the loop selects. -/
def WellFormed (message : StartStream Kept) : Prop := unknown.Foreign [18] message.unknownFields

def workerIdSlot : Slot (StartStream Kept) String where
  get := (·.workerId)
  put value message := { message with workerId := value }

def unknownSlot : Slot (StartStream Kept) Kept where
  get := (·.unknownFields)
  put kept message := { message with unknownFields := kept }

def fields (message : StartStream Kept) : List (TaggedField (StartStream Kept)) :=
  optional (message.workerId.length != 0)
    (coding.string.field [18] workerIdSlot message.workerId) ++
  unknown.keep unknownSlot message.unknownFields

variable {coding unknown}

theorem actAll_fields (message other : StartStream Kept) :
    actAll (fields coding unknown other) message = mergeFrom coding unknown message other := by
  rw [fields, actAll_append, actAll_optional, UnknownFieldSet.actAll_keep]
  unfold mergeFrom
  split <;> rfl

theorem new_mergeFrom (message : StartStream Kept) :
    mergeFrom coding unknown (new coding unknown) message = message := by
  simp only [mergeFrom, new, unless_empty, unknown.empty_mergeFrom]

theorem select_unknown {number : UInt32} (other : number ∉ [18]) (message : StartStream Kept) :
    select coding unknown number message =
      (unknown.mergeFieldFrom number message.unknownFields).through fun kept =>
        some (unknownSlot.put kept message) := by
  unfold select
  split
  · exact absurd (List.mem_singleton.mpr rfl) other
  · rfl

theorem select_wellFormed {number : UInt32} {message next : StartStream Kept}
    {body : List UInt8} (reads : (select coding unknown number message).Reads body next)
    (good : message.WellFormed coding unknown) : next.WellFormed coding unknown := by
  unfold select at reads
  split at reads
  · obtain ⟨value, _, same⟩ := Reader.of_through_reads reads
    exact Option.some.inj same ▸ good
  · obtain ⟨kept, merged, same⟩ := Reader.of_through_reads reads
    rw [← Option.some.inj same]
    exact UnknownFieldSet.Foreign.read unknown good (by simp_all) merged

theorem describes : coding.Describes (type coding unknown) (WellFormed coding unknown)
    (fields coding unknown) where
  toPart := .append (.value 18 (by decide) rfl (by decide) fun _ => rfl)
    (UnknownFieldSet.part (fun _ other => select_unknown other) fun _ good => good)
  rebuilt message := (actAll_fields _ message).trans (new_mergeFrom message)

end StartStream

/-! ### `InvocationRequest` -/

namespace InvocationRequest

def new : InvocationRequest Kept := ⟨"", "", unknown.empty⟩

def writeTo (message : InvocationRequest Kept) : List UInt8 :=
  (if message.invocationId.length != 0 then
    [10] ++ coding.string.write message.invocationId else []) ++
  (if message.functionId.length != 0 then
    [18] ++ coding.string.write message.functionId else []) ++
  unknown.writeTo message.unknownFields

def calculateSize (message : InvocationRequest Kept) : Int32 :=
  (if message.invocationId.length != 0 then
    1 + coding.string.size message.invocationId else 0) +
  (if message.functionId.length != 0 then
    1 + coding.string.size message.functionId else 0) +
  unknown.calculateSize message.unknownFields

def select (number : UInt32) (message : InvocationRequest Kept) : Reader (InvocationRequest Kept) :=
  match number with
  | 10 => coding.string.through fun value => some { message with invocationId := value }
  | 18 => coding.string.through fun value => some { message with functionId := value }
  | other =>
    (unknown.mergeFieldFrom other message.unknownFields).through fun kept =>
      some { message with unknownFields := kept }

def mergeFrom (message other : InvocationRequest Kept) : InvocationRequest Kept where
  invocationId :=
    if other.invocationId.length != 0 then other.invocationId else message.invocationId
  functionId := if other.functionId.length != 0 then other.functionId else message.functionId
  unknownFields := unknown.mergeFrom message.unknownFields other.unknownFields

def type : MessageType (InvocationRequest Kept) where
  new := new coding unknown
  writeTo := writeTo coding unknown
  calculateSize := calculateSize coding unknown
  select := select coding unknown

def WellFormed (message : InvocationRequest Kept) : Prop :=
  unknown.Foreign [10, 18] message.unknownFields

def invocationIdSlot : Slot (InvocationRequest Kept) String where
  get := (·.invocationId)
  put value message := { message with invocationId := value }

def functionIdSlot : Slot (InvocationRequest Kept) String where
  get := (·.functionId)
  put value message := { message with functionId := value }

def unknownSlot : Slot (InvocationRequest Kept) Kept where
  get := (·.unknownFields)
  put kept message := { message with unknownFields := kept }

def fields (message : InvocationRequest Kept) : List (TaggedField (InvocationRequest Kept)) :=
  optional (message.invocationId.length != 0)
    (coding.string.field [10] invocationIdSlot message.invocationId) ++
  optional (message.functionId.length != 0)
    (coding.string.field [18] functionIdSlot message.functionId) ++
  unknown.keep unknownSlot message.unknownFields

variable {coding unknown}

theorem actAll_fields (message other : InvocationRequest Kept) :
    actAll (fields coding unknown other) message = mergeFrom coding unknown message other := by
  rw [fields, actAll_append, actAll_append, actAll_optional, actAll_optional,
    UnknownFieldSet.actAll_keep]
  unfold mergeFrom
  split <;> split <;> rfl

theorem new_mergeFrom (message : InvocationRequest Kept) :
    mergeFrom coding unknown (new coding unknown) message = message := by
  simp only [mergeFrom, new, unless_empty, unknown.empty_mergeFrom]

theorem select_unknown {number : UInt32} (other : number ∉ [10, 18])
    (message : InvocationRequest Kept) :
    select coding unknown number message =
      (unknown.mergeFieldFrom number message.unknownFields).through fun kept =>
        some (unknownSlot.put kept message) := by
  unfold select
  split
  · simp at other
  · simp at other
  · rfl

theorem select_wellFormed {number : UInt32} {message next : InvocationRequest Kept}
    {body : List UInt8} (reads : (select coding unknown number message).Reads body next)
    (good : message.WellFormed coding unknown) : next.WellFormed coding unknown := by
  unfold select at reads
  split at reads
  · obtain ⟨value, _, same⟩ := Reader.of_through_reads reads
    exact Option.some.inj same ▸ good
  · obtain ⟨value, _, same⟩ := Reader.of_through_reads reads
    exact Option.some.inj same ▸ good
  · obtain ⟨kept, merged, same⟩ := Reader.of_through_reads reads
    rw [← Option.some.inj same]
    exact UnknownFieldSet.Foreign.read unknown good (by simp_all) merged

theorem describes : coding.Describes (type coding unknown) (WellFormed coding unknown)
    (fields coding unknown) where
  toPart := .append
    (.append (.value 10 (by decide) rfl (by decide) fun _ => rfl)
      (.value 18 (by decide) rfl (by decide) fun _ => rfl))
    (UnknownFieldSet.part (fun _ other => select_unknown other) fun _ good => good)
  rebuilt message := (actAll_fields _ message).trans (new_mergeFrom message)

end InvocationRequest

/-! ### `InvocationResponse` -/

namespace InvocationResponse

def new : InvocationResponse Kept := ⟨"", "", unknown.empty⟩

def writeTo (message : InvocationResponse Kept) : List UInt8 :=
  (if message.invocationId.length != 0 then
    [10] ++ coding.string.write message.invocationId else []) ++
  (if message.result.length != 0 then
    [26] ++ coding.string.write message.result else []) ++
  unknown.writeTo message.unknownFields

def calculateSize (message : InvocationResponse Kept) : Int32 :=
  (if message.invocationId.length != 0 then
    1 + coding.string.size message.invocationId else 0) +
  (if message.result.length != 0 then
    1 + coding.string.size message.result else 0) +
  unknown.calculateSize message.unknownFields

def select (number : UInt32) (message : InvocationResponse Kept) :
    Reader (InvocationResponse Kept) :=
  match number with
  | 10 => coding.string.through fun value => some { message with invocationId := value }
  | 26 => coding.string.through fun value => some { message with result := value }
  | other =>
    (unknown.mergeFieldFrom other message.unknownFields).through fun kept =>
      some { message with unknownFields := kept }

def mergeFrom (message other : InvocationResponse Kept) : InvocationResponse Kept where
  invocationId :=
    if other.invocationId.length != 0 then other.invocationId else message.invocationId
  result := if other.result.length != 0 then other.result else message.result
  unknownFields := unknown.mergeFrom message.unknownFields other.unknownFields

def type : MessageType (InvocationResponse Kept) where
  new := new coding unknown
  writeTo := writeTo coding unknown
  calculateSize := calculateSize coding unknown
  select := select coding unknown

def WellFormed (message : InvocationResponse Kept) : Prop :=
  unknown.Foreign [10, 26] message.unknownFields

def invocationIdSlot : Slot (InvocationResponse Kept) String where
  get := (·.invocationId)
  put value message := { message with invocationId := value }

def resultSlot : Slot (InvocationResponse Kept) String where
  get := (·.result)
  put value message := { message with result := value }

def unknownSlot : Slot (InvocationResponse Kept) Kept where
  get := (·.unknownFields)
  put kept message := { message with unknownFields := kept }

def fields (message : InvocationResponse Kept) : List (TaggedField (InvocationResponse Kept)) :=
  optional (message.invocationId.length != 0)
    (coding.string.field [10] invocationIdSlot message.invocationId) ++
  optional (message.result.length != 0)
    (coding.string.field [26] resultSlot message.result) ++
  unknown.keep unknownSlot message.unknownFields

variable {coding unknown}

theorem actAll_fields (message other : InvocationResponse Kept) :
    actAll (fields coding unknown other) message = mergeFrom coding unknown message other := by
  rw [fields, actAll_append, actAll_append, actAll_optional, actAll_optional,
    UnknownFieldSet.actAll_keep]
  unfold mergeFrom
  split <;> split <;> rfl

theorem new_mergeFrom (message : InvocationResponse Kept) :
    mergeFrom coding unknown (new coding unknown) message = message := by
  simp only [mergeFrom, new, unless_empty, unknown.empty_mergeFrom]

theorem select_unknown {number : UInt32} (other : number ∉ [10, 26])
    (message : InvocationResponse Kept) :
    select coding unknown number message =
      (unknown.mergeFieldFrom number message.unknownFields).through fun kept =>
        some (unknownSlot.put kept message) := by
  unfold select
  split
  · simp at other
  · simp at other
  · rfl

theorem select_wellFormed {number : UInt32} {message next : InvocationResponse Kept}
    {body : List UInt8} (reads : (select coding unknown number message).Reads body next)
    (good : message.WellFormed coding unknown) : next.WellFormed coding unknown := by
  unfold select at reads
  split at reads
  · obtain ⟨value, _, same⟩ := Reader.of_through_reads reads
    exact Option.some.inj same ▸ good
  · obtain ⟨value, _, same⟩ := Reader.of_through_reads reads
    exact Option.some.inj same ▸ good
  · obtain ⟨kept, merged, same⟩ := Reader.of_through_reads reads
    rw [← Option.some.inj same]
    exact UnknownFieldSet.Foreign.read unknown good (by simp_all) merged

theorem describes : coding.Describes (type coding unknown) (WellFormed coding unknown)
    (fields coding unknown) where
  toPart := .append
    (.append (.value 10 (by decide) rfl (by decide) fun _ => rfl)
      (.value 26 (by decide) rfl (by decide) fun _ => rfl))
    (UnknownFieldSet.part (fun _ other => select_unknown other) fun _ good => good)
  rebuilt message := (actAll_fields _ message).trans (new_mergeFrom message)

end InvocationResponse

/-! ### `StreamingMessage` -/

namespace StreamingMessage

def startStream (message : StreamingMessage Kept) : Option (StartStream Kept) :=
  match message.content with
  | .startStream content => some content
  | _ => none

def invocationRequest (message : StreamingMessage Kept) : Option (InvocationRequest Kept) :=
  match message.content with
  | .invocationRequest content => some content
  | _ => none

def invocationResponse (message : StreamingMessage Kept) : Option (InvocationResponse Kept) :=
  match message.content with
  | .invocationResponse content => some content
  | _ => none

def new : StreamingMessage Kept := ⟨"", .none, unknown.empty⟩

def writeTo (message : StreamingMessage Kept) : List UInt8 :=
  (if message.requestId.length != 0 then
    [10] ++ coding.string.write message.requestId else []) ++
  ((message.invocationRequest.elim [] fun content =>
      [34] ++ coding.writeMessage (InvocationRequest.type coding unknown) content) ++
    (message.invocationResponse.elim [] fun content =>
      [42] ++ coding.writeMessage (InvocationResponse.type coding unknown) content) ++
    (message.startStream.elim [] fun content =>
      [162, 1] ++ coding.writeMessage (StartStream.type coding unknown) content)) ++
  unknown.writeTo message.unknownFields

def calculateSize (message : StreamingMessage Kept) : Int32 :=
  (if message.requestId.length != 0 then
    1 + coding.string.size message.requestId else 0) +
  (message.startStream.elim 0 fun content =>
    2 + coding.computeMessageSize (StartStream.type coding unknown) content) +
  (message.invocationRequest.elim 0 fun content =>
    1 + coding.computeMessageSize (InvocationRequest.type coding unknown) content) +
  (message.invocationResponse.elim 0 fun content =>
    1 + coding.computeMessageSize (InvocationResponse.type coding unknown) content) +
  unknown.calculateSize message.unknownFields

/-- A new message, or a copy of the content when it is of the case that is read. -/
def requestBuilder (message : StreamingMessage Kept) : InvocationRequest Kept :=
  message.invocationRequest.elim (InvocationRequest.new coding unknown)
    (InvocationRequest.mergeFrom coding unknown (InvocationRequest.new coding unknown))

def responseBuilder (message : StreamingMessage Kept) : InvocationResponse Kept :=
  message.invocationResponse.elim (InvocationResponse.new coding unknown)
    (InvocationResponse.mergeFrom coding unknown (InvocationResponse.new coding unknown))

def startBuilder (message : StreamingMessage Kept) : StartStream Kept :=
  message.startStream.elim (StartStream.new coding unknown)
    (StartStream.mergeFrom coding unknown (StartStream.new coding unknown))

def select (number : UInt32) (message : StreamingMessage Kept) :
    Reader (StreamingMessage Kept) :=
  match number with
  | 10 => coding.string.through fun value => some { message with requestId := value }
  | 34 =>
    (coding.readMessage (InvocationRequest.type coding unknown)
      (requestBuilder coding unknown message)).through fun content =>
        some { message with content := .invocationRequest content }
  | 42 =>
    (coding.readMessage (InvocationResponse.type coding unknown)
      (responseBuilder coding unknown message)).through fun content =>
        some { message with content := .invocationResponse content }
  | 162 =>
    (coding.readMessage (StartStream.type coding unknown)
      (startBuilder coding unknown message)).through fun content =>
        some { message with content := .startStream content }
  | other =>
    (unknown.mergeFieldFrom other message.unknownFields).through fun kept =>
      some { message with unknownFields := kept }

/-- The content of another message is merged into content of the same case, and
replaces content of any other. -/
def mergeContent (message other : StreamingMessage Kept) : Content Kept :=
  match other.content with
  | .none => message.content
  | .startStream content =>
    .startStream ((message.startStream.getD (StartStream.new coding unknown)).mergeFrom
      coding unknown content)
  | .invocationRequest content =>
    .invocationRequest ((message.invocationRequest.getD (InvocationRequest.new coding unknown)
      ).mergeFrom coding unknown content)
  | .invocationResponse content =>
    .invocationResponse ((message.invocationResponse.getD (InvocationResponse.new coding unknown)
      ).mergeFrom coding unknown content)

def mergeFrom (message other : StreamingMessage Kept) : StreamingMessage Kept where
  requestId := if other.requestId.length != 0 then other.requestId else message.requestId
  content := mergeContent coding unknown message other
  unknownFields := unknown.mergeFrom message.unknownFields other.unknownFields

def type : MessageType (StreamingMessage Kept) where
  new := new coding unknown
  writeTo := writeTo coding unknown
  calculateSize := calculateSize coding unknown
  select := select coding unknown

def contentWellFormed : Content Kept → Prop
  | .none => True
  | .startStream content => content.WellFormed coding unknown
  | .invocationRequest content => content.WellFormed coding unknown
  | .invocationResponse content => content.WellFormed coding unknown

structure WellFormed (message : StreamingMessage Kept) : Prop where
  unknownFields : unknown.Foreign [10, 34, 42, 162] message.unknownFields
  content : contentWellFormed coding unknown message.content

instance : (content : Content Kept) → Decidable (contentWellFormed coding unknown content)
  | .none => .isTrue trivial
  | .startStream _ => inferInstanceAs (Decidable (unknown.Foreign _ _))
  | .invocationRequest _ => inferInstanceAs (Decidable (unknown.Foreign _ _))
  | .invocationResponse _ => inferInstanceAs (Decidable (unknown.Foreign _ _))

instance (message : StreamingMessage Kept) : Decidable (message.WellFormed coding unknown) :=
  decidable_of_iff (unknown.Foreign [10, 34, 42, 162] message.unknownFields ∧
      contentWellFormed coding unknown message.content)
    ⟨fun ⟨foreign, content⟩ => ⟨foreign, content⟩, fun ⟨foreign, content⟩ => ⟨foreign, content⟩⟩

def requestIdSlot : Slot (StreamingMessage Kept) String where
  get := (·.requestId)
  put value message := { message with requestId := value }

def unknownSlot : Slot (StreamingMessage Kept) Kept where
  get := (·.unknownFields)
  put kept message := { message with unknownFields := kept }

def setContent (content : Content Kept) (message : StreamingMessage Kept) :
    StreamingMessage Kept :=
  { message with content }

def contentFields (message : StreamingMessage Kept) : List (TaggedField (StreamingMessage Kept)) :=
  (message.invocationRequest.elim [] fun content =>
    [coding.messageField (InvocationRequest.type coding unknown)
      (InvocationRequest.fields coding unknown) [34] (requestBuilder coding unknown)
      (fun content => setContent (.invocationRequest content)) content]) ++
  (message.invocationResponse.elim [] fun content =>
    [coding.messageField (InvocationResponse.type coding unknown)
      (InvocationResponse.fields coding unknown) [42] (responseBuilder coding unknown)
      (fun content => setContent (.invocationResponse content)) content]) ++
  (message.startStream.elim [] fun content =>
    [coding.messageField (StartStream.type coding unknown)
      (StartStream.fields coding unknown) [162, 1] (startBuilder coding unknown)
      (fun content => setContent (.startStream content)) content])

def fields (message : StreamingMessage Kept) : List (TaggedField (StreamingMessage Kept)) :=
  optional (message.requestId.length != 0)
    (coding.string.field [10] requestIdSlot message.requestId) ++
  contentFields coding unknown message ++
  unknown.keep unknownSlot message.unknownFields

variable {coding unknown}

theorem requestBuilder_eq (message : StreamingMessage Kept) :
    requestBuilder coding unknown message =
      message.invocationRequest.getD (InvocationRequest.new coding unknown) := by
  unfold requestBuilder
  cases message.invocationRequest with
  | none => rfl
  | some content => exact InvocationRequest.new_mergeFrom content

theorem responseBuilder_eq (message : StreamingMessage Kept) :
    responseBuilder coding unknown message =
      message.invocationResponse.getD (InvocationResponse.new coding unknown) := by
  unfold responseBuilder
  cases message.invocationResponse with
  | none => rfl
  | some content => exact InvocationResponse.new_mergeFrom content

theorem startBuilder_eq (message : StreamingMessage Kept) : startBuilder coding unknown message =
    message.startStream.getD (StartStream.new coding unknown) := by
  unfold startBuilder
  cases message.startStream with
  | none => rfl
  | some content => exact StartStream.new_mergeFrom content

theorem actAll_contentFields (message other : StreamingMessage Kept) :
    actAll (contentFields coding unknown other) message =
      setContent (mergeContent coding unknown message other) message := by
  obtain ⟨requestId, content, kept⟩ := other
  cases content with
  | none => rfl
  | startStream content =>
    change setContent (.startStream (actAll (content.fields coding unknown)
      (startBuilder coding unknown message))) message = _
    rw [StartStream.actAll_fields, startBuilder_eq]
    rfl
  | invocationRequest content =>
    change setContent (.invocationRequest (actAll (content.fields coding unknown)
      (requestBuilder coding unknown message))) message = _
    rw [InvocationRequest.actAll_fields, requestBuilder_eq]
    rfl
  | invocationResponse content =>
    change setContent (.invocationResponse (actAll (content.fields coding unknown)
      (responseBuilder coding unknown message))) message = _
    rw [InvocationResponse.actAll_fields, responseBuilder_eq]
    rfl

theorem actAll_fields (message other : StreamingMessage Kept) :
    actAll (fields coding unknown other) message = mergeFrom coding unknown message other := by
  rw [fields, actAll_append, actAll_append, actAll_optional, UnknownFieldSet.actAll_keep,
    actAll_contentFields]
  unfold mergeFrom
  split <;> rfl

theorem new_mergeFrom (message : StreamingMessage Kept) :
    mergeFrom coding unknown (new coding unknown) message = message := by
  obtain ⟨requestId, content, kept⟩ := message
  have same : mergeContent coding unknown (new coding unknown) ⟨requestId, content, kept⟩ =
      content := by
    cases content with
    | none => rfl
    | startStream content => exact congrArg Content.startStream (StartStream.new_mergeFrom content)
    | invocationRequest content =>
      exact congrArg Content.invocationRequest (InvocationRequest.new_mergeFrom content)
    | invocationResponse content =>
      exact congrArg Content.invocationResponse (InvocationResponse.new_mergeFrom content)
  rw [mergeFrom, same]
  simp only [new, unless_empty, unknown.empty_mergeFrom]

theorem select_unknown {number : UInt32} (other : number ∉ [10, 34, 42, 162])
    (message : StreamingMessage Kept) :
    select coding unknown number message =
      (unknown.mergeFieldFrom number message.unknownFields).through fun kept =>
        some (unknownSlot.put kept message) := by
  unfold select
  split
  · simp at other
  · simp at other
  · simp at other
  · simp at other
  · rfl

theorem startStream_wellFormed {message : StreamingMessage Kept}
    (good : message.WellFormed coding unknown) {content : StartStream Kept}
    (present : message.startStream = some content) : content.WellFormed coding unknown := by
  obtain ⟨requestId, own, kept⟩ := message
  cases own with
  | startStream own => exact Option.some.inj present ▸ good.content
  | _ => cases present

theorem invocationRequest_wellFormed {message : StreamingMessage Kept}
    (good : message.WellFormed coding unknown) {content : InvocationRequest Kept}
    (present : message.invocationRequest = some content) : content.WellFormed coding unknown := by
  obtain ⟨requestId, own, kept⟩ := message
  cases own with
  | invocationRequest own => exact Option.some.inj present ▸ good.content
  | _ => cases present

theorem invocationResponse_wellFormed {message : StreamingMessage Kept}
    (good : message.WellFormed coding unknown) {content : InvocationResponse Kept}
    (present : message.invocationResponse = some content) : content.WellFormed coding unknown := by
  obtain ⟨requestId, own, kept⟩ := message
  cases own with
  | invocationResponse own => exact Option.some.inj present ▸ good.content
  | _ => cases present

theorem select_wellFormed {number : UInt32} {message next : StreamingMessage Kept}
    {body : List UInt8} (reads : (select coding unknown number message).Reads body next)
    (good : message.WellFormed coding unknown) : next.WellFormed coding unknown := by
  unfold select at reads
  split at reads
  · obtain ⟨value, _, same⟩ := Reader.of_through_reads reads
    exact Option.some.inj same ▸ ⟨good.unknownFields, good.content⟩
  · obtain ⟨content, nested, same⟩ := Reader.of_through_reads reads
    have whole : content.WellFormed coding unknown := by
      apply Coding.readMessage_invariant InvocationRequest.select_wellFormed nested
      rw [requestBuilder_eq]
      cases present : message.invocationRequest with
      | none => exact unknown.foreign_empty _
      | some earlier => exact invocationRequest_wellFormed good present
    exact Option.some.inj same ▸ ⟨good.unknownFields, whole⟩
  · obtain ⟨content, nested, same⟩ := Reader.of_through_reads reads
    have whole : content.WellFormed coding unknown := by
      apply Coding.readMessage_invariant InvocationResponse.select_wellFormed nested
      rw [responseBuilder_eq]
      cases present : message.invocationResponse with
      | none => exact unknown.foreign_empty _
      | some earlier => exact invocationResponse_wellFormed good present
    exact Option.some.inj same ▸ ⟨good.unknownFields, whole⟩
  · obtain ⟨content, nested, same⟩ := Reader.of_through_reads reads
    have whole : content.WellFormed coding unknown := by
      apply Coding.readMessage_invariant StartStream.select_wellFormed nested
      rw [startBuilder_eq]
      cases present : message.startStream with
      | none => exact unknown.foreign_empty _
      | some earlier => exact startStream_wellFormed good present
    exact Option.some.inj same ▸ ⟨good.unknownFields, whole⟩
  · obtain ⟨kept, merged, same⟩ := Reader.of_through_reads reads
    rw [← Option.some.inj same]
    have still := UnknownFieldSet.Foreign.read unknown good.unknownFields (by simp_all) merged
    exact ⟨still, good.content⟩

theorem new_wellFormed : (new coding unknown).WellFormed coding unknown where
  unknownFields := unknown.foreign_empty _
  content := trivial

theorem parseFrom_wellFormed {input : List UInt8} {message : StreamingMessage Kept}
    (accepted : coding.parseFrom (type coding unknown) input = some message) :
    message.WellFormed coding unknown :=
  mergeFields_invariant select_wellFormed accepted new_wellFormed

/-- The size is added up in another order than the fields are written in. -/
theorem size_order (requestId start request response unknown : Int32) :
    requestId + start + request + response + unknown =
      requestId + (request + response + start) + unknown := by
  ac_rfl

theorem describes : coding.Describes (type coding unknown) (WellFormed coding unknown)
    (fields coding unknown) where
  toPart := .resize
    (.append
      (.append (.value 10 (by decide) rfl (by decide) fun _ => rfl)
        (.append
          (.append
            (InvocationRequest.describes.part 34 (by decide) rfl (by decide) (fun _ => rfl)
              fun _ good _ => invocationRequest_wellFormed good)
            (InvocationResponse.describes.part 42 (by decide) rfl (by decide) (fun _ => rfl)
              fun _ good _ => invocationResponse_wellFormed good))
          (StartStream.describes.part 162 (by decide) rfl (by decide) (fun _ => rfl)
            fun _ good _ => startStream_wellFormed good)))
      (UnknownFieldSet.part (fun _ other => select_unknown other) fun _ good => good.unknownFields))
    fun _ => size_order _ _ _ _ _
  rebuilt message := (actAll_fields _ message).trans (new_mergeFrom message)

end StreamingMessage
end
end BenchmarkHost.Wire
