import BenchmarkHost.Library.Wire

/-! Fields that no case of a message selects.

A field of another version of the message is dropped, or it is kept and written
back after the fields that are known.
-/

set_option autoImplicit false

namespace Library

/-- A field that can be passed over without knowing it. -/
structure UnknownField (coding : Coding) where
  tag : UInt32
  body : List UInt8
  large : 8 ≤ tag
  skipped : (coding.skip tag).Reads body ()

/-- What a generated message uses of a set of fields it does not know. -/
structure UnknownFieldSet (coding : Coding) (Kept : Type) where
  empty : Kept
  -- The fields in the order in which they are written.
  fields : Kept → List (UnknownField coding)
  add : Kept → UnknownField coding → Kept
  calculateSize : Kept → Int32
  mergeFieldFrom : UInt32 → Kept → Reader Kept
  fields_empty : fields empty = []
  rebuilt : ∀ kept, (fields kept).foldl add empty = kept
  measures : ∀ kept, Measures (calculateSize kept)
    ((fields kept).flatMap fun field => varint 5 field.tag.toNat ++ field.body)
  reads : ∀ field kept, (mergeFieldFrom field.tag kept).Reads field.body (add kept field)
  tags : ∀ {number kept body next}, (mergeFieldFrom number kept).Reads body next →
    ∀ field ∈ fields next, field.tag = number ∨ ∃ old ∈ fields kept, old.tag = field.tag

/-- No field of the set is one that these tags select. -/
def UnknownFieldSet.Foreign {coding : Coding} {Kept : Type} (unknown : UnknownFieldSet coding Kept)
    (known : List UInt32) (kept : Kept) : Prop :=
  ∀ field ∈ unknown.fields kept, field.tag ∉ known

instance {coding : Coding} {Kept : Type} (unknown : UnknownFieldSet coding Kept)
    (known : List UInt32) (kept : Kept) : Decidable (unknown.Foreign known kept) :=
  inferInstanceAs (Decidable (∀ field ∈ unknown.fields kept, field.tag ∉ known))

section
variable {coding : Coding} {Message : Type}

def UnknownField.dropped (field : UnknownField coding) : TaggedField Message :=
  ⟨varint 5 field.tag.toNat, field.body, id⟩

theorem UnknownField.dropped_acts {select : UInt32 → Message → Reader Message}
    (field : UnknownField coding)
    (selected : ∀ message, select field.tag message =
      (coding.skip field.tag).through fun _ => some message) :
    TaggedField.Acts coding.tag select field.dropped := by
  refine ⟨field.tag, coding.tag_reads field.tag field.large, fun message => ?_⟩
  rw [selected]
  exact Reader.through_reads field.skipped rfl

theorem actAll_dropped (others : List (UnknownField coding)) (message : Message) :
    actAll (others.map UnknownField.dropped) message = message := by
  induction others with
  | nil => rfl
  | cons field rest ih => exact ih

/-- A message type whose fields may come in any order, and which drops every
field with a tag that is not known to it. -/
structure Coding.Tolerates {Shown : Type} (coding : Coding) (type : MessageType Message)
    (fields : Message → List (TaggedField Message)) (known : List UInt32)
    (shown : Message → Shown) : Prop where
  dropped : ∀ number ∉ known, ∀ message,
    type.select number message = (coding.skip number).through fun _ => some message
  respects : ∀ message, ∀ field ∈ fields message, Respects shown field
  commutes : ∀ message, ∀ first ∈ fields message, ∀ second ∈ fields message, ∀ other,
    shown (second.act (first.act other)) = shown (first.act (second.act other))

/-- The fields of a message and any unknown ones, in any order, are read as the
message. -/
theorem Coding.Tolerates.parseFrom_shuffled {Shown : Type} {type : MessageType Message}
    {valid : Message → Prop} {fields : Message → List (TaggedField Message)}
    {known : List UInt32} {shown : Message → Shown}
    (tolerates : coding.Tolerates type fields known shown)
    (describes : coding.Describes type valid fields) {message : Message} (good : valid message)
    (fits : Fits (type.writeTo message)) {others : List (UnknownField coding)}
    (unknown : ∀ field ∈ others, field.tag ∉ known) {shuffled : List (TaggedField Message)}
    (same : (fields message ++ others.map UnknownField.dropped).Perm shuffled) :
    ∃ read, coding.parseFrom type (shuffled.flatMap TaggedField.bytes) = some read ∧
      shown read = shown message := by
  have acts : ∀ field ∈ fields message ++ others.map UnknownField.dropped,
      field.Acts coding.tag type.select := by
    intro field member
    rcases List.mem_append.mp member with own | foreign
    · exact describes.acts message good fits field own
    · obtain ⟨other, listed, rfl⟩ := List.mem_map.mp foreign
      exact other.dropped_acts (tolerates.dropped other.tag (unknown other listed))
  have silent : ∀ field ∈ (others.map UnknownField.dropped : List (TaggedField Message)),
      field.act = id := by
    intro field member
    obtain ⟨other, _, rfl⟩ := List.mem_map.mp member
    rfl
  have rebuilt : actAll (fields message ++ others.map UnknownField.dropped) type.new = message := by
    rw [actAll_append, actAll_dropped, describes.rebuilt]
  have moved : shown (actAll (fields message ++ others.map UnknownField.dropped) type.new) =
      shown (actAll shuffled type.new) := by
    apply actAll_perm same
    · intro field member
      rcases List.mem_append.mp member with own | foreign
      · exact tolerates.respects message field own
      · intro first second agree
        rwa [silent field foreign]
    · intro first one second two other
      rcases List.mem_append.mp one with own | foreign
      · rcases List.mem_append.mp two with ownToo | foreignToo
        · exact tolerates.commutes message first own second ownToo other
        · rw [silent second foreignToo]
          rfl
      · rw [silent first foreign]
        rfl
  refine ⟨actAll shuffled type.new, ?_, moved.symm.trans (congrArg shown rebuilt)⟩
  exact mergeFields_fields (fun field member => acts field (same.mem_iff.mpr member)) _

end

namespace UnknownFieldSet
variable {coding : Coding} {Kept Message : Type} (unknown : UnknownFieldSet coding Kept)
  (slot : Slot Message Kept)

def writeTo (kept : Kept) : List UInt8 :=
  (unknown.fields kept).flatMap fun field => varint 5 field.tag.toNat ++ field.body

def mergeFrom (kept other : Kept) : Kept := (unknown.fields other).foldl unknown.add kept

def keep (kept : Kept) : List (TaggedField Message) :=
  (unknown.fields kept).map fun field =>
    ⟨varint 5 field.tag.toNat, field.body,
      fun message => slot.put (unknown.add (slot.get message) field) message⟩

theorem empty_mergeFrom (kept : Kept) : unknown.mergeFrom unknown.empty kept = kept :=
  unknown.rebuilt kept

theorem foreign_empty (known : List UInt32) : unknown.Foreign known unknown.empty := by
  intro field member
  rw [unknown.fields_empty] at member
  cases member

theorem Foreign.read {known : List UInt32} {kept next : Kept} {number : UInt32}
    {body : List UInt8} (foreign : unknown.Foreign known kept) (other : number ∉ known)
    (reads : (unknown.mergeFieldFrom number kept).Reads body next) :
    unknown.Foreign known next := by
  intro field member
  rcases unknown.tags reads field member with same | ⟨old, earlier, same⟩
  · rw [same]
    exact other
  · rw [← same]
    exact foreign old earlier

theorem keep_bytes (kept : Kept) :
    (unknown.keep slot kept).flatMap TaggedField.bytes = unknown.writeTo kept := by
  rw [keep, List.flatMap_map]
  rfl

variable {unknown slot}

theorem part {select : UInt32 → Message → Reader Message} {known : List UInt32}
    {valid : Message → Prop}
    (selected : ∀ number ∉ known, ∀ message, select number message =
      (unknown.mergeFieldFrom number (slot.get message)).through fun kept =>
        some (slot.put kept message))
    (foreign : ∀ message, valid message → unknown.Foreign known (slot.get message)) :
    coding.Part select valid (fun message => unknown.keep slot (slot.get message))
      (fun message => unknown.writeTo (slot.get message))
      (fun message => unknown.calculateSize (slot.get message)) := by
  constructor
  case written => exact fun message => (unknown.keep_bytes slot _).symm
  case measures => exact fun message => unknown.measures (slot.get message)
  case acts =>
    intro message good _ field member
    obtain ⟨old, earlier, rfl⟩ := List.mem_map.mp member
    refine ⟨old.tag, coding.tag_reads old.tag old.large, fun other => ?_⟩
    rw [selected old.tag (foreign message good old earlier)]
    exact Reader.through_reads (unknown.reads old (slot.get other)) rfl

theorem actAll_keep (kept : Kept) (message : Message) :
    actAll (unknown.keep slot kept) message =
      slot.put (unknown.mergeFrom (slot.get message) kept) message := by
  unfold keep mergeFrom
  generalize unknown.fields kept = fields
  induction fields generalizing message with
  | nil => exact (slot.put_get message).symm
  | cons field rest ih =>
    rw [List.map_cons, actAll_cons, ih, slot.get_put, slot.put_put, List.foldl_cons]

end UnknownFieldSet
end Library
