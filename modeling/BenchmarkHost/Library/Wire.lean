import BenchmarkHost.Library.Fields
import BenchmarkHost.Library.Managed
import Mathlib.Logic.Basic

/-! Messages of tagged fields.

A coding says how each kind of value is written, measured and read; a message
type is written field by field and read back by a switch over tags. Sizes are
32-bit numbers, and what is longer than they can count is outside the format.
-/

set_option autoImplicit false

namespace Library

/-- The bytes can be counted by a 32-bit number. -/
def Fits (bytes : List UInt8) : Prop := bytes.length < 2 ^ 31

instance (bytes : List UInt8) : Decidable (Fits bytes) := inferInstanceAs (Decidable (_ < _))

/-- The size is that of the bytes, unless there are too many. -/
def Measures (size : Int32) (bytes : List UInt8) : Prop :=
  Fits bytes → size = Int32.ofNat bytes.length

theorem Fits.left {first second : List UInt8} (fits : Fits (first ++ second)) : Fits first := by
  rw [Fits, List.length_append] at fits
  exact Nat.lt_of_le_of_lt (Nat.le_add_right _ _) fits

theorem Fits.right {first second : List UInt8} (fits : Fits (first ++ second)) : Fits second := by
  rw [Fits, List.length_append] at fits
  exact Nat.lt_of_le_of_lt (Nat.le_add_left _ _) fits

theorem Fits.of_length_le {bytes : List UInt8} (small : bytes.length ≤ maxLength) : Fits bytes :=
  Nat.lt_of_le_of_lt small (by decide)

theorem Fits.present {present : Bool} {bytes : List UInt8}
    (fits : Fits (if present then bytes else [])) (written : present = true) : Fits bytes := by
  rwa [if_pos written] at fits

namespace Measures

theorem zero : Measures 0 [] := fun _ => rfl

theorem append {first second : List UInt8} {size other : Int32} (measures : Measures size first)
    (rest : Measures other second) : Measures (size + other) (first ++ second) := by
  intro fits
  rw [measures fits.left, rest fits.right, List.length_append, Int32.ofNat_add]

end Measures

/-- A way to write, measure and read one kind of value. -/
structure Format (Value : Type) extends Reader Value where
  write : Value → List UInt8
  size : Value → Int32
  measures : ∀ value, Measures (size value) (write value)
  reads : ∀ value, Fits (write value) → toReader.Reads (write value) value

/-- A number in groups of seven bits, the lowest first. -/
def varint : Nat → Nat → List UInt8
  | 0, _ => []
  | groups + 1, value =>
    if value < 128 then [UInt8.ofNat value]
    else UInt8.ofNat (value % 128 + 128) :: varint groups (value / 128)

/-- What a generated message uses of the streams it is written to and read from. -/
structure Coding where
  tag : TagReader
  int32 : Format Int32
  bool : Format Bool
  string : Format String
  bytes : Format (List UInt8)
  -- The length in front of a message.
  writeLength : Int32 → List UInt8
  computeLengthSize : Int32 → Int32
  -- Reads and drops a field whose tag no case selects.
  skip : UInt32 → Reader Unit
  tag_reads : ∀ number : UInt32, 8 ≤ number → tag.Reads (varint 5 number.toNat) number
  bool_size : ∀ value, bool.size value = 1
  length_measures : ∀ length, Measures (computeLengthSize length) (writeLength length)
  -- A message is written as the bytes that it consists of.
  delimited : ∀ payload, Fits payload →
    bytes.write payload = writeLength (Int32.ofNat payload.length) ++ payload

/-- A message type as it is generated: the switch of its reading loop is `select`. -/
structure MessageType (Message : Type) where
  new : Message
  writeTo : Message → List UInt8
  calculateSize : Message → Int32
  select : UInt32 → Message → Reader Message

/-- An array of the message's size that writing the message has to fill. -/
def MessageType.toByteArray {Message : Type} (type : MessageType Message) (message : Message) :
    Except RuntimeException (List UInt8) := do
  -- `ToByteArray` writes into the array and checks that no space is left.
  ManagedArray.allocate (type.calculateSize message)
  if (type.writeTo message).length = (type.calculateSize message).toNatClampNeg then
    return type.writeTo message
  else .error .invalidOperation

section
variable {Message Value : Type}

theorem unless_default [BEq Value] [LawfulBEq Value] (value default : Value) :
    (if value != default then value else default) = value := by
  split
  · rfl
  · rename_i same
    exact (by simpa using same : value = default).symm

theorem unless_empty (text : String) : (if text.length != 0 then text else "") = text := by
  split
  · rfl
  · rename_i empty
    have length : text.length = 0 := by simpa using empty
    exact (String.length_eq_zero_iff.mp length).symm

theorem unless_nil (values : List Value) :
    (if values.length != 0 then values else []) = values := by
  split
  · rfl
  · rename_i empty
    have length : values.length = 0 := by simpa using empty
    exact (List.length_eq_zero_iff.mp length).symm

def optional (present : Bool) (field : TaggedField Message) : List (TaggedField Message) :=
  if present then [field] else []

theorem optional_bytes (present : Bool) (field : TaggedField Message) :
    (optional present field).flatMap TaggedField.bytes =
      if present then field.tag ++ field.body else [] := by
  cases present with
  | false => rfl
  | true => exact List.append_nil _

theorem length_present_le (present : Bool) (bytes : List UInt8) :
    (if present then bytes else []).length ≤ bytes.length := by
  cases present with
  | false => exact Nat.zero_le _
  | true => exact Nat.le_refl _

theorem mem_optional {present : Bool} {field other : TaggedField Message} :
    other ∈ optional present field ↔ present = true ∧ other = field := by
  cases present <;> simp [optional]

theorem mem_elim {chosen : Option Value} {field : Value → TaggedField Message}
    {other : TaggedField Message} :
    other ∈ (chosen.elim [] fun value => [field value]) ↔
      ∃ value, chosen = some value ∧ other = field value := by
  cases chosen <;> simp

@[simp] theorem actAll_optional (present : Bool) (field : TaggedField Message) (message : Message) :
    actAll (optional present field) message =
      if present then field.act message else message := by
  cases present <;> rfl

def Format.field (format : Format Value) (tag : List UInt8) (slot : Slot Message Value)
    (value : Value) : TaggedField Message :=
  ⟨tag, format.write value, slot.put value⟩

namespace Measures

theorem optional {present : Bool} {size : Int32} {bytes : List UInt8}
    (measures : Measures size bytes) :
    Measures (if present then size else 0) (if present then bytes else []) := by
  cases present with
  | false => exact zero
  | true => exact measures

theorem tagged {tag bytes : List UInt8} {size count : Int32}
    (length : Int32.ofNat tag.length = count) (measures : Measures size bytes) :
    Measures (count + size) (tag ++ bytes) :=
  append (fun _ => length.symm) measures

end Measures

namespace Coding
variable (coding : Coding) (type : MessageType Message)

def mergeFrom (message : Message) (input : List UInt8) : Option Message :=
  mergeFields coding.tag type.select message input

def parseFrom (input : List UInt8) : Option Message := coding.mergeFrom type type.new input

def writeMessage (message : Message) : List UInt8 :=
  coding.writeLength (type.calculateSize message) ++ type.writeTo message

def computeMessageSize (message : Message) : Int32 :=
  let size := type.calculateSize message
  coding.computeLengthSize size + size

def readMessage (builder : Message) : Reader Message :=
  coding.bytes.through (coding.mergeFrom type builder)

/-- A field that holds a message: it is read into what the builder starts from. -/
def messageField {Outer : Type} (fields : Message → List (TaggedField Message)) (tag : List UInt8)
    (builder : Outer → Message) (put : Message → Outer → Outer) (message : Message) :
    TaggedField Outer :=
  ⟨tag, coding.writeMessage type message,
    fun outer => put (actAll (fields message) (builder outer)) outer⟩

/-- A part of a message is written as these fields, and each is read as it was
written. -/
structure Part (select : UInt32 → Message → Reader Message) (valid : Message → Prop)
    (fields : Message → List (TaggedField Message)) (bytes : Message → List UInt8)
    (size : Message → Int32) : Prop where
  written : ∀ message, bytes message = (fields message).flatMap TaggedField.bytes
  measures : ∀ message, Measures (size message) (bytes message)
  acts : ∀ message, valid message → Fits (bytes message) →
    ∀ field ∈ fields message, field.Acts coding.tag select

/-- A message type is written as these fields, and they rebuild the message. -/
structure Describes (valid : Message → Prop) (fields : Message → List (TaggedField Message)) : Prop
    extends coding.Part type.select valid fields type.writeTo type.calculateSize where
  rebuilt : ∀ message, actAll (fields message) type.new = message

namespace Part
variable {coding} {select : UInt32 → Message → Reader Message} {valid : Message → Prop}
  {fields others : Message → List (TaggedField Message)} {bytes more : Message → List UInt8}
  {size extra : Message → Int32}

theorem append (first : coding.Part select valid fields bytes size)
    (second : coding.Part select valid others more extra) :
    coding.Part select valid (fun message => fields message ++ others message)
      (fun message => bytes message ++ more message)
      (fun message => size message + extra message) := by
  constructor
  case written =>
    intro message
    rw [List.flatMap_append, first.written, second.written]
  case measures =>
    intro message
    exact (first.measures message).append (second.measures message)
  case acts =>
    intro message good fits field member
    rcases List.mem_append.mp member with own | other
    · exact first.acts message good fits.left field own
    · exact second.acts message good fits.right field other

theorem resize (part : coding.Part select valid fields bytes size)
    (same : ∀ message, extra message = size message) :
    coding.Part select valid fields bytes extra where
  written := part.written
  measures message := (same message).symm ▸ part.measures message
  acts := part.acts

theorem optional {present : Message → Bool} {field : Message → TaggedField Message}
    {tag : List UInt8} {count : Int32} (counted : Int32.ofNat tag.length = count)
    (tagged : ∀ message, (field message).tag = tag)
    (measures : ∀ message, Measures (size message) (field message).body)
    (acts : ∀ message, valid message → Fits (field message).bytes →
      (field message).Acts coding.tag select) :
    coding.Part select valid (fun message => Library.optional (present message) (field message))
      (fun message => if present message then tag ++ (field message).body else [])
      (fun message => if present message then count + size message else 0) := by
  constructor
  case written =>
    intro message
    rw [optional_bytes, tagged]
  case measures =>
    intro message
    exact ((measures message).tagged counted).optional
  case acts =>
    intro message good fits other member
    obtain ⟨present, rfl⟩ := mem_optional.mp member
    apply acts message good
    rw [TaggedField.bytes, tagged]
    exact fits.present present

theorem value {format : Format Value} {slot : Slot Message Value} {present : Message → Bool}
    {tag : List UInt8} {count : Int32} (number : UInt32) (spelled : tag = varint 5 number.toNat)
    (counted : Int32.ofNat tag.length = count) (large : 8 ≤ number)
    (selected : ∀ message, select number message =
      format.through fun value => some (slot.put value message)) :
    coding.Part select valid
      (fun message => Library.optional (present message) (format.field tag slot (slot.get message)))
      (fun message => if present message then tag ++ format.write (slot.get message) else [])
      (fun message => if present message then count + format.size (slot.get message) else 0) := by
  apply optional counted (fun _ => rfl) (fun message => format.measures (slot.get message))
  intro message good fits
  refine ⟨number, ?_, fun other => ?_⟩
  · rw [Format.field, spelled]
    exact coding.tag_reads number large
  · rw [selected]
    exact Reader.through_reads (format.reads (slot.get message) fits.right) rfl

end Part

variable {coding type}

/-- What every field keeps, a nested message keeps. -/
theorem readMessage_invariant {good : Message → Prop}
    (kept : ∀ {number message body next}, (type.select number message).Reads body next →
      good message → good next) {builder message : Message} {body : List UInt8}
    (reads : (coding.readMessage type builder).Reads body message) (start : good builder) :
    good message := by
  obtain ⟨payload, _, merged⟩ := Reader.of_through_reads reads
  exact mergeFields_invariant kept merged start

namespace Describes
variable {valid : Message → Prop} {fields : Message → List (TaggedField Message)}
  (describes : coding.Describes type valid fields)

include describes

theorem mergeFrom_writeTo {other : Message} (good : valid other)
    (fits : Fits (type.writeTo other)) (message : Message) :
    coding.mergeFrom type message (type.writeTo other) = some (actAll (fields other) message) := by
  rw [mergeFrom, describes.written]
  exact mergeFields_fields (describes.acts other good fits) message

theorem parseFrom_writeTo {message : Message} (good : valid message)
    (fits : Fits (type.writeTo message)) :
    coding.parseFrom type (type.writeTo message) = some message := by
  rw [parseFrom, describes.mergeFrom_writeTo good fits, describes.rebuilt]

theorem mergeFrom_flatMap {messages : List Message} (good : ∀ other ∈ messages, valid other)
    (fits : ∀ other ∈ messages, Fits (type.writeTo other)) (message : Message) :
    coding.mergeFrom type message (messages.flatMap type.writeTo) =
      some (messages.foldl (fun message other => actAll (fields other) message) message) := by
  induction messages generalizing message with
  | nil => exact mergeFields_nil message
  | cons first rest ih =>
    have read := describes.mergeFrom_writeTo (good first List.mem_cons_self)
      (fits first List.mem_cons_self) message
    rw [List.flatMap_cons, mergeFrom, mergeFields_append read, List.foldl_cons]
    exact ih (fun other member => good other (List.mem_cons_of_mem first member))
      (fun other member => fits other (List.mem_cons_of_mem first member)) _

/-- A part of the bytes of a message is accepted when it ends between two fields. -/
theorem parseFrom_truncated {message last : Message} (good : valid message)
    (fits : Fits (type.writeTo message)) {front back : List UInt8}
    (cut : front ++ back = type.writeTo message)
    (accepted : coding.parseFrom type front = some last) :
    ∃ count, front = ((fields message).take count).flatMap TaggedField.bytes ∧
      last = actAll ((fields message).take count) type.new := by
  rw [describes.written] at cut
  exact mergeFields_truncated (describes.acts message good fits) cut accepted

/-- The bytes fill an array of the computed size whenever there can be one. -/
theorem toByteArray_eq_ok {message : Message} {bytes : List UInt8} :
    type.toByteArray message = .ok bytes ↔
      bytes = type.writeTo message ∧ bytes.length ≤ maxLength := by
  unfold MessageType.toByteArray
  constructor
  · intro serialized
    cases allocated : ManagedArray.allocate (type.calculateSize message) with
    | error raised =>
      rw [allocated] at serialized
      cases serialized
    | ok allowed =>
      rw [allocated] at serialized
      change (if _ then Except.ok (type.writeTo message) else _) = _ at serialized
      -- The array was allocated with the computed size, so its length bounds the bytes.
      split at serialized
      · rename_i filled
        cases serialized
        have small := ((ManagedArray.allocate_eq_ok _).mp allocated).2
        rw [← Int32.toNat_toInt] at filled
        exact ⟨rfl, by omega⟩
      · cases serialized
  · rintro ⟨rfl, small⟩
    have fits : Fits (type.writeTo message) := .of_length_le small
    have length : (Int32.ofNat (type.writeTo message).length).toInt =
        (type.writeTo message).length := Int32.toInt_ofNat_of_lt fits
    rw [describes.measures message fits]
    have allocated : ManagedArray.allocate (Int32.ofNat (type.writeTo message).length) = .ok () := by
      rw [ManagedArray.allocate_eq_ok, length]
      omega
    have filled : (type.writeTo message).length =
        (Int32.ofNat (type.writeTo message).length).toNatClampNeg := by
      rw [← Int32.toNat_toInt, length, Int.toNat_natCast]
    rw [allocated]
    exact if_pos filled

theorem parseFrom_toByteArray {message : Message} (good : valid message) {bytes : List UInt8}
    (serialized : type.toByteArray message = .ok bytes) :
    coding.parseFrom type bytes = some message := by
  obtain ⟨rfl, small⟩ := describes.toByteArray_eq_ok.mp serialized
  exact describes.parseFrom_writeTo good (.of_length_le small)

theorem writeMessage_eq {message : Message} (fits : Fits (type.writeTo message)) :
    coding.writeMessage type message = coding.bytes.write (type.writeTo message) := by
  rw [writeMessage, describes.measures message fits, coding.delimited _ fits]

theorem readMessage_reads {message : Message} (good : valid message)
    (fits : Fits (coding.writeMessage type message)) (builder : Message) :
    (coding.readMessage type builder).Reads (coding.writeMessage type message)
      (actAll (fields message) builder) := by
  have inner : Fits (type.writeTo message) := Fits.right fits
  rw [describes.writeMessage_eq inner] at fits ⊢
  exact Reader.through_reads (coding.bytes.reads _ fits)
    (describes.mergeFrom_writeTo good inner builder)

theorem message_measures (message : Message) :
    Measures (coding.computeMessageSize type message) (coding.writeMessage type message) :=
  (coding.length_measures _).append (describes.measures message)

theorem messageField_acts {Outer : Type} {select : UInt32 → Outer → Reader Outer}
    {builder : Outer → Message} {put : Message → Outer → Outer} {tag : List UInt8}
    (number : UInt32) (spelled : tag = varint 5 number.toNat) (large : 8 ≤ number)
    (selected : ∀ outer, select number outer =
      (coding.readMessage type (builder outer)).through fun value => some (put value outer))
    {message : Message} (good : valid message) (fits : Fits (coding.writeMessage type message)) :
    (coding.messageField type fields tag builder put message).Acts coding.tag select := by
  refine ⟨number, ?_, fun outer => ?_⟩
  · rw [messageField, spelled]
    exact coding.tag_reads number large
  · rw [selected]
    exact Reader.through_reads (describes.readMessage_reads good fits (builder outer)) rfl

theorem part {Outer : Type} {select : UInt32 → Outer → Reader Outer} {good : Outer → Prop}
    {choose : Outer → Option Message} {builder : Outer → Message} {put : Message → Outer → Outer}
    {tag : List UInt8} {count : Int32} (number : UInt32) (spelled : tag = varint 5 number.toNat)
    (counted : Int32.ofNat tag.length = count) (large : 8 ≤ number)
    (selected : ∀ outer, select number outer =
      (coding.readMessage type (builder outer)).through fun value => some (put value outer))
    (nested : ∀ outer, good outer → ∀ message, choose outer = some message → valid message) :
    coding.Part select good
      (fun outer => (choose outer).elim [] fun message =>
        [coding.messageField type fields tag builder put message])
      (fun outer => (choose outer).elim [] fun message => tag ++ coding.writeMessage type message)
      (fun outer => (choose outer).elim 0 fun message =>
        count + coding.computeMessageSize type message) := by
  constructor
  case written =>
    intro outer
    cases choose outer with
    | none => rfl
    | some message => exact (List.append_nil _).symm
  case measures =>
    intro outer
    cases choose outer with
    | none => exact .zero
    | some message => exact (describes.message_measures message).tagged counted
  case acts =>
    intro outer whole fits field member
    cases chosen : choose outer with
    | none =>
      rw [chosen] at member
      cases member
    | some message =>
      rw [chosen] at member fits
      obtain rfl := List.mem_singleton.mp member
      exact describes.messageField_acts number spelled large selected
        (nested outer whole message chosen) (Fits.right fits)

end Describes
end Coding
end
end Library
