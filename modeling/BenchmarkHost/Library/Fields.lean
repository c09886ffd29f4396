import BenchmarkHost.Library.Reader

/-! Messages read field by field.

A field is a tag and a body; the tag selects what reads the body into the
message. Fields are read until the input is used up.
-/

set_option autoImplicit false

namespace Library

structure TagReader extends Reader UInt32 where
  progress : read [] = none

/-- Read fields into a message, each by the reader its tag selects. -/
def mergeFields {Message : Type} (tag : TagReader) (select : UInt32 → Message → Reader Message)
    (message : Message) (input : List UInt8) : Option Message :=
  match input with
  | [] => some message
  | byte :: others =>
    match _found : tag.read (byte :: others) with
    | none => none
    | some (number, body) =>
      match _parsed : (select number message).read body with
      | none => none
      | some (next, rest) => mergeFields tag select next rest
termination_by input.length
decreasing_by
  obtain ⟨front, same, reads⟩ := tag.taken _found
  obtain ⟨back, rfl, _⟩ := (select number message).taken _parsed
  have length := congrArg List.length same
  cases front with
  | nil =>
    have empty := reads []
    rw [List.append_nil, tag.progress] at empty
    cases empty
  | cons head tail =>
    simp only [List.length_cons, List.length_append] at length ⊢
    omega

structure Slot (Message Part : Type) where
  get : Message → Part
  put : Part → Message → Message
  put_get : ∀ message, put (get message) message = message := by intros; rfl
  get_put : ∀ part message, get (put part message) = part := by intros; rfl
  put_put : ∀ part other message, put part (put other message) = put part message := by
    intros; rfl

/-- A field as it is written, and what reading it does to a message. -/
structure TaggedField (Message : Type) where
  tag : List UInt8
  body : List UInt8
  act : Message → Message

section
variable {Message : Type}

def TaggedField.bytes (field : TaggedField Message) : List UInt8 := field.tag ++ field.body

def actAll (fields : List (TaggedField Message)) (message : Message) : Message :=
  fields.foldl (fun message field => field.act message) message

@[simp] theorem actAll_nil (message : Message) : actAll [] message = message := rfl

@[simp] theorem actAll_cons (field : TaggedField Message) (fields : List (TaggedField Message))
    (message : Message) :
    actAll (field :: fields) message = actAll fields (field.act message) := rfl

@[simp] theorem actAll_append (first second : List (TaggedField Message)) (message : Message) :
    actAll (first ++ second) message = actAll second (actAll first message) :=
  List.foldl_append

theorem actAll_preserves {Shown : Type} {shown : Message → Shown} {fields : List (TaggedField Message)}
    (same : ∀ field ∈ fields, ∀ message, shown (field.act message) = shown message)
    (message : Message) : shown (actAll fields message) = shown message := by
  induction fields generalizing message with
  | nil => rfl
  | cons field rest ih =>
    rw [actAll_cons, ih fun other member => same other (List.mem_cons_of_mem field member)]
    exact same field List.mem_cons_self message

section
variable {Shown : Type} {shown : Message → Shown}

/-- What is shown of a message is read into what is shown of it. -/
def Respects (shown : Message → Shown) (field : TaggedField Message) : Prop :=
  ∀ message other, shown message = shown other → shown (field.act message) = shown (field.act other)

theorem actAll_respects {fields : List (TaggedField Message)}
    (respects : ∀ field ∈ fields, Respects shown field) {message other : Message}
    (same : shown message = shown other) :
    shown (actAll fields message) = shown (actAll fields other) := by
  induction fields generalizing message other with
  | nil => exact same
  | cons field rest ih =>
    have first := respects field List.mem_cons_self message other same
    exact ih (fun later member => respects later (List.mem_cons_of_mem field member)) first

/-- Fields that do not disturb each other may come in any order. -/
theorem actAll_perm {fields shuffled : List (TaggedField Message)} (same : fields.Perm shuffled)
    (respects : ∀ field ∈ fields, Respects shown field)
    (commute : ∀ first ∈ fields, ∀ second ∈ fields, ∀ message,
      shown (second.act (first.act message)) = shown (first.act (second.act message)))
    (message : Message) : shown (actAll fields message) = shown (actAll shuffled message) := by
  induction same generalizing message with
  | nil => rfl
  | cons field _ ih =>
    apply ih
    · exact fun other member => respects other (List.mem_cons_of_mem field member)
    · exact fun first one second two =>
        commute first (List.mem_cons_of_mem field one) second (List.mem_cons_of_mem field two)
  | swap first second rest =>
    have later : ∀ field ∈ rest, Respects shown field := fun field member =>
      respects field (List.mem_cons_of_mem second (List.mem_cons_of_mem first member))
    apply actAll_respects later
    exact commute second List.mem_cons_self first (List.mem_cons_of_mem second List.mem_cons_self)
      message
  -- The hypotheses are about members, so they carry over to the shuffled list.
  | trans before _ ih ih' =>
    rw [ih respects commute]
    apply ih'
    · exact fun field member => respects field (before.mem_iff.mpr member)
    · exact fun first one second two =>
        commute first (before.mem_iff.mpr one) second (before.mem_iff.mpr two)

end

variable (tag : TagReader) (select : UInt32 → Message → Reader Message)

def TaggedField.Acts (field : TaggedField Message) : Prop :=
  ∃ number, tag.Reads field.tag number ∧
    ∀ message, (select number message).Reads field.body (field.act message)

inductive Merges : Message → List UInt8 → Message → Prop
  | stop (message : Message) : Merges message [] message
  | field {message next last : Message} {front body rest : List UInt8} {number : UInt32}
      (tagged : tag.Reads front number) (parsed : (select number message).Reads body next)
      (later : Merges next rest last) : Merges message (front ++ (body ++ rest)) last

variable {tag select}

theorem TagReader.ne_nil {front : List UInt8} {number : UInt32}
    (tagged : tag.Reads front number) : front ≠ [] := by
  rintro rfl
  have empty := tagged.alone
  rw [tag.progress] at empty
  cases empty

theorem mergeFields_nil (message : Message) :
    mergeFields tag select message [] = some message := by
  rw [mergeFields]

theorem mergeFields_field {message next : Message} {front body : List UInt8} {number : UInt32}
    (tagged : tag.Reads front number) (parsed : (select number message).Reads body next)
    (rest : List UInt8) :
    mergeFields tag select message (front ++ (body ++ rest)) =
      mergeFields tag select next rest := by
  -- The loop is unfolded once; its reads are the ones that are given.
  have found := tagged (body ++ rest)
  have nonempty := List.append_ne_nil_of_left_ne_nil (tag.ne_nil tagged) (body ++ rest)
  obtain ⟨byte, others, same⟩ := List.exists_cons_of_ne_nil nonempty
  rw [same] at found ⊢
  rw [mergeFields]
  split
  · rename_i none
    rw [found] at none
    cases none
  · rename_i other input read
    rw [found] at read
    cases read
    split
    · rename_i none
      rw [parsed] at none
      cases none
    · rename_i after remaining read
      rw [parsed] at read
      cases read
      rfl

theorem mergeFields_eq_some {message last : Message} {input : List UInt8} :
    mergeFields tag select message input = some last ↔ Merges tag select message input last := by
  constructor
  · intro accepted
    fun_induction mergeFields tag select message input with
    | case1 message =>
      cases accepted
      exact .stop last
    | case2 message byte others => cases accepted
    | case3 message byte others => cases accepted
    | case4 message byte others number body found next rest parsed ih =>
      obtain ⟨front, same, tagged⟩ := tag.taken found
      obtain ⟨back, rfl, reads⟩ := (select number message).taken parsed
      rw [same]
      exact .field tagged reads (ih accepted)
  · intro merges
    induction merges with
    | stop message => exact mergeFields_nil message
    | field tagged parsed _ ih => rw [mergeFields_field tagged parsed, ih]

theorem mergeFields_append {message middle : Message} {first : List UInt8}
    (accepted : mergeFields tag select message first = some middle) (second : List UInt8) :
    mergeFields tag select message (first ++ second) = mergeFields tag select middle second := by
  induction mergeFields_eq_some.mp accepted with
  | stop message => rfl
  | field tagged parsed later ih =>
    rw [List.append_assoc, List.append_assoc, mergeFields_field tagged parsed]
    exact ih (mergeFields_eq_some.mpr later)

theorem mergeFields_invariant {good : Message → Prop}
    (kept : ∀ {number message body next}, (select number message).Reads body next →
      good message → good next) {message last : Message} {input : List UInt8}
    (accepted : mergeFields tag select message input = some last) (start : good message) :
    good last := by
  induction mergeFields_eq_some.mp accepted with
  | stop message => exact start
  | field tagged parsed later ih =>
    exact ih (mergeFields_eq_some.mpr later) (kept parsed start)

theorem mergeFields_fields {fields : List (TaggedField Message)}
    (acts : ∀ field ∈ fields, field.Acts tag select) (message : Message) :
    mergeFields tag select message (fields.flatMap TaggedField.bytes) =
      some (actAll fields message) := by
  induction fields generalizing message with
  | nil => exact mergeFields_nil message
  | cons field rest ih =>
    obtain ⟨number, tagged, reads⟩ := acts field List.mem_cons_self
    rw [List.flatMap_cons, TaggedField.bytes, List.append_assoc,
      mergeFields_field tagged (reads message), actAll_cons]
    exact ih (fun other member => acts other (List.mem_cons_of_mem field member)) _

/-- A truncated sequence of fields is accepted between two fields only. -/
theorem mergeFields_truncated {fields : List (TaggedField Message)}
    (acts : ∀ field ∈ fields, field.Acts tag select) {message last : Message}
    {front back : List UInt8} (cut : front ++ back = fields.flatMap TaggedField.bytes)
    (accepted : mergeFields tag select message front = some last) :
    ∃ count, front = (fields.take count).flatMap TaggedField.bytes ∧
      last = actAll (fields.take count) message := by
  induction mergeFields_eq_some.mp accepted generalizing fields with
  | stop message => exact ⟨0, rfl, rfl⟩
  | @field message next last front body rest number tagged parsed later ih =>
    cases fields with
    | nil =>
      have empty := (List.append_eq_nil_iff.mp cut).1
      exact absurd (List.append_eq_nil_iff.mp empty).1 (tag.ne_nil tagged)
    | cons first others =>
      obtain ⟨same, tagged', reads⟩ := acts first List.mem_cons_self
      have aligned : front ++ ((body ++ rest) ++ back) =
          first.tag ++ (first.body ++ others.flatMap TaggedField.bytes) := by
        rw [← List.append_assoc, cut, List.flatMap_cons, TaggedField.bytes, List.append_assoc]
      -- What was accepted in front of the cut is the first field as it was written.
      obtain ⟨rfl, bodies⟩ := tagged.unique tagged' aligned
      rw [List.append_assoc] at bodies
      obtain ⟨rfl, remaining⟩ := parsed.unique (reads message) bodies
      obtain ⟨count, whole, result⟩ := ih
        (fun other member => acts other (List.mem_cons_of_mem first member)) remaining
        (mergeFields_eq_some.mpr later)
      refine ⟨count + 1, ?_, result⟩
      -- The tag and the body stand in front of the same remaining bytes.
      have spelled : front ++ (body ++ rest) ++ back = TaggedField.bytes first ++ rest ++ back := by
        rw [cut, List.flatMap_cons, ← remaining, List.append_assoc]
      rw [List.append_cancel_right spelled, List.take_succ_cons, List.flatMap_cons, ← whole]

end
end Library
