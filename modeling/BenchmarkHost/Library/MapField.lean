import BenchmarkHost.Library.Dictionary
import BenchmarkHost.Library.Wire

/-! Map fields of a message.

A map is written entry by entry, each with the tag of the field in front. An
entry that is read replaces what its key is bound to; one that is added is
refused where its key is bound. A dictionary whose entries are small messages
is such a map.
-/

set_option autoImplicit false

namespace Library

/-- How one kind of value is coded, and the tag in front of it. -/
structure FieldCodec (Value : Type) where
  number : UInt32
  format : Format Value
  large : 8 ≤ number

structure MapCodec (Key Value : Type) where
  key : FieldCodec Key
  value : FieldCodec Value
  -- The tag in front of each entry.
  number : UInt32
  large : 8 ≤ number
  distinct : key.number ≠ value.number

def FieldCodec.tag {Value : Type} (codec : FieldCodec Value) : List UInt8 :=
  varint 5 codec.number.toNat

def MapCodec.tag {Key Value : Type} (codec : MapCodec Key Value) : List UInt8 :=
  varint 5 codec.number.toNat

/-- What a generated message uses of its map fields. -/
structure MapField (coding : Coding) (Key Value Map : Type) [DecidableEq Key] where
  new : Map
  tryGetValue : Map → Key → Option Value
  -- The entries in the order in which they are enumerated.
  toList : Map → List (Key × Value)
  set : Map → Key → Value → Map
  add : Map → Key → Value → Option Map
  addAll : Map → Map → Option Map
  writeTo : MapCodec Key Value → Map → List UInt8
  writeEntry : MapCodec Key Value → Key × Value → List UInt8
  calculateSize : MapCodec Key Value → Map → Int32
  -- Reads the next entry. Where its tag comes again, a loop goes on with the one after it.
  addEntryFrom : MapCodec Key Value → Map → Reader Map
  mem_toList : ∀ {map key value}, (key, value) ∈ toList map ↔ tryGetValue map key = some value
  toList_nodup : ∀ map, ((toList map).map (·.1)).Nodup
  tryGetValue_set : ∀ map key value other, tryGetValue (set map key value) other =
    if other = key then some value else tryGetValue map other
  -- Entries stay in the order in which their keys were bound first.
  rebuilt : ∀ map, (toList map).foldl (fun built entry => set built entry.1 entry.2) new = map
  add_eq : ∀ map key value, add map key value =
    if (tryGetValue map key).isSome then none else some (set map key value)
  addAll_eq : ∀ map other, addAll map other =
    (toList other).foldlM (fun extended entry => add extended entry.1 entry.2) map
  written : ∀ codec map, writeTo codec map =
    (toList map).flatMap fun entry => codec.tag ++ writeEntry codec entry
  measures : ∀ codec map, Measures (calculateSize codec map) (writeTo codec map)
  reads : ∀ codec entry, Fits (writeEntry codec entry) → ∀ map,
    (addEntryFrom codec map).Reads (writeEntry codec entry) (set map entry.1 entry.2)

namespace MapField

section
variable {coding : Coding} {Key Value Map : Type} [DecidableEq Key]
  (maps : MapField coding Key Value Map)

def setAll (entries : List (Key × Value)) (map : Map) : Map :=
  entries.foldl (fun built entry => maps.set built entry.1 entry.2) map

def Disjoint (first second : Map) : Prop :=
  ∀ key, maps.tryGetValue first key = none ∨ maps.tryGetValue second key = none

theorem tryGetValue_set_congr {map other : Map}
    (same : maps.tryGetValue map = maps.tryGetValue other) (key : Key) (value : Value) :
    maps.tryGetValue (maps.set map key value) = maps.tryGetValue (maps.set other key value) := by
  funext searched
  rw [maps.tryGetValue_set, maps.tryGetValue_set, same]

variable {maps}

/-- The entries of one map may be bound in any order. -/
theorem tryGetValue_set_set {source : Map} {first second : Key × Value}
    (one : first ∈ maps.toList source) (two : second ∈ maps.toList source) (map : Map) :
    maps.tryGetValue (maps.set (maps.set map first.1 first.2) second.1 second.2) =
      maps.tryGetValue (maps.set (maps.set map second.1 second.2) first.1 first.2) := by
  funext key
  simp only [maps.tryGetValue_set]
  split
  · rename_i bound
    split
    · rename_i too
      rw [← maps.mem_toList.mp one, ← maps.mem_toList.mp two, ← bound, too]
    · rfl
  · rfl

theorem tryGetValue_setAll_absent {entries : List (Key × Value)} {key : Key}
    (absent : key ∉ entries.map (·.1)) (map : Map) :
    maps.tryGetValue (maps.setAll entries map) key = maps.tryGetValue map key := by
  induction entries generalizing map with
  | nil => rfl
  | cons entry rest ih =>
    rw [List.map_cons, List.mem_cons, not_or] at absent
    rw [setAll, List.foldl_cons]
    exact (ih absent.2 _).trans ((maps.tryGetValue_set _ _ _ _).trans (if_neg absent.1))

theorem tryGetValue_setAll_member {entries : List (Key × Value)}
    (distinct : (entries.map (·.1)).Nodup) {key : Key} {value : Value}
    (member : (key, value) ∈ entries) (map : Map) :
    maps.tryGetValue (maps.setAll entries map) key = some value := by
  induction entries generalizing map with
  | nil => cases member
  | cons entry rest ih =>
    obtain ⟨fresh, later⟩ := List.nodup_cons.mp distinct
    rw [setAll, List.foldl_cons]
    rcases List.mem_cons.mp member with rfl | listed
    -- Nothing binds the key again.
    · refine (tryGetValue_setAll_absent fresh _).trans ?_
      rw [maps.tryGetValue_set, if_pos rfl]
    · exact ih later listed _

theorem tryGetValue_setAll_toList (map other : Map) (key : Key) :
    maps.tryGetValue (maps.setAll (maps.toList other) map) key =
      (maps.tryGetValue other key).or (maps.tryGetValue map key) := by
  cases bound : maps.tryGetValue other key with
  | some value =>
    exact tryGetValue_setAll_member (maps.toList_nodup other) (maps.mem_toList.mpr bound) map
  | none =>
    refine tryGetValue_setAll_absent (fun listed => ?_) map
    obtain ⟨⟨_, value⟩, member, rfl⟩ := List.mem_map.mp listed
    rw [maps.mem_toList.mp member] at bound
    cases bound

/-- Distinct keys are added exactly when none of them is bound. -/
theorem foldlM_add_eq_some {entries : List (Key × Value)} (distinct : (entries.map (·.1)).Nodup)
    {map extended : Map} :
    entries.foldlM (fun built entry => maps.add built entry.1 entry.2) map = some extended ↔
      extended = maps.setAll entries map ∧
        ∀ entry ∈ entries, maps.tryGetValue map entry.1 = none := by
  induction entries generalizing map with
  | nil => simp [setAll, eq_comm]
  | cons entry rest ih =>
    obtain ⟨fresh, later⟩ := List.nodup_cons.mp distinct
    rw [List.foldlM_cons, List.forall_mem_cons, maps.add_eq]
    cases bound : maps.tryGetValue map entry.1 with
    | some value => simp
    | none =>
      have still : ∀ other ∈ rest, maps.tryGetValue (maps.set map entry.1 entry.2) other.1 =
          maps.tryGetValue map other.1 := by
        intro other member
        rw [maps.tryGetValue_set, if_neg]
        exact fun same => fresh (List.mem_map.mpr ⟨other, member, same⟩)
      change rest.foldlM _ (maps.set map entry.1 entry.2) = some extended ↔ _
      rw [ih later]
      constructor
      · rintro ⟨same, free⟩
        exact ⟨same, rfl, fun other member => still other member ▸ free other member⟩
      · rintro ⟨same, _, free⟩
        exact ⟨same, fun other member => (still other member).trans (free other member)⟩

theorem addAll_eq_some {map other extended : Map} :
    maps.addAll map other = some extended ↔
      extended = maps.setAll (maps.toList other) map ∧ maps.Disjoint map other := by
  rw [maps.addAll_eq, foldlM_add_eq_some (maps.toList_nodup other)]
  apply and_congr_right
  intro _
  constructor
  · intro free key
    cases bound : maps.tryGetValue other key with
    | none => exact .inr rfl
    | some value => exact .inl (free (key, value) (maps.mem_toList.mpr bound))
  · intro disjoint entry member
    rcases disjoint entry.1 with free | absent
    · exact free
    · rw [maps.mem_toList.mp member] at absent
      cases absent

/-! ### The entries as fields of a message -/

variable {Message : Type} {slot : Slot Message Map} {codec : MapCodec Key Value}

variable (maps slot codec) in
def fields (map : Map) : List (TaggedField Message) :=
  (maps.toList map).map fun entry =>
    ⟨codec.tag, maps.writeEntry codec entry,
      fun message => slot.put (maps.set (slot.get message) entry.1 entry.2) message⟩

theorem part {select : UInt32 → Message → Reader Message} {good : Message → Prop}
    (selected : ∀ message, select codec.number message =
      (maps.addEntryFrom codec (slot.get message)).through fun map =>
        some (slot.put map message)) :
    coding.Part select good (fun message => maps.fields slot codec (slot.get message))
      (fun message => maps.writeTo codec (slot.get message))
      (fun message => maps.calculateSize codec (slot.get message)) := by
  constructor
  case written =>
    intro message
    rw [maps.written, fields, List.flatMap_map]
    rfl
  case measures => exact fun message => maps.measures codec (slot.get message)
  case acts =>
    intro message _ fits field member
    obtain ⟨entry, listed, rfl⟩ := List.mem_map.mp member
    -- The entry is a part of what is written, so its length can be counted too.
    obtain ⟨before, after, split⟩ := List.append_of_mem listed
    rw [maps.written, split, List.flatMap_append, List.flatMap_cons] at fits
    refine ⟨codec.number, coding.tag_reads codec.number codec.large, fun other => ?_⟩
    rw [selected]
    exact Reader.through_reads
      (maps.reads codec entry fits.right.left.right (slot.get other)) rfl

theorem act_fields {map : Map} {field : TaggedField Message}
    (member : field ∈ maps.fields slot codec map) :
    ∃ entry ∈ maps.toList map, field.act =
      fun message => slot.put (maps.set (slot.get message) entry.1 entry.2) message := by
  obtain ⟨entry, listed, rfl⟩ := List.mem_map.mp member
  exact ⟨entry, listed, rfl⟩

theorem actAll_fields (map : Map) (message : Message) :
    actAll (maps.fields slot codec map) message =
      slot.put (maps.setAll (maps.toList map) (slot.get message)) message := by
  unfold fields setAll
  generalize maps.toList map = entries
  induction entries generalizing message with
  | nil => exact (slot.put_get message).symm
  | cons entry rest ih =>
    rw [List.map_cons, actAll_cons, ih, List.foldl_cons, slot.get_put, slot.put_put]

end

end MapField

/-! ### Dictionaries -/

namespace Dictionary

def keySlot {Key Value : Type} : Slot (Key × Value) Key where
  get := (·.1)
  put key entry := (key, entry.2)

def valueSlot {Key Value : Type} : Slot (Key × Value) Value where
  get := (·.2)
  put value entry := (entry.1, value)

variable {Key Value : Type} [DecidableEq Key] [DecidableEq Value] [Inhabited Key] [Inhabited Value]
  (coding : Coding)

/-- An entry as a message; a default is not written. -/
def entryType (codec : MapCodec Key Value) : MessageType (Key × Value) where
  new := (default, default)
  writeTo entry :=
    (if entry.1 != default then codec.key.tag ++ codec.key.format.write entry.1 else []) ++
    (if entry.2 != default then codec.value.tag ++ codec.value.format.write entry.2 else [])
  calculateSize entry :=
    (if entry.1 != default then
      Int32.ofNat codec.key.tag.length + codec.key.format.size entry.1 else 0) +
    (if entry.2 != default then
      Int32.ofNat codec.value.tag.length + codec.value.format.size entry.2 else 0)
  select number entry :=
    if number = codec.key.number then
      codec.key.format.through fun key => some (key, entry.2)
    else if number = codec.value.number then
      codec.value.format.through fun value => some (entry.1, value)
    else (coding.skip number).through fun _ => some entry

def entryFields (codec : MapCodec Key Value) (entry : Key × Value) :
    List (TaggedField (Key × Value)) :=
  optional (entry.1 != default) (codec.key.format.field codec.key.tag keySlot entry.1) ++
  optional (entry.2 != default) (codec.value.format.field codec.value.tag valueSlot entry.2)

variable {coding} {codec : MapCodec Key Value}

theorem entry_describes :
    coding.Describes (entryType coding codec) (fun _ => True) (entryFields codec) where
  toPart := .append
    (.value codec.key.number rfl rfl codec.key.large fun _ => if_pos rfl)
    (.value codec.value.number rfl rfl codec.value.large fun _ =>
      (if_neg codec.distinct.symm).trans (if_pos rfl))
  rebuilt entry := by
    obtain ⟨key, value⟩ := entry
    simp only [entryFields, actAll_append, actAll_optional]
    split <;> split <;> simp_all [entryType, Format.field, keySlot, valueSlot]

variable (coding) in
def mapField : MapField coding Key Value (Dictionary Key Value) where
  new := empty
  tryGetValue := tryGetValue
  toList := toList
  set := set
  add := add
  addAll dictionary other :=
    other.toList.foldlM (fun extended entry => extended.add entry.1 entry.2) dictionary
  writeTo codec dictionary := dictionary.toList.flatMap fun entry =>
    codec.tag ++ coding.writeMessage (entryType coding codec) entry
  writeEntry codec := coding.writeMessage (entryType coding codec)
  calculateSize codec dictionary := dictionary.toList.foldr
    (fun entry size =>
      (Int32.ofNat codec.tag.length + coding.computeMessageSize (entryType coding codec) entry) +
        size) 0
  addEntryFrom codec dictionary :=
    (coding.readMessage (entryType coding codec) (entryType coding codec).new).through fun entry =>
      some (dictionary.set entry.1 entry.2)
  mem_toList := mem_toList
  toList_nodup := toList_nodup
  tryGetValue_set dictionary key value other := dictionary.tryGetValue_set key other value
  rebuilt := foldl_set_toList
  add_eq dictionary key value := by
    unfold add
    cases dictionary.tryGetValue key <;> rfl
  addAll_eq _ _ := rfl
  written _ _ := rfl
  measures codec dictionary := by
    induction dictionary.toList with
    | nil => exact .zero
    | cons entry rest ih =>
      exact ((entry_describes.message_measures entry).tagged rfl).append ih
  reads codec entry fits dictionary := by
    have whole := entry_describes.readMessage_reads trivial fits (entryType coding codec).new
    rw [entry_describes.rebuilt] at whole
    exact Reader.through_reads whole rfl

end Dictionary
end Library
