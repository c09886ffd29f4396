import Mathlib.Data.List.AList

/-! Dictionaries with the operations of a mutable map.

The keys are distinct by construction. An operation that may refuse says so in
its result; the lookup laws below are all that later proofs use.
-/

set_option autoImplicit false

namespace Library

structure Dictionary (Key Value : Type) where
  entries : AList fun _ : Key => Value

namespace Dictionary
variable {Key Value : Type}

def empty : Dictionary Key Value := ⟨∅⟩

def keys (dictionary : Dictionary Key Value) : List Key := dictionary.entries.keys

theorem keys_nodup (dictionary : Dictionary Key Value) : dictionary.keys.Nodup :=
  dictionary.entries.keys_nodup

variable [DecidableEq Key]

def tryGetValue (dictionary : Dictionary Key Value) (key : Key) : Option Value :=
  dictionary.entries.lookup key

/-- Bind an absent key; a present key is refused. -/
def add (dictionary : Dictionary Key Value) (key : Key) (value : Value) :
    Option (Dictionary Key Value) :=
  match dictionary.tryGetValue key with
  | none => some ⟨dictionary.entries.insert key value⟩
  | some _ => none

/-- Bind an absent key; a present key keeps its value. -/
def tryAdd (dictionary : Dictionary Key Value) (key : Key) (value : Value) :
    Dictionary Key Value × Bool :=
  match dictionary.add key value with
  | some extended => (extended, true)
  | none => (dictionary, false)

def set (dictionary : Dictionary Key Value) (key : Key) (value : Value) : Dictionary Key Value :=
  ⟨dictionary.entries.insert key value⟩

def tryRemove (dictionary : Dictionary Key Value) (key : Key) :
    Dictionary Key Value × Option Value :=
  (⟨dictionary.entries.erase key⟩, dictionary.tryGetValue key)

def mapEntries (change : Key → Value → Value) (dictionary : Dictionary Key Value) :
    Dictionary Key Value :=
  ⟨⟨dictionary.entries.entries.map (.map id change), dictionary.entries.nodupKeys.map₂ change⟩⟩

/-- Update the value under one key in place; an absent key stays absent. -/
def modify (dictionary : Dictionary Key Value) (key : Key) (change : Value → Value) :
    Dictionary Key Value :=
  dictionary.mapEntries fun other value => if other = key then change value else value

/-- The bindings in the order in which they were added. -/
def toList (dictionary : Dictionary Key Value) : List (Key × Value) :=
  dictionary.entries.entries.reverse.map fun entry => (entry.1, entry.2)

def collect {Kept : Type} (dictionary : Dictionary Key Value)
    (choose : Key → Value → Option Kept) : List Kept :=
  dictionary.entries.entries.filterMap fun entry => choose entry.1 entry.2

theorem mem_keys {dictionary : Dictionary Key Value} {key : Key} :
    key ∈ dictionary.keys ↔ ∃ value, dictionary.tryGetValue key = some value := by
  rw [← Option.isSome_iff_exists]
  exact AList.lookup_isSome.symm

@[simp] theorem tryGetValue_empty (key : Key) :
    (empty : Dictionary Key Value).tryGetValue key = none :=
  AList.lookup_empty key

theorem tryGetValue_insert (dictionary : Dictionary Key Value) (key other : Key) (value : Value) :
    (⟨dictionary.entries.insert key value⟩ : Dictionary Key Value).tryGetValue other =
      if other = key then some value else dictionary.tryGetValue other := by
  by_cases same : other = key
  · subst other
    simp [tryGetValue]
  · simp [tryGetValue, same, AList.lookup_insert_ne same]

theorem add_eq_some {dictionary extended : Dictionary Key Value} {key : Key} {value : Value} :
    dictionary.add key value = some extended ↔
      dictionary.tryGetValue key = none ∧ extended = ⟨dictionary.entries.insert key value⟩ := by
  cases found : dictionary.tryGetValue key <;> simp [add, found, eq_comm]

theorem tryGetValue_add {dictionary extended : Dictionary Key Value} {key : Key} {value : Value}
    (added : dictionary.add key value = some extended) (other : Key) :
    extended.tryGetValue other =
      if other = key then some value else dictionary.tryGetValue other := by
  obtain ⟨_, rfl⟩ := add_eq_some.mp added
  exact tryGetValue_insert dictionary key other value

theorem tryAdd_absent {dictionary : Dictionary Key Value} {key : Key} {value : Value}
    (absent : dictionary.tryGetValue key = none) :
    dictionary.tryAdd key value = (⟨dictionary.entries.insert key value⟩, true) := by
  simp [tryAdd, add, absent]

theorem tryGetValue_tryAdd (dictionary : Dictionary Key Value) (key other : Key) (value : Value) :
    (dictionary.tryAdd key value).1.tryGetValue other =
      if other = key then some ((dictionary.tryGetValue key).getD value)
      else dictionary.tryGetValue other := by
  cases found : dictionary.tryGetValue key with
  | none => simp [tryAdd_absent found, tryGetValue_insert]
  | some old =>
    by_cases same : other = key
    · subst other
      simp [tryAdd, add, found]
    · simp [tryAdd, add, found, same]

@[simp] theorem tryRemove_value (dictionary : Dictionary Key Value) (key : Key) :
    (dictionary.tryRemove key).2 = dictionary.tryGetValue key := rfl

theorem tryGetValue_tryRemove (dictionary : Dictionary Key Value) (key other : Key) :
    (dictionary.tryRemove key).1.tryGetValue other =
      if other = key then none else dictionary.tryGetValue other := by
  by_cases same : other = key
  · subst other
    simp [tryRemove, tryGetValue]
  · simp [tryRemove, tryGetValue, same, AList.lookup_erase_ne same]

@[simp] theorem tryGetValue_mapEntries (dictionary : Dictionary Key Value)
    (change : Key → Value → Value) (key : Key) :
    (dictionary.mapEntries change).tryGetValue key =
      (dictionary.tryGetValue key).map (change key) :=
  List.dlookup_map₂ key

theorem tryGetValue_modify (dictionary : Dictionary Key Value) (key other : Key)
    (change : Value → Value) :
    (dictionary.modify key change).tryGetValue other =
      if other = key then (dictionary.tryGetValue key).map change
      else dictionary.tryGetValue other := by
  by_cases same : other = key
  · subst other
    simp [modify]
  · simp [modify, same]

/-- Keys are distinct, so a choice that looks at one key keeps one value at most. -/
theorem collect_at {Kept : Type} (dictionary : Dictionary Key Value) (key : Key)
    (choose : Value → Option Kept) :
    dictionary.collect (fun other value => if other = key then choose value else none) =
      ((dictionary.tryGetValue key).bind choose).toList := by
  obtain ⟨⟨entries, distinct⟩⟩ := dictionary
  change entries.filterMap _ = ((List.dlookup key entries).bind choose).toList
  induction entries with
  | nil => rfl
  | cons entry rest ih =>
    obtain ⟨fresh, later⟩ := List.nodupKeys_cons.mp distinct
    by_cases same : entry.1 = key
    · obtain ⟨head, value⟩ := entry
      subst same
      have absent : List.dlookup head rest = none := List.dlookup_eq_none.mpr fresh
      have tail := ih later
      rw [absent] at tail
      rw [List.filterMap_cons, List.dlookup_cons_eq, tail]
      cases chosen : choose value <;> simp [chosen]
    · rw [List.filterMap_cons, List.dlookup_cons_ne _ _ (Ne.symm same), ← ih later]
      simp [same]

/-! ### Many bindings -/

theorem tryGetValue_set (dictionary : Dictionary Key Value) (key other : Key) (value : Value) :
    (dictionary.set key value).tryGetValue other =
      if other = key then some value else dictionary.tryGetValue other :=
  tryGetValue_insert dictionary key other value

theorem mem_toList {dictionary : Dictionary Key Value} {key : Key} {value : Value} :
    (key, value) ∈ dictionary.toList ↔ dictionary.tryGetValue key = some value := by
  unfold toList tryGetValue
  rw [← Option.mem_def, AList.mem_lookup_iff, List.mem_map]
  constructor
  · rintro ⟨⟨_, _⟩, member, same⟩
    cases same
    exact List.mem_reverse.mp member
  · intro member
    exact ⟨⟨key, value⟩, List.mem_reverse.mpr member, rfl⟩

omit [DecidableEq Key] in
theorem toList_nodup (dictionary : Dictionary Key Value) :
    (dictionary.toList.map (·.1)).Nodup := by
  unfold toList
  rw [List.map_map, List.map_reverse, List.nodup_reverse]
  exact dictionary.entries.nodupKeys

theorem foldl_set_toList (dictionary : Dictionary Key Value) :
    dictionary.toList.foldl (fun built entry => built.set entry.1 entry.2) empty = dictionary := by
  obtain ⟨⟨entries, distinct⟩⟩ := dictionary
  induction entries with
  | nil => rfl
  | cons entry rest ih =>
    obtain ⟨fresh, later⟩ := List.nodupKeys_cons.mp distinct
    have earlier := ih later
    unfold toList at earlier ⊢
    simp only [List.reverse_cons, List.map_append, List.foldl_append, List.map_cons, List.map_nil,
      List.foldl_cons, List.foldl_nil]
    rw [earlier]
    have absent : entry.1 ∉ (⟨rest, later⟩ : AList fun _ : Key => Value) := fresh
    exact congrArg Dictionary.mk (AList.ext (AList.entries_insert_of_notMem absent))

end Dictionary

end Library
