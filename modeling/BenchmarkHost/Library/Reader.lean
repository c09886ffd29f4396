import Mathlib.Data.List.Basic

/-! Readers of bytes, and messages read field by field.

A reader takes a value off the front of its input. What it takes does not
depend on the bytes after it, so that a value is read alike wherever it stands.
-/

set_option autoImplicit false

namespace Library

structure Reader (Value : Type) where
  read : List UInt8 → Option (Value × List UInt8)
  -- The bytes taken alone decide the value.
  taken : ∀ {input rest : List UInt8} {value : Value}, read input = some (value, rest) →
    ∃ front, input = front ++ rest ∧ ∀ more, read (front ++ more) = some (value, more)

namespace Reader
variable {Value Other : Type}

/-- The reader takes exactly these bytes, whatever follows them. -/
def Reads (reader : Reader Value) (bytes : List UInt8) (value : Value) : Prop :=
  ∀ rest, reader.read (bytes ++ rest) = some (value, rest)

theorem Reads.alone {reader : Reader Value} {bytes : List UInt8} {value : Value}
    (reads : reader.Reads bytes value) : reader.read bytes = some (value, []) := by
  have whole := reads []
  rwa [List.append_nil] at whole

theorem Reads.unique {reader : Reader Value} {first second firstRest secondRest : List UInt8}
    {value other : Value} (reads : reader.Reads first value) (again : reader.Reads second other)
    (same : first ++ firstRest = second ++ secondRest) :
    value = other ∧ firstRest = secondRest := by
  have left := reads firstRest
  rw [same, again secondRest] at left
  cases left
  exact ⟨rfl, rfl⟩

def take (count : Nat) : Reader (List UInt8) where
  read input := if count ≤ input.length then some (input.take count, input.drop count) else none
  taken := by
    intro input rest value found
    simp only [Option.ite_none_right_eq_some, Option.some.injEq, Prod.mk.injEq] at found
    obtain ⟨enough, rfl, rfl⟩ := found
    -- Followed by other bytes, the front is still all that is taken.
    refine ⟨input.take count, (List.take_append_drop count input).symm, fun more => ?_⟩
    have length : (input.take count).length = count := List.length_take_of_le enough
    rw [if_pos (by rw [List.length_append, length]; omega), List.take_left' length,
      List.drop_left' length]

theorem take_reads (bytes : List UInt8) : (take bytes.length).Reads bytes bytes := by
  intro rest
  change (if bytes.length ≤ (bytes ++ rest).length then _ else _) = _
  rw [if_pos (by rw [List.length_append]; omega), List.take_left, List.drop_left]

/-- A value, and what is to be read after it. -/
def andThen (reader : Reader Value) (next : Value → Reader Other) : Reader Other where
  read input :=
    match reader.read input with
    | none => none
    | some (value, rest) => (next value).read rest
  taken := by
    intro input rest result found
    cases first : reader.read input with
    | none =>
      rw [first] at found
      cases found
    | some pair =>
      obtain ⟨value, middle⟩ := pair
      rw [first] at found
      obtain ⟨front, rfl, reads⟩ := reader.taken first
      obtain ⟨back, rfl, later⟩ := (next value).taken found
      refine ⟨front ++ back, (List.append_assoc ..).symm, fun more => ?_⟩
      rw [List.append_assoc, reads]
      exact later more

theorem andThen_reads {reader : Reader Value} {next : Value → Reader Other}
    {front back : List UInt8} {value : Value} {result : Other} (first : reader.Reads front value)
    (second : (next value).Reads back result) :
    (reader.andThen next).Reads (front ++ back) result := by
  intro rest
  change (match reader.read (front ++ back ++ rest) with
    | none => none
    | some (value, rest) => (next value).read rest) = _
  rw [List.append_assoc, first]
  exact second rest

/-- A value that is looked at once it is read, and may be refused. -/
def through (reader : Reader Value) (accept : Value → Option Other) : Reader Other where
  read input :=
    match reader.read input with
    | none => none
    | some (value, rest) => (accept value).map (·, rest)
  taken := by
    intro input rest result found
    cases first : reader.read input with
    | none =>
      rw [first] at found
      cases found
    | some pair =>
      obtain ⟨value, middle⟩ := pair
      rw [first] at found
      obtain ⟨accepted, same, rest⟩ := Option.map_eq_some_iff.mp found
      cases rest
      obtain ⟨front, rfl, reads⟩ := reader.taken first
      refine ⟨front, rfl, fun more => ?_⟩
      rw [reads]
      exact Option.map_eq_some_iff.mpr ⟨result, same, rfl⟩

theorem through_reads {reader : Reader Value} {accept : Value → Option Other}
    {bytes : List UInt8} {value : Value} {result : Other} (reads : reader.Reads bytes value)
    (accepted : accept value = some result) : (reader.through accept).Reads bytes result := by
  intro rest
  change (match reader.read (bytes ++ rest) with
    | none => none
    | some (value, rest) => (accept value).map (·, rest)) = _
  rw [reads]
  exact Option.map_eq_some_iff.mpr ⟨result, accepted, rfl⟩

theorem of_through_reads {reader : Reader Value} {accept : Value → Option Other}
    {bytes : List UInt8} {result : Other} (reads : (reader.through accept).Reads bytes result) :
    ∃ value, reader.Reads bytes value ∧ accept value = some result := by
  have whole := reads.alone
  change (match reader.read bytes with
    | none => none
    | some (value, rest) => (accept value).map (·, rest)) = _ at whole
  cases first : reader.read bytes with
  | none =>
    rw [first] at whole
    cases whole
  | some pair =>
    obtain ⟨value, middle⟩ := pair
    rw [first] at whole
    obtain ⟨accepted, same, rest⟩ := Option.map_eq_some_iff.mp whole
    cases rest
    obtain ⟨front, same', all⟩ := reader.taken first
    rw [List.append_nil] at same'
    subst same'
    exact ⟨value, all, same⟩

theorem length_taken {reader : Reader Value} {input rest : List UInt8} {value : Value}
    (found : reader.read input = some (value, rest)) :
    reader.Reads (input.take (input.length - rest.length)) value := by
  obtain ⟨front, rfl, reads⟩ := reader.taken found
  have length : (front ++ rest).length - rest.length = front.length := by
    rw [List.length_append]
    omega
  rw [length, List.take_left]
  exact reads

def captured (reader : Reader Value) :
    Reader { bytes : List UInt8 // ∃ value, reader.Reads bytes value } where
  read input :=
    match found : reader.read input with
    | none => none
    | some (value, rest) =>
      some (⟨input.take (input.length - rest.length), value, length_taken found⟩, rest)
  taken := by
    intro input rest bytes found
    split at found
    · cases found
    · rename_i value after first
      cases found
      obtain ⟨front, rfl, reads⟩ := reader.taken first
      refine ⟨front, rfl, fun more => ?_⟩
      split
      · rename_i none
        rw [reads more] at none
        cases none
      · rename_i again remaining second
        rw [reads more] at second
        cases second
        simp

theorem captured_reads {reader : Reader Value} {bytes : List UInt8} {value : Value}
    (reads : reader.Reads bytes value) : reader.captured.Reads bytes ⟨bytes, value, reads⟩ := by
  intro rest
  unfold captured
  dsimp only
  split
  · rename_i none
    rw [reads rest] at none
    cases none
  · rename_i again remaining found
    rw [reads rest] at found
    cases found
    simp

def fail : Reader Value := ⟨fun _ => none, fun found => nomatch found⟩

theorem not_fail_reads {bytes : List UInt8} {value : Value} :
    ¬ (fail : Reader Value).Reads bytes value := fun reads => nomatch reads []

end Reader
end Library
