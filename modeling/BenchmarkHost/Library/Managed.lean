import Mathlib.Algebra.Ring.Int.Defs
import Mathlib.Algebra.Ring.Nat
import Mathlib.Data.List.Basic

/-! Arrays and 32-bit arithmetic of a managed runtime.

Arithmetic wraps around. An array has a length that the runtime can allocate,
so that its length is a 32-bit number; indexing outside it raises.
-/

set_option autoImplicit false

namespace Library

inductive RuntimeException where
  | nullReference
  | argument
  | argumentNull
  | divideByZero
  | overflow
  | outOfMemory
  | indexOutOfRange
  | invalidOperation
  deriving DecidableEq, Repr

/-- A member access: a null reference raises. -/
def dereference {Object : Type} : Option Object → Except RuntimeException Object
  | none => .error .nullReference
  | some object => .ok object

/-! ### Wrapping arithmetic -/

theorem bmod_fits {value : Int} (low : -2 ^ 31 ≤ value) (high : value < 2 ^ 31) :
    value.bmod (2 ^ 32) = value := by
  rw [Int.bmod_def]
  split <;> omega

theorem bmod_over {value : Int} (low : 2 ^ 31 ≤ value) (high : value < 2 ^ 31 + 2 ^ 32) :
    value.bmod (2 ^ 32) = value - 2 ^ 32 := by
  rw [Int.bmod_def]
  split <;> omega

theorem toInt_min (first second : Int32) :
    (min first second).toInt = min first.toInt second.toInt := by
  change (if first ≤ second then first else second).toInt = _
  split <;> rename_i order <;> rw [Int32.le_iff_toInt_le] at order <;> omega

theorem toInt_max (first second : Int32) :
    (max first second).toInt = max first.toInt second.toInt := by
  change (if first ≤ second then second else first).toInt = _
  split <;> rename_i order <;> rw [Int32.le_iff_toInt_le] at order <;> omega

theorem ceiling_spec (length : Nat) {size : Nat} (positive : 0 < size) :
    ∃ count : Nat, -(-(length : Int)).fdiv size = count ∧ count ≤ length ∧
      length ≤ count * size ∧ count * size < length + size := by
  have quotient : (-(length : Int)).fdiv size = -(length : Int) / size :=
    Int.fdiv_eq_ediv_of_nonneg _ (Int.natCast_nonneg size)
  have below : -(length : Int) / size < 1 :=
    (Int.ediv_lt_iff_lt_mul (by omega)).mpr (by omega)
  obtain ⟨count, same⟩ : ∃ count : Nat, -(-(length : Int) / size) = count :=
    Int.eq_ofNat_of_zero_le (by omega)
  have whole := Int.mul_ediv_add_emod (-(length : Int)) size
  have low := Int.emod_nonneg (-(length : Int)) (show (size : Int) ≠ 0 by omega)
  have high := Int.emod_lt_of_pos (-(length : Int)) (show (0 : Int) < size by omega)
  have product : (size : Int) * (-(length : Int) / size) = -((count * size : Nat) : Int) := by
    rw [show -(length : Int) / size = -count by omega, Int.mul_neg, Int.mul_comm, Int.natCast_mul]
  have covers : length ≤ count * size := by omega
  have tight : count * size < length + size := by omega
  refine ⟨count, by rw [quotient, same], ?_, covers, tight⟩
  by_contra more
  have one : (length + 1) * size ≤ count * size := Nat.mul_le_mul_right size (by omega)
  have grows : length ≤ length * size := Nat.le_mul_of_pos_right length positive
  rw [Nat.succ_mul] at one
  omega

/-! ### Arrays -/

/-- The most elements an array can have; only arrays of single bytes reach it. -/
def maxLength : Nat := 0x7FFFFFC7

structure ManagedArray (Element : Type) where
  elements : List Element
  fits : elements.length ≤ maxLength

namespace ManagedArray
variable {Element : Type}

def length (source : ManagedArray Element) : Int32 := Int32.ofNat source.elements.length

def get (source : ManagedArray Element) (index : Int32) : Except RuntimeException Element :=
  if index < 0 then .error .indexOutOfRange
  else
    match source.elements[index.toNatClampNeg]? with
    | some element => .ok element
    | none => .error .indexOutOfRange

/-- The check of `new T[length]`. -/
def allocate (length : Int32) : Except RuntimeException Unit :=
  if length < 0 then .error .overflow
  else if maxLength < length.toNatClampNeg then .error .outOfMemory
  else .ok ()

theorem length_lt (source : ManagedArray Element) : source.elements.length < 2 ^ 31 := by
  have fits := source.fits
  unfold maxLength at fits
  omega

@[simp] theorem toInt_length (source : ManagedArray Element) :
    source.length.toInt = source.elements.length :=
  Int32.toInt_ofNat_of_lt source.length_lt

theorem get_inside {source : ManagedArray Element} {index : Int32} {position : Nat}
    (same : index.toInt = position) (inside : position < source.elements.length) :
    source.get index = .ok (source.elements[position]) := by
  have nonneg : ¬ index < 0 := by
    rw [Int32.lt_iff_toInt_lt, Int32.toInt_zero]
    omega
  have position' : index.toNatClampNeg = position := by
    rw [← Int32.toNat_toInt, same, Int.toNat_natCast]
  rw [get, if_neg nonneg, position', List.getElem?_eq_getElem inside]

theorem get_outside {source : ManagedArray Element} {index : Int32}
    (outside : index.toInt < 0 ∨ (source.elements.length : Int) ≤ index.toInt) :
    source.get index = .error .indexOutOfRange := by
  unfold get
  split
  · rfl
  · rename_i nonneg
    rw [Int32.lt_iff_toInt_lt, Int32.toInt_zero] at nonneg
    have past : source.elements.length ≤ index.toNatClampNeg := by
      rw [← Int32.toNat_toInt]
      omega
    rw [List.getElem?_eq_none past]

theorem allocate_eq_ok (length : Int32) :
    allocate length = .ok () ↔ 0 ≤ length.toInt ∧ length.toInt ≤ maxLength := by
  have position := Int32.toNat_toInt length
  unfold allocate
  split <;> rename_i negative <;> rw [Int32.lt_iff_toInt_lt, Int32.toInt_zero] at negative
  · simp only [reduceCtorEq, false_iff]
    omega
  · split
    · simp only [reduceCtorEq, false_iff]
      omega
    · simp only [true_iff]
      omega

end ManagedArray

/-! ### Ranges of indices -/

section
variable {Element : Type} (elements : List Element)

def between (low high : Int) : List Element := (elements.take high.toNat).drop low.toNat

theorem between_of_nat (low high : Nat) :
    between elements low high = (elements.drop low).take (high - low) := by
  rw [between, Int.toNat_natCast, Int.toNat_natCast, List.drop_take]

theorem between_self (bound : Int) : between elements bound bound = [] := by
  rw [between, List.drop_take, Nat.sub_self, List.take_zero]

theorem length_between (low high : Int) :
    (between elements low high).length = min high.toNat elements.length - low.toNat := by
  rw [between, List.length_drop, List.length_take]

end

end Library
