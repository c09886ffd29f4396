import Mathlib.Data.Rat.Floor
import BenchmarkHost.RouteGuide.Transfer

/-! The indices of the chunks and the pieces between them.

As long as no end wraps around, the chunks lie side by side and cover the file.
The end of the last chunk is compared with the length only after it has been
computed, so that a file can be too long for its own indices.
-/

set_option autoImplicit false

namespace BenchmarkHost

open Library Extensions RouteGuideImpl

theorem ceil_quotient {length size count : Nat} (positive : 0 < size)
    (covers : length ≤ count * size) (tight : count * size < length + size) :
    ⌈(length : ℚ) / size⌉₊ = count := by
  have scaled : (0 : ℚ) < size := by exact_mod_cast positive
  apply le_antisymm
  · rw [Nat.ceil_le, div_le_iff₀ scaled]
    exact_mod_cast covers
  · cases count with
    | zero => exact Nat.zero_le _
    | succ before =>
      rw [Nat.succ_mul] at tight
      apply Nat.succ_le_of_lt
      rw [Nat.lt_ceil, lt_div_iff₀ scaled]
      exact_mod_cast (by omega : before * size < length)

/-! ### The indices of one chunk -/

/-- What the loop computes for chunk `i` and `Slice` computes with it, against
the integers. -/
structure ExactChunk (service : RouteGuideImpl) (i : Int32) : Prop where
  start : (service.startIndex i).toInt = i.toInt * service.chunkSize.toInt
  next : (service.startIndex i + service.chunkSize).toInt =
    (service.startIndex i).toInt + service.chunkSize.toInt
  nonneg : 0 ≤ (service.startIndex i).toInt
  ordered : (service.startIndex i).toInt < (service.endIndex i).toInt
  within : (service.endIndex i).toInt ≤ service.testBytes.elements.length
  short : (service.endIndex i).toInt - (service.startIndex i).toInt ≤ service.chunkSize.toInt
  plainEnd : ¬ service.endIndex i < 0
  length : (len service.testBytes (service.startIndex i) (service.endIndex i)).toInt =
    (service.endIndex i).toInt - (service.startIndex i).toInt
  index : ∀ k : Int32, 0 ≤ k →
    k < len service.testBytes (service.startIndex i) (service.endIndex i) →
    (k + service.startIndex i).toInt = k.toInt + (service.startIndex i).toInt
  copies : ∃ bytes,
    slice service.testBytes (service.startIndex i) (service.endIndex i) = .ok bytes

/-- Every chunk of the file has the indices it should have. -/
def ExactIndices (service : RouteGuideImpl) : Prop :=
  ∃ number, service.numberOfChunks = .ok number ∧
    number.toInt =
      ⌈(service.testBytes.elements.length : ℚ) / (service.chunkSize.toInt : ℚ)⌉₊ ∧
    ∀ i : Int32, 0 ≤ i → i < number → ExactChunk service i

section
variable {service : RouteGuideImpl} {size : Nat} (sized : service.chunkSize.toInt = size)

include sized

theorem numberOfChunks_eq (positive : 0 < size) : ∃ number, service.numberOfChunks = .ok number ∧
    number.toInt =
      ⌈(service.testBytes.elements.length : ℚ) / (service.chunkSize.toInt : ℚ)⌉₊ ∧
    ∀ k : Nat, (k : Int) < number.toInt → k * size < service.testBytes.elements.length := by
  obtain ⟨number, counted, same, covers, tight⟩ := numberOfChunks_spec sized positive
  refine ⟨number, counted, ?_, fun k below => ?_⟩
  · rw [sized, Int.cast_natCast, ceil_quotient positive covers tight, same]
  · have step : (k + 1) * size ≤ number.toNatClampNeg * size :=
      Nat.mul_le_mul_right size (by omega)
    rw [Nat.succ_mul] at step
    omega

theorem exactChunk_iff (positive : 0 < size) {i : Int32} {number : Nat} (reached : i.toInt = number)
    (begins : number * size < service.testBytes.elements.length) :
    ExactChunk service i ↔ number * size + size < 2 ^ 31 := by
  have bound := service.testBytes.length_lt
  have start := toInt_startIndex sized reached begins
  constructor
  · intro exactly
    by_contra wraps
    have wrapped := (toInt_endIndex_wrapped sized reached begins (by omega)).1
    have next := exactly.next
    rw [wrapped, start, sized] at next
    omega
  · intro fits
    have ends := toInt_endIndex sized reached begins fits
    have copies := slice_fits sized reached begins fits
    have plain : ¬ service.endIndex i < 0 := by
      rw [Int32.lt_iff_toInt_lt, Int32.toInt_zero, ends]
      omega
    have length : (len service.testBytes (service.startIndex i) (service.endIndex i)).toInt =
        (service.endIndex i).toInt - (service.startIndex i).toInt := by
      rw [toInt_len, effectiveEnd, if_neg (by omega), bmod_fits (by omega) (by omega)]
    constructor
    case start => rw [start, reached, sized, Int.natCast_mul]
    case next =>
      rw [toInt_nextIndex sized reached begins fits, start, sized, Int.natCast_add]
    case nonneg => omega
    case ordered => omega
    case within => omega
    case short => omega
    case plainEnd => exact plain
    case length => exact length
    case index =>
      intro k nonneg below
      rw [Int32.le_iff_toInt_le, Int32.toInt_zero] at nonneg
      rw [Int32.lt_iff_toInt_lt, length] at below
      rw [Int32.toInt_add, bmod_fits (by omega) (by omega)]
    case copies => exact ⟨_, copies⟩

end

theorem not_exactIndices {testBytes : ManagedArray UInt8}
    (long : 2147456000 < testBytes.elements.length) : ¬ ExactIndices (create testBytes) := by
  rintro ⟨number, counted, _, every⟩
  have sized := sized_create testBytes
  obtain ⟨_, same, whole, covers, _⟩ := numberOfChunks_spec sized (by decide)
  rw [counted] at same
  cases same
  have reached : (33554 : Int32).toInt = (33554 : Nat) := by decide
  have inside : 33554 * 64000 < testBytes.elements.length := long
  have counts : 33554 < number.toNatClampNeg :=
    Nat.lt_of_mul_lt_mul_right (Nat.lt_of_lt_of_le inside covers)
  have last := every 33554 (by decide) (by rw [Int32.lt_iff_toInt_lt, reached, whole]; omega)
  have fits := (exactChunk_iff sized (by decide) reached inside).mp last
  exact absurd fits (by decide)

/-- The indices of a file of more than one chunk are exact as long as the end of
its last chunk does not wrap around. -/
theorem indices_exact_iff (testBytes : ManagedArray UInt8) :
    ExactIndices (create testBytes) ↔ testBytes.elements.length ≤ 2147456000 := by
  have sized := sized_create testBytes
  constructor
  · intro exactly
    by_contra long
    exact not_exactIndices (by omega) exactly
  · intro below
    obtain ⟨number, counted, value, begins⟩ := numberOfChunks_eq sized (by decide)
    refine ⟨number, counted, value, fun i nonneg before => ?_⟩
    rw [Int32.le_iff_toInt_le, Int32.toInt_zero] at nonneg
    rw [Int32.lt_iff_toInt_lt] at before
    obtain ⟨k, reached⟩ := Int.eq_ofNat_of_zero_le nonneg
    have inside := begins k (by omega)
    rw [exactChunk_iff sized (by decide) reached inside]
    exact (ends_fit_iff _).mpr below k inside

/-- The end of chunk 33554 is above the largest 32-bit number. -/
theorem last_index_wrapped : ¬ ExactIndices (create (zeros 2147456001 (by decide))) :=
  not_exactIndices (by rw [elements_zeros, List.length_replicate]; decide)

/-! ### The pieces between the indices -/

/-- The chunks lie side by side, cut at the multiples of their size. -/
structure Tiled (service : RouteGuideImpl) (written : List Chunk) : Prop where
  count : written.length =
    ⌈(service.testBytes.elements.length : ℚ) / (service.chunkSize.toInt : ℚ)⌉₊
  holds : ∀ i (_ : i < written.length), written[i].chunkBytes =
    between service.testBytes.elements (i * service.chunkSize.toInt)
      (min ((i + 1) * service.chunkSize.toInt) service.testBytes.elements.length)
  nonempty : ∀ chunk ∈ written, chunk.chunkBytes ≠ []
  full : ∀ i (_ : i + 1 < written.length),
    (written[i].chunkBytes.length : Int) = service.chunkSize.toInt
  first : ∀ i (_ : i < written.length), written[i].firstChunk = true ↔ i = 0
  bytes : written.flatMap (·.chunkBytes) = service.testBytes.elements

theorem getElem_pieces {bytes : List UInt8} {size count i : Nat}
    (inside : i < (pieces bytes size 0 count).length) :
    (pieces bytes size 0 count)[i] = ⟨i == 0, (bytes.drop (i * size)).take size, false⟩ := by
  simp [pieces]

theorem tiled_pieces {service : RouteGuideImpl} {size count : Nat}
    (sized : service.chunkSize.toInt = size) (positive : 0 < size)
    (covers : service.testBytes.elements.length ≤ count * size)
    (tight : count * size < service.testBytes.elements.length + size) :
    Tiled service (pieces service.testBytes.elements size 0 count) := by
  set bytes := service.testBytes.elements with named
  have counted : (pieces bytes size 0 count).length = count := by simp [pieces]
  have begins : ∀ i, i < count → i * size < bytes.length := by
    intro i below
    have step : (i + 1) * size ≤ count * size := Nat.mul_le_mul_right size (by omega)
    rw [Nat.succ_mul] at step
    omega
  constructor
  case count => rw [counted, sized, Int.cast_natCast, ceil_quotient positive covers tight]
  case holds =>
    intro i inside
    have low : (i : Int) * size = (i * size : Nat) := (Int.natCast_mul i size).symm
    have high : min (((i : Int) + 1) * size) bytes.length =
        (min ((i + 1) * size) bytes.length : Nat) := by
      push_cast
      rfl
    rw [getElem_pieces inside, sized, low, high, between_of_nat, List.take_eq_take_iff,
      List.length_drop, Nat.succ_mul]
    omega
  case nonempty =>
    intro chunk member
    obtain ⟨i, inside, rfl⟩ := List.getElem_of_mem member
    rw [getElem_pieces inside]
    have some := begins i (counted ▸ inside)
    refine List.ne_nil_of_length_pos ?_
    rw [List.length_take, List.length_drop]
    omega
  case full =>
    intro i inside
    have next := begins (i + 1) (counted ▸ inside)
    rw [Nat.succ_mul] at next
    rw [getElem_pieces (by omega), sized, List.length_take, List.length_drop]
    omega
  case first =>
    intro i inside
    rw [getElem_pieces inside]
    exact beq_iff_eq
  case bytes =>
    rw [flatMap_pieces, Nat.zero_mul, List.drop_zero, List.take_of_length_le covers]

/-- When the end of the last chunk does not wrap around and nothing raises, the
chunks tile the file. -/
theorem chunks_tile (service : RouteGuideImpl) (positive : 0 < service.chunkSize)
    (large : service.chunkSize < service.testBytes.length)
    (fits : ⌈(service.testBytes.elements.length : ℚ) / (service.chunkSize.toInt : ℚ)⌉₊ *
      service.chunkSize.toInt < 2 ^ 31) :
    (service.getBytes noFault).raised = none ∧
      Tiled service (service.getBytes noFault).written := by
  rw [Int32.lt_iff_toInt_lt, Int32.toInt_zero] at positive
  rw [Int32.lt_iff_toInt_lt, ManagedArray.toInt_length] at large
  obtain ⟨size, sized⟩ := Int.eq_ofNat_of_zero_le (Int.le_of_lt positive)
  rw [sized] at positive large
  have some : 0 < size := by omega
  obtain ⟨number, counted, sent⟩ := getBytes_eq sized some noFault
  obtain ⟨_, same, _, covers, tight⟩ := numberOfChunks_spec sized some
  rw [counted] at same
  cases same
  rw [sized, Int.cast_natCast, ceil_quotient some covers tight] at fits
  rw [sent, body_large sized (by omega)]
  rcases sendLoop_outcome sized some covers tight with
    ⟨_, whole⟩ | ⟨k, inside, failed, _⟩
  · rw [whole]
    exact ⟨rfl, tiled_pieces sized some covers tight⟩
  · -- Chunk `k` ends no later than the last one.
    refine absurd (sendable_noFault.mpr ?_) failed
    have before := Nat.lt_of_mul_lt_mul_right (Nat.lt_of_lt_of_le inside covers)
    have step : (k + 1) * size ≤ number.toNatClampNeg * size :=
      Nat.mul_le_mul_right size before
    rw [Nat.succ_mul] at step
    omega

def threeBytes : RouteGuideImpl := ⟨⟨[1, 2, 3], by decide⟩, none, 2⟩

theorem chunks_tile_three : (threeBytes.getBytes noFault).raised = none ∧
    Tiled threeBytes (threeBytes.getBytes noFault).written := by
  have two : ⌈((3 : ℕ) : ℚ) / (2 : ℕ)⌉₊ = 2 :=
    ceil_quotient (by decide) (by decide) (by decide)
  have fits : ⌈(threeBytes.testBytes.elements.length : ℚ) / (threeBytes.chunkSize.toInt : ℚ)⌉₊ *
      threeBytes.chunkSize.toInt < 2 ^ 31 := by
    have size : threeBytes.chunkSize.toInt = (2 : ℕ) := by decide
    have length : threeBytes.testBytes.elements.length = 3 := rfl
    rw [size, length, Int.cast_natCast, two]
    decide
  exact chunks_tile threeBytes (by decide) (by decide) fits

end BenchmarkHost
