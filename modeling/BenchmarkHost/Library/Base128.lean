import BenchmarkHost.Library.Lengths
import BenchmarkHost.Library.UnknownFields
import Mathlib.Algebra.Ring.Int.Defs
import Mathlib.Algebra.Ring.Nat

/-! A coding of values in base 128.

Numbers are written in groups of seven bits, a negative one as a number of 64
bits; texts and bytes have their length in front. The last three bits of a tag
say how far its field extends.
-/

set_option autoImplicit false

namespace Library

def readVarint : Nat → List UInt8 → Option (Nat × List UInt8)
  | 0, _ => none
  | _ + 1, [] => none
  | groups + 1, byte :: rest =>
    if byte.toNat < 128 then some (byte.toNat, rest)
    else
      match readVarint groups rest with
      | none => none
      | some (high, rest) => some (byte.toNat - 128 + 128 * high, rest)

theorem readVarint_taken {groups value : Nat} {input rest : List UInt8}
    (found : readVarint groups input = some (value, rest)) :
    ∃ front, input = front ++ rest ∧
      ∀ more, readVarint groups (front ++ more) = some (value, more) := by
  induction groups generalizing input value with
  | zero => cases found
  | succ groups ih =>
    cases input with
    | nil => cases found
    | cons byte others =>
      rw [readVarint] at found
      split at found
      · rename_i last
        cases found
        -- The byte below 128 ends the varint, whatever comes after it.
        refine ⟨[byte], rfl, fun more => ?_⟩
        rw [List.singleton_append, readVarint, if_pos last]
      · rename_i continues
        split at found
        · cases found
        · rename_i high remaining later
          cases found
          obtain ⟨front, rfl, reads⟩ := ih later
          refine ⟨byte :: front, rfl, fun more => ?_⟩
          rw [List.cons_append, readVarint, if_neg continues, reads]

def varintReader (groups : Nat) : Reader Nat := ⟨readVarint groups, readVarint_taken⟩

theorem varint_reads {groups limit value : Nat} (enough : groups < limit)
    (small : value < 128 ^ (groups + 1)) :
    (varintReader limit).Reads (varint (groups + 1) value) value := by
  intro rest
  change readVarint limit (varint (groups + 1) value ++ rest) = some (value, rest)
  induction groups generalizing limit value with
  | zero =>
    obtain ⟨limit, rfl⟩ := Nat.exists_eq_succ_of_ne_zero (Nat.ne_zero_of_lt enough)
    have last : value < 128 := by simpa using small
    have byte : (UInt8.ofNat value).toNat = value := by
      rw [UInt8.toNat_ofNat']
      omega
    rw [varint, if_pos last, List.singleton_append, readVarint, byte, if_pos last]
  | succ groups ih =>
    obtain ⟨limit, rfl⟩ := Nat.exists_eq_succ_of_ne_zero (Nat.ne_zero_of_lt enough)
    rw [varint]
    split
    · rename_i last
      have byte : (UInt8.ofNat value).toNat = value := by
        rw [UInt8.toNat_ofNat']
        omega
      rw [List.singleton_append, readVarint, byte, if_pos last]
    · have byte : (UInt8.ofNat (value % 128 + 128)).toNat = value % 128 + 128 := by
        rw [UInt8.toNat_ofNat']
        omega
      have high : value / 128 < 128 ^ (groups + 1) := by
        rw [Nat.pow_succ] at small
        exact Nat.div_lt_of_lt_mul (Nat.mul_comm _ 128 ▸ small)
      rw [List.cons_append, readVarint, byte, if_neg (by omega),
        ih (Nat.lt_of_succ_lt_succ enough) high]
      simp only [Option.some.injEq, Prod.mk.injEq, and_true]
      omega

namespace Base128

def tag : TagReader where
  toReader := (varintReader 10).through fun value =>
    if 8 ≤ UInt32.ofNat value then some (UInt32.ofNat value) else none
  progress := rfl

theorem tag_reads (number : UInt32) (large : 8 ≤ number) :
    tag.Reads (varint 5 number.toNat) number := by
  have small : number.toNat < 128 ^ (4 + 1) := by
    have bound := number.toNat_lt
    omega
  apply Reader.through_reads (varint_reads (by decide) small)
  rw [UInt32.ofNat_toNat, if_pos large]

/-- A negative number is written with all of its 64 bits. -/
def int32 : Format Int32 where
  toReader := (varintReader 10).through fun value => some (Int32.ofNat value)
  write value := varint 10 (value.toInt % 2 ^ 64).toNat
  size value := Int32.ofNat (varint 10 (value.toInt % 2 ^ 64).toNat).length
  measures _ _ := rfl
  reads value _ := by
    have low := Int.emod_nonneg value.toInt (show (2 : Int) ^ 64 ≠ 0 by decide)
    -- Taken modulo 2 ^ 32 again, the 64 bits give the number with its sign.
    have high := Int.emod_lt_of_pos value.toInt (show (0 : Int) < 2 ^ 64 by decide)
    have small : (value.toInt % 2 ^ 64).toNat < 128 ^ (9 + 1) := by omega
    apply Reader.through_reads (varint_reads (by decide) small)
    apply congrArg some
    apply Int32.toInt_inj.mp
    have lower := Int32.le_toInt value
    have upper := Int32.toInt_lt value
    have size : Int32.size = 2 ^ 32 := rfl
    rw [Int32.toInt_ofNat', Int.bmod_def, Int.toNat_of_nonneg low, size]
    split <;> omega

def bool : Format Bool where
  toReader := (varintReader 10).through fun value => some (value != 0)
  write value := [if value then 1 else 0]
  size _ := 1
  measures _ _ := rfl
  reads value _ := by
    intro rest
    cases value <;> rfl

/-- A length that is too large for a 32-bit number is refused. -/
def length : Reader Nat :=
  (varintReader 10).through fun value => if value < 2 ^ 31 then some value else none

theorem length_reads {value : Nat} (small : value < 2 ^ 31) :
    length.Reads (varint 5 value) value := by
  apply Reader.through_reads (varint_reads (by decide) (show value < 128 ^ (4 + 1) by omega))
  rw [if_pos small]

def bytes : Format (List UInt8) where
  toReader := length.andThen .take
  write value := varint 5 value.length ++ value
  size value := Int32.ofNat (varint 5 value.length ++ value).length
  measures _ _ := rfl
  reads value fits := Reader.andThen_reads (length_reads fits.right) (Reader.take_reads value)

def string : Format String where
  toReader := bytes.through fun value => String.fromUTF8? ⟨value.toArray⟩
  write value := bytes.write value.toUTF8.data.toList
  size value := bytes.size value.toUTF8.data.toList
  measures value := bytes.measures value.toUTF8.data.toList
  reads value fits := by
    apply Reader.through_reads (bytes.reads _ fits)
    rw [Array.toArray_toList]
    exact (dif_pos value.isValidUTF8).trans rfl

/-- How far a field extends that is passed over. Groups are refused. -/
def skip (number : UInt32) : Reader Unit :=
  match number.toNat % 8 with
  | 0 => (varintReader 10).through fun _ => some ()
  | 1 => (Reader.take 8).through fun _ => some ()
  | 2 => bytes.through fun _ => some ()
  | 5 => (Reader.take 4).through fun _ => some ()
  | _ => .fail

def coding : Coding where
  tag
  int32
  bool
  string
  bytes
  writeLength length := varint 5 length.toUInt32.toNat
  computeLengthSize length := Int32.ofNat (varint 5 length.toUInt32.toNat).length
  skip
  tag_reads
  bool_size _ := rfl
  length_measures _ _ := rfl
  delimited payload fits := by
    rw [Int32.toUInt32_ofNat', UInt32.toNat_ofNat_of_lt' (Nat.lt_trans fits (by decide))]
    rfl

theorem lengths : coding.Lengths where
  length count small := by
    change varint 5 (Int32.ofNat count).toUInt32.toNat = varint 5 count
    rw [Int32.toUInt32_ofNat', UInt32.toNat_ofNat_of_lt' (Nat.lt_trans small (by decide))]
  string _ _ := rfl
  bool _ := rfl

def mergeFieldFrom (number : UInt32) (kept : List (UnknownField coding)) :
    Reader (List (UnknownField coding)) :=
  if large : 8 ≤ number then
    (skip number).captured.through fun body =>
      some (kept ++ [⟨number, body.1, large, body.2.elim fun () reads => reads⟩])
  else .fail

def unknownFields : UnknownFieldSet coding (List (UnknownField coding)) where
  empty := []
  fields := id
  add kept field := kept ++ [field]
  calculateSize kept := Int32.ofNat
    (kept.flatMap fun field => varint 5 field.tag.toNat ++ field.body).length
  mergeFieldFrom
  fields_empty := rfl
  rebuilt kept := by
    have grows : ∀ (fields earlier : List (UnknownField coding)),
        fields.foldl (fun kept field => kept ++ [field]) earlier = earlier ++ fields := by
      intro fields
      induction fields with
      | nil => exact fun earlier => (List.append_nil earlier).symm
      | cons field rest ih =>
        intro earlier
        rw [List.foldl_cons, ih, List.append_assoc]
        rfl
    exact grows kept []
  measures _ _ := rfl
  reads field kept := by
    rw [mergeFieldFrom, dif_pos field.large]
    exact Reader.through_reads (Reader.captured_reads field.skipped) rfl
  tags := by
    intro number kept body next reads field member
    unfold mergeFieldFrom at reads
    split at reads
    · obtain ⟨taken, _, same⟩ := Reader.of_through_reads reads
      rw [← Option.some.inj same] at member
      rcases List.mem_append.mp member with old | new
      · exact .inr ⟨field, old, rfl⟩
      · rw [List.mem_singleton.mp new]
        exact .inl rfl
    · exact absurd reads Reader.not_fail_reads

end Base128
end Library
