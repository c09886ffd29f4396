import BenchmarkHost.Library.Wire
import Mathlib.Algebra.Ring.Nat

/-! How much is written for a value.

A length in front takes a byte for each seven bits of it, so what a message
takes beyond its texts and bytes is soon counted.
-/

set_option autoImplicit false

namespace Library

theorem length_varint_le {groups value : Nat} (limit : Nat) (small : value < 128 ^ (groups + 1)) :
    (varint limit value).length ≤ groups + 1 := by
  induction groups generalizing limit value with
  | zero =>
    cases limit with
    | zero => exact Nat.zero_le 1
    | succ limit =>
      rw [varint, if_pos (by simpa using small)]
      exact Nat.le_refl 1
  | succ groups ih =>
    cases limit with
    | zero => exact Nat.zero_le _
    | succ limit =>
      rw [varint]
      split
      · exact Nat.le_add_left 1 (groups + 1)
      · rw [Nat.pow_succ] at small
        exact Nat.succ_le_succ (ih limit (Nat.div_lt_of_lt_mul (Nat.mul_comm _ 128 ▸ small)))

theorem length_varint_le_groups (groups value : Nat) : (varint groups value).length ≤ groups := by
  induction groups generalizing value with
  | zero => exact Nat.le_refl 0
  | succ groups ih =>
    rw [varint]
    split
    · exact Nat.succ_le_succ (Nat.zero_le groups)
    · exact Nat.succ_le_succ (ih (value / 128))

theorem le_length_varint {groups limit value : Nat} (enough : groups < limit)
    (large : 128 ^ groups ≤ value) : groups + 1 ≤ (varint limit value).length := by
  induction groups generalizing limit value with
  | zero =>
    obtain ⟨limit, rfl⟩ := Nat.exists_eq_succ_of_ne_zero (Nat.ne_zero_of_lt enough)
    rw [varint]
    split <;> exact Nat.succ_le_succ (Nat.zero_le _)
  | succ groups ih =>
    obtain ⟨limit, rfl⟩ := Nat.exists_eq_succ_of_ne_zero (Nat.ne_zero_of_lt enough)
    rw [Nat.pow_succ] at large
    -- The value needs another group, so the writer does not stop here.
    have above : ¬ value < 128 := by
      have power : 1 ≤ 128 ^ groups := Nat.one_le_pow groups 128 (by decide)
      omega
    rw [varint, if_neg above]
    exact Nat.succ_le_succ (ih (Nat.lt_of_succ_lt_succ enough)
      ((Nat.le_div_iff_mul_le (by decide)).mpr large))

/-- What a coding documents of its lengths: one is written as a varint, a text as
the bytes that it is encoded in, and a truth value as one byte. -/
structure Coding.Lengths (coding : Coding) : Prop where
  length : ∀ count < 2 ^ 31, coding.writeLength (Int32.ofNat count) = varint 5 count
  string : ∀ text : String, Fits text.toUTF8.data.toList →
    coding.string.write text = coding.bytes.write text.toUTF8.data.toList
  bool : ∀ value, (coding.bool.write value).length = 1

namespace Coding.Lengths
variable {coding : Coding} (lengths : coding.Lengths)

include lengths

theorem length_bytes {value : List UInt8} (fits : Fits value) :
    (coding.bytes.write value).length = (varint 5 value.length).length + value.length := by
  rw [coding.delimited value fits, lengths.length value.length fits, List.length_append]

theorem length_bytes_le {value : List UInt8} {limit : Nat} (short : value.length ≤ limit)
    (small : limit < 2 ^ 31) : (coding.bytes.write value).length ≤ 5 + limit := by
  have counted := length_varint_le_groups 5 value.length
  rw [lengths.length_bytes (Nat.lt_of_le_of_lt short small)]
  omega

theorem length_string_le {text : String} {limit : Nat} (short : text.utf8ByteSize ≤ limit)
    (small : limit < 2 ^ 31) (tag : UInt8) :
    (if text.length != 0 then [tag] ++ coding.string.write text else []).length ≤ 6 + limit := by
  have size : text.toUTF8.data.toList.length = text.utf8ByteSize := rfl
  have bytes := lengths.length_bytes_le (size ▸ short) small
  rw [lengths.string text (Nat.lt_of_le_of_lt (size ▸ short) small)]
  have present := length_present_le (text.length != 0)
    ([tag] ++ coding.bytes.write text.toUTF8.data.toList)
  have whole : ([tag] ++ coding.bytes.write text.toUTF8.data.toList).length =
    1 + (coding.bytes.write text.toUTF8.data.toList).length := List.length_append
  omega

theorem length_message_le {Message : Type} {type : MessageType Message} {valid : Message → Prop}
    {fields : Message → List (TaggedField Message)} (describes : coding.Describes type valid fields)
    {message : Message} {limit : Nat} (short : (type.writeTo message).length ≤ limit)
    (small : limit < 2 ^ 31) (tag : List UInt8) :
    (tag ++ coding.writeMessage type message).length ≤ tag.length + (5 + limit) := by
  have bytes := lengths.length_bytes_le short small
  rw [List.length_append, describes.writeMessage_eq (Nat.lt_of_le_of_lt short small)]
  omega

end Coding.Lengths
end Library
