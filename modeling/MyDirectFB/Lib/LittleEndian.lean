/-
Numbers as little-endian byte strings of a given width.
-/
import Mathlib.Algebra.Ring.Nat

namespace LittleEndian

/-- The `width` low bytes of a number, least significant first. -/
def encode : Nat → Nat → List UInt8
  | 0, _ => []
  | width + 1, value => UInt8.ofNat value :: encode width (value / 256)

/-- The number a byte string stands for. -/
def decode : List UInt8 → Nat
  | [] => 0
  | byte :: rest => byte.toNat + 256 * decode rest

@[simp] theorem length_encode (width value : Nat) :
    (encode width value).length = width := by
  induction width generalizing value with
  | zero => rfl
  | succ width ih => simp [encode, ih]

/-- Decoding gives back the number cut to the width. -/
theorem decode_encode (width value : Nat) :
    decode (encode width value) = value % 256 ^ width := by
  induction width generalizing value with
  | zero => simp [encode, decode, Nat.mod_one]
  | succ width ih =>
      have hpow : 256 ^ (width + 1) = 256 * 256 ^ width := Nat.pow_succ'
      rw [encode, decode, ih, UInt8.toNat_ofNat', hpow]
      exact Nat.mod_mul.symm

theorem decode_encode_of_lt {width value : Nat} (hvalue : value < 256 ^ width) :
    decode (encode width value) = value := by
  rw [decode_encode, Nat.mod_eq_of_lt hvalue]

theorem decode_lt (bytes : List UInt8) : decode bytes < 256 ^ bytes.length := by
  induction bytes with
  | nil => simp [decode]
  | cons byte rest ih =>
      have hbyte := byte.toNat_lt
      rw [decode, List.length_cons, Nat.pow_succ']
      omega

theorem decode_append (low high : List UInt8) :
    decode (low ++ high) = decode low + 256 ^ low.length * decode high := by
  induction low with
  | nil => simp [decode]
  | cons byte rest ih =>
      rw [List.cons_append, decode, ih, decode, List.length_cons, Nat.pow_succ',
        Nat.mul_add, Nat.mul_assoc, Nat.add_assoc]

/-- The first bytes stand for no larger number. -/
theorem decode_take_le (count : Nat) (bytes : List UInt8) :
    decode (bytes.take count) ≤ decode bytes := by
  have hsplit := decode_append (bytes.take count) (bytes.drop count)
  rw [List.take_append_drop] at hsplit
  omega

/-- The first bytes of an encoding are a shorter encoding. -/
theorem take_encode {short width : Nat} (hle : short ≤ width) (value : Nat) :
    (encode width value).take short = encode short value := by
  induction short generalizing width value with
  | zero => simp [encode]
  | succ short ih =>
      cases width with
      | zero => omega
      | succ width =>
          rw [encode, encode, List.take_succ_cons, ih (by omega)]

/-- The last bytes of an encoding are the encoding of the quotient. -/
theorem drop_encode {short width : Nat} (hle : short ≤ width) (value : Nat) :
    (encode width value).drop short =
      encode (width - short) (value / 256 ^ short) := by
  induction short generalizing width value with
  | zero => simp
  | succ short ih =>
      cases width with
      | zero => omega
      | succ width =>
          rw [encode, List.drop_succ_cons, ih (by omega), Nat.div_div_eq_div_mul,
            Nat.add_sub_add_right, Nat.pow_succ']

theorem encode_zero (width : Nat) :
    encode width 0 = List.replicate width 0 := by
  induction width with
  | zero => rfl
  | succ width ih => rw [encode, Nat.zero_div, ih, List.replicate_succ]; rfl

end LittleEndian
