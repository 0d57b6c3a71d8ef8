/-
Numbers in texts: the value of a text of digits, the conversions of `strtol`, and
the hexadecimal fields that `printf` writes.  A field of a fixed width and the
value of its digits determine each other.
-/
import Mathlib.Data.Nat.Digits.Lemmas
import MyDirectFB.Lib.Scan

namespace Numeral

open Scan

/-- The value of a digit in a base of up to 36; 36 for any other byte. -/
def digitValue (c : UInt8) : Nat :=
  if 48 ≤ c ∧ c ≤ 57 then c.toNat - 48
  else if 97 ≤ c ∧ c ≤ 122 then c.toNat - 87
  else if 65 ≤ c ∧ c ≤ 90 then c.toNat - 55
  else 36

def isDigit (base : Nat) (c : UInt8) : Bool :=
  digitValue c < base

/-- The value of a text of digits. -/
def valueOf (base : Nat) (text : List UInt8) : Nat :=
  Nat.ofDigits base (text.map digitValue).reverse

/-- The text behind `0x`, if a digit follows it. -/
def skipHexPrefix (text : List UInt8) : List UInt8 :=
  match text with
  | zero :: x :: c :: rest =>
      if zero = 48 ∧ (x = 120 ∨ x = 88) ∧ isDigit 16 c then c :: rest
      else zero :: x :: c :: rest
  | _ => text

def LONG_MAX : Int := 9223372036854775807

def LONG_MIN : Int := -9223372036854775808

/-- The digits at the beginning of a text, with a sign before them. -/
def signedValue (base : Nat) (negative : Bool) (text : List UInt8) : Int :=
  let text := if base = 16 then skipHexPrefix text else text
  let value : Int := valueOf base (text.takeWhile (isDigit base))
  if negative then max (-value) LONG_MIN else min value LONG_MAX

/-- The `int` that a `long` is converted to. -/
def intOfLong (n : Int) : Int :=
  n.bmod 4294967296

/-- `strtol(text, NULL, base)`, for a base of 10 or 16. -/
def strtol (text : List UInt8) (base : Nat) : Int :=
  match text.dropWhile isspace with
  | [] => 0
  | c :: rest =>
      if c = 45 then signedValue base true rest
      else if c = 43 then signedValue base false rest
      else signedValue base false (c :: rest)

/-- The digit that is written for a value below 16. -/
def hexDigit (value : Nat) : UInt8 :=
  if value < 10 then UInt8.ofNat (48 + value) else UInt8.ofNat (87 + value)

/-- `printf("%0<width>x", n)`, for a width that is not 0. -/
def printHex (width n : Nat) : List UInt8 :=
  (Nat.digitsAppend 16 width n).reverse.map hexDigit

/-- The capital digit for a value below 16. -/
def capitalDigit (value : Nat) : UInt8 :=
  if value < 10 then UInt8.ofNat (48 + value) else UInt8.ofNat (55 + value)

/-- `printf("%0<width>X", n)`, for a width that is not 0. -/
def printCapitalHex (width n : Nat) : List UInt8 :=
  (Nat.digitsAppend 16 width n).reverse.map capitalDigit

/-- `printf("%u", n)`. -/
def printDecimal (n : Nat) : List UInt8 :=
  (Nat.digitsAppend 10 1 n).reverse.map hexDigit

/-- A digit as `printHex` writes it. -/
def LowerHex (c : UInt8) : Prop :=
  (48 ≤ c ∧ c ≤ 57) ∨ (97 ≤ c ∧ c ≤ 102)

instance (c : UInt8) : Decidable (LowerHex c) :=
  inferInstanceAs (Decidable (_ ∨ _))

/-! ### Digits -/

theorem digitValue_hexDigit {value : Nat} (hvalue : value < 16) :
    digitValue (hexDigit value) = value := by
  have hall : ∀ value < 16, digitValue (hexDigit value) = value := by decide
  exact hall value hvalue

theorem lowerHex_hexDigit {value : Nat} (hvalue : value < 16) :
    LowerHex (hexDigit value) := by
  have hall : ∀ value < 16, LowerHex (hexDigit value) := by decide
  exact hall value hvalue

/-- What holds of every byte below 128 and of no other needs to be checked there
only. -/
theorem ascii_cases {P Q : UInt8 → Prop} (hP : ∀ c, P c → c < 128)
    (hall : ∀ n < 128, P (UInt8.ofNat n) → Q (UInt8.ofNat n)) {c : UInt8}
    (hc : P c) : Q c := by
  have hQ := hall c.toNat (UInt8.lt_iff_toNat_lt.mp (hP c hc))
  rw [UInt8.ofNat_toNat] at hQ
  exact hQ hc

theorem digitValue_lt_128 {c : UInt8} (hc : digitValue c < 36) : c < 128 := by
  unfold digitValue at hc
  split at hc
  · rename_i h
    exact UInt8.lt_of_le_of_lt h.2 (by decide)
  split at hc
  · rename_i h
    exact UInt8.lt_of_le_of_lt h.2 (by decide)
  split at hc
  · rename_i h
    exact UInt8.lt_of_le_of_lt h.2 (by decide)
  · omega

theorem hexDigit_digitValue {c : UInt8} (hc : LowerHex c) :
    digitValue c < 16 ∧ hexDigit (digitValue c) = c := by
  refine @ascii_cases LowerHex
    (fun c => digitValue c < 16 ∧ hexDigit (digitValue c) = c) (fun c hc => ?_)
    (by decide) c hc
  rcases hc with hc | hc
  · exact UInt8.lt_of_le_of_lt hc.2 (by decide)
  · exact UInt8.lt_of_le_of_lt hc.2 (by decide)

/-- A digit is no white space, and none of NUL, the quotes and the signs. -/
theorem digit_chars {c : UInt8} (hc : digitValue c < 36) :
    isspace c = false ∧ c ∉ ([0, 34, 39, 43, 45] : List UInt8) :=
  @ascii_cases (fun c => digitValue c < 36)
    (fun c => isspace c = false ∧ c ∉ ([0, 34, 39, 43, 45] : List UInt8))
    (fun _ => digitValue_lt_128) (by decide) c hc

theorem digits_chars {base : Nat} {text : List UInt8} (hbase : base ≤ 36)
    (htext : ∀ c ∈ text, isDigit base c = true) :
    ∀ c ∈ text, isspace c = false ∧ c ∉ ([0, 34, 39, 43, 45] : List UInt8) := by
  intro c hc
  have hlt : digitValue c < base := by simpa [isDigit] using htext c hc
  exact digit_chars (lt_of_lt_of_le hlt hbase)

theorem lt_of_isDigit {base : Nat} {text : List UInt8}
    (htext : ∀ c ∈ text, isDigit base c = true) :
    ∀ value ∈ (text.map digitValue).reverse, value < base := by
  intro value hvalue
  obtain ⟨c, hc, rfl⟩ := List.mem_map.mp (List.mem_reverse.mp hvalue)
  simpa [isDigit] using htext c hc

/-! ### Fields -/

theorem digits_printHex (width n : Nat) :
    ((printHex width n).map digitValue).reverse = Nat.digitsAppend 16 width n := by
  have hdigits : (Nat.digitsAppend 16 width n).map (digitValue ∘ hexDigit) =
      Nat.digitsAppend 16 width n := by
    refine (List.map_congr_left fun value hvalue => ?_).trans (List.map_id _)
    exact digitValue_hexDigit
      (Nat.lt_of_mem_digitsAppend (by decide) width value hvalue)
  rw [printHex, List.map_map, List.map_reverse, List.reverse_reverse, hdigits]

theorem valueOf_printHex (width n : Nat) : valueOf 16 (printHex width n) = n := by
  rw [valueOf, digits_printHex, Nat.digitsAppend,
    Nat.ofDigits_append_replicate_zero, Nat.ofDigits_digits]

theorem length_printHex {width n : Nat} (hn : n < 16 ^ width) :
    (printHex width n).length = width := by
  rw [printHex, List.length_map, List.length_reverse,
    Nat.length_digitsAppend (by decide) width hn]

theorem lowerHex_printHex (width n : Nat) :
    ∀ c ∈ printHex width n, LowerHex c := by
  intro c hc
  obtain ⟨value, hvalue, rfl⟩ := List.mem_map.mp hc
  exact lowerHex_hexDigit (Nat.lt_of_mem_digitsAppend (by decide) width value
    (List.mem_reverse.mp hvalue))

theorem valueOf_lt {text : List UInt8} {base : Nat} (hbase : 1 < base)
    (htext : ∀ c ∈ text, isDigit base c = true) :
    valueOf base text < base ^ text.length := by
  have hlt := Nat.ofDigits_lt_base_pow_length hbase (lt_of_isDigit htext)
  rwa [List.length_reverse, List.length_map] at hlt

theorem printHex_valueOf {text : List UInt8} (htext : ∀ c ∈ text, LowerHex c) :
    printHex text.length (valueOf 16 text) = text := by
  have hdigit (c : UInt8) (hc : c ∈ text) : isDigit 16 c = true := by
    simpa [isDigit] using (hexDigit_digitValue (htext c hc)).1
  have hinverse := (Nat.setInvOn_digitsAppend_ofDigits (show 1 < 16 by decide)
    text.length).1 (show (text.map digitValue).reverse ∈ _ from
      ⟨by simp, lt_of_isDigit hdigit⟩)
  rw [printHex, valueOf, hinverse, List.reverse_reverse, List.map_map]
  refine (List.map_congr_left fun c hc => ?_).trans (List.map_id _)
  exact (hexDigit_digitValue (htext c hc)).2

theorem digitValue_capitalDigit {value : Nat} (hvalue : value < 16) :
    digitValue (capitalDigit value) = value := by
  have hall : ∀ value < 16, digitValue (capitalDigit value) = value := by decide
  exact hall value hvalue

/-- A text that has the digits of a number for its digit values has the number for
its value. -/
theorem valueOf_map {base : Nat} {digit : Nat → UInt8} {values : List Nat}
    (hdigit : ∀ value ∈ values, digitValue (digit value) = value) :
    valueOf base (values.reverse.map digit) = Nat.ofDigits base values := by
  have hvalues : values.map (digitValue ∘ digit) = values :=
    (List.map_congr_left hdigit).trans (List.map_id _)
  rw [valueOf, List.map_map, List.map_reverse, List.reverse_reverse, hvalues]

theorem valueOf_printCapitalHex (width n : Nat) :
    valueOf 16 (printCapitalHex width n) = n := by
  rw [printCapitalHex, valueOf_map fun value hvalue => digitValue_capitalDigit
      (Nat.lt_of_mem_digitsAppend (by decide) width value hvalue),
    Nat.digitsAppend, Nat.ofDigits_append_replicate_zero, Nat.ofDigits_digits]

theorem length_printCapitalHex {width n : Nat} (hn : n < 16 ^ width) :
    (printCapitalHex width n).length = width := by
  rw [printCapitalHex, List.length_map, List.length_reverse,
    Nat.length_digitsAppend (by decide) width hn]

theorem isDigit_printCapitalHex (width n : Nat) :
    ∀ c ∈ printCapitalHex width n, isDigit 16 c = true := by
  intro c hc
  obtain ⟨value, hvalue, rfl⟩ := List.mem_map.mp hc
  have hlt := Nat.lt_of_mem_digitsAppend (by decide) width value
    (List.mem_reverse.mp hvalue)
  rw [isDigit, digitValue_capitalDigit hlt]
  exact decide_eq_true hlt

/-- A decimal number is written with the digits from `0` to `9`. -/
theorem chars_printDecimal (n : Nat) : ∀ c ∈ printDecimal n, 48 ≤ c ∧ c ≤ 57 := by
  intro c hc
  obtain ⟨value, hvalue, rfl⟩ := List.mem_map.mp hc
  have hlt := Nat.lt_of_mem_digitsAppend (by decide) 1 value
    (List.mem_reverse.mp hvalue)
  have hall : ∀ value < 10, 48 ≤ hexDigit value ∧ hexDigit value ≤ 57 := by decide
  exact hall value hlt

/-! ### Conversions -/

theorem intOfLong_of_bounds {n : Int} (hlow : -2147483648 ≤ n)
    (hhigh : n ≤ 2147483647) : intOfLong n = n := by
  rw [intOfLong, Int.bmod_def]
  omega

theorem skipHexPrefix_digits {text : List UInt8}
    (htext : ∀ c ∈ text, isDigit 16 c = true) : skipHexPrefix text = text := by
  rcases text with _ | ⟨zero, _ | ⟨x, _ | ⟨c, rest⟩⟩⟩
  · rfl
  · rfl
  · rfl
  · have hx := htext x (by simp)
    rw [skipHexPrefix, if_neg]
    rintro ⟨-, rfl | rfl, -⟩ <;> exact absurd hx (by decide)

theorem signedValue_digits {text : List UInt8} {base : Nat}
    (htext : ∀ c ∈ text, isDigit base c = true) (negative : Bool) :
    signedValue base negative text =
      if negative then max (-(valueOf base text : Int)) LONG_MIN
      else min (valueOf base text : Int) LONG_MAX := by
  have hskip : (if base = 16 then skipHexPrefix text else text) = text := by
    split
    · rename_i hbase
      subst hbase
      exact skipHexPrefix_digits htext
    · rfl
  have htake : text.takeWhile (isDigit base) = text :=
    List.takeWhile_eq_self_iff.mpr htext
  rw [signedValue, hskip, htake]

/-- A text of digits is converted to its value, if that is a `long`. -/
theorem strtol_digits {text : List UInt8} {base : Nat} (hbase : base ≤ 36)
    (htext : ∀ c ∈ text, isDigit base c = true)
    (hvalue : (valueOf base text : Int) ≤ LONG_MAX) :
    strtol text base = valueOf base text := by
  cases text with
  | nil => rfl
  | cons c rest =>
      obtain ⟨hspace, hchar⟩ := digits_chars hbase htext c (by simp)
      have hsign : c ≠ 45 ∧ c ≠ 43 := by
        constructor <;> rintro rfl <;> exact hchar (by decide)
      rw [strtol, List.dropWhile_cons_of_neg (by simp [hspace])]
      simp only [hsign, ↓reduceIte]
      rw [signedValue_digits htext, if_neg Bool.false_ne_true, min_eq_left hvalue]

/-- So is a text of digits behind a minus sign. -/
theorem strtol_minus {text : List UInt8} {base : Nat}
    (htext : ∀ c ∈ text, isDigit base c = true)
    (hvalue : LONG_MIN ≤ -(valueOf base text : Int)) :
    strtol (45 :: text) base = -(valueOf base text : Int) := by
  have hspace : isspace 45 = false := rfl
  rw [strtol, List.dropWhile_cons_of_neg (by simp [hspace])]
  simp only [↓reduceIte]
  rw [signedValue_digits htext, if_pos rfl, max_eq_left hvalue]

end Numeral
