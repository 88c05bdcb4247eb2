import Mathlib.Data.Nat.Digits.Lemmas
import Mathlib.Tactic.Common

/-!
Numbers and 16-bit units in byte strings, least significant byte first.

* `ofBytes`, `toBytes` — natural numbers; `signedOf` — two's complement.
* `units`, `wide` — strings of 16-bit units.
-/

namespace Twapi.Lib

/-! ### Natural numbers -/

def ofBytes (bytes : List UInt8) : Nat := Nat.ofDigits 256 (bytes.map UInt8.toNat)

/-- The last `width` bytes of a number. -/
def toBytes : (width n : Nat) → List UInt8
  | 0, _ => []
  | width + 1, n => UInt8.ofNat n :: toBytes width (n / 256)

@[simp] theorem length_toBytes (width n : Nat) : (toBytes width n).length = width := by
  induction width generalizing n with
  | zero => rfl
  | succ width ih => exact congrArg (· + 1) (ih _)

theorem ofBytes_cons (b : UInt8) (bytes : List UInt8) :
    ofBytes (b :: bytes) = b.toNat + 256 * ofBytes bytes := Nat.ofDigits_cons ..

theorem ofBytes_lt (bytes : List UInt8) : ofBytes bytes < 256 ^ bytes.length := by
  induction bytes with
  | nil => exact Nat.one_pos
  | cons b bytes ih =>
    have small := b.toNat_lt
    rw [ofBytes_cons, List.length_cons, Nat.pow_succ]
    omega

theorem ofBytes_toBytes (width n : Nat) : ofBytes (toBytes width n) = n % 256 ^ width := by
  induction width generalizing n with
  | zero => exact (Nat.mod_one n).symm
  | succ width ih =>
    rw [toBytes, ofBytes_cons, ih, Nat.pow_succ', Nat.mod_mul]
    simp

theorem ofBytes_toBytes_of_lt {width n : Nat} (h : n < 256 ^ width) :
    ofBytes (toBytes width n) = n := by
  rw [ofBytes_toBytes, Nat.mod_eq_of_lt h]

theorem toBytes_ofBytes (bytes : List UInt8) : toBytes bytes.length (ofBytes bytes) = bytes := by
  induction bytes with
  | nil => rfl
  | cons b bytes ih =>
    have small := b.toNat_lt
    have low : UInt8.ofNat (b.toNat + 256 * ofBytes bytes) = b := by
      rw [← UInt8.toNat_inj, UInt8.toNat_ofNat']
      omega
    have high : (b.toNat + 256 * ofBytes bytes) / 256 = ofBytes bytes := by omega
    rw [ofBytes_cons, List.length_cons, toBytes, low, high, ih]

/-! ### Two's complement -/

def signedOf (bytes : List UInt8) : Int := (ofBytes bytes : Int).bmod (256 ^ bytes.length)

theorem signedOf_toBytes {width : Nat} {z : Int} (low : -(256 ^ width / 2) ≤ z)
    (high : z < 256 ^ width / 2) : signedOf (toBytes width (z % 256 ^ width).toNat) = z := by
  have pos : (0 : Int) < 256 ^ width := Int.pow_pos (by decide)
  have nonneg := Int.emod_nonneg z (Int.ne_of_gt pos)
  have small := Int.emod_lt_of_pos z pos
  have value : (ofBytes (toBytes width (z % 256 ^ width).toNat) : Int) = z % 256 ^ width := by
    rw [ofBytes_toBytes_of_lt (by zify; omega), Int.toNat_of_nonneg nonneg]
  rw [signedOf, value, length_toBytes]
  have size : ((256 ^ width : Nat) : Int) = 256 ^ width := by push_cast; rfl
  rw [← size, Int.emod_bmod]
  apply Int.bmod_eq_of_le
  · rw [size]
    exact low
  · rw [size]
    omega

/-! ### 16-bit units -/

/-- The units of a byte string; an odd byte at the end is left out. -/
def units : List UInt8 → List UInt16
  | a :: b :: rest => UInt16.ofNat (ofBytes [a, b]) :: units rest
  | _ => []

def wide (text : List UInt16) : List UInt8 := text.flatMap fun unit => toBytes 2 unit.toNat

@[simp] theorem wide_cons (unit : UInt16) (text : List UInt16) :
    wide (unit :: text) = toBytes 2 unit.toNat ++ wide text := List.flatMap_cons

@[simp] theorem length_wide (text : List UInt16) : (wide text).length = 2 * text.length := by
  induction text with
  | nil => rfl
  | cons unit text ih =>
    rw [wide_cons, List.length_append, length_toBytes, ih, List.length_cons]
    omega

theorem units_wide_append (text : List UInt16) (rest : List UInt8) :
    units (wide text ++ rest) = text ++ units rest := by
  induction text with
  | nil => rfl
  | cons unit text ih =>
    have value : UInt16.ofNat (ofBytes (toBytes 2 unit.toNat)) = unit := by
      rw [ofBytes_toBytes_of_lt unit.toNat_lt, UInt16.ofNat_toNat]
    rw [wide_cons, List.append_assoc]
    change UInt16.ofNat (ofBytes (toBytes 2 unit.toNat)) :: units (wide text ++ rest) = _
    rw [value, ih]
    rfl

theorem length_units (bytes : List UInt8) : (units bytes).length = bytes.length / 2 := by
  fun_induction units bytes with
  | case1 a b rest ih =>
    simp only [List.length_cons, ih]
    omega
  | case2 bytes short =>
    match bytes, short with
    | [], _ => rfl
    | [_], _ => simp
    | a :: b :: rest, short => exact (short a b rest rfl).elim

theorem wide_units {bytes : List UInt8} (even : bytes.length % 2 = 0) : wide (units bytes) = bytes := by
  fun_induction units bytes with
  | case1 a b rest ih =>
    have low := ofBytes_lt [a, b]
    simp only [List.length_cons, List.length_nil] at low
    have rest_even : rest.length % 2 = 0 := by
      simp only [List.length_cons] at even
      omega
    have value : (UInt16.ofNat (ofBytes [a, b])).toNat = ofBytes [a, b] := by
      rw [UInt16.toNat_ofNat', Nat.mod_eq_of_lt (by omega)]
    rw [wide_cons, value, ih rest_even]
    exact congrArg (· ++ rest) (toBytes_ofBytes [a, b])
  | case2 bytes short =>
    match bytes, short with
    | [], _ => rfl
    | [_], _ => cases even
    | a :: b :: rest, short => exact (short a b rest rfl).elim

end Twapi.Lib
