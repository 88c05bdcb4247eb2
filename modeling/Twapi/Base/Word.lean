import Mathlib.Tactic.Common

/-!
The machine arithmetic of a 64-bit build: `DWORD`s, pointers, and the rounding
and pointer macros of `twapi.h`.

A `DWORD` and a pointer are natural numbers below `2^32` and `2^64`; every
operation that can leave that range reduces its result. A C `int` is an
integer in the signed 32-bit range.
-/

namespace Twapi.Base

/-- Conversion to a `DWORD`. -/
def dword (n : Nat) : Nat := n % 4294967296

/-- Conversion to a 64-bit pointer value. -/
def dwordPtr (n : Nat) : Nat := n % 18446744073709551616

/-- Conversion to a C `int`: the representative in `[-2^31, 2^31)`. -/
def toInt (z : Int) : Int := (z + 2147483648) % 4294967296 - 2147483648

/-- A C `int` stored into a `DWORD`. -/
def ofInt (z : Int) : Nat := (z % 4294967296).toNat

/-- `INT_MAX`. -/
def intMax : Nat := 2147483647

/-- `ROUNDUP` of a `DWORD`, stored into a `DWORD`: the sum is formed in
`size_t`, so only the store can wrap. -/
def roundUp (x : Nat) : Nat := dword ((7 + x) / 8 * 8)

/-- `ROUNDDOWN` of a `DWORD`. -/
def roundDown (x : Nat) : Nat := x / 8 * 8

/-- `ALIGNPTR(base, offset)`. -/
def alignPtr (base offset : Nat) : Nat := dwordPtr (7 + dwordPtr (offset + base)) / 8 * 8

/-- `ADDPTR(p, incr)`. -/
def addPtr (p incr : Nat) : Nat := dwordPtr (incr + p)

/-- `SUBPTR(p, decr)`. -/
def subPtr (p decr : Nat) : Nat := dwordPtr (p + (18446744073709551616 - decr))

/-- `PTRDIFF32(p, q)`. -/
def ptrDiff32 (p q : Nat) : Int := toInt ((p : Int) - q)

/-! ### Values when nothing wraps -/

theorem roundUp_of_le {x : Nat} (h : x ≤ 4294967288) : roundUp x = (7 + x) / 8 * 8 := by
  unfold roundUp dword
  omega

theorem roundUp_lt (x : Nat) : roundUp x < 4294967296 := Nat.mod_lt _ (by decide)

@[simp] theorem roundUp_mod_eight (x : Nat) : roundUp x % 8 = 0 := by
  unfold roundUp dword
  omega

theorem le_roundUp {x : Nat} (h : x ≤ 4294967288) : x ≤ roundUp x := by
  rw [roundUp_of_le h]
  omega

theorem roundDown_le (x : Nat) : roundDown x ≤ x := by
  unfold roundDown
  omega

@[simp] theorem roundDown_mod_eight (x : Nat) : roundDown x % 8 = 0 := by
  unfold roundDown
  omega

theorem addPtr_of_lt {p incr : Nat} (h : p + incr < 18446744073709551616) :
    addPtr p incr = p + incr := by
  unfold addPtr dwordPtr
  omega

theorem subPtr_of_le {p decr : Nat} (h : decr ≤ p) (hp : p < 18446744073709551616) :
    subPtr p decr = p - decr := by
  unfold subPtr dwordPtr
  omega

/-- Rounding up an address that is already aligned does nothing. -/
theorem alignPtr_of_aligned {base offset : Nat} (h : (base + offset) % 8 = 0)
    (hlt : base + offset < 18446744073709551608) : alignPtr base offset = base + offset := by
  unfold alignPtr dwordPtr
  omega

/-- A difference of pointers less than 4 GiB apart is exact as a `DWORD`. -/
theorem ofInt_ptrDiff32 {p q : Nat} (hqp : q ≤ p) (h : p - q < 4294967296) :
    ofInt (ptrDiff32 p q) = p - q := by
  unfold ofInt ptrDiff32 toInt
  omega

end Twapi.Base
