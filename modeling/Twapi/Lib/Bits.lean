import Mathlib.Data.BitVec

/-!
Unions of bit vectors, and their lowest bits.

* `union_bits` — a bit vector is the union of its bits.
* `takeBits` — names of bit vectors are taken for the bits of one, which are reset.
* `union_takeBits` — nothing is lost, and nothing that was not there is taken, if each bit
  vector is one bit or has only bits of those before it.
* `setWidth_ofInt`, `setWidth_eq_ofInt` — the lowest bits of a number.
-/

namespace Twapi.Lib

open BitVec

variable {w : Nat}

def union (xs : List (BitVec w)) : BitVec w := xs.foldr (· ||| ·) 0

@[simp] theorem union_nil : union ([] : List (BitVec w)) = 0 := rfl

@[simp] theorem union_cons (x : BitVec w) (xs : List (BitVec w)) :
    union (x :: xs) = x ||| union xs := rfl

@[simp] theorem union_append (xs ys : List (BitVec w)) :
    union (xs ++ ys) = union xs ||| union ys := by
  induction xs with
  | nil => exact zero_or.symm
  | cons x xs ih => rw [List.cons_append, union_cons, union_cons, ih, BitVec.or_assoc]

theorem getLsbD_union (xs : List (BitVec w)) (i : Nat) :
    (union xs).getLsbD i = xs.any (·.getLsbD i) := by
  induction xs with
  | nil => exact getLsbD_zero
  | cons x xs ih => rw [union_cons, getLsbD_or, ih, List.any_cons]

/-! ### Bits -/

variable {i v : Nat}

theorem and_twoPow_ne_zero_iff (m : BitVec w) (small : i < w) :
    m &&& BitVec.twoPow w i ≠ 0 ↔ m.getLsbD i = true := by
  rw [and_twoPow]
  cases m.getLsbD i with
  | false => exact iff_of_false (fun ne => ne rfl) Bool.false_ne_true
  | true =>
    refine iff_of_true (fun zero => ?_) rfl
    have bit : (twoPow w i).getLsbD i = true := by
      rw [getLsbD_twoPow, decide_eq_true small, decide_eq_true rfl]
      rfl
    rw [if_pos rfl] at zero
    rw [zero, ofNat_eq_ofNat, getLsbD_zero] at bit
    exact Bool.false_ne_true bit

/-- One bit is there as a whole or not at all. -/
theorem and_twoPow_of_ne_zero {m : BitVec w} (there : m &&& BitVec.twoPow w i ≠ 0) :
    m &&& BitVec.twoPow w i = BitVec.twoPow w i := by
  rw [and_twoPow] at there ⊢
  cases bit : m.getLsbD i with
  | false =>
    rw [bit] at there
    exact absurd rfl there
  | true => exact if_pos rfl

theorem union_bits (m : BitVec w) :
    union (((List.range w).filter fun i => m &&& BitVec.twoPow w i ≠ 0).map (BitVec.twoPow w)) =
      m := by
  refine eq_of_getLsbD_eq fun i small => ?_
  rw [getLsbD_union, Bool.eq_iff_iff, List.any_eq_true]
  constructor
  · rintro ⟨x, mem, bit⟩
    obtain ⟨j, filtered, rfl⟩ := List.mem_map.mp mem
    obtain ⟨range, there⟩ := List.mem_filter.mp filtered
    rw [getLsbD_twoPow, Bool.and_eq_true, decide_eq_true_iff, decide_eq_true_iff] at bit
    rw [← bit.2]
    exact (and_twoPow_ne_zero_iff m (List.mem_range.mp range)).mp (of_decide_eq_true there)
  · intro bit
    refine ⟨twoPow w i, List.mem_map_of_mem (List.mem_filter.mpr ⟨List.mem_range.mpr small,
      decide_eq_true ((and_twoPow_ne_zero_iff m small).mpr bit)⟩), ?_⟩
    rw [getLsbD_twoPow, decide_eq_true small, decide_eq_true rfl]
    rfl

/-! ### Names for bits -/

/-- The bit vectors with a bit that is set, which is reset. -/
def takeBits : List (BitVec w) → BitVec w → List (BitVec w) × BitVec w
  | [], m => ([], m)
  | x :: xs, m =>
    if x &&& m ≠ 0 then (x :: (takeBits xs (m &&& ~~~x)).1, (takeBits xs (m &&& ~~~x)).2)
    else takeBits xs m

/-- Each is one bit, or has none but those of `before` and the ones before it. -/
def Apart (before : BitVec w) : List (BitVec w) → Prop
  | [] => True
  | x :: xs => ((∃ i < w, x = BitVec.twoPow w i) ∨ x &&& ~~~before = 0) ∧ Apart (before ||| x) xs

instance Apart.decidable : (before : BitVec w) → (xs : List (BitVec w)) →
    Decidable (Apart before xs)
  | _, [] => isTrue trivial
  | before, x :: xs =>
    have := Apart.decidable (before ||| x) xs
    inferInstanceAs (Decidable (_ ∧ _))

theorem and_not_or_and (m x : BitVec w) : m &&& ~~~x ||| m &&& x = m := by
  rw [← BitVec.and_or_distrib_left, BitVec.or_comm, BitVec.or_not_self, BitVec.and_allOnes]

theorem and_eq_zero_of_subset {m x before : BitVec w} (reset : m &&& before = 0)
    (subset : x &&& ~~~before = 0) : x &&& m = 0 := by
  have inside : x &&& before = x := by
    have split := and_not_or_and x before
    rw [subset] at split
    exact zero_or.symm.trans split
  rw [← inside, BitVec.and_assoc, BitVec.and_comm before, reset]
  exact and_zero

/-- The bits that were reset before are still so. -/
theorem union_takeBits {xs : List (BitVec w)} {m before : BitVec w} (apart : Apart before xs)
    (reset : m &&& before = 0) : union (takeBits xs m).1 ||| (takeBits xs m).2 = m := by
  induction xs generalizing m before with
  | nil => exact zero_or
  | cons x xs ih =>
    obtain ⟨one, apart⟩ := apart
    by_cases there : x &&& m ≠ 0
    · have single : x &&& m = x := by
        rcases one with ⟨i, -, rfl⟩ | subset
        · rw [BitVec.and_comm] at there ⊢
          exact and_twoPow_of_ne_zero there
        · exact absurd (and_eq_zero_of_subset reset subset) there
      have rest : m &&& ~~~x &&& (before ||| x) = 0 := by
        have left : m &&& ~~~x &&& before = 0 := by
          rw [BitVec.and_assoc, BitVec.and_comm _ before, ← BitVec.and_assoc, reset]
          exact zero_and
        have right : m &&& ~~~x &&& x = 0 := by
          rw [BitVec.and_assoc, BitVec.not_and_self]
          exact and_zero
        rw [and_or_distrib_left, left, right]
        exact or_zero
      rw [takeBits, if_pos there]
      change x ||| union (takeBits xs (m &&& ~~~x)).1 ||| (takeBits xs (m &&& ~~~x)).2 = m
      rw [BitVec.or_assoc, ih apart rest, BitVec.or_comm]
      have split := and_not_or_and m x
      rwa [and_comm m x, single] at split
    · have rest : m &&& (before ||| x) = 0 := by
        rw [and_or_distrib_left, reset, and_comm m, not_not.mp there]
        exact or_zero
      rw [takeBits, if_neg there]
      exact ih apart rest

theorem or_of_and_eq {x m : BitVec w} (inside : x &&& m = x) : x ||| m = m := by
  have split := and_not_or_and m x
  rw [and_comm m x, inside] at split
  rw [← split, BitVec.or_comm, BitVec.or_assoc, BitVec.or_self]

theorem union_filter_or (xs : List (BitVec w)) (m : BitVec w) :
    union (xs.filter fun x => x &&& m = x) ||| m = m := by
  induction xs with
  | nil => exact zero_or
  | cons x xs ih =>
    rw [List.filter_cons]
    split
    · rename_i inside
      rw [union_cons, BitVec.or_assoc, ih]
      exact or_of_and_eq (of_decide_eq_true inside)
    · exact ih

/-- The lowest bits of a number. -/
theorem setWidth_ofInt (fits : w ≤ v) (n : Int) :
    (BitVec.ofInt v n).setWidth w = BitVec.ofInt w n := by
  apply eq_of_toNat_eq
  have nonneg (k : Nat) : 0 ≤ n % (2 ^ k : Nat) :=
    Int.emod_nonneg n (Int.natCast_ne_zero.mpr (Nat.two_pow_pos k).ne')
  have divides : ((2 ^ w : Nat) : Int) ∣ (2 ^ v : Nat) :=
    Int.natCast_dvd_natCast.mpr (Nat.pow_dvd_pow 2 fits)
  rw [toNat_setWidth, toNat_ofInt, toNat_ofInt, ← Int.natCast_inj,
    Int.natCast_emod, Int.toNat_of_nonneg (nonneg v), Int.toNat_of_nonneg (nonneg w),
    Int.emod_emod_of_dvd n divides]

theorem setWidth_eq_ofInt (fits : w ≤ v) (x : BitVec v) :
    x.setWidth w = BitVec.ofInt w x.toInt := by
  rw [← setWidth_ofInt fits, ofInt_toInt]

end Twapi.Lib
