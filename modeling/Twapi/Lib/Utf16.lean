import Mathlib.Data.List.Basic
import Mathlib.Tactic.Common

/-!
Characters as 16-bit units.

* `unitsOf`, `utf16` — a character outside the basic plane is a pair of surrogates.
* `ofUtf16` — the characters of a string of units, with one to stand for a surrogate that is
  not part of a pair.
* `ofUtf16_utf16` — a string is got back.
-/

namespace Twapi.Lib

/-- The character is outside the basic plane. -/
def Supplementary (c : Char) : Prop := 0x10000 ≤ c.toNat

instance (c : Char) : Decidable (Supplementary c) := inferInstanceAs (Decidable (_ ≤ _))

def unitsOf (c : Char) : List UInt16 :=
  if Supplementary c then
    [UInt16.ofNat (0xD800 + (c.toNat - 0x10000) / 0x400),
      UInt16.ofNat (0xDC00 + (c.toNat - 0x10000) % 0x400)]
  else [UInt16.ofNat c.toNat]

def utf16 (s : List Char) : List UInt16 := s.flatMap unitsOf

@[simp] theorem utf16_cons (c : Char) (s : List Char) : utf16 (c :: s) = unitsOf c ++ utf16 s :=
  List.flatMap_cons

theorem length_unitsOf (c : Char) :
    (unitsOf c).length = if Supplementary c then 2 else 1 := by
  rw [unitsOf]
  split <;> rfl

theorem length_le_utf16 (s : List Char) : s.length ≤ (utf16 s).length := by
  induction s with
  | nil => exact Nat.le_refl _
  | cons c s ih =>
    have pos : 1 ≤ (unitsOf c).length := by
      rw [length_unitsOf]
      split <;> omega
    rw [utf16_cons, List.length_append, List.length_cons]
    omega

/-- There are as many units as characters if all are in the basic plane. -/
theorem length_utf16_eq_iff {s : List Char} :
    (utf16 s).length = s.length ↔ ∀ c ∈ s, ¬ Supplementary c := by
  induction s with
  | nil => simp [utf16]
  | cons c s ih =>
    have le := length_le_utf16 s
    rw [utf16_cons, List.length_append, length_unitsOf, List.length_cons, List.forall_mem_cons]
    by_cases supplementary : Supplementary c
    · rw [if_pos supplementary]
      refine iff_of_false (by omega) fun both => both.1 supplementary
    · rw [if_neg supplementary, ← ih]
      simp only [supplementary, not_false_eq_true, true_and]
      omega

theorem toNat_lt_or (c : Char) : c.toNat < 0xD800 ∨ 0xDFFF < c.toNat ∧ c.toNat < 0x110000 :=
  c.valid

/-- Only the null character has a unit that is zero. -/
theorem zero_notMem_utf16 {s : List Char} (nulFree : Char.ofNat 0 ∉ s) : 0 ∉ utf16 s := by
  intro mem
  obtain ⟨c, among, unit⟩ := List.mem_flatMap.mp mem
  have range := toNat_lt_or c
  rw [unitsOf] at unit
  split at unit
  next supplementary =>
    have supplementary : 0x10000 ≤ c.toNat := supplementary
    simp only [List.mem_cons, List.not_mem_nil, or_false, ← UInt16.toNat_inj,
      UInt16.toNat_ofNat'] at unit
    change 0 = _ ∨ 0 = _ at unit
    omega
  next basic =>
    have basic : ¬ 0x10000 ≤ c.toNat := basic
    simp only [List.mem_cons, List.not_mem_nil, or_false, ← UInt16.toNat_inj,
      UInt16.toNat_ofNat'] at unit
    change 0 = _ at unit
    have zero : c.toNat = 0 := by omega
    have null : c = Char.ofNat 0 := by
      rw [← Char.ofNat_toNat c, zero]
    exact nulFree (null ▸ among)

def IsHigh (u : UInt16) : Prop := 0xD800 ≤ u.toNat ∧ u.toNat < 0xDC00
def IsLow (u : UInt16) : Prop := 0xDC00 ≤ u.toNat ∧ u.toNat < 0xE000

instance (u : UInt16) : Decidable (IsHigh u) := inferInstanceAs (Decidable (_ ∧ _))
instance (u : UInt16) : Decidable (IsLow u) := inferInstanceAs (Decidable (_ ∧ _))

/-- The characters of a string of units; `lone` is for surrogates outside a pair. -/
def ofUtf16 (lone : Char) : List UInt16 → List Char
  | [] => []
  | [u] => [if IsHigh u ∨ IsLow u then lone else Char.ofNat u.toNat]
  | u :: v :: rest =>
    if IsHigh u then
      if IsLow v then
        Char.ofNat (0x10000 + (u.toNat - 0xD800) * 0x400 + (v.toNat - 0xDC00)) ::
          ofUtf16 lone rest
      else lone :: ofUtf16 lone (v :: rest)
    else if IsLow u then lone :: ofUtf16 lone (v :: rest)
    else Char.ofNat u.toNat :: ofUtf16 lone (v :: rest)

theorem ofUtf16_basic (lone : Char) {u : UInt16} (high : ¬ IsHigh u) (low : ¬ IsLow u)
    (rest : List UInt16) : ofUtf16 lone (u :: rest) = Char.ofNat u.toNat :: ofUtf16 lone rest := by
  cases rest with
  | nil => simp [ofUtf16, high, low]
  | cons v rest => simp [ofUtf16, high, low]

theorem ofUtf16_unitsOf (lone c : Char) (rest : List UInt16) :
    ofUtf16 lone (unitsOf c ++ rest) = c :: ofUtf16 lone rest := by
  have range := toNat_lt_or c
  rw [unitsOf]
  split
  next supplementary =>
    have supplementary : 0x10000 ≤ c.toNat := supplementary
    have high : (UInt16.ofNat (0xD800 + (c.toNat - 0x10000) / 0x400)).toNat =
        0xD800 + (c.toNat - 0x10000) / 0x400 := by
      rw [UInt16.toNat_ofNat']
      omega
    have low : (UInt16.ofNat (0xDC00 + (c.toNat - 0x10000) % 0x400)).toNat =
        0xDC00 + (c.toNat - 0x10000) % 0x400 := by
      rw [UInt16.toNat_ofNat']
      omega
    have isHigh : IsHigh (UInt16.ofNat (0xD800 + (c.toNat - 0x10000) / 0x400)) := by
      rw [IsHigh, high]
      omega
    have isLow : IsLow (UInt16.ofNat (0xDC00 + (c.toNat - 0x10000) % 0x400)) := by
      rw [IsLow, low]
      omega
    have joined : 0x10000 + (0xD800 + (c.toNat - 0x10000) / 0x400 - 0xD800) * 0x400 +
        (0xDC00 + (c.toNat - 0x10000) % 0x400 - 0xDC00) = c.toNat := by omega
    rw [List.cons_append, List.cons_append, List.nil_append, ofUtf16, if_pos isHigh,
      if_pos isLow, high, low, joined, Char.ofNat_toNat]
  next basic =>
    have basic : ¬ 0x10000 ≤ c.toNat := basic
    have unit : (UInt16.ofNat c.toNat).toNat = c.toNat := by
      rw [UInt16.toNat_ofNat']
      omega
    have high : ¬ IsHigh (UInt16.ofNat c.toNat) := by
      rw [IsHigh, unit]
      omega
    have low : ¬ IsLow (UInt16.ofNat c.toNat) := by
      rw [IsLow, unit]
      omega
    rw [List.singleton_append, ofUtf16_basic lone high low, unit, Char.ofNat_toNat]

@[simp] theorem ofUtf16_utf16 (lone : Char) (s : List Char) : ofUtf16 lone (utf16 s) = s := by
  induction s with
  | nil => rfl
  | cons c s ih => rw [utf16_cons, ofUtf16_unitsOf, ih]

end Twapi.Lib
