import Mathlib.Data.List.Induction
import Mathlib.Tactic.Ring

/-!
Numbers in hexadecimal, in upper case.

* `hexDigits` — as many digits as are asked for.
* `padded` — at least so many, and as many as it takes.
* `hexNumber` — the number of digits in either case.
* `padded_eq`, `length_padded_le_iff` — where the two writings agree.
-/

namespace Twapi.Lib

/-! ### Digits -/

def upperDigit (d : Nat) : Char := (Nat.digitChar d).toUpper

def hexValue (c : Char) : Option Nat :=
  if '0' ≤ c ∧ c ≤ '9' then some (c.toNat - 48)
  else if 'a' ≤ c ∧ c ≤ 'f' then some (c.toNat - 87)
  else if 'A' ≤ c ∧ c ≤ 'F' then some (c.toNat - 55)
  else none

/-- The last digits of a number. -/
def hexDigits : (width n : Nat) → List Char
  | 0, _ => []
  | width + 1, n => hexDigits width (n / 16) ++ [upperDigit (n % 16)]

def hexNumber (cs : List Char) : Option Nat :=
  cs.foldlM (fun n c => (hexValue c).map fun d => 16 * n + d) 0

/-- The digits of a number, with zeros before them up to a width. -/
def padded (width n : Nat) : List Char :=
  ((Nat.toDigits 16 n).map Char.toUpper).leftpad width '0'

variable {d width n most : Nat}

theorem hexValue_upperDigit (small : d < 16) : hexValue (upperDigit d) = some d := by
  revert d
  decide

theorem upperDigit_eq_zero_iff (small : d < 16) : upperDigit d = '0' ↔ d = 0 := by
  revert d
  decide

@[simp] theorem length_hexDigits (width n : Nat) : (hexDigits width n).length = width := by
  induction width generalizing n with
  | zero => rfl
  | succ width ih => rw [hexDigits, List.length_append, ih, List.length_singleton]

theorem hexNumber_snoc (cs : List Char) (c : Char) :
    hexNumber (cs ++ [c]) =
      (hexNumber cs).bind fun n => (hexValue c).map fun d => 16 * n + d := by
  rw [hexNumber, List.foldlM_append]
  refine congrArg (Option.bind _) (funext fun n => ?_)
  rw [List.foldlM_cons]
  exact Option.bind_fun_some _

theorem hexNumber_hexDigits (width n : Nat) :
    hexNumber (hexDigits width n) = some (n % 16 ^ width) := by
  induction width generalizing n with
  | zero => rw [Nat.pow_zero, Nat.mod_one]; rfl
  | succ width ih =>
    rw [hexDigits, hexNumber_snoc, ih, hexValue_upperDigit (Nat.mod_lt n (by decide)),
      Nat.pow_succ', Nat.mod_mul, Nat.add_comm]
    rfl

/-! ### Texts of digits -/

variable {c : Char}

theorem hexValue_lt (value : hexValue c = some d) : d < 16 := by
  have bound {a b : Char} (between : a ≤ c ∧ c ≤ b) : a.toNat ≤ c.toNat ∧ c.toNat ≤ b.toNat :=
    between
  unfold hexValue at value
  split at value
  · obtain ⟨-, most⟩ := bound ‹_›
    have last : '9'.toNat = 57 := rfl
    cases value
    omega
  · split at value
    · obtain ⟨-, most⟩ := bound ‹_›
      have last : 'f'.toNat = 102 := rfl
      cases value
      omega
    · split at value
      · obtain ⟨-, most⟩ := bound ‹_›
        have last : 'F'.toNat = 70 := rfl
        cases value
        omega
      · cases value

/-- A digit, and no letter in lower case. -/
def isUpperHex (c : Char) : Bool := (hexValue c).any fun d => upperDigit d = c

theorem isUpperHex_iff : isUpperHex c = true ↔ ∃ d < 16, c = upperDigit d := by
  rw [isUpperHex, Option.any_eq_true]
  constructor
  · rintro ⟨d, value, same⟩
    exact ⟨d, hexValue_lt value, (of_decide_eq_true same).symm⟩
  · rintro ⟨d, small, rfl⟩
    exact ⟨d, hexValue_upperDigit small, decide_eq_true rfl⟩

theorem isUpperHex_of_mem (mem : c ∈ hexDigits width n) :
    isUpperHex c = true := by
  induction width generalizing n with
  | zero => cases mem
  | succ width ih =>
    rcases List.mem_append.mp mem with before | last
    · exact ih before
    · rw [List.mem_singleton.mp last]
      exact isUpperHex_iff.mpr ⟨n % 16, Nat.mod_lt n (by decide), rfl⟩

/-- A text of such digits is that of its number. -/
theorem hexDigits_of_upper {cs : List Char} (upper : ∀ c ∈ cs, isUpperHex c = true) :
    ∃ n < 16 ^ cs.length, cs = hexDigits cs.length n := by
  induction cs using List.reverseRecOn with
  | nil => exact ⟨0, Nat.one_pos, rfl⟩
  | append_singleton cs c ih =>
    obtain ⟨n, small, same⟩ := ih fun c mem => upper c (List.mem_append_left _ mem)
    obtain ⟨d, digit, rfl⟩ :=
      isUpperHex_iff.mp (upper c (List.mem_append_right _ (List.mem_singleton_self c)))
    rw [List.length_append, List.length_singleton]
    refine ⟨16 * n + d, by rw [Nat.pow_succ]; omega, ?_⟩
    rw [hexDigits, show (16 * n + d) / 16 = n by omega, show (16 * n + d) % 16 = d by omega,
      ← same]

/-! ### Padding -/

theorem hexDigits_add (small : n < 16 ^ width) (zeros : Nat) :
    hexDigits (zeros + width) n = List.replicate zeros '0' ++ hexDigits width n := by
  induction width generalizing n with
  | zero =>
    obtain rfl : n = 0 := by simpa using small
    rw [Nat.add_zero, hexDigits, List.append_nil]
    induction zeros with
    | zero => rfl
    | succ zeros ih =>
      rw [hexDigits, Nat.zero_div, ih, List.replicate_succ']
      rfl
  | succ width ih =>
    rw [← Nat.add_assoc, hexDigits, hexDigits, ih (by rw [Nat.pow_succ] at small; omega),
      List.append_assoc]

/-- The number of digits that a number takes. -/
def hexLength (n : Nat) : Nat := (Nat.toDigits 16 n).length

theorem toDigits_eq (n : Nat) :
    (Nat.toDigits 16 n).map Char.toUpper = hexDigits (hexLength n) n ∧
      ∀ width, 0 < width → (hexLength n ≤ width ↔ n < 16 ^ width) := by
  induction n using Nat.strongRecOn with
  | ind n ih =>
    unfold hexLength
    rw [Nat.toDigits_eq_if (by decide)]
    split
    · rename_i small
      refine ⟨?_, fun width pos => iff_of_true pos ?_⟩
      · rw [List.length_singleton, hexDigits, Nat.mod_eq_of_lt small]
        rfl
      · exact Nat.lt_of_lt_of_le small (Nat.le_self_pow (Nat.ne_of_gt pos) 16)
    · rename_i large
      obtain ⟨digits, length⟩ := ih (n / 16) (by omega)
      rw [List.length_append, List.length_singleton, List.map_append, digits]
      refine ⟨rfl, fun width pos => ?_⟩
      obtain ⟨width, rfl⟩ := Nat.exists_eq_succ_of_ne_zero (Nat.ne_of_gt pos)
      rw [Nat.succ_eq_add_one, Nat.add_le_add_iff_right, Nat.pow_succ]
      cases width with
      | zero =>
        have some_ : 0 < (Nat.toDigits 16 (n / 16)).length :=
          List.length_pos_iff.mpr Nat.toDigits_ne_nil
        omega
      | succ width =>
        refine (length (width + 1) (Nat.succ_pos width)).trans ?_
        rw [Nat.div_lt_iff_lt_mul (by decide)]

theorem padded_eq (width n : Nat) : padded width n = hexDigits (max width (hexLength n)) n := by
  rw [padded, (toDigits_eq n).1, List.leftpad, length_hexDigits]
  have pos : 0 < hexLength n := List.length_pos_iff.mpr Nat.toDigits_ne_nil
  have small := ((toDigits_eq n).2 (hexLength n) pos).mp (Nat.le_refl _)
  rw [← hexDigits_add small,
    show width - hexLength n + hexLength n = max width (hexLength n) by omega]

theorem length_padded_le_iff (pos : 0 < most) (fits : width ≤ most) :
    (padded width n).length ≤ most ↔ n < 16 ^ most := by
  rw [padded_eq, length_hexDigits, Nat.max_le, and_iff_right fits, (toDigits_eq n).2 most pos]

theorem padded_eq_hexDigits (fits : width ≤ most) (some_ : 0 < most) (low : 16 ^ most ≤ n)
    (high : n < 16 ^ (most + 1)) :
    padded width n = hexDigits (most + 1) n := by
  have atMost := ((toDigits_eq n).2 (most + 1) (Nat.succ_pos most)).mpr high
  have atLeast : ¬ hexLength n ≤ most := fun le =>
    Nat.not_lt.mpr low (((toDigits_eq n).2 most some_).mp le)
  rw [padded_eq, show max width (hexLength n) = most + 1 by omega]

theorem padded_eq_of_lt (pos : 0 < width) (small : n < 16 ^ width) :
    padded width n = hexDigits width n := by
  rw [padded_eq, Nat.max_eq_left (((toDigits_eq n).2 width pos).mpr small)]

end Twapi.Lib
