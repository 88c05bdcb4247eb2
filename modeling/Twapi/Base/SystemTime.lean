import Mathlib.Algebra.Order.Field.Rat
import Mathlib.Order.Bounds.Basic
import Mathlib.Tactic.Linarith
import Mathlib.Tactic.Positivity
import Mathlib.Tactic.Ring

/-!
Times of 100 ns units since 1601 as seconds since 1970, of `base.tcl`.

* The whole seconds are those of a division that rounds down; the fraction is the last seven
  characters of the time.
* `largeSystemTimeToSecs_exact_iff` — so the two are of one number only from 1970 on, and before
  it on whole seconds: the digits after the point of a negative number count downwards.
-/

namespace Twapi.Base.SystemTime

open Nat

/-- `[string range $s end-6 end]` -/
def lastSeven (s : List Char) : List Char := s.drop (s.length - 7)

def largeSystemTimeToSecsSince1970 (ns100 : Int) (fraction : Bool) : List Char :=
  let ns100_since_1970 := ns100 - 116444736000000000
  let secs_since_1970 := (toString (ns100_since_1970 / 10000000)).toList
  if fraction then secs_since_1970 ++ '.' :: lastSeven (toString ns100).toList
  else secs_since_1970

def secsSince1970ToLargeSystemTime (secs : Int) : Int := secs * 10000000 + 116444736000000000

/-- The number of a text without a sign, which has digits on both sides of the point. -/
def magnitude (text : List Char) : Option ℚ :=
  let whole := text.takeWhile (· ≠ '.')
  let fraction := (text.dropWhile (· ≠ '.')).tail
  if whole ≠ [] ∧ fraction ≠ [] ∧ (whole ++ fraction).all Char.isDigit then
    some (Nat.ofDigitChars 10 whole 0 + Nat.ofDigitChars 10 fraction 0 / 10 ^ fraction.length)
  else none

/-- The number a decimal stands for. -/
def decimal : List Char → Option ℚ
  | '-' :: text => (magnitude text).map (- ·)
  | text => magnitude text

/-- The digits of a number, a point and a fraction. -/
theorem magnitude_toDigits (n : Nat) (fraction : List Char) :
    magnitude (Nat.toDigits 10 n ++ '.' :: fraction) =
      if fraction ≠ [] ∧ fraction.all Char.isDigit then
        some ((n : ℚ) + Nat.ofDigitChars 10 fraction 0 / 10 ^ fraction.length) else none := by
  have hdigits : ∀ c ∈ toDigits 10 n, c.isDigit := fun c hc =>
    isDigit_of_mem_toDigits (by decide) (by decide) hc
  have hpoint : ∀ c ∈ toDigits 10 n, decide (c ≠ '.') = true := by
    intro c hc
    have := hdigits c hc
    rw [decide_eq_true_iff]
    rintro rfl
    exact absurd this (by decide)
  have hall : (toDigits 10 n).all Char.isDigit = true := List.all_eq_true.mpr hdigits
  simp only [magnitude, List.takeWhile_append_of_pos hpoint, List.dropWhile_append_of_pos hpoint]
  simp [hall, toDigits_ne_nil]

theorem decimal_toDigits (n : Nat) (rest : List Char) :
    decimal (Nat.toDigits 10 n ++ rest) = magnitude (Nat.toDigits 10 n ++ rest) := by
  obtain ⟨c, cs, h⟩ := List.exists_cons_of_ne_nil (toDigits_ne_nil (n := n) (b := 10))
  have hdigit : c.isDigit :=
    isDigit_of_mem_toDigits (b := 10) (n := n) (by decide) (by decide) (by simp [h])
  have hminus : c ≠ '-' := by
    rintro rfl
    exact absurd hdigit (by decide)
  rw [h, List.cons_append, decimal]
  simpa using hminus

/-- The text of a number that is not negative, and that of one which is. -/
theorem toList_toString_natCast (n : Nat) : (toString (n : Int)).toList = Nat.toDigits 10 n := by
  change (toString n).toList = _
  simp

theorem toList_toString_neg (n : Nat) (h : 0 < n) :
    (toString (-(n : Int))).toList = '-' :: Nat.toDigits 10 n := by
  obtain ⟨m, rfl⟩ := exists_eq_succ_of_ne_zero h.ne'
  change ("-" ++ toString (m + 1)).toList = _
  simp

theorem ofDigitChars_lt {digits : List Char} (h : ∀ c ∈ digits, c.isDigit) :
    Nat.ofDigitChars 10 digits 0 < 10 ^ digits.length := by
  induction digits with
  | nil => simp
  | cons c cs ih =>
    have hc : c.toNat - '0'.toNat ≤ 9 := by
      have := (Char.isDigit_iff_toNat.mp (h c (by simp))).2
      simpa using this
    rw [ofDigitChars_cons, ofDigitChars_eq_ofDigitChars_zero, List.length_cons,
      pow_succ, mul_zero, zero_add]
    have := ih fun c hc => h c (List.mem_cons_of_mem _ hc)
    have := mul_le_mul_left (10 ^ cs.length) hc
    omega

/-- What is printed stands for the whole number, and the fraction on the side of its sign. -/
theorem decimal_printed (secs : Int) (fraction : List Char) :
    decimal ((toString secs).toList ++ '.' :: fraction) =
      if fraction ≠ [] ∧ fraction.all Char.isDigit then
        some ((secs : ℚ) + (if secs < 0 then -1 else 1) *
          (Nat.ofDigitChars 10 fraction 0 / 10 ^ fraction.length))
      else none := by
  rcases lt_or_ge secs 0 with hneg | hpos
  · obtain ⟨n, rfl⟩ : ∃ n : Nat, secs = -(n : Int) := ⟨secs.natAbs, by omega⟩
    rw [toList_toString_neg n (by omega), List.cons_append, decimal, magnitude_toDigits,
      if_pos hneg]
    split <;> simp [add_comm]
  · obtain ⟨n, rfl⟩ : ∃ n : Nat, secs = n := ⟨secs.natAbs, by omega⟩
    rw [toList_toString_natCast, decimal_toDigits, magnitude_toDigits, if_neg (not_lt.mpr hpos),
      one_mul]
    rfl

/-- The last seven digits of a number that has so many are its remainder. -/
theorem lastSeven_toDigits (pre : List Char) (n : Nat) (h : 10000000 ≤ n) :
    lastSeven (pre ++ Nat.toDigits 10 n) ≠ [] ∧
      (lastSeven (pre ++ Nat.toDigits 10 n)).all Char.isDigit ∧
      (lastSeven (pre ++ Nat.toDigits 10 n)).length = 7 ∧
      Nat.ofDigitChars 10 (lastSeven (pre ++ Nat.toDigits 10 n)) 0 = n % 10000000 := by
  have hlong : 7 ≤ (toDigits 10 n).length := by
    by_contra hshort
    have := (length_toDigits_le_iff (n := n) (b := 10) (k := 6) (by decide) (by decide)).mp
      (by omega)
    omega
  set digits := toDigits 10 n with hd
  have hlast : lastSeven (pre ++ digits) = digits.drop (digits.length - 7) := by
    rw [lastSeven, List.length_append, List.drop_append, List.drop_eq_nil_of_le (by omega),
      List.nil_append]
    congr 1
    omega
  have hdigits : ∀ c ∈ digits, c.isDigit := fun c hc =>
    isDigit_of_mem_toDigits (by decide) (by decide) hc
  have hlength : (digits.drop (digits.length - 7)).length = 7 := by
    rw [List.length_drop]
    omega
  refine ⟨?_, ?_, ?_, ?_⟩ <;> rw [hlast]
  · exact List.ne_nil_of_length_pos (by omega)
  · exact List.all_eq_true.mpr fun c hc => hdigits c (List.mem_of_mem_drop hc)
  · exact hlength
  · have hsplit := ofDigitChars_ten_toDigits (n := n)
    rw [← hd, ← List.take_append_drop (digits.length - 7) digits, ofDigitChars_append,
      ofDigitChars_eq_ofDigitChars_zero, hlength] at hsplit
    have hbound := ofDigitChars_lt fun c hc => hdigits c
      (List.mem_of_mem_drop (i := digits.length - 7) hc)
    rw [hlength] at hbound
    omega

/-- The fraction that is printed of a time. -/
theorem lastSeven_toString (ns100 : Int) (h : ns100 = 0 ∨ 10000000 ≤ ns100.natAbs) :
    lastSeven (toString ns100).toList ≠ [] ∧ (lastSeven (toString ns100).toList).all Char.isDigit ∧
      (Nat.ofDigitChars 10 (lastSeven (toString ns100).toList) 0 /
        10 ^ (lastSeven (toString ns100).toList).length : ℚ) =
          ((ns100.natAbs % 10000000 : Nat) : ℚ) / 10000000 := by
  rcases h with rfl | h
  · have hvalue : ofDigitChars 10 (lastSeven (toString (0 : Int)).toList) 0 = 0 := by decide
    refine ⟨by decide, by decide, ?_⟩
    rw [hvalue]
    simp
  · have htext : ∃ pre, (toString ns100).toList = pre ++ toDigits 10 ns100.natAbs := by
      rcases lt_or_ge ns100 0 with hneg | hpos
      · have := toList_toString_neg ns100.natAbs (by omega)
        exact ⟨['-'], by rwa [show -(ns100.natAbs : Int) = ns100 by omega] at this⟩
      · have := toList_toString_natCast ns100.natAbs
        exact ⟨[], by rwa [show (ns100.natAbs : Int) = ns100 by omega] at this⟩
    obtain ⟨pre, htext⟩ := htext
    obtain ⟨hne, hall, hlength, hvalue⟩ := lastSeven_toDigits pre ns100.natAbs h
    rw [htext, hlength, hvalue]
    exact ⟨hne, hall, by norm_num⟩

def exactSeconds (ns100 : Int) : ℚ := ((ns100 - 116444736000000000 : Int) : ℚ) / 10000000

theorem exactSeconds_eq (ns100 : Int) :
    exactSeconds ns100 =
      ((ns100 - 116444736000000000) / 10000000 : Int) +
        ((ns100 % 10000000 : Int) : ℚ) / 10000000 := by
  have : ns100 - 116444736000000000 =
      (ns100 - 116444736000000000) / 10000000 * 10000000 + ns100 % 10000000 := by omega
  rw [exactSeconds]
  nth_rewrite 1 [this]
  push_cast
  ring

/-- The fraction is that of the exact number of seconds from 1970 on, and on whole seconds. -/
theorem decimal_fraction_iff (ns100 : Int) :
    decimal (largeSystemTimeToSecsSince1970 ns100 true) = some (exactSeconds ns100) ↔
      116444736000000000 ≤ ns100 ∨ 10000000 ∣ ns100 := by
  simp only [largeSystemTimeToSecsSince1970, if_true]
  rw [decimal_printed, exactSeconds_eq]
  constructor
  · intro h
    by_contra hno
    obtain ⟨hbefore, hpart⟩ := not_or.mp hno
    split at h
    · rw [if_pos (by omega)] at h
      have hrem : (0 : ℚ) < (ns100 % 10000000 : Int) := by exact_mod_cast (by omega)
      have hfrac : (0 : ℚ) ≤ ofDigitChars 10 (lastSeven (toString ns100).toList) 0 /
        10 ^ (lastSeven (toString ns100).toList).length := by positivity
      have := Option.some.inj h
      linarith
    · cases h
  · intro h
    obtain ⟨hne, hall, hvalue⟩ := lastSeven_toString ns100 (by omega)
    rw [if_pos ⟨hne, hall⟩, hvalue]
    rcases h with hafter | hwhole
    · rw [if_neg (by omega), one_mul]
      have : ((ns100.natAbs % 10000000 : Nat) : Int) = ns100 % 10000000 := by omega
      rw [← this, Int.cast_natCast]
    · rw [show ns100.natAbs % 10000000 = 0 by omega, show ns100 % 10000000 = 0 by omega]
      simp

/-- The time of the whole seconds is the last one on a second that is not later. -/
theorem wholeSeconds_isGreatest (ns100 : Int) :
    IsGreatest {t : Int | 10000000 ∣ t ∧ t ≤ ns100}
      (secsSince1970ToLargeSystemTime ((ns100 - 116444736000000000) / 10000000)) := by
  constructor
  · constructor <;> simp only [secsSince1970ToLargeSystemTime] <;> omega
  · rintro t ⟨hdvd, hle⟩
    simp only [secsSince1970ToLargeSystemTime]
    omega

/-- Both conversions are right for the times from 1970 on and those of whole seconds. -/
theorem largeSystemTimeToSecs_exact_iff (ns100 : Int) :
    (decimal (largeSystemTimeToSecsSince1970 ns100 true) = some (exactSeconds ns100) ∧
      ∃ secs : Int, largeSystemTimeToSecsSince1970 ns100 false = (toString secs).toList ∧
        IsGreatest {t : Int | 10000000 ∣ t ∧ t ≤ ns100} (secsSince1970ToLargeSystemTime secs)) ↔
      116444736000000000 ≤ ns100 ∨ 10000000 ∣ ns100 := by
  rw [← decimal_fraction_iff]
  exact and_iff_left ⟨_, rfl, wholeSeconds_isGreatest ns100⟩

/-- The last time before 1970 is printed as one nearly two seconds before it. -/
theorem secs_of_last_before_1970 :
    largeSystemTimeToSecsSince1970 116444735999999999 true = "-1.9999999".toList ∧
      decimal (largeSystemTimeToSecsSince1970 116444735999999999 true) ≠
        some (exactSeconds 116444735999999999) :=
  ⟨by decide, (decimal_fraction_iff _).not.mpr (by decide)⟩

end Twapi.Base.SystemTime
