import Mathlib.Algebra.Order.BigOperators.Group.List
import Mathlib.Algebra.Order.Group.Nat
import Mathlib.Tactic.Ring
import Twapi.Base.Word
import Twapi.Lib.Utf16

/-!
Lists of strings with two null units at the end, `ObjToMultiSzEx` and `ObjFromMultiSz` of
`base/tclobjs.c`.

* `sizePass`, `copyPass` — the two passes of `ObjToMultiSzEx`, which is `objToMultiSzEx`.
* `objFromMultiSz` — the decoder, with its limit.
* `Proper` — the buffer is large enough, ends as it should and is decoded to the same list.
* `objToMultiSzEx_iff` — when that is so.

A string is a list of characters, and the memory behind a pointer a list of units. What reads
outside that memory has the outcome `none`.
-/

namespace Twapi.Base.MultiSz

open Lib List

/-- How Tcl and the extension are built and set, and what an object holds that is made of units:
`wide` is whether `TCL_UTF_MAX` is more than 4. -/
structure Tcl where
  wide : Bool
  use_unicode_obj : Bool
  ofWinChars : List UInt16 → List Char
  ofWinChars_utf16 (s : List Char) : ofWinChars (utf16 s) = s

variable (tcl : Tcl)

/-- `ObjCharLength`: the number of `Tcl_UniChar`s. -/
def objCharLength (s : List Char) : Nat := if tcl.wide then s.length else (utf16 s).length

/-! ### The encoder -/

/-- The first loop, with `len` so far. -/
def sizePass : (strings : List (List Char)) → (len : Int) → Int
  | [], len => len
  | s :: strings, len => sizePass strings (toInt (len + (objCharLength tcl s + 1)))

/-- The second loop: `ObjToWinCharsN` gives the units with a null behind them, which is
copied too. -/
def copyPass : (strings : List (List Char)) → List UInt16
  | [] => []
  | s :: strings => utf16 s ++ 0 :: copyPass strings

/-- How many units were asked of the pool, and those that were written. -/
structure Buffer where
  allocated : Nat
  written : List UInt16
deriving DecidableEq

/-- `MEMLIFO_MAX_ALLOC` -/
def memlifoMaxAlloc : Nat := intMax

/-- `ObjToMultiSzEx`. The size goes to `MemLifoAlloc` as a `DWORD`; where it is more than the
pool ever gives, there is no buffer. -/
def objToMultiSzEx (strings : List (List Char)) : Option Buffer :=
  let len := toInt (sizePass tcl strings 0 + 1)
  let sz := ofInt (len * 2)
  if memlifoMaxAlloc < sz then none
  else some { allocated := sz / 2, written := copyPass strings ++ [0] }

/-! ### The decoder -/

/-- The units before the first null. -/
def cString (mem : List UInt16) : Option (List UInt16) :=
  if 0 ∈ mem then some (mem.takeWhile (· ≠ 0)) else none

/-- `ObjFromWinCharsN`. The length is not used where the wide build makes UTF-8 objects. -/
def objFromWinCharsN (mem : List UInt16) (nchars : Nat) : Option (List Char) :=
  if tcl.wide && !tcl.use_unicode_obj then (cString mem).map tcl.ofWinChars
  else if mem.length < nchars then none
  else some (tcl.ofWinChars (mem.take nchars))

/-- The inner loop: the end of the string. -/
def endOf (mem : List UInt16) (maxlen lpcw : Nat) : Option Nat :=
  if lpcw < maxlen then
    match mem[lpcw]? with
    | none => none
    | some c => if c = 0 then some lpcw else endOf mem maxlen (lpcw + 1)
  else some lpcw
termination_by maxlen - lpcw

theorem le_of_endOf {mem : List UInt16} {maxlen lpcw s : Nat}
    (found : endOf mem maxlen lpcw = some s) : lpcw ≤ s := by
  fun_induction endOf mem maxlen lpcw with
  | case1 => cases found
  | case2 | case4 => exact Nat.le_of_eq (Option.some.inj found)
  | case3 _ _ _ _ _ ih => exact Nat.le_of_succ_le (ih found)

/-- The outer loop. -/
def decodeLoop (mem : List UInt16) (maxlen lpcw : Nat) : Option (List (List Char)) :=
  if lpcw < maxlen then
    match mem[lpcw]? with
    | none => none
    | some c =>
      if c = 0 then some []
      else
        match _found : endOf mem maxlen lpcw with
        | none => none
        | some stop =>
          if stop = lpcw then some []
          else
            match objFromWinCharsN tcl (mem.drop lpcw) (stop - lpcw) with
            | none => none
            | some s => (decodeLoop mem maxlen (stop + 1)).map (s :: ·)
  else some []
termination_by maxlen - lpcw
decreasing_by
  have := le_of_endOf _found
  omega

/-- `ObjFromMultiSz` of a pointer that is not null. -/
def objFromMultiSz (mem : List UInt16) (maxlen : Int) : Option (List (List Char)) :=
  if maxlen = 0 then some []
  else decodeLoop tcl mem (if maxlen = -1 then intMax else maxlen.toNat) 0

/-! ### What is proper -/

/-- The buffer has room for what is written, which ends with two nulls, and whatever is in
memory behind it, the same list is decoded. -/
structure Proper (strings : List (List Char)) (buf : Buffer) : Prop where
  fits : buf.written.length ≤ buf.allocated
  ends : [0, 0] <:+ buf.written
  decoded (behind : List UInt16) : objFromMultiSz tcl (buf.written ++ behind) (-1) = some strings

/-- How many units a list of strings takes. -/
def unitsNeeded (strings : List (List Char)) : Nat :=
  (strings.map fun s => (utf16 s).length + 1).sum + 1

/-- The list is not empty, characters are counted as units, and the pool gives so much. -/
structure Encodable (strings : List (List Char)) : Prop where
  nonempty : strings ≠ []
  basic : tcl.wide → ∀ s ∈ strings, ∀ c ∈ s, ¬ Supplementary c
  size : 2 * unitsNeeded strings ≤ memlifoMaxAlloc

/-! ### The size -/

/-- The units as they are counted. -/
def unitsCounted (strings : List (List Char)) : Nat :=
  (strings.map fun s => objCharLength tcl s + 1).sum + 1

theorem toInt_emod (z : Int) : toInt z % 4294967296 = z % 4294967296 := by
  unfold toInt
  omega

theorem sizePass_emod (strings : List (List Char)) (len : Int) :
    sizePass tcl strings len % 4294967296 =
      (len + (strings.map fun s => objCharLength tcl s + 1).sum) % 4294967296 := by
  induction strings generalizing len with
  | nil => simp [sizePass]
  | cons s strings ih =>
    rw [sizePass, ih, Int.add_emod, toInt_emod, ← Int.add_emod, map_cons, sum_cons]
    push_cast
    congr 1
    omega

/-- The size that goes to the pool. -/
theorem size_eq (strings : List (List Char)) :
    ofInt (toInt (sizePass tcl strings 0 + 1) * 2) =
      2 * unitsCounted tcl strings % 4294967296 := by
  have mod := sizePass_emod tcl strings 0
  unfold ofInt toInt unitsCounted
  omega

theorem length_copyPass (strings : List (List Char)) :
    (copyPass strings ++ [0]).length = unitsNeeded strings := by
  have units : (copyPass strings).length = (strings.map fun s => (utf16 s).length + 1).sum := by
    induction strings with
    | nil => rfl
    | cons s strings ih =>
      rw [copyPass, length_append, length_cons, ih, map_cons, sum_cons]
      omega
  rw [length_append, units]
  rfl

theorem objCharLength_le (s : List Char) : objCharLength tcl s ≤ (utf16 s).length := by
  unfold objCharLength
  split
  · exact length_le_utf16 s
  · exact Nat.le_refl _

theorem unitsCounted_le (strings : List (List Char)) :
    unitsCounted tcl strings ≤ unitsNeeded strings :=
  Nat.succ_le_succ (sum_le_sum fun s _ => Nat.succ_le_succ (objCharLength_le tcl s))

theorem unitsCounted_eq_iff (strings : List (List Char)) :
    unitsCounted tcl strings = unitsNeeded strings ↔
      (tcl.wide → ∀ s ∈ strings, ∀ c ∈ s, ¬ Supplementary c) := by
  induction strings with
  | nil => simp [unitsCounted, unitsNeeded]
  | cons s strings ih =>
    have le := objCharLength_le tcl s
    have rest := unitsCounted_le tcl strings
    have here : objCharLength tcl s = (utf16 s).length ↔
        (tcl.wide → ∀ c ∈ s, ¬ Supplementary c) := by
      unfold objCharLength
      cases tcl.wide with
      | false => simp
      | true =>
        rw [if_pos rfl, eq_comm, length_utf16_eq_iff]
        simp
    have both : unitsCounted tcl (s :: strings) = unitsNeeded (s :: strings) ↔
        objCharLength tcl s = (utf16 s).length ∧
          unitsCounted tcl strings = unitsNeeded strings := by
      unfold unitsCounted unitsNeeded at rest ⊢
      simp only [map_cons, sum_cons]
      omega
    rw [both, here, ih]
    simp only [forall_mem_cons]
    tauto

/-- There is a buffer, and room in it, if what is counted is what is needed and no more than the
pool gives. -/
theorem fits_iff (strings : List (List Char)) :
    (∃ buf, objToMultiSzEx tcl strings = some buf ∧ buf.written.length ≤ buf.allocated) ↔
      unitsCounted tcl strings = unitsNeeded strings ∧
        2 * unitsNeeded strings ≤ memlifoMaxAlloc := by
  have le := unitsCounted_le tcl strings
  simp only [objToMultiSzEx, size_eq]
  constructor
  · rintro ⟨buf, made, fits⟩
    split at made
    next => cases made
    next small =>
      obtain rfl := Option.some.inj made
      rw [length_copyPass] at fits
      simp only at fits
      unfold memlifoMaxAlloc intMax at small ⊢
      omega
  · rintro ⟨counted, size⟩
    rw [counted]
    have small : ¬ memlifoMaxAlloc < 2 * unitsNeeded strings % 4294967296 := by
      unfold memlifoMaxAlloc intMax at size ⊢
      omega
    refine ⟨_, if_neg small, ?_⟩
    rw [length_copyPass]
    simp only
    unfold memlifoMaxAlloc intMax at size
    omega

/-! ### What is decoded -/

theorem getElem?_of_drop {mem : List UInt16} {p : Nat} {c : UInt16} {rest : List UInt16}
    (here : mem.drop p = c :: rest) : mem[p]? = some c := by
  have first := congrArg (·[0]?) here
  simpa using first

variable {maxlen p : Nat}

theorem drop_of_drop {mem before rest : List UInt16} (here : mem.drop p = before ++ rest) :
    mem.drop (p + before.length) = rest := by
  rw [← drop_drop, here, drop_left]

theorem endOf_eq {mem units rest : List UInt16} (here : mem.drop p = units ++ 0 :: rest)
    (nulFree : 0 ∉ units) (inside : p + units.length < maxlen) :
    endOf mem maxlen p = some (p + units.length) := by
  induction units generalizing p with
  | nil =>
    have inside : p < maxlen := inside
    rw [endOf, if_pos inside, getElem?_of_drop here]
    rfl
  | cons u units ih =>
    rw [length_cons] at inside ⊢
    have nonzero : u ≠ 0 := fun zero => nulFree (zero ▸ mem_cons_self)
    have first : mem.drop p = [u] ++ (units ++ 0 :: rest) := here
    have behind : mem.drop (p + 1) = units ++ 0 :: rest := drop_of_drop first
    rw [endOf, if_pos (by omega), getElem?_of_drop here]
    simp only [if_neg nonzero]
    rw [ih behind (fun mem => nulFree (mem_cons_of_mem _ mem)) (by omega)]
    congr 1
    omega

theorem objFromWinCharsN_eq {units rest : List UInt16} (nulFree : 0 ∉ units) :
    objFromWinCharsN tcl (units ++ 0 :: rest) units.length = some (tcl.ofWinChars units) := by
  unfold objFromWinCharsN cString
  split
  · have all : ∀ u ∈ units, decide (u ≠ 0) = true := fun u mem =>
      decide_eq_true fun zero => nulFree (zero ▸ mem)
    rw [if_pos (mem_append_right _ mem_cons_self), Option.map_some,
      takeWhile_append_of_pos all]
    simp
  · rw [if_neg (by simp), take_left]

/-- The decoder takes the strings one after the other, up to the second null. -/
theorem decodeLoop_eq {mem rest : List UInt16} {strings : List (List Char)}
    (nonempty : ∀ s ∈ strings, s ≠ []) (nulFree : ∀ s ∈ strings, Char.ofNat 0 ∉ s)
    (here : mem.drop p = copyPass strings ++ 0 :: rest)
    (inside : p + (copyPass strings).length < maxlen) :
    decodeLoop tcl mem maxlen p = some strings := by
  induction strings generalizing p with
  | nil =>
    have inside : p < maxlen := inside
    rw [decodeLoop, if_pos inside, getElem?_of_drop here]
    rfl
  | cons s strings ih =>
    obtain ⟨some, others⟩ := forall_mem_cons.mp nonempty
    obtain ⟨free, frees⟩ := forall_mem_cons.mp nulFree
    have units := zero_notMem_utf16 free
    rw [copyPass, append_assoc, cons_append] at here
    rw [copyPass, length_append, length_cons] at inside
    have stop : endOf mem maxlen p = Option.some (p + (utf16 s).length) :=
      endOf_eq here units (by omega)
    have long := length_le_utf16 s
    have pos := length_pos_iff.mpr some
    cases first : utf16 s with
    | nil => rw [first, length_nil] at long; omega
    | cons u tail =>
      have nonzero : u ≠ 0 := fun zero => units (first ▸ zero ▸ mem_cons_self)
      have read : mem[p]? = Option.some u := by
        rw [first, cons_append] at here
        exact getElem?_of_drop here
      have null : mem.drop (p + (utf16 s).length) = [0] ++ (copyPass strings ++ 0 :: rest) :=
        drop_of_drop here
      have behind : mem.drop (p + (utf16 s).length + 1) = copyPass strings ++ 0 :: rest :=
        drop_of_drop null
      rw [decodeLoop, if_pos (by omega), read]
      simp only [if_neg nonzero]
      split
      next none => cases none.symm.trans stop
      next stop' found =>
        obtain rfl := Option.some.inj (stop.symm.trans found)
        rw [if_neg (by omega), Nat.add_sub_cancel_left, here, objFromWinCharsN_eq tcl units]
        simp only
        rw [tcl.ofWinChars_utf16, ih others frees behind (by omega)]
        rfl

/-- What is made of a list of strings that fits is decoded to the list. -/
theorem objFromMultiSz_eq {strings : List (List Char)} (nonempty : ∀ s ∈ strings, s ≠ [])
    (nulFree : ∀ s ∈ strings, Char.ofNat 0 ∉ s) (size : 2 * unitsNeeded strings ≤ memlifoMaxAlloc)
    (behind : List UInt16) :
    objFromMultiSz tcl (copyPass strings ++ [0] ++ behind) (-1) = some strings := by
  have length := length_copyPass strings
  rw [length_append, length_singleton] at length
  have here : (copyPass strings ++ [0] ++ behind).drop 0 = copyPass strings ++ 0 :: behind := by
    rw [drop_zero, append_assoc, singleton_append]
  rw [objFromMultiSz, if_neg (by decide), if_pos rfl]
  refine decodeLoop_eq tcl nonempty nulFree here ?_
  unfold memlifoMaxAlloc at size
  have pos : 0 < intMax := by decide
  omega

theorem ends_iff (strings : List (List Char)) :
    [0, 0] <:+ copyPass strings ++ [0] ↔ strings ≠ [] := by
  cases strings with
  | nil =>
    refine iff_of_false (fun ends => ?_) (fun nonempty => nonempty rfl)
    exact absurd ends.length_le (by decide)
  | cons s strings =>
    refine iff_of_true ?_ (cons_ne_nil s strings)
    suffices last : ∃ before, copyPass (s :: strings) = before ++ [0] by
      obtain ⟨before, eq⟩ := last
      exact ⟨before, by rw [eq, append_assoc]; rfl⟩
    induction strings generalizing s with
    | nil => exact ⟨utf16 s, rfl⟩
    | cons s' strings ih =>
      obtain ⟨before, eq⟩ := ih s'
      refine ⟨utf16 s ++ 0 :: before, ?_⟩
      rw [copyPass, eq, append_assoc, cons_append]

/-- For non-empty strings without nulls: the buffer is large enough, ends with two nulls and is
decoded to the same list exactly if the list can be encoded. -/
theorem objToMultiSzEx_iff (strings : List (List Char)) (nonempty : ∀ s ∈ strings, s ≠ [])
    (nulFree : ∀ s ∈ strings, Char.ofNat 0 ∉ s) :
    (∃ buf, objToMultiSzEx tcl strings = some buf ∧ Proper tcl strings buf) ↔
      Encodable tcl strings := by
  have fits := fits_iff tcl strings
  rw [unitsCounted_eq_iff] at fits
  have written {buf : Buffer} (made : objToMultiSzEx tcl strings = some buf) :
      buf.written = copyPass strings ++ [0] := by
    unfold objToMultiSzEx at made
    simp only at made
    split at made
    next => cases made
    next =>
      obtain rfl := Option.some.inj made
      rfl
  constructor
  · rintro ⟨buf, made, proper⟩
    obtain ⟨basic, size⟩ := fits.mp ⟨buf, made, proper.fits⟩
    exact ⟨(ends_iff strings).mp (written made ▸ proper.ends), basic, size⟩
  · rintro ⟨some, basic, size⟩
    obtain ⟨buf, made, room⟩ := fits.mpr ⟨basic, size⟩
    refine ⟨buf, made, room, ?_, fun behind => ?_⟩
    · rw [written made]
      exact (ends_iff strings).mpr some
    · rw [written made]
      exact objFromMultiSz_eq tcl nonempty nulFree size behind

/-- A build with 32-bit `Tcl_UniChar`s. -/
def wideTcl : Tcl where
  wide := true
  use_unicode_obj := true
  ofWinChars := ofUtf16 '?'
  ofWinChars_utf16 := ofUtf16_utf16 '?'

theorem objToMultiSzEx_iff_abc :
    (∃ buf, objToMultiSzEx wideTcl [['a', 'b'], ['c']] = some buf ∧
      Proper wideTcl [['a', 'b'], ['c']] buf) ↔ Encodable wideTcl [['a', 'b'], ['c']] :=
  objToMultiSzEx_iff wideTcl [['a', 'b'], ['c']] (by decide) (by decide)

/-- Six characters outside the basic plane, which are 12 units: 8 units are asked for, and 14 are
written. -/
theorem supplementary_overflow :
    objToMultiSzEx wideTcl [List.replicate 6 (Char.ofNat 0x1F600)] =
        some ⟨8, copyPass [List.replicate 6 (Char.ofNat 0x1F600)] ++ [0]⟩ ∧
      ¬ ∃ buf, objToMultiSzEx wideTcl [List.replicate 6 (Char.ofNat 0x1F600)] = some buf ∧
        Proper wideTcl [List.replicate 6 (Char.ofNat 0x1F600)] buf := by
  have made : objToMultiSzEx wideTcl [replicate 6 (Char.ofNat 0x1F600)] =
      some ⟨8, copyPass [replicate 6 (Char.ofNat 0x1F600)] ++ [0]⟩ := by decide
  refine ⟨made, ?_⟩
  rintro ⟨buf, made', proper⟩
  obtain rfl := Option.some.inj (made.symm.trans made')
  exact absurd proper.fits (by decide)

end Twapi.Base.MultiSz
