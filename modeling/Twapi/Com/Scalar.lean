import Mathlib.Algebra.Order.Group.Unbundled.Int
import Mathlib.Tactic.Common

/-!
Scalar values in VARIANTs: the cases of integers, booleans, doubles and strings of
`ObjToVARIANT` and `ObjFromVARIANT`, `base/tclobjs.c`.

* The value is in a union of eight bytes, of which each member has the lowest; the
  string that is pointed to is beside it. The bits of a double are its value.
* `marshalled` — types that become others on the way.
* `decoded_value` — what comes back of a value.
-/

namespace Twapi.Com.Scalar

/-! ### Tcl values -/

/-- What Tcl reads a value as. -/
structure Obj where
  number : Option Int
  double : Option (BitVec 64)
  boolean : Option Bool
  text : List UInt16
deriving DecidableEq

/-- `ObjToLong` and `ObjToInt`: a `long` has 32 bits, and numbers that are unsigned or the
negative of an unsigned one are taken as well. -/
def objToLong (obj : Obj) : Option (BitVec 32) :=
  match obj.number with
  | some n => if -2 ^ 32 < n ∧ n < 2 ^ 32 then some (BitVec.ofInt 32 n) else none
  | none => none

/-- `ObjToWideInt`; likewise. -/
def objToWideInt (obj : Obj) : Option (BitVec 64) :=
  match obj.number with
  | some n => if -2 ^ 64 < n ∧ n < 2 ^ 64 then some (BitVec.ofInt 64 n) else none
  | none => none

def objToRangedInt (obj : Obj) (low high : Int) : Option Int :=
  match objToLong obj with
  | some i => if i.toInt < low ∨ high < i.toInt then none else some i.toInt
  | none => none

/-! ### VARIANTs -/

inductive ScalarType where
  | i1
  | ui1
  | i2
  | ui2
  | i4
  | ui4
  | int
  | uint
  | hresult
  | i8
  | ui8
  | bool
  | r8
  | bstr
deriving DecidableEq

/-- `VT_EMPTY` is `none`. -/
structure Variant where
  vt : Option ScalarType
  cells : BitVec 64
  bstrVal : Option (List UInt16)
deriving DecidableEq

/-- A member of the union is stored. -/
def Variant.put {w : Nat} (var : Variant) (x : BitVec w) : Variant :=
  { var with cells := (var.cells.extractLsb' w (64 - w) ++ x).setWidth 64 }

def Variant.get (var : Variant) (w : Nat) : BitVec w := var.cells.setWidth w

theorem Variant.get_put {w : Nat} (fits : w ≤ 64) (var : Variant) (x : BitVec w) :
    (var.put x).get w = x := by
  ext i less
  simp only [put, get, BitVec.getElem_setWidth, BitVec.getLsbD_setWidth, BitVec.getLsbD_append]
  rw [if_pos less, BitVec.getLsbD_eq_getElem less]
  simp only [Bool.and_eq_right_iff_imp]
  exact fun _ => decide_eq_true (by omega)

/-! ### `ObjToVARIANT` -/

/-- `allocates` is for which strings there is memory. `ObjToBSTR` succeeds without, too. -/
def objToValue (allocates : List UInt16 → Bool) (obj : Obj) (var : Variant) :
    ScalarType → Option (ScalarType × Variant)
  | .i2 =>
    (objToRangedInt obj (-2 ^ 15) (2 ^ 15 - 1)).map fun i => (.i2, var.put (BitVec.ofInt 16 i))
  | .ui2 => (objToRangedInt obj 0 (2 ^ 16 - 1)).map fun i => (.ui2, var.put (BitVec.ofInt 16 i))
  | .i1 => (objToRangedInt obj (-2 ^ 7) (2 ^ 7 - 1)).map fun i => (.i1, var.put (BitVec.ofInt 8 i))
  | .ui1 => (objToRangedInt obj 0 (2 ^ 8 - 1)).map fun i => (.ui1, var.put (BitVec.ofInt 8 i))
  | .i4 | .int | .hresult => (objToLong obj).map fun lval => (.i4, var.put lval)
  | .ui4 | .uint => (objToLong obj).map fun lval => (.ui4, var.put lval)
  | .r8 => obj.double.map fun dblVal => (.r8, var.put dblVal)
  | .bstr =>
    some (.bstr, { var with bstrVal := if allocates obj.text then some obj.text else none })
  | .bool => obj.boolean.map fun b =>
    (.bool, (var.put (if b then 1#32 else 0#32)).put (if b then -1#16 else 0#16))
  | .i8 | .ui8 => (objToWideInt obj).map fun llVal => (.i8, var.put llVal)

/-- `ObjToVARIANT`. Whether it succeeds comes first. -/
def objToVariant (allocates : List UInt16 → Bool) (obj : Obj) (var : Variant) (vt : ScalarType) :
    Bool × Variant :=
  match objToValue allocates obj var vt with
  | some (vt, var) => (true, { var with vt := some vt })
  | none => (false, { var with vt := none })

/-! ### `ObjFromVARIANT` -/

inductive Value where
  | empty
  | int (n : Int)
  | double (d : BitVec 64)
  | boolean (b : Bool)
  | text (text : List UInt16)
deriving DecidableEq

/-- With `value_only` -/
def objFromVariant (var : Variant) : Value :=
  match var.vt with
  | none => .empty
  | some .i2 => .int (var.get 16).toInt
  | some .i4 => .int (var.get 32).toInt
  | some .r8 => .double (var.get 64)
  | some .bstr => .text (var.bstrVal.getD [])
  | some .bool => .boolean (var.get 16 ≠ 0)
  | some .i1 => .int (var.get 8).toInt
  | some .ui1 => .int (var.get 8).toNat
  | some .ui2 => .int (var.get 16).toNat
  | some .ui4 => .int (var.get 32).toNat
  | some .i8 => .int (var.get 64).toInt
  | some .ui8 => .int (var.get 64).toInt
  | some .int => .int (var.get 32).toInt
  | some .uint => .int (var.get 32).toNat
  | some .hresult => .empty

/-! ### What comes back -/

/-- Types that cannot be marshalled are changed, and the unsigned type of 64 bits. -/
def ScalarType.marshalled : ScalarType → ScalarType
  | .int | .hresult => .i4
  | .uint => .ui4
  | .ui8 => .i8
  | vt => vt

/-- The number between the bounds that differs from that of the object by a multiple of
`2 ^ width`; the same number if that is between the bounds. -/
def IsInt (low high : Int) (width : Nat) (obj : Obj) (v : Value) : Prop :=
  ∃ n r, obj.number = some n ∧ v = .int r ∧ low ≤ r ∧ r ≤ high ∧ (2 : Int) ^ width ∣ r - n ∧
    (low ≤ n → n ≤ high → r = n)

def IsValueOf (allocates : List UInt16 → Bool) (obj : Obj) (v : Value) : ScalarType → Prop
  | .i1 => IsInt (-2 ^ 7) (2 ^ 7 - 1) 32 obj v
  | .ui1 => IsInt 0 (2 ^ 8 - 1) 32 obj v
  | .i2 => IsInt (-2 ^ 15) (2 ^ 15 - 1) 32 obj v
  | .ui2 => IsInt 0 (2 ^ 16 - 1) 32 obj v
  | .i4 | .int | .hresult => IsInt (-2 ^ 31) (2 ^ 31 - 1) 32 obj v
  | .ui4 | .uint => IsInt 0 (2 ^ 32 - 1) 32 obj v
  | .i8 | .ui8 => IsInt (-2 ^ 63) (2 ^ 63 - 1) 64 obj v
  | .bool => ∃ b, obj.boolean = some b ∧ v = .boolean b
  | .r8 => ∃ d, obj.double = some d ∧ v = .double d
  | .bstr => allocates obj.text = true → v = .text obj.text

section
variable {obj : Obj} {low high : Int}

theorem isInt_of_dvd {width : Nat} (size : high - low < 2 ^ width) {n r : Int}
    (number : obj.number = some n) (least : low ≤ r) (most : r ≤ high)
    (congr : (2 : Int) ^ width ∣ r - n) : IsInt low high width obj (.int r) := by
  refine ⟨n, r, number, rfl, least, most, congr, fun least' most' => ?_⟩
  have none_ : r - n = 0 := Int.eq_zero_of_abs_lt_dvd congr (by rw [abs_lt]; constructor <;> omega)
  omega

theorem dvd_toInt_sub (width : Nat) (n : Int) :
    (2 : Int) ^ width ∣ (BitVec.ofInt width n).toInt - n := by
  rw [BitVec.toInt_ofInt]
  exact_mod_cast Int.dvd_bmod_sub_self

theorem dvd_toNat_sub (width : Nat) (n : Int) :
    (2 : Int) ^ width ∣ ((BitVec.ofInt width n).toNat : Int) - n := by
  have nonneg : 0 ≤ n % (2 ^ width : Nat) :=
    Int.emod_nonneg n (Int.natCast_ne_zero.mpr (Nat.two_pow_pos width).ne')
  rw [BitVec.toNat_ofInt, Int.toNat_of_nonneg nonneg]
  exact_mod_cast Int.dvd_emod_sub_self

theorem objToLong_eq_some {b : BitVec 32} (found : objToLong obj = some b) :
    ∃ n, obj.number = some n ∧ b = BitVec.ofInt 32 n := by
  unfold objToLong at found
  split at found
  · split at found
    · cases found
      exact ⟨_, ‹_›, rfl⟩
    · cases found
  · cases found

theorem objToWideInt_eq_some {b : BitVec 64} (found : objToWideInt obj = some b) :
    ∃ n, obj.number = some n ∧ b = BitVec.ofInt 64 n := by
  unfold objToWideInt at found
  split at found
  · split at found
    · cases found
      exact ⟨_, ‹_›, rfl⟩
    · cases found
  · cases found

/-- The signed and the unsigned reading of 32 bits. -/
theorem isInt_long {b : BitVec 32} (found : objToLong obj = some b) :
    IsInt (-2 ^ 31) (2 ^ 31 - 1) 32 obj (.int b.toInt) ∧
      IsInt 0 (2 ^ 32 - 1) 32 obj (.int b.toNat) := by
  obtain ⟨n, number, rfl⟩ := objToLong_eq_some found
  have least := BitVec.le_toInt (BitVec.ofInt 32 n)
  have most := BitVec.toInt_lt (x := BitVec.ofInt 32 n)
  have small := (BitVec.ofInt 32 n).isLt
  exact ⟨isInt_of_dvd (by decide) number least (Int.le_sub_one_of_lt most) (dvd_toInt_sub 32 n),
    isInt_of_dvd (by decide) number (Int.natCast_nonneg _) (by omega) (dvd_toNat_sub 32 n)⟩

theorem isInt_wide {b : BitVec 64} (found : objToWideInt obj = some b) :
    IsInt (-2 ^ 63) (2 ^ 63 - 1) 64 obj (.int b.toInt) := by
  obtain ⟨n, number, rfl⟩ := objToWideInt_eq_some found
  have least := BitVec.le_toInt (BitVec.ofInt 64 n)
  have most := BitVec.toInt_lt (x := BitVec.ofInt 64 n)
  exact isInt_of_dvd (by decide) number least (Int.le_sub_one_of_lt most) (dvd_toInt_sub 64 n)

variable {i : Int}

theorem isInt_ranged (size : high - low < 2 ^ 32) (found : objToRangedInt obj low high = some i) :
    low ≤ i ∧ i ≤ high ∧ IsInt low high 32 obj (.int i) := by
  unfold objToRangedInt at found
  split at found
  · rename_i b long
    obtain ⟨n, number, rfl⟩ := objToLong_eq_some long
    split at found
    · cases found
    · rename_i inside
      cases found
      have least : low ≤ (BitVec.ofInt 32 n).toInt := by omega
      have most : (BitVec.ofInt 32 n).toInt ≤ high := by omega
      exact ⟨least, most, isInt_of_dvd size number least most (dvd_toInt_sub 32 n)⟩
  · cases found

/-- A signed value of up to 32 bits that is read back. -/
theorem isInt_signed {w : Nat} (pos : 0 < w) (fits : w ≤ 32)
    (ranged : objToRangedInt obj (-2 ^ (w - 1)) (2 ^ (w - 1) - 1) = some i) (var : Variant)
    (vt : Option ScalarType) :
    IsInt (-2 ^ (w - 1)) (2 ^ (w - 1) - 1) 32 obj
      (.int (({ var.put (BitVec.ofInt w i) with vt } : Variant).get w).toInt) := by
  have half : (2 : Int) ^ (w - 1) ≤ 2 ^ 31 := by
    exact_mod_cast Nat.pow_le_pow_right (by decide : 0 < 2) (by omega : w - 1 ≤ 31)
  obtain ⟨least, most, int⟩ := isInt_ranged (by omega) ranged
  have back : ({ var.put (BitVec.ofInt w i) with vt } : Variant).get w = BitVec.ofInt w i :=
    Variant.get_put (by omega) var _
  rwa [back, BitVec.toInt_ofInt_eq_self pos least (Int.lt_of_le_sub_one most)]

theorem isInt_unsigned {w : Nat} (fits : w ≤ 32)
    (ranged : objToRangedInt obj 0 (2 ^ w - 1) = some i) (var : Variant) (vt : Option ScalarType) :
    IsInt 0 (2 ^ w - 1) 32 obj
      (.int (({ var.put (BitVec.ofInt w i) with vt } : Variant).get w).toNat) := by
  have whole : (2 : Int) ^ w ≤ 2 ^ 32 := by
    exact_mod_cast Nat.pow_le_pow_right (by decide : 0 < 2) fits
  obtain ⟨least, most, int⟩ := isInt_ranged (by omega) ranged
  have back : ({ var.put (BitVec.ofInt w i) with vt } : Variant).get w = BitVec.ofInt w i :=
    Variant.get_put (by omega) var _
  have small : i < (2 ^ w : Nat) := by push_cast; omega
  rwa [back, BitVec.toNat_ofInt, Int.emod_eq_of_lt least small, Int.toNat_of_nonneg least]

end

/-- Where a value is accepted, its type is the requested one, but for types that are
changed, and what comes back is the value as the type has it. -/
theorem decoded_value {allocates : List UInt16 → Bool} {obj : Obj} {var : Variant}
    {vt : ScalarType} (accepted : (objToVariant allocates obj var vt).1 = true) :
    (objToVariant allocates obj var vt).2.vt = some vt.marshalled ∧
      IsValueOf allocates obj (objFromVariant (objToVariant allocates obj var vt).2) vt := by
  unfold objToVariant at accepted ⊢
  cases made : objToValue allocates obj var vt with
  | none => rw [made] at accepted; cases accepted
  | some result =>
    dsimp only
    have get {w : Nat} (fits : w ≤ 64) (var : Variant) (x : BitVec w)
        (vt : Option ScalarType) : ({ var.put x with vt } : Variant).get w = x :=
      Variant.get_put fits var x
    cases vt with
    | bstr =>
      cases made
      refine ⟨rfl, fun there => ?_⟩
      rw [objFromVariant, there]
      rfl
    | i1 | i2 =>
      obtain ⟨i, ranged, made⟩ := Option.map_eq_some_iff.mp made
      cases made
      exact ⟨rfl, isInt_signed (by decide) (by decide) ranged _ _⟩
    | ui1 | ui2 =>
      obtain ⟨i, ranged, made⟩ := Option.map_eq_some_iff.mp made
      cases made
      exact ⟨rfl, isInt_unsigned (by decide) ranged _ _⟩
    | i4 | int | hresult =>
      obtain ⟨lval, long, made⟩ := Option.map_eq_some_iff.mp made
      cases made
      refine ⟨rfl, ?_⟩
      simp only [objFromVariant, get (by decide : 32 ≤ 64)]
      exact (isInt_long long).1
    | ui4 | uint =>
      obtain ⟨lval, long, made⟩ := Option.map_eq_some_iff.mp made
      cases made
      refine ⟨rfl, ?_⟩
      simp only [objFromVariant, get (by decide : 32 ≤ 64)]
      exact (isInt_long long).2
    | i8 | ui8 =>
      obtain ⟨llVal, wide, made⟩ := Option.map_eq_some_iff.mp made
      cases made
      refine ⟨rfl, ?_⟩
      simp only [objFromVariant, get (by decide : 64 ≤ 64)]
      exact isInt_wide wide
    | r8 =>
      obtain ⟨dblVal, double, made⟩ := Option.map_eq_some_iff.mp made
      cases made
      refine ⟨rfl, dblVal, double, ?_⟩
      simp only [objFromVariant, get (by decide : 64 ≤ 64)]
    | bool =>
      obtain ⟨b, boolean, made⟩ := Option.map_eq_some_iff.mp made
      cases made
      refine ⟨rfl, b, boolean, ?_⟩
      simp only [objFromVariant, get (by decide : 16 ≤ 64)]
      cases b <;> rfl

/-- The largest unsigned number of 32 bits. -/
def largest : Obj := ⟨some 4294967295, none, some true, []⟩

theorem decoded_value_largest :
    (objToVariant (fun _ => true) largest ⟨none, 0, none⟩ .ui4).2.vt = some .ui4 ∧
      IsValueOf (fun _ => true) largest
        (objFromVariant (objToVariant (fun _ => true) largest ⟨none, 0, none⟩ .ui4).2) .ui4 :=
  decoded_value (by decide)

/-- It is taken for a signed number as well, and an unsigned type of 64 bits is changed. -/
theorem decoded_value_differs :
    objToVariant (fun _ => true) largest ⟨none, 0, none⟩ .i4 =
        (true, ⟨some .i4, 4294967295, none⟩) ∧
      objFromVariant ⟨some .i4, 4294967295, none⟩ = .int (-1) ∧
      objToVariant (fun _ => true) ⟨some 5, none, some true, []⟩ ⟨none, 0, none⟩ .ui8 =
        (true, ⟨some .i8, 5, none⟩) := by
  decide

end Twapi.Com.Scalar
