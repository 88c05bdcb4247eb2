import Twapi.Lib.Bits
import Twapi.SafeArray.Nest

/-!
Nested lists through `ObjToSAFEARRAY` and back through `ObjFromSAFEARRAY`.

* `objFromSafeArray_of_stores` — the decoder goes over the dimensions and finds each element
  under its indices.
* `Fits` — values that an element of the type can have; `Back` — what comes back of them.
* `roundTrip` — for each shape and type.
-/

namespace Twapi.SafeArray

open Com (VarType)
open Com.Scalar (objToLong objToWideInt)
open Lib.Odometer List

variable {Value : Type} {T : Tcl Value} {W : Windows}

/-! ### The decoder -/

theorem mapM_eq_some {α β : Type} {f : α → Option β} {g : α → β} {l : List α}
    (each : ∀ a ∈ l, f a = some (g a)) : l.mapM f = some (l.map g) := by
  induction l with
  | nil => rfl
  | cons a l ih =>
    rw [mapM_cons, each a mem_cons_self,
      ih fun a mem => each a (mem_cons_of_mem _ mem)]
    rfl

theorem take_set_succ {α : Type} {l : List α} {k : Nat} (inside : k < l.length) (a : α) :
    (l.set k a).take (k + 1) = l.take k ++ [a] := by
  rw [take_add_one, take_set_of_le (Nat.le_refl k), getElem?_set_self inside]
  rfl

variable {obj : Obj Value} {vt : VarType} {sa : Descriptor} {i : BitVec 32} {n w : Nat}

variable {dec : List Nat → Obj Atom}

/-- The elements found under the indices that begin with `pre`. -/
theorem objFromDimension_eq (notBytes : ¬ (sa.vt = .ui1 ∧ sa.bounds.length = 1))
    {pre inner : List Nat} (whole : sa.bounds.drop pre.length = n :: inner) {indices : List Nat}
    (room : sa.bounds.length ≤ indices.length) (so_far : indices.take pre.length = pre)
    (found : ∀ t ∈ tuples (n :: inner), ∃ cell, sa.cells.lookup (pre ++ t) = some cell ∧
      objFromElement W sa.vt cell = some (dec t)) :
    objFromDimension W sa inner.length pre.length indices = some (nest (n :: inner) dec) := by
  induction inner generalizing pre n indices dec with
  | nil =>
    have length := congrArg length whole
    rw [length_drop, length_singleton] at length
    have bound : sa.bounds.getD pre.length 0 = n := by
      rw [getD_eq_getElem?_getD, ← head?_drop, whole]
      rfl
    have each : ∀ i ∈ range n, (do
        let cell ← sa.at_ (indices.set pre.length i)
        objFromElement W sa.vt cell) = some (dec [i]) := by
      intro i less
      have here : [i] ∈ tuples [n] := mem_tuples.mpr (.cons (mem_range.mp less) .nil)
      obtain ⟨cell, stored, decoded⟩ := found [i] here
      have index : (indices.set pre.length i).take sa.bounds.length = pre ++ [i] := by
        have last : sa.bounds.length = pre.length + 1 := by omega
        rw [last, take_set_succ (by omega), so_far]
      rw [Descriptor.at_, index, stored]
      exact decoded
    rw [objFromDimension, if_neg (by omega), if_neg notBytes, bound]
    simp only [length_nil]
    rw [mapM_eq_some each]
    rfl
  | cons m inner ih =>
    have length := congrArg length whole
    rw [length_drop, length_cons] at length
    have bound : sa.bounds.getD pre.length 0 = n := by
      rw [getD_eq_getElem?_getD, ← head?_drop, whole]
      rfl
    have each : ∀ i ∈ range n, objFromDimension W sa inner.length (pre.length + 1)
        (indices.set pre.length i) = some (nest (m :: inner) fun t => dec (i :: t)) := by
      intro i less
      have index : (indices.set pre.length i).take (pre ++ [i]).length = pre ++ [i] := by
        rw [length_append, length_singleton, take_set_succ (by omega), so_far]
      have rest : sa.bounds.drop (pre ++ [i]).length = m :: inner := by
        rw [length_append, ← drop_drop, whole]
        rfl
      have deeper : objFromDimension W sa inner.length (pre ++ [i]).length
          (indices.set pre.length i) = some (nest (m :: inner) fun t => dec (i :: t)) := by
        refine ih rest (by rwa [length_set]) index ?_
        intro t tuple
        rw [append_assoc]
        refine found (i :: t) ?_
        exact mem_tuples.mpr (.cons (mem_range.mp less) (mem_tuples.mp tuple))
      rwa [length_append] at deeper
    rw [objFromDimension, if_neg (by omega), if_neg notBytes, bound]
    simp only [length_cons]
    rw [mapM_eq_some each]
    rfl

/-- Nested lists of the shape come back, with what each element is converted to. -/
theorem objFromSafeArray_of_stores {bounds : List Nat} {elem : List Nat → Obj Value}
    (shape : IsNest bounds elem) (stores : Stores T W sa vt bounds elem)
    (notBytes : ¬ (vt = .ui1 ∧ bounds.length = 1))
    (decoded : ∀ t ∈ tuples bounds, ∀ cell, objToElement T W vt (elem t) = .ok cell →
      objFromElement W vt cell = some (dec t)) :
    objFromSafeArray W sa = some (nest bounds dec) := by
  obtain ⟨rfl, rfl, _, stored⟩ := stores
  obtain ⟨n, inner, whole⟩ := exists_cons_of_ne_nil shape.levels
  have few := shape.few
  rw [objFromSafeArray, whole, length_cons, Nat.add_sub_cancel]
  have start : sa.bounds.drop ([] : List Nat).length = n :: inner := whole
  refine objFromDimension_eq notBytes start ?_ rfl fun t tuple => ?_
  · rwa [length_replicate]
  · rw [← whole] at tuple
    obtain ⟨cell, element, there⟩ := stored t tuple
    exact ⟨cell, there, decoded t tuple cell element⟩

/-- One dimension of bytes comes back as a byte array. -/
theorem objFromSafeArray_bytes (type : sa.vt = .ui1) (shape : sa.bounds = [n]) :
    objFromSafeArray W sa = some (.other (.bytes
      ((List.range n).map fun i => Cell.byte (sa.cells.lookup [i])))) := by
  have room : ¬ ((replicate maxDims 0).length < sa.bounds.length ∨
      (replicate maxDims 0).length ≤ 0) := by
    rw [shape, length_replicate, length_singleton]
    decide
  have at_ (i : Nat) : sa.at_ [i] = sa.cells.lookup [i] := by
    rw [Descriptor.at_, shape]
    rfl
  rw [objFromSafeArray, objFromDimension, if_neg room, if_pos ⟨type, congrArg length shape⟩]
  simp only [at_]
  rw [shape]
  rfl

/-! ### Elements -/

variable (T W)

/-- A number of the value, if it has one, is in the range. -/
def Within (low high : Int) (obj : Obj Value) : Prop :=
  ∀ n, (T.scalar obj).number = some n → low ≤ n ∧ n ≤ high

/-- The types that an array and a VARIANT have the same conversion for. -/
def FitsScalar (vt : VarType) (obj : Obj Value) : Prop :=
  match vt with
  | .i1 => Within T (-2 ^ 7) (2 ^ 7 - 1) obj
  | .ui1 => Within T 0 (2 ^ 8 - 1) obj
  | .i2 => Within T (-2 ^ 15) (2 ^ 15 - 1) obj
  | .ui2 => Within T 0 (2 ^ 16 - 1) obj
  | .i4 | .int => Within T (-2 ^ 31) (2 ^ 31 - 1) obj
  | .ui4 | .uint => Within T 0 (2 ^ 32 - 1) obj
  | .cy | .i8 | .ui8 => Within T (-2 ^ 63) (2 ^ 63 - 1) obj
  | .r4 => ∀ d, (T.scalar obj).double = some d → W.widen (W.narrow d) = d
  | .bstr => W.allocates (T.scalar obj).text = true
  | .decimal => ∀ dec, objToDECIMAL T W obj = .ok (.decimal dec) → (W.decimalText dec).isSome
  | _ => True

/-- A value that an element of the type can have. -/
def Fits (vt : VarType) (obj : Obj Value) : Prop :=
  match vt with
  | .unknown => False
  | .variant => FitsScalar T W (guess T W obj).1 obj
  | _ => FitsScalar T W vt obj

/-- What is equal to the value, read as the type has it. A pointer is one to `IDispatch`, and a
decimal is what Windows writes for it. -/
def BackScalar (vt : VarType) (obj : Obj Value) (dec : Atom) : Prop :=
  match vt with
  | .r4 | .r8 | .date => ∃ d, (T.scalar obj).double = some d ∧ dec = .double d
  | .bool => ∃ b, (T.scalar obj).boolean = some b ∧ dec = .boolean b
  | .bstr => dec = .text (T.scalar obj).text
  | .dispatch => ∃ p, objToIDispatch T obj = .ok (.interface p) ∧ dec = .pointer "IDispatch" p
  | .unknown => ∃ p, objToIUnknown T obj = .ok (.interface p) ∧ dec = .pointer "IUnknown" p
  | .decimal => ∃ d text, objToDECIMAL T W obj = .ok (.decimal d) ∧ W.decimalText d = some text ∧
      dec = .text text
  | _ => ∃ n, (T.scalar obj).number = some n ∧ dec = .int n

/-- A VARIANT comes back with the type that was guessed. -/
def Back (vt : VarType) (obj : Obj Value) (dec : Obj Atom) : Prop :=
  if vt = .variant then
    ∃ value, BackScalar T W (guess T W obj).1 obj value ∧
      dec = .list [.other (.vartype (guess T W obj).1), .other value]
  else ∃ value, BackScalar T W vt obj value ∧ dec = .other value

variable {T W}

theorem long_number (long : objToLong (T.scalar obj) = some i) :
    ∃ n, (T.scalar obj).number = some n ∧ i = BitVec.ofInt 32 n :=
  Com.Scalar.objToLong_eq_some long

/-- The signed reading of the lowest bits of a number in their range. -/
theorem toInt_of_within (fits : w ≤ 32) (positive : 0 < w)
    (long : objToLong (T.scalar obj) = some i)
    (within_ : Within T (-2 ^ (w - 1)) (2 ^ (w - 1) - 1) obj) :
    (T.scalar obj).number = some (i.setWidth w).toInt := by
  obtain ⟨n, number, rfl⟩ := long_number long
  obtain ⟨low, high⟩ := within_ n number
  rw [number, Lib.setWidth_ofInt fits,
    BitVec.toInt_ofInt_eq_self positive low (Int.lt_of_le_sub_one high)]

theorem toNat_of_within (fits : w ≤ 32) (long : objToLong (T.scalar obj) = some i)
    (within_ : Within T 0 (2 ^ w - 1) obj) :
    (T.scalar obj).number = some ((i.setWidth w).toNat : Int) := by
  obtain ⟨n, number, rfl⟩ := long_number long
  obtain ⟨low, high⟩ := within_ n number
  have small : n < (2 ^ w : Nat) := by push_cast; omega
  rw [number, Lib.setWidth_ofInt fits, BitVec.toNat_ofInt, Int.emod_eq_of_lt low small,
    Int.toNat_of_nonneg low]

theorem orTcl_eq_ok {α : Type} {x : Option α} {f : α → Cell} {cell : Cell}
    (ok : orTcl x f = .ok cell) : ∃ a, x = some a ∧ cell = f a := by
  cases x with
  | none => cases ok
  | some a =>
    cases ok
    exact ⟨a, rfl, rfl⟩

theorem wide_of_within {i : BitVec 64} (wide : objToWideInt (T.scalar obj) = some i)
    (within_ : Within T (-2 ^ 63) (2 ^ 63 - 1) obj) : (T.scalar obj).number = some i.toInt := by
  obtain ⟨n, number, rfl⟩ := Com.Scalar.objToWideInt_eq_some wide
  obtain ⟨low, high⟩ := within_ n number
  rw [number, BitVec.toInt_ofInt_eq_self (by decide) low (Int.lt_of_le_sub_one high)]

theorem interface_of_ok {ctypes : List String} {cell : Cell}
    (read : objToInterface T ctypes obj = .ok cell) : ∃ p, cell = .interface p := by
  rw [objToInterface] at read
  split at read
  · cases read
    exact ⟨_, rfl⟩
  · cases read

theorem decimal_of_ok {cell : Cell} (read : objToDECIMAL T W obj = .ok cell) :
    ∃ d, cell = .decimal d := by
  rw [objToDECIMAL] at read
  split at read
  · cases read
    exact ⟨_, rfl⟩
  · cases read

/-- What is made of an element. -/
theorem back_of_fitsScalar {cell : Cell} (element : objToElement T W vt obj = .ok cell)
    (fits : FitsScalar T W vt obj) (notVariant : vt ≠ .variant) (notUnknown : vt ≠ .unknown) :
    ∃ value, objFromScalar W vt cell = some value ∧ BackScalar T W vt obj value := by
  cases vt with
  | i1 =>
    obtain ⟨i, long, rfl⟩ := orTcl_eq_ok element
    exact ⟨_, rfl, _, toInt_of_within (w := 8) (by decide) (by decide) long fits, rfl⟩
  | i2 =>
    obtain ⟨i, long, rfl⟩ := orTcl_eq_ok element
    exact ⟨_, rfl, _, toInt_of_within (w := 16) (by decide) (by decide) long fits, rfl⟩
  | ui1 | ui2 =>
    obtain ⟨i, long, rfl⟩ := orTcl_eq_ok element
    exact ⟨_, rfl, _, toNat_of_within (by decide) long fits, rfl⟩
  | i4 | int =>
    obtain ⟨i, long, rfl⟩ := orTcl_eq_ok element
    have number := toInt_of_within (w := 32) (by decide) (by decide) long fits
    rw [BitVec.setWidth_eq] at number
    exact ⟨_, rfl, _, number, rfl⟩
  | ui4 | uint =>
    obtain ⟨i, long, rfl⟩ := orTcl_eq_ok element
    have number := toNat_of_within (w := 32) (by decide) long fits
    rw [BitVec.setWidth_eq] at number
    exact ⟨_, rfl, _, number, rfl⟩
  | cy | i8 | ui8 =>
    obtain ⟨i, wide, rfl⟩ := orTcl_eq_ok element
    exact ⟨_, rfl, _, wide_of_within wide fits, rfl⟩
  | r4 =>
    obtain ⟨d, double, rfl⟩ := orTcl_eq_ok element
    exact ⟨_, rfl, d, double, congrArg Atom.double (fits d double)⟩
  | r8 | date =>
    obtain ⟨d, double, rfl⟩ := orTcl_eq_ok element
    exact ⟨_, rfl, d, double, rfl⟩
  | bool =>
    obtain ⟨b, boolean, rfl⟩ := orTcl_eq_ok element
    refine ⟨_, rfl, b, boolean, ?_⟩
    cases b <;> rfl
  | bstr =>
    cases element
    have there : W.allocates (T.scalar obj).text = true := fits
    refine ⟨_, rfl, ?_⟩
    rw [if_pos there]
    rfl
  | dispatch =>
    obtain ⟨p, rfl⟩ := interface_of_ok element
    exact ⟨_, rfl, p, element, rfl⟩
  | decimal =>
    obtain ⟨d, rfl⟩ := decimal_of_ok element
    obtain ⟨text, written⟩ := Option.isSome_iff_exists.mp (fits d element)
    refine ⟨_, rfl, d, text, element, written, ?_⟩
    rw [written]
    rfl
  | variant => exact (notVariant rfl).elim
  | unknown => exact (notUnknown rfl).elim
  | empty | null | error | void | hresult | ptr | safearray | varname => cases element
  | other n => cases element

/-- What was guessed is what an element of that type is made of. -/
theorem element_of_guess (obj : Obj Value) :
    objToElement T W (guess T W obj).1 obj = .ok (guess T W obj).2 ∧
      (guess T W obj).1 ≠ .variant := by
  rw [guess]
  cases long : objToLong (T.scalar obj) with
  | some lval => exact ⟨congrArg (orTcl · .int) long, nofun⟩
  | none =>
    cases double : (T.scalar obj).double with
    | some dbl => exact ⟨congrArg (orTcl · .double) double, nofun⟩
    | none =>
      cases dispatch : objToIDispatch T obj with
      | ok p => exact ⟨dispatch, nofun⟩
      | error e =>
        cases unknown : objToIUnknown T obj with
        | ok p => exact ⟨unknown, nofun⟩
        | error e => exact ⟨rfl, nofun⟩

theorem objFromVariant_of_fits {cell : Cell} (element : objToElement T W vt obj = .ok cell)
    (fits : FitsScalar T W vt obj) (notVariant : vt ≠ .variant) :
    ∃ value, objFromVariant W vt cell = .list [.other (.vartype vt), .other value] ∧
      BackScalar T W vt obj value := by
  by_cases unknown : vt = .unknown
  · subst unknown
    obtain ⟨p, rfl⟩ := interface_of_ok element
    exact ⟨_, rfl, p, element, rfl⟩
  · obtain ⟨value, made, back⟩ := back_of_fitsScalar element fits notVariant unknown
    refine ⟨value, ?_, back⟩
    rw [objFromVariant, made]
    · rfl
    · exact fun p none => (unknown none).elim

/-- An element that the type can have comes back. -/
theorem back_of_fits {cell : Cell} (element : objToElement T W vt obj = .ok cell)
    (fits : Fits T W vt obj) :
    ∃ dec, objFromElement W vt cell = some dec ∧ Back T W vt obj dec := by
  by_cases unknown : vt = .unknown
  · subst unknown
    exact fits.elim
  · by_cases variant : vt = .variant
    · subst variant
      cases element
      obtain ⟨made, notVariant⟩ := element_of_guess (T := T) (W := W) obj
      obtain ⟨value, decoded, back⟩ := objFromVariant_of_fits made fits notVariant
      refine ⟨_, congrArg some decoded, ?_⟩
      rw [Back, if_pos rfl]
      exact ⟨value, back, rfl⟩
    · have scalar : FitsScalar T W vt obj := by
        rw [Fits.eq_def] at fits
        split at fits
        · exact fits.elim
        · exact (variant rfl).elim
        · exact fits
      obtain ⟨value, made, back⟩ := back_of_fitsScalar element scalar variant unknown
      refine ⟨.other value, ?_, ?_⟩
      · rw [objFromElement.eq_def]
        split
        · exact (unknown rfl).elim
        · exact (variant rfl).elim
        · rw [made]
          rfl
      · rw [Back, if_neg variant]
        exact ⟨value, back, rfl⟩

/-! ### Lists -/

/-- What comes back of an array: of one dimension of bytes a byte array, and of others a nested
list. -/
def ListBack (T : Tcl Value) (W : Windows) (vt : VarType) (bounds : List Nat)
    (elem : List Nat → Obj Value) (made : Option (Obj Atom)) : Prop :=
  if vt = .ui1 ∧ bounds.length = 1 then
    ∃ bytes, made = some (.other (.bytes bytes)) ∧
      bytes.map (fun b => some (b.toNat : Int)) =
        (tuples bounds).map fun t => (T.scalar (elem t)).number
  else
    ∃ dec, made = some (nest bounds dec) ∧ ∀ t ∈ tuples bounds, Back T W vt (elem t) (dec t)

/-- Elements that are accepted are stored under their indices, each once; and values that the
type can have come back. -/
theorem roundTrip {vt : VarType} {bounds : List Nat} {elem : List Nat → Obj Value}
    (shape : IsNest bounds elem) (created : W.creates vt.marshalled bounds = true)
    (accepted : ∀ t ∈ tuples bounds,
      ∃ cell, objToElement T W vt.marshalled (elem t) = .ok cell) :
    ∃ sa, objToSafeArray T W vt (nest bounds elem) = .ok (some sa) ∧
      Stores T W sa vt.marshalled bounds elem ∧
      ((∀ t ∈ tuples bounds, Fits T W vt.marshalled (elem t)) →
        ListBack T W vt.marshalled bounds elem (objFromSafeArray W sa)) := by
  rcases objToSafeArray_nest_cases (T := T) shape created with
    ⟨sa, made, stores⟩ | ⟨_, t, tuple, e, refused⟩
  · refine ⟨sa, made, stores, fun fits => ?_⟩
    rw [ListBack]
    by_cases bytes : vt.marshalled = .ui1 ∧ bounds.length = 1
    · rw [if_pos bytes]
      obtain ⟨type, one⟩ := bytes
      obtain ⟨n, rfl⟩ := length_eq_one_iff.mp one
      refine ⟨_, objFromSafeArray_bytes (stores.type.trans type) stores.shape, ?_⟩
      rw [tuples_singleton, map_map, map_map]
      refine map_congr_left fun i less => ?_
      have tuple : [i] ∈ tuples [n] := mem_tuples.mpr (.cons (mem_range.mp less) .nil)
      obtain ⟨cell, element, stored⟩ := stores.stored [i] tuple
      have within_ := fits [i] tuple
      rw [type] at element within_
      obtain ⟨b, long, rfl⟩ := orTcl_eq_ok element
      have number := toNat_of_within (w := 8) (by decide) long within_
      rw [Function.comp_apply, Function.comp_apply, stored, number]
      rfl
    · rw [if_neg bytes]
      let dec (t : List Nat) : Obj Atom :=
        ((sa.cells.lookup t).bind (objFromElement W vt.marshalled)).getD (.other (.int 0))
      have decoded (t : List Nat) (tuple : t ∈ tuples bounds) {cell : Cell}
          (element : objToElement T W vt.marshalled (elem t) = .ok cell) :
          objFromElement W vt.marshalled cell = some (dec t) ∧
            Back T W vt.marshalled (elem t) (dec t) := by
        obtain ⟨cell', element', stored⟩ := stores.stored t tuple
        cases element.symm.trans element'
        obtain ⟨obj, found, back⟩ := back_of_fits element (fits t tuple)
        have same : dec t = obj := by
          simp only [dec, stored, Option.bind_some, found, Option.getD_some]
        rw [same]
        exact ⟨found, back⟩
      refine ⟨dec, ?_, fun t tuple => ?_⟩
      · exact objFromSafeArray_of_stores shape stores bytes fun t tuple cell element =>
          (decoded t tuple element).1
      · obtain ⟨cell, element, _⟩ := stores.stored t tuple
        exact (decoded t tuple element).2
  · obtain ⟨cell, ok⟩ := accepted t tuple
    cases refused.symm.trans ok

/-! ### Two rows, and a row of bytes -/

theorem roundTrip_rows :
    ∃ sa, objToSafeArray plainTcl plainWindows .i2
        (nest [2, 2] fun t => .other (t.getD 0 0 + 2 * t.getD 1 0 : Int)) = .ok (some sa) ∧
      Stores plainTcl plainWindows sa .i2 [2, 2]
        (fun t => .other (t.getD 0 0 + 2 * t.getD 1 0 : Int)) ∧
      ((∀ t ∈ tuples [2, 2], Fits plainTcl plainWindows .i2
          (.other (t.getD 0 0 + 2 * t.getD 1 0 : Int))) →
        ListBack plainTcl plainWindows .i2 [2, 2]
          (fun t => .other (t.getD 0 0 + 2 * t.getD 1 0 : Int))
          (objFromSafeArray plainWindows sa)) := by
  refine roundTrip ⟨cons_ne_nil _ _, by decide, by decide, rfl⟩ rfl fun t tuple => ?_
  have all : tuples [2, 2] = [[0, 0], [0, 1], [1, 0], [1, 1]] := rfl
  simp only [all, mem_cons, not_mem_nil, or_false] at tuple
  rcases tuple with rfl | rfl | rfl | rfl <;> exact ⟨_, rfl⟩

/-- What comes back of a list of two bytes is no list. -/
theorem bytes_not_list :
    ∃ sa, objToSafeArray plainTcl plainWindows .ui1 (nest [2] fun _ => .other 7) =
        .ok (some sa) ∧
      ∀ dec, objFromSafeArray plainWindows sa ≠ some (nest [2] dec) :=
  ⟨_, rfl, fun _ list => nomatch list⟩

end Twapi.SafeArray
