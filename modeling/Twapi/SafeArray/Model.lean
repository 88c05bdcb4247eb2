import Twapi.Com.Scalar
import Twapi.Com.Variant
import Twapi.Lib.Odometer

/-!
SAFEARRAYs, `base/tclobjs.c`: `ObjToSAFEARRAY`, which makes them of nested lists, and
`ObjFromSAFEARRAYDimension`, which makes nested lists of them.

* A null pointer is `none`; `Stop.fault` is where one is followed.
* An array is what was stored under which indices; `SafeArrayPtrOfIndex` is as documented.
* `objToVariant` is `ObjToVARIANT` for types that are not arrays.

What the conversions from and to Tcl values, strings, decimals and floats give is that of Tcl,
Windows and C.
-/

namespace Twapi.SafeArray

open Com (VarType)
open Com.Scalar (objToLong objToWideInt objToRangedInt)
open Lib.Odometer (increment zeros)

/-! ### Tcl values -/

/-- A value is a list internally, or something else. -/
inductive Obj (Value : Type) where
  | list (elems : List (Obj Value))
  | other (value : Value)

inductive Error where
  /-- What Tcl or Windows say. -/
  | tcl
  | message (text : String)
  /-- `TWAPI_INTERNAL_LIMIT` -/
  | internalLimit
  /-- `Allocation of %d-dimensional SAFEARRAY of type %d failed.` -/
  | allocation (ndim : Nat) (vt : VarType)
  /-- `Unsupported SAFEARRAY type %d` or `Invalid or unsupported VARTYPE (%d)` -/
  | unsupported (vt : VarType)
deriving DecidableEq

/-- Why there is no result: an error, a null pointer that was followed, or a loop that has not
ended. -/
inductive Stop where
  | error (e : Error)
  | fault
  | running
deriving DecidableEq

/-- What Tcl reads of values. `pointer` is `ObjToOpaque`; 0 is a null pointer. -/
structure Tcl (Value : Type) where
  parse : Value → Option (List Value)
  bytes : Value → Option (List (BitVec 8))
  scalar : Obj Value → Com.Scalar.Obj
  pointer : (ctype : String) → Obj Value → Option Nat

/-- `creates` is for `SafeArrayCreate` and `SafeArrayCreateVector`, `allocates` for
`SysAllocStringLen`, `decimal` and `decimalText` for `VarDecFromStr` and `VarBstrFromDec`, `toR4`
for `VariantChangeType` from `VT_R8` to `VT_R4`, and `narrow` and `widen` for the conversions
between `float` and `double` of C. -/
structure Windows where
  creates : VarType → (bounds : List Nat) → Bool
  allocates : List UInt16 → Bool
  decimal : List UInt16 → Option (BitVec 128)
  toR4 : BitVec 64 → Option (BitVec 32)
  narrow : BitVec 64 → BitVec 32
  widen : BitVec 32 → BitVec 64
  decimalText : BitVec 128 → Option (List UInt16)

section Lists

variable {Value : Type} (T : Tcl Value)

/-- `ObjGetElements`; what is not a list internally is made one if possible. -/
def elements : Obj Value → Except Error (List (Obj Value))
  | .list elems => .ok elems
  | .other value => (T.parse value).elim (.error .tcl) fun elems => .ok (elems.map .other)

def objListIndex (obj : Obj Value) (i : Nat) : Except Error (Option (Obj Value)) := do
  let elems ← elements T obj
  return elems[i]?

/-- The bytes of a value that is a byte array internally, where the type allows for them. -/
def byteArray (vt : VarType) (valueObj : Obj Value) : Option (List (BitVec 8)) :=
  if vt = .ui1 ∨ vt = .variant then
    match valueObj with
    | .list _ => none
    | .other value => T.bytes value
  else none

end Lists

/-! ### Elements -/

/-- What is stored in an element of an array or in a VARIANT. -/
inductive Cell where
  | empty
  | char (b : BitVec 8)
  | short (b : BitVec 16)
  | int (b : BitVec 32)
  | int64 (b : BitVec 64)
  | float (f : BitVec 32)
  | double (d : BitVec 64)
  | bstr (s : Option (List UInt16))
  | decimal (d : BitVec 128)
  | interface (p : Nat)
  | variant (vt : VarType) (value : Cell)
deriving DecidableEq

section Conversions

variable {Value : Type} (T : Tcl Value) (W : Windows)

def objToInterface (ctypes : List String) (obj : Obj Value) : Except Error Cell :=
  match ctypes.findSome? fun ctype => T.pointer ctype obj with
  | some p => .ok (.interface p)
  | none => .error .tcl

def objToIDispatch : Obj Value → Except Error Cell :=
  objToInterface T ["IDispatchEx", "IDispatch"]

def objToIUnknown : Obj Value → Except Error Cell := objToInterface T ["IUnknown"]

/-- It succeeds without memory, too. -/
def objToBSTR (obj : Obj Value) : Cell :=
  let wchars := (T.scalar obj).text
  .bstr (if W.allocates wchars then some wchars else none)

/-- The string that is converted ends at its first null. -/
def objToDECIMAL (obj : Obj Value) : Except Error Cell :=
  match W.decimal ((T.scalar obj).text.takeWhile (· ≠ 0)) with
  | some dec => .ok (.decimal dec)
  | none => .error .tcl

def orTcl {α : Type} (x : Option α) (f : α → Cell) : Except Error Cell :=
  match x with
  | some a => .ok (f a)
  | none => .error .tcl

/-- `VARIANT_TRUE` is -1. -/
def variantBool (b : Bool) : Cell := .short (if b then -1#16 else 0#16)

/-- `VT_VARIANT` in `ObjToVARIANT`: a guess on the value. -/
def guess (obj : Obj Value) : VarType × Cell :=
  match objToLong (T.scalar obj), (T.scalar obj).double, objToIDispatch T obj,
      objToIUnknown T obj with
  | some lval, _, _, _ => (.i4, .int lval)
  | none, some dbl, _, _ => (.r8, .double dbl)
  | none, none, .ok p, _ => (.dispatch, p)
  | none, none, .error _, .ok p => (.unknown, p)
  | none, none, .error _, .error _ => (.bstr, objToBSTR T W obj)

/-- `ObjToVARIANT` for a type without `VT_ARRAY`: the type of the VARIANT and its value. -/
def objToVariant (vt : VarType) (obj : Obj Value) : Except Error (VarType × Cell) :=
  let value := T.scalar obj
  match vt with
  | .empty | .null => .ok (vt, .empty)
  | .i2 => (orTcl (objToRangedInt value (-2 ^ 15) (2 ^ 15 - 1))
      fun i => .short (BitVec.ofInt 16 i)).map (.i2, ·)
  | .ui2 => (orTcl (objToRangedInt value 0 (2 ^ 16 - 1))
      fun i => .short (BitVec.ofInt 16 i)).map (.ui2, ·)
  | .i1 => (orTcl (objToRangedInt value (-2 ^ 7) (2 ^ 7 - 1))
      fun i => .char (BitVec.ofInt 8 i)).map (.i1, ·)
  | .ui1 => (orTcl (objToRangedInt value 0 (2 ^ 8 - 1))
      fun i => .char (BitVec.ofInt 8 i)).map (.ui1, ·)
  | .i4 | .int | .hresult => (orTcl (objToLong value) .int).map (.i4, ·)
  | .ui4 | .uint => (orTcl (objToLong value) .int).map (.ui4, ·)
  | .r4 => do
      match value.double with
      | some dbl => (orTcl (W.toR4 dbl) .float).map (.r4, ·)
      | none => .error .tcl
  | .r8 => (orTcl value.double .double).map (.r8, ·)
  | .cy => (orTcl (objToWideInt value) .int64).map (.cy, ·)
  | .date => (orTcl value.double .double).map (.date, ·)
  | .variant => .ok (guess T W obj)
  | .bstr => .ok (.bstr, objToBSTR T W obj)
  | .dispatch => (objToIDispatch T obj).map (.dispatch, ·)
  | .void | .error => .ok (.error, .int 0x80020004#32)
  | .bool => (orTcl value.boolean variantBool).map (.bool, ·)
  | .unknown => (objToIUnknown T obj).map (.unknown, ·)
  | .decimal => (objToDECIMAL T W obj).map (.decimal, ·)
  | .i8 | .ui8 => (orTcl (objToWideInt value) .int64).map (.i8, ·)
  | .ptr | .safearray | .varname | .other _ => .error (.unsupported vt)

/-- The switch in the loop of `ObjToSAFEARRAY`. -/
def objToElement (vt : VarType) (obj : Obj Value) : Except Error Cell :=
  let value := T.scalar obj
  match vt with
  | .i1 | .ui1 => orTcl (objToLong value) fun ival => .char (ival.setWidth 8)
  | .i2 | .ui2 => orTcl (objToLong value) fun ival => .short (ival.setWidth 16)
  | .i4 | .ui4 | .int | .uint => orTcl (objToLong value) .int
  | .r4 => orTcl value.double fun dval => .float (W.narrow dval)
  | .r8 | .date => orTcl value.double .double
  | .bstr => .ok (objToBSTR T W obj)
  | .cy => orTcl (objToWideInt value) .int64
  | .bool => orTcl value.boolean variantBool
  | .dispatch => objToIDispatch T obj
  | .unknown => objToIUnknown T obj
  | .variant => .ok (.variant (guess T W obj).1 (guess T W obj).2)
  | .decimal => objToDECIMAL T W obj
  | .i8 | .ui8 => orTcl (objToWideInt value) .int64
  | .empty | .null | .error | .void | .hresult | .ptr | .safearray | .varname | .other _ =>
    .error (.unsupported vt)

end Conversions

/-! ### `ObjToSAFEARRAY` -/

/-- A SAFEARRAY with the elements that were stored, the last one first. -/
structure Descriptor where
  vt : VarType
  bounds : List Nat
  cells : List (List Nat × Cell)
deriving DecidableEq

def maxDims : Nat := 10

/-- `SafeArrayPtrOfIndex` succeeds. -/
def inBounds : (bounds indices : List Nat) → Bool
  | [], [] => true
  | n :: bounds, i :: indices => decide (i < n) && inBounds bounds indices
  | _, _ => false

section Encode

variable {Value : Type} (T : Tcl Value) (W : Windows)

/-- The loop that follows the first elements, where `ndim` dimensions are known. -/
def innerBounds (ndim : Nat) : Obj Value → Except Error (List Nat)
  | .other _ => .ok []
  | .list elems =>
    if maxDims ≤ ndim then .error .internalLimit
    else
      match elems with
      | [] => .ok [0]
      | objP :: rest => (innerBounds (ndim + 1) objP).map ((rest.length + 1) :: ·)

/-- The bounds, from the lengths of the first lists. -/
def dimensions (valueObj : Obj Value) : Except Error (List Nat) := do
  match ← elements T valueObj with
  | [] => .ok [0]
  | objP :: rest => (innerBounds 1 objP).map ((rest.length + 1) :: ·)

/-- `ObjListIndex` of what may be a null pointer -/
def listIndex (obj : Option (Obj Value)) (i : Nat) : Except Stop (Option (Obj Value)) :=
  match obj with
  | some obj => (objListIndex T obj i).mapError .error
  | none => .error .fault

/-- `objs` are the lists of the dimensions; those up to `cur_dim` are the ones at `indices`. -/
structure State (Value : Type) where
  cur_dim : Nat
  indices : List Nat
  objs : List (Option (Obj Value))
  cells : List (List Nat × Cell)

/-- The lists of the dimensions after `cur_dim`. -/
def descend (ndim : Nat) (indices : List Nat) (cur_dim : Nat) (objs : List (Option (Obj Value))) :
    Except Stop (List (Option (Obj Value))) :=
  (List.range' (cur_dim + 1) (ndim - 1 - cur_dim)).foldlM (fun objs dim => do
    let obj ← listIndex T (objs.getD (dim - 1) none) (indices.getD (dim - 1) 0)
    return objs.set dim obj) objs

/-- The body of the loop, up to where `indices` are incremented. -/
def store (vt : VarType) (bounds : List Nat) (s : State Value) : Except Stop (State Value) := do
  let ndim := bounds.length
  let objs ← descend T ndim s.indices s.cur_dim s.objs
  if inBounds bounds s.indices then
    match ← listIndex T (objs.getD (ndim - 1) none) (s.indices.getD (ndim - 1) 0) with
    | none => .error (.error (.message "Too few elements in SAFEARRAY."))
    | some objP => do
        let cell ← (objToElement T W vt objP).mapError .error
        return { s with objs := objs, cells := (s.indices, cell) :: s.cells }
  else .error (.error .tcl)

/-- The loop, for at most so many elements. -/
def loop (vt : VarType) (bounds : List Nat) : (fuel : Nat) → State Value →
    Except Stop (List (List Nat × Cell))
  | 0, _ => .error .running
  | fuel + 1, s => do
      let s ← store T W vt bounds s
      match increment bounds bounds.length s.indices with
      | (none, _) => .ok s.cells
      | (some cur_dim, indices) =>
        loop vt bounds fuel { s with cur_dim := cur_dim, indices := indices }

/-- From `SafeArrayCreate` on. -/
def fill (vt : VarType) (bounds : List Nat) (valueObj : Obj Value) :
    Except Stop (Option Descriptor) :=
  let created := W.creates vt bounds
  if bounds.head? = some 0 then .ok (if created then some ⟨vt, bounds, []⟩ else none)
  else if created then do
    let indices := zeros bounds
    let objs ← descend T bounds.length indices 0 (some valueObj :: bounds.tail.map fun _ => none)
    let cells ← loop T W vt bounds (bounds.prod + 1) ⟨0, indices, objs, []⟩
    return some ⟨vt, bounds, cells⟩
  else .error (.error (.allocation bounds.length vt))

/-- `ObjToSAFEARRAY` for the type `vt | VT_ARRAY`, which becomes `vt.marshalled | VT_ARRAY`.
The array may be a null pointer. -/
def objToSafeArray (vt : VarType) (valueObj : Obj Value) : Except Stop (Option Descriptor) :=
  let vt := vt.marshalled
  match byteArray T vt valueObj with
  | some bytes =>
    if W.creates .ui1 [bytes.length] then
      .ok (some ⟨.ui1, [bytes.length], bytes.zipIdx.map fun (b, i) => ([i], .char b)⟩)
    else .error (.error (.message "Allocation of UI1 SAFEARRAY failed."))
  | none =>
    match dimensions T valueObj with
    | .error e => .error (.error e)
    | .ok bounds => fill T W vt bounds valueObj

end Encode

/-! ### `ObjFromSAFEARRAY` -/

/-- Tcl values that are made. `vartype` is the number of a type. -/
inductive Atom where
  | int (n : Int)
  | double (d : BitVec 64)
  | boolean (b : Bool)
  | text (text : List UInt16)
  | pointer (ctype : String) (p : Nat)
  | bytes (bytes : List (BitVec 8))
  | vartype (vt : VarType)
deriving DecidableEq

section Decode

variable (W : Windows)

/-- The types that an array and a VARIANT have the same conversion for. -/
def objFromScalar : VarType → Cell → Option Atom
  | .i2, .short b => some (.int b.toInt)
  | .int, .int b | .i4, .int b => some (.int b.toInt)
  | .r4, .float f => some (.double (W.widen f))
  | .r8, .double d | .date, .double d => some (.double d)
  | .cy, .int64 b => some (.int b.toInt)
  | .bstr, .bstr s => some (.text (s.getD []))
  | .dispatch, .interface p => some (.pointer "IDispatch" p)
  | .error, .int b => some (.int b.toInt)
  | .bool, .short b => some (.boolean (b ≠ 0))
  | .decimal, .decimal dec => some (.text ((W.decimalText dec).getD []))
  | .i1, .char b => some (.int b.toInt)
  | .ui1, .char b => some (.int b.toNat)
  | .ui2, .short b => some (.int b.toNat)
  | .uint, .int b | .ui4, .int b => some (.int b.toNat)
  | .i8, .int64 b | .ui8, .int64 b => some (.int b.toInt)
  | _, _ => none

/-- `ObjFromVARIANT` with the type: a list of the type and the value. -/
def objFromVariant (vt : VarType) (value : Cell) : Obj Atom :=
  let value : Option Atom :=
    match vt, value with
    | .unknown, .interface p => some (.pointer "IUnknown" p)
    | _, _ => objFromScalar W vt value
  .list (.other (.vartype vt) :: (value.map .other).toList)

/-- The switch in the loop of `ObjFromSAFEARRAYDimension`. -/
def objFromElement : VarType → Cell → Option (Obj Atom)
  | .unknown, .interface p => some (.other (.pointer "IDispatch" p))
  | .variant, .variant vt value => some (objFromVariant W vt value)
  | vt, cell => (objFromScalar W vt cell).map .other

def Descriptor.at_ (sa : Descriptor) (indices : List Nat) : Option Cell :=
  sa.cells.lookup (indices.take sa.bounds.length)

def Cell.byte : Option Cell → BitVec 8
  | some (.char b) => b
  | _ => 0

/-- `ObjFromSAFEARRAYDimension`, where there are `inner` dimensions after `dim`. -/
def objFromDimension (sa : Descriptor) : (inner : Nat) → (dim : Nat) → (indices : List Nat) →
    Option (Obj Atom)
  | inner, dim, indices =>
    if indices.length < sa.bounds.length ∨ indices.length ≤ dim then none
    else
      let elems := List.range (sa.bounds.getD dim 0)
      if sa.vt = .ui1 ∧ sa.bounds.length = 1 then
        some (.other (.bytes (elems.map fun i => Cell.byte (sa.at_ [i]))))
      else
        (match inner with
          | 0 => elems.mapM fun i => do
              let cell ← sa.at_ (indices.set dim i)
              objFromElement W sa.vt cell
          | inner + 1 => elems.mapM fun i =>
            objFromDimension sa inner (dim + 1) (indices.set dim i)).map .list

/-- `ObjFromSAFEARRAY` with `value_only` -/
def objFromSafeArray (sa : Descriptor) : Option (Obj Atom) :=
  objFromDimension W sa (sa.bounds.length - 1) 0 (List.replicate maxDims 0)

end Decode

end Twapi.SafeArray
