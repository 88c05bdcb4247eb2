import Twapi.Lib.Traced

/-!
VARIANTs and what they own, `base/tclobjs.c`: `ObjToVARIANT` and `ObjToSAFEARRAY`,
which make them of Tcl values, and `ObjFromVARIANT`, which makes Tcl values of
them.

* Of a value that owns nothing its type is kept; of a Tcl value that is made, the
  interface pointers in it.
* Events are the references and the memory that are acquired and released, the
  interface pointers that reach the script, and those that are followed. An
  `Account` says what a reference is for.
* The strings and arrays that are allocated here are known by the place they are
  allocated for.

Records (`VT_RECORD`) are left out.
-/

namespace Twapi.Com

open Lib (Traced)
open Lib.Traced (tell tellAll)

/-! ### Types -/

/-- A `VARTYPE` without flags. `varname` is `VT_TWAPI_VARNAME`. -/
inductive VarType where
  | empty
  | null
  | i2
  | i4
  | r4
  | r8
  | cy
  | date
  | bstr
  | dispatch
  | error
  | bool
  | variant
  | unknown
  | decimal
  | i1
  | ui1
  | ui2
  | ui4
  | i8
  | ui8
  | int
  | uint
  | void
  | hresult
  | ptr
  | safearray
  | varname
  | other (n : Nat)
deriving DecidableEq

/-- With or without `VT_ARRAY`. -/
structure ValueType where
  base : VarType
  array : Bool
deriving DecidableEq

inductive InterfaceType where
  | dispatch
  | unknown
deriving DecidableEq

abbrev Address := List Nat

/-- A VARIANT that is not by reference. A null pointer is `none`. -/
inductive Variant where
  | plain (vt : VarType)
  | bstr (b : Option Address)
  | interface (type : InterfaceType) (p : Option Nat)
  | nullArray (elem : VarType)
  | array (elem : VarType) (a : Address) (elems : List Variant)

/-! ### Events -/

inductive Resource where
  | interface (p : Nat)
  | bstr (b : Address)
  | array (a : Address)
deriving DecidableEq

/-- What a reference is for: the VARIANTs of a call, what is logged, the result of
the command, or a variable. -/
inductive Account where
  | cells
  | log
  | result
  | variable_
deriving DecidableEq

inductive Event where
  | acquire (a : Account) (r : Resource)
  | release (a : Account) (r : Resource)
  /-- The pointer reaches the script. -/
  | deliver (a : Account) (p : Nat)
  /-- The virtual table of an interface is read. -/
  | deref (p : Option Nat)
deriving DecidableEq

mutual

/-- What `VariantClear` releases. -/
def Variant.owned : Variant → List Resource
  | .plain _ => []
  | .bstr b => b.toList.map .bstr
  | .interface _ p => p.toList.map .interface
  | .nullArray _ => []
  | .array _ a elems => .array a :: ownedAll elems

def ownedAll : List Variant → List Resource
  | [] => []
  | v :: vs => v.owned ++ ownedAll vs

end

def variantClear (v : Variant) : Traced Event Unit := tellAll (v.owned.map (.release .cells))

/-- `AddRef` of an interface that is not null. -/
def addRef (a : Account) : Variant → Traced Event Unit
  | .interface _ (some p) => tell (.acquire a (.interface p))
  | _ => pure ()

/-! ### `ObjToVARIANT` -/

/-- What is used of Tcl: the type a value has internally, the pointers, numbers
and lists it can be read as, and the variables it can name. `leaves` are the
elements of a nested list in order, where `none` is one that is missing. -/
structure Tcl (Obj : Type) where
  typeToVT : Obj → ValueType
  toInterface : InterfaceType → Obj → Option (Option Nat)
  toScalar : VarType → Obj → Bool
  isByteArray : Obj → Bool
  leaves : Obj → Option (List (Option Obj))
  getVar : Obj → Option Obj

section ToVariant

variable {Obj : Type} (T : Tcl Obj)

def toBstr (place : Address) : Traced Event (Option Variant) := do
  tell (.acquire .cells (.bstr place))
  pure (some (.bstr (some place)))

def toInterface (type : InterfaceType) (obj : Obj) : Traced Event (Option Variant) :=
  pure ((T.toInterface type obj).map (.interface type))

/-- Types that cannot be marshalled are changed. -/
def VarType.marshalled : VarType → VarType
  | .int | .hresult => .i4
  | .uint => .ui4
  | vt => vt

/-- `VT_VARIANT`: a guess on the value. -/
def guess (place : Address) (obj : Obj) : Traced Event (Option Variant) :=
  if T.toScalar .i4 obj then pure (some (.plain .i4))
  else if T.toScalar .r8 obj then pure (some (.plain .r8))
  else
    match T.toInterface .dispatch obj with
    | some p => pure (some (.interface .dispatch p))
    | none =>
      match T.toInterface .unknown obj with
      | some p => pure (some (.interface .unknown p))
      | none => toBstr place

/-- `ObjToVARIANT`, but for arrays. -/
def objToValue (place : Address) (obj : Obj) : VarType → Traced Event (Option Variant)
  | .empty => pure (some (.plain .empty))
  | .null => pure (some (.plain .null))
  | .variant => guess T place obj
  | .bstr => toBstr place
  | .dispatch => toInterface T .dispatch obj
  | .unknown => toInterface T .unknown obj
  | .void | .error => pure (some (.plain .error))
  | .ui8 => pure (if T.toScalar .ui8 obj then some (.plain .i8) else none)
  | .ptr | .safearray | .varname | .other _ => pure none
  | vt => pure (if T.toScalar vt obj then some (.plain vt.marshalled) else none)

/-- The types of elements that the loop of `ObjToSAFEARRAY` knows. -/
def VarType.isElement : VarType → Bool
  | .i1 | .ui1 | .i2 | .ui2 | .i4 | .ui4 | .int | .uint | .r4 | .r8 | .date | .bstr | .cy | .bool
  | .dispatch | .unknown | .variant | .decimal | .i8 | .ui8 => true
  | _ => false

/-- An interface is released when the array is. -/
def objToElement (place : Address) (elem : VarType) (obj : Obj) :
    Traced Event (Option Variant) := do
  if elem.isElement then
    let v ← objToValue T place obj elem
    v.elim (pure ()) (addRef .cells)
    pure v
  else pure none

/-- The elements up to the first that cannot be converted, and whether there is
none. -/
def objToElements (place : Address) (elem : VarType) :
    Nat → List (Option Obj) → Traced Event (List Variant × Bool)
  | _, [] => pure ([], true)
  | _, none :: _ => pure ([], false)
  | k, some obj :: objs => do
      match ← objToElement T (place ++ [k]) elem obj with
      | none => pure ([], false)
      | some v =>
        let rest ← objToElements place elem (k + 1) objs
        pure (v :: rest.1, rest.2)

def objToSafeArray (place : Address) (obj : Obj) (vt : VarType) :
    Traced Event (Option Variant) := do
  let vt := vt.marshalled
  if (vt = .ui1 ∨ vt = .variant) ∧ T.isByteArray obj then
    tell (.acquire .cells (.array place))
    pure (some (.array vt place []))
  else
    match T.leaves obj with
    | none => pure none
    | some objs =>
      tell (.acquire .cells (.array place))
      let elems ← objToElements T place vt 0 objs
      if elems.2 then pure (some (.array vt place elems.1))
      else
        variantClear (.array vt place elems.1)
        pure none

def objToVariant (place : Address) (obj : Obj) (vt : ValueType) :
    Traced Event (Option Variant) :=
  if vt.array then objToSafeArray T place obj vt.base else objToValue T place obj vt.base

end ToVariant

/-! ### `ObjFromVARIANT` -/

mutual

/-- Only the elements of an array get a reference of their own. -/
def objFromVariant (a : Account) : Variant → Traced Event (List Nat)
  | .plain _ => pure []
  | .bstr _ => pure []
  | .interface _ p => pure p.toList
  | .nullArray _ => pure []
  | .array _ _ elems => objFromElements a elems

def objFromElements (a : Account) : List Variant → Traced Event (List Nat)
  | [] => pure []
  | v :: vs => do
      addRef a v
      let first ← objFromVariant a v
      let rest ← objFromElements a vs
      pure (first ++ rest)

end

end Twapi.Com
