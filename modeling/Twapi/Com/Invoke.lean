import Twapi.Com.Variant

/-!
`TwapiMakeVariantParam` and `Twapi_IDispatch_InvokeObjCmd` of `com/com.c`.

* A parameter has two VARIANTs: `primary` is the one that is passed, `target` the
  one it may refer to.
* The prototype and the arguments are read already as far as they are lists;
  type descriptions do not have the flags `VT_BYREF` and `VT_ARRAY`.
* `Outcome` is what the method does, and whether variables can be set. It stores
  values of the type of the parameter it stores them in, it may clear a VARIANT it
  was passed by value, and it releases what was there.

Parameters are in the order of the script, the first one first.
-/

namespace Twapi.Com

open Lib (Traced)
open Lib.Traced (tell tellAll)

/-! ### Descriptions of parameters -/

/-- The type information: a list of one or of two elements, or what is neither. -/
inductive TypeDesc where
  | one (vt : VarType)
  | two (vt : VarType) (referenced : TypeDesc)
  | invalid
deriving DecidableEq

/-- The first of the flags and default value. -/
inductive Modifier where
  | absent
  | number (n : Int)
  | token (s : String)
deriving DecidableEq

/-- A parameter description. The modifier is `none` where there is a type only, a
default value that is not a list has a message, and `named` is a named argument. -/
structure ParamDesc (Obj : Type) where
  type : TypeDesc
  modifier : Option Modifier
  badDefault : Option String
  named : Option Obj
deriving DecidableEq

def invalidType : String := "Unsupported or invalid type information format in parameter"

/-- The type of the value, and whether it is passed by reference. -/
def TypeDesc.resolve : TypeDesc → Option (ValueType × Bool)
  | .one .ptr | .one .safearray => none
  | .one vt => some (⟨vt, false⟩, false)
  | .two .ptr (.one .safearray) => none
  | .two .ptr (.one vt) => some (⟨vt, false⟩, true)
  | .two .ptr (.two .safearray (.one vt)) => some (⟨vt, true⟩, true)
  | .two .safearray (.one vt) => some (⟨vt, true⟩, false)
  | _ => none

/-- The bits of `PARAMFLAG_FIN`, `PARAMFLAG_FOUT`, `PARAMFLAG_FRETVAL` and
`PARAMFLAG_FOPT`. -/
def fin : Nat := 0
def fout : Nat := 1
def fretval : Nat := 3
def fopt : Nat := 4

/-- `*paramflagsP`. -/
def Modifier.flags : Modifier → Option Nat
  | .absent => some 1
  | .number n => some (if n = 0 then 1 else (n % 65536).toNat)
  | .token s =>
    if s = "" ∨ s = "in" then some 1
    else if s = "out" then some 2
    else if s = "inout" then some 3
    else none

/-! ### `TwapiMakeVariantParam` -/

/-- What a VARIANT with `VT_BYREF` refers to; `empty` is `VT_BYREF|VT_EMPTY`. -/
inductive RefKind where
  | variant
  | interface
  | bstr
  | array (elem : VarType)
  | empty
  | scalar
deriving DecidableEq

inductive Primary where
  | value (v : Variant)
  | ref (kind : RefKind)

structure Param where
  flags : Nat
  primary : Primary
  target : Variant

def noVariant : Variant := .plain .empty

/-- Two VARIANTs after `VariantInit`. -/
def Param.blank (flags : Nat) : Param := ⟨flags, .value noVariant, noVariant⟩

/-- `TwapiInitOutputParam`. -/
def twapiInitOutputParam (vt : ValueType) : Variant :=
  if vt.array then noVariant
  else
    match vt.base with
    | .i2 | .i4 | .i1 | .ui1 | .ui2 | .ui4 | .i8 | .ui8 | .int | .uint | .r4 | .r8 | .bool =>
      .plain vt.base
    | .bstr => .bstr none
    | .dispatch => .interface .dispatch none
    | .unknown => .interface .unknown none
    | _ => noVariant

/-- The types with a reference of their own. -/
def VarType.isScalar : VarType → Bool
  | .i2 | .i4 | .i1 | .ui2 | .ui4 | .ui1 | .int | .uint | .r4 | .r8 | .cy | .date | .error | .bool
  | .decimal | .i8 | .ui8 => true
  | _ => false

/-- How the VARIANT `v` of a parameter by reference is referred to. -/
def refKind (vt : ValueType) (v : Variant) : Option RefKind :=
  if vt = ⟨.variant, false⟩ then some .variant
  else if vt.array then
    match v with
    | .array elem _ _ | .nullArray elem => some (.array elem)
    | _ => some .empty
  else
    match v with
    | .plain .empty => some .variant
    | .plain vt => if vt.isScalar then some .scalar else none
    | .bstr _ => some .bstr
    | .interface _ _ => some .interface
    | .nullArray _ | .array _ _ _ => none

/-- The end of the function, where the value was made. -/
def Param.finish (flags : Nat) (vt : ValueType) (byref : Bool) (v : Variant) :
    Param × Option String :=
  if byref then
    match refKind vt v with
    | some kind => (⟨flags, .ref kind, v⟩, none)
    | none =>
      (⟨flags, .value noVariant, v⟩,
        some "Internal error while constructing referenced VARIANT parameter")
  else (⟨flags, .value v, noVariant⟩, none)

section Make

variable {Obj : Type} (T : Tcl Obj)

/-- The last part: the type and the flags are known. -/
def makeValue (place : Address) (flags : Nat) (vt : ValueType) (byref : Bool)
    (arg : Option Obj) : Traced Event (Param × Option String) :=
  if flags.testBit fin then
    match if flags.testBit fout then arg.bind T.getVar else arg with
    | none =>
      if flags.testBit fopt then pure (⟨flags, .value (.plain .error), noVariant⟩, none)
      else
        pure (.blank flags,
          some "Missing value and no default for IDispatch invoke parameter")
    | some obj => do
        let v ← objToVariant T place obj (if vt = ⟨.variant, false⟩ then T.typeToVT obj else vt)
        match v with
        | none => pure (.blank flags, some "")
        | some v =>
          addRef .cells v
          pure (Param.finish flags vt byref v)
  else pure (Param.finish flags vt byref (twapiInitOutputParam vt))

/-- The parameter, and an error. The text of one that comes from a conversion is
left out. -/
def twapiMakeVariantParam (place : Address) (desc : Option (ParamDesc Obj)) (arg : Option Obj) :
    Traced Event (Param × Option String) :=
  match desc with
  | none =>
    if arg.any fun obj => T.typeToVT obj = ⟨.varname, false⟩ then
      makeValue T place 2 ⟨.empty, false⟩ false arg
    else makeValue T place 1 ⟨.variant, false⟩ false arg
  | some desc =>
    if desc.type = .invalid then pure (.blank 1, some invalidType)
    else
      match (desc.modifier.getD .absent).flags with
      | none => pure (.blank 1, some "Unknown parameter modifiers")
      | some flags =>
        match desc.badDefault with
        | some message => pure (.blank flags, some message)
        | none =>
          match desc.type.resolve with
          | none => pure (.blank flags, some invalidType)
          | some (vt, byref) =>
            makeValue T place flags vt byref (arg.orElse fun _ => desc.named)

/-- The loop over the parameters, up to the first error. -/
def makeParams (arg : Nat → Option Obj) :
    Nat → List (Option (ParamDesc Obj)) → Traced Event (List Param × Option String)
  | _, [] => pure ([], none)
  | i, desc :: descs => do
      let (param, failed) ← twapiMakeVariantParam T [i] desc (arg i)
      match failed with
      | some message => pure ([param], some message)
      | none =>
        let rest ← makeParams arg (i + 1) descs
        pure (param :: rest.1, rest.2)

end Make

/-! ### What the method does -/

inductive Hr where
  | succeeded
  | exception (source description helpFile : Option Address)
  | failed
deriving DecidableEq

/-- `retI4` is what the returned VARIANT reads as a `long`, `changes` what is stored
for each parameter, and `sets` whether a variable can be set. -/
structure Outcome where
  hr : Hr
  ret : Variant
  retI4 : Int
  changes : Nat → Option Variant
  sets : Nat → Bool

namespace Param

variable (p : Param)

/-- Whether the method may store the value there. -/
def fits (v : Variant) : Bool :=
  match p.primary, p.target, v with
  | .value _, _, .plain .empty => true
  | .ref .variant, _, _ => true
  | .ref .interface, .interface type _, .interface type' _ => type = type'
  | .ref .bstr, _, .bstr _ => true
  | .ref (.array elem), _, .array elem' _ _ => elem = elem'
  | .ref (.array elem), _, .nullArray elem' => elem = elem'
  | _, _, _ => false

/-- The VARIANT that holds the value. -/
def held : Variant :=
  match p.primary with
  | .value v => v
  | .ref _ => p.target

def put (v : Variant) : Param :=
  match p.primary with
  | .value _ => { p with primary := .value v }
  | .ref _ => { p with target := v }

def store (change : Option Variant) : Traced Event Param :=
  match change with
  | none => pure p
  | some v =>
    if p.fits v then do
      variantClear p.held
      tellAll (v.owned.map (.acquire .cells))
      pure (p.put v)
    else pure p

end Param

def storeAll (changes : Nat → Option Variant) : Nat → List Param → Traced Event (List Param)
  | _, [] => pure []
  | i, p :: ps => do
      let q ← p.store (changes i)
      let qs ← storeAll changes (i + 1) ps
      pure (q :: qs)

/-! ### `Twapi_IDispatch_InvokeObjCmd` -/

/-- The prototype: `put` is whether the flags have `DISPATCH_PROPERTYPUT` or
`DISPATCH_PROPERTYPUTREF`, and a description that is `none` is an empty list. -/
structure Prototype (Obj : Type) where
  put : Bool
  rettype : VarType
  params : Option (List (Option (ParamDesc Obj)))
deriving DecidableEq

/-- A prototype that cannot be read has a message. -/
structure Call (Obj : Type) where
  idispP : Option Nat
  prototype : Except String (Prototype Obj)
  args : List Obj
  logging : Bool

inductive Status where
  | ok
  | error
deriving DecidableEq

/-- `ObjFromVARIANT` of the VARIANT that was passed. -/
def Param.objFrom (a : Account) (p : Param) : Traced Event (List Nat) :=
  match p.primary, p.target with
  | .value v, _ => objFromVariant a v
  | .ref .interface, .interface _ none => do
      tell (.deref none)
      pure []
  | .ref .interface, .interface _ (some q) => do
      tell (.deref (some q))
      tell (.acquire a (.interface q))
      pure [q]
  | .ref .variant, v => objFromVariant a v
  | .ref (.array _), .array _ _ elems => objFromElements a elems
  | .ref _, _ => pure []

def logParams : List Param → Traced Event Unit
  | [] => pure ()
  | p :: ps => do
      let _ ← p.objFrom .log
      logParams ps

/-- The parameter that is the return value of a method that returns an HRESULT. -/
def resultParam (rettype : VarType) (params : List Param) : Option Param :=
  if rettype = .hresult then
    params.head?.filter fun p => p.flags.testBit fout && p.flags.testBit fretval
  else none

/-- The result of the command; `none` is an error. -/
def resultOf (rettype : VarType) (ret : Variant) (retI4 : Int) (params : List Param) :
    Traced Event (Option (List Nat)) :=
  match resultParam rettype params with
  | some p =>
    if 0 ≤ retI4 then do
      match p.primary with
      | .value v => addRef .result v
      | .ref _ => pure ()
      let ps ← p.objFrom .result
      pure (some ps)
    else pure none
  | none =>
    if rettype = .void then pure (some [])
    else do
      addRef .result ret
      let ps ← objFromVariant .result ret
      pure (some ps)

/-- The reference for an out parameter that was stored in a variable. -/
def addRefOut (p : Param) : Traced Event Unit :=
  match p.primary with
  | .value v => addRef .variable_ v
  | .ref .interface | .ref .variant => addRef .variable_ p.target
  | .ref _ => pure ()

/-- The loop over the variables that were given, and whether all could be set. -/
def setVariables (sets : Nat → Bool) : Nat → List Param → Traced Event Bool
  | _, [] => pure true
  | i, p :: ps => do
      if p.flags.testBit fout then
        let pointers ← p.objFrom .variable_
        if sets i then
          tellAll (pointers.map (.deliver .variable_))
          addRefOut p
          setVariables sets (i + 1) ps
        else pure false
      else setVariables sets (i + 1) ps

def Hr.strings : Hr → List Address
  | .exception source description helpFile =>
    source.toList ++ description.toList ++ helpFile.toList
  | _ => []

/-- After the method has returned. The result reaches the script unless there is an
error later. -/
def finishCall (rettype : VarType) (ret : Variant) (nargs : Nat) (o : Outcome)
    (params : List Param) : Traced Event Status :=
  match o.hr with
  | .succeeded => do
      match ← resultOf rettype ret o.retI4 params with
      | none => pure .error
      | some pointers =>
        if ← setVariables o.sets 0 (params.take nargs) then
          tellAll (pointers.map (.deliver .result))
          pure .ok
        else pure .error
  | hr => do
      tellAll (hr.strings.map fun b => .release .cells (.bstr b))
      pure .error

/-- `vamoose`. -/
def clearCells (ret : Variant) : List Param → Traced Event Unit
  | [] => variantClear ret
  | p :: ps => do
      match p.primary with
      | .value v => variantClear v
      | .ref _ => pure ()
      variantClear p.target
      clearCells ret ps

section Command

variable {Obj : Type} (T : Tcl Obj)

/-- A property put has no return value. -/
def Prototype.returns (proto : Prototype Obj) : VarType :=
  if proto.put then .void else proto.rettype

/-- The VARIANT that is returned. -/
def Prototype.ret (proto : Prototype Obj) (o : Outcome) : Variant :=
  if proto.returns = .void then noVariant else o.ret

/-- The descriptions of the parameters; without any there is one for each argument. -/
def Call.descs (c : Call Obj) (proto : Prototype Obj) : List (Option (ParamDesc Obj)) :=
  match proto.params with
  | some params => params
  | none => c.args.map fun _ => none

/-- From the call of `Invoke` on, with the parameters that were made. -/
def callMethod (c : Call Obj) (o : Outcome) (proto : Prototype Obj) (params : List Param) :
    Traced Event Status := do
  tell (.deref c.idispP)
  let ret := proto.ret o
  tellAll (ret.owned.map (.acquire .cells))
  tellAll (o.hr.strings.map fun b => .acquire .cells (.bstr b))
  let params ← storeAll o.changes 0 params
  let status ← finishCall proto.returns ret c.args.length o params
  clearCells ret params
  pure status

def invokeWith (c : Call Obj) (o : Outcome) (proto : Prototype Obj) : Traced Event Status := do
  let made ← makeParams T (fun i => c.args[i]?) 0 (c.descs proto)
  if made.2.isSome then
    clearCells noVariant made.1
    pure .error
  else
    if c.logging then logParams made.1
    callMethod c o proto made.1

def twapiIDispatchInvokeObjCmd (c : Call Obj) (o : Outcome) : Traced Event Status :=
  match c.prototype with
  | .error _ => pure .error
  | .ok proto => invokeWith T c o proto

end Command

end Twapi.Com
