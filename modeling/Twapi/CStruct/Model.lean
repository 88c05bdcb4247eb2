import Mathlib.Data.BitVec
import Twapi.Lib.Bytes
import Twapi.Lib.Memo
import Twapi.Lib.Memory

/-!
C structures that are defined by lists, `base/ffi.c`.

* `objCastToCStruct` — the layout of a definition.
* `parseCStructHelper` — a value is written to memory.
* `objFromCStructHelper` — a value is read from memory.

Values are strings, and lists are what Tcl takes them for. What is read is a tree, so that
nothing is assumed of how numbers are printed. Sizes and offsets are 32-bit words.
-/

namespace Twapi.CStruct

open Lib

abbrev DWORD := BitVec 32

/-! ### Tcl and Windows -/

inductive Arch where
  | x86
  | x64
deriving DecidableEq

/-- `sizeof(void *)` -/
def Arch.pointer : Arch → Nat
  | .x86 => 4
  | .x64 => 8

/-- What a pointer points to. -/
inductive Text where
  | chars (s : String)
  | wide (s : List Char)
  | sid (bytes : List UInt8)
deriving DecidableEq

/-- What is used of Tcl, Windows and the memory pool. Integers that Tcl accepts are
reduced to the width that is asked for. -/
structure Tcl (A : Arch) where
  elements : String → Except String (List String)
  number : String → Option Int
  toInt : String → Except String (BitVec 32)
  toLong : String → Except String (BitVec 32)
  toWideInt : String → Except String (BitVec 64)
  toBoolean : String → Except String Bool
  toDouble : String → Except String (BitVec 64)
  float : BitVec 64 → BitVec 32
  ofFloat : BitVec 32 → BitVec 64
  toOpaque : String → Except String Nat
  stringSidToSid : String → Option (List UInt8)
  sidToStringSid : List UInt8 → Except String String
  fresh : List (Nat × Text) → Option Nat
  toInt_eq : ∀ s b, toInt s = .ok b → ∃ n, number s = some n ∧ b = BitVec.ofInt 32 n
  toLong_eq : ∀ s b, toLong s = .ok b → ∃ n, number s = some n ∧ b = BitVec.ofInt 32 n
  toWideInt_eq : ∀ s b, toWideInt s = .ok b → ∃ n, number s = some n ∧ b = BitVec.ofInt 64 n
  toOpaque_lt : ∀ s p, toOpaque s = .ok p → p < 256 ^ A.pointer
  sid_text : ∀ s sid, stringSidToSid s = some sid →
    ∃ text, sidToStringSid sid = .ok text ∧ stringSidToSid text = some sid
  fresh_lt : ∀ blocks p, fresh blocks = some p → p < 256 ^ A.pointer
  fresh_lookup : ∀ (blocks : List (Nat × Text)) p, fresh blocks = some p → blocks.lookup p = none

structure Error where
  text : String
  code : Option Nat
deriving DecidableEq

def twapiInvalidArgs : Nat := 1
def twapiBufferOverrun : Nat := 2
def twapiInternalLimit : Nat := 5
def twapiOutOfRange : Nat := 13
def twapiInvalidData : Nat := 22

def tclError (text : String) : Error := ⟨text, none⟩

def invalidDef : Error := ⟨"Invalid CStruct definition", some twapiInvalidArgs⟩
def invalidValue : Error := ⟨"Invalid CStruct value", some twapiInvalidArgs⟩

/-! ### Definitions -/

inductive CStructType where
  | void
  | boolean
  | char
  | uchar
  | short
  | ushort
  | int
  | uint
  | int64
  | uint64
  | float
  | double
  | string
  | wstring
  | cbsize
  | handle
  | psid
  | struct
deriving DecidableEq

def cstruct_types : List (String × CStructType) :=
  [("void", .void), ("bool", .boolean), ("i1", .char), ("ui1", .uchar), ("i2", .short),
   ("ui2", .ushort), ("i4", .int), ("ui4", .uint), ("i8", .int64), ("ui8", .uint64),
   ("r4", .float), ("r8", .double), ("lpstr", .string), ("lpwstr", .wstring),
   ("cbsize", .cbsize), ("handle", .handle), ("psid", .psid), ("struct", .struct)]

/-- The size of an element. A nested structure has its own. -/
def CStructType.elem_size (A : Arch) : CStructType → Nat
  | .void | .struct => 0
  | .char | .uchar => 1
  | .short | .ushort => 2
  | .boolean | .int | .uint | .float | .cbsize => 4
  | .int64 | .uint64 | .double => 8
  | .string | .wstring | .handle | .psid => A.pointer

/-- `TwapiCStructField` without the nested structure. A count of 0 is a scalar. -/
structure Field where
  name : String
  type : CStructType
  count : DWORD
  offset : DWORD
  size : DWORD
deriving DecidableEq

/-- The fields of a structure, where a nested structure has its size and alignment. -/
inductive Fields where
  | nil
  | field (f : Field) (rest : Fields)
  | nested (f : Field) (size alignment : DWORD) (child rest : Fields)
deriving DecidableEq

/-- `TwapiCStructRep` -/
structure Rep where
  size : DWORD
  alignment : DWORD
  fields : Fields
deriving DecidableEq

def Fields.length : Fields → Nat
  | .nil => 0
  | .field _ rest => rest.length + 1
  | .nested _ _ _ _ rest => rest.length + 1

def Fields.cons (f : Field) (child : Option Rep) (rest : Fields) : Fields :=
  match child with
  | none => .field f rest
  | some rep => .nested f rep.size rep.alignment rep.fields rest

section Cast

variable {A : Arch} (T : Tcl A)

/-- The words of a field. -/
structure Def where
  name : String
  deftype : CStructType
  array_size : DWORD
  child : Option String
deriving DecidableEq

/-- Not negative. -/
def arraySize (s : String) : Except Error DWORD :=
  match T.toInt s with
  | .error _ => .error invalidDef
  | .ok n => if n.toInt < 0 then .error invalidDef else .ok n

def defType (s : String) : Except Error CStructType :=
  match cstruct_types.lookup s with
  | none => .error invalidDef
  | some deftype => .ok deftype

def definitionWords : List String → Except Error Def
  | [name, type] => do
      let deftype ← defType type
      return ⟨name, deftype, 0, none⟩
  | [name, type, size] => do
      let deftype ← defType type
      let array_size ← arraySize T size
      return ⟨name, deftype, array_size, none⟩
  | [name, type, size, child] => do
      let deftype ← defType type
      let array_size ← arraySize T size
      return ⟨name, deftype, array_size, some child⟩
  | _ => .error invalidDef

def definition (fieldObj : String) : Except Error Def :=
  match T.elements fieldObj with
  | .error _ => .error invalidDef
  | .ok defObjs => definitionWords T defObjs

/-- An alignment of 0 stands for the size. -/
structure Element where
  elem_size : DWORD
  field_alignment : DWORD
  child : Option Rep
deriving DecidableEq

def elementOf (cast : String → Except Error Rep) (nfields : Nat) (d : Def) :
    Except Error Element :=
  match d.deftype with
  | .void => if nfields ≠ 1 then .error invalidDef else .ok ⟨0, 0, none⟩
  | .cbsize => if d.array_size ≠ 0 then .error invalidDef else .ok ⟨4, 0, none⟩
  | .struct =>
    match d.child with
    | none => .error invalidDef
    | some obj => do
        let rep ← cast obj
        return ⟨rep.size, rep.alignment, some rep⟩
  | deftype => .ok ⟨BitVec.ofNat 32 (deftype.elem_size A), 0, none⟩

/-- `(offset + alignment - 1) & ~(alignment - 1)` -/
def alignTo (offset alignment : DWORD) : DWORD := (offset + alignment - 1) &&& ~~~(alignment - 1)

def Element.alignment (e : Element) : DWORD :=
  if e.field_alignment = 0 then e.elem_size else e.field_alignment

/-- The loop over the definitions. -/
def castFields (cast : String → Except Error Rep) (nfields : Nat) :
    (fieldObjs : List String) → (offset struct_alignment : DWORD) →
    Except Error (Fields × DWORD × DWORD)
  | [], offset, struct_alignment => .ok (.nil, offset, struct_alignment)
  | fieldObj :: fieldObjs, offset, struct_alignment => do
      let d ← definition T fieldObj
      let e ← elementOf (A := A) cast nfields d
      let struct_alignment := if e.alignment > struct_alignment then e.alignment
        else struct_alignment
      let offset := alignTo offset e.alignment
      let next := if d.array_size = 0 then offset + e.elem_size
        else offset + d.array_size * e.elem_size
      let (fields, last, struct_alignment) ← castFields cast nfields fieldObjs next
        struct_alignment
      return (.cons ⟨d.name, d.deftype, d.array_size, offset, e.elem_size⟩ e.child fields,
        last, struct_alignment)

/-- Structures are nested at most `depth` deep. -/
def objCastToCStruct : (depth : Nat) → (csObj : String) → (allow_empty : Bool) →
    Except Error Rep
  | 0, _, _ => .error (tclError "too many nested structures")
  | depth + 1, csObj, allow_empty => do
      let fieldObjs ← (T.elements csObj).mapError tclError
      if fieldObjs = [] ∧ allow_empty = false then .error invalidDef
      else do
        let (fields, offset, struct_alignment) ←
          castFields T (fun obj => objCastToCStruct depth obj false) fieldObjs.length fieldObjs
            0 1
        return ⟨alignTo offset struct_alignment, struct_alignment, fields⟩

end Cast

/-! ### Memory -/

/-- `accessed` are the places in the buffer that were read or written. -/
structure State where
  mem : Mem
  accessed : List (Int × Nat)
  blocks : List (Nat × Text)

abbrev Prog (α : Type) : Type := Memo State Error α

def readAt (a : Int) (n : Nat) : Prog (List UInt8) := fun s =>
  (.ok (s.mem.read a n), { s with accessed := (a, n) :: s.accessed })

def writeAt (a : Int) (bytes : List UInt8) : Prog Unit := fun s =>
  (.ok (), { s with
    mem := s.mem.write a bytes
    accessed := (a, bytes.length) :: s.accessed })

section Parse

variable {A : Arch} (T : Tcl A)

def outOfMemory : Error := tclError "out of memory"

/-- `MemLifoCopy` -/
def copyOf (text : Text) : Prog Nat := fun s =>
  match T.fresh s.blocks with
  | none => (.error outOfMemory, s)
  | some p => (.ok p, { s with blocks := (p, text) :: s.blocks })

/-- What replaces the error of a nested structure. -/
def orInvalid (p : Prog Unit) : Prog Unit := fun s =>
  match p s with
  | (.error _, t) => (.error invalidValue, t)
  | (.ok a, t) => (.ok a, t)

def outOfRange : Error := ⟨"Value is out of range.", some twapiOutOfRange⟩

/-- `ObjToRangedInt` -/
def rangedInt (obj : String) (low high : Int) : Except Error Int := do
  let b ← (T.toInt obj).mapError tclError
  if b.toInt < low ∨ high < b.toInt then .error outOfRange else .ok b.toInt

/-- The bytes of a number, by two's complement. -/
def bytesOf (width : Nat) (z : Int) : List UInt8 := toBytes width (z % 256 ^ width).toNat

/-- What is stored for a value that is not a string. -/
def scalarBytes (type : CStructType) (obj : String) : Except Error (List UInt8) :=
  match type with
  | .boolean => do
      let b ← (T.toBoolean obj).mapError tclError
      return toBytes 4 b.toNat
  | .char => do
      let n ← rangedInt T obj (-128) 127
      return bytesOf 1 n
  | .uchar => do
      let n ← rangedInt T obj 0 255
      return bytesOf 1 n
  | .short => do
      let n ← rangedInt T obj (-32768) 32767
      return bytesOf 2 n
  | .ushort => do
      let n ← rangedInt T obj 0 65535
      return bytesOf 2 n
  | .int | .uint => do
      let b ← (T.toLong obj).mapError tclError
      return toBytes 4 b.toNat
  | .cbsize => do
      let b ← (T.toInt obj).mapError tclError
      return toBytes 4 b.toNat
  | .int64 | .uint64 => do
      let b ← (T.toWideInt obj).mapError tclError
      return toBytes 8 b.toNat
  | .float => do
      let b ← (T.toDouble obj).mapError tclError
      return toBytes 4 (T.float b).toNat
  | .double => do
      let b ← (T.toDouble obj).mapError tclError
      return toBytes 8 b.toNat
  | .handle => do
      let p ← (T.toOpaque obj).mapError tclError
      return toBytes A.pointer p
  | .void | .string | .wstring | .psid | .struct => .error invalidValue

def storePointer (text : Text) (pv2 : Int) : Prog Unit := do
  let p ← copyOf T text
  writeAt pv2 (toBytes A.pointer p)

/-- One value that is not a structure. -/
def store (type : CStructType) (obj : String) (pv2 : Int) : Prog Unit :=
  match type with
  | .string => storePointer T (.chars obj) pv2
  | .wstring => storePointer T (.wide obj.toList) pv2
  | .psid =>
    match T.stringSidToSid obj with
    | none => Memo.throw invalidValue
    | some sid => storePointer T (.sid sid) pv2
  | type =>
    match scalarBytes T type obj with
    | .error e => Memo.throw e
    | .ok bytes => writeAt pv2 bytes

/-- The elements of an array. -/
def storeArray (one : String → Int → Prog Unit) (elem_size : DWORD) :
    (arrayObj : List String) → (pv2 : Int) → Prog Unit
  | [], _ => pure ()
  | obj :: arrayObj, pv2 => do
      one obj pv2
      storeArray one elem_size arrayObj (pv2 + elem_size.toInt)

def tooFewElements : Error := ⟨"Too few elements in cstruct array field", some twapiInvalidArgs⟩

/-- A value, or as many as the array has elements. -/
def storeField (one : String → Int → Prog Unit) (f : Field) (obj : String) (pv2 : Int) :
    Prog Unit :=
  if f.count = 0 then one obj pv2
  else
    match T.elements obj with
    | .error e => Memo.throw (tclError e)
    | .ok arrayObj =>
      if arrayObj.length < f.count.toNat then Memo.throw tooFewElements
      else storeArray one f.size (arrayObj.take f.count.toNat) pv2

/-- A size that was given is at most that of the structure, and 0 stands for it. -/
def checkSize (size : DWORD) (f : Field) (pv2 : Int) : Prog Unit :=
  if f.type = .cbsize then do
    let bytes ← readAt pv2 4
    if ofBytes bytes > size.toNat then Memo.throw invalidValue
    else if ofBytes bytes = 0 then writeAt pv2 (toBytes 4 size.toNat)
    else pure ()
  else pure ()

def bufferOverrun : Error :=
  ⟨"Attempt to write past the end of memory buffer.", some twapiBufferOverrun⟩

/-- The checks of `ParseCStructHelper` before its loop. -/
def parseWith (size : DWORD) (nfields : Nat) (loop : List String → Int → Prog Unit)
    (nbytes : DWORD) (valObj : String) (pv : Int) : Prog Unit :=
  if size ≠ nbytes then Memo.throw bufferOverrun
  else
    match T.elements valObj with
    | .error _ => Memo.throw invalidValue
    | .ok objPP => if objPP.length ≠ nfields then Memo.throw invalidValue else loop objPP pv

/-- The loop over the fields of a structure of this size. -/
def parseFields : (fields : Fields) → (size : DWORD) → (objPP : List String) → (pv : Int) →
    Prog Unit
  | .field f rest, size, obj :: objPP, pv => do
      storeField T (store T f.type) f obj (pv + f.offset.toNat)
      checkSize size f (pv + f.offset.toNat)
      parseFields rest size objPP pv
  | .nested f childSize _ child rest, size, obj :: objPP, pv => do
      storeField T
        (fun obj pv2 => orInvalid (parseWith T childSize child.length
          (fun objs pv => parseFields child childSize objs pv) f.size obj pv2))
        f obj (pv + f.offset.toNat)
      parseFields rest size objPP pv
  | _, _, _, _ => pure ()

def parseCStructHelper (rep : Rep) (valObj : String) (nbytes : DWORD) (pv : Int) : Prog Unit :=
  parseWith T rep.size rep.fields.length (parseFields T rep.fields rep.size) nbytes valObj pv

/-- `TwapiCStructParse`, where the buffer is allocated at `pv`. Nothing stands for a
pointer that is null. -/
def twapiCStructParse (depth : Nat) (csvalObj : String) (allow_null : Bool) (pv : Int) :
    Prog (DWORD × Option Int) :=
  match T.elements csvalObj with
  | .ok [] => if allow_null then pure (0, none) else Memo.throw invalidValue
  | .ok [csObj, valObj] =>
    match objCastToCStruct T depth csObj false with
    | .error e => Memo.throw e
    | .ok rep => do
        orInvalid (parseCStructHelper T rep valObj rep.size pv)
        return (rep.size, some pv)
  | _ => Memo.throw invalidValue

end Parse

/-! ### Values that are read -/

inductive Obj where
  | boolean (b : Bool)
  | int (z : Int)
  | double (bits : BitVec 64)
  | string (s : String)
  | pointer (p : Nat) (ctype : String)
  | list (objs : List Obj)

section Extract

variable {A : Arch} (T : Tcl A)

def sizeMismatch : Error := ⟨"Size mismatch with cstruct definition", some twapiInvalidData⟩
def tooManyFields : Error :=
  ⟨"Not enough space to decode all cstruct fields", some twapiInternalLimit⟩

/-- What a pointer to nothing leads to. -/
def accessViolation : Error := tclError "access violation"

/-- A wide string ends at the first null character. -/
def textObj (type : CStructType) (text : Text) : Except Error Obj :=
  match type, text with
  | .string, .chars s => .ok (.string s)
  | .wstring, .wide s => .ok (.string (String.ofList (s.takeWhile (· ≠ '\x00'))))
  | .psid, .sid bytes => ((T.sidToStringSid bytes).mapError tclError).map Obj.string
  | _, _ => .error accessViolation

/-- The value of a string that a pointer leads to. -/
def pointedObj (type : CStructType) (p : Nat) : Prog Obj := fun s =>
  match s.blocks.lookup p with
  | none => (.error accessViolation, s)
  | some text => (textObj T type text, s)

/-- `EXTRACT` for one element: the width is that of the C type, and nothing is done for
`void`. -/
def scalarObj (type : CStructType) (bytes : List UInt8) : Obj :=
  match type with
  | .boolean => .boolean (ofBytes bytes ≠ 0)
  | .char | .short | .int | .int64 | .uint64 => .int (signedOf bytes)
  | .uchar | .ushort | .uint | .cbsize => .int (ofBytes bytes)
  | .double => .double (BitVec.ofNat 64 (ofBytes bytes))
  | .float => .double (T.ofFloat (BitVec.ofNat 32 (ofBytes bytes)))
  | .handle => .pointer (ofBytes bytes) "HANDLE"
  | .void | .string | .wstring | .psid | .struct => .list []

def extract (type : CStructType) (pv2 : Int) : Prog Obj := do
  let bytes ← readAt pv2 (type.elem_size A)
  match type with
  | .string | .wstring | .psid => pointedObj T type (ofBytes bytes)
  | type => pure (scalarObj T type bytes)

/-- The elements of an array. -/
def extractArray (one : Int → Prog Obj) (stride : Int) : (count : Nat) → (pv2 : Int) →
    Prog (List Obj)
  | 0, _ => pure []
  | count + 1, pv2 => do
      let obj ← one pv2
      let objs ← extractArray one stride count (pv2 + stride)
      return obj :: objs

def extractField (one : Int → Prog Obj) (stride : Int) (f : Field) (pv2 : Int) : Prog Obj :=
  if f.count = 0 then one pv2
  else do
    let objs ← extractArray one stride f.count.toNat pv2
    return .list objs

/-- The name of a field, where the values are put out with their names. -/
def keyOf (include_key : Bool) (f : Field) : List Obj := if include_key then [.string f.name] else []

/-- The checks of `ObjFromCStructHelper` before its loop. No more than 64 objects fit. -/
def extractWith (include_key : Bool) (size : DWORD) (nfields : Nat) (loop : Int → Prog (List Obj))
    (nbytes : DWORD) (pv : Int) : Prog Obj :=
  if nbytes ≠ 0 ∧ nbytes ≠ size then Memo.throw sizeMismatch
  else if nfields > (if include_key then 32 else 64) then Memo.throw tooManyFields
  else do
    let objs ← loop pv
    return .list objs

/-- The loop over the fields. -/
def extractFields (include_key : Bool) : (fields : Fields) → (pv : Int) → Prog (List Obj)
  | .nil, _ => pure []
  | .field f rest, pv => do
      if f.type = .void then extractFields include_key rest pv
      else do
        let obj ← extractField (extract T f.type) (f.type.elem_size A) f (pv + f.offset.toNat)
        let objs ← extractFields include_key rest pv
        return keyOf include_key f ++ obj :: objs
  | .nested f childSize _ child rest, pv => do
      let obj ← extractField
        (extractWith include_key childSize child.length
          (fun pv => extractFields include_key child pv) f.size)
        f.size.toInt f (pv + f.offset.toNat)
      let objs ← extractFields include_key rest pv
      return keyOf include_key f ++ obj :: objs

def objFromCStructHelper (rep : Rep) (include_key : Bool) (nbytes : DWORD) (pv : Int) : Prog Obj :=
  extractWith include_key rep.size rep.fields.length (extractFields T include_key rep.fields)
    nbytes pv

/-- `ObjFromCStruct` -/
def objFromCStruct (depth : Nat) (csObj : String) (include_key : Bool) (nbytes : DWORD)
    (pv : Int) : Prog Obj :=
  match objCastToCStruct T depth csObj false with
  | .error e => Memo.throw e
  | .ok rep => objFromCStructHelper T rep include_key nbytes pv

end Extract

end Twapi.CStruct
