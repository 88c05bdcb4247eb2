import Twapi.Base.ListFormat
import Twapi.Base.Word
import Twapi.Lib.Bytes
import Twapi.Lib.Traced

/-!
The data of a MOF event, `Twapi_ParseEventMofData` of `etw/etw.c`.

The loop walks the field descriptors and the bytes of the event together: each
branch of the switch makes a Tcl object of the bytes at `bytesP` and says how
many it has eaten.

* What lies around the data in memory can be read: `EventData.beyond`.
* `size_t` has the width of the host, and a C `int` that meets one in a
  comparison is converted to it (`Host.size`).
* The events are what the code does without saying so: the bytes it reads, the
  `int`s it converts in a comparison, and the values that `remain` takes.
* What Win32 makes of a GUID, a SID and an IP address is a parameter
  (`Conversions`); a `float` or `double` object keeps its bits.
* The values put, with the bytes eaten for each, are bookkeeping the code does
  not have (`Taken`).
-/

namespace Twapi.Etw

open Lib (Traced ofBytes signedOf units)
open Lib.Traced (tell)

/-! ### The machine -/

inductive Host where
  | x86
  | x64
deriving DecidableEq

/-- The width of `size_t`. -/
def Host.bits : Host → Nat
  | .x86 => 32
  | .x64 => 64

/-- Conversion of an `int` to `size_t`. -/
def Host.size (h : Host) (x : Int) : Nat := (x % 2 ^ h.bits).toNat

structure Conversions where
  stringFromGUID : List UInt8 → String
  stringFromSid : List UInt8 → Option String
  inetNtoa : Nat → String
  stringFromIPv6 : List UInt8 → Option String

/-- The bytes of an event, whose number is an `int`, and the memory around them. -/
structure EventData where
  bytes : List UInt8
  fits : bytes.length < 2147483648
  beyond : Int → UInt8

def EventData.byte (d : EventData) : Int → UInt8
  | .ofNat p => d.bytes.getD p (d.beyond p)
  | .negSucc p => d.beyond (.negSucc p)

def EventData.read (d : EventData) (p : Int) (count : Nat) : List UInt8 :=
  (List.range count).map fun k : Nat => d.byte (p + k)

/-- `bytesP` and `remain`. -/
structure Cursor where
  bytesP : Int
  remain : Int
deriving DecidableEq

inductive Event where
  /-- `count` bytes are read, from `bytesP + start` on. -/
  | access (cur : Cursor) (start count : Nat)
  /-- An `int` is converted to `size_t` in a comparison. -/
  | compare (x : Int)
  /-- `remain` is set. -/
  | remain (x : Int)
deriving DecidableEq

/-! ### Objects -/

inductive Obj where
  | chars (text : List UInt8)
  | wchars (text : List UInt16)
  | int (n : Int)
  | bool (b : Bool)
  | string (s : String)
  | float (bits : Nat)
  | double (bits : Nat)
  | bytes (b : List UInt8)
deriving DecidableEq

/-- A number in base 16, of at least so many digits. -/
def hex (digits n : Nat) : String :=
  "0x" ++ String.ofList ((Nat.toDigits 16 n).leftpad digits '0')

abbrev Dict := List (String × Obj)

/-- `Tcl_DictObjPut`: a name that is there keeps its place. -/
def Dict.put (dict : Dict) (name : String) (obj : Obj) : Dict :=
  if dict.any fun e => e.1 = name then
    dict.map fun e => if e.1 = name then (name, obj) else e
  else dict ++ [(name, obj)]

/-! ### Field types -/

/-- The labels of the switch, by their comments. -/
inductive MofType where
  | string
  | wstring
  | stringcounted
  | stringreversecounted
  | wstringcounted
  | wstringreversecounted
  | boolean
  | sint8
  | uint8
  | csint8
  | cuint8
  | sint16
  | uint16
  | sint32
  | uint32
  | sint64
  | uint64
  | xsint16
  | xuint16
  | xsint32
  | xuint32
  | xsint64
  | xuint64
  | real32
  | real64
  | object
  | char16
  | uint8guid
  | objectguid
  | objectipaddr
  | objectipaddrv6
  | objectvariant
  | objectsid
  | uint64wmitime
  | objectwmitime
  | uint16port
  | objectport
  | datetime
  | stringnotcounted
  | wstringnotcounted
  | pointer
deriving DecidableEq

def MofType.ofEnum : Int → Option MofType
  | 1 => some .string
  | 2 => some .wstring
  | 3 => some .stringcounted
  | 4 => some .stringreversecounted
  | 5 => some .wstringcounted
  | 6 => some .wstringreversecounted
  | 7 => some .boolean
  | 8 => some .sint8
  | 9 => some .uint8
  | 10 => some .csint8
  | 11 => some .cuint8
  | 12 => some .sint16
  | 13 => some .uint16
  | 14 => some .sint32
  | 15 => some .uint32
  | 16 => some .sint64
  | 17 => some .uint64
  | 18 => some .xsint16
  | 19 => some .xuint16
  | 20 => some .xsint32
  | 21 => some .xuint32
  | 22 => some .xsint64
  | 23 => some .xuint64
  | 24 => some .real32
  | 25 => some .real64
  | 26 => some .object
  | 27 => some .char16
  | 28 => some .uint8guid
  | 29 => some .objectguid
  | 30 => some .objectipaddr
  | 31 => some .objectipaddrv6
  | 32 => some .objectvariant
  | 33 => some .objectsid
  | 34 => some .uint64wmitime
  | 35 => some .objectwmitime
  | 38 => some .uint16port
  | 39 => some .objectport
  | 40 => some .datetime
  | 41 => some .stringnotcounted
  | 42 => some .wstringnotcounted
  | 43 => some .pointer
  | _ => none

/-! ### The branches of the switch -/

/-- `goto done`, or an object, what was eaten for it, and the cursor it is eaten
from. -/
inductive Switch where
  | done
  | value (obj : Obj) (eaten : Int) (cur : Cursor)
deriving DecidableEq

section Branches

variable (h : Host) (W : Conversions) (d : EventData) (pointerSize : Int)

def read (cur : Cursor) (start count : Nat) : Traced Event (List UInt8) := do
  tell (.access cur start count)
  pure (d.read (cur.bytesP + start) count)

/-- `remain < sizeof(..)`. -/
def short (cur : Cursor) (size : Nat) : Traced Event Bool := do
  tell (.compare cur.remain)
  pure (h.size cur.remain < size)

/-- An object of the next `size` bytes. -/
def taking (cur : Cursor) (size : Nat) (f : List UInt8 → Obj) : Traced Event Switch := do
  let bytes ← read d cur 0 size
  pure (.value (f bytes) size cur)

def fixed (cur : Cursor) (size : Nat) (f : List UInt8 → Obj) : Traced Event Switch := do
  if ← short h cur size then pure .done
  else taking d cur size f

/-- The text, and the number of characters that remain; `max` is not negative
where it is called. -/
def objFromStringLimited (cur : Cursor) (max : Nat) : Traced Event (Obj × Int) := do
  let text := (d.read cur.bytesP max).takeWhile (· ≠ 0)
  tell (.access cur 0 (min (text.length + 1) max))
  pure (.chars text, if text.length = max then 0 else (max : Int) - text.length - 1)

def objFromWinCharsLimited (cur : Cursor) (max : Nat) : Traced Event (Obj × Int) := do
  let text := (units (d.read cur.bytesP (2 * max))).takeWhile (· ≠ 0)
  tell (.access cur 0 (2 * min (text.length + 1) max))
  pure (.wchars text, if text.length = max then 0 else (max : Int) - text.length - 1)

def string (cur : Cursor) : Traced Event Switch := do
  let (obj, eaten) ← objFromStringLimited d cur cur.remain.toNat
  pure (.value obj (cur.remain - eaten) cur)

def wstring (cur : Cursor) : Traced Event Switch := do
  let (obj, eaten) ← objFromWinCharsLimited d cur (h.size cur.remain / 2)
  pure (.value obj (cur.remain - 2 * eaten) cur)

/-- The count before a counted string. -/
def count (reverse : Bool) (bytes : List UInt8) : Nat :=
  let eaten := ofBytes bytes
  if reverse then eaten % 256 * 256 + eaten / 256 else eaten

def stringcounted (reverse : Bool) (cur : Cursor) : Traced Event Switch := do
  if cur.remain < 2 then pure .done
  else
    let eaten := count reverse (← read d cur 0 2)
    let eaten := if cur.remain < 2 + eaten then (cur.remain - 2).toNat else eaten
    let text ← read d cur 2 eaten
    pure (.value (.chars text) (eaten + 2) cur)

/-- The count is one of characters. -/
def wstringcounted (reverse : Bool) (cur : Cursor) : Traced Event Switch := do
  if cur.remain < 2 then pure .done
  else
    let eaten := count reverse (← read d cur 0 2)
    tell (.compare (cur.remain - 2))
    if h.size (cur.remain - 2) < 2 * eaten then
      let text ← read d cur 2 (2 * (h.size (cur.remain - 2) / 2))
      pure (.value (.wchars (units text)) cur.remain cur)
    else
      let text ← read d cur 2 (2 * eaten)
      pure (.value (.wchars (units text)) (2 * eaten + 2) cur)

/-- The sum with a `sizeof` is a `size_t`, and a byte array of negative length is
empty. -/
def variantOfLength (cur : Cursor) (eaten : Int) : Traced Event Switch := do
  tell (.compare cur.remain)
  tell (.compare eaten)
  if h.size cur.remain < (h.size eaten + 4) % 2 ^ h.bits then pure .done
  else
    let bytes ← read d cur 4 eaten.toNat
    pure (.value (.bytes bytes) (eaten + 4) cur)

/-- The length is stored into an `int`. -/
def objectvariant (cur : Cursor) : Traced Event Switch := do
  let length ← read d cur 0 4
  variantOfLength h d cur (Base.toInt (ofBytes length))

/-- `GetSidLengthRequired`. -/
def sidLength (subAuthorityCount : Nat) : Nat := 8 + 4 * subAuthorityCount

/-- A SID behind its `TOKEN_USER`: `sizeof(SID)` is 12, and
`SECURITY_MAX_SID_SIZE` is 68. -/
def behindTokenUser (cur : Cursor) : Traced Event Switch := do
  if ← short h cur 12 then pure .done
  else
    tell (.compare cur.remain)
    let buf ← read d cur 0 (if h.size cur.remain > 68 then 68 else h.size cur.remain)
    let revision := buf.getD 0 0
    let subAuthorityCount := (buf.getD 1 0).toNat
    if revision ≠ 1 ∨ 15 < subAuthorityCount then pure .done
    else
      let eaten := sidLength subAuthorityCount
      tell (.compare eaten)
      if 68 < h.size eaten ∨ cur.remain < eaten then pure .done
      else pure (.value (.string ((W.stringFromSid (buf.take eaten)).getD "")) eaten cur)

def objectsid (cur : Cursor) : Traced Event Switch := do
  if ← short h cur 4 then pure .done
  else
    if ofBytes (← read d cur 0 4) = 0 then pure (.value (.string "") 4 cur)
    else
      let cur : Cursor := ⟨cur.bytesP + pointerSize * 2, cur.remain - pointerSize * 2⟩
      tell (.remain cur.remain)
      behindTokenUser h W d cur

def stringnotcounted (cur : Cursor) : Traced Event Switch := do
  let text ← read d cur 0 cur.remain.toNat
  pure (.value (.chars text) cur.remain cur)

def wstringnotcounted (cur : Cursor) : Traced Event Switch := do
  let text ← read d cur 0 (2 * (h.size cur.remain / 2))
  pure (.value (.wchars (units text)) cur.remain cur)

def signed (bytes : List UInt8) : Obj := .int (signedOf bytes)

def unsigned (bytes : List UInt8) : Obj := .int (ofBytes bytes)

def hexadecimal (digits : Nat) (bytes : List UInt8) : Obj := .string (hex digits (ofBytes bytes))

/-- `switch (typeenum)`. -/
def switch (cur : Cursor) : MofType → Traced Event Switch
  | .string => string d cur
  | .wstring => wstring h d cur
  | .stringcounted => stringcounted d false cur
  | .stringreversecounted => stringcounted d true cur
  | .wstringcounted => wstringcounted h d false cur
  | .wstringreversecounted => wstringcounted h d true cur
  | .boolean => fixed h d cur 4 fun bytes => .bool (ofBytes bytes ≠ 0)
  | .sint8 => taking d cur 1 signed
  | .uint8 => taking d cur 1 unsigned
  | .csint8 | .cuint8 => taking d cur 1 .chars
  | .sint16 => fixed h d cur 2 signed
  | .uint16 => fixed h d cur 2 unsigned
  | .sint32 => fixed h d cur 4 signed
  | .uint32 => fixed h d cur 4 unsigned
  | .sint64 => fixed h d cur 8 signed
  | .uint64 => fixed h d cur 8 unsigned
  | .xsint16 | .xuint16 => fixed h d cur 2 (hexadecimal 0)
  | .xsint32 | .xuint32 => fixed h d cur 4 (hexadecimal 8)
  | .xsint64 | .xuint64 => fixed h d cur 8 (hexadecimal 16)
  | .real32 =>
    if cur.remain < 4 then pure .done else taking d cur 4 fun bytes => .float (ofBytes bytes)
  | .real64 =>
    if cur.remain < 8 then pure .done else taking d cur 8 fun bytes => .double (ofBytes bytes)
  | .object => pure .done
  | .char16 => fixed h d cur 2 fun bytes => .wchars (units bytes)
  | .uint8guid | .objectguid => fixed h d cur 16 fun bytes => .string (W.stringFromGUID bytes)
  | .objectipaddr => fixed h d cur 4 fun bytes => .string (W.inetNtoa (ofBytes bytes))
  | .objectipaddrv6 =>
    fixed h d cur 16 fun bytes => .string ((W.stringFromIPv6 bytes).getD "")
  | .objectvariant => objectvariant h d cur
  | .objectsid => objectsid h W d pointerSize cur
  | .uint64wmitime | .objectwmitime => fixed h d cur 8 unsigned
  | .uint16port | .objectport => fixed h d cur 2 unsigned
  | .datetime => pure .done
  | .stringnotcounted => stringnotcounted d cur
  | .wstringnotcounted => wstringnotcounted h d cur
  | .pointer =>
    if pointerSize = 8 then do
      let bytes ← read d cur 0 8
      pure (.value (hexadecimal 16 bytes) pointerSize cur)
    else do
      let bytes ← read d cur 0 4
      pure (.value (hexadecimal 8 bytes) pointerSize cur)

end Branches

/-! ### `Twapi_ParseEventMofData` -/

inductive Outcome where
  | ok (dict : Dict)
  | error (message : String)
deriving DecidableEq

/-- A value that was put, and the bytes eaten for it. -/
structure Taken where
  name : String
  obj : Obj
  eaten : Int
deriving DecidableEq

structure Parsed where
  outcome : Outcome
  taken : List Taken
deriving DecidableEq

section Command

variable (T : Base.Tcl) (h : Host) (W : Conversions) (d : EventData) (pointerSize : Int)

/-- The loop, over the names and types that are left. -/
def loop : List (String × String) → Cursor → Dict → Traced Event Parsed
  | [], _, dict => pure ⟨.ok dict, []⟩
  | (name, type) :: fields, cur, dict =>
    if 0 < cur.remain then
      match T.asInt type with
      | none => pure ⟨.error (T.notInt type), []⟩
      | some 0 => pure ⟨.ok dict, []⟩
      | some typeenum =>
        match MofType.ofEnum typeenum with
        | none => pure ⟨.error s!"Internal error: unknown mof typeenum {typeenum}", []⟩
        | some mof => do
            match ← switch h W d pointerSize cur mof with
            | .done => pure ⟨.ok dict, []⟩
            | .value obj eaten at_ =>
              let next : Cursor := ⟨at_.bytesP + eaten, at_.remain - eaten⟩
              tell (.remain next.remain)
              let rest ← loop fields next (dict.put name obj)
              pure ⟨rest.outcome, ⟨name, obj, next.bytesP - cur.bytesP⟩ :: rest.taken⟩
    else pure ⟨.ok dict, []⟩

/-- The list of alternating names and types. -/
def pairs : List String → List (String × String)
  | name :: type :: rest => (name, type) :: pairs rest
  | _ => []

/-- `TwapiReturnErrorEx` with `TWAPI_INVALID_ARGS`. -/
def invalidArgs (text : String) : Outcome :=
  .error (text ++ " TWAPI error: Invalid or badly formatted arguments specified.")

def parseEventMofData (objc : Nat) (fields pointerSize : String) : Traced Event Parsed :=
  if objc ≠ 4 then pure ⟨.error "Incorrect number of arguments.", []⟩
  else
    match T.asList fields, T.asInt pointerSize with
    | none, _ => pure ⟨.error (T.notList fields), []⟩
    | _, none => pure ⟨.error (T.notInt pointerSize), []⟩
    | some types, some pointerSize =>
      if types.length % 2 = 1 then
        pure ⟨invalidArgs
          s!"Field descriptor argument has odd number of elements ({types.length}).", []⟩
      else if pointerSize ≠ 4 ∧ pointerSize ≠ 8 then
        pure ⟨invalidArgs
          s!"Invalid pointer size parameter ({pointerSize}), must be 4 or 8", []⟩
      else do
        tell (.remain d.bytes.length)
        loop T h W d pointerSize (pairs types) ⟨0, d.bytes.length⟩ []

end Command

end Twapi.Etw
