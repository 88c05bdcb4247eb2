import Twapi.Etw.RoundTrip
import Twapi.Lib.Table

/-!
The table of field types, `_etw_decipher_mof_event_field_type` of `tcl/etw.tcl`,
and the switch.

* `denotations` — what the fields of each type look like, by the type's name.
* `Row` — how the table and the switch agree, or do not, on one name.
* `decoded_as_denoted_iff` — a field is decoded as the value that the name says,
  exactly when `Agrees` holds.
-/

namespace Twapi.Etw

open Lib

/-! ### The script -/

/-- `etw_fieldtypes`. -/
def etwFieldtypes : List (String × Int) :=
  [("string", 1), ("stringnullterminated", 1), ("wstring", 2), ("wstringnullterminated", 2),
    ("stringcounted", 3), ("stringreversecounted", 4), ("wstringcounted", 5),
    ("wstringreversecounted", 6), ("boolean", 7), ("sint8", 8), ("uint8", 9), ("csint8", 10),
    ("cuint8", 11), ("sint16", 12), ("uint16", 13), ("uint32", 14), ("sint32", 15),
    ("sint64", 16), ("uint64", 17), ("xsint16", 18), ("xuint16", 19), ("xsint32", 20),
    ("xuint32", 21), ("xsint64", 22), ("xuint64", 23), ("real32", 24), ("real64", 25),
    ("object", 26), ("char16", 27), ("uint8guid", 28), ("objectguid", 29),
    ("objectipaddrv4", 30), ("uint32ipaddr", 30), ("objectipaddr", 30), ("objectipaddrv6", 31),
    ("objectvariant", 32), ("objectsid", 33), ("uint64wmitime", 34), ("objectwmitime", 35),
    ("uint16port", 38), ("objectport", 39), ("datetime", 40), ("stringnotcounted", 41),
    ("wstringnotcounted", 42), ("pointer", 43), ("sizet", 43)]

/-- The qualifiers of a property that are looked at; `CIMTYPE` and the ones after
it may be missing. -/
structure Qualifiers where
  pointer : Bool
  pointerType : Bool
  cimtype : Option String
  format : Option String
  stringTermination : Option String
  extension : Option String
  isArray : Bool
deriving DecidableEq

structure FieldType where
  type : String
  fieldtype : Int
  extension : String
deriving DecidableEq

/-- The type and the extension, but for arrays; `tolower` is `string tolower`. -/
def scalarType (tolower : String → String) (q : Qualifiers) : String × String :=
  if q.pointer then ("pointer", "")
  else if q.pointerType then ("pointer", "")
  else
    match q.cimtype with
    | none => ("unknown", "")
    | some cimtype =>
      let type := tolower
        (q.format.getD "" ++ tolower cimtype ++ q.stringTermination.getD "")
      let extension := tolower (q.extension.getD "")
      if extension ∈ ["ipaddr", "ipaddrv4", "ipaddrv6", "port", "variant", "wmitime", "guid",
          "sid"] then (type ++ extension, extension)
      else if extension = "sizet" then ("sizet", extension)
      else (type, extension)

def decipherMofEventFieldType (tolower : String → String) (q : Qualifiers) : FieldType :=
  let (type, extension) := scalarType tolower q
  let type := if q.isArray then "arrayof" ++ type else type
  ⟨type, (etwFieldtypes.lookup type).getD 0, extension⟩

/-! ### What the names say -/

/-- A port is in network byte order. What an object without an extension and a
`datetime` look like in an event is left open. -/
inductive Meaning where
  | kind (K : Kind)
  | port
  | undescribed
deriving DecidableEq

def Meaning.Encodes (W : Conversions) (pointerSize : Nat) : Meaning → Obj → List UInt8 → Prop
  | .kind K, obj, bytes => K.Encodes W pointerSize obj bytes
  | .port, obj, bytes => ∃ n : Nat, n < 256 ^ 2 ∧ obj = .int n ∧ bytes = (toBytes 2 n).reverse
  | .undescribed, _, bytes => bytes ≠ []

def denotations : List (String × Meaning) :=
  [("string", .kind .string), ("stringnullterminated", .kind .string),
    ("wstring", .kind .wstring), ("wstringnullterminated", .kind .wstring),
    ("stringcounted", .kind (.counted false)), ("stringreversecounted", .kind (.counted true)),
    ("wstringcounted", .kind (.wcounted false)),
    ("wstringreversecounted", .kind (.wcounted true)), ("boolean", .kind (.scalar .boolean)),
    ("sint8", .kind (.scalar (.signed 1))), ("uint8", .kind (.scalar (.unsigned 1))),
    ("csint8", .kind (.scalar .character)), ("cuint8", .kind (.scalar .character)),
    ("sint16", .kind (.scalar (.signed 2))), ("uint16", .kind (.scalar (.unsigned 2))),
    ("uint32", .kind (.scalar (.unsigned 4))), ("sint32", .kind (.scalar (.signed 4))),
    ("sint64", .kind (.scalar (.signed 8))), ("uint64", .kind (.scalar (.unsigned 8))),
    ("xsint16", .kind (.scalar (.hex 2 0))), ("xuint16", .kind (.scalar (.hex 2 0))),
    ("xsint32", .kind (.scalar (.hex 4 8))), ("xuint32", .kind (.scalar (.hex 4 8))),
    ("xsint64", .kind (.scalar (.hex 8 16))), ("xuint64", .kind (.scalar (.hex 8 16))),
    ("real32", .kind (.scalar .float)), ("real64", .kind (.scalar .double)),
    ("object", .undescribed), ("char16", .kind (.scalar .unit)),
    ("uint8guid", .kind (.scalar .guid)), ("objectguid", .kind (.scalar .guid)),
    ("objectipaddrv4", .kind (.scalar .ipv4)), ("uint32ipaddr", .kind (.scalar .ipv4)),
    ("objectipaddr", .kind (.scalar .ipv4)), ("objectipaddrv6", .kind (.scalar .ipv6)),
    ("objectvariant", .kind .variant), ("objectsid", .kind .sid),
    ("uint64wmitime", .kind (.scalar (.unsigned 8))),
    ("objectwmitime", .kind (.scalar (.unsigned 8))), ("uint16port", .port),
    ("objectport", .port), ("datetime", .undescribed), ("stringnotcounted", .kind .rest),
    ("wstringnotcounted", .kind .wrest), ("pointer", .kind .pointer), ("sizet", .kind .pointer)]

/-- When a field of a type is decoded as the type's name says. -/
def Agrees (pointerSize : Nat) (type : String) (bytes rest : List UInt8) : Meaning → Prop
  | .kind K => K.Fits pointerSize bytes rest ∧
      (type = "uint32" ∨ type = "sint32" → ofBytes bytes < 2147483648)
  | .port => ofBytes bytes = ofBytes bytes.reverse
  | .undescribed => False

/-! ### The table against the switch -/

/-- A name with what it says, and the label of the switch that the table leads to. -/
inductive Row (type : String) : Meaning → MofType → Prop where
  | same {K : Kind} {mof : MofType} : mof.kind = some K → type ≠ "uint32" → type ≠ "sint32" →
      Row type (.kind K) mof
  | uint32 : type = "uint32" → Row type (.kind (.scalar (.unsigned 4))) .sint32
  | sint32 : type = "sint32" → Row type (.kind (.scalar (.signed 4))) .uint32
  | port {mof : MofType} : mof.kind = some (.scalar (.unsigned 2)) → Row type .port mof
  | object : Row type .undescribed .object
  | datetime : Row type .undescribed .datetime

/-- `Row`, as a test. -/
def checkRow (type : String) (meaning : Meaning) (mof : MofType) : Bool :=
  match meaning with
  | .kind K =>
    if type = "uint32" then K = .scalar (.unsigned 4) ∧ mof = .sint32
    else if type = "sint32" then K = .scalar (.signed 4) ∧ mof = .uint32
    else mof.kind = some K
  | .port => mof.kind = some (.scalar (.unsigned 2))
  | .undescribed => mof = .object ∨ mof = .datetime

variable {meaning : Meaning} {type : String} {mof : MofType}

theorem row_of_checkRow (checked : checkRow type meaning mof = true) : Row type meaning mof := by
  cases meaning with
  | kind K =>
    simp only [checkRow] at checked
    split at checked
    · rename_i uint32
      obtain ⟨rfl, rfl⟩ := of_decide_eq_true checked
      exact .uint32 uint32
    · rename_i other
      split at checked
      · rename_i sint32
        obtain ⟨rfl, rfl⟩ := of_decide_eq_true checked
        exact .sint32 sint32
      · rename_i other'
        exact .same (of_decide_eq_true checked) other other'
  | port => exact .port (of_decide_eq_true checked)
  | undescribed =>
    rcases of_decide_eq_true checked with rfl | rfl
    · exact .object
    · exact .datetime

/-- Every name of the table, with its meaning and its number. -/
theorem table_checked : denotations.all (fun row =>
    match ((etwFieldtypes.lookup row.1).bind MofType.ofEnum) with
    | none => false
    | some mof => checkRow row.1 row.2 mof) = true := by
  decide

theorem row_of_lookup (denoted : denotations.lookup type = some meaning) :
    ∃ mof, MofType.ofEnum ((etwFieldtypes.lookup type).getD 0) = some mof ∧
      Row type meaning mof := by
  have checked := List.all_eq_true.mp table_checked (type, meaning) (Lib.mem_of_lookup denoted)
  dsimp only at checked
  split at checked
  · cases checked
  · rename_i mof label
    obtain ⟨n, listed, labelled⟩ := Option.bind_eq_some_iff.mp label
    refine ⟨mof, ?_, row_of_checkRow checked⟩
    rw [listed]
    exact labelled

/-! ### Decoding -/

/-- At the cursor the loop goes on, and the switch on `typeenum` makes the object
of the next `size` bytes. -/
def Decodes (h : Host) (W : Conversions) (d : EventData) (pointerSize : Int) (cur : Cursor)
    (typeenum : Int) (obj : Obj) (size : Nat) : Prop :=
  0 < cur.remain ∧ ∃ mof, MofType.ofEnum typeenum = some mof ∧
    (switch h W d pointerSize cur mof).result.Takes cur obj size

variable {h : Host} {W : Conversions} {d : EventData} {cur : Cursor} {pointerSize : Nat}
  {bytes rest : List UInt8} {obj : Obj}

/-- A branch makes one object. -/
theorem takes_iff_eq {s : Switch} {obj' : Obj} {size : Nat} (takes : s.Takes cur obj' size) :
    s.Takes cur obj size ↔ obj' = obj := by
  constructor
  · rintro ⟨eaten, at_, equal, -⟩
    obtain ⟨eaten', at_', equal', -⟩ := takes
    cases equal.symm.trans equal'
    rfl
  · rintro rfl
    exact takes

/-- The signed and the unsigned value of four bytes are the same below `2^31`. -/
theorem signedOf_eq_iff (four : bytes.length = 4) :
    signedOf bytes = ofBytes bytes ↔ ofBytes bytes < 2147483648 := by
  have less := ofBytes_lt bytes
  rw [four] at less
  rw [signedOf, four]
  norm_num [Int.bmod] at less ⊢
  omega

/-- An unsigned number that is read as a signed one. -/
theorem uint32_takes_iff (encodes : (Scalar.unsigned 4).Encodes W obj bytes)
    (at_ : At d cur (bytes ++ rest)) :
    (switch h W d pointerSize cur .sint32).result.Takes cur obj bytes.length ↔
      ofBytes bytes < 2147483648 := by
  have four : bytes.length = 4 := encodes.length
  have makes : (switch h W d pointerSize cur .sint32).result.Takes cur (signed bytes)
      bytes.length := by
    rw [four]
    exact fixed_takes at_ four rfl
  rw [takes_iff_eq makes, ← signedOf_eq_iff four, ← encodes.read]
  exact ⟨Obj.int.inj, congrArg Obj.int⟩

/-- A signed number that is read as an unsigned one. -/
theorem sint32_takes_iff (encodes : (Scalar.signed 4).Encodes W obj bytes)
    (at_ : At d cur (bytes ++ rest)) :
    (switch h W d pointerSize cur .uint32).result.Takes cur obj bytes.length ↔
      ofBytes bytes < 2147483648 := by
  have four : bytes.length = 4 := encodes.length
  have makes : (switch h W d pointerSize cur .uint32).result.Takes cur (unsigned bytes)
      bytes.length := by
    rw [four]
    exact fixed_takes at_ four rfl
  rw [takes_iff_eq makes, ← signedOf_eq_iff four, ← encodes.read]
  exact ⟨fun same => (Obj.int.inj same).symm, fun same => congrArg Obj.int same.symm⟩

/-- A port is read as if its bytes were in the other order. -/
theorem port_takes_iff (label : mof.kind = some (.scalar (.unsigned 2)))
    (encodes : Meaning.port.Encodes W pointerSize obj bytes) (at_ : At d cur (bytes ++ rest)) :
    (switch h W d pointerSize cur mof).result.Takes cur obj bytes.length ↔
      ofBytes bytes = ofBytes bytes.reverse := by
  obtain ⟨n, small, rfl, rfl⟩ := encodes
  have two : (toBytes 2 n).reverse.length = 2 := by rw [List.length_reverse, length_toBytes]
  have less := ofBytes_lt (toBytes 2 n).reverse
  have bytes_eq := toBytes_ofBytes (toBytes 2 n).reverse
  rw [two] at less bytes_eq
  have makes : (switch h W d pointerSize cur mof).result.Takes cur
      (.int (ofBytes (toBytes 2 n).reverse)) (toBytes 2 n).reverse.length :=
    switch_scalar label ⟨_, less, rfl, bytes_eq.symm⟩ at_
  rw [takes_iff_eq makes, List.reverse_reverse, ofBytes_toBytes_of_lt small]
  constructor
  · intro same
    exact Int.ofNat.inj (Obj.int.inj same)
  · intro same
    exact congrArg (fun n : Nat => Obj.int n) same

/-- Where `Agrees` holds the field has bytes. -/
theorem agrees_ne_nil (width : 0 < pointerSize) (row : Row type meaning mof)
    (encodes : meaning.Encodes W pointerSize obj bytes)
    (agrees : Agrees pointerSize type bytes rest meaning) : bytes ≠ [] := by
  cases row with
  | same kind => exact fits_ne_nil width kind encodes agrees.1
  | uint32 =>
    have label : MofType.kind .uint32 = some (.scalar (.unsigned 4)) := rfl
    exact fits_ne_nil (W := W) width label encodes agrees.1
  | sint32 =>
    have label : MofType.kind .sint32 = some (.scalar (.signed 4)) := rfl
    exact fits_ne_nil (W := W) width label encodes agrees.1
  | port =>
    obtain ⟨n, -, -, rfl⟩ := encodes
    exact List.cons_ne_nil _ _
  | object | datetime => exact encodes

/-- The switch, by what the table leads to. -/
theorem row_takes_iff (width : pointerSize = 4 ∨ pointerSize = 8) (row : Row type meaning mof)
    (encodes : meaning.Encodes W pointerSize obj bytes) (at_ : At d cur (bytes ++ rest))
    (left : bytes ++ rest ≠ []) :
    (switch h W d pointerSize cur mof).result.Takes cur obj bytes.length ↔
      Agrees pointerSize type bytes rest meaning := by
  cases row with
  | same kind other other' =>
    rw [switch_takes_iff width kind encodes at_ left, Agrees]
    refine (and_iff_left ?_).symm
    rintro (uint32 | sint32)
    · exact absurd uint32 other
    · exact absurd sint32 other'
  | uint32 name =>
    rw [uint32_takes_iff encodes at_]
    exact ⟨fun less => ⟨trivial, fun _ => less⟩, fun agrees => agrees.2 (.inl name)⟩
  | sint32 name =>
    rw [sint32_takes_iff encodes at_]
    exact ⟨fun less => ⟨trivial, fun _ => less⟩, fun agrees => agrees.2 (.inr name)⟩
  | port label => exact port_takes_iff label encodes at_
  | object | datetime => exact iff_of_false not_takes_done id

/-- Whatever the qualifiers of a field are: when its type is one of the table,
the number that goes with it decodes the field as the value that the type says,
if and only if `Agrees`. -/
theorem decoded_as_denoted_iff (tolower : String → String) (q : Qualifiers) {meaning : Meaning}
    (denoted : denotations.lookup (decipherMofEventFieldType tolower q).type = some meaning)
    (width : pointerSize = 4 ∨ pointerSize = 8)
    (encodes : meaning.Encodes W pointerSize obj bytes) (at_ : At d cur (bytes ++ rest)) :
    Decodes h W d pointerSize cur (decipherMofEventFieldType tolower q).fieldtype obj
        bytes.length ↔
      Agrees pointerSize (decipherMofEventFieldType tolower q).type bytes rest meaning := by
  obtain ⟨mof, label, row⟩ := row_of_lookup denoted
  have total := at_.remain
  constructor
  · rintro ⟨more, mof', label', takes⟩
    cases label.symm.trans label'
    have left : bytes ++ rest ≠ [] := by
      intro none_
      rw [total, none_] at more
      exact absurd more (by decide)
    exact (row_takes_iff width row encodes at_ left).mp takes
  · intro agrees
    have some_ := agrees_ne_nil (by omega) row encodes agrees
    have left : bytes ++ rest ≠ [] := fun none_ => some_ (List.append_eq_nil_iff.mp none_).1
    have long := List.length_pos_iff.mpr left
    exact ⟨by omega, mof, label, (row_takes_iff width row encodes at_ left).mpr agrees⟩

/-! ### Two fields -/

/-- A property that is a `uint32`. -/
def uint32Property : Qualifiers := ⟨false, false, some "uint32", none, none, none, false⟩

theorem decoded_as_denoted_iff_seven :
    Decodes .x64 someConversions ⟨[7, 0, 0, 0], by decide, fun _ => 0⟩ (4 : Nat) ⟨(0 : Nat), 4⟩
      (decipherMofEventFieldType id uint32Property).fieldtype (.int 7) [7, 0, 0, 0].length := by
  have encodes : (Scalar.unsigned 4).Encodes someConversions (.int 7) [7, 0, 0, 0] :=
    ⟨7, by decide, rfl, rfl⟩
  have denoted : denotations.lookup (decipherMofEventFieldType id uint32Property).type =
      some (.kind (.scalar (.unsigned 4))) := by decide
  have at_ : At ⟨[7, 0, 0, 0], by decide, fun _ => 0⟩ ⟨(0 : Nat), 4⟩ ([7, 0, 0, 0] ++ []) :=
    ⟨0, rfl, rfl⟩
  refine (decoded_as_denoted_iff id uint32Property denoted (.inl rfl) encodes at_).mpr ?_
  exact ⟨trivial, fun _ => by decide⟩

/-- The greatest `uint32` is decoded as -1. -/
theorem uint32_decoded_as_signed :
    ¬ ∀ (tolower : String → String) (q : Qualifiers) (meaning : Meaning) (h : Host)
      (W : Conversions) (d : EventData) (cur : Cursor) (obj : Obj) (bytes rest : List UInt8),
      denotations.lookup (decipherMofEventFieldType tolower q).type = some meaning →
      meaning.Encodes W 4 obj bytes → At d cur (bytes ++ rest) → bytes ++ rest ≠ [] →
      Decodes h W d (4 : Nat) cur (decipherMofEventFieldType tolower q).fieldtype obj
        bytes.length := by
  intro claim
  have encodes : (Scalar.unsigned 4).Encodes someConversions (.int 4294967295)
      [255, 255, 255, 255] := ⟨4294967295, by decide, rfl, by decide⟩
  have at_ : At ⟨[255, 255, 255, 255], by decide, fun _ => 0⟩ ⟨(0 : Nat), 4⟩
      ([255, 255, 255, 255] ++ []) := ⟨0, rfl, rfl⟩
  obtain ⟨-, mof, label, takes⟩ := claim id uint32Property (.kind (.scalar (.unsigned 4))) .x64
    someConversions _ _ _ _ [] (by decide) encodes at_ (by simp)
  have sint32 : MofType.ofEnum (decipherMofEventFieldType id uint32Property).fieldtype =
      some .sint32 := by decide
  cases sint32.symm.trans label
  have less := (uint32_takes_iff encodes at_).mp takes
  exact absurd less (by decide)

end Twapi.Etw
