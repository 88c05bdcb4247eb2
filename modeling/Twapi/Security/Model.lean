import Twapi.CryptObject.Reading

/-!
Access control entries, access control lists and security descriptors as values, from
`base/tclobjs.c`.

* `Sid` is a SID in memory, `Acl` an ACL, `SecurityDescriptor` a descriptor. An ACE is the
  bytes at an address.
* `objFromACE`, `objFromACL` and `objFromSECURITY_DESCRIPTOR` make values of them.
* `objToACESWS`, `objToPACLSWS` and `objToPSECURITY_DESCRIPTORSWS` make them of values, in
  blocks whose contents are not set: `memory` is what is in one, and `Blocks` what is in
  the blocks for the elements of a list.
* `Windows` is what the system and the interpreter do with strings, and with ACLs.
-/

namespace Twapi.Security

open Lib
open CryptObject (DWORD Bytes Obj Fault cstr)

/-! ### Memory -/

/-- `width` bytes at an offset, as a number. -/
def field (bytes : Bytes) (offset width : Nat) : Nat := ofBytes ((bytes.drop offset).take width)

/-- What is in a block of memory before it is written. -/
abbrev Block := Nat → UInt8

abbrev Blocks := Nat → Block

/-- A block with something stored at its begin. -/
def Block.store (memory : Block) (size : Nat) (bytes : Bytes) : Bytes :=
  bytes ++ ((List.range size).map memory).drop bytes.length

/-! ### SIDs -/

def SID_MAX_SUB_AUTHORITIES : Nat := 15

/-- `GetSidLengthRequired` -/
def sidLengthRequired (subAuthorities : Nat) : Nat := 8 + 4 * subAuthorities

/-- A SID of the one revision there is. -/
@[ext] structure Sid where
  identifierAuthority : Bytes
  subAuthority : List DWORD
  length_identifierAuthority : identifierAuthority.length = 6
  length_subAuthority : subAuthority.length ≤ SID_MAX_SUB_AUTHORITIES
deriving DecidableEq

namespace Sid

/-- `GetLengthSid` -/
def length (sid : Sid) : Nat := sidLengthRequired sid.subAuthority.length

def bytes (sid : Sid) : Bytes :=
  1 :: UInt8.ofNat sid.subAuthority.length ::
    (sid.identifierAuthority ++ sid.subAuthority.flatMap fun n => toBytes 4 n.toNat)

end Sid

def dwords : Nat → Bytes → List DWORD
  | 0, _ => []
  | n + 1, bytes => BitVec.ofNat 32 (field bytes 0 4) :: dwords n (bytes.drop 4)

theorem length_dwords (n : Nat) (bytes : Bytes) : (dwords n bytes).length = n := by
  induction n generalizing bytes with
  | zero => rfl
  | succ n ih => exact congrArg (· + 1) (ih _)

/-- The SID at an address, if there is a valid one. -/
def Sid.read (bytes : Bytes) : Option Sid :=
  let count := field bytes 1 1
  if valid : field bytes 0 1 = 1 ∧ count ≤ SID_MAX_SUB_AUTHORITIES ∧
      sidLengthRequired count ≤ bytes.length then
    some
      { identifierAuthority := (bytes.drop 2).take 6
        subAuthority := dwords count (bytes.drop 8)
        length_identifierAuthority := by
          have long := valid.2.2
          rw [sidLengthRequired] at long
          rw [List.length_take, List.length_drop]
          omega
        length_subAuthority := (length_dwords ..).trans_le valid.2.1 }
  else none

/-! ### ACEs -/

/-- `ACCESS_ALLOWED_ACE_TYPE`, `ACCESS_DENIED_ACE_TYPE`, `SYSTEM_AUDIT_ACE_TYPE` and
`SYSTEM_MANDATORY_LABEL_ACE_TYPE`. -/
def plainTypes : List Nat := [0, 1, 2, 0x11]

/-- `ACCESS_ALLOWED_OBJECT_ACE_TYPE`, `ACCESS_DENIED_OBJECT_ACE_TYPE` and
`SYSTEM_AUDIT_OBJECT_ACE_TYPE`. -/
def objectTypes : List Nat := [5, 6, 7]

/-- The types for which `ObjToPACLSWS` changes the revision: also
`SYSTEM_ALARM_OBJECT_ACE_TYPE` and the callbacks. -/
def dsTypes : List Nat := [5, 6, 7, 8, 0x0b, 0x0c, 0x0f, 0x10]

section Ace

variable (ace : Bytes)

def aceType : Nat := field ace 0 1

def aceFlags : Nat := field ace 1 1

def aceSize : Nat := field ace 2 2

/-- `Mask`, of plain types and of types with GUIDs. -/
def aceMask : DWORD := BitVec.ofNat 32 (field ace 4 4)

/-- `ACE_OBJECT_TYPE_PRESENT` in `Flags` -/
def objectTypePresent : Bool := (field ace 8 4).testBit 0

/-- `ACE_INHERITED_OBJECT_TYPE_PRESENT` in `Flags` -/
def inheritedObjectTypePresent : Bool := (field ace 8 4).testBit 1

/-- The offsets of `SidStart`, `ObjectType` and `InheritedObjectType`. -/
def plainSidStart : Nat := 8
def objectType : Nat := 12
def inheritedObjectType : Nat := 28
def objectSidStart : Nat := 44

/-- Where the SID is, of a type with GUIDs: the fields that are not there are left out. -/
def objectSid : Nat :=
  if objectTypePresent ace then
    if inheritedObjectTypePresent ace then objectSidStart else inheritedObjectType
  else if inheritedObjectTypePresent ace then inheritedObjectType
  else objectType

end Ace

/-! ### ACLs and descriptors -/

/-- `aces` are the ACEs, each of its `AceSize` bytes, and `size` is `AclSize`. -/
structure Acl where
  revision : Nat
  size : Nat
  aces : List Bytes
deriving DecidableEq

def sizeofACL : Nat := 8

/-- `AclBytesInUse` -/
def Acl.used (acl : Acl) : Nat := sizeofACL + (acl.aces.map List.length).sum

/-- An ACE whose header and SID are right. -/
structure IsAce (ace : Bytes) : Prop where
  header : 4 ≤ ace.length
  size : aceSize ace = ace.length
  plain : aceType ace ∈ plainTypes → (Sid.read (ace.drop plainSidStart)).isSome
  object : aceType ace ∈ objectTypes → (Sid.read (ace.drop (objectSid ace))).isSome

structure Ace where
  bytes : Bytes
  isAce : IsAce bytes

def ACL_REVISION : Nat := 2
def ACL_REVISION_DS : Nat := 4

/-- An ACL of plain ACEs at offsets that are multiples of 4. -/
structure Acl.IsPlain (acl : Acl) : Prop where
  revision : acl.revision = ACL_REVISION
  used : acl.used ≤ acl.size
  size : acl.size ≤ 0xffff
  aces : ∀ ace ∈ acl.aces, IsAce ace ∧ aceType ace ∈ plainTypes ∧ ace.length % 4 = 0

abbrev Control := BitVec 16

def SE_OWNER_DEFAULTED : Control := 0x0001
def SE_GROUP_DEFAULTED : Control := 0x0002
def SE_DACL_PRESENT : Control := 0x0004
def SE_DACL_DEFAULTED : Control := 0x0008
def SE_SACL_PRESENT : Control := 0x0010
def SE_SACL_DEFAULTED : Control := 0x0020
def SE_DACL_AUTO_INHERIT_REQ : Control := 0x0100
def SE_SACL_AUTO_INHERIT_REQ : Control := 0x0200
def SE_DACL_AUTO_INHERITED : Control := 0x0400
def SE_SACL_AUTO_INHERITED : Control := 0x0800
def SE_DACL_PROTECTED : Control := 0x1000
def SE_SACL_PROTECTED : Control := 0x2000

def SECURITY_DESCRIPTOR_REVISION : Nat := 1

/-- `none` is a null pointer. -/
structure SecurityDescriptor where
  revision : Nat
  control : Control
  owner : Option Sid
  group : Option Sid
  dacl : Option Acl
  sacl : Option Acl
deriving DecidableEq

/-! ### The system -/

/-- `unprepared` is what `AddAce` and `IsValidAcl` do with memory that `InitializeAcl` did not
initialize, for an ACL of a size and a revision that is to have the ACEs. -/
structure Windows extends CryptObject.Tcl where
  asInt : String → Option Int
  convertSidToStringSid : Sid → String
  convertStringSidToSid : String → Except Nat Sid
  stringFromGUID : Bytes → String
  isValidAcl : Acl → Bool
  unprepared : Nat → Nat → List Bytes → Except Fault Acl
  asInt_toString : ∀ n : Nat, n < 0x10000 → asInt (toString n) = some (n : Int)
  convertStringSidToSid_convert : ∀ sid,
    convertStringSidToSid (cstr (convertSidToStringSid sid)) = .ok sid
  convertStringSidToSid_empty : ∃ code, convertStringSidToSid "" = .error code
  isValidAcl_of_isPlain : ∀ acl : Acl, acl.IsPlain → isValidAcl acl = true

/-- `ERROR_INVALID_SID` -/
def ERROR_INVALID_SID : Nat := 1337
def ERROR_INSUFFICIENT_BUFFER : Nat := 122
def ERROR_ALLOTTED_SPACE_EXCEEDED : Nat := 1344

/-- `CopySid` to so many bytes. -/
def copySid (length : Nat) (sid : Sid) : Except Fault Bytes :=
  if sid.length ≤ length then .ok sid.bytes else .error (.system ERROR_INSUFFICIENT_BUFFER)

def addAce (acl : Acl) (ace : Bytes) : Except Fault Acl :=
  if acl.used + ace.length ≤ acl.size then .ok { acl with aces := acl.aces ++ [ace] }
  else .error (.system ERROR_ALLOTTED_SPACE_EXCEEDED)

/-- A flag as it is to be. -/
def Control.put (control flag : Control) (on : Bool) : Control :=
  if on then control ||| flag else control &&& ~~~flag

def Control.has (control flag : Control) : Bool := control &&& flag ≠ 0

namespace SecurityDescriptor

/-- `InitializeSecurityDescriptor` -/
def initial : SecurityDescriptor := ⟨SECURITY_DESCRIPTOR_REVISION, 0, none, none, none, none⟩

/-- `SetSecurityDescriptorControl` -/
def setControl (secd : SecurityDescriptor) (mask control : Control) : SecurityDescriptor :=
  { secd with control := secd.control &&& ~~~mask ||| control }

/-- `SetSecurityDescriptorOwner`, if there is one to set. The flag is that of `control`; so
it is below. -/
def setOwner (secd : SecurityDescriptor) (control : Control) (sid : Option Sid) :
    SecurityDescriptor :=
  match sid with
  | none => secd
  | some sid =>
    { secd with
      owner := some sid
      control := secd.control.put SE_OWNER_DEFAULTED (control.has SE_OWNER_DEFAULTED) }

def setGroup (secd : SecurityDescriptor) (control : Control) (sid : Option Sid) :
    SecurityDescriptor :=
  match sid with
  | none => secd
  | some sid =>
    { secd with
      group := some sid
      control := secd.control.put SE_GROUP_DEFAULTED (control.has SE_GROUP_DEFAULTED) }

/-- `SetSecurityDescriptorDacl` of a DACL that is present, and may be null. -/
def setDacl (secd : SecurityDescriptor) (control : Control) (acl : Option (Option Acl)) :
    SecurityDescriptor :=
  match acl with
  | none => secd
  | some acl =>
    { secd with
      dacl := acl
      control := (secd.control ||| SE_DACL_PRESENT).put SE_DACL_DEFAULTED
        (control.has SE_DACL_DEFAULTED) }

def setSacl (secd : SecurityDescriptor) (control : Control) (acl : Option (Option Acl)) :
    SecurityDescriptor :=
  match acl with
  | none => secd
  | some acl =>
    { secd with
      sacl := acl
      control := (secd.control ||| SE_SACL_PRESENT).put SE_SACL_DEFAULTED
        (control.has SE_SACL_DEFAULTED) }

end SecurityDescriptor

/-! ### Values of structures -/

def objFromInt (n : Nat) : Obj := .atom (toString n)

section Convert

variable (W : Windows)

def objFromSID (sidP : Bytes) : Except Fault Obj :=
  match Sid.read sidP with
  | none => .error (.system ERROR_INVALID_SID)
  | some sid => .ok (.atom (W.convertSidToStringSid sid))

/-- `ObjFromGUID` of a GUID at an offset, or the empty string. -/
def objFromGUID (ace : Bytes) (offset : Option Nat) : Obj :=
  match offset with
  | none => .atom ""
  | some offset => .atom (W.stringFromGUID ((ace.drop offset).take 16))

/-- The offsets of the GUIDs. -/
def objectGuids (ace : Bytes) : Option Nat × Option Nat :=
  if objectTypePresent ace then
    if inheritedObjectTypePresent ace then (some objectType, some inheritedObjectType)
    else (some objectType, none)
  else if inheritedObjectTypePresent ace then (none, some objectType)
  else (none, none)

def objFromACE (aceP : Option Bytes) : Except Fault Obj :=
  match aceP with
  | none => .error (.message "NULL ACE pointer")
  | some ace =>
    let type := objFromInt (aceType ace)
    let flags := objFromInt (aceFlags ace)
    if aceType ace ∈ plainTypes then do
      let sid ← objFromSID W (ace.drop plainSidStart)
      pure (.list [type, flags, Obj.ofDWORD (aceMask ace), sid])
    else if aceType ace ∈ objectTypes then do
      let sid ← objFromSID W (ace.drop (objectSid ace))
      pure (.list [type, flags, Obj.ofDWORD (aceMask ace), objFromGUID W ace (objectGuids ace).1,
        objFromGUID W ace (objectGuids ace).2, sid])
    else .ok (.list [type, flags, Obj.ofBytes (ace.take (aceSize ace))])

def objFromACL (aclP : Option Acl) : Except Fault Obj :=
  match aclP with
  | none => .ok (.atom "null")
  | some acl => do
      let aces ← acl.aces.mapM fun ace => objFromACE W (some ace)
      pure (.list [objFromInt acl.revision, .list aces])

/-- A SID that may be null. -/
def objFromSIDOrNull (sidP : Option Sid) : Obj :=
  match sidP with
  | none => .atom ""
  | some sid => .atom (W.convertSidToStringSid sid)

/-- The pointer that counts: null where the flag is not set. -/
def presentAcl (control flag : Control) (aclP : Option Acl) : Option Acl :=
  if control.has flag then aclP else none

/-- An ACL that is not converted leaves a null pointer in the list, which is an error here. -/
def objFromSECURITY_DESCRIPTOR (secdP : Option SecurityDescriptor) : Except Fault Obj :=
  match secdP with
  | none => .ok (.list [])
  | some secd =>
    if secd.revision ≠ SECURITY_DESCRIPTOR_REVISION then
      .error (.message "Unsupported SECURITY_DESCRIPTOR version")
    else do
      let dacl ← objFromACL W (presentAcl secd.control SE_DACL_PRESENT secd.dacl)
      let sacl ← objFromACL W (presentAcl secd.control SE_SACL_PRESENT secd.sacl)
      pure (.list [objFromInt secd.control.toNat, objFromSIDOrNull W secd.owner,
        objFromSIDOrNull W secd.group, dacl, sacl])

/-! ### Structures of values -/

def objGetElements (obj : Obj) : Except Fault (List Obj) :=
  match obj.elements with
  | none => .error (.badValue obj.text)
  | some objv => .ok objv

def objToInt (obj : Obj) : Except Fault Int :=
  match W.asInt obj.text with
  | none => .error (.badValue obj.text)
  | some n => .ok n

def twapiSidFromStringSWS (obj : Obj) : Except Fault Sid :=
  match W.convertStringSidToSid (cstr obj.text) with
  | .error code => .error (.system code)
  | .ok sid => .ok sid

def invalidAce : Fault := .message "Invalid ACE format."

def invalidAcl : Fault := .message "Invalid ACL format."

/-- The size that every ACE of a plain type is given. -/
def plainAceSize : Nat := sidLengthRequired SID_MAX_SUB_AUTHORITIES + 12

/-- `mask` and `sid` are the elements behind the flags. -/
def plainACESWS (memory : Block) (acetype aceflags : Int) (mask sid : Obj) :
    Except Fault Bytes :=
  match W.asDWORD mask.text with
  | none => .error invalidAce
  | some mask => do
      let sid ← twapiSidFromStringSWS W sid
      let sid ← copySid (plainAceSize - 12 + 4) sid
      pure (memory.store plainAceSize
        ([UInt8.ofInt acetype, UInt8.ofInt aceflags] ++ toBytes 2 plainAceSize ++
          toBytes 4 mask.toNat ++ sid))

def objToACESWS (memory : Block) (aceobj : Obj) : Except Fault Bytes := do
  match ← objGetElements aceobj with
  | type :: flags :: objv => do
      let acetype ← objToInt W type
      let aceflags ← objToInt W flags
      if ∃ plain ∈ plainTypes, acetype = (plain : Int) then
        match objv with
        | [mask, sid] => plainACESWS W memory acetype aceflags mask sid
        | _ => .error invalidAce
      else
        match objv with
        | [bytes] =>
          pure (memory.store (sidLengthRequired SID_MAX_SUB_AUTHORITIES + bytes.toBytes.length)
            bytes.toBytes)
        | _ => .error invalidAce
  | _ => .error invalidAce

/-- The blocks for the ACEs of a list. -/
def blocksOf (memory : Blocks) : List Obj → Except Fault (List Bytes)
  | [] => .ok []
  | aceobj :: aceobjv => do
      let block ← objToACESWS W (memory 0) aceobj
      let blocks ← blocksOf (fun i => memory (i + 1)) aceobjv
      pure (block :: blocks)

def addAces (acl : Acl) : List Bytes → Except Fault Acl
  | [] => .ok acl
  | ace :: aces => do addAces (← addAce acl ace) aces

/-- `InitializeAcl`, whose result is not looked at, and the ACEs that are added. -/
def fillAcl (aclsz aclrev : Nat) (aces : List Bytes) : Except Fault Acl :=
  if aclsz ≤ 0xffff then addAces ⟨aclrev, aclsz, []⟩ aces else W.unprepared aclsz aclrev aces

def aclRevision (blocks : List Bytes) : Nat :=
  if ∃ block ∈ blocks, aceType block ∈ dsTypes then ACL_REVISION_DS else ACL_REVISION

def objToPACLSWS (memory : Blocks) (aclObj : Obj) : Except Fault (Option Acl) :=
  if cstr aclObj.text = "null" then .ok none
  else do
    match ← objGetElements aclObj with
    | [_, aces] => do
        let blocks ← blocksOf W memory (← objGetElements aces)
        let acl ← fillAcl W (sizeofACL + (blocks.map aceSize).sum) (aclRevision blocks)
          (blocks.map fun block => block.take (aceSize block))
        if W.isValidAcl acl then pure (some acl)
        else .error (.message "Internal error constructing ACL")
    | _ => .error invalidAcl

/-- The ACL to set, if the flags mark it as being present. "null" is none to set, but is
one that is null where the ACL is by default. -/
def aclToSet (memory : Blocks) (control present defaulted : Control) (obj : Obj) :
    Except Fault (Option (Option Acl)) :=
  if control.has present then do
    let aclP ← objToPACLSWS W memory obj
    pure (if aclP.isSome || control.has defaulted then some aclP else none)
  else .ok none

/-- The bits that `SetSecurityDescriptorControl` is to set. -/
def secd_control_mask : Control :=
  SE_DACL_AUTO_INHERIT_REQ ||| SE_DACL_AUTO_INHERITED ||| SE_DACL_PROTECTED |||
    SE_SACL_AUTO_INHERIT_REQ ||| SE_SACL_AUTO_INHERITED ||| SE_SACL_PROTECTED

/-- The SID of a string, or null where that is empty. -/
def sidOfObj (obj : Obj) : Except Fault (Option Sid) :=
  if obj.text = "" then .ok none
  else do
    let sid ← twapiSidFromStringSWS W obj
    pure (some sid)

def objToPSECURITY_DESCRIPTORSWS (dacls sacls : Blocks) (secdObj : Obj) :
    Except Fault (Option SecurityDescriptor) := do
  match ← objGetElements secdObj with
  | [] => pure none
  | [control, owner, group, dacl, sacl] => do
      let temp ← objToInt W control
      let secd_control := BitVec.ofInt 16 temp
      if (secd_control.toNat : Int) ≠ temp then
        .error (.message "Invalid control flags for SECURITY_DESCRIPTOR")
      else do
        let secd := SecurityDescriptor.initial.setControl secd_control_mask
          (secd_control_mask &&& secd_control)
        let owner_sidP ← sidOfObj W owner
        let group_sidP ← sidOfObj W group
        let daclP ← aclToSet W dacls secd_control SE_DACL_PRESENT SE_DACL_DEFAULTED dacl
        let saclP ← aclToSet W sacls secd_control SE_SACL_PRESENT SE_SACL_DEFAULTED sacl
        pure (some ((((secd.setOwner secd_control owner_sidP).setGroup secd_control
          group_sidP).setDacl secd_control daclP).setSacl secd_control saclP))
  | _ => .error (.message "Invalid SECURITY_DESCRIPTOR format.")

end Convert

end Twapi.Security
