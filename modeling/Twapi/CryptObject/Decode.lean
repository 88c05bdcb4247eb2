import Twapi.CryptObject.Encode

/-!
Decoding to values, `crypto/crypto.c`: `TwapiCryptDecodeObject` and the functions that form
values from structures.

* `Api` is `CryptDecodeObjectEx`, too.
* `Struct.obj` — the value of a structure.
* `decodeObject` — of nested structures as well.
* `Inverse` — encoder and decoder undo each other.
-/

namespace Twapi.CryptObject

/-! ### Values of structures -/

/-- `ObjFromCRYPT_BIT_BLOB` -/
def BitBlob.obj (blob : BitBlob) : Obj :=
  if blob.data = [] then .list [.atom "", .ofDWORD 0]
  else .list [.ofBytes blob.data, .ofDWORD blob.unused]

/-- `ObjFromCERT_ALT_NAME_ENTRY` -/
def AltName.obj : AltName → Obj
  | .rfc822 name => .list [.ofDWORD 2, .atom name]
  | .dns name => .list [.ofDWORD 3, .atom name]
  | .url name => .list [.ofDWORD 7, .atom name]
  | .otherName oid value => .list [.ofDWORD 1, .list [.atom oid, .ofBytes value]]
  | .directory value => .list [.ofDWORD 5, .ofBytes value]
  | .ipAddress value => .list [.ofDWORD 8, .ofBytes value]
  | .registeredId oid => .list [.ofDWORD 9, .atom oid]
  | .unknown choice => .list [.ofDWORD choice]

/-- `ObjFromCRYPT_ALGORITHM_IDENTIFIER` -/
def AlgorithmId.obj (alg : AlgorithmId) : Obj :=
  .list [.atom (alg.oid.getD ""), .ofBytes alg.parameters]

/-- The value of a structure, where `sub` is the value of what is encoded within. -/
def Struct.obj (sub : String → Bytes → Obj) : Struct → Obj
  | .bits string => string.obj
  | .usages oids => .list (oids.map .atom)
  | .names entries => .list (entries.map AltName.obj)
  | .basicConstraints ca constrained pathLen =>
    .list [.ofBool ca, .ofBool constrained, .ofDWORD pathLen]
  | .authorityKeyId keyId issuer serial =>
    .list [.ofBytes keyId, .list (issuer.map AltName.obj), .ofBytes serial]
  | .algorithm alg => alg.obj
  | .extensions exts =>
    .list (exts.map fun ext => .list [.atom ext.oid, .ofBool ext.critical, sub ext.oid ext.value])
  | .nameValue type value => .list [.ofDWORD type, .atom value]
  | .publicKey alg key => .list [alg.obj, key.obj]
  | .keyBlob key =>
    .list [.ofDWORD (Lib.ofBytes (key.take 1)), .ofDWORD (Lib.ofBytes ((key.drop 1).take 1)),
      .ofDWORD (Lib.ofBytes ((key.drop 2).take 2)), .ofDWORD (Lib.ofBytes ((key.drop 4).take 4)),
      .ofBytes key]
  | .blob data => .ofBytes data
  | .request version subject alg key attributes =>
    .list [.ofDWORD version, .ofBytes subject, .list [alg.obj, key.obj],
      .list (attributes.map fun attr =>
        .list [.atom attr.oid, .list (attr.values.map (sub attr.oid))])]

/-! ### Decoding -/

/-- What is encoded within a structure. -/
def Struct.values : Struct → List Bytes
  | .extensions exts => exts.map Extension.value
  | .request _ _ _ _ attributes => attributes.flatMap Attribute.values
  | _ => []

/-- `other` is for the types of identifiers that are not interpreted here. -/
structure Api extends Encoder where
  decode : OidArg → Bytes → Except Nat Struct
  other : OidArg → Bytes → Except Nat Obj
  inner : ∀ arg enc u, decode arg enc = .ok u → ∀ value ∈ u.values, value.length < enc.length

/-- Requests, and all types of values but key blobs. -/
def OidArg.interpreted (arg : OidArg) : Bool :=
  arg = .number 4 || match arg.kind with
    | none => false
    | some kind => kind ≠ .publicKeyBlob

section Decoding

variable (api : Api) (T : Tcl)

/-- `TwapiCryptDecodeObject`; where an extension or an attribute cannot be decoded, its
value is what is encoded. -/
def decodeObject (oid : String) (enc : Bytes) : Except Nat Obj :=
  if (oidArg T oid).interpreted then
    match api.decode (oidArg T oid) enc with
    | .error code => .error code
    | .ok u =>
      .ok (u.obj fun oid value =>
        if value.length < enc.length then
          match decodeObject oid value with
          | .ok o => o
          | .error _ => .ofBytes value
        else .ofBytes value)
  else api.other (oidArg T oid) enc
termination_by enc.length

def decodeValue (oid : String) (value : Bytes) : Obj :=
  match decodeObject api T oid value with
  | .ok o => o
  | .error _ => .ofBytes value

/-- Only what is encoded within matters. -/
theorem Struct.obj_congr {sub other : String → Bytes → Obj} {u : Struct}
    (same : ∀ oid, ∀ value ∈ u.values, sub oid value = other oid value) : u.obj sub = u.obj other := by
  cases u with
  | extensions exts =>
    unfold Struct.obj
    refine congrArg Obj.list (List.map_congr_left fun ext among => ?_)
    rw [same ext.oid ext.value (List.mem_map_of_mem among)]
  | request version subject alg key attributes =>
    unfold Struct.obj
    refine congrArg (fun as => Obj.list [.ofDWORD version, .ofBytes subject,
      .list [alg.obj, key.obj], .list as]) (List.map_congr_left fun attr among => ?_)
    refine congrArg (fun vs => Obj.list [.atom attr.oid, .list vs])
      (List.map_congr_left fun value within => ?_)
    exact same attr.oid value (List.mem_flatMap.mpr ⟨attr, among, within⟩)
  | _ => rfl

/-- What is encoded within is decoded as well. -/
theorem decodeObject_of_decode {oid : String} {enc : Bytes} {u : Struct}
    (interpreted : (oidArg T oid).interpreted) (decoded : api.decode (oidArg T oid) enc = .ok u) :
    decodeObject api T oid enc = .ok (u.obj (decodeValue api T)) := by
  rw [decodeObject, if_pos interpreted, decoded]
  refine congrArg Except.ok (Struct.obj_congr fun oid value among => ?_)
  rw [if_pos (api.inner _ _ _ decoded value among)]
  rfl

end Decoding

/-! ### Encoder and decoder -/

/-- The structure is one of the type that the identifier is for. -/
def Struct.IsFor (u : Struct) (arg : OidArg) : Prop :=
  match u with
  | .bits _ => arg.kind = some .keyUsage
  | .usages _ => arg.kind = some .enhancedKeyUsage
  | .names _ => arg.kind = some .alternateName
  | .basicConstraints .. => arg.kind = some .basicConstraints2
  | .authorityKeyId .. => arg.kind = some .authorityKeyId2
  | .algorithm _ => arg.kind = some .algorithmIdentifier
  | .extensions _ => arg.kind = some .extensions
  | .nameValue .. => arg.kind = some .unicodeAnyString
  | .publicKey .. => arg.kind = some .publicKeyInfo
  | .keyBlob _ => arg.kind = some .publicKeyBlob
  | .blob _ => arg.kind = some .subjectKeyIdentifier
  | .request .. => arg = .number 4

/-- Every structure is encoded, and decoded from what it was encoded to; nothing is
decoded from no bytes. -/
structure Inverse (api : Api) : Prop where
  inverse : ∀ arg u, u.IsFor arg → ∃ enc, api.encode arg u = .ok enc ∧ api.decode arg enc = .ok u
  nothing : ∀ arg, (∃ code, api.decode arg [] = .error code) ∧ ∃ code, api.other arg [] = .error code

end Twapi.CryptObject
