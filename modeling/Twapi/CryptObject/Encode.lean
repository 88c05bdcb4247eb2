import Twapi.CryptObject.Value
import Twapi.Lib.Lists
import Twapi.Lib.Traced

/-!
Encoding of values, `crypto/crypto.c`: `TwapiCryptEncodeObject`, `ParseCERT_EXTENSIONS` and
`ParseCRYPT_ATTRIBUTE`.

* `Encoder` is `CryptEncodeObjectEx`, and the buffers it is given. Events are its calls.
* `Junk` is what memory holds that was not set.
* `encodeExactly` — the encoder that checks every result, sets every field and repeats a
  call with the structure of the first.
* `encodes_exactly_iff` says which values `encodeObject` encodes as `encodeExactly` does,
  whatever the memory holds.
-/

namespace Twapi.CryptObject

open Lib (Traced Depart)
open Lib.Traced

def errorMoreData : Nat := 234

/-- `alloc` is the size of what `MemLifoAlloc` allocates. -/
structure Encoder where
  encode : OidArg → Struct → Except Nat Bytes
  alloc : Nat → Nat
  le_alloc : ∀ n, n ≤ alloc n

/-- The number of unused bits, the extensions and the bytes of the union, where they
are not set. -/
structure Junk where
  unused : DWORD
  exts : List Extension
  union : Bytes

/-- A call with the structure that was passed, and the structure that was passed again
where the buffer was too small. -/
structure Call where
  oid : OidArg
  passed : Struct
  again : Option Struct
deriving DecidableEq

/-- One turn of a loop and those that follow it; an error ends the loop. -/
def andThen {α : Type} (x : Traced Call (Except Fault α)) (xs : Traced Call (Except Fault (List α))) :
    Traced Call (Except Fault (List α)) := do
  match ← x with
  | .error fault => pure (.error fault)
  | .ok a => do
      let as ← xs
      pure (as.map (a :: ·))

section Encoding

variable (api : Encoder) (T : Tcl)

/-- The calls of `CryptEncodeObjectEx`; `retry` is passed to the second. -/
def submit (arg : OidArg) (passed retry : Struct) : Traced Call (Except Fault Bytes) :=
  match api.encode arg passed with
  | .error code => do
      tell ⟨arg, passed, none⟩
      pure (.error (.system code))
  | .ok enc =>
    if enc.length ≤ api.alloc 1000 then do
      tell ⟨arg, passed, none⟩
      pure (.ok enc)
    else do
      tell ⟨arg, passed, some retry⟩
      match api.encode arg retry with
      | .error code => pure (.error (.system code))
      | .ok enc' =>
        if enc'.length ≤ api.alloc enc.length then pure (.ok enc')
        else pure (.error (.system errorMoreData))

def badExtension : Fault := .message "Certificate extension format invalid or not implemented"

def unsupportedOid : Fault := .message "Unsupported OID."

/-! ### `TwapiCryptEncodeObject` -/

section

variable (junk : String → Obj → Junk)

mutual

/-- The result of parsing extensions is not checked. For a key blob the structure is the
blob itself, while the second call is passed the union, which was not set. -/
def encodeObject (oid : String) (o : Obj) : Traced Call (Except Fault Bytes) :=
  match (oidArg T oid).kind with
  | none => pure (.error unsupportedOid)
  | some .extensions => do
      let exts ←
        match o with
        | .atom s => pure (if s = "" then .ok [] else .error (.badValue s))
        | .list exts => parseExtensions exts
      let u := .extensions (exts.toOption.getD (junk oid o).exts)
      submit api (oidArg T oid) u u
  | some kind =>
    match kind.parse T (junk oid o).unused o with
    | .error fault => pure (.error fault)
    | .ok u =>
      submit api (oidArg T oid) u
        (if kind = .publicKeyBlob then .keyBlob (junk oid o).union else u)
termination_by structural o

/-- `ParseCERT_EXTENSIONS` of a list. -/
def parseExtensions (os : List Obj) : Traced Call (Except Fault (List Extension)) :=
  match os with
  | [] => pure (.ok [])
  | o :: os => andThen (parseExtension o) (parseExtensions os)
termination_by structural os

def parseExtension (o : Obj) : Traced Call (Except Fault Extension) :=
  match o with
  | .list [oid, critical, value] =>
    match T.asBoolean critical.text with
    | none => pure (.error (.badValue critical.text))
    | some critical => do
        let enc ← encodeObject oid.text value
        pure (enc.map fun enc => ⟨oid.text, critical, enc⟩)
  | .list [oid, critical] =>
    match T.asBoolean critical.text with
    | none => pure (.error (.badValue critical.text))
    | some critical => pure (.ok ⟨oid.text, critical, []⟩)
  | .list _ => pure (.error badExtension)
  | .atom s => if s = "" then pure (.error badExtension) else pure (.error (.badValue s))
termination_by structural o

end

end

/-! ### Attributes -/

/-- A loop over values that ends at the first error. -/
def forEach {α : Type} (f : Obj → Traced Call (Except Fault α)) :
    List Obj → Traced Call (Except Fault (List α))
  | [] => pure (.ok [])
  | o :: os => andThen (f o) (forEach f os)

def badAttribute : Fault := .message "Invalid CRYPT_ATTRIBUTE structure"

/-- `ParseCRYPT_ATTRIBUTE`, where `encode` is `TwapiCryptEncodeObject`. -/
def parseAttribute (encode : String → Obj → Traced Call (Except Fault Bytes)) (o : Obj) :
    Traced Call (Except Fault Attribute) :=
  match o.elements with
  | some [oid, values] =>
    match values.elements with
    | none => pure (.error badAttribute)
    | some values => do
        match ← forEach (encode oid.text) values with
        | .error _ => pure (.error badAttribute)
        | .ok values => pure (.ok ⟨oid.text, values⟩)
  | _ => pure (.error badAttribute)

/-- `ParseCRYPT_ATTRIBUTE_Array` -/
def parseAttributes (encode : String → Obj → Traced Call (Except Fault Bytes)) (o : Obj) :
    Traced Call (Except Fault (List Attribute)) :=
  match o.elements with
  | none => pure (.error (.badValue o.text))
  | some attributes => forEach (parseAttribute encode) attributes

/-! ### What is to be encoded -/

mutual

/-- The encoding of exactly the structure that is parsed from the value. -/
def encodeExactly (oid : String) (o : Obj) : Traced Call (Except Fault Bytes) :=
  match (oidArg T oid).kind with
  | none => pure (.error unsupportedOid)
  | some .extensions => do
      match ←
        match o with
        | .atom s => pure (if s = "" then .ok [] else .error (.badValue s))
        | .list exts => exactExtensions exts
      with
      | .error fault => pure (.error fault)
      | .ok exts => submit api (oidArg T oid) (.extensions exts) (.extensions exts)
  | some kind =>
    match kind.parse T 0 o with
    | .error fault => pure (.error fault)
    | .ok u => submit api (oidArg T oid) u u
termination_by structural o

def exactExtensions (os : List Obj) : Traced Call (Except Fault (List Extension)) :=
  match os with
  | [] => pure (.ok [])
  | o :: os => andThen (exactExtension o) (exactExtensions os)
termination_by structural os

def exactExtension (o : Obj) : Traced Call (Except Fault Extension) :=
  match o with
  | .list [oid, critical, value] =>
    match T.asBoolean critical.text with
    | none => pure (.error (.badValue critical.text))
    | some critical => do
        let enc ← encodeExactly oid.text value
        pure (enc.map fun enc => ⟨oid.text, critical, enc⟩)
  | .list [oid, critical] =>
    match T.asBoolean critical.text with
    | none => pure (.error (.badValue critical.text))
    | some critical => pure (.ok ⟨oid.text, critical, []⟩)
  | .list _ => pure (.error badExtension)
  | .atom s => if s = "" then pure (.error badExtension) else pure (.error (.badValue s))
termination_by structural o

end

/-- The value holds an empty bit string, whose number of unused bits is not set. -/
def Kind.LeavesUnset (kind : Kind) (o : Obj) : Prop :=
  match kind, o.elements with
  | .keyUsage, some [] => True
  | .publicKeyInfo, some [alg, key] => (∃ a, parseAlgorithmId alg = .ok a) ∧ key.elements = some []
  | _, _ => False

mutual

/-- Key usages and public keys have bits, key blobs fit into the first buffer, and
extensions can be encoded. -/
def Sound (oid : String) (o : Obj) : Prop :=
  match (oidArg T oid).kind with
  | none => True
  | some .extensions =>
    match o with
    | .atom s => s = ""
    | .list exts => SoundExtensions exts
  | some .publicKeyBlob =>
    ∀ blob enc, parseKeyBlob o = .ok blob → api.encode (oidArg T oid) (.keyBlob blob) = .ok enc →
      enc.length ≤ api.alloc 1000
  | some kind => ¬ kind.LeavesUnset o
termination_by structural o

def SoundExtensions (os : List Obj) : Prop :=
  match os with
  | [] => True
  | o :: os => SoundExtension o ∧ SoundExtensions os
termination_by structural os

def SoundExtension (o : Obj) : Prop :=
  match o with
  | .list [oid, critical, value] =>
    (T.asBoolean critical.text).isSome ∧ Sound oid.text value ∧
      ∃ enc, (encodeExactly api T oid.text value).result = .ok enc
  | .list [_, critical] => (T.asBoolean critical.text).isSome
  | .list _ => False
  | .atom _ => False
termination_by structural o

end

/-- What a loop over values comes to. -/
def SoundUntil {α : Type} (exact : Obj → Traced Call (Except Fault α)) (sound : Obj → Prop) :
    List Obj → Prop
  | [] => True
  | o :: os =>
    sound o ∧ ((∃ a, (exact o).result = .ok a) → SoundUntil exact sound os)

def SoundAttribute (o : Obj) : Prop :=
  match o.elements with
  | some [oid, values] =>
    match values.elements with
    | none => True
    | some values => SoundUntil (encodeExactly api T oid.text) (Sound api T oid.text) values
  | _ => True

/-- Every value that the loops over attributes and their values come to is sound. -/
def SoundAttributes (o : Obj) : Prop :=
  match o.elements with
  | none => True
  | some attributes =>
    SoundUntil (parseAttribute (encodeExactly api T)) (SoundAttribute api T) attributes

end Encoding

end Twapi.CryptObject
