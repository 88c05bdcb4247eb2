import Mathlib.Data.BitVec
import Twapi.Base.ListFormat
import Twapi.Lib.Bytes

/-!
The values and the C structures of `crypto/crypto.c`, and the functions that parse the
one into the other.

* `Obj` — a value, as the commands look into it.
* `Struct` — what `CryptEncodeObjectEx` encodes and `CryptDecodeObjectEx` decodes to.
* `Kind` — which of these an object identifier is for.
* `Kind.parse` — the parsers, of all kinds but extensions.
-/

namespace Twapi.CryptObject

abbrev DWORD := BitVec 32

abbrev Bytes := List UInt8

/-! ### Values -/

/-- A value that is used as a list, or one that is not. A value that is used as one
and is none is an `atom`, too. -/
inductive Obj where
  | atom (s : String)
  | list (xs : List Obj)

instance : Inhabited Obj := ⟨.atom ""⟩

namespace Obj

mutual

def text : Obj → String
  | .atom s => s
  | .list xs => String.ofList (Base.formatList (texts xs))

def texts : List Obj → List (List Char)
  | [] => []
  | x :: xs => (text x).toList :: texts xs

end

/-- `ObjGetElements` -/
def elements : Obj → Option (List Obj)
  | .atom s => if s = "" then some [] else none
  | .list xs => some xs

end Obj

/-- A byte of a string that is taken for bytes. -/
def byteOf (c : Char) : UInt8 := UInt8.ofNat c.toNat

def charOf (b : UInt8) : Char := Char.ofNat b.toNat

/-- `ObjToByteArray` -/
def Obj.toBytes (o : Obj) : Bytes := o.text.toList.map byteOf

/-- `ObjFromByteArray` -/
def Obj.ofBytes (bytes : Bytes) : Obj := .atom (String.ofList (bytes.map charOf))

def Obj.ofDWORD (n : DWORD) : Obj := .atom (toString n.toNat)

/-- `ObjFromBoolean` -/
def Obj.ofBool (b : Bool) : Obj := .atom (if b then "1" else "0")

/-- The numbers and the booleans that strings stand for. -/
structure Tcl where
  asDWORD : String → Option DWORD
  asBoolean : String → Option Bool
  asDWORD_ofDWORD : ∀ n : DWORD, asDWORD (Obj.ofDWORD n).text = some n
  asBoolean_ofBool : ∀ b, asBoolean (Obj.ofBool b).text = some b

/-- Numbers in decimal, and 1 and 0 for booleans. -/
def decimal : Tcl where
  asDWORD s :=
    if s.toList.all Char.isDigit && !s.toList.isEmpty then
      some (BitVec.ofNat 32 (Nat.ofDigitChars 10 s.toList 0))
    else none
  asBoolean s := if s = "1" then some true else if s = "0" then some false else none
  asDWORD_ofDWORD n := by
    have digits : (Obj.ofDWORD n).text.toList = Nat.toDigits 10 n.toNat := by
      simp [Obj.ofDWORD, Obj.text]
    have all : (Nat.toDigits 10 n.toNat).all Char.isDigit = true :=
      List.all_eq_true.mpr fun _ => Nat.isDigit_of_mem_toDigits (by decide) (by decide)
    rw [digits, all]
    simp
  asBoolean_ofBool b := by cases b <;> rfl

/-- A string of wide characters, up to its end. -/
def cstr (s : String) : String := String.ofList (s.toList.takeWhile (· ≠ '\x00'))

/-! ### Structures -/

structure BitBlob where
  data : Bytes
  unused : DWORD
deriving DecidableEq

/-- The names whose member is a wide string, a blob, an identifier or a pair of these;
of others only the choice is known. -/
inductive AltName where
  | rfc822 (name : String)
  | dns (name : String)
  | url (name : String)
  | otherName (oid : String) (value : Bytes)
  | directory (value : Bytes)
  | ipAddress (value : Bytes)
  | registeredId (oid : String)
  | unknown (choice : DWORD)
deriving DecidableEq

/-- No identifier is a null pointer. -/
structure AlgorithmId where
  oid : Option String
  parameters : Bytes
deriving DecidableEq

structure Extension where
  oid : String
  critical : Bool
  value : Bytes
deriving DecidableEq

structure Attribute where
  oid : String
  values : List Bytes
deriving DecidableEq

inductive Struct where
  | bits (blob : BitBlob)
  | usages (oids : List String)
  | names (names : List AltName)
  | basicConstraints (ca pathLenConstraint : Bool) (pathLen : DWORD)
  | authorityKeyId (keyId : Bytes) (issuer : List AltName) (serial : Bytes)
  | algorithm (alg : AlgorithmId)
  | extensions (exts : List Extension)
  | nameValue (type : DWORD) (value : String)
  | publicKey (alg : AlgorithmId) (key : BitBlob)
  | keyBlob (blob : Bytes)
  | blob (data : Bytes)
  | request (version : DWORD) (subject : Bytes) (alg : AlgorithmId) (key : BitBlob)
      (attributes : List Attribute)
deriving DecidableEq

/-! ### Object identifiers -/

inductive Kind where
  | keyUsage
  | enhancedKeyUsage
  | alternateName
  | basicConstraints2
  | authorityKeyId2
  | algorithmIdentifier
  | extensions
  | unicodeAnyString
  | publicKeyInfo
  | publicKeyBlob
  | subjectKeyIdentifier
deriving DecidableEq

/-- What is passed for an identifier: a number, where it is one below 65536. -/
inductive OidArg where
  | number (n : Nat)
  | name (oid : String)
deriving DecidableEq

def namedKinds : List (String × Kind) :=
  [("2.5.29.37", .enhancedKeyUsage), ("2.5.29.15", .keyUsage), ("2.5.29.17", .alternateName),
   ("2.5.29.18", .alternateName), ("2.5.29.7", .alternateName), ("2.5.29.8", .alternateName),
   ("2.5.29.19", .basicConstraints2), ("2.5.29.35", .authorityKeyId2),
   ("2.5.29.14", .subjectKeyIdentifier), ("1.3.6.1.4.1.311.2.1.14", .extensions),
   ("1.2.840.113549.1.9.14", .extensions)]

def numberedKinds : List (Nat × Kind) :=
  [(14, .keyUsage), (36, .enhancedKeyUsage), (12, .alternateName), (15, .basicConstraints2),
   (31, .authorityKeyId2), (74, .algorithmIdentifier), (5, .extensions), (24, .unicodeAnyString),
   (8, .publicKeyInfo), (19, .publicKeyBlob), (65534, .subjectKeyIdentifier)]

def oidArg (T : Tcl) (oid : String) : OidArg :=
  match T.asDWORD oid with
  | some n => if n.toNat < 65536 then .number n.toNat else .name oid
  | none => .name oid

def OidArg.kind : OidArg → Option Kind
  | .number n => numberedKinds.lookup n
  | .name oid => namedKinds.lookup oid

/-! ### Parsers -/

inductive Fault where
  | message (text : String)
  /-- Not a list, or not a boolean. -/
  | badValue (value : String)
  | badArgCount
  | system (code : Nat)
deriving DecidableEq

def parseList {α : Type} (parse : Obj → Except Fault α) : List Obj → Except Fault (List α)
  | [] => .ok []
  | x :: xs =>
    match parse x with
    | .error fault => .error fault
    | .ok a =>
      match parseList parse xs with
      | .error fault => .error fault
      | .ok as => .ok (a :: as)

/-- For an empty list the number of unused bits is not set: it stays as it was. -/
def parseBitBlob (T : Tcl) (junk : DWORD) (o : Obj) : Except Fault BitBlob :=
  match o.elements with
  | some [] => .ok ⟨[], junk⟩
  | some [data, unused] =>
    match T.asDWORD unused.text with
    | some n =>
      if n.toNat ≤ 7 then .ok ⟨data.toBytes, n⟩
      else .error (.message "Invalid CRYPT_BIT_BLOB structure")
    | none => .error (.message "Invalid CRYPT_BIT_BLOB structure")
  | _ => .error (.message "Invalid CRYPT_BIT_BLOB structure")

def badName (o : Obj) : Fault :=
  .message ("Invalid or unsupported name format \"" ++ o.text ++ "\"")

def parseAltName (T : Tcl) (o : Obj) : Except Fault AltName :=
  match o.elements with
  | some [choice, name] =>
    match T.asDWORD choice.text with
    | none => .error (badName o)
    | some n =>
      if n = 2 then .ok (.rfc822 (cstr name.text))
      else if n = 3 then .ok (.dns (cstr name.text))
      else if n = 7 then .ok (.url (cstr name.text))
      else if n = 9 then .ok (.registeredId name.text)
      else if n = 1 then
        match name.elements with
        | some [oid, value] => .ok (.otherName oid.text value.toBytes)
        | _ => .error (badName o)
      else if n = 5 then .ok (.directory name.toBytes)
      else if n = 8 then .ok (.ipAddress name.toBytes)
      else .error (badName o)
  | _ => .error (badName o)

def parseAltNames (T : Tcl) (o : Obj) : Except Fault (List AltName) :=
  match o.elements with
  | none => .error (.badValue o.text)
  | some names => parseList (parseAltName T) names

def parseEnhkeyUsage (o : Obj) : Except Fault (List String) :=
  match o.elements with
  | none => .error (.badValue o.text)
  | some oids => .ok (oids.map Obj.text)

def parseBasicConstraints (T : Tcl) (o : Obj) : Except Fault Struct :=
  match o.elements with
  | some [ca, constrained, pathLen] =>
    match T.asBoolean ca.text, T.asBoolean constrained.text, T.asDWORD pathLen.text with
    | some ca, some constrained, some pathLen => .ok (.basicConstraints ca constrained pathLen)
    | _, _, _ => .error (.message "Invalid basic constraints.")
  | _ => .error (.message "Invalid basic constraints.")

def parseAuthorityKeyId (T : Tcl) (o : Obj) : Except Fault Struct :=
  match o.elements with
  | some [keyId, issuer, serial] =>
    match parseAltNames T issuer with
    | .ok issuer => .ok (.authorityKeyId keyId.toBytes issuer serial.toBytes)
    | .error _ => .error (.message "Invalid authority key id.")
  | _ => .error (.message "Invalid authority key id.")

def parseAlgorithmId (o : Obj) : Except Fault AlgorithmId :=
  match o.elements with
  | none => .error (.badValue o.text)
  | some [] => .ok ⟨none, []⟩
  | some [oid] => .ok ⟨some oid.text, []⟩
  | some [oid, parameters] => .ok ⟨some oid.text, parameters.toBytes⟩
  | some _ =>
    .error (.message "Invalid algorithm identifier format or unsupported parameters")

def parsePublicKeyInfo (T : Tcl) (junk : DWORD) (o : Obj) : Except Fault (AlgorithmId × BitBlob) :=
  match o.elements with
  | some [alg, key] =>
    match parseAlgorithmId alg with
    | .error fault => .error fault
    | .ok alg =>
      match parseBitBlob T junk key with
      | .error fault => .error fault
      | .ok key => .ok (alg, key)
  | _ => .error (.message "Invalid CERT_PUBLIC_KEY_INFO structure")

def parseNameValue (T : Tcl) (o : Obj) : Except Fault Struct :=
  match o.elements with
  | some [type, value] =>
    match T.asDWORD type.text with
    | some type => .ok (.nameValue type value.text)
    | none => .error (.message "Invalid CERT_NAME_VALUE.")
  | _ => .error (.message "Invalid CERT_NAME_VALUE.")

/-- The type of the blob, the magic number behind its header of 8 bytes, and the length
of the key behind the 12 bytes that follow. -/
def isPublicKeyBlob (blob : Bytes) : Bool :=
  blob.head? = some 6 && blob.length > 20 && Lib.ofBytes ((blob.drop 8).take 4) = 0x31415352 &&
    Lib.ofBytes ((blob.drop 12).take 4) / 8 = blob.length - 20

def parseKeyBlob (o : Obj) : Except Fault Bytes :=
  match o.elements with
  | some [_, _, _, _, blob] =>
    if isPublicKeyBlob blob.toBytes then .ok blob.toBytes
    else .error (.message "Invalid RSA public key blob.")
  | _ => .error (.message "Invalid RSA public key blob.")

/-- The structures of all kinds but extensions, which hold encoded values. -/
def Kind.parse (T : Tcl) (junk : DWORD) (kind : Kind) (o : Obj) : Except Fault Struct :=
  match kind with
  | .keyUsage => (parseBitBlob T junk o).map .bits
  | .enhancedKeyUsage => (parseEnhkeyUsage o).map .usages
  | .alternateName => (parseAltNames T o).map .names
  | .basicConstraints2 => parseBasicConstraints T o
  | .authorityKeyId2 => parseAuthorityKeyId T o
  | .algorithmIdentifier => (parseAlgorithmId o).map .algorithm
  | .unicodeAnyString => parseNameValue T o
  | .publicKeyInfo => (parsePublicKeyInfo T junk o).map fun info => .publicKey info.1 info.2
  | .publicKeyBlob => (parseKeyBlob o).map .keyBlob
  | .subjectKeyIdentifier => .ok (.blob o.toBytes)
  | .extensions => .error (.message "Unsupported OID.")

end Twapi.CryptObject
