import Twapi.Lib.Bytes
import Twapi.Lib.Results

/-!
Key blobs: `capi_keyblob_concealed` and `capi_keyblob_plaintext` of `tcl/crypto.tcl`, the
commands that export and import keys of `crypto/crypto.c`, and the concealment of
`base/tclobjs.c`.

* `Api` — what the system answers. `fresh` is what memory holds that was just allocated.
* `Api.Inverts` — `RtlDecryptMemory` undoes `RtlEncryptMemory`, block for block.
* `Holds` — a key is exported as a PLAINTEXTKEYBLOB with these bytes.
* `objDecryptBytesExSWS_objEncryptBytes` — what is concealed comes back.
* `importKey_same` — whichever way a key comes, `CryptImportKey` gets the same bytes, and none
  where the concealed key is not decrypted.
-/

namespace Twapi.Crypto.KeyBlob

open Lib

abbrev Bytes := List UInt8

inductive Error where
  | system (code : Nat)
  | procNotFound
  | badPad (n : Nat)
  | bufferOverrun
  | invalidData (text : String)
  | mismatch (btype aiKeyAlg : UInt32)
  | expectedInteger (n : Int)
  | badAlgId (name : String)
  /-- The process does not live on. -/
  | fault
deriving DecidableEq

structure Api where
  fresh : (n : Nat) → { buffer : Bytes // buffer.length = n }
  rtlEncryptMemory : Option (Bytes → Except Nat Bytes)
  rtlDecryptMemory : Option (Bytes → Except Nat Bytes)
  cryptExportKey : (hkey : Nat) → (hwrapper : Option Nat) → (blobType flags : UInt32) →
    Except Nat Bytes
  cryptImportKey : Bytes → (hwrapper : Option Nat) → (flags : UInt32) → Except Nat Nat
  oid : String → Except Error String
  certOIDToAlgId : String → UInt32

variable (api : Api)

/-! ### `TwapiEncryptData`, `TwapiDecryptData` -/

/-- The size of what is encrypted and the length of its pad. -/
def padded (nin : Nat) : Nat × Nat :=
  if nin % 8 ≠ 0 then ((nin + 7) / 8 * 8, (nin + 7) / 8 * 8 - nin) else (nin + 8, 8)

/-- Called for the size only. Where the size is no `int`, memory is overrun later. -/
def encryptedSize (nin : Nat) : Except Error Nat :=
  match api.rtlEncryptMemory with
  | none => .error .procNotFound
  | some _ => if 2 ^ 31 ≤ (padded nin).1 then .error .fault else .ok (padded nin).1

def twapiEncryptData (inP outP : Bytes) : Except Error Bytes :=
  match api.rtlEncryptMemory with
  | none => .error .procNotFound
  | some fnP =>
    let (sz, pad_len) := padded inP.length
    if outP.length < sz then .error .bufferOverrun
    else
      let outP := (outP.take sz).set (sz - 1) (UInt8.ofNat pad_len)
      (fnP (inP ++ outP.drop inP.length)).mapError .system

/-- Called for the size only -/
def decryptedSize (nenc : Nat) : Except Error Nat :=
  match api.rtlDecryptMemory with
  | none => .error .procNotFound
  | some _ => if nenc = 0 ∨ nenc % 8 ≠ 0 then .error (.badPad nenc) else .ok nenc

def twapiDecryptData (encP : Bytes) (nout : Nat) : Except Error Bytes :=
  match api.rtlDecryptMemory with
  | none => .error .procNotFound
  | some fnP =>
    let nenc := encP.length
    if nenc = 0 ∨ nenc % 8 ≠ 0 then .error (.badPad nenc)
    else if nout < nenc then .error .bufferOverrun
    else do
      let outP ← (fnP encP).mapError .system
      let pad_len := (outP.getD (nenc - 1) 0).toNat
      if pad_len = 0 ∨ 8 < pad_len ∨ nenc < pad_len then .error (.badPad pad_len)
      else .ok (outP.take (nenc - pad_len))

/-! ### Concealed strings -/

def objEncryptWinChars (uniP : List UInt16) : Except Error Bytes := do
  let nenc ← encryptedSize api (2 * uniP.length)
  twapiEncryptData api (wide uniP) (api.fresh nenc).1

/-- Each byte as a character -/
def winChars (bytes : Bytes) : List UInt16 := bytes.map UInt8.toUInt16

def objEncryptBytes (bytes : Bytes) : Except Error Bytes := objEncryptWinChars api (winChars bytes)

/-- `conceal` -/
def conceal (text : List UInt16) : Except Error Bytes := objEncryptWinChars api text

def objDecryptWinCharsSWS (enc : Bytes) : Except Error (List UInt16) := do
  let ndec ← decryptedSize api enc.length
  let dec ← twapiDecryptData api enc ndec
  return units dec

/-- With `nleading` bytes of space in front. -/
def objDecryptBytesExSWS (enc : Bytes) (nleading : Nat) : Except Error (Bytes × Nat) := do
  let uniP ← objDecryptWinCharsSWS api enc
  return ((api.fresh nleading).1 ++ uniP.map UInt16.toUInt8, uniP.length)

/-! ### The blobs of Tcl -/

/-- An argument for an algorithm: what `string is integer` accepts, or a name. -/
inductive AlgId where
  | number (n : Int) (isInteger : n.natAbs < 2 ^ 32)
  | name (s : String)

def algIds : List (String × UInt32) :=
  [("3des", 0x00006603), ("3des_112", 0x00006609), ("aes", 0x00006611), ("aes_128", 0x0000660E),
    ("aes_192", 0x0000660F), ("aes_256", 0x00006610), ("agreedkey_any", 0x0000AA03),
    ("keyexchange", 1), ("signature", 2), ("cylink_mek", 0x0000660C), ("des", 0x00006601),
    ("desx", 0x00006604), ("dh_ephem", 0x0000AA02), ("dh_sf", 0x0000AA01),
    ("dss_sign", 0x00002200), ("ecdh", 0x0000AA05), ("ecdsa", 0x00002203), ("ecmqv", 0x0000A001),
    ("hash_replace_owf", 0x0000800B), ("hughes_md5", 0x0000A003), ("hmac", 0x00008009),
    ("kea_keyx", 0x0000AA04), ("mac", 0x00008005), ("md2", 0x00008001), ("md4", 0x00008002),
    ("md5", 0x00008003), ("no_sign", 0x00002000), ("pct1_master", 0x00004C04),
    ("rc2", 0x00006602), ("rc4", 0x00006801), ("rc5", 0x0000660D), ("rsa_keyx", 0x0000A400),
    ("rsa_sign", 0x00002400), ("schannel_enc_key", 0x00004C07), ("schannel_mac_key", 0x00004C03),
    ("schannel_master_hash", 0x00004C02), ("sha", 0x00008004), ("sha1", 0x00008004),
    ("sha_256", 0x0000800C), ("sha_384", 0x0000800D), ("sha_512", 0x0000800E),
    ("ssl2_master", 0x00004C05), ("ssl3_master", 0x00004C01), ("ssl3_shamd5", 0x00008008),
    ("tls1_master", 0x00004C06), ("tls1prf", 0x0000800A)]

def capiAlgid : AlgId → Except Error Int
  | .number n _ => .ok n
  | .name s =>
    match algIds.lookup s with
    | some algid => .ok algid.toNat
    | none => do
        let oid ← api.oid s
        let algid := api.certOIDToAlgId oid
        if algid = 0 then .error (.badAlgId s) else .ok algid.toNat

/-- The list that stands for a key blob. -/
structure Keyblob where
  btype : Int
  bver : Int
  reserved : Int
  algid : Int
  blob : Bytes
deriving DecidableEq

/-- A type of blob: a name in the table, or its number. -/
inductive BlobType where
  | concealed
  | keystate
  | opaqueKey
  | plaintext
  | privatekey
  | publickey
  | publickeyex
  | rfc3217
  | simple
  | number (n : Int)
deriving DecidableEq

/-- `_capi_keyblob_type_id` -/
def keyblobTypeId : BlobType → Int
  | .concealed => 0
  | .keystate => 12
  | .opaqueKey => 9
  | .plaintext => 8
  | .privatekey => 7
  | .publickey => 6
  | .publickeyex => 10
  | .rfc3217 => 11
  | .simple => 1
  | .number n => n

def capiKeyblobCreate (ver : Int) (algid : AlgId) (blobType : BlobType) (key : Bytes) :
    Except Error Keyblob := do
  let algnum ← capiAlgid api algid
  return { btype := keyblobTypeId blobType, bver := ver, reserved := 0, algid := algnum, blob := key }

def capiKeyblobConcealed (algid : AlgId) (concealedKey : Bytes) : Except Error Keyblob :=
  capiKeyblobCreate api 2 algid .concealed concealedKey

/-- The 32 bits of an integer -/
def word (n : Int) : Nat := (n % 2 ^ 32).toNat

/-- `binary format ccsii` -/
def binaryFormat (c₁ c₂ s i₁ i₂ : Int) : Bytes :=
  toBytes 1 (word c₁) ++ toBytes 1 (word c₂) ++ toBytes 2 (word s) ++ toBytes 4 (word i₁) ++
    toBytes 4 (word i₂)

def capiKeyblobPlaintext (algid : AlgId) (binkey : Bytes) : Except Error Keyblob := do
  let algnum ← capiAlgid api algid
  let blob_type := keyblobTypeId .plaintext
  capiKeyblobCreate api 2 algid .plaintext
    (binaryFormat blob_type 2 0 algnum binkey.length ++ binkey)

/-! ### `Twapi_CryptExportKeyObjCmd` -/

def concealedKeyBlob : UInt32 := 0

def publicKeyBlob : UInt32 := 6

def plaintextKeyBlob : UInt32 := 8

/-- The number in a field of a structure. -/
def field (blob : Bytes) (offset size : Nat) : Nat := ofBytes ((blob.drop offset).take size)

/-- A field of a structure, set. -/
def setField (offset : Nat) (value : Bytes) (blob : Bytes) : Bytes :=
  blob.take offset ++ value ++ blob.drop (offset + value.length)

def objFromInt (n : Nat) : Int := (n : Int).bmod (2 ^ 32)

def objFromBLOBHEADER (blobP : Bytes) : Except Error Keyblob := do
  let blob ← if field blobP 0 1 = 0 then
      match objEncryptBytes api ((blobP.drop 12).take (field blobP 8 4)) with
      | .ok blob => .ok blob
      -- A list is made with a null object in it.
      | .error _ => .error .fault
    else .ok blobP
  return {
    btype := objFromInt (field blobP 0 1)
    bver := objFromInt (field blobP 1 1)
    reserved := objFromInt (field blobP 2 2)
    algid := objFromInt (field blobP 4 4)
    blob }

def exportKey (hkey : Nat) (hwrapper : Option Nat) (blobType flags : UInt32) :
    Except Error Keyblob := do
  let hwrapper := if blobType = publicKeyBlob then none else hwrapper
  let blobP ← (api.cryptExportKey hkey hwrapper
    (if blobType = concealedKeyBlob then plaintextKeyBlob else blobType) flags).mapError .system
  objFromBLOBHEADER api (if blobType = concealedKeyBlob then setField 0 (toBytes 1 0) blobP else blobP)

/-! ### `Twapi_CryptImportKeyObjCmd` -/

/-- What `CryptImportKey` is called with, and what the command comes to. -/
structure Import where
  passed : Option Bytes
  result : Except Error Nat

/-- `GETINT` -/
def getInt (n : Int) : Except Error UInt32 :=
  if n.natAbs < 2 ^ 32 then .ok (UInt32.ofNat (word n)) else .error (.expectedInteger n)

/-- A concealed key, behind the header that is put in front of it. -/
def concealedBlob (bver balg_id : UInt32) (enc : Bytes) : Except Error Bytes := do
  let (p, keysize) ← objDecryptBytesExSWS api enc 12
  let p := setField 8 (toBytes 4 keysize) p
  let p := setField 0 (toBytes 1 plaintextKeyBlob.toNat) p
  let p := setField 1 (toBytes 1 bver.toNat) p
  let p := setField 2 (toBytes 2 0) p
  return setField 4 (toBytes 4 balg_id.toNat) p

/-- The blob that is imported. -/
def importBlob (keyblob : Keyblob) : Except Error Bytes := do
  let btype ← getInt keyblob.btype
  let bver ← getInt keyblob.bver
  let _ ← getInt keyblob.reserved
  let balg_id ← getInt keyblob.algid
  let (btype, blobP) ← if btype = concealedKeyBlob then do
      let blobP ← concealedBlob api bver balg_id keyblob.blob
      .ok (plaintextKeyBlob, blobP)
    else if keyblob.blob.length ≤ 8 then .error (.invalidData "Truncated key blob.")
    else .ok (btype, keyblob.blob)
  if field blobP 0 1 ≠ btype.toNat ∨ field blobP 4 4 ≠ balg_id.toNat then
    .error (.mismatch btype balg_id)
  else .ok blobP

def importBytes (hwrapper : Option Nat) (flags : UInt32) (blobP : Bytes) : Import where
  passed := some blobP
  result := (api.cryptImportKey blobP hwrapper flags).mapError .system

def importKey (hwrapper : Option Nat) (flags : UInt32) (keyblob : Keyblob) : Import :=
  match importBlob api keyblob with
  | .error e => { passed := none, result := .error e }
  | .ok blobP => importBytes api hwrapper flags blobP

/-! ### What is asked for -/

/-- A PLAINTEXTKEYBLOB -/
def plaintextKey (aiKeyAlg : Nat) (key : Bytes) : Bytes :=
  [8, 2, 0, 0] ++ toBytes 4 aiKeyAlg ++ toBytes 4 key.length ++ key

structure Api.Inverts (api : Api) : Prop where
  inverse : ∀ {enc data out}, api.rtlEncryptMemory = some enc → data.length % 8 = 0 →
    enc data = .ok out →
      out.length = data.length ∧ ∃ dec, api.rtlDecryptMemory = some dec ∧ dec out = .ok data

structure Holds (hkey : Nat) (hwrapper : Option Nat) (flags : UInt32) (aiKeyAlg : Nat)
    (key : Bytes) : Prop where
  exported : api.cryptExportKey hkey hwrapper plaintextKeyBlob flags =
    .ok (plaintextKey aiKeyAlg key)
  dwKeySize : key.length < 2 ^ 32

/-- A key blob that Tcl makes, imported. -/
def importMade (hwrapper : Option Nat) (flags : UInt32) (made : Except Error Keyblob) :
    Except Error Import := made.map (importKey api hwrapper flags)

/-- The three ways of a key with these bytes into `CryptImportKey`. -/
structure SameImport (algid : AlgId) (key : Bytes) (hwrapper : Option Nat) (flags : UInt32) :
    Prop where
  plaintext : ∀ {algnum}, capiAlgid api algid = .ok algnum →
    ∃ result, importMade api hwrapper flags (capiKeyblobPlaintext api algid key) =
      .ok { passed := some (plaintextKey (word algnum) key), result := result }
  concealed : ∀ {enc}, conceal api (winChars key) = .ok enc →
    importMade api hwrapper flags (capiKeyblobConcealed api algid enc) =
      importMade api hwrapper flags (capiKeyblobPlaintext api algid key)
  exported : ∀ {algnum hkey wrapper exportFlags keyblob}, capiAlgid api algid = .ok algnum →
    Holds api hkey wrapper exportFlags (word algnum) key →
    exportKey api hkey wrapper concealedKeyBlob exportFlags = .ok keyblob →
      .ok (importKey api hwrapper flags keyblob) =
        importMade api hwrapper flags (capiKeyblobPlaintext api algid key)

variable {api}

/-! ### Concealment -/

theorem padded_spec (nin : Nat) : (padded nin).1 % 8 = 0 ∧ (padded nin).1 = nin + (padded nin).2 ∧
    1 ≤ (padded nin).2 ∧ (padded nin).2 ≤ 8 := by
  unfold padded
  split
  · rename_i odd
    simp only
    omega
  · rename_i whole
    exact ⟨by omega, rfl, Nat.le_of_ble_eq_true rfl, Nat.le_refl 8⟩

/-- The pad is as long as its last byte says. -/
theorem twapiDecryptData_encrypt (inverts : api.Inverts) {data out enc : Bytes} {nout : Nat}
    (done : twapiEncryptData api data out = .ok enc) (room : enc.length ≤ nout) :
    enc.length = (padded data.length).1 ∧ twapiDecryptData api enc nout = .ok data := by
  obtain ⟨whole, size, pos, most⟩ := padded_spec data.length
  unfold twapiEncryptData at done
  cases proc : api.rtlEncryptMemory with
  | none =>
    rw [proc] at done
    cases done
  | some fnP =>
    rw [proc] at done
    simp only at done
    split at done
    · cases done
    · rename_i fits
      generalize padding : ((out.take (padded data.length).1).set ((padded data.length).1 - 1)
        (UInt8.ofNat (padded data.length).2)).drop data.length = pad at done
      have lengthPad : pad.length = (padded data.length).2 := by
        rw [← padding, List.length_drop, List.length_set, List.length_take]
        omega
      have last : pad[(padded data.length).2 - 1]? =
          some (UInt8.ofNat (padded data.length).2) := by
        rw [← padding, List.getElem?_drop, List.getElem?_set]
        rw [if_pos (by omega), if_pos (by rw [List.length_take]; omega)]
      have sizeData : (data ++ pad).length = (padded data.length).1 := by
        rw [List.length_append, lengthPad, size]
      cases answer : fnP (data ++ pad) with
      | error e =>
        rw [answer] at done
        cases done
      | ok enc' =>
        rw [answer] at done
        cases done
        obtain ⟨lengthEnc, dec, proc', back⟩ := inverts.inverse proc (by rw [sizeData, whole])
          answer
        rw [sizeData] at lengthEnc
        refine ⟨lengthEnc, ?_⟩
        have lastByte : (data ++ pad).getD (enc.length - 1) 0 =
            UInt8.ofNat (padded data.length).2 := by
          rw [List.getD_eq_getElem?_getD, List.getElem?_append_right (by omega), lengthEnc]
          rw [show (padded data.length).1 - 1 - data.length = (padded data.length).2 - 1 by omega,
            last]
          rfl
        have number : (UInt8.ofNat (padded data.length).2).toNat = (padded data.length).2 := by
          rw [UInt8.toNat_ofNat']
          omega
        unfold twapiDecryptData
        rw [proc']
        simp only
        rw [if_neg (by omega), if_neg (by omega), back, mapError_ok, ok_bind, lastByte, number,
          if_neg (by omega), lengthEnc]
        rw [show (padded data.length).1 - (padded data.length).2 = data.length by omega,
          List.take_left]

variable {enc key : Bytes} {keyblob : Keyblob} {n algnum : Int} {aiKeyAlg hkey : Nat}
  {algid : AlgId}

theorem objDecryptWinCharsSWS_encrypt (inverts : api.Inverts) {text : List UInt16}
    (done : objEncryptWinChars api text = .ok enc) : objDecryptWinCharsSWS api enc = .ok text := by
  obtain ⟨nenc, -, done⟩ := bind_eq_ok done
  obtain ⟨whole, size, pos, most⟩ := padded_spec (wide text).length
  obtain ⟨length, back⟩ := twapiDecryptData_encrypt inverts done (Nat.le_refl _)
  have asked : decryptedSize api enc.length = .ok enc.length := by
    unfold decryptedSize
    unfold twapiDecryptData at back
    cases proc : api.rtlDecryptMemory with
    | none =>
      rw [proc] at back
      cases back
    | some fnP => exact if_neg (by omega)
  have same := units_wide_append text []
  rw [List.append_nil] at same
  rw [objDecryptWinCharsSWS, asked, ok_bind, back, ok_bind, same]
  exact congrArg Except.ok (List.append_nil text)

theorem narrow_winChars (bytes : Bytes) : (winChars bytes).map UInt16.toUInt8 = bytes := by
  rw [winChars, List.map_map]
  exact List.map_id'' (fun b => UInt8.toUInt8_toUInt16 b) bytes

theorem objDecryptBytesExSWS_objEncryptBytes (inverts : api.Inverts)
    (done : objEncryptBytes api key = .ok enc) (nleading : Nat) :
    objDecryptBytesExSWS api enc nleading = .ok ((api.fresh nleading).1 ++ key, key.length) := by
  rw [objDecryptBytesExSWS, objDecryptWinCharsSWS_encrypt inverts done, ok_bind, narrow_winChars,
    winChars, List.length_map]
  rfl

/-! ### Numbers -/

theorem toBytes_mod (width n : Nat) : toBytes width (n % 256 ^ width) = toBytes width n := by
  have same := toBytes_ofBytes (toBytes width n)
  rwa [length_toBytes, ofBytes_toBytes] at same

theorem word_lt (n : Int) : word n < 2 ^ 32 := by
  unfold word
  omega

theorem word_natCast (n : Nat) : word n = n % 2 ^ 32 := by
  unfold word
  omega

theorem toNat_word (n : Int) : (UInt32.ofNat (word n)).toNat = word n := by
  rw [UInt32.toNat_ofNat', Nat.mod_eq_of_lt (word_lt n)]

theorem getInt_ok (small : n.natAbs < 2 ^ 32) :
    getInt n = .ok (UInt32.ofNat (word n)) := if_pos small

theorem word_objFromInt {n : Nat} (small : n < 2 ^ 32) : word (objFromInt n) = n := by
  have mod : (objFromInt n) % 2 ^ 32 = (n : Int) % 2 ^ 32 := Int.bmod_emod
  rw [word, mod]
  omega

theorem natAbs_objFromInt (n : Nat) : (objFromInt n).natAbs < 2 ^ 32 := by
  have low := Int.le_bmod (x := (n : Int)) (m := 2 ^ 32) (by decide)
  have high := Int.bmod_lt (x := (n : Int)) (m := 2 ^ 32) (by decide)
  unfold objFromInt
  omega

theorem capiAlgid_small (found : capiAlgid api algid = .ok n) :
    n.natAbs < 2 ^ 32 := by
  cases algid with
  | number m small =>
    cases found
    exact small
  | name s =>
    unfold capiAlgid at found
    simp only at found
    split at found
    · rename_i id _
      cases found
      exact id.toNat_lt
    · obtain ⟨oid, -, found⟩ := bind_eq_ok found
      split at found
      · cases found
      · cases found
        exact (api.certOIDToAlgId oid).toNat_lt

/-! ### The header -/

theorem field_bType (aiKeyAlg : Nat) (key : Bytes) : field (plaintextKey aiKeyAlg key) 0 1 = 8 :=
  rfl

theorem field_aiKeyAlg (small : aiKeyAlg < 2 ^ 32) (key : Bytes) :
    field (plaintextKey aiKeyAlg key) 4 4 = aiKeyAlg := by
  change ofBytes (toBytes 4 aiKeyAlg) = aiKeyAlg
  exact ofBytes_toBytes_of_lt small

/-- The header that Tcl puts before a key. -/
theorem binaryFormat_eq (algnum : Int) (key : Bytes) :
    binaryFormat (keyblobTypeId .plaintext) 2 0 algnum key.length ++ key =
      plaintextKey (word algnum) key := by
  have size : toBytes 4 (word key.length) = toBytes 4 key.length := by
    rw [word_natCast]
    exact toBytes_mod 4 key.length
  rw [binaryFormat, size]
  rfl

/-- The header that is put before a key that was decrypted. -/
theorem concealedBlob_eq (inverts : api.Inverts) (done : objEncryptBytes api key = .ok enc)
    (balg_id : UInt32) :
    concealedBlob api 2 balg_id enc = .ok (plaintextKey balg_id.toNat key) := by
  rw [concealedBlob, objDecryptBytesExSWS_objEncryptBytes inverts done, ok_bind]
  obtain ⟨buffer, length⟩ := api.fresh 12
  match buffer, length with
  | [_, _, _, _, _, _, _, _, _, _, _, _], _ => rfl

/-! ### What is imported -/

/-- The blob that a list of a concealed key with this header comes to. -/
theorem importBlob_concealed (inverts : api.Inverts) (done : objEncryptBytes api key = .ok enc)
    (btype : keyblob.btype = 0) (bver : keyblob.bver = 2) (reserved : keyblob.reserved = 0)
    (algid : keyblob.algid.natAbs < 2 ^ 32) (blob : keyblob.blob = enc) :
    importBlob api keyblob = .ok (plaintextKey (word keyblob.algid) key) := by
  have header := concealedBlob_eq inverts done (UInt32.ofNat (word keyblob.algid))
  rw [toNat_word] at header
  rw [importBlob, btype, bver, reserved, blob, getInt_ok algid]
  have first : getInt 0 = .ok 0 := rfl
  have second : getInt 2 = .ok 2 := rfl
  simp only [first, second, ok_bind]
  rw [if_pos (show (0 : UInt32) = concealedKeyBlob from rfl), header, ok_bind]
  simp only [field_bType, field_aiKeyAlg (word_lt _), toNat_word]
  exact if_neg (not_or.mpr ⟨not_not.mpr rfl, not_not.mpr rfl⟩)

theorem importBlob_plaintext (btype : keyblob.btype = 8) (bver : keyblob.bver = 2)
    (reserved : keyblob.reserved = 0) (algid : keyblob.algid.natAbs < 2 ^ 32)
    (blob : keyblob.blob = plaintextKey (word keyblob.algid) key) :
    importBlob api keyblob = .ok (plaintextKey (word keyblob.algid) key) := by
  rw [importBlob, btype, bver, reserved, blob, getInt_ok algid]
  have first : getInt 0 = .ok 0 := rfl
  have second : getInt 2 = .ok 2 := rfl
  have third : getInt 8 = .ok 8 := rfl
  have long : ¬ (plaintextKey (word keyblob.algid) key).length ≤ 8 := by
    simp [plaintextKey]
    omega
  simp only [first, second, third, ok_bind]
  rw [if_neg (by decide), if_neg long]
  simp only [field_bType, field_aiKeyAlg (word_lt _), toNat_word]
  exact if_neg (not_or.mpr ⟨not_not.mpr rfl, not_not.mpr rfl⟩)

/-- What is exported in concealed form. -/
theorem exportKey_concealed {hwrapper : Option Nat} {flags : UInt32} {exported : Keyblob}
    (small : aiKeyAlg < 2 ^ 32) (holds : Holds api hkey hwrapper flags aiKeyAlg key)
    (done : exportKey api hkey hwrapper concealedKeyBlob flags = .ok exported) :
    exported.btype = 0 ∧ exported.bver = 2 ∧ exported.reserved = 0 ∧
      exported.algid = objFromInt aiKeyAlg ∧ objEncryptBytes api key = .ok exported.blob := by
  rw [exportKey] at done
  simp only [if_neg (show concealedKeyBlob ≠ publicKeyBlob by decide), if_true, holds.exported,
    mapError_ok, ok_bind] at done
  have alg : field (setField 0 (toBytes 1 0) (plaintextKey aiKeyAlg key)) 4 4 = aiKeyAlg :=
    field_aiKeyAlg small key
  have size : field (setField 0 (toBytes 1 0) (plaintextKey aiKeyAlg key)) 8 4 = key.length := by
    change ofBytes (toBytes 4 key.length) = key.length
    exact ofBytes_toBytes_of_lt holds.dwKeySize
  have bytes : (setField 0 (toBytes 1 0) (plaintextKey aiKeyAlg key)).drop 12 = key := rfl
  have type : field (setField 0 (toBytes 1 0) (plaintextKey aiKeyAlg key)) 0 1 = 0 := rfl
  have version : field (setField 0 (toBytes 1 0) (plaintextKey aiKeyAlg key)) 1 1 = 2 := rfl
  have zero : field (setField 0 (toBytes 1 0) (plaintextKey aiKeyAlg key)) 2 2 = 0 := rfl
  rw [objFromBLOBHEADER, alg, size, bytes, List.take_length, type, version, zero, if_pos rfl] at done
  cases enc : objEncryptBytes api key with
  | error e =>
    rw [enc] at done
    cases done
  | ok enc' =>
    rw [enc] at done
    cases done
    have none_ : objFromInt 0 = 0 := by decide
    have two : objFromInt 2 = 2 := by decide
    dsimp only
    exact ⟨none_, two, none_, rfl, rfl⟩

/-- A concealed key that is not decrypted: with whatever header, it goes nowhere. -/
theorem importBlob_error (btype : keyblob.btype = 0) {e : Error}
    (bad : objDecryptWinCharsSWS api keyblob.blob = .error e) :
    ∃ e', importBlob api keyblob = .error e' := by
  cases answer : importBlob api keyblob with
  | error e' => exact ⟨e', rfl⟩
  | ok blobP =>
    rw [importBlob, btype] at answer
    obtain ⟨type, isType, answer⟩ := bind_eq_ok answer
    obtain ⟨bver, -, answer⟩ := bind_eq_ok answer
    obtain ⟨reserved, -, answer⟩ := bind_eq_ok answer
    obtain ⟨balg_id, -, answer⟩ := bind_eq_ok answer
    cases isType
    rw [if_pos (show UInt32.ofNat (word 0) = concealedKeyBlob from rfl), concealedBlob,
      objDecryptBytesExSWS, bad] at answer
    cases answer

/-! ### The three ways of a key -/

theorem importMade_plaintext (found : capiAlgid api algid = .ok algnum) (key : Bytes)
    (hwrapper : Option Nat) (flags : UInt32) :
    importMade api hwrapper flags (capiKeyblobPlaintext api algid key) =
      .ok (importBytes api hwrapper flags (plaintextKey (word algnum) key)) := by
  rw [importMade, capiKeyblobPlaintext, found, ok_bind, capiKeyblobCreate, found, ok_bind,
    binaryFormat_eq]
  refine congrArg Except.ok ?_
  rw [importKey, importBlob_plaintext rfl rfl rfl (capiAlgid_small found) rfl]

theorem importMade_concealed (inverts : api.Inverts) (found : capiAlgid api algid = .ok algnum)
    (done : objEncryptBytes api key = .ok enc) (hwrapper : Option Nat) (flags : UInt32) :
    importMade api hwrapper flags (capiKeyblobConcealed api algid enc) =
      .ok (importBytes api hwrapper flags (plaintextKey (word algnum) key)) := by
  rw [importMade, capiKeyblobConcealed, capiKeyblobCreate, found, ok_bind]
  refine congrArg Except.ok ?_
  rw [importKey, importBlob_concealed inverts done rfl rfl rfl (capiAlgid_small found) rfl]

theorem importKey_exported (inverts : api.Inverts) {wrapper : Option Nat} {exportFlags : UInt32}
    (holds : Holds api hkey wrapper exportFlags (word algnum) key)
    (done : exportKey api hkey wrapper concealedKeyBlob exportFlags = .ok keyblob)
    (hwrapper : Option Nat) (flags : UInt32) :
    importKey api hwrapper flags keyblob =
      importBytes api hwrapper flags (plaintextKey (word algnum) key) := by
  obtain ⟨btype, bver, reserved, algid, enc⟩ := exportKey_concealed (word_lt algnum) holds done
  have small : keyblob.algid.natAbs < 2 ^ 32 := algid ▸ natAbs_objFromInt (word algnum)
  rw [importKey, importBlob_concealed inverts enc btype bver reserved small rfl, algid,
    word_objFromInt (word_lt algnum)]

/-- **Key blobs**: a key is imported as the same bytes whether it comes as plaintext, concealed,
or exported in concealed form; and a concealed key that cannot be decrypted is not imported. -/
theorem importKey_same (inverts : api.Inverts) (hwrapper : Option Nat) (flags : UInt32) :
    (∀ algid key, SameImport api algid key hwrapper flags) ∧
    ∀ keyblob : Keyblob, keyblob.btype = 0 →
      (∀ text, objDecryptWinCharsSWS api keyblob.blob ≠ .ok text) →
      ∃ e, importKey api hwrapper flags keyblob = { passed := none, result := .error e } := by
  refine ⟨fun algid key => ⟨fun found => ?_, fun {enc} done => ?_, fun found holds done => ?_⟩,
    fun keyblob btype bad => ?_⟩
  · exact ⟨_, importMade_plaintext found key hwrapper flags⟩
  · cases found : capiAlgid api algid with
    | error e =>
      rw [capiKeyblobConcealed, capiKeyblobCreate, capiKeyblobPlaintext, found]
      rfl
    | ok algnum =>
      rw [importMade_concealed inverts found done, importMade_plaintext found]
  · rw [importKey_exported inverts holds done, importMade_plaintext found]
  · cases answer : objDecryptWinCharsSWS api keyblob.blob with
    | ok text => exact absurd answer (bad text)
    | error e =>
      obtain ⟨e', never⟩ := importBlob_error btype answer
      refine ⟨e', ?_⟩
      rw [importKey, never]

/-- The system, with a cipher of its own. -/
def sampleApi : Api where
  fresh n := ⟨List.replicate n 0xCD, List.length_replicate⟩
  rtlEncryptMemory := some fun data => .ok (data.map (· ^^^ 0x5A))
  rtlDecryptMemory := some fun data => .ok (data.map (· ^^^ 0x5A))
  cryptExportKey hkey _ blobType _ :=
    if hkey = 1 ∧ blobType = plaintextKeyBlob then .ok (plaintextKey 0x6602 [1, 2, 3])
    else .error 0x80090003
  cryptImportKey _ _ _ := .ok 2
  oid _ := .error (.invalidData "")
  certOIDToAlgId _ := 0

theorem sampleApi_inverts : sampleApi.Inverts where
  inverse proc _ done := by
    cases proc
    cases done
    refine ⟨List.length_map .., _, rfl, ?_⟩
    rw [List.map_map]
    exact congrArg Except.ok (List.map_id'' (fun b => by simp [UInt8.xor_assoc]) _)

theorem importKey_same_rc2 :
    importMade sampleApi none 0x100 (capiKeyblobConcealed sampleApi (.name "rc2")
      [0x5B, 0x5A, 0x58, 0x5A, 0x59, 0x5A, 0x97, 0x58]) =
        importMade sampleApi none 0x100 (capiKeyblobPlaintext sampleApi (.name "rc2") [1, 2, 3]) ∧
    ∃ e, importKey sampleApi none 0x100
      { btype := 0, bver := 2, reserved := 0, algid := 0x6602, blob := [1, 2, 3] } =
        { passed := none, result := .error e } :=
  ⟨((importKey_same sampleApi_inverts none 0x100).1 (.name "rc2") [1, 2, 3]).concealed
      (by decide),
    (importKey_same sampleApi_inverts none 0x100).2 _ rfl fun text => by
      have bad : objDecryptWinCharsSWS sampleApi [1, 2, 3] = .error (.badPad 3) := by decide
      rw [bad]
      exact nofun⟩

end Twapi.Crypto.KeyBlob
