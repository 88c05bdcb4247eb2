import Twapi.Crypto.VerifyMessage
import Twapi.Lib.Cleanup

/-!
What the commands of `crypto/crypto.c` take from the software stack, and the objects they
create: `Twapi_CryptoCallObjCmd` with the functions it calls, `Twapi_CryptImportKeyObjCmd` and
the commands for messages.

* `Ask`, `Env` — what a command is told: whether its arguments can be read, whether the calls it
  makes succeed, and what it tests of their answers.
* `Run` — a command, with what it does to the stack and to objects.
* `Ended`, `twapiCryptoCall` — a function of `Twapi_CryptoCallObjCmd` returns at once or breaks
  with a result, which is set at the bottom.
* `Command.run` — all of the commands.

Objects that are created and put into a list or an array in one step belong to it. What is made
to report an error is the interpreter's.
-/

namespace Twapi.Crypto.Commands

open Lib
open Lib.Cleanup (Act)

/-- What the code asks before it goes on. -/
inductive Ask where
  /-- The arguments can be read: `TwapiGetArgs`, `CHECK_NARGS`, `CHECK_DWORD_OBJ`. -/
  | args
  /-- A pointer was registered, or a flag or a parameter is one that is allowed. -/
  | check
  /-- The structures among the arguments can be read, or a password can be decrypted. -/
  | parse
  /-- The call that asks for a size. -/
  | size
  /-- The call that fills a buffer of that size. -/
  | fill
  /-- Any other call: it succeeds, and gives something. -/
  | call
  /-- What a call gave can be decoded. -/
  | decode
  /-- What a call gave has the size that was expected, or fits into a buffer. -/
  | fits
  /-- What a call gave is there, and not null or empty. -/
  | found
  /-- `GetLastError` is `CRYPT_E_NOT_FOUND` or `ERROR_NO_MORE_ITEMS`. -/
  | ended
  /-- Of a hash its value is asked for, and not its size or algorithm. -/
  | hashVal
  /-- The name does not fit into the buffer of `ObjFromCERT_NAME_BLOB`; of a certificate the names
  are 0, the issuer, and 1, the subject. -/
  | longName (k : Nat)
  | setContent
  | setCert
  /-- The variable for the content has it, although a trace failed. -/
  | keepsContent
  | keepsCert
deriving DecidableEq

/-- Parameters of providers. `dword` is one that is a number, and `ascii` one that is a string,
beside those named here. -/
inductive ProvParam where
  | clientHwnd
  | deleteKey
  | keyexchangePin
  | signaturePin
  | keysetSecDescr
  | userCertstore
  | rootCertstore
  | pinPromptString
  | uiPrompt
  | enumcontainers
  | enumalgsEx
  | useHardwareRng
  | dword
  | smartcardGuid
  | ascii
  | other
deriving DecidableEq

/-- Properties of certificates. -/
inductive CertProp where
  | accessState
  | keySpec
  | dateStamp
  | archived
  | enhkeyUsage
  | keyProvInfo
  | keyContext
  | keyProvHandle
  | requestOriginator
  | autoEnroll
  | extendedErrorInfo
  | friendlyName
  | pvkFile
  | description
  | other
deriving DecidableEq

structure Env where
  ask : Ask → Bool
  /-- What a call takes from the stack. -/
  memory : Ask → Nat
  lastError : Ask → Nat
  /-- How often a loop or a callback is gone through. -/
  rounds : Nat
  param : ProvParam
  prop : CertProp
  cooked : Bool
  concealed : Bool
  /-- The size of the content of a message. -/
  nout : Nat
  contentVar : Option String
  certVar : Option String

/-- `resultObj` is `result.value.obj` or an object that becomes the result when it is created,
and `objs` is what the array of that name holds, `contextObj` the list for a key context and
`extObj` the identifier of an extension, counted from 0. -/
inductive Obj where
  | resultObj
  | objs
  | contextObj
  | extObj (i : Nat)
  | objP
  | certObj
  | contentObj
  | sigObj
deriving DecidableEq

abbrev Run (α : Type) := Traced (Act Obj) α

def create (obj : Obj) : Run Unit := .tell (.deed .create obj)

def objIncrRefs (obj : Obj) : Run Unit := .tell (.deed .incr obj)

def objDecrRefs (obj : Obj) : Run Unit := .tell (.deed .decr obj)

/-- `Tcl_SetByteArrayLength`, `ObjToByteArray`, `ObjAppendElement` on it. -/
def use (obj : Obj) : Run Unit := .tell (.deed .use obj)

def uses (n : Nat) (obj : Obj) : Run Unit := .tellAll (List.replicate n (.deed .use obj))

/-- `ObjSetResult`, or a list that takes it. -/
def give (obj : Obj) : Run Unit := .tell (.deed .give obj)

/-- Where `Tcl_ObjSetVar2` fails, it releases an object that is new, unless the variable has it and
a trace failed. -/
def objSetVar2 (sets keeps : Bool) (obj : Obj) : Run Bool := do
  .tell (.deed (if sets || keeps then .give else .refuse) obj)
  return sets

/-- `ObjSetResult` of an object that is created for it. -/
def objSetResult : Run Unit := do
  create .resultObj
  give .resultObj

def pushMark : Run Unit := .tell .pushMark

def popMark : Run Unit := .tell .popMark

/-- `SWSPushFrame` and `SWSPopFrame` about what uses the frame. -/
def frame {α : Type} (n : Nat) (body : Run α) : Run α := do
  pushMark
  .tell (.alloc n)
  let a ← body
  popMark
  return a

section Commands

variable (E : Env)

/-- A call that takes memory from the stack, whether or not it succeeds. -/
def allocating (ask : Ask) : Run Bool := do
  .tell (.alloc (E.memory ask))
  return E.ask ask

/-- An array of bytes of the size that the first call asks for, which the second one fills. The
object is released where that fails. -/
def twoCalls (obj : Obj) : Run Bool :=
  if E.ask .size then do
    create obj
    if E.ask .fill then do
      use obj
      return true
    else do
      objDecrRefs obj
      return false
  else return false

/-- What the second call gave is the result. -/
def resultOfTwoCalls (obj : Obj) : Run Unit := do
  if ← twoCalls E obj then
    give obj

/-- `ObjFromCERT_NAME_BLOB`: a name that is long goes through a frame. -/
def objFromCertNameBlob (k : Nat) (body : Run Unit) : Run Unit :=
  if E.ask (.longName k) then frame (E.memory (.longName k)) body else body

/-- `ObjFromCERT_EXTENSION` of each extension: the identifier is put into an object, decoded with
it, and released. -/
def objFromCertExtensions (n : Nat) : Run Unit :=
  .tellAll (Cleanup.scratch ((List.range n).map .extObj))

/-! ### Properties and parameters -/

/-- The result of a function when it breaks: an object, the objects of an array, a value of which
`TwapiSetResult` makes an object, or none of them, which may be an error, an argument that is
given back or no result at all. -/
inductive TwapiResult where
  | obj (obj : Obj)
  | objv
  | value
  | none
deriving DecidableEq

def twapiSetResult : TwapiResult → Run Unit
  | .obj obj => give obj
  | .objv => do
      create .resultObj
      give .objs
      give .resultObj
  | .value => objSetResult
  | .none => pure ()

/-- A value if there is one. -/
def given : TwapiResult := if E.ask .call then .value else .none

/-- The property as it is, where no other form is wanted or known. -/
def rawProperty : Run Unit := resultOfTwoCalls E .resultObj

/-- What is in a frame is made into an object. -/
def decoded : Run TwapiResult := do
  create .resultObj
  return .obj .resultObj

/-- A property of a size that is asked for first, in a frame. -/
def framedProperty (body : Run TwapiResult) : Run Unit :=
  if E.ask .size then do
    let result ← frame (E.memory .size) (if E.ask .fill then body else return .none)
    twapiSetResult result
  else pure ()

/-- The list for `CERT_KEY_CONTEXT_PROP_ID` is made, but the type of the result is not set, so
that the property is also got as it is. -/
def twapiCertGetCertificateContextProperty : Run Unit :=
  if E.cooked then
    match E.prop with
    | .accessState | .keySpec | .dateStamp | .archived => twapiSetResult (given E)
    | .enhkeyUsage => framedProperty E (if E.ask .decode then decoded else return .none)
    | .keyProvInfo => framedProperty E decoded
    | .keyContext =>
      if E.ask .call then do
        create .contextObj
        uses 2 .contextObj
        rawProperty E
      else pure ()
    | .keyProvHandle => twapiSetResult (given E)
    | .requestOriginator | .autoEnroll | .extendedErrorInfo | .friendlyName | .pvkFile
    | .description => framedProperty E decoded
    | .other => rawProperty E
  else rawProperty E

/-- A security descriptor that cannot be read returns at once. -/
def twapiCryptSetProvParam : Run Unit :=
  match E.param with
  | .keysetSecDescr => do
      pushMark
      if ← allocating E .parse then
        popMark
  | _ => pure ()

/-- The parameter as it is. -/
def byteArrayParam : Run Unit := resultOfTwoCalls E .objP

/-- The containers and the algorithms are listed, one after the other. -/
def twapiCryptGetProvParam : Run Unit :=
  match E.param with
  | .enumcontainers =>
    if E.ask .size then do
      frame (E.memory .size) do
        create .objP
        uses E.rounds .objP
      if E.ask .ended then give .objP else objDecrRefs .objP
    else pure ()
  | .enumalgsEx => do
      create .objP
      uses E.rounds .objP
      if E.ask .fits && E.ask .ended then give .objP else objDecrRefs .objP
  | .useHardwareRng => objSetResult
  | .dword | .smartcardGuid | .userCertstore | .rootCertstore =>
    if E.ask .call then
      if E.ask .fits then objSetResult else byteArrayParam E
    else pure ()
  | .keysetSecDescr =>
    if E.ask .size && E.ask .fill && E.ask .decode then do
      create .objP
      give .objP
    else pure ()
  | .keyexchangePin | .signaturePin | .ascii =>
    if E.ask .size && E.ask .fill then do
      create .objP
      give .objP
    else pure ()
  | _ => byteArrayParam E

/-- A name that does not fit into the buffer is got again, in a frame. -/
def twapiCertGetNameString : Run Unit :=
  if E.ask .check && E.ask .found then
    if E.ask .fits then objSetResult else frame (E.memory .fits) objSetResult
  else pure ()

/-! ### `Twapi_CryptoCallObjCmd` -/

/-- The functions, in the order of their codes from 10000 on. -/
inductive Func where
  | cryptAcquireContext
  | cryptReleaseContext
  | cryptGetProvParam
  | certOpenSystemStore
  | certDeleteCertificateFromStore
  | certCreateCertificateContext
  | certEnumCertificatesInStore
  | certEnumCertificateContextProperties
  | certGetCertificateContextProperty
  | cryptDestroyKey
  | cryptGenKey
  | certStrToName
  | certNameToStr
  | certGetNameString
  | certFreeCertificateContext
  | twapiCertGetEncoded
  | certUnregisterSystemStore
  | certCloseStore
  | cryptGetUserKey
  | cryptSetProvParam
  | certOpenStore
  | cryptEnumOIDInfo
  | certAddCertificateContextToStore
  | cryptExportPublicKeyInfoEx
  | certEnumSystemStore
  | certEnumPhysicalStore
  | certEnumSystemStoreLocation
  | cryptAcquireCertificatePrivateKey
  | certGetEnhancedKeyUsage
  | twapiCertStoreCommit
  | twapiCertGetIntendedKeyUsage
  | certGetIssuerCertificateFromStore
  | certFreeCertificateChain
  | certFindExtension
  | cryptGenRandom
  | twapiCertGetInfo
  | twapiCertGetExtensions
  | cryptFindCertificateKeyProvInfo
  | certAddEncodedCertificateToStore
  | certOIDToAlgId
  | certAlgIdToOID
  | certDuplicateCertificateContext
  | certDuplicateStore
  | pfxIsPFXBlob
  | pfxVerifyPassword
  | twapiCertStoreSerialize
  | cryptStringToBinary
  | cryptBinaryToString
  | cryptFindLocalizedName
  | certCompareCertificateName
  | cryptEnumProviderTypes
  | cryptEnumProviders
  | cryptMsgClose
  | certFreeCRLContext
  | certFreeCTLContext
  | cryptCATAdminCalcHashFromFileHandle
  | cryptCATAdminAcquireContext
  | cryptCATAdminReleaseContext
  | cryptCATAdminReleaseCatalogContext
  | cryptCATCatalogInfoFromContext
  | cryptCreateHash
  | cryptDestroyHash
  | cryptHashData
  | cryptHashSessionKey
  | cryptSignHash
  | cryptDuplicateHash
  | cryptGetHashParam
  | cryptDeriveKey
  | capiHashPassword
  | cryptVerifySignature
  | twapiCertChainErrors
  | twapiCertChainInfo
  | twapiCertChainSimpleChainCount
  | capiKeySaltLen
deriving DecidableEq

/-- The function returned, or it broke with a result, and with `mark` set or not. -/
inductive Ended where
  | returned
  | broke (result : TwapiResult) (mark : Bool)

/-- What is done before the result is known does not touch the stack and creates no object. The
function returns at once where one of the questions is answered no. -/
def plain (asks : List Ask) (result : TwapiResult) : Run Ended :=
  return if asks.all E.ask then .broke result false else .returned

/-- What is created is the result. -/
def created (body : Run Unit) (obj : Obj) : Run Ended := do
  body
  return .broke (.obj obj) false

/-- The objects of `objs`, if there are any. -/
def objvCase (asks : List Ask) : Run Ended :=
  if asks.all E.ask then
    if E.ask .call then do
      create .objs
      return .broke .objv false
    else return .broke .none false
  else return .returned

/-- Of the objects of `objs`, two are names and one is a list of extensions. Without them the
list that `TwapiSetResult` makes is empty. -/
def twapiCertGetInfo : Run Ended :=
  if E.ask .args then
    if E.ask .call then do
      create .objs
      objFromCertNameBlob E 0 (use .objs)
      objFromCertNameBlob E 1 (use .objs)
      objFromCertExtensions E.rounds
      return .broke .objv false
    else return .broke .value false
  else return .returned

/-- All extensions, or the first that is found. -/
def extensionsCase (n : Nat) : Run Ended :=
  if E.ask .args then
    if E.ask .found then do
      objFromCertExtensions n
      created (create .resultObj) .resultObj
    else return .broke .none false
  else return .returned

/-- The callback of an enumeration puts its objects into a list. -/
def enumerationCase : Run Ended :=
  if E.ask .args && E.ask .check then do
    create .resultObj
    uses E.rounds .resultObj
    if E.ask .call then
      return .broke (.obj .resultObj) false
    else do
      objDecrRefs .resultObj
      return .returned
  else return .returned

/-- Two calls, and an error that `TwapiSetResult` reports. -/
def twoCallsCase : Run Ended :=
  if E.ask .args then do
    if ← twoCalls E .resultObj then
      return .broke (.obj .resultObj) false
    else return .broke .none false
  else return .returned

/-- An object that is released where the call that fills it fails. -/
def filledCase : Run Ended := do
  create .resultObj
  if E.ask .fill then do
    use .resultObj
    return .broke (.obj .resultObj) false
  else do
    objDecrRefs .resultObj
    return .broke .none false

/-- A result that is decoded from a frame, or an error. -/
def framedCase (body : Run TwapiResult) : Run Ended := do
  let result ← frame (E.memory .size) (if E.ask .fill then body else return .none)
  return .broke result false

def returning (body : Run Unit) : Run Ended := do
  body
  return .returned

/-- The two calls of `CryptStringToBinary`: the object is also used, and is the result, where the
second fails. -/
def cryptStringToBinary : Run Ended :=
  if E.ask .args && E.ask .size then do
    create .resultObj
    if !E.ask .fill then
      objDecrRefs .resultObj
    use .resultObj
    return .broke (.obj .resultObj) false
  else return .returned

/-- The memory of the password is taken without a mark. -/
def capiHashPassword : Run Ended :=
  if E.ask .args then do
    let _ ← allocating E .parse
    return .broke .none false
  else return .returned

def pfxVerifyPassword : Run Ended :=
  if E.ask .args then do
    pushMark
    if ← allocating E .parse then
      return .broke .value true
    else return .broke .none true
  else return .returned

/-- The uses of a certificate, or a star where all are valid. -/
def certGetEnhancedKeyUsage : Run Ended :=
  if E.ask .args then
    if E.ask .size then
      framedCase E (if E.ask .found || E.ask .ended then decoded else return .none)
    else if E.ask .ended then created (create .resultObj) .resultObj
    else return .broke .none false
  else return .returned

/-- The switch over the functions. -/
def Func.run : Func → Run Ended
  | .cryptAcquireContext => plain E [.args] (given E)
  | .cryptReleaseContext => plain E [.args, .check] .none
  | .cryptGetProvParam =>
    returning (if E.ask .args then twapiCryptGetProvParam E else pure ())
  | .certOpenSystemStore => plain E [.args, .call] .value
  | .certDeleteCertificateFromStore => plain E [.args, .check] .none
  | .certCreateCertificateContext => plain E [.args] (given E)
  | .certEnumCertificatesInStore => plain E [.args, .check] (given E)
  | .certEnumCertificateContextProperties => plain E [.args] .value
  | .certGetCertificateContextProperty =>
    returning (if E.ask .args then twapiCertGetCertificateContextProperty E else pure ())
  | .cryptDestroyKey => plain E [.args, .check] .none
  | .cryptGenKey => plain E [.args] (given E)
  | .certStrToName => twoCallsCase E
  | .certNameToStr =>
    if E.ask .args then created (objFromCertNameBlob E 0 (create .resultObj)) .resultObj
    else return .returned
  | .certGetNameString =>
    returning (if E.ask .args then twapiCertGetNameString E else pure ())
  | .certFreeCertificateContext => return .returned
  | .twapiCertGetEncoded => objvCase E [.args]
  | .certUnregisterSystemStore => plain E [.args] .none
  | .certCloseStore => plain E [.args, .check] (given E)
  | .cryptGetUserKey => plain E [.args] (given E)
  | .cryptSetProvParam =>
    returning (if E.ask .args then twapiCryptSetProvParam E else pure ())
  | .certOpenStore =>
    returning (if E.ask .args && E.ask .check && E.ask .call then objSetResult else pure ())
  | .cryptEnumOIDInfo =>
    if E.ask .args then
      created (do create .resultObj; uses E.rounds .resultObj) .resultObj
    else return .returned
  | .certAddCertificateContextToStore => plain E [.args] (given E)
  | .cryptExportPublicKeyInfoEx =>
    if E.ask .args then
      if E.ask .size then framedCase E decoded else return .broke .none false
    else return .returned
  | .certEnumSystemStore | .certEnumPhysicalStore | .certEnumSystemStoreLocation =>
    enumerationCase E
  | .cryptAcquireCertificatePrivateKey => objvCase E [.args, .check]
  | .certGetEnhancedKeyUsage => Commands.certGetEnhancedKeyUsage E
  | .twapiCertStoreCommit => plain E [.args] .none
  | .twapiCertGetIntendedKeyUsage => plain E [.args] (given E)
  | .certGetIssuerCertificateFromStore => objvCase E [.check, .args]
  | .certFreeCertificateChain => return .returned
  | .certFindExtension => extensionsCase E 1
  | .cryptGenRandom =>
    returning (if E.ask .args && E.ask .check && E.ask .call then objSetResult else pure ())
  | .twapiCertGetInfo => Commands.twapiCertGetInfo E
  | .twapiCertGetExtensions => extensionsCase E E.rounds
  | .cryptFindCertificateKeyProvInfo => plain E [.args] .value
  | .certAddEncodedCertificateToStore => plain E [.args] (given E)
  | .certOIDToAlgId | .certDuplicateStore =>
    if E.ask .args then created (create .resultObj) .resultObj else return .returned
  | .certAlgIdToOID => plain E [.args] (given E)
  | .certDuplicateCertificateContext => plain E [.args] (given E)
  | .pfxIsPFXBlob => plain E [.args] .value
  | .pfxVerifyPassword => Commands.pfxVerifyPassword E
  | .twapiCertStoreSerialize =>
    if E.ask .args then do
      if ← twoCalls E .resultObj then
        return .broke (.obj .resultObj) false
      else return .returned
    else return .returned
  | .cryptStringToBinary => Commands.cryptStringToBinary E
  | .cryptBinaryToString =>
    if E.ask .args && E.ask .size then framedCase E decoded else return .returned
  | .cryptFindLocalizedName => plain E [.args] (given E)
  | .certCompareCertificateName => plain E [.args] .value
  | .cryptEnumProviderTypes | .cryptEnumProviders => objvCase E [.args]
  | .cryptMsgClose | .certFreeCRLContext | .certFreeCTLContext => return .returned
  | .cryptCATAdminCalcHashFromFileHandle =>
    if E.ask .args && E.ask .check then
      if E.ask .call then returning objSetResult else return .broke .none false
    else return .returned
  | .cryptCATAdminAcquireContext => plain E [.args, .check] (given E)
  | .cryptCATAdminReleaseContext => return .returned
  | .cryptCATAdminReleaseCatalogContext => plain E [.args] .none
  | .cryptCATCatalogInfoFromContext => plain E [.args] (given E)
  | .cryptCreateHash => plain E [.args] (given E)
  | .cryptDestroyHash => plain E [.args, .check] .none
  | .cryptHashData | .cryptHashSessionKey => plain E [.args] .none
  | .cryptSignHash => if E.ask .args then filledCase E else return .returned
  | .cryptDuplicateHash => plain E [.args] (given E)
  | .cryptGetHashParam =>
    if E.ask .args && E.ask .check then
      if E.ask .size then
        if E.ask .hashVal then filledCase E else return .broke .value false
      else return .broke .none false
    else return .returned
  | .cryptDeriveKey => plain E [.args] (given E)
  | .capiHashPassword => Commands.capiHashPassword E
  | .cryptVerifySignature => plain E [.args] (given E)
  | .twapiCertChainErrors | .twapiCertChainInfo | .twapiCertChainSimpleChainCount =>
    plain E [.args] .value
  | .capiKeySaltLen => plain E [.args, .check] .value

/-- What follows the switch. -/
def Ended.finish : Ended → Run Unit
  | .returned => pure ()
  | .broke result mark => do
      if mark then
        popMark
      twapiSetResult result

def twapiCryptoCall (func : Func) : Run Unit := do
  let ended ← func.run E
  ended.finish

/-! ### Keys and messages -/

/-- A blob that is not concealed is used where it is. -/
def twapiCryptImportKey : Run Unit :=
  if E.ask .args then
    if E.concealed then do
      pushMark
      if ← allocating E .parse then
        if E.ask .check && E.ask .call then
          objSetResult
      popMark
    else if E.ask .fits && E.ask .check && E.ask .call then objSetResult
    else pure ()
  else pure ()

/-- A command for messages: arguments are read onto the stack above a mark, which is popped at
the end. -/
def message (body : Run Unit) : Run Unit := do
  pushMark
  if ← allocating E .parse then
    body
  popMark

def twapiCryptEncryptMessage : Run Unit := message E (resultOfTwoCalls E .objP)

def twapiCryptSignAndEncryptMessage : Run Unit := message E (resultOfTwoCalls E .objP)

/-- The pieces of the content are put into arrays. -/
def pieces (body : Run Unit) : Run Unit :=
  if E.ask .found then do
    .tell (.alloc (E.memory .found))
    body
  else pure ()

def twapiCryptSignMessage : Run Unit := message E (pieces E (resultOfTwoCalls E .sigObj))

def twapiCryptSignMessageWithKey : Run Unit := message E (pieces E (resultOfTwoCalls E .sigObj))

/-- A certificate is put into its variable if one is wanted. -/
def setCert (next : Run Unit) (errorReturn : Run Unit) : Run Unit :=
  match wanted E.certVar with
  | none => next
  | some _ => do
      create .certObj
      if ← objSetVar2 (E.ask .setCert) (E.ask .keepsCert) .certObj then
        next
      else do
        objDecrRefs .certObj
        errorReturn

def twapiCryptDecryptMessage : Run Unit :=
  message E do
    if ← twoCalls E .objP then
      setCert E (give .objP) (objDecrRefs .objP)

/-- `system_error`: a signature that is not good is a result, and no error. -/
def systemError (ask : Ask) (errorReturn : Run Unit) : Run Unit :=
  if E.lastError ask = nteBadSignature ∨ E.lastError ask = nteBadAlgid then objSetResult
  else errorReturn

def twapiCryptVerifyMessageSignature : Run Unit :=
  message E <|
    if E.ask .size then
      if E.nout = 0 then pure ()
      else
        match wanted E.contentVar with
        | none => setCert E objSetResult (pure ())
        | some _ => do
            create .contentObj
            if E.ask .fill then do
              use .contentObj
              if ← objSetVar2 (E.ask .setContent) (E.ask .keepsContent) .contentObj then
                setCert E objSetResult (objDecrRefs .contentObj)
              else objDecrRefs .contentObj
            else systemError E .fill (objDecrRefs .contentObj)
    else systemError E .size (pure ())

/-- Here the object has a reference of its own, as long as the command runs. -/
def twapiCryptVerifyMessageSignatureWithKey : Run Unit :=
  message E <|
    match E.contentVar with
    | none => pure ()
    | some _ => do
        create .contentObj
        objIncrRefs .contentObj
        use .contentObj
        if E.ask .call then do
          use .contentObj
          let _ ← objSetVar2 (E.ask .setContent) (E.ask .keepsContent) .contentObj
        objDecrRefs .contentObj

/-- The answer is taken for an error where it is true. -/
def twapiCryptVerifyDetachedMessageSignature : Run Unit :=
  message E <| pieces E <|
    if E.ask .call then pure () else setCert E (pure ()) (pure ())

/-! ### All of them -/

inductive Command where
  | cryptoCall (func : Func)
  | cryptSetProvParam
  | cryptImportKey
  | cryptEncryptMessage
  | cryptSignAndEncryptMessage
  | cryptDecryptMessage
  | cryptVerifyMessageSignature
  | cryptVerifyMessageSignatureWithKey
  | cryptVerifyDetachedMessageSignature
  | cryptSignMessage
  | cryptSignMessageWithKey
deriving DecidableEq

def Command.run : Command → Run Unit
  | .cryptoCall func => twapiCryptoCall E func
  | .cryptSetProvParam => twapiCryptSetProvParam E
  | .cryptImportKey => twapiCryptImportKey E
  | .cryptEncryptMessage => twapiCryptEncryptMessage E
  | .cryptSignAndEncryptMessage => twapiCryptSignAndEncryptMessage E
  | .cryptDecryptMessage => twapiCryptDecryptMessage E
  | .cryptVerifyMessageSignature => twapiCryptVerifyMessageSignature E
  | .cryptVerifyMessageSignatureWithKey => twapiCryptVerifyMessageSignatureWithKey E
  | .cryptVerifyDetachedMessageSignature => twapiCryptVerifyDetachedMessageSignature E
  | .cryptSignMessage => twapiCryptSignMessage E
  | .cryptSignMessageWithKey => twapiCryptSignMessageWithKey E

end Commands

end Twapi.Crypto.Commands
