import Twapi.Lib.Ledger
import Twapi.Lib.Traced

/-!
Handles of `crypto/crypto.c` and the registry of pointers: the commands for certificates,
stores, chains, keys and hashes.

* `acquiring`, `releasing` — what most commands do; the others follow.
* `Call.run` — all commands. The CryptoAPI answers with the handles it hands out.
* `trace` — what happens in a sequence of commands.
-/

namespace Twapi.Handles

open Lib (Traced Entry)
open Lib.Traced

abbrev Address := Nat

inductive Tag where
  | cert
  | store
  | msg
  | chain
  | crl
  | ctl
  | key
  | hash
  | prov
deriving DecidableEq

structure Handle where
  tag : Tag
  address : Address
deriving DecidableEq

/-- The counts of registered pointers. -/
abbrev Registry := Multiset Handle

/-- The CryptoAPI hands out a reference, or frees one; a handle is put into the result. -/
inductive Event where
  | hands (h : Handle)
  | frees (h : Handle)
  | registers (h : Handle)
  | unregisters (h : Handle)
  | returns (h : Handle)
deriving DecidableEq

def Event.applied (r : Registry) : Event → Registry
  | .registers h => h ::ₘ r
  | .unregisters h => r.erase h
  | _ => r

def registryAfter (r : Registry) (es : List Event) : Registry := es.foldl Event.applied r

/-! ### Arguments -/

/-- An argument that is no pointer of its type, that is NULL, or that is a pointer. -/
inductive Arg where
  | bad
  | null
  | pointer (address : Address)
deriving DecidableEq

section Commands

variable (r : Registry)

/-- `GETVERIFIEDPTR` -/
def verified (tag : Tag) : Arg → Option Handle
  | .pointer address => if ⟨tag, address⟩ ∈ r then some ⟨tag, address⟩ else none
  | _ => none

/-- `GETVERIFIEDORNULL` -/
def verifiedOrNull (tag : Tag) : Arg → Option (Option Handle)
  | .bad => none
  | .null => some none
  | .pointer address => if ⟨tag, address⟩ ∈ r then some (some ⟨tag, address⟩) else none

/-- `TwapiUnregisterPointer`, of a pointer that is not NULL -/
def unregister (h : Handle) : Traced Event Bool := do
  if h ∈ r then
    tell (.unregisters h)
    pure true
  else pure false

/-- A reference that is handed out, registered and returned. -/
def hand (h : Handle) : Traced Event Bool := do
  tell (.hands h)
  tell (.registers h)
  tell (.returns h)
  pure true

/-- A handle that may come without a reference of its own. -/
def lend (own : Bool) (h : Handle) : Traced Event Bool := do
  tellAll (if own then [.hands h] else [])
  tell (.registers h)
  tell (.returns h)
  pure true

def acquiring (args : Bool) (tag : Tag) (answer : Option Address) : Traced Event Bool :=
  if args then
    match answer with
    | none => pure false
    | some address => hand ⟨tag, address⟩
  else pure false

/-- Unregisters the pointer and frees it, with `freed` as the outcome; NULL is never
registered. -/
def releasing (args : Bool) (tag : Tag) (arg : Arg) (freed : Bool) : Traced Event Bool :=
  match arg with
  | .pointer address => do
      if args then
        if ← unregister r ⟨tag, address⟩ then
          tell (.frees ⟨tag, address⟩)
          pure freed
        else pure false
      else pure false
  | _ => pure false

/-! ### Commands that return a new reference -/

def certOpenSystemStore (args : Bool) (answer : Option Address) : Traced Event Bool :=
  acquiring args .store answer

def certOpenStore (args : Bool) (answer : Option Address) (deleted : Bool) : Traced Event Bool :=
  match args, answer with
  | true, none => pure deleted
  | _, _ => acquiring args .store answer

def pfxImportCertStore (args : Bool) (answer : Option Address) : Traced Event Bool :=
  acquiring args .store answer

def certStoreDuplicate (store : Arg) (answer : Address) : Traced Event Bool :=
  acquiring (verified r .store store).isSome .store (some answer)

def certCreateCertificateContext (args : Bool) (answer : Option Address) : Traced Event Bool :=
  acquiring args .cert answer

def certDuplicate (cert : Arg) (answer : Address) : Traced Event Bool :=
  acquiring (verified r .cert cert).isSome .cert (some answer)

def certAddCertificateContextToStore (store cert : Arg) (args : Bool) (answer : Option Address) :
    Traced Event Bool :=
  acquiring ((verified r .store store).isSome && (verified r .cert cert).isSome && args) .cert answer

def certAddEncodedCertificateToStore (store : Arg) (args : Bool) (answer : Option Address) :
    Traced Event Bool :=
  acquiring ((verified r .store store).isSome && args) .cert answer

/-- The provider is left out where there is none. -/
def certCreateSelfSignCertificate (prov : Option Arg) (args : Bool) (answer : Option Address) :
    Traced Event Bool :=
  acquiring (prov.all (fun prov => (verified r .prov prov).isSome) && args) .cert answer

def certGetCertificateChain (cert store : Arg) (args : Bool) (answer : Option Address) :
    Traced Event Bool :=
  acquiring ((verified r .cert cert).isSome && (verifiedOrNull r .store store).isSome && args) .chain
    answer

def cryptGenKey (prov : Arg) (args : Bool) (answer : Option Address) : Traced Event Bool :=
  acquiring ((verified r .prov prov).isSome && args) .key answer

def cryptGetUserKey (prov : Arg) (args : Bool) (answer : Option Address) : Traced Event Bool :=
  acquiring ((verified r .prov prov).isSome && args) .key answer

def cryptDeriveKey (prov hash : Arg) (args : Bool) (answer : Option Address) : Traced Event Bool :=
  acquiring ((verified r .prov prov).isSome && (verified r .hash hash).isSome && args) .key answer

def cryptImportKey (prov key : Arg) (args : Bool) (answer : Option Address) : Traced Event Bool :=
  acquiring ((verified r .prov prov).isSome && (verifiedOrNull r .key key).isSome && args) .key answer

def cryptImportPublicKeyInfoEx (prov : Arg) (args : Bool) (answer : Option Address) :
    Traced Event Bool :=
  acquiring ((verified r .prov prov).isSome && args) .key answer

def cryptCreateHash (prov key : Arg) (args : Bool) (answer : Option Address) : Traced Event Bool :=
  acquiring ((verified r .prov prov).isSome && (verifiedOrNull r .key key).isSome && args) .hash answer

def capiHashDup (hash : Arg) (answer : Option Address) : Traced Event Bool :=
  acquiring (verified r .hash hash).isSome .hash answer

/-- Nothing is returned where a key set is deleted. -/
def cryptAcquireContext (args deleteKeyset : Bool) (answer : Option Address) : Traced Event Bool :=
  if args && deleteKeyset then pure answer.isSome else acquiring args .prov answer

/-! ### Commands that release one -/

def certRelease (cert : Arg) (freed : Bool) : Traced Event Bool := releasing r true .cert cert freed

def certCloseStore (store : Arg) (args freed : Bool) : Traced Event Bool :=
  releasing r args .store store freed

def certChainRelease (chain : Arg) : Traced Event Bool := releasing r true .chain chain true

def capiKeyFree (key : Arg) (freed : Bool) : Traced Event Bool := releasing r true .key key freed

def capiHashFree (hash : Arg) (freed : Bool) : Traced Event Bool := releasing r true .hash hash freed

def cryptReleaseContext (prov : Arg) (args freed : Bool) : Traced Event Bool :=
  releasing r args .prov prov freed

/-- The context is freed even on failures. -/
def certDeleteFromStore (cert : Arg) (deleted : Bool) : Traced Event Bool :=
  releasing r (verified r .cert cert).isSome .cert cert deleted

/-! ### Commands that free an argument -/

def freeContext : Option Handle → Traced Event Unit
  | none => pure ()
  | some h => tell (.frees h)

/-- No context, or one that is registered. -/
def unregisterContext : Option Handle → Traced Event Bool
  | none => pure true
  | some h => unregister r h

/-- What is found, or nothing; `atEnd` if that is no error. -/
def found (answer : Option Address) (atEnd : Bool) : Traced Event Bool :=
  match answer with
  | none => pure atEnd
  | some address => hand ⟨.cert, address⟩

/-- `CertEnumCertificatesInStore`, which frees the previous certificate. -/
def enumNext (previous : Option Handle) (answer : Option Address) (atEnd : Bool) :
    Traced Event Bool := do
  if ← unregisterContext r previous then
    freeContext previous
    found answer atEnd
  else pure false

def certEnumCertificatesInStore (store cert : Arg) (args : Bool) (answer : Option Address)
    (atEnd : Bool) : Traced Event Bool :=
  if (verified r .store store).isSome && args then
    match cert with
    | .bad => pure false
    | .null => enumNext r none answer atEnd
    | .pointer address => enumNext r (some ⟨.cert, address⟩) answer atEnd
  else pure false

/-- What is to be found: a certificate, or something else that can be parsed or not. -/
inductive Find where
  | existing (cert : Arg)
  | other (parsed : Bool)
deriving DecidableEq

def Find.parses : Find → Bool
  | .existing cert => (verified r .cert cert).isSome
  | .other parsed => parsed

/-- The numbers come before the previous certificate, which is the last argument, unless
there are `extra` ones. -/
def certFindCertificateInStore (store : Arg) (numbers : Bool) (find : Find) (cert : Arg)
    (extra : Bool) (answer : Option Address) (atEnd : Bool) : Traced Event Bool :=
  if (verified r .store store).isSome && numbers then
    match verifiedOrNull r .cert cert with
    | none => pure false
    | some previous => do
        if extra then
          if ← unregisterContext r previous then freeContext previous
          pure false
        else
          let unregistered ← unregisterContext r previous
          freeContext previous
          if find.parses r && unregistered then found answer atEnd else pure false
  else pure false

/-- `args` is about what comes behind the previous issuer. -/
def certGetIssuerCertificateFromStore (store cert issuer : Arg) (args : Bool)
    (answer : Option Address) (atEnd : Bool) : Traced Event Bool :=
  if (verified r .store store).isSome && (verified r .cert cert).isSome then
    match verifiedOrNull r .cert issuer with
    | none => pure false
    | some previous => do
        if ← unregisterContext r previous then
          freeContext previous
          if args then found answer atEnd else pure false
        else pure false
  else pure false

/-! ### Commands that return other handles -/

/-- What is returned of a property: a context of a key, with whether its key is one of a
CryptoAPI provider, or a provider; `own` says whether it has a reference of its own. -/
inductive Property where
  | keyContext (answer : Option (Address × Bool)) (own : Bool)
  | keyProvHandle (answer : Option Address) (own : Bool)
  | other (cookedOk : Bool)
deriving DecidableEq

/-- The value as bytes, `raw` if it can be had; the type of the result of a key context is
not set, so that it is one of these, too. -/
def certGetCertificateContextProperty (cert : Arg) (args cooked : Bool) (property : Property)
    (raw : Bool) : Traced Event Bool :=
  if (verified r .cert cert).isSome && args then
    if cooked then
      match property with
      | .keyContext none _ => pure false
      | .keyContext (some (address, capi)) own => do
          tellAll (if own then [.hands ⟨.prov, address⟩] else [])
          tellAll (if capi then [.registers ⟨.prov, address⟩] else [])
          pure raw
      | .keyProvHandle none _ => pure false
      | .keyProvHandle (some address) own => lend own ⟨.prov, address⟩
      | .other cookedOk => pure cookedOk
    else pure raw
  else pure false

/-- `own` is what the CryptoAPI says of whether the caller is to release the provider. -/
def cryptAcquireCertificatePrivateKey (cert : Arg) (args : Bool) (answer : Option (Address × Bool)) :
    Traced Event Bool :=
  if (verified r .cert cert).isSome && args then
    match answer with
    | none => pure false
    | some (address, own) => lend own ⟨.prov, address⟩
  else pure false

/-- The certificates of a chain. -/
def handAll : List Address → Traced Event Unit
  | [] => pure ()
  | address :: rest => do
      let _ ← hand ⟨.cert, address⟩
      handAll rest

def certChainSimpleChain (chain : Arg) (args : Bool) (elements : List Address) : Traced Event Bool := do
  if (verified r .chain chain).isSome && args then
    handAll elements
    pure true
  else pure false

/-- The handles of an object, with the context where its content is one. -/
structure Query where
  store : Option Address
  msg : Option Address
  context : Option Handle
deriving DecidableEq

def Query.handles (query : Query) : List Handle :=
  (query.store.map (⟨.store, ·⟩)).toList ++ ((query.msg.map (⟨.msg, ·⟩)).toList ++
    query.context.toList)

def enrol : List Handle → Traced Event Unit
  | [] => pure ()
  | h :: rest => do
      tell (.registers h)
      tell (.returns h)
      enrol rest

def cryptQueryObject (args typesOnly : Bool) (answer : Option Query) : Traced Event Bool := do
  if args then
    match answer with
    | none => pure false
    | some query =>
      if typesOnly then pure true
      else
        tellAll (query.handles.map .hands)
        enrol query.handles
        pure true
  else pure false

end Commands

/-! ### Sequences of commands -/

/-- A command with its arguments and the answers of the CryptoAPI. The commands that only
look at handles do nothing to them. -/
inductive Call where
  | certOpenSystemStore (args : Bool) (answer : Option Address)
  | certOpenStore (args : Bool) (answer : Option Address) (deleted : Bool)
  | pfxImportCertStore (args : Bool) (answer : Option Address)
  | certStoreDuplicate (store : Arg) (answer : Address)
  | certCreateCertificateContext (args : Bool) (answer : Option Address)
  | certDuplicate (cert : Arg) (answer : Address)
  | certAddCertificateContextToStore (store cert : Arg) (args : Bool) (answer : Option Address)
  | certAddEncodedCertificateToStore (store : Arg) (args : Bool) (answer : Option Address)
  | certCreateSelfSignCertificate (prov : Option Arg) (args : Bool) (answer : Option Address)
  | certGetCertificateChain (cert store : Arg) (args : Bool) (answer : Option Address)
  | cryptGenKey (prov : Arg) (args : Bool) (answer : Option Address)
  | cryptGetUserKey (prov : Arg) (args : Bool) (answer : Option Address)
  | cryptDeriveKey (prov hash : Arg) (args : Bool) (answer : Option Address)
  | cryptImportKey (prov key : Arg) (args : Bool) (answer : Option Address)
  | cryptImportPublicKeyInfoEx (prov : Arg) (args : Bool) (answer : Option Address)
  | cryptCreateHash (prov key : Arg) (args : Bool) (answer : Option Address)
  | capiHashDup (hash : Arg) (answer : Option Address)
  | cryptAcquireContext (args deleteKeyset : Bool) (answer : Option Address)
  | certRelease (cert : Arg) (freed : Bool)
  | certCloseStore (store : Arg) (args freed : Bool)
  | certChainRelease (chain : Arg)
  | capiKeyFree (key : Arg) (freed : Bool)
  | capiHashFree (hash : Arg) (freed : Bool)
  | cryptReleaseContext (prov : Arg) (args freed : Bool)
  | certDeleteFromStore (cert : Arg) (deleted : Bool)
  | certEnumCertificatesInStore (store cert : Arg) (args : Bool) (answer : Option Address)
      (atEnd : Bool)
  | certFindCertificateInStore (store : Arg) (numbers : Bool) (find : Find) (cert : Arg)
      (extra : Bool) (answer : Option Address) (atEnd : Bool)
  | certGetIssuerCertificateFromStore (store cert issuer : Arg) (args : Bool)
      (answer : Option Address) (atEnd : Bool)
  | certGetCertificateContextProperty (cert : Arg) (args cooked : Bool) (property : Property)
      (raw : Bool)
  | cryptAcquireCertificatePrivateKey (cert : Arg) (args : Bool) (answer : Option (Address × Bool))
  | certChainSimpleChain (chain : Arg) (args : Bool) (elements : List Address)
  | cryptQueryObject (args typesOnly : Bool) (answer : Option Query)
  | inspect (ok : Bool)

def Call.run (r : Registry) : Call → Traced Event Bool
  | .certOpenSystemStore args answer => Handles.certOpenSystemStore args answer
  | .certOpenStore args answer deleted => Handles.certOpenStore args answer deleted
  | .pfxImportCertStore args answer => Handles.pfxImportCertStore args answer
  | .certStoreDuplicate store answer => Handles.certStoreDuplicate r store answer
  | .certCreateCertificateContext args answer => Handles.certCreateCertificateContext args answer
  | .certDuplicate cert answer => Handles.certDuplicate r cert answer
  | .certAddCertificateContextToStore store cert args answer =>
    Handles.certAddCertificateContextToStore r store cert args answer
  | .certAddEncodedCertificateToStore store args answer =>
    Handles.certAddEncodedCertificateToStore r store args answer
  | .certCreateSelfSignCertificate prov args answer =>
    Handles.certCreateSelfSignCertificate r prov args answer
  | .certGetCertificateChain cert store args answer =>
    Handles.certGetCertificateChain r cert store args answer
  | .cryptGenKey prov args answer => Handles.cryptGenKey r prov args answer
  | .cryptGetUserKey prov args answer => Handles.cryptGetUserKey r prov args answer
  | .cryptDeriveKey prov hash args answer => Handles.cryptDeriveKey r prov hash args answer
  | .cryptImportKey prov key args answer => Handles.cryptImportKey r prov key args answer
  | .cryptImportPublicKeyInfoEx prov args answer =>
    Handles.cryptImportPublicKeyInfoEx r prov args answer
  | .cryptCreateHash prov key args answer => Handles.cryptCreateHash r prov key args answer
  | .capiHashDup hash answer => Handles.capiHashDup r hash answer
  | .cryptAcquireContext args deleteKeyset answer =>
    Handles.cryptAcquireContext args deleteKeyset answer
  | .certRelease cert freed => Handles.certRelease r cert freed
  | .certCloseStore store args freed => Handles.certCloseStore r store args freed
  | .certChainRelease chain => Handles.certChainRelease r chain
  | .capiKeyFree key freed => Handles.capiKeyFree r key freed
  | .capiHashFree hash freed => Handles.capiHashFree r hash freed
  | .cryptReleaseContext prov args freed => Handles.cryptReleaseContext r prov args freed
  | .certDeleteFromStore cert deleted => Handles.certDeleteFromStore r cert deleted
  | .certEnumCertificatesInStore store cert args answer atEnd =>
    Handles.certEnumCertificatesInStore r store cert args answer atEnd
  | .certFindCertificateInStore store numbers find cert extra answer atEnd =>
    Handles.certFindCertificateInStore r store numbers find cert extra answer atEnd
  | .certGetIssuerCertificateFromStore store cert issuer args answer atEnd =>
    Handles.certGetIssuerCertificateFromStore r store cert issuer args answer atEnd
  | .certGetCertificateContextProperty cert args cooked property raw =>
    Handles.certGetCertificateContextProperty r cert args cooked property raw
  | .cryptAcquireCertificatePrivateKey cert args answer =>
    Handles.cryptAcquireCertificatePrivateKey r cert args answer
  | .certChainSimpleChain chain args elements => Handles.certChainSimpleChain r chain args elements
  | .cryptQueryObject args typesOnly answer => Handles.cryptQueryObject args typesOnly answer
  | .inspect ok => pure ok

/-- What happens in each of the commands. -/
def trace : Registry → List Call → List (List Event)
  | _, [] => []
  | r, call :: calls =>
    (call.run r).events :: trace (registryAfter r (call.run r).events) calls

end Twapi.Handles
