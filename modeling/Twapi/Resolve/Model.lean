import Mathlib.Logic.Function.Basic
import Mathlib.Tactic.Common
import Twapi.Lib.Machine

/-!
Name lookups, `resolve_hostname` and `resolve_address` of `tcl/network.tcl`, with the
workers and events of `network/network.c` where `-async` is given.

* `resolveHostname`, `resolveAddress` — the lookups that wait.
* `Network` — an interpreter with the lookups that were made with `-async`.
* `machine` — the interpreter's thread, the workers, and Tcl serving its events.

`replies`, `outcome` and `released` of a request are bookkeeping the code does not have.
Identifiers have `w` bits: 64, or 32 where `_WIN64` is not defined. A worker's event may be
served before one that was queued earlier; Tcl's own order is one of those.
-/

namespace Twapi.Resolve

open Lib

/-! ### The platform -/

/-- `struct sockaddr_storage`, past the family. -/
structure SockAddr where
  ss_family : Nat
  data : Nat
deriving DecidableEq

/-- `struct addrinfo` without the link. `address` is what `ObjFromSOCKADDR_address` makes
of the address, if it does. -/
structure AddrInfo where
  ai_family : Nat
  ai_addrlen : Nat
  sa_family : Option Nat
  address : Option String
  port : Nat
deriving DecidableEq

structure Hints where
  ai_family : Nat
  ai_protocol : Nat
  ai_socktype : Nat
  ai_flags : Nat
deriving DecidableEq

/-- Windows Sockets at the time of a lookup. -/
structure Resolver where
  getaddrinfo : (name svcname : String) → Hints → Nat × List AddrInfo
  stringToAddress : (s : String) → (family : Nat) → Option Nat
  getnameinfo : SockAddr → (flags : Nat) → Nat × String

/-- What does not change between lookups. -/
structure Platform where
  toLower : String → String
  /-- The elements of a list, if the string is one. -/
  elements : String → Option (List String)
  toInt : String → Option Int
  lstrcmpA : String → String → Int
  /-- `min_os_version 6` -/
  vista : Bool

def afInet : Nat := 2
def afInet6 : Nat := 23

section Lookups

variable (P : Platform) (R : Resolver)

/-! ### Lookups that wait -/

/-- `_ipversion_to_af`; `none` is an error. -/
def ipversionToAf (opt : String) : Option Nat :=
  match P.toInt opt with
  | some 4 => some afInet
  | some 6 => some afInet6
  | some 0 => some 0
  | some _ => none
  | none =>
    match P.toLower opt with
    | "inet" => some afInet
    | "inet6" => some afInet6
    | "any" | "all" => some 0
    | _ => none

/-- What the elements of the list are: family, address and port. -/
abbrev Endpoint := Nat × String × Nat

def twapiCollectAddrInfo (family : Nat) (addrs : List AddrInfo) : List Endpoint :=
  addrs.filterMap fun a =>
    if family = 0 ∨ family = a.ai_family then
      if (a.ai_family = afInet ∧ a.ai_addrlen = 16 ∧ a.sa_family = some afInet) ∨
          (a.ai_family = afInet6 ∧ a.ai_addrlen = 28 ∧ a.sa_family = some afInet6) then
        a.address.map fun address => (a.ai_family, address, a.port)
      else none
    else none

/-- The addresses of the family that was asked for. -/
def ofVersion (ipversion : Nat) (endpoints : List Endpoint) : List String :=
  (endpoints.filter fun e => ipversion = 0 ∨ ipversion = e.1).map fun e => e.2.1

/-- `AI_ALL`, where there is such a flag. -/
def hostnameFlags : Nat := if P.vista then 0x100 else 0

inductive Error where
  | invalidIpversion
  | win32 (code : Nat)
  | invalidAddress
deriving DecidableEq

def getAddrInfo (name svcname : String) (hints : Hints) : Except Error (List Endpoint) :=
  let r := R.getaddrinfo name svcname hints
  if r.1 ≠ 0 then .error (.win32 r.1) else .ok (twapiCollectAddrInfo hints.ai_family r.2)

/-- The failures that stand for "no such host". -/
def noSuchHost : List Nat := [11001, 11002, 11003, 11004]

def resolveHostname (name ipversion : String) : Except Error (List String) :=
  match ipversionToAf P ipversion with
  | none => .error .invalidIpversion
  | some af =>
    match getAddrInfo R (P.toLower name) "0" ⟨0, 0, 0, hostnameFlags P⟩ with
    | .ok endpoints => .ok (ofVersion af endpoints)
    | .error (.win32 code) => if code ∈ noSuchHost then .ok [] else .error (.win32 code)
    | .error e => .error e

def twapiStringToSockaddr (s : String) (family : Nat) : Option SockAddr :=
  if family ≠ 0 then (R.stringToAddress s family).map (SockAddr.mk family)
  else
    match R.stringToAddress s afInet with
    | some data => some ⟨afInet, data⟩
    | none => (R.stringToAddress s afInet6).map (SockAddr.mk afInet6)

/-- The family that a word stands for. -/
def familyOf (s : String) : Option Nat :=
  if P.lstrcmpA s "inet" = 0 then some afInet
  else if P.lstrcmpA s "inet6" = 0 then some afInet6
  else
    match P.toInt s with
    | some 2 => some afInet
    | some 23 => some afInet6
    | _ => none

/-- An address that is written as a pair of a family and an address. -/
def addressPair (addr : String) : Option (Nat × String) :=
  match P.elements addr with
  | some [ipversion, s] => (familyOf P ipversion).map fun family => (family, s)
  | _ => none

/-- `ObjToSOCKADDR_STORAGE` of a list of one address, without port. -/
def objToSockaddr (addr : String) : Option SockAddr :=
  match addressPair P addr with
  | some (family, s) => twapiStringToSockaddr R s family
  | none =>
    match twapiStringToSockaddr R addr afInet with
    | some ss => some ss
    | none => twapiStringToSockaddr R addr afInet6

def niNumericserv : Nat := 8

def getNameInfo (addr : String) : Except Error String :=
  match objToSockaddr P R addr with
  | none => .error .invalidAddress
  | some ss =>
    let r := R.getnameinfo ss niNumericserv
    if r.1 ≠ 0 then .error (.win32 r.1) else .ok r.2

/-- `getnameinfo` translates this to the name of the machine. -/
def anyAddress : String := "0.0.0.0"

def resolveAddress (addr : String) : Except Error String :=
  if addr = anyAddress then .ok addr
  else
    match getNameInfo P R addr with
    | .error e => .error e
    | .ok name => .ok (if name = addr then "" else name)

/-! ### Lookups that do not wait -/

/-- The commands, as they are given. -/
inductive Lookup where
  | hostname (name ipversion : String)
  | address (addr : String)
deriving DecidableEq

/-- The procedure of the event and the table of scripts. -/
inductive Kind where
  | hostname
  | address
deriving DecidableEq

def Lookup.kind : Lookup → Kind
  | .hostname .. => .hostname
  | .address _ => .address

/-- `struct _TwapiHostnameEvent` -/
structure TwapiHostnameEvent (w : Nat) where
  proc : Kind
  id : BitVec w
  status : Nat
  family : Nat
  ai_flags : Nat
  name : String
  addrinfolist : List AddrInfo
  hostname : Option String
deriving DecidableEq

variable {w : Nat}

def resolveHostnameAsync (id : BitVec w) (name : String) (family hint_flags : Nat) :
    TwapiHostnameEvent w :=
  ⟨.hostname, id, 0, family, hint_flags, name, [], none⟩

def resolveAddressAsync (id : BitVec w) (addrstr : String) (family : Nat) :
    TwapiHostnameEvent w :=
  ⟨.address, id, 0, family, 0, addrstr, [], none⟩

/-- Runs in a thread of the pool. -/
def twapiHostnameHandler (theP : TwapiHostnameEvent w) : TwapiHostnameEvent w :=
  let r := R.getaddrinfo theP.name "0" ⟨theP.family, 0, 0, theP.ai_flags⟩
  { theP with status := r.1, addrinfolist := if r.1 = 0 then r.2 else [] }

def twapiAddressHandler (theP : TwapiHostnameEvent w) : TwapiHostnameEvent w :=
  match twapiStringToSockaddr R theP.name theP.family with
  | none => { theP with status := 10022 }
  | some ss =>
    let r := R.getnameinfo ss niNumericserv
    if r.1 ≠ 0 then { theP with status := r.1 }
    else
      { theP with
        status := 0
        -- The address that comes back is no name.
        hostname := if P.lstrcmpA theP.name r.2 ≠ 0 then some r.2 else none }

def handler (theP : TwapiHostnameEvent w) : TwapiHostnameEvent w :=
  match theP.proc with
  | .hostname => twapiHostnameHandler R theP
  | .address => twapiAddressHandler P R theP

inductive Status where
  | success
  | fail
deriving DecidableEq

/-- What a script is told. -/
inductive Result where
  | addresses (addrs : List String)
  | hostname (name : String)
  | code (winerr : Nat)
deriving DecidableEq

/-- The words that are appended to a script. -/
structure Invocation where
  script : String
  subject : String
  status : Status
  result : Result
deriving DecidableEq

/-- What stands in `_hostname_handler_scripts` or `_address_handler_scripts`. -/
inductive Scripts where
  | hostname (ipver : Nat) (name script : String)
  | address (addr script : String)
deriving DecidableEq

/-- `_hostname_resolve_handler`, `_address_resolve_handler`: what the entry's script is
invoked with. -/
def resolveHandler (theP : TwapiHostnameEvent w) : Scripts → Invocation
  | .hostname ipver name script =>
    if theP.status = 0 then
      ⟨script, name, .success,
        .addresses (ofVersion ipver (twapiCollectAddrInfo theP.family theP.addrinfolist))⟩
    else if theP.status = 11001 ∨ theP.status = 11004 then
      ⟨script, name, .success, .addresses []⟩
    else ⟨script, name, .fail, .addresses []⟩
  | .address addr script =>
    if theP.status = 0 then
      ⟨script, addr, .success, .hostname (theP.hostname.getD "")⟩
    else ⟨script, addr, .fail, .code theP.status⟩

/-! ### The interpreter -/

/-- Where a request is: with a worker, in the event queue, served but not done; or
waiting for Tcl to be idle, and for the timer after that. -/
inductive Place (w : Nat) where
  | working (theP : TwapiHostnameEvent w)
  | queued (theP : TwapiHostnameEvent w)
  | running (theP : TwapiHostnameEvent w)
  | idle
  | timer
  | done
deriving DecidableEq

structure Request (w : Nat) where
  lookup : Lookup
  script : String
  place : Place w
  outcome : Option Resolver
  replies : List Invocation
  released : Nat

structure Network (w : Nat) where
  gIdGenerator : BitVec w
  requests : List (Request w)
  scripts : Kind → BitVec w → Option Scripts
  interpDeleted : Bool
  ticRefs : Int

def Network.start : Network w := ⟨0, [], fun _ _ => none, false, 1⟩

/-- Where request `i` is. -/
def Network.placeAt (s : Network w) (i : Nat) : Option (Place w) := s.requests[i]?.map (·.place)

/-- A step. `queued` is whether `QueueUserWorkItem` succeeds; the resolver is what a
worker finds. -/
inductive Label where
  | resolve (lookup : Lookup) (script : String) (queued : Bool)
  | newId
  | complete (i : Nat) (R : Resolver)
  | serve (i : Nat)
  | unref (i : Nat)
  | idle (i : Nat)
  | timer (i : Nat)
  | deleteInterp

namespace Network

def setScripts (kind : Kind) (id : BitVec w) (entry : Option Scripts) (s : Network w) :
    Network w :=
  { s with scripts := Function.update s.scripts kind (Function.update (s.scripts kind) id entry) }

def modify (i : Nat) (f : Request w → Request w) (s : Network w) : Network w :=
  { s with requests := s.requests.modify i f }

def append (r : Request w) (s : Network w) : Network w := { s with requests := s.requests ++ [r] }

def addRefs (n : Int) (s : Network w) : Network w := { s with ticRefs := s.ticRefs + n }

/-- The commands with `-async`, once the id is there. -/
def submit (lookup : Lookup) (script : String) (queued : Bool) (theP : TwapiHostnameEvent w)
    (entry : Scripts) (s : Network w) : Network w :=
  if queued then
    ((s.addRefs 1).append ⟨lookup, script, .working theP, none, [], 0⟩).setScripts
      lookup.kind theP.id (some entry)
  else (s.addRefs 1).addRefs (-1)

def resolve (lookup : Lookup) (script : String) (queued : Bool) (s : Network w) :
    Option (Network w) :=
  let id := s.gIdGenerator + 1
  match lookup with
  | .hostname name ipversion =>
    match ipversionToAf P ipversion with
    | none => none
    | some af =>
      some (submit lookup script queued
        (resolveHostnameAsync id (P.toLower name) 0 (hostnameFlags P))
        (.hostname af (P.toLower name) script) { s with gIdGenerator := id })
  | .address addr =>
    if addr = anyAddress then
      some (s.append ⟨lookup, script, .idle, none, [], 0⟩)
    else
      some (submit lookup script queued (resolveAddressAsync id addr 0) (.address addr script)
        { s with gIdGenerator := id })

/-- `TwapiHostnameEventProc`, `TwapiAddressEventProc` up to the end of the script. -/
def serve (i : Nat) (theP : TwapiHostnameEvent w) (s : Network w) : Network w :=
  if s.interpDeleted then s.modify i fun r => { r with place := .running theP }
  else
    match s.scripts theP.proc theP.id with
    -- A background error.
    | none => s.modify i fun r => { r with place := .running theP }
    | some entry =>
      (s.setScripts theP.proc theP.id none).modify i fun r =>
        { r with place := .running theP, replies := resolveHandler theP entry :: r.replies }

def step (s : Network w) : Label → Option (Network w)
  | .resolve lookup script queued =>
    if s.interpDeleted then none else s.resolve P lookup script queued
  | .newId => some { s with gIdGenerator := s.gIdGenerator + 1 }
  | .complete i R =>
    match s.placeAt i with
    | some (.working theP) =>
      some (s.modify i fun r =>
        { r with place := .queued (handler P R theP), outcome := some R })
    | _ => none
  | .serve i =>
    match s.placeAt i with
    | some (.queued theP) => some (s.serve i theP)
    | _ => none
  | .unref i =>
    match s.placeAt i with
    | some (.running _) =>
      some ((s.modify i fun r =>
        { r with place := .done, released := r.released + 1 }).addRefs (-1))
    | _ => none
  | .idle i =>
    match s.placeAt i with
    | some .idle => some (s.modify i fun r => { r with place := .timer })
    | _ => none
  | .timer i =>
    match s.placeAt i with
    | some .timer =>
      some (s.modify i fun r =>
        if s.interpDeleted then { r with place := .done }
        else
          { r with
            place := .done
            replies := ⟨r.script, anyAddress, .success, .hostname anyAddress⟩ :: r.replies })
    | _ => none
  | .deleteInterp =>
    if s.interpDeleted then none
    else some ({ s with interpDeleted := true, scripts := fun _ _ => none }.addRefs (-1))

end Network

def machine (w : Nat) : Machine (Network w) Label where
  init s := s = .start
  step := Network.step P

end Lookups

end Twapi.Resolve
