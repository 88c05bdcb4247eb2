import Mathlib.Data.BitVec
import Twapi.Cert.Oids
import Twapi.Lib.Ledger
import Twapi.Lib.Traced

/-!
Verification of a certificate against a policy, `tcl/crypto.tcl`: `cert_verify`,
`cert_chain_build`, `cert_chain_simple_chain` and `cert_policy_params_tls`.

* `Options` are the variables that `parseargs` leaves; `Api` is what the commands of the
  extension answer, or the error they throw.
* Events are the calls of `CertVerifyChainPolicy` and the contexts that are acquired and
  released.
* `Faithful` — `ok` is returned only for a chain without revocation errors that the last of
  these calls accepted, with the flags that the options ask for; and every context is
  released once.
-/

namespace Twapi.Cert

open Lib (Traced Entry)
open Lib.Traced

abbrev DWORD := BitVec 32

abbrev Handle := Nat

/-! ### Bit masks -/

/-- An element of a symbolic bit mask: a symbol, or the bits that have none. -/
inductive BitSymbol where
  | symbol (name : String)
  | unknown (bits : DWORD)
deriving DecidableEq

def symbolBits (map : List (String × DWORD)) (bits : DWORD) : DWORD :=
  ((map.filter fun entry => bits &&& entry.2 ≠ 0).map Prod.snd).foldl (· ||| ·) 0

def makeSymbolicBitmask (map : List (String × DWORD)) (bits : DWORD) : List BitSymbol :=
  ((map.filter fun entry => bits &&& entry.2 ≠ 0).map fun entry => .symbol entry.1) ++
    if bits &&& ~~~symbolBits map bits ≠ 0 then [.unknown (bits &&& ~~~symbolBits map bits)] else []

def trustInfo : List (String × DWORD) :=
  [("hasexactmatchissuer", 0x00000001), ("haskeymatchissuer", 0x00000002),
   ("hasnamematchissuer", 0x00000004), ("isselfsigned", 0x00000008),
   ("haspreferredissuer", 0x00000100), ("hasissuancechainpolicy", 0x00000200),
   ("hasvalidnameconstraints", 0x00000400), ("ispeertrusted", 0x00000800),
   ("hascrlvalidityextended", 0x00001000), ("isfromexclusivetruststore", 0x00002000),
   ("iscomplexchain", 0x00010000)]

def mapTrustInfo : DWORD → List BitSymbol := makeSymbolicBitmask trustInfo

def trustErrors : List (String × DWORD) :=
  [("time", 1), ("revoked", 4), ("signature", 8), ("wrongusage", 0x10), ("untrustedroot", 0x20),
   ("revocationunknown", 0x40), ("trustcycle", 0x80), ("extension", 0x100), ("policy", 0x200),
   ("basiconstraints", 0x400), ("nameconstraints", 0x800),
   ("unsupportednameconstraint", 0x1000), ("undefinednameconstraint", 0x2000),
   ("unpermittednameconstraint", 0x4000), ("excludednameconstraint", 0x8000),
   ("revocationoffline", 0x01000000), ("noissuancechainpolicy", 0x02000000),
   ("distrust", 0x04000000), ("criticalextension", 0x08000000), ("weaksignature", 0x00100000),
   ("partialchain", 0x00010000), ("ctltime", 0x00020000), ("ctlsignature", 0x00040000),
   ("ctlusage", 0x00080000)]

def mapTrustError : DWORD → List BitSymbol := makeSymbolicBitmask trustErrors

def certVerifyErrors : List (DWORD × String) :=
  [(0x00000000, "ok"), (0x80096004, "signature"), (0x80092010, "revoked"),
   (0x800b0109, "untrustedroot"), (0x800b010d, "untrustedtestroot"), (0x800b010a, "partialchain"),
   (0x800b0110, "wrongusage"), (0x800b0101, "time"), (0x800b0114, "name"), (0x800b0113, "policy"),
   (0x80096019, "basicconstraints"), (0x800b0105, "criticalextension"),
   (0x800b0102, "validityperiodnesting"), (0x80092011, "norevocationdll"),
   (0x80092012, "norevocationcheck"), (0x80092013, "revocationoffline"), (0x800b010f, "cnmatch"),
   (0x800b0106, "purpose"), (0x800b010e, "revocationunknown"), (0x800b0103, "carole")]

/-- `format 0x%8.8x` -/
def formatDWORD (n : DWORD) : String :=
  let digits := Nat.toDigits 16 n.toNat
  String.ofList ('0' :: 'x' :: (List.replicate (8 - digits.length) '0' ++ digits))

def mapCertVerifyError (err : DWORD) : String :=
  (certVerifyErrors.lookup err).getD (formatDWORD err)

/-! ### Chains -/

inductive Context where
  | chain (h : Handle)
  | cert (h : Handle)
deriving DecidableEq

/-- The arguments of `CertGetCertificateChain`; `usageOp` is 0 where all the usages have
to match. -/
structure ChainRequest where
  engine : String
  hcert : Handle
  timestamp : String
  hstore : Option Handle
  usageOp : Nat
  usage : List String
  flags : DWORD
deriving DecidableEq

/-- The parameter of a policy. -/
inductive PolicyParams where
  | given (value : String)
  | tls (role : Nat) (checks : DWORD) (server : String)
  | empty
deriving DecidableEq

structure RawElement where
  hcert : Handle
  trustErrors : DWORD
  trustInfo : DWORD
  revocation : Option DWORD
  applicationUsage : Option (List String)
deriving DecidableEq

structure RawSimpleChain where
  trustErrors : DWORD
  trustInfo : DWORD
  chain : List RawElement
deriving DecidableEq

/-- `attempt` tells the two calls of a policy apart, which may differ in their answers. -/
structure Api where
  getCertificateChain (request : ChainRequest) : Except String Handle
  chainError (chain : Handle) : Except String DWORD
  verifyChainPolicy (attempt policy : Nat) (chain : Handle) (flags : DWORD)
    (params : PolicyParams) : Except String DWORD
  simpleChainCount (chain : Handle) : Except String Nat
  simpleChain (chain : Handle) (index : Nat) : Except String RawSimpleChain
  sha1Hash (cert : Handle) : Except String (List UInt8)

inductive Event where
  | policy (flags : DWORD) (answer : Option DWORD)
  | context (entry : Entry Context)
deriving DecidableEq

inductive Thrown where
  | badPolicy (policy : String)
  | badIsa (isa : String)
  | badIgnore (ignore policy : String)
  | badRevocationCheck (value : String)
  | extraArgs (args : List String)
  | bothUsages
  | badUsage (name : String)
  | noRoot
  | api (message : String)
deriving DecidableEq

def ofApi {α : Type} : Except String α → Except Thrown α
  | .ok a => .ok a
  | .error message => .error (.api message)

structure ChainOptions where
  cacheendcert : Bool
  disableauthrootautoupdate : Bool
  disablepass1qualityfiltering : Bool
  engine : String
  hstore : Option Handle
  returnlowerqualitycontexts : Bool
  revocationcheck : String
  revocationcheckcacheonly : Bool
  timestamp : String
  urlretrievalcacheonly : Bool
  usageall : Option (List String)
  usageany : Option (List String)
  /-- What is no option of `cert_chain_build`. -/
  leftover : List String
deriving DecidableEq

def revocationChecks : List (String × DWORD) :=
  [("none", 0), ("all", 0x20000000), ("leaf", 0x10000000), ("excluderoot", 0x40000000)]

def ChainOptions.flags (args : ChainOptions) (revocation : DWORD) : DWORD :=
  revocation ||| (if args.cacheendcert then 0x1 else 0) |||
    (if args.revocationcheckcacheonly then 0x80000000 else 0) |||
    (if args.urlretrievalcacheonly then 0x4 else 0) |||
    (if args.disablepass1qualityfiltering then 0x40 else 0) |||
    (if args.returnlowerqualitycontexts then 0x80 else 0) |||
    (if args.disableauthrootautoupdate then 0x100 else 0)

def ChainOptions.request (args : ChainOptions) (hcert : Handle) : Except Thrown ChainRequest :=
  match revocationChecks.lookup args.revocationcheck with
  | none => .error (.badRevocationCheck args.revocationcheck)
  | some revocation =>
    if args.leftover ≠ [] then .error (.extraArgs args.leftover)
    else
      let request usageOp usage : ChainRequest :=
        ⟨args.engine, hcert, args.timestamp, args.hstore, usageOp, usage, args.flags revocation⟩
      match args.usageall, args.usageany with
      | some _, some _ => .error .bothUsages
      | none, none => .ok (request 1 [])
      | some names, none =>
        match getEnhkeyUsageOids names with
        | .error name => .error (.badUsage name)
        | .ok oids => .ok (request 0 oids)
      | none, some names =>
        match getEnhkeyUsageOids names with
        | .error name => .error (.badUsage name)
        | .ok oids => .ok (request 1 oids)

def certChainBuild (api : Api) (hcert : Handle) (args : ChainOptions) : Except Thrown Handle :=
  match args.request hcert with
  | .error thrown => .error thrown
  | .ok request => ofApi (api.getCertificateChain request)

structure Element where
  hcert : Handle
  status : String
  trustErrors : List BitSymbol
  trustInfo : List BitSymbol
  revocation : Option String
  applicationUsage : Option (List String)
deriving DecidableEq

structure SimpleChain where
  status : String
  trustErrors : List BitSymbol
  trustInfo : List BitSymbol
  chain : List Element
deriving DecidableEq

def chainStatus (errors : List BitSymbol) : String := if errors ≠ [] then "fail" else "ok"

def RawElement.cook (e : RawElement) : Element where
  hcert := e.hcert
  status := chainStatus (mapTrustError e.trustErrors)
  trustErrors := mapTrustError e.trustErrors
  trustInfo := mapTrustInfo e.trustInfo
  revocation := (e.revocation.filter fun revocation => revocation ≠ 0).map mapCertVerifyError
  applicationUsage := e.applicationUsage.map certDecodeEnhkey

def RawSimpleChain.cook (raw : RawSimpleChain) : SimpleChain where
  status := chainStatus (mapTrustError raw.trustErrors)
  trustErrors := mapTrustError raw.trustErrors
  trustInfo := mapTrustInfo raw.trustInfo
  chain := raw.chain.map RawElement.cook

/-- The certificates of the chain are duplicated. -/
def certChainSimpleChain (api : Api) (hchain : Handle) (index : Nat) :
    Traced Event (Except Thrown SimpleChain) :=
  match api.simpleChain hchain index with
  | .error message => pure (.error (.api message))
  | .ok raw => do
      tellAll ((raw.chain.map fun e => Entry.acquire (.cert e.hcert)).map .context)
      pure (.ok raw.cook)

def certThumbprint (api : Api) (hcert : Handle) : Except Thrown String :=
  match api.sha1Hash hcert with
  | .error message => .error (.api message)
  | .ok hash => .ok (String.ofList
      (hash.flatMap fun b => [Nat.digitChar (b.toNat / 16), Nat.digitChar (b.toNat % 16)]))

/-! ### Options -/

/-- The flags that depend on the policy, the ignored errors, and the rest. -/
structure Options where
  ignoreerrors : List String
  policyparams : Option String
  trustedroots : Option (List Handle)
  server : Option String
  isa : Option String
  enabletestroot : Option Bool
  args : ChainOptions
deriving DecidableEq

def policyIds : List (String × Nat) :=
  [("authenticode", 2), ("authenticodets", 3), ("base", 1), ("basicconstraints", 5),
   ("extendedvalidation", 8), ("microsoftroot", 7), ("ntauth", 6), ("ssl", 4), ("tls", 4)]

/-- The words of an option, which stay where it is not taken. -/
def leftWords (taken : Bool) (words : List String) : List String := if taken then [] else words

/-- `parseargs` with the options of the policy: what is none of them stays among the
arguments. -/
def Options.taken (policyId : Nat) (o : Options) : Options where
  ignoreerrors := o.ignoreerrors
  policyparams := o.policyparams
  trustedroots := o.trustedroots
  server := o.server.filter fun _ => policyId = 4
  isa := o.isa.filter fun _ => policyId = 5 ∨ policyId = 6
  enabletestroot := o.enabletestroot.filter fun _ => policyId = 7
  args :=
    { o.args with
      leftover := o.args.leftover ++
        leftWords (policyId = 4) (o.server.toList.flatMap fun server => ["-server", server]) ++
        leftWords (policyId = 5 ∨ policyId = 6) (o.isa.toList.flatMap fun isa => ["-isa", isa]) ++
        leftWords (policyId = 7) (o.enabletestroot.toList.map fun _ => "-enabletestroot") }

/-- The usage that a policy asks for where the caller asks for none. -/
def defaultUsage (policy : String) (server : Option String) : Option (List String) :=
  if policy = "authenticodets" ∨ policy = "authenticode" then some ["code_signing"]
  else if policy = "ssl" ∨ policy = "tls" then
    if server.isSome then some ["server_auth"] else some ["client_auth"]
  else none

/-- The arguments of `cert_chain_build`. -/
def Options.chainArgs (policy : String) (o : Options) : ChainOptions :=
  let usageany :=
    if o.args.usageall.isNone && o.args.usageany.isNone then defaultUsage policy o.server
    else o.args.usageany
  { o.args with
    usageany
    revocationcheck := if "revocation" ∈ o.ignoreerrors then "none" else o.args.revocationcheck }

def ignoreOptions (policy : String) : List (String × DWORD) :=
  if policy = "basicconstraints" then []
  else
    [("time", 0x07), ("basicconstraints", 0x08), ("unknownca", 0x10), ("usage", 0x20), ("name", 0x40),
     ("policy", 0x80), ("revocation", 0xf00), ("criticalextensions", 0x2000)]

def ignoreFlag (policy ignore : String) : Option DWORD := (ignoreOptions policy).lookup ignore

def isaFlags (isa : Option String) : Except Thrown DWORD :=
  match isa with
  | none => .ok 0
  | some isa =>
    if isa = "ca" then .ok 0x80000000
    else if isa = "endentity" then .ok 0x40000000
    else .error (.badIsa isa)

/-- The loop over the errors to ignore. -/
def ignoreFlags (policy : String) : List String → DWORD → Except Thrown DWORD
  | [], flags => .ok flags
  | ignore :: rest, flags =>
    match ignoreFlag policy ignore with
    | none => .error (.badIgnore ignore policy)
    | some flag => ignoreFlags policy rest (flags ||| flag)

/-- The flag for the test root is set where the option is given, whatever its value. -/
def Options.verifyFlags (policy : String) (o : Options) : Except Thrown DWORD :=
  match isaFlags o.isa with
  | .error thrown => .error thrown
  | .ok flags =>
    ignoreFlags policy o.ignoreerrors
      (if o.enabletestroot.isSome then flags ||| 0x00010000 else flags)

def tlsIgnoreOptions : List (String × DWORD) :=
  [("time", 0x2000), ("unknownca", 0x100), ("usage", 0x200), ("name", 0x1000), ("revocation", 0x80)]

def certPolicyParamsTls (ignoreerrors : List String) (server : Option String) : PolicyParams :=
  .tls (if server.isSome then 2 else 1)
    (ignoreerrors.foldl (fun checks ignore => checks ||| (tlsIgnoreOptions.lookup ignore).getD 0) 0)
    (server.getD "")

def Options.params (policyId : Nat) (o : Options) : PolicyParams :=
  match o.policyparams with
  | some value => .given value
  | none => if policyId = 4 then certPolicyParamsTls o.ignoreerrors o.server else .empty

/-! ### `cert_verify` -/

/-- What the script that is trapped leaves: the variable `simple_chain`, and how it ends. -/
structure Ending where
  simpleChain : Option SimpleChain
  result : Except Thrown String

def verifyChainPolicy (api : Api) (attempt policyId : Nat) (chainh : Handle) (flags : DWORD)
    (params : PolicyParams) : Traced Event (Except Thrown DWORD) :=
  match api.verifyChainPolicy attempt policyId chainh flags params with
  | .error message => do
      tell (.policy flags none)
      pure (.error (.api message))
  | .ok status => do
      tell (.policy flags (some status))
      pure (.ok status)

/-- Whether one of the trusted roots has the thumbprint. -/
def matchesRoot (api : Api) (thumbprint : String) : List Handle → Except Thrown Bool
  | [] => .ok false
  | trusted :: rest =>
    match certThumbprint api trusted with
    | .error thrown => .error thrown
    | .ok print => if thumbprint = print then .ok true else matchesRoot api thumbprint rest

/-- Whether the only error of the chain is its root, which is trusted by the caller. -/
def rootTrusted (api : Api) (chain : SimpleChain) (trustedroots : List Handle) :
    Except Thrown Bool :=
  if chain.trustErrors = [.symbol "untrustedroot"] then
    match chain.chain.getLast? with
    | none => .error .noRoot
    | some root =>
      match certThumbprint api root.hcert with
      | .error thrown => .error thrown
      | .ok thumbprint => matchesRoot api thumbprint trustedroots
  else .ok false

/-- The policy is verified again where the root of the chain is trusted. -/
def recheck (api : Api) (policyId : Nat) (chainh : Handle) (flags : DWORD) (params : PolicyParams)
    (trustedroots : List Handle) (status : DWORD) (chain : SimpleChain) : Traced Event Ending :=
  match rootTrusted api chain trustedroots with
  | .error thrown => pure ⟨some chain, .error thrown⟩
  | .ok false => pure ⟨some chain, .ok (mapCertVerifyError status)⟩
  | .ok true => do
      match ← verifyChainPolicy api 1 policyId chainh (flags ||| 0x10) params with
      | .error thrown => pure ⟨some chain, .error thrown⟩
      | .ok status => pure ⟨some chain, .ok (mapCertVerifyError status)⟩

/-- The variable `simple_chain` is set. -/
def verifyAgain (api : Api) (policyId : Nat) (chainh : Handle) (flags : DWORD)
    (params : PolicyParams) (trustedroots : List Handle) (status : DWORD) :
    Traced Event Ending := do
  match ← certChainSimpleChain api chainh 0 with
  | .error thrown => pure ⟨none, .error thrown⟩
  | .ok chain => recheck api policyId chainh flags params trustedroots status chain

/-- From the first call of the policy on. -/
def verifyPolicy (api : Api) (policyId : Nat) (chainh : Handle) (flags : DWORD)
    (params : PolicyParams) (trustedroots : Option (List Handle)) : Traced Event Ending := do
  match ← verifyChainPolicy api 0 policyId chainh flags params with
  | .error thrown => pure ⟨none, .error thrown⟩
  | .ok status =>
    if status = 0x800b0109 ∧ trustedroots.getD [] ≠ [] then
      match api.simpleChainCount chainh with
      | .error message => pure ⟨none, .error (.api message)⟩
      | .ok count =>
        if count = 1 then
          verifyAgain api policyId chainh flags params (trustedroots.getD []) status
        else pure ⟨none, .ok (mapCertVerifyError status)⟩
    else pure ⟨none, .ok (mapCertVerifyError status)⟩

/-- The script that is trapped. -/
def trapped (api : Api) (policyId : Nat) (chainh : Handle) (flags : DWORD)
    (params : PolicyParams) (trustedroots : Option (List Handle)) : Traced Event Ending :=
  match api.chainError chainh with
  | .error message => pure ⟨none, .error (.api message)⟩
  | .ok bits =>
    let errors := mapTrustError bits
    if .symbol "revoked" ∈ errors then pure ⟨none, .ok "revoked"⟩
    else if .symbol "revocationoffline" ∈ errors then pure ⟨none, .ok "revocationoffline"⟩
    else if .symbol "revocationunknown" ∈ errors then pure ⟨none, .ok "revocationunknown"⟩
    else verifyPolicy api policyId chainh flags params trustedroots

/-- The script that comes finally. -/
def releaseAll (chainh : Handle) (simpleChain : Option SimpleChain) : Traced Event Unit := do
  tellAll (((simpleChain.elim [] SimpleChain.chain).map fun e => Entry.release (.cert e.hcert)).map
    .context)
  tell (.context (.release (.chain chainh)))

def certVerify (api : Api) (hcert : Handle) (policy : String) (options : Options) :
    Traced Event (Except Thrown String) :=
  match policyIds.lookup policy with
  | none => pure (.error (.badPolicy policy))
  | some policyId =>
    let o := options.taken policyId
    match o.verifyFlags policy with
    | .error thrown => pure (.error thrown)
    | .ok flags =>
      match certChainBuild api hcert (o.chainArgs policy) with
      | .error thrown => pure (.error thrown)
      | .ok chainh => do
          tell (.context (.acquire (.chain chainh)))
          let ending ← trapped api policyId chainh flags (o.params policyId) o.trustedroots
          releaseAll chainh ending.simpleChain
          pure ending.result

end Twapi.Cert
