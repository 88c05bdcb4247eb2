import Twapi.Lib.Traced

/-!
Verification of signed messages, `crypto/crypto.c`:
`Twapi_CryptVerifyMessageSignatureObjCmd`, `Twapi_CryptVerifyMessageSignatureWithKeyObjCmd`
and `Twapi_CryptVerifyDetachedMessageSignatureObjCmd`.

* `Api` is what CryptoAPI answers; `Env` is whether a variable can be set.
* Events are the calls of CryptoAPI with their answers, the variables that are set,
  and the certificates that are freed.
* `verified` is what CryptoAPI reported: the answer of its last call.
* `Faithful` — a command succeeds where the signature was verified and only there, and
  sets variables only there. The three `…_faithful_iff` say for which calls it is so.
-/

namespace Twapi.Crypto

open Lib (Traced)
open Lib.Traced

abbrev Bytes := List UInt8

/-- The size of the content, the content where there was a buffer for it, and the
certificate of the signer. -/
structure Reply (Cert : Type) where
  nout : Nat
  content : Bytes
  cert : Cert
deriving DecidableEq

/-- Answers of CryptoAPI, or the error that `GetLastError` gives. `out` is the size of
the buffer that was passed. -/
structure Api (Para Key Cert : Type) where
  verifyMessage (para : Para) (signer : Int) (message : Bytes) (out : Option Nat) :
    Except Nat (Reply Cert)
  verifyWithKey (key : Key) (message : Bytes) (out : Option Nat) : Except Nat Bytes
  verifyDetached (para : Para) (signer : Int) (signature : Bytes) (pieces : List Bytes) :
    Except Nat Cert

inductive Event (Cert : Type) where
  | verify (ok : Bool)
  | setContent (var : String) (content : Bytes)
  /-- `none` is a pointer that was never set. -/
  | setCert (var : String) (cert : Option Cert)
  | freeCert (cert : Option Cert)
deriving DecidableEq

/-- Whether the variable for the content, and then that for the certificate, can be
set. -/
structure Env where
  setsContent : Bool
  setsCert : Bool
deriving DecidableEq

/-- `TCL_ERROR`, or `TCL_OK` with a result where there is one. -/
inductive Outcome where
  | error
  | ok (value : Option Nat)
deriving DecidableEq

/-- `TCL_OK`, and 0 where a status is returned. -/
def Outcome.success : Outcome → Bool
  | .error => false
  | .ok value => value.all (· == 0)

/-- A name of a variable that is given and not empty. -/
def wanted (var : Option String) : Option String := var.filter fun name => name ≠ ""

def nteBadSignature : Nat := 0x80090006

def nteBadAlgid : Nat := 0x80090008

variable {Para Key Cert : Type}

/-! ### Commands -/

/-- `system_error` and `error_return`. A certificate that was got is freed. -/
def systemError (winerr : Nat) (cert : Option Cert) : Traced (Event Cert) Outcome :=
  if winerr = nteBadSignature ∨ winerr = nteBadAlgid then pure (.ok (some winerr))
  else do
    tellAll (cert.toList.map fun c => .freeCert (some c))
    pure .error

def errorReturn (cert : Option Cert) : Traced (Event Cert) Outcome := do
  tellAll (cert.toList.map fun c => .freeCert (some c))
  pure .error

/-- The arguments of `CryptVerifyMessageSignature`; `para` is none where they cannot be
read. -/
structure MessageArgs (Para : Type) where
  para : Option Para
  signer : Int
  message : Bytes
  contentVar : Option String
  certVar : Option String

/-- The certificate is put into its variable, and the status is 0. -/
def returnCert (env : Env) (certVar : Option String) (cert : Cert) :
    Traced (Event Cert) Outcome :=
  match wanted certVar with
  | none => pure (.ok (some 0))
  | some var =>
    if env.setsCert then do
      tell (.setCert var (some cert))
      pure (.ok (some 0))
    else errorReturn (some cert)

/-- `certPP` is null unless the certificate is wanted. -/
def gotCert (certVar : Option String) (cert : Cert) : Option Cert :=
  (wanted certVar).map fun _ => cert

def twapiCryptVerifyMessageSignature (api : Api Para Key Cert) (env : Env)
    (args : MessageArgs Para) : Traced (Event Cert) Outcome :=
  match args.para with
  | none => pure .error
  | some para =>
    match api.verifyMessage para args.signer args.message none with
    | .error winerr => do
        tell (.verify false)
        systemError winerr none
    | .ok sized => do
        tell (.verify true)
        if sized.nout = 0 then errorReturn (gotCert args.certVar sized.cert)
        else
          match wanted args.contentVar with
          | none => returnCert env args.certVar sized.cert
          | some var =>
            match api.verifyMessage para args.signer args.message (some sized.nout) with
            | .error winerr => do
                tell (.verify false)
                systemError winerr (gotCert args.certVar sized.cert)
            | .ok reply => do
                tell (.verify true)
                if env.setsContent then
                  tell (.setContent var reply.content)
                  returnCert env args.certVar reply.cert
                else errorReturn (gotCert args.certVar reply.cert)

/-- The arguments of `CryptVerifyMessageSignatureWithKey`. -/
structure KeyArgs (Key : Type) where
  key : Option Key
  message : Bytes
  contentVar : Option String

/-- Here also a variable with an empty name is set. -/
def twapiCryptVerifyMessageSignatureWithKey (api : Api Para Key Cert) (env : Env)
    (args : KeyArgs Key) : Traced (Event Cert) Outcome :=
  match args.key with
  | none => pure .error
  | some key =>
    match api.verifyWithKey key args.message (args.contentVar.map fun _ => args.message.length) with
    | .error _ => do
        tell (.verify false)
        pure .error
    | .ok content => do
        tell (.verify true)
        match args.contentVar with
        | none => pure (.ok none)
        | some var =>
          if env.setsContent then
            tell (.setContent var content)
            pure (.ok none)
          else pure .error

/-- The arguments of `CryptVerifyDetachedMessageSignature`. -/
structure DetachedArgs (Para : Type) where
  para : Option Para
  signer : Int
  signature : Bytes
  pieces : List Bytes
  certVar : Option String

/-- What follows where CryptoAPI answered false: the certificate was never set. -/
def returnDetachedCert (env : Env) (certVar : Option String) (cert : Option Cert) :
    Traced (Event Cert) Outcome :=
  match wanted certVar with
  | none => pure (.ok none)
  | some var =>
    if env.setsCert then do
      tell (.setCert var cert)
      pure (.ok none)
    else do
      tell (.freeCert cert)
      pure .error

/-- The answer is taken for an error where it is true. -/
def twapiCryptVerifyDetachedMessageSignature (api : Api Para Key Cert) (env : Env)
    (args : DetachedArgs Para) : Traced (Event Cert) Outcome :=
  match args.para with
  | none => pure .error
  | some para =>
    if args.pieces = [] then pure .error
    else
      match api.verifyDetached para args.signer args.signature args.pieces with
      | .ok _ => do
          tell (.verify true)
          pure .error
      | .error _ => do
          tell (.verify false)
          returnDetachedCert env args.certVar none

/-! ### What was reported, and what was done -/

def Event.answer : Event Cert → Option Bool
  | .verify ok => some ok
  | _ => none

/-- The last answer. -/
def verified (events : List (Event Cert)) : Bool := (events.filterMap Event.answer).getLast? = some true

def Event.sets : Event Cert → Bool
  | .setContent _ _ | .setCert _ _ => true
  | _ => false

/-- Success where the signature was verified and only there, and variables are set only
there. -/
def Faithful (x : Traced (Event Cert) Outcome) : Prop :=
  (x.result.success ↔ verified x.events) ∧ (x.events.any Event.sets → verified x.events)

/-! ### The three commands -/

inductive Command (Para Key : Type) where
  | message (args : MessageArgs Para)
  | withKey (args : KeyArgs Key)
  | detached (args : DetachedArgs Para)

def Command.run (api : Api Para Key Cert) (env : Env) :
    Command Para Key → Traced (Event Cert) Outcome
  | .message args => twapiCryptVerifyMessageSignature api env args
  | .withKey args => twapiCryptVerifyMessageSignatureWithKey api env args
  | .detached args => twapiCryptVerifyDetachedMessageSignature api env args

/-- The certificate is not wanted, or its variable can be set. -/
def CertSettable (env : Env) (certVar : Option String) : Prop :=
  (wanted certVar).isSome → env.setsCert

/-- A message that is verified has content, and what is wanted of it can be put into
variables. -/
def MessageArgs.Keeps (api : Api Para Key Cert) (env : Env) (args : MessageArgs Para) : Prop :=
  match args.para with
  | none => True
  | some para =>
    match api.verifyMessage para args.signer args.message none with
    | .error _ => True
    | .ok sized => sized.nout ≠ 0 ∧
        match wanted args.contentVar with
        | none => CertSettable env args.certVar
        | some _ =>
          match api.verifyMessage para args.signer args.message (some sized.nout) with
          | .error _ => True
          | .ok _ => env.setsContent ∧ CertSettable env args.certVar

/-- Where the message is verified, the variable for the content can be set. -/
def KeyArgs.Keeps (api : Api Para Key Cert) (env : Env) (args : KeyArgs Key) : Prop :=
  match args.key with
  | none => True
  | some key =>
    match api.verifyWithKey key args.message (args.contentVar.map fun _ => args.message.length) with
    | .error _ => True
    | .ok _ => args.contentVar.isSome → env.setsContent

/-- CryptoAPI is not asked, or the signature is not verified and the certificate cannot
be put into its variable. -/
def DetachedArgs.Keeps (api : Api Para Key Cert) (env : Env) (args : DetachedArgs Para) : Prop :=
  match args.para with
  | none => True
  | some para => args.pieces = [] ∨
      match api.verifyDetached para args.signer args.signature args.pieces with
      | .ok _ => False
      | .error _ => ¬ CertSettable env args.certVar

def Command.Keeps (api : Api Para Key Cert) (env : Env) : Command Para Key → Prop
  | .message args => args.Keeps api env
  | .withKey args => args.Keeps api env
  | .detached args => args.Keeps api env

/-! ### When they are faithful -/

/-- What comes after the last answer. -/
theorem verified_append {es later : List (Event Cert)}
    (quiet : later.filterMap Event.answer = []) : verified (es ++ later) = verified es := by
  unfold verified
  rw [List.filterMap_append, quiet, List.append_nil]

section Leaves

variable {x : Traced (Event Cert) Outcome}

theorem faithful_of_verified (yes : verified x.events = true) :
    Faithful x ↔ x.result.success = true := by
  unfold Faithful
  rw [yes]
  simp

theorem faithful_of_refused (no : verified x.events = false) (fails : x.result.success = false)
    (sets : x.events.any Event.sets = false) : Faithful x := by
  unfold Faithful
  rw [no, fails, sets]
  simp

theorem not_faithful_of_refused (no : verified x.events = false)
    (accepts : x.result.success = true) : ¬ Faithful x := by
  unfold Faithful
  rw [no, accepts]
  simp

end Leaves

theorem systemError_success (winerr : Nat) (cert : Option Cert) :
    (systemError winerr cert).result.success = false := by
  unfold systemError
  split
  · rename_i bad
    obtain rfl | rfl := bad <;> rfl
  · rfl

/-- An error of the call itself is never a success, and sets nothing. -/
theorem faithful_systemError (es : List (Event Cert)) (winerr : Nat) (cert : Option Cert)
    (no : verified es = false) (sets : es.any Event.sets = false) :
    Faithful ⟨(systemError winerr cert).result, es ++ (systemError winerr cert).events⟩ := by
  have later : (systemError winerr cert).events.filterMap Event.answer = [] ∧
      (systemError winerr cert).events.any Event.sets = false := by
    unfold systemError
    split
    · exact ⟨rfl, rfl⟩
    · cases cert with
      | none => exact ⟨rfl, rfl⟩
      | some c => exact ⟨rfl, rfl⟩
  refine faithful_of_refused ?_ (systemError_success winerr cert) ?_
  · exact (verified_append later.1).trans no
  · rw [List.any_append, sets, later.2]
    rfl

/-- An error after the message was verified. -/
theorem not_faithful_errorReturn (es : List (Event Cert)) (cert : Option Cert)
    (yes : verified es = true) :
    ¬ Faithful ⟨(errorReturn cert).result, es ++ (errorReturn cert).events⟩ := by
  have quiet : (errorReturn cert).events.filterMap Event.answer = [] := by
    cases cert with
    | none => rfl
    | some c => rfl
  rw [faithful_of_verified ((verified_append quiet).trans yes)]
  nofun

theorem faithful_returnCert_iff (es : List (Event Cert)) (env : Env) (certVar : Option String)
    (cert : Cert) (yes : verified es = true) :
    Faithful ⟨(returnCert env certVar cert).result, es ++ (returnCert env certVar cert).events⟩ ↔
      CertSettable env certVar := by
  have quiet : (returnCert env certVar cert).events.filterMap Event.answer = [] := by
    unfold returnCert
    split
    · rfl
    · split <;> rfl
  rw [faithful_of_verified ((verified_append quiet).trans yes)]
  unfold returnCert CertSettable
  cases wanted certVar with
  | none => exact iff_of_true rfl nofun
  | some var =>
    by_cases sets : env.setsCert
    · dsimp only
      rw [if_pos sets]
      exact iff_of_true rfl fun _ => sets
    · dsimp only
      rw [if_neg sets]
      exact iff_of_false nofun fun settable => sets (settable rfl)

theorem message_faithful_iff (api : Api Para Key Cert) (env : Env) (args : MessageArgs Para) :
    Faithful (twapiCryptVerifyMessageSignature api env args) ↔ args.Keeps api env := by
  unfold twapiCryptVerifyMessageSignature MessageArgs.Keeps
  cases args.para with
  | none => exact iff_of_true (faithful_of_refused rfl rfl rfl) trivial
  | some para =>
    dsimp only
    cases api.verifyMessage para args.signer args.message none with
    | error winerr =>
      exact iff_of_true (faithful_systemError [.verify false] winerr none rfl rfl) trivial
    | ok sized =>
      dsimp only
      by_cases empty : sized.nout = 0
      · rw [if_pos empty]
        exact iff_of_false (not_faithful_errorReturn [.verify true] _ rfl) fun keeps => keeps.1 empty
      · rw [if_neg empty, and_iff_right empty]
        cases wanted args.contentVar with
        | none => exact faithful_returnCert_iff [.verify true] env args.certVar sized.cert rfl
        | some var =>
          dsimp only
          cases api.verifyMessage para args.signer args.message (some sized.nout) with
          | error winerr =>
            exact iff_of_true (faithful_systemError [.verify true, .verify false] winerr _ rfl
              rfl) trivial
          | ok reply =>
            dsimp only
            by_cases sets : env.setsContent
            · rw [if_pos sets, and_iff_right sets]
              exact faithful_returnCert_iff
                [.verify true, .verify true, .setContent var reply.content] env args.certVar
                reply.cert rfl
            · rw [if_neg sets]
              exact iff_of_false
                (not_faithful_errorReturn [.verify true, .verify true] _ rfl)
                fun keeps => sets keeps.1

theorem withKey_faithful_iff (api : Api Para Key Cert) (env : Env) (args : KeyArgs Key) :
    Faithful (twapiCryptVerifyMessageSignatureWithKey api env args) ↔ args.Keeps api env := by
  unfold twapiCryptVerifyMessageSignatureWithKey KeyArgs.Keeps
  cases args.key with
  | none => exact iff_of_true (faithful_of_refused rfl rfl rfl) trivial
  | some key =>
    dsimp only
    cases api.verifyWithKey key args.message (args.contentVar.map fun _ => args.message.length) with
    | error winerr => exact iff_of_true (faithful_of_refused rfl rfl rfl) trivial
    | ok content =>
      cases args.contentVar with
      | none => exact iff_of_true ((faithful_of_verified rfl).mpr rfl) nofun
      | some var =>
        dsimp only
        by_cases sets : env.setsContent
        · rw [if_pos sets]
          exact iff_of_true ((faithful_of_verified rfl).mpr rfl) fun _ => sets
        · rw [if_neg sets]
          exact iff_of_false (fun faithful => nomatch (faithful_of_verified rfl).mp faithful)
            fun keeps => sets (keeps rfl)

/-- What CryptoAPI refuses is accepted, unless the variable cannot be set, and what it
verifies is refused. -/
theorem detached_faithful_iff (api : Api Para Key Cert) (env : Env) (args : DetachedArgs Para) :
    Faithful (twapiCryptVerifyDetachedMessageSignature api env args) ↔ args.Keeps api env := by
  unfold twapiCryptVerifyDetachedMessageSignature DetachedArgs.Keeps
  cases args.para with
  | none => exact iff_of_true (faithful_of_refused rfl rfl rfl) trivial
  | some para =>
    dsimp only
    by_cases empty : args.pieces = []
    · rw [if_pos empty]
      exact iff_of_true (faithful_of_refused rfl rfl rfl) (.inl empty)
    · rw [if_neg empty, or_iff_right empty]
      cases api.verifyDetached para args.signer args.signature args.pieces with
      | ok cert =>
        exact iff_of_false (fun faithful => nomatch (faithful_of_verified rfl).mp faithful) id
      | error winerr =>
        unfold returnDetachedCert CertSettable
        cases wanted args.certVar with
        | none => exact iff_of_false (not_faithful_of_refused rfl rfl) fun keeps => keeps nofun
        | some var =>
          by_cases sets : env.setsCert
          · dsimp only
            rw [if_pos sets]
            exact iff_of_false (not_faithful_of_refused rfl rfl)
              fun keeps => keeps fun _ => sets
          · dsimp only
            rw [if_neg sets]
            exact iff_of_true (faithful_of_refused rfl rfl rfl)
              fun settable => sets (settable rfl)

theorem verify_faithful_iff (api : Api Para Key Cert) (env : Env) (command : Command Para Key) :
    Faithful (command.run api env) ↔ command.Keeps api env := by
  cases command with
  | message args => exact message_faithful_iff api env args
  | withKey args => exact withKey_faithful_iff api env args
  | detached args => exact detached_faithful_iff api env args

/-! ### A forged signature -/

/-- A CryptoAPI that verifies nothing. -/
def refusing : Api Unit Unit Unit :=
  ⟨fun _ _ _ _ => .error nteBadSignature, fun _ _ _ => .error nteBadSignature,
    fun _ _ _ _ => .error nteBadSignature⟩

/-- A detached signature that CryptoAPI refuses is accepted, and a certificate that was
never set is put into the variable. -/
theorem detached_accepts_forged :
    ¬ Faithful (Command.run refusing ⟨true, true⟩
      (.detached ⟨some (), 0, [1], [[2]], some "cert"⟩)) := by
  rintro ⟨success, -⟩
  exact absurd (success.mp (by decide)) (by decide)

end Twapi.Crypto
