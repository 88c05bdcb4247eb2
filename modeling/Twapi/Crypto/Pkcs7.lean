import Twapi.Crypto.VerifyMessage
import Twapi.Lib.Results

/-!
`pkcs7_verify` of `tcl/crypto.tcl`, over `CryptVerifyMessageSignature`.

* Variables of the caller are by their names; a variable of the procedure has a value or
  is a link to one of the caller's.
* Each verification that succeeds gives a certificate context; `held` is how many there
  are more than were freed.
* `Framed` — only the two variables are changed, and no context is lost.
* `pkcs7_verify_framed_iff` — when it is so.
-/

namespace Twapi.Crypto.Pkcs7

open Lib (Traced)
open Lib.Traced

variable {Para Key Cert : Type}

/-! ### Variables -/

inductive Value (Cert : Type) where
  | text (s : String)
  | content (bytes : Bytes)
  | cert (c : Cert)
deriving DecidableEq

inductive Slot (Cert : Type) where
  | value (v : Value Cert)
  | link (name : String)
deriving DecidableEq

structure State (Cert : Type) where
  caller : String → Option (Value Cert)
  locals : String → Option (Slot Cert)
  held : Int

/-- Which variables of the caller can be linked to, and which can be set. -/
structure Scope where
  canLink : String → Bool
  canSet : String → Bool

abbrev M (Cert : Type) := ExceptT Unit (StateM (State Cert))

variable (scope : Scope)

def State.canSet (s : State Cert) (name : String) : Bool :=
  match s.locals name with
  | some (.link other) => scope.canSet other
  | _ => true

/-- `set`, where it can be -/
def State.set (s : State Cert) (name : String) (v : Value Cert) : State Cert :=
  match s.locals name with
  | some (.link other) => { s with caller := Function.update s.caller other (some v) }
  | _ => { s with locals := Function.update s.locals name (some (.value v)) }

def setVar (name : String) (v : Value Cert) : M Cert Unit := fun s =>
  if s.canSet scope name then (.ok (), s.set name v) else (.error (), s)

/-- `upvar 1` -/
def upvar (other name : String) : M Cert Unit := fun s =>
  match s.locals name with
  | some (.value _) => (.error (), s)
  | _ =>
    if scope.canLink other then
      (.ok (), { s with locals := Function.update s.locals name (some (.link other)) })
    else (.error (), s)

def unset (name : String) : M Cert Unit := fun s =>
  (.ok (), { s with locals := Function.update s.locals name none })

/-! ### The procedure -/

structure Options where
  contentvar : String
  certvar : String
deriving DecidableEq

/-- What the command does, to the variables that it is given. -/
def State.apply (s : State Cert) : Event Cert → State Cert
  | .verify true => { s with held := s.held + 1 }
  | .verify false => s
  | .setContent var content => s.set var (.content content)
  | .setCert var (some cert) => s.set var (.cert cert)
  | .setCert _ none => s
  | .freeCert _ => { s with held := s.held - 1 }

/-- `CryptVerifyMessageSignature ... $contentvar hcert` -/
def cryptVerifyMessageSignature (api : Api Para Key Cert) (para : Para) (message : Bytes)
    (contentvar : String) : M Cert (Option Nat) := fun s =>
  let x := twapiCryptVerifyMessageSignature api ⟨s.canSet scope contentvar, true⟩
    ⟨some para, 0, message, some contentvar, some "hcert"⟩
  let s := x.events.foldl State.apply s
  match x.result with
  | .error => (.error (), s)
  | .ok status => (.ok status, s)

/-- The value of the variable `hcert`; it is a certificate where it exists. -/
def hcert : M Cert Cert := fun s =>
  match s.locals "hcert" with
  | some (.value (.cert cert)) => (.ok cert, s)
  | _ => (.error (), s)

/-- The body of the `trap` -/
def verifyCert (certVerify : Cert → Except Unit String) (contentvar certvar : String) :
    M Cert String := do
  let cert ← hcert
  let status ← (fun s => (certVerify cert, s) : M Cert String)
  if status = "ok" then
    if certvar ≠ "" then
      upvar scope certvar "cert"
      setVar scope "cert" (.cert cert)
      unset "hcert"
    if contentvar ≠ "" then
      upvar scope contentvar "con"
      setVar scope "con" (.text "content")
  pure status

/-- Its `finally` -/
def releaseCert (s : State Cert) : State Cert :=
  if (s.locals "hcert").isSome then { s with held := s.held - 1 } else s

/-- Other codes do not occur. -/
def statusName (code : Nat) : String :=
  if code = nteBadSignature then "signature"
  else if code = nteBadAlgid then "invalidalgorithm"
  else toString code

/-- `pkcs7_verify`; `message` is what `_pem_decode` makes of the bytes. -/
def pkcs7Verify (api : Api Para Key Cert) (para : Para) (certVerify : Cert → Except Unit String)
    (message : Except Unit Bytes) (options : Options) : M Cert String := do
  if options.contentvar ≠ "" then
    upvar scope options.contentvar "content"
  let contentvar := if options.contentvar ≠ "" then "content" else ""
  let message ← (fun s => (message, s) : M Cert Bytes)
  let status ← cryptVerifyMessageSignature scope api para message contentvar
  if status = some 0 then
    fun s =>
      let x := verifyCert scope certVerify contentvar options.certvar s
      (x.1, releaseCert x.2)
  else pure (statusName (status.getD 0))

def start (caller : String → Option (Value Cert)) : State Cert := ⟨caller, fun _ => none, 0⟩

/-! ### What is asked for -/

/-- The content that CryptoAPI gives -/
def Signed (api : Api Para Key Cert) (para : Para) (message : Except Unit Bytes)
    (bytes : Bytes) : Prop :=
  ∃ text sized reply, message = .ok text ∧ api.verifyMessage para 0 text none = .ok sized ∧
    api.verifyMessage para 0 text (some sized.nout) = .ok reply ∧ reply.content = bytes

/-- No variable of the caller but the two is changed; with `ok` they hold the content and a
certificate that is the caller's, and otherwise no certificate is held. -/
structure Framed (caller : String → Option (Value Cert)) (signed : Bytes → Prop)
    (options : Options) (x : Except Unit String × State Cert) : Prop where
  frame : ∀ name, name = "" ∨ name ≠ options.contentvar ∧ name ≠ options.certvar →
    x.2.caller name = caller name
  content : x.1 = .ok "ok" → options.contentvar ≠ "" →
    ∃ bytes, signed bytes ∧ x.2.caller options.contentvar = some (.content bytes)
  cert : x.1 = .ok "ok" → options.certvar ≠ "" →
    x.2.held = 1 ∧ ∃ c, x.2.caller options.certvar = some (.cert c)
  released : ¬ (x.1 = .ok "ok" ∧ options.certvar ≠ "") → x.2.held = 0

/-- The content is not wanted or cannot be linked to, or the message is not verified, or has
no content, or is refused in the second call with an error that is none of the two codes. -/
def Keeps (api : Api Para Key Cert) (para : Para) (message : Except Unit Bytes)
    (options : Options) : Prop :=
  options.contentvar = "" ∨ scope.canLink options.contentvar = false ∨
    match message with
    | .error _ => True
    | .ok text =>
      match api.verifyMessage para 0 text none with
      | .error _ => True
      | .ok sized => sized.nout = 0 ∨
          match api.verifyMessage para 0 text (some sized.nout) with
          | .error winerr => winerr ≠ nteBadSignature ∧ winerr ≠ nteBadAlgid
          | .ok _ => False

/-! ### The command -/

/-- Errors whose code is returned as a status -/
abbrev IsStatus (winerr : Nat) : Prop := winerr = nteBadSignature ∨ winerr = nteBadAlgid

/-- Both calls get a certificate where they succeed; one is set or freed. -/
theorem cryptVerifyMessageSignature_eq (api : Api Para Key Cert) (para : Para) (message : Bytes)
    (contentvar : String) (s : State Cert) :
    cryptVerifyMessageSignature scope api para message contentvar s =
      match api.verifyMessage para 0 message none with
      | .error winerr => (if IsStatus winerr then .ok (some winerr) else .error (), s)
      | .ok sized =>
        if sized.nout = 0 then (.error (), s)
        else if contentvar = "" then
          (.ok (some 0), { s with held := s.held + 1 }.set "hcert" (.cert sized.cert))
        else
          match api.verifyMessage para 0 message (some sized.nout) with
          | .error winerr =>
            if IsStatus winerr then (.ok (some winerr), { s with held := s.held + 1 })
            else (.error (), s)
          | .ok reply =>
            if s.canSet scope contentvar then
              (.ok (some 0), ({ s with held := s.held + 2 }.set contentvar
                (.content reply.content)).set "hcert" (.cert reply.cert))
            else (.error (), { s with held := s.held + 1 }) := by
  have one (h : Int) : h + 1 - 1 = h := by omega
  have two (h : Int) : h + 1 + 1 = h + 2 := by omega
  have cert : wanted (some "hcert") = some "hcert" := by decide
  have none_ : wanted (some "") = none := by decide
  unfold cryptVerifyMessageSignature twapiCryptVerifyMessageSignature
  cases first : api.verifyMessage para 0 message none with
  | error winerr =>
    by_cases bad : IsStatus winerr <;> simp [first, systemError, bad, State.apply]
  | ok sized =>
    by_cases empty : sized.nout = 0
    · simp [first, errorReturn, gotCert, cert, State.apply, empty, one]
    · by_cases plain : contentvar = ""
      · subst plain
        simp [first, none_, cert, State.apply, empty, returnCert]
      · have content : wanted (some contentvar) = some contentvar := by simp [wanted, plain]
        cases second : api.verifyMessage para 0 message (some sized.nout) with
        | error winerr =>
          by_cases bad : IsStatus winerr <;>
            simp [first, second, gotCert, cert, content, State.apply, empty, plain,
              systemError, bad, one]
        | ok reply =>
          have back (h : Int) : h + 2 - 1 = h + 1 := by omega
          by_cases sets : s.canSet scope contentvar = true <;>
            simp [first, second, gotCert, cert, content, State.apply, empty, plain,
              returnCert, errorReturn, sets, two, back]

/-! ### Ends of the procedure -/

section
variable {scope} {caller : String → Option (Value Cert)} {signed : Bytes → Prop}
  {options : Options} {x : Except Unit String × State Cert}

/-- An end before anything was got. -/
theorem framed_of_kept (same : x.2.caller = caller) (none_ : x.2.held = 0)
    (fails : x.1 ≠ .ok "ok") : Framed caller signed options x where
  frame name _ := by rw [same]
  content ok := absurd ok fails
  cert ok := absurd ok fails
  released _ := none_

/-- A certificate that is left. -/
theorem not_framed_of_held (held : x.2.held ≠ 0)
    (left : x.1 = .ok "ok" → options.certvar ≠ "" → x.2.held ≠ 1) :
    ¬ Framed caller signed options x := by
  intro framed
  by_cases ended : x.1 = .ok "ok" ∧ options.certvar ≠ ""
  · exact left ended.1 ended.2 (framed.cert ended.1 ended.2).1
  · exact held (framed.released ended)

end

/-! ### The `trap` and its `finally` -/

/-- From `set status [cert_verify ...]` to the end -/
abbrev trapped (certVerify : Cert → Except Unit String) (contentvar certvar : String) :
    M Cert String := fun s =>
  let x := verifyCert scope certVerify contentvar certvar s
  (x.1, releaseCert x.2)

section Trap

variable {scope} {certVerify : Cert → Except Unit String} {certvar : String} {s : State Cert}
  {c : Cert}

/-- Where the content is not wanted, the certificate is either in the variable of the
caller or released. -/
theorem framed_trapped {caller : String → Option (Value Cert)} {signed : Bytes → Prop}
    (got : s.locals "hcert" = some (.value (.cert c))) (fresh : s.locals "cert" = none)
    (same : s.caller = caller) (one : s.held = 1) :
    Framed caller signed ⟨"", certvar⟩ (trapped scope certVerify "" certvar s) := by
  have release : s.held - 1 = 0 := by omega
  cases verified : certVerify c with
  | error e =>
    refine framed_of_kept ?_ ?_ ?_ <;>
      simp [verifyCert, Lib.stateM_bind, hcert, got, verified, releaseCert, same, release]
  | ok status =>
    by_cases ok : status = "ok"
    · subst ok
      by_cases plain : certvar = ""
      · subst plain
        have ends : trapped scope certVerify "" "" s = (.ok "ok", { s with held := 0 }) := by
          simp [trapped, verifyCert, Lib.stateM_bind, hcert, got, verified, releaseCert,
            release]
        rw [ends]
        exact ⟨fun _ _ => congrFun same _, fun _ wanted => absurd rfl wanted,
          fun _ wanted => absurd rfl wanted, fun _ => rfl⟩
      · by_cases links : scope.canLink certvar = true
        · by_cases sets : scope.canSet certvar = true
          · have ends : trapped scope certVerify "" certvar s =
                (.ok "ok", ⟨Function.update s.caller certvar (some (.cert c)),
                  Function.update (Function.update s.locals "cert" (some (.link certvar)))
                    "hcert" none, s.held⟩) := by
              simp [trapped, verifyCert, Lib.stateM_bind, Lib.stateM_map, hcert, got, verified,
                plain, upvar, fresh, links, setVar, State.canSet, State.set, sets, unset,
                releaseCert]
            rw [ends]
            refine ⟨fun name other => ?_, fun _ wanted => absurd rfl wanted, fun _ _ => ?_,
              fun left => absurd ⟨rfl, plain⟩ left⟩
            · have other : name ≠ certvar := by
                obtain rfl | ⟨-, other⟩ := other
                · exact fun h => plain h.symm
                · exact other
              rw [← same]
              exact Function.update_of_ne other _ _
            · exact ⟨one, c, Function.update_self _ _ _⟩
          · refine framed_of_kept ?_ ?_ ?_ <;>
              simp [verifyCert, Lib.stateM_bind, hcert, got, verified, plain, upvar,
                fresh, links, setVar, State.canSet, sets, releaseCert, same, release]
        · refine framed_of_kept ?_ ?_ ?_ <;>
            simp [verifyCert, Lib.stateM_bind, hcert, got, verified, plain, upvar,
              fresh, links, releaseCert, same, release]
    · refine framed_of_kept ?_ ?_ ?_ <;>
        simp [verifyCert, Lib.stateM_bind, Lib.stateM_pure, hcert, got, verified, ok,
          releaseCert, same, release]

variable (scope certVerify certvar s) in
/-- One certificate at most is released, and none where the caller gets one. -/
theorem held_trapped {contentvar : String} (wanted : contentvar ≠ "")
    (got : s.locals "hcert" = some (.value (.cert c))) (fresh : s.locals "cert" = none)
    (con : s.locals "con" = none) :
    s.held - 1 ≤ (trapped scope certVerify contentvar certvar s).2.held ∧
      ((trapped scope certVerify contentvar certvar s).1 = .ok "ok" → certvar ≠ "" →
        (trapped scope certVerify contentvar certvar s).2.held = s.held) := by
  have less : s.held - 1 ≤ s.held := by omega
  cases verified : certVerify c with
  | error e =>
    simp [verifyCert, Lib.stateM_bind, hcert, got, verified, releaseCert]
  | ok status =>
    by_cases ok : status = "ok"
    · subst ok
      by_cases plain : certvar = ""
      · by_cases links : scope.canLink contentvar = true <;>
          by_cases sets : scope.canSet contentvar = true <;>
          simp [verifyCert, Lib.stateM_bind, Lib.stateM_map, hcert, got, verified, plain, wanted,
            upvar, con, links, setVar, State.canSet, State.set, sets, releaseCert]
      · by_cases links : scope.canLink certvar = true
        · by_cases sets : scope.canSet certvar = true
          · by_cases links' : scope.canLink contentvar = true <;>
              by_cases sets' : scope.canSet contentvar = true <;>
              simp [verifyCert, Lib.stateM_bind, Lib.stateM_map, hcert, got, verified,
                plain, wanted, upvar, fresh, con, links, links', setVar, State.canSet, State.set,
                sets, sets', unset, releaseCert, less]
          · simp [verifyCert, Lib.stateM_bind, hcert, got, verified, plain, upvar, fresh,
              links, setVar, State.canSet, sets, releaseCert]
        · simp [verifyCert, Lib.stateM_bind, hcert, got, verified, plain, upvar, fresh, links,
            releaseCert]
    · simp [verifyCert, Lib.stateM_bind, Lib.stateM_pure, hcert, got, verified, ok,
        releaseCert]

end Trap

/-! ### The verification -/

/-- The variables when the command is called -/
def linked (caller : String → Option (Value Cert)) (contentvar : String) : State Cert :=
  ⟨caller, Function.update (fun _ => none) "content" (some (.link contentvar)), 0⟩

/-- `pkcs7_verify` from the command on -/
def finish (certVerify : Cert → Except Unit String) (contentvar certvar : String)
    (x : Except Unit (Option Nat) × State Cert) : Except Unit String × State Cert :=
  match x with
  | (.error (), s) => (.error (), s)
  | (.ok status, s) =>
    if status = some 0 then trapped scope certVerify contentvar certvar s
    else (.ok (statusName (status.getD 0)), s)

section Verification

variable (api : Api Para Key Cert) (para : Para) (certVerify : Cert → Except Unit String)
  (text : Bytes) (certvar : String) (caller : String → Option (Value Cert))

theorem pkcs7Verify_plain :
    pkcs7Verify scope api para certVerify (.ok text) ⟨"", certvar⟩ (start caller) =
      finish scope certVerify "" certvar
        (cryptVerifyMessageSignature scope api para text "" (start caller)) := by
  rcases command : cryptVerifyMessageSignature scope api para text "" (start caller) with
    ⟨e | status, s⟩
  · simp [pkcs7Verify, Lib.stateM_bind, command, finish]
  · by_cases zero : status = some 0 <;>
      simp [pkcs7Verify, Lib.stateM_bind, Lib.stateM_pure, command, finish, zero]

theorem pkcs7Verify_linked {contentvar : String} (wanted : contentvar ≠ "")
    (links : scope.canLink contentvar = true) :
    pkcs7Verify scope api para certVerify (.ok text) ⟨contentvar, certvar⟩ (start caller) =
      finish scope certVerify "content" certvar
        (cryptVerifyMessageSignature scope api para text "content"
          (linked caller contentvar)) := by
  have link : upvar scope contentvar "content" (start caller) =
      (.ok (), linked caller contentvar) := by
    simp [upvar, start, links, linked]
  rcases command : cryptVerifyMessageSignature scope api para text "content"
    (linked caller contentvar) with ⟨e | status, s⟩
  · simp [pkcs7Verify, Lib.stateM_bind, wanted, link, command, finish]
  · by_cases zero : status = some 0 <;>
      simp [pkcs7Verify, Lib.stateM_bind, Lib.stateM_pure, wanted, link, command, finish, zero]

end Verification

section

variable {scope} {api : Api Para Key Cert} {para : Para}
  {certVerify : Cert → Except Unit String} {contentvar certvar : String} {s : State Cert}
  {caller : String → Option (Value Cert)} {signed : Bytes → Prop} {text : Bytes}

variable {winerr : Nat}

theorem finish_status (status : IsStatus winerr) :
    finish scope certVerify contentvar certvar (.ok (some winerr), s) =
      (.ok (statusName winerr), s) := by
  obtain rfl | rfl := status
  · rfl
  · rfl

theorem statusName_ne_ok (status : IsStatus winerr) :
    statusName winerr ≠ "ok" := by
  obtain rfl | rfl := status
  · decide
  · decide

/-- The command ends with an error, or refuses the signature. -/
theorem framed_refused {options : Options} (same : s.caller = caller) (none_ : s.held = 0) :
    Framed caller signed options
      (finish scope certVerify contentvar certvar
        (if IsStatus winerr then .ok (some winerr) else .error (), s)) := by
  by_cases status : IsStatus winerr
  · rw [if_pos status, finish_status status]
    exact framed_of_kept same none_ fun h => statusName_ne_ok status (Except.ok.inj h)
  · rw [if_neg status]
    exact framed_of_kept same none_ nofun

theorem framed_plain :
    Framed caller signed ⟨"", certvar⟩
      (pkcs7Verify scope api para certVerify (.ok text) ⟨"", certvar⟩ (start caller)) := by
  rw [pkcs7Verify_plain, cryptVerifyMessageSignature_eq]
  cases api.verifyMessage para 0 text none with
  | error winerr => exact framed_refused rfl rfl
  | ok sized =>
    by_cases empty : sized.nout = 0
    · dsimp only
      rw [if_pos empty]
      exact framed_of_kept rfl rfl nofun
    · dsimp only
      rw [if_neg empty, if_pos rfl]
      exact framed_trapped rfl rfl rfl rfl

/-- Where the content is set, there are two certificates, and one of them is lost. -/
theorem framed_linked_iff (wanted : contentvar ≠ "") (links : scope.canLink contentvar = true) :
    Framed caller signed ⟨contentvar, certvar⟩
        (pkcs7Verify scope api para certVerify (.ok text) ⟨contentvar, certvar⟩
          (start caller)) ↔
      Keeps scope api para (.ok text) ⟨contentvar, certvar⟩ := by
  have keeps : Keeps scope api para (.ok text) ⟨contentvar, certvar⟩ ↔
      match api.verifyMessage para 0 text none with
      | .error _ => True
      | .ok sized => sized.nout = 0 ∨
          match api.verifyMessage para 0 text (some sized.nout) with
          | .error winerr => ¬ IsStatus winerr
          | .ok _ => False := by
    simp [Keeps, wanted, links]
  have named : ("content" : String) ≠ "" := by decide
  rw [keeps, pkcs7Verify_linked _ _ _ _ _ _ _ wanted links, cryptVerifyMessageSignature_eq]
  cases api.verifyMessage para 0 text none with
  | error winerr => exact iff_of_true (framed_refused rfl rfl) trivial
  | ok sized =>
    dsimp only
    by_cases empty : sized.nout = 0
    · rw [if_pos empty]
      exact iff_of_true (framed_of_kept rfl rfl nofun) (.inl empty)
    · rw [if_neg empty, if_neg named, or_iff_right empty]
      cases api.verifyMessage para 0 text (some sized.nout) with
      | error winerr =>
        dsimp only
        by_cases status : IsStatus winerr
        · rw [if_pos status, finish_status status]
          refine iff_of_false (not_framed_of_held Int.one_ne_zero fun ok => ?_)
            fun other => other status
          exact absurd (Except.ok.inj ok) (statusName_ne_ok status)
        · rw [if_neg status]
          exact iff_of_true (framed_of_kept rfl rfl nofun) status
      | ok reply =>
        dsimp only
        refine iff_of_false ?_ id
        by_cases sets : (linked caller contentvar).canSet scope "content" = true
        · rw [if_pos sets]
          have left := held_trapped scope certVerify certvar
            (({ linked caller contentvar with held := 0 + 2 }.set "content"
              (.content reply.content)).set "hcert" (.cert reply.cert)) named rfl rfl rfl
          refine not_framed_of_held (fun none_ => ?_) fun ok given one => ?_
          · exact absurd (left.1.trans_eq none_) (by decide : ¬ (2 : Int) - 1 ≤ 0)
          · exact absurd ((left.2 ok given).symm.trans one) (by decide : ¬ (2 : Int) = 1)
        · rw [if_neg sets]
          exact not_framed_of_held Int.one_ne_zero nofun

end

/-- A CryptoAPI that verifies every message; its certificates are numbers. -/
def verifying : Api Unit Unit Nat :=
  ⟨fun _ _ message _ => .ok ⟨message.length, message, 7⟩, fun _ message _ => .ok message,
    fun _ _ _ _ => .ok 7⟩

end Twapi.Crypto.Pkcs7
