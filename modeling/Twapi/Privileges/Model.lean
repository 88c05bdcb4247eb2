import Mathlib.Logic.Function.Basic
import Mathlib.Tactic.Common

/-!
`eval_with_privileges` of `tcl/security.tcl`, down to `Twapi_AdjustTokenPrivileges`.

* `System` — what Windows answers in the same way every time.
* `World` — the process token, the two caches, and Tcl's error variables.
* `Answers` — what the calls that may fail answer to one `enable_privileges` or
  `disable_privileges`.
* `Script.run` — a script that changes privileges through `eval_with_privileges`
  alone, nested to any depth.
-/

namespace Twapi.Privileges

/-! ### Errors and outcomes -/

/-- `::errorInfo` and `::errorCode` -/
structure ErrorVars where
  errorInfo : String
  errorCode : String
deriving DecidableEq

structure TclError where
  message : String
  vars : ErrorVars
deriving DecidableEq

/-- The return codes of the `default` branch. -/
inductive Code where
  | returns
  | breaks
  | continues
  | custom (n : Nat)
deriving DecidableEq

inductive Outcome where
  | ok (result : String)
  | error (e : TclError)
  | other (code : Code) (result : String)
deriving DecidableEq

/-! ### Windows -/

def ERROR_INSUFFICIENT_BUFFER : Nat := 122
def ERROR_NOT_ALL_ASSIGNED : Nat := 1300
def ERROR_NO_SUCH_PRIVILEGE : Nat := 1313

/-- A privilege as a script gives it: its name, its LUID, or either behind the
prefix `Privilege-`. -/
inductive Priv (L N : Type) where
  | name (n : N)
  | luid (l : L)
  | prefixedName (n : N)
  | prefixedLuid (l : L)
deriving DecidableEq

structure System (L N : Type) where
  lookupPrivilegeValue : N → Except Nat L
  lookupPrivilegeName : L → Except Nat N
  /-- The privileges in the process token, enabled or not. -/
  held : L → Bool
  systemError : Nat → TclError
  value_of_name : ∀ {l n}, lookupPrivilegeName l = .ok n → lookupPrivilegeValue n = .ok l

variable {L N : Type} {S : System L N}

/-- What a script finds and leaves. The caches hold what was looked up. -/
structure World (S : System L N) where
  enabled : L → Bool
  luidToPrivilege : L → Option N
  privilegeToLuid : N → Option L
  vars : ErrorVars
  luid_looked_up : ∀ {l n}, luidToPrivilege l = some n → S.lookupPrivilegeName l = .ok n
  privilege_looked_up : ∀ {n l}, privilegeToLuid n = some l → S.lookupPrivilegeValue n = .ok l

/-- What an error that is caught leaves in the error variables. -/
def World.caught (w : World S) (e : TclError) : World S := { w with vars := e.vars }

@[simp]
theorem World.caught_vars (w : World S) (e : TclError) : (w.caught e).vars = e.vars := rfl

@[simp]
theorem World.caught_enabled (w : World S) (e : TclError) : (w.caught e).enabled = w.enabled := rfl

def World.setEnabled (w : World S) (enabled : L → Bool) : World S := { w with enabled := enabled }

/-- Whether one call of `AdjustTokenPrivileges` succeeds. -/
inductive Reply where
  | done
  | failed (code : Nat)
deriving DecidableEq

structure Answers where
  /-- The error of `OpenProcessToken`, if it fails. -/
  opened : Option Nat
  first : Reply
  /-- With the larger buffer. -/
  second : Reply
  /-- Whether the call that reverts succeeds. -/
  reverts : Bool
deriving DecidableEq

section Adjust

variable [DecidableEq L]

/-- The token after `AdjustTokenPrivileges`, and the previous attributes of the
privileges it modified. Those that are not in the token are passed over. -/
def adjust (held : L → Bool) : (L → Bool) → List (L × Bool) → (L → Bool) × List (L × Bool)
  | enabled, [] => (enabled, [])
  | enabled, (l, attr) :: items =>
    if held l && enabled l != attr then
      let r := adjust held (Function.update enabled l attr) items
      (r.1, (l, enabled l) :: r.2)
    else adjust held enabled items

/-- The answer that counts: a buffer that is too small is tried once more. -/
def Answers.reply (a : Answers) : Reply :=
  if a.first = .failed ERROR_INSUFFICIENT_BUFFER then a.second else a.first

/-- `Twapi_AdjustTokenPrivileges` -/
def twapiAdjustTokenPrivileges (S : System L N) (a : Answers) (items : List (L × Bool))
    (enabled : L → Bool) : Except TclError (List (L × Bool)) × (L → Bool) :=
  match a.reply with
  | .failed code => (.error (S.systemError code), enabled)
  | .done =>
    let adjusted := adjust S.held enabled items
    if items.all fun item => S.held item.1 then (.ok adjusted.2, adjusted.1)
    else (.error (S.systemError ERROR_NOT_ALL_ASSIGNED),
      -- The error is the same whether this call succeeds or not.
      if a.reverts then (adjust S.held adjusted.1 adjusted.2).1 else adjusted.1)

end Adjust

/-! ### Names and LUIDs -/

section Maps

variable [DecidableEq L] [DecidableEq N]

def World.cacheName (w : World S) (l : L) (n : N) (found : S.lookupPrivilegeName l = .ok n) :
    World S :=
  { w with
    luidToPrivilege := Function.update w.luidToPrivilege l (some n)
    luid_looked_up := by
      intro k m cached
      by_cases same : k = l
      · subst same
        rw [Function.update_self] at cached
        exact Option.some.inj cached ▸ found
      · rw [Function.update_of_ne same] at cached
        exact w.luid_looked_up cached }

def World.cacheLuid (w : World S) (n : N) (l : L) (found : S.lookupPrivilegeValue n = .ok l) :
    World S :=
  { w with
    privilegeToLuid := Function.update w.privilegeToLuid n (some l)
    privilege_looked_up := by
      intro m k cached
      by_cases same : m = n
      · subst same
        rw [Function.update_self] at cached
        exact Option.some.inj cached ▸ found
      · rw [Function.update_of_ne same] at cached
        exact w.privilege_looked_up cached }

/-- The end of `map_privilege_to_luid`, for what is not in LUID format. -/
def lookUpLuid (w : World S) (n : N) : Except TclError L × World S :=
  match found : S.lookupPrivilegeValue n with
  | .error code => (.error (S.systemError code), w)
  | .ok l => (.ok l, w.cacheLuid n l found)

/-- `map_privilege_to_luid`. The cache is asked before the prefix is taken off. -/
def mapPrivilegeToLuid (w : World S) : Priv L N → Except TclError L × World S
  | .name n =>
    match w.privilegeToLuid n with
    | some l => (.ok l, w)
    | none => lookUpLuid w n
  | .luid l | .prefixedLuid l => (.ok l, w)
  | .prefixedName n => lookUpLuid w n

/-- `map_luid_to_privilege -mapunknown`, of a LUID. Its `trap` catches any error
of the lookup, and throws on the others. -/
def mapLuidToPrivilege (w : World S) (l : L) : Except TclError (Priv L N) × World S :=
  match w.luidToPrivilege l with
  | some n => (.ok (.name n), w)
  | none =>
    match found : S.lookupPrivilegeName l with
    | .ok n => (.ok (.name n), w.cacheName l n found)
    | .error code =>
      if code = ERROR_NO_SUCH_PRIVILEGE then
        (.ok (.prefixedLuid l), w.caught (S.systemError code))
      else (.error (S.systemError code), w.caught (S.systemError code))

/-- The `foreach` loops: the list of what the command returns for each item. -/
def mapEach {α β : Type} (f : World S → α → Except TclError β × World S) (w : World S) :
    List α → Except TclError (List β) × World S
  | [] => (.ok [], w)
  | a :: as =>
    match f w a with
    | (.error e, v) => (.error e, v)
    | (.ok b, v) =>
      match mapEach f v as with
      | (.error e, u) => (.error e, u)
      | (.ok bs, u) => (.ok (b :: bs), u)

/-! ### Commands -/

/-- `enable_token_privileges` and `disable_token_privileges`, which differ in the
attribute they give. -/
def setTokenPrivileges (attr : Bool) (a : Answers) (privs : List (Priv L N)) (w : World S) :
    Except TclError (List (Priv L N)) × World S :=
  match mapEach mapPrivilegeToLuid w privs with
  | (.error e, v) => (.error e, v)
  | (.ok luids, v) =>
    match twapiAdjustTokenPrivileges S a (luids.map fun l => (l, attr)) v.enabled with
    | (.error e, enabled) => (.error e, v.setEnabled enabled)
    | (.ok previous, enabled) =>
      mapEach mapLuidToPrivilege (v.setEnabled enabled) (previous.map Prod.fst)

def enableTokenPrivileges (a : Answers) (privs : List (Priv L N)) (w : World S) :=
  setTokenPrivileges true a privs w

def disableTokenPrivileges (a : Answers) (privs : List (Priv L N)) (w : World S) :=
  setTokenPrivileges false a privs w

/-- The process token is opened for a command, and closed after it. -/
def withProcessToken {α : Type} (a : Answers) (command : World S → Except TclError α × World S)
    (w : World S) : Except TclError α × World S :=
  match a.opened with
  | some code => (.error (S.systemError code), w)
  | none => command w

def enablePrivileges (a : Answers) (privs : List (Priv L N)) (w : World S) :=
  withProcessToken a (enableTokenPrivileges a privs) w

def disablePrivileges (a : Answers) (privs : List (Priv L N)) (w : World S) :=
  withProcessToken a (disableTokenPrivileges a privs) w

/-- A call of `eval_with_privileges` less its script, with what Windows answers to it. -/
structure Call (L N : Type) where
  privs : List (Priv L N)
  besteffort : Bool
  enabling : Answers
  disabling : Answers
deriving DecidableEq

/-- The rest of `eval_with_privileges`, from the evaluation of the script on. -/
def evalThenDisable (c : Call L N) (body : World S → Outcome × World S)
    (privsToDisable : List (Priv L N)) (w : World S) : Outcome × World S :=
  match body w with
  | (.ok result, v) =>
    match disablePrivileges c.disabling privsToDisable v with
    | (.error e, u) => (.error e, u)
    | (.ok _, u) => (.ok result, u)
  | (.error e, v) =>
    match disablePrivileges c.disabling privsToDisable (v.caught e) with
    | (.error e', u) => (.error e', u)
    -- `erinfo` and `ercode` were saved before, and are not used.
    | (.ok _, u) => (.error ⟨e.message, u.vars⟩, u)
  | (.other code result, v) =>
    match disablePrivileges c.disabling privsToDisable v with
    | (.error e, u) => (.error e, u)
    | (.ok _, u) => (.other code result, u)

def evalWithPrivileges (c : Call L N) (body : World S → Outcome × World S) (w : World S) :
    Outcome × World S :=
  match enablePrivileges c.enabling c.privs w with
  | (.error e, v) =>
    if c.besteffort then evalThenDisable c body [] (v.caught e)
    else (.error e, v.caught e)
  | (.ok privsToDisable, v) => evalThenDisable c body privsToDisable v

/-! ### Scripts -/

/-- What a script does to privileges before it ends: calls one after the other,
each with a script of its own, and what follows may depend on how it ended. -/
inductive Script (L N : Type) where
  | finish (o : Outcome)
  | evalWithPrivileges (c : Call L N) (body : Script L N) (next : Outcome → Script L N)

def Script.run : Script L N → World S → Outcome × World S
  | .finish o, w => (o, w)
  | .evalWithPrivileges c body next, w =>
    let r := Privileges.evalWithPrivileges c body.run w
    (next r.1).run r.2

end Maps

end Twapi.Privileges
