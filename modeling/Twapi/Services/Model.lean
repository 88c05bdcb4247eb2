import Mathlib.Data.Rat.Defs
import Mathlib.Tactic.Ring
import Twapi.Lib.Machine

/-!
A process that runs services, `tcl/service.tcl`: control requests from the
service control manager, `update_service_status` of the application, and the
timers that repeat a report while a state is pending.

* `serviceHandlerUnsafe` is `_service_handler_unsafe` up to the call of the
  application's script; what the script does is the labels that follow. The
  value it returns is `handlerResult`.
* A timer is a script that `after` puts together with `concat` and parses when
  it is due; `Tcl.reads` is the name that parsing finds there.
* `awaiting` and `stay` of a service, `reported` and `told` are bookkeeping the
  code does not have.

Names are looked up after `string tolower`.
-/

namespace Twapi.Services

open Lib

/-! ### Values of Tcl -/

/-- What services use of the interpreter: `string tolower`, and the name that is
read back from the script of a timer for a name, where that script is the
command with three words. -/
structure Tcl (Name : Type) where
  tolower : Name → Name
  reads : Name → Option Name

/-- An operand of `expr`: a number, or a string that is not one. -/
inductive Token where
  | num (q : ℚ)
  | text (s : List Char) (notNumber : s = [] ∨ ∃ c ∈ s, c.isDigit = false)
deriving DecidableEq

def decimal (n : Nat) : List Char := Nat.toDigits 10 n

/-- `$t < n`; strings are compared as strings. -/
def Token.below (t : Token) (n : Nat) : Bool :=
  match t with
  | .num q => q < n
  | .text s _ => s < decimal n

/-- `n < $t`. -/
def Token.above (t : Token) (n : Nat) : Bool :=
  match t with
  | .num q => (n : ℚ) < q
  | .text s _ => decimal n < s

/-- `$t == z`. A string that is not a number is none of them. -/
def Token.is (t : Token) (z : Int) : Bool := t = .num z

/-! ### States and controls -/

inductive ServiceState where
  | stopped
  | startPending
  | stopPending
  | running
  | continuePending
  | pausePending
  | paused
deriving DecidableEq

namespace ServiceState

/-- `string match *pending`. -/
def pending : ServiceState → Bool
  | startPending | stopPending | continuePending | pausePending => true
  | _ => false

/-- `service_state_values`. -/
def value : ServiceState → Nat
  | stopped => 1
  | startPending => 2
  | stopPending => 3
  | running => 4
  | continuePending => 5
  | pausePending => 6
  | paused => 7

end ServiceState

inductive Control where
  | start
  | stop
  | pause
  | «continue»
  | interrogate
  | shutdown
  | paramchange
  | netbindadd
  | netbindremove
  | netbindenable
  | netbinddisable
  | deviceevent
  | hardwareprofilechange
  | powerevent
  | sessionchange
  | userdefined
deriving DecidableEq

/-- What a control does in a state: the state to go to, and the three flags. -/
structure Reaction where
  state : Option ServiceState
  tellApp : Bool
  reportStatus : Bool
  needResponse : Bool
deriving DecidableEq

def Reaction.goTo (state : ServiceState) : Reaction := ⟨some state, true, true, true⟩

/-- The `switch` on state and control; `none` is its default. -/
def react : ServiceState → Control → Option Reaction
  | .stopped, .start => some (.goTo .startPending)
  | .startPending, .shutdown | .paused, .shutdown | .pausePending, .shutdown
  | .continuePending, .shutdown | .running, .shutdown
  | .startPending, .stop | .paused, .stop | .pausePending, .stop
  | .continuePending, .stop | .running, .stop => some (.goTo .stopPending)
  | .running, .pause => some (.goTo .pausePending)
  | .pausePending, .continue | .paused, .continue => some (.goTo .continuePending)
  | _, .interrogate => some ⟨none, false, true, true⟩
  | _, .userdefined | _, .paramchange | _, .netbindadd | _, .netbindremove
  | _, .netbindenable | _, .netbinddisable | _, .deviceevent
  | _, .hardwareprofilechange | _, .powerevent | _, .sessionchange =>
    some ⟨none, true, false, false⟩
  | _, _ => none

/-! ### Data -/

/-- The elements of `service_state` for one name. `awaiting` is whether the
latest request that was sent to the application with a sequence number is
unanswered, `stay` what checkpoints were reported since the state was set, the
latest first. -/
structure Service where
  state : ServiceState
  checkpoint : Nat
  waithint : Nat
  exitcode : Int
  servicecode : Int
  seq : Nat
  seqack : Token
  awaiting : Bool
  stay : List Nat
deriving DecidableEq

/-- What `run_as_service` sets up. -/
def Service.fresh : Service := ⟨.stopped, 0, 2000, 0, 0, 0, .num 0, false, []⟩

/-- `SERVICE_STATUS`, as handed to `SetServiceStatus`. -/
structure Report where
  state : Nat
  exitcode : Int
  servicecode : Int
  checkpoint : Nat
  waithint : Nat
  controls : Int
deriving DecidableEq

/-- A scheduled `_call_scm_within_waithint`, under the name it was made for. -/
structure Timer (Name : Type) where
  name : Name
  state : ServiceState
  checkpoint : Nat
deriving DecidableEq

/-- A call of the application's script; notifications have `seq` -1. -/
structure Told (Name : Type) where
  name : Name
  control : Option Control
  seq : Int
deriving DecidableEq

/-- `names` are the services of the process, in C and in Tcl. -/
structure World (Name : Type) where
  names : List Name
  controls : Int
  services : Name → Option Service
  timers : List (Timer Name)
  reported : List (Name × Report)
  told : List (Told Name)

variable {Name : Type} [DecidableEq Name]

def World.put (w : World Name) (name : Name) (svc : Service) : World Name :=
  { w with services := Function.update w.services name (some svc) }

def World.tell (w : World Name) (name : Name) (control : Option Control) (seq : Int) :
    World Name :=
  { w with told := ⟨name, control, seq⟩ :: w.told }

/-! ### `_report_service_status` -/

/-- What the conversion of a Tcl integer to a C `int` accepts. -/
def fitsInt (z : Int) : Bool := -(2 ^ 32 - 1) ≤ z ∧ z ≤ 2 ^ 32 - 1

def Service.report (svc : Service) (waithint : Nat) (controls : Int) : Report :=
  ⟨svc.state.value, svc.exitcode, svc.servicecode, svc.checkpoint, waithint, controls⟩

/-- The conversions of `Twapi_SetServiceStatus`. -/
def Report.converts (r : Report) : Bool :=
  fitsInt r.state && fitsInt r.exitcode && fitsInt r.servicecode && fitsInt r.checkpoint &&
    fitsInt r.waithint && fitsInt r.controls

/-- `Twapi_SetServiceStatus` under the `catch`: an error is logged only. -/
def setServiceStatus (w : World Name) (name : Name) (svc : Service) (waithint : Nat) :
    World Name :=
  let r := svc.report waithint w.controls
  if r.converts ∧ name ∈ w.names then
    { w.put name { svc with stay := svc.checkpoint :: svc.stay } with
      reported := (name, r) :: w.reported }
  else w.put name svc

/-- The checkpoint and the wait hint of a report. -/
def Service.stamped (svc : Service) : Service × Nat :=
  if svc.state.pending then ({ svc with checkpoint := svc.checkpoint + 1 }, svc.waithint)
  else ({ svc with checkpoint := 0 }, 0)

def World.schedule (w : World Name) (name : Name) (svc : Service) : World Name :=
  { w with timers := w.timers ++ [⟨name, svc.state, svc.checkpoint⟩] }

/-- `_report_service_status` for a service with these elements. -/
def reportServiceStatus (w : World Name) (name : Name) (svc : Service) : World Name :=
  let (svc, waithint) := svc.stamped
  let w := setServiceStatus w name svc waithint
  if waithint = 0 then w else w.schedule name svc

/-! ### `_service_handler_unsafe` -/

/-- `set service_state($name,state)`, with the checkpoint it starts from. -/
def Service.enter (svc : Service) (state : ServiceState) (checkpoint : Nat) : Service :=
  { svc with state, checkpoint, stay := [] }

/-- The application is told: a request takes the next sequence number. -/
def tellApp (w : World Name) (name : Name) (control : Control) (needResponse : Bool) :
    World Name :=
  match w.services name with
  | none => w
  | some svc =>
    if needResponse then
      (w.put name { svc with seq := svc.seq + 1, awaiting := true }).tell name (some control)
        (svc.seq + 1)
    else w.tell name (some control) (-1)

/-- Up to the script; a name that is not a service's is an error. -/
def serviceHandlerUnsafe (T : Tcl Name) (w : World Name) (name : Name) (control : Control) :
    World Name :=
  let name := T.tolower name
  match w.services name with
  | none => w
  | some svc =>
    match react svc.state control with
    | none => w
    | some r =>
      let svc := match r.state with
        | some state => svc.enter state 1
        | none => svc
      let w := w.put name svc
      let w := if r.reportStatus then reportServiceStatus w name svc else w
      if r.tellApp then tellApp w name control r.needResponse else w

/-- The result of a command: an integer, or a string that is not one. -/
inductive Value where
  | int (z : Int)
  | text (s : String)
deriving DecidableEq

/-- How the application's script ends: with a value, or with an error or
another code, which `catch` swallows. -/
inductive ScriptEnd where
  | value (v : Value)
  | caught
deriving DecidableEq

def BROADCAST_QUERY_DENY : Int := 0x424D5144

/-- What the script's result stands for. -/
def scriptResult : ScriptEnd → Value
  | .caught => .int 0
  | .value v =>
    if v = .text "allow" then .int 0
    else if v = .text "deny" then .int BROADCAST_QUERY_DENY
    else v

/-- What `_service_handler_unsafe` returns in this state. -/
def handlerResult (state : ServiceState) (control : Control) (script : ScriptEnd) : Value :=
  match react state control with
  | none => .text ""
  | some r => if r.tellApp then scriptResult script else .int 0

/-! ### `update_service_status` -/

inductive StateToken where
  | running
  | paused
  | stopped
  | other (token : String)
deriving DecidableEq

def StateToken.target : StateToken → Option ServiceState
  | running => some .running
  | paused => some .paused
  | stopped => some .stopped
  | other _ => none

/-- The options, as `parseargs` leaves them. -/
structure StatusOptions where
  exitcode : Option Int
  servicecode : Option Int
  waithint : Option Int
deriving DecidableEq

inductive UpdateResult where
  | ignored
  | nochange
  | invalidchange
  | changed
deriving DecidableEq

inductive UpdateError where
  | invalidState
  | badArguments
  | noSuchService
  | sequenceTooLarge
deriving DecidableEq

/-- A request is out to the application, and this call is not the answer. -/
def Service.ignores (svc : Service) (seq : Token) : Bool :=
  svc.seqack.below svc.seq && (seq.is 0 || seq.below svc.seq)

/-- The last responded sequence number, and the exit codes of a stop. -/
def Service.respond (svc : Service) (seq : Token) (target : ServiceState)
    (opts : StatusOptions) : Service :=
  let svc := { svc with seqack := seq, awaiting := svc.awaiting && !seq.is svc.seq }
  if target = .stopped then
    { svc with
      exitcode := opts.exitcode.getD svc.exitcode
      servicecode := opts.servicecode.getD svc.servicecode }
  else svc

/-- The application may stop from any state, and enter the others only from
where a control has put it. -/
def allowedChange (current target : ServiceState) : Bool :=
  match target with
  | .running => !(current = .stopped || current = .paused)
  | .paused => current = .pausePending || current = .continuePending
  | _ => true

def World.allStopped (w : World Name) : Bool :=
  w.names.all fun n => ((w.services n).map Service.state) = some .stopped

def tellAllStopped (w : World Name) (name : Name) (target : ServiceState) : World Name :=
  if target = .stopped ∧ w.allStopped then w.tell name none 0 else w

def changeState (w : World Name) (name : Name) (svc : Service) (target : ServiceState) :
    UpdateResult × World Name :=
  if target = svc.state then (.nochange, w.put name svc)
  else if allowedChange svc.state target then
    let w := reportServiceStatus w name (svc.enter target svc.checkpoint)
    (.changed, tellAllStopped w name target)
  else (.invalidchange, w.put name svc)

/-- `opts` is what `parseargs` gives; an error leaves everything as it is. -/
def updateServiceStatus (T : Tcl Name) (w : World Name) (name : Name) (seq : Token)
    (state : StateToken) (opts : Option StatusOptions) :
    Except UpdateError (UpdateResult × World Name) :=
  match state.target with
  | none => .error .invalidState
  | some target =>
    if seq.is (-1) then .ok (.ignored, w)
    else
      match opts with
      | none => .error .badArguments
      | some opts =>
        let name := T.tolower name
        match w.services name with
        | none => .error .noSuchService
        | some svc =>
          if seq.above svc.seq then .error .sequenceTooLarge
          else if svc.ignores seq then .ok (.ignored, w)
          else .ok (changeState w name (svc.respond seq target opts) target)

/-! ### Timers -/

/-- Whether a timer that is due reports for the service it reads. -/
def Timer.matches (t : Timer Name) (svc : Service) : Bool :=
  svc.state = t.state && svc.checkpoint = t.checkpoint

/-- `_call_scm_within_waithint`. -/
def callScmWithinWaithint (w : World Name) (name : Name) (t : Timer Name) : World Name :=
  match w.services name with
  | none => w
  | some svc => if t.matches svc then reportServiceStatus w name svc else w

/-- A timer is due: its script is parsed, and is an error where it does not read
as the command. -/
def expire (T : Tcl Name) (w : World Name) (t : Timer Name) : World Name :=
  match T.reads t.name with
  | none => w
  | some name => callScmWithinWaithint w name t

/-! ### The process -/

inductive Label (Name : Type) where
  | control (name : Name) (control : Control)
  | update (name : Name) (seq : Token) (state : StateToken) (opts : Option StatusOptions)
  | expire (i : Nat)
deriving DecidableEq

def step (T : Tcl Name) (w : World Name) : Label Name → Option (World Name)
  | .control name control => some (serviceHandlerUnsafe T w name control)
  | .update name seq state opts =>
    match updateServiceStatus T w name seq state opts with
    | .ok (_, w) => some w
    | .error _ => some w
  | .expire i => do
      let t ← w.timers[i]?
      some (expire T { w with timers := w.timers.eraseIdx i } t)

/-- `run_as_service`: names are lowered, and the controls are an `int`. -/
def initially (T : Tcl Name) (w : World Name) : Prop :=
  ∃ (services : List Name) (controls : Int), fitsInt controls = true ∧
    w = ⟨services.map T.tolower, controls,
      fun n => if n ∈ services.map T.tolower then some .fresh else none, [], [], []⟩

def machine (T : Tcl Name) : Machine (World Name) (Label Name) := ⟨initially T, step T⟩

end Twapi.Services
