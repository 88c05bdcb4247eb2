import Twapi.Services.Model

/-!
The answer to a control that waits for one, from the application's script to
the service control manager: `service/service.c`, `TwapiEvalAndUpdateCallback`
of `base/util.c`, `TwapiEnqueueCallback` and `Twapi_TclEventProc` of
`base/async.c`, and `_service_handler`.

* The scripts run in one thread and the handler waits in another; what passes
  between them is the `Response`, which the handler looks at when its wait has
  succeeded. The reference counts are in `Twapi.Async`.
* `query_status_iff` — the handler returns what the script said exactly when
  that is 0, or the wait does not succeed.
-/

namespace Twapi.Services

/-! ### Numbers of Windows -/

section Numbers

@[match_pattern] abbrev SERVICE_CONTROL_STOP : UInt32 := 1
@[match_pattern] abbrev SERVICE_CONTROL_PAUSE : UInt32 := 2
@[match_pattern] abbrev SERVICE_CONTROL_CONTINUE : UInt32 := 3
@[match_pattern] abbrev SERVICE_CONTROL_INTERROGATE : UInt32 := 4
@[match_pattern] abbrev SERVICE_CONTROL_SHUTDOWN : UInt32 := 5
@[match_pattern] abbrev SERVICE_CONTROL_PARAMCHANGE : UInt32 := 6
@[match_pattern] abbrev SERVICE_CONTROL_NETBINDADD : UInt32 := 7
@[match_pattern] abbrev SERVICE_CONTROL_NETBINDREMOVE : UInt32 := 8
@[match_pattern] abbrev SERVICE_CONTROL_NETBINDENABLE : UInt32 := 9
@[match_pattern] abbrev SERVICE_CONTROL_NETBINDDISABLE : UInt32 := 10
@[match_pattern] abbrev SERVICE_CONTROL_DEVICEEVENT : UInt32 := 11
@[match_pattern] abbrev SERVICE_CONTROL_HARDWAREPROFILECHANGE : UInt32 := 12
@[match_pattern] abbrev SERVICE_CONTROL_POWEREVENT : UInt32 := 13
@[match_pattern] abbrev SERVICE_CONTROL_SESSIONCHANGE : UInt32 := 14

@[match_pattern] abbrev DBT_QUERYCHANGECONFIG : UInt32 := 0x17
@[match_pattern] abbrev DBT_CONFIGCHANGED : UInt32 := 0x18
@[match_pattern] abbrev DBT_CONFIGCHANGECANCELED : UInt32 := 0x19

@[match_pattern] abbrev PBT_APMQUERYSUSPEND : UInt32 := 0
@[match_pattern] abbrev PBT_APMQUERYSTANDBY : UInt32 := 1
@[match_pattern] abbrev PBT_APMQUERYSUSPENDFAILED : UInt32 := 2
@[match_pattern] abbrev PBT_APMQUERYSTANDBYFAILED : UInt32 := 3
@[match_pattern] abbrev PBT_APMSUSPEND : UInt32 := 4
@[match_pattern] abbrev PBT_APMSTANDBY : UInt32 := 5
@[match_pattern] abbrev PBT_APMRESUMECRITICAL : UInt32 := 6
@[match_pattern] abbrev PBT_APMRESUMESUSPEND : UInt32 := 7
@[match_pattern] abbrev PBT_APMRESUMESTANDBY : UInt32 := 8
@[match_pattern] abbrev PBT_APMBATTERYLOW : UInt32 := 9
@[match_pattern] abbrev PBT_APMPOWERSTATUSCHANGE : UInt32 := 10
@[match_pattern] abbrev PBT_APMOEMEVENT : UInt32 := 11
@[match_pattern] abbrev PBT_APMRESUMEAUTOMATIC : UInt32 := 0x12

abbrev NO_ERROR : UInt32 := 0
abbrev ERROR_INVALID_FUNCTION : UInt32 := 1
abbrev ERROR_INVALID_PARAMETER : UInt32 := 87
abbrev ERROR_CALL_NOT_IMPLEMENTED : UInt32 := 120
abbrev ERROR_BAD_ARGUMENTS : UInt32 := 160
abbrev ERROR_INVALID_STATE : UInt32 := 5023
abbrev ERROR_DS_NO_SUCH_OBJECT : UInt32 := 8240
abbrev WAIT_TIMEOUT : UInt32 := 258

end Numbers

/-! ### `TwapiServiceControlHandler`, before it enqueues -/

/-- What the handler does with a control: answer at once, or pass it on. -/
inductive Admission where
  | answer (status : UInt32)
  | enqueue (needResponse : Bool)
deriving DecidableEq

def admission (ctrl event : UInt32) : Admission :=
  match ctrl with
  | SERVICE_CONTROL_STOP | SERVICE_CONTROL_PAUSE | SERVICE_CONTROL_CONTINUE
  | SERVICE_CONTROL_INTERROGATE | SERVICE_CONTROL_SHUTDOWN | SERVICE_CONTROL_PARAMCHANGE
  | SERVICE_CONTROL_NETBINDADD | SERVICE_CONTROL_NETBINDREMOVE | SERVICE_CONTROL_NETBINDENABLE
  | SERVICE_CONTROL_NETBINDDISABLE => .enqueue false
  | SERVICE_CONTROL_HARDWAREPROFILECHANGE =>
    match event with
    | DBT_CONFIGCHANGECANCELED | DBT_CONFIGCHANGED => .enqueue false
    | DBT_QUERYCHANGECONFIG => .enqueue true
    | _ => .answer NO_ERROR
  | SERVICE_CONTROL_POWEREVENT =>
    match event with
    | PBT_APMSUSPEND | PBT_APMSTANDBY | PBT_APMRESUMECRITICAL | PBT_APMRESUMESUSPEND
    | PBT_APMRESUMESTANDBY | PBT_APMBATTERYLOW | PBT_APMPOWERSTATUSCHANGE | PBT_APMOEMEVENT
    | PBT_APMRESUMEAUTOMATIC => .enqueue false
    | PBT_APMQUERYSUSPEND | PBT_APMQUERYSTANDBY | PBT_APMQUERYSUSPENDFAILED
    | PBT_APMQUERYSTANDBYFAILED => .enqueue true
    | _ => .answer NO_ERROR
  | SERVICE_CONTROL_SESSIONCHANGE => .enqueue false
  | SERVICE_CONTROL_DEVICEEVENT => .answer NO_ERROR
  | _ => if 128 ≤ ctrl ∧ ctrl ≤ 255 then .enqueue false else .answer ERROR_CALL_NOT_IMPLEMENTED

/-- `ctrl_str` of `TwapiServiceControlCallbackFn`; 0 is the start signal. -/
def ctrlStr (ctrl : UInt32) : Option Control :=
  if ctrl = 0 then some .start
  else match ctrl with
  | SERVICE_CONTROL_STOP => some .stop
  | SERVICE_CONTROL_PAUSE => some .pause
  | SERVICE_CONTROL_CONTINUE => some .continue
  | SERVICE_CONTROL_INTERROGATE => some .interrogate
  | SERVICE_CONTROL_SHUTDOWN => some .shutdown
  | SERVICE_CONTROL_PARAMCHANGE => some .paramchange
  | SERVICE_CONTROL_NETBINDADD => some .netbindadd
  | SERVICE_CONTROL_NETBINDREMOVE => some .netbindremove
  | SERVICE_CONTROL_NETBINDENABLE => some .netbindenable
  | SERVICE_CONTROL_NETBINDDISABLE => some .netbinddisable
  | SERVICE_CONTROL_HARDWAREPROFILECHANGE => some .hardwareprofilechange
  | SERVICE_CONTROL_POWEREVENT => some .powerevent
  | SERVICE_CONTROL_SESSIONCHANGE => some .sessionchange
  | _ => if 128 ≤ ctrl ∧ ctrl ≤ 255 then some .userdefined else none

/-! ### The script's side -/

variable {Name : Type} [DecidableEq Name]

/-- `_service_handler_unsafe`; a name that is not a service's is an error. -/
def handlerOutcome (T : Tcl Name) (w : World Name) (name : Name) (control : Control)
    (script : ScriptEnd) : Option Value :=
  (w.services (T.tolower name)).map fun svc => handlerResult svc.state control script

/-- `_service_handler`: the value of its `if`, whose body is entered on an error
and is the code of the `catch` around the logging. -/
def serviceHandler (outcome : Option Value) (logged : Bool) : Value :=
  match outcome with
  | none => .int (if logged then 0 else 1)
  | some _ => .text ""

/-- `winerr` and, where its type is `TRT_LONG`, the value of `response`. -/
structure Response where
  winerr : UInt32
  lval : Option UInt32
deriving DecidableEq

def dword (z : Int) : UInt32 := UInt32.ofInt z

def objToLong : Value → Option UInt32
  | .int z => if fitsInt z then some (dword z) else none
  | .text _ => none

/-- `TwapiEvalAndUpdateCallback` for `TRT_LONG`, with whether it is `TCL_OK`.
`alive` is whether there is an interpreter still. -/
def twapiEvalAndUpdateCallback (alive : Bool) (result : Value) : Bool × Response :=
  if alive then
    match objToLong result with
    | some lval => (true, ⟨NO_ERROR, some lval⟩)
    | none => (false, ⟨NO_ERROR, none⟩)
  else (true, ⟨ERROR_DS_NO_SUCH_OBJECT, none⟩)

/-- `TwapiServiceControlCallbackFn`. -/
def twapiServiceControlCallbackFn (T : Tcl Name) (w : World Name) (serviceIndex : Nat)
    (ctrl : UInt32) (script : ScriptEnd) (alive logged : Bool) : Bool × Response :=
  if alive = false then (false, ⟨ERROR_INVALID_STATE, none⟩)
  else
    match w.names[serviceIndex]? with
    | none => (false, ⟨ERROR_INVALID_PARAMETER, none⟩)
    | some name =>
      match ctrlStr ctrl with
      | none => (false, ⟨ERROR_INVALID_FUNCTION, none⟩)
      | some control =>
        twapiEvalAndUpdateCallback alive
          (serviceHandler (handlerOutcome T w name control script) logged)

/-- `Twapi_TclEventProc`: a callback that is not `TCL_OK` has no response. -/
def twapiTclEventProc (called : Bool × Response) : Response :=
  if called.1 then called.2 else ⟨ERROR_BAD_ARGUMENTS, none⟩

/-! ### The handler's side -/

/-- How `TwapiEnqueueCallback` ends where a response is wanted. -/
inductive Wait where
  | noEvent (winerr : UInt32)
  | object
  | timeout
  | failed (winerr : UInt32)
deriving DecidableEq

def twapiEnqueueCallback (wait : Wait) (response : Response) : UInt32 × Option Response :=
  match wait with
  | .noEvent winerr => (winerr, none)
  | .object => (response.winerr, some response)
  | .timeout => (WAIT_TIMEOUT, none)
  | .failed winerr => (winerr, none)

/-- The status that goes to the service control manager. -/
def twapiServiceControlHandler (T : Tcl Name) (w : World Name) (serviceIndex : Nat)
    (ctrl event : UInt32) (script : ScriptEnd) (alive logged : Bool) (wait : Wait) : UInt32 :=
  if w.names.length ≤ serviceIndex then NO_ERROR
  else
    match admission ctrl event with
    | .answer status => status
    | .enqueue false => NO_ERROR
    | .enqueue true =>
      let called := twapiServiceControlCallbackFn T w serviceIndex ctrl script alive logged
      match twapiEnqueueCallback wait (twapiTclEventProc called) with
      | (winerr, some response) =>
        if winerr = NO_ERROR then response.lval.getD NO_ERROR else NO_ERROR
      | (_, none) => NO_ERROR

/-! ### What reaches the service control manager -/

variable {T : Tcl Name} {w : World Name} {i : Nat} {name : Name} {svc : Service}
  {ctrl event : UInt32} {script : ScriptEnd}

theorem admission_query (query : admission ctrl event = .enqueue true) :
    ctrlStr ctrl = some .hardwareprofilechange ∨ ctrlStr ctrl = some .powerevent := by
  simp only [admission] at query
  split at query
  case h_11 => exact .inl rfl
  case h_12 => exact .inr rfl
  all_goals first
    | cases query
    | split at query <;> cases query

/-- A query is told to the application in every state. -/
theorem react_query (state : ServiceState) {control : Control}
    (query : control = .hardwareprofilechange ∨ control = .powerevent) :
    react state control = some ⟨none, true, false, false⟩ := by
  rcases query with rfl | rfl <;> cases state <;> rfl

omit [DecidableEq Name] in
/-- The wrapper that catches errors drops the value, so that the conversion of
the response fails. -/
theorem no_response (named : w.names[i]? = some name)
    (known : w.services (T.tolower name) = some svc) (alive logged : Bool) :
    twapiTclEventProc (twapiServiceControlCallbackFn T w i ctrl script alive logged) =
      ⟨ERROR_BAD_ARGUMENTS, none⟩ := by
  cases alive with
  | false => rfl
  | true =>
    cases hc : ctrlStr ctrl with
    | none => simp [twapiServiceControlCallbackFn, named, hc, twapiTclEventProc]
    | some control =>
      simp [twapiServiceControlCallbackFn, named, hc, twapiTclEventProc, handlerOutcome, known,
        serviceHandler, twapiEvalAndUpdateCallback, objToLong]

omit [DecidableEq Name] in
/-- Every query is answered with `NO_ERROR`. -/
theorem query_no_error (named : w.names[i]? = some name)
    (known : w.services (T.tolower name) = some svc) (query : admission ctrl event = .enqueue true)
    (alive logged : Bool) (wait : Wait) :
    twapiServiceControlHandler T w i ctrl event script alive logged wait = NO_ERROR := by
  simp only [twapiServiceControlHandler, query, no_response named known]
  split
  · rfl
  · cases wait with
    | object => simp [twapiEnqueueCallback, ERROR_BAD_ARGUMENTS]
    | noEvent | timeout | failed => rfl

/-- A script that lets the query pass: its result stands for 0. -/
def Consents : ScriptEnd → Prop
  | .caught => True
  | .value (.text s) => s = "allow"
  | .value (.int z) => dword z = NO_ERROR

theorem dword_deny : dword BROADCAST_QUERY_DENY ≠ NO_ERROR := by decide

theorem consents_iff {z : Int} (h : scriptResult script = .int z) :
    dword z = NO_ERROR ↔ Consents script := by
  cases script with
  | caught =>
    cases h
    exact ⟨fun _ => trivial, fun _ => rfl⟩
  | value v =>
    cases v with
    | int y =>
      cases h
      exact Iff.rfl
    | text s =>
      simp only [scriptResult, Value.text.injEq] at h
      split at h
      · rename_i allow
        cases h
        exact ⟨fun _ => allow, fun _ => rfl⟩
      · rename_i other
        split at h
        · cases h
          exact ⟨fun zero => absurd zero dword_deny, fun allow => absurd allow other⟩
        · cases h

omit [DecidableEq Name] in
/-- A query is answered with the integer that `_service_handler_unsafe` returns,
or `NO_ERROR` where the wait does not succeed, exactly when the wait does not
succeed or the script consents. -/
theorem query_status_iff {control : Control} {z : Int} (named : w.names[i]? = some name)
    (known : w.services (T.tolower name) = some svc) (query : admission ctrl event = .enqueue true)
    (sent : ctrlStr ctrl = some control) (result : handlerResult svc.state control script = .int z)
    (alive logged : Bool) (wait : Wait) :
    twapiServiceControlHandler T w i ctrl event script alive logged wait =
        (if wait = .object then dword z else NO_ERROR) ↔
      (wait ≠ .object ∨ Consents script) := by
  have kind : control = .hardwareprofilechange ∨ control = .powerevent := by
    rcases admission_query query with profile | power
    · exact .inl (Option.some.inj (sent.symm.trans profile))
    · exact .inr (Option.some.inj (sent.symm.trans power))
  have computed : scriptResult script = .int z := by
    simpa [handlerResult, react_query svc.state kind] using result
  rw [query_no_error named known query, ← consents_iff computed]
  by_cases waited : wait = .object
  · simp only [waited, if_true, ne_eq, not_true_eq_false, false_or]
    exact eq_comm
  · simp [waited]

/-- A service in the state `running`. -/
def echoing : World String :=
  ⟨["echo"], 0x40, fun _ => some { Service.fresh with state := .running }, [], [], []⟩

theorem query_status_iff_allowed :
    twapiServiceControlHandler ⟨id, some⟩ echoing 0 SERVICE_CONTROL_POWEREVENT
      PBT_APMQUERYSUSPEND (.value (.text "allow")) true true .object = dword 0 := by
  have status := @query_status_iff _ ⟨id, some⟩ echoing 0 "echo" _ SERVICE_CONTROL_POWEREVENT
    PBT_APMQUERYSUSPEND (.value (.text "allow")) _ _ rfl rfl rfl rfl rfl true true .object
  exact status.mpr (.inr rfl)

/-- A script that denies a suspend is not heard. -/
theorem denial_dropped :
    ¬ ∀ (T : Tcl String) (w : World String) (i : Nat) (name : String) (svc : Service)
      (ctrl event : UInt32) (control : Control) (script : ScriptEnd) (z : Int),
      w.names[i]? = some name → w.services (T.tolower name) = some svc →
      admission ctrl event = .enqueue true → ctrlStr ctrl = some control →
      handlerResult svc.state control script = .int z →
      twapiServiceControlHandler T w i ctrl event script true true .object = dword z := by
  intro claim
  have status := claim ⟨id, some⟩ echoing 0 "echo" _ SERVICE_CONTROL_POWEREVENT
    PBT_APMQUERYSUSPEND _ (.value (.text "deny")) _ rfl rfl rfl rfl rfl
  have zero : twapiServiceControlHandler ⟨id, some⟩ echoing 0 SERVICE_CONTROL_POWEREVENT
      PBT_APMQUERYSUSPEND (.value (.text "deny")) true true .object = NO_ERROR :=
    query_no_error rfl rfl rfl true true .object
  exact dword_deny (status.symm.trans zero)

end Twapi.Services
