import Twapi.Lib.Lifetime
import Twapi.Lib.Machine

/-!
`TwapiEnqueueCallback` of `base/async.c`, for one callback: the thread that
enqueues it and may wait for a response, and the interpreter's thread, in which
`Twapi_TclEventProc` runs it.

* `CallerPc` and `EventPc` — where the two threads are. A step accesses the
  callback at most once, so that the two can be interleaved anywhere.
* `Label` — one step of one of them, with what the system or the callback
  function answers.
* `log` — what was done to the callback's memory; `taken` and `released` count
  the references to the interpreter context. The code has no such fields.

The caller is included up to the `TwapiCallbackUnref` it owes when it was given
a response.
-/

namespace Twapi.Async

open Lib

/-! ### Data -/

/-- `TWAPI_ENQUEUE_DIRECT` and `TWAPI_ENQUEUE_ASYNC`. -/
inductive EnqueueMethod where
  | direct
  | async
deriving DecidableEq

/-- `struct _TwapiCallback`: `ticP` is whether the context is attached,
`completionEvent` whether there is an event and whether it is signalled. A
response of type `TRT_EMPTY` is `none`. -/
structure TwapiCallback (ρ : Type) where
  ticP : Bool
  nrefs : Int
  completionEvent : Option Bool
  winerr : Nat
  response : Option ρ
deriving DecidableEq

def errorSuccess : Nat := 0
def errorNotSupported : Nat := 50
def errorBadArguments : Nat := 160
def waitTimeout : Nat := 258

/-- How `TwapiEnqueueCallback` returned. -/
inductive Return where
  | failed (winerr : Nat)
  | unsupported
  | queued
  | answered (winerr : Nat)
  | abandoned (winerr : Nat)
deriving DecidableEq

/-- The value it returned. -/
def Return.winerr : Return → Nat
  | .failed e | .answered e | .abandoned e => e
  | .unsupported => errorNotSupported
  | .queued => errorSuccess

/-- Where the enqueuing thread is. -/
inductive CallerPc where
  | start
  | failing (winerr : Nat)
  | method
  | ref
  | queue
  | wait
  | answered
  | owned (winerr : Nat)
  | unref (winerr : Nat)
  | deleting (winerr : Nat)
  | done (r : Return)
deriving DecidableEq

/-- Where the interpreter's thread is with the event: not queued yet, about to
call back, and so on. -/
inductive EventPc where
  | none
  | callback
  | signal
  | release
  | detach
  | unref
  | deleting
  | done
deriving DecidableEq

structure Enqueue (ρ : Type) where
  method : EnqueueMethod
  timeout : Nat
  wantsResponse : Bool
  cb : TwapiCallback ρ
  caller : CallerPc
  event : EventPc
  log : List Use
  taken : Nat
  released : Nat
deriving DecidableEq

/-- What `WaitForSingleObject` returned. -/
inductive WaitResult where
  | object0
  | timeout
  | failed (winerr : Nat)
deriving DecidableEq

/-- A step. `createEvent` carries the error of `CreateEvent`, `callback` what
the callback function returned and left in the callback. -/
inductive Label (ρ : Type) where
  | createEvent (error : Option Nat)
  | caller
  | wait (r : WaitResult)
  | callback (ok : Bool) (winerr : Nat) (response : Option ρ)
  | event
deriving DecidableEq

variable {ρ : Type}

/-- `TwapiCallbackNew`. -/
def TwapiCallback.new : TwapiCallback ρ := ⟨false, 0, none, errorSuccess, none⟩

namespace Enqueue

def access (s : Enqueue ρ) : Enqueue ρ := { s with log := .access :: s.log }

/-- `TwapiCallbackDelete`; `TwapiClearResult` empties the response. -/
def twapiCallbackDelete (s : Enqueue ρ) : Enqueue ρ :=
  { s with cb := { s.cb with completionEvent := none, response := none }, log := .delete :: s.log }

/-- The decrement of `TwapiCallbackUnref`, and whether it calls `TwapiCallbackDelete`. -/
def twapiCallbackUnref (s : Enqueue ρ) : Enqueue ρ × Bool :=
  ({ s with cb := { s.cb with nrefs := s.cb.nrefs - 1 } }.access, s.cb.nrefs ≤ 1)

/-! ### TwapiEnqueueCallback -/

/-- The completion event, if there is a timeout. -/
def createEvent (s : Enqueue ρ) : Option Nat → Enqueue ρ
  | none => { s with cb := { s.cb with completionEvent := some false }, caller := .method }.access
  | some e => { s with caller := .failing e }.access

/-- References for the queue and, if there is a timeout, for this thread. -/
def ref (s : Enqueue ρ) : Enqueue ρ :=
  { s with
    cb := { s.cb with nrefs := s.cb.nrefs + (if s.timeout = 0 then 1 else 2), ticP := true }
    taken := s.taken + 1, caller := .queue }.access

def queue (s : Enqueue ρ) : Enqueue ρ :=
  { s with event := .callback, caller := if s.timeout = 0 then .done .queued else .wait }

/-- `WaitForSingleObject`, which resets the event if it is satisfied. -/
def wait (s : Enqueue ρ) : WaitResult → Option (Enqueue ρ)
  | .object0 =>
    if s.cb.completionEvent = some true then
      some { s with cb := { s.cb with completionEvent := some false }, caller := .answered }.access
    else none
  | .timeout => some { s with caller := .done (.abandoned waitTimeout) }.access
  | .failed e => some { s with caller := .done (.abandoned e) }.access

def answered (s : Enqueue ρ) : Enqueue ρ :=
  { s with caller := if s.wantsResponse then .owned s.cb.winerr else .unref s.cb.winerr }.access

def callerUnref (s : Enqueue ρ) (e : Nat) : Enqueue ρ :=
  let (s, last) := s.twapiCallbackUnref
  { s with caller := if last then .deleting e else .done (.answered e) }

/-- The enqueuing thread goes on. -/
def twapiEnqueueCallback (s : Enqueue ρ) : Option (Enqueue ρ) :=
  match s.caller with
  | .start => if s.timeout = 0 then some { s with caller := .method } else none
  | .method =>
    match s.method with
    | .async => some { s with caller := .done .unsupported }
    | .direct => some { s with caller := .ref }
  | .ref => some s.ref
  | .queue => some s.queue
  | .answered => some s.answered
  | .owned e => some { s with caller := .unref e }.access
  | .unref e => some (s.callerUnref e)
  | .failing e => some { s with caller := .done (.failed e) }.twapiCallbackDelete
  | .deleting e => some { s with caller := .done (.answered e) }.twapiCallbackDelete
  | .wait | .done _ => none

/-! ### Twapi_TclEventProc -/

def callback (s : Enqueue ρ) (ok : Bool) (winerr : Nat) (response : Option ρ) : Enqueue ρ :=
  { s with
    cb := { s.cb with
      winerr := if ok then winerr else errorBadArguments, response := if ok then response else none }
    event := .signal }.access

def signal (s : Enqueue ρ) : Enqueue ρ :=
  { s with
    cb := { s.cb with completionEvent := s.cb.completionEvent.map fun _ => true }
    event := .release }.access

/-- `TwapiInterpContextUnref` on the context of the callback. -/
def release (s : Enqueue ρ) : Enqueue ρ := { s with released := s.released + 1, event := .detach }.access

def detach (s : Enqueue ρ) : Enqueue ρ :=
  { s with cb := { s.cb with ticP := false }, event := .unref }.access

def eventUnref (s : Enqueue ρ) : Enqueue ρ :=
  let (s, last) := s.twapiCallbackUnref
  { s with event := if last then .deleting else .done }

/-- The interpreter's thread goes on. -/
def twapiTclEventProc (s : Enqueue ρ) : Option (Enqueue ρ) :=
  match s.event with
  | .signal => some s.signal
  | .release => some s.release
  | .detach => some s.detach
  | .unref => some s.eventUnref
  | .deleting => some { s with event := .done }.twapiCallbackDelete
  | .none | .callback | .done => none

/-! ### The machine -/

def step (s : Enqueue ρ) : Label ρ → Option (Enqueue ρ)
  | .createEvent error => if s.caller = .start ∧ s.timeout ≠ 0 then some (s.createEvent error) else none
  | .caller => s.twapiEnqueueCallback
  | .wait r => if s.caller = .wait then s.wait r else none
  | .callback ok winerr response =>
    if s.event = .callback then some (s.callback ok winerr response) else none
  | .event => s.twapiTclEventProc

end Enqueue

/-- A new callback is about to be enqueued. -/
def Enqueue.start (method : EnqueueMethod) (timeout : Nat) (wantsResponse : Bool) : Enqueue ρ :=
  ⟨method, timeout, wantsResponse, .new, .start, .none, [], 0, 0⟩

/-- All runs with one callback, whatever the arguments. -/
def enqueueMachine (ρ : Type) : Machine (Enqueue ρ) (Label ρ) where
  init s := ∃ method timeout wantsResponse, s = .start method timeout wantsResponse
  step := Enqueue.step

end Twapi.Async
