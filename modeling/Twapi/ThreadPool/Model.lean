import Mathlib.Tactic.Ring
import Twapi.Lib.Machine

/-!
Waiting on handles through the thread pool, `base/threadpool.c`: the interpreter's
thread, which registers, dispatches and unregisters, and the pool's threads,
which run `TwapiThreadPoolRegistrationProc`.

* A registration is known by its place in `objs`, which keeps those freed.
* The interpreter's thread is only interruptible where it waits: in
  `UnregisterWaitEx`, which returns when no callback is under way (`Pc`).
* `running`, `frees` and `given` of a registration, `source` of an event and
  `invoked` are bookkeeping the code does not have.

Identifiers have `w` bits: 64, or 32 where `_WIN64` is not defined.
-/

namespace Twapi.ThreadPool

open Lib

/-! ### Data -/

/-- `struct _TwapiThreadPoolRegistration`. A handle that is `none` is
`INVALID_HANDLE_VALUE`; `tpHandle` is whether the pool has a wait for it. -/
structure TwapiThreadPoolRegistration (w : Nat) where
  handle : Option Nat
  tpHandle : Bool
  ticP : Bool
  id : BitVec w
  nrefs : UInt32
  running : Nat
  frees : Nat
  given : Nat
deriving DecidableEq

/-- A callback in the Tcl event queue: `clientdata` and `clientdata2`, and the
registration it came from. -/
structure Event (w : Nat) where
  id : BitVec w
  timedOut : Bool
  source : Nat
deriving DecidableEq

/-- A call of a signal handler. -/
structure Invocation (w : Nat) where
  registration : Nat
  id : BitVec w
  handle : Option Nat
  timedOut : Bool
deriving DecidableEq

/-- What the interpreter's thread is doing: nothing, waiting in
`UnregisterWaitEx`, or between two registrations of the cleanup. -/
inductive Pc where
  | idle
  | stopping (i : Nat) (cleaning : Bool)
  | cleaning
deriving DecidableEq

inductive Reply (w : Nat) where
  | nothing
  | id (id : BitVec w)
  | registerWaitFailed
deriving DecidableEq

structure Pool (w : Nat) where
  gIdGenerator : BitVec w
  objs : List (TwapiThreadPoolRegistration w)
  registrations : List Nat
  events : List (Event w)
  invoked : List (Invocation w)
  interpDeleted : Bool
  interpNull : Bool
  ticRefs : Int
  pc : Pc
  reply : Reply w
deriving DecidableEq

/-- A step. `nrefs` is what the allocated memory contains in that field; `ok`
whether `RegisterWaitForSingleObject` succeeds. -/
inductive Label (w : Nat) where
  | register (h : Nat) (nrefs : UInt32) (ok : Bool)
  | unregister (id : BitVec w)
  | newId
  | fire (i : Nat)
  | enqueue (i : Nat) (timedOut : Bool)
  | dispatch (k : Nat)
  | deleteInterp
  | cleanup
  | next
  | stopped
deriving DecidableEq

variable {w : Nat}

/-! ### Reference counts -/

namespace TwapiThreadPoolRegistration

/-- `TwapiThreadPoolRegistrationRef`. -/
def ref (r : TwapiThreadPoolRegistration w) (incr : UInt32) : TwapiThreadPoolRegistration w :=
  { r with nrefs := r.nrefs + incr }

/-- `TwapiThreadPoolRegistrationUnref`; the count is unsigned. -/
def unref (r : TwapiThreadPoolRegistration w) (unrefs : UInt32) : TwapiThreadPoolRegistration w :=
  let nrefs := r.nrefs - unrefs
  { r with nrefs := nrefs, frees := if nrefs ≤ 0 then r.frees + 1 else r.frees }

/-- `TwapiThreadPoolRegistrationShutdown`, after `UnregisterWaitEx`. -/
def shutdown (r : TwapiThreadPoolRegistration w) : TwapiThreadPoolRegistration w :=
  let unrefs : UInt32 := (if r.tpHandle then 1 else 0) + (if r.ticP then 1 else 0)
  let r := { r with handle := none, tpHandle := false, ticP := false }
  if unrefs ≠ 0 then r.unref unrefs else r

end TwapiThreadPoolRegistration

namespace Pool

/-! ### The interpreter's thread -/

/-- `ZLIST_LOCATE` by id in the registrations of the context. -/
def locate (s : Pool w) (id : BitVec w) : Option Nat :=
  s.registrations.find? fun i => s.objs[i]?.any fun r => r.id = id

/-- Take a registration off the list and drop its references. -/
def release (s : Pool w) (i : Nat) : Pool w :=
  match s.objs[i]? with
  | some r =>
    let s := { s with objs := s.objs.modify i TwapiThreadPoolRegistration.shutdown }
    if r.ticP then { s with registrations := s.registrations.erase i, ticRefs := s.ticRefs - 1 } else s
  | none => s

/-- `TwapiThreadPoolRegistrationShutdown`: if the pool has a wait, the thread
waits in `UnregisterWaitEx` first. -/
def twapiThreadPoolRegistrationShutdown (s : Pool w) (i : Nat) (cleaning : Bool) : Pool w :=
  if s.objs[i]?.any (·.tpHandle) then { s with pc := .stopping i cleaning } else s.release i

/-- `UnregisterWaitEx` returns. -/
def stopped (s : Pool w) : Option (Pool w) :=
  match s.pc with
  | .stopping i cleaning =>
    if s.objs[i]?.any (·.running = 0) then
      some { s.release i with pc := if cleaning then .cleaning else .idle }
    else none
  | _ => none

def twapiThreadPoolRegister (s : Pool w) (h : Nat) (nrefs : UInt32) (ok : Bool) : Pool w :=
  let id := s.gIdGenerator + 1
  let i := s.objs.length
  let tprP : TwapiThreadPoolRegistration w := ⟨some h, false, true, id, nrefs, 0, 0, h⟩
  let s := { s with
    gIdGenerator := id, objs := s.objs ++ [tprP.ref 2], registrations := i :: s.registrations
    ticRefs := s.ticRefs + 1 }
  if ok then
    { s with objs := s.objs.modify i fun r => { r with tpHandle := true }, reply := .id id }
  else
    let s := { s with objs := s.objs.modify i (·.unref 1) }
    { s.twapiThreadPoolRegistrationShutdown i false with reply := .registerWaitFailed }

def twapiThreadPoolUnregister (s : Pool w) (id : BitVec w) : Pool w :=
  match s.locate id with
  | some i => s.twapiThreadPoolRegistrationShutdown i false
  | none => s

/-- `TwapiThreadPoolRegistrationCallback`, dispatching event `k`. -/
def twapiThreadPoolRegistrationCallback (s : Pool w) (k : Nat) : Option (Pool w) :=
  s.events[k]?.map fun e =>
    let s := { s with events := s.events.eraseIdx k }
    if s.interpNull ∨ s.interpDeleted then s
    else
      match s.locate e.id with
      | none => s
      | some i =>
        { s with invoked := ⟨i, e.id, s.objs[i]?.bind (·.handle), e.timedOut⟩ :: s.invoked }

/-- One round of the loop in `Twapi_InterpContextCleanup`. -/
def next (s : Pool w) : Pool w :=
  match s.registrations with
  | [] => { s with pc := .idle }
  | i :: _ => s.twapiThreadPoolRegistrationShutdown i true

/-! ### The pool's threads -/

/-- The pool starts a callback for a wait that is registered. -/
def fire (s : Pool w) (i : Nat) : Option (Pool w) :=
  if s.objs[i]?.any (·.tpHandle) then
    some { s with objs := s.objs.modify i fun r => { r with running := r.running + 1 } }
  else none

/-- `TwapiThreadPoolRegistrationProc`: the id goes into the queue, not the registration. -/
def twapiThreadPoolRegistrationProc (s : Pool w) (i : Nat) (timedOut : Bool) : Option (Pool w) :=
  match s.objs[i]? with
  | some r =>
    if 0 < r.running then
      some { s with
        objs := s.objs.modify i fun r => { r with running := r.running - 1 }
        events := s.events ++ [⟨r.id, timedOut, i⟩] }
    else none
  | none => none

/-! ### The machine -/

def step (s : Pool w) : Label w → Option (Pool w)
  | .register h nrefs ok =>
    if s.pc = .idle ∧ !s.interpNull then some (s.twapiThreadPoolRegister h nrefs ok) else none
  | .unregister id =>
    if s.pc = .idle ∧ !s.interpNull then some (s.twapiThreadPoolUnregister id) else none
  | .newId => some { s with gIdGenerator := s.gIdGenerator + 1 }
  | .fire i => s.fire i
  | .enqueue i timedOut => s.twapiThreadPoolRegistrationProc i timedOut
  | .dispatch k => if s.pc = .idle then s.twapiThreadPoolRegistrationCallback k else none
  | .deleteInterp => some { s with interpDeleted := true }
  | .cleanup =>
    if s.pc = .idle ∧ s.interpDeleted ∧ !s.interpNull then
      some { s with interpNull := true, pc := .cleaning }
    else none
  | .next => if s.pc = .cleaning then some s.next else none
  | .stopped => s.stopped

end Pool

def Pool.start : Pool w := ⟨0, [], [], [], [], false, false, 0, .idle, .nothing⟩

/-- All runs of one interpreter context. -/
def poolMachine (w : Nat) : Machine (Pool w) (Label w) where
  init s := s = .start
  step := Pool.step

end Twapi.ThreadPool
