import Twapi.Lib.Machine
import Twapi.Lib.Table

/-!
Directory monitors, `storage/dirmonitor.c` and the cleanup of `storage/storage.c`.

* `TwapiDirectoryMonitorContext` — a monitor, with the acts that concern it.
* `Monitor.shutdown` — `TwapiShutdownDirectoryMonitor`.
* `State` — the monitors of an interpreter, their list and the callbacks that are queued.
* `Label` — a step of the interpreter or of the thread pool, with the outcomes of the system
  calls.
* `machine` — the interpreter.

A monitor is known by its place among those that were allocated, a buffer by its number.
-/

namespace Twapi.DirMonitor

open Lib

/-! ### Monitors -/

inductive Handle where
  | directory
  | completionEvent
  | threadPoolRegistry
deriving DecidableEq

/-- What is done to a monitor that is to be done once. -/
inductive Act where
  | acquire (h : Handle)
  | release (h : Handle)
  | link
  | unlink
  | delete
deriving DecidableEq

/-- `TwapiDirectoryMonitorBuffer`. `hEvent` is whether the event of its `OVERLAPPED` is set,
that is, a read is in progress. -/
structure Buffer where
  id : Nat
  hEvent : Bool
deriving DecidableEq

/-- `TwapiDirectoryMonitorContext`: whether it has an interpreter context, which of its handles
are valid, the references and the buffer. `rearming` is whether the function of the thread pool
is between a read and the next; `log`, the last first, is not a field of the code's. -/
structure TwapiDirectoryMonitorContext where
  ticP : Bool
  handles : Handle → Bool
  nrefs : Int
  iobP : Option Buffer
  rearming : Bool
  log : List Act

/-- `TwapiDirectoryMonitorContextNew` -/
def twapiDirectoryMonitorContextNew : TwapiDirectoryMonitorContext where
  ticP := false
  handles _ := false
  nrefs := 0
  iobP := none
  rearming := false
  log := []

namespace TwapiDirectoryMonitorContext

variable (m : TwapiDirectoryMonitorContext)

/-- A handle becomes valid. -/
def acquire (h : Handle) : TwapiDirectoryMonitorContext :=
  { m with
    handles := fun h' => if h' = h then true else m.handles h'
    log := .acquire h :: m.log }

/-- A handle is closed, or a wait unregistered, and the field set to an invalid one. -/
def release (h : Handle) : TwapiDirectoryMonitorContext :=
  { m with
    handles := fun h' => if h' = h then false else m.handles h'
    log := .release h :: m.log }

/-- `TwapiDirectoryMonitorContextRef` -/
def ref (incr : Int) : TwapiDirectoryMonitorContext := { m with nrefs := m.nrefs + incr }

/-- `TwapiFree` of the buffer, if there is one: its number comes second. -/
def freeBuffer : TwapiDirectoryMonitorContext × List Nat :=
  ({ m with iobP := none }, (m.iobP.map (·.id)).toList)

/-- `TwapiDirectoryMonitorContextDelete` -/
def delete : TwapiDirectoryMonitorContext × List Nat :=
  ({ m with log := .delete :: m.log } : TwapiDirectoryMonitorContext).freeBuffer

/-- `TwapiDirectoryMonitorContextUnref` -/
def unref (decr : Int) : TwapiDirectoryMonitorContext × List Nat :=
  let after := m.ref (-decr)
  if m.nrefs ≤ decr then after.delete else (after, [])

/-- `TwapiDirectoryMonitorInitiateRead`, with the number for a new buffer, and whether
`ReadDirectoryChangesW` succeeds or is pending. The buffers that are freed come last. -/
def initiateRead (next : Nat) (ok : Bool) : TwapiDirectoryMonitorContext × Nat × List Nat :=
  let (id, next) := match m.iobP with
    | some iob => (iob.id, next)
    | none => (next, next + 1)
  if ok then ({ m with iobP := some ⟨id, true⟩ }, next, [])
  else ({ m with iobP := none }, next, [id])

/-- The completion event is closed only where a read is in progress. -/
def closeEvent : TwapiDirectoryMonitorContext :=
  if m.handles .completionEvent then
    match m.iobP with
    | some iob =>
      if iob.hEvent then
        { m.release .completionEvent with iobP := some { iob with hEvent := false } }
      else m
    | none => m
  else m

/-- `TwapiShutdownDirectoryMonitor`, without the list; `linked` is whether there is a context
whose module data is there. -/
def shutdown (linked : Bool) : TwapiDirectoryMonitorContext × List Nat :=
  let waiting := m.handles .threadPoolRegistry
  let unrefs : Int := waiting.toNat + linked.toNat
  let m := if waiting then m.release .threadPoolRegistry else m
  let m := if linked then { m with ticP := false, log := .unlink :: m.log } else m
  let m := if m.handles .directory then m.release .directory else m
  let m := m.closeEvent
  if unrefs = 0 then (m, []) else m.unref unrefs

end TwapiDirectoryMonitorContext

/-! ### States -/

/-- A list of monitors, with its count: what is linked from the head. -/
structure ZList where
  items : List Nat
  count : Int
deriving DecidableEq

/-- `ZLIST_PREPEND`. It follows the head unless the count says that the list is empty. -/
def ZList.prepend (l : ZList) (c : Nat) : Option ZList :=
  if l.count = 0 then some ⟨[c], 1⟩
  else if l.items = [] then none
  else some ⟨c :: l.items, l.count + 1⟩

/-- `ZLIST_REMOVE`. The links of a monitor that is not in the list are null. -/
def ZList.remove (l : ZList) (c : Nat) : ZList := ⟨l.items.erase c, l.count - 1⟩

/-- A queued callback: `clientdata` and `clientdata2`. -/
structure Callback where
  dmcP : Nat
  iobP : Option Nat
deriving DecidableEq

/-- Where the thread of the interpreter is. -/
inductive Mode where
  | running
  | cleaning
  | gone
deriving DecidableEq

/-- `pval` is whether the data of the module is there, `next` the number of the next buffer,
`freed` the buffers that were freed. -/
structure State where
  contexts : List TwapiDirectoryMonitorContext
  directoryMonitors : ZList
  pval : Bool
  mode : Mode
  interpDeleted : Bool
  events : List Callback
  next : Nat
  freed : List Nat

def State.put (s : State) (c : Nat) (r : TwapiDirectoryMonitorContext × List Nat) : State :=
  { s with
    contexts := s.contexts.modify c fun _ => r.1
    freed := r.2 ++ s.freed }

/-- `TwapiShutdownDirectoryMonitor` -/
def twapiShutdownDirectoryMonitor (s : State) (c : Nat) (m : TwapiDirectoryMonitorContext) :
    State :=
  let linked := m.ticP && s.pval
  let s := if linked then { s with directoryMonitors := s.directoryMonitors.remove c } else s
  s.put c (m.shutdown linked)

/-! ### Registration -/

/-- The outcomes of the system calls, until one fails. -/
structure Outcomes where
  createFile : Bool
  createEvent : Bool
  read : Bool
  registerWait : Bool
deriving DecidableEq

/-- `system_error`, of a monitor that is not known to the state yet. -/
def systemError (s : State) (m : TwapiDirectoryMonitorContext) : State :=
  twapiShutdownDirectoryMonitor { s with contexts := s.contexts ++ [m] } s.contexts.length m

/-- `Twapi_RegisterDirectoryMonitorObjCmd` -/
def twapiRegisterDirectoryMonitorObjCmd (s : State) (o : Outcomes) : Option State :=
  let c := s.contexts.length
  let m := twapiDirectoryMonitorContextNew
  if !o.createFile then some (systemError s m)
  else
    let m := m.acquire .directory
    if !o.createEvent then some (systemError s m)
    else
      let m := m.acquire .completionEvent
      let (m, next, freed) := m.initiateRead s.next o.read
      let s := { s with next, freed := freed ++ s.freed }
      if !o.read then some (systemError s m)
      else
        match s.directoryMonitors.prepend c with
        | none => none
        | some directoryMonitors =>
          let s := { s with directoryMonitors }
          let m := { m.ref 2 with ticP := true, log := .link :: m.log }
          if o.registerWait then
            some { s with contexts := s.contexts ++ [m.acquire .threadPoolRegistry] }
          else
            let m := { m with log := .unlink :: m.log }
            some (systemError
              { s with directoryMonitors := s.directoryMonitors.remove c } m)

/-! ### The thread pool -/

/-- The result of `GetOverlappedResult`. -/
inductive Overlapped where
  | ok
  | incomplete
  | error
deriving DecidableEq

/-- `error_handler` -/
def errorHandler (s : State) (c : Nat) (m : TwapiDirectoryMonitorContext) : State :=
  let (m, freed) := m.freeBuffer
  { s.put c (m.ref 1, freed) with events := s.events ++ [⟨c, none⟩] }

/-- `TwapiDirectoryMonitorThreadPoolFn`, up to the next read. -/
def signaled (s : State) (c : Nat) (m : TwapiDirectoryMonitorContext) (iob : Buffer) :
    Overlapped → State
  | .incomplete => s
  | .error => errorHandler s c m
  | .ok =>
    { s.put c ({ m.ref 1 with iobP := none, rearming := true }, []) with
      events := s.events ++ [⟨c, some iob.id⟩] }

/-- `TwapiDirectoryMonitorThreadPoolFn`, from the next read. -/
def rearm (s : State) (c : Nat) (m : TwapiDirectoryMonitorContext) (ok : Bool) : State :=
  let (m, next, freed) := { m with rearming := false }.initiateRead s.next ok
  let s := { s with next, freed := freed ++ s.freed }
  if ok then s.put c (m, []) else errorHandler s c m

/-! ### The interpreter -/

/-- `TwapiDirectoryMonitorCallbackFn`, of a callback that was dequeued: the calls that concern
the monitor. -/
def twapiDirectoryMonitorCallbackFn (s : State) (cb : Callback)
    (m : TwapiDirectoryMonitorContext) : State :=
  let s := { s with freed := cb.iobP.toList ++ s.freed }
  if !m.ticP || s.interpDeleted then
    let s := if m.ticP then twapiShutdownDirectoryMonitor s cb.dmcP m else s
    match s.contexts[cb.dmcP]? with
    | none => s
    | some m => s.put cb.dmcP (m.unref 1)
  else s.put cb.dmcP (m.unref 1)

/-- A step. -/
inductive Label where
  | register (o : Outcomes)
  | unregister (c : Nat)
  | signaled (c : Nat) (result : Overlapped)
  | rearm (c : Nat) (ok : Bool)
  | callback (cb : Callback)
  | deleteInterp
  | cleanup (finalizer : Bool)
  | cleanupNext
deriving DecidableEq

/-- A monitor that can be shut down: `UnregisterWaitEx` waits for the thread pool. -/
def State.settled (s : State) (c : Nat) : Option TwapiDirectoryMonitorContext :=
  s.contexts[c]?.filter fun m => !m.rearming

/-- A label that is not enabled has no step. The cleanup is `TwapiStorageCleanup`, if the
finalizer is called, one monitor after the other. -/
def step (s : State) : Label → Option State
  | .register o =>
    if s.mode = .running then twapiRegisterDirectoryMonitorObjCmd s o else none
  | .unregister c =>
    if s.mode = .running ∧ c ∈ s.directoryMonitors.items then
      (s.settled c).map (twapiShutdownDirectoryMonitor s c)
    else none
  | .signaled c result =>
    (s.settled c).bind fun m =>
      if m.handles .threadPoolRegistry then
        m.iobP.map fun iob => signaled s c m iob result
      else none
  | .rearm c ok =>
    s.contexts[c]?.bind fun m => if m.rearming then some (rearm s c m ok) else none
  | .callback cb =>
    if s.mode ≠ .cleaning ∧ cb ∈ s.events then
      let s := { s with events := s.events.erase cb }
      s.contexts[cb.dmcP]?.bind fun m =>
        if m.ticP && s.interpDeleted && m.rearming then none
        else some (twapiDirectoryMonitorCallbackFn s cb m)
    else none
  | .deleteInterp =>
    if s.mode = .running then some { s with interpDeleted := true } else none
  | .cleanup finalizer =>
    if s.mode = .running ∧ s.interpDeleted then
      some { s with mode := if finalizer then .cleaning else .gone }
    else none
  | .cleanupNext =>
    if s.mode = .cleaning then
      if s.directoryMonitors.count ≠ 0 then
        s.directoryMonitors.items.head?.bind fun c =>
          (s.settled c).map (twapiShutdownDirectoryMonitor s c)
      else some { s with pval := false, mode := .gone }
    else none

/-- `Twapi_storage_Init` has been called. -/
def start : State where
  contexts := []
  directoryMonitors := ⟨[], 0⟩
  pval := true
  mode := .running
  interpDeleted := false
  events := []
  next := 0
  freed := []

def machine : Machine State Label where
  init s := s = start
  step := step

end Twapi.DirMonitor
