import Twapi.Lib.Machine
import Twapi.Lib.Table

/-!
The contexts of modules in interpreters, `base/twapi.c` and `base/async.c`.

* `TwapiInterpContext` — a context, with its reference count.
* `State` — the contexts of a process and what holds references to them.
* `Label` — a step: a module is registered, an interpreter is deleted, a callback is queued
  or run, a wait is registered or unregistered, a reference is taken or dropped.
* `machine` — the process.

A context is known by its place among those that were allocated. The definitions of modules
are static, so that all interpreters share the pointer to a finalizer.
-/

namespace Twapi.InterpContext

open Lib

/-! ### Data -/

/-- How a registration went: the initializer, and the script and the package after it. -/
structure Outcome where
  initializer : Bool
  rest : Bool
deriving DecidableEq

def Outcome.ok (o : Outcome) : Bool := o.initializer && o.rest

/-- What is called with a context at the end of its life. -/
inductive Call where
  | finalizer
  | delete
deriving DecidableEq

/-- `TwapiInterpContext`. The outcome of the registration, and the calls of the finalizer and
of `TwapiInterpContextDelete`, the last first, are not fields of the code's. -/
structure TwapiInterpContext (M I : Type) where
  modP : M
  interp : I
  attached : Bool
  nrefs : Int
  outcome : Outcome
  calls : List Call
deriving DecidableEq

/-- The module definitions: whether there is a finalizer, and whether a context of its own
is asked for, `NEW_TIC`. -/
structure Modules (M : Type) where
  finalizer : M → Bool
  newTic : M → Bool
  isBase : M → Bool

/-- `finalizer` is whether the pointer in the static definition is not null.
`callWhenDeleted` are the cleanups that Tcl owes for the interpreters, `contexts` the list
`gTwapiInterpContexts`; `events`, `waits` and `others` are the contexts that queued
callbacks, registered waits, and others refer to. -/
structure State (M I : Type) where
  allocated : List (TwapiInterpContext M I)
  finalizer : M → Bool
  deleted : List I
  callWhenDeleted : List Nat
  contexts : List Nat
  events : List Nat
  waits : List Nat
  others : List Nat

/-- A step. A context is given by its place. -/
inductive Label (M I : Type) where
  | register (interp : I) (modP : M) (outcome : Outcome)
  | deleteInterp (interp : I)
  | cleanup (c : Nat)
  | enqueue (c : Nat)
  | event (c : Nat)
  | registerWait (c : Nat) (ok : Bool)
  | unregisterWait (c : Nat)
  | ref (c : Nat)
  | unref (c : Nat)
deriving DecidableEq

variable {M I : Type}

/-- What holds a reference to a context: the commands of the interpreter, the list of
contexts, callbacks, waits and others. -/
def State.holders (s : State M I) (c : Nat) : Nat :=
  s.callWhenDeleted.count c + s.contexts.count c + s.events.count c + s.waits.count c +
    s.others.count c

/-- How often the context was deleted. -/
def TwapiInterpContext.deleted (tic : TwapiInterpContext M I) : Nat := tic.calls.count .delete

/-! ### References -/

/-- `TwapiInterpContextRef` -/
def TwapiInterpContext.ref (incr : Int) (tic : TwapiInterpContext M I) : TwapiInterpContext M I :=
  { tic with nrefs := tic.nrefs + incr }

/-- `TwapiInterpContextUnref` -/
def TwapiInterpContext.unref (decr : Int) (tic : TwapiInterpContext M I) :
    TwapiInterpContext M I :=
  { tic with
    nrefs := tic.nrefs - decr
    calls := if tic.nrefs ≤ decr then .delete :: tic.calls else tic.calls }

@[simp] theorem TwapiInterpContext.deleted_ref (incr : Int) (tic : TwapiInterpContext M I) :
    (tic.ref incr).deleted = tic.deleted := rfl

@[simp] theorem TwapiInterpContext.deleted_unref (decr : Int) (tic : TwapiInterpContext M I) :
    (tic.unref decr).deleted = if tic.nrefs ≤ decr then tic.deleted + 1 else tic.deleted := by
  simp only [TwapiInterpContext.deleted, TwapiInterpContext.unref]
  split
  · exact List.count_cons_self
  · rfl

def State.modify (s : State M I) (c : Nat)
    (f : TwapiInterpContext M I → TwapiInterpContext M I) : State M I :=
  { s with allocated := s.allocated.modify c f }

/-! ### Registration -/

/-- `Twapi_AllocateInterpContext` -/
def twapiAllocateInterpContext (interp : I) (modP : M) (outcome : Outcome) :
    TwapiInterpContext M I where
  modP := modP
  interp := interp
  attached := true
  nrefs := 1 + 1
  outcome := outcome
  calls := []

/-- `TwapiRegisterModule`. Without a context of its own, a module uses that of the base
module. -/
def twapiRegisterModule (D : Modules M) (s : State M I) (interp : I) (modP : M)
    (outcome : Outcome) : State M I :=
  if D.newTic modP then
    let c := s.allocated.length
    let tic := twapiAllocateInterpContext interp modP outcome
    { s with
      allocated := s.allocated ++ [if outcome.ok then tic else tic.unref 1]
      callWhenDeleted := c :: s.callWhenDeleted
      contexts := if D.isBase modP then c :: s.contexts else s.contexts ++ [c] }
  else s

/-! ### Cleanup -/

variable [DecidableEq M]

/-- The finalizer, if its pointer is still there. -/
def State.finalize (s : State M I) (c : Nat) (modP : M) : State M I :=
  if s.finalizer modP then
    { s.modify c (fun tic => { tic with calls := .finalizer :: tic.calls }) with
      finalizer := Function.update s.finalizer modP false }
  else s

/-- `TwapiThreadPoolRegistrationShutdown` of every wait of a context. -/
def shutdownWaits : Nat → TwapiInterpContext M I → TwapiInterpContext M I
  | 0, tic => tic
  | n + 1, tic => shutdownWaits n (tic.unref 1)

/-- `Twapi_InterpContextCleanup` -/
def twapiInterpContextCleanup (s : State M I) (c : Nat) (modP : M) : State M I :=
  let s := s.finalize c modP
  let s := { s with contexts := s.contexts.erase c }
  let s := s.modify c fun tic => { tic with attached := false }
  let s := { s.modify c (shutdownWaits (s.waits.count c)) with
    waits := s.waits.filter (· ≠ c) }
  { s.modify c (.unref (1 + 1)) with callWhenDeleted := s.callWhenDeleted.erase c }

variable [DecidableEq I]

/-! ### Steps -/

/-- A label that is not enabled has no step: an interpreter is deleted once, and its
contexts are cleaned up only then. A reference is taken where there is one. -/
def step (D : Modules M) (s : State M I) : Label M I → Option (State M I)
  | .register interp modP outcome =>
    if interp ∈ s.deleted then none
    else some (twapiRegisterModule D s interp modP outcome)
  | .deleteInterp interp =>
    if interp ∈ s.deleted then none else some { s with deleted := interp :: s.deleted }
  | .cleanup c =>
    match s.allocated[c]? with
    | none => none
    | some tic =>
      if tic.interp ∈ s.deleted ∧ c ∈ s.callWhenDeleted then
        some (twapiInterpContextCleanup s c tic.modP)
      else none
  | .enqueue c =>
    if 0 < s.holders c then some { s.modify c (.ref 1) with events := c :: s.events }
    else none
  | .event c =>
    if c ∈ s.events then some { s.modify c (.unref 1) with events := s.events.erase c }
    else none
  | .registerWait c ok =>
    if c ∈ s.callWhenDeleted then
      if ok then some { s.modify c (.ref 1) with waits := c :: s.waits }
      else some ((s.modify c (.ref 1)).modify c (.unref 1))
    else none
  | .unregisterWait c =>
    if c ∈ s.waits then some { s.modify c (.unref 1) with waits := s.waits.erase c }
    else none
  | .ref c =>
    if 0 < s.holders c then some { s.modify c (.ref 1) with others := c :: s.others }
    else none
  | .unref c =>
    if c ∈ s.others then some { s.modify c (.unref 1) with others := s.others.erase c }
    else none

/-- No module was registered yet. -/
def start (D : Modules M) : State M I where
  allocated := []
  finalizer := D.finalizer
  deleted := []
  callWhenDeleted := []
  contexts := []
  events := []
  waits := []
  others := []

def machine (D : Modules M) : Machine (State M I) (Label M I) where
  init s := s = start D
  step := step D

end Twapi.InterpContext
