import Twapi.Lib.Lifetime
import Twapi.Lib.Machine

/-!
Objects that are implemented by scripts, `com/comserver.c`: the automation objects
of `Twapi_ComServerObjCmd` and the class factories of `Twapi_ClassFactoryObjCmd`.

* An object is known by its place in `objs`, which keeps those freed.
* `Invoke` and `CreateInstance` run a script that may do anything again before it
  is done; `frames` are the objects whose script is running, the latest first.
* A caller has a reference to what it calls. `held` of an object counts the
  references that were given out, `took` and `gave` are what the object acquired
  and released, and `log` is what was done to its memory: bookkeeping the code
  does not have.
* What `TwapiAlloc` returns is not cleared, and the label of a new class factory
  says what it reads where `memids` is.

The references that a call takes on the arguments of its script, and gives back
after it, are left out, and so are the arguments.
-/

namespace Twapi.ComServer

open Lib

/-! ### Data -/

inductive Iid where
  | iUnknown
  | iDispatch
  | iClassFactory
  | other (n : Nat)
deriving DecidableEq

inductive Resource where
  | tclObj (n : Nat)
  | interpContext
  | serverProcess
deriving DecidableEq

inductive Vtbl where
  | comServer
  | classFactory
deriving DecidableEq

/-- `Twapi_ComServer` and `Twapi_ClassFactory`, which have the same fields but for
the name of `iid`. -/
structure Obj where
  vtbl : Vtbl
  iid : Iid
  refc : BitVec 32
  memids : Option Nat
  cmd : Nat
  held : Nat
  took : List Resource
  gave : List Resource
  log : List Use
deriving DecidableEq

inductive Reply where
  | nothing
  | interface (i : Nat)
  | noInterface
  | count (refc : BitVec 32)
deriving DecidableEq

structure Com where
  objs : List Obj
  frames : List Nat
  process : Int
  shutdownSignal : Bool
  reply : Reply
deriving DecidableEq

/-- A step. `invoke` and `createInstance` either return before they run the script,
or they run it; `done` is its end, with the interface that is handed out if it is
one of these objects. -/
inductive Label where
  | comServer (iid : Iid) (memids cmd : Nat)
  | classFactory (clsid : Iid) (cmd : Nat) (memids : Option Nat)
  | queryInterface (i : Nat) (riid : Iid)
  | addRef (i : Nat)
  | release (i : Nat)
  | invoke (i : Nat) (runs : Bool)
  | createInstance (i : Nat) (runs : Bool)
  | done (handed : Option Nat)
deriving DecidableEq

/-! ### Methods -/

namespace Obj

/-- `Twapi_ComServer_AddRef` and `Twapi_ClassFactory_AddRef`. -/
def addRef (o : Obj) : Obj := { o with refc := o.refc + 1, log := .access :: o.log }

/-- `Release`, with what is released at the end. -/
def releaseWith (o : Obj) (gives : List Resource) : Obj :=
  let refc := o.refc - 1
  if refc = 0 then
    { o with refc := refc, gave := o.gave ++ gives, log := .delete :: .access :: o.log }
  else { o with refc := refc, log := .access :: o.log }

def comServerGives (o : Obj) : List Resource :=
  o.memids.toList.map .tclObj ++ [.tclObj o.cmd, .serverProcess, .interpContext]

def classFactoryGives (o : Obj) : List Resource :=
  o.memids.toList.map .tclObj ++ [.tclObj o.cmd, .interpContext]

/-- `Twapi_ComServer_Release`, but for the process. -/
def comServerRelease (o : Obj) : Obj := o.releaseWith o.comServerGives

/-- `Twapi_ClassFactory_Release`. -/
def classFactoryRelease (o : Obj) : Obj := o.releaseWith o.classFactoryGives

/-- `lpVtbl->Release`. -/
def release (o : Obj) : Obj :=
  match o.vtbl with
  | .comServer => o.comServerRelease
  | .classFactory => o.classFactoryRelease

/-- The interfaces of `Twapi_ComServer_QueryInterface` and
`Twapi_ClassFactory_QueryInterface`. -/
def supports (o : Obj) (riid : Iid) : Bool :=
  match o.vtbl with
  | .comServer => riid = o.iid ∨ riid = .iUnknown ∨ riid = .iDispatch
  | .classFactory => riid = .iClassFactory ∨ riid = .iUnknown

def touch (o : Obj) : Obj := { o with log := .access :: o.log }

def hold (o : Obj) : Obj := { o with held := o.held + 1 }

def unhold (o : Obj) : Obj := { o with held := o.held - 1 }

end Obj

namespace Com

/-- The references to an object: those given out, and those of its own calls. -/
def refs (s : Com) (i : Nat) (o : Obj) : Nat := o.held + s.frames.count i

/-- There is a reference to the object, so that it can be called. -/
def alive (s : Com) (i : Nat) : Bool := s.objs[i]?.any fun o => 0 < s.refs i o

def modify (s : Com) (i : Nat) (f : Obj → Obj) : Com := { s with objs := s.objs.modify i f }

/-- `CoReleaseServerProcess`, for a server that is freed. -/
def coReleaseServerProcess (s : Com) : Com :=
  let process := s.process - 1
  { s with process := process, shutdownSignal := s.shutdownSignal || process = 0 }

/-- `lpVtbl->Release`. -/
def release (s : Com) (i : Nat) : Com :=
  match s.objs[i]? with
  | some o =>
    let s := s.modify i Obj.release
    if o.vtbl = .comServer ∧ o.refc - 1 = 0 then s.coReleaseServerProcess else s
  | none => s

/-- `lpVtbl->AddRef`, for a caller that is given the reference. -/
def give (s : Com) (i : Nat) : Com := s.modify i fun o => o.addRef.hold

def twapiComServerObjCmd (s : Com) (iid : Iid) (memids cmd : Nat) : Com :=
  let comserverP : Obj :=
    { vtbl := .comServer, iid := iid, refc := 1, memids := some memids, cmd := cmd, held := 1
      took := [.tclObj memids, .interpContext, .tclObj cmd, .serverProcess], gave := []
      log := [] }
  { s with
    objs := s.objs ++ [comserverP], process := s.process + 1, reply := .interface s.objs.length }

/-- `memids` is not set. -/
def twapiClassFactoryObjCmd (s : Com) (clsid : Iid) (cmd : Nat) (memids : Option Nat) : Com :=
  let cfP : Obj :=
    { vtbl := .classFactory, iid := clsid, refc := 1, memids := memids, cmd := cmd, held := 1
      took := [.interpContext, .tclObj cmd], gave := [], log := [] }
  { s with objs := s.objs ++ [cfP], reply := .interface s.objs.length }

def queryInterface (s : Com) (i : Nat) (riid : Iid) : Com :=
  if s.objs[i]?.any (·.supports riid) then { s.give i with reply := .interface i }
  else { s.modify i Obj.touch with reply := .noInterface }

/-- The first half of `Twapi_ComServer_Invoke` and `Twapi_ClassFactory_CreateInstance`. -/
def enter (s : Com) (i : Nat) (runs : Bool) : Com :=
  if runs then { s.modify i Obj.addRef with frames := i :: s.frames }
  else s.modify i Obj.touch

/-- The second half: `Invoke` hands out an interface with a reference, and
`CreateInstance` with the one that the script has. -/
def done (s : Com) (handed : Option Nat) : Option Com :=
  match s.frames with
  | [] => none
  | i :: frames =>
    let t := { s with frames := frames }
    match handed with
    | none => some (t.release i)
    | some j =>
      if s.objs[i]?.any (·.vtbl = .classFactory) then some (t.release i)
      else if s.alive j then some ((t.give j).release i)
      else none

/-! ### The machine -/

/-- The object of a method is called through a reference to it. -/
def step (s : Com) : Label → Option Com
  | .comServer iid memids cmd => some (s.twapiComServerObjCmd iid memids cmd)
  | .classFactory clsid cmd memids => some (s.twapiClassFactoryObjCmd clsid cmd memids)
  | .queryInterface i riid => if s.alive i then some (s.queryInterface i riid) else none
  | .addRef i =>
    if s.alive i then
      some { s.give i with reply := ((s.objs[i]?.map fun o => .count (o.refc + 1)).getD .nothing) }
    else none
  | .release i =>
    if s.objs[i]?.any (0 < ·.held) then
      let t := (s.modify i Obj.unhold).release i
      some { t with reply := ((s.objs[i]?.map fun o => .count (o.refc - 1)).getD .nothing) }
    else none
  | .invoke i runs =>
    if s.alive i ∧ s.objs[i]?.any (·.vtbl = .comServer) then some (s.enter i runs) else none
  | .createInstance i runs =>
    if s.alive i ∧ s.objs[i]?.any (·.vtbl = .classFactory) then some (s.enter i runs) else none
  | .done handed => s.done handed

end Com

def Com.start : Com := ⟨[], [], 0, false, .nothing⟩

/-- All runs of the objects of one interpreter. -/
def comMachine : Machine Com Label where
  init s := s = .start
  step := Com.step

end Twapi.ComServer
