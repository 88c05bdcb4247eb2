import Mathlib.Logic.Function.Basic
import Twapi.Lib.Machine

/-!
Interface proxies, `tcl/com.tcl`: `make_interface_proxy`, the classes `INullProxy`
and `IUnknownProxy` with their subclasses, and the trace that keeps the registry
`_interface_proxies` up to date.

* Objects are those of TclOO: `destroy` runs the destructor, once, and then deletes
  the command, also where the destructor fails; `new` chooses a name that is not in
  use; `rename` to the empty string destroys the object. The traces on the command
  get its full name.
* Only the destructor of `IDispatchProxy` calls another command: `Release` of the
  ITypeComp proxy, by the name it was given when it was made. So one `destroy` can
  start others.
* Calls of COM do not call back.
-/

namespace Twapi.ComProxy

open Lib

/-- `dispatch` is `IDispatchProxy` and what inherits from it, `unknown` is any other
class that inherits from `IUnknownProxy`. -/
inductive Class where
  | null
  | unknown
  | dispatch
deriving DecidableEq

/-- What a pointer value tells: whether it is null, and the class that has the name
of its type, if there is one. -/
structure Pointers (Ifc : Type) where
  null : Ifc → Bool
  cls : Ifc → Option Class
  cls_ne : ∀ i, cls i ≠ some .null

variable {Ifc Name : Type}

/-- `id` counts the proxies that were made before. `_typecomp` does not exist, or is
empty, or is a name. `traced` is whether the command has `_interface_proxy_tracer`. -/
structure Proxy (Ifc Name : Type) where
  id : Nat
  ifc : Ifc
  cls : Class
  nrefs : Int
  typecomp : Option (Option Name)
  traced : Bool
deriving DecidableEq

/-- Whose reference it is that `IUnknown_Release` releases. -/
inductive Owner where
  | caller
  | proxy (id : Nat)
deriving DecidableEq

/-- `created` has the pointer of each proxy that was made, with a reference that its
caller owned; `releases` has the calls of `IUnknown_Release`. -/
structure State (Ifc Name : Type) where
  proxies : Name → Option (Proxy Ifc Name)
  registry : Ifc → Option Name
  created : List Ifc
  releases : List (Owner × Ifc)

def State.start : State Ifc Name := ⟨fun _ => none, fun _ => none, [], []⟩

variable [DecidableEq Ifc] [DecidableEq Name]

namespace State

variable (s : State Ifc Name)

def set (n : Name) (p : Option (Proxy Ifc Name)) : State Ifc Name :=
  { s with proxies := Function.update s.proxies n p }

/-- `incr _nrefs`. -/
def incr (n : Name) (p : Proxy Ifc Name) (k : Int) : State Ifc Name :=
  s.set n (some { p with nrefs := p.nrefs + k })

def release (owner : Owner) (i : Ifc) : State Ifc Name :=
  { s with releases := (owner, i) :: s.releases }

/-- The command is deleted, which calls the trace. -/
def remove (n : Name) : State Ifc Name :=
  match s.proxies n with
  | none => s
  | some p =>
    { s.set n none with
      registry := if p.traced then Function.update s.registry p.ifc none else s.registry }

/-- A proxy of a new object. -/
def add (n : Name) (i : Ifc) (cls : Class) (traced : Bool) : State Ifc Name :=
  { s.set n (some ⟨s.created.length, i, cls, 1, none, traced⟩) with created := s.created ++ [i] }

end State

/-! ### Destructors -/

/-- The proxy that the destructor releases. -/
def Proxy.held (p : Proxy Ifc Name) : Option Name :=
  if p.cls = .dispatch then p.typecomp.join else none

/-- The end of the destructor, that of `IUnknownProxy`. -/
def State.nativeRelease (s : State Ifc Name) (p : Proxy Ifc Name) : State Ifc Name :=
  if p.cls = .null then s else s.release (.proxy p.id) p.ifc

/-- `Release`, and whether it succeeds. -/
def releaseBy (destroy : State Ifc Name → Name → State Ifc Name × Bool) (s : State Ifc Name)
    (n : Name) : State Ifc Name × Bool :=
  match s.proxies n with
  | none => (s, false)
  | some p => if p.nrefs = 1 then destroy (s.incr n p (-1)) n else (s.incr n p (-1), true)

/-- The destructor. After an error in it the rest, which has `next`, is not run. -/
def destructorBy (release : State Ifc Name → Name → State Ifc Name × Bool) (s : State Ifc Name)
    (p : Proxy Ifc Name) : State Ifc Name × Bool :=
  match p.held with
  | none => (s.nativeRelease p, true)
  | some t =>
    match release s t with
    | (s, true) => (s.nativeRelease p, true)
    | (s, false) => (s, false)

/-- `destroy`. The destructors of `running` have started and are not run again. The
depth bounds how many are started in turn; `destroy` below has enough. -/
def destroyWith : Nat → List Name → State Ifc Name → Name → State Ifc Name × Bool
  | 0, _, s, _ => (s, false)
  | depth + 1, running, s, n =>
    match s.proxies n with
    | none => (s, false)
    | some p =>
      if n ∈ running then (s.remove n, true)
      else
        let d := destructorBy (releaseBy (destroyWith depth (n :: running))) s p
        (d.1.remove n, d.2)

/-- No destructor starts twice, so there are at most as many as there are proxies. -/
def destroy (s : State Ifc Name) (n : Name) : State Ifc Name :=
  (destroyWith (s.created.length + 1) [] s n).1

/-! ### Commands -/

variable (P : Pointers Ifc)

/-- `INullProxy new`, or `new` of the class with the name of the type. -/
def Pointers.proxyClass (i : Ifc) : Option Class := if P.null i then some .null else P.cls i

/-- `make_interface_proxy`, where `n` is the name of a new object. -/
def makeInterfaceProxy (s : State Ifc Name) (i : Ifc) (n : Name) :
    State Ifc Name × Option Name :=
  match s.registry i with
  | some proxy =>
    match s.proxies proxy with
    | none => (s, none)
    | some p =>
      let s := s.incr proxy p 1
      (if P.null i then s else s.release .caller i, some proxy)
  | none =>
    match P.proxyClass i, s.proxies n with
    | some cls, none =>
      ({ s.add n i cls true with registry := Function.update s.registry i (some n) }, some n)
    | _, _ => (s, none)

/-- `new` of a class by itself, as in `comobj_idispatch`: there is no trace. -/
def newProxy (s : State Ifc Name) (i : Ifc) (n : Name) : State Ifc Name :=
  if P.null i then s
  else
    match P.cls i, s.proxies n with
    | some cls, none => s.add n i cls false
    | _, _ => s

/-- `rename` to a name. The trace sets the registry. -/
def renameProxy (s : State Ifc Name) (old new : Name) : State Ifc Name :=
  match s.proxies old, s.proxies new with
  | some p, none =>
    { (s.set old none).set new (some p) with
      registry := if p.traced then Function.update s.registry p.ifc (some new) else s.registry }
  | _, _ => s

/-- What `@InitTypeCompAndGuid` does to a dispatch proxy, once: `_typecomp` is set to
the proxy of the ITypeComp, or is empty where there is no type information. The
proxies of an ITypeInfo that it makes and releases are steps of their own. -/
def initTypeComp (s : State Ifc Name) (d : Name) (found : Option (Ifc × Name)) :
    State Ifc Name :=
  match s.proxies d with
  | none => s
  | some p =>
    if p.cls = .dispatch ∧ p.typecomp = none then
      match found with
      | none => s.set d (some { p with typecomp := some none })
      | some (i, n) =>
        match makeInterfaceProxy P s i n with
        | (s, some t) =>
          match s.proxies d with
          | some p => s.set d (some { p with typecomp := some (some t) })
          | none => s
        | (s, none) => s
    else s

inductive Step (Ifc Name : Type) where
  | make (i : Ifc) (n : Name)
  | new (i : Ifc) (n : Name)
  | rename (old new : Name)
  /-- `rename` to the empty string. -/
  | delete (n : Name)
  | addRef (n : Name)
  | release (n : Name)
  | destroy (n : Name)
  | initTypeComp (d : Name) (found : Option (Ifc × Name))
deriving DecidableEq

/-- A command that is not there is an error, which changes nothing. -/
def step (s : State Ifc Name) : Step Ifc Name → State Ifc Name
  | .make i n => (makeInterfaceProxy P s i n).1
  | .new i n => newProxy P s i n
  | .rename old new => renameProxy s old new
  | .delete n => destroy s n
  | .addRef n =>
    match s.proxies n with
    | none => s
    | some p => s.incr n p 1
  | .release n => (releaseBy (fun s n => (destroy s n, true)) s n).1
  | .destroy n => destroy s n
  | .initTypeComp d found => initTypeComp P s d found

def machine : Machine (State Ifc Name) (Step Ifc Name) where
  init s := s = .start
  step s a := some (step P s a)

end Twapi.ComProxy
