import Mathlib.Logic.Function.Basic
import Twapi.Lib.Machine

/-!
Classes and objects of `tcl/metoo.tcl`.

* A class is a namespace, with a command as long as it lives. A namespace without one was made
  by `superclass` for a class that is not there.
* An object is a namespace `o#` with a number, in that of its class. Its name is that of its
  command.
* `destructed` are the objects whose destructor was run, which the code does not keep.
* `Label` is one command. A command that fails leaves what it did before.

Names are complete. The namespace of a class has those of its objects and their first names in
it, and no other namespace or command that one gives. Constructors may fail, and destructors do
not. Neither they nor the definition of a class make, rename or destroy classes and objects.
-/

namespace Twapi.Metoo

open Lib

/-- `live` — there is the command. The newest come first, but for those without one. -/
structure Class (Name : Type) where
  name : Name
  live : Bool
  super : Option Name
  subclasses : List Name
deriving DecidableEq

/-- The namespace `${class_ns}::o#number`, and its `_(name)`. -/
structure Object (Name : Type) where
  number : Nat
  class_ns : Name
  name : Name
deriving DecidableEq

/-- `registered` is `_objects`, and `ok` tells if the last command was successful. -/
structure State (Name : Type) where
  classes : List (Class Name)
  objects : List (Object Name)
  registered : Name → Option Nat
  next_id : Nat
  destructed : List Nat
  ok : Bool

inductive Label (Name : Type) where
  | define (cname : Name) (superclass : Option Name)
  | create (class_ns : Name) (objname : Option Name) (constructed : Bool)
  | rename (oldname newname : Name)
  | destroyObject (objname : Name)
  | destroyClass (class_ns : Name)
deriving DecidableEq

section Commands

variable {Name : Type} [DecidableEq Name]

namespace State

def find (s : State Name) (c : Name) : Option (Class Name) := s.classes.find? (·.name = c)

def Live (s : State Name) (c : Name) : Prop := (s.find c).any (·.live) = true

instance (s : State Name) (c : Name) : Decidable (s.Live c) := inferInstanceAs (Decidable (_ = true))

def called (s : State Name) (name : Name) : Option (Object Name) := s.objects.find? (·.name = name)

def numbered (s : State Name) (number : Nat) : Option (Object Name) :=
  s.objects.find? (·.number = number)

def fail (s : State Name) : State Name := { s with ok := false }

/-! ### Objects -/

/-- The method `destroy` of an object, which is found by the name of its command. -/
def destroyObject (s : State Name) (objname : Name) : State Name :=
  match s.called objname with
  | none => s.fail
  | some me =>
    { s with
      objects := s.objects.filter (·.number ≠ me.number)
      registered := Function.update s.registered objname none
      destructed := me.number :: s.destructed
      ok := true }

/-- `_new`. A command of the same name is replaced, and an object that had it is destroyed by
the trace. When the constructor fails, the command and the namespace are removed again. -/
def new (s : State Name) (class_ns objname : Name) (constructed : Bool) : State Name :=
  let number := s.next_id + 1
  let s := if (s.called objname).isSome then s.destroyObject objname else s
  { s with
    objects := if constructed then ⟨number, class_ns, objname⟩ :: s.objects else s.objects
    registered := Function.update s.registered objname (some number)
    next_id := number
    ok := constructed }

/-- `rename`, and `_trace_object_renames`. -/
def renameObject (s : State Name) (oldname newname : Name) : State Name :=
  match s.called oldname, s.registered oldname with
  | some me, some number =>
    if (s.called newname).isSome ∨ s.Live newname then s.fail
    else
      { s with
        objects := s.objects.map fun o =>
          if o.number = me.number then { o with name := newname } else o
        registered := Function.update (Function.update s.registered newname (some number)) oldname none
        ok := true }
  | _, _ => s.fail

/-! ### Classes -/

/-- `set ${sup}::subclasses($class_ns) 1`, in a namespace that is made if there is none. -/
def record (s : State Name) (sup class_ns : Name) : State Name :=
  if (s.find sup).isSome then
    { s with
      classes := s.classes.map fun k =>
        if k.name = sup then { k with subclasses := k.subclasses.insert class_ns } else k }
  else { s with classes := s.classes ++ [⟨sup, false, none, [class_ns]⟩] }

/-- `metoo::class create` -/
def define (s : State Name) (cname : Name) (superclass : Option Name) : State Name :=
  if (s.find cname).isSome ∨ (s.called cname).isSome then s.fail
  else
    let s := { s with classes := ⟨cname, true, superclass, []⟩ :: s.classes, ok := true }
    match superclass with
    | none => s
    | some sup => s.record sup cname

/-- The objects of a class, each destroyed by its name. -/
def destroyObjects : List Nat → State Name → State Name
  | [], s => { s with ok := true }
  | number :: numbers, s =>
    match s.numbered number with
    | none => s.fail
    | some o =>
      let t := s.destroyObject o.name
      if t.ok then destroyObjects numbers t else t

/-- The commands of classes, up to one that fails. -/
def each (destroy : Name → State Name → State Name) : List Name → State Name → State Name
  | [], s => { s with ok := true }
  | c :: cs, s =>
    let t := destroy c s
    if t.ok then each destroy cs t else t

def remove (s : State Name) (c : Name) : State Name :=
  { s with classes := s.classes.filter (·.name ≠ c), ok := true }

/-- `_class_cmd` with `destroy`. Too many calls in one another are an error. -/
def destroyClass : Nat → Name → State Name → State Name
  | 0, _, s => s.fail
  | fuel + 1, class_ns, s =>
    match s.find class_ns with
    | none => s.fail
    | some k =>
      if k.live then
        let numbers := (s.objects.filter (·.class_ns = class_ns)).map (·.number)
        let t := s.destroyObjects numbers
        if t.ok then
          let u := each (destroyClass fuel) k.subclasses t
          if u.ok then u.remove class_ns else u
        else t
      else s.fail

end State

/-! ### Commands -/

variable (auto : Name → Nat → Name)

/-- `auto` is the name of an object without one. An object is not given the name of a class. -/
def step (s : State Name) : Label Name → Option (State Name)
  | .define cname superclass => some (s.define cname superclass)
  | .create class_ns objname constructed =>
    let objname := objname.getD (auto class_ns (s.next_id + 1))
    if s.Live class_ns then
      if s.Live objname then none else some (s.new class_ns objname constructed)
    else some s.fail
  | .rename oldname newname => some (s.renameObject oldname newname)
  | .destroyObject objname => some (s.destroyObject objname)
  | .destroyClass class_ns => some (s.destroyClass s.classes.length class_ns)

def start : State Name := ⟨[], [], fun _ => none, 0, [], true⟩

def machine : Machine (State Name) (Label Name) := ⟨(· = start), step auto⟩

end Commands

end Twapi.Metoo
