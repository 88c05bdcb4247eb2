import Mathlib.Logic.Function.Basic

/-!
Prototypes of methods, `tcl/com.tcl`: the cache of prototypes, the method
`@Prototype` of `IDispatchProxy` and `define_dispatch_prototypes`.

* An lcid is a number and an invocation kind is what `_string_to_invkind` makes of it;
  both are taken to be written in one way.
* What `@InitTypeCompAndGuid` and the type information give for a proxy does not
  change, so the variables in which a proxy keeps them are left out.
* A prototype without its fifth element is not cached, but neither the type
  information nor a definition gives one. `IDispatchExProxy` has a method of its own.
-/

namespace Twapi.Prototype

variable {Proxy Guid Name Kind α : Type}

/-- `rest` are the member id, the types and the names of the parameters. -/
structure Proto (Kind α : Type) where
  lcid : Nat
  invkind : Kind
  rest : α
deriving DecidableEq

structure Key (Guid Name Kind : Type) where
  guid : Guid
  name : Name
  lcid : Nat
  invkind : Kind
deriving DecidableEq

/-- `_dispatch_prototype_cache`. An empty prototype is `none`: there is no such
member. -/
abbrev Cache (Guid Name Kind α : Type) : Type :=
  Key Guid Name Kind → Option (Option (Proto Kind α))

/-- What there is to know of proxies: `_guid`, which may be empty; whether
`@InitTypeCompAndGuid` fails; and what `Bind` and the type information it gives tell
of a member, where there is an ITypeComp. -/
structure Interfaces (Proxy Guid Name Kind α : Type) where
  guid : Proxy → Option Guid
  fails : Proxy → Bool
  bind : Proxy → Name → Nat → Kind → Option α

def Interfaces.proto (I : Interfaces Proxy Guid Name Kind α) (p : Proxy) (name : Name)
    (lcid : Nat) (invkind : Kind) : Option (Proto Kind α) :=
  (I.bind p name lcid invkind).map (⟨lcid, invkind, ·⟩)

section Commands

variable [DecidableEq Guid] [DecidableEq Name] [DecidableEq Kind]

/-- The lcid to try next. -/
def fallback (lcid : Nat) : Nat := if lcid = 0 then 1033 else 0

/-- `@Prototype`, nested at most `depth` times. A negative result is in the cache
while the others are tried. -/
def prototypeWith (I : Interfaces Proxy Guid Name Kind α) (p : Proxy) (name : Name)
    (invkind : Kind) :
    Nat → Nat → Cache Guid Name Kind α →
      Except Unit (Option (Proto Kind α)) × Cache Guid Name Kind α
  | 0, _, cache => (.error (), cache)
  | depth + 1, lcid, cache =>
    match I.guid p with
    | none =>
      (if I.fails p then .error () else .ok (I.proto p name lcid invkind), cache)
    | some guid =>
      match cache ⟨guid, name, lcid, invkind⟩ with
      | some proto => (.ok proto, cache)
      | none =>
        if I.fails p then (.error (), cache)
        else
          let proto := I.proto p name lcid invkind
          let cache := Function.update cache ⟨guid, name, lcid, invkind⟩ (some proto)
          if proto.isSome then (.ok proto, cache)
          else
            match prototypeWith I p name invkind depth (fallback lcid) cache with
            | (.error e, cache) => (.error e, cache)
            | (.ok proto, cache) =>
              (.ok proto,
                Function.update cache ⟨guid, name, lcid, invkind⟩ (some proto))

/-- `@Prototype`. After an lcid, `0` and `1033` the next is in the cache. -/
def prototype (I : Interfaces Proxy Guid Name Kind α) (p : Proxy) (name : Name) (lcid : Nat)
    (invkind : Kind) (cache : Cache Guid Name Kind α) :
    Except Unit (Option (Proto Kind α)) × Cache Guid Name Kind α :=
  prototypeWith I p name invkind 4 lcid cache

/-- A prototype in the text of a definition. -/
structure Def (Name Kind α : Type) where
  name : Name
  invkind : Kind
  rest : α
deriving DecidableEq

/-- `define_dispatch_prototypes` of what was parsed, with the option `-lcid`. -/
def definePrototypes (guid : Guid) (lcid : Nat) (defs : List (Def Name Kind α))
    (cache : Cache Guid Name Kind α) : Cache Guid Name Kind α :=
  defs.foldl (fun cache d =>
    Function.update cache ⟨guid, d.name, lcid, d.invkind⟩ (some (some ⟨lcid, d.invkind, d.rest⟩)))
    cache

/-! ### Histories -/

inductive Op (Proxy Guid Name Kind α : Type) where
  | lookup (p : Proxy) (name : Name) (lcid : Nat) (invkind : Kind)
  | define (guid : Guid) (lcid : Nat) (defs : List (Def Name Kind α))

def Op.isDefine : Op Proxy Guid Name Kind α → Bool
  | .lookup _ _ _ _ => false
  | .define _ _ _ => true

variable (I : Interfaces Proxy Guid Name Kind α)

def Op.run (cache : Cache Guid Name Kind α) : Op Proxy Guid Name Kind α → Cache Guid Name Kind α
  | .lookup p name lcid invkind => (prototype I p name lcid invkind cache).2
  | .define guid lcid defs => definePrototypes guid lcid defs cache

/-- The cache after a history, which starts with an empty one. -/
def runAll (ops : List (Op Proxy Guid Name Kind α)) : Cache Guid Name Kind α :=
  ops.foldl (Op.run I) fun _ => none

end Commands

end Twapi.Prototype
