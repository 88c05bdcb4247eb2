import Mathlib.Data.List.AList
import Mathlib.Tactic.Ring

/-!
The registry of pointers, `base/twapi.c`, and the pointer arguments that are verified with it,
`base/tclobjs.c`.

* `Table` — the pointers of an interpreter.
* `twapiRegisterPointerTic`, `twapiRegisterCountedPointerTic`, `twapiUnregisterPointerTic`,
  `twapiVerifyPointerTic` — the operations.
* `objToVerifiedPointerTic`, `objToVerifiedPointerOrNullTic` — arguments.
* `run` — a sequence of operations.

Pointers and tags are addresses, 0 is `NULL`. Reference counts are C integers.
-/

namespace Twapi.Pointers

/-! ### The table -/

/-- `TwapiRegisteredPointer` -/
structure TwapiRegisteredPointer where
  tag : Nat
  nrefs : Int
deriving DecidableEq, Inhabited

/-- The field `pointers` of the base context. -/
abbrev Table := AList fun _ : Nat => TwapiRegisteredPointer

/-- A C `int`. -/
def toInt (n : Int) : Int := n.bmod (2 ^ 32)

/-- Whether the entry is new comes second. The value of a new one is not set. -/
def tclCreateHashEntry (pointers : Table) (p : Nat) : Table × Bool :=
  if p ∈ pointers then (pointers, false) else (pointers.insert p default, true)

def tclSetHashValue (pointers : Table) (p : Nat) (rP : TwapiRegisteredPointer) : Table :=
  pointers.insert p rP

/-- The errors of the registry, `TWAPI_NULL_POINTER` and `TWAPI_REGISTERED_POINTER_...`. -/
inductive TwapiError where
  | nullPointer
  | alreadyExists
  | tagMismatch
  | notFound
  | isNotCounted
deriving DecidableEq

/-! ### The operations -/

/-- `TwapiVerifyPointerTic`. No error is `TWAPI_NO_ERROR`. -/
def twapiVerifyPointerTic (pointers : Table) (p typetag : Nat) : Option TwapiError :=
  match pointers.lookup p with
  | some rP =>
    if typetag ≠ 0 ∧ rP.tag ≠ 0 ∧ rP.tag ≠ typetag then some .tagMismatch else none
  | none => some (if p ≠ 0 then .notFound else .nullPointer)

/-- `TwapiRegisterPointerTic` -/
def twapiRegisterPointerTic (pointers : Table) (p typetag : Nat) :
    Option TwapiError × Table :=
  if p = 0 then (some .nullPointer, pointers)
  else
    let (pointers, newEntry) := tclCreateHashEntry pointers p
    if newEntry then (none, tclSetHashValue pointers p { tag := typetag, nrefs := -1 })
    else (some .alreadyExists, pointers)

/-- `TwapiRegisterCountedPointerTic` -/
def twapiRegisterCountedPointerTic (pointers : Table) (p typetag : Nat) :
    Option TwapiError × Table :=
  if p = 0 then (some .nullPointer, pointers)
  else
    let (pointers, newEntry) := tclCreateHashEntry pointers p
    if newEntry then (none, tclSetHashValue pointers p { tag := typetag, nrefs := 1 })
    else
      let rP := (pointers.lookup p).getD default
      if rP.nrefs < 0 then (some .isNotCounted, pointers)
      else if rP.tag ≠ typetag then (some .tagMismatch, pointers)
      else (none, tclSetHashValue pointers p { rP with nrefs := toInt (rP.nrefs + 1) })

/-- `TwapiUnregisterPointerTic` -/
def twapiUnregisterPointerTic (pointers : Table) (p typetag : Nat) :
    Option TwapiError × Table :=
  if p = 0 then (some .nullPointer, pointers)
  else
    match pointers.lookup p with
    | none => (some .notFound, pointers)
    | some rP =>
      if rP.tag ≠ typetag then (some .tagMismatch, pointers)
      else
        let nrefs := toInt (rP.nrefs - 1)
        if nrefs ≤ 0 then (none, pointers.erase p)
        else (none, tclSetHashValue pointers p { rP with nrefs })

/-! ### Arguments -/

/-- A pointer value, with its type if it has one. -/
structure OpaqueRep where
  value : Nat
  ctype : Option String
deriving DecidableEq

inductive Failure where
  | notPointer
  | unexpectedType (type expected : String)
  | registry (error : TwapiError)
deriving DecidableEq

/-- `ObjToOpaque`. The object is given as what `SetOpaqueFromAny` makes of it. -/
def objToOpaque (obj : Option OpaqueRep) (name : Option String) : Except Failure Nat :=
  match obj with
  | none => .error .notPointer
  | some rep =>
    match name.filter (· ≠ ""), rep.ctype with
    | some name, some type =>
      if name ≠ type then .error (.unexpectedType type name) else .ok rep.value
    | _, _ => .ok rep.value

/-- `ObjToVerifiedPointerOrNullTic` -/
def objToVerifiedPointerOrNullTic (pointers : Table) (obj : Option OpaqueRep)
    (name : Option String) (verifier : Nat) : Except Failure Nat := do
  let pv ← objToOpaque obj name
  if pv ≠ 0 then
    match twapiVerifyPointerTic pointers pv verifier with
    | some error => .error (.registry error)
    | none => .ok pv
  else .ok pv

/-- `ObjToVerifiedPointerTic` -/
def objToVerifiedPointerTic (pointers : Table) (obj : Option OpaqueRep)
    (name : Option String) (verifier : Nat) : Except Failure Nat := do
  let pv ← objToVerifiedPointerOrNullTic pointers obj name verifier
  if pv = 0 then .error (.registry .nullPointer) else .ok pv

/-! ### Sequences -/

inductive Op where
  | register (p typetag : Nat)
  | registerCounted (p typetag : Nat)
  | unregister (p typetag : Nat)
  | verify (p typetag : Nat)
deriving DecidableEq

def step (pointers : Table) : Op → Option TwapiError × Table
  | .register p typetag => twapiRegisterPointerTic pointers p typetag
  | .registerCounted p typetag => twapiRegisterCountedPointerTic pointers p typetag
  | .unregister p typetag => twapiUnregisterPointerTic pointers p typetag
  | .verify p typetag => (twapiVerifyPointerTic pointers p typetag, pointers)

/-- What was done, the last first. -/
abbrev History := List (Op × Option TwapiError)

/-- A sequence of operations, on the table or on another account of it. -/
def run {σ : Type} (step : σ → Op → Option TwapiError × σ) (start : σ) (ops : List Op) :
    σ × History :=
  ops.foldl (fun s op => ((step s.1 op).2, (op, (step s.1 op).1) :: s.2)) (start, [])

theorem run_snoc {σ : Type} (step : σ → Op → Option TwapiError × σ) (start : σ) (ops : List Op)
    (op : Op) :
    run step start (ops ++ [op]) =
      ((step (run step start ops).1 op).2,
        (op, (step (run step start ops).1 op).1) :: (run step start ops).2) := by
  rw [run, List.foldl_append]
  rfl

end Twapi.Pointers
