import Mathlib.Logic.Function.Basic
import Twapi.Pointers.Model

/-!
What the registry is for: a finite map from pointers to tags and counts.

* `Entry` — a registered pointer; `Kind` — plain, or counted.
* `Registry.step` — what the operations do to the map.
* `Compatible` — the tags that a verification accepts.
* `registrations`, `unregistrations`, `lastTag` — what the history says of a pointer.
-/

namespace Twapi.Pointers

/-- A C `int` does not count further. -/
abbrev countLimit : Nat := 2 ^ 31

/-- `counted n` is registered `n + 1` times. -/
inductive Kind where
  | plain
  | counted (n : Fin countLimit)
deriving DecidableEq

structure Entry where
  tag : Nat
  kind : Kind
deriving DecidableEq

def Entry.count (e : Entry) : Nat :=
  match e.kind with
  | .plain => 1
  | .counted n => n + 1

/-- The entry after another registration. -/
def Entry.more (e : Entry) (typetag : Nat) : Except TwapiError Entry :=
  match e.kind with
  | .plain => .error .isNotCounted
  | .counted n =>
    if less : n + 1 < countLimit then
      if e.tag ≠ typetag then .error .tagMismatch
      else .ok { e with kind := .counted ⟨n + 1, less⟩ }
    else .error .isNotCounted

/-- The entry after an unregistration, if it stays. -/
def Entry.fewer (e : Entry) : Option Entry :=
  match e.kind with
  | .plain => none
  | .counted ⟨0, _⟩ => none
  | .counted ⟨n + 1, less⟩ => some { e with kind := .counted ⟨n, Nat.lt_of_succ_lt less⟩ }

abbrev Registry := Nat → Option Entry

/-- A tag that is null is compatible with any. -/
def Compatible (registered typetag : Nat) : Prop :=
  typetag = 0 ∨ registered = 0 ∨ registered = typetag

instance (registered typetag : Nat) : Decidable (Compatible registered typetag) :=
  inferInstanceAs (Decidable (_ ∨ _))

def Registry.step (m : Registry) : Op → Option TwapiError × Registry
  | .register p typetag =>
    if p = 0 then (some .nullPointer, m)
    else
      match m p with
      | none => (none, Function.update m p (some ⟨typetag, .plain⟩))
      | some _ => (some .alreadyExists, m)
  | .registerCounted p typetag =>
    if p = 0 then (some .nullPointer, m)
    else
      match m p with
      | none => (none, Function.update m p (some ⟨typetag, .counted ⟨0, by decide⟩⟩))
      | some e =>
        match e.more typetag with
        | .ok e => (none, Function.update m p (some e))
        | .error error => (some error, m)
  | .unregister p typetag =>
    if p = 0 then (some .nullPointer, m)
    else
      match m p with
      | none => (some .notFound, m)
      | some e =>
        if e.tag ≠ typetag then (some .tagMismatch, m)
        else (none, Function.update m p e.fewer)
  | .verify p typetag =>
    match m p with
    | none => (some (if p ≠ 0 then .notFound else .nullPointer), m)
    | some e => (if Compatible e.tag typetag then none else some .tagMismatch, m)

/-! ### Histories -/

/-- The tag, if a pointer was registered. -/
def registeredAs (p : Nat) : Op × Option TwapiError → Option Nat
  | (.register q typetag, none) | (.registerCounted q typetag, none) =>
    if q = p then some typetag else none
  | _ => none

/-- The tag, if a pointer was unregistered. -/
def unregisteredAs (p : Nat) : Op × Option TwapiError → Option Nat
  | (.unregister q typetag, none) => if q = p then some typetag else none
  | _ => none

/-- How often the pointer was registered. -/
def registrations (p : Nat) (history : History) : Nat :=
  history.countP fun done => (registeredAs p done).isSome

def unregistrations (p : Nat) (history : History) : Nat :=
  history.countP fun done => (unregisteredAs p done).isSome

/-- The tag of the last registration. -/
def lastTag (p : Nat) (history : History) : Option Nat := history.findSome? (registeredAs p)

end Twapi.Pointers
