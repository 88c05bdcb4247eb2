import Mathlib.Algebra.BigOperators.Group.List.Basic
import Mathlib.Tactic.Ring

/-!
Computations that keep a list of what happened.

* `Traced.tell`, `Traced.tellAll` — events.
* `Traced.total` — the sum of what the events count for.
* `Traced.All` — every event has a property, with a rule for each way in which
  computations are put together.
-/

namespace Twapi.Lib

structure Traced (ε α : Type) where
  result : α
  events : List ε
deriving DecidableEq

namespace Traced

variable {ε α β : Type}

instance : Monad (Traced ε) where
  pure a := ⟨a, []⟩
  bind x f := ⟨(f x.result).result, x.events ++ (f x.result).events⟩

def tell (e : ε) : Traced ε Unit := ⟨(), [e]⟩

def tellAll (es : List ε) : Traced ε Unit := ⟨(), es⟩

/-! ### Results -/

@[simp] theorem result_pure (a : α) : (pure a : Traced ε α).result = a := rfl

@[simp] theorem result_bind (x : Traced ε α) (f : α → Traced ε β) :
    (x >>= f).result = (f x.result).result := rfl

/-- A computation whose result is known goes on from it. -/
theorem bind_of_result {x : Traced ε α} {a : α} (known : x.result = a) (f : α → Traced ε β) :
    x >>= f = ⟨(f a).result, x.events ++ (f a).events⟩ := by
  subst known
  rfl

/-! ### Events -/

@[simp] theorem events_pure (a : α) : (pure a : Traced ε α).events = [] := rfl

@[simp] theorem events_tell (e : ε) : (tell e).events = [e] := rfl

@[simp] theorem events_tellAll (es : List ε) : (tellAll es).events = es := rfl

@[simp] theorem events_bind (x : Traced ε α) (f : α → Traced ε β) :
    (x >>= f).events = x.events ++ (f x.result).events := rfl

/-- Every event has the property. -/
def All (P : ε → Prop) (x : Traced ε α) : Prop := ∀ e ∈ x.events, P e

variable {P : ε → Prop}

@[simp] theorem all_pure (a : α) : All P (pure a : Traced ε α) := by
  intro e among
  cases among

@[simp] theorem all_tell (e : ε) : All P (tell e) ↔ P e := List.forall_mem_singleton

@[simp] theorem all_tellAll (es : List ε) : All P (tellAll es) ↔ ∀ e ∈ es, P e := Iff.rfl

/-- Of two computations the second goes on from the result of the first. -/
@[simp] theorem all_bind (x : Traced ε α) (f : α → Traced ε β) :
    All P (x >>= f) ↔ All P x ∧ All P (f x.result) := List.forall_mem_append

theorem all_ite {c : Prop} [Decidable c] {x y : Traced ε α} (left : All P x) (right : All P y) :
    All P (if c then x else y) := by
  split
  · exact left
  · exact right

/-! ### Totals -/

def total (w : ε → Int) (x : Traced ε α) : Int := (x.events.map w).sum

variable {w : ε → Int}

@[simp] theorem total_pure (a : α) : total w (pure a : Traced ε α) = 0 := rfl

@[simp] theorem total_tell (e : ε) : total w (tell e) = w e := Int.add_zero _

@[simp] theorem total_tellAll (es : List ε) : total w (tellAll es) = (es.map w).sum := rfl

@[simp] theorem total_bind (x : Traced ε α) (f : α → Traced ε β) :
    total w (x >>= f) = total w x + total w (f x.result) := by
  show ((x.events ++ (f x.result).events).map w).sum = _
  rw [List.map_append, List.sum_append]
  rfl

end Traced

end Twapi.Lib
