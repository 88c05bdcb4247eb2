import Mathlib.Tactic.Common

/-!
Programs over a state that may throw, and keep the state when they do.

* `Memo.inspect` — a program that looks at the state first.
* `Ends I p P` — from every state with the invariant `I`, the result of `p` has the
  property `P`, and `I` is kept.
* `Yields I p r` — the result is `r`, and does not depend on the state any further.
  There is a rule for each way in which programs are put together.
-/

namespace Twapi.Lib

/-- A program over the state `σ` that throws `ε` or returns `α`. -/
def Memo (σ ε α : Type) : Type := σ → Except ε α × σ

namespace Memo

variable {σ ε α β : Type}

def pure (a : α) : Memo σ ε α := fun s => (.ok a, s)

def bind (p : Memo σ ε α) (f : α → Memo σ ε β) : Memo σ ε β := fun s =>
  match p s with
  | (.ok a, t) => f a t
  | (.error e, t) => (.error e, t)

instance : Monad (Memo σ ε) where
  pure := Memo.pure
  bind := Memo.bind

def throw (e : ε) : Memo σ ε α := fun s => (.error e, s)

/-- A result that is there already. -/
def of (r : Except ε α) : Memo σ ε α := fun s => (r, s)

def modify (f : σ → σ) : Memo σ ε Unit := fun s => (.ok (), f s)

def inspect (g : σ → Memo σ ε α) : Memo σ ε α := fun s => g s s

/-- The results of one program for each element, up to one that throws. -/
def each (f : α → Memo σ ε β) : List α → Memo σ ε (List β)
  | [] => pure []
  | a :: as => do
      let b ← f a
      let bs ← each f as
      return b :: bs

end Memo

open Memo

variable {σ ε α β : Type}

/-- Whatever state with the invariant `p` starts in, its result has the property,
and it keeps the invariant. -/
def Ends (I : σ → Prop) (p : Memo σ ε α) (P : Except ε α → Prop) : Prop :=
  ∀ s, I s → P (p s).1 ∧ I (p s).2

def Yields (I : σ → Prop) (p : Memo σ ε α) (r : Except ε α) : Prop := Ends I p (· = r)

section Rules

variable {I : σ → Prop} {p : Memo σ ε α} {r : Except ε α} {P : Except ε α → Prop}

variable {f : α → Memo σ ε β} {g : α → Except ε β}

/-- Sequencing: what the first program may come to decides how it goes on. An error
is what the whole comes to. -/
theorem Ends.bind {Q : Except ε β → Prop} (first : Ends I p P)
    (second : ∀ a, P (.ok a) → Ends I (f a) Q) (thrown : ∀ e, P (.error e) → Q (.error e)) :
    Ends I (p >>= f) Q := by
  intro s h
  obtain ⟨result, keeps⟩ := first s h
  change Q (Memo.bind p f s).1 ∧ I (Memo.bind p f s).2
  rcases run : p s with ⟨_ | a, t⟩
  · rw [run] at result keeps
    simpa only [Memo.bind, run] using ⟨thrown _ result, keeps⟩
  · rw [run] at result keeps
    simpa only [Memo.bind, run] using second a result t keeps

/-- What a sequence returns, its second program returns, in the state after the first. -/
theorem bind_run {p : Memo σ ε α} {b : β} {s t : σ} (run : (p >>= f) s = (.ok b, t)) :
    ∃ a u, p s = (.ok a, u) ∧ f a u = (.ok b, t) := by
  change Memo.bind p f s = _ at run
  rcases first : p s with ⟨e | a, u⟩
  · rw [Memo.bind, first] at run
    cases run
  · rw [Memo.bind, first] at run
    exact ⟨a, u, rfl, run⟩

/-- The invariant may be used of the state that is looked at. -/
theorem Ends.inspect {g : σ → Memo σ ε α} (each : ∀ s, I s → Ends I (g s) P) :
    Ends I (Memo.inspect g) P :=
  fun s h => each s h s h

theorem Yields.ends (yields : Yields I p r) (has : P r) : Ends I p P :=
  fun s h => ⟨(yields s h).1 ▸ has, (yields s h).2⟩

theorem Yields.of (r : Except ε α) : Yields I (Memo.of r) r := fun _ h => ⟨rfl, h⟩

theorem Yields.pure (a : α) : Yields I (Pure.pure a : Memo σ ε α) (.ok a) := fun _ h => ⟨rfl, h⟩

theorem Yields.throw (e : ε) : Yields I (Memo.throw e : Memo σ ε α) (.error e) :=
  fun _ h => ⟨rfl, h⟩

theorem Yields.modify {f : σ → σ} (keeps : ∀ s, I s → I (f s)) :
    Yields I (Memo.modify f : Memo σ ε Unit) (.ok ()) :=
  fun s h => ⟨rfl, keeps s h⟩

/-- Sequencing after a program that returns. -/
theorem Yields.next {a : α} {r : Except ε β} (first : Yields I p (.ok a))
    (second : Yields I (f a) r) : Yields I (p >>= f) r :=
  .bind first (fun _ same => Except.ok.inj same ▸ second) (fun _ same => by cases same)

/-- Sequencing, whatever the first program comes to. -/
theorem Yields.bind (first : Yields I p r) (second : ∀ a, r = .ok a → Yields I (f a) (g a)) :
    Yields I (p >>= f) (r >>= g) := by
  refine Ends.bind first (fun a same => ?_) (fun e same => ?_)
  · subst same
    exact second a rfl
  · subst same
    rfl

theorem Yields.inspect {g : σ → Memo σ ε α} (each : ∀ s, I s → Yields I (g s) r) :
    Yields I (Memo.inspect g) r :=
  Ends.inspect each

/-- One program for each element, where it comes to what is said of each. -/
theorem Yields.each {as : List α} (one : ∀ a ∈ as, Yields I (f a) (g a)) :
    Yields I (Memo.each f as) (as.mapM g) := by
  induction as with
  | nil => exact .pure []
  | cons a as ih =>
    rw [List.mapM_cons]
    refine (one a List.mem_cons_self).bind fun b _ => ?_
    exact (ih fun c mem => one c (List.mem_cons_of_mem a mem)).bind fun bs _ => .pure _

/-- One program for each element, where the invariant is about the elements that are to
come, and asks less and less. -/
theorem each_of_remaining {I : List α → σ → Prop} (one : ∀ a as, Yields (I (a :: as)) (f a) (g a))
    (fewer : ∀ a as s, I (a :: as) s → I as s) (as : List α) (s : σ) (holds : I as s) :
    (Memo.each f as s).1 = as.mapM g ∧ I [] (Memo.each f as s).2 := by
  have none_left : ∀ (as : List α) (t : σ), I as t → I [] t := by
    intro as t
    induction as with
    | nil => exact id
    | cons a as ih => exact fun h => ih (fewer a as t h)
  induction as generalizing s with
  | nil => exact ⟨rfl, holds⟩
  | cons a as ih =>
    obtain ⟨result, keeps⟩ := one a as s holds
    change (Memo.bind (f a) _ s).1 = _ ∧ I [] (Memo.bind (f a) _ s).2
    rw [List.mapM_cons, ← result]
    rcases first : f a s with ⟨e | b, t⟩
    · rw [first] at keeps
      simp only [Memo.bind, first]
      exact ⟨rfl, none_left _ t keeps⟩
    · rw [first] at keeps
      obtain ⟨rest, left⟩ := ih t (fewer a as t keeps)
      simp only [Memo.bind, first]
      change (Memo.bind (Memo.each f as) _ t).1 = _ ∧ I [] (Memo.bind (Memo.each f as) _ t).2
      rw [← rest]
      rcases second : Memo.each f as t with ⟨e | bs, u⟩
      · rw [second] at left
        simp only [Memo.bind, second]
        exact ⟨rfl, left⟩
      · rw [second] at left
        simp only [Memo.bind, second]
        exact ⟨rfl, left⟩

end Rules

end Twapi.Lib
