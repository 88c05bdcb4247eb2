import Mathlib.Tactic.Common

/-!
Programs that ask their environment, with the rules of their pre- and
postconditions.

A `Script` works on a state, may throw, and takes what the commands it calls
answer from a list. It has no result when the list runs out, or holds an answer
that does not fit the question: the run is not finished, or not possible.

* `Script.handle` — the error handler, which may change the type of errors.
* `Script.within` — a block that works on a copy of a part of the state and
  writes the copy back however it ends, over what others did to the original
  meanwhile. `Script.inside` runs a program on the original from there.
* `Spec A P p Q E` — where every answer meets `A`, a finished run of `p` from a
  state in `P` ends in `Q` of its value or in `E` of its error. `Keeps A I p` is
  the case of one invariant.
-/

namespace Twapi.Lib

/-- A program over the state `σ` that reads answers `ω`, throws `ε`, returns `α`. -/
def Script (σ ω ε α : Type) : Type := σ → List ω → Option (Except ε α × σ × List ω)

namespace Script

variable {σ τ ω ε ε' α β : Type}

def pure (a : α) : Script σ ω ε α := fun s w => some (.ok a, s, w)

def bind (p : Script σ ω ε α) (f : α → Script σ ω ε β) : Script σ ω ε β := fun s w =>
  match p s w with
  | some (.ok a, t, v) => f a t v
  | some (.error e, t, v) => some (.error e, t, v)
  | none => none

instance : Monad (Script σ ω ε) where
  pure := Script.pure
  bind := Script.bind

def throw (e : ε) : Script σ ω ε α := fun s w => some (.error e, s, w)

def gets (f : σ → α) : Script σ ω ε α := fun s w => some (.ok (f s), s, w)

def modify (f : σ → σ) : Script σ ω ε Unit := fun s w => some (.ok (), f s, w)

/-- The environment's next answer. -/
def ask : Script σ ω ε ω := fun s w =>
  match w with
  | a :: v => some (.ok a, s, v)
  | [] => none

/-- The answer does not fit the question. -/
def stuck : Script σ ω ε α := fun _ _ => none

/-- More than there are answers left, a bound on the turns of a loop that asks in
each of them. -/
def patience : Script σ ω ε Nat := fun s w => some (.ok (w.length + 1), s, w)

/-- Do `p` only if the test holds. -/
def only (c : Bool) (p : Script σ ω ε Unit) : Script σ ω ε Unit := if c then p else Script.pure ()

def handle (p : Script σ ω ε α) (h : ε → Script σ ω ε' α) : Script σ ω ε' α := fun s w =>
  match p s w with
  | some (.ok a, t, v) => some (.ok a, t, v)
  | some (.error e, t, v) => h e t v
  | none => none

def within (enter : σ → τ) (leave : τ → τ → σ → σ) (body : Script (τ × σ) ω ε α) :
    Script σ ω ε α := fun s w =>
  match body (enter s, s) w with
  | some (r, (l, t), v) => some (r, leave (enter s) l t, v)
  | none => none

def inside (p : Script σ ω ε α) : Script (τ × σ) ω ε α := fun x w =>
  match p x.2 w with
  | some (r, t, v) => some (r, (x.1, t), v)
  | none => none

variable {w v : List ω}

variable {f : α → Script σ ω ε β} {p : Script σ ω ε α} {s t : σ}

theorem bind_ok {a : α} (h : p s w = some (.ok a, t, v)) : (p >>= f) s w = f a t v := by
  change bind p f s w = _
  simp only [bind, h]

/-- What follows an error does not run. -/
theorem bind_error {e : ε} (h : p s w = some (.error e, t, v)) :
    (p >>= f) s w = some (.error e, t, v) := by
  change bind p f s w = _
  simp only [bind, h]

theorem within_of_body {enter : σ → τ} {leave : τ → τ → σ → σ} {body : Script (τ × σ) ω ε α}
    {r : Except ε α} {l : τ} (h : body (enter s, s) w = some (r, (l, t), v)) :
    within enter leave body s w = some (r, leave (enter s) l t, v) := by
  simp only [within, h]

/-! ### Pre- and postconditions -/

/-- What the end of a run has to meet. -/
def Meets (Q : α → σ → Prop) (E : ε → σ → Prop) : Except ε α → σ → Prop
  | .ok a, s => Q a s
  | .error e, s => E e s

/-- The specification of `p` in an environment whose answers meet `A`. The
answers that are left meet it too, for what comes after `p`. -/
def Spec (A : ω → Prop) (P : σ → Prop) (p : Script σ ω ε α) (Q : α → σ → Prop)
    (E : ε → σ → Prop) : Prop :=
  ∀ s w r t v, (∀ a ∈ w, A a) → P s → p s w = some (r, t, v) → Meets Q E r t ∧ ∀ a ∈ v, A a

/-- `p` keeps the invariant, whether it returns or throws. -/
def Keeps (A : ω → Prop) (I : σ → Prop) (p : Script σ ω ε α) : Prop :=
  Spec A I p (fun _ => I) (fun _ => I)

section Rules

variable {A : ω → Prop} {P M : σ → Prop} {Q N : α → σ → Prop} {E G : ε → σ → Prop}

variable {p : Script σ ω ε α}

theorem Spec.mono (h : Spec A M p N G) (pre : ∀ s, P s → M s) (post : ∀ a s, N a s → Q a s)
    (thrown : ∀ e s, G e s → E e s) : Spec A P p Q E := by
  intro s w r t v hw hs run
  obtain ⟨meets, hv⟩ := h s w r t v hw (pre s hs) run
  refine ⟨?_, hv⟩
  cases r with
  | ok a => exact post a t meets
  | error e => exact thrown e t meets

/-- A weaker precondition than the one at hand is enough. -/
theorem Spec.pre (h : Spec A M p Q E) (pre : ∀ s, P s → M s) :
    Spec A P p Q E :=
  h.mono pre (fun _ _ => id) (fun _ _ => id)

/-- A fact that does not depend on the state is taken out of the precondition. -/
theorem Spec.fact {φ : Prop} (h : φ → Spec A P p Q E) :
    Spec A (fun s => φ ∧ P s) p Q E :=
  fun s w r t v hw hs run => h hs.1 s w r t v hw hs.2 run

/-- What the precondition says to exist is at hand in the proof. -/
theorem Spec.exists {ι : Type} {R : ι → σ → Prop} (h : ∀ i, Spec A (R i) p Q E) :
    Spec A (fun s => ∃ i, R i s) p Q E :=
  fun s w r t v hw ⟨i, hs⟩ run => h i s w r t v hw hs run

theorem Spec.pure {a : α} (h : ∀ s, P s → Q a s) :
    Spec A P (Pure.pure a : Script σ ω ε α) Q E := by
  intro s w r t v hw hs run
  cases run
  exact ⟨h s hs, hw⟩

theorem Spec.throw {e : ε} (h : ∀ s, P s → E e s) :
    Spec A P (Script.throw e : Script σ ω ε α) Q E := by
  intro s w r t v hw hs run
  cases run
  exact ⟨h s hs, hw⟩

theorem Spec.gets {f : σ → α} (h : ∀ s, P s → Q (f s) s) :
    Spec A P (Script.gets f : Script σ ω ε α) Q E := by
  intro s w r t v hw hs run
  cases run
  exact ⟨h s hs, hw⟩

theorem Spec.modify {f : σ → σ} {Q : Unit → σ → Prop} (h : ∀ s, P s → Q () (f s)) :
    Spec A P (Script.modify f : Script σ ω ε Unit) Q E := by
  intro s w r t v hw hs run
  cases run
  exact ⟨h s hs, hw⟩

theorem Spec.ask {Q : ω → σ → Prop} (h : ∀ a s, A a → P s → Q a s) :
    Spec A P (Script.ask : Script σ ω ε ω) Q E := by
  intro s w r t v hw hs run
  cases w with
  | nil => cases run
  | cons a w =>
    cases run
    exact ⟨h a s (hw a List.mem_cons_self) hs, fun b hb => hw b (List.mem_cons_of_mem a hb)⟩

theorem Spec.stuck : Spec A P (Script.stuck : Script σ ω ε α) Q E := by
  intro s w r t v hw hs run
  cases run

theorem Spec.patience {Q : Nat → σ → Prop} (h : ∀ n s, P s → Q n s) :
    Spec A P (Script.patience : Script σ ω ε Nat) Q E := by
  intro s w r t v hw hs run
  cases run
  exact ⟨h (w.length + 1) s hs, hw⟩

/-- Sequencing: what the first program establishes is what the second starts from. -/
theorem Spec.bind {f : α → Script σ ω ε β} {R : β → σ → Prop} (first : Spec A P p Q E)
    (second : ∀ a, Spec A (Q a) (f a) R E) :
    Spec A P (p >>= f) R E := by
  intro s w r t v hw hs run
  change Script.bind p f s w = some (r, t, v) at run
  unfold Script.bind at run
  split at run
  · rename_i a u x hp
    obtain ⟨middle, hx⟩ := first s w _ u x hw hs hp
    exact second a u x r t v hx middle run
  · rename_i e u x hp
    cases run
    exact first s w _ t v hw hs hp
  · cases run

theorem Spec.ite {c : Prop} [Decidable c] {p q : Script σ ω ε α}
    (yes : c → Spec A P p Q E) (no : ¬ c → Spec A P q Q E) :
    Spec A P (if c then p else q) Q E := by
  split
  · rename_i hc
    exact yes hc
  · rename_i hc
    exact no hc

theorem Spec.only {c : Bool} {p : Script σ ω ε Unit} {Q : Unit → σ → Prop}
    (yes : c = true → Spec A P p Q E) (no : ∀ s, c = false → P s → Q () s) :
    Spec A P (Script.only c p) Q E := by
  cases c with
  | true => exact yes rfl
  | false => exact .pure fun s hs => no s rfl hs

/-- The handler starts from what the program establishes when it throws. -/
theorem Spec.handle {h : ε → Script σ ω ε' α} {F : ε' → σ → Prop} (body : Spec A P p Q E)
    (handler : ∀ e, Spec A (E e) (h e) Q F) :
    Spec A P (p.handle h) Q F := by
  intro s w r t v hw hs run
  unfold Script.handle at run
  split at run
  · rename_i a u x hp
    cases run
    exact body s w _ t v hw hs hp
  · rename_i e u x hp
    obtain ⟨thrown, hx⟩ := body s w _ u x hw hs hp
    exact handler e u x r t v hx thrown run
  · cases run

/-- The block starts with the copy equal to the original; what it establishes
has to hold once the copy is written back. -/
theorem Spec.within {enter : σ → τ} {leave : τ → τ → σ → σ} {body : Script (τ × σ) ω ε α}
    (block : ∀ entry, Spec A (fun x => entry = enter x.2 ∧ x.1 = entry ∧ P x.2) body
      (fun a x => Q a (leave entry x.1 x.2)) (fun e x => E e (leave entry x.1 x.2))) :
    Spec A P (Script.within enter leave body) Q E := by
  intro s w r t v hw hs run
  unfold Script.within at run
  split at run
  · rename_i r' l u x hbody
    cases run
    obtain ⟨meets, hv⟩ := block (enter s) _ w r (l, u) v hw ⟨rfl, rfl, hs⟩ hbody
    refine ⟨?_, hv⟩
    cases r with
    | ok a => exact meets
    | error e => exact meets
  · cases run

theorem Spec.inside {P : τ × σ → Prop} {Q : α → τ × σ → Prop} {E : ε → τ × σ → Prop}
    (h : ∀ l, Spec A (fun s => P (l, s)) p (fun a s => Q a (l, s)) (fun e s => E e (l, s))) :
    Spec A P (Script.inside p) Q E := by
  intro x w r t v hw hx run
  unfold Script.inside at run
  split at run
  · rename_i r' u y hp
    cases run
    obtain ⟨meets, hv⟩ := h x.1 x.2 w r u v hw hx hp
    refine ⟨?_, hv⟩
    cases r with
    | ok a => exact meets
    | error e => exact meets
  · cases run

end Rules

/-! ### One invariant -/

section Invariants

variable {A : ω → Prop} {I : σ → Prop}

theorem Keeps.pure (a : α) : Keeps A I (Pure.pure a : Script σ ω ε α) := Spec.pure fun _ => id

theorem Keeps.throw (e : ε) : Keeps A I (Script.throw e : Script σ ω ε α) := Spec.throw fun _ => id

theorem Keeps.gets (f : σ → α) : Keeps A I (Script.gets f : Script σ ω ε α) :=
  Spec.gets fun _ => id

theorem Keeps.stuck : Keeps A I (Script.stuck : Script σ ω ε α) := Spec.stuck

theorem Keeps.patience : Keeps A I (Script.patience : Script σ ω ε Nat) :=
  Spec.patience fun _ _ => id

theorem Keeps.modify {f : σ → σ} (h : ∀ s, I s → I (f s)) :
    Keeps A I (Script.modify f : Script σ ω ε Unit) := Spec.modify h

variable {p : Script σ ω ε α}

theorem Keeps.bind {f : α → Script σ ω ε β} (first : Keeps A I p) (second : ∀ a, Keeps A I (f a)) :
    Keeps A I (p >>= f) := Spec.bind first second

theorem Keeps.ite {c : Prop} [Decidable c] {p q : Script σ ω ε α} (yes : c → Keeps A I p)
    (no : ¬ c → Keeps A I q) : Keeps A I (if c then p else q) := Spec.ite yes no

theorem Keeps.only {c : Bool} {p : Script σ ω ε Unit} (yes : c = true → Keeps A I p) :
    Keeps A I (Script.only c p) := Spec.only yes fun _ _ => id

theorem Keeps.handle {h : ε → Script σ ω ε' α} (body : Keeps A I p) (handler : ∀ e, Keeps A I (h e)) :
    Keeps A I (p.handle h) := Spec.handle body handler

theorem Keeps.inside {J : τ × σ → Prop} (h : ∀ l, Keeps A (fun s => J (l, s)) p) :
    Keeps A J (Script.inside p) := Spec.inside h

end Invariants

end Script

end Twapi.Lib
