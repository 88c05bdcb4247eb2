import Mathlib.Tactic.Common

/-!
An auto-reset event that a thread pool waits on, and the callbacks it starts.

A signal carries a token `τ` that says what it was for; the program cannot see
it. While a wait is registered, the pool may pick up the signal, which resets
the event and queues a callback. A callback enters (and reads something `ρ` of
the program's state) and later leaves, in any order with the others. Removing
the wait does not stop callbacks already queued; `Drained` is what a caller
that waits for them may rely on.

* `Port.Active` — the tokens a callback may still act on.
* `Port.load` — how many callbacks there can be without a further signal.
-/

namespace Twapi.Lib

structure Port (τ ρ : Type) where
  event : Option τ
  registered : Bool
  queued : List τ
  running : List (τ × ρ)
deriving DecidableEq

namespace Port

variable {τ ρ : Type}

/-- A fresh event nobody waits for. -/
def fresh : Port τ ρ := ⟨none, false, [], []⟩

def reset (p : Port τ ρ) : Port τ ρ := { p with event := none }

def signal (p : Port τ ρ) (t : τ) : Port τ ρ := { p with event := some t }

def register (p : Port τ ρ) : Port τ ρ := { p with registered := true }

def cancel (p : Port τ ρ) : Port τ ρ := { p with registered := false }

/-- No callback is queued or running. -/
def Drained (p : Port τ ρ) : Prop := p.queued = [] ∧ p.running = []

instance [DecidableEq τ] [DecidableEq ρ] (p : Port τ ρ) : Decidable p.Drained :=
  inferInstanceAs (Decidable (_ ∧ _))

/-- The pool picks up the signal and queues a callback for it. -/
def pick (p : Port τ ρ) : Option (Port τ ρ) :=
  match p.event with
  | some t => if p.registered then some { p with event := none, queued := p.queued ++ [t] } else none
  | none => none

/-- A queued callback starts, having read `r`. -/
def enter (p : Port τ ρ) (i : Nat) (r : ρ) : Option (Port τ ρ) :=
  p.queued[i]?.map fun t => { p with queued := p.queued.eraseIdx i, running := p.running ++ [(t, r)] }

/-- A running callback acts on what it read. -/
def leave (p : Port τ ρ) (i : Nat) : Option ((τ × ρ) × Port τ ρ) :=
  p.running[i]?.map fun c => (c, { p with running := p.running.eraseIdx i })

/-- A callback for `t` is queued or running, or will be: the event is signalled
with `t` and a wait is registered, or could be (`armed`). -/
def Active (p : Port τ ρ) (armed : Bool) (t : τ) : Prop :=
  t ∈ p.queued ∨ (∃ r, (t, r) ∈ p.running) ∨ p.event = some t ∧ (p.registered = true ∨ armed = true)

/-- Callbacks queued, running or about to be queued. -/
def load (p : Port τ ρ) : Nat :=
  p.queued.length + p.running.length + (p.event.isSome && p.registered).toNat

/-! ### What each event does to the tokens -/

variable {p q : Port τ ρ} {armed : Bool} {t u : τ}

theorem Active.arm (h : p.Active false t) : p.Active armed t := by
  rcases h with h | h | ⟨h, hr | hfalse⟩
  · exact .inl h
  · exact .inr (.inl h)
  · exact .inr (.inr ⟨h, .inl hr⟩)
  · cases hfalse

theorem active_reset (h : p.reset.Active armed t) : p.Active false t := by
  rcases h with h | h | ⟨h, -⟩
  · exact .inl h
  · exact .inr (.inl h)
  · cases h

theorem active_signal (h : (p.signal u).Active armed t) : t = u ∨ p.Active false t := by
  rcases h with h | h | ⟨h, -⟩
  · exact .inr (.inl h)
  · exact .inr (.inr (.inl h))
  · exact .inl (Option.some.inj h).symm

theorem active_register (h : p.register.Active armed t) : p.Active true t := by
  rcases h with h | h | ⟨h, -⟩
  · exact .inl h
  · exact .inr (.inl h)
  · exact .inr (.inr ⟨h, .inr rfl⟩)

theorem active_cancel (h : p.cancel.Active armed t) : p.Active armed t := by
  rcases h with h | h | ⟨h, hr | harmed⟩
  · exact .inl h
  · exact .inr (.inl h)
  · cases hr
  · exact .inr (.inr ⟨h, .inr harmed⟩)

theorem pick_eq (h : p.pick = some q) :
    ∃ u, p.event = some u ∧ p.registered = true ∧
      q = { p with event := none, queued := p.queued ++ [u] } := by
  unfold pick at h
  cases hevent : p.event with
  | none => simp [hevent] at h
  | some u =>
    simp only [hevent, Option.ite_none_right_eq_some, Option.some.injEq] at h
    exact ⟨u, rfl, h.1, h.2.symm⟩

theorem active_pick (h : p.pick = some q) (ht : q.Active armed t) : p.Active false t := by
  obtain ⟨u, hevent, hregistered, rfl⟩ := pick_eq h
  rcases ht with ht | ht | ⟨ht, -⟩
  · rcases List.mem_append.mp ht with ht | ht
    · exact .inl ht
    · obtain rfl := List.mem_singleton.mp ht
      exact .inr (.inr ⟨hevent, .inl hregistered⟩)
  · exact .inr (.inl ht)
  · cases ht

variable {i : Nat} {c : τ × ρ}

theorem enter_eq {r : ρ} (h : p.enter i r = some q) :
    ∃ u, p.queued[i]? = some u ∧
      q = { p with queued := p.queued.eraseIdx i, running := p.running ++ [(u, r)] } := by
  obtain ⟨u, hu, rfl⟩ := Option.map_eq_some_iff.mp h
  exact ⟨u, hu, rfl⟩

theorem active_enter {r : ρ} (h : p.enter i r = some q) (ht : q.Active armed t) :
    p.Active armed t := by
  obtain ⟨u, hu, rfl⟩ := enter_eq h
  rcases ht with ht | ⟨r', ht⟩ | ht
  · exact .inl (List.mem_of_mem_eraseIdx ht)
  · rcases List.mem_append.mp ht with ht | ht
    · exact .inr (.inl ⟨r', ht⟩)
    · cases List.mem_singleton.mp ht
      exact .inl (List.mem_of_getElem? hu)
  · exact .inr (.inr ht)

theorem leave_eq (h : p.leave i = some (c, q)) :
    p.running[i]? = some c ∧ q = { p with running := p.running.eraseIdx i } := by
  obtain ⟨d, hd, heq⟩ := Option.map_eq_some_iff.mp h
  cases heq
  exact ⟨hd, rfl⟩

theorem active_leave (h : p.leave i = some (c, q)) (ht : q.Active armed t) :
    p.Active armed t := by
  obtain ⟨-, rfl⟩ := leave_eq h
  rcases ht with ht | ⟨r, ht⟩ | ht
  · exact .inl ht
  · exact .inr (.inl ⟨r, List.mem_of_mem_eraseIdx ht⟩)
  · exact .inr (.inr ht)

/-- The callback that leaves was active. -/
theorem leave_active (h : p.leave i = some (c, q)) : p.Active armed c.1 :=
  .inr (.inl ⟨c.2, List.mem_of_getElem? (leave_eq h).1⟩)

/-! ### What each event does to the load -/

theorem load_reset (p : Port τ ρ) : p.reset.load ≤ p.load := by
  simp [load, reset]

theorem load_signal (p : Port τ ρ) (t : τ) : (p.signal t).load ≤ p.load + 1 := by
  have hle := Bool.toNat_le ((p.signal t).event.isSome && (p.signal t).registered)
  simp only [load, signal] at hle ⊢
  omega

theorem load_register (p : Port τ ρ) : p.register.load ≤ p.load + 1 := by
  have hle := Bool.toNat_le (p.register.event.isSome && p.register.registered)
  simp only [load, register] at hle ⊢
  omega

theorem load_cancel (p : Port τ ρ) : p.cancel.load ≤ p.load := by
  simp [load, cancel]

theorem load_pick (h : p.pick = some q) : q.load = p.load := by
  obtain ⟨u, hevent, hregistered, rfl⟩ := pick_eq h
  simp [load, hevent, hregistered]
  omega

theorem load_enter {r : ρ} (h : p.enter i r = some q) : q.load = p.load := by
  obtain ⟨u, hu, rfl⟩ := enter_eq h
  have hlt := (List.getElem?_eq_some_iff.mp hu).1
  simp only [load, List.length_eraseIdx, List.length_append, List.length_singleton]
  rw [if_pos hlt]
  omega

theorem load_leave (h : p.leave i = some (c, q)) : q.load + 1 = p.load := by
  obtain ⟨hc, rfl⟩ := leave_eq h
  have hlt := (List.getElem?_eq_some_iff.mp hc).1
  simp only [load, List.length_eraseIdx]
  rw [if_pos hlt]
  omega

/-- No load, no active token. -/
theorem load_eq_zero_iff : p.load = 0 ↔ ∀ t, ¬ p.Active false t := by
  constructor
  · intro h t ht
    unfold load at h
    rcases ht with ht | ⟨r, ht⟩ | ⟨ht, hr | harmed⟩
    · have := List.length_pos_of_mem ht
      omega
    · have := List.length_pos_of_mem ht
      omega
    · simp [ht, hr] at h
    · cases harmed
  · intro h
    have hqueued : p.queued = [] := List.eq_nil_iff_forall_not_mem.mpr fun t ht => h t (.inl ht)
    have hrunning : p.running = [] :=
      List.eq_nil_iff_forall_not_mem.mpr fun c hc => h c.1 (.inr (.inl ⟨c.2, hc⟩))
    have hevent : (p.event.isSome && p.registered) = false := by
      cases he : p.event with
      | none => rfl
      | some t =>
        refine Bool.eq_false_iff.mpr fun hr => h t (.inr (.inr ⟨he, .inl ?_⟩))
        simpa using hr
    simp [load, hqueued, hrunning, hevent]

/-- A signal to a port with nothing active activates its own token. -/
theorem eq_of_active_signal (none_ : ∀ t, ¬ p.Active false t) (h : (p.signal u).Active armed t) :
    t = u :=
  (active_signal h).resolve_right (none_ t)

theorem load_signal_le_one (none_ : ∀ t, ¬ p.Active false t) : (p.signal u).load ≤ 1 := by
  have hle := load_signal p u
  rwa [load_eq_zero_iff.mpr none_] at hle

/-- With no wait registered and the callbacks drained nothing is active. -/
theorem Drained.not_active (h : p.Drained) (hr : p.registered = false) : ¬ p.Active false t := by
  rintro (ht | ⟨r, ht⟩ | ⟨-, hreg | harmed⟩)
  · simp [h.1] at ht
  · simp [h.2] at ht
  · simp [hr] at hreg
  · cases harmed

end Port

end Twapi.Lib
