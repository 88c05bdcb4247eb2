import Twapi.ThreadPool.Moves

/-!
The reference count of a registration. It is held by the list and by the pool's
wait; a queued event carries the id only and holds no reference.

* `CountedAt` — the count of one registration is the number of its holders, and
  it is freed when there are none.
* `reaches_counted` — this holds in every run if the memory that was allocated
  reads 0 where the count is. `TwapiThreadPoolRegister` does not set it.
-/

namespace Twapi.ThreadPool

open Lib

variable {w : Nat} {s t : Pool w}

/-- The list and the pool's wait. -/
def Pool.holders (s : Pool w) (i : Nat) (r : TwapiThreadPoolRegistration w) : Nat :=
  (decide (i ∈ s.registrations)).toNat + r.tpHandle.toNat

/-- The events of registration `i` that are still queued. -/
def Pool.queuedFrom (s : Pool w) (i : Nat) : Nat := s.events.countP (·.source = i)

def CountedAt (s : Pool w) (i : Nat) (r : TwapiThreadPoolRegistration w) : Prop :=
  r.nrefs.toNat = s.holders i r ∧ r.frees = (decide (s.holders i r = 0)).toNat

/-- The reference count is the number of holders, and a registration was freed
once if there are none, and not otherwise. -/
def Pool.Counted (s : Pool w) : Prop := ∀ i r, s.objs[i]? = some r → CountedAt s i r

/-- The memory of a new registration reads 0 where the count is. -/
def ReadsZero (_ : Pool w) : Label w → Prop
  | .register _ nrefs _ => nrefs = 0
  | _ => True

instance (s : Pool w) (a : Label w) : Decidable (ReadsZero s a) := by
  unfold ReadsZero
  split <;> infer_instance

/-! ### One registration -/

/-- Two references while it is on the list; afterwards it is freed. -/
def Balanced (r : TwapiThreadPoolRegistration w) : Prop :=
  if r.ticP then r.nrefs = 2 ∧ r.frees = 0 else r.nrefs = 0 ∧ r.frees = 1

theorem Balanced.registered (id : BitVec w) (h : Nat) : Balanced (registered id h 0) := ⟨rfl, rfl⟩

theorem Balanced.refused (id : BitVec w) (h : Nat) : Balanced (refused id h 0) := by
  simp [Balanced, ThreadPool.refused, TwapiThreadPoolRegistration.shutdown,
    TwapiThreadPoolRegistration.unref, TwapiThreadPoolRegistration.ref]

variable {r : TwapiThreadPoolRegistration w}

/-- `TwapiThreadPoolRegistrationShutdown` drops both references at once, and
does nothing a second time. -/
theorem Balanced.shutdown (h : Balanced r) (waits : r.tpHandle = r.ticP) : Balanced r.shutdown := by
  unfold Balanced at h
  cases hticP : r.ticP with
  | true =>
    rw [hticP] at waits h
    obtain ⟨hrefs, hfrees⟩ := h
    simp [Balanced, TwapiThreadPoolRegistration.shutdown, TwapiThreadPoolRegistration.unref, waits, hticP,
      hrefs, hfrees]
  | false =>
    rw [hticP] at waits h
    obtain ⟨hrefs, hfrees⟩ := h
    simp [Balanced, TwapiThreadPoolRegistration.shutdown, waits, hticP, hrefs, hfrees]

/-! ### Runs -/

/-- Every registration there is, or was, is balanced. -/
def Pool.Balanced (s : Pool w) : Prop := ∀ r ∈ s.objs, ThreadPool.Balanced r

theorem Pool.Balanced.append (h : s.Balanced) (objs : t.objs = s.objs ++ [r])
    (hr : ThreadPool.Balanced r) : t.Balanced := by
  intro q hq
  rw [objs] at hq
  rcases List.mem_append.mp hq with hq | hq
  · exact h q hq
  · rw [List.mem_singleton.mp hq]
    exact hr

theorem Pool.Balanced.modify (h : s.Balanced) {i : Nat}
    {f : TwapiThreadPoolRegistration w → TwapiThreadPoolRegistration w}
    (objs : t.objs = s.objs.modify i f)
    (hf : ∀ r, s.objs[i]? = some r → ThreadPool.Balanced r → ThreadPool.Balanced (f r)) : t.Balanced := by
  intro q hq
  rw [objs] at hq
  obtain ⟨j, hj⟩ := List.mem_iff_getElem?.mp hq
  rcases lookup_modify hj with ⟨rfl, r, hr, rfl⟩ | ⟨-, hold⟩
  · exact hf r hr (h r (List.mem_of_getElem? hr))
  · exact h q (List.mem_of_getElem? hold)

theorem balanced_move {a : Label w} (inv : s.Balanced) (listed : Listed s) (zero : ReadsZero s a)
    (h : s.MovesTo t a) : t.Balanced := by
  unfold Pool.MovesTo at h
  generalize ho : t.objs = objs at h
  generalize t.gIdGenerator = g at h
  generalize t.registrations = regs at h
  generalize t.events = events at h
  cases h with
  | keep | newId | dispatched k =>
    unfold Pool.Balanced
    rw [ho]
    exact inv
  | added hd nrefs =>
    obtain rfl : nrefs = 0 := zero
    exact inv.append ho (.registered _ hd)
  | refused hd nrefs =>
    obtain rfl : nrefs = 0 := zero
    exact inv.append ho (.refused _ hd)
  | released hq hidle => exact inv.modify ho fun r hr hbal => hbal.shutdown (listed.entry _ r hr).waits
  | fired hq htp => exact inv.modify ho fun r hr hbal => hbal
  | queued timedOut hq hrunning => exact inv.modify ho fun r hr hbal => hbal

/-- On the list means: held by the list and by the pool's wait. -/
theorem counted_of_balanced (inv : s.Balanced) (listed : Listed s) : s.Counted := by
  intro i r hr
  have hbal := inv r (List.mem_of_getElem? hr)
  have entry := listed.entry i r hr
  unfold Balanced at hbal
  cases hticP : r.ticP with
  | true =>
    have hi : i ∈ s.registrations := entry.listed.mpr hticP
    rw [hticP] at hbal
    have hholders : s.holders i r = 2 := by simp [Pool.holders, entry.waits, hticP, hi]
    unfold CountedAt
    rw [hholders, hbal.1, hbal.2]
    exact ⟨rfl, rfl⟩
  | false =>
    have hi : i ∉ s.registrations := fun h => by simp [entry.listed.mp h] at hticP
    rw [hticP] at hbal
    have hholders : s.holders i r = 0 := by simp [Pool.holders, entry.waits, hticP, hi]
    unfold CountedAt
    rw [hholders, hbal.1, hbal.2]
    exact ⟨rfl, rfl⟩

/-- If the count starts from 0 it is the number of holders in every run, and a
registration is freed exactly when there are none left. -/
theorem reaches_counted (run : (poolMachine w).Reaches ReadsZero s) : s.Counted := by
  have balanced : s.Balanced := by
    induction run with
    | init hs =>
      subst hs
      exact nofun
    | step run zero hstep ih => exact balanced_move ih (reaches_listed run) zero (move_of_step hstep)
  exact counted_of_balanced balanced (reaches_listed run)

theorem reaches_counted_two : ∃ s : Pool 64, (s.objs.map (·.nrefs) = [0, 2, 0]) ∧ s.Counted := by
  obtain ⟨s, run, hs⟩ := Machine.Reaches.exists_of_run (M := poolMachine 64) (G := ReadsZero)
    [.register 4 0 true, .fire 0, .register 8 0 true, .enqueue 0 false, .unregister 1, .stopped,
      .register 12 0 false]
    (fun s => s.objs.map (·.nrefs) = [0, 2, 0]) rfl (by decide)
  exact ⟨s, hs, reaches_counted run⟩

/-- A queued event is not counted: there are two references, the list's and the
wait's, while an event is queued. -/
theorem queued_event_uncounted : ¬ ∀ s : Pool 64, (poolMachine 64).Reachable s →
    ∀ i r, s.objs[i]? = some r → r.nrefs.toNat = s.holders i r + s.queuedFrom i := by
  intro claim
  obtain ⟨s, run, hs⟩ := Machine.Reaches.exists_of_run (M := poolMachine 64) (G := fun _ _ => True)
    [.register 4 0 true, .fire 0, .enqueue 0 false]
    (fun s => s.objs[0]?.any fun r => r.nrefs.toNat ≠ s.holders 0 r + s.queuedFrom 0) rfl
    (by decide)
  cases hr : s.objs[0]? with
  | none =>
    rw [hr] at hs
    cases hs
  | some r =>
    rw [hr] at hs
    exact of_decide_eq_true hs (claim s run 0 r hr)

end Twapi.ThreadPool
