import Mathlib.Data.Multiset.AddSub

/-!
Ledgers of things that are acquired and released.

* `after` — what is held after the entries of a ledger; there is no such thing where
  something is released that is not held.
* `after_frame`, `after_add_of_notMem`, `after_bracketed` — with more that is held.
* `Settled` — everything that was acquired was released once, and nothing else was;
  `settled_iff_perm` is the case of what is acquired first and released last.
-/

namespace Twapi.Lib

inductive Entry (ρ : Type) where
  | acquire (r : ρ)
  | release (r : ρ)
deriving DecidableEq

namespace Entry

open Multiset

variable {ρ : Type} [DecidableEq ρ]

def after : List (Entry ρ) → Multiset ρ → Option (Multiset ρ)
  | [], held => some held
  | .acquire r :: es, held => after es (r ::ₘ held)
  | .release r :: es, held => if r ∈ held then after es (held.erase r) else none

def Settled (es : List (Entry ρ)) : Prop := after es 0 = some 0

instance (es : List (Entry ρ)) : Decidable (Settled es) := inferInstanceAs (Decidable (_ = _))

theorem after_nil (held : Multiset ρ) : after [] held = some held := rfl

theorem after_acquire (r : ρ) (es : List (Entry ρ)) (held : Multiset ρ) :
    after (.acquire r :: es) held = after es (r ::ₘ held) := rfl

theorem after_release (r : ρ) (es : List (Entry ρ)) (held : Multiset ρ) :
    after (.release r :: es) held = if r ∈ held then after es (held.erase r) else none := rfl

theorem after_append (es later : List (Entry ρ)) (held : Multiset ρ) :
    after (es ++ later) held = (after es held).bind (after later) := by
  induction es generalizing held with
  | nil => rfl
  | cons e es ih =>
    cases e with
    | acquire r => exact ih (r ::ₘ held)
    | release r =>
      simp only [List.cons_append, after_release]
      split
      · exact ih (held.erase r)
      · rfl

@[simp] theorem after_acquires (rs : List ρ) (held : Multiset ρ) :
    after (rs.map .acquire) held = some (↑rs + held) := by
  induction rs generalizing held with
  | nil => simp [after_nil]
  | cons r rs ih =>
    simp only [List.map_cons, after_acquire, ih, ← cons_coe]
    rw [add_cons, cons_add]

/-- What is held can be released, in any order. -/
@[simp] theorem after_releases (rs : List ρ) (held : Multiset ρ) :
    after (rs.map .release) (↑rs + held) = some held := by
  induction rs with
  | nil => simp [after_nil]
  | cons r rs ih =>
    have among : r ∈ (↑(r :: rs) : Multiset ρ) + held := by simp
    simp only [List.map_cons, after_release, if_pos among]
    rw [← cons_coe, cons_add, erase_cons_head, ih]

theorem after_releases_all (rs : List ρ) : after (rs.map .release) (rs : Multiset ρ) = some 0 := by
  have all := after_releases rs 0
  rwa [Multiset.add_zero] at all

/-- Releases leave what is held beside what they release. -/
theorem after_releases_iff {rs : List ρ} {held left : Multiset ρ} :
    after (rs.map .release) held = some left ↔ held = ↑rs + left := by
  induction rs generalizing held with
  | nil => simp [after_nil]
  | cons r rs ih =>
    rw [List.map_cons, after_release, ← cons_coe, cons_add]
    by_cases mem : r ∈ held
    · rw [if_pos mem, ih, ← cons_inj_right r, cons_erase mem]
    · rw [if_neg mem]
      refine iff_of_false (fun none => nomatch none) fun eq => mem ?_
      rw [eq]
      exact mem_cons_self r _

/-- What is acquired before anything is released is settled if the same is released. -/
theorem settled_iff_perm {rs rs' : List ρ} :
    Settled (rs.map .acquire ++ rs'.map .release) ↔ rs.Perm rs' := by
  rw [Settled, after_append, after_acquires, Option.bind_some, Multiset.add_zero,
    after_releases_iff, Multiset.add_zero, Multiset.coe_eq_coe]

variable {es : List (Entry ρ)}

/-- What else is held does not matter. -/
theorem after_frame {held left : Multiset ρ} (done : after es held = some left) (more : Multiset ρ) :
    after es (held + more) = some (left + more) := by
  induction es generalizing held with
  | nil =>
    obtain rfl := Option.some.inj done
    rfl
  | cons e es ih =>
    cases e with
    | acquire r =>
      rw [after_acquire, ← cons_add]
      exact ih done
    | release r =>
      by_cases mem : r ∈ held
      · rw [after_release, if_pos mem] at done
        rw [after_release, if_pos (mem_add.mpr (.inl mem)), erase_add_left_pos _ mem]
        exact ih done
      · rw [after_release, if_neg mem] at done
        cases done

/-- What is not released stays. -/
theorem after_add_of_notMem {more : Multiset ρ} (kept : ∀ r ∈ more, .release r ∉ es)
    (held : Multiset ρ) :
    after es (held + more) = (after es held).map (· + more) := by
  induction es generalizing held with
  | nil => rfl
  | cons e es ih =>
    have later : ∀ r ∈ more, .release r ∉ es := fun r mem among =>
      kept r mem (List.mem_cons_of_mem _ among)
    cases e with
    | acquire r =>
      rw [after_acquire, after_acquire, ← cons_add]
      exact ih later _
    | release r =>
      have other : r ∉ more := fun mem => kept r mem List.mem_cons_self
      by_cases mem : r ∈ held
      · rw [after_release, after_release, if_pos mem, if_pos (mem_add.mpr (.inl mem)),
          erase_add_left_pos _ mem]
        exact ih later _
      · rw [after_release, after_release, if_neg mem, if_neg fun among =>
          (mem_add.mp among).elim mem other]
        rfl

/-- Things that are acquired first and released last. -/
theorem after_bracketed {rs : List ρ} (kept : ∀ r ∈ rs, .release r ∉ es) :
    after (rs.map .acquire ++ (es ++ rs.map .release)) 0 = after es 0 := by
  have kept : ∀ r ∈ (rs : Multiset ρ), .release r ∉ es := fun r mem => kept r mem
  rw [after_append, after_acquires, Option.bind_some, after_append, Multiset.add_comm,
    after_add_of_notMem kept]
  cases after es 0 with
  | none => rfl
  | some left =>
    rw [Option.map_some, Option.bind_some, Multiset.add_comm]
    exact after_releases rs left

end Entry

end Twapi.Lib
