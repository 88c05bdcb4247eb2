import Mathlib.Data.List.Nodup
import Mathlib.Tactic.Common

/-!
Lists.

* `find?_key`, `eq_of_key`, `perm_cons_filter_key` — entries that have a key each, no two the same.
* `Depart` — after a common beginning two lists go on differently.
-/

namespace Twapi.Lib

open List

section Keys

variable {α κ : Type} [DecidableEq κ] {key : α → κ} {l : List α}

theorem mem_of_find?_key {k : κ} {a : α} (found : l.find? (fun b => key b = k) = some a) :
    a ∈ l ∧ key a = k :=
  ⟨mem_of_find?_eq_some found, by simpa using find?_some found⟩

theorem find?_key (nodup : (l.map key).Nodup) {a : α} (mem : a ∈ l) :
    l.find? (fun b => key b = key a) = some a := by
  induction l with
  | nil => exact absurd mem not_mem_nil
  | cons b l ih =>
    rw [map_cons, nodup_cons] at nodup
    rw [find?_cons]
    rcases mem_cons.mp mem with rfl | mem
    · rw [decide_eq_true rfl]
    · have other : key b ≠ key a := fun same => nodup.1 (same ▸ mem_map_of_mem mem)
      rw [decide_eq_false other]
      exact ih nodup.2 mem

theorem find?_key_isSome {k : κ} :
    (l.find? (fun b => key b = k)).isSome = true ↔ ∃ a ∈ l, key a = k := by
  simp

theorem eq_of_key (nodup : (l.map key).Nodup) {a b : α} (ha : a ∈ l) (hb : b ∈ l)
    (same : key a = key b) : a = b := by
  have found := find?_key nodup ha
  rw [same, find?_key nodup hb] at found
  exact (Option.some.inj found).symm

/-- One entry is taken out. -/
theorem perm_cons_filter_key (nodup : (l.map key).Nodup) {a : α} (mem : a ∈ l) :
    l.Perm (a :: l.filter fun b => key b ≠ key a) := by
  induction l with
  | nil => exact absurd mem not_mem_nil
  | cons b l ih =>
    rw [map_cons, nodup_cons] at nodup
    rcases mem_cons.mp mem with rfl | mem
    · have others : ∀ c ∈ l, key c ≠ key a := fun c mem same =>
        nodup.1 (same ▸ mem_map_of_mem mem)
      rw [filter_cons_of_neg (by simp), filter_eq_self.mpr (by simpa using others)]
    · have other : key b ≠ key a := fun same => nodup.1 (same ▸ mem_map_of_mem mem)
      rw [filter_cons_of_pos (by simpa using other)]
      exact ((ih nodup.2 mem).cons b).trans (List.Perm.swap a b _)

end Keys

section Departing

variable {α : Type}

def Depart (xs ys : List α) : Prop :=
  ∃ common a b left right, a ≠ b ∧ xs = common ++ a :: left ∧ ys = common ++ b :: right

namespace Depart

variable {xs ys : List α}

theorem heads {a b : α} (differ : a ≠ b) : Depart (a :: xs) (b :: ys) :=
  ⟨[], a, b, xs, ys, differ, rfl, rfl⟩

theorem ne (h : Depart xs ys) : xs ≠ ys := by
  obtain ⟨common, a, b, left, right, differ, rfl, rfl⟩ := h
  intro same
  exact differ (cons.inj (append_cancel_left same)).1

/-- Whatever follows. -/
theorem append (h : Depart xs ys) (more others : List α) : Depart (xs ++ more) (ys ++ others) := by
  obtain ⟨common, a, b, left, right, differ, rfl, rfl⟩ := h
  refine ⟨common, a, b, left ++ more, right ++ others, differ, ?_, ?_⟩
  · rw [append_assoc, cons_append]
  · rw [append_assoc, cons_append]

/-- After a common beginning. -/
theorem prepend (h : Depart xs ys) (before : List α) : Depart (before ++ xs) (before ++ ys) := by
  obtain ⟨common, a, b, left, right, differ, rfl, rfl⟩ := h
  exact ⟨before ++ common, a, b, left, right, differ, (append_assoc ..).symm,
    (append_assoc ..).symm⟩

end Depart

end Departing

end Twapi.Lib
