import Mathlib.Data.List.Nodup
import Mathlib.Tactic.Ring

/-!
Odometers: index tuples that are counted up with a carry.

* `increment` — the loop over the places, from the last one down.
* `tuples` — the tuples within bounds, in lexicographic order; `mem_tuples`, `nodup_tuples`.
* `counts_tuples` — counting from zeros goes through all of them.
-/

namespace Twapi.Lib.Odometer

open List

/-- Increments from place `k - 1` down; the place at which it stopped, if it did. -/
def increment (bounds : List Nat) : (k : Nat) → (indices : List Nat) → Option Nat × List Nat
  | 0, indices => (none, indices)
  | k + 1, indices =>
    let i := indices.getD k 0 + 1
    if i < bounds.getD k 0 then (some k, indices.set k i)
    else increment bounds k (indices.set k 0)

/-- The tuples within the bounds. -/
def tuples : List Nat → List (List Nat)
  | [] => [[]]
  | n :: bounds => (List.range n).flatMap fun i => (tuples bounds).map (i :: ·)

def zeros (bounds : List Nat) : List Nat := bounds.map fun _ => 0

/-- Counting up from `t` gives the tuples `ts` and comes to an end. -/
def Counts (bounds : List Nat) : (t : List Nat) → (ts : List (List Nat)) → Prop
  | t, [] => (increment bounds bounds.length t).1 = none
  | t, t' :: ts => (∃ k, increment bounds bounds.length t = (some k, t')) ∧ Counts bounds t' ts

/-! ### Tuples -/

variable {bounds t t' : List Nat}

theorem mem_tuples : t ∈ tuples bounds ↔ List.Forall₂ (· < ·) t bounds := by
  induction bounds generalizing t with
  | nil => simp [tuples]
  | cons n bounds ih =>
    rw [tuples, mem_flatMap]
    constructor
    · rintro ⟨i, less, mem⟩
      obtain ⟨t', inside, rfl⟩ := mem_map.mp mem
      exact .cons (mem_range.mp less) (ih.mp inside)
    · intro inside
      cases inside with
      | cons less rest =>
        exact ⟨_, mem_range.mpr less, mem_map_of_mem (ih.mpr rest)⟩

theorem nodup_tuples (bounds : List Nat) : (tuples bounds).Nodup := by
  induction bounds with
  | nil => exact nodup_singleton []
  | cons n bounds ih =>
    rw [tuples, nodup_flatMap]
    refine ⟨fun i _ => ih.map (cons_injective), ?_⟩
    refine List.Pairwise.imp ?_ nodup_range
    intro i j differ t first second
    obtain ⟨t₁, _, rfl⟩ := mem_map.mp first
    obtain ⟨t₂, _, same⟩ := mem_map.mp second
    exact differ (cons.inj same).1.symm

theorem length_of_mem_tuples (mem : t ∈ tuples bounds) :
    t.length = bounds.length := (mem_tuples.mp mem).length_eq

theorem length_tuples (bounds : List Nat) : (tuples bounds).length = bounds.prod := by
  induction bounds with
  | nil => rfl
  | cons n bounds ih =>
    have each (i : Nat) : ((tuples bounds).map (i :: ·)).length = bounds.prod := by
      rw [length_map, ih]
    rw [tuples, length_flatMap, prod_cons]
    simp only [each, map_const', length_range, sum_replicate_nat]

/-! ### Incrementing -/

/-- What is before the place where it stopped is left as it was. -/
theorem increment_eq_some {k c : Nat} (stopped : increment bounds k t = (some c, t')) :
    c < k ∧ t'.take c = t.take c ∧ t'.length = t.length := by
  induction k generalizing t with
  | zero => cases stopped
  | succ k ih =>
    rw [increment] at stopped
    split at stopped
    next =>
      cases stopped
      exact ⟨Nat.lt_succ_self c, take_set_of_le (Nat.le_refl c), length_set⟩
    next =>
      obtain ⟨less, same, length⟩ := ih stopped
      rw [take_set_of_le (Nat.le_of_lt less)] at same
      exact ⟨Nat.lt_succ_of_lt less, same, length.trans length_set⟩

/-- The first place is incremented when the others carry. -/
theorem increment_cons (n : Nat) (bounds : List Nat) (k i : Nat) (t : List Nat) :
    increment (n :: bounds) (k + 1) (i :: t) =
      match increment bounds k t with
      | (some c, t') => (some (c + 1), i :: t')
      | (none, t') => if i + 1 < n then (some 0, (i + 1) :: t') else (none, 0 :: t') := by
  induction k generalizing t with
  | zero => rfl
  | succ k ih =>
    have outer : increment (n :: bounds) (k + 2) (i :: t) =
        if t.getD k 0 + 1 < bounds.getD k 0 then (some (k + 1), i :: t.set k (t.getD k 0 + 1))
        else increment (n :: bounds) (k + 1) (i :: t.set k 0) := rfl
    have inner : increment bounds (k + 1) t =
        if t.getD k 0 + 1 < bounds.getD k 0 then (some k, t.set k (t.getD k 0 + 1))
        else increment bounds k (t.set k 0) := rfl
    rw [outer, inner]
    by_cases less : t.getD k 0 + 1 < bounds.getD k 0
    · rw [if_pos less, if_pos less]
    · rw [if_neg less, if_neg less]
      exact ih (t.set k 0)

/-- When all places carry, they are zeros. -/
theorem increment_eq_none (length : t.length = bounds.length)
    (carried : increment bounds bounds.length t = (none, t')) : t' = zeros bounds := by
  induction bounds generalizing t t' with
  | nil =>
    obtain rfl := eq_nil_of_length_eq_zero length
    cases carried
    rfl
  | cons n bounds ih =>
    obtain ⟨i, t, rfl⟩ := exists_cons_of_length_eq_add_one length
    rw [length_cons, increment_cons] at carried
    split at carried
    next => cases carried
    next t₂ inner =>
      split at carried
      · cases carried
      · cases carried
        exact congrArg (0 :: ·) (ih (Nat.succ.inj length) inner)

/-! ### Counting -/

/-- The inner places count to their end, and then the first one is incremented. -/
theorem counts_cons {n i : Nat} {ts later : List (List Nat)} (length : t.length = bounds.length)
    (inner : Counts bounds t ts)
    (outer : if i + 1 < n then ∃ later', later = ((i + 1) :: zeros bounds) :: later' ∧
        Counts (n :: bounds) ((i + 1) :: zeros bounds) later' else later = []) :
    Counts (n :: bounds) (i :: t) (ts.map (i :: ·) ++ later) := by
  induction ts generalizing t with
  | nil =>
    obtain ⟨t', carried⟩ : ∃ t', increment bounds bounds.length t = (none, t') :=
      ⟨_, Prod.ext inner rfl⟩
    obtain rfl := increment_eq_none length carried
    have next : increment (n :: bounds) (n :: bounds).length (i :: t) =
        if i + 1 < n then (some 0, (i + 1) :: zeros bounds) else (none, 0 :: zeros bounds) := by
      rw [length_cons, increment_cons, carried]
    by_cases less : i + 1 < n
    · rw [if_pos less] at outer next
      obtain ⟨later', rfl, rest⟩ := outer
      exact ⟨⟨0, next⟩, rest⟩
    · rw [if_neg less] at outer next
      subst outer
      exact congrArg Prod.fst next
  | cons t' ts ih =>
    obtain ⟨⟨k, stopped⟩, rest⟩ := inner
    refine ⟨⟨k + 1, ?_⟩, ih ((increment_eq_some stopped).2.2.trans length) rest⟩
    rw [length_cons, increment_cons, stopped]

theorem length_zeros (bounds : List Nat) : (zeros bounds).length = bounds.length :=
  length_map _

theorem counts_tuples (positive : ∀ n ∈ bounds, 0 < n) :
    ∃ ts, tuples bounds = zeros bounds :: ts ∧ Counts bounds (zeros bounds) ts := by
  induction bounds with
  | nil => exact ⟨[], rfl, rfl⟩
  | cons n bounds ih =>
    obtain ⟨ts, inner, counts⟩ := ih fun n mem => positive n (mem_cons_of_mem _ mem)
    -- from `i` on, with `m` values left for the first place
    have from_ (m i : Nat) (all : i + m + 1 = n) :
        Counts (n :: bounds) (i :: zeros bounds) (ts.map (i :: ·) ++
          (range' (i + 1) m).flatMap fun j => (tuples bounds).map (j :: ·)) := by
      induction m generalizing i with
      | zero =>
        refine counts_cons (length_zeros bounds) counts ?_
        rw [if_neg (by omega)]
        rfl
      | succ m ih =>
        refine counts_cons (length_zeros bounds) counts ?_
        rw [if_pos (by omega), range'_succ, flatMap_cons, inner, map_cons]
        refine ⟨_, rfl, ?_⟩
        rw [← inner]
        exact ih (i + 1) (by omega)
    obtain ⟨m, rfl⟩ :=
      Nat.exists_eq_add_one_of_ne_zero (Nat.ne_of_gt (positive n mem_cons_self))
    have first : (tuples bounds).map (0 :: ·) = (0 :: zeros bounds) :: ts.map (0 :: ·) := by
      rw [inner, map_cons]
    refine ⟨_, ?_, from_ m 0 (by omega)⟩
    rw [tuples, range_eq_range', range'_succ, flatMap_cons, first]
    rfl

end Twapi.Lib.Odometer
