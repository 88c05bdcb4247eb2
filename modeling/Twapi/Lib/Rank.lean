import Mathlib.Tactic.Common

/-!
Selection of the best entry of a list in one pass, where entries have ranks and the
first of each rank is noted in an array.

* `note` is one step. An entry is noted unless one of its rank or of a better one is.
* `guarded`, `note_eq_guarded` — the step as a row of guards.
* `foldl_note`, `Noted.isBest` — after all the steps, the least rank that is noted has
  the earliest of the best entries.
-/

namespace Twapi.Lib

variable {α : Type} (rank : α → Nat)

/-- An array with one element set. -/
def put (m : Nat → Option α) (k : Nat) (x : α) : Nat → Option α :=
  fun i => if i = k then some x else m i

/-- The first entry of its rank, where nothing of that rank or of a better one was
noted before. -/
def note (m : Nat → Option α) (x : α) : Nat → Option α :=
  if (List.range (rank x + 1)).any fun k => (m k).isSome then m else put m (rank x) x

/-- The earliest of the entries that have the least rank. -/
def IsBest (xs : List α) (x : α) : Prop :=
  xs.find? (fun y => rank y = rank x) = some x ∧ ∀ y ∈ xs, rank x ≤ rank y

/-- Below `n` the first entries of their ranks are noted, and for every entry one that
is at least as good. -/
structure Noted (n : Nat) (xs : List α) (m : Nat → Option α) : Prop where
  first : ∀ k < n, ∀ x, m k = some x → xs.find? (fun y => rank y = k) = some x
  covered : ∀ y ∈ xs, ∃ k ≤ rank y, (m k).isSome = true

variable {rank} {n : Nat} {xs : List α} {m : Nat → Option α} {x : α}

theorem note_of_noted {k : Nat} (before : k ≤ rank x) (some_ : (m k).isSome = true) :
    note rank m x = m :=
  if_pos (List.any_eq_true.mpr ⟨k, List.mem_range.mpr (Nat.lt_succ_of_le before), some_⟩)

theorem note_of_better (none_ : ∀ k ≤ rank x, m k = none) : note rank m x = put m (rank x) x := by
  refine if_neg fun any => ?_
  obtain ⟨k, below, some_⟩ := List.any_eq_true.mp any
  rw [none_ k (Nat.le_of_lt_succ (List.mem_range.mp below))] at some_
  cases some_

/-- The entry is noted unless one of the guards holds. -/
def guarded (m : Nat → Option α) (k : Nat) (x : α) : List Nat → Nat → Option α
  | [] => put m k x
  | i :: guards => if (m i).isSome then m else guarded m k x guards

theorem guarded_eq (k : Nat) (guards : List Nat) :
    guarded m k x guards = if guards.any fun i => (m i).isSome then m else put m k x := by
  induction guards with
  | nil => rfl
  | cons i guards ih =>
    rw [guarded, ih, List.any_cons]
    cases (m i).isSome <;> rfl

/-- Before an entry of rank 0, the guards are the ranks from 1 on. -/
theorem note_eq_guarded (inexact : m 0 = none) :
    note rank m x = guarded m (rank x) x ((List.range (rank x)).map Nat.succ) := by
  rw [guarded_eq, note, List.range_succ_eq_map, List.any_cons, inexact]
  rfl

theorem Noted.nil (none_ : ∀ k < n, m k = none) : Noted rank n [] m :=
  ⟨fun k below _ found => absurd ((none_ k below).symm.trans found) nofun, nofun⟩

theorem Noted.snoc (noted : Noted rank n xs m) : Noted rank n (xs ++ [x]) (note rank m x) := by
  by_cases before : ∃ k ≤ rank x, (m k).isSome = true
  · obtain ⟨k, below, some_⟩ := before
    rw [note_of_noted below some_]
    refine ⟨fun k' inside y found => ?_, fun y among => ?_⟩
    · rw [List.find?_append, noted.first k' inside y found]
      rfl
    · rcases List.mem_append.mp among with old | new
      · exact noted.covered y old
      · obtain rfl := List.mem_singleton.mp new
        exact ⟨k, below, some_⟩
  · have none_ : ∀ k ≤ rank x, m k = none := by
      intro k below
      by_contra some_
      exact before ⟨k, below, Option.isSome_iff_ne_none.mpr some_⟩
    rw [note_of_better none_]
    refine ⟨fun k inside y found => ?_, fun y among => ?_⟩
    · unfold put at found
      split at found
      · rename_i same
        subst same
        obtain rfl := Option.some.inj found
        have fresh : xs.find? (fun y => rank y = rank x) = none := by
          rw [List.find?_eq_none]
          intro y old same
          obtain ⟨k, below, some_⟩ := noted.covered y old
          rw [none_ k (by simpa using (of_decide_eq_true same) ▸ below)] at some_
          cases some_
        rw [List.find?_append, fresh]
        simp
      · rw [List.find?_append, noted.first k inside y found]
        rfl
    · rcases List.mem_append.mp among with old | new
      · obtain ⟨k, below, some_⟩ := noted.covered y old
        refine ⟨k, below, ?_⟩
        unfold put
        split
        · rfl
        · exact some_
      · obtain rfl := List.mem_singleton.mp new
        exact ⟨rank y, Nat.le_refl _, by simp [put]⟩

/-- After the entries, one by one. -/
theorem foldl_note (ys : List α) (noted : Noted rank n xs m) :
    Noted rank n (xs ++ ys) (ys.foldl (note rank) m) := by
  induction ys generalizing xs m with
  | nil => simpa using noted
  | cons y ys ih =>
    have := ih (noted.snoc (x := y))
    rwa [List.append_assoc] at this

/-- The least that is noted is the best. -/
theorem Noted.isBest (noted : Noted rank n xs m) {k : Nat} (inside : k < n)
    (found : m k = some x) (least : ∀ i < k, m i = none) : IsBest rank xs x := by
  have first := noted.first k inside x found
  obtain rfl : rank x = k := by simpa using List.find?_some first
  refine ⟨first, fun y among => ?_⟩
  obtain ⟨i, below, some_⟩ := noted.covered y among
  by_contra better
  rw [least i (by omega)] at some_
  cases some_

/-- With an entry of rank 0 nothing else is noted. -/
theorem foldl_note_of_exact (ys : List α) (exact_ : (m 0).isSome = true) :
    ys.foldl (note rank) m = m := by
  induction ys with
  | nil => rfl
  | cons y ys ih => rw [List.foldl_cons, note_of_noted (Nat.zero_le _) exact_, ih]

end Twapi.Lib
