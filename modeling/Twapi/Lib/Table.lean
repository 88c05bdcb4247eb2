import Mathlib.Logic.Function.Basic
import Mathlib.Tactic.Common

/-!
Lists of entries that are known by their place: new entries are appended, and one
entry at a time is changed. `mem_of_lookup`, `lookup_of_mem`, `lookup_perm` and
`update_update_apply` are about entries that are known by a key.
-/

namespace Twapi.Lib

open List

variable {α : Type}

variable {l : List α} {β : Type} {b a : α} {i j : Nat} {f : α → α}

theorem lookup_modify (h : (l.modify i f)[j]? = some b) :
    (j = i ∧ ∃ a, l[i]? = some a ∧ b = f a) ∨ j ≠ i ∧ l[j]? = some b := by
  by_cases hj : j = i
  · subst hj
    rw [getElem?_modify_eq] at h
    obtain ⟨a, ha, rfl⟩ := Option.map_eq_some_iff.mp h
    exact .inl ⟨rfl, a, ha, rfl⟩
  · rw [getElem?_modify_ne f l (Ne.symm hj)] at h
    exact .inr ⟨hj, h⟩

theorem lookup_snoc (h : (l ++ [a])[j]? = some b) :
    (j = l.length ∧ b = a) ∨ l[j]? = some b := by
  rcases Nat.lt_trichotomy j l.length with inside | rfl | outside
  · rw [getElem?_append_left inside] at h
    exact .inr h
  · rw [getElem?_concat_length] at h
    exact .inl ⟨rfl, (Option.some.inj h).symm⟩
  · rw [getElem?_eq_none (by rw [length_append, length_singleton]; omega)] at h
    cases h

/-- A change that a reading does not see. -/
theorem map_modify_of {g : α → β} (same : ∀ a, g (f a) = g a) : (l.modify i f).map g = l.map g := by
  induction l generalizing i with
  | nil => rw [modify_nil]
  | cons a l ih =>
    cases i with
    | zero => exact congrArg (· :: l.map g) (same a)
    | succ i => exact congrArg (g a :: ·) ih

/-- Counting, before and after a change. -/
theorem countP_modify {p : α → Bool} (h : l[i]? = some a) :
    (l.modify i f).countP p + (p a).toNat = l.countP p + (p (f a)).toNat := by
  induction l generalizing i with
  | nil => cases h
  | cons b l ih =>
    cases i with
    | zero =>
      cases h
      rw [modify_zero_cons, countP_cons, countP_cons]
      cases p a <;> cases p (f a) <;> simp
    | succ i =>
      rw [modify_succ_cons, countP_cons, countP_cons]
      have := ih (i := i) h
      omega

/-- Counting in what the entries hold, before and after a change. -/
theorem count_flatMap_modify [BEq β] {f : α → List β} {g : α → α} (h : l[i]? = some a) (b : β) :
    ((l.modify i g).flatMap f).count b + (f a).count b =
      (l.flatMap f).count b + (f (g a)).count b := by
  induction l generalizing i with
  | nil => cases h
  | cons a' l ih =>
    cases i with
    | zero =>
      cases h
      rw [modify_zero_cons, flatMap_cons, flatMap_cons, count_append,
        count_append]
      omega
    | succ i =>
      rw [modify_succ_cons, flatMap_cons, flatMap_cons, count_append,
        count_append]
      have rest := ih (i := i) h
      omega

theorem mem_of_lookup [BEq α] [LawfulBEq α] {l : List (α × β)} {b : β} (found : l.lookup a = some b) :
    (a, b) ∈ l := by
  obtain ⟨before, after, split, -⟩ := lookup_eq_some_iff.mp found
  rw [split]
  exact mem_append_right before mem_cons_self

theorem lookup_of_mem [BEq α] [LawfulBEq α] {l : List (α × β)} {b : β}
    (nodup : (l.map Prod.fst).Nodup) (mem : (a, b) ∈ l) : l.lookup a = some b := by
  obtain ⟨before, after, rfl⟩ := append_of_mem mem
  rw [lookup_eq_some_iff]
  refine ⟨before, after, rfl, fun p mem => ?_⟩
  have apart := nodup_append.mp ((map_append ..) ▸ nodup)
  have other := apart.2.2 p.1 (mem_map_of_mem mem) a (mem_map_of_mem mem_cons_self)
  exact bne_iff_ne.mpr other.symm

/-- Keys may be read as something else, if it tells them apart. -/
theorem lookup_map_key {β γ : Type} [BEq α] [LawfulBEq α] [BEq γ] [LawfulBEq γ] {f : α → γ}
    (injective : Function.Injective f) (l : List (α × β)) (a : α) :
    (l.map fun e => (f e.1, e.2)).lookup (f a) = l.lookup a := by
  induction l with
  | nil => rfl
  | cons e l ih =>
    rw [map_cons, lookup_cons, lookup_cons, ih]
    by_cases same : a = e.1
    · rw [beq_iff_eq.mpr same, beq_iff_eq.mpr (congrArg f same)]
    · rw [beq_eq_false_iff_ne.mpr same, beq_eq_false_iff_ne.mpr (injective.ne same)]

/-- The order of entries with a key each does not matter. -/
theorem lookup_perm [BEq α] [LawfulBEq α] {l l' : List (α × β)} (perm : l.Perm l')
    (nodup : (l.map Prod.fst).Nodup) (a : α) : l.lookup a = l'.lookup a := by
  have nodup' := (perm.map Prod.fst).nodup_iff.mp nodup
  refine Option.ext fun b => ⟨fun found => ?_, fun found => ?_⟩
  · exact lookup_of_mem nodup' (perm.mem_iff.mp (mem_of_lookup found))
  · exact lookup_of_mem nodup (perm.mem_iff.mpr (mem_of_lookup found))

/-- An entry of one table among several is written. -/
theorem update_update_apply {ι κ : Type} [DecidableEq ι] [DecidableEq κ] (f : ι → κ → α)
    (i j : ι) (k l : κ) (a : α) :
    Function.update f i (Function.update (f i) k a) j l =
      if j = i ∧ l = k then a else f j l := by
  by_cases same : j = i
  · subst same
    by_cases key : l = k
    · subst key
      simp
    · simp [key]
  · simp [same]

end Twapi.Lib
