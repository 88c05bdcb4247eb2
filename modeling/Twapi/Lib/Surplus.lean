import Mathlib.Data.List.Basic

/-!
One output compared with another from the front, where the first has run ahead.

* `KeepsSurplus` — what is left over of the first output stays left over.
* `Surplus` — something is left over, whether or not there was before.
-/

namespace Twapi.Lib

variable {α : Type*} {o o' p p' : List α}

/-- After `o` against `o'`, whatever was left over of the first output before, something is. -/
def KeepsSurplus (o o' : List α) : Prop :=
  ∀ w x y, w ≠ [] → w ++ o ++ x = o' ++ y → ∃ w', w' ≠ [] ∧ w' ++ x = y

/-- The same, also where nothing was left over before. -/
def Surplus (o o' : List α) : Prop :=
  ∀ w x y, w ++ o ++ x = o' ++ y → ∃ w', w' ≠ [] ∧ w' ++ x = y

theorem exists_left_over {w x y : List α} (same : w ++ o ++ x = o' ++ y)
    (longer : o'.length < (w ++ o).length) : ∃ w', w' ≠ [] ∧ w' ++ x = y := by
  obtain ⟨w', left, rest⟩ | ⟨_, whole, -⟩ := List.append_eq_append_iff.mp same.symm
  · refine ⟨w', fun none => ?_, rest.symm⟩
    simp [left, none] at longer
  · rw [whole, List.length_append] at longer
    omega

theorem KeepsSurplus.of_length (le : o'.length ≤ o.length) : KeepsSurplus o o' := by
  intro w x y nonempty same
  refine exists_left_over same ?_
  have := List.length_pos_of_ne_nil nonempty
  simp only [List.length_append]
  omega

theorem KeepsSurplus.refl (o : List α) : KeepsSurplus o o := .of_length (Nat.le_refl _)

theorem Surplus.of_length (lt : o'.length < o.length) : Surplus o o' := by
  intro w x y same
  refine exists_left_over same ?_
  simp only [List.length_append]
  omega

theorem Surplus.keeps (surplus : Surplus o o') : KeepsSurplus o o' :=
  fun w x y _ => surplus w x y

theorem KeepsSurplus.append (first : KeepsSurplus o o') (second : KeepsSurplus p p') :
    KeepsSurplus (o ++ p) (o' ++ p') := by
  intro w x y nonempty same
  obtain ⟨v, left, rest⟩ := first w (p ++ x) (p' ++ y) nonempty (by simpa using same)
  exact second v x y left (by simpa using rest)

theorem Surplus.append (first : Surplus o o') (second : KeepsSurplus p p') :
    Surplus (o ++ p) (o' ++ p') := by
  intro w x y same
  obtain ⟨v, left, rest⟩ := first w (p ++ x) (p' ++ y) (by simpa using same)
  exact second v x y left (by simpa using rest)

theorem Surplus.after (second : Surplus p p') (o : List α) : Surplus (o ++ p) (o ++ p') := by
  intro w x y same
  rcases eq_or_ne w [] with rfl | nonempty
  · exact second [] x y (by simpa using same)
  · exact (KeepsSurplus.refl o).append second.keeps w x y nonempty same

theorem Surplus.ne (surplus : Surplus o o') : o ≠ o' := by
  intro same
  obtain ⟨w, nonempty, left⟩ := surplus [] [] [] (by simpa using same)
  exact nonempty (List.append_eq_nil_iff.mp left).1

theorem Surplus.of_head {a b : α} (ne : a ≠ b) (le : o'.length ≤ o.length) :
    Surplus (a :: o) (b :: o') := by
  intro w x y same
  rcases eq_or_ne w [] with rfl | nonempty
  · exact absurd (List.cons.inj same).1 ne
  · exact KeepsSurplus.of_length (by simpa using le) w x y nonempty same

/-- The first output has one element and then `b`, the second a number of `a`, of which only one
more than was left over can have been matched. -/
theorem Surplus.of_replicate {a b c : α} {n : Nat} (ne : b ≠ a)
    (le : p'.length ≤ p.length) : Surplus (c :: b :: p) (List.replicate n a ++ p') := by
  intro w x y same
  refine exists_left_over same ?_
  have few : n ≤ w.length + 1 := by
    by_contra many
    have at' := congrArg (·[w.length + 1]?) same
    simp only [List.append_assoc, List.cons_append] at at'
    rw [List.getElem?_append_right (by omega), List.getElem?_append_left (by simp; omega),
      List.getElem?_replicate_of_lt (by omega)] at at'
    simp at at'
    exact ne at'
  simp only [List.length_append, List.length_replicate, List.length_cons]
  omega

end Twapi.Lib
