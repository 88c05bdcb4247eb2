import Twapi.Lib.Table
import Twapi.SafeArray.Shape

/-!
Nested lists that are rectangular.

* `nest` — the list of a shape with the given elements.
* `IsNest` — a shape that an array can have, and elements that are not taken for sublists.
* `objToSafeArray_nest`, `accepts_nest_iff` — the array of such a list.
-/

namespace Twapi.SafeArray

open Com (VarType)
open Lib.Odometer List

variable {Value : Type}

def nest : (bounds : List Nat) → (elem : List Nat → Obj Value) → Obj Value
  | [], elem => elem []
  | n :: bounds, elem => .list ((List.range n).map fun i => nest bounds fun t => elem (i :: t))

def Obj.isList : Obj Value → Bool
  | .list _ => true
  | .other _ => false

/-- One to ten levels, none of them empty. Only the first element is looked at for the number
of levels. -/
structure IsNest (bounds : List Nat) (elem : List Nat → Obj Value) : Prop where
  levels : bounds ≠ []
  few : bounds.length ≤ maxDims
  positive : ∀ n ∈ bounds, 0 < n
  first : (elem (zeros bounds)).isList = false

section Shape

variable {T : Tcl Value} {bounds : List Nat} {elem : List Nat → Obj Value}

theorem place_nest {t : List Nat} (tuple : t ∈ tuples bounds) :
    place T (nest bounds elem) t = .found (elem t) := by
  rw [mem_tuples] at tuple
  induction tuple generalizing elem with
  | nil => rfl
  | @cons i n t bounds less _ ih =>
    rw [place, nest, elements]
    simp only [getElem?_map, getElem?_range less, Option.map_some]
    exact ih

/-- The first elements lead to the first element. -/
theorem innerBounds_nest {ndim : Nat} (few : ndim + bounds.length ≤ maxDims)
    (positive : ∀ n ∈ bounds, 0 < n) (first : (elem (zeros bounds)).isList = false) :
    innerBounds ndim (nest bounds elem) = .ok bounds := by
  induction bounds generalizing ndim elem with
  | nil =>
    rw [nest]
    cases obj : elem [] with
    | list elems =>
      have list : (elem []).isList = false := first
      rw [obj] at list
      cases list
    | other value => rw [innerBounds]
  | cons n bounds ih =>
    obtain ⟨m, rfl⟩ := Nat.exists_eq_add_one_of_ne_zero
      (Nat.ne_of_gt (positive n mem_cons_self))
    rw [length_cons] at few
    have inner : innerBounds (ndim + 1) (nest bounds fun t => elem (0 :: t)) = .ok bounds :=
      ih (by omega) (fun n mem => positive n (mem_cons_of_mem _ mem)) first
    rw [nest, range_succ_eq_map, map_cons, innerBounds, if_neg (by omega), inner,
      length_map, length_map, length_range]
    rfl

theorem dimensions_nest (shape : IsNest bounds elem) :
    dimensions T (nest bounds elem) = .ok bounds := by
  obtain ⟨n, bounds, rfl⟩ := exists_cons_of_ne_nil shape.levels
  obtain ⟨m, rfl⟩ := Nat.exists_eq_add_one_of_ne_zero
    (Nat.ne_of_gt (shape.positive n mem_cons_self))
  have few := shape.few
  rw [length_cons] at few
  have inner : innerBounds 1 (nest bounds fun t => elem (0 :: t)) = .ok bounds :=
    innerBounds_nest (by omega) (fun n mem => shape.positive n (mem_cons_of_mem _ mem))
      shape.first
  rw [dimensions, nest, elements, range_succ_eq_map, map_cons]
  change (innerBounds 1 _).map _ = _
  rw [inner, length_map, length_map, length_range]
  rfl

theorem byteArray_nest (vt : VarType) (shape : IsNest bounds elem) :
    byteArray T vt (nest bounds elem) = none := by
  obtain ⟨n, bounds, rfl⟩ := exists_cons_of_ne_nil shape.levels
  rw [nest, byteArray.eq_def]
  split <;> rfl

end Shape

/-! ### The array -/

section Filled

variable {T : Tcl Value} {W : Windows} {bounds : List Nat} {elem : List Nat → Obj Value}
  {vt : VarType}

theorem objToSafeArray_nest (shape : IsNest bounds elem)
    (created : W.creates vt.marshalled bounds = true) :
    objToSafeArray T W vt (nest bounds elem) =
      (visitAll T W vt.marshalled (nest bounds elem) (tuples bounds) []).map fun cells =>
        some ⟨vt.marshalled, bounds, cells⟩ := by
  have known := dimensions_nest (T := T) shape
  have list := byteArray_nest (T := T) vt.marshalled shape
  obtain ⟨n, bounds, rfl⟩ := exists_cons_of_ne_nil shape.levels
  rw [objToSafeArray, list, known]
  exact fill_eq shape.positive created _

theorem visit_nest {t : List Nat} (tuple : t ∈ tuples bounds) :
    visit T W vt (nest bounds elem) t = (objToElement T W vt (elem t)).mapError .error := by
  rw [visit_eq, place_nest tuple]

/-- What is stored where all elements are converted. -/
theorem visitAll_cells {valueObj : Obj Value} {ts : List (List Nat)} {cells cells' : List _}
    (all : visitAll T W vt valueObj ts cells = .ok cells') :
    ∀ t ∈ ts, ∀ cell, visit T W vt valueObj t = .ok cell → (t, cell) ∈ cells' := by
  have kept {ts : List (List Nat)} {cells cells' : List _}
      (all : visitAll T W vt valueObj ts cells = .ok cells') : ∀ c ∈ cells, c ∈ cells' := by
    induction ts generalizing cells with
    | nil =>
      cases all
      exact fun _ mem => mem
    | cons t ts ih =>
      rw [visitAll_cons] at all
      cases visited : visit T W vt valueObj t with
      | error stop =>
        rw [visited] at all
        cases all
      | ok cell =>
        rw [visited] at all
        exact fun c mem => ih all c (mem_cons_of_mem _ mem)
  induction ts generalizing cells with
  | nil => exact fun _ mem => nomatch mem
  | cons t ts ih =>
    rw [visitAll_cons] at all
    cases visited : visit T W vt valueObj t with
    | error stop =>
      rw [visited] at all
      cases all
    | ok cell =>
      rw [visited] at all
      intro s mem cell' found
      rcases mem_cons.mp mem with rfl | mem
      · cases visited.symm.trans found
        exact kept all _ mem_cons_self
      · exact ih all s mem cell' found

variable (T W) in
/-- The array has every element under its indices, each stored once. -/
structure Stores (sa : Descriptor) (vt : VarType) (bounds : List Nat)
    (elem : List Nat → Obj Value) : Prop where
  type : sa.vt = vt
  shape : sa.bounds = bounds
  once : (sa.cells.map Prod.fst).Perm (tuples bounds)
  stored : ∀ t ∈ tuples bounds, ∃ cell,
    objToElement T W vt (elem t) = .ok cell ∧ sa.cells.lookup t = some cell

/-- Either all elements are stored, or one of them cannot be converted. -/
theorem objToSafeArray_nest_cases (shape : IsNest bounds elem)
    (created : W.creates vt.marshalled bounds = true) :
    (∃ sa, objToSafeArray T W vt (nest bounds elem) = .ok (some sa) ∧
        Stores T W sa vt.marshalled bounds elem) ∨
      (∃ e, objToSafeArray T W vt (nest bounds elem) = .error (.error e)) ∧
        ∃ t ∈ tuples bounds, ∃ e, objToElement T W vt.marshalled (elem t) = .error e := by
  rw [objToSafeArray_nest shape created]
  rcases visitAll_outcome (T := T) (W := W) vt.marshalled (nest bounds elem) (tuples bounds) []
    with ⟨cells, all, order, stored⟩ | ⟨before, t, after, stop, split, _, stopped, all⟩
  · rw [all]
    have once : (cells.map Prod.fst).Perm (tuples bounds) := by
      rw [order, map_nil, append_nil]
      exact reverse_perm _
    refine .inl ⟨_, rfl, rfl, rfl, once, fun t tuple => ?_⟩
    obtain ⟨cell, visited⟩ := storable_iff.mp (stored t tuple)
    refine ⟨cell, ?_, Lib.lookup_of_mem (once.nodup_iff.mpr (nodup_tuples bounds))
      (visitAll_cells all t tuple cell visited)⟩
    rw [visit_nest tuple] at visited
    cases element : objToElement T W vt.marshalled (elem t) with
    | error e =>
      rw [element] at visited
      cases visited
    | ok cell' =>
      rw [element] at visited
      cases visited
      rfl
  · rw [all]
    have tuple : t ∈ tuples bounds := split ▸ mem_append_right _ mem_cons_self
    rw [visit_nest tuple] at stopped
    cases element : objToElement T W vt.marshalled (elem t) with
    | error e =>
      rw [element] at stopped
      cases stopped
      exact .inr ⟨⟨e, rfl⟩, t, tuple, e, element⟩
    | ok cell =>
      rw [element] at stopped
      cases stopped

theorem accepts_nest_iff (shape : IsNest bounds elem)
    (created : W.creates vt.marshalled bounds = true) :
    (∃ sa, objToSafeArray T W vt (nest bounds elem) = .ok (some sa)) ↔
      ∀ t ∈ tuples bounds, ∃ cell, objToElement T W vt.marshalled (elem t) = .ok cell := by
  rcases objToSafeArray_nest_cases (T := T) shape created with
    ⟨sa, made, stores⟩ | ⟨⟨e, refused⟩, t, tuple, e', error⟩
  · refine iff_of_true ⟨sa, made⟩ fun t tuple => ?_
    obtain ⟨cell, element, _⟩ := stores.stored t tuple
    exact ⟨cell, element⟩
  · refine iff_of_false (fun ⟨sa, made⟩ => nomatch refused.symm.trans made) fun all => ?_
    obtain ⟨cell, ok⟩ := all t tuple
    cases error.symm.trans ok

end Filled

end Twapi.SafeArray
