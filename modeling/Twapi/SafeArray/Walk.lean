import Twapi.SafeArray.Model
import Twapi.Lib.Results

/-!
The loop of `ObjToSAFEARRAY` visits the elements one by one.

* `visit` — what is done at an index tuple, from the value itself.
* `Along` — the lists of the dimensions are the ones at the indices; `store_eq` keeps it.
* `loop_eq`, `fill_eq` — the tuples within the bounds are visited in order, each once.
-/

namespace Twapi.SafeArray

open Com (VarType)
open Lib.Odometer List

variable {Value : Type} (T : Tcl Value) (W : Windows)

/-- The value at some indices. -/
def path (obj : Option (Obj Value)) (indices : List Nat) : Except Stop (Option (Obj Value)) :=
  indices.foldlM (listIndex T) obj

def visit (vt : VarType) (valueObj : Obj Value) (indices : List Nat) : Except Stop Cell := do
  match ← path T (some valueObj) indices with
  | none => .error (.error (.message "Too few elements in SAFEARRAY."))
  | some objP => (objToElement T W vt objP).mapError .error

/-- Visiting tuples in order. -/
def visitAll (vt : VarType) (valueObj : Obj Value) (ts : List (List Nat))
    (cells : List (List Nat × Cell)) : Except Stop (List (List Nat × Cell)) :=
  ts.foldlM (fun cells t => do
    let cell ← visit T W vt valueObj t
    return (t, cell) :: cells) cells

/-- The lists up to a dimension are those at the indices. -/
structure Along (valueObj : Obj Value) (bounds indices : List Nat) (cur_dim : Nat)
    (objs : List (Option (Obj Value))) : Prop where
  length : objs.length = bounds.length
  lists : ∀ k ≤ cur_dim, path T (some valueObj) (indices.take k) = .ok (objs.getD k none)

theorem inBounds_eq_true {bounds indices : List Nat} :
    inBounds bounds indices = true ↔ indices ∈ tuples bounds := by
  rw [mem_tuples]
  induction bounds generalizing indices with
  | nil => cases indices <;> simp [inBounds]
  | cons n bounds ih =>
    cases indices with
    | nil => simp [inBounds]
    | cons i indices => simp [inBounds, ih]

section Steps

variable {T W} {valueObj : Obj Value} {bounds indices : List Nat}

theorem path_append (obj : Option (Obj Value)) (t s : List Nat) :
    path T obj (t ++ s) = path T obj t >>= fun obj => path T obj s := List.foldlM_append

theorem path_take_succ (obj : Option (Obj Value)) {t : List Nat} {k : Nat} (less : k < t.length) :
    path T obj (t.take (k + 1)) =
      path T obj (t.take k) >>= fun obj => listIndex T obj (t.getD k 0) := by
  rw [take_add_one, path_append, getD_eq_getElem?_getD, getElem?_eq_getElem less]
  refine bind_congr fun obj => ?_
  exact bind_pure _

/-- Where a list is not found, nothing further in is. -/
theorem path_take_error (obj : Option (Obj Value)) {t : List Nat} {k m : Nat} {s : Stop}
    (stopped : path T obj (t.take k) = .error s) (more : k ≤ m) :
    path T obj (t.take m) = .error s := by
  have split : t.take m = t.take k ++ (t.take m).drop k := by
    rw [← Nat.min_eq_left more, ← take_take, Nat.min_eq_left more, take_append_drop]
  rw [split, path_append, stopped]
  rfl

theorem descend_from {c : Nat} {objs : List (Option (Obj Value))}
    (along : Along T valueObj bounds indices c objs) (length : indices.length = bounds.length)
    (m : Nat) (inside : c + m < bounds.length) :
    match (List.range' (c + 1) m).foldlM (fun objs dim => do
        let obj ← listIndex T (objs.getD (dim - 1) none) (indices.getD (dim - 1) 0)
        return objs.set dim obj) objs with
    | .ok objs => Along T valueObj bounds indices (c + m) objs
    | .error s => path T (some valueObj) (indices.take (c + m)) = .error s := by
  induction m generalizing c objs with
  | zero => exact along
  | succ m ih =>
    rw [range'_succ, foldlM_cons, Nat.add_sub_cancel]
    have next : path T (some valueObj) (indices.take (c + 1)) =
        listIndex T (objs.getD c none) (indices.getD c 0) := by
      rw [path_take_succ _ (by omega), along.lists c (Nat.le_refl c)]
      rfl
    cases found : listIndex T (objs.getD c none) (indices.getD c 0) with
    | error s => exact path_take_error _ (next.trans found) (by omega)
    | ok obj =>
      have later : Along T valueObj bounds indices (c + 1) (objs.set (c + 1) obj) := by
        refine ⟨length_set.trans along.length, fun k le => ?_⟩
        rcases Nat.lt_or_eq_of_le le with less | rfl
        · rw [along.lists k (by omega), getD_eq_getElem?_getD, getD_eq_getElem?_getD,
            getElem?_set_ne (by omega)]
        · rw [next, found, getD_eq_getElem?_getD,
            getElem?_set_self (by rw [along.length]; omega)]
          rfl
      have all : c + (m + 1) = c + 1 + m := by omega
      rw [all]
      exact ih later (by omega)

variable (W) in
/-- A visit, and then the lists are those at the indices all the way. -/
theorem store_eq (vt : VarType) {s : State Value}
    (along : Along T valueObj bounds s.indices s.cur_dim s.objs)
    (tuple : s.indices ∈ tuples bounds) (inside : s.cur_dim < bounds.length) :
    match visit T W vt valueObj s.indices with
    | .ok cell => ∃ objs, Along T valueObj bounds s.indices (bounds.length - 1) objs ∧
        store T W vt bounds s =
          .ok { s with objs := objs, cells := (s.indices, cell) :: s.cells }
    | .error stop => store T W vt bounds s = .error stop := by
  have length := length_of_mem_tuples tuple
  have positive : bounds.length - 1 + 1 = bounds.length := by omega
  have whole : path T (some valueObj) s.indices =
      path T (some valueObj) (s.indices.take (bounds.length - 1)) >>= fun obj =>
        listIndex T obj (s.indices.getD (bounds.length - 1) 0) := by
    rw [← path_take_succ _ (by omega), positive, ← length, take_length]
  have last : s.cur_dim + (bounds.length - 1 - s.cur_dim) = bounds.length - 1 := by omega
  have below := descend_from along length (bounds.length - 1 - s.cur_dim) (by omega)
  rw [last] at below
  rw [store, descend, visit, whole]
  split at below
  next objs down =>
    rw [down, below.lists _ (Nat.le_refl _)]
    simp only [bind, Except.bind, inBounds_eq_true.mpr tuple, if_true]
    cases listIndex T (objs.getD (bounds.length - 1) none)
      (s.indices.getD (bounds.length - 1) 0) with
    | error stop => rfl
    | ok obj =>
      cases obj with
      | none => rfl
      | some objP =>
        simp only
        cases objToElement T W vt objP with
        | error e => rfl
        | ok cell => exact ⟨objs, below, rfl⟩
  next stop down =>
    rw [down, below]
    rfl

/-! ### The loop -/

theorem visitAll_cons (vt : VarType) (t : List Nat) (ts : List (List Nat))
    (cells : List (List Nat × Cell)) :
    visitAll T W vt valueObj (t :: ts) cells =
      visit T W vt valueObj t >>= fun cell =>
        visitAll T W vt valueObj ts ((t, cell) :: cells) := by
  rw [visitAll, foldlM_cons]
  cases visit T W vt valueObj t <;> rfl

variable (W) in
/-- A turn of the loop: a visit, and then the end or the next turn from where the indices go. -/
theorem loop_turn (vt : VarType) {s : State Value} (fuel : Nat)
    (along : Along T valueObj bounds s.indices s.cur_dim s.objs)
    (tuple : s.indices ∈ tuples bounds) (inside : s.cur_dim < bounds.length) :
    match visit T W vt valueObj s.indices with
    | .ok cell => ∃ objs, Along T valueObj bounds s.indices (bounds.length - 1) objs ∧
        loop T W vt bounds (fuel + 1) s =
          match increment bounds bounds.length s.indices with
          | (none, _) => .ok ((s.indices, cell) :: s.cells)
          | (some cur_dim, indices) =>
            loop T W vt bounds fuel ⟨cur_dim, indices, objs, (s.indices, cell) :: s.cells⟩
    | .error stop => loop T W vt bounds (fuel + 1) s = .error stop := by
  have stored := store_eq W vt along tuple inside
  rw [loop]
  cases visited : visit T W vt valueObj s.indices with
  | error stop =>
    rw [visited] at stored
    rw [stored]
    rfl
  | ok cell =>
    rw [visited] at stored
    obtain ⟨objs, whole, stored⟩ := stored
    rw [stored]
    exact ⟨objs, whole, rfl⟩

variable (W) in
theorem loop_eq (vt : VarType) {s : State Value} {ts : List (List Nat)} {fuel : Nat}
    (along : Along T valueObj bounds s.indices s.cur_dim s.objs)
    (tuple : ∀ t ∈ s.indices :: ts, t ∈ tuples bounds) (inside : s.cur_dim < bounds.length)
    (counts : Counts bounds s.indices ts) (enough : ts.length < fuel) :
    loop T W vt bounds fuel s = visitAll T W vt valueObj (s.indices :: ts) s.cells := by
  induction ts generalizing s fuel with
  | nil =>
    obtain ⟨fuel, rfl⟩ := Nat.exists_eq_add_one_of_ne_zero (Nat.ne_of_gt enough)
    have turn := loop_turn W vt fuel along (tuple _ mem_cons_self) inside
    rw [visitAll_cons]
    cases visited : visit T W vt valueObj s.indices with
    | error stop =>
      rw [visited] at turn
      exact turn
    | ok cell =>
      rw [visited] at turn
      obtain ⟨objs, _, turned⟩ := turn
      obtain ⟨t', carried⟩ : ∃ t', increment bounds bounds.length s.indices = (none, t') :=
        ⟨_, Prod.ext counts rfl⟩
      rw [turned, carried]
      rfl
  | cons t ts ih =>
    obtain ⟨fuel, rfl⟩ := Nat.exists_eq_add_one_of_ne_zero (by omega : fuel ≠ 0)
    have turn := loop_turn W vt fuel along (tuple _ mem_cons_self) inside
    rw [visitAll_cons]
    cases visited : visit T W vt valueObj s.indices with
    | error stop =>
      rw [visited] at turn
      exact turn
    | ok cell =>
      rw [visited] at turn
      obtain ⟨objs, whole, turned⟩ := turn
      obtain ⟨⟨c, stopped⟩, rest⟩ := counts
      obtain ⟨less, same, _⟩ := increment_eq_some stopped
      have next : Along T valueObj bounds t c objs := by
        refine ⟨whole.length, fun k le => ?_⟩
        rw [← whole.lists k (by omega), ← Nat.min_eq_left le, ← take_take, same,
          take_take]
      rw [turned, stopped]
      exact ih (s := ⟨c, t, objs, (s.indices, cell) :: s.cells⟩) next
        (fun t' mem => tuple t' (mem_cons_of_mem _ mem)) less rest
        (Nat.lt_of_succ_lt_succ enough)

/-! ### The array -/

theorem along_start (valueObj : Obj Value) (n : Nat) (bounds : List Nat) :
    Along T valueObj (n :: bounds) (zeros (n :: bounds)) 0
      (some valueObj :: bounds.map fun _ => none) := by
  refine ⟨congrArg Nat.succ (length_map _), fun k le => ?_⟩
  obtain rfl := Nat.le_zero.mp le
  rfl

/-- The elements are stored in the order of their indices, up to the first that cannot be. -/
theorem fill_eq {vt : VarType} {n : Nat} (positive : ∀ m ∈ n :: bounds, 0 < m)
    (created : W.creates vt (n :: bounds) = true) (valueObj : Obj Value) :
    fill T W vt (n :: bounds) valueObj =
      (visitAll T W vt valueObj (tuples (n :: bounds)) []).map fun cells =>
        some ⟨vt, n :: bounds, cells⟩ := by
  obtain ⟨ts, all, counts⟩ := counts_tuples positive
  have notEmpty : (n :: bounds).head? ≠ some 0 := fun zero =>
    Nat.ne_of_gt (positive n mem_cons_self) (Option.some.inj zero)
  have enough : ts.length < (n :: bounds).prod + 1 := by
    have length := congrArg length all
    rw [length_tuples, length_cons] at length
    omega
  have start := along_start (T := T) valueObj n bounds
  have length := length_zeros (n :: bounds)
  have down := descend_from start length bounds.length
    (by rw [length_cons]; omega)
  have tuple : zeros (n :: bounds) ∈ tuples (n :: bounds) := by
    rw [all]
    exact mem_cons_self
  simp only [fill, if_neg notEmpty, if_pos created, tail_cons, descend]
  rw [all]
  split at down
  next objs found =>
    have along : Along T valueObj (n :: bounds) (zeros (n :: bounds)) 0 objs :=
      ⟨down.length, fun k le => down.lists k (by omega)⟩
    have looped := loop_eq W vt (s := ⟨0, zeros (n :: bounds), objs, []⟩) along
      (fun t mem => all ▸ mem) (Nat.succ_pos _) counts enough
    have found : foldlM _ _ (range' (0 + 1) ((n :: bounds).length - 1 - 0)) = _ := found
    rw [found]
    change (loop T W vt (n :: bounds) _ _ >>= _) = _
    rw [looped]
    cases visitAll T W vt valueObj (zeros (n :: bounds) :: ts) [] <;> rfl
  next stop found =>
    have found : foldlM _ _ (range' (0 + 1) ((n :: bounds).length - 1 - 0)) = _ := found
    rw [found, visitAll_cons, visit]
    have whole := path_take_error (m := (n :: bounds).length) (some valueObj) down (by simp)
    rw [← length, take_length] at whole
    rw [whole]
    rfl

end Steps

end Twapi.SafeArray
