import Twapi.SafeArray.Walk

/-!
The shape of the lists that `ObjToSAFEARRAY` is given.

* `Rectangular` — the lists of each level have the same length, the bound of the dimension.
* `place` — what is found at an index tuple: an element, or what is missing.
* `Proper` — an error, or an array that is filled and has the bounds of the nesting; no null
  pointer is followed.
* `objToSafeArray_proper_iff` — when that is so.
-/

namespace Twapi.SafeArray

open Com (VarType)
open Lib.Odometer List

variable {Value : Type} (T : Tcl Value) (W : Windows)

/-! ### Shapes -/

/-- As many levels as bounds, and each list has the length of its level. -/
def Rectangular : (bounds : List Nat) → Obj Value → Prop
  | [], _ => True
  | n :: bounds, obj =>
    ∃ elems, elements T obj = .ok elems ∧ elems.length = n ∧
      ∀ elem ∈ elems, Rectangular bounds elem

inductive Place (Value : Type) where
  | found (obj : Obj Value)
  | notList (e : Error)
  | missingElement
  | missingSublist

def place : Obj Value → (indices : List Nat) → Place Value
  | obj, [] => .found obj
  | obj, i :: indices =>
    match elements T obj with
    | .error e => .notList e
    | .ok elems =>
      match elems[i]? with
      | some elem => place elem indices
      | none => if indices = [] then .missingElement else .missingSublist

/-! ### The property and the condition -/

/-- The array has the bounds of the value. -/
def Matches (vt : VarType) (valueObj : Obj Value) (bounds : List Nat) : Prop :=
  match byteArray T vt valueObj with
  | some bytes => bounds = [bytes.length]
  | none => Rectangular T bounds valueObj

def Proper (vt : VarType) (valueObj : Obj Value) : Except Stop (Option Descriptor) → Prop
  | .error (.error _) => True
  | .error .fault | .error .running | .ok none => False
  | .ok (some sa) =>
    Matches T vt.marshalled valueObj sa.bounds ∧ (sa.cells.map Prod.fst).Perm (tuples sa.bounds)

/-- There is an element of the type. -/
def Storable (vt : VarType) (valueObj : Obj Value) (indices : List Nat) : Prop :=
  match place T valueObj indices with
  | .found obj => (objToElement T W vt obj).isOk
  | _ => False

/-- There is none, but no sublist is missing. -/
def Refused (vt : VarType) (valueObj : Obj Value) (indices : List Nat) : Prop :=
  match place T valueObj indices with
  | .found obj => (objToElement T W vt obj).isOk = false
  | .notList _ | .missingElement => True
  | .missingSublist => False

/-- In the order of the indices, the first that is not an element of the type is not a missing
sublist. -/
def RefusedFirst (vt : VarType) (valueObj : Obj Value) (bounds : List Nat) : Prop :=
  ∃ before t after, tuples bounds = before ++ t :: after ∧
    (∀ s ∈ before, Storable T W vt valueObj s) ∧ Refused T W vt valueObj t

/-- The condition. An empty list needs an array; of other lists, those count whose first lists
are not too deep and not empty, and for which there is an array. -/
def Regular (vt : VarType) (valueObj : Obj Value) : Prop :=
  match byteArray T vt valueObj, dimensions T valueObj with
  | some _, _ | none, .error _ => True
  | none, .ok bounds =>
    if bounds = [0] then W.creates vt bounds = true
    else W.creates vt bounds → 0 ∉ bounds →
      Rectangular T bounds valueObj ∨ RefusedFirst T W vt valueObj bounds

section Shapes

variable {T W} {valueObj : Obj Value} {bounds : List Nat}

/-! ### Visits -/

theorem path_cons (obj : Option (Obj Value)) (i : Nat) (t : List Nat) :
    path T obj (i :: t) = listIndex T obj i >>= fun obj => path T obj t := List.foldlM_cons

theorem path_eq (obj : Obj Value) (t : List Nat) :
    path T (some obj) t =
      match place T obj t with
      | .found obj => .ok (some obj)
      | .notList e => .error (.error e)
      | .missingElement => .ok none
      | .missingSublist => .error .fault := by
  induction t generalizing obj with
  | nil => rfl
  | cons i t ih =>
    rw [path_cons, place, listIndex, objListIndex]
    cases elements T obj with
    | error e => rfl
    | ok elems =>
      simp only [bind, Except.bind, pure, Except.pure, Except.mapError]
      cases elems[i]? with
      | some elem => exact ih elem
      | none => cases t <;> rfl

theorem visit_eq (vt : VarType) (obj : Obj Value) (t : List Nat) :
    visit T W vt obj t =
      match place T obj t with
      | .found obj => (objToElement T W vt obj).mapError .error
      | .notList e => .error (.error e)
      | .missingElement => .error (.error (.message "Too few elements in SAFEARRAY."))
      | .missingSublist => .error .fault := by
  rw [visit, path_eq]
  cases place T obj t <;> rfl

variable {vt : VarType} {t : List Nat}

theorem storable_iff :
    Storable T W vt valueObj t ↔ ∃ cell, visit T W vt valueObj t = .ok cell := by
  rw [visit_eq, Storable]
  cases place T valueObj t with
  | found obj =>
    simp only
    cases objToElement T W vt obj with
    | error e => exact iff_of_false (fun ok => nomatch ok) fun ⟨cell, ok⟩ => nomatch ok
    | ok cell => exact iff_of_true rfl ⟨cell, rfl⟩
  | notList e => exact iff_of_false id fun ⟨cell, ok⟩ => nomatch ok
  | missingElement => exact iff_of_false id fun ⟨cell, ok⟩ => nomatch ok
  | missingSublist => exact iff_of_false id fun ⟨cell, ok⟩ => nomatch ok

theorem refused_iff :
    Refused T W vt valueObj t ↔ ∃ e, visit T W vt valueObj t = .error (.error e) := by
  rw [visit_eq, Refused]
  cases place T valueObj t with
  | found obj =>
    simp only
    cases objToElement T W vt obj with
    | error e => exact iff_of_true rfl ⟨e, rfl⟩
    | ok cell => exact iff_of_false (fun bad => nomatch bad) fun ⟨e, bad⟩ => nomatch bad
  | notList e => exact iff_of_true trivial ⟨e, rfl⟩
  | missingElement => exact iff_of_true trivial ⟨_, rfl⟩
  | missingSublist => exact iff_of_false id fun ⟨e, bad⟩ => nomatch bad

/-- In a rectangle everything is found. -/
theorem place_of_rectangular {obj : Obj Value} (shape : Rectangular T bounds obj)
    (tuple : t ∈ tuples bounds) : ∃ elem, place T obj t = .found elem := by
  rw [mem_tuples] at tuple
  induction tuple generalizing obj with
  | nil => exact ⟨obj, rfl⟩
  | @cons i n t bounds less _ ih =>
    obtain ⟨elems, list, rfl, inner⟩ := shape
    obtain ⟨elem, found⟩ := ih (inner elems[i] (getElem_mem less))
    refine ⟨elem, ?_⟩
    rw [place, list]
    simp only [getElem?_eq_getElem less]
    exact found

/-! ### Visiting all -/

theorem visitAll_outcome (vt : VarType) (valueObj : Obj Value) (ts : List (List Nat))
    (cells : List (List Nat × Cell)) :
    (∃ cells', visitAll T W vt valueObj ts cells = .ok cells' ∧
        cells'.map Prod.fst = ts.reverse ++ cells.map Prod.fst ∧
        ∀ t ∈ ts, Storable T W vt valueObj t) ∨
      ∃ before t after stop, ts = before ++ t :: after ∧
        (∀ s ∈ before, Storable T W vt valueObj s) ∧ visit T W vt valueObj t = .error stop ∧
        visitAll T W vt valueObj ts cells = .error stop := by
  induction ts generalizing cells with
  | nil => exact .inl ⟨cells, rfl, rfl, fun _ mem => nomatch mem⟩
  | cons t ts ih =>
    rw [visitAll_cons]
    cases visited : visit T W vt valueObj t with
    | error stop => exact .inr ⟨[], t, ts, stop, rfl, (fun _ mem => nomatch mem), visited, rfl⟩
    | ok cell =>
      have here : Storable T W vt valueObj t := storable_iff.mpr ⟨cell, visited⟩
      rcases ih ((t, cell) :: cells) with ⟨cells', all, order, stored⟩ |
        ⟨before, s, after, stop, split, stored, stopped, all⟩
      · refine .inl ⟨cells', all, ?_, forall_mem_cons.mpr ⟨here, stored⟩⟩
        rw [order, reverse_cons, append_assoc]
        rfl
      · refine .inr ⟨t :: before, s, after, stop, congrArg (t :: ·) split, ?_, stopped, all⟩
        exact forall_mem_cons.mpr ⟨here, stored⟩

/-- The first that cannot be visited decides. -/
theorem visitAll_of_first {before : List (List Nat)} {stop : Stop}
    (stored : ∀ s ∈ before, Storable T W vt valueObj s)
    (stopped : visit T W vt valueObj t = .error stop) (after : List (List Nat))
    (cells : List (List Nat × Cell)) :
    visitAll T W vt valueObj (before ++ t :: after) cells = .error stop := by
  induction before generalizing cells with
  | nil =>
    rw [nil_append, visitAll_cons, stopped]
    rfl
  | cons s before ih =>
    obtain ⟨cell, visited⟩ := storable_iff.mp (stored s mem_cons_self)
    rw [cons_append, visitAll_cons, visited]
    exact ih (fun s mem => stored s (mem_cons_of_mem _ mem)) _

/-! ### The first lists -/

/-- The lists whose lengths are the bounds are there. -/
theorem path_zeros_of_innerBounds {ndim : Nat} {obj : Obj Value} {inner : List Nat}
    (known : innerBounds ndim obj = .ok inner) :
    ∃ list, path T (some obj) ((zeros inner).take (inner.length - 1)) = .ok (some list) := by
  fun_induction innerBounds ndim obj generalizing inner with
  | case1 =>
    cases known
    exact ⟨_, rfl⟩
  | case2 => cases known
  | case3 =>
    cases known
    exact ⟨_, rfl⟩
  | case4 ndim _ objP rest ih =>
    cases deeper : innerBounds (ndim + 1) objP with
    | error e =>
      rw [deeper] at known
      cases known
    | ok bounds =>
      rw [deeper] at known
      cases known
      obtain ⟨list, found⟩ := ih deeper
      cases bounds with
      | nil => exact ⟨_, rfl⟩
      | cons n bounds => exact ⟨list, found⟩

theorem dimensions_eq_ok (known : dimensions T valueObj = .ok bounds) :
    (elements T valueObj = .ok [] ∧ bounds = [0]) ∨
      ∃ objP rest inner, elements T valueObj = .ok (objP :: rest) ∧
        innerBounds 1 objP = .ok inner ∧ bounds = (rest.length + 1) :: inner := by
  rw [dimensions] at known
  cases elems : elements T valueObj with
  | error e =>
    rw [elems] at known
    cases known
  | ok objs =>
    rw [elems] at known
    cases objs with
    | nil =>
      cases known
      exact .inl ⟨rfl, rfl⟩
    | cons objP rest =>
      change (innerBounds 1 objP).map _ = _ at known
      cases inner : innerBounds 1 objP with
      | error e =>
        rw [inner] at known
        cases known
      | ok inner =>
        rw [inner] at known
        cases known
        exact .inr ⟨objP, rest, _, rfl, inner, rfl⟩

theorem path_zeros (known : dimensions T valueObj = .ok bounds) :
    ∃ list, path T (some valueObj) ((zeros bounds).take (bounds.length - 1)) = .ok (some list) := by
  rcases dimensions_eq_ok known with ⟨_, rfl⟩ | ⟨objP, rest, inner, elems, deeper, rfl⟩
  · exact ⟨valueObj, rfl⟩
  · obtain ⟨list, found⟩ := path_zeros_of_innerBounds (T := T) deeper
    cases inner with
    | nil => exact ⟨valueObj, rfl⟩
    | cons n inner =>
      refine ⟨list, ?_⟩
      change path T (some valueObj) (0 :: (zeros (n :: inner)).take ((n :: inner).length - 1)) = _
      rw [path_cons, listIndex, objListIndex, elems]
      exact found

/-- Where the innermost list is empty, there is no element at zeros. -/
theorem fill_of_zero {n : Nat} (known : dimensions T valueObj = .ok (n :: bounds))
    (notEmpty : n ≠ 0) (zero : 0 ∈ bounds) (created : W.creates vt (n :: bounds) = true) :
    fill T W vt (n :: bounds) valueObj = .error (.error .tcl) := by
  obtain ⟨list, found⟩ := path_zeros known
  have start := along_start (T := T) valueObj n bounds
  have length := length_zeros (n :: bounds)
  have inside : 0 + bounds.length < (n :: bounds).length := by
    rw [length_cons]
    omega
  -- the lists at zeros, before the loop and again in it
  have down {objs : List (Option (Obj Value))}
      (along : Along T valueObj (n :: bounds) (zeros (n :: bounds)) 0 objs) :
      ∃ objs', descend T (n :: bounds).length (zeros (n :: bounds)) 0 objs = .ok objs' ∧
        Along T valueObj (n :: bounds) (zeros (n :: bounds)) 0 objs' := by
    have below := descend_from along length bounds.length inside
    rw [descend]
    split at below
    next objs' done => exact ⟨objs', done, below.length, fun k le => below.lists k (by omega)⟩
    next stop _ =>
      rw [Nat.zero_add] at below
      cases below.symm.trans found
  obtain ⟨objs, first, along⟩ := down start
  obtain ⟨objs', second, _⟩ := down along
  have outside : inBounds (n :: bounds) (zeros (n :: bounds)) = false := by
    rw [Bool.eq_false_iff, Ne, inBounds_eq_true, mem_tuples]
    intro less
    obtain ⟨i, at_, empty⟩ := getElem_of_mem (mem_cons_of_mem n zero)
    have bound := less.get (i := i) (by rw [length]; exact at_) at_
    simp only [get_eq_getElem, empty] at bound
    omega
  have notZero : (n :: bounds).head? ≠ some 0 := fun zero => notEmpty (Option.some.inj zero)
  simp only [fill, if_neg notZero, if_pos created, tail_cons]
  rw [first]
  change (loop T W vt (n :: bounds) _ _ >>= _) = _
  rw [loop, store]
  simp only
  rw [second]
  simp only [bind, Except.bind, outside]
  rfl

end Shapes

/-! ### When a list is refused or matched -/

section Main

variable {T W} {valueObj : Obj Value}

theorem fill_proper_iff {vt : VarType} {n : Nat} {bounds : List Nat}
    (noBytes : byteArray T vt.marshalled valueObj = none)
    (known : dimensions T valueObj = .ok (n :: bounds)) (notEmpty : n ≠ 0) :
    Proper T vt valueObj (fill T W vt.marshalled (n :: bounds) valueObj) ↔
      (W.creates vt.marshalled (n :: bounds) = true → 0 ∉ n :: bounds →
        Rectangular T (n :: bounds) valueObj ∨
          RefusedFirst T W vt.marshalled valueObj (n :: bounds)) := by
  have notZero : (n :: bounds).head? ≠ some 0 := fun zero => notEmpty (Option.some.inj zero)
  by_cases created : W.creates vt.marshalled (n :: bounds) = true
  · by_cases zero : 0 ∈ n :: bounds
    · have inner := (mem_cons.mp zero).resolve_left notEmpty.symm
      rw [fill_of_zero known notEmpty inner created]
      exact iff_of_true trivial fun _ none => absurd zero none
    · have positive : ∀ m ∈ n :: bounds, 0 < m := fun m mem =>
        Nat.pos_of_ne_zero fun none => zero (none ▸ mem)
      rw [fill_eq positive created]
      simp only [created, zero, not_false_eq_true, true_imp_iff]
      rcases visitAll_outcome (T := T) (W := W) vt.marshalled valueObj (tuples (n :: bounds)) []
        with ⟨cells, all, order, stored⟩ | ⟨before, t, after, stop, split, stored, stopped, all⟩
      · rw [all]
        have perm : (cells.map Prod.fst).Perm (tuples (n :: bounds)) := by
          rw [order, map_nil, append_nil]
          exact reverse_perm _
        change Matches T vt.marshalled valueObj (n :: bounds) ∧ _ ↔ _
        rw [Matches, noBytes]
        constructor
        · exact fun proper => .inl proper.1
        · rintro (shape | ⟨before, t, after, split, _, refused⟩)
          · exact ⟨shape, perm⟩
          · have kept := stored t (split ▸ mem_append_right _ mem_cons_self)
            obtain ⟨cell, ok⟩ := storable_iff.mp kept
            obtain ⟨e, bad⟩ := refused_iff.mp refused
            cases ok.symm.trans bad
      · rw [all]
        have tuple : t ∈ tuples (n :: bounds) :=
          split ▸ mem_append_right _ mem_cons_self
        constructor
        · intro proper
          cases stop with
          | error e => exact .inr ⟨before, t, after, split, stored, refused_iff.mpr ⟨e, stopped⟩⟩
          | fault | running => exact proper.elim
        · rintro (shape | ⟨before', t', after', split', stored', refused⟩)
          · obtain ⟨elem, found⟩ := place_of_rectangular shape tuple
            rw [visit_eq, found] at stopped
            simp only at stopped
            cases element : objToElement T W vt.marshalled elem with
            | error e =>
              rw [element] at stopped
              cases stopped
              trivial
            | ok cell =>
              rw [element] at stopped
              cases stopped
          · obtain ⟨e, bad⟩ := refused_iff.mp refused
            have first := visitAll_of_first stored' bad after' []
            rw [← split', all] at first
            cases first
            trivial
  · simp only [fill, if_neg notZero, if_neg created]
    exact iff_of_true trivial fun yes => absurd yes created

theorem tuples_singleton (n : Nat) : tuples [n] = (List.range n).map fun i => [i] := by
  exact map_eq_flatMap.symm

/-- A nested list is refused or gives an array of its shape, and no missing list is looked
into, if and only if it is regular. -/
theorem objToSafeArray_proper_iff (vt : VarType) (valueObj : Obj Value) :
    Proper T vt valueObj (objToSafeArray T W vt valueObj) ↔
      Regular T W vt.marshalled valueObj := by
  rw [objToSafeArray, Regular]
  cases binary : byteArray T vt.marshalled valueObj with
  | some bytes =>
    refine iff_of_true ?_ trivial
    by_cases created : W.creates .ui1 [bytes.length] = true
    · simp only [if_pos created]
      refine ⟨by rw [Matches, binary], .of_eq ?_⟩
      rw [tuples_singleton, map_map, range_eq_range', ← zipIdx_map_snd,
        map_map]
      rfl
    · simp only [if_neg created]
      trivial
  | none =>
    simp only
    cases known : dimensions T valueObj with
    | error e => exact iff_of_true trivial trivial
    | ok bounds =>
      simp only
      rcases dimensions_eq_ok known with ⟨empty, rfl⟩ | ⟨objP, rest, inner, _, _, rfl⟩
      · have filled : fill T W vt.marshalled [0] valueObj =
            .ok (if W.creates vt.marshalled [0] then some ⟨vt.marshalled, [0], []⟩
              else none) := rfl
        rw [filled, if_pos rfl]
        by_cases created : W.creates vt.marshalled [0] = true
        · rw [if_pos created]
          refine iff_of_true ⟨?_, .refl []⟩ created
          rw [Matches, binary]
          exact ⟨[], empty, rfl, fun _ mem => nomatch mem⟩
        · rw [if_neg created]
          exact iff_of_false id created
      · rw [if_neg (fun zero => Nat.succ_ne_zero _ (cons.inj zero).1)]
        exact fill_proper_iff binary known (Nat.succ_ne_zero _)

end Main

/-! ### A missing sublist -/

/-- Numbers that are strings of one word. -/
def plainTcl : Tcl Int where
  parse n := some [n]
  bytes _ := none
  scalar
    | .other n => ⟨some n, none, none, []⟩
    | .list _ => ⟨none, none, none, []⟩
  pointer _ _ := none

def plainWindows : Windows where
  creates _ _ := true
  allocates _ := true
  decimal _ := none
  toR4 _ := none
  narrow d := d.setWidth 32
  widen f := f.setWidth 64
  decimalText _ := none

/-- The first list has two sublists, and the second has one. -/
def fewerSublists : Obj Int :=
  .list [.list [.list [.other 1], .list [.other 2]], .list [.list [.other 3]]]

theorem missing_sublist_followed :
    ¬ Proper plainTcl .i4 fewerSublists
      (objToSafeArray plainTcl plainWindows .i4 fewerSublists) := by
  have followed : objToSafeArray plainTcl plainWindows .i4 fewerSublists = .error .fault := rfl
  rw [followed]
  exact id

/-- A later list is longer, and its last element is left out. -/
example : objToSafeArray plainTcl plainWindows .i4
    (.list [.list [.other 1], .list [.other 2, .other 3]]) =
      .ok (some ⟨.i4, [2, 1], [([1, 0], .int 2), ([0, 0], .int 1)]⟩) := rfl

end Twapi.SafeArray
