import Twapi.Com.Invoke

/-!
Who owns what in a call of `Twapi_IDispatch_InvokeObjCmd`.

* `net` — the references to a resource that were acquired for an account, less
  those that were released or reached the script.
* `Proper` — all of them are 0, and no null pointer was followed.
* `Turns` — a computation on behalf of the VARIANTs makes of what is owned before
  what its result owns, with a rule for each way in which computations are put
  together.
-/

namespace Twapi.Com

open Lib (Traced)
open Lib.Traced List

/-! ### Balances -/

def weight (a : Account) (r : Resource) : Event → Int
  | .acquire a' r' => if a' = a ∧ r' = r then 1 else 0
  | .release a' r' => if a' = a ∧ r' = r then -1 else 0
  | .deliver a' p => if a' = a ∧ .interface p = r then -1 else 0
  | .deref _ => 0

/-- Each pointer that reaches the script takes one reference with it. -/
abbrev net {α : Type} (a : Account) (r : Resource) (x : Traced Event α) : Int :=
  total (weight a r) x

/-- No null pointer is followed. -/
abbrev Safe {α : Type} (x : Traced Event α) : Prop := x.All (· ≠ .deref none)

/-- Nothing is left over and nothing is missing, in any account, and no null pointer
is followed. -/
def Proper {α : Type} (x : Traced Event α) : Prop :=
  (∀ a r, net a r x = 0) ∧ Safe x

section Sums

variable (a a' : Account) (r : Resource)

/-- Events that weigh the same, each with a resource of its own. -/
theorem sum_weight {α : Type} (f : α → Event) (g : α → Resource) (sign : Int)
    (each : ∀ x, weight a r (f x) = if a' = a ∧ g x = r then sign else 0) (xs : List α) :
    ((xs.map f).map (weight a r)).sum =
      if a' = a then sign * ((xs.map g).count r : Int) else 0 := by
  induction xs with
  | nil => simp
  | cons x xs ih =>
    rw [map_cons, map_cons, sum_cons, ih, each, map_cons, count_cons]
    by_cases account : a' = a <;> by_cases same : g x = r <;>
      simp [account, same, Int.mul_add, Int.add_comm]

theorem sum_acquire (rs : List Resource) :
    ((rs.map (.acquire a')).map (weight a r)).sum = if a' = a then (rs.count r : Int) else 0 := by
  rw [sum_weight a a' r (.acquire a') id 1 fun _ => rfl, map_id, Int.one_mul]

theorem sum_release (rs : List Resource) :
    ((rs.map (.release a')).map (weight a r)).sum = if a' = a then -(rs.count r : Int) else 0 := by
  rw [sum_weight a a' r (.release a') id (-1) fun _ => rfl, map_id, Int.neg_one_mul]

/-- The references to interfaces, as resources. -/
abbrev refsOf (ps : List Nat) : List Resource := ps.map .interface

theorem sum_deliver (ps : List Nat) :
    ((ps.map (.deliver a')).map (weight a r)).sum =
      if a' = a then -((refsOf ps).count r : Int) else 0 := by
  rw [sum_weight a a' r (.deliver a') .interface (-1) fun _ => rfl, Int.neg_one_mul]

end Sums

theorem count_refsOf_eq_zero {ps : List Nat} :
    (∀ r, (refsOf ps).count r = 0) ↔ ps = [] := by
  constructor
  · intro none_
    cases ps with
    | nil => rfl
    | cons p ps =>
      have := none_ (.interface p)
      rw [refsOf, map_cons, count_cons_self] at this
      cases this
  · rintro rfl _
    rfl

/-! ### Values -/

variable {a a' : Account} {r : Resource}

/-- The reference that `addRef` adds. -/
def Variant.own : Variant → List Nat
  | .interface _ p => p.toList
  | _ => []

theorem addRef_eq (a : Account) (v : Variant) :
    addRef a v = tellAll ((refsOf v.own).map (.acquire a)) := by
  cases v with
  | interface type p => cases p with
    | none => rfl
    | some p => rfl
  | plain _ | bstr _ | nullArray _ | array _ _ _ => rfl

/-- What a value owns where an interface in it has no reference yet. -/
def Variant.made : Variant → List Resource
  | .interface _ _ => []
  | v => v.owned

/-! ### Making values -/

/-- An event on behalf of the VARIANTs that reads no interface. -/
def Event.onCells : Event → Prop
  | .acquire a _ | .release a _ => a = .cells
  | .deliver _ _ | .deref _ => False

/-- What is owned before becomes what the result owns. -/
structure Turns {α : Type} (before : List Resource) (owned : α → List Resource)
    (x : Traced Event α) : Prop where
  onCells : x.All Event.onCells
  net_cells : ∀ r, net .cells r x + before.count r = (owned x.result).count r

theorem weight_eq_zero {e : Event} (onCells : e.onCells) (other : a ≠ .cells) :
    weight a r e = 0 := by
  cases e with
  | acquire a' r' | release a' r' =>
    cases onCells
    exact if_neg fun same => other same.1.symm
  | deliver a' p => cases onCells
  | deref p => rfl

/-- Other accounts are not touched. -/
theorem net_eq_zero {α : Type} {x : Traced Event α} (onCells : x.All Event.onCells)
    (other : a ≠ .cells) : net a r x = 0 := by
  apply sum_eq_zero
  intro n among
  obtain ⟨e, happened, rfl⟩ := mem_map.mp among
  exact weight_eq_zero (onCells e happened) other

theorem safe_of_onCells {α : Type} {x : Traced Event α} (onCells : x.All Event.onCells) :
    Safe x := by
  rintro e happened rfl
  exact onCells _ happened

theorem onCells_map {rs : List Resource} {f : Resource → Event} (each : ∀ r, (f r).onCells) :
    ∀ e ∈ rs.map f, e.onCells := by
  intro e among
  obtain ⟨r, -, rfl⟩ := mem_map.mp among
  exact each r

namespace Turns

variable {α β : Type} {before before' : List Resource} {owned : α → List Resource}
  {owned₂ : β → List Resource}

theorem pure_ {x : α} (same : before.Perm (owned x)) : Turns before owned (pure x) where
  onCells := all_pure x
  net_cells r := by rw [net, total_pure, Int.zero_add, same.count_eq r]; rfl

variable {x : Traced Event α}

theorem bind_ {f : α → Traced Event β} (first : Turns before owned x)
    (next : Turns (owned x.result) owned₂ (f x.result)) : Turns before owned₂ (x >>= f) where
  onCells := (all_bind x f).mpr ⟨first.onCells, next.onCells⟩
  net_cells r := by
    have h₁ := first.net_cells r
    have h₂ := next.net_cells r
    rw [net, total_bind]
    rw [net] at h₁ h₂
    rw [result_bind]
    omega

/-- What else is owned stays. -/
theorem frame (rest : List Resource) (turns : Turns before owned x) :
    Turns (before ++ rest) (fun y => owned y ++ rest) x where
  onCells := turns.onCells
  net_cells r := by
    have h := turns.net_cells r
    rw [count_append, count_append]
    omega

theorem net_eq (turns : Turns before owned x) :
    net a r x = if .cells = a then ((owned x.result).count r : Int) - before.count r else 0 := by
  by_cases cells : .cells = a
  · subst cells
    rw [if_pos rfl, ← turns.net_cells r, Int.add_sub_cancel]
  · rw [if_neg cells, net_eq_zero turns.onCells (Ne.symm cells)]

theorem from_perm (turns : Turns before owned x) (same : before'.Perm before) :
    Turns before' owned x where
  onCells := turns.onCells
  net_cells r := by rw [same.count_eq r]; exact turns.net_cells r

theorem acquireAll (rs : List Resource) :
    Turns [] (fun _ => rs) (tellAll (rs.map (.acquire .cells))) where
  onCells := onCells_map fun _ => rfl
  net_cells r := by
    rw [net, total_tellAll, sum_acquire, if_pos rfl]
    exact Int.add_zero _

theorem releaseAll (rs : List Resource) :
    Turns rs (fun _ => []) (tellAll (rs.map (.release .cells))) where
  onCells := onCells_map fun _ => rfl
  net_cells r := by
    rw [net, total_tellAll, sum_release, if_pos rfl]
    exact Int.add_left_neg _

theorem acquire (r : Resource) : Turns [] (fun _ => [r]) (tell (.acquire .cells r)) :=
  acquireAll [r]

end Turns

/-- The reference that is added makes the value one that owns its interface. -/
theorem turns_addRef (v : Variant) : Turns v.made (fun _ => v.owned) (addRef .cells v) := by
  rw [addRef_eq]
  cases v with
  | interface type p => cases p with
    | none => exact .acquireAll []
    | some p => exact .acquireAll [.interface p]
  | plain _ | bstr _ | nullArray _ | array _ _ _ => exact .pure_ (x := ()) (.refl _)

section Make

variable {Obj : Type} (T : Tcl Obj)

/-- What a conversion gives: nothing, or a value that was made. -/
abbrev madeOf (v : Option Variant) : List Resource := v.elim [] Variant.made

abbrev ownedOf (v : Option Variant) : List Resource := v.elim [] Variant.owned

theorem turns_toBstr (place : Address) : Turns [] madeOf (toBstr place) :=
  (Turns.acquire (.bstr place)).bind_ (Turns.pure_ (.refl _))

theorem turns_toInterface (type : InterfaceType) (obj : Obj) :
    Turns [] madeOf (toInterface T type obj) := by
  apply Turns.pure_
  cases T.toInterface type obj with
  | none => exact .refl _
  | some p => exact .refl _

theorem turns_guess (place : Address) (obj : Obj) : Turns [] madeOf (guess T place obj) := by
  unfold guess
  split
  · exact .pure_ (.refl _)
  · split
    · exact .pure_ (.refl _)
    · split
      · exact .pure_ (.refl _)
      · split
        · exact .pure_ (.refl _)
        · exact turns_toBstr place

theorem turns_objToValue (place : Address) (obj : Obj) (vt : VarType) :
    Turns [] madeOf (objToValue T place obj vt) := by
  unfold objToValue
  split
  case h_3 => exact turns_guess T place obj
  case h_4 => exact turns_toBstr place
  case h_5 | h_6 => exact turns_toInterface T _ obj
  all_goals
    apply Turns.pure_
    first | exact .refl _ | (split <;> exact .refl _)

theorem turns_objToElement (place : Address) (elem : VarType) (obj : Obj) :
    Turns [] ownedOf (objToElement T place elem obj) := by
  unfold objToElement
  split
  · apply (turns_objToValue T place obj elem).bind_
    cases (objToValue T place obj elem).result with
    | none => exact .pure_ (.refl _)
    | some v => exact (turns_addRef v).bind_ (.pure_ (.refl _))
  · exact .pure_ (.refl _)

/-- The elements that were converted own what was acquired, also where one could
not be converted. -/
theorem turns_objToElements (place : Address) (elem : VarType) (objs : List (Option Obj)) :
    ∀ k, Turns [] (fun y => ownedAll y.1) (objToElements T place elem k objs) := by
  induction objs with
  | nil =>
    intro k
    exact .pure_ (.refl _)
  | cons obj objs ih =>
    intro k
    cases obj with
    | none => exact .pure_ (.refl _)
    | some obj =>
      rw [objToElements]
      apply (turns_objToElement T _ elem obj).bind_
      cases (objToElement T (place ++ [k]) elem obj).result with
      | none => exact .pure_ (.refl _)
      | some v =>
        apply ((ih (k + 1)).frame v.owned).bind_
        apply Turns.pure_
        exact perm_append_comm

theorem turns_objToSafeArray (place : Address) (obj : Obj) (vt : VarType) :
    Turns [] madeOf (objToSafeArray T place obj vt) := by
  unfold objToSafeArray
  dsimp only
  split
  · exact (Turns.acquire (.array place)).bind_ (Turns.pure_ (.refl _))
  · split
    · exact .pure_ (.refl _)
    · rename_i objs _
      apply (Turns.acquire (.array place)).bind_
      apply ((turns_objToElements T place vt.marshalled objs 0).frame [.array place]).bind_
      split
      · exact .pure_ perm_append_comm
      · apply ((Turns.releaseAll _).from_perm perm_append_comm).bind_
        exact Turns.pure_ (.refl _)

theorem turns_objToVariant (place : Address) (obj : Obj) (vt : ValueType) :
    Turns [] madeOf (objToVariant T place obj vt) := by
  unfold objToVariant
  split
  · exact turns_objToSafeArray T place obj vt.base
  · exact turns_objToValue T place obj vt.base

/-! ### Making parameters -/

def Primary.owned : Primary → List Resource
  | .value v => v.owned
  | .ref _ => []

def Param.owned (p : Param) : List Resource := p.primary.owned ++ p.target.owned

def ownedParams (ps : List Param) : List Resource := ps.flatMap Param.owned

theorem owned_initOutputParam (vt : ValueType) : (twapiInitOutputParam vt).owned = [] := by
  unfold twapiInitOutputParam
  split
  · rfl
  · split <;> rfl

theorem owned_finish (flags : Nat) (vt : ValueType) (byref : Bool) (v : Variant) :
    (Param.finish flags vt byref v).1.owned = v.owned := by
  unfold Param.finish
  split
  · split <;> rfl
  · exact append_nil _

theorem turns_makeValue (place : Address) (flags : Nat) (vt : ValueType) (byref : Bool)
    (arg : Option Obj) :
    Turns [] (fun y => y.1.owned) (makeValue T place flags vt byref arg) := by
  unfold makeValue
  split
  · split
    · split
      · exact .pure_ (.refl _)
      · exact .pure_ (.refl _)
    · rename_i obj _
      apply (turns_objToVariant T place obj _).bind_
      cases (objToVariant T place obj _).result with
      | none => exact .pure_ (.refl _)
      | some v =>
        apply (turns_addRef v).bind_
        apply Turns.pure_
        rw [owned_finish]
  · apply Turns.pure_
    rw [owned_finish, owned_initOutputParam]

theorem turns_makeParam (place : Address) (desc : Option (ParamDesc Obj)) (arg : Option Obj) :
    Turns [] (fun y => y.1.owned) (twapiMakeVariantParam T place desc arg) := by
  unfold twapiMakeVariantParam
  split
  · split <;> exact turns_makeValue T ..
  · split
    · exact .pure_ (.refl _)
    · split
      · exact .pure_ (.refl _)
      · split
        · exact .pure_ (.refl _)
        · split
          · exact .pure_ (.refl _)
          · exact turns_makeValue T ..

theorem turns_makeParams (arg : Nat → Option Obj) (descs : List (Option (ParamDesc Obj))) :
    ∀ i, Turns [] (fun y => ownedParams y.1) (makeParams T arg i descs) := by
  induction descs with
  | nil =>
    intro i
    exact .pure_ (.refl _)
  | cons desc descs ih =>
    intro i
    rw [makeParams]
    apply (turns_makeParam T [i] desc (arg i)).bind_
    obtain ⟨param, failed⟩ := (twapiMakeVariantParam T [i] desc (arg i)).result
    cases failed with
    | some message => exact .pure_ (.of_eq (append_nil _).symm)
    | none =>
      apply ((ih (i + 1)).frame param.owned).bind_
      exact .pure_ perm_append_comm

end Make

/-! ### Storing and clearing -/

theorem turns_variantClear (v : Variant) : Turns v.owned (fun _ => []) (variantClear v) :=
  .releaseAll v.owned

theorem turns_store (p : Param) (change : Option Variant) :
    Turns p.owned Param.owned (p.store change) := by
  unfold Param.store
  split
  · exact .pure_ (.refl _)
  · split
    · rename_i v _
      obtain ⟨flags, primary, target⟩ := p
      cases primary with
      | value old =>
        apply ((turns_variantClear old).frame target.owned).bind_
        apply ((Turns.acquireAll v.owned).frame target.owned).bind_
        exact Turns.pure_ (.refl _)
      | ref kind =>
        apply (turns_variantClear target).bind_
        apply (Turns.acquireAll v.owned).bind_
        exact Turns.pure_ (.refl _)
    · exact .pure_ (.refl _)

theorem turns_storeAll (changes : Nat → Option Variant) (ps : List Param) :
    ∀ i, Turns (ownedParams ps) ownedParams (storeAll changes i ps) := by
  induction ps with
  | nil =>
    intro i
    exact .pure_ (.refl _)
  | cons p ps ih =>
    intro i
    rw [storeAll]
    apply ((turns_store p (changes i)).frame (ownedParams ps)).bind_
    apply (((ih (i + 1)).frame _).from_perm perm_append_comm).bind_
    exact .pure_ perm_append_comm

theorem turns_clearCells (ret : Variant) (ps : List Param) :
    Turns (ownedParams ps ++ ret.owned) (fun _ => []) (clearCells ret ps) := by
  induction ps with
  | nil => exact turns_variantClear ret
  | cons p ps ih =>
    obtain ⟨flags, primary, target⟩ := p
    have rest : Turns (target.owned ++ (ownedParams ps ++ ret.owned)) (fun _ => [])
        (do variantClear target; clearCells ret ps) :=
      ((turns_variantClear target).frame _).bind_ ih
    rw [ownedParams, flatMap_cons, Param.owned, append_assoc, append_assoc]
    cases primary with
    | value v => exact ((turns_variantClear v).frame _).bind_ rest
    | ref kind =>
      have nothing : Turns (target.owned ++ (ownedParams ps ++ ret.owned))
          (fun _ => target.owned ++ (ownedParams ps ++ ret.owned)) (pure ()) :=
        .pure_ (.refl _)
      exact nothing.bind_ (f := fun _ => do variantClear target; clearCells ret ps) rest

end Twapi.Com
