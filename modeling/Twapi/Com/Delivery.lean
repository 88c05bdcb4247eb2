import Twapi.Com.Ownership

/-!
What reaches the script in a call of `Twapi_IDispatch_InvokeObjCmd`.

* `ObjFromVARIANT` of a parameter gives the `pointers` in it. It adds a reference
  for some of them, its `ownRefs`; for that it may read an interface the parameter
  refers to.
* `Sound` — the calls that balance, `invoke_proper_iff`. It speaks of the
  parameters as they were made and as the method left them.
-/

namespace Twapi.Com

open Lib (Traced)
open Lib.Traced List

/-! ### `ObjFromVARIANT` -/

mutual

/-- The pointers that a value is formatted as. -/
def Variant.pointers : Variant → List Nat
  | .plain _ => []
  | .bstr _ => []
  | .interface _ p => p.toList
  | .nullArray _ => []
  | .array _ _ elems => elementPointers elems

def elementPointers : List Variant → List Nat
  | [] => []
  | v :: vs => v.pointers ++ elementPointers vs

end

/-- Those for which a reference is added: the ones in an array. -/
def Variant.ownRefs : Variant → List Nat
  | .array _ _ elems => elementPointers elems
  | _ => []

theorem Variant.pointers_eq (v : Variant) : v.pointers = v.own ++ v.ownRefs := by
  cases v with
  | interface type p => exact (append_nil _).symm
  | plain _ | bstr _ | nullArray _ | array _ _ _ => rfl

/-- References that are added for an account. -/
def added (a : Account) (ps : List Nat) : List Event := (refsOf ps).map (.acquire a)

theorem added_append (a : Account) (ps qs : List Nat) :
    added a (ps ++ qs) = added a ps ++ added a qs := by
  rw [added, refsOf, map_append, map_append]
  rfl

mutual

theorem objFromVariant_eq (a : Account) :
    ∀ v : Variant, objFromVariant a v = ⟨v.pointers, added a v.ownRefs⟩
  | .plain _ | .bstr _ | .interface _ _ | .nullArray _ => rfl
  | .array _ _ elems => objFromElements_eq a elems

theorem objFromElements_eq (a : Account) :
    ∀ vs : List Variant, objFromElements a vs = ⟨elementPointers vs, added a (elementPointers vs)⟩
  | [] => rfl
  | v :: vs => by
      rw [objFromElements, addRef_eq, objFromVariant_eq a v, objFromElements_eq a vs,
        elementPointers, added_append, v.pointers_eq, added_append, List.append_assoc]
      simp [bind, pure, tellAll, added]

end

/-! ### Parameters -/

namespace Param

/-- The interface that is read: that of a parameter that refers to one. -/
def reads (p : Param) : Option (Option Nat) :=
  match p.primary, p.target with
  | .ref .interface, .interface _ q => some q
  | _, _ => none

def pointers (p : Param) : List Nat :=
  match p.primary, p.target with
  | .value v, _ => v.pointers
  | .ref .interface, .interface _ q => q.toList
  | .ref .variant, v => v.pointers
  | .ref (.array _), .array _ _ elems => elementPointers elems
  | .ref _, _ => []

def ownRefs (p : Param) : List Nat :=
  match p.primary, p.target with
  | .value v, _ => v.ownRefs
  | .ref .interface, .interface _ q => q.toList
  | .ref .variant, v => v.ownRefs
  | .ref (.array _), .array _ _ elems => elementPointers elems
  | .ref _, _ => []

theorem objFrom_eq (a : Account) (p : Param) :
    p.objFrom a = ⟨p.pointers, p.reads.toList.map .deref ++ added a p.ownRefs⟩ := by
  obtain ⟨flags, primary, target⟩ := p
  cases primary with
  | value v => exact objFromVariant_eq a v
  | ref kind =>
    cases kind with
    | variant => exact objFromVariant_eq a target
    | interface =>
      cases target with
      | interface type q => cases q with
        | none => rfl
        | some q => rfl
      | plain _ | bstr _ | nullArray _ | array _ _ _ => rfl
    | array elem =>
      cases target with
      | array elem' place elems => exact objFromElements_eq a elems
      | plain _ | bstr _ | nullArray _ | interface _ _ => rfl
    | bstr | empty | scalar => rfl

end Param

/-! ### Out parameters -/

/-- The references that are added once a variable was set. -/
def Param.outRefs (p : Param) : List Nat :=
  match p.primary with
  | .value v => v.own
  | .ref .interface | .ref .variant => p.target.own
  | .ref _ => []

theorem addRefOut_eq (p : Param) : addRefOut p = tellAll (added .variable_ p.outRefs) := by
  obtain ⟨flags, primary, target⟩ := p
  cases primary with
  | value v => exact addRef_eq _ v
  | ref kind =>
    cases kind with
    | interface | variant => exact addRef_eq _ target
    | bstr | array _ | empty | scalar => rfl

/-- A parameter that refers to an interface gets a second reference. -/
def Param.spill (p : Param) : List Nat := p.reads.toList.flatMap Option.toList

theorem Param.refs_perm (p : Param) :
    (p.ownRefs ++ p.outRefs).Perm (p.pointers ++ p.spill) := by
  obtain ⟨flags, primary, target⟩ := p
  have of_value (v : Variant) : (v.ownRefs ++ v.own).Perm (v.pointers ++ []) := by
    rw [v.pointers_eq, append_nil]
    exact perm_append_comm
  cases primary with
  | value v => exact of_value v
  | ref kind =>
    cases kind with
    | variant => exact of_value target
    | interface =>
      cases target with
      | interface type q => exact .of_eq (congrArg _ (append_nil _).symm)
      | plain _ | bstr _ | nullArray _ | array _ _ _ => exact .refl _
    | array elem =>
      cases target with
      | array elem' place elems => exact .refl _
      | plain _ | bstr _ | nullArray _ | interface _ _ => exact .refl _
    | bstr | empty | scalar => exact .refl _

/-- Whether all variables can be set. -/
def allSet (sets : Nat → Bool) : Nat → List Param → Bool
  | _, [] => true
  | i, p :: ps => if p.flags.testBit fout then sets i && allSet sets (i + 1) ps
      else allSet sets (i + 1) ps

/-- The references that are left over: those of `spill`, and where a variable
cannot be set those that were added for it. -/
def leftOver (sets : Nat → Bool) : Nat → List Param → List Nat
  | _, [] => []
  | i, p :: ps =>
    if p.flags.testBit fout then
      if sets i then p.spill ++ leftOver sets (i + 1) ps else p.ownRefs
    else leftOver sets (i + 1) ps

variable {a : Account} {r : Resource} {sets : Nat → Bool}

theorem result_setVariables (ps : List Param) :
    ∀ i, (setVariables sets i ps).result = allSet sets i ps := by
  induction ps with
  | nil =>
    intro i
    rfl
  | cons p ps ih =>
    intro i
    rw [setVariables, allSet]
    by_cases out : p.flags.testBit fout
    · rw [if_pos out, if_pos out]
      cases sets i with
      | true => simp [ih]
      | false => simp
    · rw [if_neg out, if_neg out, ih]

theorem count_refsOf_append (ps qs : List Nat) :
    (refsOf (ps ++ qs)).count r = (refsOf ps).count r + (refsOf qs).count r := by
  rw [refsOf, map_append, count_append]

theorem sum_reads (q : Option (Option Nat)) :
    ((q.toList.map .deref).map (weight a r)).sum = 0 := by
  cases q with
  | none => rfl
  | some q => rfl

theorem sum_added (a' : Account) (ps : List Nat) :
    ((added a' ps).map (weight a r)).sum = if a' = a then ((refsOf ps).count r : Int) else 0 :=
  sum_acquire a a' r (refsOf ps)

theorem net_objFrom (a' : Account) (p : Param) :
    net a r (p.objFrom a') = if a' = a then ((refsOf p.ownRefs).count r : Int) else 0 := by
  rw [p.objFrom_eq, net, total, map_append, sum_append, sum_reads, Int.zero_add,
    sum_added]

theorem net_addRefOut (p : Param) :
    net a r (addRefOut p) = if .variable_ = a then ((refsOf p.outRefs).count r : Int) else 0 := by
  rw [addRefOut_eq, net, total_tellAll, sum_added]

theorem net_setVariables (sets : Nat → Bool) (ps : List Param) :
    ∀ i, net a r (setVariables sets i ps) =
      if .variable_ = a then ((refsOf (leftOver sets i ps)).count r : Int) else 0 := by
  induction ps with
  | nil =>
    intro i
    exact (ite_self _).symm
  | cons p ps ih =>
    intro i
    rw [setVariables, leftOver]
    by_cases out : p.flags.testBit fout
    · rw [if_pos out, if_pos out, net, total_bind, ← net, net_objFrom, p.objFrom_eq]
      cases sets i with
      | true =>
        have balance : (refsOf (p.ownRefs ++ p.outRefs)).count r = _ :=
          (p.refs_perm.map .interface).count_eq r
        rw [count_refsOf_append, count_refsOf_append] at balance
        rw [if_pos rfl, if_pos rfl, total_bind, total_bind, total_tellAll, sum_deliver, ← net,
          ← net, net_addRefOut, ih, count_refsOf_append]
        by_cases account : .variable_ = a
        · simp only [if_pos account]
          omega
        · simp only [if_neg account]
          rfl
      | false => exact Int.add_zero _
    · rw [if_neg out, if_neg out, ih]

/-! ### Null pointers -/

theorem safe_added (a : Account) (ps : List Nat) : ∀ e ∈ added a ps, e ≠ .deref none := by
  rintro e among rfl
  obtain ⟨r, -, same⟩ := mem_map.mp among
  cases same

theorem safe_deliver (a : Account) (ps : List Nat) :
    Safe (tellAll (ps.map (.deliver a))) := by
  rintro e among rfl
  obtain ⟨q, -, same⟩ := mem_map.mp among
  cases same

theorem safe_reads_iff (q : Option (Option Nat)) (ps : List Nat) :
    Safe (tellAll (q.toList.map .deref ++ added a ps)) ↔ q ≠ some none := by
  constructor
  · rintro safe rfl
    exact safe (.deref none) (mem_append_left _ (mem_singleton_self _)) rfl
  · intro proper e happened
    obtain read | later := mem_append.mp happened
    · cases q with
      | none => cases read
      | some q =>
        rintro rfl
        cases mem_singleton.mp read
        exact proper rfl
    · exact safe_added a ps e later

theorem safe_objFrom_iff (p : Param) : Safe (p.objFrom a) ↔ p.reads ≠ some none := by
  rw [p.objFrom_eq]
  exact safe_reads_iff p.reads p.ownRefs

theorem ownRefs_of_reads {p : Param} {q : Option Nat} (reads : p.reads = some q) :
    p.ownRefs = q.toList := by
  unfold Param.reads at reads
  split at reads
  · rename_i by_ref target
    cases reads
    rw [Param.ownRefs, by_ref, target]
  · cases reads

theorem spill_eq_nil_iff (p : Param) :
    p.spill = [] ∧ p.reads ≠ some none ↔ p.reads = none := by
  unfold Param.spill
  cases p.reads with
  | none => simp
  | some q => cases q <;> simp

/-- Where no reference is added, a null pointer is the only one that can be read. -/
theorem ownRefs_eq_nil_iff (p : Param) :
    p.ownRefs = [] ∧ p.reads ≠ some none ↔ p.ownRefs = [] ∧ p.reads = none := by
  cases which : p.reads with
  | none => simp
  | some q =>
    rw [ownRefs_of_reads which]
    cases q <;> simp

/-- The out parameters that are reached refer to no interface. Where a variable
cannot be set, neither it nor the result holds a reference. -/
def Settled (refs : List Nat) (sets : Nat → Bool) : Nat → List Param → Prop
  | _, [] => True
  | i, p :: ps =>
    if p.flags.testBit fout then
      p.reads = none ∧
        if sets i then Settled refs sets (i + 1) ps else refs = [] ∧ p.ownRefs = []
    else Settled refs sets (i + 1) ps

theorem safe_setVariables_cons (i : Nat) (p : Param) (ps : List Param) :
    Safe (setVariables sets i (p :: ps)) ↔
      if p.flags.testBit fout then
        p.reads ≠ some none ∧ (sets i → Safe (setVariables sets (i + 1) ps))
      else Safe (setVariables sets (i + 1) ps) := by
  rw [setVariables]
  by_cases out : p.flags.testBit fout
  · rw [if_pos out, if_pos out, Safe, all_bind, ← Safe, safe_objFrom_iff]
    cases sets i with
    | true =>
      have delivered := safe_deliver .variable_ p.pointers
      have added_ : Safe (addRefOut p) := by
        rw [addRefOut_eq]
        exact safe_added _ _
      rw [if_pos rfl, all_bind, all_bind, p.objFrom_eq]
      constructor
      · rintro ⟨proper, -, -, rest⟩
        exact ⟨proper, fun _ => rest⟩
      · rintro ⟨proper, rest⟩
        exact ⟨proper, delivered, added_, rest rfl⟩
    | false =>
      constructor
      · rintro ⟨proper, -⟩
        exact ⟨proper, fun set => nomatch set⟩
      · rintro ⟨proper, -⟩
        exact ⟨proper, all_pure _⟩
  · rw [if_neg out, if_neg out]

theorem settled_iff (sets : Nat → Bool) (refs : List Nat) (ps : List Param) :
    ∀ i, Settled refs sets i ps ↔
      leftOver sets i ps = [] ∧ Safe (setVariables sets i ps) ∧
        (allSet sets i ps = false → refs = []) := by
  induction ps with
  | nil =>
    intro i
    simp [Settled, leftOver, setVariables, allSet]
  | cons p ps ih =>
    intro i
    rw [safe_setVariables_cons, Settled, leftOver, allSet]
    by_cases out : p.flags.testBit fout
    · simp only [if_pos out]
      cases sets i with
      | true =>
        simp only [if_true, append_eq_nil_iff, Bool.true_and, ih, ← spill_eq_nil_iff p,
          true_implies]
        tauto
      | false =>
        simp only [Bool.false_eq_true, if_false, Bool.false_and, true_implies, false_implies,
          and_true]
        have := ownRefs_eq_nil_iff p
        tauto
    · simp only [if_neg out, ih]

/-! ### The result -/

/-- The references that are added for the result where the parameter is it. -/
def Param.resultRefs (p : Param) : List Nat :=
  match p.primary with
  | .value v => v.pointers
  | .ref _ => p.ownRefs

/-- An interface in a VARIANT that is referred to gets none. -/
def Param.borrowed (p : Param) : List Nat :=
  match p.primary with
  | .ref .variant => p.target.own
  | _ => []

theorem Param.pointers_eq (p : Param) : p.pointers = p.borrowed ++ p.resultRefs := by
  obtain ⟨flags, primary, target⟩ := p
  cases primary with
  | value v => rfl
  | ref kind =>
    cases kind with
    | variant => exact target.pointers_eq
    | interface =>
      cases target with
      | interface _ _ | plain _ | bstr _ | nullArray _ | array _ _ _ => rfl
    | array elem =>
      cases target with
      | interface _ _ | plain _ | bstr _ | nullArray _ | array _ _ _ => rfl
    | bstr | empty | scalar => rfl

section Result

variable (rettype : VarType) (ret : Variant) (o : Outcome) (params : List Param)

/-- There is a result: the call succeeded, also by the return value where a
parameter is the result. -/
def Returns : Prop := (resultParam rettype params).isSome → 0 ≤ o.retI4

def resultRefs : List Nat :=
  match resultParam rettype params with
  | some p => p.resultRefs
  | none => if rettype = .void then [] else ret.pointers

def borrowed : List Nat := ((resultParam rettype params).map Param.borrowed).getD []

def resultReads : Option (Option Nat) := (resultParam rettype params).bind Param.reads

theorem resultOf_none (fails : ¬ Returns rettype o params) :
    resultOf rettype ret o.retI4 params = pure none := by
  unfold Returns at fails
  unfold resultOf
  cases which : resultParam rettype params with
  | none => simp [which] at fails
  | some p =>
    have : ¬ 0 ≤ o.retI4 := fun nonneg => fails fun _ => nonneg
    exact if_neg this

/-- The pointers in the result, and the references that are added for it. -/
theorem resultOf_eq (returns : Returns rettype o params) :
    resultOf rettype ret o.retI4 params =
      ⟨some (borrowed rettype params ++ resultRefs rettype ret params),
        (resultReads rettype params).toList.map .deref ++
          added .result (resultRefs rettype ret params)⟩ := by
  have of_value (v : Variant) :
      (do addRef .result v; let ps ← objFromVariant .result v; pure (some ps)) =
        (⟨some v.pointers, added .result v.pointers⟩ : Traced Event (Option (List Nat))) := by
    rw [addRef_eq, objFromVariant_eq, v.pointers_eq, added_append]
    simp [bind, pure, tellAll, added]
  unfold Returns at returns
  unfold resultOf borrowed resultRefs resultReads
  cases which : resultParam rettype params with
  | none =>
    dsimp only
    by_cases void : rettype = .void
    · rw [if_pos void, if_pos void]
      rfl
    · rw [if_neg void, if_neg void]
      exact of_value ret
  | some p =>
    dsimp only
    rw [if_pos (returns (by rw [which]; rfl))]
    obtain ⟨flags, primary, target⟩ := p
    cases primary with
    | value v => exact of_value v
    | ref kind =>
      rw [Param.objFrom_eq, Param.pointers_eq]
      simp [bind, pure, Param.resultRefs]

variable (nargs : Nat)

/-- The arguments of which there are variables. -/
abbrev given : List Param := params.take nargs

/-- What is needed where there is a result. -/
structure Delivers : Prop where
  reads : resultReads rettype params ≠ some none
  settled : Settled (resultRefs rettype ret params) o.sets 0 (given params nargs)
  owns : allSet o.sets 0 (given params nargs) → borrowed rettype params = []

theorem finishCall_returns (succeeded : o.hr = .succeeded) (returns : Returns rettype o params) :
    finishCall rettype ret nargs o params = (do
      tellAll ((resultReads rettype params).toList.map .deref ++
        added .result (resultRefs rettype ret params))
      if ← setVariables o.sets 0 (given params nargs) then
        tellAll ((borrowed rettype params ++ resultRefs rettype ret params).map (.deliver .result))
        pure .ok
      else pure .error) := by
  unfold finishCall
  rw [succeeded]
  dsimp only
  rw [resultOf_eq _ _ _ _ returns]
  rfl

theorem net_finishCall_returns (succeeded : o.hr = .succeeded)
    (returns : Returns rettype o params) :
    net a r (finishCall rettype ret nargs o params) =
      (if .result = a then
        ((refsOf (resultRefs rettype ret params)).count r : Int) -
          (if allSet o.sets 0 (given params nargs) then
            ((refsOf (borrowed rettype params ++ resultRefs rettype ret params)).count r : Int)
          else 0)
      else 0) +
      (if .variable_ = a then ((refsOf (leftOver o.sets 0 (given params nargs))).count r : Int)
      else 0) := by
  have stored := net_setVariables (a := a) (r := r) o.sets (given params nargs) 0
  rw [net] at stored
  rw [finishCall_returns _ _ _ _ _ succeeded returns, net, total_bind, total_bind, total_tellAll,
    stored, result_setVariables, map_append, sum_append, sum_reads, Int.zero_add,
    sum_added]
  cases allSet o.sets 0 (given params nargs) with
  | true =>
    rw [if_pos rfl, if_pos rfl, total_bind, total_tellAll, sum_deliver, total_pure]
    split <;> omega
  | false =>
    rw [if_neg Bool.false_ne_true, if_neg Bool.false_ne_true, total_pure]
    split <;> omega

theorem safe_finishCall_returns (succeeded : o.hr = .succeeded)
    (returns : Returns rettype o params) :
    Safe (finishCall rettype ret nargs o params) ↔
      resultReads rettype params ≠ some none ∧
        Safe (setVariables o.sets 0 (given params nargs)) := by
  have last (b : Bool) (ps : List Nat) : Safe (if b then do
      tellAll (ps.map (.deliver .result))
      pure Status.ok
    else pure Status.error) := by
    apply all_ite
    · exact (all_bind _ _).mpr ⟨safe_deliver .result ps, all_pure _⟩
    · exact all_pure _
  rw [finishCall_returns _ _ _ _ _ succeeded returns, Safe, all_bind, ← Safe, safe_reads_iff,
    all_bind]
  constructor
  · rintro ⟨reads, stored, -⟩
    exact ⟨reads, stored⟩
  · rintro ⟨reads, stored⟩
    exact ⟨reads, stored, last _ _⟩

/-- In the accounts of the result and of the variables nothing is left over. -/
theorem delivers_iff (succeeded : o.hr = .succeeded) (returns : Returns rettype o params) :
    ((∀ r, net .result r (finishCall rettype ret nargs o params) = 0) ∧
      (∀ r, net .variable_ r (finishCall rettype ret nargs o params) = 0) ∧
      Safe (finishCall rettype ret nargs o params)) ↔ Delivers rettype ret o params nargs := by
  have result_ (r : Resource) : net .result r (finishCall rettype ret nargs o params) =
      (refsOf (resultRefs rettype ret params)).count r -
        (if allSet o.sets 0 (given params nargs) then
          ((refsOf (borrowed rettype params)).count r : Int) +
            (refsOf (resultRefs rettype ret params)).count r
        else 0) := by
    rw [net_finishCall_returns _ _ _ _ _ succeeded returns, count_refsOf_append]
    simp
  have stored (r : Resource) : net .variable_ r (finishCall rettype ret nargs o params) =
      (refsOf (leftOver o.sets 0 (given params nargs))).count r := by
    rw [net_finishCall_returns _ _ _ _ _ succeeded returns]
    simp
  have settled := settled_iff o.sets (resultRefs rettype ret params) (given params nargs) 0
  rw [safe_finishCall_returns _ _ _ _ _ succeeded returns]
  simp only [result_, stored]
  constructor
  · rintro ⟨result_, stored, reads, safe⟩
    have none_left : leftOver o.sets 0 (given params nargs) = [] :=
      count_refsOf_eq_zero.mp fun r => Int.ofNat_eq_zero.mp (stored r)
    refine ⟨reads, settled.mpr ⟨none_left, safe, ?_⟩, ?_⟩
    · intro not_all
      rw [not_all] at result_
      apply count_refsOf_eq_zero.mp
      intro r
      have := result_ r
      rw [if_neg Bool.false_ne_true] at this
      omega
    · intro all_
      rw [all_] at result_
      apply count_refsOf_eq_zero.mp
      intro r
      have := result_ r
      rw [if_pos rfl] at this
      omega
  · intro delivers
    obtain ⟨none_left, safe, holds_none⟩ := settled.mp delivers.settled
    refine ⟨?_, ?_, delivers.reads, safe⟩
    · intro r
      cases all_ : allSet o.sets 0 (given params nargs) with
      | true =>
        rw [delivers.owns all_, if_pos rfl]
        exact (congrArg _ (Int.zero_add _)).trans (Int.sub_self _)
      | false =>
        rw [holds_none all_]
        rfl
    · intro r
      rw [none_left]
      rfl

/-- Without a result only the strings of an exception are released. -/
theorem turns_finishCall (other : ¬ (o.hr = .succeeded ∧ Returns rettype o params)) :
    Turns (o.hr.strings.map .bstr) (fun _ => []) (finishCall rettype ret nargs o params) := by
  have error : Turns [] (fun _ => []) (pure Status.error) := Turns.pure_ (.refl _)
  have release := (Turns.releaseAll (o.hr.strings.map .bstr)).bind_ (f := fun _ => pure Status.error)
    error
  unfold finishCall
  cases hr : o.hr with
  | succeeded =>
    dsimp only
    rw [resultOf_none _ _ _ _ fun returns => other ⟨hr, returns⟩]
    exact .pure_ (.refl _)
  | exception _ _ _ | failed =>
    rw [hr, map_map] at release
    exact release

theorem net_cells_finishCall (r : Resource) :
    net .cells r (finishCall rettype ret nargs o params) +
      (o.hr.strings.map Resource.bstr).count r = 0 := by
  by_cases returns : o.hr = .succeeded ∧ Returns rettype o params
  · rw [net_finishCall_returns _ _ _ _ _ returns.1 returns.2, returns.1]
    rfl
  · exact (turns_finishCall rettype ret o params nargs returns).net_cells r

theorem net_log_finishCall (r : Resource) :
    net .log r (finishCall rettype ret nargs o params) = 0 := by
  by_cases returns : o.hr = .succeeded ∧ Returns rettype o params
  · rw [net_finishCall_returns _ _ _ _ _ returns.1 returns.2]
    rfl
  · exact (turns_finishCall rettype ret o params nargs returns).net_eq

/-- A call of which there is no result touches the strings of an exception only. -/
theorem finishCall_proper_iff :
    ((∀ r, net .result r (finishCall rettype ret nargs o params) = 0) ∧
      (∀ r, net .variable_ r (finishCall rettype ret nargs o params) = 0) ∧
      Safe (finishCall rettype ret nargs o params)) ↔
    (o.hr = .succeeded → Returns rettype o params → Delivers rettype ret o params nargs) := by
  by_cases returns : o.hr = .succeeded ∧ Returns rettype o params
  · rw [delivers_iff _ _ _ _ _ returns.1 returns.2]
    exact ⟨fun delivers _ _ => delivers, fun delivers => delivers returns.1 returns.2⟩
  · have onCells := (turns_finishCall rettype ret o params nargs returns).onCells
    constructor
    · intro _ succeeded result_
      exact absurd ⟨succeeded, result_⟩ returns
    · intro _
      exact ⟨fun r => net_eq_zero onCells nofun, fun r => net_eq_zero onCells nofun,
        safe_of_onCells onCells⟩

end Result

/-! ### Logging -/

theorem net_logParams (ps : List Param) :
    net a r (logParams ps) =
      if .log = a then ((refsOf (ps.flatMap Param.ownRefs)).count r : Int) else 0 := by
  induction ps with
  | nil => exact (ite_self _).symm
  | cons p ps ih =>
    have first := net_objFrom (a := a) (r := r) .log p
    rw [net] at first ih
    rw [logParams, net, total_bind, first, ih, flatMap_cons, count_refsOf_append]
    split <;> rfl

theorem safe_logParams_iff (ps : List Param) :
    Safe (logParams ps) ↔ ∀ p ∈ ps, p.reads ≠ some none := by
  induction ps with
  | nil => simp [logParams]
  | cons p ps ih =>
    rw [logParams, Safe, all_bind, forall_mem_cons]
    exact and_congr (safe_objFrom_iff p) ih

/-- Logging adds references that nothing releases, and reads interfaces. -/
theorem logParams_proper_iff (ps : List Param) :
    ((∀ r, net .log r (logParams ps) = 0) ∧ Safe (logParams ps)) ↔
      ∀ p ∈ ps, p.ownRefs = [] ∧ p.reads = none := by
  simp only [← ownRefs_eq_nil_iff, safe_logParams_iff, forall_and, net_logParams]
  apply and_congr_left'
  rw [← flatMap_eq_nil_iff, ← count_refsOf_eq_zero]
  exact forall_congr' fun r => Int.ofNat_eq_zero

/-! ### The command -/

section Command

variable {Obj : Type} (T : Tcl Obj)

/-- The parameters after the call. -/
def left (o : Outcome) (made : List Param) : List Param := (storeAll o.changes 0 made).result

/-- What a call needs whose parameters could be made. -/
structure Sound (c : Call Obj) (o : Outcome) (proto : Prototype Obj) (made : List Param) :
    Prop where
  idisp : c.idispP ≠ none
  log : c.logging → ∀ p ∈ made, p.ownRefs = [] ∧ p.reads = none
  delivers : o.hr = .succeeded → Returns proto.returns o (left o made) →
    Delivers proto.returns (proto.ret o) o (left o made) c.args.length

variable (c : Call Obj) (o : Outcome) (proto : Prototype Obj) (made : List Param)

theorem net_callMethod :
    net a r (callMethod c o proto made) =
      net a r (finishCall proto.returns (proto.ret o) c.args.length o (left o made)) +
      if .cells = a then
        ((o.hr.strings.map Resource.bstr).count r : Int) - (ownedParams made).count r
      else 0 := by
  have ret_ := (Turns.acquireAll (proto.ret o).owned).net_eq (a := a) (r := r)
  have strings := (Turns.acquireAll (o.hr.strings.map .bstr)).net_eq (a := a) (r := r)
  have stored := (turns_storeAll o.changes made 0).net_eq (a := a) (r := r)
  have cleared := (turns_clearCells (proto.ret o) (left o made)).net_eq (a := a) (r := r)
  rw [map_map] at strings
  rw [count_append] at cleared
  have parts : net a r (callMethod c o proto made) =
      0 + (net a r (tellAll ((proto.ret o).owned.map (.acquire .cells))) +
        (net a r (tellAll (o.hr.strings.map (.acquire .cells ∘ .bstr))) +
          (net a r (storeAll o.changes 0 made) +
            (net a r (finishCall proto.returns (proto.ret o) c.args.length o (left o made)) +
              (net a r (clearCells (proto.ret o) (left o made)) + 0))))) := by
    simp only [callMethod, net, total_bind, total_tell, total_pure, weight]
    rfl
  rw [parts, ret_, strings, stored, cleared, left]
  by_cases cells : .cells = a
  · simp only [if_pos cells, count_nil]
    omega
  · simp only [if_neg cells]
    omega

theorem safe_callMethod_iff :
    Safe (callMethod c o proto made) ↔ c.idispP ≠ none ∧
      Safe (finishCall proto.returns (proto.ret o) c.args.length o (left o made)) := by
  have ret_ := safe_of_onCells (Turns.acquireAll (proto.ret o).owned).onCells
  have strings := safe_of_onCells (Turns.acquireAll (o.hr.strings.map .bstr)).onCells
  have stored := safe_of_onCells (turns_storeAll o.changes made 0).onCells
  have cleared := safe_of_onCells (turns_clearCells (proto.ret o) (left o made)).onCells
  rw [map_map] at strings
  rw [callMethod, Safe, all_bind, all_tell, all_bind, all_bind, all_bind, all_bind, all_bind]
  constructor
  · rintro ⟨read, -, -, -, finished, -⟩
    exact ⟨fun null => read (congrArg _ null), finished⟩
  · rintro ⟨idisp, finished⟩
    refine ⟨fun null => idisp (Event.deref.inj null), ret_, strings, stored, finished, cleared, ?_⟩
    exact all_pure _

/-- `Sound`, of a call whose prototype can be read and whose parameters can be made. -/
def SoundCall : Prop :=
  match c.prototype with
  | .error _ => True
  | .ok proto =>
    let made := (makeParams T (fun i => c.args[i]?) 0 (c.descs proto)).result
    made.2 = none → Sound c o proto made.1

theorem proper_of_turns {α : Type} {x : Traced Event α} (turns : Turns [] (fun _ => []) x) :
    Proper x := by
  constructor
  · intro a r
    rw [turns.net_eq]
    exact ite_self _
  · exact safe_of_onCells turns.onCells

/-- The parameters that were made before an error are cleared. -/
theorem proper_of_failed
    (failed : (makeParams T (fun i => c.args[i]?) 0 (c.descs proto)).result.2.isSome) :
    Proper (invokeWith T c o proto) := by
  apply proper_of_turns
  unfold invokeWith
  apply (turns_makeParams T (fun i => c.args[i]?) (c.descs proto) 0).bind_
  rw [if_pos failed]
  apply ((turns_clearCells noVariant _).from_perm (.of_eq (append_nil _).symm)).bind_
  exact .pure_ (.refl _)

theorem net_invokeWith
    (ok : (makeParams T (fun i => c.args[i]?) 0 (c.descs proto)).result = (made, none)) :
    net a r (invokeWith T c o proto) =
      (if c.logging then net a r (logParams made) else 0) +
      net a r (finishCall proto.returns (proto.ret o) c.args.length o (left o made)) +
      if .cells = a then ((o.hr.strings.map Resource.bstr).count r : Int) else 0 := by
  have make := (turns_makeParams T (fun i => c.args[i]?) (c.descs proto) 0).net_eq (a := a) (r := r)
  have call := net_callMethod (a := a) (r := r) c o proto made
  rw [net] at make call
  have made_ : ¬ (none : Option String).isSome = true := Bool.false_ne_true
  unfold invokeWith
  rw [net, total_bind, make, ok]
  dsimp only
  rw [if_neg made_]
  cases c.logging with
  | true =>
    rw [if_pos rfl, if_pos rfl, total_bind, call]
    simp only [net, count_nil]
    split <;> omega
  | false =>
    rw [if_neg Bool.false_ne_true, if_neg Bool.false_ne_true, call]
    simp only [count_nil]
    split <;> omega

theorem safe_invokeWith_iff
    (ok : (makeParams T (fun i => c.args[i]?) 0 (c.descs proto)).result = (made, none)) :
    Safe (invokeWith T c o proto) ↔
      (c.logging → Safe (logParams made)) ∧ Safe (callMethod c o proto made) := by
  have make := safe_of_onCells
    (turns_makeParams T (fun i => c.args[i]?) (c.descs proto) 0).onCells
  have made_ : ¬ (none : Option String).isSome = true := Bool.false_ne_true
  unfold invokeWith
  rw [Safe, all_bind, ok, if_neg made_]
  cases c.logging with
  | true =>
    rw [if_pos rfl, all_bind]
    exact ⟨fun safe => ⟨fun _ => safe.2.1, safe.2.2⟩, fun safe => ⟨make, safe.1 rfl, safe.2⟩⟩
  | false =>
    rw [if_neg Bool.false_ne_true]
    exact ⟨fun safe => ⟨nofun, safe.2⟩, fun safe => ⟨make, safe.2⟩⟩

theorem invokeWith_proper_iff
    (ok : (makeParams T (fun i => c.args[i]?) 0 (c.descs proto)).result = (made, none)) :
    Proper (invokeWith T c o proto) ↔ Sound c o proto made := by
  have finished := finishCall_proper_iff proto.returns (proto.ret o) o (left o made) c.args.length
  rw [Proper, safe_invokeWith_iff T c o proto made ok, safe_callMethod_iff]
  simp only [net_invokeWith T c o proto made ok]
  constructor
  · rintro ⟨nets, logged, idisp, safe⟩
    refine ⟨idisp, ?_, ?_⟩
    · intro logging
      apply (logParams_proper_iff made).mp
      refine ⟨fun r => ?_, logged logging⟩
      have := nets .log r
      rw [if_pos logging, net_log_finishCall] at this
      simpa using this
    · apply finished.mp
      refine ⟨fun r => ?_, fun r => ?_, safe⟩
      · have := nets .result r
        rw [net_logParams] at this
        simpa using this
      · have := nets .variable_ r
        rw [net_logParams] at this
        simpa using this
  · intro sound
    obtain ⟨result_, stored, safe⟩ := finished.mpr sound.delivers
    have log (logging : c.logging) := (logParams_proper_iff made).mpr (sound.log logging)
    refine ⟨?_, fun logging => (log logging).2, sound.idisp, safe⟩
    intro a r
    cases a with
    | cells =>
      have strings := net_cells_finishCall proto.returns (proto.ret o) o (left o made)
        c.args.length r
      rw [net_logParams]
      simpa using strings
    | log =>
      rw [net_log_finishCall]
      by_cases logging : c.logging
      · rw [if_pos logging, (log logging).1 r]
        rfl
      · rw [if_neg logging]
        rfl
    | result =>
      rw [result_ r, net_logParams]
      simp
    | variable_ =>
      rw [stored r, net_logParams]
      simp

/-- A call of the command balances, and follows no null pointer, where it is sound
and only there. -/
theorem invoke_proper_iff : Proper (twapiIDispatchInvokeObjCmd T c o) ↔ SoundCall T c o := by
  unfold twapiIDispatchInvokeObjCmd SoundCall
  cases c.prototype with
  | error message =>
    refine ⟨fun _ => trivial, fun _ => proper_of_turns (.pure_ (.refl _))⟩
  | ok proto =>
    dsimp only
    cases made : (makeParams T (fun i => c.args[i]?) 0 (c.descs proto)).result with
    | mk params failed =>
      cases failed with
      | none =>
        rw [invokeWith_proper_iff T c o proto params made]
        exact ⟨fun sound _ => sound, fun sound => sound rfl⟩
      | some message =>
        have proper := proper_of_failed T c o proto (by rw [made]; rfl)
        exact ⟨fun _ => nofun, fun _ => proper⟩

end Command

/-! ### An out parameter that is an interface -/

/-- A Tcl that cannot read anything. -/
def noTcl : Tcl Unit :=
  ⟨fun _ => ⟨.bstr, false⟩, fun _ _ => none, fun _ _ => false, fun _ => false, fun _ => none,
    fun _ => none⟩

/-- A method `HRESULT f([out] IDispatch **p)`. -/
def outInterface : Call Unit :=
  ⟨some 1, .ok ⟨false, .void, some [some ⟨.two .ptr (.one .dispatch), some (.token "out"), none,
    none⟩]⟩, [()], false⟩

def leaves (p : Option Nat) : Outcome :=
  ⟨.succeeded, noVariant, 0, fun _ => some (.interface .dispatch p), fun _ => true⟩

/-- Where the method leaves null it is followed; where it leaves an interface there
is one reference too many. -/
theorem out_interface_fails :
    ¬ Proper (twapiIDispatchInvokeObjCmd noTcl outInterface (leaves none)) ∧
      ¬ Proper (twapiIDispatchInvokeObjCmd noTcl outInterface (leaves (some 7))) := by
  constructor
  · rintro ⟨-, safe⟩
    exact safe (.deref none) (by decide) rfl
  · rintro ⟨balanced, -⟩
    exact absurd (balanced .variable_ (.interface 7)) (by decide)

end Twapi.Com
