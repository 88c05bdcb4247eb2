import Mathlib.Data.List.Basic
import Twapi.Parseargs.Correct
import Twapi.RecordArray.Reference

/-!
The command computes the reference.

* `keyOf_toOption`, `filtersOf_toOption`, `sliceOf_toOption` — the options.
* `collect_eq` — the loop over the records.
* `recordArrayHelper_eq_reference` — the command.
-/

namespace Twapi.RecordArray

open Lib List
open Parseargs (dictGet)

section Correct

variable {T : Tcl}

/-! ### Positions -/

theorem findIdx?_eq (name : String) (fields : List String) :
    (fields.findIdx? fun field => name = field) =
      if name ∈ fields then some (fields.idxOf name) else none := by
  induction fields with
  | nil => rfl
  | cons field fields ih =>
    rw [findIdx?_cons, idxOf_cons, ih]
    by_cases same : field = name
    · simp [same]
    · have other : ¬ name = field := fun h => same h.symm
      by_cases later : name ∈ fields
      · have differs : (field == name) = false := by
          rw [beq_eq_false_iff_ne]
          exact same
        simp [differs, other, later]
      · simp [other, later]

theorem getElem?_idxOf (name : String) {fields values : List String}
    (length_eq : values.length = fields.length) :
    values[fields.idxOf name]? = (fields.zip values).lookup name := by
  induction fields generalizing values with
  | nil =>
    rw [length_nil, length_eq_zero_iff] at length_eq
    rw [length_eq]
    rfl
  | cons field fields ih =>
    cases values with
    | nil => cases length_eq
    | cons value values =>
      rw [zip_cons_cons, lookup_cons, idxOf_cons]
      by_cases same : field = name
      · simp [same]
      · have other : (name == field) = false := by
          rw [beq_eq_false_iff_ne]
          exact fun h => same h.symm
        have differs : (field == name) = false := by
          rw [beq_eq_false_iff_ne]
          exact same
        rw [other, differs]
        simpa using ih (Nat.succ.inj length_eq)

section Positions

variable {fieldsObj : String} {fields : List String} (list : T.elements fieldsObj = .ok fields)

include list in
theorem objToEnum_toOption (name : String) :
    (objToEnum T fieldsObj name).toOption =
      if name ∈ fields then some (fields.idxOf name) else none := by
  rw [objToEnum, objGetElements, list]
  have step (f : List String → Except Error Nat) :
      (Except.mapError tclError (.ok fields) >>= f) = f fields := rfl
  rw [step, findIdx?_eq]
  by_cases mem : name ∈ fields
  · simp only [if_pos mem]
    rfl
  · simp only [if_neg mem]
    rfl

/-! ### Options -/

include list in
theorem keyOf_toOption (o : Options) :
    (keyOf T o fieldsObj).toOption =
      (keyName fields o).map (Option.map fields.idxOf) := by
  rw [keyOf, keyName]
  cases o.keyfieldObj with
  | none => rfl
  | some key =>
    by_cases keyed : o.format = .list ∨ o.format = .dict
    · simp only [if_pos keyed, toOption_bind, objToEnum_toOption list]
      by_cases mem : key ∈ fields
      · simp only [if_pos mem]
        rfl
      · simp only [if_neg mem]
        rfl
    · simp only [if_neg keyed]
      rfl

/-- What a condition is compiled to. -/
def Condition.filter (T : Tcl) (fields : List String) (c : Condition) : Filter where
  filter_pos := fields.idxOf c.name
  filter_op := c.op
  nocase := c.nocase
  negate := c.op = .ne || c.op = .nomatch
  string := c.operand
  wide := if c.op.isInt then (T.toWideInt c.operand).toOption.getD 0 else 0

theorem getIndex_toOption {α : Type} (table : List (String × α)) (what s : String) :
    (getIndex table what s).toOption = table.lookup s := by
  rw [getIndex]
  cases table.lookup s with
  | none => rfl
  | some a => rfl

theorem filterWords_toOption (elems : List String) :
    (filterWords elems).toOption.bind (fun w => operatorOf w.1 w.2.1 w.2.2.1 w.2.2.2) =
      conditionWords elems := by
  rcases elems with _ | ⟨name, _ | ⟨op, _ | ⟨operand, _ | ⟨nocase, _ | ⟨more, rest⟩⟩⟩⟩⟩
  case cons.cons.cons.cons.nil =>
    rw [filterWords, conditionWords]
    by_cases isNocase : nocase = "-nocase"
    · rw [if_pos isNocase, if_pos isNocase]
      rfl
    · rw [if_neg isNocase, if_neg isNocase]
      rfl
  all_goals rfl

theorem wideOf_toOption (T : Tcl) (fields : List String) (c : Condition) :
    (wideOf T c.op c.operand).toOption =
      if !c.op.isInt || isInteger T c.operand then some (c.filter T fields).wide else none := by
  rw [wideOf, Condition.filter, isInteger]
  cases c.op.isInt with
  | false => rfl
  | true =>
    simp only [if_pos, toOption_mapError, Bool.not_true, Bool.false_or]
    cases (T.toWideInt c.operand).toOption with
    | none => rfl
    | some n => rfl

include list in
theorem compileFilter_toOption (elem : String) :
    (compileFilter T fieldsObj elem).toOption =
      (conditionOf T fields elem).map (Condition.filter T fields) := by
  rw [compileFilter, conditionOf, toOption_bind, objGetElements, toOption_mapError]
  cases (T.elements elem).toOption with
  | none => rfl
  | some elems =>
    simp only [Option.bind_some, Option.bind_eq_bind, toOption_bind,
      ← filterWords_toOption elems]
    cases (filterWords elems).toOption with
    | none => rfl
    | some w =>
      obtain ⟨name, op, operand, nocase⟩ := w
      simp only [Option.bind_some, objToEnum_toOption list, getIndex_toOption, operatorOf]
      by_cases mem : name ∈ fields
      · cases filterOps.lookup op with
        | none => simp [mem]
        | some op =>
          have wide := wideOf_toOption T fields ⟨name, op, operand, nocase⟩
          simp only [Option.bind_some, Option.map_some, wide, Condition.fits,
            mem, decide_true, Bool.true_and]
          by_cases fits : (!op.isInt || isInteger T operand) = true
          · simp only [if_pos fits]
            rfl
          · simp only [if_neg fits]
            rfl
      · cases filterOps.lookup op with
        | none => simp [mem]
        | some op => simp [mem, Condition.fits]

def sliceOfChosen (fields : List String) (chosen : List Chosen) : Slice where
  slice_fields := chosen.map Chosen.name
  slice_fieldindices := chosen.map fun c => fields.idxOf c.field

include list in
theorem filtersOf_toOption (o : Options) :
    (filtersOf T o fieldsObj).toOption =
      (given T o.filterObj fun elems => elems.mapM (conditionOf T fields)).map fun cs =>
        (cs.getD []).map (Condition.filter T fields) := by
  rw [filtersOf]
  cases o.filterObj with
  | none => rfl
  | some filterObj =>
    simp only [given, toOption_bind, objGetElements, toOption_mapError]
    cases (T.elements filterObj).toOption with
    | none => rfl
    | some elems =>
      simp only [Option.bind_some, toOption_mapM (compileFilter_toOption list) elems]
      cases elems.mapM (conditionOf T fields) with
      | none => rfl
      | some cs => rfl

theorem chosenOf_false (elem : String) :
    chosenOf T fields false elem = if elem ∈ fields then some ⟨elem, elem⟩ else none := rfl

theorem names_of_mapM {elems : List String} {chosen : List Chosen}
    (all : elems.mapM (chosenOf T fields false) = some chosen) :
    chosen.map Chosen.name = elems := by
  have each := forall₂_of_mapM all
  clear all
  induction each with
  | nil => rfl
  | cons first _ ih =>
    rw [chosenOf_false, Option.ite_none_right_eq_some] at first
    cases first.2
    rw [map_cons, ih]

include list in
theorem sliceOf_toOption (o : Options) :
    (sliceOf T o fieldsObj).toOption =
      (given T o.sliceObj fun elems => elems.mapM (chosenOf T fields false)).map
        (Option.map (sliceOfChosen fields)) := by
  have step (name : String) : (objToEnum T fieldsObj name).toOption =
      (chosenOf T fields false name).map fun c => fields.idxOf c.field := by
    rw [objToEnum_toOption list, chosenOf_false]
    by_cases mem : name ∈ fields
    · simp only [if_pos mem]
      rfl
    · simp only [if_neg mem]
      rfl
  rw [sliceOf]
  cases o.sliceObj with
  | none => rfl
  | some sliceObj =>
    simp only [given, toOption_bind, objGetElements, toOption_mapError]
    cases (T.elements sliceObj).toOption with
    | none => rfl
    | some elems =>
      simp only [Option.bind_some, toOption_mapM step elems]
      cases chosen : elems.mapM (chosenOf T fields false) with
      | none => rfl
      | some cs =>
        have names := names_of_mapM chosen
        simp only [Option.map_some, Option.bind_some, sliceOfChosen, names]
        rfl

end Positions

/-! ### Plans -/

variable {fields : List String}

/-- What a plan names are fields, and a key is for lists and dictionaries. -/
structure Plan.Named (T : Tcl) (fields : List String) (p : Plan) : Prop where
  conditions : ∀ c ∈ p.conditions, c.fits T fields = true
  key : ∀ name, p.key = some name → name ∈ fields
  format : ∀ name, p.key = some name → p.format = .list ∨ p.format = .dict

theorem fits_of_conditionOf {elem : String} {c : Condition}
    (condition : conditionOf T fields elem = some c) : c.fits T fields = true := by
  obtain ⟨elems, _, condition⟩ := Option.bind_eq_some_iff.mp condition
  obtain ⟨c', _, condition⟩ := Option.bind_eq_some_iff.mp condition
  rw [Option.ite_none_right_eq_some] at condition
  obtain ⟨fits, same⟩ := condition
  cases same
  exact fits

theorem fits_of_given {option : Option String} {cs : Option (List Condition)}
    (conditions : (given T option fun elems => elems.mapM (conditionOf T fields)) = some cs) :
    ∀ c ∈ cs.getD [], c.fits T fields = true := by
  intro c mem
  rw [given.eq_def] at conditions
  cases option with
  | none =>
    cases conditions
    cases mem
  | some words =>
    obtain ⟨cs', all, same⟩ := Option.map_eq_some_iff.mp conditions
    cases same
    obtain ⟨elems, _, all⟩ := Option.bind_eq_some_iff.mp all
    obtain ⟨elem, _, condition⟩ := exists_of_mem_mapM all mem
    exact fits_of_conditionOf condition

variable {o : Options} {p : Plan} {rows : List Row}

theorem keyName_some {key : Option String} (named : keyName fields o = some key) :
    ∀ name, key = some name → name ∈ fields ∧ (o.format = .list ∨ o.format = .dict) := by
  intro name isName
  rw [isName, keyName] at named
  cases given : o.keyfieldObj with
  | none =>
    rw [given] at named
    cases named
  | some key =>
    simp only [given] at named
    by_cases keyed : o.format = .list ∨ o.format = .dict
    · rw [if_pos keyed, Option.ite_none_right_eq_some] at named
      obtain ⟨mem, same⟩ := named
      cases same
      exact ⟨mem, keyed⟩
    · rw [if_neg keyed] at named
      cases named

theorem planOf_named {renames : Bool} (planned : planOf T fields renames o = some p) :
    p.Named T fields ∧ p.format = o.format ∧ p.first = o.first := by
  obtain ⟨key, named, planned⟩ := Option.bind_eq_some_iff.mp planned
  obtain ⟨cs, conditions, planned⟩ := Option.bind_eq_some_iff.mp planned
  obtain ⟨slice, _, same⟩ := Option.bind_eq_some_iff.mp planned
  cases same
  have keyed := keyName_some named
  exact ⟨⟨fits_of_given conditions, fun name isName => (keyed name isName).1,
    fun name isName => (keyed name isName).2⟩, rfl, rfl⟩

/-! ### Records -/

section Records

variable {r : Row} (isRow : T.elements r.word = .ok r.values)
  (length_eq : r.values.length = fields.length)

include length_eq in
theorem cell_of_mem {name : String} (mem : name ∈ fields) :
    ∃ value, r.cell fields name = some value := by
  have position : fields.idxOf name < r.values.length := by
    rw [length_eq]
    exact idxOf_lt_length_of_mem mem
  refine ⟨r.values[fields.idxOf name], ?_⟩
  rw [Row.cell, ← getElem?_idxOf name length_eq]
  exact getElem?_eq_getElem position

include isRow length_eq in
theorem objListIndex_eq {name value : String} (cell : r.cell fields name = some value) :
    objListIndex T r.word (fields.idxOf name) = .ok value := by
  rw [Row.cell, ← getElem?_idxOf name length_eq] at cell
  rw [objListIndex, objGetElements, isRow, mapError_ok, ok_bind, cell]

variable {c : Condition}

theorem matches_integers {relates : Int → Int → Bool} (isInt : c.op.isInt = true)
    (fits : c.fits T fields = true) (value : String)
    (compared : ∀ m n, T.toWideInt c.operand = .ok n →
      (c.filter T fields).cmpInt m = relates m n) :
    (c.filter T fields).matches T value = c.compares T relates value := by
  rw [Condition.fits, isInt, Bool.not_true, Bool.false_or, Bool.and_eq_true, isInteger] at fits
  have isInt' : (c.filter T fields).filter_op.isInt = true := isInt
  rw [Filter.matches, if_pos isInt', Condition.compares]
  cases operand : T.toWideInt c.operand with
  | error e =>
    rw [operand] at fits
    cases fits.2
  | ok n =>
    cases T.toWideInt value with
    | error e => rfl
    | ok m => exact compared m n operand

theorem matches_text {agrees negate : Bool} (value : String) (isText : c.op.isInt = false)
    (agreed : decide ((c.filter T fields).cmpfn T value c.operand = 0) = agrees)
    (negated : (c.filter T fields).negate = negate) :
    (c.filter T fields).matches T value = (agrees != negate) := by
  have isText' : ¬ (c.filter T fields).filter_op.isInt = true := Bool.eq_false_iff.mp isText
  rw [Filter.matches, if_neg isText', negated]
  have operand : (c.filter T fields).string = c.operand := rfl
  rw [operand, agreed, bne]

theorem cmpfn_match (glob : c.op = .match ∨ c.op = .nomatch) (value : String) :
    decide ((c.filter T fields).cmpfn T value c.operand = 0) =
      T.stringCaseMatch value c.operand c.nocase := by
  obtain ⟨name, op, operand, nocase⟩ := c
  have compared : (Condition.filter T fields ⟨name, op, operand, nocase⟩).cmpfn T value operand =
      if T.stringCaseMatch value operand nocase then 0 else 1 := by
    rcases glob with same | same <;>
    · cases same
      rfl
  rw [compared]
  cases T.stringCaseMatch value operand nocase <;> rfl

theorem cmpfn_equal (equality : c.op = .eq ∨ c.op = .ne) (value : String) :
    decide ((c.filter T fields).cmpfn T value c.operand = 0) = c.equal T value := by
  obtain ⟨name, op, operand, nocase⟩ := c
  have compared : (Condition.filter T fields ⟨name, op, operand, nocase⟩).cmpfn T value operand =
      if nocase then T.lstrcmpiA value operand else T.lstrcmpA value operand := by
    rcases equality with same | same <;>
    · cases same
      rfl
  rw [compared, Condition.equal]
  cases nocase <;> rfl

theorem matches_filter (fits : c.fits T fields = true) (value : String) :
    (c.filter T fields).matches T value = c.holds T value := by
  obtain ⟨name, op, operand, nocase⟩ := c
  cases op
  case eq =>
    exact (matches_text value rfl (cmpfn_equal (.inl rfl) value) rfl).trans (Bool.bne_false _)
  case ne =>
    exact (matches_text value rfl (cmpfn_equal (.inr rfl) value) rfl).trans (Bool.bne_true _)
  case «match» =>
    exact (matches_text value rfl (cmpfn_match (.inl rfl) value) rfl).trans (Bool.bne_false _)
  case «nomatch» =>
    exact (matches_text value rfl (cmpfn_match (.inr rfl) value) rfl).trans (Bool.bne_true _)
  all_goals
    refine matches_integers rfl fits value fun m n isInt => ?_
    have wide : ((T.toWideInt operand).toOption).getD 0 = n := by rw [isInt]; rfl
    simp [Filter.cmpInt, Condition.filter, FilterOp.isInt, wide]

include isRow length_eq in
theorem matchesAll_eq {cs : List Condition} (fit : ∀ c ∈ cs, c.fits T fields = true) :
    matchesAll T r.word (cs.map (Condition.filter T fields)) =
      .ok (cs.all fun c => (r.cell fields c.name).any (c.holds T)) := by
  induction cs with
  | nil => rfl
  | cons c cs ih =>
    have fits := fit c mem_cons_self
    have later := ih fun d mem => fit d (mem_cons_of_mem c mem)
    have mem : c.name ∈ fields := by
      rw [Condition.fits, Bool.and_eq_true, decide_eq_true_iff] at fits
      exact fits.1
    obtain ⟨value, cell⟩ := cell_of_mem length_eq mem
    have indexed : objListIndex T r.word (c.filter T fields).filter_pos = .ok value :=
      objListIndex_eq isRow length_eq cell
    rw [map_cons, matchesAll, indexed, ok_bind, matches_filter fits, later,
      all_cons, cell, Option.any_some]
    cases c.holds T value <;> rfl

include isRow length_eq in
theorem keyWords_eq {p : Plan} (named : p.Named T fields) :
    keyWords T (p.key.map fields.idxOf) r.word = .ok (p.keyed fields r) := by
  rw [Plan.keyed]
  cases key : p.key with
  | none => rfl
  | some name =>
    obtain ⟨value, cell⟩ := cell_of_mem length_eq (named.key name key)
    rw [Option.map_some, keyWords, objListIndex_eq isRow length_eq cell, ok_bind]
    change Except.ok [value] = .ok [(r.cell fields name).getD ""]
    rw [cell, Option.getD_some]

theorem twineObjv_eq (first second : List String) :
    twineObjv first second = (first.zip second).flatMap fun x => [x.1, x.2] := by
  induction first generalizing second with
  | nil => rfl
  | cons a first ih =>
    cases second with
    | nil => rfl
    | cons b second =>
      rw [twineObjv, ih, zip_cons_cons, flatMap_cons]
      rfl

/-- Lists of one length are twined without filling. -/
theorem twine_eq {first second : List String} (same : second.length = first.length) :
    twine first second = (first.zip second).flatMap fun x => [x.1, x.2] := by
  rw [twine, same, Nat.min_self, drop_length, ← same, drop_length, twineObjv_eq]
  simp

include length_eq in
theorem slice_values_eq (chosen : List Chosen) :
    ((sliceOfChosen fields chosen).slice_fieldindices.map fun i => r.values.getD i "") =
      chosen.map fun c => (r.cell fields c.field).getD "" := by
  rw [sliceOfChosen, map_map]
  refine map_congr_left fun c _ => ?_
  rw [Row.cell, ← getElem?_idxOf c.field length_eq]
  exact getD_eq_getElem?_getD

include isRow length_eq in
theorem outputOf_eq (p : Plan) :
    outputOf T p.format fields (p.slice.map (sliceOfChosen fields)) r.word =
      .ok (p.item T fields r) := by
  have values : objGetElements T r.word = .ok r.values := by
    rw [objGetElements, isRow, mapError_ok]
  rw [Plan.item, Plan.project]
  cases p.slice with
  | none =>
    by_cases dict : p.format = .dict
    · rw [dict, Option.map_none, outputOf, if_pos rfl, values, ok_bind, twine_eq length_eq]
      rfl
    · rw [Option.map_none, outputOf, if_neg dict]
      cases format : p.format
      case dict => exact absurd format dict
      all_goals rfl
  | some chosen =>
    have enough : ¬ r.values.length < fields.length := by omega
    rw [Option.map_some, outputOf, values, ok_bind, if_neg enough, slice_values_eq length_eq]
    by_cases dict : p.format = .dict
    · rw [if_pos dict, dict, twineObjv_eq, sliceOfChosen, zip_map']
    · rw [if_neg dict, map_map]
      cases format : p.format
      case dict => exact absurd format dict
      all_goals rfl

end Records

/-! ### The loop -/

/-- What is put out for a record. -/
def Plan.put (T : Tcl) (fields : List String) (p : Plan) (r : Row) : List String :=
  p.keyed fields r ++ [p.item T fields r]

theorem kept_cons (p : Plan) (r : Row) (rows : List Row) :
    p.kept T fields (r :: rows) =
      if p.satisfied T fields r then
        if p.first then [r] else r :: p.kept T fields rows
      else p.kept T fields rows := by
  simp only [Plan.kept, filter_cons]
  cases p.satisfied T fields r with
  | false => rfl
  | true =>
    cases p.first with
    | false => rfl
    | true => simp

theorem collect_eq (named : p.Named T fields) (isRow : ∀ r ∈ rows, T.elements r.word = .ok r.values)
    (length_eq : ∀ r ∈ rows, r.values.length = fields.length) :
    collect T p.format fields (p.conditions.map (Condition.filter T fields))
        (p.slice.map (sliceOfChosen fields)) (p.key.map fields.idxOf) p.first
        (rows.map Row.word) =
      .ok ((p.kept T fields rows).flatMap (p.put T fields)) := by
  induction rows with
  | nil =>
    rw [Plan.kept]
    cases p.first <;> rfl
  | cons r rows ih =>
    have later := ih (fun s mem => isRow s (mem_cons_of_mem r mem))
      fun s mem => length_eq s (mem_cons_of_mem r mem)
    have first := isRow r mem_cons_self
    have long := length_eq r mem_cons_self
    rw [map_cons, collect, matchesAll_eq first long named.conditions, ok_bind, kept_cons]
    change (if p.satisfied T fields r = true then _ else _ : Except Error (List String)) = _
    by_cases satisfied : p.satisfied T fields r = true
    · rw [if_pos satisfied, if_pos satisfied, keyWords_eq first long named, ok_bind,
        outputOf_eq first long, ok_bind]
      by_cases stop : p.first = true
      · rw [if_pos stop, if_pos stop, flatMap_singleton, Plan.put]
      · rw [if_neg stop, if_neg stop, later, ok_bind, flatMap_cons, Plan.put,
          append_assoc]
        rfl
    · rw [if_neg satisfied, if_neg satisfied, later]

/-! ### The command -/

theorem mem_kept {r : Row} (mem : r ∈ p.kept T fields rows) :
    r ∈ rows := by
  rw [Plan.kept] at mem
  by_cases first : p.first = true
  · rw [if_pos first] at mem
    exact (mem_filter.mp (mem_of_mem_take mem)).1
  · rw [if_neg first] at mem
    exact (mem_filter.mp mem).1

theorem elements_item {r : Row} (flat : p.format = .flat) (isRow : T.elements r.word = .ok r.values)
    (length_eq : r.values.length = fields.length) :
    T.elements (p.item T fields r) = .ok ((p.project fields r).map Prod.snd) := by
  rw [Plan.item, flat]
  cases slice : p.slice with
  | none =>
    rw [Plan.project, slice]
    change T.elements r.word = .ok ((fields.zip r.values).map Prod.snd)
    rw [isRow, map_snd_zip (by omega)]
  | some chosen => exact T.elements_ofList _

theorem answer_eq (named : p.Named T fields) (lists : p.format ≠ .recordarray)
    (isRow : ∀ r ∈ rows, T.elements r.word = .ok r.values)
    (length_eq : ∀ r ∈ rows, r.values.length = fields.length) (fieldsObj : String) :
    resultOf T p.format fieldsObj (p.slice.map (sliceOfChosen fields))
        ((p.kept T fields rows).flatMap (p.put T fields)) =
      p.answer T fields rows := by
  rw [Plan.answer, Plan.words]
  cases format : p.format with
  | recordarray => exact absurd format lists
  | list => rfl
  | dict => rfl
  | flat =>
    have noKey : p.key = none := by
      cases key : p.key with
      | none => rfl
      | some name =>
        have keyed := named.format name key
        rw [format] at keyed
        rcases keyed with h | h <;> cases h
    have each : ∀ r ∈ p.kept T fields rows,
        (p.put T fields r).flatMap (fun out => ((T.elements out).toOption).getD []) =
          (p.project fields r).map Prod.snd := by
      intro r mem
      have kept := mem_kept mem
      rw [Plan.put, Plan.keyed, noKey]
      change ([p.item T fields r].flatMap fun out => _) = _
      rw [flatMap_singleton, elements_item format (isRow r kept) (length_eq r kept)]
      rfl
    rw [resultOf, appendLists, flatMap_assoc]
    rw [flatMap_congr each]

theorem queryRecords_eq (ra : Uniform T) (planned : planOf T ra.fields false o = some p)
    (lists : o.format ≠ .recordarray) :
    queryRecords T o ra.fieldsWord ra.recordsWord (p.key.map ra.fields.idxOf)
        (p.conditions.map (Condition.filter T ra.fields))
        (p.slice.map (sliceOfChosen ra.fields)) =
      .ok (p.answer T ra.fields ra.rows) := by
  obtain ⟨named, sameFormat, sameFirst⟩ := planOf_named planned
  have recs : objGetElements T ra.recordsWord = .ok (ra.rows.map Row.word) := by
    rw [objGetElements, ra.isRecords, mapError_ok]
  have fields : objGetElements T ra.fieldsWord = .ok ra.fields := by
    rw [objGetElements, ra.isFields, mapError_ok]
  have answered := answer_eq named (by rwa [sameFormat]) ra.isRow ra.length_eq ra.fieldsWord
  rw [queryRecords, recs, ok_bind]
  by_cases empty : ra.rows.map Row.word = []
  · rw [if_pos empty, map_eq_nil_iff.mp empty, Plan.answer, Plan.words, Plan.kept]
    cases p.first <;> cases p.format <;> exact congrArg Except.ok T.ofList_nil.symm
  · rw [if_neg empty, fields, ok_bind, ← sameFormat, ← sameFirst,
      collect_eq named ra.isRow ra.length_eq, ok_bind, answered]
    rfl

/-- The options are compiled to the plan, whatever is then done with it. -/
theorem query_toOption (ra : Uniform T) {result : Plan → String}
    (queried : ∀ p, planOf T ra.fields false o = some p →
      queryRecords T o ra.fieldsWord ra.recordsWord (p.key.map ra.fields.idxOf)
          (p.conditions.map (Condition.filter T ra.fields))
          (p.slice.map (sliceOfChosen ra.fields)) = .ok (result p)) :
    (query T o ra.fieldsWord ra.recordsWord).toOption =
      (planOf T ra.fields false o).map result := by
  rw [query, toOption_bind, keyOf_toOption ra.isFields]
  cases named : keyName ra.fields o with
  | none =>
    rw [planOf, named]
    rfl
  | some key =>
    simp only [Option.map_some, Option.bind_some, toOption_bind,
      filtersOf_toOption ra.isFields, sliceOf_toOption ra.isFields]
    cases conditions : given T o.filterObj fun elems => elems.mapM (conditionOf T ra.fields) with
    | none =>
      rw [planOf, named, conditions]
      rfl
    | some cs =>
      cases sliced : given T o.sliceObj fun elems =>
          elems.mapM (chosenOf T ra.fields false) with
      | none =>
        rw [planOf, named, conditions, sliced]
        rfl
      | some slice =>
        have planned : planOf T ra.fields false o =
            some ⟨cs.getD [], slice, key, o.first, o.format⟩ := by
          rw [planOf, named, conditions, sliced]
          rfl
        have answered := queried _ planned
        simp only at answered
        simp only [Option.map_some, Option.bind_some, answered, planned]
        rfl

theorem query_eq (ra : Uniform T) (lists : o.format ≠ .recordarray) :
    (query T o ra.fieldsWord ra.recordsWord).toOption =
      (planOf T ra.fields false o).map fun p => p.answer T ra.fields ra.rows :=
  query_toOption ra fun _ planned => queryRecords_eq ra planned lists

/-! ### Keys -/

theorem dictGet_flatMap {key : String} {item : Row → String} (k : String) (rows : List Row)
    (cells : ∀ r ∈ rows, ∃ value, r.cell fields key = some value) :
    dictGet k (rows.flatMap fun r => [(r.cell fields key).getD ""] ++ [item r]) =
      (rows.reverse.find? fun r => r.cell fields key = some k).map item := by
  induction rows with
  | nil => rfl
  | cons r rows ih =>
    have later := ih fun s mem => cells s (mem_cons_of_mem r mem)
    obtain ⟨value, cell⟩ := cells r mem_cons_self
    have front : ((r :: rows).flatMap fun r => [(r.cell fields key).getD ""] ++ [item r]) =
        value :: item r :: rows.flatMap fun r => [(r.cell fields key).getD ""] ++ [item r] := by
      rw [flatMap_cons, cell]
      rfl
    rw [front, dictGet, later, reverse_cons, find?_append]
    cases rows.reverse.find? fun r => decide (r.cell fields key = some k) with
    | some last => rfl
    | none =>
      by_cases same : value = k
      · simp [same, cell]
      · simp [same, cell]

theorem dictGet_words (ra : Uniform T) {renames : Bool} {key : String}
    (planned : planOf T ra.fields renames o = some p) (keyed : p.key = some key) (k : String) :
    dictGet k (p.words T ra.fields ra.rows) = p.lastUnder T ra.fields ra.rows key k := by
  have named := (planOf_named planned).1
  have cells : ∀ r ∈ p.kept T ra.fields ra.rows, ∃ value, r.cell ra.fields key = some value :=
    fun r mem => cell_of_mem (ra.length_eq r (mem_kept mem)) (named.key key keyed)
  have put (r : Row) : p.keyed ra.fields r = [(r.cell ra.fields key).getD ""] := by
    rw [Plan.keyed, keyed]
  rw [Plan.words, Plan.lastUnder, ← dictGet_flatMap k _ cells]
  rcases named.format key keyed with format | format <;>
  · rw [format]
    simp only [put]

/-- With the names of the fields as they are. -/
theorem recordArrayHelper_eq_reference (ra : Uniform T) (words : List String) (o : Options)
    (parsed : parseOptions words .none = .ok o) (lists : o.format ≠ .recordarray) :
    Computes T false ra words o where
  result := by
    have options : words ≠ [] := by
      rintro rfl
      cases parsed
      exact lists rfl
    rw [recordArrayHelper, parsed, ok_bind, objGetElements, ra.isPair, mapError_ok, ok_bind]
    change (if words = [] then _ else _ : Except Error String).toOption = _
    rw [if_neg options, query_eq ra lists]
  last p key planned keyed k := dictGet_words ra planned keyed k

end Correct

/-! ### A record array -/

/-- A Tcl with lists like this, for texts of one case and patterns without wildcards. -/
def plainTcl : Tcl where
  elements := Parseargs.plainTcl.elements
  ofList := Parseargs.plainTcl.ofList
  toWideInt s := match s.toInt? with
    | some n => .ok n
    | none => .error ("expected integer but got \"" ++ s ++ "\"")
  lstrcmpA s t := if s = t then 0 else 1
  lstrcmpiA s t := if s = t then 0 else 1
  stringCaseMatch s pat _ := s = pat
  elements_ofList := Parseargs.plainTcl.elements_ofList
  ofList_nil := rfl

def rowOf (values : List String) : Row := ⟨plainTcl.ofList values, values⟩

/-- Two records that differ in the first field. -/
def twoRecords : Uniform plainTcl where
  word := plainTcl.ofList [plainTcl.ofList ["a", "b"],
    plainTcl.ofList [plainTcl.ofList ["1", "2"], plainTcl.ofList ["3", "2"]]]
  fieldsWord := plainTcl.ofList ["a", "b"]
  recordsWord := plainTcl.ofList [plainTcl.ofList ["1", "2"], plainTcl.ofList ["3", "2"]]
  fields := ["a", "b"]
  rows := [rowOf ["1", "2"], rowOf ["3", "2"]]
  isPair := plainTcl.elements_ofList _
  isFields := plainTcl.elements_ofList _
  isRecords := plainTcl.elements_ofList _
  isRow r mem := by
    rcases List.mem_pair.mp mem with same | same <;>
    · rw [same]
      exact plainTcl.elements_ofList _
  length_eq r mem := by
    rcases List.mem_pair.mp mem with same | same <;>
    · rw [same]
      rfl

theorem recordArrayHelper_eq_reference_twoRecords :
    Computes plainTcl false twoRecords
      ["-format", "dict", "-key", "b", "-slice", plainTcl.ofList ["a"]]
      ⟨.dict, some (plainTcl.ofList ["a"]), none, some "b", false⟩ :=
  recordArrayHelper_eq_reference twoRecords _ _ rfl (by decide)

/-- A slice that gives the first field another name. -/
def renamed : String := plainTcl.ofList [plainTcl.ofList ["a", "x"]]

/-- The fields of a slice cannot be given other names. -/
theorem slice_not_renamed : ¬ ∀ (ra : Uniform plainTcl) (words : List String) (o : Options),
    parseOptions words .none = .ok o → o.format ≠ .recordarray →
    Computes plainTcl true ra words o := by
  intro computes
  have claimed := (computes twoRecords ["-format", "list", "-slice", renamed]
    ⟨.list, some renamed, none, none, false⟩ rfl (by decide)).result
  have refused : (recordArrayHelper plainTcl ["-format", "list", "-slice", renamed]
      twoRecords.word).toOption = none := by
    decide
  have planned : (planOf plainTcl twoRecords.fields true
      ⟨.list, some renamed, none, none, false⟩).isSome = true := by
    decide
  rw [refused] at claimed
  rw [Option.map_eq_none_iff.mp claimed.symm] at planned
  cases planned

end Twapi.RecordArray
