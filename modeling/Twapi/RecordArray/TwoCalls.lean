import Twapi.RecordArray.Correct

/-!
Two calls of `Twapi_RecordArrayHelperObjCmd` against one.

* `Plan.outcome` — what a call gives, in every format.
* `twoCalls` — a call with a filter, and another one on its result.
* `allConditions` — the conditions of two filters as those of one.
* `twoCalls_iff` — when two calls give what one call does.
-/

namespace Twapi.RecordArray

open Lib Option

section TwoCalls

variable {T : Tcl}

/-! ### One call -/

/-- Without records there is no record array, only an empty result. -/
def Plan.outcome (T : Tcl) (ra : Uniform T) (p : Plan) : String :=
  if ra.rows = [] then ""
  else if p.format = .recordarray then
    T.ofList [(p.slice.map fun chosen => T.ofList (chosen.map Chosen.name)).getD ra.fieldsWord,
      p.answer T ra.fields ra.rows]
  else p.answer T ra.fields ra.rows

theorem answer_nil (p : Plan) (fields : List String) : p.answer T fields [] = "" := by
  rw [Plan.answer, Plan.words, Plan.kept]
  cases p.first <;> cases p.format <;> exact T.ofList_nil

variable {o : Options}

theorem queryRecords_outcome (ra : Uniform T) {p : Plan}
    (planned : planOf T ra.fields false o = some p) :
    queryRecords T o ra.fieldsWord ra.recordsWord (p.key.map ra.fields.idxOf)
        (p.conditions.map (Condition.filter T ra.fields))
        (p.slice.map (sliceOfChosen ra.fields)) =
      .ok (p.outcome T ra) := by
  obtain ⟨named, sameFormat, sameFirst⟩ := planOf_named planned
  by_cases format : p.format = .recordarray
  · have recs : objGetElements T ra.recordsWord = .ok (ra.rows.map Row.word) := by
      rw [objGetElements, ra.isRecords, mapError_ok]
    have fields : objGetElements T ra.fieldsWord = .ok ra.fields := by
      rw [objGetElements, ra.isFields, mapError_ok]
    have answer : p.answer T ra.fields ra.rows =
        T.ofList ((p.kept T ra.fields ra.rows).flatMap (p.put T ra.fields)) := by
      rw [Plan.answer, Plan.words, format]
      rfl
    rw [queryRecords, recs, ok_bind, Plan.outcome]
    by_cases empty : ra.rows = []
    · rw [if_pos empty, if_pos (by rw [empty]; rfl)]
      rfl
    · rw [if_neg empty, if_neg (mt List.map_eq_nil_iff.mp empty), if_pos format, fields, ok_bind,
        ← sameFormat, ← sameFirst, collect_eq named ra.isRow ra.length_eq, ok_bind, answer, format]
      cases p.slice <;> rfl
  · rw [queryRecords_eq ra planned (sameFormat ▸ format), Plan.outcome]
    by_cases empty : ra.rows = []
    · rw [if_pos empty, empty, answer_nil]
    · rw [if_neg empty, if_neg format]

theorem recordArrayHelper_outcome (ra : Uniform T) {words : List String}
    (parsed : parseOptions words .none = .ok o) (options : words ≠ []) :
    (recordArrayHelper T words ra.word).toOption =
      (planOf T ra.fields false o).map (Plan.outcome T ra) := by
  rw [recordArrayHelper, parsed, ok_bind, objGetElements, ra.isPair, mapError_ok, ok_bind]
  change (if words = [] then _ else _ : Except Error String).toOption = _
  rw [if_neg options, query_toOption ra fun _ planned => queryRecords_outcome ra planned]

/-- The empty result has no records to be looked at, and no fields to be known. -/
theorem recordArrayHelper_empty {words : List String} (parsed : parseOptions words .none = .ok o) :
    recordArrayHelper T words "" = .ok "" := by
  have empty : T.elements "" = .ok [] := T.ofList_nil ▸ T.elements_ofList []
  rw [recordArrayHelper, parsed, ok_bind, objGetElements, empty, mapError_ok, ok_bind]
  rfl

/-! ### Two calls -/

/-- The second call is on the result of the first. -/
def twoCalls (T : Tcl) (words₁ words₂ : List String) (ra : String) : Except Error String := do
  let result ← recordArrayHelper T words₁ ra
  recordArrayHelper T words₂ result

/-- The conditions of both filters. What is not a list stays, and is an error as it was. -/
def allConditions (T : Tcl) (F : String) : (filterObj : Option String) → String
  | none => F
  | some G =>
    match T.elements F, T.elements G with
    | .ok fs, .ok gs => T.ofList (fs ++ gs)
    | .error _, _ => F
    | _, .error _ => G

/-- The options of a call with a filter alone. -/
def filterOnly (F : String) : Options := { Options.none with filterObj := some F }

/-- The records that satisfy all conditions of a filter, if it is one. -/
def selected (T : Tcl) (ra : Uniform T) (F : String) : Option (List Row) :=
  (planOf T ra.fields false (filterOnly F)).map fun p => p.kept T ra.fields ra.rows

/-- If the filter leaves no record: of a record array without records the other options are
without errors, and another one is not to be put out as a record array, unless there is an error
in the options. -/
def Agree (T : Tcl) (ra : Uniform T) (F : String) (o : Options) : Prop :=
  selected T ra F = some [] →
    if ra.rows = [] then (planOf T ra.fields false o).isSome
    else (planOf T ra.fields false o).isSome → o.format ≠ .recordarray

/-- The record array with some of its records. -/
def Uniform.filtered (ra : Uniform T) (keep : Row → Bool) : Uniform T where
  word := T.ofList [ra.fieldsWord, T.ofList ((ra.rows.filter keep).map Row.word)]
  fieldsWord := ra.fieldsWord
  recordsWord := T.ofList ((ra.rows.filter keep).map Row.word)
  fields := ra.fields
  rows := ra.rows.filter keep
  isPair := T.elements_ofList _
  isFields := ra.isFields
  isRecords := T.elements_ofList _
  isRow r mem := ra.isRow r (List.mem_of_mem_filter mem)
  length_eq r mem := ra.length_eq r (List.mem_of_mem_filter mem)

/-- The conditions of a filter. -/
def conditionsOf (T : Tcl) (fields : List String) (F : String) : Option (List Condition) :=
  (T.elements F).toOption.bind fun elems => elems.mapM (conditionOf T fields)

/-- The plan of a call with a filter alone. -/
def filterPlan (cs : List Condition) : Plan := ⟨cs, none, none, false, .recordarray⟩

theorem planOf_filterOnly (fields : List String) (F : String) :
    planOf T fields false (filterOnly F) = (conditionsOf T fields F).map filterPlan := by
  cases conditions : conditionsOf T fields F with
  | none =>
    have given : given T (some F) (fun elems => elems.mapM (conditionOf T fields)) = none :=
      congrArg (Option.map some) conditions
    rw [planOf, filterOnly, given]
    rfl
  | some cs =>
    have given : given T (some F) (fun elems => elems.mapM (conditionOf T fields)) =
        some (some cs) := congrArg (Option.map some) conditions
    rw [planOf, filterOnly, given]
    rfl

variable {fields : List String}

/-- The first conditions are added to the plan of the other options. -/
theorem planOf_allConditions {F : String} (o : Options) {cs : List Condition}
    (conditions : conditionsOf T fields F = some cs) :
    planOf T fields false { o with filterObj := some (allConditions T F o.filterObj) } =
      (planOf T fields false o).map fun p => { p with conditions := cs ++ p.conditions } := by
  have both : given T (some (allConditions T F o.filterObj))
      (fun elems => elems.mapM (conditionOf T fields)) =
        (given T o.filterObj fun elems => elems.mapM (conditionOf T fields)).map fun more =>
          some (cs ++ more.getD []) := by
    cases o.filterObj with
    | none =>
      have first : given T (some F) (fun elems => elems.mapM (conditionOf T fields)) =
          some (some cs) := congrArg (Option.map some) conditions
      rw [allConditions, first]
      simp [given]
    | some G =>
      cases listF : T.elements F with
      | error e =>
        rw [conditionsOf, listF] at conditions
        cases conditions
      | ok fs =>
        cases listG : T.elements G with
        | error e => simp [allConditions, listF, listG, given, Except.toOption]
        | ok gs =>
          have all : fs.mapM (conditionOf T fields) = some cs := by
            rw [conditionsOf, listF] at conditions
            exact conditions
          simp only [allConditions, listF, listG, given, T.elements_ofList,
            Except.toOption, bind_some, List.mapM_append, all]
          cases gs.mapM (conditionOf T fields) <;> rfl
  have key : keyName fields { o with filterObj := some (allConditions T F o.filterObj) } =
      keyName fields o := rfl
  rw [planOf, planOf, key, both]
  cases keyName fields o with
  | none => rfl
  | some key =>
    cases given T o.filterObj fun elems => elems.mapM (conditionOf T fields) with
    | none => rfl
    | some more =>
      cases given T o.sliceObj fun elems => elems.mapM (chosenOf T fields false) with
      | none => simp
      | some chosen => simp

/-- An error in the first filter is one in both together. -/
theorem planOf_allConditions_none {F : String} (o : Options)
    (conditions : conditionsOf T fields F = none) :
    planOf T fields false { o with filterObj := some (allConditions T F o.filterObj) } = none := by
  have both : given T (some (allConditions T F o.filterObj))
      (fun elems => elems.mapM (conditionOf T fields)) = none := by
    cases o.filterObj with
    | none => exact congrArg (Option.map some) conditions
    | some G =>
      cases listF : T.elements F with
      | error e => simp [allConditions, listF, given, Except.toOption]
      | ok fs =>
        cases listG : T.elements G with
        | error e => simp [allConditions, listF, listG, given, Except.toOption]
        | ok gs =>
          have all : fs.mapM (conditionOf T fields) = none := by
            rw [conditionsOf, listF] at conditions
            exact conditions
          simp only [allConditions, listF, listG, given, T.elements_ofList,
            Except.toOption, bind_some, List.mapM_append, all]
          rfl
  rw [planOf, both]
  cases keyName fields { o with filterObj := some (allConditions T F o.filterObj) } <;> rfl

/-- What is put out for the records that satisfy the first conditions. -/
theorem words_conditions (fields : List String) (p : Plan) (cs : List Condition)
    (rows : List Row) : ({ p with conditions := cs ++ p.conditions } : Plan).words T fields rows =
      p.words T fields (rows.filter ((filterPlan cs).satisfied T fields)) := by
  have kept : ({ p with conditions := cs ++ p.conditions } : Plan).kept T fields rows =
      p.kept T fields (rows.filter ((filterPlan cs).satisfied T fields)) := by
    have both : ({ p with conditions := cs ++ p.conditions } : Plan).satisfied T fields =
        fun r => p.satisfied T fields r && (filterPlan cs).satisfied T fields r := by
      funext r
      rw [Plan.satisfied, Plan.satisfied, Plan.satisfied, List.all_append, Bool.and_comm]
      rfl
    rw [Plan.kept, Plan.kept, List.filter_filter, both]
  rw [Plan.words, Plan.words, kept]
  rfl

theorem ofList_pair_ne (a b : String) : T.ofList [a, b] ≠ "" := by
  intro empty
  have pair := T.elements_ofList [a, b]
  rw [empty, ← T.ofList_nil, T.elements_ofList] at pair
  cases pair

/-- One call on the records that satisfy the first conditions gives what both conditions together
do, unless there are none such. -/
theorem outcome_filtered (ra : Uniform T) (p : Plan) (cs : List Condition)
    (some : ra.rows.filter ((filterPlan cs).satisfied T ra.fields) ≠ []) :
    ({ p with conditions := cs ++ p.conditions } : Plan).outcome T ra =
      p.outcome T (ra.filtered ((filterPlan cs).satisfied T ra.fields)) := by
  have nonempty : ra.rows ≠ [] := fun empty => some (by rw [empty]; rfl)
  rw [Plan.outcome, Plan.outcome, if_neg nonempty,
    if_neg (show (ra.filtered _).rows ≠ [] from some), Plan.answer, words_conditions]
  rfl

/-- What the first call gives. -/
theorem outcome_filterPlan (ra : Uniform T) (cs : List Condition) :
    (filterPlan cs).outcome T ra =
      if ra.rows = [] then ""
      else (ra.filtered ((filterPlan cs).satisfied T ra.fields)).word := by
  have words : (filterPlan cs).words T ra.fields ra.rows =
      (ra.rows.filter ((filterPlan cs).satisfied T ra.fields)).map Row.word := by
    rw [List.map_eq_flatMap]
    rfl
  have format : (filterPlan cs).format = .recordarray := rfl
  rw [Plan.outcome]
  by_cases empty : ra.rows = []
  · rw [if_pos empty, if_pos empty]
  · rw [if_neg empty, if_neg empty, if_pos format, Plan.answer, words]
    rfl

/-! ### Two calls and one -/

variable (ra : Uniform T) {F : String} {o₂ : Options} {words₁ words₂ words : List String}

section Compared

variable (first : parseOptions words₁ .none = .ok (filterOnly F))
  (second : parseOptions words₂ .none = .ok o₂) (options : words₂ ≠ [])
  (one : parseOptions words .none =
    .ok { o₂ with filterObj := some (allConditions T F o₂.filterObj) })

include first second options in
/-- The second call is on what the first one found, unless there was nothing to look at. -/
theorem twoCalls_toOption : (twoCalls T words₁ words₂ ra.word).toOption =
    (conditionsOf T ra.fields F).bind fun cs =>
      if ra.rows = [] then some ""
      else (planOf T ra.fields false o₂).map
        (Plan.outcome T (ra.filtered ((filterPlan cs).satisfied T ra.fields))) := by
  have given : words₁ ≠ [] := by
    rintro rfl
    cases first
  rw [twoCalls, toOption_bind, recordArrayHelper_outcome ra first given, planOf_filterOnly]
  cases conditionsOf T ra.fields F with
  | none => rfl
  | some cs =>
    rw [map_some, map_some, bind_some, bind_some, outcome_filterPlan]
    by_cases empty : ra.rows = []
    · rw [if_pos empty, if_pos empty, recordArrayHelper_empty second]
      rfl
    · rw [if_neg empty, if_neg empty]
      exact recordArrayHelper_outcome (ra.filtered _) second options

include one in
theorem oneCall_toOption : (recordArrayHelper T words ra.word).toOption =
    (conditionsOf T ra.fields F).bind fun cs =>
      (planOf T ra.fields false o₂).map fun p =>
        ({ p with conditions := cs ++ p.conditions } : Plan).outcome T ra := by
  have given : words ≠ [] := by
    rintro rfl
    have option : none = some _ := congrArg Options.filterObj (Except.ok.inj one)
    cases option
  rw [recordArrayHelper_outcome ra one given]
  cases conditions : conditionsOf T ra.fields F with
  | none =>
    rw [planOf_allConditions_none o₂ conditions]
    rfl
  | some cs =>
    rw [planOf_allConditions o₂ conditions, map_map]
    rfl

/-- What no record satisfies gives an empty result, or a record array without records. -/
theorem outcome_none_left (p : Plan) (cs : List Condition) (some : ra.rows ≠ [])
    (none : ra.rows.filter ((filterPlan cs).satisfied T ra.fields) = []) :
    ({ p with conditions := cs ++ p.conditions } : Plan).outcome T ra = "" ↔
      p.format ≠ .recordarray := by
  have answer : ({ p with conditions := cs ++ p.conditions } : Plan).answer T ra.fields ra.rows =
      "" := by
    rw [Plan.answer, words_conditions, none, ← Plan.answer, answer_nil]
  rw [Plan.outcome, if_neg some, answer]
  by_cases format : p.format = .recordarray
  · rw [if_pos format]
    exact iff_of_false (ofList_pair_ne _ _) fun other => other format
  · rw [if_neg format]
    exact iff_of_true rfl format

include first second options one in
/-- A call with a filter and then one with the other options give what one call with all of them
does, or an error as it does, exactly where they agree. -/
theorem twoCalls_iff : (twoCalls T words₁ words₂ ra.word).toOption =
    (recordArrayHelper T words ra.word).toOption ↔ Agree T ra F o₂ := by
  rw [twoCalls_toOption ra first second options, oneCall_toOption ra one, Agree, selected,
    planOf_filterOnly]
  cases conditionsOf T ra.fields F with
  | none => exact iff_of_true rfl fun error => (nomatch error)
  | some cs =>
    have left : (filterPlan cs).kept T ra.fields ra.rows =
        ra.rows.filter ((filterPlan cs).satisfied T ra.fields) := rfl
    rw [map_some, map_some, bind_some, bind_some, left,
      some_inj]
    by_cases empty : ra.rows = []
    · have outcome (p : Plan) : p.outcome T ra = "" := if_pos empty
      simp only [empty, if_true, List.filter_nil, true_imp_iff, outcome]
      cases planOf T ra.fields false o₂ with
      | none => simp
      | some p => simp
    · rw [if_neg empty, if_neg empty]
      cases planned : planOf T ra.fields false o₂ with
      | none => simp
      | some p =>
        have format := (planOf_named planned).2.1
        by_cases none : ra.rows.filter ((filterPlan cs).satisfied T ra.fields) = []
        · have filtered : p.outcome T
              (ra.filtered ((filterPlan cs).satisfied T ra.fields)) = "" := if_pos none
          rw [map_some, map_some, some_inj, filtered, eq_comm,
            outcome_none_left ra p cs empty none, format]
          simp [none]
        · rw [map_some, map_some, outcome_filtered ra p cs none]
          simp [none]

end Compared

end TwoCalls

/-! ### A filter and a slice -/

/-- The records whose first field is 3. -/
def isThree : String := plainTcl.ofList [plainTcl.ofList ["a", "eq", "3"]]

/-- The records whose first field is 7. -/
def isSeven : String := plainTcl.ofList [plainTcl.ofList ["a", "eq", "7"]]

theorem twoCalls_iff_isThree :
    (twoCalls plainTcl ["-filter", isThree] ["-slice", plainTcl.ofList ["b"]]
        twoRecords.word).toOption =
      (recordArrayHelper plainTcl ["-filter", isThree, "-slice", plainTcl.ofList ["b"]]
        twoRecords.word).toOption ↔
      Agree plainTcl twoRecords isThree
        { Options.none with sliceObj := some (plainTcl.ofList ["b"]) } :=
  twoCalls_iff twoRecords rfl rfl (List.cons_ne_nil _ _) rfl

/-- No record is left: one call gives a record array with the field of the slice, and two calls
an empty result. -/
theorem empty_result_without_fields :
    (twoCalls plainTcl ["-filter", isSeven] ["-slice", plainTcl.ofList ["b"]]
        twoRecords.word).toOption ≠
      (recordArrayHelper plainTcl ["-filter", isSeven, "-slice", plainTcl.ofList ["b"]]
        twoRecords.word).toOption := by
  have two : (twoCalls plainTcl ["-filter", isSeven] ["-slice", plainTcl.ofList ["b"]]
      twoRecords.word).toOption = some "" := by
    decide
  have one : (recordArrayHelper plainTcl ["-filter", isSeven, "-slice", plainTcl.ofList ["b"]]
      twoRecords.word).toOption ≠ some "" := by
    decide
  rw [two]
  exact one.symm

end Twapi.RecordArray
