import Twapi.Lib.Ledger
import Twapi.Lib.Traced
import Twapi.RecordArray.Correct

/-!
The objects of `Twapi_RecordArrayHelperObjCmd`, `base/recordarray.c`.

* `Obj` — what the command creates, and what it borrows from the caller.
* `options`, `collectItems`, `helper` — the command, with what it creates and what it decrements.
* `Clean` — on an error, everything that was created was released once, and nothing else.
* `helper_clean_iff` — when that is so.
* `helper_toOption` — the command returns what `recordArrayHelper` says.

An object is acquired where it is created and released where its last reference is dropped: a
duplicate or a new list is held by the command alone. Incrementing and decrementing an object
that is held all the while leaves no entry, nor does what Tcl keeps in internal representations,
such as the field list that the name of a field refers to once it was looked up.
-/

namespace Twapi.RecordArray.Ownership

open Lib List

/-- * `filter` — the duplicate made for a `-filter` option, counted from 0;
* `newfields`, `recs`, `fields` — the list of the fields of the slice, the duplicates of the
  records and of the fields;
* `made` — the list or dictionary made for a record;
* `record`, `key` — a record, and the value of its key field: they are the caller's. -/
inductive Obj where
  | filter (k : Nat)
  | newfields
  | recs
  | fields
  | made (i : Nat)
  | record (i : Nat)
  | key (i : Nat)
deriving DecidableEq

abbrev Run (α : Type) := Traced (Entry Obj) α

def create (obj : Obj) : Run Unit := .tell (.acquire obj)

/-- `ObjDecrRefs` of each. -/
def decrRefs (objs : List Obj) : Run Unit := .tellAll (objs.map .release)

/-! ### Options -/

/-- The loop over the words before the record array, with how many duplicates of filters were
made. Only the last of them is remembered. -/
def options : List String → Options → (dups : Nat) → Run (Except Error (Options × Nat))
  | [], o, dups => return .ok (o, dups)
  | word :: words, o, dups =>
    match getIndex opts "option" word with
    | .error e => return .error e
    | .ok .first => options words { o with first := true } dups
    | .ok opt =>
      match words with
      | [] => return .error (missingValue word)
      | value :: words =>
        match opt with
        | .format =>
          match getIndex formats "format" value with
          | .error e => return .error e
          | .ok format => options words { o with format := format } dups
        | .slice => options words { o with sliceObj := some value } dups
        | .filter => do
            create (.filter dups)
            options words { o with filterObj := some value } (dups + 1)
        | .key => options words { o with keyfieldObj := some value } dups
        | .first => options (value :: words) { o with first := true } dups

section Command

variable (T : Tcl)

/-! ### Records -/

/-- What the records are asked. -/
structure Query where
  format : Format
  fields : List String
  filters : List Filter
  slice : Option Slice
  keyfield_pos : Option Nat
  first : Bool

/-- An element of `output`, with its value. There is no object where `TwapiTwine` gave none. -/
structure Item where
  obj : Option Obj
  value : String

/-- The value of the key field of the `i`th record. -/
def keyItem (i : Nat) (value : String) : Item := ⟨some (.key i), value⟩

/-- What is put out for the `i`th record. -/
def makeItem (q : Query) (i : Nat) (rec : String) : Run (Except Error Item) :=
  match q.slice with
  | none =>
    if q.format = .dict then
      match T.elements rec with
      | .error _ => return .ok ⟨none, ""⟩
      | .ok values => do
          create (.made i)
          return .ok ⟨some (.made i), T.ofList (twine q.fields values)⟩
    else return .ok ⟨some (.record i), rec⟩
  | some slice =>
    match outputOf T q.format q.fields (some slice) rec with
    | .error e => return .error e
    | .ok value => do
        create (.made i)
        return .ok ⟨some (.made i), value⟩

/-- The loop over the records: `output` so far, and what comes of it. -/
def collectItems (q : Query) : (recs : List String) → (i : Nat) → (output : List Item) →
    Run (List Item × Except Error Unit)
  | [], _, output => return (output, .ok ())
  | rec :: recs, i, output =>
    match matchesAll T rec q.filters with
    | .error e => return (output, .error e)
    | .ok false => collectItems q recs (i + 1) output
    | .ok true =>
      match keyWords T q.keyfield_pos rec with
      | .error e => return (output, .error e)
      | .ok key => do
          let output := output ++ key.map (keyItem i)
          match ← makeItem T q i rec with
          | .error e => return (output, .error e)
          | .ok item =>
            if q.first then return (output ++ [item], .ok ())
            else collectItems q recs (i + 1) (output ++ [item])

/-! ### The command -/

/-- An error, or a null pointer among the elements of a new list. -/
inductive Failure where
  | error (e : Error)
  | null
deriving DecidableEq

/-- The label `vamoose`. -/
def vamoose (objs : List Obj) (res : Except Failure String) : Run (Except Failure String) := do
  decrRefs objs
  return res

/-- What is put out as the result. -/
def resultOfItems (q : Query) (fieldsObj : String) (output : List Item) :
    Except Failure String :=
  if output.any (·.obj.isNone) then .error .null
  else .ok (resultOf T q.format fieldsObj q.slice (output.map (·.value)))

/-- From the loop over the records on, where `objs` are released at the end. -/
def queryItems (q : Query) (fieldsObj : String) (recs : List String) (objs : List Obj) :
    Run (Except Failure String) := do
  let (output, res) ← collectItems T q recs 0 []
  match res with
  | .error e =>
    decrRefs (if q.slice.isSome then output.filterMap (·.obj) else [])
    vamoose objs (.error (.error e))
  | .ok () =>
    decrRefs (if q.format = .flat ∧ q.slice.isSome then output.filterMap (·.obj) else [])
    vamoose objs (resultOfItems T q fieldsObj output)

/-- The duplicate of a filter that is remembered. -/
def filterObj (dups : Nat) : List Obj := if dups = 0 then [] else [.filter (dups - 1)]

/-- From the mark on. -/
def marked (o : Options) (dups : Nat) (fieldsObj recsObj : String) (keyfield_pos : Option Nat) :
    Run (Except Failure String) :=
  match filtersOf T o fieldsObj, sliceOf T o fieldsObj with
  | .error e, _ | .ok _, .error e => vamoose (filterObj dups) (.error (.error e))
  | .ok filters, .ok slice => do
      let newfieldsObj := if slice.isSome then [Obj.newfields] else []
      Traced.tellAll (newfieldsObj.map .acquire)
      create .recs
      match objGetElements T recsObj with
      | .error e => vamoose (filterObj dups ++ .recs :: newfieldsObj) (.error (.error e))
      | .ok [] => vamoose (filterObj dups ++ .recs :: newfieldsObj) (.ok "")
      | .ok recs => do
          create .fields
          match objGetElements T fieldsObj with
          | .error e =>
            vamoose (filterObj dups ++ .recs :: .fields :: newfieldsObj) (.error (.error e))
          | .ok fields =>
            queryItems T ⟨o.format, fields, filters, slice, keyfield_pos, o.first⟩ fieldsObj recs
              (filterObj dups ++ .recs :: .fields :: newfieldsObj)

/-- `Twapi_RecordArrayHelperObjCmd`. Up to the mark, it returns without `vamoose`. -/
def helper (words : List String) (ra : String) : Run (Except Failure String) := do
  match ← options words .none 0 with
  | .error e => return .error (.error e)
  | .ok (o, dups) =>
    match objGetElements T ra with
    | .error e => return .error (.error e)
    | .ok [] => return .ok ""
    | .ok [fieldsObj, recsObj] =>
      if words = [] then return .ok ra
      else
        match keyOf T o fieldsObj with
        | .error e => return .error (.error e)
        | .ok keyfield_pos => marked T o dups fieldsObj recsObj keyfield_pos
    | .ok _ => return .error (.error ⟨"Invalid recordarray format", some twapiInvalidData⟩)

/-! ### When everything is released -/

/-- The options that are read before the first one that is in error. -/
def optionsRead : List String → List Opt
  | [] => []
  | word :: words =>
    match getIndex opts "option" word with
    | .error _ => []
    | .ok .first => .first :: optionsRead words
    | .ok opt =>
      match words with
      | [] => []
      | value :: words =>
        if opt = .format ∧ (formats.lookup value).isNone then []
        else opt :: optionsRead words

/-- How many filters are read. -/
def filterCount (words : List String) : Nat := (optionsRead words).count .filter

/-- On an error, everything that was created was released once, and nothing else was: no object
of the caller's is decremented. -/
def Clean (run : Run (Except Failure String)) : Prop :=
  ∀ e, run.result = .error (.error e) → Entry.Settled run.events

namespace Query

variable (q : Query)

/-- A record satisfies the filters. -/
def matched (rec : String) : Bool :=
  match matchesAll T rec q.filters with
  | .ok true => true
  | _ => false

/-- The key of a record that satisfies the filters can be read. -/
def keyed (rec : String) : Bool :=
  q.matched T rec && (keyWords T q.keyfield_pos rec).toOption.isSome

/-- A record is in error: its filters, its key or its slice. -/
def fails (rec : String) : Bool :=
  (matchesAll T rec q.filters).toOption.isNone ||
    q.matched T rec && ((keyWords T q.keyfield_pos rec).toOption.isNone ||
      q.slice.isSome && (outputOf T q.format q.fields q.slice rec).toOption.isNone)

/-- The first record in error that is got to, with the ones before it. -/
def firstFailure : (recs : List String) → Option (List String × String)
  | [] => none
  | rec :: recs =>
    if q.fails T rec then some ([], rec)
    else if q.first && q.matched T rec then none
    else (firstFailure recs).map fun (before, failing) => (rec :: before, failing)

/-- With a slice, no key is in the output; without one, no dictionary is. -/
def OutputsFreed (before : List String) (rec : String) : Prop :=
  if q.slice.isSome then
    q.keyfield_pos = none ∨ (∀ r ∈ before, q.matched T r = false) ∧ q.keyed T rec = false
  else q.format = .dict → ∀ r ∈ before, q.matched T r = false

end Query

/-- The condition from the loop over the records on. -/
def QueryReleases (q : Query) (filters : Nat) (recs : List String) : Prop :=
  ∀ before rec, q.firstFailure T recs = some (before, rec) →
    filters ≤ 1 ∧ q.OutputsFreed T before rec

/-- The condition from the mark on: there was one filter at most. -/
def MarkedReleases (o : Options) (filters : Nat) (fieldsObj recsObj : String)
    (keyfield_pos : Option Nat) : Prop :=
  match filtersOf T o fieldsObj, sliceOf T o fieldsObj with
  | .error _, _ | .ok _, .error _ => filters ≤ 1
  | .ok fs, .ok slice =>
    match objGetElements T recsObj with
    | .error _ => filters ≤ 1
    | .ok [] => True
    | .ok recs =>
      match objGetElements T fieldsObj with
      | .error _ => filters ≤ 1
      | .ok fields =>
        QueryReleases T ⟨o.format, fields, fs, slice, keyfield_pos, o.first⟩ filters recs

/-- The condition: if the command fails before the mark, there was no filter. -/
def Releases (words : List String) (ra : String) : Prop :=
  match parseOptions words .none with
  | .error _ => filterCount words = 0
  | .ok o =>
    match objGetElements T ra with
    | .ok [] => True
    | .ok [fieldsObj, recsObj] =>
      words = [] ∨
        match keyOf T o fieldsObj with
        | .error _ => filterCount words = 0
        | .ok keyfield_pos =>
          MarkedReleases T o (filterCount words) fieldsObj recsObj keyfield_pos
    | _ => filterCount words = 0

end Command

/-! ### The options -/

/-- The duplicates from the `k`th on. -/
def dupsFrom (k n : Nat) : List Obj := (List.range' k n).map .filter

theorem options_eq (words : List String) (o : Options) (dups : Nat) :
    options words o dups =
      ⟨(parseOptions words o).map fun o => (o, dups + filterCount words),
        (dupsFrom dups (filterCount words)).map .acquire⟩ := by
  fun_induction options words o dups with
  | case1 => rfl
  | case2 word words o dups e unknown =>
    simp only [parseOptions, filterCount, optionsRead, unknown]
    rfl
  | case3 word words o dups isFirst ih =>
    simp only [parseOptions, filterCount, optionsRead, isFirst]
    simpa [filterCount] using ih
  | case4 word o dups opt other known =>
    simp only [parseOptions, filterCount, optionsRead, known]
    rfl
  | case5 word o dups value words e bad _ known =>
    have none : formats.lookup value = none := by
      rw [← getIndex_toOption formats "format", bad]
      rfl
    simp only [parseOptions, filterCount, optionsRead, known, bad, none]
    rfl
  | case6 word o dups value words format good _ known ih =>
    have some : formats.lookup value = some format := by
      rw [← getIndex_toOption formats "format", good]
      rfl
    simp only [parseOptions, filterCount, optionsRead, known, good, some]
    simpa [filterCount] using ih
  | case7 word o dups value words _ known ih | case9 word o dups value words _ known ih =>
    simp only [parseOptions, filterCount, optionsRead, known]
    simpa [filterCount] using ih
  | case8 word o dups value words _ known ih =>
    simp only [parseOptions, filterCount, optionsRead, known]
    rw [ih]
    have count : filterCount words + 1 = (.filter :: optionsRead words).count .filter :=
      count_cons_self.symm
    have counted : dups + 1 + filterCount words = dups + (filterCount words + 1) := by omega
    simp only [reduceCtorEq, false_and, if_false]
    rw [counted, ← count, dupsFrom, dupsFrom, range'_succ]
    rfl
  | case10 word o dups value words notFirst => exact (notFirst rfl).elim

/-! ### The output -/

def Obj.isMade : Obj → Bool
  | .made _ => true
  | _ => false

def Obj.isKey : Obj → Bool
  | .key _ => true
  | _ => false

section Output

variable (T : Tcl) (q : Query)

namespace Query

/-- The key of the `i`th record. -/
def keyObjs (i : Nat) : List Obj := if q.keyfield_pos.isSome then [.key i] else []

/-- What is put out for the `i`th record beside the key. -/
def itemObjs (i : Nat) (rec : String) : List Obj :=
  if q.slice.isSome then [.made i]
  else if q.format = .dict then if (T.elements rec).toOption.isSome then [.made i] else []
  else [.record i]

/-- The objects of the output, up to the first record in error. -/
def outputObjs : (recs : List String) → (i : Nat) → List Obj
  | [], _ => []
  | rec :: recs, i =>
    if q.fails T rec then if q.keyed T rec then q.keyObjs i else []
    else if q.matched T rec then
      q.keyObjs i ++ q.itemObjs T i rec ++ if q.first then [] else outputObjs recs (i + 1)
    else outputObjs recs (i + 1)

/-- What cannot be put out for a record. -/
def sliceFails (rec : String) : Bool :=
  q.slice.isSome && (outputOf T q.format q.fields q.slice rec).toOption.isNone

end Query

theorem makeItem_eq (i : Nat) (rec : String) :
    (q.sliceFails T rec = true ∧ ∃ e, makeItem T q i rec = ⟨.error e, []⟩) ∨
      (q.sliceFails T rec = false ∧ ∃ item : Item, item.obj.toList = q.itemObjs T i rec ∧
        makeItem T q i rec =
          ⟨.ok item, ((q.itemObjs T i rec).filter Obj.isMade).map .acquire⟩) := by
  rw [Query.sliceFails, Query.itemObjs, makeItem]
  cases q.slice with
  | none =>
    refine .inr ⟨rfl, ?_⟩
    by_cases dict : q.format = .dict
    · cases T.elements rec with
      | error e => exact ⟨⟨none, ""⟩, by simp [dict, Except.toOption], by simp [dict]; rfl⟩
      | ok values =>
        refine ⟨⟨some (.made i), T.ofList (twine q.fields values)⟩,
          by simp [dict, Except.toOption], ?_⟩
        simp only [dict, if_true]
        rfl
    · refine ⟨⟨some (.record i), rec⟩, by simp [dict], ?_⟩
      simp only [dict, if_false]
      rfl
  | some slice =>
    cases put : outputOf T q.format q.fields (some slice) rec with
    | error e => exact .inl ⟨rfl, e, by simp only [put]; rfl⟩
    | ok value =>
      refine .inr ⟨rfl, ⟨some (.made i), value⟩, rfl, ?_⟩
      simp only [put]
      rfl

/-- The loop puts out these objects, has created those among them that are made, and fails if
there is a record in error. -/
structure Collected (recs : List String) (i : Nat) (output : List Item)
    (run : Run (List Item × Except Error Unit)) : Prop where
  output : run.result.1.filterMap (·.obj) =
    output.filterMap (·.obj) ++ q.outputObjs T recs i
  created : run.events = ((q.outputObjs T recs i).filter Obj.isMade).map .acquire
  failed : (∃ e, run.result.2 = .error e) ↔ (q.firstFailure T recs).isSome

variable {rec : String}

theorem keyWords_objs {i : Nat} {key : List String} (read : keyWords T q.keyfield_pos rec = .ok key) :
    (key.map (keyItem i)).filterMap (·.obj) = q.keyObjs i := by
  rw [Query.keyObjs]
  rw [keyWords.eq_def] at read
  cases position : q.keyfield_pos with
  | none =>
    rw [position] at read
    obtain rfl := Except.ok.inj read
    rfl
  | some pos =>
    rw [position] at read
    obtain ⟨value, _, read⟩ := bind_eq_ok read
    obtain rfl := Except.ok.inj read
    rfl

theorem keyObjs_made (i : Nat) : (q.keyObjs i).filter Obj.isMade = [] := by
  rw [Query.keyObjs]
  split <;> rfl

section Steps

variable {T q} {rec : String} {recs : List String} {i : Nat} {output : List Item}

variable {output' : List Item}

/-- A record in error ends the loop; its key may have been put out. -/
theorem Collected.of_fails (fails : q.fails T rec = true) {e : Error}
    (objs : output'.filterMap (·.obj) =
      output.filterMap (·.obj) ++ if q.keyed T rec then q.keyObjs i else []) :
    Collected T q (rec :: recs) i output ⟨(output', .error e), []⟩ where
  output := by
    rw [Query.outputObjs, if_pos fails]
    exact objs
  created := by
    rw [Query.outputObjs, if_pos fails]
    split
    · rw [keyObjs_made]
      rfl
    · rfl
  failed := by
    rw [Query.firstFailure, if_pos fails]
    exact iff_of_true ⟨e, rfl⟩ rfl

/-- A record that does not match is passed over. -/
theorem Collected.of_unmatched {run : Run (List Item × Except Error Unit)}
    (goes : q.fails T rec = false) (unmatched : q.matched T rec = false)
    (later : Collected T q recs (i + 1) output run) : Collected T q (rec :: recs) i output run := by
  have objs : q.outputObjs T (rec :: recs) i = q.outputObjs T recs (i + 1) := by
    simp [Query.outputObjs, goes, unmatched]
  refine ⟨?_, ?_, ?_⟩
  · rw [objs]
    exact later.output
  · rw [objs]
    exact later.created
  · simp only [Query.firstFailure, goes, unmatched, Bool.and_false, Bool.false_eq_true, if_false,
      Option.isSome_map]
    exact later.failed

/-- A record that matches is put out, after its key; the loop ends there if only the first is
wanted. -/
theorem Collected.of_matched (goes : q.fails T rec = false) (matched : q.matched T rec = true)
    (objs : output'.filterMap (·.obj) =
      output.filterMap (·.obj) ++ (q.keyObjs i ++ q.itemObjs T i rec))
    (later : Collected T q recs (i + 1) output' (collectItems T q recs (i + 1) output')) :
    Collected T q (rec :: recs) i output (do
      Traced.tellAll (((q.itemObjs T i rec).filter Obj.isMade).map .acquire)
      if q.first then return (output', .ok ()) else collectItems T q recs (i + 1) output') := by
  by_cases first : q.first = true
  · refine ⟨?_, ?_, ?_⟩
    · simp only [Traced.result_bind, if_pos first, Traced.result_pure, objs]
      simp [Query.outputObjs, goes, matched, first]
    · simp [Query.outputObjs, goes, matched, first, keyObjs_made]
    · simp [Query.firstFailure, goes, matched, first]
  · refine ⟨?_, ?_, ?_⟩
    · simp only [Traced.result_bind, if_neg first, later.output, objs]
      simp [Query.outputObjs, goes, matched, first]
    · simp only [Traced.events_bind, if_neg first, later.created]
      simp [Query.outputObjs, goes, matched, first, keyObjs_made]
    · simp only [Traced.result_bind, if_neg first, later.failed]
      simp [Query.firstFailure, goes, first]

end Steps

theorem collectItems_collected (recs : List String) (i : Nat) (output : List Item) :
    Collected T q recs i output (collectItems T q recs i output) := by
  induction recs generalizing i output with
  | nil =>
    refine ⟨by simp [collectItems, Query.outputObjs], rfl, ?_⟩
    exact iff_of_false (fun ⟨e, error⟩ => nomatch error) (fun some => nomatch some)
  | cons rec recs ih =>
    rw [collectItems]
    cases filtered : matchesAll T rec q.filters with
    | error e =>
      have fails : q.fails T rec = true := by rw [Query.fails, filtered]; rfl
      have keyed : q.keyed T rec = false := by rw [Query.keyed, Query.matched, filtered]; rfl
      exact .of_fails fails (by simp [keyed])
    | ok matches_ =>
      cases matches_ with
      | false =>
        have matched : q.matched T rec = false := by rw [Query.matched, filtered]
        have goes : q.fails T rec = false := by rw [Query.fails, filtered, matched]; rfl
        exact .of_unmatched goes matched (ih (i + 1) output)
      | true =>
        have matched : q.matched T rec = true := by rw [Query.matched, filtered]
        cases read : keyWords T q.keyfield_pos rec with
        | error e =>
          have fails : q.fails T rec = true := by
            rw [Query.fails, matched, read]
            simp [Except.toOption]
          have keyed : q.keyed T rec = false := by
            rw [Query.keyed, read]
            simp [Except.toOption]
          exact .of_fails fails (by simp [keyed])
        | ok key =>
          have keyed : q.keyed T rec = true := by
            rw [Query.keyed, matched, read]
            rfl
          have fails : q.fails T rec = q.sliceFails T rec := by
            rw [Query.fails, filtered, matched, read]
            simp [Query.sliceFails, Except.toOption]
          have keyObjs := keyWords_objs T q (i := i) read
          obtain ⟨slice, e, made⟩ | ⟨slice, item, obj, made⟩ := makeItem_eq T q i rec
          · simp only [made]
            exact .of_fails (fails.trans slice) (by simp [keyed, ← keyObjs])
          · simp only [made]
            refine .of_matched (fails.trans slice) matched ?_ (ih (i + 1) _)
            rw [filterMap_append, filterMap_append, keyObjs, ← obj,
              append_assoc]
            cases noObj : item.obj <;> simp [noObj]

/-! ### A record in error -/

variable {T q}

/-- The objects of a kind among the output, where the records before the one in error are those
that are put out. -/
theorem exists_outputObjs {P : Obj → Prop} {K I : Prop}
    (keys : ∀ i, (∃ obj ∈ q.keyObjs i, P obj) ↔ K)
    (items : ∀ i r, q.matched T r = true → q.fails T r = false →
      ((∃ obj ∈ q.itemObjs T i r, P obj) ↔ I)) {recs before : List String}
    (failure : q.firstFailure T recs = some (before, rec)) (i : Nat) :
    (∃ obj ∈ q.outputObjs T recs i, P obj) ↔
      K ∧ ((∃ r ∈ before, q.matched T r = true) ∨ q.keyed T rec = true) ∨
        I ∧ ∃ r ∈ before, q.matched T r = true := by
  induction recs generalizing i before with
  | nil => cases failure
  | cons r recs ih =>
    rw [Query.firstFailure] at failure
    by_cases fails : q.fails T r = true
    · rw [if_pos fails] at failure
      cases failure
      by_cases keyed : q.keyed T rec = true
      · simp [Query.outputObjs, fails, keyed, keys i]
      · simp [Query.outputObjs, fails, keyed]
    · rw [if_neg fails] at failure
      by_cases stops : (q.first && q.matched T r) = true
      · rw [if_pos stops] at failure
        cases failure
      · rw [if_neg stops] at failure
        obtain ⟨⟨before', rec'⟩, later, same⟩ := Option.map_eq_some_iff.mp failure
        cases same
        have rest := ih later (i + 1)
        have goes := Bool.not_eq_true _ ▸ fails
        by_cases matched : q.matched T r = true
        · have more : q.first = false := by simpa [matched] using stops
          have here := keys i
          have item := items i r matched goes
          simp only [Query.outputObjs, goes, matched, more, if_true, Bool.false_eq_true,
            if_false, mem_append, or_and_right, exists_or, here, item, rest,
            exists_mem_cons_iff, true_or, and_true]
          exact or_iff_left_of_imp (.imp And.left And.left)
        · simp only [Query.outputObjs, goes, matched, Bool.false_eq_true, if_false, rest,
            exists_mem_cons_iff, false_or]

theorem fails_firstFailure {recs before : List String}
    (failure : q.firstFailure T recs = some (before, rec)) : q.fails T rec = true := by
  induction recs generalizing before with
  | nil => cases failure
  | cons r recs ih =>
    rw [Query.firstFailure] at failure
    split at failure
    next fails =>
      cases failure
      exact fails
    next =>
      split at failure
      next => cases failure
      next =>
        obtain ⟨⟨before', rec'⟩, later, same⟩ := Option.map_eq_some_iff.mp failure
        cases same
        exact ih later

theorem isList_of_objListIndex {rec value : String} {pos : Nat}
    (read : objListIndex T rec pos = .ok value) : (T.elements rec).toOption.isSome = true := by
  obtain ⟨values, list, _⟩ := bind_eq_ok read
  cases elements : T.elements rec with
  | error e =>
    rw [objGetElements, elements] at list
    cases list
  | ok values => rfl

/-- Where the records are looked into, what is put out without a slice is a list. -/
theorem isList_of_matched {rec₀ rec : String} (whole : q.slice = none)
    (failing : q.fails T rec₀ = true) (matched : q.matched T rec = true)
    (goes : q.fails T rec = false) : (T.elements rec).toOption.isSome = true := by
  cases filters : q.filters with
  | cons f fs =>
    rw [Query.matched, filters] at matched
    split at matched
    next all =>
      obtain ⟨value, read, _⟩ := bind_eq_ok all
      exact isList_of_objListIndex read
    next => cases matched
  | nil =>
    cases position : q.keyfield_pos with
    | some pos =>
      have read : (keyWords T q.keyfield_pos rec).toOption.isSome = true := by
        rw [Query.fails, matched] at goes
        simpa using (Bool.or_eq_false_iff.mp (Bool.or_eq_false_iff.mp goes).2).1
      rw [position] at read
      cases key : keyWords T (some pos) rec with
      | error e =>
        rw [key] at read
        cases read
      | ok key' =>
        obtain ⟨value, read, _⟩ := bind_eq_ok key
        exact isList_of_objListIndex read
    | none =>
      rw [Query.fails, Query.matched, filters, position, whole] at failing
      cases failing

theorem key_mem_outputObjs {recs before : List String}
    (failure : q.firstFailure T recs = some (before, rec)) (i : Nat) :
    (∃ obj ∈ q.outputObjs T recs i, obj.isKey = true) ↔
      q.keyfield_pos ≠ none ∧
        ((∃ r ∈ before, q.matched T r = true) ∨ q.keyed T rec = true) := by
  have keys (i : Nat) : (∃ obj ∈ q.keyObjs i, obj.isKey = true) ↔ q.keyfield_pos ≠ none := by
    rw [Query.keyObjs]
    cases q.keyfield_pos <;> simp [Obj.isKey]
  have items (i : Nat) (r : String) (_ : q.matched T r = true) (_ : q.fails T r = false) :
      (∃ obj ∈ q.itemObjs T i r, obj.isKey = true) ↔ False := by
    rw [Query.itemObjs]
    split
    · simp [Obj.isKey]
    · split
      · split <;> simp [Obj.isKey]
      · simp [Obj.isKey]
  simpa using exists_outputObjs keys items failure i

/-- Without a slice, the dictionaries of the records before are among the output. -/
theorem made_mem_outputObjs {recs before : List String}
    (failure : q.firstFailure T recs = some (before, rec)) (whole : q.slice = none) (i : Nat) :
    (∃ obj ∈ q.outputObjs T recs i, obj.isMade = true) ↔
      q.format = .dict ∧ ∃ r ∈ before, q.matched T r = true := by
  have keys (i : Nat) : (∃ obj ∈ q.keyObjs i, obj.isMade = true) ↔ False := by
    rw [Query.keyObjs]
    cases q.keyfield_pos <;> simp [Obj.isMade]
  have items (i : Nat) (r : String) (matched : q.matched T r = true)
      (goes : q.fails T r = false) :
      (∃ obj ∈ q.itemObjs T i r, obj.isMade = true) ↔ q.format = .dict := by
    have list := isList_of_matched whole (fails_firstFailure failure) matched goes
    rw [Query.itemObjs, whole]
    by_cases dict : q.format = .dict
    · simp [dict, list, Obj.isMade]
    · simp [dict, Obj.isMade]
  simpa using exists_outputObjs keys items failure i

/-- With a slice, the output is keys and what was made. -/
theorem isMade_or_isKey (sliced : q.slice.isSome = true) (recs : List String) (i : Nat) :
    ∀ obj ∈ q.outputObjs T recs i, obj.isMade = true ∨ obj.isKey = true := by
  have keys (i : Nat) : ∀ obj ∈ q.keyObjs i, obj.isMade = true ∨ obj.isKey = true := by
    rw [Query.keyObjs]
    split <;> simp [Obj.isMade, Obj.isKey]
  induction recs generalizing i with
  | nil => exact fun _ mem => nomatch mem
  | cons r recs ih =>
    intro obj mem
    rw [Query.outputObjs] at mem
    split at mem
    · split at mem
      · exact keys i obj mem
      · cases mem
    · split at mem
      · rcases mem_append.mp mem with mem | mem
        · rcases mem_append.mp mem with mem | mem
          · exact keys i obj mem
          · rw [Query.itemObjs, if_pos sliced, mem_singleton] at mem
            exact .inl (mem ▸ rfl)
        · split at mem
          · cases mem
          · exact ih (i + 1) obj mem
      · exact ih (i + 1) obj mem

/-! ### The loop and what follows it -/

/-- Objects that are neither made for a record nor a key. -/
def Plain (objs : List Obj) : Prop := ∀ obj ∈ objs, obj.isMade = false ∧ obj.isKey = false

theorem sliced_perm_iff {out held objs : List Obj} (plain : Plain held)
    (all : ∀ obj ∈ out, obj.isMade = true ∨ obj.isKey = true) :
    (held ++ out.filter Obj.isMade).Perm (out ++ objs) ↔
      (¬ ∃ obj ∈ out, obj.isKey = true) ∧ held.Perm objs := by
  have same (noKey : ¬ ∃ obj ∈ out, obj.isKey = true) : out.filter Obj.isMade = out := by
    refine filter_eq_self.mpr fun obj mem => ?_
    exact (all obj mem).resolve_right fun key => noKey ⟨obj, mem, key⟩
  constructor
  · intro perm
    have noKey : ¬ ∃ obj ∈ out, obj.isKey = true := by
      rintro ⟨obj, mem, key⟩
      rcases mem_append.mp (perm.mem_iff.mpr (mem_append_left _ mem)) with held | made
      · cases key.symm.trans (plain obj held).2
      · have made := of_mem_filter made
        cases obj with
        | key i => cases made
        | _ => cases key
    refine ⟨noKey, ?_⟩
    rw [same noKey] at perm
    exact (perm_append_left_iff out).mp (perm_append_comm.trans perm)
  · rintro ⟨noKey, perm⟩
    rw [same noKey]
    exact perm_append_comm.trans (perm.append_left out)

theorem whole_perm_iff {out held objs : List Obj} (plain : Plain objs) :
    (held ++ out.filter Obj.isMade).Perm objs ↔
      (¬ ∃ obj ∈ out, obj.isMade = true) ∧ held.Perm objs := by
  constructor
  · intro perm
    have none : ¬ ∃ obj ∈ out, obj.isMade = true := by
      rintro ⟨obj, mem, made⟩
      have among : obj ∈ objs :=
        perm.mem_iff.mp (mem_append_right _ (mem_filter.mpr ⟨mem, made⟩))
      cases made.symm.trans (plain obj among).1
    have empty : out.filter Obj.isMade = [] :=
      filter_eq_nil_iff.mpr fun obj mem made => none ⟨obj, mem, made⟩
    rw [empty, append_nil] at perm
    exact ⟨none, perm⟩
  · rintro ⟨none, perm⟩
    have empty : out.filter Obj.isMade = [] :=
      filter_eq_nil_iff.mpr fun obj mem made => none ⟨obj, mem, made⟩
    rwa [empty, append_nil]

/-- What is released on an error in the loop, where nothing else is. -/
theorem outputsFreed_iff {held objs before recs : List _} (plainHeld : Plain held)
    (plainObjs : Plain objs) (failure : q.firstFailure T recs = some (before, rec)) :
    (held ++ (q.outputObjs T recs 0).filter Obj.isMade).Perm
        ((if q.slice.isSome then q.outputObjs T recs 0 else []) ++ objs) ↔
      held.Perm objs ∧ q.OutputsFreed T before rec := by
  rw [Query.OutputsFreed, and_comm]
  cases slice : q.slice with
  | some s =>
    have sliced : q.slice.isSome = true := by rw [slice]; rfl
    simp only [Option.isSome_some, if_true]
    rw [sliced_perm_iff plainHeld (isMade_or_isKey sliced recs 0), key_mem_outputObjs failure 0]
    refine and_congr_left fun _ => ?_
    rw [not_and_or, not_not, not_or]
    simp only [not_exists, not_and, Bool.not_eq_true]
  | none =>
    simp only [Option.isSome_none, Bool.false_eq_true, if_false, nil_append]
    rw [whole_perm_iff plainObjs, made_mem_outputObjs failure slice 0]
    refine and_congr_left fun _ => ?_
    simp only [not_and, not_exists, Bool.not_eq_true]

theorem vamoose_eq (objs : List Obj) (res : Except Failure String) :
    vamoose objs res = ⟨res, objs.map .release⟩ :=
  congrArg (Traced.mk res) (append_nil _)

theorem clean_error_iff {e : Error} {held objs : List Obj} :
    Clean ⟨.error (.error e), held.map .acquire ++ objs.map .release⟩ ↔ held.Perm objs := by
  rw [← Entry.settled_iff_perm]
  refine ⟨fun clean => clean e rfl, fun settled _ _ => settled⟩

/-- From the loop on, where `held` was created before. -/
theorem queryItems_clean_iff (recs : List String) (fieldsObj : String) {held objs : List Obj}
    (plainHeld : Plain held) (plainObjs : Plain objs) :
    Clean ⟨(queryItems T q fieldsObj recs objs).result,
        held.map .acquire ++ (queryItems T q fieldsObj recs objs).events⟩ ↔
      ∀ before rec, q.firstFailure T recs = some (before, rec) →
        held.Perm objs ∧ q.OutputsFreed T before rec := by
  have collected := collectItems_collected T q recs 0 []
  obtain ⟨output, res, loop⟩ : ∃ output res, (collectItems T q recs 0 []).result = (output, res) :=
    ⟨_, _, rfl⟩
  have objs_eq : output.filterMap (·.obj) = q.outputObjs T recs 0 := by
    have same := collected.output
    rwa [loop, filterMap_nil, nil_append] at same
  cases res with
  | ok u =>
    have none : q.firstFailure T recs = none := by
      rw [← Option.not_isSome_iff_eq_none, ← collected.failed, loop]
      exact fun ⟨e, error⟩ => nomatch error
    refine iff_of_true ?_ fun before rec some => nomatch none.symm.trans some
    intro e error
    rw [queryItems, Traced.bind_of_result loop] at error
    change resultOfItems T q fieldsObj output = _ at error
    rw [resultOfItems] at error
    split at error <;> cases error
  | error e =>
    obtain ⟨⟨before, rec⟩, failure⟩ := Option.isSome_iff_exists.mp
      (collected.failed.mp ⟨e, congrArg Prod.snd loop⟩)
    have run : queryItems T q fieldsObj recs objs = ⟨.error (.error e),
        ((q.outputObjs T recs 0).filter Obj.isMade).map .acquire ++
          ((if q.slice.isSome then q.outputObjs T recs 0 else []) ++ objs).map .release⟩ := by
      rw [queryItems, Traced.bind_of_result loop, collected.created, map_append, ← objs_eq]
      simp only [vamoose_eq]
      rfl
    rw [run]
    simp only
    rw [← append_assoc, ← map_append, clean_error_iff,
      outputsFreed_iff plainHeld plainObjs failure]
    constructor
    · intro freed before' rec' failure'
      cases failure.symm.trans failure'
      exact freed
    · exact fun freed => freed before rec failure

/-! ### From the mark on -/

theorem plain_dupsFrom (k n : Nat) : Plain (dupsFrom k n) := by
  intro obj mem
  obtain ⟨j, _, rfl⟩ := mem_map.mp mem
  exact ⟨rfl, rfl⟩

theorem plain_filterObj (n : Nat) : Plain (filterObj n) := by
  intro obj mem
  rw [filterObj] at mem
  split at mem
  · cases mem
  · rw [mem_singleton.mp mem]
    exact ⟨rfl, rfl⟩

/-- The last duplicate is the only one if there was one filter at most. -/
theorem dups_perm_iff (n : Nat) : (dupsFrom 0 n).Perm (filterObj n) ↔ n ≤ 1 := by
  constructor
  · intro perm
    have length := perm.length_eq
    rw [dupsFrom, filterObj, length_map, length_range'] at length
    split at length
    · omega
    · rw [length_singleton] at length
      omega
  · intro one
    obtain rfl | rfl : n = 0 ∨ n = 1 := by omega
    · exact .nil
    · exact .refl _

/-- What is created before the records are looked at, and released in the end. -/
theorem held_perm_iff (n : Nat) (newfields more : List Obj) :
    (dupsFrom 0 n ++ newfields ++ more).Perm (filterObj n ++ (more ++ newfields)) ↔ n ≤ 1 := by
  rw [append_assoc, ← dups_perm_iff]
  have swap : (filterObj n ++ (more ++ newfields)).Perm (filterObj n ++ (newfields ++ more)) :=
    perm_append_comm.append_left _
  rw [List.Perm.congr_right swap, perm_append_right_iff]

theorem Plain.append {xs ys : List Obj} (left : Plain xs) (right : Plain ys) :
    Plain (xs ++ ys) := fun obj mem => (List.mem_append.mp mem).elim (left obj) (right obj)

theorem marked_clean_iff (o : Options) (n : Nat) (fieldsObj recsObj : String)
    (keyfield_pos : Option Nat) :
    Clean ⟨(marked T o n fieldsObj recsObj keyfield_pos).result,
        (dupsFrom 0 n).map .acquire ++ (marked T o n fieldsObj recsObj keyfield_pos).events⟩ ↔
      MarkedReleases T o n fieldsObj recsObj keyfield_pos := by
  rw [marked, MarkedReleases]
  have early (e : Error) : Clean ⟨.error (.error e), (dupsFrom 0 n).map .acquire ++
      (vamoose (filterObj n) (.error (.error e))).events⟩ ↔ n ≤ 1 := by
    rw [vamoose_eq, clean_error_iff, dups_perm_iff]
  cases filters : filtersOf T o fieldsObj with
  | error e => exact early e
  | ok fs =>
    cases sliced : sliceOf T o fieldsObj with
    | error e => exact early e
    | ok slice =>
      have plain : Plain (if slice.isSome then [Obj.newfields] else []) := by
        split
        · exact fun obj mem => mem_singleton.mp mem ▸ ⟨rfl, rfl⟩
        · exact fun obj mem => nomatch mem
      simp only [vamoose_eq]
      generalize (if slice.isSome then [Obj.newfields] else []) = newfields at plain ⊢
      -- what was created up to a point, released by `vamoose`
      have failed (e : Error) (more : List Obj) :
          Clean ⟨.error (.error e), (dupsFrom 0 n).map .acquire ++
            (newfields.map .acquire ++ (more.map .acquire ++
              (filterObj n ++ (more ++ newfields)).map .release))⟩ ↔ n ≤ 1 := by
        rw [← append_assoc, ← append_assoc, ← map_append, ← map_append,
          clean_error_iff, held_perm_iff]
      cases records : objGetElements T recsObj with
      | error e => exact failed e [.recs]
      | ok recs =>
        cases recs with
        | nil => exact iff_of_true (fun e error => nomatch error) trivial
        | cons rec recs =>
          cases names : objGetElements T fieldsObj with
          | error e => exact failed e [.recs, .fields]
          | ok fields =>
            have both : Plain [.recs, .fields] := by
              simp [Plain, Obj.isMade, Obj.isKey]
            have held : Plain (dupsFrom 0 n ++ newfields ++ [.recs, .fields]) :=
              ((plain_dupsFrom 0 n).append plain).append both
            have objs : Plain (filterObj n ++ ([.recs, .fields] ++ newfields)) :=
              (plain_filterObj n).append (both.append plain)
            have loop := queryItems_clean_iff (T := T)
              (q := ⟨o.format, fields, fs, slice, keyfield_pos, o.first⟩)
              (rec :: recs) fieldsObj held objs
            rw [held_perm_iff, map_append, map_append, append_assoc,
              append_assoc] at loop
            exact loop
end Output

/-! ### The result -/

section Values

variable {T : Tcl} {q : Query}

/-- What is put out, where there was no error and every element has an object. -/
def valuesOf (collected : List Item × Except Error Unit) : Option (List String) :=
  match collected with
  | (_, .error _) => none
  | (output, .ok ()) =>
    if output.any (·.obj.isNone) then none else some (output.map (·.value))

end Values

section Helper

variable (T : Tcl)

/-- Without `vamoose`, the duplicates stay. -/
theorem dups_clean_iff (e : Error) (n : Nat) :
    Clean ⟨.error (.error e), (dupsFrom 0 n).map .acquire ++ []⟩ ↔ n = 0 := by
  rw [← map_nil (f := Entry.release), clean_error_iff, perm_nil, dupsFrom,
    map_eq_nil_iff, range'_eq_nil_iff]

theorem helper_clean_iff (words : List String) (ra : String) :
    Clean (helper T words ra) ↔ Releases T words ra := by
  have opts := options_eq words .none 0
  rw [Nat.zero_add] at opts
  rw [helper, opts, Releases]
  cases parseOptions words .none with
  | error e => exact dups_clean_iff e _
  | ok o =>
    have early (e : Error) := dups_clean_iff e (filterCount words)
    rw [Traced.bind_of_result (a := .ok (o, filterCount words)) rfl]
    simp only
    cases objGetElements T ra with
    | error e => exact early e
    | ok elements =>
      match elements with
      | [] => exact iff_of_true (fun e error => nomatch error) trivial
      | [_] => exact early _
      | _ :: _ :: _ :: _ => exact early _
      | [fieldsObj, recsObj] =>
        by_cases noWords : words = []
        · simp only [noWords, true_or, iff_true]
          exact fun e error => nomatch error
        · simp only [noWords, false_or, if_false]
          cases keyOf T o fieldsObj with
          | error e => exact early e
          | ok keyfield_pos =>
            exact marked_clean_iff o (filterCount words) fieldsObj recsObj keyfield_pos

end Helper

/-- The second record has one value. -/
def shortRecord : String := plainTcl.ofList [plainTcl.ofList ["a", "b"],
  plainTcl.ofList [plainTcl.ofList ["1", "2"], plainTcl.ofList ["3"]]]

/-- The key of the first record is decremented when the second turns out to be too short. -/
theorem borrowed_key_released :
    ¬ Clean (helper plainTcl ["-format", "list", "-key", "b", "-slice", plainTcl.ofList ["a"]]
      shortRecord) := by
  intro clean
  have short : (helper plainTcl
      ["-format", "list", "-key", "b", "-slice", plainTcl.ofList ["a"]] shortRecord).result =
        .error (.error tooFew) := by
    decide
  exact absurd (clean tooFew short) (by decide)

end Twapi.RecordArray.Ownership
