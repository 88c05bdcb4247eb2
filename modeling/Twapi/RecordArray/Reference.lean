import Twapi.RecordArray.Model
import Twapi.Parseargs.Model

/-!
The reference for queries on record arrays.

* `Uniform` — a record array of records that are as long as the list of fields.
* `planOf` — what the options ask for, in names of fields. Whether the fields of a slice may
  be given other names is a parameter.
* `Plan.kept`, `Plan.words`, `Plan.answer` — the pipeline.
-/

namespace Twapi.RecordArray

open Parseargs (dictGet)

/-- A record as it stands in the record array, and its values. -/
structure Row where
  word : String
  values : List String

structure Uniform (T : Tcl) where
  word : String
  fieldsWord : String
  recordsWord : String
  fields : List String
  rows : List Row
  isPair : T.elements word = .ok [fieldsWord, recordsWord]
  isFields : T.elements fieldsWord = .ok fields
  isRecords : T.elements recordsWord = .ok (rows.map Row.word)
  isRow : ∀ r ∈ rows, T.elements r.word = .ok r.values
  length_eq : ∀ r ∈ rows, r.values.length = fields.length

section Reference

variable (T : Tcl) (fields : List String)

/-- The value of a record under the name of a field. -/
def Row.cell (r : Row) (name : String) : Option String := (fields.zip r.values).lookup name

/-! ### Conditions -/

structure Condition where
  name : String
  op : FilterOp
  operand : String
  nocase : Bool

def operatorOf (name op operand : String) (nocase : Bool) : Option Condition :=
  (filterOps.lookup op).map fun op => ⟨name, op, operand, nocase⟩

def isInteger (s : String) : Bool := (T.toWideInt s).toOption.isSome

def conditionWords : List String → Option Condition
  | [name, op, operand] => operatorOf name op operand false
  | [name, op, operand, nocase] =>
    if nocase = "-nocase" then operatorOf name op operand true else none
  | _ => none

/-- The operand of a comparison of integers is an integer. -/
def Condition.fits (c : Condition) : Bool :=
  c.name ∈ fields && (!c.op.isInt || isInteger T c.operand)

def conditionOf (elem : String) : Option Condition := do
  let elems ← (T.elements elem).toOption
  let c ← conditionWords elems
  if c.fits T fields then some c else none

def Condition.equal (c : Condition) (value : String) : Bool :=
  if c.nocase then T.lstrcmpiA value c.operand = 0 else T.lstrcmpA value c.operand = 0

/-- Only integers are compared as such. -/
def Condition.compares (c : Condition) (r : Int → Int → Bool) (value : String) : Bool :=
  match T.toWideInt value, T.toWideInt c.operand with
  | .ok m, .ok n => r m n
  | _, _ => false

def Condition.holds (c : Condition) (value : String) : Bool :=
  match c.op with
  | .eq => c.equal T value
  | .ne => !c.equal T value
  | .match => T.stringCaseMatch value c.operand c.nocase
  | .nomatch => !T.stringCaseMatch value c.operand c.nocase
  | .eqInt => c.compares T (fun m n => m = n) value
  | .neInt => c.compares T (fun m n => m ≠ n) value
  | .ltInt => c.compares T (fun m n => m < n) value
  | .leInt => c.compares T (fun m n => m ≤ n) value
  | .gtInt => c.compares T (fun m n => m > n) value
  | .geInt => c.compares T (fun m n => m ≥ n) value

/-! ### What is asked for -/

/-- A field of a slice, and the name it is put out under. -/
structure Chosen where
  field : String
  name : String

structure Plan where
  conditions : List Condition
  slice : Option (List Chosen)
  key : Option String
  first : Bool
  format : Format

/-- With `renames`, an element may be a pair of the field and its new name. -/
def chosenOf (renames : Bool) (elem : String) : Option Chosen :=
  let chosen : Chosen :=
    match renames, T.elements elem with
    | true, .ok [field, name] => ⟨field, name⟩
    | _, _ => ⟨elem, elem⟩
  if chosen.field ∈ fields then some chosen else none

/-- Nothing where the option is not given. -/
def given {α : Type} (option : Option String) (f : List String → Option α) :
    Option (Option α) :=
  match option with
  | none => some none
  | some words => ((T.elements words).toOption.bind f).map some

def keyName (o : Options) : Option (Option String) :=
  match o.keyfieldObj with
  | none => some none
  | some key =>
    if o.format = .list ∨ o.format = .dict then
      if key ∈ fields then some (some key) else none
    else some none

/-- Nothing if there is an error in the options. -/
def planOf (renames : Bool) (o : Options) : Option Plan := do
  let key ← keyName fields o
  let conditions ← given T o.filterObj fun elems => elems.mapM (conditionOf T fields)
  let slice ← given T o.sliceObj fun elems => elems.mapM (chosenOf T fields renames)
  return ⟨conditions.getD [], slice, key, o.first, o.format⟩

/-! ### The pipeline -/

def Plan.satisfied (p : Plan) (r : Row) : Bool :=
  p.conditions.all fun c => (r.cell fields c.name).any (c.holds T)

def Plan.kept (p : Plan) (rows : List Row) : List Row :=
  let satisfying := rows.filter (p.satisfied T fields)
  if p.first then satisfying.take 1 else satisfying

/-- The names and values that are left of a record. -/
def Plan.project (p : Plan) (r : Row) : List (String × String) :=
  match p.slice with
  | none => fields.zip r.values
  | some chosen => chosen.map fun c => (c.name, (r.cell fields c.field).getD "")

/-- Without a slice, records that stay lists stay as they are. -/
def Plan.item (p : Plan) (r : Row) : String :=
  match p.format, p.slice with
  | .dict, _ => T.ofList ((p.project fields r).flatMap fun x => [x.1, x.2])
  | _, none => r.word
  | _, some _ => T.ofList ((p.project fields r).map Prod.snd)

def Plan.keyed (p : Plan) (r : Row) : List String :=
  match p.key with
  | none => []
  | some key => [(r.cell fields key).getD ""]

/-- The elements that are put out. -/
def Plan.words (p : Plan) (rows : List Row) : List String :=
  match p.format with
  | .flat => (p.kept T fields rows).flatMap fun r => (p.project fields r).map Prod.snd
  | _ => (p.kept T fields rows).flatMap fun r => p.keyed fields r ++ [p.item T fields r]

def Plan.answer (p : Plan) (rows : List Row) : String := T.ofList (p.words T fields rows)

/-- The last of the records that are kept under a key. -/
def Plan.lastUnder (p : Plan) (rows : List Row) (key k : String) : Option String :=
  ((p.kept T fields rows).reverse.find? fun r => r.cell fields key = some k).map
    (p.item T fields)

end Reference

/-- The command computes the reference, for lists, dictionaries and flat lists. What has a
key is, as a dictionary, the last record under each key. -/
structure Computes (T : Tcl) (renames : Bool) (ra : Uniform T) (words : List String)
    (o : Options) : Prop where
  result : (recordArrayHelper T words ra.word).toOption =
    (planOf T ra.fields renames o).map fun p => p.answer T ra.fields ra.rows
  last : ∀ p key, planOf T ra.fields renames o = some p → p.key = some key → ∀ k,
    dictGet k (p.words T ra.fields ra.rows) = p.lastUnder T ra.fields ra.rows key k

end Twapi.RecordArray
