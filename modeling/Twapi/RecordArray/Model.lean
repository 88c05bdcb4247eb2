import Mathlib.Tactic.Common

/-!
Queries on record arrays, `Twapi_RecordArrayHelperObjCmd` of `base/recordarray.c`.

* `parseOptions`, `compileFilter` — the options.
* `collect` — the one loop over the records: filter, key, slice and format.
* `recordArrayHelper` — the command.

A record array is a list of two elements, the names of the fields and the records. Values
are strings, and lists are what Tcl takes them for.
-/

namespace Twapi.RecordArray

/-! ### Tcl -/

/-- What is used of Tcl and Windows. A list that is none gives the message it leaves. -/
structure Tcl where
  elements : String → Except String (List String)
  ofList : List String → String
  toWideInt : String → Except String Int
  lstrcmpA : String → String → Int
  lstrcmpiA : String → String → Int
  stringCaseMatch : (s pat : String) → (nocase : Bool) → Bool
  elements_ofList : ∀ xs, elements (ofList xs) = .ok xs
  ofList_nil : ofList [] = ""

/-- The text that stands for the code is appended where there is one. -/
structure Error where
  text : String
  code : Option Nat
deriving DecidableEq

def twapiInvalidArgs : Nat := 1
def twapiInvalidData : Nat := 22

def tclError (text : String) : Error := ⟨text, none⟩

/-- `Tcl_GetIndexFromObj` with `TCL_EXACT` -/
def getIndex {α : Type} (table : List (String × α)) (what : String) (s : String) :
    Except Error α :=
  match table.lookup s with
  | some a => .ok a
  | none => .error (tclError ("bad " ++ what ++ " \"" ++ s ++ "\": must be " ++
      ", ".intercalate (table.map Prod.fst)))

/-! ### Options -/

inductive Format where
  | recordarray
  | flat
  | list
  | dict
deriving DecidableEq

def formats : List (String × Format) :=
  [("recordarray", .recordarray), ("flat", .flat), ("list", .list), ("dict", .dict)]

inductive Opt where
  | format
  | slice
  | filter
  | key
  | first
deriving DecidableEq

def opts : List (String × Opt) :=
  [("-format", .format), ("-slice", .slice), ("-filter", .filter), ("-key", .key),
   ("-first", .first)]

structure Options where
  format : Format
  sliceObj : Option String
  filterObj : Option String
  keyfieldObj : Option String
  first : Bool
deriving DecidableEq

def Options.none : Options := ⟨.recordarray, .none, .none, .none, false⟩

def missingValue (option : String) : Error :=
  ⟨"Missing value for option " ++ option, some twapiInvalidArgs⟩

/-- The loop over the words before the record array. -/
def parseOptions : List String → Options → Except Error Options
  | [], o => .ok o
  | word :: words, o =>
    match getIndex opts "option" word with
    | .error e => .error e
    | .ok .first => parseOptions words { o with first := true }
    | .ok opt =>
      match words with
      | [] => .error (missingValue word)
      | value :: words =>
        match opt with
        | .format =>
          match getIndex formats "format" value with
          | .error e => .error e
          | .ok format => parseOptions words { o with format := format }
        | .slice => parseOptions words { o with sliceObj := some value }
        | .filter => parseOptions words { o with filterObj := some value }
        | .key => parseOptions words { o with keyfieldObj := some value }
        | .first => parseOptions (value :: words) { o with first := true }

section Command

variable (T : Tcl)

/-- `ObjGetElements` -/
def objGetElements (s : String) : Except Error (List String) := (T.elements s).mapError tclError

/-- The position of a name in the list of fields. -/
def objToEnum (enumsObj nameObj : String) : Except Error Nat := do
  let objs ← objGetElements T enumsObj
  match objs.findIdx? fun name => nameObj = name with
  | some i => .ok i
  | none => .error (tclError ("Invalid enum \"" ++ nameObj ++ "\""))

/-! ### Filters -/

inductive FilterOp where
  | eq
  | ne
  | «match»
  | nomatch
  | eqInt
  | neInt
  | ltInt
  | leInt
  | gtInt
  | geInt
deriving DecidableEq

def filterOps : List (String × FilterOp) :=
  [("eq", .eq), ("ne", .ne), ("~", .match), ("!~", .nomatch), ("==", .eqInt), ("!=", .neInt),
   ("<", .ltInt), ("<=", .leInt), (">", .gtInt), (">=", .geInt)]

def FilterOp.isInt : FilterOp → Bool
  | .eqInt | .neInt | .ltInt | .leInt | .gtInt | .geInt => true
  | .eq | .ne | .match | .nomatch => false

structure Filter where
  filter_pos : Nat
  filter_op : FilterOp
  nocase : Bool
  negate : Bool
  string : String
  wide : Int
deriving DecidableEq

def invalidFilter : Error := ⟨"Invalid -filter argument value", some twapiInvalidArgs⟩

/-- Field, operator and operand, with or without `-nocase`. -/
def filterWords (elems : List String) : Except Error (String × String × String × Bool) :=
  match elems with
  | [name, op, operand] => .ok (name, op, operand, false)
  | [name, op, operand, nocase] =>
    if nocase = "-nocase" then .ok (name, op, operand, true) else .error invalidFilter
  | _ => .error invalidFilter

/-- The operand of a comparison of integers. -/
def wideOf (op : FilterOp) (operand : String) : Except Error Int :=
  if op.isInt then (T.toWideInt operand).mapError tclError else .ok 0

def compileFilter (fieldsObj elem : String) : Except Error Filter := do
  let elems ← objGetElements T elem
  let (name, op, operand, nocase) ← filterWords elems
  let pos ← objToEnum T fieldsObj name
  let op ← getIndex filterOps "operator" op
  let wide ← wideOf T op operand
  return ⟨pos, op, nocase, op = .ne || op = .nomatch, operand, wide⟩

/-- `lstrcmpA`, `lstrcmpiA`, `TwapiGlobCmp`, `TwapiGlobCmpCase`: 0 for equal. -/
def Filter.cmpfn (f : Filter) (s operand : String) : Int :=
  match f.filter_op with
  | .match | .nomatch => if T.stringCaseMatch s operand f.nocase then 0 else 1
  | _ => if f.nocase then T.lstrcmpiA s operand else T.lstrcmpA s operand

def Filter.cmpInt (f : Filter) (wide : Int) : Bool :=
  match f.filter_op with
  | .eqInt => wide = f.wide
  | .neInt => wide ≠ f.wide
  | .ltInt => wide < f.wide
  | .leInt => wide ≤ f.wide
  | .gtInt => wide > f.wide
  | .geInt => wide ≥ f.wide
  | .eq | .ne | .match | .nomatch => true

/-- Whether a value matches. What is not an integer does not match one. -/
def Filter.matches (f : Filter) (value : String) : Bool :=
  if f.filter_op.isInt then
    match T.toWideInt value with
    | .error _ => false
    | .ok wide => f.cmpInt wide
  else !((f.cmpfn T value f.string = 0) == f.negate)

def tooFew : Error := ⟨"too few values in record", some twapiInvalidData⟩

/-- `ObjListIndex`, where it is an error if there is no such element. -/
def objListIndex (rec : String) (pos : Nat) : Except Error String := do
  let values ← objGetElements T rec
  match values[pos]? with
  | some value => .ok value
  | none => .error tooFew

/-- The loop over the filters. -/
def matchesAll (rec : String) : List Filter → Except Error Bool
  | [] => .ok true
  | f :: filters => do
      let value ← objListIndex T rec f.filter_pos
      if f.matches T value then matchesAll rec filters else .ok false

/-! ### Records -/

/-- `TwapiTwineObjv` -/
def twineObjv : List String → List String → List String
  | a :: first, b :: second => a :: b :: twineObjv first second
  | _, _ => []

/-- `TwapiTwine`. The shorter list is filled with empty strings. -/
def twine (first second : List String) : List String :=
  let n := min first.length second.length
  twineObjv first second ++ (first.drop n).flatMap (fun a => [a, ""]) ++
    (second.drop n).flatMap fun b => ["", b]

structure Slice where
  slice_fields : List String
  slice_fieldindices : List Nat

/-- What is put out for a record. -/
def outputOf (format : Format) (fields : List String) (slice : Option Slice) (rec : String) :
    Except Error String :=
  match slice with
  | none =>
    if format = .dict then do
      let values ← objGetElements T rec
      return T.ofList (twine fields values)
    else .ok rec
  | some slice => do
      let values ← objGetElements T rec
      if values.length < fields.length then .error tooFew
      else
        let slice_values := slice.slice_fieldindices.map fun i => values.getD i ""
        if format = .dict then .ok (T.ofList (twineObjv slice.slice_fields slice_values))
        else .ok (T.ofList slice_values)

/-- The key that is put out before a record. -/
def keyWords (keyfield_pos : Option Nat) (rec : String) : Except Error (List String) :=
  match keyfield_pos with
  | none => .ok []
  | some pos => do
      let keyObj ← objListIndex T rec pos
      return [keyObj]

/-- The loop over the records. -/
def collect (format : Format) (fields : List String) (filters : List Filter)
    (slice : Option Slice) (keyfield_pos : Option Nat) (first : Bool) :
    (recs : List String) → Except Error (List String)
  | [] => .ok []
  | rec :: recs => do
      if ← matchesAll T rec filters then
        let key ← keyWords T keyfield_pos rec
        let out ← outputOf T format fields slice rec
        if first then .ok (key ++ [out])
        else do
          let output ← collect format fields filters slice keyfield_pos first recs
          return key ++ out :: output
      else collect format fields filters slice keyfield_pos first recs

/-! ### The command -/

/-- The key is ignored unless the records are put out as lists or dictionaries. -/
def keyOf (o : Options) (fieldsObj : String) : Except Error (Option Nat) :=
  match o.keyfieldObj with
  | none => .ok none
  | some key =>
    if o.format = .list ∨ o.format = .dict then do
      let pos ← objToEnum T fieldsObj key
      return some pos
    else .ok none

def filtersOf (o : Options) (fieldsObj : String) : Except Error (List Filter) :=
  match o.filterObj with
  | none => .ok []
  | some filterObj => do
      let filterElems ← objGetElements T filterObj
      filterElems.mapM fun elem => compileFilter T fieldsObj elem

def sliceOf (o : Options) (fieldsObj : String) : Except Error (Option Slice) :=
  match o.sliceObj with
  | none => .ok none
  | some sliceObj => do
      let slice_fields ← objGetElements T sliceObj
      let slice_fieldindices ← slice_fields.mapM fun name => objToEnum T fieldsObj name
      return some ⟨slice_fields, slice_fieldindices⟩

/-- `Tcl_ListObjAppendList` of all that was put out. -/
def appendLists (output : List String) : List String :=
  output.flatMap fun out => ((T.elements out).toOption).getD []

def resultOf (format : Format) (fieldsObj : String) (slice : Option Slice)
    (output : List String) : String :=
  match format with
  | .flat => T.ofList (appendLists T output)
  | .dict | .list => T.ofList output
  | .recordarray =>
    T.ofList [(slice.map fun s => T.ofList s.slice_fields).getD fieldsObj, T.ofList output]

/-- What is done once the options are compiled. -/
def queryRecords (o : Options) (fieldsObj recsObj : String) (keyfield_pos : Option Nat)
    (filters : List Filter) (slice : Option Slice) : Except Error String := do
  let recs ← objGetElements T recsObj
  if recs = [] then return ""
  else do
    let fields ← objGetElements T fieldsObj
    let output ← collect T o.format fields filters slice keyfield_pos o.first recs
    return resultOf T o.format fieldsObj slice output

def query (o : Options) (fieldsObj recsObj : String) : Except Error String := do
  let keyfield_pos ← keyOf T o fieldsObj
  let filters ← filtersOf T o fieldsObj
  let slice ← sliceOf T o fieldsObj
  queryRecords T o fieldsObj recsObj keyfield_pos filters slice

/-- `words` are the options. -/
def recordArrayHelper (words : List String) (ra : String) : Except Error String := do
  let o ← parseOptions words .none
  let raObj ← objGetElements T ra
  match raObj with
  | [] => return ""
  | [fieldsObj, recsObj] => if words = [] then return ra else query T o fieldsObj recsObj
  | _ => .error ⟨"Invalid recordarray format", some twapiInvalidData⟩

end Command

end Twapi.RecordArray
