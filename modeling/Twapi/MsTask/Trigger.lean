import Mathlib.Tactic.Ring
import Twapi.Lib.Results

/-!
Triggers of scheduled tasks: `ObjFromTASK_TRIGGER` and `ObjToTASK_TRIGGER` of
`mstask/mstask.c`, `itasktrigger_get_info` and `itasktrigger_configure` of `tcl/mstask.tcl`.

* `Tcl` — the numbers and booleans that strings stand for, and the order of `array get`.
* `TaskTrigger` — a TASK_TRIGGER of a type that is supported. Its size field is always that of
  the structure.
* `objFromTaskTrigger`, `objToTaskTrigger` — the functions in C. Fields of one kind are read and
  written alike.
* `getInfo`, `configure` — the commands. A trigger of the system is the structure that it was
  last set to.
-/

namespace Twapi.MsTask

abbrev WORD := BitVec 16

abbrev DWORD := BitVec 32

abbrev Text := List Char

inductive Error where
  | notInteger (s : Text)
  | outOfRange
  | notList
  | oddElements
  | badTypeFormat
  | unknownType
  | unknownField (name : String)
  | badOption (name : String)
  | badValue (name : String) (value : Text)
  | noSuchVariable (name : String)
deriving DecidableEq

/-! ### Tcl -/

def decimal : Int → Text
  | .ofNat n => Nat.toDigits 10 n
  | .negSucc n => '-' :: Nat.toDigits 10 (n + 1)

def weekNames : List String := ["first", "second", "third", "fourth", "last"]

structure Tcl where
  asWide : Text → Option Int
  asBoolean : Text → Option Bool
  asList : Text → Option (List Text)
  ofList : List Text → Text
  arrayGet : {α : Type} → List (String × α) → List (String × α)
  asWide_decimal : ∀ n : Int, -(2 ^ 63) ≤ n → n < 2 ^ 63 → asWide (decimal n) = some n
  asWide_hex : ∀ n : Nat, n < 2 ^ 63 → asWide ('0' :: 'x' :: Nat.toDigits 16 n) = some (n : Int)
  asWide_empty : asWide [] = none
  asWide_week : ∀ name ∈ weekNames, asWide name.toList = none
  asBoolean_true : asBoolean "true".toList = some true
  asBoolean_false : asBoolean "false".toList = some false
  arrayGet_perm : ∀ {α : Type} (l : List (String × α)), (arrayGet l).Perm l

/-- `format %0<width>d` -/
def format0d (width : Nat) : Int → Text
  | .ofNat n => (Nat.toDigits 10 n).leftpad width '0'
  | .negSucc n => '-' :: (Nat.toDigits 10 (n + 1)).leftpad (width - 1) '0'

/-- `format 0x%x` -/
def formatX (n : Int) : Text := '0' :: 'x' :: Nat.toDigits 16 (n % 2 ^ 32).toNat

/-- `scan $s %d` -/
def scanD (s : Text) : Text :=
  match s.dropWhile Char.isWhitespace with
  | [] => []
  | c :: cs =>
    let digits := (if c = '-' ∨ c = '+' then cs else c :: cs).takeWhile Char.isDigit
    if digits = [] then "{}".toList
    else
      let n := Nat.ofDigitChars 10 digits 0
      decimal (if c = '-' then -(n : Int) else n)

variable (T : Tcl)

/-- `ObjToInt`, and `ObjToLong` -/
def objToInt (s : Text) : Except Error Int :=
  match T.asWide s with
  | some n => if -(2 ^ 32) < n ∧ n < 2 ^ 32 then .ok (n.bmod (2 ^ 32)) else .error (.notInteger s)
  | none => .error (.notInteger s)

def objToWord (s : Text) : Except Error WORD := do
  let n ← objToInt T s
  if n < 0 ∨ 65535 < n then .error .outOfRange else .ok (BitVec.ofInt 16 n)

def objToDword (s : Text) : Except Error DWORD := do
  let n ← objToInt T s
  return BitVec.ofInt 32 n

/-- A value that is used as a list, or one that is not. -/
inductive Value where
  | text (s : Text)
  | list (ts : List Text)
deriving DecidableEq

def Value.string : Value → Text
  | .text s => s
  | .list ts => T.ofList ts

def Value.elements : Value → Except Error (List Text)
  | .text s =>
    match T.asList s with
    | some ts => .ok ts
    | none => .error .notList
  | .list ts => .ok ts

/-! ### `TASK_TRIGGER` -/

inductive WordField where
  | Reserved1
  | wBeginYear
  | wBeginMonth
  | wBeginDay
  | wEndYear
  | wEndMonth
  | wEndDay
  | wStartHour
  | wStartMinute
  | Reserved2
  | wRandomMinutesInterval
deriving DecidableEq

inductive DwordField where
  | MinutesDuration
  | MinutesInterval
  | rgFlags
deriving DecidableEq

/-- `TriggerType` with the member of `Type` that is used. -/
inductive TriggerType where
  | once
  | daily (DaysInterval : WORD)
  | weekly (WeeksInterval rgfDaysOfTheWeek : WORD)
  | monthlyDate (rgfDays : DWORD) (rgfMonths : WORD)
  | monthlyDOW (wWhichWeek rgfDaysOfTheWeek rgfMonths : WORD)
  | onIdle
  | atSystemStart
  | atLogon
deriving DecidableEq

structure TaskTrigger where
  words : WordField → WORD
  dwords : DwordField → DWORD
  type : TriggerType

inductive Field where
  | word (f : WordField)
  | dword (f : DwordField)
  | type
deriving DecidableEq

/-- In the order of `ObjFromTASK_TRIGGER`. -/
def fieldNames : List (String × Field) :=
  [("Reserved1", .word .Reserved1), ("wBeginYear", .word .wBeginYear),
    ("wBeginMonth", .word .wBeginMonth), ("wBeginDay", .word .wBeginDay),
    ("wEndYear", .word .wEndYear), ("wEndMonth", .word .wEndMonth), ("wEndDay", .word .wEndDay),
    ("wStartHour", .word .wStartHour), ("wStartMinute", .word .wStartMinute),
    ("MinutesDuration", .dword .MinutesDuration), ("MinutesInterval", .dword .MinutesInterval),
    ("rgFlags", .dword .rgFlags), ("type", .type), ("Reserved2", .word .Reserved2),
    ("wRandomMinutesInterval", .word .wRandomMinutesInterval)]

/-! ### `ObjFromTASK_TRIGGER` -/

abbrev Data := List (String × Value)

def objFromWord (w : WORD) : Text := decimal w.toNat

def objFromDword (d : DWORD) : Text := decimal d.toNat

def objFromType : TriggerType → List Text
  | .once => [decimal 0]
  | .daily DaysInterval => [decimal 1, objFromWord DaysInterval]
  | .weekly WeeksInterval rgfDaysOfTheWeek =>
    [decimal 2, objFromWord WeeksInterval, objFromWord rgfDaysOfTheWeek]
  | .monthlyDate rgfDays rgfMonths => [decimal 3, objFromDword rgfDays, objFromWord rgfMonths]
  | .monthlyDOW wWhichWeek rgfDaysOfTheWeek rgfMonths =>
    [decimal 4, objFromWord wWhichWeek, objFromWord rgfDaysOfTheWeek, objFromWord rgfMonths]
  | .onIdle => [decimal 5]
  | .atSystemStart => [decimal 6]
  | .atLogon => [decimal 7]

def TaskTrigger.value (t : TaskTrigger) : Field → Value
  | .word f => .text (objFromWord (t.words f))
  | .dword f => .text (objFromDword (t.dwords f))
  | .type => .list (objFromType t.type)

def objFromTaskTrigger (t : TaskTrigger) : Data :=
  fieldNames.map fun (name, field) => (name, t.value field)

/-- A list of names and values. -/
def flatten (data : Data) : List Value :=
  data.flatMap fun (name, value) => [.text name.toList, value]

/-! ### `ObjToTASK_TRIGGER` -/

/-- After `TwapiZeroMemory` -/
def TaskTrigger.zero : TaskTrigger := ⟨fun _ => 0, fun _ => 0, .once⟩

/-- A word among the elements of a type. -/
def typeWord (s : Text) : Except Error WORD := (objToWord T s).mapError fun _ => .badTypeFormat

def typeDword (s : Text) : Except Error DWORD := (objToDword T s).mapError fun _ => .badTypeFormat

/-- A type without members. -/
def bare (type : TriggerType) (rest : List Text) : Except Error TriggerType :=
  if rest = [] then .ok type else .error .badTypeFormat

def objToType : List Text → Except Error TriggerType
  | [] => .error .badTypeFormat
  | first :: rest => do
      let dval ← objToInt T first
      if dval = 0 then bare .once rest
      else if dval = 1 then
        match rest with
        | [days] => do return .daily (← typeWord T days)
        | _ => .error .badTypeFormat
      else if dval = 2 then
        match rest with
        | [weeks, days] => do return .weekly (← typeWord T weeks) (← typeWord T days)
        | _ => .error .badTypeFormat
      else if dval = 3 then
        match rest with
        | [days, months] => do return .monthlyDate (← typeDword T days) (← typeWord T months)
        | _ => .error .badTypeFormat
      else if dval = 4 then
        match rest with
        | [week, days, months] =>
          do return .monthlyDOW (← typeWord T week) (← typeWord T days) (← typeWord T months)
        | _ => .error .badTypeFormat
      else if dval = 5 then bare .onIdle rest
      else if dval = 6 then bare .atSystemStart rest
      else if dval = 7 then bare .atLogon rest
      else .error .unknownType

/-- One turn of the loop. -/
def setField (t : TaskTrigger) (name : String) (value : Value) : Except Error TaskTrigger :=
  match fieldNames.lookup name with
  | some (.word f) => do
      let w ← objToWord T (value.string T)
      return { t with words := Function.update t.words f w }
  | some (.dword f) => do
      let d ← objToDword T (value.string T)
      return { t with dwords := Function.update t.dwords f d }
  | some .type => do
      let elements ← value.elements T
      let type ← objToType T elements
      return { t with type := type }
  | none => .error (.unknownField name)

def setFields : List Value → TaskTrigger → Except Error TaskTrigger
  | name :: value :: rest, t => do
      let t ← setField T t (String.ofList (name.string T)) value
      setFields rest t
  | _, t => .ok t

def objToTaskTrigger (objv : List Value) : Except Error TaskTrigger :=
  if objv.length % 2 = 1 then .error .oddElements else setFields T objv .zero

/-! ### `itasktrigger_get_info` -/

/-- `$data(name)` -/
def get (data : Data) (name : String) : Except Error Value :=
  match data.lookup name with
  | some value => .ok value
  | none => .error (.noSuchVariable name)

/-- Where an integer is asked for. -/
def intOf (s : Text) : Except Error Int :=
  match T.asWide s with
  | some n => .ok n
  | none => .error (.notInteger s)

def getInt (data : Data) (name : String) : Except Error Int := do
  let value ← get data name
  intOf T (value.string T)

/-- `$data(rgFlags) & (1 << i)` -/
def hasBit (n : Int) (i : Nat) : Bool := (BitVec.ofInt 64 n).getLsbD i

def date (year month day : Int) : Text :=
  format0d 4 year ++ '-' :: format0d 2 month ++ '-' :: format0d 2 day

def time (hour minute : Int) : Text := format0d 2 hour ++ ':' :: format0d 2 minute

def boolText (b : Bool) : Text := (if b then "true" else "false").toList

/-- `lindex` -/
def nth (ts : List Text) (i : Nat) : Text := ts.getD i []

/-- `lindex` by the value of an element. -/
def weekName (n : Int) : Text :=
  if 0 ≤ n then ((weekNames[n.toNat]?).getD "").toList else []

/-- The options of a type. -/
def typeInfo (type : List Text) : Except Error (List (String × Text)) :=
  match String.ofList (nth type 0) with
  | "0" => .ok [("-type", "once".toList)]
  | "1" => .ok [("-type", "daily".toList), ("-period", nth type 1)]
  | "2" => do
      let weekdays ← intOf T (nth type 2)
      return [("-type", "weekly".toList), ("-period", nth type 1), ("-weekdays", formatX weekdays)]
  | "3" => do
      let daysofmonth ← intOf T (nth type 1)
      let months ← intOf T (nth type 2)
      return [("-type", "monthlydate".toList), ("-daysofmonth", formatX daysofmonth),
        ("-months", formatX months)]
  | "4" => do
      -- The element of the days, for the week, too.
      let weekdays ← intOf T (nth type 2)
      let months ← intOf T (nth type 3)
      return [("-type", "monthlydow".toList), ("-weekofmonth", weekName weekdays),
        ("-weekdays", formatX weekdays), ("-months", formatX months)]
  | "5" => .ok [("-type", "onidle".toList)]
  | "6" => .ok [("-type", "atsystemstart".toList)]
  | "7" => .ok [("-type", "atlogon".toList)]
  | _ => .ok []

def getDate (data : Data) (year month day : String) : Except Error Text := do
  return date (← getInt T data year) (← getInt T data month) (← getInt T data day)

/-- The end date, where there is one. -/
def getEndDate (data : Data) (rgFlags : Int) : Except Error Text :=
  if hasBit rgFlags 0 then getDate T data "wEndYear" "wEndMonth" "wEndDay" else .ok []

def getInfo (t : TaskTrigger) : Except Error (List (String × Text)) := do
  let data := objFromTaskTrigger t
  let begindate ← getDate T data "wBeginYear" "wBeginMonth" "wBeginDay"
  let starttime := time (← getInt T data "wStartHour") (← getInt T data "wStartMinute")
  let rgFlags ← getInt T data "rgFlags"
  let enddate ← getEndDate T data rgFlags
  let duration ← get data "MinutesDuration"
  let interval ← get data "MinutesInterval"
  let type ← get data "type"
  let typed ← typeInfo T (← type.elements T)
  return T.arrayGet ([("-begindate", begindate), ("-starttime", starttime), ("-enddate", enddate),
    ("-duration", duration.string T), ("-interval", interval.string T),
    ("-killatdurationend", boolText (hasBit rgFlags 1)),
    ("-disabled", boolText (hasBit rgFlags 2))] ++ typed)

/-! ### `itasktrigger_configure` -/

inductive OptType where
  | arg
  | int
  | bool
deriving DecidableEq

structure OptionDef where
  name : String
  type : OptType
  default : Option String
deriving DecidableEq

def optionDefs : List OptionDef :=
  [⟨"begindate", .arg, none⟩, ⟨"enddate", .arg, none⟩, ⟨"starttime", .arg, none⟩,
    ⟨"interval", .int, none⟩, ⟨"duration", .int, none⟩, ⟨"killatdurationend", .bool, none⟩,
    ⟨"disabled", .bool, none⟩, ⟨"type", .arg, none⟩, ⟨"weekofmonth", .int, none⟩,
    ⟨"period", .int, some "1"⟩, ⟨"weekdays", .int, some "0x7f"⟩,
    ⟨"daysofmonth", .int, some "0x7fffffff"⟩, ⟨"months", .int, some "0xfff"⟩]

/-- A value as it is returned, where it is of the type. -/
def checked (d : OptionDef) (value : Text) : Except Error Text :=
  match d.type with
  | .arg => .ok value
  | .int => if (T.asWide value).isSome then .ok value else .error (.badValue d.name value)
  | .bool =>
    match T.asBoolean value with
    | some b => .ok (if b then "1" else "0").toList
    | none => .error (.badValue d.name value)

/-- What an option is returned as: the last value given, or else the default. -/
def optionValue (args : List (String × Text)) (d : OptionDef) :
    Except Error (String × Option Text) :=
  match (args.reverse.lookup ("-" ++ d.name)).or (d.default.map String.toList) with
  | none => .ok (d.name, none)
  | some value => do
      let value ← checked T d value
      return (d.name, some value)

/-- `parseargs` of options that each have a value. -/
def parseargs (args : List (String × Text)) : Except Error (List (String × Option Text)) :=
  match args.find? fun arg => arg.1 ∉ optionDefs.map fun d => "-" ++ d.name with
  | some arg => .error (.badOption arg.1)
  | none => optionDefs.mapM (optionValue T args)

/-- `set data(name) value`, where it was set before. -/
def put (name : String) (value : Value) (data : Data) : Data :=
  data.map fun p => if p.1 = name then (name, value) else p

/-- `lassign`, and `scan` of each variable. -/
def lassign : (names : List String) → (parts : List Text) → Data → Data
  | [], _, data => data
  | name :: names, parts, data =>
    lassign names parts.tail (put name (.text (scanD (parts.headD []))) data)

/-- `setbits`, or `resetbits` -/
def changeBits (on : Bool) (mask : DWORD) (data : Data) : Except Error Data := do
  let bits := BitVec.ofInt 32 (← getInt T data "rgFlags")
  let bits := if on then bits ||| mask else bits &&& ~~~mask
  return put "rgFlags" (.text (decimal bits.toInt)) data

/-- `$opts(name)` -/
def opt (opts : List (String × Option Text)) (name : String) : Option Text :=
  (opts.lookup name).getD none

def need (opts : List (String × Option Text)) (name : String) : Except Error Text :=
  match opt opts name with
  | some value => .ok value
  | none => .error (.noSuchVariable name)

/-- A change that is made where the option was given. -/
def ifGiven (value : Option Text) (change : Text → Data → Except Error Data) (data : Data) :
    Except Error Data :=
  match value with
  | some value => change value data
  | none => .ok data

/-- `if {$value}`, of a value that `parseargs` returned. -/
def isOn (value : Text) : Bool := value = "1".toList

def setType (opts : List (String × Option Text)) (type : Text) (data : Data) :
    Except Error Data :=
  let typed := fun ts => put "type" (.list ts) data
  match String.ofList type with
  | "once" => .ok (typed [decimal 0])
  | "daily" => do return typed [decimal 1, ← need opts "period"]
  | "weekly" => do return typed [decimal 2, ← need opts "period", ← need opts "weekdays"]
  | "monthlydate" => do return typed [decimal 3, ← need opts "daysofmonth", ← need opts "months"]
  | "monthlydow" =>
    do return typed [decimal 4, ← need opts "weekofmonth", ← need opts "weekdays",
      ← need opts "months"]
  | "onidle" => .ok (typed [decimal 5])
  | "atsystemstart" => .ok (typed [decimal 6])
  | "atlogon" => .ok (typed [decimal 7])
  | _ => .ok data

def setEndDate (enddate : Text) (data : Data) : Except Error Data :=
  if enddate ≠ [] then do
    let data ← changeBits T true 1 data
    return lassign ["wEndYear", "wEndMonth", "wEndDay"] (enddate.splitOn '-') data
  else changeBits T false 1 data

/-- The trigger that is set. -/
def configure (t : TaskTrigger) (args : List (String × Text)) : Except Error TaskTrigger := do
  let opts ← parseargs T args
  let data := objFromTaskTrigger t
  let data ← ifGiven (opt opts "begindate") (fun begindate data =>
    .ok (lassign ["wBeginYear", "wBeginMonth", "wBeginDay"] (begindate.splitOn '-') data)) data
  let data ← ifGiven (opt opts "starttime") (fun starttime data =>
    .ok (lassign ["wStartHour", "wStartMinute"] (starttime.splitOn ':') data)) data
  let data ← ifGiven (opt opts "enddate") (setEndDate T) data
  let data ← ifGiven (opt opts "duration") (fun duration data =>
    .ok (put "MinutesDuration" (.text duration) data)) data
  let data ← ifGiven (opt opts "interval") (fun interval data =>
    .ok (put "MinutesInterval" (.text interval) data)) data
  let data ← ifGiven (opt opts "killatdurationend") (fun value => changeBits T (isOn value) 2) data
  let data ← ifGiven (opt opts "disabled") (fun value => changeBits T (isOn value) 4) data
  let data ← ifGiven (opt opts "type") (setType opts) data
  objToTaskTrigger T (flatten (T.arrayGet data))

end Twapi.MsTask
