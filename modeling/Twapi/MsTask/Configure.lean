import Mathlib.Data.List.TakeWhile
import Twapi.Lib.Hex
import Twapi.Lib.Table
import Twapi.MsTask.RoundTrip

/-!
The options of one trigger, for another one.

* `info` — what `itasktrigger_get_info` returns of a trigger (`getInfo_eq`).
* `parseargs_info` — `itasktrigger_configure` takes these options, but for the week of a month.
* `configure_info` — it then sets what `itasktrigger_get_info` shows.
* `taskTrigger_proper_iff` — both, and the way through the lists, exactly where the type has
  no week of a month.
-/

namespace Twapi.MsTask

open Lib List TaskTrigger

/-! ### What is shown of a trigger -/

def TaskTrigger.flag (t : TaskTrigger) (i : Nat) : Bool := (t.dwords .rgFlags).getLsbD i

def TaskTrigger.date (t : TaskTrigger) (year month day : WordField) : Text :=
  MsTask.date (t.words year).toNat (t.words month).toNat (t.words day).toNat

def typeOptions : TriggerType → List (String × Text)
  | .once => [("-type", "once".toList)]
  | .daily DaysInterval => [("-type", "daily".toList), ("-period", objFromWord DaysInterval)]
  | .weekly WeeksInterval rgfDaysOfTheWeek =>
    [("-type", "weekly".toList), ("-period", objFromWord WeeksInterval),
      ("-weekdays", formatX rgfDaysOfTheWeek.toNat)]
  | .monthlyDate rgfDays rgfMonths =>
    [("-type", "monthlydate".toList), ("-daysofmonth", formatX rgfDays.toNat),
      ("-months", formatX rgfMonths.toNat)]
  | .monthlyDOW _ rgfDaysOfTheWeek rgfMonths =>
    [("-type", "monthlydow".toList), ("-weekofmonth", weekName rgfDaysOfTheWeek.toNat),
      ("-weekdays", formatX rgfDaysOfTheWeek.toNat), ("-months", formatX rgfMonths.toNat)]
  | .onIdle => [("-type", "onidle".toList)]
  | .atSystemStart => [("-type", "atsystemstart".toList)]
  | .atLogon => [("-type", "atlogon".toList)]

def info (t : TaskTrigger) : List (String × Text) :=
  [("-begindate", t.date .wBeginYear .wBeginMonth .wBeginDay),
    ("-starttime", time (t.words .wStartHour).toNat (t.words .wStartMinute).toNat),
    ("-enddate", if t.flag 0 then t.date .wEndYear .wEndMonth .wEndDay else []),
    ("-duration", objFromDword (t.dwords .MinutesDuration)),
    ("-interval", objFromDword (t.dwords .MinutesInterval)),
    ("-killatdurationend", boolText (t.flag 1)), ("-disabled", boolText (t.flag 2))] ++
    typeOptions t.type

/-- A trigger goes through the lists as it is, and its options through another trigger. -/
structure Proper (T : Tcl) (t t' : TaskTrigger) : Prop where
  roundTrip : objToTaskTrigger T (flatten (objFromTaskTrigger t)) = .ok t
  configured : ∃ options t'', getInfo T t = .ok options ∧ configure T t' options = .ok t'' ∧
    getInfo T t'' = .ok options

variable {T : Tcl} {s t : TaskTrigger} {data : Data}

/-! ### `itasktrigger_get_info` -/

variable {args : List (String × Text)} {name : String} {d : OptionDef} {c sep : Char} {i n : Nat}

theorem get_objFrom (t : TaskTrigger) (field : Field) (named : (name, field) ∈ fieldNames) :
    get (objFromTaskTrigger t) name = .ok (t.value field) := by
  have nodup : ((objFromTaskTrigger t).map Prod.fst).Nodup := by
    rw [objFromTaskTrigger, map_map]
    exact show (fieldNames.map Prod.fst).Nodup by decide
  have mem : (name, t.value field) ∈ objFromTaskTrigger t :=
    mem_map.mpr ⟨(name, field), named, rfl⟩
  rw [get, lookup_of_mem nodup mem]

theorem getInt_word (t : TaskTrigger) (f : WordField) (named : (name, .word f) ∈ fieldNames) :
    getInt T (objFromTaskTrigger t) name = .ok (t.words f).toNat := by
  rw [getInt, get_objFrom t _ named]
  exact intOf_ofWord T (t.words f)

theorem getInt_dword (t : TaskTrigger) (f : DwordField) (named : (name, .dword f) ∈ fieldNames) :
    getInt T (objFromTaskTrigger t) name = .ok (t.dwords f).toNat := by
  rw [getInt, get_objFrom t _ named]
  exact intOf_ofDword T (t.dwords f)

theorem getDate_objFrom (t : TaskTrigger) {year month day : String} (y m d : WordField)
    (hy : (year, .word y) ∈ fieldNames) (hm : (month, .word m) ∈ fieldNames)
    (hd : (day, .word d) ∈ fieldNames) :
    getDate T (objFromTaskTrigger t) year month day = .ok (t.date y m d) := by
  rw [getDate, getInt_word t y hy, getInt_word t m hm, getInt_word t d hd]
  rfl

theorem hasBit_toNat (d : DWORD) (small : i < 32) : hasBit d.toNat i = d.getLsbD i := by
  rw [hasBit, BitVec.ofInt_natCast, BitVec.getLsbD_ofNat, BitVec.getLsbD]
  simp
  omega

theorem typeInfo_objFrom (type : TriggerType) :
    typeInfo T (objFromType type) = .ok (typeOptions type) := by
  have tag0 : String.ofList (decimal 0) = "0" := by decide
  have tag1 : String.ofList (decimal 1) = "1" := by decide
  have tag2 : String.ofList (decimal 2) = "2" := by decide
  have tag3 : String.ofList (decimal 3) = "3" := by decide
  have tag4 : String.ofList (decimal 4) = "4" := by decide
  have tag5 : String.ofList (decimal 5) = "5" := by decide
  have tag6 : String.ofList (decimal 6) = "6" := by decide
  have tag7 : String.ofList (decimal 7) = "7" := by decide
  cases type <;>
    simp [typeInfo, objFromType, nth, typeOptions, intOf_ofWord, intOf_ofDword, ok_bind, tag0, tag1,
      tag2, tag3, tag4, tag5, tag6, tag7]

theorem getEndDate_objFrom (t : TaskTrigger) :
    getEndDate T (objFromTaskTrigger t) (t.dwords .rgFlags).toNat =
      .ok (if t.flag 0 then t.date .wEndYear .wEndMonth .wEndDay else []) := by
  rw [getEndDate, getDate_objFrom t .wEndYear .wEndMonth .wEndDay (by decide)
    (by decide) (by decide), hasBit_toNat _ (by decide), flag]
  split <;> rfl

theorem getInfo_eq (t : TaskTrigger) : getInfo T t = .ok (T.arrayGet (info t)) := by
  have type : (t.value .type).elements T = .ok (objFromType t.type) := rfl
  rw [getInfo]
  simp only
  rw [getDate_objFrom t .wBeginYear .wBeginMonth .wBeginDay (by decide)
    (by decide) (by decide), ok_bind, getInt_word t .wStartHour (by decide), ok_bind,
    getInt_word t .wStartMinute (by decide), ok_bind,
    getInt_dword t .rgFlags (by decide), ok_bind, getEndDate_objFrom, ok_bind,
    get_objFrom t (.dword .MinutesDuration) (by decide), ok_bind,
    get_objFrom t (.dword .MinutesInterval) (by decide), ok_bind,
    get_objFrom t .type (by decide), ok_bind, type, ok_bind, typeInfo_objFrom, ok_bind,
    hasBit_toNat _ (by decide), hasBit_toNat _ (by decide)]
  rfl

/-! ### The options -/

/-- The options that a trigger has one of each. -/
theorem nodup_info (t : TaskTrigger) : ((info t).map Prod.fst).Nodup := by
  rw [info, map_append]
  cases t.type <;> simp only [typeOptions, map_cons, map_nil] <;> decide

/-- An option as `parseargs` returns it. -/
def shown (d : OptionDef) (value : Text) : Text :=
  if d.type = .bool then (if value = "true".toList then "1" else "0").toList else value

/-- An option that is defined, and its value is of the type. -/
def Fits (T : Tcl) (p : String × Text) : Prop :=
  ∃ d ∈ optionDefs, p.1 = "-" ++ d.name ∧ checked T d p.2 = .ok (shown d p.2)

theorem checked_int (int : d.type = .int) {value : Text} {n : Int} (isInt : T.asWide value = some n) :
    checked T d value = .ok (shown d value) := by
  rw [checked, shown, int, isInt]
  rfl

theorem checked_bool (bool : d.type = .bool) (b : Bool) :
    checked T d (boolText b) = .ok (shown d (boolText b)) := by
  rw [checked, shown, bool]
  cases b with
  | true =>
    rw [show boolText true = "true".toList from rfl]
    simp only [T.asBoolean_true]
    rfl
  | false =>
    rw [show boolText false = "false".toList from rfl]
    simp only [T.asBoolean_false]
    rfl

theorem asWide_formatX (small : n < 2 ^ 32) : T.asWide (formatX n) = some (n : Int) := by
  have same : ((n : Int) % 2 ^ 32).toNat = n := by omega
  rw [formatX, same, T.asWide_hex n (by omega)]

theorem asWide_ofWord (w : WORD) : T.asWide (objFromWord w) = some (w.toNat : Int) := by
  have small := w.isLt
  exact T.asWide_decimal _ (by omega) (by omega)

theorem asWide_ofDword (d : DWORD) : T.asWide (objFromDword d) = some (d.toNat : Int) := by
  have small := d.isLt
  exact T.asWide_decimal _ (by omega) (by omega)

/-- The options by their names and types. -/
def optionTypes : List (String × OptType) := optionDefs.map fun d => (d.name, d.type)

theorem fits_int (name : String) {value : Text} {n : Int} (listed : (name, .int) ∈ optionTypes)
    (isInt : T.asWide value = some n) : Fits T ("-" ++ name, value) := by
  obtain ⟨d, mem, same⟩ := mem_map.mp listed
  obtain ⟨rfl, type⟩ := Prod.mk.inj same
  exact ⟨d, mem, rfl, checked_int type isInt⟩

theorem fits_arg (name : String) {value : Text} (listed : (name, .arg) ∈ optionTypes) :
    Fits T ("-" ++ name, value) := by
  obtain ⟨d, mem, same⟩ := mem_map.mp listed
  obtain ⟨rfl, type⟩ := Prod.mk.inj same
  refine ⟨d, mem, rfl, ?_⟩
  rw [checked, shown, type]
  rfl

theorem fits_bool (name : String) {b : Bool} (listed : (name, .bool) ∈ optionTypes) :
    Fits T ("-" ++ name, boolText b) := by
  obtain ⟨d, mem, same⟩ := mem_map.mp listed
  obtain ⟨rfl, type⟩ := Prod.mk.inj same
  exact ⟨d, mem, rfl, checked_bool type b⟩

/-- Whether a type has a week of a month. -/
def TriggerType.hasWeek : TriggerType → Bool
  | .monthlyDOW _ _ _ => true
  | _ => false

variable {type : TriggerType}

theorem fits_typeOptions (plain : type.hasWeek = false) :
    ∀ p ∈ typeOptions type, Fits T p := by
  have word : ∀ w : WORD, w.toNat < 2 ^ 32 := fun w => Nat.lt_trans w.isLt (by decide)
  cases type with
  | once | onIdle | atSystemStart | atLogon =>
    simp only [typeOptions, forall_mem_cons]
    exact ⟨fits_arg "type" (by decide), fun _ mem => absurd mem not_mem_nil⟩
  | daily days =>
    simp only [typeOptions, forall_mem_cons]
    exact ⟨fits_arg "type" (by decide),
      fits_int "period" (by decide) (asWide_ofWord days),
      fun _ mem => absurd mem not_mem_nil⟩
  | weekly weeks days =>
    simp only [typeOptions, forall_mem_cons]
    exact ⟨fits_arg "type" (by decide),
      fits_int "period" (by decide) (asWide_ofWord weeks),
      fits_int "weekdays" (by decide) (asWide_formatX (word days)),
      fun _ mem => absurd mem not_mem_nil⟩
  | monthlyDate days months =>
    simp only [typeOptions, forall_mem_cons]
    exact ⟨fits_arg "type" (by decide),
      fits_int "daysofmonth" (by decide) (asWide_formatX days.isLt),
      fits_int "months" (by decide) (asWide_formatX (word months)),
      fun _ mem => absurd mem not_mem_nil⟩
  | monthlyDOW week days months => cases plain

theorem fits_info (plain : t.type.hasWeek = false) : ∀ p ∈ info t, Fits T p := by
  simp only [info, forall_mem_append, forall_mem_cons]
  exact ⟨⟨fits_arg "begindate" (by decide), fits_arg "starttime" (by decide),
    fits_arg "enddate" (by decide),
    fits_int "duration" (by decide) (asWide_ofDword _),
    fits_int "interval" (by decide) (asWide_ofDword _),
    fits_bool "killatdurationend" (by decide), fits_bool "disabled" (by decide),
    fun _ mem => absurd mem not_mem_nil⟩, fits_typeOptions plain⟩

/-- The value that an option comes to, of those of a trigger. -/
def asked (t : TaskTrigger) (d : OptionDef) : Option Text :=
  (((info t).lookup ("-" ++ d.name)).or (d.default.map String.toList)).map (shown d)

theorem checked_default (listed : d ∈ optionDefs) {value : String}
    (default : d.default = some value) : checked T d value.toList = .ok (shown d value.toList) := by
  have one : "1".toList = decimal 1 := by decide
  have days : "0x7f".toList = formatX 0x7F := by decide
  have all : "0x7fffffff".toList = formatX 0x7FFFFFFF := by decide
  have months : "0xfff".toList = formatX 0xFFF := by decide
  have each : (d.type = .int) ∧ value ∈ ["1", "0x7f", "0x7fffffff", "0xfff"] := by
    revert value
    revert d
    decide
  obtain ⟨int, mem⟩ := each
  simp only [mem_cons, not_mem_nil, or_false] at mem
  rcases mem with rfl | rfl | rfl | rfl
  · exact checked_int int (one ▸ T.asWide_decimal 1 (by decide) (by decide))
  · exact checked_int int (days ▸ asWide_formatX (n := 0x7F) (by decide))
  · exact checked_int int (all ▸ asWide_formatX (n := 0x7FFFFFFF) (by decide))
  · exact checked_int int (months ▸ asWide_formatX (n := 0xFFF) (by decide))

theorem optionValue_info (plain : t.type.hasWeek = false) (perm : args.Perm (info t))
    (listed : d ∈ optionDefs) :
    optionValue T args d = .ok (d.name, asked t d) := by
  have same : args.reverse.lookup ("-" ++ d.name) = (info t).lookup ("-" ++ d.name) :=
    (lookup_perm ((reverse_perm args).trans perm).symm (nodup_info t) _).symm
  rw [optionValue, asked, same]
  cases found : (info t).lookup ("-" ++ d.name) with
  | some value =>
    obtain ⟨d', listed', name, fits⟩ := fits_info (T := T) plain _ (mem_of_lookup found)
    have one : d = d' := by
      have each : ∀ d ∈ optionDefs, ∀ d' ∈ optionDefs, "-" ++ d.name = "-" ++ d'.name → d = d' := by
        decide
      exact each d listed d' listed' name
    subst one
    simp only [Option.some_or, Option.map_some]
    rw [fits]
    rfl
  | none =>
    cases default : d.default with
    | some value =>
      simp only [Option.map_some, Option.none_or]
      rw [checked_default listed default]
      rfl
    | none => rfl

theorem mapM_ok {α β ε : Type} {f : α → Except ε β} {g : α → β} {l : List α}
    (each : ∀ a ∈ l, f a = .ok (g a)) : l.mapM f = .ok (l.map g) := by
  induction l with
  | nil => rfl
  | cons a l ih =>
    rw [mapM_cons, each a mem_cons_self, ok_bind,
      ih fun b mem => each b (mem_cons_of_mem a mem)]
    rfl

theorem parseargs_info (plain : t.type.hasWeek = false) (perm : args.Perm (info t)) :
    parseargs T args = .ok (optionDefs.map fun d => (d.name, asked t d)) := by
  have known : args.find? (fun arg => arg.1 ∉ optionDefs.map fun d => "-" ++ d.name) = none := by
    rw [find?_eq_none]
    intro p mem
    obtain ⟨d, listed, name, -⟩ := fits_info (T := T) plain p (perm.mem_iff.mp mem)
    simp only [decide_not, Bool.not_eq_true', decide_eq_false_iff_not, not_not]
    exact mem_map.mpr ⟨d, listed, name.symm⟩
  rw [parseargs, known]
  exact mapM_ok fun d listed => optionValue_info plain perm listed

/-! ### Fields that are set -/

theorem Stands.congr {field : Field} {value : Value} (stands : Stands T s field value)
    (agree : Agree s t field) : Stands T t field value := by
  cases field with
  | word f => exact (stands : objToWord T (value.string T) = .ok (s.words f)).trans (congrArg _ agree)
  | dword f =>
    exact (stands : objToDword T (value.string T) = .ok (s.dwords f)).trans (congrArg _ agree)
  | type =>
    obtain ⟨ts, elements, read⟩ := stands
    exact ⟨ts, elements, read.trans (congrArg _ agree)⟩

theorem lists_put {field : Field} {value : Value} (lists : Lists T data s)
    (named : fieldNames.lookup name = some field) (stands : Stands T t field value)
    (kept : ∀ other, other ≠ field → Agree s t other) : Lists T (put name value data) t := by
  refine ⟨fun p mem => ?_, fun p listed => ?_⟩
  · obtain ⟨q, listed, rfl⟩ := mem_map.mp mem
    by_cases same : q.1 = name
    · rw [if_pos same]
      exact ⟨field, named, stands⟩
    · rw [if_neg same]
      obtain ⟨other, named', stands'⟩ := lists.stands q listed
      refine ⟨other, named', stands'.congr (kept other fun eq => same ?_)⟩
      have each : ∀ p ∈ fieldNames, ∀ q ∈ fieldNames, p.2 = q.2 → p.1 = q.1 := by decide
      exact each _ (mem_of_lookup named') _ (mem_of_lookup named) eq
  · have keys : (put name value data).map Prod.fst = data.map Prod.fst := by
      rw [put, map_map]
      refine map_congr_left fun q _ => ?_
      by_cases same : q.1 = name
      · simp [same]
      · simp [same]
    exact keys ▸ lists.whole p listed

def TaskTrigger.setWord (f : WordField) (w : WORD) (t : TaskTrigger) : TaskTrigger :=
  { t with words := Function.update t.words f w }

def TaskTrigger.setDword (f : DwordField) (d : DWORD) (t : TaskTrigger) : TaskTrigger :=
  { t with dwords := Function.update t.dwords f d }

theorem Lists.putWord {f : WordField} {value : Text} {w : WORD} (lists : Lists T data s)
    (named : fieldNames.lookup name = some (.word f)) (read : objToWord T value = .ok w) :
    Lists T (put name (.text value) data) (s.setWord f w) := by
  refine lists_put lists named ?_ fun other apart => ?_
  · simpa [Stands, setWord, Value.string] using read
  · cases other with
    | word g =>
      have ne : g ≠ f := fun same => apart (congrArg _ same)
      simp [Agree, setWord, ne]
    | dword _ => rfl
    | type => rfl

theorem Lists.putDword {f : DwordField} {value : Text} {d : DWORD} (lists : Lists T data s)
    (named : fieldNames.lookup name = some (.dword f)) (read : objToDword T value = .ok d) :
    Lists T (put name (.text value) data) (s.setDword f d) := by
  refine lists_put lists named ?_ fun other apart => ?_
  · simpa [Stands, setDword, Value.string] using read
  · cases other with
    | dword g =>
      have ne : g ≠ f := fun same => apart (congrArg _ same)
      simp [Agree, setDword, ne]
    | word _ => rfl
    | type => rfl

theorem Lists.putType {ts : List Text} (lists : Lists T data s) (read : objToType T ts = .ok type) :
    Lists T (put "type" (.list ts) data) { s with type := type } := by
  have named : fieldNames.lookup "type" = some .type := by decide
  refine lists_put lists named ⟨ts, rfl, read⟩ fun other apart => ?_
  cases other with
  | word _ => rfl
  | dword _ => rfl
  | type => exact absurd rfl apart

theorem get_of_lists (name : String) (field : Field) (lists : Lists T data s)
    (named : (name, field) ∈ fieldNames) : ∃ value, get data name = .ok value ∧
      Stands T s field value := by
  obtain ⟨p, mem, same⟩ := mem_map.mp (lists.whole _ named)
  have there : data.lookup name ≠ none := by
    rw [Ne, lookup_eq_none_iff]
    exact fun absent => bne_iff_ne.mp (absent p mem) same.symm
  obtain ⟨value, found⟩ := Option.ne_none_iff_exists'.mp there
  obtain ⟨field', named', stands⟩ := lists.stands _ (mem_of_lookup found)
  have nodup : (fieldNames.map Prod.fst).Nodup := by decide
  cases (lookup_of_mem nodup named).symm.trans named'
  exact ⟨value, by rw [get, found], stands⟩

/-- The bits of a number are those of the field that it is read as. -/
theorem ofInt_of_objToDword {value : Text} {d : DWORD} (read : objToDword T value = .ok d) :
    ∃ n, intOf T value = .ok n ∧ BitVec.ofInt 32 n = d := by
  obtain ⟨m, isInt, done⟩ := bind_eq_ok read
  cases done
  unfold objToInt at isInt
  unfold intOf
  cases wide : T.asWide value with
  | none =>
    rw [wide] at isInt
    cases isInt
  | some n =>
    rw [wide] at isInt
    simp only at isInt
    split at isInt
    · cases isInt
      exact ⟨n, rfl, (ofInt_bmod n).symm⟩
    · cases isInt

def TaskTrigger.setFlags (on : Bool) (mask : DWORD) (t : TaskTrigger) : TaskTrigger :=
  t.setDword .rgFlags
    (if on then t.dwords .rgFlags ||| mask else t.dwords .rgFlags &&& ~~~mask)

theorem changeBits_of_lists (on : Bool) (mask : DWORD) (lists : Lists T data s) :
    ∃ data', changeBits T on mask data = .ok data' ∧ Lists T data' (s.setFlags on mask) := by
  obtain ⟨value, found, read⟩ := get_of_lists "rgFlags" (.dword .rgFlags) lists (by decide)
  obtain ⟨n, isInt, bits⟩ := ofInt_of_objToDword read
  have named : fieldNames.lookup "rgFlags" = some (.dword .rgFlags) := by decide
  refine ⟨_, ?_, lists.putDword named (objToDword_toInt T _)⟩
  rw [changeBits, getInt, found, ok_bind, isInt, ok_bind, bits]
  rfl

/-! ### Dates and times -/

theorem format0d_natCast (width n : Nat) :
    format0d width n = List.replicate (width - (Nat.toDigits 10 n).length) '0' ++ Nat.toDigits 10 n :=
  rfl

theorem isDigit_format0d {width n : Nat} (mem : c ∈ format0d width n) :
    c.isDigit = true := by
  rw [format0d_natCast, mem_append] at mem
  rcases mem with zero | digit
  · rw [eq_of_mem_replicate zero]
    rfl
  · exact Nat.isDigit_of_mem_toDigits (by decide) (by decide) digit

theorem isDigit_ne {c d : Char} (digit : c.isDigit = true) (other : d.isDigit = false) : c ≠ d := by
  rintro rfl
  rw [digit] at other
  cases other

theorem not_isWhitespace_of_isDigit (digit : c.isDigit = true) :
    c.isWhitespace = false := by
  rw [Char.isWhitespace]
  have ne := fun d (other : Char.isDigit d = false) => isDigit_ne digit other
  simp [ne ' ' rfl, ne '\t' rfl, ne '\r' rfl, ne '\n' rfl]

/-- `scan` reads a number that was padded with zeros. -/
theorem scanD_format0d (width n : Nat) : scanD (format0d width n) = decimal n := by
  have value : Nat.ofDigitChars 10 (format0d width n) 0 = n := by
    rw [format0d_natCast, Nat.ofDigitChars_append, Nat.ofDigitChars_replicate_zero, Nat.mul_zero,
      Nat.ofDigitChars_ten_toDigits]
  have digits : ∀ c ∈ format0d width n, c.isDigit = true := fun c => isDigit_format0d
  have some_ : format0d width n ≠ [] := by
    rw [format0d_natCast]
    exact append_ne_nil_of_right_ne_nil _ Nat.toDigits_ne_nil
  generalize format0d width n = text at *
  obtain ⟨c, cs, rfl⟩ := exists_cons_of_ne_nil some_
  have first := digits c mem_cons_self
  have noSign : ¬ (c = '-' ∨ c = '+') :=
    not_or.mpr ⟨isDigit_ne first rfl, isDigit_ne first rfl⟩
  have all : (c :: cs).takeWhile Char.isDigit = c :: cs := takeWhile_eq_self_iff.mpr digits
  rw [scanD, dropWhile_cons_of_neg (by rw [not_isWhitespace_of_isDigit first]; decide)]
  simp only
  rw [if_neg noSign, all, if_neg (cons_ne_nil c cs), if_neg (isDigit_ne first rfl), value]

theorem splitOn_append {text : Text} (absent : sep ∉ text) (rest : Text) :
    (text ++ sep :: rest).splitOn sep = text :: rest.splitOn sep := by
  refine splitOnP_append_cons_of_forall_mem (p := (· == sep)) (fun c mem => ?_) sep
    (beq_self_eq_true sep) rest
  exact beq_false_of_ne fun same => absent (same ▸ mem)

theorem splitOn_self {text : Text} (absent : sep ∉ text) :
    text.splitOn sep = [text] := by
  rw [splitOn_eq_splitOnP]
  exact splitOnP_eq_singleton fun c mem => beq_false_of_ne fun same => absent (same ▸ mem)

theorem not_mem_format0d (other : sep.isDigit = false) (width n : Nat) :
    sep ∉ format0d width n := fun mem => isDigit_ne (isDigit_format0d mem) other rfl

theorem splitOn_date (year month day : Nat) :
    (date year month day).splitOn '-' = [format0d 4 year, format0d 2 month, format0d 2 day] := by
  rw [date, append_assoc, cons_append, splitOn_append (not_mem_format0d rfl 4 year),
    splitOn_append (not_mem_format0d rfl 2 month), splitOn_self (not_mem_format0d rfl 2 day)]

theorem splitOn_time (hour minute : Nat) :
    (time hour minute).splitOn ':' = [format0d 2 hour, format0d 2 minute] := by
  rw [time, splitOn_append (not_mem_format0d rfl 2 hour), splitOn_self (not_mem_format0d rfl 2 minute)]

theorem lists_date (year month day : String) (y m d : WordField) (lists : Lists T data s)
    (t : TaskTrigger) (hy : fieldNames.lookup year = some (.word y))
    (hm : fieldNames.lookup month = some (.word m)) (hd : fieldNames.lookup day = some (.word d)) :
    Lists T (lassign [year, month, day] ((t.date y m d).splitOn '-') data)
      (((s.setWord y (t.words y)).setWord m (t.words m)).setWord d (t.words d)) := by
  rw [TaskTrigger.date, splitOn_date]
  simp only [lassign, headD_cons, tail_cons, scanD_format0d]
  exact ((lists.putWord hy (objToWord_ofWord T _)).putWord hm (objToWord_ofWord T _)).putWord hd
    (objToWord_ofWord T _)

theorem lists_time (lists : Lists T data s) (t : TaskTrigger) :
    Lists T (lassign ["wStartHour", "wStartMinute"]
      ((time (t.words .wStartHour).toNat (t.words .wStartMinute).toNat).splitOn ':') data)
      ((s.setWord .wStartHour (t.words .wStartHour)).setWord .wStartMinute
        (t.words .wStartMinute)) := by
  rw [splitOn_time]
  simp only [lassign, headD_cons, tail_cons, scanD_format0d]
  exact (lists.putWord (by decide) (objToWord_ofWord T _)).putWord (by decide)
    (objToWord_ofWord T _)

theorem date_ne_nil (t : TaskTrigger) (y m d : WordField) : t.date y m d ≠ [] := by
  rw [TaskTrigger.date, date]
  exact append_ne_nil_of_right_ne_nil _ (cons_ne_nil _ _)

/-! ### `itasktrigger_configure` -/

/-- The options of a trigger, as `parseargs` returns them. -/
def optsOf (t : TaskTrigger) : List (String × Option Text) :=
  optionDefs.map fun d => (d.name, asked t d)

theorem opt_optsOf (d : OptionDef) (value : Text) (listed : d ∈ optionDefs)
    (given : ("-" ++ d.name, value) ∈ info t) : opt (optsOf t) d.name = some (shown d value) := by
  have nodup : ((optsOf t).map Prod.fst).Nodup := by
    rw [optsOf, map_map]
    exact show (optionDefs.map OptionDef.name).Nodup by decide
  have mem : (d.name, asked t d) ∈ optsOf t := mem_map.mpr ⟨d, listed, rfl⟩
  rw [opt, lookup_of_mem nodup mem, asked, lookup_of_mem (nodup_info t) given]
  rfl

/-- An option that is no boolean, as it was given. -/
theorem opt_plain (d : OptionDef) (value : Text) (listed : d ∈ optionDefs) (other : d.type ≠ .bool)
    (given : ("-" ++ d.name, value) ∈ info t) : opt (optsOf t) d.name = some value := by
  rw [opt_optsOf d value listed given, shown, if_neg other]

theorem need_optsOf (d : OptionDef) (value : Text) (listed : d ∈ optionDefs)
    (given : ("-" ++ d.name, value) ∈ typeOptions t.type) :
    need (optsOf t) d.name = .ok (shown d value) := by
  rw [need, opt_optsOf d value listed (mem_append_right _ given)]

def typeName : TriggerType → String
  | .once => "once"
  | .daily _ => "daily"
  | .weekly _ _ => "weekly"
  | .monthlyDate _ _ => "monthlydate"
  | .monthlyDOW _ _ _ => "monthlydow"
  | .onIdle => "onidle"
  | .atSystemStart => "atsystemstart"
  | .atLogon => "atlogon"

theorem objToInt_formatX (small : n < 2 ^ 32) :
    objToInt T (formatX n) = .ok ((n : Int).bmod (2 ^ 32)) := by
  rw [objToInt, asWide_formatX small]
  exact if_pos (by omega)

theorem typeWord_formatX (w : WORD) : typeWord T (formatX w.toNat) = .ok w := by
  have small := w.isLt
  have same := objToWord_ofWord T w
  rw [objToWord, objFromWord, objToInt_decimal T (by omega) (by omega)] at same
  rw [typeWord, objToWord, objToInt_formatX (by omega), same]
  rfl

theorem typeDword_formatX (d : DWORD) : typeDword T (formatX d.toNat) = .ok d := by
  rw [typeDword, objToDword, objToInt_formatX d.isLt, ok_bind, ofInt_bmod, BitVec.ofInt_natCast,
    BitVec.ofNat_toNat, BitVec.setWidth_eq]
  rfl

/-- The type that is set, with the options that belong to it. -/
theorem setType_optsOf (plain : t.type.hasWeek = false) (data : Data) :
    ∃ ts, setType (optsOf t) (typeName t.type).toList data = .ok (put "type" (.list ts) data) ∧
      objToType T ts = .ok t.type := by
  have period := fun value => need_optsOf (t := t) ⟨"period", .int, some "1"⟩ value (by decide)
  have weekdays := fun value =>
    need_optsOf (t := t) ⟨"weekdays", .int, some "0x7f"⟩ value (by decide)
  have daysofmonth := fun value =>
    need_optsOf (t := t) ⟨"daysofmonth", .int, some "0x7fffffff"⟩ value (by decide)
  have months := fun value => need_optsOf (t := t) ⟨"months", .int, some "0xfff"⟩ value (by decide)
  have tag := fun n low high => objToInt_tag T (n := n) low high
  cases type : t.type with
  | once =>
    exact ⟨[decimal 0], by simp [setType, typeName], by simp [objToType, tag, ok_bind, bare]⟩
  | onIdle =>
    exact ⟨[decimal 5], by simp [setType, typeName], by simp [objToType, tag, ok_bind, bare]⟩
  | atSystemStart =>
    exact ⟨[decimal 6], by simp [setType, typeName], by simp [objToType, tag, ok_bind, bare]⟩
  | atLogon =>
    exact ⟨[decimal 7], by simp [setType, typeName], by simp [objToType, tag, ok_bind, bare]⟩
  | daily days =>
    rw [type] at period
    have given := period (objFromWord days) (by simp [typeOptions])
    refine ⟨[decimal 1, objFromWord days], ?_, ?_⟩
    · simp [setType, typeName, given, shown]
    · simp [objToType, tag, ok_bind, typeWord_ofWord]
  | weekly weeks days =>
    rw [type] at period weekdays
    have given := period (objFromWord weeks) (by simp [typeOptions])
    have mask := weekdays (formatX days.toNat) (by simp [typeOptions])
    refine ⟨[decimal 2, objFromWord weeks, formatX days.toNat], ?_, ?_⟩
    · simp [setType, typeName, given, mask, ok_bind, shown]
    · simp [objToType, tag, ok_bind, typeWord_ofWord, typeWord_formatX]
  | monthlyDate days mask =>
    rw [type] at daysofmonth months
    have given := daysofmonth (formatX days.toNat) (by simp [typeOptions])
    have inYear := months (formatX mask.toNat) (by simp [typeOptions])
    refine ⟨[decimal 3, formatX days.toNat, formatX mask.toNat], ?_, ?_⟩
    · simp [setType, typeName, given, inYear, ok_bind, shown]
    · simp [objToType, tag, ok_bind, typeDword_formatX, typeWord_formatX]
  | monthlyDOW week days mask =>
    rw [type] at plain
    cases plain

theorem isOn_shown (bool : d.type = .bool) (b : Bool) :
    isOn (shown d (boolText b)) = b := by
  rw [shown, if_pos bool]
  cases b <;> decide

/-- What the end date of one trigger makes of another. -/
def TaskTrigger.endAs (t s : TaskTrigger) : TaskTrigger :=
  if t.flag 0 then
    (((s.setFlags true 1).setWord .wEndYear (t.words .wEndYear)).setWord .wEndMonth
      (t.words .wEndMonth)).setWord .wEndDay (t.words .wEndDay)
  else s.setFlags false 1

theorem setEndDate_of_lists (lists : Lists T data s) (t : TaskTrigger) :
    ∃ data', setEndDate T (if t.flag 0 then t.date .wEndYear .wEndMonth .wEndDay else []) data =
      .ok data' ∧ Lists T data' (t.endAs s) := by
  unfold setEndDate TaskTrigger.endAs
  split
  · obtain ⟨data₁, changed, lists₁⟩ := changeBits_of_lists true 1 lists
    rw [if_pos (date_ne_nil t _ _ _), changed]
    exact ⟨_, rfl, lists_date _ _ _ _ _ _ lists₁ t (by decide) (by decide) (by decide)⟩
  · obtain ⟨data₁, changed, lists₁⟩ := changeBits_of_lists false 1 lists
    exact ⟨data₁, changed, lists₁⟩

/-- The trigger that is set: all that is shown of one, and the rest of the other. -/
def TaskTrigger.configured (t t' : TaskTrigger) : TaskTrigger :=
  let begun := ((t'.setWord .wBeginYear (t.words .wBeginYear)).setWord .wBeginMonth
    (t.words .wBeginMonth)).setWord .wBeginDay (t.words .wBeginDay)
  let started := (begun.setWord .wStartHour (t.words .wStartHour)).setWord .wStartMinute
    (t.words .wStartMinute)
  let timed := ((t.endAs started).setDword .MinutesDuration (t.dwords .MinutesDuration)).setDword
    .MinutesInterval (t.dwords .MinutesInterval)
  { (timed.setFlags (t.flag 1) 2).setFlags (t.flag 2) 4 with type := t.type }

theorem named_duration :
    fieldNames.lookup "MinutesDuration" = some (.dword .MinutesDuration) := by decide

theorem named_interval :
    fieldNames.lookup "MinutesInterval" = some (.dword .MinutesInterval) := by decide

theorem configure_eq (plain : t.type.hasWeek = false) (t' : TaskTrigger) (perm : args.Perm (info t)) :
    configure T t' args = .ok (t.configured t') := by
  have begindate : opt (optsOf t) "begindate" = some (t.date .wBeginYear .wBeginMonth .wBeginDay) :=
    opt_plain ⟨"begindate", .arg, none⟩ _ (by decide) (by decide) (by simp [info])
  have starttime : opt (optsOf t) "starttime" =
      some (time (t.words .wStartHour).toNat (t.words .wStartMinute).toNat) :=
    opt_plain ⟨"starttime", .arg, none⟩ _ (by decide) (by decide) (by simp [info])
  have enddate : opt (optsOf t) "enddate" =
      some (if t.flag 0 then t.date .wEndYear .wEndMonth .wEndDay else []) :=
    opt_plain ⟨"enddate", .arg, none⟩ _ (by decide) (by decide) (by simp [info])
  have duration : opt (optsOf t) "duration" = some (objFromDword (t.dwords .MinutesDuration)) :=
    opt_plain ⟨"duration", .int, none⟩ _ (by decide) (by decide) (by simp [info])
  have interval : opt (optsOf t) "interval" = some (objFromDword (t.dwords .MinutesInterval)) :=
    opt_plain ⟨"interval", .int, none⟩ _ (by decide) (by decide) (by simp [info])
  have kill : opt (optsOf t) "killatdurationend" =
      some (shown ⟨"killatdurationend", .bool, none⟩ (boolText (t.flag 1))) :=
    opt_optsOf ⟨"killatdurationend", .bool, none⟩ _ (by decide) (by simp [info])
  have disabled : opt (optsOf t) "disabled" =
      some (shown ⟨"disabled", .bool, none⟩ (boolText (t.flag 2))) :=
    opt_optsOf ⟨"disabled", .bool, none⟩ _ (by decide) (by simp [info])
  have type : opt (optsOf t) "type" = some (typeName t.type).toList :=
    opt_plain ⟨"type", .arg, none⟩ _ (by decide) (by decide)
      (mem_append_right _ (by cases t.type <;> simp [typeOptions, typeName]))
  -- Each option in turn, with the trigger that the array stands for after it.
  have begun := lists_date "wBeginYear" "wBeginMonth" "wBeginDay" .wBeginYear .wBeginMonth
    .wBeginDay (lists_objFrom (T := T) t') t (by decide) (by decide) (by decide)
  obtain ⟨data₁, ended, lists₁⟩ := setEndDate_of_lists (lists_time begun t) t
  have lists₂ := (lists₁.putDword named_duration
    (objToDword_ofDword T (t.dwords .MinutesDuration))).putDword named_interval
    (objToDword_ofDword T (t.dwords .MinutesInterval))
  obtain ⟨data₂, killed, lists₃⟩ := changeBits_of_lists (t.flag 1) 2 lists₂
  obtain ⟨data₃, off, lists₄⟩ := changeBits_of_lists (t.flag 2) 4 lists₃
  obtain ⟨ts, typed, read⟩ := setType_optsOf (T := T) plain data₃
  have parsed : parseargs T args = .ok (optsOf t) := parseargs_info plain perm
  rw [configure, parsed, ok_bind]
  simp only [ifGiven, begindate, starttime, enddate, duration, interval, kill, disabled,
    type, ok_bind, ended, isOn_shown, killed, off, typed]
  exact objToTaskTrigger_of_lists ((lists₄.putType read).perm (T.arrayGet_perm _))

/-! ### What is shown afterwards -/

theorem flag_setFlags (s : TaskTrigger) (on : Bool) (mask : DWORD) (small : i < 32) :
    (s.setFlags on mask).flag i = if mask.getLsbD i then on else s.flag i := by
  rw [flag, setFlags, setDword, flag]
  simp only [Function.update_self]
  cases on with
  | true =>
    rw [if_pos rfl, BitVec.getLsbD_or]
    cases mask.getLsbD i <;> simp
  | false =>
    rw [if_neg (by decide), BitVec.getLsbD_and, BitVec.getLsbD_not]
    cases mask.getLsbD i <;> simp [small]

theorem flag_endAs (s : TaskTrigger) : (t.endAs s).flag 0 = t.flag 0 := by
  unfold TaskTrigger.endAs
  split
  · rename_i ends
    exact (flag_setFlags s true 1 (by decide)).trans ends.symm
  · rename_i never
    exact (flag_setFlags s false 1 (by decide)).trans (Bool.eq_false_iff.mpr never).symm

theorem words_endAs (s : TaskTrigger) {f : WordField}
    (other : f ≠ .wEndYear ∧ f ≠ .wEndMonth ∧ f ≠ .wEndDay) : (t.endAs s).words f = s.words f := by
  unfold TaskTrigger.endAs
  split
  · simp [setWord, setFlags, setDword, other]
  · rfl

/-- The end date, where there is one. -/
theorem date_endAs (s : TaskTrigger) (ends : t.flag 0 = true) :
    (t.endAs s).date .wEndYear .wEndMonth .wEndDay = t.date .wEndYear .wEndMonth .wEndDay := by
  simp [TaskTrigger.endAs, TaskTrigger.date, TaskTrigger.setWord, ends]

theorem flag_configured (t t' : TaskTrigger) (shown : i < 3) :
    (t.configured t').flag i = t.flag i := by
  match i, shown with
  | 0, _ =>
    refine (flag_setFlags _ _ 4 (by decide)).trans ((flag_setFlags _ _ 2 (by decide)).trans ?_)
    exact flag_endAs _
  | 1, _ => exact (flag_setFlags _ _ 4 (by decide)).trans (flag_setFlags _ _ 2 (by decide))
  | 2, _ => exact flag_setFlags _ _ 4 (by decide)

theorem info_configured (t t' : TaskTrigger) : info (t.configured t') = info t := by
  have begun : (t.configured t').date .wBeginYear .wBeginMonth .wBeginDay =
      t.date .wBeginYear .wBeginMonth .wBeginDay := by
    unfold TaskTrigger.date
    change MsTask.date ((t.endAs _).words _).toNat ((t.endAs _).words _).toNat
      ((t.endAs _).words _).toNat = _
    rw [words_endAs _ (by decide), words_endAs _ (by decide), words_endAs _ (by decide)]
    simp [setWord]
  have hour : (t.configured t').words .wStartHour = t.words .wStartHour := by
    refine (words_endAs _ (by decide)).trans ?_
    simp [setWord]
  have minute : (t.configured t').words .wStartMinute = t.words .wStartMinute := by
    refine (words_endAs _ (by decide)).trans ?_
    simp [setWord]
  have ends : (if t.flag 0 then (t.configured t').date .wEndYear .wEndMonth .wEndDay else []) =
      if t.flag 0 then t.date .wEndYear .wEndMonth .wEndDay else [] := by
    split
    · rename_i flag
      exact date_endAs _ flag
    · rfl
  have duration : (t.configured t').dwords .MinutesDuration = t.dwords .MinutesDuration := by
    simp [configured, setFlags, setDword]
  have interval : (t.configured t').dwords .MinutesInterval = t.dwords .MinutesInterval := by
    simp [configured, setFlags, setDword]
  have type : (t.configured t').type = t.type := rfl
  unfold info
  rw [begun, hour, minute, flag_configured t t' (by decide : 0 < 3),
    flag_configured t t' (by decide : 1 < 3), flag_configured t t' (by decide : 2 < 3), ends,
    duration, interval, type]

/-! ### The week of a month -/

theorem asWide_weekName (n : Nat) : T.asWide (weekName n) = none := by
  rw [weekName, if_pos (Int.natCast_nonneg n), Int.toNat_natCast]
  cases found : weekNames[n]? with
  | none => exact T.asWide_empty
  | some name => exact T.asWide_week name (mem_of_getElem? found)

theorem mapM_error {α β ε : Type} {f : α → Except ε β} {l : List α} {a : α} {e : ε} (mem : a ∈ l)
    (bad : f a = .error e) : ∃ e', l.mapM f = .error e' := by
  induction l with
  | nil => cases mem
  | cons b l ih =>
    rw [mapM_cons]
    cases first : f b with
    | error e' => exact ⟨e', rfl⟩
    | ok c =>
      rcases mem_cons.mp mem with rfl | mem
      · cases bad.symm.trans first
      · obtain ⟨e', failed⟩ := ih mem
        rw [ok_bind, failed]
        exact ⟨e', rfl⟩

/-- The name of a week is no integer. -/
theorem configure_error (week : t.type.hasWeek = true) (t' : TaskTrigger)
    (perm : args.Perm (info t)) :
    ∃ e, configure T t' args = .error e := by
  suffices parsed : ∃ e, parseargs T args = .error e by
    obtain ⟨e, failed⟩ := parsed
    exact ⟨e, by rw [configure, failed]; rfl⟩
  unfold parseargs
  split
  · exact ⟨_, rfl⟩
  · cases type : t.type with
    | monthlyDOW w days months =>
      have given : ("-weekofmonth", weekName days.toNat) ∈ info t :=
        mem_append_right _ (by simp [type, typeOptions])
      have same : args.reverse.lookup "-weekofmonth" = some (weekName days.toNat) :=
        (lookup_perm ((reverse_perm args).trans perm).symm (nodup_info t) _).symm.trans
          (lookup_of_mem (nodup_info t) given)
      have bad : optionValue T args ⟨"weekofmonth", .int, none⟩ =
          .error (.badValue "weekofmonth" (weekName days.toNat)) := by
        unfold optionValue
        have name : "-" ++ "weekofmonth" = "-weekofmonth" := rfl
        simp only [name, same, Option.some_or, checked, asWide_weekName]
        rfl
      exact mapM_error (by decide) bad
    | _ =>
      rw [type] at week
      cases week

theorem not_proper (week : t.type.hasWeek = true) (t' : TaskTrigger) : ¬ Proper T t t' := by
  rintro ⟨-, options, t'', shows, set, -⟩
  rw [getInfo_eq] at shows
  cases shows
  obtain ⟨e, failed⟩ := configure_error (T := T) week t' (T.arrayGet_perm (info t))
  cases failed.symm.trans set

/-- **Task triggers**: a trigger goes through the lists as it is; and what is shown of it is
taken by another one, which then shows the same, exactly where its type has no week of a month. -/
theorem taskTrigger_proper_iff (T : Tcl) (t t' : TaskTrigger) :
    Proper T t t' ↔ t.type.hasWeek = false := by
  constructor
  · intro proper
    cases week : t.type.hasWeek with
    | false => rfl
    | true => exact absurd proper (not_proper week t')
  · intro plain
    refine ⟨objToTaskTrigger_objFrom t, _, t.configured t', getInfo_eq t,
      configure_eq plain t' (T.arrayGet_perm (info t)), ?_⟩
    rw [getInfo_eq, info_configured]

/-! ### Integers -/

def digitsOf (ds : Text) : Option Nat :=
  if ds ≠ [] ∧ ds.all Char.isDigit then some (Nat.ofDigitChars 10 ds 0) else none

/-- Integers in decimal and in hexadecimal. -/
def integerOf : Text → Option Int
  | '-' :: ds => (digitsOf ds).map fun n => -(n : Int)
  | '0' :: 'x' :: hs => (hexNumber (hs.map Char.toUpper)).map Int.ofNat
  | ds => (digitsOf ds).map Int.ofNat

theorem digitsOf_toDigits (n : Nat) : digitsOf (Nat.toDigits 10 n) = some n := by
  have all : (Nat.toDigits 10 n).all Char.isDigit = true :=
    all_eq_true.mpr fun _ => Nat.isDigit_of_mem_toDigits (by decide) (by decide)
  rw [digitsOf, if_pos ⟨Nat.toDigits_ne_nil, all⟩, Nat.ofDigitChars_ten_toDigits]

theorem integerOf_digits {ds : Text} (digits : ∀ c ∈ ds, c.isDigit = true) :
    integerOf ds = (digitsOf ds).map Int.ofNat := by
  unfold integerOf
  split
  · exact absurd (digits '-' mem_cons_self) (by decide)
  · exact absurd (digits 'x' (mem_cons_of_mem _ mem_cons_self)) (by decide)
  · rfl

theorem integerOf_decimal (n : Int) : integerOf (decimal n) = some n := by
  cases n with
  | ofNat n =>
    have digits := fun c (mem : c ∈ Nat.toDigits 10 n) =>
      Nat.isDigit_of_mem_toDigits (by decide) (by decide) mem
    rw [decimal, integerOf_digits digits, digitsOf_toDigits]
    rfl
  | negSucc n =>
    rw [decimal, integerOf, digitsOf_toDigits]
    rfl

theorem integerOf_hex (n : Nat) : integerOf ('0' :: 'x' :: Nat.toDigits 16 n) = some (n : Int) := by
  have fits := ((toDigits_eq n).2 (hexLength n) (length_pos_iff.mpr Nat.toDigits_ne_nil)).mp
    (Nat.le_refl _)
  rw [integerOf, (toDigits_eq n).1, hexNumber_hexDigits, Nat.mod_eq_of_lt fits]
  rfl

def sampleTcl : Tcl where
  asWide := integerOf
  asBoolean s :=
    if s = "true".toList then some true else if s = "false".toList then some false else none
  asList s := if s = [] then some [] else none
  ofList ts := [' '].intercalate ts
  arrayGet l := l
  asWide_decimal n _ _ := integerOf_decimal n
  asWide_hex n _ := integerOf_hex n
  asWide_empty := by decide
  asWide_week := by decide
  asBoolean_true := by decide
  asBoolean_false := by decide
  arrayGet_perm l := .refl l

/-- The second Tuesday of every month -/
def secondTuesday : TaskTrigger where
  words
    | .wBeginYear => 2024
    | .wBeginMonth => 2
    | .wBeginDay => 29
    | .wStartHour => 9
    | _ => 0
  dwords _ := 0
  type := .monthlyDOW 2 4 0xFFF

theorem secondTuesday_not_proper : ¬ Proper sampleTcl secondTuesday .zero :=
  not_proper (by decide) .zero

end Twapi.MsTask
