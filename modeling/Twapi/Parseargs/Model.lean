import Mathlib.Tactic.Ring

/-!
`parseargs`, `Twapi_ParseargsObjCmd` of `base/parseargs.c`.

* `setParseargsOptFromAny` — the option definitions, as they are kept.
* `scan` — the loop over the arguments, with the array of values and the new list.
* `collect` — the loop over the definitions: defaults, types, allowed values.
* `parseargs` — the command.

Strings are as Tcl keeps them: their lengths are in bytes, and a character past the last
of them is what the memory holds there.
-/

namespace Twapi.Parseargs

/-! ### Tcl -/

/-- What is used of Tcl. A conversion that fails gives the message that it leaves. -/
structure Tcl where
  elements : String → Except String (List String)
  ofList : List String → String
  toInt : String → Except String Int
  toWideInt : String → Option Int
  toBoolean : String → Option Bool
  lstrcmpA : String → String → Int
  memory : List Char → Nat → Char
  elements_ofList : ∀ xs, elements (ofList xs) = .ok xs
  toBoolean_one : toBoolean "1" = some true

/-- The variables of an interpreter. -/
structure Vars (σ : Type) where
  get : σ → String → Except String String
  set : σ → String → String → Except String σ
  /-- What an assignment that fails leaves. -/
  failed : σ → String → String → σ
  /-- Whether two names are names of one variable. -/
  same : String → String → Bool

/-- Bytes of a character. A null character takes two. -/
def charSize (c : Char) : Nat := if c = '\x00' then 2 else c.utf8Size

def utfSize (cs : List Char) : Nat := (cs.map charSize).sum

/-- The first bytes of a string. -/
def takeBytes : Nat → List Char → List Char
  | _, [] => []
  | n, c :: cs => if charSize c ≤ n then c :: takeBytes (n - charSize c) cs else []

structure Error where
  text : String
  code : Option Nat
deriving DecidableEq

def twapiInvalidArgs : Nat := 1
def twapiExtraArgs : Nat := 3
def twapiBadArgCount : Nat := 4

/-! ### Definitions -/

inductive OptType where
  | any
  | bool
  | int
  | switch
  | sym
deriving DecidableEq

structure OptionDescriptor where
  /-- With the type. -/
  name : String
  def_value : Option String
  valid_values : Option String
  name_len : Nat
  type : OptType
  /-- Where there is none it is the null byte. -/
  first : Option Char
deriving DecidableEq

def typeOf (type : List Char) : Option OptType :=
  match String.ofList type with
  | "int" => some .int
  | "arg" => some .any
  | "bool" => some .bool
  | "switch" => some .switch
  | "sym" => some .sym
  | _ => none

section Command

variable (T : Tcl)

/-- The allowed values are looked at when they are given. -/
def validValuesOf (type : OptType) (values : String) : Except String String := do
  let valid ← T.elements values
  if valid = [] then .error "Empty validity list."
  else if type = .sym ∧ valid.length % 2 = 1 then
    .error "Dictionary must have even number of elements"
  else .ok values

/-- `unsigned short` -/
def shortOf (n : Nat) : Nat := n % 65536

def nameOf (name : String) : Except String OptionDescriptor :=
  let cs := name.toList
  match cs.dropWhile (· ≠ '.') with
  | [] => .ok ⟨name, none, none, shortOf (utfSize cs), .switch, cs.head?⟩
  | _ :: type =>
    let p := cs.takeWhile (· ≠ '.')
    if p = [] then .error ""
    else
      match typeOf type with
      | none => .error ""
      | some t => .ok ⟨name, none, none, shortOf (utfSize p), t, cs.head?⟩

def descriptorOf (spec : String) : Except String OptionDescriptor := do
  match ← T.elements spec with
  | [] => .error ""
  | [name] => nameOf name
  | [name, def_value] => do
      let opt ← nameOf name
      .ok { opt with def_value := some def_value }
  | name :: def_value :: values :: _ => do
      let opt ← nameOf name
      let valid_values ← validValuesOf T opt.type values
      .ok { opt with def_value := some def_value, valid_values := some valid_values }

def badDescriptor (spec before : String) : Error :=
  ⟨before ++ "Badly formed option descriptor: '" ++ spec ++ "'", some twapiInvalidArgs⟩

def setParseargsOptFromAny (optlist : String) : Except Error (List OptionDescriptor) :=
  match T.elements optlist with
  | .error e => .error ⟨e, none⟩
  | .ok specs => specs.mapM fun spec => (descriptorOf T spec).mapError (badDescriptor spec)

/-- The name without the type. -/
def OptionDescriptor.bareName (o : OptionDescriptor) : String :=
  String.ofList (takeBytes o.name_len o.name.toList)

/-! ### Flags -/

structure Flags where
  ignoreunknown : Bool
  nulldefault : Bool
  hyphenated : Bool
  setvars : Bool
  maxleftover : Int
deriving DecidableEq

/-- `INT_MAX` -/
def intMax : Int := 2147483647

def Flags.none : Flags := ⟨false, false, false, false, intMax⟩

def invalidArgs (text : String) : Error := ⟨text, some twapiInvalidArgs⟩

def parseFlags : List String → Flags → Except Error Flags
  | [], flags => .ok flags
  | s :: objs, flags =>
    if s = "-nulldefault" then parseFlags objs { flags with nulldefault := true }
    else if s = "-maxleftover" then
      match objs with
      | [] => .error (invalidArgs "Missing value for -maxleftover")
      | value :: objs =>
        match T.toInt value with
        | .error e => .error (invalidArgs e)
        | .ok n => parseFlags objs { flags with maxleftover := n }
    else if s = "-setvars" then parseFlags objs { flags with setvars := true }
    else if s = "-ignoreunknown" then parseFlags objs { flags with ignoreunknown := true }
    else if s = "-hyphenated" then parseFlags objs { flags with hyphenated := true }
    else .error (invalidArgs ("Extra argument or unknown option '" ++ s ++ "'"))

/-! ### Arguments -/

/-- Character `i` of a string that ends in a null character. -/
def charAt (cs : List Char) (i : Nat) : Char :=
  if i < cs.length then cs.getD i '\x00'
  else if i = cs.length then '\x00'
  else T.memory cs i

/-- Whether `Tcl_UtfNcmp` finds no difference. It counts characters. -/
def utfNcmp (cs ct : List Char) (numChars : Nat) : Bool :=
  (List.range numChars).all fun i => charAt T cs i = charAt T ct i

/-- Whether an argument, without its hyphen, is an option. -/
def OptionDescriptor.isNamed (o : OptionDescriptor) (argp : List Char) : Bool :=
  o.name_len = utfSize argp && o.first = argp.head? &&
    utfNcmp T o.name.toList argp (utfSize argp)

def unknownOption (opts : List OptionDescriptor) (badopt : String) : Error :=
  invalidArgs ("Invalid option '" ++ badopt ++ "'. Must be one of " ++
    ", ".intercalate (opts.map fun o => "-" ++ o.bareName))

def noValue (argp : String) : Error :=
  invalidArgs ("No value supplied for option '" ++ argp ++ "'")

def isHyphenated (arg : String) : Bool := arg.toList.head? = some '-'

/-- What the loop leaves: the value of each option, the arguments of the new list, and
those that were not looked at. -/
structure Scanned where
  valuesP : List (Option String)
  newargv : List String
  rest : List String
deriving DecidableEq

def scan (opts : List OptionDescriptor) (ignoreunknown : Bool) :
    (argv : List String) → (valuesP : List (Option String)) → (newargv : List String) →
    Except Error Scanned
  | [], valuesP, newargv => .ok ⟨valuesP, newargv, []⟩
  | arg :: argv, valuesP, newargv =>
    match arg.toList with
    | '-' :: argp =>
      if argp = [] ∨ argp = ['-'] then .ok ⟨valuesP, newargv, argv⟩
      else
        match opts.findIdx? fun o => o.isNamed T argp with
        | some j =>
          if (opts[j]?.map (·.type)) = some .switch then
            scan opts ignoreunknown argv (valuesP.set j (some "1")) newargv
          else
            match argv with
            | [] => .error (noValue arg)
            | value :: argv =>
              scan opts ignoreunknown argv (valuesP.set j (some value)) newargv
        | none =>
          if !ignoreunknown then .error (unknownOption opts arg)
          else
            match argv with
            | [] => .ok ⟨valuesP, newargv ++ [arg], []⟩
            | next :: rest =>
              -- The next argument is taken for its value, if it is no option.
              if isHyphenated next then
                scan opts ignoreunknown (next :: rest) valuesP (newargv ++ [arg])
              else scan opts ignoreunknown rest valuesP (newargv ++ [arg, next])
    | _ => .ok ⟨valuesP, newargv, arg :: argv⟩

/-! ### Values -/

def badValue (kind value : String) (o : OptionDescriptor) : Error :=
  ⟨kind ++ " value '" ++ value ++ "' specified for option '-" ++ o.bareName ++ "'.", none⟩

/-- The loop over the allowed integers. -/
def findWide (o : OptionDescriptor) (value : String) (wide : Int) :
    (validObjs : List String) → Except Error Unit
  | [] => .error (badValue "Invalid" value o)
  | valid :: validObjs =>
    match T.toWideInt valid with
    | none => .error (badValue "Non-integer enumeration" valid o)
    | some validWide => if validWide = wide then .ok () else findWide o value wide validObjs

/-- The loop over the allowed strings. -/
def findString (o : OptionDescriptor) (value : String) :
    (validObjs : List String) → Except Error Unit
  | [] => .error (badValue "Invalid" value o)
  | valid :: validObjs =>
    if T.lstrcmpA valid value = 0 then .ok () else findString o value validObjs

/-- `ObjGetElements` of the allowed values. -/
def validElements (values : String) : Except Error (List String) :=
  (T.elements values).mapError fun e => ⟨e, none⟩

/-- The last value of a key, in a list of keys and values. -/
def dictGet (key : String) : List String → Option String
  | k :: v :: rest =>
    match dictGet key rest with
    | some later => some later
    | none => if k = key then some v else none
  | _ => none

/-- A loop over the allowed values, if there are any. -/
def ifListed (o : OptionDescriptor) (p : List String → Except Error Unit) : Except Error Unit :=
  match o.valid_values with
  | none => .ok ()
  | some values => do
      let validObjs ← validElements T values
      p validObjs

/-- The integer that a value is. The null default is 0. -/
def wideOf (o : OptionDescriptor) : Option String → Except Error Int
  | none => .ok 0
  | some value =>
    match T.toWideInt value with
    | none => .error (badValue "Non-integer" value o)
    | some wide => .ok wide

/-- The value of a symbol. What is not in the dictionary stays. -/
def symValue (o : OptionDescriptor) (value : String) : Except Error String :=
  match o.valid_values with
  | none => .ok value
  | some values => do
      let validObjs ← validElements T values
      return (dictGet value validObjs).getD value

/-- The value of an option, once it is there. `none` is a value by `-nulldefault`. -/
def checkValue (o : OptionDescriptor) (valueP : Option String) : Except Error String :=
  match o.type with
  | .int => do
      let wide ← wideOf T o valueP
      ifListed T o (findWide T o (valueP.getD "") wide)
      return valueP.getD "0"
  | .any => do
      ifListed T o (findString T o (valueP.getD ""))
      return valueP.getD ""
  | .sym =>
    match valueP with
    | none => .ok "0"
    | some value => do
        let value ← symValue T o value
        match T.toWideInt value with
        | none => .error (badValue "Invalid" value o)
        | some _ => .ok value
  | .switch | .bool =>
    match valueP with
    | none => .ok "0"
    | some value =>
      match T.toBoolean value with
      | none => .error (badValue "Non-boolean" value o)
      | some true => .ok (o.valid_values.getD "1")
      | some false => .ok "0"

def resultName (hyphenated : Bool) (o : OptionDescriptor) : String :=
  if hyphenated then "-" ++ o.bareName else o.bareName

/-- The loop over the definitions, with the value that each was given. -/
def collect (flags : Flags) :
    List (OptionDescriptor × Option String) → Except Error (List (String × String))
  | [] => .ok []
  | (o, valueP) :: rest =>
    if o.type ≠ .switch ∧ valueP = none ∧ o.def_value = none ∧ !flags.nulldefault then
      collect flags rest
    else do
      -- A switch ignores the default.
      let value ← checkValue T o
        (if o.type = .switch then valueP else valueP.orElse fun _ => o.def_value)
      let retP ← collect flags rest
      return (resultName flags.hyphenated o, value) :: retP

/-! ### The command -/

variable {σ : Type} (V : Vars σ)

def extraArgs (rest : List String) : Error :=
  ⟨"Command has extra arguments specified: " ++ " ".intercalate rest, some twapiExtraArgs⟩

/-- `-setvars`. The values that are not set yet are freed with the arguments, should their
variable be one of these. -/
def setVars (argvVar : String) : List (String × String) → σ → Except Error Unit × σ
  | [], s => (.ok (), s)
  | (name, value) :: retP, s =>
    if V.same name argvVar then (.error ⟨"undefined", none⟩, s)
    else
      match V.set s name value with
      | .error e => (.error ⟨e, none⟩, V.failed s name value)
      | .ok t => setVars argvVar retP t

/-- The result or the variables, and the arguments that are left, last. -/
def deliver (flags : Flags) (argvVar : String) (retP : List (String × String))
    (newargv : List String) (s : σ) : Except Error (List (String × String)) × σ :=
  let r := if flags.setvars then setVars V argvVar retP s else (.ok (), s)
  match r with
  | (.error e, t) => (.error e, t)
  | (.ok (), t) =>
    match V.set t argvVar (T.ofList newargv) with
    | .error e => (.error ⟨e, none⟩, V.failed t argvVar (T.ofList newargv))
    | .ok u => (.ok (if flags.setvars then [] else retP), u)

/-- What comes before anything is changed: the flags, the result, and what is left. -/
def parse (argvVar optlist : String) (objs : List String) (s : σ) :
    Except Error (Flags × List (String × String) × List String) := do
  let opts ← setParseargsOptFromAny T optlist
  let flags ← parseFlags T objs .none
  let argvObj ← (V.get s argvVar).mapError fun e => ⟨e, none⟩
  let argv ← (T.elements argvObj).mapError fun e => ⟨e, none⟩
  let scanned ← scan T opts flags.ignoreunknown argv (opts.map fun _ => none) []
  let retP ← collect T flags (opts.zip scanned.valuesP)
  if flags.maxleftover < scanned.rest.length then .error (extraArgs scanned.rest)
  else .ok (flags, retP, scanned.newargv ++ scanned.rest)

def parseargs (argvVar optlist : String) (objs : List String) (s : σ) :
    Except Error (List (String × String)) × σ :=
  match parse T V argvVar optlist objs s with
  | .error e => (.error e, s)
  | .ok (flags, retP, newargv) => deliver T V flags argvVar retP newargv s

end Command

end Twapi.Parseargs
