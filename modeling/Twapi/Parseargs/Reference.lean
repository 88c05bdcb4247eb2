import Twapi.Parseargs.Model

/-!
What `parseargs` is to compute, without its loops.

* `split` — the arguments as options with their values and arguments that are kept, up
  to where the options end.
* `converted` — the values that a definition allows, and what is returned for them.
* `reference` — the result and the arguments that are left.
-/

namespace Twapi.Parseargs

section Reference

variable (T : Tcl)

/-- The name that a definition gives to its option. -/
def OptionDescriptor.optName (o : OptionDescriptor) : String :=
  String.ofList (o.name.toList.takeWhile (· ≠ '.'))

/-- An option as it is written. -/
def hyphen (name : String) : String := "-" ++ name

/-- Arguments that belong together: an option with its value, or what is kept. -/
structure Item where
  words : List String
  given : Option (String × String)
deriving DecidableEq

/-- An item before others. -/
def before (item : Item) (parts : Option (List Item × List String)) :
    Option (List Item × List String) :=
  parts.map fun p => (item :: p.1, p.2)

/-- The items and the arguments after the options. `stop` is whether the options end at an
argument that is none even if unknown options are kept. There is no result if an option is
unknown, or its value is missing. -/
def split (stop : Bool) (opts : List OptionDescriptor) (ignoreunknown : Bool) :
    (argv : List String) → Option (List Item × List String)
  | [] => some ([], [])
  | arg :: argv =>
    if arg = "-" ∨ arg = "--" then some ([], argv)
    else if !isHyphenated arg then
      if ignoreunknown && !stop then
        before ⟨[arg], none⟩ (split stop opts ignoreunknown argv)
      else some ([], arg :: argv)
    else
      match opts.find? fun o => hyphen o.optName = arg with
      | some o =>
        if o.type = .switch then
          before ⟨[arg], some (o.optName, "1")⟩ (split stop opts ignoreunknown argv)
        else
          match argv with
          | [] => none
          | value :: argv =>
            before ⟨[arg, value], some (o.optName, value)⟩
              (split stop opts ignoreunknown argv)
      | none =>
        if !ignoreunknown then none
        else
          match argv with
          | [] => some ([⟨[arg], none⟩], [])
          | next :: rest =>
            if isHyphenated next then
              before ⟨[arg], none⟩ (split stop opts ignoreunknown (next :: rest))
            else
              before ⟨[arg, next], none⟩ (split stop opts ignoreunknown rest)

def keptWords (items : List Item) : List String :=
  (items.filter fun item => item.given = none).flatMap Item.words

/-- The value of the last occurrence. -/
def lastGiven (name : String) (items : List Item) : Option String :=
  (items.filterMap fun item =>
    item.given.bind fun g => if g.1 = name then some g.2 else none).getLast?

/-- A value of a definition: the one given, the default, or the null default, `none`. An
option without any is left out. -/
def chosen (nulldefault : Bool) (items : List Item) (o : OptionDescriptor) :
    Option (Option String) :=
  match lastGiven o.optName items with
  | some value => some (some value)
  | none =>
    if o.type = .switch then some none
    else
      match o.def_value with
      | some value => some (some value)
      | none => if nulldefault then some none else none

/-- Whether one of the allowed values will do, if they are listed. -/
def allowed (o : OptionDescriptor) (p : String → Bool) : Bool :=
  match o.valid_values with
  | none => true
  | some values =>
    match T.elements values with
    | .error _ => false
    | .ok valid => valid.any p

/-- The value that a symbol stands for. -/
def mapped (o : OptionDescriptor) (value : String) : String :=
  match o.valid_values with
  | none => value
  | some values =>
    match T.elements values with
    | .error _ => value
    | .ok valid => (dictGet value valid).getD value

/-- What is returned for a value, if it is allowed. -/
def converted (o : OptionDescriptor) : Option String → Option String
  | none => some (if o.type = .any then "" else "0")
  | some value =>
    match o.type with
    | .int =>
      match T.toWideInt value with
      | none => none
      | some n => if allowed T o (fun v => T.toWideInt v = some n) then some value else none
    | .any => if allowed T o (fun v => T.lstrcmpA v value = 0) then some value else none
    | .sym =>
      match T.toWideInt (mapped T o value) with
      | none => none
      | some _ => some (mapped T o value)
    | .switch | .bool =>
      match T.toBoolean value with
      | none => none
      | some true => some (o.valid_values.getD "1")
      | some false => some "0"

def referenceName (hyphenated : Bool) (o : OptionDescriptor) : String :=
  if hyphenated then hyphen o.optName else o.optName

def referenceValues (flags : Flags) (items : List Item) (opts : List OptionDescriptor) :
    Option (List (String × String)) :=
  (opts.filterMap fun o => (chosen flags.nulldefault items o).map fun value => (o, value)).mapM
    fun ov => (converted T ov.1 ov.2).map fun value => (referenceName flags.hyphenated ov.1, value)

/-- The options with their values, and the arguments that are left. -/
def reference (stop : Bool) (flags : Flags) (opts : List OptionDescriptor) (argv : List String) :
    Option (List (String × String) × List String) := do
  let (items, rest) ← split stop opts flags.ignoreunknown argv
  let retP ← referenceValues T flags items opts
  if flags.maxleftover < rest.length then none else some (retP, keptWords items ++ rest)

end Reference

/-! ### Nothing is lost -/

/-- The items of a split with one more before them. -/
theorem before_eq_some {item : Item} {parts : Option (List Item × List String)}
    {items : List Item} {rest : List String} (h : before item parts = some (items, rest)) :
    ∃ later, parts = some (later, rest) ∧ items = item :: later := by
  obtain ⟨⟨later, rest'⟩, found, same⟩ := Option.map_eq_some_iff.mp h
  obtain ⟨rfl, rfl⟩ := Prod.mk.inj same
  exact ⟨later, found, rfl⟩

/-- Arguments that were split are an item, others, what ends the options, and the rest. -/
def Parted (argv : List String) (items : List Item) (rest : List String) : Prop :=
  ∃ ending, (ending = [] ∨ ending = ["-"] ∨ ending = ["--"]) ∧
    argv = items.flatMap Item.words ++ ending ++ rest

end Twapi.Parseargs
