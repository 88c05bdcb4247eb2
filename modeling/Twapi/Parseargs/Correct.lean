import Twapi.Parseargs.Scan

/-!
`parseargs` computes the reference.

* `checkValue_eq`, `collect_eq_values` — the loop over the definitions.
* `parse_eq` — the result and the arguments that are left.
* `parseargs_eq_reference` — the command.
-/

namespace Twapi.Parseargs

open Lib List Option

section Values

variable {T : Tcl}

/-! ### Values -/

variable {o : OptionDescriptor}

theorem findWide_ok {value : String} {n : Int} {valid : List String}
    (integers : ∀ v ∈ valid, ∃ m, T.toWideInt v = some m) :
    (findWide T o value n valid).toOption =
      if valid.any fun v => T.toWideInt v = some n then some () else none := by
  induction valid with
  | nil => rfl
  | cons v valid ih =>
    obtain ⟨m, isInt⟩ := integers v mem_cons_self
    have later := ih fun u mem => integers u (mem_cons_of_mem v mem)
    simp only [findWide, isInt, any_cons, some.injEq]
    by_cases same : m = n
    · simp [same, Except.toOption]
    · simp [same, later]

theorem findString_ok {value : String} (valid : List String) :
    (findString T o value valid).toOption =
      if valid.any fun v => T.lstrcmpA v value = 0 then some () else none := by
  induction valid with
  | nil => rfl
  | cons v valid ih =>
    simp only [findString, any_cons]
    by_cases same : T.lstrcmpA v value = 0
    · simp [same, Except.toOption]
    · simp [same, ih]

theorem validElements_eq {values : String} {vs : List String}
    (list : T.elements values = .ok vs) : validElements T values = .ok vs := by
  rw [validElements, list]
  rfl

/-- A definition without a default has no list of allowed values. -/
theorem Made.valid_none (made : Made T o) (noDefault : o.def_value = none) :
    o.valid_values = none := by
  cases values : o.valid_values with
  | none => rfl
  | some v => exact absurd noDefault (made.valid v values).2

/-- A loop over the allowed values finds one that will do. -/
theorem ifListed_ok (made : Made T o) {p : List String → Except Error Unit} {q : String → Bool}
    (finds : ∀ values vs, o.valid_values = some values → T.elements values = .ok vs →
      (p vs).toOption = if vs.any q then some () else none) :
    (ifListed T o p).toOption = if allowed T o q then some () else none := by
  unfold ifListed allowed
  cases values : o.valid_values with
  | none => rfl
  | some v =>
    obtain ⟨⟨vs, list⟩, -⟩ := made.valid v values
    simp only [validElements_eq list, list]
    exact finds v vs values list

theorem symValue_eq (made : Made T o) (value : String) :
    symValue T o value = .ok (mapped T o value) := by
  unfold symValue mapped
  cases values : o.valid_values with
  | none => rfl
  | some v =>
    obtain ⟨⟨vs, list⟩, -⟩ := made.valid v values
    simp only [validElements_eq list, list]
    rfl

/-- One value is checked and converted like the definition says. -/
theorem checkValue_eq (made : Made T o)
    (integers : o.type = .int → ∀ values vs, o.valid_values = some values →
      T.elements values = .ok vs → ∀ v ∈ vs, ∃ n, T.toWideInt v = some n) (valueP : Option String)
    (absent : valueP = none → o.type = .switch ∨ o.def_value = none) :
    (checkValue T o valueP).toOption = converted T o valueP := by
  cases valueP with
  | none =>
    have unlisted : o.type ≠ .switch → o.valid_values = none := fun other =>
      made.valid_none ((absent rfl).resolve_left other)
    cases type : o.type with
    | int =>
      have none := unlisted (by rw [type]; decide)
      simp only [checkValue, type, ifListed, none, converted]
      rfl
    | any =>
      have none := unlisted (by rw [type]; decide)
      simp only [checkValue, type, ifListed, none, converted]
      rfl
    | sym | switch | bool =>
      simp only [checkValue, converted, type]
      rfl
  | some value =>
    cases type : o.type with
    | int =>
      simp only [checkValue, type, converted, wideOf]
      cases isInt : T.toWideInt value with
      | none => rfl
      | some n =>
        have listed := ifListed_ok made (p := findWide T o value n)
          fun values vs given list => findWide_ok (integers type values vs given list)
        simp only [toOption_bind]
        change Option.bind (some n) _ = _
        rw [Option.bind_some]
        change Option.bind (ifListed T o (findWide T o value n)).toOption _ = _
        rw [listed]
        split_ifs <;> rfl
    | any =>
      have listed := ifListed_ok made (p := findString T o value)
        fun values vs given list => findString_ok vs
      simp only [checkValue, type, converted, toOption_bind]
      change Option.bind (ifListed T o (findString T o value)).toOption _ = _
      rw [listed]
      split_ifs <;> rfl
    | sym =>
      simp only [checkValue, type, converted, symValue_eq made]
      simp only [toOption_bind]
      change Option.bind (some (mapped T o value)) _ = _
      rw [Option.bind_some]
      cases T.toWideInt (mapped T o value) <;> rfl
    | switch | bool =>
      simp only [checkValue, type, converted]
      rcases T.toBoolean value with _ | _ | _ <;> rfl

/-- The loop over the definitions. -/
theorem collect_eq_values {flags : Flags} {items : List Item} {opts : List OptionDescriptor}
    (made : ∀ o ∈ opts, Made T o) (plain : ∀ o ∈ opts, Plain o)
    (integers : ∀ o ∈ opts, o.type = .int → ∀ values vs, o.valid_values = some values →
      T.elements values = .ok vs → ∀ v ∈ vs, ∃ n, T.toWideInt v = some n) :
    (collect T flags (opts.map fun o => (o, lastGiven o.optName items))).toOption =
      referenceValues T flags items opts := by
  induction opts with
  | nil => rfl
  | cons o opts ih =>
    have later := ih (fun q mem => made q (mem_cons_of_mem o mem))
      (fun q mem => plain q (mem_cons_of_mem o mem))
      fun q mem => integers q (mem_cons_of_mem o mem)
    have madeO := made o mem_cons_self
    have named : resultName flags.hyphenated o = referenceName flags.hyphenated o := by
      rw [resultName, referenceName, bareName_eq madeO (plain o mem_cons_self)]
      rfl
    rw [map_cons, collect]
    unfold referenceValues at later ⊢
    by_cases skipped : o.type ≠ .switch ∧ lastGiven o.optName items = none ∧
        o.def_value = none ∧ (!flags.nulldefault) = true
    · rw [if_pos skipped]
      obtain ⟨valued, absent, noDefault, noNull⟩ := skipped
      have out : chosen flags.nulldefault items o = none := by
        simp only [chosen, absent, if_neg valued, noDefault]
        simpa using noNull
      rw [filterMap_cons_none (by rw [out]; rfl)]
      exact later
    · rw [if_neg skipped]
      obtain ⟨value, isChosen, same, absent⟩ : ∃ value,
          chosen flags.nulldefault items o = some value ∧
          (if o.type = .switch then lastGiven o.optName items
            else (lastGiven o.optName items).orElse fun _ => o.def_value) = value ∧
          (value = none → o.type = .switch ∨ o.def_value = none) := by
        unfold chosen
        cases given : lastGiven o.optName items with
        | some v =>
          refine ⟨some v, rfl, ?_, fun none => by cases none⟩
          split_ifs <;> rfl
        | none =>
          by_cases switch : o.type = .switch
          · refine ⟨none, if_pos switch, if_pos switch, fun _ => .inl switch⟩
          · rw [if_neg switch, if_neg switch]
            cases default : o.def_value with
            | some v => exact ⟨some v, rfl, rfl, fun none => by cases none⟩
            | none =>
              have null : flags.nulldefault = true := by
                by_contra off
                exact skipped ⟨switch, given, default, by simpa using off⟩
              exact ⟨none, if_pos null, rfl, fun _ => .inr rfl⟩
      have checked := checkValue_eq madeO (integers o mem_cons_self) value absent
      rw [filterMap_cons_some (by rw [isChosen]; rfl), mapM_cons, toOption_bind,
        same, checked, named]
      cases converted T o value with
      | none => rfl
      | some v =>
        simp only [bind_some, toOption_bind, later, map_some]
        rfl

end Values

/-! ### The command -/

section Command

variable {T : Tcl} {σ : Type} (V : Vars σ)

variable {retP : List (String × String)}

theorem setVars_eq {argvVar : String} (apart : ∀ p ∈ retP, V.same p.1 argvVar = false) (s : σ) :
    match retP.foldlM (fun t p => V.set t p.1 p.2) s with
    | .ok t => setVars V argvVar retP s = (.ok (), t)
    | .error e => ∃ t, setVars V argvVar retP s = (.error ⟨e, none⟩, t) := by
  induction retP generalizing s with
  | nil => rfl
  | cons p retP ih =>
    obtain ⟨name, value⟩ := p
    rw [foldlM_cons]
    simp only [setVars, apart (name, value) mem_cons_self, Bool.false_eq_true, if_false]
    cases step : V.set s name value with
    | error e => exact ⟨_, rfl⟩
    | ok t => exact ih (fun p mem => apart p (mem_cons_of_mem _ mem)) t

/-- The variables after a result: those of the options, with `-setvars`, and the arguments
that are left. -/
def assigned (T : Tcl) (flags : Flags) (argvVar : String) (retP : List (String × String))
    (left : List String) (s : σ) : Except String σ :=
  match (if flags.setvars then retP.foldlM (fun t p => V.set t p.1 p.2) s else .ok s) with
  | .error e => .error e
  | .ok t => V.set t argvVar (T.ofList left)

/-- The command comes to what the reference says; with an error, nothing is changed, unless
a variable cannot be set. -/
def Computes (T : Tcl) (stop : Bool) (argvVar optlist : String) (objs : List String)
    (flags : Flags) (opts : List OptionDescriptor) (argv : List String) (s : σ) : Prop :=
  match reference T stop flags opts argv with
  | none => ∃ e, parseargs T V argvVar optlist objs s = (.error e, s)
  | some (retP, left) =>
    match assigned V T flags argvVar retP left s with
    | .ok t => parseargs T V argvVar optlist objs s =
        (.ok (if flags.setvars then [] else retP), t)
    | .error e => ∃ t, parseargs T V argvVar optlist objs s = (.error ⟨e, none⟩, t)

theorem deliver_eq {flags : Flags} {argvVar : String}
    (apart : flags.setvars = true → ∀ p ∈ retP, V.same p.1 argvVar = false) (left : List String)
    (s : σ) :
    match assigned V T flags argvVar retP left s with
    | .ok t => deliver T V flags argvVar retP left s =
        (.ok (if flags.setvars then [] else retP), t)
    | .error e => ∃ t, deliver T V flags argvVar retP left s = (.error ⟨e, none⟩, t) := by
  unfold assigned deliver
  cases setvars : flags.setvars with
  | false =>
    simp only [Bool.false_eq_true, if_false]
    cases last : V.set s argvVar (T.ofList left) with
    | error e => exact ⟨_, rfl⟩
    | ok t => rfl
  | true =>
    have sets := setVars_eq V (apart setvars) s
    simp only [if_true]
    cases all : retP.foldlM (fun t p => V.set t p.1 p.2) s with
    | error e =>
      rw [all] at sets
      obtain ⟨t, sets⟩ := sets
      exact ⟨t, by rw [sets]⟩
    | ok t =>
      rw [all] at sets
      rw [sets]
      dsimp only
      cases last : V.set t argvVar (T.ofList left) with
      | error e => exact ⟨_, rfl⟩
      | ok u => rfl

theorem names_of_values {flags : Flags} {items : List Item} {opts : List OptionDescriptor}
    (h : referenceValues T flags items opts = some retP) :
    ∀ p ∈ retP, ∃ o ∈ opts, p.1 = referenceName flags.hyphenated o := by
  unfold referenceValues at h
  induction opts generalizing retP with
  | nil =>
    cases some.inj h
    exact fun p mem => by cases mem
  | cons o opts ih =>
    cases out : chosen flags.nulldefault items o with
    | none =>
      rw [filterMap_cons_none (by rw [out]; rfl)] at h
      intro p mem
      obtain ⟨q, isOpt, same⟩ := ih h p mem
      exact ⟨q, mem_cons_of_mem o isOpt, same⟩
    | some value =>
      rw [filterMap_cons_some (by rw [out]; rfl), mapM_cons] at h
      obtain ⟨first, isFirst, h⟩ := bind_eq_some_iff.mp h
      obtain ⟨later, isLater, h⟩ := bind_eq_some_iff.mp h
      cases some.inj h
      obtain ⟨v, -, same⟩ := map_eq_some_iff.mp isFirst
      intro p mem
      rcases mem_cons.mp mem with rfl | mem
      · exact ⟨o, mem_cons_self, congrArg Prod.fst same.symm⟩
      · obtain ⟨q, isOpt, same⟩ := ih isLater p mem
        exact ⟨q, mem_cons_of_mem o isOpt, same⟩

/-- What is parsed is what the reference says. -/
theorem parse_eq {argvVar optlist argvObj : String} {objs argv : List String}
    {opts : List OptionDescriptor} {flags : Flags} {s : σ}
    (accepted : setParseargsOptFromAny T optlist = .ok opts) (wellFormed : WellFormed T opts)
    (flagged : parseFlags T objs .none = .ok flags) (var : V.get s argvVar = .ok argvObj)
    (list : T.elements argvObj = .ok argv) :
    (parse T V argvVar optlist objs s).toOption =
      (reference T true flags opts argv).map fun r => (flags, r.1, r.2) := by
  have made := made_of_accepted accepted
  have plain : ∀ o ∈ opts, Plain o := fun o mem =>
    ⟨wellFormed.plain o mem, wellFormed.short o mem⟩
  obtain ⟨fails, succeeds⟩ := scan_eq_split made plain flags.ignoreunknown argv
    (opts.map fun _ => none) []
  unfold parse reference
  rw [accepted, flagged, var]
  simp only [ok_bind, mapError_ok, list]
  cases parts : split true opts flags.ignoreunknown argv with
  | none =>
    obtain ⟨e, failed⟩ := fails parts
    rw [failed]
    rfl
  | some p =>
    obtain ⟨items, rest⟩ := p
    have collected : (collect T flags (opts.map fun o => (o, lastGiven o.optName items))).toOption =
        referenceValues T flags items opts := collect_eq_values made plain wellFormed.integers
    rw [succeeds items rest parts, ok_bind, zip_values wellFormed.distinct, toOption_bind,
      collected]
    change _ = Option.map _ ((referenceValues T flags items opts).bind fun retP =>
      if flags.maxleftover < rest.length then none else some (retP, keptWords items ++ rest))
    rw [map_bind]
    congr 1
    funext retP
    by_cases more : flags.maxleftover < rest.length
    · simp only [Function.comp_apply, if_pos more]
      rfl
    · simp only [Function.comp_apply, if_neg more, nil_append]
      rfl

/-- **`parseargs`**: for every definition list that is accepted, of names that are plain,
short and different, and every list of arguments, the command computes the reference, in
which options end at the first argument that is none. -/
theorem parseargs_eq_reference {argvVar optlist argvObj : String} {objs argv : List String}
    {opts : List OptionDescriptor} {flags : Flags} {s : σ}
    (accepted : setParseargsOptFromAny T optlist = .ok opts) (wellFormed : WellFormed T opts)
    (flagged : parseFlags T objs .none = .ok flags) (var : V.get s argvVar = .ok argvObj)
    (list : T.elements argvObj = .ok argv)
    (apart : flags.setvars = true →
      ∀ o ∈ opts, V.same (referenceName flags.hyphenated o) argvVar = false) :
    Computes V T true argvVar optlist objs flags opts argv s := by
  have parsed := parse_eq V accepted wellFormed flagged var list
  unfold Computes parseargs
  cases result : reference T true flags opts argv with
  | none =>
    rw [result] at parsed
    cases run : parse T V argvVar optlist objs s with
    | error e => exact ⟨e, rfl⟩
    | ok r =>
      rw [run] at parsed
      cases parsed
  | some r =>
    obtain ⟨retP, left⟩ := r
    rw [result] at parsed
    have run : parse T V argvVar optlist objs s = .ok (flags, retP, left) := by
      cases run : parse T V argvVar optlist objs s with
      | error e =>
        rw [run] at parsed
        cases parsed
      | ok r =>
        rw [run] at parsed
        exact congrArg Except.ok (some.inj parsed)
    rw [run]
    refine deliver_eq V (fun setvars p mem => ?_) left s
    obtain ⟨parts, -, rest⟩ := bind_eq_some_iff.mp result
    obtain ⟨values, found, more⟩ := bind_eq_some_iff.mp rest
    split_ifs at more
    obtain ⟨rfl, -⟩ := Prod.mk.inj (some.inj more)
    obtain ⟨o, isOpt, name⟩ := names_of_values found p mem
    rw [name]
    exact apart setvars o isOpt

end Command

/-! ### One option -/

/-- Words with a mark before each character and another one after the word. -/
def plainWord (cs : List Char) : List Char := cs.flatMap (fun c => ['+', c]) ++ ['-']

def plainElements : List Char → List Char → Except String (List String)
  | '+' :: c :: cs, word => plainElements cs (word ++ [c])
  | '-' :: cs, word => (plainElements cs []).map (String.ofList word :: ·)
  | [], [] => .ok []
  | _, _ => .error "unmatched mark in list"

theorem plainElements_word (cs rest word : List Char) :
    plainElements (plainWord cs ++ rest) word =
      (plainElements rest []).map (String.ofList (word ++ cs) :: ·) := by
  induction cs generalizing word with
  | nil =>
    rw [append_nil]
    rfl
  | cons c cs ih =>
    have later := ih (word ++ [c])
    rw [append_assoc] at later
    exact later

theorem plainElements_words (xs : List String) :
    plainElements (xs.flatMap fun x => plainWord x.toList) [] = .ok xs := by
  induction xs with
  | nil => rfl
  | cons x xs ih =>
    rw [flatMap_cons, plainElements_word, ih, nil_append, String.ofList_toList]
    rfl

/-- A Tcl with lists like this. -/
def plainTcl : Tcl where
  elements s := plainElements s.toList []
  ofList xs := String.ofList (xs.flatMap fun x => plainWord x.toList)
  toInt _ := .error "expected integer"
  toWideInt _ := none
  toBoolean s := if s = "1" then some true else none
  lstrcmpA s t := if s = t then 0 else 1
  memory _ _ := '\x00'
  elements_ofList xs := by rw [String.toList_ofList, plainElements_words]
  toBoolean_one := rfl

/-- The variable that holds the arguments. -/
def argsOnly : Vars String where
  get s _ := .ok s
  set _ _ value := .ok value
  failed s _ _ := s
  same _ _ := false

/-- The definition `b.arg`. -/
def optionB : OptionDescriptor := ⟨"b.arg", none, none, 1, .any, some 'b'⟩

theorem accepted_optionB (T : Tcl) :
    setParseargsOptFromAny T (T.ofList [T.ofList ["b.arg"]]) = .ok [optionB] := by
  have word : descriptorOf T (T.ofList ["b.arg"]) = .ok optionB := by
    rw [descriptorOf, T.elements_ofList]
    rfl
  rw [setParseargsOptFromAny, T.elements_ofList]
  simp only [mapM_cons, mapM_nil, word]
  rfl

theorem wellFormed_optionB (T : Tcl) : WellFormed T [optionB] where
  plain o mem c isChar := by
    cases mem_singleton.mp mem
    have single : c ∈ ['b'] := isChar
    cases mem_singleton.mp single
    decide
  short o mem := by
    cases mem_singleton.mp mem
    decide
  distinct := by simp
  integers o mem int := by
    cases mem_singleton.mp mem
    cases int

theorem parseargs_eq_reference_optionB :
    Computes argsOnly plainTcl true "args" (plainTcl.ofList [plainTcl.ofList ["b.arg"]])
      ["-ignoreunknown"] { Flags.none with ignoreunknown := true } [optionB]
      ["-a", "-b", "1", "foo", "-b", "2"]
      (plainTcl.ofList ["-a", "-b", "1", "foo", "-b", "2"]) :=
  parseargs_eq_reference argsOnly (accepted_optionB plainTcl) (wellFormed_optionB plainTcl) rfl rfl
    (plainTcl.elements_ofList _) fun _ _ _ => rfl

/-- An argument that is no option ends the options even where unknown ones are kept. -/
theorem argument_ends_options : ¬ ∀ (optlist : String) (objs argv : List String)
    (opts : List OptionDescriptor) (flags : Flags) (s : String),
    setParseargsOptFromAny plainTcl optlist = .ok opts → WellFormed plainTcl opts →
    parseFlags plainTcl objs .none = .ok flags → plainTcl.elements s = .ok argv →
    Computes argsOnly plainTcl false "args" optlist objs flags opts argv s := by
  intro computes
  have claimed := computes _ ["-ignoreunknown"] ["foo", "-b", "2"] [optionB]
    { Flags.none with ignoreunknown := true } (plainTcl.ofList ["foo", "-b", "2"])
    (accepted_optionB plainTcl) (wellFormed_optionB plainTcl) rfl (plainTcl.elements_ofList _)
  have scanned : reference plainTcl false { Flags.none with ignoreunknown := true } [optionB]
      ["foo", "-b", "2"] = some ([("b", "2")], ["foo"]) := by decide
  have ended : reference plainTcl true { Flags.none with ignoreunknown := true } [optionB]
      ["foo", "-b", "2"] = some ([], ["foo", "-b", "2"]) := by decide
  have parsed : (parse plainTcl argsOnly "args" _ ["-ignoreunknown"]
      (plainTcl.ofList ["foo", "-b", "2"])).toOption = _ :=
    parse_eq argsOnly (accepted_optionB plainTcl) (wellFormed_optionB plainTcl) rfl rfl
      (plainTcl.elements_ofList ["foo", "-b", "2"])
  rw [ended] at parsed
  simp only [Computes, scanned] at claimed
  change parseargs plainTcl argsOnly "args" _ _ _ = (.ok [("b", "2")], _) at claimed
  unfold parseargs at claimed
  cases run : parse plainTcl argsOnly "args" (plainTcl.ofList [plainTcl.ofList ["b.arg"]])
      ["-ignoreunknown"] (plainTcl.ofList ["foo", "-b", "2"]) with
  | error e =>
    rw [run] at parsed
    cases parsed
  | ok r =>
    rw [run] at parsed claimed
    cases some.inj parsed
    cases congrArg Prod.fst claimed

end Twapi.Parseargs
