import Twapi.Parseargs.Correct

/-!
What `parseargs` leaves behind when it fails.

* `assignments` — the variables that are set, in the order in which this is done: those of
  the options in the order of their definitions, and the arguments last.
* `deliver_eq_foldlM` — the end of the command is these assignments, one after the other.
* `parseargs_error` — an error before the first of them changes nothing; one that fails
  leaves those before it done and those after it undone.
-/

namespace Twapi.Parseargs

open Lib List

/-- An assignment is one to its own variable. -/
structure Vars.Frames {σ : Type} (V : Vars σ) : Prop where
  set : ∀ s name value t other, V.same name other = false → V.set s name value = .ok t →
    V.get t other = V.get s other
  failed : ∀ s name value other, V.same name other = false →
    V.get (V.failed s name value) other = V.get s other

section Command

variable {T : Tcl} {σ : Type} (V : Vars σ)

def assignments (T : Tcl) (flags : Flags) (argvVar : String) (retP : List (String × String))
    (newargv : List String) : List (String × String) :=
  (if flags.setvars then retP else []) ++ [(argvVar, T.ofList newargv)]

def Vars.assign (s : σ) (p : String × String) : Except String σ := V.set s p.1 p.2

/-- The assignments `all` stop at one that fails, with those before it done. -/
def StopsAt (all : List (String × String)) (s : σ) (e : Error) (t : σ)
    (done : List (String × String)) (name value : String) (rest : List (String × String)) :
    Prop :=
  all = done ++ (name, value) :: rest ∧
    ∃ u text, done.foldlM V.assign s = .ok u ∧ V.set u name value = .error text ∧
      e = ⟨text, none⟩ ∧ t = V.failed u name value

variable {V}

variable {retP all rest : List (String × String)} {argvVar : String} {s u t : σ}
  {newargv : List String} {e : Error}

/-- Assignments that are done are followed by the rest. -/
theorem setVars_append {done : List (String × String)}
    (apart : ∀ p ∈ done, V.same p.1 argvVar = false) (before : done.foldlM V.assign s = .ok u)
    (later : List (String × String)) :
    setVars V argvVar (done ++ later) s = setVars V argvVar later u := by
  induction done generalizing s with
  | nil =>
    cases before
    rfl
  | cons p done ih =>
    obtain ⟨name, value⟩ := p
    rw [foldlM_cons] at before
    obtain ⟨v, first, before⟩ := bind_eq_ok before
    have step : V.set s name value = .ok v := first
    simp only [cons_append, setVars, apart (name, value) mem_cons_self,
      Bool.false_eq_true, if_false, step]
    exact ih (fun p mem => apart p (mem_cons_of_mem _ mem)) before

theorem setVars_ok (apart : ∀ p ∈ retP, V.same p.1 argvVar = false)
    (all : retP.foldlM V.assign s = .ok u) :
    setVars V argvVar retP s = (.ok (), u) := by
  have whole := setVars_append apart all []
  rwa [append_nil] at whole

theorem setVars_error {text : String} (apart : ∀ p ∈ retP, V.same p.1 argvVar = false)
    (failed : retP.foldlM V.assign s = .error text) :
    ∃ done name value rest t, setVars V argvVar retP s = (.error ⟨text, none⟩, t) ∧
      StopsAt V retP s ⟨text, none⟩ t done name value rest := by
  obtain ⟨done, ⟨name, value⟩, rest, u, rfl, before, last⟩ := foldlM_error failed
  have last : V.set u name value = .error text := last
  refine ⟨done, name, value, rest, V.failed u name value, ?_, rfl, u, text, before, last, rfl, rfl⟩
  rw [setVars_append (fun p mem => apart p (mem_append_left _ mem)) before]
  simp [setVars, apart (name, value) (by simp), last]

/-- The assignments of the options and the last one, as one list. -/
theorem StopsAt.more {done : List (String × String)} {name value : String}
    (stops : StopsAt V all s e t done name value rest) (last : String × String) :
    StopsAt V (all ++ [last]) s e t done name value (rest ++ [last]) := by
  obtain ⟨rfl, run⟩ := stops
  exact ⟨by simp, run⟩

/-- After the options' own assignments the only one left is the last. -/
theorem stopsAt_last {T : Tcl} {flags : Flags} {r : List (String × String)}
    (before : (if flags.setvars then retP else []).foldlM V.assign s = .ok u)
    (failed : (match V.set u argvVar (T.ofList newargv) with
      | .error e => (.error ⟨e, none⟩, V.failed u argvVar (T.ofList newargv))
      | .ok v => (.ok r, v) : Except Error (List (String × String)) × σ) = (.error e, t)) :
    StopsAt V (assignments T flags argvVar retP newargv) s e t
      (if flags.setvars then retP else []) argvVar (T.ofList newargv) [] := by
  refine ⟨rfl, u, ?_⟩
  cases last : V.set u argvVar (T.ofList newargv) with
  | error text =>
    rw [last] at failed
    cases failed
    exact ⟨text, before, rfl, rfl, rfl⟩
  | ok v =>
    rw [last] at failed
    cases failed

theorem deliver_error {flags : Flags}
    (apart : flags.setvars = true → ∀ p ∈ retP, V.same p.1 argvVar = false)
    (failed : deliver T V flags argvVar retP newargv s = (.error e, t)) :
    ∃ done name value rest,
      StopsAt V (assignments T flags argvVar retP newargv) s e t done name value rest := by
  unfold deliver at failed
  cases setvars : flags.setvars with
  | false =>
    simp only [setvars, Bool.false_eq_true, if_false] at failed
    exact ⟨_, _, _, _, stopsAt_last (by rw [setvars]; rfl) failed⟩
  | true =>
    simp only [setvars, if_true] at failed
    cases options : retP.foldlM V.assign s with
    | ok u =>
      rw [setVars_ok (apart setvars) options] at failed
      exact ⟨_, _, _, _, stopsAt_last (by rw [setvars]; exact options) failed⟩
    | error text =>
      obtain ⟨done, name, value, rest, v, sets, stops⟩ := setVars_error (apart setvars) options
      rw [sets] at failed
      cases failed
      have more := stops.more (argvVar, T.ofList newargv)
      exact ⟨done, name, value, _, by simpa [assignments, setvars] using more⟩

/-- A variable that is not assigned to is as it was. -/
theorem StopsAt.get_eq (frames : V.Frames) {done : List (String × String)} {name value : String}
    (stops : StopsAt V all s e t done name value rest) {other : String}
    (apart : ∀ p ∈ done ++ [(name, value)], V.same p.1 other = false) :
    V.get t other = V.get s other := by
  obtain ⟨-, u, text, before, -, -, rfl⟩ := stops
  have options : V.get u other = V.get s other :=
    foldlM_keeps (V.get · other)
      (fun p mem b c => frames.set b p.1 p.2 c other (apart p (mem_append_left _ mem))) before
  exact (frames.failed u name value other (apart (name, value) (by simp))).trans options

/-! ### The whole command -/

/-- The results are named after the options. -/
theorem names_of_collect {flags : Flags} {values : List (OptionDescriptor × Option String)}
    (collected : collect T flags values = .ok retP) :
    ∀ p ∈ retP, ∃ o ∈ values.map Prod.fst, p.1 = resultName flags.hyphenated o := by
  induction values generalizing retP with
  | nil =>
    cases collected
    simp
  | cons v values ih =>
    obtain ⟨o, valueP⟩ := v
    rw [collect] at collected
    have later : ∀ retP, collect T flags values = .ok retP → ∀ p ∈ retP,
        ∃ o' ∈ ((o, valueP) :: values).map Prod.fst, p.1 = resultName flags.hyphenated o' := by
      intro retP collected p mem
      obtain ⟨o', isOpt, name⟩ := ih collected p mem
      exact ⟨o', mem_cons_of_mem _ isOpt, name⟩
    split at collected
    · exact later retP collected
    · obtain ⟨value, -, collected⟩ := bind_eq_ok collected
      obtain ⟨rest, more, same⟩ := bind_eq_ok collected
      cases same
      intro p mem
      rcases mem_cons.mp mem with rfl | mem
      · exact ⟨o, mem_cons_self, rfl⟩
      · exact later rest more p mem

theorem names_of_parse {argvVar optlist : String} {objs : List String} {flags : Flags}
    (parsed : parse T V argvVar optlist objs s = .ok (flags, retP, newargv)) :
    ∃ opts, setParseargsOptFromAny T optlist = .ok opts ∧ parseFlags T objs .none = .ok flags ∧
      ∀ p ∈ retP, ∃ o ∈ opts, p.1 = resultName flags.hyphenated o := by
  unfold parse at parsed
  obtain ⟨opts, accepted, parsed⟩ := bind_eq_ok parsed
  obtain ⟨flags', flagged, parsed⟩ := bind_eq_ok parsed
  obtain ⟨argvObj, -, parsed⟩ := bind_eq_ok parsed
  obtain ⟨argv, -, parsed⟩ := bind_eq_ok parsed
  obtain ⟨scanned, -, parsed⟩ := bind_eq_ok parsed
  obtain ⟨retP', collected, parsed⟩ := bind_eq_ok parsed
  split at parsed
  · cases parsed
  · cases parsed
    refine ⟨opts, accepted, flagged, fun p mem => ?_⟩
    obtain ⟨o, isOpt, name⟩ := names_of_collect collected p mem
    obtain ⟨⟨o', valueP⟩, isPair, rfl⟩ := mem_map.mp isOpt
    exact ⟨o', (of_mem_zip isPair).1, name⟩

/-- What `parseargs` leaves when it fails with `e`: all of it before the first assignment, and what
the assignment that fails leaves. -/
structure Leaves (T : Tcl) (V : Vars σ) (argvVar optlist : String) (objs : List String) (s : σ)
    (e : Error) (t : σ) : Prop where
  before : ∀ e', parse T V argvVar optlist objs s = .error e' → t = s
  within : ∀ flags retP newargv, parse T V argvVar optlist objs s = .ok (flags, retP, newargv) →
    ∃ done name value rest,
      StopsAt V (assignments T flags argvVar retP newargv) s e t done name value rest ∧
      (∀ other, (∀ p ∈ done ++ [(name, value)], V.same p.1 other = false) →
        V.get t other = V.get s other) ∧
      (rest ≠ [] → V.get t argvVar = V.get s argvVar)

/-- **`parseargs`**: an error in the definitions, the flags, the arguments or the values
changes nothing. Where an assignment fails, those before it are done, in the order of the
definitions, and the arguments are as they were unless it is their own. -/
theorem parseargs_error (frames : V.Frames) {argvVar optlist : String} {objs : List String}
    {s t : σ} {e : Error}
    (apart : ∀ opts flags, setParseargsOptFromAny T optlist = .ok opts →
      parseFlags T objs .none = .ok flags → flags.setvars = true →
      ∀ o ∈ opts, V.same (resultName flags.hyphenated o) argvVar = false)
    (failed : parseargs T V argvVar optlist objs s = (.error e, t)) :
    Leaves T V argvVar optlist objs s e t := by
  unfold parseargs at failed
  constructor
  · intro e' parsed
    rw [parsed] at failed
    cases failed
    rfl
  · intro flags retP newargv parsed
    rw [parsed] at failed
    obtain ⟨opts, accepted, flagged, names⟩ := names_of_parse parsed
    have options : flags.setvars = true → ∀ p ∈ retP, V.same p.1 argvVar = false := by
      intro setvars p mem
      obtain ⟨o, isOpt, name⟩ := names p mem
      rw [name]
      exact apart opts flags accepted flagged setvars o isOpt
    obtain ⟨done, name, value, rest, stops⟩ := deliver_error options failed
    refine ⟨done, name, value, rest, stops, fun other => stops.get_eq frames, fun more => ?_⟩
    refine stops.get_eq frames fun p mem => ?_
    -- With assignments left over, it is one of the options that failed.
    obtain ⟨front, last, rfl⟩ := (eq_nil_or_concat rest).resolve_left more
    have split := stops.1
    rw [assignments, concat_eq_append, ← cons_append, ← append_assoc] at split
    have options' := (append_inj' split rfl).1
    have isOption : p ∈ (if flags.setvars then retP else []) := by
      rw [options']
      rcases mem_append.mp mem with mem | mem
      · exact mem_append_left _ mem
      · exact mem_append_right _ (mem_singleton.mp mem ▸ mem_cons_self)
    cases setvars : flags.setvars with
    | false =>
      rw [setvars] at isOption
      cases isOption
    | true =>
      rw [setvars] at isOption
      exact options setvars p isOption

end Command

/-! ### Two options, and the variable of the second is an array -/

def withArray : Vars (List (String × String)) where
  get s name := (s.lookup name).elim (.error "no such variable") .ok
  set s name value :=
    if name = "b" then .error "can't set \"b\": variable is array" else .ok ((name, value) :: s)
  failed s _ _ := s
  same a b := a = b

theorem withArray_frames : withArray.Frames where
  set s name value t other apart done := by
    simp only [withArray] at done
    split at done
    · cases done
    · cases done
      have other_ne : (other == name) = false := beq_false_of_ne (Ne.symm (of_decide_eq_false apart))
      simp [withArray, lookup_cons, other_ne]
  failed _ _ _ _ _ := rfl

/-- The definitions `a.arg` and `b.arg`. -/
def optionsAB : String := plainTcl.ofList [plainTcl.ofList ["a.arg"], plainTcl.ofList ["b.arg"]]

def argsAB : List (String × String) := [("args", plainTcl.ofList ["-a", "1", "-b", "2"])]

theorem accepted_optionsAB : setParseargsOptFromAny plainTcl optionsAB =
    .ok [⟨"a.arg", none, none, 1, .any, some 'a'⟩, optionB] := by
  have a : descriptorOf plainTcl (plainTcl.ofList ["a.arg"]) =
      .ok ⟨"a.arg", none, none, 1, .any, some 'a'⟩ := by
    rw [descriptorOf, plainTcl.elements_ofList]
    rfl
  have b : descriptorOf plainTcl (plainTcl.ofList ["b.arg"]) = .ok optionB := by
    rw [descriptorOf, plainTcl.elements_ofList]
    rfl
  rw [optionsAB, setParseargsOptFromAny, plainTcl.elements_ofList]
  simp only [mapM_cons, mapM_nil, a, b]
  rfl

theorem flags_optionsAB :
    parseFlags plainTcl ["-setvars"] .none = .ok { Flags.none with setvars := true } := by rfl

theorem parseargs_optionsAB : parseargs plainTcl withArray "args" optionsAB ["-setvars"] argsAB =
    (.error ⟨"can't set \"b\": variable is array", none⟩, ("a", "1") :: argsAB) := by
  have words := plainTcl.elements_ofList ["-a", "1", "-b", "2"]
  have value : withArray.get argsAB "args" = .ok (plainTcl.ofList ["-a", "1", "-b", "2"]) := rfl
  have parsed : parse plainTcl withArray "args" optionsAB ["-setvars"] argsAB =
      .ok ({ Flags.none with setvars := true }, [("a", "1"), ("b", "2")], []) := by
    simp only [parse, accepted_optionsAB, flags_optionsAB, value, Except.mapError, ok_bind, words]
    rfl
  rw [parseargs, parsed]
  rfl

theorem parseargs_error_optionsAB : Leaves plainTcl withArray "args" optionsAB ["-setvars"] argsAB
    ⟨"can't set \"b\": variable is array", none⟩ (("a", "1") :: argsAB) := by
  refine parseargs_error withArray_frames ?_ parseargs_optionsAB
  intro opts flags accepted flagged _ o isOpt
  cases accepted_optionsAB.symm.trans accepted
  cases flags_optionsAB.symm.trans flagged
  simp only [mem_cons, not_mem_nil, or_false] at isOpt
  rcases isOpt with rfl | rfl <;> rfl

/-- The variable of an option before the one that fails is set. -/
theorem option_before_is_set : ¬ ∀ (V : Vars (List (String × String))) (argvVar optlist : String)
    (objs : List String) (s t : List (String × String)) (opts : List OptionDescriptor)
    (flags : Flags) (e : Error), V.Frames → setParseargsOptFromAny plainTcl optlist = .ok opts →
    parseFlags plainTcl objs .none = .ok flags →
    parseargs plainTcl V argvVar optlist objs s = (.error e, t) →
    V.get t argvVar = V.get s argvVar ∧
      ∀ o ∈ opts, V.get t (resultName flags.hyphenated o) =
        V.get s (resultName flags.hyphenated o) := by
  intro unchanged
  have same := (unchanged withArray "args" optionsAB ["-setvars"] argsAB _ _
    { Flags.none with setvars := true } _ withArray_frames accepted_optionsAB rfl
    parseargs_optionsAB).2 _ mem_cons_self
  cases same

end Twapi.Parseargs
