import Twapi.Parseargs.Names

/-!
The loop over the arguments.

* `isNamed_position` — the option of an argument has one place.
* `scan_eq_split` — the loop takes the arguments apart like `split`.
* `zip_values` — it leaves the last value of each option.
-/

namespace Twapi.Parseargs

open List Option

section Arguments

variable {T : Tcl}

/-! ### Arguments -/

variable {o : OptionDescriptor} {ignoreunknown : Bool} {arg : String} {argv rest : List String}
  {argp : List Char}

theorem position_of_find {opts : List OptionDescriptor} {p q : OptionDescriptor → Bool}
    (same : ∀ o ∈ opts, p o = q o) (found : opts.find? p = some o) :
    ∃ j, opts.findIdx? q = some j ∧ opts[j]? = some o := by
  obtain ⟨isFound, j, inside, rfl, earlier⟩ := find?_eq_some_iff_getElem.mp found
  refine ⟨j, findIdx?_eq_some_iff_getElem.mpr ⟨inside, ?_, fun i less => ?_⟩,
    getElem?_eq_getElem inside⟩
  · rw [← same _ (getElem_mem inside)]
    exact isFound
  · rw [← same _ (getElem_mem _)]
    simpa using earlier i less

/-- The array of values, after an item. -/
def record (opts : List OptionDescriptor) (valuesP : List (Option String)) (item : Item) :
    List (Option String) :=
  match item.given with
  | none => valuesP
  | some (name, value) =>
    match opts.findIdx? fun o => o.optName = name with
    | none => valuesP
    | some j => valuesP.set j (some value)

theorem optName_inj {o q : OptionDescriptor} (same : o.optName = q.optName) :
    o.nameChars = q.nameChars := String.ofList_inj.mp same

/-- The option of an argument, in the loop and in the array of values. -/
theorem isNamed_position {opts : List OptionDescriptor} (made : ∀ o ∈ opts, Made T o)
    (plain : ∀ o ∈ opts, Plain o) (hyphenated : arg.toList = '-' :: argp)
    (found : (opts.find? fun o => hyphen o.optName = arg) = some o) :
    ∃ j, (opts.findIdx? fun o => o.isNamed T argp) = some j ∧ opts[j]? = some o ∧
      ∀ words value valuesP, record opts valuesP ⟨words, some (o.optName, value)⟩ =
        valuesP.set j (some value) := by
  have named : ∀ q ∈ opts, decide (hyphen q.optName = arg) = q.isNamed T argp := by
    intro q mem
    rw [Bool.eq_iff_iff, decide_eq_true_eq, isNamed_iff (made q mem) (plain q mem)]
    exact hyphen_eq_iff hyphenated
  have isArg : argp = o.nameChars := by
    have := find?_some found
    exact (hyphen_eq_iff hyphenated).mp (of_decide_eq_true this)
  obtain ⟨j, position, at_j⟩ := position_of_find named found
  refine ⟨j, position, at_j, fun words value valuesP => ?_⟩
  have same : ∀ q ∈ opts, decide (hyphen q.optName = arg) = decide (q.optName = o.optName) := by
    intro q mem
    rw [Bool.eq_iff_iff, decide_eq_true_eq, decide_eq_true_eq, hyphen_eq_iff hyphenated, isArg]
    exact ⟨fun chars => congrArg String.ofList chars.symm, fun name => (optName_inj name).symm⟩
  obtain ⟨i, position', at_i⟩ := position_of_find same found
  have unique : i = j := by
    rw [findIdx?_eq_some_iff_getElem] at position position'
    obtain ⟨insideJ, isJ, beforeJ⟩ := position
    obtain ⟨insideI, isI, beforeI⟩ := position'
    rcases Nat.lt_trichotomy i j with less | same' | less
    · have agree := (named _ (getElem_mem insideI)).symm.trans (same _ (getElem_mem insideI))
      exact absurd (agree.trans isI) (beforeJ i less)
    · exact same'
    · have agree := (same _ (getElem_mem insideJ)).symm.trans (named _ (getElem_mem insideJ))
      exact absurd (agree.trans isJ) (beforeI j less)
  simp only [record, position', unique]

theorem isNamed_absent {opts : List OptionDescriptor} (made : ∀ o ∈ opts, Made T o)
    (plain : ∀ o ∈ opts, Plain o) (hyphenated : arg.toList = '-' :: argp)
    (absent : (opts.find? fun o => hyphen o.optName = arg) = none) :
    (opts.findIdx? fun o => o.isNamed T argp) = none := by
  rw [findIdx?_eq_none_iff]
  intro o mem
  have other := find?_eq_none.mp absent o mem
  rw [decide_eq_true_eq, hyphen_eq_iff hyphenated,
    ← isNamed_iff (made o mem) (plain o mem)] at other
  simpa using other

theorem isHyphenated_iff :
    isHyphenated arg = true ↔ ∃ argp, arg.toList = '-' :: argp := by
  unfold isHyphenated
  cases arg.toList with
  | nil => simp
  | cons c cs => simp

/-- What `scan` comes to, if the arguments are split like this. -/
def ScansTo (T : Tcl) (opts : List OptionDescriptor) (ignoreunknown : Bool)
    (argv : List String) (parts : Option (List Item × List String)) : Prop :=
  ∀ valuesP newargv,
    (parts = none → ∃ e, scan T opts ignoreunknown argv valuesP newargv = .error e) ∧
    ∀ items rest, parts = some (items, rest) →
      scan T opts ignoreunknown argv valuesP newargv =
        .ok ⟨items.foldl (record opts) valuesP, newargv ++ keptWords items, rest⟩

theorem ScansTo.fails {opts : List OptionDescriptor} {e : Error} (fails : ∀ valuesP newargv,
      scan T opts ignoreunknown argv valuesP newargv = .error e) :
    ScansTo T opts ignoreunknown argv none := by
  intro valuesP newargv
  exact ⟨fun _ => ⟨e, fails valuesP newargv⟩, fun items rest some => (by cases some)⟩

theorem ScansTo.ends {opts : List OptionDescriptor} {items : List Item} (ends : ∀ valuesP newargv,
      scan T opts ignoreunknown argv valuesP newargv =
        .ok ⟨items.foldl (record opts) valuesP, newargv ++ keptWords items, rest⟩) :
    ScansTo T opts ignoreunknown argv (some (items, rest)) := by
  intro valuesP newargv
  refine ⟨fun none => (by cases none), fun items rest some => ?_⟩
  cases Option.some.inj some
  exact ends valuesP newargv

/-- No item is before the rest. -/
theorem ScansTo.stops {opts : List OptionDescriptor} (stops : ∀ valuesP newargv,
      scan T opts ignoreunknown argv valuesP newargv = .ok ⟨valuesP, newargv, rest⟩) :
    ScansTo T opts ignoreunknown argv (some ([], rest)) := by
  refine .ends fun valuesP newargv => ?_
  rw [stops, keptWords, filter_nil, flatMap_nil, append_nil, foldl_nil]

/-- One item is scanned, and then the others. -/
theorem ScansTo.before {opts : List OptionDescriptor} {argv argv' : List String} {item : Item}
    {parts : Option (List Item × List String)} (ih : ScansTo T opts ignoreunknown argv' parts)
    (first : ∀ valuesP newargv, scan T opts ignoreunknown argv valuesP newargv =
      scan T opts ignoreunknown argv' (record opts valuesP item) (newargv ++ keptWords [item])) :
    ScansTo T opts ignoreunknown argv (Parseargs.before item parts) := by
  intro valuesP newargv
  rw [first]
  obtain ⟨fails, succeeds⟩ := ih (record opts valuesP item) (newargv ++ keptWords [item])
  refine ⟨fun none => fails (map_eq_none_iff.mp none), fun items rest some => ?_⟩
  obtain ⟨later, found, rfl⟩ := before_eq_some some
  rw [succeeds later rest found, append_assoc, keptWords, keptWords, ← flatMap_append,
    ← filter_append]
  rfl

theorem hyphens_iff (hyphenated : arg.toList = '-' :: argp) :
    (arg = "-" ∨ arg = "--") ↔ (argp = [] ∨ argp = ['-']) := by
  have one : "-".toList = ['-'] := rfl
  have two : "--".toList = ['-', '-'] := rfl
  rw [← String.toList_inj, ← String.toList_inj, hyphenated, one, two]
  simp

/-- What is neither at the end of the options nor an argument of its own. -/
theorem chars_of_option (notEnds : ¬ (arg = "-" ∨ arg = "--"))
    (hyphen : ¬ (!isHyphenated arg) = true) :
    ∃ argp, arg.toList = '-' :: argp ∧ ¬ (argp = [] ∨ argp = ['-']) := by
  obtain ⟨argp, hyphenated⟩ := isHyphenated_iff.mp (by simpa using hyphen)
  exact ⟨argp, hyphenated, mt (hyphens_iff hyphenated).mpr notEnds⟩

theorem scan_eq_split {opts : List OptionDescriptor} (made : ∀ o ∈ opts, Made T o)
    (plain : ∀ o ∈ opts, Plain o) (ignoreunknown : Bool) (argv : List String) :
    ScansTo T opts ignoreunknown argv (split true opts ignoreunknown argv) := by
  fun_induction split true opts ignoreunknown argv with
  | case1 =>
    refine .stops fun valuesP newargv => ?_
    rw [scan]
  | case2 arg argv ends =>
    refine .stops fun valuesP newargv => ?_
    obtain ⟨argp, hyphenated⟩ : ∃ argp, arg.toList = '-' :: argp := by
      rcases ends with rfl | rfl
      · exact ⟨[], rfl⟩
      · exact ⟨['-'], rfl⟩
    have stops := (hyphens_iff hyphenated).mp ends
    unfold scan
    simp only [hyphenated, if_pos stops]
  | case3 arg argv _ _ kept => simp at kept
  | case4 arg argv _ notHyphenated =>
    refine .stops fun valuesP newargv => ?_
    have other : ∀ argp, arg.toList ≠ '-' :: argp := by
      intro argp same
      rw [isHyphenated_iff.mpr ⟨argp, same⟩] at notHyphenated
      cases notHyphenated
    unfold scan
    split
    · next argp same => exact absurd same (other argp)
    · rfl
  | case5 arg argv notEnds hyphen o found switch ih =>
    obtain ⟨argp, hyphenated, notEnds⟩ := chars_of_option notEnds hyphen
    obtain ⟨j, position, at_j, records⟩ := isNamed_position made plain hyphenated found
    refine ih.before fun valuesP newargv => ?_
    rw [records]
    conv => lhs; unfold scan
    simp only [hyphenated, if_neg notEnds, position, at_j, map_some, switch, if_true]
    rw [keptWords, filter_cons_of_neg (by simp), filter_nil, flatMap_nil,
      append_nil]
  | case6 arg notEnds hyphen o found valued =>
    obtain ⟨argp, hyphenated, notEnds⟩ := chars_of_option notEnds hyphen
    obtain ⟨j, position, at_j, -⟩ := isNamed_position made plain hyphenated found
    refine .fails (e := noValue arg) fun valuesP newargv => ?_
    unfold scan
    simp only [hyphenated, if_neg notEnds, position, at_j, map_some,
      some.injEq, if_neg valued]
  | case7 arg notEnds hyphen o found valued value argv ih =>
    obtain ⟨argp, hyphenated, notEnds⟩ := chars_of_option notEnds hyphen
    obtain ⟨j, position, at_j, records⟩ := isNamed_position made plain hyphenated found
    refine ih.before fun valuesP newargv => ?_
    rw [records]
    conv => lhs; unfold scan
    simp only [hyphenated, if_neg notEnds, position, at_j, map_some,
      some.injEq, if_neg valued]
    rw [keptWords, filter_cons_of_neg (by simp), filter_nil, flatMap_nil,
      append_nil]
  | case8 arg argv notEnds hyphen absent unknown =>
    obtain ⟨argp, hyphenated, notEnds⟩ := chars_of_option notEnds hyphen
    have position := isNamed_absent made plain hyphenated absent
    refine .fails (e := unknownOption opts arg) fun valuesP newargv => ?_
    unfold scan
    simp only [hyphenated, if_neg notEnds, position, if_pos unknown]
  | case9 arg notEnds hyphen absent known =>
    obtain ⟨argp, hyphenated, notEnds⟩ := chars_of_option notEnds hyphen
    have position := isNamed_absent made plain hyphenated absent
    refine .ends fun valuesP newargv => ?_
    unfold scan
    simp only [hyphenated, if_neg notEnds, position, if_neg known]
    rfl
  | case10 arg notEnds hyphen absent known next rest nextHyphen ih =>
    obtain ⟨argp, hyphenated, notEnds⟩ := chars_of_option notEnds hyphen
    have position := isNamed_absent made plain hyphenated absent
    refine ih.before fun valuesP newargv => ?_
    conv => lhs; unfold scan
    simp only [hyphenated, if_neg notEnds, position, if_neg known, if_pos nextHyphen]
    rfl
  | case11 arg notEnds hyphen absent known next rest nextPlain ih =>
    obtain ⟨argp, hyphenated, notEnds⟩ := chars_of_option notEnds hyphen
    have position := isNamed_absent made plain hyphenated absent
    refine ih.before fun valuesP newargv => ?_
    conv => lhs; unfold scan
    simp only [hyphenated, if_neg notEnds, position, if_neg known, if_neg nextPlain]
    rfl

/-! ### The array of values -/

/-- What an item gives to the option of a name. -/
def Item.gives (name : String) (item : Item) : Option String :=
  item.given.bind fun g => if g.1 = name then some g.2 else none

theorem lastGiven_cons (name : String) (item : Item) (items : List Item) :
    lastGiven name (item :: items) = (lastGiven name items).or (item.gives name) := by
  change ((item :: items).filterMap (Item.gives name)).getLast? =
    ((items.filterMap (Item.gives name)).getLast?).or _
  cases gives : item.gives name with
  | none => rw [filterMap_cons_none gives, or_none]
  | some value =>
    rw [filterMap_cons_some gives, getLast?_cons]
    cases (items.filterMap (Item.gives name)).getLast? <;> rfl

variable {valuesP : List (Option String)} {k : Nat}

/-- Names that are different have different places. -/
theorem position_of_distinct {opts : List OptionDescriptor}
    (distinct : (opts.map OptionDescriptor.optName).Nodup) (at_k : opts[k]? = some o)
    (name : String) :
    o.optName = name ↔ (opts.findIdx? fun o => o.optName = name) = some k := by
  obtain ⟨inside, rfl⟩ := List.getElem?_eq_some_iff.mp at_k
  rw [findIdx?_eq_some_iff_getElem]
  constructor
  · intro same
    refine ⟨inside, by simpa using same, fun j less => ?_⟩
    simp only [decide_eq_true_eq]
    intro same'
    have jk : j = k := by
      have insideJ : j < (opts.map OptionDescriptor.optName).length := by
        rw [length_map]
        omega
      refine (getElem?_inj insideJ distinct).mp ?_
      rw [getElem?_map, getElem?_map, getElem?_eq_getElem inside,
        getElem?_eq_getElem (Nat.lt_trans less inside), map_some, map_some, same, same']
    omega
  · rintro ⟨_, same, -⟩
    exact of_decide_eq_true same

theorem record_at {opts : List OptionDescriptor}
    (distinct : (opts.map OptionDescriptor.optName).Nodup) (at_k : opts[k]? = some o) (item : Item)
    {value : Option String} (had : valuesP[k]? = some value) :
    (record opts valuesP item)[k]? = some ((item.gives o.optName).or value) := by
  unfold record Item.gives
  cases given : item.given with
  | none => exact had
  | some g =>
    obtain ⟨name, v⟩ := g
    have place := position_of_distinct distinct at_k name
    simp only [bind_some]
    cases position : opts.findIdx? fun o => o.optName = name with
    | none =>
      rw [position] at place
      have other : ¬ name = o.optName := fun same => by cases place.mp same.symm
      rw [if_neg other]
      exact had
    | some j =>
      rw [position] at place
      by_cases same : j = k
      · subst same
        rw [if_pos (place.mpr rfl).symm]
        have inside := (List.getElem?_eq_some_iff.mp had).1
        simp [inside]
      · have other : ¬ name = o.optName := fun eq => same (some.inj (place.mp eq.symm))
        rw [if_neg other, getElem?_set_ne same]
        exact had

/-- The loop over the arguments leaves the last value of each option. -/
theorem values_at {opts : List OptionDescriptor}
    (distinct : (opts.map OptionDescriptor.optName).Nodup) (items : List Item)
    (at_k : opts[k]? = some o) {value : Option String} (had : valuesP[k]? = some value) :
    (items.foldl (record opts) valuesP)[k]? = some ((lastGiven o.optName items).or value) := by
  induction items generalizing valuesP value with
  | nil => exact had
  | cons item items ih =>
    rw [foldl_cons, ih (record_at distinct at_k item had), lastGiven_cons,
      Option.or_assoc]

theorem zip_values {opts : List OptionDescriptor}
    (distinct : (opts.map OptionDescriptor.optName).Nodup) (items : List Item) :
    opts.zip (items.foldl (record opts) (opts.map fun _ => none)) =
      opts.map fun o => (o, lastGiven o.optName items) := by
  apply ext_getElem?
  intro k
  rw [zip_eq_zipWith, getElem?_zipWith, getElem?_map]
  cases at_k : opts[k]? with
  | none => rfl
  | some o =>
    have had : (opts.map fun _ => (none : Option String))[k]? = some none := by
      rw [getElem?_map, at_k]
      rfl
    rw [values_at distinct items at_k had, or_none]
    rfl

end Arguments

end Twapi.Parseargs
