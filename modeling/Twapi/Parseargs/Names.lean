import Twapi.Lib.Results
import Twapi.Parseargs.Reference

/-!
The option definitions that are accepted, and the arguments that are options.

* `Made` — what is true of an option definition that was accepted.
* `WellFormed` — definitions with names of single bytes, not too long, and different.
* `isNamed_iff` — which argument is an option, by its bytes.
-/

namespace Twapi.Parseargs

open Lib List

section Definitions

variable {T : Tcl}

def OptionDescriptor.nameChars (o : OptionDescriptor) : List Char :=
  o.name.toList.takeWhile (· ≠ '.')

/-! ### Definitions that were accepted -/

structure Made (T : Tcl) (o : OptionDescriptor) : Prop where
  len : o.name_len = shortOf (utfSize o.nameChars)
  first : o.first = o.name.toList.head?
  named : o.nameChars = [] → o.name.toList = []
  valid : ∀ values, o.valid_values = some values →
    (∃ vs, T.elements values = .ok vs) ∧ o.def_value ≠ none

variable {o : OptionDescriptor} {cs : List Char}

theorem takeWhile_of_dropWhile_nil {p : Char → Bool} (h : cs.dropWhile p = []) :
    cs.takeWhile p = cs := by
  have parts := takeWhile_append_dropWhile (p := p) (l := cs)
  rw [h, append_nil] at parts
  exact parts

theorem made_nameOf {name : String} (h : nameOf name = .ok o) :
    Made T o ∧ o.def_value = none ∧ o.valid_values = none := by
  unfold nameOf at h
  cases drop : name.toList.dropWhile (· ≠ '.') with
  | nil =>
    simp only [drop] at h
    cases Except.ok.inj h
    have all := takeWhile_of_dropWhile_nil drop
    refine ⟨⟨?_, rfl, fun empty => all.symm.trans empty, fun _ none => by cases none⟩, rfl, rfl⟩
    exact congrArg (fun cs => shortOf (utfSize cs)) all.symm
  | cons dot type =>
    simp only [drop] at h
    by_cases empty : name.toList.takeWhile (· ≠ '.') = []
    · rw [if_pos empty] at h
      cases h
    · rw [if_neg empty] at h
      cases found : typeOf type with
      | none =>
        rw [found] at h
        cases h
      | some t =>
        rw [found] at h
        cases Except.ok.inj h
        exact ⟨⟨rfl, rfl, fun none => absurd none empty, fun _ none => by cases none⟩, rfl, rfl⟩

theorem validValuesOf_eq {type : OptType} {values v : String}
    (h : validValuesOf T type values = .ok v) :
    v = values ∧ ∃ vs, T.elements values = .ok vs := by
  unfold validValuesOf at h
  cases list : T.elements values with
  | error e =>
    rw [list] at h
    cases h
  | ok vs =>
    rw [list] at h
    change (if vs = [] then _ else _) = _ at h
    split_ifs at h
    exact ⟨(Except.ok.inj h).symm, vs, rfl⟩

theorem made_descriptorOf {spec : String} (h : descriptorOf T spec = .ok o) : Made T o := by
  obtain ⟨words, list, h⟩ := bind_eq_ok h
  rcases words with _ | ⟨name, _ | ⟨def_value, _ | ⟨values, rest⟩⟩⟩
  · cases h
  · exact (made_nameOf h).1
  · obtain ⟨opt, named, same⟩ := bind_eq_ok h
    cases Except.ok.inj same
    obtain ⟨made, -, none⟩ := made_nameOf (T := T) named
    refine ⟨made.len, made.first, made.named, fun v some => ?_⟩
    rw [none] at some
    cases some
  · obtain ⟨opt, named, h⟩ := bind_eq_ok h
    obtain ⟨v, valid, same⟩ := bind_eq_ok h
    cases Except.ok.inj same
    obtain ⟨rfl, vs, list'⟩ := validValuesOf_eq valid
    obtain ⟨made, -⟩ := made_nameOf (T := T) named
    refine ⟨made.len, made.first, made.named, fun w some => ⟨⟨vs, ?_⟩, fun none => ?_⟩⟩
    · rw [← Option.some.inj some]
      exact list'
    · cases none

theorem made_of_accepted {optlist : String} {opts : List OptionDescriptor}
    (h : setParseargsOptFromAny T optlist = .ok opts) : ∀ o ∈ opts, Made T o := by
  unfold setParseargsOptFromAny at h
  cases list : T.elements optlist with
  | error e =>
    rw [list] at h
    cases h
  | ok specs =>
    rw [list] at h
    dsimp only at h
    clear list
    induction specs generalizing opts with
    | nil =>
      cases Except.ok.inj h
      exact fun o mem => by cases mem
    | cons spec specs ih =>
      rw [mapM_cons] at h
      obtain ⟨o, first, h⟩ := bind_eq_ok h
      obtain ⟨os, later, same⟩ := bind_eq_ok h
      cases Except.ok.inj same
      intro q mem
      rcases mem_cons.mp mem with rfl | mem
      · cases made : descriptorOf T spec with
        | error e =>
          rw [made] at first
          cases first
        | ok q' =>
          rw [made] at first
          cases Except.ok.inj first
          exact made_descriptorOf made
      · exact ih later q mem

/-! ### Names -/

/-- Names that are plain and short, and different; allowed integers that are integers. -/
structure WellFormed (T : Tcl) (opts : List OptionDescriptor) : Prop where
  plain : ∀ o ∈ opts, ∀ c ∈ o.nameChars, charSize c = 1
  short : ∀ o ∈ opts, o.nameChars.length < 65536
  distinct : (opts.map OptionDescriptor.optName).Nodup
  integers : ∀ o ∈ opts, o.type = .int → ∀ values vs, o.valid_values = some values →
    T.elements values = .ok vs → ∀ v ∈ vs, ∃ n, T.toWideInt v = some n

theorem one_le_charSize (c : Char) : 1 ≤ charSize c := by
  unfold charSize
  split
  · decide
  · exact Char.utf8Size_pos c

theorem length_le_utfSize (cs : List Char) : cs.length ≤ utfSize cs := by
  induction cs with
  | nil => exact Nat.le_refl 0
  | cons c cs ih =>
    have := one_le_charSize c
    simp only [utfSize, map_cons, sum_cons, length_cons] at ih ⊢
    omega

theorem utfSize_of_plain (plain : ∀ c ∈ cs, charSize c = 1) :
    utfSize cs = cs.length := by
  induction cs with
  | nil => rfl
  | cons c cs ih =>
    have one := plain c mem_cons_self
    have rest := ih fun d mem => plain d (mem_cons_of_mem c mem)
    simp only [utfSize, map_cons, sum_cons, length_cons] at rest ⊢
    omega

theorem takeBytes_of_plain (plain : ∀ c ∈ cs, charSize c = 1) (rest : List Char) :
    takeBytes cs.length (cs ++ rest) = cs := by
  induction cs with
  | nil =>
    cases rest with
    | nil => rfl
    | cons c cs =>
      have := one_le_charSize c
      exact if_neg (by simp only [length_nil]; omega)
  | cons c cs ih =>
    have one := plain c mem_cons_self
    have later := ih fun d mem => plain d (mem_cons_of_mem c mem)
    rw [cons_append, takeBytes, one, if_pos (by simp only [length_cons]; omega)]
    simp only [length_cons, Nat.add_sub_cancel]
    rw [later]

/-- A definition whose name is plain and short. -/
structure Plain (o : OptionDescriptor) : Prop where
  plain : ∀ c ∈ o.nameChars, charSize c = 1
  short : o.nameChars.length < 65536

theorem name_len_eq (made : Made T o) (plain : Plain o) :
    o.name_len = o.nameChars.length := by
  rw [made.len, utfSize_of_plain plain.plain]
  exact Nat.mod_eq_of_lt plain.short

theorem name_split (o : OptionDescriptor) :
    ∃ suffix, o.name.toList = o.nameChars ++ suffix :=
  ⟨_, (takeWhile_append_dropWhile).symm⟩

theorem bareName_eq (made : Made T o) (plain : Plain o) :
    o.bareName = o.optName := by
  obtain ⟨suffix, whole⟩ := name_split o
  rw [OptionDescriptor.bareName, name_len_eq made plain, whole,
    takeBytes_of_plain plain.plain]
  rfl

theorem charAt_of_lt {i : Nat} (inside : i < cs.length) :
    charAt T cs i = cs[i] := by
  rw [charAt, if_pos inside, getD_eq_getElem?_getD, getElem?_eq_getElem inside]
  rfl

theorem charAt_append (suffix : List Char) {i : Nat} (inside : i < cs.length) :
    charAt T (cs ++ suffix) i = cs[i] := by
  rw [charAt_of_lt (by rw [length_append]; omega), getElem_append_left inside]

/-- An argument is an option if its bytes are those of the name. The comparison does not
get past the end of an argument that is shorter. -/
theorem isNamed_iff (made : Made T o) (plain : Plain o) (argp : List Char) :
    o.isNamed T argp = true ↔ argp = o.nameChars := by
  obtain ⟨suffix, whole⟩ := name_split o
  have len := name_len_eq made plain
  simp only [OptionDescriptor.isNamed, Bool.and_eq_true, decide_eq_true_eq, utfNcmp,
    all_eq_true, mem_range, len, whole]
  constructor
  · rintro ⟨⟨size, -⟩, same⟩
    have shorter := length_le_utfSize argp
    have agree : ∀ i (h : i < argp.length), argp[i] = o.nameChars.get ⟨i, by omega⟩ := by
      intro i h
      have := same i (by omega)
      rw [charAt_append suffix (by omega), charAt_of_lt h] at this
      exact this.symm
    have plainArg : ∀ c ∈ argp, charSize c = 1 := by
      intro c mem
      obtain ⟨i, h, rfl⟩ := getElem_of_mem mem
      rw [agree i h]
      exact plain.plain _ (getElem_mem _)
    rw [utfSize_of_plain plainArg] at size
    exact ext_getElem size.symm fun i h _ => agree i h
  · rintro rfl
    refine ⟨⟨(utfSize_of_plain plain.plain).symm, ?_⟩, ?_⟩
    · rw [made.first]
      cases chars : o.nameChars with
      | nil => rw [made.named chars]
      | cons c cs =>
        rw [whole, chars]
        rfl
    · intro i h
      rw [utfSize_of_plain plain.plain] at h
      rw [charAt_append suffix h, charAt_of_lt h]

/-- An argument with a hyphen is the option of a definition. -/
theorem hyphen_eq_iff {arg : String} {argp : List Char} (hyphenated : arg.toList = '-' :: argp) :
    hyphen o.optName = arg ↔ argp = o.nameChars := by
  have written : (hyphen o.optName).toList = '-' :: o.nameChars := by
    simp [hyphen, OptionDescriptor.optName, OptionDescriptor.nameChars]
  constructor
  · intro same
    rw [← same, written] at hyphenated
    exact (cons.inj hyphenated).2.symm
  · intro same
    apply String.toList_inj.mp
    rw [written, hyphenated, same]

end Definitions

end Twapi.Parseargs
