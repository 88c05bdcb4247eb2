import Twapi.Parseargs.Correct

/-!
The loop that looks for the option of an argument.

* `OptionDescriptor.Reads` — the comparison of a name with an argument stays inside both.
* `OptionDescriptor.Comparable` — what of a name and an argument makes the comparison right.
* `comparable_iff` — one comparison.
* `match_iff` — the loop.
-/

namespace Twapi.Parseargs

open List

/-! ### Up to the first -/

section UpTo

variable {α : Type} {p q : α → Bool} {P Q : α → Prop}

/-- The elements up to the first of a kind, and this. -/
def UpTo (p : α → Bool) (P : α → Prop) : List α → Prop
  | [] => True
  | a :: l => P a ∧ (p a = false → UpTo p P l)

theorem UpTo.congr {l : List α} (same : ∀ a ∈ l, P a ↔ Q a) : UpTo p P l ↔ UpTo p Q l := by
  induction l with
  | nil => exact Iff.rfl
  | cons a l ih =>
    have later := ih fun b mem => same b (mem_cons_of_mem a mem)
    rw [UpTo, UpTo, same a mem_cons_self, later]

/-- Two searches stop at the same place if they agree up to where one of them does. -/
theorem findIdx?_eq_and_iff {l : List α} : (l.findIdx? p = l.findIdx? q ∧ UpTo p P l) ↔
    UpTo q (fun a => p a = q a ∧ P a) l := by
  induction l with
  | nil => simp [UpTo]
  | cons a l ih =>
    rw [UpTo, UpTo, ← ih, findIdx?_cons, findIdx?_cons]
    cases p a with
    | true =>
      cases q a with
      | true => simp
      | false =>
        have apart : some 0 ≠ (l.findIdx? q).map (· + 1) := by
          cases l.findIdx? q <;> simp
        simp [apart]
    | false =>
      cases q a with
      | true => simp
      | false =>
        have shift : (l.findIdx? p).map (· + 1) = (l.findIdx? q).map (· + 1) ↔
            l.findIdx? p = l.findIdx? q :=
          ⟨fun same => Option.map_injective (fun _ _ => Nat.succ.inj) same, congrArg _⟩
        simp only [Bool.false_eq_true, if_false, forall_const, true_and, shift]
        tauto

end UpTo

section Match

variable {T : Tcl} {o : OptionDescriptor} {cs ct argp : List Char}

/-! ### What is read -/

/-- Characters are compared up to the first difference. Each is one of its string, or the null
character that ends it. -/
def ReadsInside (T : Tcl) (cs ct : List Char) (numChars : Nat) : Prop :=
  ∀ i < numChars, (∀ k < i, charAt T cs k = charAt T ct k) → i ≤ cs.length ∧ i ≤ ct.length

/-- The characters are compared if the lengths agree and the first bytes do. Where the first
bytes agree and the first characters do not, nothing else is read. -/
def OptionDescriptor.Reads (T : Tcl) (o : OptionDescriptor) (argp : List Char) : Prop :=
  o.name_len = utfSize argp → o.first = argp.head? →
    ReadsInside T o.name.toList argp (utfSize argp)

/-- The argument is the name: then the length fits in its field, and as many characters as there
are bytes are compared, which may go to the null character at the end of both. The argument is
only the start of a long name, whose length has lost its upper half: then a character of several
bytes makes the comparison go on to a difference. -/
structure OptionDescriptor.Comparable (o : OptionDescriptor) (argp : List Char) : Prop where
  named : argp = o.nameChars → utfSize argp < 65536 ∧
    (utfSize argp = argp.length ∨ o.name.toList = o.nameChars ∧ utfSize argp = argp.length + 1)
  started : argp ≠ o.nameChars → argp <+: o.nameChars → shortOf (utfSize o.nameChars) = utfSize argp →
    utfSize argp ≠ argp.length ∧ o.nameChars[argp.length]? ≠ some '\x00'

/-! ### One comparison -/

theorem charAt_length (cs : List Char) : charAt T cs cs.length = '\x00' := by
  simp [charAt]

theorem charAt_prefix {i : Nat} (start : cs <+: ct) (inside : i < cs.length) :
    charAt T ct i = charAt T cs i := by
  obtain ⟨rest, rfl⟩ := start
  rw [charAt_append rest inside, charAt_of_lt inside]

theorem utfSize_append (cs ct : List Char) : utfSize (cs ++ ct) = utfSize cs + utfSize ct := by
  simp [utfSize]

theorem utfSize_lt_of_prefix (start : cs <+: ct) (ne : cs ≠ ct) : utfSize cs < utfSize ct := by
  obtain ⟨rest, rfl⟩ := start
  rw [utfSize_append]
  have more : rest ≠ [] := by
    rintro rfl
    exact ne (append_nil cs).symm
  have := length_le_utfSize rest
  have := length_pos_iff.mpr more
  omega

theorem shortOf_le (n : Nat) : shortOf n ≤ n := Nat.mod_le n _

/-- Strings that agree as far as both go: one starts the other. -/
theorem prefix_or_prefix (agree : ∀ i (h : i < cs.length) (h' : i < ct.length), cs[i] = ct[i]) :
    cs <+: ct ∨ ct <+: cs := by
  induction cs generalizing ct with
  | nil => exact .inl nil_prefix
  | cons c cs ih =>
    cases ct with
    | nil => exact .inr nil_prefix
    | cons d ct =>
      have same := agree 0 (by simp) (by simp)
      simp only [getElem_cons_zero] at same
      subst same
      have later := ih fun i h h' =>
        agree (i + 1) (Nat.succ_lt_succ h) (Nat.succ_lt_succ h')
      exact later.imp (cons_prefix_cons.mpr ⟨rfl, ·⟩) (cons_prefix_cons.mpr ⟨rfl, ·⟩)

theorem isNamed_eq_true_iff : o.isNamed T argp = true ↔
    o.name_len = utfSize argp ∧ o.first = argp.head? ∧
      ∀ i < utfSize argp, charAt T o.name.toList i = charAt T argp i := by
  simp [OptionDescriptor.isNamed, utfNcmp, and_assoc]

/-- The first difference is inside both strings, unless the argument starts the name. -/
theorem exists_difference (made : Made T o) (len : o.name_len = utfSize argp)
    (other : ¬ argp <+: o.nameChars) :
    ∃ d, d < argp.length ∧ d < o.name.toList.length ∧
      charAt T o.name.toList d ≠ charAt T argp d := by
  by_contra none
  push Not at none
  obtain ⟨suffix, whole⟩ := name_split o
  have agree : ∀ i (h : i < argp.length) (h' : i < o.name.toList.length),
      argp[i] = o.name.toList[i] := by
    intro i h h'
    have same := none i h h'
    rw [charAt_of_lt h, charAt_of_lt h'] at same
    exact same.symm
  have longer : o.nameChars <+: argp := by
    have start : o.nameChars <+: o.name.toList := ⟨suffix, whole.symm⟩
    rcases prefix_or_prefix agree with inName | past
    · exact (List.prefix_or_prefix_of_prefix inName start).resolve_left other
    · exact start.trans past
  have size := utfSize_lt_of_prefix longer (by rintro rfl; exact other prefix_rfl)
  have := shortOf_le (utfSize o.nameChars)
  have := made.len
  omega

theorem first_of_prefix (made : Made T o) (nonempty : argp ≠ []) (start : argp <+: o.nameChars) :
    o.first = argp.head? := by
  obtain ⟨suffix, whole⟩ := name_split o
  obtain ⟨rest, split⟩ := start
  obtain ⟨c, argp, rfl⟩ := exists_cons_of_ne_nil nonempty
  rw [made.first, whole, ← split]
  rfl

/-- An argument that starts the name agrees with it. -/
theorem agree_of_prefix (start : argp <+: o.nameChars) {i : Nat} (inside : i < argp.length) :
    charAt T o.name.toList i = charAt T argp i := by
  obtain ⟨suffix, whole⟩ := name_split o
  have start' : argp <+: o.name.toList := start.trans ⟨suffix, whole.symm⟩
  exact charAt_prefix start' inside

theorem charAt_after_name {suffix : List Char} (whole : o.name.toList = o.nameChars ++ suffix)
    (typed : suffix ≠ []) (named : argp = o.nameChars) :
    charAt T o.name.toList argp.length = '.' := by
  have rest : suffix = o.name.toList.dropWhile (· ≠ '.') := by
    have parts := takeWhile_append_dropWhile (p := (· ≠ '.')) (l := o.name.toList)
    exact append_cancel_left (whole.symm.trans parts.symm)
  obtain ⟨c, later, split⟩ := exists_cons_of_ne_nil typed
  have period : c = '.' := by
    have head := head?_dropWhile_not (· ≠ '.') o.name.toList
    rw [← rest, split] at head
    simpa using head
  subst period
  rw [charAt_of_lt (by rw [whole, split, named]; simp)]
  simp [whole, split, named]

/-- An argument that is the name: `Tcl_UtfNcmp` may not get past the ends. -/
theorem comparable_iff_of_named (made : Made T o) (nonempty : argp ≠ [])
    (named : argp = o.nameChars) :
    (o.isNamed T argp = true ∧ o.Reads T argp) ↔ utfSize argp < 65536 ∧
      (utfSize argp = argp.length ∨
        o.name.toList = o.nameChars ∧ utfSize argp = argp.length + 1) := by
  obtain ⟨suffix, whole⟩ := name_split o
  have start : argp <+: o.nameChars := named ▸ prefix_rfl
  have first := first_of_prefix made nonempty start
  have size := length_le_utfSize argp
  have len := made.len
  rw [← named] at len
  by_cases short : utfSize argp < 65536
  · rw [shortOf, Nat.mod_eq_of_lt short] at len
    have inside : argp.length ≤ o.name.toList.length := by
      rw [whole, ← named]
      simp
    rcases Nat.eq_or_lt_of_le size with plain | longer
    · have isNamed := isNamed_eq_true_iff.mpr ⟨len, first, fun i h =>
        agree_of_prefix (T := T) start (i := i) (plain ▸ h)⟩
      refine iff_of_true ⟨isNamed, fun _ _ i h _ => ?_⟩ ⟨short, .inl plain.symm⟩
      omega
    · by_cases typed : suffix = []
      · rw [typed, append_nil] at whole
        have both : ∀ i < argp.length + 1, charAt T o.name.toList i = charAt T argp i := by
          intro i _
          rw [whole, named]
        by_cases one : utfSize argp = argp.length + 1
        · refine iff_of_true ⟨isNamed_eq_true_iff.mpr ⟨len, first, fun i h => both i (one ▸ h)⟩,
            fun _ _ i h _ => ?_⟩ ⟨short, .inr ⟨whole, one⟩⟩
          omega
        · refine iff_of_false (fun right => ?_) (fun right => by omega)
          have past := right.2 len first (argp.length + 1) (by omega) both
          omega
      · refine iff_of_false (fun right => ?_) (fun right => ?_)
        · -- The period after the name is compared with the null character.
          have same := (isNamed_eq_true_iff.mp right.1).2.2 argp.length longer
          rw [charAt_length, charAt_after_name whole typed named] at same
          cases same
        · rcases right.2 with plain | ⟨untyped, -⟩
          · omega
          · rw [whole] at untyped
            exact typed (by simpa using untyped)
  · refine iff_of_false (fun right => ?_) fun right => short right.1
    have := (isNamed_eq_true_iff.mp right.1).1
    have : shortOf (utfSize argp) < 65536 := Nat.mod_lt _ (by decide)
    omega

/-- An argument that is not the name: it may be no more than the start of a name. -/
theorem comparable_iff_of_other (made : Made T o) (nonempty : argp ≠ [])
    (other : argp ≠ o.nameChars) :
    (o.isNamed T argp = false ∧ o.Reads T argp) ↔
      (argp <+: o.nameChars → shortOf (utfSize o.nameChars) = utfSize argp →
        utfSize argp ≠ argp.length ∧ o.nameChars[argp.length]? ≠ some '\x00') := by
  have len := made.len
  by_cases same : o.name_len = utfSize argp
  swap
  · refine iff_of_true ⟨?_, fun equal => absurd equal same⟩
      fun _ equal => absurd (len.trans equal) same
    rw [← Bool.not_eq_true, isNamed_eq_true_iff]
    exact fun right => same right.1
  by_cases start : argp <+: o.nameChars
  swap
  · obtain ⟨d, inArg, inName, differ⟩ := exists_difference made same start
    have size := length_le_utfSize argp
    refine iff_of_true ⟨?_, fun _ _ i h before => ?_⟩ fun start' => absurd start' start
    · rw [← Bool.not_eq_true, isNamed_eq_true_iff]
      exact fun right => differ (right.2.2 d (by omega))
    · have : i ≤ d := by
        by_contra past
        exact differ (before d (by omega))
      omega
  have first := first_of_prefix made nonempty start
  have size := length_le_utfSize argp
  have shorter : argp.length < o.nameChars.length := by
    obtain ⟨rest, split⟩ := start
    have more : rest ≠ [] := by
      rintro rfl
      exact other (by simpa using split)
    have := length_pos_iff.mpr more
    rw [← split, length_append]
    omega
  have inName : argp.length < o.name.toList.length := by
    obtain ⟨suffix, whole⟩ := name_split o
    rw [whole, length_append]
    omega
  have next : charAt T o.name.toList argp.length = o.nameChars[argp.length] := by
    obtain ⟨suffix, whole⟩ := name_split o
    rw [whole, charAt_append suffix shorter]
  have before : ∀ i < argp.length, charAt T o.name.toList i = charAt T argp i := fun i h =>
    agree_of_prefix start h
  simp only [start, ← len, same, forall_const, ne_eq, getElem?_eq_getElem shorter,
    Option.some.injEq]
  constructor
  · rintro ⟨notNamed, reads⟩
    constructor
    · intro plain
      have named := isNamed_eq_true_iff.mpr ⟨same, first, fun i h => before i (plain ▸ h)⟩
      rw [notNamed] at named
      cases named
    · intro null
      have both : ∀ i < argp.length + 1, charAt T o.name.toList i = charAt T argp i := by
        intro i h
        rcases Nat.lt_succ_iff_lt_or_eq.mp h with h | rfl
        · exact before i h
        · rw [next, null, charAt_length]
      by_cases one : utfSize argp ≤ argp.length + 1
      · have named := isNamed_eq_true_iff.mpr ⟨same, first, fun i h => both i (by omega)⟩
        rw [notNamed] at named
        cases named
      · have past := reads same first (argp.length + 1) (by omega) both
        omega
  · rintro ⟨longer, character⟩
    have differ : charAt T o.name.toList argp.length ≠ charAt T argp argp.length := by
      rw [next, charAt_length]
      exact character
    refine ⟨?_, fun _ _ i h agree => ?_⟩
    · rw [← Bool.not_eq_true, isNamed_eq_true_iff]
      exact fun right => differ (right.2.2 _ (by omega))
    · have : i ≤ argp.length := by
        by_contra past
        exact differ (agree _ (by omega))
      omega

/-- One comparison selects just the name itself and reads inside. -/
theorem comparable_iff (made : Made T o) (nonempty : argp ≠ []) :
    (o.isNamed T argp = decide (o.nameChars = argp) ∧ o.Reads T argp) ↔ o.Comparable argp := by
  by_cases named : argp = o.nameChars
  · have isName : decide (o.nameChars = argp) = true := decide_eq_true named.symm
    rw [isName, comparable_iff_of_named made nonempty named]
    exact ⟨fun right => ⟨fun _ => right, fun other => absurd named other⟩,
      fun right => right.named named⟩
  · have isOther : decide (o.nameChars = argp) = false := decide_eq_false (Ne.symm named)
    rw [isOther, comparable_iff_of_other made nonempty named]
    exact ⟨fun right => ⟨fun same => absurd same named, fun _ => right⟩,
      fun right => right.started named⟩

/-! ### The loop -/

/-- **The match loop**, on what follows the hyphen of an argument: it selects the first option that has the argument for its name, and reads
nothing outside, just where every comparison up to this option is of strings that can be
compared so. -/
theorem match_iff {optlist : String} {opts : List OptionDescriptor}
    (accepted : setParseargsOptFromAny T optlist = .ok opts) (nonempty : argp ≠ []) :
    ((opts.findIdx? fun o => o.isNamed T argp) =
        (opts.findIdx? fun o => decide (o.nameChars = argp)) ∧
      UpTo (fun o => o.isNamed T argp) (fun o => o.Reads T argp) opts) ↔
    UpTo (fun o => decide (o.nameChars = argp)) (fun o => o.Comparable argp) opts := by
  rw [findIdx?_eq_and_iff]
  exact UpTo.congr fun o mem => comparable_iff (made_of_accepted accepted o mem) nonempty

end Match

theorem match_iff_optionB :
    (([optionB].findIdx? fun o => o.isNamed plainTcl ['b']) =
        ([optionB].findIdx? fun o => decide (o.nameChars = ['b'])) ∧
      UpTo (fun o => o.isNamed plainTcl ['b']) (fun o => o.Reads plainTcl ['b']) [optionB]) ↔
    UpTo (fun o => decide (o.nameChars = ['b'])) (fun o => o.Comparable ['b']) [optionB] :=
  match_iff (accepted_optionB plainTcl) (by simp)

/-- The definition of an option with a name of two bytes. -/
def optionE : OptionDescriptor := ⟨"é.arg", none, none, 2, .any, some 'é'⟩

theorem accepted_optionE (T : Tcl) :
    setParseargsOptFromAny T (T.ofList [T.ofList ["é.arg"]]) = .ok [optionE] := by
  have word : descriptorOf T (T.ofList ["é.arg"]) = .ok optionE := by
    rw [descriptorOf, T.elements_ofList]
    rfl
  rw [setParseargsOptFromAny, T.elements_ofList]
  simp only [mapM_cons, mapM_nil, word]
  rfl

/-- The period after a name of two bytes is compared with the end of the argument. -/
theorem two_bytes_not_matched : ¬ ∀ (T : Tcl) (optlist : String) (opts : List OptionDescriptor)
    (argp : List Char), setParseargsOptFromAny T optlist = .ok opts → argp ≠ [] →
    (opts.findIdx? fun o => o.isNamed T argp) =
        (opts.findIdx? fun o => decide (o.nameChars = argp)) ∧
      UpTo (fun o => o.isNamed T argp) (fun o => o.Reads T argp) opts := by
  intro claim
  have found := (claim plainTcl _ _ ['é'] (accepted_optionE plainTcl) (by simp)).1
  have missed : optionE.isNamed plainTcl ['é'] = false := by decide
  have isName : decide (optionE.nameChars = ['é']) = true := by decide
  simp [findIdx?_cons, missed, isName] at found

end Twapi.Parseargs
