import Mathlib.Logic.Function.Basic
import Mathlib.Tactic.Push
import Mathlib.Tactic.SplitIfs
import Twapi.Base.StringMatch
import Twapi.Lib.Machine

/-!
How a call finds the definition of a method, in `tcl/metoo.tcl`.

* `_call`, `my` and `next` ask `info commands` for a method of each class on the way up, which
  takes the name for a pattern.
* `fuel` bounds the classes that are asked. Where a class is above itself the code would not end.
* `resolves_iff` — all three find what is meant in every hierarchy without such loops, where
  the name has no characters of patterns.

The class itself defines the methods `destroy` and `variable`, in the way its definition does.
-/

namespace Twapi.Metoo.Resolve

open Base Lib

/-- The variable `super` and the commands `methods::_m_name` of the namespaces of classes. -/
structure Hierarchy where
  super : String → Option String
  methods : String → List String

namespace Hierarchy

variable (s : Hierarchy)

/-- `[llength [info commands ${class_ns}::methods::_m_$methodname]]` -/
def infoCommands (class_ns methodname : String) : Bool :=
  (s.methods class_ns).any fun name =>
    stringCaseMatch id ("_m_".toList ++ methodname.toList) ("_m_".toList ++ name.toList)

/-- From a class on; the result is `none` where the classes end without such a method. -/
def locateMethod : (fuel : Nat) → (class_ns methodname : String) → Option (Option String)
  | 0, _, _ => none
  | fuel + 1, class_ns, methodname =>
    if s.infoCommands class_ns methodname then some (some class_ns)
    else
      match s.super class_ns with
      | some sup => locateMethod fuel sup methodname
      | none => some none

/-- What is done with a call. -/
inductive Outcome where
  | invoke (class_ns methodname : String)
  | unknown (class_ns methodname : String)
  | nothing
  | error (text : String)
deriving DecidableEq

/-- The body that `_call` and `my` have in common. -/
def dispatch (fuel : Nat) (class_ns methodname : String) : Option Outcome := do
  match ← s.locateMethod fuel class_ns methodname with
  | some meth => return .invoke meth methodname
  | none =>
    if methodname = "constructor" ∨ methodname = "destructor" then return .nothing
    match ← s.locateMethod fuel class_ns "unknown" with
    | some meth => return .unknown meth methodname
    | none => return .error ("Unknown method " ++ methodname)

/-- `_call`, for an object of the class. -/
def call (fuel : Nat) (class_ns methodname : String) : Option Outcome :=
  s.dispatch fuel class_ns methodname

def my (fuel : Nat) (class_ns methodname : String) : Option Outcome :=
  s.dispatch fuel class_ns methodname

/-- In a method of the class. The method is named by its command. -/
def next : (fuel : Nat) → (class_ns methodname : String) → Option Outcome
  | 0, _, _ => none
  | fuel + 1, class_ns, methodname =>
    match s.super class_ns with
    | some sup =>
      if s.infoCommands sup methodname then some (.invoke sup methodname)
      else next fuel sup methodname
    | none => some (.error ("'next' command has no receiver in the hierarchy for method _m_" ++
        methodname))

/-- A class and those above it. -/
inductive Chain : String → List String → Prop
  | root {c : String} (top : s.super c = none) : Chain c [c]
  | up {c d : String} {cs : List String} (super : s.super c = some d) (rest : Chain d cs) :
      Chain c (c :: cs)

/-! ### What is meant -/

/-- The nearest class that defines a method. -/
def nearest (cs : List String) (methodname : String) : Option String :=
  cs.find? fun c => methodname ∈ s.methods c

def meant (cs : List String) (methodname : String) : Outcome :=
  match s.nearest cs methodname with
  | some meth => .invoke meth methodname
  | none =>
    if methodname = "constructor" ∨ methodname = "destructor" then .nothing
    else
      match s.nearest cs "unknown" with
      | some meth => .unknown meth methodname
      | none => .error ("Unknown method " ++ methodname)

def meantNext (cs : List String) (methodname : String) : Outcome :=
  match s.nearest cs.tail methodname with
  | some meth => .invoke meth methodname
  | none => .error ("'next' command has no receiver in the hierarchy for method _m_" ++ methodname)

/-- All ways to call a method end, in what is meant. -/
def Resolves (class_ns methodname : String) : Prop :=
  ∃ cs, s.Chain class_ns cs ∧ ∀ fuel, cs.length ≤ fuel →
    s.call fuel class_ns methodname = some (s.meant cs methodname) ∧
      s.my fuel class_ns methodname = some (s.meant cs methodname) ∧
      s.next fuel class_ns methodname = some (s.meantNext cs methodname)

end Hierarchy

/-! ### Definitions -/

inductive Label where
  | method (class_ns name : String)
  | superclass (class_ns sup : String)

def step (s : Hierarchy) : Label → Option Hierarchy
  | .method class_ns name =>
    some { s with methods := Function.update s.methods class_ns (name :: s.methods class_ns) }
  | .superclass class_ns sup =>
    if s.super class_ns = none then
      some { s with super := Function.update s.super class_ns (some sup) }
    else some s

def machine : Machine Hierarchy Label := ⟨(· = ⟨fun _ => none, fun _ => []⟩), step⟩

/-- No class is put above itself. -/
def NoLoop (s : Hierarchy) : Label → Prop
  | .method _ _ => True
  | .superclass class_ns sup => ∀ cs, s.Chain sup cs → class_ns ∉ cs

section

variable {s : Hierarchy} {c d m : String} {cs : List String}

variable {fuel : Nat}

/-- What is found is found by the pattern in the classes of the chain. -/
theorem locateMethod_chain (chain : s.Chain c cs) (enough : cs.length ≤ fuel) :
    s.locateMethod fuel c m = some (cs.find? fun c => s.infoCommands c m) := by
  induction chain generalizing fuel with
  | root top =>
    obtain ⟨fuel, rfl⟩ : ∃ n, fuel = n + 1 := ⟨fuel - 1, by simp at enough; omega⟩
    rw [Hierarchy.locateMethod, top, List.find?_singleton]
    split <;> simp_all
  | up super rest ih =>
    obtain ⟨fuel, rfl⟩ : ∃ n, fuel = n + 1 := ⟨fuel - 1, by simp at enough; omega⟩
    rw [Hierarchy.locateMethod, super, List.find?_cons]
    simp only [ih (by simpa using enough)]
    split <;> simp_all

theorem next_chain (chain : s.Chain c cs) (enough : cs.length ≤ fuel) :
    s.next fuel c m = some (match cs.tail.find? fun c => s.infoCommands c m with
      | some meth => .invoke meth m
      | none => .error
          ("'next' command has no receiver in the hierarchy for method _m_" ++ m)) := by
  induction chain generalizing fuel with
  | root top =>
    obtain ⟨fuel, rfl⟩ : ∃ n, fuel = n + 1 := ⟨fuel - 1, by simp at enough; omega⟩
    rw [Hierarchy.next, top]
    rfl
  | up super rest ih =>
    obtain ⟨fuel, rfl⟩ : ∃ n, fuel = n + 1 := ⟨fuel - 1, by simp at enough; omega⟩
    rw [Hierarchy.next, super]
    simp only [ih (by simpa using enough), List.tail_cons]
    cases rest with
    | root => 
      simp only [List.find?_singleton, List.tail_cons]
      split <;> simp_all
    | up =>
      simp only [List.find?_cons, List.tail_cons]
      split <;> simp_all

theorem infoCommands_eq (s : Hierarchy) (c m : String) :
    s.infoCommands c m = (s.methods c).any fun name => stringCaseMatch id m.toList name.toList := by
  have literal (x : Char) (pattern t : List Char) (plain : x ∉ specials) :
      stringCaseMatch id (x :: pattern) (x :: t) = stringCaseMatch id pattern t := by
    simp only [specials, List.mem_cons, not_or] at plain
    rw [stringCaseMatch.eq_def]
    simp [plain.1, plain.2.1, plain.2.2.1, plain.2.2.2]
  have start (p t : List Char) :
      stringCaseMatch id ("_m_".toList ++ p) ("_m_".toList ++ t) = stringCaseMatch id p t := by
    change stringCaseMatch id ('_' :: 'm' :: '_' :: p) ('_' :: 'm' :: '_' :: t) = _
    rw [literal _ _ _ (by decide), literal _ _ _ (by decide), literal _ _ _ (by decide)]
  simp only [Hierarchy.infoCommands, start]

/-- A name without such characters is only found where it is defined. -/
theorem infoCommands_plain (plain : ∀ x ∈ m.toList, x ∉ specials) (s : Hierarchy) (c : String) :
    s.infoCommands c m = decide (m ∈ s.methods c) := by
  have same (name : String) : stringCaseMatch id m.toList name.toList = decide (name = m) := by
    rw [Bool.eq_iff_iff, stringCaseMatch_iff _ plain, List.map_id, List.map_id, decide_eq_true_iff,
      String.toList_inj]
  rw [Bool.eq_iff_iff, infoCommands_eq]
  simp [same]

theorem chain_method (chain : s.Chain c cs) (methods : String → List String) :
    Hierarchy.Chain { s with methods := methods } c cs := by
  induction chain with
  | root top => exact .root top
  | up super rest ih => exact .up super ih

/-- Where a class gets a superclass, chains that end in it go on. -/
theorem chain_superclass {ds : List String} (top : s.super c = none) (above : s.Chain d ds)
    (noLoop : c ∉ ds) {x : String} (chain : s.Chain x cs) :
    ∃ cs, Hierarchy.Chain { s with super := Function.update s.super c (some d) } x cs := by
  have kept {y : String} {ys : List String} (chain : s.Chain y ys) (out : c ∉ ys) :
      Hierarchy.Chain { s with super := Function.update s.super c (some d) } y ys := by
    induction chain with
    | @root y top' =>
      have other : y ≠ c := fun same => out (by simp [same])
      exact .root ((Function.update_of_ne other _ _).trans top')
    | @up y z ys super rest ih =>
      have other : y ≠ c := fun same => out (by simp [same])
      exact .up ((Function.update_of_ne other _ _).trans super)
        (ih fun among => out (List.mem_cons_of_mem _ among))
  have mine : Hierarchy.Chain { s with super := Function.update s.super c (some d) } c (c :: ds) :=
    .up (Function.update_self ..) (kept above noLoop)
  induction chain with
  | @root y top' =>
    by_cases same : y = c
    · subst same
      exact ⟨_, mine⟩
    · exact ⟨_, .root ((Function.update_of_ne same _ _).trans top')⟩
  | @up y z ys super rest ih =>
    have other : y ≠ c := fun same => by simp [same, top] at super
    obtain ⟨cs, chain⟩ := ih
    exact ⟨_, .up ((Function.update_of_ne other _ _).trans super) chain⟩

theorem chain_exists (hs : machine.Reaches NoLoop s) : ∀ c, ∃ cs, s.Chain c cs := by
  refine hs.invariant (P := fun s => ∀ c, ∃ cs, s.Chain c cs) (fun s start c => ⟨[c], .root ?_⟩) ?_
  · intro s label t ih noLoop stepped c
    cases label with
    | method class_ns name =>
      obtain rfl := Option.some.inj stepped
      exact (ih c).imp fun cs chain => chain_method chain _
    | superclass class_ns sup =>
      simp only [machine, step] at stepped
      split at stepped
      · rename_i top
        obtain rfl := Option.some.inj stepped
        obtain ⟨ds, above⟩ := ih sup
        obtain ⟨cs, chain⟩ := ih c
        exact chain_superclass top above (noLoop ds above) chain
      · obtain rfl := Option.some.inj stepped
        exact ih c
  · have blank : s = _ := start
    rw [blank]

theorem unknown_plain : ∀ x ∈ "unknown".toList, x ∉ specials := by simp [specials]

theorem call_chain (chain : s.Chain c cs) (enough : cs.length ≤ fuel) :
    s.call fuel c m = some (match cs.find? fun c => s.infoCommands c m with
      | some meth => .invoke meth m
      | none =>
        if m = "constructor" ∨ m = "destructor" then .nothing
        else
          match s.nearest cs "unknown" with
          | some meth => .unknown meth m
          | none => .error ("Unknown method " ++ m)) := by
  rw [Hierarchy.call, Hierarchy.dispatch, locateMethod_chain chain enough,
    locateMethod_chain chain enough, Hierarchy.nearest]
  simp only [infoCommands_plain unknown_plain]
  cases cs.find? fun c => s.infoCommands c m with
  | some meth => rfl
  | none =>
    by_cases own : m = "constructor" ∨ m = "destructor"
    · simp [own]
    · simp only [own, if_false, Option.bind_eq_bind, Option.bind_some]
      cases cs.find? fun c => decide ("unknown" ∈ s.methods c) <;> rfl

theorem resolves_of_plain (plain : ∀ x ∈ m.toList, x ∉ specials) (chain : s.Chain c cs) :
    s.Resolves c m := by
  refine ⟨cs, chain, fun fuel enough => ⟨?_, ?_, ?_⟩⟩
  · rw [call_chain chain enough]
    simp only [infoCommands_plain plain]
    rfl
  · change s.call fuel c m = _
    rw [call_chain chain enough]
    simp only [infoCommands_plain plain]
    rfl
  · rw [next_chain chain enough]
    simp only [infoCommands_plain plain]
    rfl

/-- Where a class without a superclass resolves a name, the name is found if it is defined. -/
theorem infoCommands_of_resolves (top : s.super c = none) (h : s.Resolves c m) :
    s.infoCommands c m = decide (m ∈ s.methods c) := by
  obtain ⟨cs, chain, h⟩ := h
  have called := (h cs.length (Nat.le_refl _)).1
  rw [call_chain chain (Nat.le_refl _)] at called
  cases chain with
  | up super => simp [top] at super
  | root =>
    have called := Option.some.inj called
    simp only [Hierarchy.meant, Hierarchy.nearest, List.find?_singleton] at called
    cases found : s.infoCommands c m <;> cases defined : decide (m ∈ s.methods c) <;>
      simp only [found, defined, Bool.false_eq_true, if_true, if_false] at called ⊢
    all_goals
      split at called
      · cases called
      · split at called <;> cases called

/-- A name with such characters does not find a method of that name, or finds one of another. -/
theorem not_resolves_of_special (special : ¬ ∀ x ∈ m.toList, x ∉ specials) :
    ∃ n, ¬ Hierarchy.Resolves ⟨fun _ => none, Function.update (fun _ => []) "::C" [n]⟩ "::C" m := by
  push Not at special
  by_cases self : stringCaseMatch id m.toList m.toList
  · obtain ⟨t, other, found⟩ := exists_other_match self (.inr ⟨Nat.le_refl _, special⟩)
    refine ⟨String.ofList t, fun h => ?_⟩
    have := infoCommands_of_resolves rfl h
    rw [infoCommands_eq] at this
    have other' : m ≠ String.ofList t := fun same => other (by simp [same])
    simp [found, other'] at this
  · refine ⟨m, fun h => ?_⟩
    have := infoCommands_of_resolves rfl h
    rw [infoCommands_eq] at this
    simp [self] at this

end

/-- All calls of a method by a name find what is meant, in every hierarchy in which no class is
above itself, if and only if the name has none of the characters of patterns. -/
theorem resolves_iff (m : String) :
    (∀ s, machine.Reaches NoLoop s → ∀ c, s.Resolves c m) ↔ ∀ x ∈ m.toList, x ∉ specials := by
  constructor
  · intro all
    by_contra special
    obtain ⟨n, fails⟩ := not_resolves_of_special special
    refine fails (all _ ?_ "::C")
    exact (Machine.Reaches.init rfl).step (a := .method "::C" n) trivial rfl
  · intro plain s hs c
    obtain ⟨cs, chain⟩ := chain_exists hs c
    exact resolves_of_plain plain chain

/-- A method is found that has another name. -/
theorem not_resolves_of_star : ∃ s, machine.Reaches NoLoop s ∧ ¬ s.Resolves "::C" "g*" := by
  refine ⟨_, (Machine.Reaches.init rfl).step (a := .method "::C" "get") trivial rfl, fun h => ?_⟩
  have found := infoCommands_of_resolves rfl h
  simp [infoCommands_eq, stringCaseMatch] at found

end Twapi.Metoo.Resolve
