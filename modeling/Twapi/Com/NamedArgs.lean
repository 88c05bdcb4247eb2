import Twapi.Base.StringMatch
import Twapi.Com.Invoke
import Twapi.Lib.Results

/-!
`@Invoke` and `Invoke` of `IDispatchProxy`, `tcl/com.tcl`: the choice of a prototype, and
positional and named arguments.

* `@Prototype` gives a prototype or none for each invocation kind; where it fails so does
  the method. Types are numbers.
* `picked` — the prototype of the highest priority.
* `Bound` — each parameter has the argument at its own position, else the last one of its
  name.
* `atInvoke_bound` — when there is a call, and what it passes.
-/

namespace Twapi.Com.NamedArgs

open Base List Option

variable {Obj : Type}

/-! ### Prototypes -/

/-- The description of a parameter of a method: its type, and flags with a default value. -/
abbrev Param (Obj : Type) : Type := { desc : ParamDesc Obj // desc.modifier.isSome }

def Param.type (p : Param Obj) : TypeDesc := p.1.type

def Param.named (p : Param Obj) : Option Obj := p.1.named

/-- The first two elements of the description, and a third one if there is a value. -/
def Param.withNamed (p : Param Obj) (paramval : Option Obj) : Param Obj :=
  ⟨{ p.1 with named := paramval }, p.2⟩

/-- The parameters and the names of the first ones, or of none. -/
structure Signature (Obj : Type) where
  params : List (Param Obj)
  names : List String
  names_le : names.length ≤ params.length

def Signature.empty : Signature Obj := ⟨[], [], Nat.le_refl 0⟩

/-- `lset proto 4 $i`, of the value of a named argument. -/
def Signature.setNamed (signature : Signature Obj) (i : Nat) (paramval : Obj) : Signature Obj where
  params := signature.params.modify i fun p => p.withNamed (some paramval)
  names := signature.names
  names_le := by
    rw [List.length_modify]
    exact signature.names_le

def Param.bare (p : Param Obj) : Param Obj := p.withNamed none

def Signature.bare (signature : Signature Obj) : Signature Obj where
  params := signature.params.map Param.bare
  names := signature.names
  names_le := by
    rw [List.length_map]
    exact signature.names_le

/-- `signature` is `none` where there is no parameter information. The kind is `none` where
it is the first of no kinds. -/
structure Proto (Obj : Type) where
  dispid : Int
  lcid : Nat
  invkind : Option Nat
  rettype : TypeDesc
  signature : Option (Signature Obj)

/-- `{-4 0 2 13 {} {}}`. -/
def newEnum : Proto Obj := ⟨-4, 0, some 2, .one .unknown, some .empty⟩

/-- `{0 0 2 8 {}}`. -/
def defaultValue : Proto Obj := ⟨0, 0, some 2, .one .bstr, some .empty⟩

def Proto.params (proto : Proto Obj) : List (Param Obj) :=
  proto.signature.elim [] Signature.params

def Proto.names (proto : Proto Obj) : List String := proto.signature.elim [] Signature.names

variable {proto : Proto Obj}

variable {signature : Signature Obj}

theorem Proto.params_eq (info : proto.signature = some signature) :
    proto.params = signature.params := by
  rw [Proto.params, info]
  rfl

theorem Proto.names_eq (info : proto.signature = some signature) :
    proto.names = signature.names := by
  rw [Proto.names, info]
  rfl

/-! ### Objects -/

structure Failure where
  code : Option Nat
  message : String
deriving DecidableEq

/-- `comobj?`, and `-interface 0` of an automation object. -/
structure Automation (Obj : Type) where
  isComobj : Obj → Bool
  interface : Obj → Except Failure Obj

/-- The interface of an automation object, and any other value as it is. -/
def Automation.pointer (A : Automation Obj) (obj : Obj) : Except Failure Obj :=
  if A.isComobj obj then A.interface obj else .ok obj

/-! ### `Invoke` -/

def takesObject (vt : VarType) : Bool := vt = .dispatch || vt = .variant

/-- The first element of a type, or of what it points to. -/
def baseType : TypeDesc → Option VarType
  | .two .ptr (.one vt) | .two .ptr (.two vt _) => some vt
  | .one .ptr | .two .ptr .invalid | .invalid => none
  | .one vt | .two vt _ => some vt

def notNumeric (s : String) : Failure :=
  ⟨none,
    if s.isEmpty then "can't use empty string as operand of \"&\""
    else "can't use non-numeric string as operand of \"&\""⟩

/-- The argument that is passed for a parameter. That of one that is only in may be an
automation object. -/
def Automation.argument (A : Automation Obj) (param : Option (Param Obj)) (arg : Obj) :
    Except Failure Obj :=
  match param with
  | none => .ok arg
  | some p =>
    match p.1.modifier with
    | some (.token s) => .error (notNumeric s)
    | some (.number n) =>
      if n % 2 = 1 ∧ n / 2 % 2 = 0 ∧ (baseType p.type).any takesObject then
        A.pointer arg
      else .ok arg
    | some .absent | none => .ok arg

/-- The loop over the arguments. -/
def Automation.arguments (A : Automation Obj) : List (Param Obj) → List Obj →
    Except Failure (List Obj)
  | _, [] => .ok []
  | params, arg :: args => do
      let arg ← A.argument params.head? arg
      let args ← A.arguments params.tail args
      return arg :: args

/-- What `IDispatch_Invoke` is called with; a prototype that is `none` is empty. -/
structure Sent (Obj : Type) where
  proto : Option (Proto Obj)
  args : List Obj

/-- `Invoke`. -/
def Automation.invoke (A : Automation Obj) (proto : Option (Proto Obj)) (args : List Obj) :
    Except Failure (Sent Obj) :=
  match proto with
  | none => .ok ⟨if args.isEmpty then some defaultValue else none, args⟩
  | some proto => do
      let args ← A.arguments proto.params args
      return ⟨some proto, args⟩

/-! ### `@Invoke` -/

/-- `@Prototype` and `@GetIDOfOneName` of the proxy. -/
structure Dispatch (Obj : Type) where
  prototype : String → (lcid invkind : Nat) → Option (Proto Obj)
  dispid : String → Option Int

/-- The arguments of `@Invoke`. Named arguments without a value have an empty one. -/
structure Request (Obj : Type) where
  name : String
  invkinds : List Nat
  lcid : Nat
  params : List Obj
  namedargs : List (String × Obj)

def noMember (name : String) : Failure :=
  ⟨some 0x80020003, s!"No property or method found with name '{name}'."⟩

def noParameter (paramname name : String) : Failure :=
  ⟨some 0x80020004, s!"No parameter with name '{paramname}' found for method '{name}'"⟩

/-- The classes of prototypes, each in the order of the kinds. -/
structure Classes (Obj : Type) where
  class1 : List (Proto Obj)
  class2 : List (Proto Obj)
  class3 : List (Proto Obj)

/-- The loop over the kinds, for `nparams` arguments. It ends with the first exact match. -/
def classify (prototype : Nat → Option (Proto Obj)) (nparams : Nat) :
    List Nat → Classes Obj → Classes Obj
  | [], classes => classes
  | invkind :: invkinds, classes =>
    match prototype invkind with
    | none => classify prototype nparams invkinds classes
    | some proto =>
      match proto.signature with
      | none =>
        classify prototype nparams invkinds
          { classes with class3 := classes.class3 ++ [proto] }
      | some signature =>
        if signature.params.length = nparams then
          { classes with class1 := classes.class1 ++ [proto] }
        else if nparams < signature.params.length then
          classify prototype nparams invkinds
            { classes with class2 := classes.class2 ++ [proto] }
        else classify prototype nparams invkinds classes

section Invoke

variable (lower : Char → Char) (A : Automation Obj)

/-- The value of a named argument for a parameter of the type. -/
def Automation.paramval (paramtype : Option TypeDesc) (paramval : Obj) : Except Failure Obj :=
  if paramtype = some (.one .dispatch) ∨ paramtype = some (.one .variant) then A.pointer paramval
  else .ok paramval

/-- The loop over the named arguments of the method `name`. -/
def setNamedargs (name : String) :
    List (String × Obj) → Signature Obj → Except Failure (Signature Obj)
  | [], signature => .ok signature
  | (paramname, paramval) :: namedargs, signature =>
    match lsearchNocase lower signature.names paramname with
    | none => .error (noParameter paramname name)
    | some paramindex => do
        let paramval ← A.paramval (signature.params[paramindex]?.map Param.type) paramval
        setNamedargs name namedargs (signature.setNamed paramindex paramval)

/-- A prototype with more parameters than there are arguments. -/
def withNamedargs (r : Request Obj) (proto : Proto Obj) : Except Failure (Proto Obj) :=
  match proto.signature with
  | none => .ok proto
  | some signature =>
    if r.namedargs.isEmpty ∨ signature.names.isEmpty then .ok proto
    else do
      let signature ← setNamedargs lower A r.name r.namedargs signature
      return { proto with signature := some signature }

/-- The last resort. -/
def byName (D : Dispatch Obj) (r : Request Obj) : Option (Proto Obj) :=
  (D.dispid r.name).map fun dispid => ⟨dispid, 0, r.invkinds.head?, .one .bstr, none⟩

def choose (D : Dispatch Obj) (r : Request Obj) : Except Failure (Proto Obj) :=
  let classes :=
    if r.name = "_NewEnum" then ⟨[newEnum], [], []⟩
    else classify (D.prototype r.name r.lcid) r.params.length r.invkinds ⟨[], [], []⟩
  match classes.class1.head?, classes.class2.head?, classes.class3.head? with
  | some proto, _, _ => .ok proto
  | none, some proto, _ => withNamedargs lower A r proto
  | none, none, some proto => .ok proto
  | none, none, none =>
    match byName D r with
    | some proto => .ok proto
    | none => .error (noMember r.name)

/-- `@Invoke`. -/
def atInvoke (D : Dispatch Obj) (r : Request Obj) : Except Failure (Sent Obj) :=
  if r.name = "" then A.invoke none r.params
  else do
    let proto ← choose lower A D r
    A.invoke (some proto) r.params

end Invoke

/-! ### The choice of a prototype -/

section Choice

variable (nparams : Nat)

/-- With parameter information, of as many parameters as there are arguments. -/
def Proto.exact (proto : Proto Obj) : Bool :=
  proto.signature.any fun signature => signature.params.length = nparams

/-- With parameter information, of more parameters. -/
def Proto.more (proto : Proto Obj) : Bool :=
  proto.signature.any fun signature => nparams < signature.params.length

theorem Proto.of_exact {nparams : Nat} {proto : Proto Obj} (exact : proto.exact nparams) :
    ∃ signature, proto.signature = some signature ∧ signature.params.length = nparams := by
  obtain ⟨signature, info, same⟩ := any_eq_true _ _ |>.mp exact
  exact ⟨signature, info, of_decide_eq_true same⟩

theorem Proto.of_more {nparams : Nat} {proto : Proto Obj} (more : proto.more nparams) :
    ∃ signature, proto.signature = some signature ∧ nparams < signature.params.length := by
  obtain ⟨signature, info, less⟩ := any_eq_true _ _ |>.mp more
  exact ⟨signature, info, of_decide_eq_true less⟩

def Proto.unknown (proto : Proto Obj) : Bool := proto.signature.isNone

/-- The first of the prototypes that has the highest priority. -/
def ranked (found : List (Proto Obj)) : Option (Proto Obj) :=
  (found.find? fun proto => proto.exact nparams).or
    ((found.find? fun proto => proto.more nparams).or (found.find? Proto.unknown))

end Choice

/-- The prototype that is invoked, apart from the named arguments. -/
def picked (D : Dispatch Obj) (r : Request Obj) : Option (Proto Obj) :=
  if r.name = "_NewEnum" then some newEnum
  else
    (ranked r.params.length (r.invkinds.filterMap (D.prototype r.name r.lcid))).or (byName D r)

section Classes

variable {prototype : Nat → Option (Proto Obj)} {nparams : Nat}

theorem class1_classify (invkinds : List Nat) (classes : Classes Obj) :
    (classify prototype nparams invkinds classes).class1 =
      classes.class1 ++
        ((invkinds.filterMap prototype).find? fun proto => proto.exact nparams).toList := by
  fun_induction classify prototype nparams invkinds classes with
  | case1 classes => exact (append_nil _).symm
  | case2 classes invkind invkinds missing ih => rw [ih, filterMap_cons_none missing]
  | case3 classes invkind invkinds proto found info ih =>
    rw [ih, filterMap_cons_some found, find?_cons_of_neg]
    simp [Proto.exact, info]
  | case4 classes invkind invkinds proto found signature info exact =>
    rw [filterMap_cons_some found, find?_cons_of_pos]
    · rfl
    · simp [Proto.exact, info, exact]
  | case5 classes invkind invkinds proto found signature info other _ ih =>
    rw [ih, filterMap_cons_some found, find?_cons_of_neg]
    simp [Proto.exact, info, other]
  | case6 classes invkind invkinds proto found signature info other _ ih =>
    rw [ih, filterMap_cons_some found, find?_cons_of_neg]
    simp [Proto.exact, info, other]

/-- The classes where no prototype has as many parameters as there are arguments. -/
theorem classify_eq (invkinds : List Nat) (classes : Classes Obj)
    (none_ : ∀ proto ∈ invkinds.filterMap prototype, ¬ proto.exact nparams) :
    classify prototype nparams invkinds classes =
      ⟨classes.class1,
        classes.class2 ++ (invkinds.filterMap prototype).filter fun proto => proto.more nparams,
        classes.class3 ++ (invkinds.filterMap prototype).filter Proto.unknown⟩ := by
  fun_induction classify prototype nparams invkinds classes with
  | case1 classes => simp
  | case2 classes invkind invkinds missing ih =>
    rw [filterMap_cons_none missing] at none_ ⊢
    exact ih none_
  | case3 classes invkind invkinds proto found info ih =>
    rw [filterMap_cons_some found] at none_ ⊢
    rw [ih (forall_mem_cons.mp none_).2]
    simp [Proto.more, Proto.unknown, info]
  | case4 classes invkind invkinds proto found signature info exact =>
    rw [filterMap_cons_some found] at none_
    exact absurd (by simp [Proto.exact, info, exact]) (forall_mem_cons.mp none_).1
  | case5 classes invkind invkinds proto found signature info _ more ih =>
    rw [filterMap_cons_some found] at none_ ⊢
    rw [ih (forall_mem_cons.mp none_).2]
    simp [Proto.more, Proto.unknown, info, more]
  | case6 classes invkind invkinds proto found signature info _ less ih =>
    rw [filterMap_cons_some found] at none_ ⊢
    rw [ih (forall_mem_cons.mp none_).2]
    simp [Proto.more, Proto.unknown, info, less]

end Classes

section Choose

variable (lower : Char → Char) (A : Automation Obj) (D : Dispatch Obj) (r : Request Obj)

/-- What becomes of the prototype that is picked. -/
def settled (proto : Proto Obj) : Except Failure (Proto Obj) :=
  if proto.more r.params.length then withNamedargs lower A r proto else .ok proto

theorem settled_of_exact {proto : Proto Obj} (exact : proto.exact r.params.length) :
    settled lower A r proto = .ok proto := by
  obtain ⟨signature, info, same⟩ := Proto.of_exact exact
  apply if_neg
  rw [Proto.more, info]
  simpa using Nat.le_of_eq same

theorem settled_of_unknown {proto : Proto Obj} (unknown : proto.unknown) :
    settled lower A r proto = .ok proto := by
  apply if_neg
  rw [Proto.more, isNone_iff_eq_none.mp unknown]
  exact Bool.false_ne_true

/-- `choose`, of the prototypes that are found. -/
theorem choose_eq :
    choose lower A D r =
      match picked D r with
      | none => .error (noMember r.name)
      | some proto => settled lower A r proto := by
  unfold choose picked
  by_cases special : r.name = "_NewEnum"
  · simp only [if_pos special, head?_cons, settled]
    rw [if_neg]
    simp [Proto.more, newEnum, Signature.empty]
  simp only [if_neg special]
  set found := r.invkinds.filterMap (D.prototype r.name r.lcid) with found_eq
  cases exact : found.find? fun proto => proto.exact r.params.length with
  | some proto =>
    have class1 : (classify (D.prototype r.name r.lcid) r.params.length r.invkinds
        ⟨[], [], []⟩).class1 = _ := class1_classify _ _
    rw [← found_eq, exact] at class1
    simp only [ranked, exact, class1, some_or]
    exact (settled_of_exact lower A r (find?_some exact)).symm
  | none =>
    rw [classify_eq _ _ (find?_eq_none.mp exact), ← found_eq]
    simp only [ranked, exact, head?_nil, nil_append, head?_filter,
      none_or]
    cases more : found.find? fun proto => proto.more r.params.length with
    | some proto =>
      have isMore : proto.more r.params.length := find?_some more
      simp only [some_or, settled, if_pos isMore]
    | none =>
      cases unknown : found.find? Proto.unknown with
      | some proto =>
        simp only [none_or, some_or]
        exact (settled_of_unknown lower A r (find?_some unknown)).symm
      | none =>
        simp only [none_or]
        cases last : byName D r with
        | none => rfl
        | some proto =>
          obtain ⟨dispid, -, rfl⟩ := map_eq_some_iff.mp last
          exact (settled_of_unknown lower A r rfl).symm

end Choose

/-! ### Named arguments -/

section Named

variable (lower : Char → Char) (A : Automation Obj)

/-- A name without characters that stand for others. -/
def Plain (paramname : String) : Prop := ∀ c ∈ paramname.toList, c ∉ specials

/-- The value `v` of the named argument is for parameter `i`. -/
def Places (signature : Signature Obj) (arg : String × Obj) (i : Nat) (v : Obj) : Prop :=
  positionNocase lower signature.names arg.1 = some i ∧
    A.paramval (signature.params[i]?.map Param.type) arg.2 = .ok v

/-- The last argument with the name of parameter `i`. -/
def lastNamed (names : List String) (i : Nat) (namedargs : List (String × Obj)) :
    Option (String × Obj) :=
  namedargs.reverse.find? fun arg => positionNocase lower names arg.1 = some i

variable {lower A} {signature signature' : Signature Obj}

theorem getElem?_setNamed (j : Nat) (v : Obj) (i : Nat) :
    (signature.setNamed j v).params[i]? =
      signature.params[i]?.map fun p => if j = i then p.withNamed (some v) else p := by
  rw [Signature.setNamed, getElem?_modify]
  split <;> rfl

/-- What does not depend on named arguments is as before. -/
theorem map_setNamed {β : Type} {f : Param Obj → β} (j : Nat) (v : Obj) (i : Nat)
    (same : ∀ p, f (p.withNamed (some v)) = f p) :
    (signature.setNamed j v).params[i]?.map f = signature.params[i]?.map f := by
  rw [getElem?_setNamed, Option.map_map]
  congr 1
  funext p
  dsimp only [Function.comp]
  split
  · exact same p
  · rfl

theorem bare_setNamed (j : Nat) (v : Obj) : (signature.setNamed j v).bare = signature.bare := by
  rw [Signature.bare, Signature.bare, Signature.mk.injEq]
  refine ⟨ext_getElem? fun i => ?_, rfl⟩
  rw [getElem?_map, getElem?_map]
  exact map_setNamed j v i fun _ => rfl

variable {arg : String × Obj}

theorem places_setNamed (j : Nat) (w : Obj) {i : Nat} {v : Obj} :
    Places lower A (signature.setNamed j w) arg i v ↔ Places lower A signature arg i v := by
  unfold Places
  rw [map_setNamed j w i fun _ => rfl]
  rfl

theorem lastNamed_nil (i : Nat) (namedargs : List (String × Obj)) :
    lastNamed lower [] i namedargs = none := by
  apply find?_eq_none.mpr
  simp [positionNocase]

theorem lastNamed_cons (names : List String) (i : Nat) (arg : String × Obj)
    (namedargs : List (String × Obj)) :
    lastNamed lower names i (arg :: namedargs) =
      (lastNamed lower names i namedargs).or
        (if positionNocase lower names arg.1 = some i then some arg else none) := by
  simp only [lastNamed, reverse_cons, find?_append, find?_singleton,
    decide_eq_true_eq]

variable {name : String} {namedargs : List (String × Obj)}

/-- One named argument and then the others. -/
theorem setNamedargs_cons (plain_ : Plain arg.1) :
    setNamedargs lower A name (arg :: namedargs) signature = .ok signature' ↔
      ∃ i v, Places lower A signature arg i v ∧
        setNamedargs lower A name namedargs (signature.setNamed i v) = .ok signature' := by
  rw [setNamedargs, lsearchNocase_eq _ plain_]
  unfold Places
  cases position : positionNocase lower signature.names arg.1 with
  | none => simp
  | some i =>
    constructor
    · intro ok
      obtain ⟨v, value, rest⟩ := Lib.bind_eq_ok ok
      exact ⟨i, v, ⟨rfl, value⟩, rest⟩
    · rintro ⟨j, v, ⟨same, value⟩, rest⟩
      cases same
      simp only [value, Lib.ok_bind, rest]

section Plain

variable (plain : ∀ arg ∈ namedargs, Plain arg.1)
include plain

/-- The named arguments can be used if each is the value of a parameter. -/
theorem exists_setNamedargs_iff :
    (∃ signature', setNamedargs lower A name namedargs signature = .ok signature') ↔
      ∀ arg ∈ namedargs, ∃ i v, Places lower A signature arg i v := by
  induction namedargs generalizing signature with
  | nil => simp [setNamedargs]
  | cons arg namedargs ih =>
    obtain ⟨plain_, plain⟩ := forall_mem_cons.mp plain
    simp only [setNamedargs_cons plain_, forall_mem_cons]
    constructor
    · rintro ⟨signature', i, v, places, rest⟩
      refine ⟨⟨i, v, places⟩, fun arg mem => ?_⟩
      obtain ⟨j, w, placesToo⟩ := (ih plain).mp ⟨signature', rest⟩ arg mem
      exact ⟨j, w, (places_setNamed i v).mp placesToo⟩
    · rintro ⟨⟨i, v, places⟩, later⟩
      have settable : ∀ arg ∈ namedargs, ∃ j w,
          Places lower A (signature.setNamed i v) arg j w := by
        intro arg mem
        obtain ⟨j, w, placesToo⟩ := later arg mem
        exact ⟨j, w, (places_setNamed i v).mpr placesToo⟩
      obtain ⟨signature', rest⟩ := (ih plain).mpr settable
      exact ⟨signature', i, v, places, rest⟩

/-- Where a parameter has named arguments, it is the last of these that it keeps. -/
theorem getElem?_setNamedargs (set : setNamedargs lower A name namedargs signature = .ok signature')
    (i : Nat) :
    match lastNamed lower signature.names i namedargs with
    | none => signature'.params[i]? = signature.params[i]?
    | some arg => ∃ v, Places lower A signature arg i v ∧
        signature'.params[i]? = signature.params[i]?.map (·.withNamed (some v)) := by
  induction namedargs generalizing signature with
  | nil =>
    cases set
    rfl
  | cons arg namedargs ih =>
    obtain ⟨plain_, plain⟩ := forall_mem_cons.mp plain
    obtain ⟨j, w, places, rest⟩ := (setNamedargs_cons plain_).mp set
    have later := ih plain rest
    change match lastNamed lower signature.names i namedargs with | none => _ | some arg => _
      at later
    rw [lastNamed_cons]
    cases last : lastNamed lower signature.names i namedargs with
    | some arg =>
      simp only [last] at later
      obtain ⟨v, placesToo, kept⟩ := later
      refine ⟨v, (places_setNamed j w).mp placesToo, ?_⟩
      rw [kept]
      exact map_setNamed j w i fun _ => rfl
    | none =>
      simp only [last, getElem?_setNamed] at later
      simp only [none_or, places.1, some_inj]
      by_cases here : j = i
      · subst here
        simp only [if_true] at later ⊢
        exact ⟨w, places, later⟩
      · simp only [if_neg here] at later ⊢
        rw [later, Option.map_id']

theorem bare_setNamedargs (set : setNamedargs lower A name namedargs signature = .ok signature') :
    signature'.bare = signature.bare := by
  induction namedargs generalizing signature with
  | nil =>
    cases set
    rfl
  | cons arg namedargs ih =>
    obtain ⟨plain_, plain⟩ := forall_mem_cons.mp plain
    obtain ⟨j, w, -, rest⟩ := (setNamedargs_cons plain_).mp set
    exact (ih plain rest).trans (bare_setNamed j w)

end Plain

end Named

/-! ### What is passed -/

/-- The prototype without the values of named arguments. -/
def Proto.bare (proto : Proto Obj) : Proto Obj :=
  { proto with signature := proto.signature.map Signature.bare }

/-- The descriptions that the command reads, for `nargs` arguments. -/
def Proto.descs (proto : Proto Obj) (nargs : Nat) : List (Option (ParamDesc Obj)) :=
  match proto.signature with
  | some signature => signature.params.map fun p => some p.1
  | none => List.replicate nargs none

/-- The value at position `i`. -/
def valueAt (proto : Proto Obj) (args : List Obj) (i : Nat) : Option Obj :=
  args[i]?.orElse fun _ => proto.params[i]?.bind Param.named

section Made

variable {proto proto' : Proto Obj}

theorem twapiMakeVariantParam_bare (T : Tcl Obj) (place : Address) (p : Param Obj)
    (arg : Option Obj) :
    twapiMakeVariantParam T place (some p.1) arg =
      twapiMakeVariantParam T place (some p.bare.1) (arg.orElse fun _ => p.named) := by
  have given : (arg.orElse fun _ => p.named).orElse (fun _ => none) =
      arg.orElse fun _ => p.named := by
    cases arg.orElse fun _ => p.named <;> rfl
  unfold twapiMakeVariantParam
  simp only [Param.bare, Param.withNamed, given]
  rfl

theorem makeParams_bare (T : Tcl Obj) {arg value : Nat → Option Obj} {params : List (Param Obj)}
    {k : Nat} (values : ∀ i p, params[i]? = some p →
      value (k + i) = (arg (k + i)).orElse fun _ => p.named) :
    makeParams T arg k (params.map fun p => some p.1) =
      makeParams T value k ((params.map Param.bare).map fun p => some p.1) := by
  induction params generalizing k with
  | nil => rfl
  | cons p params ih =>
    have first : value k = (arg k).orElse fun _ => p.named := values 0 p rfl
    have rest := ih (k := k + 1) fun i q at_ => by
      have := values (i + 1) q at_
      rwa [Nat.add_comm i 1, ← Nat.add_assoc] at this
    simp only [map_cons, makeParams, rest, first, twapiMakeVariantParam_bare T [k] p]

/-- The parameters are those that are made of the values, by position. -/
theorem makeParams_valueAt (T : Tcl Obj) (args : List Obj) :
    makeParams T (fun i => args[i]?) 0 (proto.descs args.length) =
      makeParams T (valueAt proto args) 0 (proto.bare.descs args.length) := by
  unfold Proto.descs
  cases info : proto.signature with
  | none =>
    have values : valueAt proto args = fun i => args[i]? := by
      funext i
      simp [valueAt, Proto.params, info]
    simp only [Proto.bare, info, map_none, values]
  | some signature =>
    simp only [Proto.bare, info, map_some]
    apply makeParams_bare
    intro i p at_
    simp [valueAt, Proto.params, info, at_]

end Made

theorem params_bare (proto : Proto Obj) : proto.bare.params = proto.params.map Param.bare := by
  unfold Proto.bare Proto.params
  cases proto.signature <;> rfl

/-- Where a prototype is found for the method, it has room for all of the arguments. -/
theorem length_le_of_picked {D : Dispatch Obj} {r : Request Obj} (found : picked D r = some proto)
    (method : r.name ≠ "_NewEnum") :
    r.params.length ≤ (proto.descs r.params.length).length := by
  have unknown (info : proto.unknown) :
      r.params.length ≤ (proto.descs r.params.length).length := by
    rw [Proto.descs, isNone_iff_eq_none.mp info]
    exact Nat.le_of_eq length_replicate.symm
  have known {signature : Signature Obj} (info : proto.signature = some signature)
      (le : r.params.length ≤ signature.params.length) :
      r.params.length ≤ (proto.descs r.params.length).length := by
    rw [Proto.descs, info, length_map]
    exact le
  rw [picked, if_neg method, ranked, or_eq_some_iff] at found
  rcases found with found | ⟨-, found⟩
  · simp only [or_eq_some_iff] at found
    rcases found with exact | ⟨-, more | ⟨-, none_⟩⟩
    · have isExact : proto.exact r.params.length := find?_some exact
      obtain ⟨signature, info, same⟩ := Proto.of_exact isExact
      exact known info (Nat.le_of_eq same.symm)
    · have isMore : proto.more r.params.length := find?_some more
      obtain ⟨signature, info, less⟩ := Proto.of_more isMore
      exact known info (Nat.le_of_lt less)
    · exact unknown (find?_some none_)
  · obtain ⟨dispid, -, rfl⟩ := map_eq_some_iff.mp found
    exact unknown rfl

section Arguments

variable {A : Automation Obj}

theorem argument_bare (p : Option (Param Obj)) (arg : Obj) :
    A.argument (p.map Param.bare) arg = A.argument p arg := by
  cases p <;> rfl

theorem argument_of_same {proto proto' : Proto Obj} (same : proto'.bare = proto.bare) (i : Nat)
    (arg : Obj) : A.argument proto'.params[i]? arg = A.argument proto.params[i]? arg := by
  rw [← argument_bare, ← argument_bare proto.params[i]?, ← getElem?_map, ← getElem?_map,
    ← params_bare, ← params_bare, same]

variable {params : List (Param Obj)} {args args' : List Obj}

theorem arguments_cons {arg : Obj} :
    A.arguments params (arg :: args) = .ok args' ↔
      ∃ v rest, A.argument params[0]? arg = .ok v ∧ A.arguments params.tail args = .ok rest ∧
        args' = v :: rest := by
  rw [Automation.arguments, head?_eq_getElem?]
  constructor
  · intro ok
    obtain ⟨v, first, ok⟩ := Lib.bind_eq_ok ok
    obtain ⟨rest, later, ok⟩ := Lib.bind_eq_ok ok
    exact ⟨v, rest, first, later, (Except.ok.inj ok).symm⟩
  · rintro ⟨v, rest, first, later, rfl⟩
    rw [first, Lib.ok_bind, later]
    rfl

/-- Each argument by itself, at its position. -/
theorem of_arguments_ok (ok : A.arguments params args = .ok args') :
    args'.length = args.length ∧ ∀ (i : Nat) (arg : Obj), args[i]? = some arg →
      ∃ v, A.argument params[i]? arg = .ok v ∧ args'[i]? = some v := by
  induction args generalizing params args' with
  | nil =>
    cases ok
    exact ⟨rfl, fun i arg at_ => nomatch at_⟩
  | cons arg args ih =>
    obtain ⟨v, rest, first, later, rfl⟩ := arguments_cons.mp ok
    obtain ⟨length, each⟩ := ih later
    refine ⟨congrArg Nat.succ length, fun i arg at_ => ?_⟩
    cases i with
    | zero =>
      cases at_
      exact ⟨v, first, rfl⟩
    | succ i =>
      obtain ⟨w, value, kept⟩ := each i arg at_
      exact ⟨w, getElem?_tail ▸ value, kept⟩

theorem exists_arguments (each : ∀ (i : Nat) (arg : Obj), args[i]? = some arg →
      ∃ v, A.argument params[i]? arg = .ok v) :
    ∃ args', A.arguments params args = .ok args' := by
  induction args generalizing params with
  | nil => exact ⟨[], rfl⟩
  | cons arg args ih =>
    obtain ⟨v, first⟩ := each 0 arg rfl
    have later : ∀ (i : Nat) (arg : Obj), args[i]? = some arg →
        ∃ v, A.argument params.tail[i]? arg = .ok v := by
      intro i arg at_
      rw [getElem?_tail]
      exact each (i + 1) arg at_
    obtain ⟨rest, ok⟩ := ih later
    exact ⟨v :: rest, arguments_cons.mpr ⟨v, rest, first, ok, rfl⟩⟩

end Arguments

/-- The arguments `args` and the prototype `proto'` are those of the request, for the
prototype `proto` that was picked. -/
structure Bound (lower : Char → Char) (A : Automation Obj) (r : Request Obj)
    (proto proto' : Proto Obj) (args : List Obj) : Prop where
  same : proto'.bare = proto.bare
  length : args.length = r.params.length
  none_dropped : r.name ≠ "_NewEnum" → args.length ≤ (proto.descs args.length).length
  positional : ∀ (i : Nat) (arg : Obj), r.params[i]? = some arg →
    ∃ v, A.argument proto.params[i]? arg = .ok v ∧ valueAt proto' args i = some v
  named : ∀ i p, r.params.length ≤ i → proto.params[i]? = some p →
    match lastNamed lower proto.names i r.namedargs with
    | some arg =>
      ∃ v, A.paramval (some p.type) arg.2 = .ok v ∧ valueAt proto' args i = some v
    | none => valueAt proto' args i = p.named
  made : ∀ T : Tcl Obj, makeParams T (fun i => args[i]?) 0 (proto'.descs args.length) =
    makeParams T (valueAt proto' args) 0 (proto.bare.descs args.length)

/-- Each argument can be passed: the positional ones, and the named ones where there is a
use for them. -/
structure Passable (lower : Char → Char) (A : Automation Obj) (r : Request Obj)
    (proto : Proto Obj) : Prop where
  positional : ∀ (i : Nat) (arg : Obj), r.params[i]? = some arg →
    ∃ v, A.argument proto.params[i]? arg = .ok v
  named : proto.more r.params.length → proto.names ≠ [] → ∀ arg ∈ r.namedargs, ∃ i v,
    positionNocase lower proto.names arg.1 = some i ∧
      A.paramval (proto.params[i]?.map Param.type) arg.2 = .ok v

section Main

variable {lower : Char → Char} {A : Automation Obj} {r : Request Obj}
  (plain : ∀ arg ∈ r.namedargs, Plain arg.1)
include plain

variable {proto proto' : Proto Obj}

/-- What becomes of the prototype, and of the parameters for which there is no argument. -/
theorem of_settled_ok (ok : settled lower A r proto = .ok proto') :
    proto'.bare = proto.bare ∧
    ∀ i p, r.params.length ≤ i → proto.params[i]? = some p →
      match lastNamed lower proto.names i r.namedargs with
      | some arg => ∃ v, A.paramval (some p.type) arg.2 = .ok v ∧
          proto'.params[i]? = some (p.withNamed (some v))
      | none => proto'.params[i]? = some p := by
  unfold settled at ok
  split at ok
  next more =>
    obtain ⟨signature, info, -⟩ := Proto.of_more more
    have params := Proto.params_eq info
    have names := Proto.names_eq info
    rw [withNamedargs, info] at ok
    dsimp only at ok
    split at ok
    next unused =>
      cases ok
      refine ⟨rfl, fun i p _ at_ => ?_⟩
      have nothing : lastNamed lower proto.names i r.namedargs = none := by
        rcases unused with empty | empty
        · rw [isEmpty_iff.mp empty]
          rfl
        · rw [names, isEmpty_iff.mp empty, lastNamed_nil]
      rw [nothing]
      exact at_
    next used =>
      obtain ⟨signature', set, ok⟩ := Lib.bind_eq_ok ok
      cases ok
      have bare : some signature'.bare = proto.signature.map .bare := by
        rw [info, bare_setNamedargs plain set]
        rfl
      refine ⟨congrArg (fun signature => { proto with signature := signature }) bare, ?_⟩
      intro i p _ at_
      have each := getElem?_setNamedargs plain set i
      rw [← params, ← names, at_] at each
      cases last : lastNamed lower proto.names i r.namedargs with
      | none =>
        rw [last] at each
        exact each
      | some arg =>
        rw [last] at each
        obtain ⟨v, ⟨-, value⟩, kept⟩ := each
        rw [← params, at_] at value
        exact ⟨v, value, kept⟩
  next less =>
    cases ok
    refine ⟨rfl, fun i p le at_ => absurd ?_ less⟩
    obtain ⟨lt, -⟩ := List.getElem?_eq_some_iff.mp at_
    unfold Proto.more
    cases info : proto.signature with
    | none =>
      rw [Proto.params, info] at lt
      exact absurd lt (Nat.not_lt_zero i)
    | some signature =>
      rw [Proto.params_eq info] at lt
      exact decide_eq_true (Nat.lt_of_le_of_lt le lt)

theorem exists_settled_iff :
    (∃ proto', settled lower A r proto = .ok proto') ↔
      (proto.more r.params.length → proto.names ≠ [] → ∀ arg ∈ r.namedargs, ∃ i v,
        positionNocase lower proto.names arg.1 = some i ∧
          A.paramval (proto.params[i]?.map Param.type) arg.2 = .ok v) := by
  unfold settled
  split
  next more =>
    obtain ⟨signature, info, -⟩ := Proto.of_more more
    have params := Proto.params_eq info
    have names := Proto.names_eq info
    rw [withNamedargs, info, params, names]
    dsimp only
    split
    next unused =>
      refine ⟨fun _ _ used arg mem => ?_, fun _ => ⟨proto, rfl⟩⟩
      rcases unused with empty | empty
      · rw [isEmpty_iff.mp empty] at mem
        cases mem
      · exact absurd (isEmpty_iff.mp empty) used
    next used =>
      have named : signature.names ≠ [] := fun empty => used (.inr (isEmpty_iff.mpr empty))
      constructor
      · rintro ⟨proto', ok⟩ - -
        obtain ⟨signature', set, -⟩ := Lib.bind_eq_ok ok
        exact (exists_setNamedargs_iff plain).mp ⟨signature', set⟩
      · intro each
        obtain ⟨signature', set⟩ := (exists_setNamedargs_iff plain).mpr (each more named)
        exact ⟨{ proto with signature := some signature' }, by rw [set]; rfl⟩
  next less => exact ⟨fun _ more => absurd more less, fun _ => ⟨proto, rfl⟩⟩

/-- The arguments that are passed with the prototype that was settled on. -/
theorem bound_of_ok {D : Dispatch Obj} {args : List Obj} (found : picked D r = some proto)
    (ok : settled lower A r proto = .ok proto')
    (passed : A.arguments proto'.params r.params = .ok args) :
    Bound lower A r proto proto' args := by
  obtain ⟨same, named⟩ := of_settled_ok plain ok
  obtain ⟨length, positional⟩ := of_arguments_ok passed
  exact
    { same := same
      length := length
      none_dropped := fun method => length ▸ length_le_of_picked found method
      positional := by
        intro i arg at_
        obtain ⟨v, value, kept⟩ := positional i arg at_
        refine ⟨v, ?_, by rw [valueAt, kept]; rfl⟩
        rw [← argument_of_same same, value]
      named := by
        intro i p le at_
        have beyond : args[i]? = none := getElem?_eq_none (length ▸ le)
        have value := named i p le at_
        simp only [valueAt, beyond, orElse_none]
        cases last : lastNamed lower proto.names i r.namedargs with
        | none =>
          simp only [last] at value
          rw [value]
          rfl
        | some arg =>
          simp only [last] at value
          obtain ⟨v, given, kept⟩ := value
          exact ⟨v, given, by rw [kept]; rfl⟩
      made := fun T => same ▸ makeParams_valueAt T args }

/-- A method is invoked with the prototype that is picked and with each argument at its
position: those that are given by position, then the last ones of each name. Named arguments
are used only for parameters that have no argument yet. -/
theorem atInvoke_bound (D : Dispatch Obj) :
    (r.name = "" → atInvoke lower A D r =
      .ok ⟨if r.params.isEmpty then some defaultValue else none, r.params⟩) ∧
    (r.name ≠ "" →
      (∀ s, atInvoke lower A D r = .ok s → ∃ proto proto', picked D r = some proto ∧
        s.proto = some proto' ∧ Bound lower A r proto proto' s.args) ∧
      ((∃ s, atInvoke lower A D r = .ok s) ↔
        ∃ proto, picked D r = some proto ∧ Passable lower A r proto)) := by
  refine ⟨fun empty => if_pos empty, fun method => ?_⟩
  have unfolded : atInvoke lower A D r = do
      let proto ← choose lower A D r
      let args ← A.arguments proto.params r.params
      return ⟨some proto, args⟩ := if_neg method
  rw [unfolded, choose_eq]
  cases found : picked D r with
  | none =>
    constructor
    · intro s ok
      cases ok
    · constructor
      · rintro ⟨s, ok⟩
        cases ok
      · rintro ⟨proto, found, -⟩
        cases found
  | some proto =>
    dsimp only
    constructor
    · intro s ok
      obtain ⟨proto', settled_, ok⟩ := Lib.bind_eq_ok ok
      obtain ⟨args, passed, ok⟩ := Lib.bind_eq_ok ok
      cases ok
      exact ⟨proto, proto', rfl, rfl, bound_of_ok plain found settled_ passed⟩
    · constructor
      · rintro ⟨s, ok⟩
        obtain ⟨proto', settled_, ok⟩ := Lib.bind_eq_ok ok
        obtain ⟨args, passed, -⟩ := Lib.bind_eq_ok ok
        obtain ⟨same, -⟩ := of_settled_ok plain settled_
        refine ⟨proto, rfl, ?_, (exists_settled_iff plain).mp ⟨proto', settled_⟩⟩
        intro i arg at_
        obtain ⟨v, value, -⟩ := (of_arguments_ok passed).2 i arg at_
        exact ⟨v, argument_of_same same i arg ▸ value⟩
      · rintro ⟨_, ⟨⟩, positional, named⟩
        obtain ⟨proto', settled_⟩ := (exists_settled_iff plain).mpr named
        obtain ⟨same, -⟩ := of_settled_ok plain settled_
        have each : ∀ (i : Nat) (arg : Obj), r.params[i]? = some arg →
            ∃ v, A.argument proto'.params[i]? arg = .ok v := by
          intro i arg at_
          rw [argument_of_same same]
          exact positional i arg at_
        obtain ⟨args, passed⟩ := exists_arguments each
        exact ⟨⟨some proto', args⟩, by rw [settled_, Lib.ok_bind, passed]; rfl⟩

end Main

/-! ### A method of two parameters -/

def plainValues : Automation String := ⟨fun _ => false, .ok⟩

def word : Param String := ⟨⟨.one .bstr, some (.number 1), none, none⟩, rfl⟩

def find : Proto String :=
  ⟨1, 0, some 1, .one .void, some ⟨[word, word], ["What", "Where"], Nat.le_refl 2⟩⟩

def proxyOf (proto : Proto String) : Dispatch String := ⟨fun _ _ _ => some proto, fun _ => none⟩

/-- `Find` with the first parameter by position and the second one by name. -/
def findWhere : Request String := ⟨"Find", [1], 0, ["x"], [("where", "y")]⟩

theorem atInvoke_bound_find :
    (∀ s, atInvoke Char.toLower plainValues (proxyOf find) findWhere = .ok s →
      ∃ proto proto', picked (proxyOf find) findWhere = some proto ∧ s.proto = some proto' ∧
        Bound Char.toLower plainValues findWhere proto proto' s.args) ∧
    ((∃ s, atInvoke Char.toLower plainValues (proxyOf find) findWhere = .ok s) ↔
      ∃ proto, picked (proxyOf find) findWhere = some proto ∧
        Passable Char.toLower plainValues findWhere proto) :=
  (atInvoke_bound (by simp [findWhere, Plain, specials]) (proxyOf find)).2 (by simp [findWhere])

/-- Each named argument is passed, at the position of the parameter of its name. -/
def Delivered (lower : Char → Char) (A : Automation Obj) (D : Dispatch Obj) (r : Request Obj) :
    Prop :=
  ∀ s, atInvoke lower A D r = .ok s → ∀ arg ∈ r.namedargs, ∃ proto' i,
    s.proto = some proto' ∧ positionNocase lower proto'.names arg.1 = some i ∧
      valueAt proto' s.args i = some arg.2

/-- A named argument is dropped where the arguments by position are as many as the
parameters, and where nothing is known of the parameters. -/
theorem named_dropped :
    ¬ Delivered Char.toLower plainValues (proxyOf find)
        ⟨"Find", [1], 0, ["x", "y"], [("Where", "z")]⟩ ∧
      ¬ Delivered Char.toLower plainValues (proxyOf { find with signature := none })
        ⟨"Find", [1], 0, ["x"], [("Where", "z")]⟩ := by
  constructor
  · intro delivered
    obtain ⟨_, i, ⟨⟩, -, value⟩ := delivered _ rfl _ mem_cons_self
    rcases i with _ | _ | i
    · exact absurd value (by decide)
    · exact absurd value (by decide)
    · cases value
  · intro delivered
    obtain ⟨_, i, ⟨⟩, position, -⟩ := delivered _ rfl _ mem_cons_self
    cases position

end Twapi.Com.NamedArgs
