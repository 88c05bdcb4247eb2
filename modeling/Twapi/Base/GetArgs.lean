import Twapi.Lib.Results
import Twapi.Pointers.Model

/-!
The arguments of native commands, `TwapiGetArgsVA` and `TwapiGetArgsExVA` of `base/calls.c`.

* `Arg` — the codes of a format list, each with what the caller passes after it.
* `twapiGetArgsVA`, `twapiGetArgsExVA` — the two functions.
* `required`, `positions` — how many arguments a format takes at least and at most.
* `getArgs_agree` — with the codes of both, the two functions do the same.

The conversions are those of `base/tclobjs.c`; what they do to the interpreter and to the
objects is in the state.
-/

namespace Twapi.GetArgs

/-! ### What the functions work on -/

abbrev Bytes := List UInt8

/-- What is stored for the caller. A string is what its pointer points to. -/
inductive Value (Obj D : Type) where
  | int (n : Int)
  | wide (n : Int)
  | short (n : Int)
  | double (d : D)
  | obj (objP : Option Obj)
  | pointer (p : Nat)
  | dwordPtr (n : Nat)
  | chars (s : Bytes)
deriving DecidableEq

inductive Message where
  | badArgCount
  | invalidArgs (text : String)
  | pointer (error : Pointers.TwapiError)
  | static (text : String)
deriving DecidableEq

/-- `pval` is where the data of the module are. -/
structure TwapiInterpContext where
  interp : Nat
  module : String
  pval : Nat
  memlifoP : Nat
deriving DecidableEq

structure Api (σ Obj D : Type) where
  zero : D
  setResult : (interp : Nat) → Message → σ → σ
  store : (p : Nat) → Value Obj D → σ → σ
  objToBoolean : (interp : Nat) → Obj → σ → Option Int × σ
  objToDouble : (interp : Nat) → Obj → σ → Option D × σ
  objToInt : (interp : Nat) → Obj → σ → Option Int × σ
  objToWideInt : (interp : Nat) → Obj → σ → Option Int × σ
  objToOpaque : (interp : Nat) → Obj → (name : Option String) → σ → Option Nat × σ
  objToDwordPtr : (interp : Nat) → Obj → σ → Option Nat × σ
  objToString : Obj → σ → Bytes × σ
  objToStringN : Obj → σ → Bytes × σ
  objToByteArray : Obj → σ → Bytes × σ
  objToWinCharsN : Obj → σ → List UInt16 × σ
  objGetElements : (interp : Nat) → Obj → σ → Option (List Obj) × σ
  isNullToken : List UInt16 → Bool
  memLifoCopy : (memlifoP : Nat) → Bytes → σ → Nat × σ
  memLifoCopyWide : (memlifoP : Nat) → List UInt16 → σ → Nat × σ
  memLifoAlloc : (memlifoP count : Nat) → σ → Nat × σ
  storePointers : (argv : Nat) → List Nat → σ → σ
  pointers : (pval : Nat) → σ → Pointers.Table

/-- The codes; `none` is a destination that is `NULL`. A converter says whether it
succeeded, and stores by itself. -/
inductive Arg (σ Obj : Type) where
  | useDefault
  | skip
  | bool (p : Option Nat)
  | double (p : Option Nat)
  | int (p : Option Nat)
  | wide (p : Option Nat)
  | obj (p : Option Nat)
  | verified (orNull : Bool) (p : Option Nat) (typeP : Option String) (pv : Nat)
  | ptr (p : Option Nat) (typeP : Option String)
  | dwordPtr (p : Option Nat)
  | astr (p : Option Nat)
  | astrN (p lenP : Option Nat)
  | word (p : Option Nat)
  | var (withDefault : Bool) (p : Option Nat)
      (converterFn : (interp : Nat) → Option Obj → (p : Nat) → σ → Bool × σ)
  | ba (p lenP : Option Nat)
  | wstr (p : Option Nat)
  | emptyAsNull (p : Option Nat)
  | tokenNull (p : Option Nat)
  | wstrN (p lenP : Option Nat)
  | va (p iP : Option Nat)
  | vw (p iP : Option Nat)
  | other (fmtch : Nat)

/-- What ends a format, `ARGEND` or `ARGTERM` -/
inductive Terminator where
  | argEnd
  | argTerm
deriving DecidableEq

/-- How a function is left before its end. A fault is a read outside the argument array
or of a base context that is not there. -/
inductive Exit where
  | argerror
  | fault
deriving DecidableEq

abbrev M (σ : Type) := ExceptT Exit (StateM σ)

/-! ### Statements of both functions -/

section
variable {σ Obj D α : Type} (api : Api σ Obj D) (contexts : List TwapiInterpContext)

/-- `goto argerror` where a call fails -/
def call (f : σ → Option α × σ) : M σ α := fun s =>
  match f s with
  | (some a, s) => (.ok a, s)
  | (none, s) => (.error .argerror, s)

def total (f : σ → α × σ) : M σ α := fun s => ((.ok (f s).1, (f s).2))

/-- `TwapiReturnError` or `ObjSetStaticResult`, and `goto argerror` -/
def returnError (interp : Nat) (message : Message) : M σ α := fun s =>
  (.error .argerror, api.setResult interp message s)

def store (p : Option Nat) (value : Value Obj D) : M σ Unit :=
  match p with
  | none => pure ()
  | some p => total fun s => ((), api.store p value s)

def orDefault (default : α) (objP : Option Obj) (f : Obj → M σ α) : M σ α :=
  match objP with
  | none => pure default
  | some objP => f objP

/-- `objv[argno]` -/
def objAt (objv : List Obj) (argno : Int) : M σ Obj :=
  match if 0 ≤ argno then objv[argno.toNat]? else none with
  | none => throw .fault
  | some objP => pure objP

/-! ### Verified pointers -/

/-- `TwapiGetBaseContext` -/
def twapiGetBaseContext (interp : Nat) : Option TwapiInterpContext :=
  contexts.find? fun ticP => ticP.interp = interp ∧ ticP.module = "twapi_base"

/-- `ObjToVerifiedPointerOrNullTic` -/
def objToVerifiedPointerOrNullTic (ticP : TwapiInterpContext) (objP : Obj)
    (name : Option String) (verifier : Nat) : M σ Nat := do
  let pv ← call (api.objToOpaque ticP.interp objP name)
  if pv ≠ 0 then
    match Pointers.twapiVerifyPointerTic (api.pointers ticP.pval (← get)) pv verifier with
    | some error => returnError api ticP.interp (.pointer error)
    | none => pure pv
  else pure pv

/-- `ObjToVerifiedPointerOrNull` -/
def objToVerifiedPointerOrNull (interp : Nat) (objP : Obj) (name : Option String)
    (verifier : Nat) : M σ Nat :=
  match twapiGetBaseContext contexts interp with
  | none => throw .fault
  | some ticP => objToVerifiedPointerOrNullTic api ticP objP name verifier

/-! ### `TwapiGetArgsVA` -/

/-- The `switch` -/
def getArg (interp : Nat) (arg : Arg σ Obj) (objP : Option Obj) : M σ Unit :=
  match arg with
  | .useDefault => pure ()
  | .skip => pure ()
  | .bool p => do
      let ival ← orDefault 0 objP fun objP => call (api.objToBoolean interp objP)
      store api p (.int ival)
  | .double p => do
      let dblval ← orDefault api.zero objP fun objP => call (api.objToDouble interp objP)
      store api p (.double dblval)
  | .int p => do
      let ival ← orDefault 0 objP fun objP => call (api.objToInt interp objP)
      store api p (.int ival)
  | .wide p => do
      let wival ← orDefault 0 objP fun objP => call (api.objToWideInt interp objP)
      store api p (.wide wival)
  | .obj p => store api p (.obj objP)
  | .verified orNull p typeP pv => do
      let ptrval ← orDefault 0 objP fun objP =>
        objToVerifiedPointerOrNull api contexts interp objP typeP pv
      if orNull = false ∧ ptrval = 0 then returnError api interp (.pointer .nullPointer)
      store api p (.pointer ptrval)
  | .ptr p typeP => do
      let ptrval ← orDefault 0 objP fun objP => call (api.objToOpaque interp objP typeP)
      store api p (.pointer ptrval)
  | .dwordPtr p => do
      let dwval ← orDefault 0 objP fun objP => call (api.objToDwordPtr interp objP)
      store api p (.dwordPtr dwval)
  | .astr p =>
    match p with
    | none => pure ()
    | some _ => do
        let s ← orDefault [] objP fun objP => total (api.objToString objP)
        store api p (.chars s)
  | .astrN p lenP => do
      let sval ← orDefault [] objP fun objP => total (api.objToStringN objP)
      store api p (.chars sval)
      store api lenP (.int sval.length)
  | .word p => do
      let ival ← orDefault 0 objP fun objP => call (api.objToInt interp objP)
      if ival < 0 ∨ 0xffff < ival then
        returnError api interp (.invalidArgs s!"Value {ival} does not fit in 16 bits.")
      store api p (.short (ival.bmod (2 ^ 16)))
  | .var withDefault p converterFn => do
      if withDefault = false ∧ objP.isNone then
        returnError api interp (.static "Default values invalid used for ARGVAR types.")
      match p with
      | none => pure ()
      | some p =>
        call fun s =>
          match converterFn interp objP p s with
          | (true, s) => (some (), s)
          | (false, s) => (none, s)
  | .ba .. | .wstr _ | .emptyAsNull _ | .tokenNull _ | .wstrN .. | .va .. | .vw .. | .other _ =>
    returnError api interp (.static "TwapiGetArgs: unexpected format character.")

def twapiGetArgsVA (interp : Nat) (objc : Int) (objv : List Obj) (last : Terminator)
    (argno : Int) (useDefault : Bool) : List (Arg σ Obj) → M σ Unit
  | [] =>
    match last with
    | .argEnd =>
      if argno < objc - 1 then returnError api interp .badArgCount else pure ()
    | .argTerm => pure ()
  | .useDefault :: fmt => twapiGetArgsVA interp objc objv last argno true fmt
  | arg :: fmt => do
      let objP ←
        (if objc ≤ argno + 1 then
          if useDefault = false then returnError api interp .badArgCount else pure none
        else some <$> objAt objv (argno + 1) : M σ (Option Obj))
      getArg api contexts interp arg objP
      twapiGetArgsVA interp objc objv last (argno + 1) useDefault fmt

/-! ### `TwapiGetArgsExVA` -/

/-- The `switch`. Byte arrays and wide strings are copied to the memory of the context. -/
def getArgEx (ticP : TwapiInterpContext) (arg : Arg σ Obj) (objP : Option Obj) : M σ Unit :=
  match arg with
  | .useDefault => pure ()
  | .skip => pure ()
  | .bool p => do
      let ival ← orDefault 0 objP fun objP => call (api.objToBoolean ticP.interp objP)
      store api p (.int ival)
  | .ba p lenP => do
      let bytes ←
        if p.isSome ∨ lenP.isSome then orDefault [] objP fun objP => total (api.objToByteArray objP)
        else pure []
      if p.isSome then
        let copy ← total (api.memLifoCopy ticP.memlifoP bytes)
        store api p (.pointer copy)
      store api lenP (.int bytes.length)
  | .double p => do
      let dblval ← orDefault api.zero objP fun objP => call (api.objToDouble ticP.interp objP)
      store api p (.double dblval)
  | .int p => do
      let ival ← orDefault 0 objP fun objP => call (api.objToInt ticP.interp objP)
      store api p (.int ival)
  | .wide p => do
      let wival ← orDefault 0 objP fun objP => call (api.objToWideInt ticP.interp objP)
      store api p (.wide wival)
  | .obj p => store api p (.obj objP)
  | .verified orNull p typeP pv => do
      let ptrval ← orDefault 0 objP fun objP => objToVerifiedPointerOrNullTic api ticP objP typeP pv
      if orNull = false ∧ ptrval = 0 then returnError api ticP.interp (.pointer .nullPointer)
      store api p (.pointer ptrval)
  | .ptr p typeP => do
      let ptrval ← orDefault 0 objP fun objP => call (api.objToOpaque ticP.interp objP typeP)
      store api p (.pointer ptrval)
  | .dwordPtr p => do
      let dwval ← orDefault 0 objP fun objP => call (api.objToDwordPtr ticP.interp objP)
      store api p (.dwordPtr dwval)
  | .astr p =>
    match p with
    | none => pure ()
    | some _ => do
        let s ← orDefault [] objP fun objP => total (api.objToString objP)
        store api p (.chars s)
  | .astrN p lenP => do
      let sval ← orDefault [] objP fun objP => total (api.objToStringN objP)
      store api p (.chars sval)
      store api lenP (.int sval.length)
  | .wstr p => wideString ticP p objP fun _ => false
  | .emptyAsNull p => wideString ticP p objP List.isEmpty
  | .tokenNull p => wideString ticP p objP api.isNullToken
  | .wstrN p lenP => do
      let uval ← orDefault [] objP fun objP => total (api.objToWinCharsN objP)
      if p.isSome then
        let copy ← total (api.memLifoCopyWide ticP.memlifoP (uval ++ [0]))
        store api p (.pointer copy)
      store api lenP (.int uval.length)
  | .word p => do
      let ival ← orDefault 0 objP fun objP => call (api.objToInt ticP.interp objP)
      if ival < 0 ∨ 0xffff < ival then
        returnError api ticP.interp (.invalidArgs s!"Value {ival} does not fit in 16 bits.")
      store api p (.short (ival.bmod (2 ^ 16)))
  | .var withDefault p converterFn => do
      if withDefault = false ∧ objP.isNone then
        returnError api ticP.interp (.static "Default values invalid used for ARGVAR types.")
      match p with
      | none => pure ()
      | some p =>
        call fun s =>
          match converterFn ticP.interp objP p s with
          | (true, s) => (some (), s)
          | (false, s) => (none, s)
  | .va p iP =>
    strings ticP p iP objP fun objP => do
      let s ← total (api.objToStringN objP)
      total (api.memLifoCopy ticP.memlifoP (s ++ [0]))
  | .vw p iP =>
    strings ticP p iP objP fun objP => do
      let s ← total (api.objToWinCharsN objP)
      total (api.memLifoCopyWide ticP.memlifoP (s ++ [0]))
  | .other _ => returnError api ticP.interp (.static "TwapiGetArgs: unexpected format character.")
where
  /-- `ARGWSTR`, `ARGEMPTYASNULL` and `ARGTOKENNULL` -/
  wideString (ticP : TwapiInterpContext) (p : Option Nat) (objP : Option Obj)
      (isNull : List UInt16 → Bool) : M σ Unit := do
    if p.isSome then
      let uval ← orDefault [] objP fun objP => total (api.objToWinCharsN objP)
      if isNull uval then store api p (.pointer 0)
      else
        let copy ← total (api.memLifoCopyWide ticP.memlifoP (uval ++ [0]))
        store api p (.pointer copy)
  /-- `ARGVA` and `ARGVW` -/
  strings (ticP : TwapiInterpContext) (p iP : Option Nat) (objP : Option Obj)
      (copy : Obj → M σ Nat) : M σ Unit :=
    match objP with
    | none => store api iP (.int 0)
    | some objP => do
        let argvobjs ← call (api.objGetElements ticP.interp objP)
        store api iP (.int argvobjs.length)
        if p.isSome then
          let argv ← total (api.memLifoAlloc ticP.memlifoP (argvobjs.length + 1))
          let copies ← argvobjs.mapM copy
          total fun s => ((), api.storePointers argv (copies ++ [0]) s)
          store api p (.pointer argv)

def twapiGetArgsExVA (ticP : TwapiInterpContext) (objc : Int) (objv : List Obj)
    (last : Terminator) (argno : Int) (useDefault : Bool) : List (Arg σ Obj) → M σ Unit
  | [] =>
    match last with
    | .argEnd =>
      if argno < objc - 1 then returnError api ticP.interp .badArgCount else pure ()
    | .argTerm => pure ()
  | .useDefault :: fmt => twapiGetArgsExVA ticP objc objv last argno true fmt
  | arg :: fmt => do
      let objP ←
        (if objc ≤ argno + 1 then
          if useDefault = false then returnError api ticP.interp .badArgCount else pure none
        else some <$> objAt objv (argno + 1) : M σ (Option Obj))
      getArgEx api ticP arg objP
      twapiGetArgsExVA ticP objc objv last (argno + 1) useDefault fmt

/-- `TwapiGetArgs` -/
def twapiGetArgs (interp : Nat) (objv : List Obj) (fmt : List (Arg σ Obj)) (last : Terminator) :
    M σ Unit :=
  twapiGetArgsVA api contexts interp objv.length objv last (-1) false fmt

/-- `TwapiGetArgsEx` -/
def twapiGetArgsEx (ticP : TwapiInterpContext) (objv : List Obj) (fmt : List (Arg σ Obj))
    (last : Terminator) : M σ Unit :=
  twapiGetArgsExVA api ticP objv.length objv last (-1) false fmt

/-! ### Formats -/

/-- A code of both functions, and not of `TwapiGetArgsEx` alone or of neither. -/
def Arg.isShared : Arg σ Obj → Bool
  | .ba .. | .wstr _ | .emptyAsNull _ | .tokenNull _ | .wstrN .. | .va .. | .vw .. | .other _ =>
    false
  | _ => true

def Arg.isVerified : Arg σ Obj → Bool
  | .verified .. => true
  | _ => false

/-- The arguments before a default may be used -/
def required : List (Arg σ Obj) → Nat
  | [] => 0
  | .useDefault :: _ => 0
  | _ :: fmt => required fmt + 1

def positions : List (Arg σ Obj) → Nat
  | [] => 0
  | .useDefault :: fmt => positions fmt
  | _ :: fmt => positions fmt + 1

/-! ### The same results -/

variable {api contexts} {ticP : TwapiInterpContext}

theorem getArgEx_eq {arg : Arg σ Obj} (shared : arg.isShared = true)
    (base : arg.isVerified = true → twapiGetBaseContext contexts ticP.interp = some ticP)
    (objP : Option Obj) :
    getArgEx api ticP arg objP = getArg api contexts ticP.interp arg objP := by
  cases arg with
  | verified orNull p typeP pv =>
    simp only [getArgEx, getArg, objToVerifiedPointerOrNull, base rfl]
  | ba | wstr | emptyAsNull | tokenNull | wstrN | va | vw | other => cases shared
  | _ => rfl

variable {fmt : List (Arg σ Obj)} {post : α → Prop}

theorem twapiGetArgsExVA_eq (shared : ∀ arg ∈ fmt, arg.isShared = true)
    (base : ∀ arg ∈ fmt, arg.isVerified = true →
      twapiGetBaseContext contexts ticP.interp = some ticP) (objc : Int) (objv : List Obj)
    (last : Terminator) (argno : Int) (useDefault : Bool) :
    twapiGetArgsExVA api ticP objc objv last argno useDefault fmt =
      twapiGetArgsVA api contexts ticP.interp objc objv last argno useDefault fmt := by
  induction fmt generalizing argno useDefault with
  | nil => rfl
  | cons arg fmt ih =>
    rw [List.forall_mem_cons] at shared base
    have rest := ih shared.2 base.2
    by_cases default : arg = .useDefault
    · subst default
      exact rest argno true
    · rw [twapiGetArgsExVA, twapiGetArgsVA]
      · simp only [getArgEx_eq shared.1 base.1, rest]
      · exact default
      · exact default

/-! ### Exits -/

/-- No fault, and where it ends well, what is to hold then. -/
def Ends (x : M σ α) (post : α → Prop) : Prop :=
  ∀ s, match (x s).1 with
    | .ok a => post a
    | .error exit => exit = .argerror

theorem ends_pure {a : α} (holds : post a) : Ends (pure a : M σ α) post :=
  fun _ => holds

theorem ends_bind {β : Type} {x : M σ α} {f : α → M σ β} {mid : α → Prop} {post : β → Prop}
    (first : Ends x mid) (next : ∀ a, mid a → Ends (f a) post) : Ends (x >>= f) post := by
  intro s
  have ended := first s
  rw [Lib.stateM_bind]
  rcases left : x s with ⟨result, t⟩
  rw [left] at ended
  cases result with
  | ok a => exact next a ended t
  | error exit => exact ended

theorem ends_mono {x : M σ α} {post post' : α → Prop} (ends : Ends x post)
    (weaker : ∀ a, post a → post' a) : Ends x post' := by
  intro s
  have ended := ends s
  cases result : (x s).1 with
  | ok a => rw [result] at ended; exact weaker a ended
  | error exit => rw [result] at ended; exact ended

theorem ends_call (f : σ → Option α × σ) : Ends (call f) fun _ => True := by
  intro s
  rcases result : f s with ⟨value, t⟩
  cases value <;> simp [call, result]

theorem ends_total (f : σ → α × σ) : Ends (total f) fun _ => True := fun _ => trivial

theorem ends_returnError (interp : Nat) (message : Message) (post : α → Prop) :
    Ends (returnError api interp message : M σ α) post := fun _ => rfl

theorem ends_store (p : Option Nat) (value : Value Obj D) :
    Ends (store api p value) fun _ => True := by
  cases p with
  | none => exact ends_pure trivial
  | some p => exact ends_total _

theorem ends_orDefault (default : α) (objP : Option Obj) {f : Obj → M σ α}
    (ends : ∀ objP, Ends (f objP) fun _ => True) :
    Ends (orDefault default objP f) fun _ => True := by
  cases objP with
  | none => exact ends_pure trivial
  | some objP => exact ends objP

/-- A check in the middle of a case -/
theorem ends_check {p : Prop} [Decidable p] (interp : Nat) (message : Message) {k : PUnit → M σ α}
    (rest : Ends (k ⟨⟩) post) :
    Ends (if p then (returnError api interp message >>= k) else k ⟨⟩) post := by
  split
  · exact ends_bind (ends_returnError _ _ fun _ => False) fun _ false_ => false_.elim
  · exact rest

theorem ends_objToVerifiedPointerOrNullTic (objP : Obj) (name : Option String) (verifier : Nat) :
    Ends (objToVerifiedPointerOrNullTic api ticP objP name verifier) fun _ => True := by
  refine ends_bind (ends_call _) fun pv _ => ?_
  split
  · refine ends_bind (ends_total fun s => (s, s)) fun s _ => ?_
    split
    · exact ends_returnError _ _ _
    · exact ends_pure trivial
  · exact ends_pure trivial

variable {interp : Nat} {argno : Int}

/-- A case of the `switch` -/
theorem ends_getArg {arg : Arg σ Obj}
    (base : arg.isVerified = true → (twapiGetBaseContext contexts interp).isSome = true)
    (objP : Option Obj) : Ends (getArg api contexts interp arg objP) fun _ => True := by
  have called {β : Type} (default : β) (f : Obj → σ → Option β × σ) :
      Ends (orDefault default objP fun objP => call (f objP)) fun _ => True :=
    ends_orDefault _ _ fun _ => ends_call _
  have read (f : Obj → σ → Bytes × σ) :
      Ends (orDefault [] objP fun objP => total (f objP)) fun _ => True :=
    ends_orDefault _ _ fun _ => ends_total _
  cases arg with
  | useDefault | skip => exact ends_pure trivial
  | bool p | double p | int p | wide p | ptr p typeP | dwordPtr p =>
    exact ends_bind (called _ _) fun _ _ => ends_store _ _
  | obj p => exact ends_store _ _
  | verified orNull p typeP pv =>
    refine ends_bind (ends_orDefault _ _ fun objP => ?_) fun ptrval _ =>
      ends_check _ _ (ends_store _ _)
    obtain ⟨ticP, found⟩ := Option.isSome_iff_exists.mp (base rfl)
    rw [objToVerifiedPointerOrNull, found]
    exact ends_objToVerifiedPointerOrNullTic _ _ _
  | astr p =>
    cases p with
    | none => exact ends_pure trivial
    | some p => exact ends_bind (read _) fun _ _ => ends_store _ _
  | astrN p lenP =>
    exact ends_bind (read _) fun _ _ => ends_bind (ends_store _ _) fun _ _ => ends_store _ _
  | word p =>
    exact ends_bind (called _ _) fun _ _ => ends_check _ _ (ends_store _ _)
  | var withDefault p converterFn =>
    refine ends_check _ _ ?_
    cases p with
    | none => exact ends_pure trivial
    | some p => exact ends_call _
  | ba | wstr | emptyAsNull | tokenNull | wstrN | va | vw | other => exact ends_returnError _ _ _

theorem ends_objAt {objv : List Obj} (low : 0 ≤ argno) (high : argno < objv.length) :
    Ends (objAt objv argno : M σ Obj) fun _ => True := by
  rw [objAt, if_pos low, List.getElem?_eq_getElem (by omega)]
  exact ends_pure trivial

/-- The argument of a position; without defaults there is one. -/
theorem ends_argument {objv : List Obj} (start : -1 ≤ argno) (useDefault : Bool) :
    Ends (if objv.length ≤ argno + 1 then
        if useDefault = false then returnError api interp .badArgCount else pure none
      else some <$> objAt objv (argno + 1) : M σ (Option Obj))
      fun _ => useDefault = false → argno + 1 < objv.length := by
  split
  · split
    · exact ends_returnError _ _ _
    · rename_i defaults
      exact ends_pure fun none_ => absurd none_ defaults
  · rename_i more
    rw [map_eq_pure_bind]
    exact ends_bind (ends_objAt (by omega) (by omega)) fun _ _ => ends_pure fun _ => by omega

/-- From a position on: the arguments are neither fewer than asked for nor more than
the format takes. -/
theorem ends_twapiGetArgsVA (base : ∀ arg ∈ fmt, arg.isVerified = true →
      (twapiGetBaseContext contexts interp).isSome = true) (objv : List Obj) (last : Terminator)
    (start : -1 ≤ argno) (useDefault : Bool) :
    Ends (twapiGetArgsVA api contexts interp objv.length objv last argno useDefault fmt) fun _ =>
      (useDefault = false → argno < objv.length → argno + 1 + required fmt ≤ objv.length) ∧
        (last = .argEnd → objv.length ≤ argno + 1 + positions fmt) := by
  induction fmt generalizing argno useDefault with
  | nil =>
    simp only [required, positions]
    cases last with
    | argTerm => exact ends_pure ⟨fun _ _ => by omega, fun end_ => nomatch end_⟩
    | argEnd =>
      simp only [twapiGetArgsVA]
      split
      · exact ends_returnError _ _ _
      · exact ends_pure ⟨fun _ _ => by omega, fun _ => by omega⟩
  | cons arg fmt ih =>
    rw [List.forall_mem_cons] at base
    by_cases default : arg = .useDefault
    · subst default
      rw [twapiGetArgsVA]
      refine ends_mono (ih base.2 start true) fun _ counts => ⟨fun _ _ => ?_, counts.2⟩
      rw [required]
      omega
    · have more : required (arg :: fmt) = required fmt + 1 := by rw [required]; exact default
      have most : positions (arg :: fmt) = positions fmt + 1 := by rw [positions]; exact default
      rw [twapiGetArgsVA, more, most]
      · refine ends_bind (ends_argument start useDefault) fun objP there =>
          ends_bind (ends_getArg base.1 objP) fun _ _ => ?_
        refine ends_mono (ih base.2 (by omega) useDefault) fun _ counts =>
          ⟨fun none_ less => ?_, fun end_ => ?_⟩
        · have := counts.1 none_ (there none_)
          omega
        · have := counts.2 end_
          omega
      · exact default

/-- The two functions do the same to the state and exit in the same way, where the context
is the one that the verification of a pointer finds for its interpreter. Where they
succeed, the number of arguments is one that the format takes. -/
theorem getArgs_agree {fmt : List (Arg σ Obj)} (shared : ∀ arg ∈ fmt, arg.isShared = true)
    (base : ∀ arg ∈ fmt, arg.isVerified = true →
      twapiGetBaseContext contexts ticP.interp = some ticP)
    (objv : List Obj) (last : Terminator) :
    twapiGetArgsEx api ticP objv fmt last = twapiGetArgs api contexts ticP.interp objv fmt last ∧
      Ends (twapiGetArgs api contexts ticP.interp objv fmt last) fun _ =>
        required fmt ≤ objv.length ∧ (last = .argEnd → objv.length ≤ positions fmt) := by
  constructor
  · exact twapiGetArgsExVA_eq shared base ..
  · have found (arg) (mem : arg ∈ fmt) (verified : arg.isVerified = true) :
        (twapiGetBaseContext contexts ticP.interp).isSome = true := by
      rw [base arg mem verified]
      rfl
    refine ends_mono (ends_twapiGetArgsVA found objv last (by decide) false) fun _ counts =>
      ⟨?_, fun end_ => ?_⟩
    · have := counts.1 rfl (by omega)
      omega
    · have := counts.2 end_
      omega

end

/-! ### An interpreter -/

/-- What is stored and the messages. Objects are integers and pointers. -/
abbrev Log := List (Nat × Value Int Unit) × List Message

def sampleApi : Api Log Int Unit where
  zero := ()
  setResult _ message s := (s.1, s.2 ++ [message])
  store p value s := (s.1 ++ [(p, value)], s.2)
  objToBoolean _ objP s := (some (if objP = 0 then 0 else 1), s)
  objToDouble _ _ s := (none, (s.1, s.2 ++ [.static "expected floating-point number"]))
  objToInt _ objP s := (some objP, s)
  objToWideInt _ objP s := (some objP, s)
  objToOpaque _ objP _ s := (some objP.toNat, s)
  objToDwordPtr _ objP s := (some objP.toNat, s)
  objToString _ s := ([], s)
  objToStringN _ s := ([], s)
  objToByteArray _ s := ([], s)
  objToWinCharsN _ s := ([], s)
  objGetElements _ objP s := (some [objP], s)
  isNullToken _ := false
  memLifoCopy _ _ s := (0, s)
  memLifoCopyWide _ _ s := (0, s)
  memLifoAlloc _ _ s := (0, s)
  storePointers _ _ s := s
  pointers _ _ := (∅ : Pointers.Table).insert 64 { tag := 7, nrefs := -1 }

def sampleContext : TwapiInterpContext := ⟨1, "twapi_base", 2, 3⟩

/-- `GETINT(i), ARGSKIP, ARGUSEDEFAULT, GETVERIFIEDPTR(p, ...), GETWORD(w)` -/
def sampleFormat : List (Arg Log Int) :=
  [.int (some 100), .skip, .useDefault, .verified false (some 101) none 7, .word (some 102)]

theorem getArgs_agree_sample :
    twapiGetArgsEx sampleApi sampleContext [5, 0, 64] sampleFormat .argEnd =
        twapiGetArgs sampleApi [sampleContext] 1 [5, 0, 64] sampleFormat .argEnd ∧
      Ends (twapiGetArgs sampleApi [sampleContext] 1 [5, 0, 64] sampleFormat .argEnd) fun _ =>
        required sampleFormat ≤ 3 ∧ (Terminator.argEnd = .argEnd → 3 ≤ positions sampleFormat) :=
  getArgs_agree (by simp [sampleFormat, Arg.isShared]) (fun _ _ _ => by decide) [5, 0, 64] .argEnd

example :
    twapiGetArgsEx sampleApi sampleContext [5, 0, 64] sampleFormat .argEnd ([], []) =
      (.ok (), [(100, .int 5), (101, .pointer 64), (102, .short 0)], []) := by rfl

end Twapi.GetArgs
