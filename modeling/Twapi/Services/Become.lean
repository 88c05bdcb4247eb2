import Mathlib.Tactic.Common
import Twapi.Base.ListFormat
import Twapi.Lib.Ledger

/-!
`Twapi_BecomeAService` of `service/service.c`: what a call that fails leaves of the
state of the process.

* `blocks` are the heap blocks that were allocated and freed, in order.
* `Twapi_CheckThreadedTcl` only leaves a message here, its result is not looked at.
* `call_cases` — the ways a call goes.
* `Kept.call`, `kept_afterCalls` — the array of contexts exists only while an interpreter
  is in its slot, after any calls.
* `failed_call_restores_iff` — a call that fails leaves the state as it was unless it comes as far
  as the console handler.
-/

namespace Twapi.Services.Start

open Lib (Entry)

/-! ### State -/

/-- `TwapiServiceContext`, in its block. -/
structure ServiceContext where
  block : Nat
  name : String
  controls_accepted : Int
  service_status_handle : Option Nat
deriving DecidableEq

/-- The global data of the module. `gServiceContexts` is the block of the array and its
elements; `refs` are the references to interpreter contexts that are held for the slot,
and `handlers` the console handlers that are installed. -/
structure Globals where
  gServiceInterpContextP : Option Nat
  gServiceContexts : Option (Nat × List (Option ServiceContext))
  gServiceType : UInt32
  gServiceMasterThreadHandle : Option Nat
  handlers : Nat
  refs : Nat → Int
  blocks : List (Entry Nat)
  next : Nat

/-- Before the first call. -/
def Globals.start : Globals := ⟨none, none, 0, none, 0, fun _ => 0, [], 0⟩

namespace Globals

variable (g : Globals)

def addRef (ticP : Nat) (n : Int) : Globals :=
  { g with refs := fun p => if p = ticP then g.refs p + n else g.refs p }

/-- `TwapiAlloc`: the block is `g.next`. -/
def alloc : Globals := { g with blocks := g.blocks ++ [.acquire g.next], next := g.next + 1 }

def free (blocks : List Nat) : Globals := { g with blocks := g.blocks ++ blocks.map .release }

end Globals

/-- The blocks of the contexts; there is none where an element is null. -/
def blocksOf (elements : List (Option ServiceContext)) : List Nat :=
  elements.filterMap (Option.map ServiceContext.block)

/-- `TwapiFreeServiceContexts`; freeing a null pointer does nothing. -/
def twapiFreeServiceContexts (g : Globals) : Globals :=
  match g.gServiceContexts with
  | none => g
  | some (array, elements) =>
    { g.free (blocksOf elements ++ [array]) with gServiceContexts := none }

/-! ### `Twapi_BecomeAService` -/

/-- What Tcl makes of a string; `asDword` is `ObjToDWORD`. -/
structure Conversions extends Base.Tcl where
  asDword : String → Option UInt32

/-- How a call ends. -/
inductive Ended where
  | ok
  | badArgCount
  | notDword
  | multipleInvocations
  | invalidSpecification
  | handlerInstallFailed
  | systemError (error : UInt32)
deriving DecidableEq

def Ended.message : Ended → Option String
  | .multipleInvocations => some "Twapi_BecomeAService multiple invocations."
  | .invalidSpecification => some "Invalid service specification."
  | .handlerInstallFailed => some "Console control handler install failed."
  | _ => none

/-- A call, with its arguments, and what the system does: whether the console handler
can be installed, and the thread or an error. -/
structure Call where
  ticP : Nat
  objv : List String
  handler : Bool
  thread : Except UInt32 Nat

variable (T : Conversions)

/-- The name and the controls of a service definition. -/
def parseDefinition (definition : String) : Option (String × Int) :=
  match T.asList definition with
  | some [name, ctrls] => (T.asInt ctrls).map (name, ·)
  | _ => none

/-- The loop over the definitions, from the element `i` on, and whether all are good. -/
def fillContexts : List String → Nat → Globals → Bool × Globals
  | [], _, g => (true, g)
  | definition :: rest, i, g =>
    match parseDefinition T definition with
    | none => (false, g)
    | some (name, ctrls) =>
      fillContexts rest (i + 1)
        { g.alloc with
          gServiceContexts := g.gServiceContexts.map fun (array, elements) =>
            (array, elements.set i (some ⟨g.next, name, ctrls, none⟩)) }

def SERVICE_TYPE_MASK : UInt32 := 0x130

/-- The slot is claimed, and the array of contexts is allocated. -/
def claim (ticP n : Nat) (g : Globals) : Globals :=
  let g := { g with gServiceInterpContextP := some ticP }.addRef ticP 1
  { g.alloc with gServiceContexts := some (g.next, List.replicate n none) }

/-- The label `error_handler`. -/
def errorHandler (ticP : Nat) (g : Globals) : Globals :=
  let g := twapiFreeServiceContexts g
  if g.gServiceInterpContextP = some ticP then
    { g with gServiceInterpContextP := none }.addRef ticP (-1)
  else g

def twapiBecomeAService (c : Call) (g : Globals) : Ended × Globals :=
  match c.objv with
  | type :: definition :: definitions =>
    match T.asDword type with
    | none => (.notDword, g)
    | some service_type =>
      if g.gServiceInterpContextP ≠ none then (.multipleInvocations, g)
      else
        match fillContexts T (definition :: definitions) 0
            (claim c.ticP (definitions.length + 1) g) with
        | (false, g) => (.invalidSpecification, errorHandler c.ticP g)
        | (true, g) =>
          if c.handler then
            let g := { g with handlers := g.handlers + 1,
                              gServiceType := service_type &&& SERVICE_TYPE_MASK }
            match c.thread with
            | .ok thread => (.ok, { g with gServiceMasterThreadHandle := some thread })
            | .error error =>
              (.systemError error, { g with gServiceMasterThreadHandle := none })
          else (.handlerInstallFailed, g)
  | _ => (.badArgCount, g)

/-- The state after calls, one after the other. -/
def afterCalls (calls : List Call) : Globals :=
  calls.foldl (fun g c => (twapiBecomeAService T c g).2) .start

/-! ### What is restored -/

variable {T}

/-- The arguments are good. -/
def WellFormed (T : Conversions) (objv : List String) : Prop :=
  2 ≤ objv.length ∧ ((objv.head?.bind T.asDword).isSome = true) ∧
    ∀ d ∈ objv.tail, (parseDefinition T d).isSome = true

/-- What a call leaves as it was: the slot, the references, the array and the blocks. A
correct call succeeds where the slot is empty. -/
structure Restored (T : Conversions) (g g' : Globals) : Prop where
  slot : g'.gServiceInterpContextP = g.gServiceInterpContextP
  refs : g'.refs = g.refs
  contexts : g'.gServiceContexts = g.gServiceContexts
  freed : ∃ entries, g'.blocks = g.blocks ++ entries ∧ Entry.Settled entries
  later : g.gServiceInterpContextP = none → ∀ c : Call, WellFormed T c.objv → c.handler = true →
    c.thread.toOption.isSome = true → (twapiBecomeAService T c g').1 = .ok

/-! ### The loop -/

theorem blocksOf_made (made : List ServiceContext) (left : Nat) :
    blocksOf (made.map some ++ List.replicate left none) = made.map ServiceContext.block := by
  simp [blocksOf, List.filterMap_append, List.filterMap_map]

/-- The state with contexts allocated. -/
def Globals.made (g : Globals) (array : Nat) (elements : List (Option ServiceContext))
    (contexts : List ServiceContext) : Globals :=
  { g with
    gServiceContexts := some (array, elements)
    blocks := g.blocks ++ (contexts.map ServiceContext.block).map .acquire
    next := g.next + contexts.length }

variable {g : Globals}

theorem Globals.made_nil {array : Nat} {elements : List (Option ServiceContext)}
    (same : g.gServiceContexts = some (array, elements)) : g.made array elements [] = g := by
  cases g
  simp_all [made]

theorem set_unfilled (done : List ServiceContext) (left : Nat) (c : ServiceContext) :
    (done.map some ++ List.replicate (left + 1) none).set done.length (some c) =
      (done ++ [c]).map some ++ List.replicate left none := by
  rw [List.set_append_right _ _ (by simp), List.length_map, Nat.sub_self, List.replicate_succ,
    List.set_cons_zero, List.map_append, List.append_assoc]
  rfl

variable {definitions : List String}

/-- The loop fills the first elements, each with a block of its own, and changes
nothing else. -/
theorem fillContexts_spec {array : Nat} {done : List ServiceContext}
    (unfilled : g.gServiceContexts =
      some (array, done.map some ++ List.replicate definitions.length none)) :
    ∃ (contexts : List ServiceContext) (left : Nat),
      fillContexts T definitions done.length g =
        (definitions.all fun d => (parseDefinition T d).isSome,
          g.made array ((done ++ contexts).map some ++ List.replicate left none) contexts) := by
  induction definitions generalizing g done with
  | nil =>
    refine ⟨[], 0, ?_⟩
    rw [fillContexts, Globals.made_nil (by simpa using unfilled)]
    rfl
  | cons definition rest ih =>
    rw [fillContexts, List.all_cons]
    cases parsed : parseDefinition T definition with
    | none =>
      refine ⟨[], rest.length + 1, ?_⟩
      rw [Globals.made_nil (by simpa using unfilled)]
      rfl
    | some pair =>
      obtain ⟨name, ctrls⟩ := pair
      let context : ServiceContext := ⟨g.next, name, ctrls, none⟩
      have filled : g.gServiceContexts.map (fun (array, elements) =>
          (array, elements.set done.length (some context))) =
          some (array, (done ++ [context]).map some ++ List.replicate rest.length none) := by
        rw [unfilled, Option.map_some, List.length_cons]
        exact congrArg (fun elements => some (array, elements)) (set_unfilled ..)
      have index : done.length + 1 = (done ++ [context]).length := by simp
      obtain ⟨contexts, left, after⟩ := ih (g := { g.alloc with
        gServiceContexts := g.gServiceContexts.map fun (array, elements) =>
          (array, elements.set done.length (some context)) }) filled
      refine ⟨context :: contexts, left, ?_⟩
      dsimp only
      rw [index, after]
      simp [Globals.made, Globals.alloc, context, Nat.add_assoc, Nat.add_comm 1]

/-- What a parse that fails leaves. -/
theorem errorHandler_made {ticP array left : Nat} {contexts : List ServiceContext}
    (claimed : g.gServiceInterpContextP = some ticP) :
    errorHandler ticP (g.made array (contexts.map some ++ List.replicate left none) contexts) =
      { g with
        gServiceInterpContextP := none
        gServiceContexts := none
        refs := fun p => if p = ticP then g.refs p + (-1) else g.refs p
        blocks := g.blocks ++ (contexts.map ServiceContext.block).map .acquire ++
          (contexts.map ServiceContext.block ++ [array]).map .release
        next := g.next + contexts.length } := by
  simp only [errorHandler, twapiFreeServiceContexts, Globals.made, Globals.free, Globals.addRef,
    blocksOf_made, claimed, if_true]

theorem settled_blocks (array : Nat) (blocks : List Nat) :
    Entry.Settled (.acquire array :: blocks.map .acquire ++ (blocks ++ [array]).map .release) := by
  have moved : ([array] ++ blocks).Perm (blocks ++ [array]) := List.perm_append_comm
  have held : (↑(array :: blocks) : Multiset Nat) = ↑(blocks ++ [array]) :=
    Multiset.coe_eq_coe.mpr moved
  change Entry.after ((array :: blocks).map .acquire ++ _) 0 = _
  rw [Entry.after_append, Entry.after_acquires, Option.bind_some, held, Entry.after_releases]

/-! ### Calls -/

theorem wellFormed_cons {type definition : String} :
    WellFormed T (type :: definition :: definitions) ↔
      (T.asDword type).isSome = true ∧
        ((definition :: definitions).all fun d => (parseDefinition T d).isSome) = true := by
  simp [WellFormed]

/-- The contexts of good definitions are made. -/
theorem fill_claimed {ticP : Nat} (definitions : List String) :
    ∃ (contexts : List ServiceContext) (left : Nat),
      fillContexts T definitions 0 (claim ticP definitions.length g) =
        (definitions.all fun d => (parseDefinition T d).isSome,
          (claim ticP definitions.length g).made g.next
            (contexts.map some ++ List.replicate left none) contexts) :=
  fillContexts_spec (show _ = some (_, List.map some [] ++ _) from rfl)

/-- The state after definitions of which one is bad. -/
def rolledBack (g : Globals) (ticP : Nat) (contexts : List ServiceContext) : Globals :=
  { g with
    gServiceInterpContextP := none
    gServiceContexts := none
    refs := fun p => if p = ticP then (if p = ticP then g.refs p + 1 else g.refs p) + (-1)
      else (if p = ticP then g.refs p + 1 else g.refs p)
    blocks := g.blocks ++ [.acquire g.next] ++ (contexts.map ServiceContext.block).map .acquire ++
      (contexts.map ServiceContext.block ++ [g.next]).map .release
    next := g.next + 1 + contexts.length }

/-- The ways a call goes: it is refused before it claims the slot, a definition is bad, or
it comes to the console handler. -/
theorem call_cases (c : Call) (g : Globals) :
    (∃ ended, ended ≠ .ok ∧ twapiBecomeAService T c g = (ended, g) ∧
      (WellFormed T c.objv → g.gServiceInterpContextP ≠ none)) ∨
    (∃ contexts, g.gServiceInterpContextP = none ∧ ¬ WellFormed T c.objv ∧
      twapiBecomeAService T c g = (.invalidSpecification, rolledBack g c.ticP contexts)) ∨
    (g.gServiceInterpContextP = none ∧ WellFormed T c.objv ∧
      (twapiBecomeAService T c g).2.gServiceInterpContextP = some c.ticP ∧
      ((twapiBecomeAService T c g).1 = .ok ↔
        c.handler = true ∧ c.thread.toOption.isSome = true)) := by
  unfold twapiBecomeAService
  match args : c.objv with
  | [] => exact .inl ⟨.badArgCount, nofun, rfl, fun good => absurd good.1 (by simp)⟩
  | [_] => exact .inl ⟨.badArgCount, nofun, rfl, fun good => absurd good.1 (by simp)⟩
  | type :: definition :: definitions =>
    rw [wellFormed_cons]
    dsimp only
    cases dword : T.asDword type with
    | none => exact .inl ⟨.notDword, nofun, rfl, fun good => absurd good.1 nofun⟩
    | some service_type =>
      dsimp only
      split
      · rename_i taken
        exact .inl ⟨.multipleInvocations, nofun, rfl, fun _ => taken⟩
      · rename_i free
        rw [not_not] at free
        have ⟨contexts, left, filled⟩ : ∃ (contexts : List ServiceContext) (left : Nat),
            fillContexts T _ 0 (claim c.ticP (definition :: definitions).length g) = _ :=
          fill_claimed (definition :: definitions)
        rw [List.length_cons] at filled
        rw [filled]
        cases good : (definition :: definitions).all fun d => (parseDefinition T d).isSome with
        | false =>
          refine .inr (.inl ⟨contexts, free, fun h => absurd h.2 nofun, ?_⟩)
          dsimp only
          rw [errorHandler_made rfl]
          rfl
        | true =>
          refine .inr (.inr ⟨free, ⟨rfl, rfl⟩, ?_⟩)
          dsimp only
          cases c.handler with
          | false => exact ⟨rfl, by simp⟩
          | true => cases c.thread <;> exact ⟨rfl, by simp [Except.toOption]⟩

/-- The array of contexts exists only while an interpreter is in the slot. -/
def Kept (g : Globals) : Prop := g.gServiceInterpContextP = none → g.gServiceContexts = none

theorem Kept.call (kept : Kept g) (c : Call) :
    Kept (twapiBecomeAService T c g).2 := by
  rcases call_cases (T := T) c g with ⟨_, -, same, -⟩ | ⟨_, -, -, rolled⟩ | ⟨-, -, claimed, -⟩
  · rw [same]
    exact kept
  · rw [rolled]
    exact fun _ => rfl
  · exact fun free => absurd (claimed.symm.trans free) nofun

/-- After any calls. -/
theorem kept_afterCalls (calls : List Call) : Kept (afterCalls T calls) := by
  unfold afterCalls
  have start : Kept .start := fun _ => rfl
  generalize Globals.start = g at start ⊢
  induction calls generalizing g with
  | nil => exact start
  | cons c calls ih => exact ih _ (start.call c)

/-- A correct call succeeds where the slot is empty. -/
theorem correct_call (free : g.gServiceInterpContextP = none) {c : Call}
    (good : WellFormed T c.objv) (handler : c.handler = true)
    (thread : c.thread.toOption.isSome = true) : (twapiBecomeAService T c g).1 = .ok := by
  rcases call_cases (T := T) c g with ⟨_, -, -, taken⟩ | ⟨_, -, bad, -⟩ | ⟨-, -, -, ok⟩
  · exact absurd free (taken good)
  · exact absurd good bad
  · exact ok.mpr ⟨handler, thread⟩

theorem Restored.same (g : Globals) : Restored T g g where
  slot := rfl
  refs := rfl
  contexts := rfl
  freed := ⟨[], (List.append_nil _).symm, rfl⟩
  later free _ := correct_call free

theorem Restored.rolledBack (kept : Kept g) (free : g.gServiceInterpContextP = none) (ticP : Nat)
    (contexts : List ServiceContext) :
    Restored T g (Start.rolledBack g ticP contexts) where
  slot := free.symm
  refs := by
    funext p
    unfold Start.rolledBack
    dsimp only
    split <;> omega
  contexts := (kept free).symm
  freed := by
    refine ⟨_, ?_, settled_blocks g.next (contexts.map ServiceContext.block)⟩
    simp [Start.rolledBack]
  later _ _ := correct_call rfl

/-- After any calls, a call leaves the state as it was if and only if the slot was taken
before it or its arguments are bad. A call with good arguments that fails at the console
handler or at the thread does not. -/
theorem failed_call_restores_iff (T : Conversions) (calls : List Call) (c : Call) :
    Restored T (afterCalls T calls) (twapiBecomeAService T c (afterCalls T calls)).2 ↔
      (afterCalls T calls).gServiceInterpContextP ≠ none ∨ ¬ WellFormed T c.objv := by
  have kept := kept_afterCalls (T := T) calls
  generalize afterCalls T calls = g at *
  rcases call_cases (T := T) c g with ⟨_, -, same, taken⟩ | ⟨_, free, bad, rolled⟩ |
    ⟨free, good, claimed, -⟩
  · rw [same]
    refine iff_of_true (.same g) ?_
    by_cases good : WellFormed T c.objv
    · exact .inl (taken good)
    · exact .inr good
  · rw [rolled]
    exact iff_of_true (.rolledBack kept free c.ticP _) (.inr bad)
  · refine iff_of_false (fun restored => ?_) ?_
    · exact absurd ((claimed.symm.trans restored.slot).trans free) nofun
    · rintro (taken | bad)
      · exact taken free
      · exact bad good

/-! ### A handler that cannot be installed -/

/-- Every string is the definition of a service that accepts controls 1. -/
def oneService : Conversions where
  asList s := some [s, "1"]
  asInt _ := some 1
  notList _ := ""
  notInt _ := ""
  asDword _ := some 0x10

theorem handler_failure_keeps_slot :
    ¬ ∀ (T : Conversions) (calls : List Call) (c : Call),
      (twapiBecomeAService T c (afterCalls T calls)).1 ≠ .ok →
      Restored T (afterCalls T calls) (twapiBecomeAService T c (afterCalls T calls)).2 := by
  intro all
  have restored := all oneService [] ⟨0, ["16", "svc 1"], false, .ok 1⟩ (by decide)
  exact absurd restored.slot (by decide)

end Twapi.Services.Start
