import Mathlib.Tactic.Common
import Twapi.Base.ListFormat
import Twapi.Lib.Ledger

/-!
`Twapi_ProcessTrace` of `etw/etw.c` with its callbacks.

* Events and buffers are made into arbitrary values. `ProcessTrace` calls back in any
  order, and the scripts that are evaluated end in any way.
* A list is known by the number of its creation. The ledger has its creation, and its
  release; a list that is the result is released to the caller.
* `Live.callback`, `Live.callbacks` — what a callback keeps, and what all of them do.
* `closed_ledger` — what is settled at the end of a call.
* `process_trace_proper_iff` — when a call is as it should be.
-/

namespace Twapi.Etw.Session

open Lib (Entry)

/-! ### State -/

/-- A Tcl list that the module has a reference to. -/
structure ListObj (α : Type) where
  id : Nat
  elements : List α
deriving DecidableEq

variable {Rec Buf : Type}

/-- The union `buffer`. -/
inductive Buffer (Rec Buf : Type) where
  | null
  | cmdObj (script : String)
  | listObj (buffers : ListObj (Buf × List Rec))

/-- `gETWContext`; `failed` is that `status` is not `TCL_OK`, and the member of the union
is that which `buffer_cmdlen` says. The entries are those of the lists, and `next` is the
number of the next list. -/
structure TwapiETWContext (Rec Buf : Type) where
  ticP : Option Nat
  buffer : Buffer Rec Buf
  eventsObj : Option (ListObj Rec)
  failed : Bool
  traceH : Option Int
  entries : List (Entry Nat)
  next : Nat

/-- A completion code of a script. -/
inductive Code where
  | ok
  | error
  | «break»
  | other
deriving DecidableEq

/-- Before the first call. -/
def TwapiETWContext.start : TwapiETWContext Rec Buf := ⟨none, .null, none, false, none, [], 0⟩

namespace TwapiETWContext

variable (g : TwapiETWContext Rec Buf)

/-- `ObjNewList` and `ObjIncrRefs`: the list is `g.next`. -/
def newList : TwapiETWContext Rec Buf :=
  { g with entries := g.entries ++ [.acquire g.next], next := g.next + 1 }

/-- `ObjDecrRefs` of a list, where there is one. -/
def release {α : Type} (list : Option (ListObj α)) : TwapiETWContext Rec Buf :=
  { g with entries := g.entries ++ (list.map fun l => Entry.release l.id).toList }

end TwapiETWContext

/-! ### Callbacks -/

/-- An event is left out, it is a record, or its information cannot be got. With a
buffer there is whether the interpreter is deleted, and how the script ends. -/
inductive Callback (Rec Buf : Type) where
  | ignored
  | event (record : Rec)
  | undecoded
  | buffer (deleted : Bool) (buf : Buf) (code : Code)

def Callback.isUndecoded : Callback Rec Buf → Bool
  | .undecoded => true
  | _ => false

/-- `TwapiETWEventCallback` and `TwapiETWEventRecordCallback`. -/
def eventCallback (record : Option Rec) (g : TwapiETWContext Rec Buf) : TwapiETWContext Rec Buf :=
  if g.failed then g
  else
    match record with
    | none => { g with failed := true }
    | some r =>
      { g with eventsObj := g.eventsObj.map fun l => { l with elements := l.elements ++ [r] } }

/-- A new list for the next events, in the place of the one that is released. -/
def renewEvents (g : TwapiETWContext Rec Buf) : TwapiETWContext Rec Buf :=
  { (g.release g.eventsObj).newList with eventsObj := some ⟨g.next, []⟩ }

/-- `TwapiETWBufferCallback`. The duplicate of a command that is shared, which is released
here again, is left out. -/
def bufferCallback (deleted : Bool) (buf : Buf) (code : Code) (g : TwapiETWContext Rec Buf) :
    TwapiETWContext Rec Buf :=
  if deleted then g
  else if g.failed then g
  else
    match g.buffer with
    | .listObj l =>
      let pair := (buf, (g.eventsObj.map ListObj.elements).getD [])
      renewEvents { g with buffer := .listObj { l with elements := l.elements ++ [pair] } }
    | .cmdObj _ =>
      match code with
      | .error =>
        let g := renewEvents g
        { g.release g.eventsObj with failed := true, eventsObj := none }
      | .ok | .break | .other => renewEvents g
    | .null => g

def Callback.run (g : TwapiETWContext Rec Buf) : Callback Rec Buf → TwapiETWContext Rec Buf
  | .ignored => g
  | .event record => eventCallback (some record) g
  | .undecoded => eventCallback none g
  | .buffer deleted buf code => bufferCallback deleted buf code g

/-! ### `Twapi_ProcessTrace` -/

/-- What Tcl makes of a string; `asWide` is `ObjToTRACEHANDLE`. -/
structure Conversions extends Base.Tcl where
  asWide : String → Option Int
  asFiletime : String → Option Nat

/-- A call: the command and its four arguments, the callbacks and what `ProcessTrace`
returns. -/
structure Call (Rec Buf : Type) where
  ticP : Nat
  objv : List String
  callbacks : List (Callback Rec Buf)
  winerr : Nat

inductive Result (Rec Buf : Type) where
  | badArgCount
  | invalid
  | recursive
  | failed
  | systemError (winerr : Nat)
  | collected (buffers : List (Buf × List Rec))
  | empty

def Result.message : Result Rec Buf → Option String
  | .recursive => some "Recursive call to ProcessTrace"
  | _ => none

variable (T : Conversions)

/-- The loop over the handles, from the slot `i` on: the slots that are written, and
whether all are handles. -/
def readHandles : Nat → List String → List Nat × Bool
  | _, [] => ([], true)
  | i, obj :: objs =>
    match T.asWide obj with
    | none => ([], false)
    | some _ =>
      let rest := readHandles (i + 1) objs
      (i :: rest.1, rest.2)

/-- A time that may be empty; `none` is an error. -/
def readTime (obj : String) : Option (Option Nat) :=
  if obj = "" then some none else (T.asFiletime obj).map some

def ERROR_CANCELLED : Nat := 1223

/-- The context for a call. -/
def opened (c : Call Rec Buf) (command : String) (cmdlen : Nat) (traceH : Option Int)
    (g : TwapiETWContext Rec Buf) : TwapiETWContext Rec Buf :=
  let g := if cmdlen = 0 then { g.newList with buffer := .listObj ⟨g.next, []⟩ }
    else { g with buffer := .cmdObj command }
  { g.newList with
    eventsObj := some ⟨g.next, []⟩
    failed := false
    ticP := some c.ticP
    traceH }

/-- After `ProcessTrace`: the context is reset, and what was in it released. -/
def closed (winerr : Nat) (etwc : TwapiETWContext Rec Buf) :
    Result Rec Buf × TwapiETWContext Rec Buf :=
  let g := ({ etwc with buffer := .null, eventsObj := none, failed := false, ticP := none }
    : TwapiETWContext Rec Buf).release etwc.eventsObj
  match etwc.failed, etwc.buffer with
  | true, .listObj l => (.failed, g.release (some l))
  | true, _ => (.failed, g)
  | false, buffer =>
    if winerr ≠ 0 ∧ winerr ≠ ERROR_CANCELLED then (.systemError winerr, g)
    else
      match buffer with
      | .listObj l => (.collected l.elements, g.release (some l))
      | _ => (.empty, g)

/-- The command: its result, the context after it, and the slots of `htraces` that are
written. -/
def processTrace (c : Call Rec Buf) (g : TwapiETWContext Rec Buf) :
    Result Rec Buf × TwapiETWContext Rec Buf × List Nat :=
  match c.objv with
  | [_, handles, command, start, «end»] =>
    match T.asList handles with
    | none => (.invalid, g, [])
    | some objs =>
      let (slots, good) := readHandles T 0 objs
      if ¬ good then (.invalid, g, slots)
      else
        match T.asList command, readTime T start, readTime T «end» with
        | some words, some _, some _ =>
          if g.ticP ≠ none then (.recursive, g, slots)
          else
            let g := opened c command words.length (objs.head?.bind T.asWide) g
            let (result, g) := closed c.winerr (c.callbacks.foldl Callback.run g)
            (result, g, slots)
        | _, _, _ => (.invalid, g, slots)
  | _ => (.badArgCount, g, [])

/-- The context after calls, one after the other. -/
def afterCalls (calls : List (Call Rec Buf)) : TwapiETWContext Rec Buf :=
  calls.foldl (fun g c => (processTrace T c g).2.1) .start

/-! ### What a call should do -/

/-- No call is under way. -/
structure TwapiETWContext.Idle (g : TwapiETWContext Rec Buf) : Prop where
  ticP : g.ticP = none
  buffer : g.buffer = .null
  eventsObj : g.eventsObj = none
  failed : g.failed = false

/-- The slots are those of `htraces[8]`, the context is idle again, and the lists that were
made are released or returned once. -/
structure Proper (g : TwapiETWContext Rec Buf)
    (ended : Result Rec Buf × TwapiETWContext Rec Buf × List Nat) : Prop where
  slots : ∀ i ∈ ended.2.2, i < 8
  idle : ended.2.1.Idle
  lists : ∃ entries, ended.2.1.entries = g.entries ++ entries ∧ Entry.Settled entries

/-- There are more handles than eight, the first nine of which can be read. -/
def Overflows (T : Conversions) (c : Call Rec Buf) : Prop :=
  ∃ name handles command start «end» objs, c.objv = [name, handles, command, start, «end»] ∧
    T.asList handles = some objs ∧ 9 ≤ objs.length ∧
      ∀ obj ∈ objs.take 9, (T.asWide obj).isSome = true

/-- The arguments are good and there is no command, all events are decoded, and
`ProcessTrace` fails. -/
def Leaks (T : Conversions) (c : Call Rec Buf) : Prop :=
  ∃ name handles command start «end» objs, c.objv = [name, handles, command, start, «end»] ∧
    T.asList handles = some objs ∧ (∀ obj ∈ objs, (T.asWide obj).isSome = true) ∧
    T.asList command = some [] ∧ (readTime T start).isSome = true ∧
    (readTime T «end»).isSome = true ∧ c.callbacks.all (! Callback.isUndecoded ·) = true ∧
    c.winerr ≠ 0 ∧ c.winerr ≠ ERROR_CANCELLED

/-! ### Callbacks -/

variable {T}

def Buffer.ids : Buffer Rec Buf → List Nat
  | .listObj l => [l.id]
  | _ => []

/-- The lists that the context has. -/
def TwapiETWContext.held (g : TwapiETWContext Rec Buf) : List Nat :=
  (g.eventsObj.map ListObj.id).toList ++ g.buffer.ids

/-- Since the entries `base` the lists were made and released that the ledger says, and
there is a list for events unless a script failed. -/
structure Live (base : List (Entry Nat)) (g : TwapiETWContext Rec Buf) : Prop where
  ledger : ∃ entries, g.entries = base ++ entries ∧ Entry.after entries 0 = some ↑g.held
  events : g.failed = false → g.eventsObj.isSome = true

variable {base : List (Entry Nat)} {g : TwapiETWContext Rec Buf}

theorem held_renewEvents (g : TwapiETWContext Rec Buf) :
    (renewEvents g).held = g.next :: g.buffer.ids := rfl

/-- The list for events is renewed, whatever becomes of the elements of the other. -/
theorem Live.renew (live : Live base g) (ok : g.failed = false) {buffer : Buffer Rec Buf}
    (same : buffer.ids = g.buffer.ids) : Live base (renewEvents { g with buffer }) := by
  obtain ⟨entries, ledger, held⟩ := live.ledger
  obtain ⟨l, at_l⟩ := Option.isSome_iff_exists.mp (live.events ok)
  refine ⟨⟨entries ++ [.release l.id, .acquire g.next], ?_, ?_⟩, fun _ => rfl⟩
  · simp [renewEvents, TwapiETWContext.newList, TwapiETWContext.release, at_l, ledger]
  · rw [Entry.after_append, held, Option.bind_some, held_renewEvents, TwapiETWContext.held, at_l,
      same]
    simp [Entry.after]

/-- After a script has failed there is no list for events. -/
theorem Live.drop (live : Live base g) :
    Live base { g.release g.eventsObj with failed := true, eventsObj := none } := by
  obtain ⟨entries, ledger, held⟩ := live.ledger
  refine ⟨⟨entries ++ (g.eventsObj.map fun l => .release l.id).toList, ?_, ?_⟩, nofun⟩
  · simp [TwapiETWContext.release, ledger]
  · rw [Entry.after_append, held, Option.bind_some, TwapiETWContext.held]
    cases g.eventsObj with
    | none => rfl
    | some l => simp [Entry.after, TwapiETWContext.held, TwapiETWContext.release]

theorem run_event (record : Rec) :
    (Callback.event record).run g = eventCallback (some record) g := rfl

theorem run_undecoded : Callback.undecoded.run g = eventCallback none g := rfl

theorem run_buffer (deleted : Bool) (buf : Buf) (code : Code) :
    (Callback.buffer deleted buf code).run g = bufferCallback deleted buf code g := rfl

theorem Live.callback (live : Live base g) (c : Callback Rec Buf) : Live base (c.run g) := by
  cases c with
  | ignored => exact live
  | event record =>
    rw [run_event, eventCallback]
    split
    · exact live
    · refine ⟨?_, fun ok => ?_⟩
      · simpa [TwapiETWContext.held, Function.comp_def] using live.ledger
      · simpa using live.events ok
  | undecoded =>
    rw [run_undecoded, eventCallback]
    split
    · exact live
    · exact ⟨live.ledger, nofun⟩
  | buffer deleted buf code =>
    rw [run_buffer, bufferCallback.eq_def]
    split
    · exact live
    split
    · exact live
    rename_i going
    have ok : g.failed = false := by simpa using going
    split
    · rename_i l at_l
      exact live.renew ok (by rw [at_l]; rfl)
    · split
      · exact (live.renew ok rfl).drop
      · exact live.renew ok rfl
      · exact live.renew ok rfl
      · exact live.renew ok rfl
    · exact live

theorem Live.callbacks (live : Live base g) (cs : List (Callback Rec Buf)) :
    Live base (cs.foldl Callback.run g) := by
  induction cs generalizing g with
  | nil => exact live
  | cons c cs ih => exact ih (live.callback c)

variable {l : ListObj (Buf × List Rec)}

/-- Without a command it is only events that fail. -/
theorem callback_listObj (collects : g.buffer = .listObj l) (c : Callback Rec Buf) :
    (∃ l' : ListObj (Buf × List Rec), (c.run g).buffer = .listObj l') ∧
      (c.run g).failed = (g.failed || c.isUndecoded) := by
  cases c with
  | ignored => exact ⟨⟨l, collects⟩, (Bool.or_false _).symm⟩
  | event record =>
    rw [run_event, eventCallback]
    split
    · exact ⟨⟨l, collects⟩, (Bool.or_false _).symm⟩
    · exact ⟨⟨l, collects⟩, (Bool.or_false _).symm⟩
  | undecoded =>
    rw [run_undecoded, eventCallback]
    split
    · rename_i failed
      exact ⟨⟨l, collects⟩, by rw [failed]; rfl⟩
    · exact ⟨⟨l, collects⟩, (Bool.or_true _).symm⟩
  | buffer deleted buf code =>
    rw [run_buffer, bufferCallback.eq_def, collects]
    split
    · exact ⟨⟨l, collects⟩, (Bool.or_false _).symm⟩
    split
    · exact ⟨⟨l, collects⟩, (Bool.or_false _).symm⟩
    · exact ⟨⟨_, rfl⟩, (Bool.or_false _).symm⟩

theorem callbacks_listObj (collects : g.buffer = .listObj l) (cs : List (Callback Rec Buf)) :
    (∃ l' : ListObj (Buf × List Rec), (cs.foldl Callback.run g).buffer = .listObj l') ∧
      (cs.foldl Callback.run g).failed = (g.failed || cs.any Callback.isUndecoded) := by
  induction cs generalizing g l with
  | nil => exact ⟨⟨l, collects⟩, (Bool.or_false _).symm⟩
  | cons c cs ih =>
    obtain ⟨⟨l', collects'⟩, failed⟩ := callback_listObj collects c
    rw [List.foldl_cons, List.any_cons, ← Bool.or_assoc, ← failed]
    exact ih collects'

/-- With a command there is no list for buffers. -/
theorem callbacks_cmdObj {command : String} (calls : g.buffer = .cmdObj command)
    (cs : List (Callback Rec Buf)) : (cs.foldl Callback.run g).buffer = .cmdObj command := by
  induction cs generalizing g with
  | nil => exact calls
  | cons c cs ih =>
    refine ih ?_
    cases c with
    | ignored => exact calls
    | event record =>
      rw [run_event, eventCallback]
      split <;> exact calls
    | undecoded =>
      rw [run_undecoded, eventCallback]
      split <;> exact calls
    | buffer deleted buf code =>
      rw [run_buffer, bufferCallback.eq_def, calls]
      split
      · exact calls
      split
      · exact calls
      · cases code <;> exact calls

/-! ### The end of a call -/

/-- The list for buffers is left over where `ProcessTrace` fails and nothing else does. -/
def leftOver (winerr : Nat) (g : TwapiETWContext Rec Buf) : List Nat :=
  if g.failed = false ∧ winerr ≠ 0 ∧ winerr ≠ ERROR_CANCELLED then g.buffer.ids else []

theorem closed_idle (winerr : Nat) (g : TwapiETWContext Rec Buf) : (closed winerr g).2.Idle := by
  unfold closed
  dsimp only
  split
  · exact ⟨rfl, rfl, rfl, rfl⟩
  · exact ⟨rfl, rfl, rfl, rfl⟩
  · split
    · exact ⟨rfl, rfl, rfl, rfl⟩
    · split <;> exact ⟨rfl, rfl, rfl, rfl⟩

/-- The entries of the end of a call. -/
theorem closed_entries (winerr : Nat) (g : TwapiETWContext Rec Buf) :
    (closed winerr g).2.entries = g.entries ++ (g.eventsObj.map fun l => Entry.release l.id).toList ++
      (if leftOver winerr g = g.buffer.ids then [] else g.buffer.ids.map .release) := by
  unfold closed leftOver
  dsimp only
  cases failed : g.failed with
  | true =>
    cases buffer : g.buffer with
    | listObj l => simp [Buffer.ids, TwapiETWContext.release]
    | null | cmdObj => simp [Buffer.ids, TwapiETWContext.release]
  | false =>
    cases buffer : g.buffer with
    | listObj l =>
      by_cases fails : winerr ≠ 0 ∧ winerr ≠ ERROR_CANCELLED
      · simp [fails, TwapiETWContext.release]
      · simp [fails, Buffer.ids, TwapiETWContext.release]
    | null | cmdObj =>
      by_cases fails : winerr ≠ 0 ∧ winerr ≠ ERROR_CANCELLED
      · simp [fails, TwapiETWContext.release]
      · simp [fails, Buffer.ids, TwapiETWContext.release]

theorem closed_ledger (live : Live base g) (winerr : Nat) :
    ∃ entries, (closed winerr g).2.entries = base ++ entries ∧
      Entry.after entries 0 = some ↑(leftOver winerr g) := by
  obtain ⟨entries, ledger, held⟩ := live.ledger
  refine ⟨_, by rw [closed_entries, ledger, List.append_assoc, List.append_assoc], ?_⟩
  have events : (g.eventsObj.map fun l => Entry.release l.id).toList =
      (g.eventsObj.map ListObj.id).toList.map .release := by
    cases g.eventsObj <;> rfl
  rw [Entry.after_append, held, Option.bind_some, TwapiETWContext.held, events,
    Entry.after_append, ← Multiset.coe_add, Entry.after_releases, Option.bind_some]
  split
  · rename_i kept
    rw [kept]
    rfl
  · rename_i freed
    have nothing : leftOver winerr g = [] := by
      unfold leftOver at freed ⊢
      split
      · rename_i fails
        exact absurd (if_pos fails) freed
      · rfl
    rw [nothing, ← Multiset.add_zero (g.buffer.ids : Multiset Nat), Entry.after_releases]
    rfl

/-! ### Calls -/

theorem opened_live (c : Call Rec Buf) (command : String) (cmdlen : Nat) (traceH : Option Int) :
    Live g.entries (opened c command cmdlen traceH g) := by
  unfold opened
  by_cases collects : cmdlen = 0
  · refine ⟨⟨[.acquire g.next, .acquire (g.next + 1)], ?_, ?_⟩, fun _ => rfl⟩
    · simp [collects, TwapiETWContext.newList]
    · simp [collects, TwapiETWContext.newList, TwapiETWContext.held, Buffer.ids, Entry.after]
      rfl
  · refine ⟨⟨[.acquire g.next], ?_, ?_⟩, fun _ => rfl⟩
    · simp [collects, TwapiETWContext.newList]
    · simp [collects, TwapiETWContext.newList, TwapiETWContext.held, Buffer.ids, Entry.after]

theorem opened_buffer (c : Call Rec Buf) (command : String) (cmdlen : Nat) (traceH : Option Int) :
    (opened c command cmdlen traceH g).buffer =
      if cmdlen = 0 then .listObj ⟨g.next, []⟩ else .cmdObj command := by
  unfold opened
  split <;> rfl

/-- What a call leaves over that comes to `ProcessTrace`. -/
theorem leftOver_callbacks (c : Call Rec Buf) (command : String) (cmdlen : Nat)
    (traceH : Option Int) :
    leftOver c.winerr (c.callbacks.foldl Callback.run (opened c command cmdlen traceH g)) = [] ↔
      ¬ (cmdlen = 0 ∧ c.callbacks.all (! Callback.isUndecoded ·) = true ∧ c.winerr ≠ 0 ∧
        c.winerr ≠ ERROR_CANCELLED) := by
  have buffer := opened_buffer (g := g) c command cmdlen traceH
  by_cases collects : cmdlen = 0
  · rw [if_pos collects] at buffer
    obtain ⟨⟨l, list⟩, failed⟩ := callbacks_listObj buffer c.callbacks
    have fresh : (opened c command cmdlen traceH g).failed = false := rfl
    rw [leftOver, list, failed, fresh, Bool.false_or, ← List.not_any_eq_all_not]
    simp [collects, Buffer.ids]
  · rw [if_neg collects] at buffer
    rw [leftOver, callbacks_cmdObj buffer]
    simp [collects, Buffer.ids]

/-! ### Handles -/

theorem le_length_takeWhile {α : Type} (p : α → Bool) (n : Nat) (xs : List α) :
    n ≤ (xs.takeWhile p).length ↔ n ≤ xs.length ∧ ∀ x ∈ xs.take n, p x = true := by
  induction xs generalizing n with
  | nil => simp
  | cons x xs ih =>
    cases n with
    | zero => simp
    | succ n =>
      rw [List.takeWhile_cons]
      by_cases holds : p x = true
      · simp [holds, ih]
      · simp [holds]

/-- The slots are numbered up to the first handle that cannot be read. -/
theorem readHandles_eq (objs : List String) (i : Nat) :
    readHandles T i objs =
      (List.range' i (objs.takeWhile fun obj => (T.asWide obj).isSome).length,
        objs.all fun obj => (T.asWide obj).isSome) := by
  induction objs generalizing i with
  | nil => rfl
  | cons obj objs ih =>
    rw [readHandles]
    cases wide : T.asWide obj with
    | none => simp [wide]
    | some handle => simp [wide, ih, List.range'_succ]

theorem slots_inside_iff (objs : List String) :
    (∀ i ∈ (readHandles T 0 objs).1, i < 8) ↔
      ¬ (9 ≤ objs.length ∧ ∀ obj ∈ objs.take 9, (T.asWide obj).isSome = true) := by
  rw [← le_length_takeWhile (fun obj => (T.asWide obj).isSome), readHandles_eq]
  constructor
  · intro inside many
    have := inside 8 (List.mem_range'_1.mpr (by omega))
    omega
  · intro few i among
    have := List.mem_range'_1.mp among
    omega

/-! ### A proper call -/

section Proper

variable {c : Call Rec Buf} {name handles command start «end» : String}

theorem overflows_iff (args : c.objv = [name, handles, command, start, «end»]) :
    Overflows T c ↔ ∃ objs, T.asList handles = some objs ∧ 9 ≤ objs.length ∧
      ∀ obj ∈ objs.take 9, (T.asWide obj).isSome = true := by
  constructor
  · rintro ⟨_, _, _, _, _, objs, args', list, many⟩
    obtain ⟨-, rfl, -⟩ : name = _ ∧ handles = _ ∧ _ := by simpa [args] using args'
    exact ⟨objs, list, many⟩
  · rintro ⟨objs, list, many⟩
    exact ⟨_, _, _, _, _, objs, args, list, many⟩

theorem leaks_iff (args : c.objv = [name, handles, command, start, «end»]) :
    Leaks T c ↔ ∃ objs, T.asList handles = some objs ∧
      (∀ obj ∈ objs, (T.asWide obj).isSome = true) ∧ T.asList command = some [] ∧
      (readTime T start).isSome = true ∧ (readTime T «end»).isSome = true ∧
      c.callbacks.all (! Callback.isUndecoded ·) = true ∧ c.winerr ≠ 0 ∧
      c.winerr ≠ ERROR_CANCELLED := by
  constructor
  · rintro ⟨_, _, _, _, _, objs, args', rest⟩
    obtain ⟨-, rfl, rfl, rfl, rfl⟩ :
        name = _ ∧ handles = _ ∧ command = _ ∧ start = _ ∧ «end» = _ := by
      simpa [args] using args'
    exact ⟨objs, rest⟩
  · rintro ⟨objs, rest⟩
    exact ⟨_, _, _, _, _, objs, args, rest⟩

/-- A call that is refused changes nothing. -/
theorem proper_same (idle : g.Idle) (result : Result Rec Buf) (slots : List Nat) :
    Proper g (result, g, slots) ↔ ∀ i ∈ slots, i < 8 :=
  ⟨fun proper => proper.slots, fun inside => ⟨inside, idle, [], (List.append_nil _).symm, rfl⟩⟩

/-- Of a call that comes to `ProcessTrace` everything is settled but the list that is left
over. -/
theorem proper_closed (cmdlen : Nat) (traceH : Option Int) (slots : List Nat) :
    Proper g ((closed c.winerr
        (c.callbacks.foldl Callback.run (opened c command cmdlen traceH g))).1,
      (closed c.winerr (c.callbacks.foldl Callback.run (opened c command cmdlen traceH g))).2,
      slots) ↔
      (∀ i ∈ slots, i < 8) ∧
        ¬ (cmdlen = 0 ∧ c.callbacks.all (! Callback.isUndecoded ·) = true ∧ c.winerr ≠ 0 ∧
          c.winerr ≠ ERROR_CANCELLED) := by
  obtain ⟨entries, ledger, after⟩ :=
    closed_ledger ((opened_live c command cmdlen traceH).callbacks c.callbacks) c.winerr
  rw [← leftOver_callbacks (g := g) c command cmdlen traceH]
  constructor
  · rintro ⟨inside, -, entries', ledger', settled⟩
    refine ⟨inside, ?_⟩
    obtain rfl := List.append_cancel_left (ledger.symm.trans ledger')
    exact (Multiset.coe_eq_zero _).mp (Option.some.inj (after.symm.trans settled))
  · rintro ⟨inside, nothing⟩
    refine ⟨inside, closed_idle _ _, entries, ledger, after.trans ?_⟩
    rw [nothing]
    rfl

theorem proper_iff_of_idle (idle : g.Idle) (c : Call Rec Buf) :
    Proper g (processTrace T c g) ↔ ¬ Overflows T c ∧ ¬ Leaks T c := by
  unfold processTrace
  split
  · rename_i name handles command start «end» args
    rw [overflows_iff args, leaks_iff args]
    cases list : T.asList handles with
    | none => exact iff_of_true ((proper_same idle _ _).mpr nofun) (by simp)
    | some objs =>
      have inside := slots_inside_iff (T := T) objs
      simp only [Option.some.injEq, exists_eq_left']
      rw [← inside]
      have good : (readHandles T 0 objs).2 = objs.all fun obj => (T.asWide obj).isSome := by
        rw [readHandles_eq]
      split
      · rename_i bad
        rw [good] at bad
        rw [proper_same idle]
        exact (and_iff_left fun leaks => bad (List.all_eq_true.mpr leaks.1)).symm
      · rename_i all
        rw [good, not_not, List.all_eq_true] at all
        split
        · rename_i words _ _ isCommand isStart isEnd
          rw [if_neg (not_not.mpr idle.ticP)]
          refine (proper_closed words.length _ _).trans (and_congr_right fun _ => not_congr ?_)
          rw [isCommand, isStart, isEnd, List.length_eq_zero_iff]
          constructor
          · rintro ⟨rfl, decoded, fails⟩
            exact ⟨all, rfl, rfl, rfl, decoded, fails⟩
          · rintro ⟨-, same, -, -, decoded, fails⟩
            exact ⟨Option.some.inj same, decoded, fails⟩
        · rename_i refused
          refine (proper_same idle _ _).trans (and_iff_left ?_).symm
          rintro ⟨-, isCommand, isStart, isEnd, -⟩
          obtain ⟨start', isStart⟩ := Option.isSome_iff_exists.mp isStart
          obtain ⟨end', isEnd⟩ := Option.isSome_iff_exists.mp isEnd
          exact refused _ _ _ isCommand isStart isEnd
  · rename_i other
    refine iff_of_true ((proper_same idle _ _).mpr nofun) ⟨?_, ?_⟩
    · rintro ⟨_, _, _, _, _, _, args, -⟩
      exact other _ _ _ _ _ args
    · rintro ⟨_, _, _, _, _, _, args, -⟩
      exact other _ _ _ _ _ args

end Proper

theorem idle_processTrace (idle : g.Idle) (c : Call Rec Buf) : (processTrace T c g).2.1.Idle := by
  unfold processTrace
  split
  · split
    · exact idle
    · dsimp only
      split
      · exact idle
      · split
        · rw [if_neg (not_not.mpr idle.ticP)]
          exact closed_idle _ _
        · exact idle
  · exact idle

theorem idle_afterCalls (calls : List (Call Rec Buf)) : (afterCalls T calls).Idle := by
  unfold afterCalls
  have start : (.start : TwapiETWContext Rec Buf).Idle := ⟨rfl, rfl, rfl, rfl⟩
  generalize TwapiETWContext.start = g at start ⊢
  induction calls generalizing g with
  | nil => exact start
  | cons c calls ih => exact ih _ (idle_processTrace start c)

/-- After any calls, a call is as it should be if and only if it has not more than eight
handles that can be read, and does not collect a list that a failure of the system then
leaves over. -/
theorem process_trace_proper_iff (T : Conversions) (calls : List (Call Rec Buf)) (c : Call Rec Buf) :
    Proper (afterCalls T calls) (processTrace T c (afterCalls T calls)) ↔
      ¬ Overflows T c ∧ ¬ Leaks T c :=
  proper_iff_of_idle (idle_afterCalls calls) c

/-! ### Nine handles -/

/-- Every string is a list of nine handles, but for the empty list. -/
def nineHandles : Conversions where
  asList s := if s = "" then some [] else some (List.replicate 9 s)
  asInt _ := none
  notList _ := ""
  notInt _ := ""
  asWide _ := some 1
  asFiletime _ := none

theorem ninth_handle_outside :
    ¬ ∀ (T : Conversions) (calls : List (Call Unit Unit)) (c : Call Unit Unit),
      Proper (afterCalls T calls) (processTrace T c (afterCalls T calls)) := by
  intro all
  have slots := (all nineHandles [] ⟨0, ["ProcessTrace", "h", "", "", ""], [], 0⟩).slots
  exact absurd (slots 8 (by decide)) (by decide)

end Twapi.Etw.Session
