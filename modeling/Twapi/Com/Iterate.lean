import Twapi.Lib.Ledger
import Twapi.Lib.Traced

/-!
`-iterate` of an `Automation` object, `tcl/com.tcl`.

* Events are the evaluations of the body and what was got and released: the proxies of the
  enumerator, and for each element its wrapper.
* `Proper` — the body is evaluated once for each element up to the one that ends the
  iteration, and all that was got is released once; without `-cleanup` the wrappers are
  left to the caller.
* `iterate_proper_iff` — when it is so.
-/

namespace Twapi.Com.Iterate

open Lib List
open Lib.Traced

/-! ### What is iterated over -/

/-- What `my -get _NewEnum` gives: the proxy of an `IUnknown`, an automation object, or a
value that is neither. -/
inductive NewEnum where
  | failed
  | unknown
  | nullUnknown
  | dispatch
  | nullDispatch
  | value
deriving DecidableEq

/-- What `@QueryInterface IEnumVARIANT` gives; `missing` is the empty string. -/
inductive Queried where
  | failed
  | missing
  | null
  | found
deriving DecidableEq

/-- The value of an element: an automation object; the proxy of an `IUnknown`, with the
number of references that others have to it; the null object, which cannot be destroyed; or
a value that is none of these, for which `command` is whether there is a command of this name
that succeeds. -/
inductive Item where
  | object
  | unknown (others : Nat)
  | null
  | plain (command : Bool)
deriving DecidableEq

inductive Code where
  | ok
  | error
  | return
  | break
  | continue
  | other (n : Int)
deriving DecidableEq

/-- The variable after the body: as it was, gone, or with a value of the body, which may be
the name of a command. -/
inductive Var where
  | kept
  | unset
  | changed (command : Bool)
deriving DecidableEq

/-- An element, whether the variable can be set to it, and what the body does then. -/
structure Element where
  item : Item
  settable : Bool
  code : Code
  var : Var
deriving DecidableEq

inductive Resource where
  | enumerator
  | iter
  | wrapper (n : Nat)
deriving DecidableEq

inductive Event where
  | evaluated (n : Nat)
  | entry (e : Entry Resource)
deriving DecidableEq

/-- The empty result, an error of `-iterate`, or what the body returned. -/
inductive Outcome where
  | empty
  | error
  | passed (code : Code)
deriving DecidableEq

/-! ### `-iterate` -/

def got (rs : List Resource) : Traced Event Unit := tellAll (rs.map fun r => .entry (.acquire r))

def gave (rs : List Resource) : Traced Event Unit := tellAll (rs.map fun r => .entry (.release r))

def Item.wrappers (n : Nat) : Item → List Resource
  | .object | .unknown _ => [.wrapper n]
  | .null | .plain _ => []

/-- `$var destroy`. A proxy is destroyed for others too. -/
def destroyVar (n : Nat) (e : Element) : Traced Event Bool :=
  match e.var with
  | .unset => pure false
  | .changed command => pure command
  | .kept =>
    match e.item with
    | .object => do
        gave [.wrapper n]
        pure true
    | .unknown others => do
        gave (List.replicate (others + 1) (.wrapper n))
        pure true
    | .null => pure true
    | .plain command => pure command

/-- From an element on; `failed` is whether `Next` fails after the last one. -/
def loop (cleanup failed : Bool) : List Element → Nat → Traced Event Outcome
  | [], _ => pure (if failed then .error else .empty)
  | e :: es, n => do
      got (e.item.wrappers n)
      if e.settable then
        tell (.evaluated n)
        let cleaned ← if cleanup then destroyVar n e else pure true
        if cleaned then
          match e.code with
          | .ok | .continue => loop cleanup failed es (n + 1)
          | .break => pure .empty
          | code => pure (.passed code)
        else pure .error
      else pure .error

/-- The null proxy of an iterator is not released; the object of a dispatch interface has no
`Release`, nor `@QueryInterface`. -/
def iterate (newEnum : NewEnum) (queried : Queried) (cleanup failed : Bool) (es : List Element) :
    Traced Event Outcome :=
  match newEnum with
  | .failed | .nullDispatch | .value => pure .error
  | .dispatch => do
      got [.enumerator]
      pure .error
  | .nullUnknown => do
      got [.enumerator]
      gave [.enumerator]
      pure .error
  | .unknown =>
    match queried with
    | .failed | .missing => do
        got [.enumerator]
        gave [.enumerator]
        pure .error
    | .null => do
        got [.enumerator, .iter]
        gave [.enumerator]
        pure .empty
    | .found => do
        got [.enumerator, .iter]
        let outcome ← loop cleanup failed es 0
        gave [.enumerator, .iter]
        pure outcome

/-! ### What is asked for -/

def Element.stops (e : Element) : Bool := e.code ≠ .ok ∧ e.code ≠ .continue

/-- The elements up to the one that ends the iteration -/
def upTo : List Element → List Element
  | [] => []
  | e :: es => if e.stops then [e] else e :: upTo es

def wrappers : List Element → Nat → List Resource
  | [], _ => []
  | e :: es, n => e.item.wrappers n ++ wrappers es (n + 1)

def Event.evaluation : Event → Option Nat
  | .evaluated n => some n
  | .entry _ => none

def Event.toEntry : Event → Option (Entry Resource)
  | .evaluated _ => none
  | .entry e => some e

/-- There is something to enumerate where the second interface was got. -/
def enumerated (newEnum : NewEnum) (queried : Queried) (es : List Element) : List Element :=
  if newEnum = .unknown ∧ queried = .found then es else []

structure Proper (cleanup : Bool) (es : List Element) (x : Traced Event Outcome) : Prop where
  evaluated : x.events.filterMap Event.evaluation = List.range (upTo es).length
  released : Entry.after (x.events.filterMap Event.toEntry) 0 =
    some (if cleanup then 0 else ↑(wrappers (upTo es) 0))

/-- Destroying what the variable has is the release of the wrapper. -/
def Element.Released (e : Element) : Prop :=
  match e.item with
  | .object => e.var = .kept
  | .unknown others => e.var = .kept ∧ others = 0
  | .null | .plain _ => True

/-- What the variable has is a command that succeeds. -/
def Element.Cleaned (e : Element) : Prop :=
  match e.var with
  | .unset => False
  | .changed command => command
  | .kept =>
    match e.item with
    | .plain command => command
    | _ => True

/-- Each element can be put into the variable; and with `-cleanup` each wrapper is still in it
after the body, for no one else, and each element but the last can be destroyed. -/
def ElementsKeep (cleanup : Bool) (es : List Element) : Prop :=
  (∀ e ∈ es, e.settable) ∧
    (cleanup → (∀ e ∈ es, e.Released) ∧ ∀ e ∈ es.dropLast, e.Cleaned)

def Keeps (newEnum : NewEnum) (queried : Queried) (cleanup : Bool) (es : List Element) : Prop :=
  match newEnum with
  | .dispatch => False
  | .failed | .nullDispatch | .value | .nullUnknown => True
  | .unknown =>
    match queried with
    | .null => False
    | .failed | .missing => True
    | .found => ElementsKeep cleanup (upTo es)

/-! ### One element -/

section Elements

variable (cleanup failed : Bool) (n : Nat) (e : Element) (es : List Element)

def elementEvents : List Event :=
  (got (e.item.wrappers n)).events ++ .evaluated n ::
    if cleanup then (destroyVar n e).events else []

theorem destroyVar_result : (destroyVar n e).result = true ↔ e.Cleaned := by
  unfold destroyVar Element.Cleaned
  cases e.var with
  | unset => exact iff_of_false nofun id
  | changed command => exact Iff.rfl
  | kept =>
    cases e.item with
    | plain command => exact Iff.rfl
    | object => exact iff_of_true rfl trivial
    | unknown others => exact iff_of_true rfl trivial
    | null => exact iff_of_true rfl trivial

/-- The iteration goes on where the body does not end it and the cleanup succeeds. -/
theorem loop_cons :
    (loop cleanup failed (e :: es) n).events =
      if e.settable then
        elementEvents cleanup n e ++
          if (cleanup = true → (destroyVar n e).result = true) ∧ e.stops = false then
            (loop cleanup failed es (n + 1)).events
          else []
      else (got (e.item.wrappers n)).events := by
  rw [loop]
  by_cases settable : e.settable = true
  · cases cleanup with
    | false =>
      cases code : e.code <;>
        simp [settable, elementEvents, Element.stops, code]
    | true =>
      by_cases cleaned : (destroyVar n e).result = true
      · cases code : e.code <;> simp [settable, elementEvents, Element.stops, code, cleaned]
      · simp [settable, elementEvents, cleaned]
  · simp [settable]

def elementsEvents : List Element → Nat → List Event
  | [], _ => []
  | e :: es, n => elementEvents cleanup n e ++ elementsEvents es (n + 1)

/-- The body is evaluated for all of them. -/
def Evaluates : Prop :=
  (∀ e ∈ es, e.settable) ∧ (cleanup → ∀ e ∈ es.dropLast, e.Cleaned)

end Elements

/-! ### Evaluations -/

section Evaluations

variable {cleanup failed : Bool} {n : Nat} {e : Element} {es : List Element}

theorem evaluation_got (rs : List Resource) :
    (got rs).events.filterMap Event.evaluation = [] := by
  rw [got, events_tellAll, filterMap_map]
  exact filterMap_eq_nil_iff.mpr fun _ _ => rfl

theorem evaluation_gave (rs : List Resource) :
    (gave rs).events.filterMap Event.evaluation = [] := by
  rw [gave, events_tellAll, filterMap_map]
  exact filterMap_eq_nil_iff.mpr fun _ _ => rfl

theorem evaluation_destroyVar : (destroyVar n e).events.filterMap Event.evaluation = [] := by
  unfold destroyVar
  cases e.var with
  | unset => rfl
  | changed command => rfl
  | kept =>
    cases e.item with
    | plain command => rfl
    | null => rfl
    | object => rfl
    | unknown others => simp [evaluation_gave]

theorem evaluation_elementEvents :
    (elementEvents cleanup n e).filterMap Event.evaluation = [n] := by
  rw [elementEvents, filterMap_append, evaluation_got, nil_append, filterMap_cons]
  cases cleanup with
  | false => rfl
  | true => exact congrArg (n :: ·) evaluation_destroyVar

theorem evaluation_elementsEvents :
    (elementsEvents cleanup es n).filterMap Event.evaluation = List.range' n es.length := by
  induction es generalizing n with
  | nil => rfl
  | cons e es ih =>
    rw [elementsEvents, filterMap_append, evaluation_elementEvents, ih]
    rfl

theorem evaluates_cons_of_stops (stops : e.stops = true) :
    Evaluates cleanup (upTo (e :: es)) ↔ e.settable = true := by
  simp [upTo, stops, Evaluates]

theorem evaluates_cons (goes : e.stops = false) :
    Evaluates cleanup (upTo (e :: es)) ↔
      e.settable = true ∧ Evaluates cleanup (upTo es) ∧
        (cleanup = true → upTo es ≠ [] → e.Cleaned) := by
  unfold Evaluates
  rw [upTo, goes, if_neg Bool.false_ne_true, forall_mem_cons]
  cases rest : upTo es with
  | nil => simp
  | cons e' es' =>
    rw [dropLast_cons_of_ne_nil (cons_ne_nil _ _)]
    constructor
    · rintro ⟨⟨settable, others⟩, cleaned⟩
      exact ⟨settable, ⟨others, fun given e mem => cleaned given e (mem_cons_of_mem _ mem)⟩,
        fun given _ => cleaned given e mem_cons_self⟩
    · rintro ⟨settable, ⟨others, cleaned⟩, first⟩
      exact ⟨⟨settable, others⟩, fun given => forall_mem_cons.mpr
        ⟨first given (cons_ne_nil _ _), cleaned given⟩⟩

theorem upTo_eq_nil_iff : upTo es = [] ↔ es = [] := by
  cases es with
  | nil => exact iff_of_true rfl rfl
  | cons e es =>
    refine iff_of_false ?_ (cons_ne_nil _ _)
    rw [upTo]
    split
    · exact cons_ne_nil _ _
    · exact cons_ne_nil _ _

theorem loop_events (evaluates : Evaluates cleanup (upTo es)) :
    (loop cleanup failed es n).events = elementsEvents cleanup (upTo es) n := by
  induction es generalizing n with
  | nil => rfl
  | cons e es ih =>
    rw [loop_cons]
    cases stops : e.stops with
    | true =>
      rw [if_pos ((evaluates_cons_of_stops stops).mp evaluates)]
      simp [upTo, stops, elementsEvents]
    | false =>
      obtain ⟨settable, evaluates, cleaned⟩ := (evaluates_cons stops).mp evaluates
      rw [if_pos settable, upTo, stops, if_neg Bool.false_ne_true, elementsEvents,
        ← ih evaluates]
      cases es with
      | nil => simp [loop]
      | cons e' es' =>
        have cleaned := fun given => (destroyVar_result n e).mpr
          (cleaned given fun none_ => cons_ne_nil _ _ (upTo_eq_nil_iff.mp none_))
        rw [if_pos ⟨cleaned, rfl⟩]

theorem loop_evaluated_iff :
    (loop cleanup failed es n).events.filterMap Event.evaluation =
        List.range' n (upTo es).length ↔
      Evaluates cleanup (upTo es) := by
  constructor
  · intro evaluated
    induction es generalizing n with
    | nil => exact ⟨nofun, fun _ => nofun⟩
    | cons e es ih =>
      have settable : e.settable = true := by
        by_contra refused
        rw [loop_cons, if_neg refused, evaluation_got] at evaluated
        have none_ := congrArg length evaluated
        rw [length_range'] at none_
        exact absurd (upTo_eq_nil_iff.mp (length_eq_zero_iff.mp none_.symm))
          (cons_ne_nil _ _)
      cases stops : e.stops with
      | true => exact (evaluates_cons_of_stops stops).mpr settable
      | false =>
        rw [loop_cons, if_pos settable, filterMap_append, evaluation_elementEvents, upTo,
          stops, if_neg Bool.false_ne_true, length_cons, range'_succ] at evaluated
        have later := tail_eq_of_cons_eq evaluated
        by_cases cleaned : cleanup = true → (destroyVar n e).result = true
        · rw [if_pos ⟨cleaned, rfl⟩] at later
          exact (evaluates_cons stops).mpr ⟨settable, ih later, fun given _ =>
            (destroyVar_result n e).mp (cleaned given)⟩
        · rw [if_neg fun goes => cleaned goes.1] at later
          have none_ := congrArg length later
          rw [length_range'] at none_
          have none_ : upTo es = [] := length_eq_zero_iff.mp none_.symm
          refine (evaluates_cons stops).mpr ⟨settable, ?_, fun _ some_ => absurd none_ some_⟩
          rw [none_]
          exact ⟨nofun, fun _ => nofun⟩
  · intro evaluates
    rw [loop_events evaluates, evaluation_elementsEvents]

end Evaluations

/-! ### What is released -/

section Released

variable {cleanup : Bool} {n : Nat} {e : Element} {es : List Element}

def entries (events : List Event) : List (Entry Resource) := events.filterMap Event.toEntry

theorem entries_append (events later : List Event) :
    entries (events ++ later) = entries events ++ entries later := List.filterMap_append

theorem entries_got (rs : List Resource) : entries (got rs).events = rs.map .acquire := by
  rw [got, events_tellAll, entries, filterMap_map]
  exact congrFun filterMap_eq_map rs

theorem entries_gave (rs : List Resource) : entries (gave rs).events = rs.map .release := by
  rw [gave, events_tellAll, entries, filterMap_map]
  exact congrFun filterMap_eq_map rs

theorem entries_elementEvents :
    entries (elementEvents cleanup n e) = (e.item.wrappers n).map .acquire ++
      if cleanup then entries (destroyVar n e).events else [] := by
  rw [elementEvents, entries_append, entries_got]
  cases cleanup <;> rfl

/-- The wrapper of one element: released; released too often; or left. -/
theorem element_cases :
    e.Released ∧ Entry.after (entries (elementEvents true n e)) 0 = some 0 ∨
      ¬ e.Released ∧ (Entry.after (entries (elementEvents true n e)) 0 = none ∨
        Entry.after (entries (elementEvents true n e)) 0 = some {Resource.wrapper n}) := by
  rw [entries_elementEvents, if_pos rfl]
  obtain ⟨item, settable, code, var⟩ := e
  have none_ : entries [] = [] := rfl
  cases item with
  | null =>
    refine .inl ⟨trivial, ?_⟩
    cases var <;> rfl
  | plain command =>
    refine .inl ⟨trivial, ?_⟩
    cases var <;> rfl
  | object =>
    cases var <;>
      simp [Element.Released, Item.wrappers, destroyVar, entries_gave, none_, Entry.after]
  | unknown others =>
    cases var with
    | unset => exact .inr ⟨nofun, .inr rfl⟩
    | changed command => exact .inr ⟨nofun, .inr rfl⟩
    | kept =>
      cases others with
      | zero => simp [Element.Released, Item.wrappers, destroyVar, entries_gave, Entry.after]
      | succ others =>
        simp [Element.Released, Item.wrappers, destroyVar, entries_gave, Entry.after,
          replicate_succ]

theorem release_mem_elementEvents {r : Resource}
    (mem : .release r ∈ entries (elementEvents cleanup n e)) : r = .wrapper n := by
  rw [entries_elementEvents] at mem
  rcases mem_append.mp mem with got | gave
  · simp at got
  · cases cleanup with
    | false => cases gave
    | true =>
      rw [if_pos rfl] at gave
      unfold destroyVar at gave
      split at gave
      · cases gave
      · cases gave
      · split at gave
        · rw [events_bind, entries_append, entries_gave] at gave
          simpa [entries] using gave
        · rw [events_bind, entries_append, entries_gave] at gave
          simpa [entries] using gave
        · cases gave
        · cases gave

/-- Only wrappers are released, of the elements in the list. -/
theorem release_mem_elementsEvents {r : Resource}
    (mem : .release r ∈ entries (elementsEvents cleanup es n)) :
    ∃ m, n ≤ m ∧ r = .wrapper m := by
  induction es generalizing n with
  | nil => cases mem
  | cons e es ih =>
    rw [elementsEvents, entries_append] at mem
    rcases mem_append.mp mem with here | later
    · exact ⟨n, Nat.le_refl n, release_mem_elementEvents here⟩
    · obtain ⟨m, le, same⟩ := ih later
      exact ⟨m, Nat.le_of_succ_le le, same⟩

theorem released_iff :
    Entry.after (entries (elementsEvents true es n)) 0 = some 0 ↔ ∀ e ∈ es, e.Released := by
  induction es generalizing n with
  | nil => exact iff_of_true rfl nofun
  | cons e es ih =>
    rw [elementsEvents, entries_append, Entry.after_append, forall_mem_cons]
    rcases element_cases (e := e) (n := n) with ⟨released, none_⟩ | ⟨kept, none_ | left⟩
    · rw [none_, Option.bind_some, ih, and_iff_right released]
    · rw [none_]
      exact iff_of_false nofun fun all => kept all.1
    · refine iff_of_false (fun settled => ?_) fun all => kept all.1
      have later : ∀ r ∈ ({.wrapper n} : Multiset Resource),
          .release r ∉ entries (elementsEvents true es (n + 1)) := by
        intro r mem among
        obtain rfl := Multiset.mem_singleton.mp mem
        obtain ⟨m, le, same⟩ := release_mem_elementsEvents among
        cases same
        exact absurd le (Nat.not_succ_le_self n)
      rw [left, Option.bind_some, ← Multiset.zero_add {Resource.wrapper n},
        Entry.after_add_of_notMem later] at settled
      obtain ⟨rest, -, none_⟩ := Option.map_eq_some_iff.mp settled
      have mem : .wrapper n ∈ rest + {.wrapper n} := by simp
      rw [none_] at mem
      exact Multiset.notMem_zero _ mem

theorem kept_wrappers :
    Entry.after (entries (elementsEvents false es n)) 0 = some ↑(wrappers es n) := by
  have acquired : entries (elementsEvents false es n) = (wrappers es n).map .acquire := by
    induction es generalizing n with
    | nil => rfl
    | cons e es ih =>
      rw [elementsEvents, entries_append, entries_elementEvents, ih, wrappers, map_append]
      simp
  rw [acquired, Entry.after_acquires, Multiset.add_zero]

end Released

/-! ### The iteration -/

section Iteration

variable {cleanup failed : Bool} {es : List Element} {x : Traced Event Outcome}

/-- There is nothing to enumerate. -/
theorem proper_nil_iff (none_ : x.events.filterMap Event.evaluation = []) :
    Proper cleanup [] x ↔ Entry.after (entries x.events) 0 = some 0 := by
  have left : (if cleanup then 0 else ↑(wrappers (upTo []) 0) : Multiset Resource) = 0 := by
    cases cleanup <;> rfl
  constructor
  · intro proper
    exact proper.released.trans (congrArg some left)
  · intro settled
    exact ⟨none_, settled.trans (congrArg some left.symm)⟩

theorem proper_found_iff :
    Proper cleanup es (iterate .unknown .found cleanup failed es) ↔
      ElementsKeep cleanup (upTo es) := by
  have events : (iterate .unknown .found cleanup failed es).events =
      (got [.enumerator, .iter]).events ++ ((loop cleanup failed es 0).events ++
        (gave [.enumerator, .iter]).events) := by
    simp [iterate]
  have evaluated : (iterate .unknown .found cleanup failed es).events.filterMap Event.evaluation =
      (loop cleanup failed es 0).events.filterMap Event.evaluation := by
    rw [events, filterMap_append, filterMap_append, evaluation_got, evaluation_gave,
      nil_append, append_nil]
  have evaluates : (loop cleanup failed es 0).events.filterMap Event.evaluation =
      range' 0 (upTo es).length ↔ Evaluates cleanup (upTo es) := loop_evaluated_iff
  rw [← range_eq_range', ← evaluated] at evaluates
  -- Where all are evaluated, the rest is about their wrappers.
  have released (all : Evaluates cleanup (upTo es)) :
      entries (iterate .unknown .found cleanup failed es).events =
        [Resource.enumerator, .iter].map .acquire ++
          (entries (elementsEvents cleanup (upTo es) 0) ++
            [Resource.enumerator, .iter].map .release) := by
    rw [events, entries_append, entries_append, entries_got, entries_gave, loop_events all]
  have outside : ∀ r ∈ [Resource.enumerator, .iter],
      .release r ∉ entries (elementsEvents cleanup (upTo es) 0) := by
    intro r mem among
    obtain ⟨m, -, rfl⟩ := release_mem_elementsEvents among
    simp at mem
  have balance (all : Evaluates cleanup (upTo es)) :
      Entry.after (entries (iterate .unknown .found cleanup failed es).events) 0 =
        Entry.after (entries (elementsEvents cleanup (upTo es) 0)) 0 := by
    rw [released all, Entry.after_bracketed outside]
  constructor
  · intro proper
    have all := evaluates.mp proper.evaluated
    refine ⟨all.1, fun given => ⟨?_, all.2 given⟩⟩
    have settled := (balance all).symm.trans proper.released
    subst given
    exact released_iff.mp settled
  · rintro ⟨settable, destroyed⟩
    have all : Evaluates cleanup (upTo es) := ⟨settable, fun given => (destroyed given).2⟩
    refine ⟨evaluates.mpr all, (balance all).trans ?_⟩
    cases cleanup with
    | false => exact kept_wrappers
    | true => exact released_iff.mpr (destroyed rfl).1

end Iteration

theorem iterate_proper_iff (newEnum : NewEnum) (queried : Queried) (cleanup failed : Bool)
    (es : List Element) :
    Proper cleanup (enumerated newEnum queried es) (iterate newEnum queried cleanup failed es) ↔
      Keeps newEnum queried cleanup es := by
  cases newEnum with
  | failed => exact iff_of_true ((proper_nil_iff rfl).mpr rfl) trivial
  | nullDispatch => exact iff_of_true ((proper_nil_iff rfl).mpr rfl) trivial
  | value => exact iff_of_true ((proper_nil_iff rfl).mpr rfl) trivial
  | nullUnknown => exact iff_of_true ((proper_nil_iff rfl).mpr rfl) trivial
  | dispatch =>
    have left : Entry.after (entries (iterate .dispatch queried cleanup failed es).events) 0 =
        some {Resource.enumerator} := rfl
    refine iff_of_false (fun proper => ?_) id
    exact absurd (left.symm.trans ((proper_nil_iff rfl).mp proper)) (by decide)
  | unknown =>
    cases queried with
    | failed => exact iff_of_true ((proper_nil_iff rfl).mpr rfl) trivial
    | missing => exact iff_of_true ((proper_nil_iff rfl).mpr rfl) trivial
    | null =>
      have left : Entry.after (entries (iterate .unknown .null cleanup failed es).events) 0 =
          some {Resource.iter} := rfl
      refine iff_of_false (fun proper => ?_) id
      exact absurd (left.symm.trans ((proper_nil_iff rfl).mp proper)) (by decide)
    | found => exact proper_found_iff

/-- Three numbers, with `-cleanup`: the first one is taken for a command, and the body is not
evaluated for the others. -/
theorem iterate_stops_at_number :
    let one : Element := ⟨.plain false, true, .ok, .kept⟩
    let x := iterate .unknown .found true false [one, one, one]
    x.result = .error ∧ x.events.filterMap Event.evaluation = [0] ∧
      ¬ Proper true [one, one, one] x := by
  refine ⟨rfl, rfl, fun proper => ?_⟩
  exact absurd proper.evaluated (by decide)

end Twapi.Com.Iterate
