import Twapi.Lib.Lists
import Twapi.Lib.Ledger
import Twapi.Lib.Machine
import Twapi.Lib.Results

/-!
Events of an `Automation` object, `tcl/com.tcl`: the methods `-bind` and `-unbind`, and the
destructor.

* `Answers` is how the steps of `-bind` end; `State.entries` is what was got and released,
  connections with it: they are got by `IConnectionPoint_Advise` and released by
  `IConnectionPoint_Unadvise`.
* `State.advised` belongs to the connection point, which gives every connection an id that
  none of its others has.
* `Kept` — what is held is what the bindings hold, and those listed are those advised.
* `bindings_kept_iff` — the runs for which it is so.
-/

namespace Twapi.Com.Binding

open Lib List

/-! ### State -/

inductive Kind where
  | coti
  | srcti
  | container
  | connpt
  | sink
deriving DecidableEq

/-- Interfaces are numbered by the call of `-bind` that got them. -/
inductive Resource where
  | interface (kind : Kind) (number : Nat)
  | connection (sinkid : Nat)
  | proxy
deriving DecidableEq

/-- `sinks` and `connectionPts` have the number of the interface for each id. -/
structure State where
  alive : Bool
  sinks : List (Nat × Nat)
  connectionPts : List (Nat × Nat)
  advised : List Nat
  made : Nat
  entries : List (Entry Resource)

def State.log (s : State) (e : Entry Resource) : State := { s with entries := s.entries ++ [e] }

/-- The constructor was given the proxy. -/
def start : State := ⟨true, [], [], [], 0, [.acquire .proxy]⟩

def unsetKey (k : Nat) (l : List (Nat × Nat)) : List (Nat × Nat) := l.filter fun b => b.1 ≠ k

def setKey (k n : Nat) (l : List (Nat × Nat)) : List (Nat × Nat) := (k, n) :: unsetKey k l

def findKey (k : Nat) (l : List (Nat × Nat)) : Option (Nat × Nat) := l.find? fun b => b.1 = k

/-! ### `-bind` -/

/-- What `@GetDefaultSourceTypeInfo` gives; `missing` is the empty string. -/
inductive Source where
  | failed
  | missing
  | found
deriving DecidableEq

/-- Whether a step succeeds; an id is what `IConnectionPoint_Advise` gives. -/
structure Answers where
  coClassTypeInfo : Bool
  defaultSourceTypeInfo : Source
  typeAttr : Bool
  container : Bool
  connectionPoint : Bool
  comServer : Bool
  advise : Option Nat
deriving DecidableEq

/-- The variables of the method that exist, and whether they hold an interface. -/
structure Frame where
  locals : Kind → Option Bool
  self : State

abbrev M := ExceptT Unit (StateM Frame)

/-- `set kind [...]` -/
def make (kind : Kind) (ok : Bool) : M Unit := fun f =>
  if ok then
    (.ok (), ⟨Function.update f.locals kind (some true),
      f.self.log (.acquire (.interface kind f.self.made))⟩)
  else (.error (), f)

def makeSource : Source → M Unit
  | .failed => make .srcti false
  | .missing => fun f => (.ok (), { f with locals := Function.update f.locals .srcti (some false) })
  | .found => make .srcti true

/-- `$srcti @GetTypeAttr`; the empty string is no command. -/
def getTypeAttr (ok : Bool) : M Unit := fun f =>
  (if ok ∧ f.locals .srcti = some true then .ok () else .error (), f)

def advise : Option Nat → M Nat
  | none => fun f => (.error (), f)
  | some sinkid => fun f =>
    (.ok sinkid, { f with
      self := { f.self.log (.acquire (.connection sinkid)) with
        advised := sinkid :: f.self.advised } })

def record (sinkid : Nat) : M Unit := fun f =>
  (.ok (), { f with
    self := { f.self with
      sinks := setKey sinkid f.self.made f.self.sinks
      connectionPts := setKey sinkid f.self.made f.self.connectionPts } })

/-- The body of the `trap` -/
def bindBody (a : Answers) : M Nat := do
  make .coti a.coClassTypeInfo
  makeSource a.defaultSourceTypeInfo
  getTypeAttr a.typeAttr
  make .container a.container
  make .connpt a.connectionPoint
  make .sink a.comServer
  let sinkid ← advise a.advise
  record sinkid
  pure sinkid

/-- `Release`, where the variable exists -/
def releaseVar (kind : Kind) : M Unit := fun f =>
  match f.locals kind with
  | none => (.ok (), f)
  | some false => (.error (), f)
  | some true => (.ok (), { f with self := f.self.log (.release (.interface kind f.self.made)) })

/-- The empty string is skipped here. -/
def releaseOnError (kind : Kind) : M Unit := fun f =>
  if f.locals kind = some false then (.ok (), f) else releaseVar kind f

def bindOnerror : M Nat := do
  releaseOnError .connpt
  releaseOnError .sink
  throw ()

def bindFinally : M Unit := do
  releaseVar .coti
  releaseVar .srcti
  releaseVar .container

def bind (a : Answers) (s : State) : Except Unit Nat × State :=
  let body := bindBody a ⟨fun _ => none, s⟩
  let trapped := match body.1 with
    | .ok _ => body
    | .error _ => bindOnerror body.2
  let final := bindFinally trapped.2
  (final.1.bind fun _ => trapped.1, { final.2.self with made := s.made + 1 })

/-! ### `-unbind` and the destructor -/

/-- Whether `IConnectionPoint_Unadvise` succeeds: the connection point may refuse. -/
def unadvise (sinkid : Nat) (ok : Bool) (s : State) : Except Unit State :=
  if ok ∧ sinkid ∈ s.advised then
    .ok { s.log (.release (.connection sinkid)) with
      advised := s.advised.filter fun k => k ≠ sinkid }
  else .error ()

def unbindConnection (sinkid : Nat) (ok : Bool) (s : State) : Except Unit State :=
  match findKey sinkid s.connectionPts with
  | none => .ok s
  | some _ => do
      let s ← unadvise sinkid ok s
      pure { s with connectionPts := unsetKey sinkid s.connectionPts }

def unbindSink (sinkid : Nat) (s : State) : State :=
  match findKey sinkid s.sinks with
  | none => s
  | some b => { s.log (.release (.interface .sink b.2)) with sinks := unsetKey sinkid s.sinks }

def unbind (sinkid : Nat) (ok : Bool) (s : State) : Bool × State :=
  match unbindConnection sinkid ok s with
  | .error _ => (false, s)
  | .ok s => (true, unbindSink sinkid s)

def unbindAll (ok : Nat → Bool) : List Nat → State → Bool × State
  | [], s => (true, s)
  | sinkid :: sinkids, s =>
    match unbind sinkid (ok sinkid) s with
    | (false, s) => (false, s)
    | (true, s) => unbindAll ok sinkids s

/-- `use_tcloo_for_com` -/
inductive Ootype where
  | tcloo
  | metoo
deriving DecidableEq

def State.gone (s : State) : State := { s with alive := false, sinks := [], connectionPts := [] }

/-- `destroy`; an error of the destructor keeps the object with metoo only. -/
def destroy (ootype : Ootype) (sinkids : List Nat) (ok : Nat → Bool) (s : State) : State :=
  match unbindAll ok sinkids s with
  | (true, s) => (s.log (.release .proxy)).gone
  | (false, s) =>
    match ootype with
    | .tcloo => s.gone
    | .metoo => s

/-! ### Runs -/

/-- `ok` is whether the connection point lets go; the destructor goes through the ids in
some order. -/
inductive Label where
  | bind (a : Answers)
  | unbind (sinkid : Nat) (ok : Bool)
  | destroy (sinkids : List Nat) (ok : Nat → Bool)

def step (ootype : Ootype) (s : State) : Label → Option State
  | .bind a =>
    if s.alive ∧ ∀ sinkid ∈ a.advise, sinkid ∉ s.advised then some (bind a s).2 else none
  | .unbind sinkid ok => if s.alive then some (unbind sinkid ok s).2 else none
  | .destroy sinkids ok =>
    if s.alive ∧ sinkids.Perm (s.sinks.map Prod.fst) then some (destroy ootype sinkids ok s)
    else none

def machine (ootype : Ootype) : Machine State Label := ⟨(· = start), step ootype⟩

/-! ### What is asked for -/

/-- What the bindings hold, and with it what the object does. -/
def heldBy (sinks connectionPts : List (Nat × Nat)) : Multiset Resource :=
  ↑(sinks.flatMap fun b => [Resource.connection b.1, Resource.interface .sink b.2]) +
    ↑(connectionPts.map fun b => Resource.interface .connpt b.2)

def State.held (s : State) : Multiset Resource :=
  heldBy s.sinks s.connectionPts + if s.alive then {Resource.proxy} else 0

/-- Everything that is no longer held by a binding was released, once. -/
structure Kept (s : State) : Prop where
  ledger : Entry.after s.entries 0 = some s.held
  listed : ∀ sinkid, sinkid ∈ s.sinks.map Prod.fst ↔ sinkid ∈ s.advised

/-- No binding is undone. -/
def Keeps (ootype : Ootype) (s : State) : Label → Prop
  | .bind _ => True
  | .unbind sinkid ok => sinkid ∉ s.sinks.map Prod.fst ∨ ok = false
  | .destroy sinkids ok => ∀ sinkid ∈ sinkids.head?, ootype = .metoo ∧ ok sinkid = false

instance (ootype : Ootype) (s : State) : (a : Label) → Decidable (Keeps ootype s a)
  | .bind _ => inferInstanceAs (Decidable True)
  | .unbind sinkid ok => inferInstanceAs (Decidable (sinkid ∉ s.sinks.map Prod.fst ∨ ok = false))
  | .destroy sinkids ok =>
    inferInstanceAs (Decidable (∀ sinkid ∈ sinkids.head?, ootype = .metoo ∧ ok sinkid = false))

/-! ### `-bind` -/

section Bind

variable {a : Answers} {s t : State}

/-- What a call of `-bind` got and released again. -/
def Undone (s t : State) : Prop :=
  ∃ es, Entry.after es 0 = some 0 ∧ t = { s with made := s.made + 1, entries := s.entries ++ es }

theorem undone_of (ks ls : List Kind) (same : ls.Perm ks)
    (ends : t = { s with
      made := s.made + 1
      entries := s.entries ++ (ks.map (fun kind => .acquire (.interface kind s.made)) ++
        ls.map fun kind => .release (.interface kind s.made)) }) : Undone s t := by
  refine ⟨_, ?_, ends⟩
  have got : (ks.map (Resource.interface · s.made) : Multiset Resource) =
      ls.map (Resource.interface · s.made) := Multiset.coe_eq_coe.mpr (same.symm.map _)
  have settled := Entry.after_releases (ls.map (Resource.interface · s.made)) 0
  have acquired := Entry.after_acquires (ks.map (Resource.interface · s.made)) 0
  rw [map_map] at settled acquired
  rw [Entry.after_append]
  refine (congrArg (Option.bind · _) acquired).trans ?_
  rw [Option.bind_some, got]
  exact settled

/-- What one binding holds. -/
def holds (sinkid n : Nat) : Multiset Resource :=
  {.connection sinkid, .interface .sink n, .interface .connpt n}

/-- The outcome by the first step that fails. -/
theorem bind_cases (a : Answers) (s : State) :
    Undone s (bind a s).2 ∨
      ∃ sinkid ∈ a.advise, ∃ es,
        Entry.after es 0 = some (holds sinkid s.made) ∧
        (bind a s).2 = { s with
          sinks := setKey sinkid s.made s.sinks
          connectionPts := setKey sinkid s.made s.connectionPts
          advised := sinkid :: s.advised
          made := s.made + 1
          entries := s.entries ++ es } := by
  obtain ⟨coti, source, typeAttr, container, connpt, server, advised⟩ := a
  cases coti with
  | false =>
    refine .inl (undone_of [] [] (by decide) ?_)
    simp [bind, bindBody, Lib.stateM_bind, make, bindOnerror, releaseOnError, Lib.stateM_throw,
      bindFinally, releaseVar]
  | true =>
  cases source with
  | failed =>
    refine .inl (undone_of [.coti] [.coti] (by decide) ?_)
    simp [bind, bindBody, Lib.stateM_bind, make, makeSource, bindOnerror, releaseOnError,
      Lib.stateM_throw, bindFinally, releaseVar, State.log]
  | missing =>
    refine .inl (undone_of [.coti] [.coti] (by decide) ?_)
    simp [bind, bindBody, Lib.stateM_bind, make, makeSource, getTypeAttr, bindOnerror,
      releaseOnError, Lib.stateM_throw, bindFinally, releaseVar, State.log]
  | found =>
  cases typeAttr with
  | false =>
    refine .inl (undone_of [.coti, .srcti] [.coti, .srcti] (by decide) ?_)
    simp [bind, bindBody, Lib.stateM_bind, make, makeSource, getTypeAttr, bindOnerror,
      releaseOnError, Lib.stateM_throw, bindFinally, releaseVar, State.log]
  | true =>
  cases container with
  | false =>
    refine .inl (undone_of [.coti, .srcti] [.coti, .srcti] (by decide) ?_)
    simp [bind, bindBody, Lib.stateM_bind, make, makeSource, getTypeAttr, bindOnerror,
      releaseOnError, Lib.stateM_throw, bindFinally, releaseVar, State.log]
  | true =>
  cases connpt with
  | false =>
    refine .inl (undone_of [.coti, .srcti, .container] [.coti, .srcti, .container] (by decide) ?_)
    simp [bind, bindBody, Lib.stateM_bind, make, makeSource, getTypeAttr, bindOnerror,
      releaseOnError, Lib.stateM_throw, bindFinally, releaseVar, State.log]
  | true =>
  cases server with
  | false =>
    refine .inl (undone_of [.coti, .srcti, .container, .connpt]
      [.connpt, .coti, .srcti, .container] (by decide) ?_)
    simp [bind, bindBody, Lib.stateM_bind, make, makeSource, getTypeAttr, bindOnerror,
      releaseOnError, Lib.stateM_throw, bindFinally, releaseVar, State.log]
  | true =>
  cases advised with
  | none =>
    refine .inl (undone_of [.coti, .srcti, .container, .connpt, .sink]
      [.connpt, .sink, .coti, .srcti, .container] (by decide) ?_)
    simp [bind, bindBody, Lib.stateM_bind, make, makeSource, getTypeAttr, advise, bindOnerror,
      releaseOnError, Lib.stateM_throw, bindFinally, releaseVar, State.log]
  | some sinkid =>
    refine .inr ⟨sinkid, rfl, [.coti, .srcti, .container, .connpt, .sink].map
      (fun kind => .acquire (.interface kind s.made)) ++ .acquire (.connection sinkid) ::
      [.coti, .srcti, .container].map fun kind => .release (.interface kind s.made), ?_, ?_⟩
    · simp [Entry.after, holds]
    · simp [bind, bindBody, Lib.stateM_bind, Lib.stateM_map, make, makeSource, getTypeAttr,
        advise, record, bindFinally, releaseVar, State.log]

end Bind

/-! ### The invariant -/

/-- `lost` is what was got and is in no binding any more. -/
structure Inv (s : State) (lost : Multiset Resource) : Prop where
  ledger : Entry.after s.entries 0 = some (s.held + lost)
  same : s.connectionPts = s.sinks
  keys : (s.sinks.map Prod.fst).Nodup
  listed : s.alive ∨ lost = 0 → ∀ sinkid, sinkid ∈ s.sinks.map Prod.fst ↔ sinkid ∈ s.advised

variable {lost : Multiset Resource}

theorem Inv.kept_iff {s : State} (inv : Inv s lost) :
    Kept s ↔ lost = 0 := by
  constructor
  · intro kept
    have same := Option.some.inj (inv.ledger.symm.trans kept.ledger)
    have sizes := congrArg Multiset.card same
    rw [Multiset.card_add] at sizes
    exact Multiset.card_eq_zero.mp (by omega)
  · rintro rfl
    exact ⟨by simpa using inv.ledger, inv.listed (.inr rfl)⟩

theorem inv_start : Inv start 0 where
  ledger := rfl
  same := rfl
  keys := List.nodup_nil
  listed _ _ := Iff.rfl

section Arrays

variable {k n : Nat} {l : List (Nat × Nat)}

theorem unsetKey_of_notMem (fresh : k ∉ l.map Prod.fst) : unsetKey k l = l := by
  refine filter_eq_self.mpr fun b mem => ?_
  rw [decide_eq_true_iff]
  rintro rfl
  exact fresh (mem_map_of_mem mem)

theorem findKey_of_notMem (fresh : k ∉ l.map Prod.fst) : findKey k l = none := by
  refine find?_eq_none.mpr fun b mem same => fresh ?_
  rw [← of_decide_eq_true same]
  exact mem_map_of_mem mem

theorem findKey_of_mem (keys : (l.map Prod.fst).Nodup) (mem : (k, n) ∈ l) :
    findKey k l = some (k, n) :=
  find?_key keys mem

theorem mem_keys_unsetKey {j : Nat} :
    j ∈ (unsetKey k l).map Prod.fst ↔ j ∈ l.map Prod.fst ∧ j ≠ k := by
  simp only [mem_map, unsetKey, mem_filter, decide_eq_true_iff]
  constructor
  · rintro ⟨b, ⟨mem, other⟩, rfl⟩
    exact ⟨⟨b, mem, rfl⟩, other⟩
  · rintro ⟨⟨b, mem, rfl⟩, other⟩
    exact ⟨b, ⟨mem, other⟩, rfl⟩

theorem heldBy_cons : heldBy ((k, n) :: l) ((k, n) :: l) = holds k n + heldBy l l := by
  simp only [heldBy, holds, flatMap_cons, map_cons, cons_append, nil_append,
    ← Multiset.cons_coe, Multiset.insert_eq_cons, Multiset.cons_add, Multiset.add_cons,
    Multiset.singleton_add]
  rw [Multiset.cons_swap (Resource.interface .connpt n) (.connection k),
    Multiset.cons_swap (Resource.interface .connpt n) (.interface .sink n)]

theorem heldBy_unsetKey (keys : (l.map Prod.fst).Nodup) (mem : (k, n) ∈ l) :
    heldBy l l = holds k n + heldBy (unsetKey k l) (unsetKey k l) := by
  have perm := perm_cons_filter_key keys mem
  rw [← heldBy_cons]
  exact congrArg₂ (· + ·) (Multiset.coe_eq_coe.mpr (perm.flatMap_right _))
    (Multiset.coe_eq_coe.mpr (perm.map _))

end Arrays

/-! ### One step -/

section Steps

variable {s t : State} {lost : Multiset Resource} {sinkid n : Nat}

theorem Inv.of_undone (inv : Inv s lost) (undone : Undone s t) : Inv t lost := by
  obtain ⟨es, settled, rfl⟩ := undone
  refine ⟨?_, inv.same, inv.keys, inv.listed⟩
  have later := Entry.after_frame settled (s.held + lost)
  rw [Multiset.zero_add] at later
  exact (Entry.after_append _ _ _).trans ((congrArg (Option.bind · _) inv.ledger).trans later)

theorem Inv.bind (inv : Inv s lost) (alive : s.alive = true) {a : Answers}
    (fresh : ∀ sinkid ∈ a.advise, sinkid ∉ s.advised) : Inv (bind a s).2 lost := by
  obtain undone | ⟨sinkid, answer, es, got, ends⟩ := bind_cases a s
  · exact inv.of_undone undone
  have unbound : sinkid ∉ s.sinks.map Prod.fst := fun mem =>
    fresh sinkid answer ((inv.listed (.inl alive) sinkid).mp mem)
  have sinks : setKey sinkid s.made s.sinks = (sinkid, s.made) :: s.sinks :=
    congrArg _ (unsetKey_of_notMem unbound)
  rw [ends]
  refine ⟨?_, ?_, ?_, fun _ j => ?_⟩
  · have later := Entry.after_frame got (s.held + lost)
    rw [Multiset.zero_add] at later
    refine (Entry.after_append _ _ _).trans
      ((congrArg (Option.bind · _) inv.ledger).trans (later.trans (congrArg some ?_)))
    simp only [State.held, inv.same, sinks, heldBy_cons, Multiset.add_assoc]
  · exact congrArg (setKey sinkid s.made) inv.same
  · simp only [sinks, map_cons]
    exact nodup_cons.mpr ⟨unbound, inv.keys⟩
  · simp only [sinks, map_cons, mem_cons]
    exact or_congr Iff.rfl (inv.listed (.inl alive) j)

/-- Nothing is bound to the id. -/
theorem unbind_unknown (inv : Inv s lost) (unbound : sinkid ∉ s.sinks.map Prod.fst) (ok : Bool) :
    unbind sinkid ok s = (true, s) := by
  have found := findKey_of_notMem unbound
  simp [unbind, unbindConnection, unbindSink, inv.same, found]

theorem unbind_refused (inv : Inv s lost) (bound : (sinkid, n) ∈ s.sinks) :
    unbind sinkid false s = (false, s) := by
  have found := findKey_of_mem inv.keys bound
  simp [unbind, unbindConnection, unadvise, inv.same, found]

/-- The reference to the connection point is lost. -/
theorem unbind_bound (inv : Inv s lost) (alive : s.alive = true) (bound : (sinkid, n) ∈ s.sinks) :
    ∃ t, unbind sinkid true s = (true, t) ∧ t.alive = true ∧ t.sinks = unsetKey sinkid s.sinks ∧
      Inv t (.interface .connpt n ::ₘ lost) := by
  have found := findKey_of_mem inv.keys bound
  have mem : sinkid ∈ s.advised :=
    (inv.listed (.inl alive) sinkid).mp (mem_map_of_mem bound)
  refine ⟨{ s with
    sinks := unsetKey sinkid s.sinks
    connectionPts := unsetKey sinkid s.sinks
    advised := s.advised.filter fun k => k ≠ sinkid
    entries := s.entries ++ [.release (.connection sinkid), .release (.interface .sink n)] },
    ?_, alive, rfl, ?_, rfl, ?_, fun _ j => ?_⟩
  · simp [unbind, unbindConnection, unadvise, unbindSink, inv.same, found, mem, State.log]
  · have held : s.held = holds sinkid n + { s with
        sinks := unsetKey sinkid s.sinks, connectionPts := unsetKey sinkid s.sinks }.held := by
      simp only [State.held, inv.same, heldBy_unsetKey inv.keys bound, Multiset.add_assoc]
    have released : Entry.after [.release (.connection sinkid), .release (.interface .sink n)]
        (holds sinkid n) = some {Resource.interface .connpt n} := by
      simp [Entry.after, holds]
    have later := Entry.after_frame released ({ s with
      sinks := unsetKey sinkid s.sinks, connectionPts := unsetKey sinkid s.sinks }.held + lost)
    refine (Entry.after_append _ _ _).trans ((congrArg (Option.bind · _) inv.ledger).trans ?_)
    rw [held, Multiset.add_assoc]
    refine later.trans (congrArg some ?_)
    rw [Multiset.singleton_add, Multiset.add_cons]
    rfl
  · exact inv.keys.sublist (filter_sublist.map _)
  · rw [mem_keys_unsetKey, inv.listed (.inl alive), mem_filter, decide_eq_true_iff]

variable {sinkids : List Nat}

/-- The destructor stops at the first binding that is not let go. -/
theorem unbindAll_spec (ok : Nat → Bool) (inv : Inv s lost) (alive : s.alive = true)
    (nodup : sinkids.Nodup) (bound : ∀ sinkid ∈ sinkids, sinkid ∈ s.sinks.map Prod.fst) :
    ∃ later, Inv (unbindAll ok sinkids s).2 later ∧ (unbindAll ok sinkids s).2.alive = true ∧
      (later = 0 ↔ lost = 0 ∧ ∀ sinkid ∈ sinkids.head?, ok sinkid = false) ∧
      ((unbindAll ok sinkids s).1 = true → (∀ sinkid ∈ sinkids.head?, ok sinkid = true) ∧
        ∀ sinkid ∈ (unbindAll ok sinkids s).2.sinks.map Prod.fst,
          sinkid ∈ s.sinks.map Prod.fst ∧ sinkid ∉ sinkids) := by
  induction sinkids generalizing s lost with
  | nil => exact ⟨lost, inv, alive, by simp, fun _ => ⟨nofun, fun _ mem =>
    ⟨mem, not_mem_nil⟩⟩⟩
  | cons sinkid sinkids ih =>
    obtain ⟨⟨j, n⟩, mem, same⟩ := mem_map.mp (bound sinkid mem_cons_self)
    obtain rfl : j = sinkid := same
    cases answer : ok j with
    | false =>
      have stops : unbindAll ok (j :: sinkids) s = (false, s) := by
        rw [unbindAll, answer, unbind_refused inv mem]
      rw [stops]
      exact ⟨lost, inv, alive, by simp [answer], nofun⟩
    | true =>
      obtain ⟨t, done, alive, sinks, inv⟩ := unbind_bound inv alive mem
      have keys : ∀ k, k ∈ t.sinks.map Prod.fst ↔ k ∈ s.sinks.map Prod.fst ∧ k ≠ j :=
        fun k => by rw [sinks, mem_keys_unsetKey]
      obtain ⟨new, nodup⟩ := nodup_cons.mp nodup
      have goes : unbindAll ok (j :: sinkids) s = unbindAll ok sinkids t := by
        rw [unbindAll, answer, done]
      rw [goes]
      obtain ⟨later, inv, alive, losses, rest⟩ := ih inv alive nodup fun k mem =>
        (keys k).mpr ⟨bound k (mem_cons_of_mem _ mem), fun same => new (same ▸ mem)⟩
      refine ⟨later, inv, alive, by simp [losses, answer], fun ended =>
        ⟨by simp [answer], fun k mem => ?_⟩⟩
      obtain ⟨old, others⟩ := (rest ended).2 k mem
      obtain ⟨old, other⟩ := (keys k).mp old
      exact ⟨old, fun mem => (mem_cons.mp mem).elim other others⟩

theorem held_gone : s.gone.held = 0 := rfl

/-- The variables of the object go away with what they hold. -/
theorem Inv.gone (inv : Inv s lost) (alive : s.alive = true) :
    Inv s.gone (s.held + lost) ∧ s.held + lost ≠ 0 := by
  have some_ : s.held + lost ≠ 0 := by
    intro none_
    have mem : .proxy ∈ s.held + lost := by simp [State.held, alive]
    rw [none_] at mem
    exact Multiset.notMem_zero _ mem
  refine ⟨⟨?_, rfl, nodup_nil, fun h => ?_⟩, some_⟩
  · rw [held_gone, Multiset.zero_add]
    exact inv.ledger
  · obtain dead | none_ := h
    · cases dead
    · exact absurd none_ some_

/-- There was no binding left. -/
theorem Inv.finished (inv : Inv s lost) (alive : s.alive = true) (none_ : s.sinks = []) :
    Inv (s.log (.release .proxy)).gone lost := by
  have released : Entry.after [.release Resource.proxy] {Resource.proxy} = some 0 := by decide
  have held : s.held = {.proxy} := by
    simp [State.held, heldBy, inv.same, none_, alive]
  have later := Entry.after_frame released lost
  refine ⟨?_, rfl, nodup_nil, fun _ k => ?_⟩
  · rw [held_gone]
    refine (Entry.after_append _ _ _).trans ((congrArg (Option.bind · _) inv.ledger).trans ?_)
    rw [held]
    exact later
  · have listed := inv.listed (.inl alive) k
    rw [none_] at listed
    exact listed

theorem Inv.destroy (inv : Inv s lost) (alive : s.alive = true) (ootype : Ootype) (ok : Nat → Bool)
    (names : sinkids.Perm (s.sinks.map Prod.fst)) :
    ∃ later, Inv (destroy ootype sinkids ok s) later ∧
      (later = 0 ↔ lost = 0 ∧ Keeps ootype s (.destroy sinkids ok)) := by
  obtain ⟨later, inv, alive, losses, rest⟩ := unbindAll_spec ok inv alive
    (names.nodup_iff.mpr inv.keys) fun _ mem => names.subset mem
  unfold Binding.destroy
  rcases unbound : unbindAll ok sinkids s with ⟨ended, t⟩
  rw [unbound] at inv alive rest
  cases ended with
  | false =>
    cases ootype with
    | metoo => exact ⟨later, inv, losses.trans (and_congr_right fun _ => by simp [Keeps])⟩
    | tcloo =>
      obtain ⟨inv, some_⟩ := inv.gone alive
      refine ⟨_, inv, iff_of_false some_ fun keeps => ?_⟩
      cases sinkids with
      | nil => cases unbound
      | cons k sinkids => exact absurd (keeps.2 k rfl).1 nofun
  | true =>
    obtain ⟨accepted, rest⟩ := rest rfl
    have none_ : t.sinks = [] := by
      cases sinks : t.sinks with
      | nil => rfl
      | cons b l =>
        obtain ⟨bound, unbound⟩ := rest b.1 (by simp [sinks])
        exact absurd (names.symm.subset bound) unbound
    refine ⟨later, inv.finished alive none_, losses.trans (and_congr_right fun _ => ?_)⟩
    cases sinkids with
    | nil => exact iff_of_true nofun nofun
    | cons k sinkids =>
      have accepted := accepted k rfl
      simp [Keeps, accepted]

theorem Inv.unbind (inv : Inv s lost) (alive : s.alive = true) (sinkid : Nat) (ok : Bool)
    (ootype : Ootype) :
    ∃ later, Inv (unbind sinkid ok s).2 later ∧
      (later = 0 ↔ lost = 0 ∧ Keeps ootype s (.unbind sinkid ok)) := by
  by_cases bound : sinkid ∈ s.sinks.map Prod.fst
  · obtain ⟨⟨j, n⟩, mem, same⟩ := mem_map.mp bound
    obtain rfl : j = sinkid := same
    cases ok with
    | false =>
      rw [unbind_refused inv mem]
      exact ⟨lost, inv, by simp [Keeps]⟩
    | true =>
      obtain ⟨t, done, -, -, inv⟩ := unbind_bound inv alive mem
      rw [done]
      have loses : ¬ Keeps ootype s (.unbind j true) := by simp [Keeps, bound]
      exact ⟨_, inv, iff_of_false Multiset.cons_ne_zero fun keeps => loses keeps.2⟩
  · rw [unbind_unknown inv bound]
    exact ⟨lost, inv, (and_iff_left (.inl bound)).symm⟩

theorem step_spec (ootype : Ootype) (inv : Inv s lost) {a : Label}
    (moved : step ootype s a = some t) :
    ∃ later, Inv t later ∧ (later = 0 ↔ lost = 0 ∧ Keeps ootype s a) := by
  cases a with
  | bind a =>
    obtain ⟨⟨alive, fresh⟩, moved⟩ := Option.ite_none_right_eq_some.mp moved
    obtain rfl := Option.some.inj moved
    exact ⟨lost, inv.bind alive fresh, (and_iff_left trivial).symm⟩
  | unbind sinkid ok =>
    obtain ⟨alive, moved⟩ := Option.ite_none_right_eq_some.mp moved
    obtain rfl := Option.some.inj moved
    exact inv.unbind alive sinkid ok ootype
  | destroy sinkids ok =>
    obtain ⟨⟨alive, names⟩, moved⟩ := Option.ite_none_right_eq_some.mp moved
    obtain rfl := Option.some.inj moved
    exact inv.destroy alive ootype ok names

end Steps

/-! ### Runs -/

theorem run_spec (ootype : Ootype) {labels : List Label} {s t : State} (inv : Inv s lost)
    (run : (machine ootype).run s labels = some t) :
    ∃ later, Inv t later ∧
      (later = 0 ↔ lost = 0 ∧ (machine ootype).runWhere (Keeps ootype) s labels = some t) := by
  induction labels generalizing s lost with
  | nil =>
    obtain rfl := Option.some.inj run
    exact ⟨lost, inv, (and_iff_left rfl).symm⟩
  | cons a labels ih =>
    rw [Machine.run_cons] at run
    obtain ⟨u, moved, run⟩ := Option.bind_eq_some_iff.mp run
    obtain ⟨later, inv, losses⟩ := step_spec ootype inv moved
    obtain ⟨last, inv, more⟩ := ih inv run
    refine ⟨last, inv, more.trans ?_⟩
    have moved : (machine ootype).step s a = some u := moved
    rw [losses, and_assoc, Machine.runWhere, moved, Option.bind_some]
    by_cases keeps : Keeps ootype s a
    · simp [keeps]
    · simp [keeps]

theorem bindings_kept_iff (ootype : Ootype) (labels : List Label) (t : State)
    (run : (machine ootype).run start labels = some t) :
    Kept t ↔ (machine ootype).runWhere (Keeps ootype) start labels = some t := by
  obtain ⟨lost, inv, losses⟩ := run_spec ootype inv_start run
  rw [inv.kept_iff, losses, and_iff_right rfl]

/-- Every step of `-bind` succeeds. -/
def bound (sinkid : Nat) : Label := .bind ⟨true, .found, true, true, true, true, some sinkid⟩

/-- Two bindings are made, a third one is refused by the connection point, and the first one
is not let go. -/
theorem bindings_kept_iff_bound :
    ∃ t, (machine .tcloo).run start [bound 7, bound 8,
      .bind ⟨true, .found, true, true, true, true, none⟩, .unbind 7 false] = some t ∧ Kept t :=
  ⟨_, rfl, (bindings_kept_iff .tcloo [bound 7, bound 8,
    .bind ⟨true, .found, true, true, true, true, none⟩, .unbind 7 false] _ rfl).mpr rfl⟩

/-- A binding is made and undone: the reference to the connection point is still held. -/
theorem unbind_keeps_reference :
    ∃ t, (machine .tcloo).run start [bound 7, .unbind 7 true] = some t ∧
      Entry.after t.entries 0 = some {.interface .connpt 0, .proxy} ∧ t.advised = [] ∧ ¬ Kept t :=
  ⟨_, rfl, by decide, rfl, fun kept => absurd kept.ledger (by decide)⟩

end Twapi.Com.Binding
