import Mathlib.Data.List.Count
import Twapi.Lib.Machine
import Twapi.Lib.Table

/-!
The references to the representations of C structures, `base/ffi.c`.

* `Heap` — the representations, and what `CStructRepDecrRefs` released.
* `cStructRepDecrRefs` — a reference is dropped.
* `Label` — a step of the conversion of an object (`ObjCastToCStruct`), of the duplication or
  freeing of one, or of a function that holds a representation while it works.
* `Proper` — of a representation that nothing refers to, everything was released once, and of
  another one nothing was.
* `reaches_released` — when the states are proper, and which steps lead out of them.

A representation is known by its place among those that were allocated, an object by its number.
-/

namespace Twapi.CStruct.References

open Lib List Option

/-! ### Representations -/

/-- `TwapiCStructField`, as far as it refers to anything. -/
structure Field where
  name : Nat
  child : Option Nat
deriving DecidableEq

/-- `TwapiCStructRep`, with its first `nfields` fields. `freed` is whether `TwapiFree` was
called. -/
structure Rep where
  nrefs : Int
  fields : List Field
  freed : Bool
deriving DecidableEq

/-- What is released: the name and the child of the `i`th field of a representation, and the
representation itself. -/
inductive Act where
  | name (csP i : Nat)
  | child (csP i : Nat)
  | free (csP : Nat)
deriving DecidableEq

/-- The representation that is concerned. -/
def Act.rep : Act → Nat
  | .name csP _ | .child csP _ | .free csP => csP

/-- The representations, and in order what was released. -/
structure Heap where
  reps : List Rep
  log : List Act
deriving DecidableEq

namespace Heap

variable (h : Heap)

/-- `TwapiAlloc`, with the reference of the function that allocates. -/
def alloc : Heap := { h with reps := h.reps ++ [⟨1, [], false⟩] }

/-- `csP->nrefs += n` -/
def addRefs (csP : Nat) (n : Int) : Heap :=
  { h with reps := h.reps.modify csP fun rep => { rep with nrefs := rep.nrefs + n } }

/-- A field is linked, and `nfields` goes up. -/
def link (csP : Nat) (field : Field) : Heap :=
  { h with reps := h.reps.modify csP fun rep => { rep with fields := rep.fields ++ [field] } }

/-- `TwapiFree` -/
def free (csP : Nat) : Heap where
  reps := h.reps.modify csP fun rep => { rep with freed := true }
  log := h.log ++ [.free csP]

def note (act : Act) : Heap := { h with log := h.log ++ [act] }

end Heap

/-- `CStructRepDecrRefs`, with the representations nested at most so deep. The loop that
releases the fields goes up to `nrefs`. -/
def cStructRepDecrRefs : (depth : Nat) → (csP : Nat) → Heap → Option Heap
  | 0, _, _ => none
  | depth + 1, csP, h => do
      let rep ← h.reps[csP]?
      let nrefs := rep.nrefs - 1
      let h := h.addRefs csP (-1)
      if nrefs ≤ 0 then
        let h ← (List.range nrefs.toNat).foldlM (fun h i => do
          let field ← rep.fields[i]?
          let h := h.note (.name csP i)
          match field.child with
          | none => some h
          | some child => cStructRepDecrRefs depth child (h.note (.child csP i))) h
        return h.free csP
      else return h

/-! ### Objects and conversions -/

/-- `objs` are the objects of type `TwapiCStruct` with their representations, `stack` the objects
that are being converted with those that are made for them, the innermost first, and `holds` the
representations that a function has a reference to while it works. -/
structure State where
  heap : Heap
  objs : List (Nat × Nat)
  stack : List (Nat × Nat)
  holds : List Nat
deriving DecidableEq

/-- What else than a field refers to a representation. -/
def State.roots (s : State) : List Nat := s.objs.map (·.2) ++ s.stack.map (·.2) ++ s.holds

/-- The children of the representations that are there. -/
def Heap.links (h : Heap) : List Nat :=
  h.reps.flatMap fun rep => if rep.freed then [] else rep.fields.filterMap (·.child)

/-- What refers to a representation, counted. -/
def State.owners (s : State) (csP : Nat) : Nat := (s.roots ++ s.heap.links).count csP

/-- * `begin` — `ObjCastToCStruct` of an object that has another type;
* `field` — one more of its fields is found valid, with the object that a nested structure was
  converted from;
* `finish` — the object gets the representation; `abort` — its definition is not valid;
* `dup`, `free` — `DupCStructType`, `FreeCStructType`;
* `hold`, `unhold` — a function begins to work with the representation of an object or with a
child of one, and has stopped. -/
inductive Label where
  | begin (obj : Nat)
  | field (name : Nat) (obj : Option Nat)
  | finish
  | abort
  | dup (src dst : Nat)
  | free (obj : Nat)
  | hold (csP : Nat)
  | unhold (csP : Nat)
deriving DecidableEq

namespace State

variable (s : State)

/-- The reference that was stored somewhere is dropped. -/
def decrRefs (csP : Nat) : Option State :=
  (cStructRepDecrRefs (s.heap.reps.length + 1) csP s.heap).map fun heap => { s with heap }

/-- An object loses its representation. -/
def freeCStructType (obj csP : Nat) : Option State :=
  { s with objs := s.objs.erase (obj, csP) }.decrRefs csP

def step : Label → Option State
  | .begin obj =>
    match s.objs.lookup obj with
    | some _ => some s
    | none =>
      some { s with heap := s.heap.alloc, stack := (obj, s.heap.reps.length) :: s.stack }
  | .field name none =>
    match s.stack with
    | [] => none
    | (_, csP) :: _ => some { s with heap := s.heap.link csP ⟨name, none⟩ }
  | .field name (some obj) =>
    match s.stack, s.objs.lookup obj with
    | (_, csP) :: _, some child =>
      some { s with heap := (s.heap.addRefs child 1).link csP ⟨name, some child⟩ }
    | _, _ => none
  | .finish =>
    match s.stack with
    | [] => none
    | (obj, csP) :: stack =>
      -- a nested definition is no part of itself, so the object is still of another type
      match s.objs.lookup obj with
      | some _ => none
      | none => some { s with objs := (obj, csP) :: s.objs, stack }
  | .abort =>
    match s.stack with
    | [] => none
    | (_, csP) :: stack => { s with stack }.decrRefs csP
  | .dup src dst =>
    match s.objs.lookup src, s.objs.lookup dst with
    | some csP, none =>
      some { s with heap := s.heap.addRefs csP 1, objs := (dst, csP) :: s.objs }
    | _, _ => none
  | .free obj =>
    match s.objs.lookup obj with
    | none => none
    | some csP => s.freeCStructType obj csP
  | .hold csP =>
    if csP ∈ s.objs.map (·.2) ++ s.heap.links then
      some { s with heap := s.heap.addRefs csP 1, holds := csP :: s.holds }
    else none
  | .unhold csP =>
    if csP ∈ s.holds then { s with holds := s.holds.erase csP }.decrRefs csP else none

end State

/-- Nothing is converted yet. -/
def machine : Machine State Label where
  init s := s = ⟨⟨[], []⟩, [], [], []⟩
  step := State.step

/-! ### What is proper -/

/-- The releases of a representation's fields. -/
def fieldReleases (csP : Nat) (rep : Rep) : List Act :=
  rep.fields.zipIdx.flatMap fun (field, i) =>
    .name csP i :: if field.child.isSome then [.child csP i] else []

/-- Once nothing refers to a representation, each of its fields was released once, in whatever
order, and then the representation; as long as something does, nothing of it was. -/
def Proper (s : State) : Prop :=
  ∀ csP rep, s.heap.reps[csP]? = some rep →
    if s.owners csP = 0 then
      ∃ first, first.Perm (fieldReleases csP rep) ∧
        s.heap.log.filter (·.rep = csP) = first ++ [.free csP]
    else s.heap.log.filter (·.rep = csP) = []

/-- The representation that a step drops a reference to. -/
def drops (s : State) : Label → Option Nat
  | .abort => s.stack.head?.map (·.2)
  | .free obj => s.objs.lookup obj
  | .unhold csP => if csP ∈ s.holds then some csP else none
  | _ => none

/-- The reference is not the last one to a representation that has fields. -/
def Meets (s : State) (a : Label) : Prop :=
  ∀ rep ∈ (drops s a).bind (s.heap.reps[·]?), rep.nrefs = 1 → rep.fields = []

instance (s : State) (a : Label) : Decidable (Meets s a) :=
  inferInstanceAs (Decidable (∀ rep ∈ (drops s a).bind (s.heap.reps[·]?), _))

/-! ### A reference is dropped -/

variable {s t : State} {csP i obj : Nat} {a : Label} {α β : Type}

/-- The loop over the fields does not run: `nrefs` is not positive there. -/
theorem cStructRepDecrRefs_eq {h : Heap} {rep : Rep} (depth : Nat) (found : h.reps[csP]? = some rep) :
    cStructRepDecrRefs (depth + 1) csP h =
      some (if rep.nrefs ≤ 1 then (h.addRefs csP (-1)).free csP else h.addRefs csP (-1)) := by
  rw [cStructRepDecrRefs, found, bind_eq_bind, bind_some]
  by_cases last : rep.nrefs ≤ 1
  · have none : (rep.nrefs - 1).toNat = 0 := by omega
    rw [if_pos (by omega), if_pos last, none]
    rfl
  · rw [if_neg (by omega), if_neg last]
    rfl

/-! ### Lists that are changed at one place -/

theorem flatMap_modify {l : List α} {f : α → α} {g : α → List β}
    (same : ∀ x, l[i]? = some x → g (f x) = g x) : (l.modify i f).flatMap g = l.flatMap g := by
  induction l generalizing i with
  | nil => cases i <;> rfl
  | cons a l ih =>
    cases i with
    | zero =>
      rw [modify_zero_cons, flatMap_cons, flatMap_cons, same a rfl]
    | succ i =>
      rw [modify_succ_cons, flatMap_cons, flatMap_cons, ih same]

theorem flatMap_modify_perm {l : List α} {f : α → α} {g : α → List β} {x : α} {b : β}
    (found : l[i]? = some x) (more : g (f x) = g x ++ [b]) :
    ((l.modify i f).flatMap g).Perm (b :: l.flatMap g) := by
  induction l generalizing i with
  | nil => cases found
  | cons a l ih =>
    cases i with
    | zero =>
      obtain rfl := some.inj found
      rw [modify_zero_cons, flatMap_cons, flatMap_cons, more,
        append_assoc]
      exact perm_middle
    | succ i =>
      rw [modify_succ_cons, flatMap_cons, flatMap_cons]
      exact ((ih found).append_left (g a)).trans perm_middle

theorem flatMap_modify_subset {l : List α} {f : α → α} {g : α → List β} (fewer : ∀ x, g (f x) ⊆ g x) :
    (l.modify i f).flatMap g ⊆ l.flatMap g := by
  intro b mem
  obtain ⟨x, among, inside⟩ := mem_flatMap.mp mem
  obtain ⟨j, found⟩ := mem_iff_getElem?.mp among
  rw [getElem?_modify] at found
  obtain ⟨x, before, rfl⟩ := map_eq_some_iff.mp found
  refine mem_flatMap.mpr ⟨x, mem_of_getElem? before, ?_⟩
  split at inside
  · exact fewer x inside
  · exact inside

/-! ### The invariant -/

/-- What is kept of a representation with `n` references. -/
structure Kept (n csP : Nat) (rep : Rep) (log : List Act) : Prop where
  nrefs : rep.nrefs = n
  freed : rep.freed = true ↔ n = 0
  bare : rep.freed = true → rep.fields = []
  released : log.filter (·.rep = csP) = if rep.freed then [.free csP] else []

/-- `refs` are the references from outside the heap, where a representation may be more than
once. -/
structure Inv (refs : List Nat) (h : Heap) : Prop where
  valid : ∀ csP ∈ refs ++ h.links, csP < h.reps.length
  logged : ∀ act ∈ h.log, act.rep < h.reps.length
  kept : ∀ csP rep, h.reps[csP]? = some rep → Kept ((refs ++ h.links).count csP) csP rep h.log

namespace Inv

variable {refs refs' : List Nat} {h : Heap} {csP : Nat}

theorem perm (inv : Inv refs h) (same : refs.Perm refs') : Inv refs' h where
  valid p mem := inv.valid p ((same.append_right _).mem_iff.mpr mem)
  logged := inv.logged
  kept p rep found := (same.append_right h.links).count_eq p ▸ inv.kept p rep found

theorem exists_rep (inv : Inv refs h) (mem : csP ∈ refs ++ h.links) :
    ∃ rep, h.reps[csP]? = some rep ∧ rep.freed = false := by
  have found := getElem?_eq_getElem (inv.valid csP mem)
  refine ⟨_, found, ?_⟩
  rw [← Bool.not_eq_true, (inv.kept csP _ found).freed]
  exact Nat.pos_iff_ne_zero.mp (count_pos_iff.mpr mem)

theorem alloc (inv : Inv refs h) : Inv (h.reps.length :: refs) h.alloc := by
  have links : h.alloc.links = h.links := by simp [Heap.links, Heap.alloc]
  have length : h.alloc.reps.length = h.reps.length + 1 := by simp [Heap.alloc]
  have new : h.reps.length ∉ refs ++ h.links := fun mem => Nat.lt_irrefl _ (inv.valid _ mem)
  refine ⟨?_, ?_, ?_⟩
  · intro p mem
    rw [links, cons_append] at mem
    rw [length]
    rcases mem_cons.mp mem with rfl | mem
    · exact Nat.lt_succ_self _
    · exact Nat.lt_succ_of_lt (inv.valid p mem)
  · intro act mem
    rw [length]
    exact Nat.lt_succ_of_lt (inv.logged act mem)
  · intro p rep found
    rw [links, cons_append]
    by_cases last : p = h.reps.length
    · subst last
      rw [Heap.alloc, getElem?_concat_length] at found
      obtain rfl := some.inj found
      have unlogged : h.log.filter (·.rep = h.reps.length) = [] := by
        rw [filter_eq_nil_iff]
        intro act mem same
        exact Nat.lt_irrefl _ (of_decide_eq_true same ▸ inv.logged act mem)
      have one : (h.reps.length :: (refs ++ h.links)).count h.reps.length = 1 := by
        rw [count_cons_self, count_eq_zero.mpr new]
      rw [one]
      exact ⟨rfl, by simp, fun freed => (nomatch freed), unlogged⟩
    · have before : h.reps[p]? = some rep := by
        have lt := (List.getElem?_eq_some_iff.mp found).1
        rw [length] at lt
        rw [Heap.alloc, getElem?_append_left (by omega)] at found
        exact found
      rw [count_cons_of_ne (Ne.symm last)]
      exact inv.kept p rep before

/-- A change at one place, after which the representation there has `n` references. -/
theorem modify (inv : Inv refs h) {f : Rep → Rep} {log : List Act}
    (valid : ∀ p ∈ refs' ++ Heap.links ⟨h.reps.modify csP f, log⟩, p ∈ refs ++ h.links)
    (logged : ∀ act ∈ log, act ∈ h.log ∨ act.rep = csP)
    (elsewhere : ∀ p, p ≠ csP → log.filter (·.rep = p) = h.log.filter (·.rep = p) ∧
      (refs' ++ Heap.links ⟨h.reps.modify csP f, log⟩).count p = (refs ++ h.links).count p)
    (inside : csP < h.reps.length)
    (here : ∀ rep, h.reps[csP]? = some rep → Kept ((refs ++ h.links).count csP) csP rep h.log →
      Kept ((refs' ++ Heap.links ⟨h.reps.modify csP f, log⟩).count csP) csP (f rep) log) :
    Inv refs' ⟨h.reps.modify csP f, log⟩ := by
  refine ⟨?_, ?_, ?_⟩
  · intro p mem
    rw [length_modify]
    exact inv.valid p (valid p mem)
  · intro act mem
    rw [length_modify]
    rcases logged act mem with mem | rfl
    · exact inv.logged act mem
    · exact inside
  · intro p rep found
    rw [getElem?_modify] at found
    obtain ⟨rep, before, rfl⟩ := map_eq_some_iff.mp found
    by_cases same : csP = p
    · subst same
      rw [if_pos rfl]
      exact here rep before (inv.kept _ rep before)
    · obtain ⟨log_eq, count_eq⟩ := elsewhere p (Ne.symm same)
      have kept := inv.kept p rep before
      rw [if_neg same, count_eq]
      exact ⟨kept.nrefs, kept.freed, kept.bare, log_eq.trans kept.released⟩

theorem addRefs (inv : Inv refs h) (mem : csP ∈ refs ++ h.links) :
    Inv (csP :: refs) (h.addRefs csP 1) := by
  have links : (h.addRefs csP 1).links = h.links := flatMap_modify fun _ _ => rfl
  refine inv.modify ?_ (fun _ => .inl) ?_ (inv.valid csP mem) ?_
  · intro p among
    rw [cons_append] at among
    rcases mem_cons.mp among with rfl | among
    · exact mem
    · rwa [← links]
  · intro p other
    refine ⟨rfl, ?_⟩
    rw [cons_append, count_cons_of_ne (Ne.symm other)]
    exact congrArg (count p <| refs ++ ·) links
  · intro rep _ kept
    have more : (csP :: refs ++ (h.addRefs csP 1).links).count csP =
        (refs ++ h.links).count csP + 1 := by
      rw [links, cons_append, count_cons_self]
    have pos := count_pos_iff.mpr mem
    refine more.symm ▸ ⟨?_, ?_, kept.bare, kept.released⟩
    · have := kept.nrefs
      push_cast
      omega
    · simp only [Nat.add_one_ne_zero, iff_false, Bool.not_eq_true]
      rw [← Bool.not_eq_true, kept.freed]
      omega

/-- A field without a child is linked. -/
theorem link (inv : Inv refs h) (mem : csP ∈ refs) (name : Nat) :
    Inv refs (h.link csP ⟨name, none⟩) := by
  have among : csP ∈ refs ++ h.links := mem_append_left _ mem
  have links : (h.link csP ⟨name, none⟩).links = h.links := by
    refine flatMap_modify fun rep _ => ?_
    simp
  refine inv.modify ?_ (fun _ => .inl) ?_ (inv.valid csP among) ?_
  · intro p mem
    rwa [← links]
  · exact fun p _ => ⟨rfl, congrArg (count p <| refs ++ ·) links⟩
  · intro rep _ kept
    have same := congrArg (count csP <| refs ++ ·) links
    refine same.symm ▸ ⟨kept.nrefs, kept.freed, fun freed => ?_, kept.released⟩
    exact absurd (kept.freed.mp freed) (Nat.pos_iff_ne_zero.mp (count_pos_iff.mpr among))

/-- A field is linked, with a child that there is a reference for. -/
theorem linkChild {child : Nat} (inv : Inv (child :: refs) h) (mem : csP ∈ refs) (name : Nat) :
    Inv refs (h.link csP ⟨name, some child⟩) := by
  have among : csP ∈ child :: refs ++ h.links :=
    mem_append_left _ (mem_cons_of_mem _ mem)
  obtain ⟨rep, found, live⟩ := inv.exists_rep among
  have links : (h.link csP ⟨name, some child⟩).links.Perm (child :: h.links) := by
    refine flatMap_modify_perm found ?_
    simp [live]
  have same : (refs ++ (h.link csP ⟨name, some child⟩).links).Perm
      (child :: refs ++ h.links) := (links.append_left refs).trans perm_middle
  refine inv.modify ?_ (fun _ => .inl) ?_ (inv.valid csP among) ?_
  · exact fun p mem => same.mem_iff.mp mem
  · exact fun p _ => ⟨rfl, same.count_eq p⟩
  · intro rep' found' kept
    obtain rfl := some.inj (found'.symm.trans found)
    refine (same.count_eq csP).symm ▸ ⟨kept.nrefs, kept.freed, fun freed => ?_, kept.released⟩
    cases live.symm.trans freed

/-- A reference is dropped that is not the last one. -/
theorem dropRef {rep : Rep} (inv : Inv (csP :: refs) h) (found : h.reps[csP]? = some rep)
    (more : ¬ rep.nrefs ≤ 1) : Inv refs (h.addRefs csP (-1)) := by
  have links : (h.addRefs csP (-1)).links = h.links := flatMap_modify fun _ _ => rfl
  refine inv.modify ?_ (fun _ => .inl) ?_
    (inv.valid csP (mem_append_left _ mem_cons_self)) ?_
  · intro p mem
    exact mem_cons_of_mem csP (links ▸ mem)
  · intro p other
    refine ⟨rfl, ?_⟩
    rw [cons_append, count_cons_of_ne (Ne.symm other)]
    exact congrArg (count p <| refs ++ ·) links
  · intro rep' found' kept
    obtain rfl := some.inj (found'.symm.trans found)
    have fewer : (csP :: refs ++ h.links).count csP =
        (refs ++ (h.addRefs csP (-1)).links).count csP + 1 := by
      rw [links, cons_append, count_cons_self]
    rw [fewer] at kept
    have nrefs := kept.nrefs
    have freed := kept.freed
    change Kept ((refs ++ (h.addRefs csP (-1)).links).count csP) csP
      { rep' with nrefs := rep'.nrefs + -1 } h.log
    refine ⟨?_, ?_, kept.bare, kept.released⟩
    · push_cast at nrefs
      change rep'.nrefs + -1 = _
      omega
    · have live : ¬ rep'.freed = true := fun gone => Nat.succ_ne_zero _ (freed.mp gone)
      exact iff_of_false live (by omega)

/-- The last reference to a representation without fields is dropped. -/
theorem dropLast {rep : Rep} (inv : Inv (csP :: refs) h) (found : h.reps[csP]? = some rep)
    (last : rep.nrefs ≤ 1) (bare : rep.fields = []) :
    Inv refs ((h.addRefs csP (-1)).free csP) := by
  have once : (h.addRefs csP (-1)).free csP = ⟨h.reps.modify csP fun rep =>
      { rep with nrefs := rep.nrefs + -1, freed := true }, h.log ++ [.free csP]⟩ := by
    rw [Heap.free, Heap.addRefs, modify_modify_eq]
    rfl
  have links : ((h.addRefs csP (-1)).free csP).links = h.links := by
    rw [once]
    refine flatMap_modify fun rep' found' => ?_
    obtain rfl := some.inj (found'.symm.trans found)
    simp [bare]
  rw [once] at links ⊢
  have head : csP ∈ csP :: refs ++ h.links := mem_append_left _ mem_cons_self
  refine inv.modify ?_ ?_ ?_ (inv.valid csP head) ?_
  · intro p mem
    exact mem_cons_of_mem csP (links ▸ mem)
  · intro act mem
    rcases mem_append.mp mem with mem | mem
    · exact .inl mem
    · exact .inr (mem_singleton.mp mem ▸ rfl)
  · intro p other
    rw [links, cons_append, count_cons_of_ne (Ne.symm other), filter_append]
    refine ⟨?_, rfl⟩
    simp [Act.rep, Ne.symm other]
  · intro rep' found' kept
    obtain rfl := some.inj (found'.symm.trans found)
    have none : (refs ++ h.links).count csP = 0 := by
      have nrefs := kept.nrefs
      rw [cons_append, count_cons_self] at nrefs
      push_cast at nrefs
      omega
    have live : rep'.freed = false := by
      rw [← Bool.not_eq_true, kept.freed]
      exact Nat.pos_iff_ne_zero.mp (count_pos_iff.mpr head)
    have released := kept.released
    rw [live] at released
    rw [links, none]
    refine ⟨?_, by simp, fun _ => bare, ?_⟩
    · have nrefs := kept.nrefs
      rw [cons_append, count_cons_self, none] at nrefs
      change rep'.nrefs + -1 = _
      omega
    · rw [filter_append, released]
      simp [Act.rep]

end Inv

/-! ### Runs -/

/-- A reference that is stored nowhere any more can be dropped. -/
theorem Inv.decrRefs_eq (inv : Inv (csP :: s.roots) s.heap) :
    ∃ rep, s.heap.reps[csP]? = some rep ∧ s.decrRefs csP =
      some { s with
        heap := if rep.nrefs ≤ 1 then (s.heap.addRefs csP (-1)).free csP
          else s.heap.addRefs csP (-1) } := by
  obtain ⟨rep, found, -⟩ := inv.exists_rep (mem_append_left _ mem_cons_self)
  refine ⟨rep, found, ?_⟩
  rw [State.decrRefs, cStructRepDecrRefs_eq _ found]
  rfl

/-- Under the condition the invariant is kept. -/
theorem Inv.decrRefs (inv : Inv (csP :: s.roots) s.heap)
    (bare : ∀ rep, s.heap.reps[csP]? = some rep → rep.nrefs = 1 → rep.fields = [])
    (dropped : s.decrRefs csP = some t) : Inv t.roots t.heap := by
  obtain ⟨rep, found, eq⟩ := inv.decrRefs_eq
  obtain rfl := some.inj (eq.symm.trans dropped)
  by_cases last : rep.nrefs ≤ 1
  · have nrefs := (inv.kept csP rep found).nrefs
    rw [cons_append, count_cons_self] at nrefs
    rw [if_pos last]
    exact inv.dropLast found last (bare rep found (by omega))
  · rw [if_neg last]
    exact inv.dropRef found last

/-- Without the condition the state is not proper afterwards: the fields are never released. -/
theorem not_proper_of_decrRefs {rep : Rep} (inv : Inv (csP :: s.roots) s.heap)
    (found : s.heap.reps[csP]? = some rep) (one : rep.nrefs = 1) (fields : rep.fields ≠ [])
    (dropped : s.decrRefs csP = some t) :
    ¬ Proper t := by
  rw [State.decrRefs, cStructRepDecrRefs_eq _ found, if_pos (Int.le_of_eq one),
    map_some] at dropped
  obtain rfl := some.inj dropped
  have kept := inv.kept csP rep found
  have counted := kept.nrefs
  rw [one, cons_append, count_cons_self] at counted
  have absent : csP ∉ s.roots ++ s.heap.links := count_eq_zero.mp (by omega)
  have fewer : ((s.heap.addRefs csP (-1)).free csP).links ⊆ s.heap.links := by
    refine List.Subset.trans (flatMap_modify_subset fun rep' => ?_)
      (flatMap_modify_subset fun rep' => ?_)
    · simp
    · exact fun _ mem => mem
  have owners :
      ({ s with heap := (s.heap.addRefs csP (-1)).free csP } : State).owners csP = 0 := by
    refine count_eq_zero.mpr fun mem => absent ?_
    exact (mem_append.mp mem).elim (mem_append_left _)
      fun mem => mem_append_right _ (fewer mem)
  have live : rep.freed = false := by
    rw [← Bool.not_eq_true, kept.freed, cons_append, count_cons_self]
    exact Nat.succ_ne_zero _
  have released := kept.released
  rw [live] at released
  intro proper
  have after : ((s.heap.addRefs csP (-1)).free csP).reps[csP]? =
      some { rep with nrefs := rep.nrefs + -1, freed := true } := by
    simp [Heap.free, Heap.addRefs, found]
  have here := proper csP _ after
  rw [if_pos owners] at here
  obtain ⟨first, same, log⟩ := here
  have none : first = [] := by
    have log' : s.heap.log.filter (·.rep = csP) ++ [Act.free csP] = first ++ [.free csP] := by
      rw [← log, Heap.free, Heap.addRefs, filter_append]
      simp [Act.rep]
    rw [released] at log'
    exact (append_cancel_right log').symm
  subst none
  have none := same.nil_eq.symm
  cases names : rep.fields with
  | nil => exact fields names
  | cons field rest => simp [fieldReleases, names] at none

theorem Inv.proper (inv : Inv s.roots s.heap) : Proper s := by
  intro csP rep found
  have kept := inv.kept csP rep found
  split
  next none =>
    have freed := kept.freed.mpr none
    refine ⟨[], ?_, ?_⟩
    · rw [fieldReleases, kept.bare freed]
      exact .nil
    · rw [kept.released, if_pos freed]
      rfl
  next some =>
    rw [kept.released, if_neg (mt kept.freed.mp some)]

/-- What a step does to the references: those that are counted are moved, a new one is made, or
the reference is dropped that `drops` gives. -/
inductive Change (s t : State) (a : Label) : Prop
  | kept (inv : Inv t.roots t.heap) (none : drops s a = none)
  | dropped (csP : Nat) (u : State) (drop : drops s a = some csP) (heap : u.heap = s.heap)
      (inv : Inv (csP :: u.roots) u.heap) (done : u.decrRefs csP = some t)

/-- The references of all objects but one, and the one's. -/
theorem roots_erase (mem : (obj, csP) ∈ s.objs) :
    s.roots.Perm (csP :: ({ s with objs := s.objs.erase (obj, csP) } : State).roots) := by
  have apart := (perm_cons_erase mem).map (·.2)
  exact (apart.append_right (s.stack.map (·.2))).append_right s.holds

theorem roots_unhold (mem : csP ∈ s.holds) :
    s.roots.Perm (csP :: ({ s with holds := s.holds.erase csP } : State).roots) :=
  ((perm_cons_erase mem).append_left (s.objs.map (·.2) ++ s.stack.map (·.2))).trans
    perm_middle

theorem roots_hold (s : State) (csP : Nat) :
    ({ s with holds := csP :: s.holds } : State).roots.Perm (csP :: s.roots) := List.perm_middle

theorem roots_top {stack : List (Nat × Nat)} (top : s.stack = (obj, csP) :: stack) :
    s.roots.Perm (csP :: ({ s with stack } : State).roots) := by
  rw [State.roots, top]
  exact perm_middle.append_right s.holds

theorem step_change (inv : Inv s.roots s.heap) (stepped : s.step a = some t) : Change s t a := by
  cases a with
  | begin obj =>
    rw [State.step] at stepped
    split at stepped
    · obtain rfl := some.inj stepped
      exact .kept inv rfl
    · obtain rfl := some.inj stepped
      have pushed : ({ s with
          heap := s.heap.alloc
          stack := (obj, s.heap.reps.length) :: s.stack } : State).roots.Perm
            (s.heap.reps.length :: s.roots) := roots_top rfl
      exact .kept (inv.alloc.perm pushed.symm) rfl
  | field name obj =>
    cases obj with
    | none =>
      rw [State.step] at stepped
      split at stepped
      next => cases stepped
      next under csP stack top =>
        obtain rfl := some.inj stepped
        refine .kept (inv.link ?_ name) rfl
        exact (roots_top top).mem_iff.mpr mem_cons_self
    | some obj =>
      rw [State.step] at stepped
      split at stepped
      next under csP stack child top found =>
        obtain rfl := some.inj stepped
        have mem : child ∈ s.roots :=
          (roots_erase (mem_of_lookup found)).mem_iff.mpr mem_cons_self
        refine .kept ((inv.addRefs (mem_append_left _ mem)).linkChild ?_ name) rfl
        exact (roots_top top).mem_iff.mpr mem_cons_self
      next => cases stepped
  | finish =>
    rw [State.step] at stepped
    split at stepped
    next => cases stepped
    next obj csP stack top =>
      split at stepped
      next => cases stepped
      next =>
        obtain rfl := some.inj stepped
        exact .kept (inv.perm (roots_top top)) rfl
  | abort =>
    rw [State.step] at stepped
    split at stepped
    next => cases stepped
    next obj csP stack top =>
      have drop : drops s .abort = some csP := by rw [drops, top]; rfl
      exact .dropped csP { s with stack } drop rfl (inv.perm (roots_top top)) stepped
  | dup src dst =>
    rw [State.step] at stepped
    split at stepped
    next csP found _ =>
      obtain rfl := some.inj stepped
      have mem : csP ∈ s.roots :=
        (roots_erase (mem_of_lookup found)).mem_iff.mpr mem_cons_self
      exact .kept (inv.addRefs (mem_append_left _ mem)) rfl
    next => cases stepped
  | free obj =>
    rw [State.step] at stepped
    split at stepped
    next => cases stepped
    next csP found =>
      exact .dropped csP { s with objs := s.objs.erase (obj, csP) } found rfl
        (inv.perm (roots_erase (mem_of_lookup found))) stepped
  | hold csP =>
    rw [State.step] at stepped
    split at stepped
    next mem =>
      obtain rfl := some.inj stepped
      have among : csP ∈ s.roots ++ s.heap.links :=
        (mem_append.mp mem).elim
          (fun mem =>
            mem_append_left _ (mem_append_left _ (mem_append_left _ mem)))
          (mem_append_right _)
      exact .kept ((inv.addRefs among).perm (roots_hold s csP).symm) rfl
    next => cases stepped
  | unhold csP =>
    rw [State.step] at stepped
    split at stepped
    next mem =>
      exact .dropped csP { s with holds := s.holds.erase csP } (if_pos mem) rfl
        (inv.perm (roots_unhold mem)) stepped
    next => cases stepped

/-- A step that meets the condition keeps the invariant. -/
theorem Change.inv (change : Change s t a) (meets : Meets s a) :
    Inv t.roots t.heap := by
  cases change with
  | kept inv => exact inv
  | dropped csP u drop heap inv done =>
    refine inv.decrRefs (fun rep found => meets rep ?_) done
    rw [drop, bind_some, ← heap]
    exact found

theorem Change.proper_iff (change : Change s t a) :
    Proper t ↔ Meets s a := by
  refine ⟨fun proper rep mem one => ?_, fun meets => (change.inv meets).proper⟩
  cases change with
  | kept _ none =>
    rw [none] at mem
    cases mem
  | dropped csP u drop heap inv done =>
    rw [drop, bind_some, ← heap] at mem
    by_contra fields
    exact not_proper_of_decrRefs inv mem one fields done proper

theorem inv_init : Inv [] ⟨[], []⟩ where
  valid _ mem := nomatch mem
  logged _ mem := nomatch mem
  kept _ _ found := nomatch found

theorem reaches_inv (reached : machine.Reaches Meets s) : Inv s.roots s.heap :=
  reached.invariant (fun _ start => start ▸ inv_init)
    fun _ _ _ inv meets stepped => (step_change inv stepped).inv meets

/-- What drops a reference gets to its end. -/
theorem exists_step (inv : Inv s.roots s.heap) (drop : drops s a = some csP) :
    ∃ t, s.step a = some t := by
  cases a with
  | abort =>
    obtain ⟨⟨obj, csP⟩, top, rfl⟩ := map_eq_some_iff.mp drop
    cases stack : s.stack with
    | nil => rw [stack] at top; cases top
    | cons first rest =>
      rw [stack] at top
      obtain rfl := some.inj top
      rw [State.step, stack]
      have inv' : Inv (csP :: ({ s with stack := rest } : State).roots)
          ({ s with stack := rest } : State).heap := inv.perm (roots_top stack)
      obtain ⟨rep, -, eq⟩ := inv'.decrRefs_eq
      exact ⟨_, eq⟩
  | free obj =>
    have found : s.objs.lookup obj = some csP := drop
    rw [State.step, found]
    have inv' : Inv (csP :: ({ s with objs := s.objs.erase (obj, csP) } : State).roots)
        ({ s with objs := s.objs.erase (obj, csP) } : State).heap :=
      inv.perm (roots_erase (mem_of_lookup found))
    obtain ⟨rep, -, eq⟩ := inv'.decrRefs_eq
    exact ⟨_, eq⟩
  | unhold p =>
    rw [drops] at drop
    split at drop
    next mem =>
      rw [State.step, if_pos mem]
      have inv' : Inv (p :: ({ s with holds := s.holds.erase p } : State).roots)
          ({ s with holds := s.holds.erase p } : State).heap := inv.perm (roots_unhold mem)
      obtain ⟨rep, -, eq⟩ := inv'.decrRefs_eq
      exact ⟨_, eq⟩
    next => cases drop
  | begin | field | finish | dup | hold => cases drop

/-- As long as no last reference to a representation that has fields is dropped, every state is
proper; and a step that drops one leads to a state that is not. A drop always gets to its end. -/
theorem reaches_released {s : State} (reached : machine.Reaches Meets s) :
    Proper s ∧ (∀ a t, machine.step s a = some t → (Proper t ↔ Meets s a)) ∧
      ∀ a csP, drops s a = some csP → ∃ t, machine.step s a = some t := by
  have inv := reaches_inv reached
  refine ⟨inv.proper, fun a t stepped => ?_, fun a csP drop => exists_step inv drop⟩
  exact (step_change inv stepped).proper_iff

/-! A structure with a nested one, which an object and its duplicate keep. -/

def nestedRun : List Label :=
  [.begin 0, .begin 1, .field 20 none, .finish, .field 21 (some 1), .finish, .dup 0 2, .free 0,
    .hold 0, .unhold 0]

theorem reaches_released_nested :
    ∃ s, machine.Reaches Meets s ∧ s.heap.reps.length = 2 ∧
      (Proper s ∧ (∀ a t, machine.step s a = some t → (Proper t ↔ Meets s a)) ∧
        ∀ a csP, drops s a = some csP → ∃ t, machine.step s a = some t) := by
  obtain ⟨s, reached, two⟩ := Machine.Reaches.exists_of_run (M := machine) (G := Meets) nestedRun
    (fun s => s.heap.reps.length = 2) rfl (by decide)
  exact ⟨s, reached, two, reaches_released reached⟩

/-- The name of the one field of a structure is not released with the structure. -/
theorem fields_not_released : ∃ t, machine.Reachable t ∧ ¬ Proper t := by
  let t : State := ⟨⟨[⟨0, [⟨7, none⟩], true⟩], [.free 0]⟩, [], [], []⟩
  have reached : machine.Reachable t :=
    Machine.Reaches.of_run [.begin 0, .field 7 none, .finish, .free 0] rfl (by decide)
  refine ⟨t, reached, fun proper => ?_⟩
  have here := proper 0 _ rfl
  rw [if_pos (by decide)] at here
  obtain ⟨first, same, log⟩ := here
  have lengths := congrArg length log
  have two : first.length = 1 := same.length_eq
  rw [length_append, two] at lengths
  cases lengths

end Twapi.CStruct.References
