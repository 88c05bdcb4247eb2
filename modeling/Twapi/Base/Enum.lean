import Mathlib.Logic.Function.Basic
import Twapi.Lib.Machine

/-!
The positions of strings in tables, `ObjToEnum` of `base/tclobjs.c`.

* An object may keep the position that was found last, with the address of the table.
* `holders` are the references to an object: those of callers, and one of each object that keeps
  a position in it. What is not referenced is freed at some later step, and its address may be
  that of a new object.
* `Kept` — a table stays what it was as long as a position in it is kept, so a position that was
  kept is the one a search finds.

A string is changed in place only in an object that has no other reference, as everywhere in
Tcl. A representation may be replaced at any time, which does not change the string.
-/

namespace Twapi.Base.Enum

open Lib

/-- `.enum` is the type `TwapiEnum`, `.other` any other or none. -/
inductive Rep where
  | other
  | enum (value table : Nat)
deriving DecidableEq

inductive Holder where
  | caller
  | rep (addr : Nat)
deriving DecidableEq

structure Obj where
  string : String
  rep : Rep
  holders : List Holder
deriving DecidableEq

/-- The objects by address. -/
abbrev Objs := Nat → Option Obj

namespace Objs

def adjust (s : Objs) (p : Nat) (f : Obj → Obj) : Objs := Function.update s p ((s p).map f)

def incrRefs (s : Objs) (p : Nat) (h : Holder) : Objs :=
  s.adjust p fun o => { o with holders := h :: o.holders }

def decrRefs (s : Objs) (p : Nat) (h : Holder) : Objs :=
  s.adjust p fun o => { o with holders := o.holders.erase h }

def setRep (s : Objs) (p : Nat) (r : Rep) : Objs := s.adjust p fun o => { o with rep := r }

/-- `freeIntRepProc`, which is `FreeEnumType` for a kept position. -/
def freeIntRep (s : Objs) (p : Nat) : Objs :=
  match s p with
  | some ⟨_, .enum _ table, _⟩ => (s.decrRefs table (.rep p)).setRep p .other
  | _ => s

/-- `DupEnumType` -/
def dupEnumType (s : Objs) (src dst : Nat) : Objs :=
  match s src with
  | some ⟨_, .enum value table, _⟩ => (s.setRep dst (.enum value table)).incrRefs table (.rep dst)
  | _ => s

def Held (s : Objs) (p : Nat) : Prop := ∃ o ∈ s p, Holder.caller ∈ o.holders

instance (s : Objs) (p : Nat) : Decidable (s.Held p) := by
  unfold Held; infer_instance

end Objs

variable (elements : String → Except String (List String))

/-- The loop of `ObjToEnum` over the elements of a table. -/
def find (objs : List String) (name : String) : Except String Nat :=
  let i := objs.findIdx (· = name)
  if i = objs.length then .error ("Invalid enum \"" ++ name ++ "\"") else .ok i

/-- A linear search of a table, the string of which is taken apart as a list. -/
def search (enums name : String) : Except String Nat := (elements enums).bind (find · name)

/-- The branch of `ObjToEnum` for an object with no position in the table. `ObjGetElements` leaves
the table with the representation of a list. -/
def reconstruct (s : Objs) (enumsObj nameObj : Nat) (enums name : String) :
    Except String Nat × Objs :=
  match elements enums with
  | .error text => (.error text, s)
  | .ok objs =>
    let s := s.freeIntRep enumsObj
    match find objs name with
    | .error text => (.error text, s)
    | .ok i =>
      (.ok i, ((s.freeIntRep nameObj).setRep nameObj (.enum i enumsObj)).incrRefs enumsObj
        (.rep nameObj))

def objToEnum (s : Objs) (enumsObj nameObj : Nat) : Except String Nat × Objs :=
  match s enumsObj, s nameObj with
  | some enums, some name =>
    match name.rep with
    | .enum value table =>
      if enumsObj = table then (.ok value, s)
      else reconstruct elements s enumsObj nameObj enums.string name.string
    | .other => reconstruct elements s enumsObj nameObj enums.string name.string
  | _, _ => (.error "", s)

inductive Label where
  | new (p : Nat) (string : String)
  | hold (p : Nat)
  | drop (p : Nat)
  | convert (p : Nat)
  | modify (p : Nat) (string : String)
  | duplicate (src dst : Nat)
  | lookup (enumsObj nameObj : Nat)
  | reclaim (p : Nat)
deriving DecidableEq

def step (s : Objs) : Label → Option Objs
  | .new p string =>
    if s p = none then some (Function.update s p (some ⟨string, .other, [.caller]⟩)) else none
  | .hold p => if s.Held p then some (s.incrRefs p .caller) else none
  | .drop p => if s.Held p then some (s.decrRefs p .caller) else none
  | .convert p => if s.Held p then some (s.freeIntRep p) else none
  | .modify p string =>
    if (s p).map (·.holders) = some [.caller] then
      some ((s.freeIntRep p).adjust p fun o => { o with string := string })
    else none
  | .duplicate src dst =>
    if s.Held src ∧ s dst = none then
      some (Objs.dupEnumType (Function.update s dst
        ((s src).map fun o => ⟨o.string, .other, [.caller]⟩)) src dst)
    else none
  | .lookup enumsObj nameObj =>
    if s.Held enumsObj ∧ s.Held nameObj then some (objToEnum elements s enumsObj nameObj).2
    else none
  | .reclaim p =>
    if (s p).map (·.holders) = some [] then some (Function.update (s.freeIntRep p) p none)
    else none

def machine : Machine Objs Label := ⟨fun s => s = fun _ => none, step elements⟩

/-- Every position that is kept is of a referenced table, in which a search finds it. -/
def Kept (s : Objs) : Prop :=
  ∀ p o v t, s p = some o → o.rep = .enum v t →
    ∃ e, s t = some e ∧ .rep p ∈ e.holders ∧ search elements e.string o.string = .ok v

section Steps

variable {elements} {s t : Objs} {p q : Nat} {o : Obj}

theorem adjust_eq_some {f : Obj → Obj} :
    (s.adjust p f) q = some o ↔ ∃ o₀, s q = some o₀ ∧ o = if q = p then f o₀ else o₀ := by
  rw [Objs.adjust, Function.update_apply]
  split
  · rename_i h
    rw [h, Option.map_eq_some_iff]
    exact exists_congr fun o₀ => and_congr_right fun _ => eq_comm
  · exact ⟨fun found => ⟨o, found, rfl⟩, fun ⟨o₀, found, same⟩ => same ▸ found⟩

/-- A step keeps no new position, and leaves the tables of those that are kept, in what counts. -/
theorem Kept.mono (hs : Kept elements s)
    (rep : ∀ p o v table, t p = some o → o.rep = .enum v table →
      ∃ o₀, s p = some o₀ ∧ o₀.rep = .enum v table ∧ o₀.string = o.string)
    (held : ∀ p o v table e, t p = some o → o.rep = .enum v table → s table = some e →
      .rep p ∈ e.holders → ∃ e', t table = some e' ∧ .rep p ∈ e'.holders ∧ e'.string = e.string) :
    Kept elements t := by
  intro p o v table ho hr
  obtain ⟨o₀, ho₀, hr₀, hstring⟩ := rep p o v table ho hr
  obtain ⟨e, he, hmem, hfound⟩ := hs p o₀ v table ho₀ hr₀
  obtain ⟨e', he', hmem', hsame⟩ := held p o v table e ho hr he hmem
  exact ⟨e', he', hmem', by rw [hsame, ← hstring, hfound]⟩

theorem Kept.incrRefs (hs : Kept elements s) (h : Holder) : Kept elements (s.incrRefs p h) := by
  refine hs.mono (fun q o v table ho hr => ?_) fun q o v table e ho hr he hmem => ?_
  · obtain ⟨o₀, ho₀, rfl⟩ := adjust_eq_some.mp ho
    grind
  · exact ⟨_, adjust_eq_some.mpr ⟨e, he, rfl⟩, by grind, by grind⟩

/-- A reference goes that is not the one of an object with a position. -/
theorem Kept.decrRefs (hs : Kept elements s) {h : Holder}
    (hfree : ∀ q o v, h = .rep q → s q = some o → o.rep ≠ .enum v p) :
    Kept elements (s.decrRefs p h) := by
  refine hs.mono (fun q o v table ho hr => ?_) fun q o v table e ho hr he hmem => ?_
  · obtain ⟨o₀, ho₀, rfl⟩ := adjust_eq_some.mp ho
    grind
  · obtain ⟨o₀, ho₀, rfl⟩ := adjust_eq_some.mp ho
    have hne : table = p → h ≠ .rep q := by grind
    exact ⟨_, adjust_eq_some.mpr ⟨e, he, rfl⟩, by grind, by grind⟩

theorem freeIntRep_cases (s : Objs) (p : Nat) :
    (s.freeIntRep p = s ∧ ∀ o, s p = some o → o.rep = .other) ∨
      ∃ table, s.freeIntRep p = (s.decrRefs table (.rep p)).setRep p .other := by
  unfold Objs.freeIntRep
  split
  · exact .inr ⟨_, rfl⟩
  · rename_i hother
    refine .inl ⟨rfl, fun o ho => ?_⟩
    rcases o with ⟨string, rep, holders⟩
    cases rep with
    | other => rfl
    | enum v t => exact absurd ho (hother string v t holders)

/-- What `freeIntRep` leaves of each object. -/
theorem freeIntRep_eq_some (h : (s.freeIntRep p) q = some o) :
    ∃ o₀, s q = some o₀ ∧ o.string = o₀.string ∧ o.rep = (if q = p then .other else o₀.rep) ∧
      (∀ k ∈ o.holders, k ∈ o₀.holders) ∧ ∀ k ∈ o₀.holders, k ≠ .rep p → k ∈ o.holders := by
  obtain ⟨heq, hother⟩ | ⟨table, heq⟩ := freeIntRep_cases s p <;> rw [heq] at h
  · refine ⟨o, h, rfl, ?_, fun _ hk => hk, fun _ hk _ => hk⟩
    split
    · exact hother o (by simp_all)
    · rfl
  · obtain ⟨o₁, h₁, rfl⟩ := adjust_eq_some.mp h
    obtain ⟨o₀, h₀, rfl⟩ := adjust_eq_some.mp h₁
    refine ⟨o₀, h₀, ?_⟩
    have hsub : ∀ k ∈ o₀.holders.erase (.rep p), k ∈ o₀.holders := fun k => List.mem_of_mem_erase
    have hback : ∀ k ∈ o₀.holders, k ≠ .rep p → k ∈ o₀.holders.erase (.rep p) :=
      fun k hk hne => (List.mem_erase_of_ne hne).mpr hk
    split <;> split <;> simp_all

theorem exists_freeIntRep (p : Nat) (h : s q = some o) : ∃ o₁, (s.freeIntRep p) q = some o₁ := by
  obtain ⟨heq, -⟩ | ⟨table, heq⟩ := freeIntRep_cases s p <;> rw [heq]
  · exact ⟨o, h⟩
  · exact ⟨_, adjust_eq_some.mpr ⟨_, adjust_eq_some.mpr ⟨o, h, rfl⟩, rfl⟩⟩

theorem Kept.freeIntRep (hs : Kept elements s) (p : Nat) : Kept elements (s.freeIntRep p) := by
  refine hs.mono (fun q o v table ho hr => ?_) fun q o v table e ho hr he hmem => ?_
  · obtain ⟨o₀, h₀, hstring, hrep, -⟩ := freeIntRep_eq_some ho
    grind
  · obtain ⟨o₀, h₀, -, hrep, -⟩ := freeIntRep_eq_some ho
    have hne : q ≠ p := by grind
    obtain ⟨e', he'⟩ := exists_freeIntRep p he
    obtain ⟨e₀, h₁, hsame, -, -, hback⟩ := freeIntRep_eq_some he'
    obtain rfl : e = e₀ := by simpa [he] using h₁
    exact ⟨e', he', hback _ hmem (by simpa using hne), hsame⟩

/-- What `setRep` and `incrRefs` leave of each object where a position is stored. -/
theorem store_eq_some {v table : Nat} :
    ((s.setRep p (.enum v table)).incrRefs table (.rep p)) q = some o ↔
      ∃ o₀, s q = some o₀ ∧ o = ⟨o₀.string, if q = p then .enum v table else o₀.rep,
        if q = table then .rep p :: o₀.holders else o₀.holders⟩ := by
  constructor
  · intro h
    obtain ⟨o₁, h₁, rfl⟩ := adjust_eq_some.mp h
    obtain ⟨o₀, h₀, rfl⟩ := adjust_eq_some.mp h₁
    exact ⟨o₀, h₀, by split <;> split <;> rfl⟩
  · rintro ⟨o₀, h₀, rfl⟩
    exact adjust_eq_some.mpr ⟨_, adjust_eq_some.mpr ⟨o₀, h₀, rfl⟩, by split <;> split <;> rfl⟩

/-- A position is stored that a search finds. -/
theorem Kept.store (hs : Kept elements s) {e : Obj} {v table : Nat} (ho : s p = some o)
    (he : s table = some e) (hfound : search elements e.string o.string = .ok v) :
    Kept elements ((s.setRep p (.enum v table)).incrRefs table (.rep p)) := by
  intro q o' v' table' ho' hr
  obtain ⟨o₀, h₀, rfl⟩ := store_eq_some.mp ho'
  by_cases hq : q = p
  · subst hq
    obtain rfl : o₀ = o := by simpa [h₀] using ho
    obtain ⟨rfl, rfl⟩ : v = v' ∧ table = table' := by simpa using hr
    exact ⟨_, store_eq_some.mpr ⟨e, he, rfl⟩, by simp, hfound⟩
  · obtain ⟨x, hx, hmem, hkept⟩ := hs q o₀ v' table' h₀ (by simpa [hq] using hr)
    refine ⟨_, store_eq_some.mpr ⟨x, hx, rfl⟩, ?_, hkept⟩
    by_cases htable : table' = table <;> simp [htable, hmem]

/-- A new object keeps no position, and there is none in it yet. -/
theorem Kept.new (hs : Kept elements s) (hp : s p = none) (string : String) :
    Kept elements (Function.update s p (some ⟨string, .other, [.caller]⟩)) := by
  refine hs.mono (fun q o v table ho hr => ?_) fun q o v table e ho hr he hmem => ?_
  · by_cases hq : q = p
    · subst hq
      obtain rfl : ⟨string, .other, [.caller]⟩ = o := by simpa using ho
      cases hr
    · exact ⟨o, by simpa [hq] using ho, hr, rfl⟩
  · have : table ≠ p := fun h => by simp [h ▸ he] at hp
    exact ⟨e, by simpa [this] using he, hmem, rfl⟩

/-- An object changes in which no other object keeps a position, and which keeps none. -/
theorem Kept.change (hs : Kept elements s) (f : Option Obj → Option Obj)
    (hf : ∀ o ∈ f (s p), o.rep = .other) (hp : ∀ o ∈ s p, ∀ q, Holder.rep q ∉ o.holders) :
    Kept elements (Function.update s p (f (s p))) := by
  refine hs.mono (fun q o v table ho hr => ?_) fun q o v table e ho hr he hmem => ?_
  · by_cases hq : q = p
    · subst hq
      simp [hf o (by simpa using ho)] at hr
    · exact ⟨o, by simpa [hq] using ho, hr, rfl⟩
  · have : table ≠ p := fun h => hp e (h ▸ he) q hmem
    exact ⟨e, by simpa [this] using he, hmem, rfl⟩

/-- What `freeIntRep` leaves of an object that no position is kept in. -/
theorem freeIntRep_alone (h : ∀ o ∈ s p, ∀ q, Holder.rep q ∉ o.holders) :
    ∀ o ∈ (s.freeIntRep p) p, o.rep = .other ∧ ∀ q, Holder.rep q ∉ o.holders := by
  intro o ho
  obtain ⟨o₀, h₀, -, hrep, hsub, -⟩ := freeIntRep_eq_some ho
  exact ⟨by simpa using hrep, fun q hq => h o₀ h₀ q (hsub _ hq)⟩

theorem Kept.reconstruct (hs : Kept elements s) {e : Obj} (he : s p = some e) (ho : s q = some o) :
    Kept elements (reconstruct elements s p q e.string o.string).2 := by
  unfold Enum.reconstruct
  split
  · exact hs
  · rename_i objs hobjs
    have hlist := hs.freeIntRep p
    split
    · exact hlist
    · rename_i i hfind
      obtain ⟨e₁, he₁⟩ := exists_freeIntRep p he
      obtain ⟨e₂, he₂⟩ := exists_freeIntRep q he₁
      obtain ⟨o₁, ho₁⟩ := exists_freeIntRep p ho
      obtain ⟨o₂, ho₂⟩ := exists_freeIntRep q ho₁
      refine (hlist.freeIntRep q).store ho₂ he₂ ?_
      have string {r : Nat} {x x₁ x₂ : Obj} (h : s r = some x) (h₁ : s.freeIntRep p r = some x₁)
          (h₂ : (s.freeIntRep p).freeIntRep q r = some x₂) : x₂.string = x.string := by
        obtain ⟨y₁, hy₁, hsame₁, -⟩ := freeIntRep_eq_some h₂
        obtain ⟨y, hy, hsame, -⟩ := freeIntRep_eq_some h₁
        simp_all
      rw [search, string he he₁ he₂, string ho ho₁ ho₂, hobjs]
      exact hfind

theorem Kept.objToEnum (hs : Kept elements s) : Kept elements (objToEnum elements s p q).2 := by
  unfold Enum.objToEnum
  split
  · rename_i e o he ho
    split
    · split
      · exact hs
      · exact hs.reconstruct he ho
    · exact hs.reconstruct he ho
  · exact hs

theorem Kept.duplicate (hs : Kept elements s) (ho : s p = some o) (hq : s q = none) :
    Kept elements (Objs.dupEnumType
      (Function.update s q (some ⟨o.string, .other, [.caller]⟩)) p q) := by
  have hnew := hs.new hq o.string
  have hne : p ≠ q := by
    rintro rfl
    simp [hq] at ho
  unfold Objs.dupEnumType
  split
  · rename_i string v table holders hsrc
    obtain rfl : o = ⟨string, .enum v table, holders⟩ := by simpa [hne, ho] using hsrc
    obtain ⟨e, he, -, hfound⟩ := hs p _ v table ho rfl
    have : table ≠ q := by
      rintro rfl
      simp [hq] at he
    exact hnew.store (o := ⟨string, .other, [.caller]⟩) (by simp) (by simpa [this] using he) hfound
  · exact hnew

theorem holders_alone {holders : List Holder} (h : (s p).map (·.holders) = some holders)
    (hrep : ∀ q, Holder.rep q ∉ holders) : ∀ o ∈ s p, ∀ q, Holder.rep q ∉ o.holders := by
  intro o ho
  obtain rfl : o.holders = holders := by simpa [Option.mem_def.mp ho] using h
  exact hrep

theorem Kept.step (hs : Kept elements s) {a : Label} (h : step elements s a = some t) :
    Kept elements t := by
  cases a <;> simp only [Enum.step, Option.ite_none_right_eq_some, Option.some.injEq] at h <;>
    obtain ⟨hif, rfl⟩ := h
  case new p string => exact hs.new hif string
  case hold p => exact hs.incrRefs .caller
  case drop p => exact hs.decrRefs fun _ _ _ h => by cases h
  case convert p => exact hs.freeIntRep p
  case modify p string =>
      have halone := freeIntRep_alone (holders_alone hif (by simp))
      refine (hs.freeIntRep p).change (Option.map _) (fun o ho => ?_) fun o ho => (halone o ho).2
      obtain ⟨o₀, ho₀, rfl⟩ := Option.map_eq_some_iff.mp ho
      exact (halone o₀ ho₀).1
  case duplicate src dst =>
      obtain ⟨⟨o, ho, -⟩, hdst⟩ := hif
      rw [ho]
      exact hs.duplicate ho hdst
  case lookup enumsObj nameObj => exact hs.objToEnum
  case reclaim p =>
      have halone := freeIntRep_alone (holders_alone hif (by simp))
      exact (hs.freeIntRep p).change (fun _ => none) (by simp) fun o ho => (halone o ho).2

end Steps

theorem reconstruct_fst (s : Objs) (enumsObj nameObj : Nat) (enums name : String) :
    (reconstruct elements s enumsObj nameObj enums name).1 = search elements enums name := by
  unfold reconstruct search
  cases elements enums with
  | error text => rfl
  | ok objs => cases h : find objs name <;> simp [h, Except.bind]

/-- In every reachable state what `ObjToEnum` gives is what a search of the table gives. -/
theorem objToEnum_eq_search {s : Objs} (hs : (machine elements).Reachable s)
    {enumsObj nameObj : Nat} {enums name : Obj} (he : s enumsObj = some enums)
    (hn : s nameObj = some name) :
    (objToEnum elements s enumsObj nameObj).1 = search elements enums.string name.string := by
  have hkept : Kept elements s := hs.invariant
    (fun s (h : s = _) p o v t ho => by rw [h] at ho; cases ho) fun s a t h _ hstep => h.step hstep
  unfold objToEnum
  simp only [he, hn]
  split
  · rename_i value table hrep
    split
    · rename_i htable
      obtain ⟨e, he', -, hfound⟩ := hkept nameObj name value table hn hrep
      obtain rfl : enums = e := by simpa [htable, he'] using he.symm
      exact hfound.symm
    · exact reconstruct_fst ..
  · exact reconstruct_fst ..

/-- One object looked up in two tables in turn. -/
theorem objToEnum_of_two_tables :
    let elements := fun s => .ok (if s = "a b" then ["a", "b"] else [s])
    ∃ s, (machine elements).Reachable s ∧
      (objToEnum elements s 0 2).1 = search elements "a b" "b" := by
  obtain ⟨s, hs, he, hn⟩ := Machine.Reaches.exists_of_run
    (M := machine fun s => .ok (if s = "a b" then ["a", "b"] else [s])) (G := fun _ _ => True)
    [.new 0 "a b", .new 1 "b", .new 2 "b", .lookup 0 2, .lookup 1 2]
    (fun s => s 0 = some ⟨"a b", .other, [.caller]⟩ ∧
      s 2 = some ⟨"b", .enum 0 1, [.caller]⟩) rfl (by decide)
  exact ⟨s, hs, objToEnum_eq_search _ hs he hn⟩

end Twapi.Base.Enum
