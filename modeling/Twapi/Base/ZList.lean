import Mathlib.Logic.Function.Basic
import Twapi.Base.Word
import Twapi.Lib.DList
import Twapi.Lib.Machine

/-!
The lists of `zlist.h`: any number of them, with the links in the elements.

* `Lists` — the headers of the lists and the links of what may be in one.
* `Elems` — the elements of each list that is initialised, which is what is meant.
* `consistent_of_run` — runs of any operations, on lists no longer than their counts can be.
-/

namespace Twapi.Base.ZList

open Lib Base Function Option

@[ext] structure Header (ρ : Type) where
  head : Option ρ
  tail : Option ρ
  count : Int

structure Lists (κ ρ : Type) where
  headers : κ → Header ρ
  link : ρ → Link ρ

inductive Op (κ ρ : Type) where
  | init (k : κ)
  | append (k : κ) (p : ρ)
  | prepend (k : κ) (p : ρ)
  | insertAfter (k : κ) (cur p : ρ)
  | remove (k : κ) (p : ρ)
  | concat (k l : κ)
  | moveToHead (k : κ) (p : ρ)
  | destroy (k : κ)

variable {κ ρ : Type} [DecidableEq κ] [DecidableEq ρ]

namespace Lists

omit [DecidableEq κ] [DecidableEq ρ] in
def view (s : Lists κ ρ) (k : κ) : DList ρ :=
  ⟨(s.headers k).head, (s.headers k).tail, (s.headers k).count, s.link⟩

/-- The count is an `int`. -/
def store (s : Lists κ ρ) (k : κ) (z : DList ρ) : Lists κ ρ :=
  ⟨Function.update s.headers k ⟨z.head, z.tail, toInt z.count⟩, z.link⟩

def exec (s : Lists κ ρ) : Op κ ρ → Lists κ ρ
  | .init k => s.store k ⟨none, none, 0, s.link⟩
  | .append k p => s.store k ((s.view k).append p)
  | .prepend k p => s.store k ((s.view k).prepend p)
  | .insertAfter k cur p => s.store k ((s.view k).insertAfter cur p)
  | .remove k p => s.store k ((s.view k).remove p)
  | .concat k l =>
    let t := s.store k ((s.view k).concat (s.view l))
    if (s.view l).count = 0 then t else t.store l ⟨none, none, 0, t.link⟩
  | .moveToHead k p => s.store k ((s.view k).moveToHead p)
  | .destroy k => s.store k (s.view k).destroy.1

end Lists

/-! ### What is meant -/

abbrev Elems (κ ρ : Type) := κ → Option (List ρ)

def Elems.apply (a : Elems κ ρ) : Op κ ρ → Elems κ ρ
  | .init k => Function.update a k (some [])
  | .append k p => Function.update a k ((a k).map (· ++ [p]))
  | .prepend k p => Function.update a k ((a k).map (p :: ·))
  | .insertAfter k cur p =>
    Function.update a k ((a k).map (·.flatMap fun x => if x = cur then [x, p] else [x]))
  | .remove k p => Function.update a k ((a k).map (·.erase p))
  | .concat k l =>
    Function.update (Function.update a k ((a k).bind fun xs => (a l).map (xs ++ ·))) l (some [])
  | .moveToHead k p => Function.update a k ((a k).map fun xs => p :: xs.erase p)
  | .destroy k => Function.update a k (some [])

/-- What callers see to: lists are initialised, and what is added is in none of them. -/
def Allowed (a : Elems κ ρ) : Op κ ρ → Prop
  | .init _ => True
  | .append k p | .prepend k p => (a k).isSome ∧ ∀ l, ∀ xs ∈ a l, p ∉ xs
  | .insertAfter k cur p => (∃ xs ∈ a k, cur ∈ xs) ∧ ∀ l, ∀ xs ∈ a l, p ∉ xs
  | .remove k p | .moveToHead k p => ∃ xs ∈ a k, p ∈ xs
  | .concat k l => k ≠ l ∧ (a k).isSome ∧ (a l).isSome
  | .destroy k => (a k).isSome

/-- The lists are no longer than an `int` counts. -/
def InRange (a : Elems κ ρ) (op : Op κ ρ) : Prop := ∀ k, ∀ xs ∈ a.apply op k, xs.length ≤ intMax

/-- The ends, the count and the walks from both ends are of the elements. -/
structure Consistent (z : DList ρ) (xs : List ρ) : Prop where
  head : z.head = xs.head?
  tail : z.tail = xs.getLast?
  count : z.count = xs.length
  forward : DList.walk (fun p => (z.link p).next) xs.length z.head = some xs
  backward : DList.walk (fun p => (z.link p).prev) xs.length z.tail = some xs.reverse

/-- Lists with what is meant to be in them; at first none is initialised. -/
def machine : Machine (Lists κ ρ × Elems κ ρ) (Op κ ρ) where
  init s := s.2 = fun _ => none
  step s op := some (s.1.exec op, s.2.apply op)

structure Refines (s : Lists κ ρ) (a : Elems κ ρ) : Prop where
  represents : ∀ k xs, a k = some xs → (s.view k).Represents xs
  disjoint : ∀ k l xs ys, a k = some xs → a l = some ys → k ≠ l → ∀ x ∈ xs, x ∉ ys

section Steps

variable {s : Lists κ ρ} {a : Elems κ ρ} {k l : κ} {p q : ρ} {xs ys : List ρ} {z : DList ρ}

omit [DecidableEq κ] in
theorem erase_middle {left right : List ρ} (nodup : (left ++ p :: right).Nodup) :
    (left ++ p :: right).erase p = left ++ right := by
  have fresh : p ∉ left := fun among =>
    (List.nodup_append.mp nodup).2.2 p among p (List.mem_cons_self ..) rfl
  rw [List.erase_append_right _ fresh, List.erase_cons_head]

omit [DecidableEq ρ] in
/-- One list changes, and no link of what is in another one. -/
theorem Refines.store (h : Refines s a) (rep : z.Represents ys) (short : ys.length ≤ intMax)
    (frame : ∀ l xs, l ≠ k → a l = some xs → ∀ x ∈ xs, z.link x = s.link x ∧ x ∉ ys) :
    Refines (s.store k z) (Function.update a k (some ys)) := by
  constructor
  · intro l xs hl
    by_cases hk : l = k
    · subst hk
      obtain rfl : ys = xs := by simpa using hl
      have hcount : toInt z.count = z.count := by
        have := rep.count
        unfold intMax at short
        unfold toInt
        omega
      simpa [Lists.view, Lists.store, hcount] using rep
    · have hl' : a l = some xs := by simpa [hk] using hl
      obtain ⟨nodup, head, tail, count, links⟩ := h.represents l xs hl'
      have hview : (s.store k z).view l =
          ⟨(s.view l).head, (s.view l).tail, (s.view l).count, z.link⟩ := by
        simp [Lists.view, Lists.store, hk]
      rw [hview]
      exact ⟨nodup, head, tail, count, links.congr fun x hx => (frame l xs hk hl' x hx).1⟩
  · intro l m xs ys' hl hm hne x hx hx'
    by_cases hk : l = k
    · subst hk
      obtain rfl : ys = xs := by simpa using hl
      have hm' : a m = some ys' := by simpa [Ne.symm hne] using hm
      exact (frame m ys' (Ne.symm hne) hm' x hx').2 hx
    · have hl' : a l = some xs := by simpa [hk] using hl
      by_cases hmk : m = k
      · subst hmk
        obtain rfl : ys = ys' := by simpa using hm
        exact (frame l xs hk hl' x hx).2 hx'
      · exact h.disjoint l m xs ys' hl' (by simpa [hmk] using hm) hne x hx hx'

omit [DecidableEq ρ] in
/-- What is added is in no list. -/
theorem Refines.add (h : Refines s a) (hk : a k = some xs) (fresh : ∀ l, ∀ xs ∈ a l, p ∉ xs)
    (rep : z.Represents ys) (short : ys.length ≤ intMax) (hys : ∀ x, x ∈ ys ↔ x = p ∨ x ∈ xs)
    (frame : ∀ x, x ∉ ys → z.link x = s.link x) :
    Refines (s.store k z) (Function.update a k (some ys)) := by
  refine h.store rep short fun l xs' hl hl' x hx => ?_
  have hout : x ∉ ys := by
    rw [hys]
    rintro (rfl | hin)
    · exact fresh l xs' hl' hx
    · exact h.disjoint l k xs' xs hl' hk hl x hx hin
  exact ⟨frame x hout, hout⟩

omit [DecidableEq ρ] in
/-- Nothing is added. -/
theorem Refines.keep (h : Refines s a) (hk : a k = some xs)
    (rep : z.Represents ys) (short : ys.length ≤ intMax) (hys : ∀ x ∈ ys, x ∈ xs)
    (frame : ∀ x, x ∉ xs → z.link x = s.link x) :
    Refines (s.store k z) (Function.update a k (some ys)) := by
  refine h.store rep short fun l xs' hl hl' x hx => ?_
  have hout : x ∉ xs := h.disjoint l k xs' xs hl' hk hl x hx
  exact ⟨frame x hout, fun hin => hout (hys x hin)⟩

omit [DecidableEq κ] in
theorem flatMap_after {left right : List ρ} (nodup : (left ++ q :: right).Nodup) :
    (left ++ q :: right).flatMap (fun x => if x = q then [x, p] else [x]) =
      left ++ q :: p :: right := by
  obtain ⟨-, nodup_q, apart⟩ := List.nodup_append.mp nodup
  have same (xs : List ρ) (h : q ∉ xs) :
      xs.flatMap (fun x => if x = q then [x, p] else [x]) = xs := by
    induction xs with
    | nil => rfl
    | cons x xs ih =>
      have hx : x ≠ q := fun eq => h (by simp [eq])
      simp [hx, ih fun among => h (List.mem_cons_of_mem _ among)]
  have hleft : q ∉ left := fun among => apart q among q (List.mem_cons_self ..) rfl
  have hright : q ∉ right := (List.nodup_cons.mp nodup_q).1
  rw [List.flatMap_append, List.flatMap_cons, same left hleft, same right hright]
  simp

theorem Refines.exec (h : Refines s a) {op : Op κ ρ} (allowed : Allowed a op)
    (short : InRange a op) : Refines (s.exec op) (a.apply op) := by
  cases op with
  | init k =>
    refine h.store ⟨List.nodup_nil, rfl, rfl, rfl, trivial⟩ (by simp)
      fun l xs hl hl' x hx => ⟨rfl, by simp⟩
  | append k p =>
    obtain ⟨some_, fresh⟩ := allowed
    obtain ⟨xs, hk⟩ := isSome_iff_exists.mp some_
    have rep := h.represents k xs hk
    have short := short k
    simp only [Elems.apply, hk, map_some, update_self] at short ⊢
    exact h.add hk fresh (rep.append (fresh k xs hk)) (short _ rfl) (by simp; tauto)
      fun x => rep.append_frame (fresh k xs hk)
  | prepend k p =>
    obtain ⟨some_, fresh⟩ := allowed
    obtain ⟨xs, hk⟩ := isSome_iff_exists.mp some_
    have rep := h.represents k xs hk
    have short := short k
    simp only [Elems.apply, hk, map_some, update_self] at short ⊢
    exact h.add hk fresh (rep.prepend (fresh k xs hk)) (short _ rfl) (by simp)
      fun x => rep.prepend_frame (fresh k xs hk)
  | insertAfter k q p =>
    obtain ⟨⟨xs, hk, among⟩, fresh⟩ := allowed
    obtain ⟨left, right, rfl⟩ := List.append_of_mem among
    have rep := h.represents k _ hk
    have short := short k
    simp only [Elems.apply, mem_def.mp hk, map_some, update_self,
      flatMap_after rep.nodup] at short ⊢
    exact h.add hk fresh (rep.insertAfter (fresh k _ hk)) (short _ rfl) (by simp; tauto)
      fun x => rep.insertAfter_frame (fresh k _ hk)
  | remove k p =>
    obtain ⟨xs, hk, among⟩ := allowed
    obtain ⟨left, right, rfl⟩ := List.append_of_mem among
    have rep := h.represents k _ hk
    have short := short k
    simp only [Elems.apply, mem_def.mp hk, map_some, update_self,
      erase_middle rep.nodup] at short ⊢
    exact h.keep hk rep.remove (short _ rfl) (by simp; tauto) fun x => rep.remove_frame
  | moveToHead k p =>
    obtain ⟨xs, hk, among⟩ := allowed
    obtain ⟨left, right, rfl⟩ := List.append_of_mem among
    have rep := h.represents k _ hk
    have short := short k
    simp only [Elems.apply, mem_def.mp hk, map_some, update_self,
      erase_middle rep.nodup] at short ⊢
    exact h.keep hk rep.moveToHead (short _ rfl) (by simp; tauto) fun x => rep.moveToHead_frame
  | destroy k =>
    obtain ⟨xs, hk⟩ := isSome_iff_exists.mp allowed
    have rep := h.represents k xs hk
    have spec := rep.destroy_spec
    have empty : (s.view k).destroy.1.Represents [] := by
      rw [spec]
      exact ⟨List.nodup_nil, rfl, rfl, rfl, trivial⟩
    refine h.keep hk empty (by simp) (by simp) fun x out => ?_
    rw [spec]
    exact if_neg out
  | concat k l =>
    obtain ⟨other, some_, some_'⟩ := allowed
    obtain ⟨xs, hk⟩ := isSome_iff_exists.mp some_
    obtain ⟨ys, hl⟩ := isSome_iff_exists.mp some_'
    have rep := h.represents k xs hk
    have rep' := h.represents l ys hl
    have apart := h.disjoint k l xs ys hk hl other
    have short := short k
    simp only [Elems.apply, hk, hl, bind_some, map_some,
      update_of_ne other, update_self] at short ⊢
    have rep_concat := rep.concat rep' rfl apart
    have emptied : Refines (s.store l ⟨none, none, 0, s.link⟩) (update a l (some [])) :=
      h.keep hl ⟨List.nodup_nil, rfl, rfl, rfl, trivial⟩ (by simp) (by simp) fun _ _ => rfl
    have joined : Refines ((s.store l ⟨none, none, 0, s.link⟩).store k
        ((s.view k).concat (s.view l))) (update (update a l (some [])) k
          (some (xs ++ ys))) := by
      refine emptied.store rep_concat (short _ rfl) fun m zs hm hzs x hx => ?_
      by_cases hml : m = l
      · subst hml
        obtain rfl : [] = zs := by simpa using hzs
        cases hx
      · have hzs' : a m = some zs := by simpa [hml] using hzs
        have out : x ∉ xs ++ ys := by
          rw [List.mem_append]
          rintro (hin | hin)
          · exact h.disjoint m k zs xs hzs' hk hm x hx hin
          · exact h.disjoint m l zs ys hzs' hl hml x hx hin
        exact ⟨rep.concat_frame rep' out, out⟩
    rw [update_comm other, Lists.exec]
    by_cases empty : (s.view l).count = 0
    · have hys : ys = [] := by simpa [empty, eq_comm] using rep'.count
      have same : s.store l ⟨none, none, 0, s.link⟩ = s := by
        have hheader : s.headers l = ⟨none, none, toInt 0⟩ := by
          subst hys
          have head : (s.headers l).head = none := rep'.head
          have tail : (s.headers l).tail = none := rep'.tail
          have count : (s.headers l).count = toInt 0 := empty
          exact Header.ext head tail count
        rw [Lists.store, ← hheader, update_eq_self]
      rw [same] at joined
      simpa only [if_pos empty] using joined
    · simp only [if_neg empty]
      convert joined using 1
      simp only [Lists.store, update_comm other]

theorem refines_of_run {s : Lists κ ρ × Elems κ ρ}
    (hs : machine.Reaches (fun s op => Allowed s.2 op ∧ InRange s.2 op) s) : Refines s.1 s.2 := by
  refine hs.invariant (P := fun s => Refines s.1 s.2) (fun s start => ?_)
    fun s op t h guard hstep => ?_
  · have : s.2 = fun _ => none := start
    exact ⟨by simp [this], by simp [this]⟩
  · obtain rfl := some.inj hstep
    exact h.exec guard.1 guard.2

/-- In every run of allowed operations that keep the lists in range, each list is what is meant
to be in it. -/
theorem consistent_of_run {s : Lists κ ρ × Elems κ ρ}
    (hs : machine.Reaches (fun s op => Allowed s.2 op ∧ InRange s.2 op) s) {k : κ} {xs : List ρ}
    (hk : s.2 k = some xs) : Consistent (s.1.view k) xs := by
  have rep := (refines_of_run hs).represents k xs hk
  exact ⟨rep.head, rep.tail, rep.count, rep.forward, rep.backward⟩

end Steps

/-- A list of one address that has been prepended to as often as is in range. -/
theorem exists_run_of_length (n : Nat) (h : n ≤ intMax) :
    ∃ s : Lists Unit Nat × Elems Unit Nat,
      machine.Reaches (fun s op => Allowed s.2 op ∧ InRange s.2 op) s ∧
        s.2 () = some (List.range n).reverse := by
  induction n with
  | zero =>
    let s : Lists Unit Nat × Elems Unit Nat :=
      ⟨⟨fun _ => ⟨none, none, 0⟩, fun _ => ⟨none, none⟩⟩, fun _ => none⟩
    have start : machine.Reaches (fun s op => Allowed s.2 op ∧ InRange s.2 op) s := .init rfl
    refine ⟨_, start.step (a := .init ()) ⟨trivial, ?_⟩ rfl, ?_⟩
    · simp [InRange, Elems.apply]
    · simp [Elems.apply]
  | succ n ih =>
    obtain ⟨s, hs, hlist⟩ := ih (by omega)
    refine ⟨_, hs.step (a := .prepend () n) ⟨⟨by simp [hlist], ?_⟩, ?_⟩ rfl, ?_⟩
    · simp [hlist]
    · simp [InRange, Elems.apply, hlist, h]
    · simp [Elems.apply, hlist, List.range_succ]

/-- The count of a list that is longer by one is negative. -/
theorem not_consistent_of_long :
    ∃ (s : Lists Unit Nat × Elems Unit Nat) (xs : List Nat),
      machine.Reaches (fun s op => Allowed s.2 op) s ∧ s.2 () = some xs ∧
        ¬ Consistent (s.1.view ()) xs := by
  obtain ⟨s, hs, hlist⟩ := exists_run_of_length intMax (Nat.le_refl _)
  have rep := (refines_of_run hs).represents () _ hlist
  have fresh : intMax ∉ (List.range intMax).reverse := by simp
  have count := (rep.prepend fresh).count
  refine ⟨_, intMax :: (List.range intMax).reverse, (hs.mono fun _ _ h => h.1).step
    (a := .prepend () intMax) ⟨by simp [hlist], by simp [hlist]⟩ rfl, by simp [Elems.apply, hlist],
    fun h => ?_⟩
  have wrapped := h.count
  simp only [Lists.exec, Lists.view, Lists.store, update_self] at wrapped
  change toInt ((s.1.view ()).prepend intMax).count = _ at wrapped
  rw [count, List.length_cons, List.length_reverse, List.length_range] at wrapped
  exact absurd wrapped (by decide)

theorem consistent_of_two :
    ∃ s : Lists Unit Nat × Elems Unit Nat, s.2 () = some [1, 0] ∧
      Consistent (s.1.view ()) [1, 0] := by
  obtain ⟨s, hs, hlist⟩ := exists_run_of_length 2 (by decide)
  exact ⟨s, hlist, consistent_of_run hs hlist⟩

end Twapi.Base.ZList
