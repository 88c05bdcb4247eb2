import Mathlib.Data.List.Induction
import Mathlib.Tactic.Common
import Mathlib.Tactic.SplitIfs

/-!
Doubly linked lists whose links are in the elements.

* `DList` has pointers to the ends, a count, and the links of all elements.
* `Represents z xs` — the elements of `z` are `xs`, in this order.
* `Represents.remove`, `Represents.prepend`, `Represents.moveToHead`, `Represents.insertAfter`,
  `Represents.append`, `Represents.concat`, `destroy_spec` — what the operations do to the
  elements. The links of what is in no list of an operation stay as they are.
* `Represents.forward`, `Represents.backward` — the walks along the links from the ends.
-/

namespace Twapi.Lib

open List Option

@[ext] structure Link (ρ : Type) where
  prev : Option ρ
  next : Option ρ
deriving DecidableEq

structure DList (ρ : Type) where
  head : Option ρ
  tail : Option ρ
  count : Int
  link : ρ → Link ρ

namespace DList

variable {ρ : Type}

/-! ### Elements -/

/-- The links of `xs` between `before` and `after`. -/
def Segment (link : ρ → Link ρ) : Option ρ → List ρ → Option ρ → Prop
  | _, [], _ => True
  | before, p :: ps, after =>
    link p = ⟨before, ps.head?.or after⟩ ∧ Segment link (some p) ps after

structure Represents (z : DList ρ) (xs : List ρ) : Prop where
  nodup : xs.Nodup
  head : z.head = xs.head?
  tail : z.tail = xs.getLast?
  count : z.count = xs.length
  links : Segment z.link none xs none

variable {f g : ρ → Link ρ} {before after : Option ρ} {xs ys : List ρ} {z : DList ρ} {p : ρ}

theorem segment_append :
    Segment f before (xs ++ ys) after ↔
      Segment f before xs (ys.head?.or after) ∧
        Segment f (xs.getLast?.or before) ys after := by
  induction xs generalizing before with
  | nil => simp [Segment]
  | cons p ps ih =>
    rw [cons_append, Segment, Segment, ih, head?_append, Option.or_assoc, and_assoc]
    cases ps <;> simp [getLast?_cons]

theorem segment_append_whole :
    Segment f none (xs ++ ys) none ↔
      Segment f none xs ys.head? ∧ Segment f xs.getLast? ys none := by
  rw [segment_append, or_none, or_none]

theorem Segment.congr (seg : Segment f before xs after) (same : ∀ x ∈ xs, g x = f x) :
    Segment g before xs after := by
  induction xs generalizing before with
  | nil => trivial
  | cons p ps ih =>
    obtain ⟨at_p, rest⟩ := seg
    exact ⟨(same p (mem_cons_self ..)).trans at_p,
      ih rest fun x among => same x (mem_cons_of_mem _ among)⟩

/-- What comes after the elements is in the link of the last one. -/
theorem Segment.toAfter (seg : Segment f before xs after) (nodup : xs.Nodup)
    (after' : Option ρ)
    (last : ∀ x, xs.getLast? = some x → g x = { f x with next := after' })
    (same : ∀ x ∈ xs, xs.getLast? ≠ some x → g x = f x) : Segment g before xs after' := by
  induction xs generalizing before with
  | nil => trivial
  | cons p ps ih =>
    obtain ⟨at_p, rest⟩ := seg
    obtain ⟨fresh, nodup⟩ := nodup_cons.mp nodup
    cases ps with
    | nil => exact ⟨by rw [last p rfl, at_p]; rfl, trivial⟩
    | cons q qs =>
      rw [getLast?_cons_cons] at last same
      refine ⟨(same p (mem_cons_self ..) fun is_last =>
        fresh (mem_of_getLast? is_last)).trans at_p, ?_⟩
      exact ih rest nodup last fun x among => same x (mem_cons_of_mem _ among)

/-- What comes before them is in the link of the first one. -/
theorem Segment.toBefore (seg : Segment f before xs after) (nodup : xs.Nodup)
    (before' : Option ρ)
    (first : ∀ x, xs.head? = some x → g x = { f x with prev := before' })
    (same : ∀ x ∈ xs, xs.head? ≠ some x → g x = f x) : Segment g before' xs after := by
  cases xs with
  | nil => trivial
  | cons p ps =>
    obtain ⟨at_p, rest⟩ := seg
    obtain ⟨fresh, -⟩ := nodup_cons.mp nodup
    refine ⟨by rw [first p rfl, at_p], rest.congr fun x among => ?_⟩
    refine same x (mem_cons_of_mem _ among) fun is_first => fresh ?_
    rwa [some.inj is_first]

/-- The elements of a walk that ends after at most `n` of them. -/
def walk (toward : ρ → Option ρ) : (n : Nat) → (p : Option ρ) → Option (List ρ)
  | _, none => some []
  | 0, some _ => none
  | n + 1, some p => (walk toward n (toward p)).map (p :: ·)

theorem Segment.walk_next (seg : Segment f before xs none) :
    walk (fun p => (f p).next) xs.length xs.head? = some xs := by
  induction xs generalizing before with
  | nil => rfl
  | cons p ps ih =>
    obtain ⟨at_p, rest⟩ := seg
    rw [or_none] at at_p
    simp [walk, at_p, ih rest]

theorem Segment.walk_prev (seg : Segment f none xs after) :
    walk (fun p => (f p).prev) xs.length xs.getLast? = some xs.reverse := by
  induction xs using reverseRecOn generalizing after with
  | nil => rfl
  | append_singleton ps p ih =>
    obtain ⟨rest, at_p, -⟩ := segment_append.mp seg
    rw [or_none] at at_p
    simp [walk, at_p, ih rest]

namespace Represents

variable {left right : List ρ}

theorem link_eq (rep : Represents z (left ++ p :: right)) :
    z.link p = ⟨left.getLast?, right.head?⟩ := by
  rw [(segment_append_whole.mp rep.links).2.1, or_none]

theorem forward (rep : Represents z xs) :
    walk (fun p => (z.link p).next) xs.length z.head = some xs := by
  rw [rep.head]
  exact rep.links.walk_next

theorem backward (rep : Represents z xs) :
    walk (fun p => (z.link p).prev) xs.length z.tail = some xs.reverse := by
  rw [rep.tail]
  exact rep.links.walk_prev

theorem next (rep : Represents z (left ++ p :: right)) : (z.link p).next = right.head? := by
  rw [rep.link_eq]

end Represents

/-- A list without elements; all links are null. -/
def empty : DList ρ := ⟨none, none, 0, fun _ => ⟨none, none⟩⟩

theorem represents_empty : Represents (empty : DList ρ) [] :=
  ⟨nodup_nil, rfl, rfl, rfl, trivial⟩

variable [DecidableEq ρ]

/-! ### Operations -/

def setLink (z : DList ρ) (p : ρ) (l : Link ρ) : DList ρ :=
  { z with link := fun x => if x = p then l else z.link x }

def setPrev (z : DList ρ) (p : ρ) (q : Option ρ) : DList ρ :=
  z.setLink p { z.link p with prev := q }

def setNext (z : DList ρ) (p : ρ) (q : Option ρ) : DList ρ :=
  z.setLink p { z.link p with next := q }

def unlink (z : DList ρ) (p : ρ) : DList ρ :=
  let z := (z.link p).prev.elim z fun q => z.setNext q (z.link p).next
  let z := (z.link p).next.elim z fun q => z.setPrev q (z.link p).prev
  z.setLink p ⟨none, none⟩

/-- `p` comes before `cur`. -/
def preattach (z : DList ρ) (cur p : ρ) : DList ρ :=
  let z := z.setNext p (some cur)
  let z := z.setPrev p (z.link cur).prev
  let z := z.setPrev cur (some p)
  (z.link p).prev.elim z fun q => z.setNext q (some p)

def remove (z : DList ρ) (p : ρ) : DList ρ :=
  let z := if z.head = some p then { z with head := (z.link p).next } else z
  let z := if z.tail = some p then { z with tail := (z.link p).prev } else z
  let z := z.unlink p
  { z with count := z.count - 1 }

/-- A list with elements has a head. -/
def prepend (z : DList ρ) (p : ρ) : DList ρ :=
  let z :=
    if z.count = 0 then { z with tail := some p, head := some p }.setLink p ⟨none, none⟩
    else { z.head.elim z fun cur => z.preattach cur p with head := some p }
  { z with count := z.count + 1 }

def moveToHead (z : DList ρ) (p : ρ) : DList ρ := (z.remove p).prepend p

/-- `p` comes after `cur`. -/
def postattach (z : DList ρ) (cur p : ρ) : DList ρ :=
  let z := z.setPrev p (some cur)
  let z := z.setNext p (z.link cur).next
  let z := z.setNext cur (some p)
  (z.link p).next.elim z fun q => z.setPrev q (some p)

def insertAfter (z : DList ρ) (cur p : ρ) : DList ρ :=
  let z := z.postattach cur p
  let z := if z.tail = some cur then { z with tail := some p } else z
  { z with count := z.count + 1 }

/-- A list with elements has a tail. -/
def append (z : DList ρ) (p : ρ) : DList ρ :=
  let z :=
    if z.count = 0 then { z with tail := some p, head := some p }.setLink p ⟨none, none⟩
    else { z.tail.elim z fun cur => z.postattach cur p with tail := some p }
  { z with count := z.count + 1 }

/-- The elements of `w`, which has its links where `z` has, come after those of `z`. -/
def concat (z w : DList ρ) : DList ρ :=
  if w.count = 0 then z
  else
    let z :=
      if z.count = 0 then { z with head := w.head }
      else
        let z := z.tail.elim z fun q => z.setNext q w.head
        w.head.elim z fun q => z.setPrev q z.tail
    { z with tail := w.tail, count := z.count + w.count }

/-- The links from `p` on are made null; `n` bounds the steps. -/
def unlinkFrom (link : ρ → Link ρ) : (n : Nat) → (p : Option ρ) → (ρ → Link ρ) × List ρ
  | n + 1, some p =>
    let after := unlinkFrom (fun x => if x = p then ⟨none, none⟩ else link x) n (link p).next
    (after.1, p :: after.2)
  | _, _ => (link, [])

/-- Also the elements in the order in which they are unlinked. -/
def destroy (z : DList ρ) : DList ρ × List ρ :=
  let after := unlinkFrom z.link z.count.toNat z.head
  (⟨none, none, 0, after.1⟩, after.2)

/-! ### What they do to the links -/

section
variable {x q : ρ} {l : Link ρ} {v : Option ρ}

theorem setLink_link : (z.setLink q l).link x = if x = q then l else z.link x := rfl

@[simp] theorem setNext_prev : ((z.setNext q v).link x).prev = (z.link x).prev := by
  by_cases same : x = q <;> simp [setNext, setLink, same]

@[simp] theorem setNext_next :
    ((z.setNext q v).link x).next = if x = q then v else (z.link x).next := by
  by_cases same : x = q <;> simp [setNext, setLink, same]

@[simp] theorem setPrev_prev :
    ((z.setPrev q v).link x).prev = if x = q then v else (z.link x).prev := by
  by_cases same : x = q <;> simp [setPrev, setLink, same]

@[simp] theorem setPrev_next : ((z.setPrev q v).link x).next = (z.link x).next := by
  by_cases same : x = q <;> simp [setPrev, setLink, same]

theorem unlink_prev (other : x ≠ p) :
    ((z.unlink p).link x).prev =
      if (z.link p).next = some x then (z.link p).prev else (z.link x).prev := by
  unfold unlink
  cases before : (z.link p).prev <;> cases after : (z.link p).next <;>
    simp [setLink_link, other, before, after, eq_comm]

theorem unlink_next (other : x ≠ p) :
    ((z.unlink p).link x).next =
      if (z.link p).prev = some x then (z.link p).next else (z.link x).next := by
  unfold unlink
  cases before : (z.link p).prev <;> cases after : (z.link p).next <;>
    simp [setLink_link, other, before, after, eq_comm]

variable {cur : ρ}

theorem preattach_prev (other : p ≠ cur) (first : (z.link cur).prev = none) :
    ((z.preattach cur p).link x).prev =
      if x = cur then some p else if x = p then none else (z.link x).prev := by
  simp [preattach, first, other]

theorem preattach_next (other : p ≠ cur) (first : (z.link cur).prev = none) :
    ((z.preattach cur p).link x).next = if x = p then some cur else (z.link x).next := by
  simp [preattach, first, other]

theorem preattach_tail : (z.preattach cur p).tail = z.tail := by
  unfold preattach
  dsimp only
  cases ((((z.setNext p (some cur)).setPrev p _).setPrev cur _).link p).prev <;> rfl

theorem preattach_count : (z.preattach cur p).count = z.count := by
  unfold preattach
  dsimp only
  cases ((((z.setNext p (some cur)).setPrev p _).setPrev cur _).link p).prev <;> rfl

@[simp] theorem unlink_head : (z.unlink p).head = z.head := by
  unfold unlink
  cases (z.link p).prev <;> dsimp only [Option.elim] <;> split <;> rfl

@[simp] theorem unlink_tail : (z.unlink p).tail = z.tail := by
  unfold unlink
  cases (z.link p).prev <;> dsimp only [Option.elim] <;> split <;> rfl

@[simp] theorem unlink_count : (z.unlink p).count = z.count := by
  unfold unlink
  cases (z.link p).prev <;> dsimp only [Option.elim] <;> split <;> rfl

/-- The links of an element that is put after another one, and of the one after both. -/
theorem postattach_link (other : p ≠ cur) (after_p : (z.link cur).next ≠ some p) :
    (z.postattach cur p).link x =
      if x = p then ⟨some cur, (z.link cur).next⟩
      else ⟨if (z.link cur).next = some x then some p else (z.link x).prev,
        if x = cur then some p else (z.link x).next⟩ := by
  unfold postattach
  cases after : (z.link cur).next with
  | none =>
    refine Link.ext ?_ ?_ <;> simp [other, after] <;> grind
  | some q =>
    have hp : q ≠ p := fun h => after_p (h ▸ after)
    refine Link.ext ?_ ?_ <;> simp [other, after] <;> grind

@[simp] theorem postattach_head : (z.postattach cur p).head = z.head := by
  unfold postattach
  dsimp only
  cases ((((z.setPrev p (some cur)).setNext p _).setNext cur _).link p).next <;> rfl

@[simp] theorem postattach_tail : (z.postattach cur p).tail = z.tail := by
  unfold postattach
  dsimp only
  cases ((((z.setPrev p (some cur)).setNext p _).setNext cur _).link p).next <;> rfl

@[simp] theorem postattach_count : (z.postattach cur p).count = z.count := by
  unfold postattach
  dsimp only
  cases ((((z.setPrev p (some cur)).setNext p _).setNext cur _).link p).next <;> rfl

theorem remove_prev (other : x ≠ p) :
    ((z.remove p).link x).prev =
      if (z.link p).next = some x then (z.link p).prev else (z.link x).prev := by
  unfold remove
  dsimp only
  rw [unlink_prev other]
  split <;> split <;> rfl

theorem remove_next (other : x ≠ p) :
    ((z.remove p).link x).next =
      if (z.link p).prev = some x then (z.link p).next else (z.link x).next := by
  unfold remove
  dsimp only
  rw [unlink_next other]
  split <;> split <;> rfl

theorem remove_head : (z.remove p).head = if z.head = some p then (z.link p).next else z.head := by
  unfold remove
  dsimp only
  rw [unlink_head]
  split <;> split <;> rfl

theorem remove_tail : (z.remove p).tail = if z.tail = some p then (z.link p).prev else z.tail := by
  unfold remove
  dsimp only
  rw [unlink_tail]
  split <;> split <;> rfl

theorem remove_count : (z.remove p).count = z.count - 1 := by
  unfold remove
  dsimp only
  rw [unlink_count]
  split <;> split <;> rfl

end

/-! ### What they do to the elements -/

namespace Represents

variable {left right : List ρ}

/-- The links beside an element are set to one another. -/
theorem remove_link (rep : Represents z (left ++ p :: right)) {x : ρ} (other : x ≠ p) :
    (z.remove p).link x =
      ⟨if right.head? = some x then left.getLast? else (z.link x).prev,
        if left.getLast? = some x then right.head? else (z.link x).next⟩ :=
  Link.ext (by rw [remove_prev other, rep.link_eq]) (by rw [remove_next other, rep.link_eq])

theorem remove (rep : Represents z (left ++ p :: right)) :
    Represents (z.remove p) (left ++ right) := by
  obtain ⟨before, -, after⟩ := segment_append_whole.mp rep.links
  obtain ⟨nodup_left, nodup_p, apart⟩ := nodup_append.mp rep.nodup
  obtain ⟨fresh, nodup_right⟩ := nodup_cons.mp nodup_p
  have not_left : p ∉ left := fun among => apart p among p (mem_cons_self ..) rfl
  have disjoint : ∀ x ∈ left, x ∉ right := fun x among among' =>
    apart x among x (mem_cons_of_mem _ among') rfl
  refine ⟨?_, ?_, ?_, ?_, segment_append_whole.mpr ⟨?_, ?_⟩⟩
  · exact nodup_append.mpr ⟨nodup_left, nodup_right, fun x among y among' same =>
      disjoint x among (same ▸ among')⟩
  · rw [remove_head, rep.head, rep.next]
    cases left with
    | nil => exact if_pos rfl
    | cons q qs =>
      have other : q ≠ p := fun same => not_left (same ▸ mem_cons_self ..)
      exact if_neg fun first => other (some.inj first)
  · rw [remove_tail, rep.tail, rep.link_eq, getLast?_append, getLast?_append]
    cases right with
    | nil => simp
    | cons q qs =>
      obtain ⟨r, last⟩ : ∃ r, (q :: qs).getLast? = some r := ⟨_, getLast?_cons⟩
      have other : r ≠ p := fun same => fresh (same ▸ mem_of_getLast? last)
      rw [getLast?_cons_cons, last, some_or]
      exact if_neg fun same => other (some.inj same)
  · rw [remove_count, rep.count]
    simp
    omega
  · refine before.toAfter nodup_left _ (fun x last => ?_) fun x among inner => ?_
    · have among : x ∈ left := mem_of_getLast? last
      rw [rep.remove_link (fun same => not_left (same ▸ among)), if_pos last,
        if_neg fun first => disjoint x among (mem_of_head? first)]
    · rw [rep.remove_link (fun same => not_left (same ▸ among)), if_neg inner,
        if_neg fun first => disjoint x among (mem_of_head? first)]
  · refine after.toBefore nodup_right _ (fun x first => ?_) fun x among inner => ?_
    · have among : x ∈ right := mem_of_head? first
      rw [rep.remove_link (fun same => fresh (same ▸ among)), if_pos first,
        if_neg fun last => disjoint x (mem_of_getLast? last) among]
    · rw [rep.remove_link (fun same => fresh (same ▸ among)), if_neg inner,
        if_neg fun last => disjoint x (mem_of_getLast? last) among]

theorem prepend (rep : Represents z xs) (fresh : p ∉ xs) : Represents (z.prepend p) (p :: xs) := by
  have nodup : (p :: xs).Nodup := nodup_cons.mpr ⟨fresh, rep.nodup⟩
  have count := rep.count
  cases xs with
  | nil =>
    have empty : z.count = 0 := count
    simp only [DList.prepend, if_pos empty]
    refine ⟨nodup, rfl, rfl, ?_, setLink_link.trans (if_pos rfl), trivial⟩
    simp [setLink, empty]
  | cons q qs =>
    have other : p ≠ q := fun same => fresh (same ▸ mem_cons_self ..)
    obtain ⟨at_q, rest⟩ := rep.links
    have first : (z.link q).prev = none := by rw [at_q]
    have some_ : z.count ≠ 0 := by
      rw [count, length_cons]
      omega
    simp only [DList.prepend, if_neg some_, rep.head, head?_cons, Option.elim]
    refine ⟨nodup, rfl, ?_, ?_, ?_, ?_, ?_⟩
    · rw [preattach_tail, rep.tail, getLast?_cons_cons]
    · rw [preattach_count, count, length_cons, length_cons, length_cons]
      rfl
    · refine Link.ext ?_ ?_
      · rw [preattach_prev other first, if_neg other, if_pos rfl]
      · rw [preattach_next other first, if_pos rfl]
        rfl
    · refine Link.ext ?_ ?_
      · rw [preattach_prev other first, if_pos rfl]
      · rw [preattach_next other first, if_neg other.symm, at_q]
    · refine rest.congr fun x among => ?_
      have not_p : x ≠ p := fun same => fresh (same ▸ mem_cons_of_mem _ among)
      have not_q : x ≠ q := fun same => (nodup_cons.mp rep.nodup).1 (same ▸ among)
      refine Link.ext ?_ ?_
      · rw [preattach_prev other first, if_neg not_q, if_neg not_p]
      · rw [preattach_next other first, if_neg not_p]

theorem moveToHead (rep : Represents z (left ++ p :: right)) :
    Represents (z.moveToHead p) (p :: (left ++ right)) := by
  refine rep.remove.prepend fun among => ?_
  have nodup := (perm_middle.nodup_iff).mp rep.nodup
  exact (nodup_cons.mp nodup).1 among

/-- What is attached after an element comes next. -/
theorem postattach_segment (rep : Represents z (left ++ q :: right))
    (fresh : p ∉ left ++ q :: right) :
    Segment (z.postattach q p).link none (left ++ q :: p :: right) none := by
  obtain ⟨before, at_q, after⟩ := segment_append_whole.mp rep.links
  obtain ⟨-, nodup_q, apart⟩ := nodup_append.mp rep.nodup
  obtain ⟨fresh_q, nodup_right⟩ := nodup_cons.mp nodup_q
  have other : p ≠ q := fun same => fresh (by simp [same])
  have after_p : (z.link q).next ≠ some p := by
    rw [rep.next]
    exact fun first => fresh (by simp [mem_of_head? first])
  have link (x : ρ) := postattach_link (x := x) other after_p
  simp only [rep.next] at link
  refine segment_append_whole.mpr ⟨before.congr fun x among => ?_, ?_, ?_, ?_⟩
  · have not_p : x ≠ p := fun same => fresh (by simp [← same, among])
    have not_q : x ≠ q := apart x among q (mem_cons_self ..)
    have not_first : right.head? ≠ some x := fun first =>
      apart x among x (mem_cons_of_mem _ (mem_of_head? first)) rfl
    rw [link, if_neg not_p, if_neg not_first, if_neg not_q]
  · have not_first : right.head? ≠ some q := fun first => fresh_q (mem_of_head? first)
    rw [link, if_neg other.symm, if_neg not_first, if_pos rfl, at_q]
    rfl
  · rw [link, if_pos rfl, or_none]
  · refine after.toBefore nodup_right _ (fun x first => ?_) fun x among inner => ?_
    · have among := mem_of_head? first
      have not_p : x ≠ p := fun same => fresh (by simp [← same, among])
      have not_q : x ≠ q := fun same => fresh_q (same ▸ among)
      rw [link, if_neg not_p, if_pos first, if_neg not_q]
    · have not_p : x ≠ p := fun same => fresh (by simp [← same, among])
      have not_q : x ≠ q := fun same => fresh_q (same ▸ among)
      rw [link, if_neg not_p, if_neg inner, if_neg not_q]

theorem insertAfter (rep : Represents z (left ++ q :: right)) (fresh : p ∉ left ++ q :: right) :
    Represents (z.insertAfter q p) (left ++ q :: p :: right) := by
  have nodup : (left ++ q :: p :: right).Nodup := by
    have perm : (left ++ q :: p :: right).Perm (p :: (left ++ q :: right)) := by
      rw [append_cons, append_cons left q right]
      exact perm_middle
    exact perm.nodup_iff.mpr (nodup_cons.mpr ⟨fresh, rep.nodup⟩)
  have count := rep.count
  have links := rep.postattach_segment fresh
  unfold DList.insertAfter
  dsimp only
  cases right with
  | nil =>
    have tail : z.tail = some q := by simp [rep.tail]
    rw [postattach_tail, if_pos tail]
    refine ⟨nodup, ?_, by simp, ?_, links⟩
    · simp [rep.head, head?_append]
    · simp at count ⊢
      omega
  | cons r rs =>
    obtain ⟨l, last⟩ : ∃ l, (r :: rs).getLast? = some l := ⟨_, getLast?_cons⟩
    have tail : z.tail = some l := by simp [rep.tail, getLast?_append, last]
    have other : l ≠ q := by
      have fresh_q := (nodup_cons.mp (nodup_append.mp rep.nodup).2.1).1
      exact fun same => fresh_q (same ▸ mem_of_getLast? last)
    rw [postattach_tail, tail, if_neg (by simpa using other)]
    refine ⟨nodup, ?_, ?_, ?_, links⟩
    · simp [rep.head, head?_append]
    · simp [tail, getLast?_append, last]
    · simp at count ⊢
      omega

theorem append_eq (rep : Represents z (xs ++ [q])) : z.append p = z.insertAfter q p := by
  have tail : z.tail = some q := by simp [rep.tail]
  have some_ : z.count ≠ 0 := by
    rw [rep.count]
    simp
    omega
  simp [DList.append, DList.insertAfter, some_, tail]

theorem append (rep : Represents z xs) (fresh : p ∉ xs) : Represents (z.append p) (xs ++ [p]) := by
  have count := rep.count
  cases xs using reverseRecOn with
  | nil =>
    have empty : z.count = 0 := count
    simp only [DList.append, if_pos empty]
    refine ⟨nodup_cons.mpr ⟨fresh, nodup_nil⟩, rfl, rfl, ?_,
      setLink_link.trans (if_pos rfl), trivial⟩
    simp [setLink, empty]
  | append_singleton xs q =>
    rw [rep.append_eq, append_assoc]
    exact rep.insertAfter fresh

theorem concat {w : DList ρ} (rep : Represents z xs) (rep' : Represents w ys)
    (same : w.link = z.link) (disjoint : ∀ x ∈ xs, x ∉ ys) :
    Represents (z.concat w) (xs ++ ys) := by
  have nodup : (xs ++ ys).Nodup := nodup_append.mpr
    ⟨rep.nodup, rep'.nodup, fun x among y among' eq => disjoint x among (eq ▸ among')⟩
  have count := rep.count
  have count' := rep'.count
  unfold DList.concat
  cases ys with
  | nil => simpa [count'] using rep
  | cons q ys =>
    rw [if_neg (by rw [count']; simp; omega)]
    have tail : w.tail = (xs ++ q :: ys).getLast? := by
      rw [rep'.tail, getLast?_append, getLast?_cons, some_or]
    cases xs using reverseRecOn with
    | nil =>
      rw [if_pos (by simpa using count)]
      refine ⟨nodup, rep'.head, tail, by simp [count, count'], ?_⟩
      simpa [same] using rep'.links
    | append_singleton xs l =>
      have last : z.tail = some l := by simp [rep.tail]
      have first : w.head = some q := rep'.head
      have other : l ≠ q := fun eq => disjoint l (by simp) (by simp [eq])
      rw [if_neg (by rw [count]; simp; omega), last, first]
      have link (x : ρ) : ((z.setNext l (some q)).setPrev q z.tail).link x =
          ⟨if x = q then some l else (z.link x).prev,
            if x = l then some q else (z.link x).next⟩ :=
        Link.ext (by simp [last]) (by simp)
      refine ⟨nodup, ?_, tail, ?_, segment_append_whole.mpr ⟨?_, ?_⟩⟩
      · simp [setPrev, setNext, setLink, rep.head, head?_append]
      · simp [setPrev, setNext, setLink, count, count']
        omega
      · refine rep.links.toAfter rep.nodup _ (fun x is_last => ?_) fun x among inner => ?_
        · obtain rfl : l = x := by simpa using is_last
          exact (link l).trans (by rw [if_neg other, if_pos rfl]; simp)
        · have not_l : x ≠ l := fun eq => inner (by simp [eq])
          have not_q : x ≠ q := fun eq => disjoint x among (by simp [eq])
          exact (link x).trans (by rw [if_neg not_q, if_neg not_l])
      · refine (same ▸ rep'.links).toBefore rep'.nodup _ (fun x is_first => ?_)
          fun x among inner => ?_
        · obtain rfl : q = x := by simpa using is_first
          have not_l : q ≠ l := other.symm
          refine (link q).trans ?_
          simp [not_l]
        · have not_q : x ≠ q := fun eq => inner (by simp [eq])
          have not_l : x ≠ l := fun eq => disjoint x (by simp [eq]) among
          exact (link x).trans (by rw [if_neg not_q, if_neg not_l])

/-- Enough steps make the links of all elements null, one after the other. -/
theorem unlinkFrom_segment {n : Nat} (seg : Segment f before xs none) (nodup : xs.Nodup)
    (enough : xs.length ≤ n) :
    unlinkFrom f n xs.head? = (fun x => if x ∈ xs then ⟨none, none⟩ else f x, xs) := by
  induction xs generalizing f before n with
  | nil => cases n <;> simp [unlinkFrom]
  | cons p ps ih =>
    obtain ⟨at_p, rest⟩ := seg
    obtain ⟨fresh, nodup⟩ := nodup_cons.mp nodup
    cases n with
    | zero => simp at enough
    | succ n =>
      have rest' : Segment (fun x => if x = p then ⟨none, none⟩ else f x) (some p) ps none :=
        rest.congr fun x among => if_neg fun eq : x = p => fresh (eq ▸ among)
      have next : (f p).next = ps.head? := by rw [at_p, or_none]
      have := ih rest' nodup (by simpa using enough)
      simp only [head?_cons, unlinkFrom, next, this, mem_cons]
      congr 1
      funext x
      grind

theorem destroy_spec (rep : Represents z xs) :
    z.destroy = (⟨none, none, 0, fun x => if x ∈ xs then ⟨none, none⟩ else z.link x⟩, xs) := by
  have enough : xs.length ≤ z.count.toNat := by simp [rep.count]
  rw [destroy, rep.head, unlinkFrom_segment rep.links rep.nodup enough]

end Represents

/-! ### What is in no list of an operation -/

namespace Represents

variable {left right : List ρ} {x q : ρ}

theorem insertAfter_frame (rep : Represents z (left ++ q :: right))
    (fresh : p ∉ left ++ q :: right) (out : x ∉ left ++ q :: p :: right) :
    (z.insertAfter q p).link x = z.link x := by
  have link : (z.insertAfter q p).link = (z.postattach q p).link := by
    unfold DList.insertAfter
    dsimp only
    split <;> rfl
  have other : p ≠ q := fun same => fresh (by simp [same])
  have after_p : right.head? ≠ some p := fun first => fresh (by simp [mem_of_head? first])
  have after_x : right.head? ≠ some x := fun first => out (by simp [mem_of_head? first])
  have not_p : x ≠ p := fun same => out (by simp [same])
  have not_q : x ≠ q := fun same => out (by simp [same])
  rw [link, postattach_link other (by rwa [rep.next]), rep.next, if_neg not_p, if_neg after_x,
    if_neg not_q]

theorem append_frame (rep : Represents z xs) (fresh : p ∉ xs) (out : x ∉ xs ++ [p]) :
    (z.append p).link x = z.link x := by
  have count := rep.count
  cases xs using reverseRecOn with
  | nil =>
    have empty : z.count = 0 := count
    simp only [DList.append, if_pos empty]
    exact setLink_link.trans (if_neg (by simpa using out))
  | append_singleton xs q =>
    rw [rep.append_eq]
    exact rep.insertAfter_frame fresh (by simpa using out)

theorem prepend_frame (rep : Represents z xs) (fresh : p ∉ xs) (out : x ∉ p :: xs) :
    (z.prepend p).link x = z.link x := by
  have count := rep.count
  have not_p : x ≠ p := fun same => out (by simp [same])
  cases xs with
  | nil =>
    have empty : z.count = 0 := count
    simp only [DList.prepend, if_pos empty]
    exact setLink_link.trans (if_neg not_p)
  | cons q qs =>
    have other : p ≠ q := fun same => fresh (by simp [same])
    have not_q : x ≠ q := fun same => out (by simp [same])
    have first : (z.link q).prev = none := by rw [rep.links.1]
    have some_ : z.count ≠ 0 := by
      rw [count, length_cons]
      omega
    simp only [DList.prepend, if_neg some_, rep.head, head?_cons, Option.elim]
    refine Link.ext ?_ ?_
    · rw [preattach_prev other first, if_neg not_q, if_neg not_p]
    · rw [preattach_next other first, if_neg not_p]

theorem remove_frame (rep : Represents z (left ++ p :: right)) (out : x ∉ left ++ p :: right) :
    (z.remove p).link x = z.link x := by
  have not_p : x ≠ p := fun same => out (by simp [same])
  have first : right.head? ≠ some x := fun first => out (by simp [mem_of_head? first])
  have last : left.getLast? ≠ some x := fun last => out (by simp [mem_of_getLast? last])
  rw [rep.remove_link not_p, if_neg first, if_neg last]

theorem moveToHead_frame (rep : Represents z (left ++ p :: right))
    (out : x ∉ left ++ p :: right) : (z.moveToHead p).link x = z.link x := by
  have out' : x ∉ p :: (left ++ right) := fun among => out (by simp at among ⊢; tauto)
  have fresh : p ∉ left ++ right :=
    (nodup_cons.mp (perm_middle.nodup_iff.mp rep.nodup)).1
  rw [DList.moveToHead, rep.remove.prepend_frame fresh out', rep.remove_frame out]

theorem concat_frame {w : DList ρ} (rep : Represents z xs) (rep' : Represents w ys)
    (out : x ∉ xs ++ ys) : (z.concat w).link x = z.link x := by
  have not_last : z.tail ≠ some x := fun last =>
    out (by simp [mem_of_getLast? (rep.tail ▸ last)])
  have not_first : w.head ≠ some x := fun first =>
    out (by simp [mem_of_head? (rep'.head ▸ first)])
  unfold DList.concat
  split_ifs
  · rfl
  · rfl
  · cases last : z.tail <;> cases first : w.head <;> refine Link.ext ?_ ?_ <;>
      simp [last] <;> grind

end Represents

end DList

end Twapi.Lib
