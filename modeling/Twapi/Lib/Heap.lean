import Mathlib.Data.List.Pairwise
import Mathlib.Tactic.Common

/-!
A heap seen from the program that obtains blocks from it and releases them.

Only the bookkeeping is modelled: which blocks are outstanding, how many were
obtained, and the log of releases. A block's `id` numbers it in the order it
was obtained, so a reused address is a different block.

* `Span` — an address range. `Apart` places one range before the other, also an
  empty one, so it survives cutting a range in two (`Apart.mono`).
* `Allocator` — an allocation function together with the law its answers
  obey: it may fail, or it returns a fresh, aligned block that is at least as
  large as requested. It may answer by any rule, the whole history included.
* `bump` — an allocator that obeys the law.
* `Heap.Lawful` — what obtaining by the law and releasing keep: outstanding
  blocks do not overlap, and every block obtained is either outstanding or
  was released, once (`ledger`).
* `Heap.Lawful.release` — releasing an outstanding block removes exactly it.
-/

namespace Twapi.Lib

open List

/-- The addresses `lo ≤ x < hi`. -/
structure Span where
  lo : Nat
  hi : Nat
deriving DecidableEq

namespace Span

/-- Neither range reaches into the other. -/
def Apart (s t : Span) : Prop := s.hi ≤ t.lo ∨ t.hi ≤ s.lo

/-- `s` lies inside `t`. -/
def Within (s t : Span) : Prop := t.lo ≤ s.lo ∧ s.hi ≤ t.hi

instance (s t : Span) : Decidable (s.Apart t) := inferInstanceAs (Decidable (_ ∨ _))
instance (s t : Span) : Decidable (s.Within t) := inferInstanceAs (Decidable (_ ∧ _))

theorem Apart.symm {s t : Span} (h : s.Apart t) : t.Apart s := Or.symm h

theorem Within.refl (s : Span) : s.Within s := ⟨Nat.le_refl _, Nat.le_refl _⟩

/-- Ranges inside ranges that are apart are apart. -/
theorem Apart.mono {s t s' t' : Span} (h : s.Apart t) (hs : s'.Within s) (ht : t'.Within t) :
    s'.Apart t' := by
  rcases h with h | h
  · exact .inl (Nat.le_trans hs.2 (Nat.le_trans h ht.1))
  · exact .inr (Nat.le_trans ht.2 (Nat.le_trans h hs.1))

end Span

/-- A block obtained from the heap. -/
structure Block where
  id : Nat
  addr : Nat
  size : Nat
deriving DecidableEq

def Block.span (b : Block) : Span := ⟨b.addr, b.addr + b.size⟩

def Block.Apart (b c : Block) : Prop := b.span.Apart c.span

instance : Std.Symm Block.Apart := ⟨fun _ _ h => Span.Apart.symm h⟩

/-- `freed` lists the ids of released blocks, the latest first. -/
structure Heap where
  outstanding : List Block
  obtained : Nat
  freed : List Nat
deriving DecidableEq

namespace Heap

def empty : Heap := ⟨[], 0, []⟩

/-- Record a block of `size` bytes at `addr`. -/
def obtain (h : Heap) (addr size : Nat) : Heap :=
  { h with outstanding := ⟨h.obtained, addr, size⟩ :: h.outstanding, obtained := h.obtained + 1 }

/-- Release the outstanding block at `addr`; `none` if there is none there. -/
def release (h : Heap) (addr : Nat) : Option Heap :=
  (h.outstanding.find? fun b => b.addr == addr).map fun b =>
    { h with outstanding := h.outstanding.eraseP fun b => b.addr == addr, freed := b.id :: h.freed }

@[simp] theorem obtained_obtain (h : Heap) (a n : Nat) :
    (h.obtain a n).obtained = h.obtained + 1 := rfl

theorem mem_obtain {h : Heap} {a n : Nat} {b : Block} :
    b ∈ (h.obtain a n).outstanding ↔ b = ⟨h.obtained, a, n⟩ ∨ b ∈ h.outstanding := by
  simp [obtain]

end Heap

/-- Two heaps hold the same blocks among the first `id` obtained, and the
second is the later one. -/
structure Heap.AgreeBelow (id : Nat) (h h' : Heap) : Prop where
  mem : ∀ b : Block, b.id < id → (b ∈ h'.outstanding ↔ b ∈ h.outstanding)
  obtained : h.obtained ≤ h'.obtained

theorem Heap.AgreeBelow.refl (id : Nat) (h : Heap) : Heap.AgreeBelow id h h :=
  ⟨fun _ _ => Iff.rfl, Nat.le_refl _⟩

theorem Heap.AgreeBelow.mono {id id' : Nat} {h h' : Heap} (a : Heap.AgreeBelow id' h h')
    (le : id ≤ id') : Heap.AgreeBelow id h h' :=
  ⟨fun b hb => a.mem b (Nat.lt_of_lt_of_le hb le), a.obtained⟩

/-- A new block changes nothing among the earlier ones. -/
theorem Heap.AgreeBelow.obtain (h : Heap) (a n : Nat) :
    Heap.AgreeBelow h.obtained h (h.obtain a n) where
  mem b hb := by
    rw [Heap.mem_obtain]
    constructor
    · rintro (rfl | hmem)
      · exact absurd hb (Nat.lt_irrefl _)
      · exact hmem
    · exact .inr
  obtained := Nat.le_succ _

/-- The platform's bounds: blocks are aligned to `align`, smaller than `size`
bytes, and lie below the address `addr`. -/
structure Limits where
  align : Nat
  size : Nat
  addr : Nat

/-- A block of `n` bytes at `a` that may answer a request of `req` bytes. -/
structure Fresh (L : Limits) (h : Heap) (req a n : Nat) : Prop where
  requested : req ≤ n
  pos : 0 < n
  aligned : a % L.align = 0
  nonnull : a ≠ 0
  sized : n < L.size
  bounded : a + n ≤ L.addr
  apart : ∀ b ∈ h.outstanding, b.span.Apart ⟨a, a + n⟩

/-- An allocation function that may fail or else answers by the law. -/
structure Allocator (L : Limits) where
  fn : Heap → Nat → Option (Nat × Nat)
  lawful : ∀ {h req a n}, fn h req = some (a, n) → Fresh L h req a n

namespace Heap

/-- The first address above every outstanding block. -/
def ceiling (h : Heap) : Nat := h.outstanding.foldr (fun b top => max (b.addr + b.size) top) 0

theorem le_ceiling {h : Heap} {b : Block} (hb : b ∈ h.outstanding) : b.addr + b.size ≤ h.ceiling := by
  unfold ceiling
  revert hb
  induction h.outstanding with
  | nil => exact fun hb => absurd hb not_mem_nil
  | cons c bs ih =>
    intro hb
    rcases mem_cons.mp hb with rfl | hb
    · exact Nat.le_max_left _ _
    · exact Nat.le_trans (ih hb) (Nat.le_max_right _ _)

end Heap

/-- The allocator that answers from above everything outstanding, with exactly
as much as was requested. -/
def bump (L : Limits) (align : 0 < L.align) : Allocator L where
  fn h req :=
    let a := (h.ceiling / L.align + 1) * L.align
    let n := max req 1
    if n < L.size ∧ a + n ≤ L.addr then some (a, n) else none
  lawful := by
    intro h req a n hfn
    simp only [Option.ite_none_right_eq_some, Option.some.injEq, Prod.mk.injEq] at hfn
    obtain ⟨⟨hsize, haddr⟩, rfl, rfl⟩ := hfn
    have hceil : h.ceiling < (h.ceiling / L.align + 1) * L.align := by
      rw [Nat.mul_comm]
      exact Nat.lt_mul_div_succ _ align
    refine ⟨Nat.le_max_left _ _, Nat.le_max_right _ _, Nat.mul_mod_left _ _, Nat.ne_of_gt ?_,
      hsize, haddr, fun b hb => Or.inl ?_⟩
    · exact Nat.zero_lt_of_lt hceil
    · exact Nat.le_trans (Heap.le_ceiling hb) (Nat.le_of_lt hceil)

namespace Heap

/-- The invariant of a heap whose blocks all came from a lawful allocator. -/
structure Lawful (L : Limits) (h : Heap) : Prop where
  ledger : ∀ id < h.obtained, h.freed.count id + (h.outstanding.map Block.id).count id = 1
  unborn : ∀ id ≥ h.obtained, h.freed.count id + (h.outstanding.map Block.id).count id = 0
  apart : h.outstanding.Pairwise Block.Apart
  block : ∀ b ∈ h.outstanding,
    0 < b.size ∧ b.addr % L.align = 0 ∧ b.addr ≠ 0 ∧ b.size < L.size ∧ b.addr + b.size ≤ L.addr

variable {L : Limits} {h : Heap}

theorem Lawful.empty : Lawful L Heap.empty :=
  ⟨by simp [Heap.empty], by simp [Heap.empty], .nil, by simp [Heap.empty]⟩

variable {b c : Block}

theorem Lawful.id_lt (w : Lawful L h) (hb : b ∈ h.outstanding) :
    b.id < h.obtained := by
  by_contra hlt
  have hcount := w.unborn b.id (Nat.le_of_not_lt hlt)
  have hpos : 0 < (h.outstanding.map Block.id).count b.id :=
    count_pos_iff.mpr (mem_map_of_mem hb)
  omega

/-- Two outstanding blocks that overlap are one block. -/
theorem Lawful.eq_of_not_apart (w : Lawful L h) (hb : b ∈ h.outstanding) (hc : c ∈ h.outstanding)
    (hbc : ¬ b.span.Apart c.span) : b = c := by
  by_contra hne
  exact hbc (w.apart.forall hb hc hne)

theorem Lawful.eq_of_addr (w : Lawful L h) (hb : b ∈ h.outstanding) (hc : c ∈ h.outstanding)
    (hbc : b.addr = c.addr) : b = c := by
  refine w.eq_of_not_apart hb hc ?_
  have hbpos := (w.block b hb).1
  have hcpos := (w.block c hc).1
  simp only [Span.Apart, Block.span]
  omega

/-- Distinct outstanding blocks do not overlap. -/
theorem Lawful.apart_of_ne (w : Lawful L h) (hb : b ∈ h.outstanding) (hc : c ∈ h.outstanding)
    (hbc : b.addr ≠ c.addr) : b.span.Apart c.span :=
  w.apart.forall hb hc fun heq => hbc (congrArg Block.addr heq)

theorem Lawful.obtain (w : Lawful L h) {req a n : Nat} (f : Fresh L h req a n) :
    Lawful L (h.obtain a n) where
  ledger id hid := by
    simp only [Heap.obtain, map_cons, count_cons, beq_iff_eq] at hid ⊢
    rcases Nat.lt_succ_iff_lt_or_eq.mp hid with hlt | rfl
    · have := w.ledger id hlt
      rw [if_neg (by omega)]
      omega
    · have := w.unborn h.obtained (Nat.le_refl _)
      rw [if_pos rfl]
      omega
  unborn id hid := by
    have := w.unborn id (by simp only [obtained_obtain] at hid; omega)
    simp only [Heap.obtain, map_cons, count_cons, beq_iff_eq] at hid ⊢
    rw [if_neg (by omega)]
    omega
  apart := pairwise_cons.mpr ⟨fun b hb => Span.Apart.symm (f.apart b hb), w.apart⟩
  block b hb := by
    rcases mem_obtain.mp hb with rfl | hb
    · exact ⟨f.pos, f.aligned, f.nonnull, f.sized, f.bounded⟩
    · exact w.block b hb

/-- Releasing an outstanding block succeeds, removes exactly that block and
logs its id. -/
theorem Lawful.release (w : Lawful L h) (hb : b ∈ h.outstanding) :
    ∃ h', h.release b.addr = some h' ∧ Lawful L h' ∧ h'.obtained = h.obtained ∧
      h'.freed = b.id :: h.freed ∧ ∀ c, c ∈ h'.outstanding ↔ c ∈ h.outstanding ∧ c ≠ b := by
  obtain ⟨d, hd⟩ : ∃ d, (h.outstanding.find? fun c => c.addr == b.addr) = some d := by
    rw [← Option.isSome_iff_exists, find?_isSome]
    exact ⟨b, hb, by simp⟩
  obtain ⟨hdaddr, l₁, l₂, hsplit, hnot⟩ := find?_eq_some_iff_append.mp hd
  have hdmem : d ∈ h.outstanding := by simp [hsplit]
  obtain rfl : d = b := w.eq_of_addr hdmem hb (by simpa using hdaddr)
  have herase : (h.outstanding.eraseP fun c => c.addr == d.addr) = l₁ ++ l₂ := by
    rw [hsplit, eraseP_append_right _ (by simpa using hnot), eraseP_cons_of_pos (by simp)]
  have hsub : (l₁ ++ l₂).Sublist h.outstanding := by
    rw [hsplit]
    exact List.Sublist.append_left (sublist_cons_self _ _) _
  have happart := hsplit ▸ w.apart
  -- `d` itself occurs only once: it would overlap a second copy of itself
  have hfar : ∀ c ∈ l₁ ++ l₂, c ≠ d := by
    rintro c hc rfl
    have hself : ¬ c.span.Apart c.span := by
      have := (w.block c hb).1
      simp only [Span.Apart, Block.span]
      omega
    rw [pairwise_append] at happart
    rcases mem_append.mp hc with hc | hc
    · exact hself (happart.2.2 c hc c mem_cons_self)
    · exact hself ((pairwise_cons.mp happart.2.1).1 c hc)
  have hcount : ∀ id, (d.id :: h.freed).count id + ((l₁ ++ l₂).map Block.id).count id =
      h.freed.count id + (h.outstanding.map Block.id).count id := by
    intro id
    rw [hsplit]
    simp only [map_append, map_cons, count_append, count_cons]
    omega
  refine ⟨{ h with outstanding := l₁ ++ l₂, freed := d.id :: h.freed }, ?_, ⟨?_, ?_, ?_, ?_⟩,
    rfl, rfl, ?_⟩
  · simp [Heap.release, hd, herase]
  · intro id hid
    exact (hcount id).trans (w.ledger id hid)
  · intro id hid
    exact (hcount id).trans (w.unborn id hid)
  · exact w.apart.sublist hsub
  · intro c hc
    exact w.block c (hsub.subset hc)
  · intro c
    constructor
    · intro hc
      exact ⟨hsub.subset hc, hfar c hc⟩
    · rintro ⟨hc, hne⟩
      rw [hsplit] at hc
      simp only [mem_append, mem_cons] at hc ⊢
      tauto

/-- A block obtained was released exactly once if and only if it is no longer
outstanding. -/
theorem Lawful.freed_once_iff (w : Lawful L h) {id : Nat} (hid : id < h.obtained) :
    h.freed.count id = 1 ↔ ∀ b ∈ h.outstanding, b.id ≠ id := by
  have hcount := w.ledger id hid
  have hzero : (h.outstanding.map Block.id).count id = 0 ↔ ∀ b ∈ h.outstanding, b.id ≠ id := by
    rw [count_eq_zero, mem_map]
    exact ⟨fun hn b hb heq => hn ⟨b, hb, heq⟩, fun hn ⟨b, hb, heq⟩ => hn b hb heq⟩
  rw [← hzero]
  omega

end Heap

end Twapi.Lib
