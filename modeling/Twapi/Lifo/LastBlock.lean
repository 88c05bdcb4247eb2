import Twapi.Lifo.Calls

/-!
The operations on the latest block.

* `TopLast.cases` — the latest block is in the room's chunk (`InRoom`) or is
  the first big block (`IsBig`); the code's comparison of `lm_last_alloc` with
  the head of the big block list tells which.
* `InRoom.resize`, `IsBig.same`, `IsBig.move` — what can be done with it.
* `TopLast.expandLast`, `TopLast.shrinkLast`, `TopLast.resizeLast` — the
  operations.
-/

namespace Twapi.Lifo

open Base Lib MemLifoMark

variable {A : ChunkAllocator} {base : MemLifoChunk} {l : MemLifo} {f : Frame} {fs : List Frame}

/-! ### Where the latest block is -/

/-- The latest block lies just before the free pointer. -/
structure InRoom (base : MemLifoChunk) (l : MemLifo) (f : Frame) (fs : List Frame) : Prop where
  nonzero : l.top.lmLastAlloc ≠ 0
  notBig : l.top.isBigBlock = false
  oldSize : l.top.lmLastAlloc + l.top.oldSize = l.top.lmFreeptr
  holds : ∃ b rest, f.live = b :: rest ∧ b.size ≤ l.top.oldSize
  aligned : l.top.lmLastAlloc % 8 = 0
  retract : Level l.heap l.heap.obtained (retracted l.top) f.drop (chunksOf base l.below)
    (bigBlocksOf l.below) (occupied l.below fs)

/-- The latest block is the body of the first big block `c`, in front of `rest`. -/
structure IsBig (base : MemLifoChunk) (l : MemLifo) (f : Frame) (fs : List Frame)
    (c : MemLifoChunk) (rest : List MemLifoChunk) : Prop where
  nonzero : l.top.lmLastAlloc ≠ 0
  isBig : l.top.isBigBlock = true
  list : l.top.lmBigBlocks = c :: rest
  last : l.top.lmLastAlloc = c.addr + sizeofChunk
  oldSize : l.top.lmLastAlloc + l.top.oldSize = c.lcEnd
  holds : ∃ b live, f.live = b :: live ∧ b.size ≤ l.top.oldSize
  between : Between l.heap f.since l.heap.obtained c
  unlist : Level l.heap l.heap.obtained (unlisted l.top rest) f.drop (chunksOf base l.below)
    (bigBlocksOf l.below) (occupied l.below fs)

/-- Two listed blocks do not overlap. -/
theorem Ready.apart_listed (w : Ready base l f fs) {c d : MemLifoChunk}
    (hc : c ∈ l.top.lmChunks ++ l.top.lmBigBlocks) (hd : d ∈ l.top.lmChunks ++ l.top.lmBigBlocks)
    (hne : c.addr ≠ d.addr) : Span.Apart ⟨c.addr, c.lcEnd⟩ ⟨d.addr, d.lcEnd⟩ := by
  obtain ⟨bc, hbc, ⟨hcaddr, hcend⟩, -⟩ := w.listed c hc
  obtain ⟨bd, hbd, ⟨hdaddr, hdend⟩, -⟩ := w.listed d hd
  have hapart := w.lawful.apart_of_ne hbc hbd (by omega)
  rwa [Block.span, Block.span, hcend, hdend, hcaddr, hdaddr] at hapart

/-- A listed block has room for its descriptor. -/
theorem Ready.wide_listed (w : Ready base l f fs) {c : MemLifoChunk}
    (hc : c ∈ l.top.lmChunks ++ l.top.lmBigBlocks) :
    c.addr + sizeofChunk ≤ c.lcEnd ∧ 0 < c.addr ∧ c.lcEnd < c.addr + 4294967296 ∧
      c.lcEnd ≤ 9223372036854775808 := by
  obtain ⟨-, hblock⟩ := (w.listed c hc).block w.lawful
  obtain ⟨b, hb, ⟨haddr, hend⟩, -⟩ := w.listed c hc
  refine ⟨?_, hblock⟩
  have := w.wide b hb
  omega

/-- Another listed block than the current chunk. -/
theorem Ready.big_ne (w : Ready base l f fs) {c : MemLifoChunk} (hc : c ∈ l.top.lmBigBlocks) :
    c.addr ≠ l.top.lmChunk.addr := by
  have nodup := w.level.nodup
  rw [List.map_append, List.nodup_append] at nodup
  intro heq
  exact nodup.2.2 l.top.lmChunk.addr (List.mem_map_of_mem (by simp [lmChunks])) c.addr
    (List.mem_map_of_mem hc) heq.symm

/-- An address inside the current chunk is not the first big block's. -/
theorem Ready.notBig (w : Ready base l f fs) (hlo : l.top.lmChunk.addr + sizeofChunk ≤ l.top.lmLastAlloc)
    (hhi : l.top.lmLastAlloc ≤ l.top.lmChunk.lcEnd) : l.top.isBigBlock = false := by
  have hchunk := w.chunk
  rw [isBigBlock, decide_eq_false_iff_not]
  cases hbig : l.top.lmBigBlocks with
  | nil =>
    have hnull : addPtr (listPtr []) sizeofChunk = sizeofChunk := rfl
    rw [hnull]
    omega
  | cons c rest =>
    have hmem : c ∈ l.top.lmBigBlocks := by simp [hbig]
    have hwide := w.wide_listed (List.mem_append_right _ hmem)
    have hapart := w.apart_listed (List.mem_append_right _ hmem)
      (List.mem_append_left _ (by simp [lmChunks])) (w.big_ne hmem)
    have hptr : addPtr (listPtr (c :: rest)) sizeofChunk = c.addr + sizeofChunk :=
      addPtr_of_lt (by simp only [listPtr, sizeofChunk]; omega)
    have hpos : 0 < sizeofChunk := by decide
    rw [hptr]
    simp only [Span.Apart] at hapart
    omega

theorem TopLast.cases (w : Ready base l f fs) (last : TopLast l f fs) :
    (l.top.lmLastAlloc = 0 ∧ f.live = []) ∨ InRoom base l f fs ∨
      ∃ c rest, IsBig base l f fs c rest := by
  have hchunk := w.chunk
  have hroom := w.level.room_hi
  unfold TopLast at last
  cases hlive : f.live with
  | nil =>
    rw [hlive] at last
    cases last with
    | none h => exact .inl ⟨h, rfl⟩
  | cons b rest =>
    rw [hlive] at last
    refine .inr ?_
    have haligned := w.level.live_aligned b (by simp [hlive])
    cases last with
    | chunk hptr hlo hhi hclear =>
      have hnot := w.notBig hlo (by omega)
      have hsize : l.top.oldSize = l.top.lmFreeptr - l.top.lmLastAlloc := by
        simp only [oldSize, hnot]
        exact ofInt_ptrDiff32 (by omega) (by omega)
      exact .inl ⟨by omega, hnot, by omega, ⟨b, rest, hlive, by omega⟩, hptr ▸ haligned,
        w.level.retract hlive hptr hlo hhi hclear⟩
    | bigBlock hlist hptr hlast hhi hinside =>
      rename_i c new
      obtain ⟨unlist, between⟩ := w.level.unlist hlive hlist hinside
      have hblock := w.wide_listed (List.mem_append_right _ (by simp [hlist] : c ∈ l.top.lmBigBlocks))
      have hadd : addPtr c.addr sizeofChunk = c.addr + sizeofChunk :=
        addPtr_of_lt (by simp only [sizeofChunk]; omega)
      have hbig : l.top.isBigBlock = true := by
        simp only [isBigBlock, hlist, listPtr, hadd, hlast, decide_true]
      have hsize : l.top.oldSize = c.lcEnd - c.addr - sizeofChunk := by
        simp only [oldSize, hbig, hlist]
        rw [ofInt_ptrDiff32 (by omega) (by omega)]
        simp only [dword, sizeofChunk] at hblock ⊢
        omega
      exact .inr ⟨c, _, by omega, hbig, hlist, hlast, by omega,
        ⟨b, rest, hlive, by omega⟩, between, unlist⟩

/-- There is a latest block, and the space it occupies covers its size. -/
theorem TopLast.holds (w : Ready base l f fs) (last : TopLast l f fs)
    (hlast : l.top.lmLastAlloc ≠ 0) : ∃ b rest, f.live = b :: rest ∧ b.size ≤ l.top.oldSize := by
  rcases last.cases w with ⟨hzero, -⟩ | i | ⟨c, rest, i⟩
  · exact absurd hzero hlast
  · exact i.holds
  · exact i.holds

/-! ### What can be done with it -/

/-- Move the free pointer to `e`, past `size` bytes of the latest block. -/
theorem InRoom.resize (i : InRoom base l f fs) (w : Ready base l f fs) {e size : Nat}
    (hsize : l.top.lmLastAlloc + size ≤ e) (he : e ≤ l.top.lmChunk.lcEnd) (ha : e % 8 = 0) :
    Granted base { l with top := { l.top with lmFreeptr := e } } f.drop fs l.top.lmLastAlloc size := by
  intro r hr
  have hr : (retracted l.top).lmFreeptr + r ≤ e := by
    simp only [retracted]
    omega
  exact ⟨w.retop rfl (i.retract.bump hr he ha), .bump i.retract hr⟩

theorem InRoom.same (i : InRoom base l f fs) (w : Ready base l f fs) :
    Granted base l f.drop fs l.top.lmLastAlloc l.top.oldSize :=
  i.resize w (Nat.le_of_eq i.oldSize) w.level.room_hi w.level.freeptr_aligned

section Big

variable {c : MemLifoChunk} {rest : List MemLifoChunk}

/-- The big block is listed once. -/
theorem IsBig.addr_notMem (i : IsBig base l f fs c rest) (w : Ready base l f fs) :
    c.addr ∉ (l.top.lmChunks ++ rest).map MemLifoChunk.addr := by
  have nodup := w.level.nodup
  rw [i.list] at nodup
  have hperm : (l.top.lmChunks ++ c :: rest).Perm (c :: (l.top.lmChunks ++ rest)) :=
    List.perm_middle
  exact (List.nodup_cons.mp ((hperm.map MemLifoChunk.addr).nodup_iff.mp nodup)).1

/-- The latest block may be counted on for any size up to the big block's. -/
theorem IsBig.same (i : IsBig base l f fs c rest) (w : Ready base l f fs) :
    Granted base l f.drop fs l.top.lmLastAlloc l.top.oldSize := by
  have hmem : c ∈ l.top.lmBigBlocks := by simp [i.list]
  have hc : c ∈ l.top.lmChunks ++ l.top.lmBigBlocks := List.mem_append_right _ hmem
  have hin : l.top.lmChunk ∈ l.top.lmChunks ++ l.top.lmBigBlocks :=
    List.mem_append_left _ (by simp [lmChunks])
  have hlast := i.last
  have hold := i.oldSize
  have hnot := i.addr_notMem w
  -- everything else lies in another block, so apart from this one
  have hfar : ∀ s ∈ own (unlisted l.top rest) f.drop ++ occupied l.below fs,
      s.Apart ⟨c.addr, c.lcEnd⟩ := by
    intro s hs
    obtain ⟨d, hd, hwithin⟩ := i.unlist.inside s hs
    have hd : d ∈ l.top.lmChunks ++ rest := hd
    have hne : d.addr ≠ c.addr := fun heq => hnot (heq ▸ List.mem_map_of_mem hd)
    have hdmem : d ∈ l.top.lmChunks ++ l.top.lmBigBlocks := by
      rw [i.list]
      simp only [List.mem_append, List.mem_cons] at hd ⊢
      tauto
    refine (w.apart_listed hdmem hc hne).mono ?_ (Span.Within.refl _)
    simp only [Span.Within, MemLifoChunk.body] at hwithin ⊢
    omega
  have hroom : Span.Apart ⟨c.addr, c.lcEnd⟩ l.top.room := by
    have hlo := w.level.room_lo
    refine (w.apart_listed hc hin (w.big_ne hmem)).mono (Span.Within.refl _) ?_
    simp only [Span.Within, room]
    omega
  intro r hr
  have hbody : Span.Within ⟨l.top.lmLastAlloc, l.top.lmLastAlloc + r⟩ ⟨c.addr, c.lcEnd⟩ := by
    simp only [Span.Within]
    omega
  have haligned : l.top.lmLastAlloc % 8 = 0 := by
    have := (i.between.block w.lawful).1
    simp only [hlast, sizeofChunk]
    omega
  constructor
  · refine w.retop rfl (i.unlist.give l.top rfl w.level.chunks w.level.bigBlocks w.level.nodup ?_
      ⟨c, hc, ?_⟩ (fun s hs => (hfar s hs).mono (Span.Within.refl s) hbody) i.unlist.clear
      (hroom.mono hbody (Span.Within.refl _)) w.level.room_lo w.level.room_hi
      w.level.freeptr_aligned haligned)
    · intro d hd
      rw [i.list]
      simp only [unlisted, lmChunks, List.mem_append, List.mem_cons] at hd ⊢
      tauto
    · simp only [Span.Within, MemLifoChunk.body]
      omega
  · obtain ⟨new, hnew, -⟩ := i.unlist.bigBlocks
    have hnew : rest = new ++ bigBlocksOf l.below := hnew
    refine .bigBlock (i.list.trans (congrArg (c :: ·) hnew)) rfl hlast ?_ fun s hs => ?_
    · simp only
      omega
    · rw [← hnew]
      refine i.unlist.inside s ?_
      simpa [own, span, unlisted] using hs

/-- Replace the big block by a fresh one. -/
theorem IsBig.move (i : IsBig base l f fs c rest) (w : Ready base l f fs) {req a n : Nat}
    (fresh : Fresh platform l.heap req a n) (hreq : sizeofChunk ≤ req) :
    ∃ h', freeFn (l.heap.obtain a n) c.addr = .ok h' ∧
      Granted base { l with top := moveBigBlock l.top rest a n, heap := h' } f.drop fs
        (a + sizeofChunk) (n - sizeofChunk) := by
  obtain ⟨b, hb, ⟨haddr, -⟩, hsince, -⟩ := i.between
  obtain ⟨hnew, -⟩ := newChunk_fresh fresh
  have hbound : a + n ≤ 9223372036854775808 := fresh.bounded
  have hn : sizeofChunk ≤ n := Nat.le_trans hreq fresh.requested
  have hadd : addPtr a sizeofChunk = a + sizeofChunk :=
    addPtr_of_lt (by simp only [sizeofChunk]; omega)
  have hmark : moveBigBlock l.top rest a n = bigBlocked (unlisted l.top rest) a n := by
    simp only [moveBigBlock, hnew, hadd, bigBlocked, unlisted]
  obtain ⟨h', hrelease, lawful, hobtained, -, hmem⟩ :=
    (w.lawful.obtain fresh).release (Heap.mem_obtain.mpr (Or.inr hb))
  rw [haddr] at hrelease
  refine ⟨h', by simp [freeFn, hrelease], fun r hr => ?_⟩
  have hr : sizeofChunk + r ≤ n := by omega
  rw [hmark]
  refine ⟨w.update lawful ?_ rfl ?_ ?_, .newBigBlock i.unlist hr⟩
  · intro d hd
    rcases Heap.mem_obtain.mp ((hmem d).mp hd).1 with rfl | hd
    · exact hn
    · exact w.wide d hd
  · constructor
    · intro d hd
      rw [hmem, Heap.mem_obtain]
      constructor
      · rintro ⟨rfl | hmem, -⟩
        · exact absurd hd (Nat.not_lt_of_le w.level.since_le)
        · exact hmem
      · refine fun hmem => ⟨.inr hmem, ?_⟩
        rintro rfl
        omega
    · rw [hobtained]
      exact Nat.le_succ _
  · rw [hobtained]
    refine (i.unlist.bigBlock w.lawful fresh w.older hr).release hmem hsince ?_
    -- the block released is listed no more, and the fresh one is elsewhere
    have hne : a ≠ c.addr := by
      rintro rfl
      refine w.level.fresh_notMem w.older w.lawful fresh (List.mem_map_of_mem ?_)
      simp [i.list]
    have hperm' : ((unlisted l.top rest).lmChunks ++ ⟨a, a + n⟩ :: rest).Perm
        (⟨a, a + n⟩ :: (l.top.lmChunks ++ rest)) := List.perm_middle
    rw [haddr, show (bigBlocked (unlisted l.top rest) a n).lmChunks ++
      (bigBlocked (unlisted l.top rest) a n).lmBigBlocks =
        (unlisted l.top rest).lmChunks ++ ⟨a, a + n⟩ :: rest from rfl,
      (hperm'.map MemLifoChunk.addr).mem_iff, List.map_cons, List.mem_cons, not_or]
    exact ⟨Ne.symm hne, i.addr_notMem w⟩

end Big

/-! ### MemLifoExpandLast -/

/-- What an operation on the latest block leaves behind: the block has moved
or changed size, and the caller may count on `size` bytes of it. -/
def LastPost (base : MemLifoChunk) (l : MemLifo) (f : Frame) (fs : List Frame) (size : Nat) :
    Option Grant × MemLifo → Prop
  | (none, l') => l' = l
  | (some g, l') => l'.below = l.below ∧ Granted base l' f.drop fs g.ptr size

theorem Meets.mono {α : Type} {P Q : α → Prop} {r : Except Fault α} (h : Meets P r)
    (le : ∀ a, P a → Q a) : Meets Q r := by
  cases r with
  | ok a => exact le a h
  | error e => exact h

/-- Grow the latest block by allocating a new one from the pool. -/
theorem Ready.reallocate (w : Ready base l f fs) {sz : Nat} (hsz : sz ≤ memlifoMaxAlloc) (sound : AllocSound l sz false) :
    Meets (LastPost base l f fs sz) (memLifoAlloc A l sz false) := by
  have drop : Ready base l f.drop fs := w.retop rfl w.level.drop
  apply (drop.alloc sound).mono
  intro r post
  obtain ⟨_ | g, l'⟩ := r
  · exact post
  · refine ⟨post.1, post.2.mono ?_⟩
    have hle : sz ≤ 4294967288 := Nat.le_trans hsz (by decide)
    simpa using le_roundUp hle

theorem TopLast.expandLast (w : Ready base l f fs) (last : TopLast l f fs) {incr : Nat} {fix : Bool}
    (hlast : l.top.lmLastAlloc ≠ 0) (sound : ExpandSound l incr fix) :
    Meets (LastPost base l f fs (l.top.oldSize + roundUp incr)) (memLifoExpandLast A l incr fix) := by
  unfold ExpandSound at sound
  unfold memLifoExpandLast
  rw [if_neg hlast] at sound
  simp only [if_neg hlast]
  rcases last.cases w with ⟨hzero, -⟩ | i | ⟨c, rest, i⟩
  · exact absurd hzero hlast
  · -- in the current chunk
    simp only [i.notBig, true_and, forall_const] at sound ⊢
    by_cases hgrow : toInt (roundUp incr) ≤ l.top.left
    · rw [if_pos hgrow] at sound
      rw [if_pos hgrow, w.addPtr_free (roundUp_lt incr)]
      refine ⟨rfl, i.resize w ?_ sound ?_⟩
      · have := i.oldSize
        omega
      · have := w.level.freeptr_aligned
        have := roundUp_mod_eight incr
        omega
    rw [if_neg hgrow] at sound ⊢
    cases fix with
    | true => exact rfl
    | false =>
      simp only [Bool.false_eq_true, if_false] at sound ⊢
      have hsz : dword (l.top.oldSize + roundUp incr) = l.top.oldSize + roundUp incr :=
        Nat.mod_eq_of_lt sound.1
      rw [hsz]
      by_cases hmax : memlifoMaxAlloc < l.top.oldSize + roundUp incr
      · rw [if_pos hmax]
        exact rfl
      · rw [if_neg hmax]
        exact w.reallocate (Nat.le_of_not_lt hmax) sound.2
  · -- a big block
    simp only [i.isBig, Bool.true_eq_false, false_and, if_false, i.list] at sound ⊢
    cases fix with
    | true => exact rfl
    | false =>
      simp only [Bool.false_eq_true, if_false] at sound ⊢
      have hsz : dword (l.top.oldSize + roundUp incr) = l.top.oldSize + roundUp incr :=
        Nat.mod_eq_of_lt sound.1
      rw [hsz]
      by_cases hmax : memlifoMaxAlloc < l.top.oldSize + roundUp incr
      · rw [if_pos hmax]
        exact rfl
      rw [if_neg hmax]
      simp only [memlifoMaxAlloc, intMax] at hmax
      have hreq : dword (l.top.oldSize + roundUp incr + sizeofChunk) =
          l.top.oldSize + roundUp incr + sizeofChunk :=
        Nat.mod_eq_of_lt (by simp only [sizeofChunk]; omega)
      rw [hreq]
      cases hfn : A.fn l.heap (l.top.oldSize + roundUp incr + sizeofChunk) with
      | none => exact rfl
      | some r =>
        obtain ⟨a, n⟩ := r
        have fresh := A.lawful hfn
        have hbound : a + n ≤ 9223372036854775808 := fresh.bounded
        have hn := fresh.requested
        have hadd : addPtr a sizeofChunk = a + sizeofChunk := addPtr_of_lt (by omega)
        obtain ⟨h', hfree, granted⟩ := i.move w fresh (Nat.le_add_left _ _)
        simp only [hfree, hadd]
        exact ⟨rfl, granted.mono (by omega)⟩

/-! ### MemLifoShrinkLast -/

theorem TopLast.shrinkLast (w : Ready base l f fs) (last : TopLast l f fs) (decr : Nat) :
    LastPost base l f fs (l.top.oldSize - roundDown decr) (memLifoShrinkLast l decr) := by
  unfold memLifoShrinkLast
  rcases last.cases w with ⟨hzero, -⟩ | i | ⟨c, rest, i⟩
  · rw [if_pos hzero]
    exact rfl
  · have hold := i.oldSize
    have hchunk := w.chunk
    have hroom := w.level.room_hi
    have hsize : ofInt (ptrDiff32 l.top.lmFreeptr l.top.lmLastAlloc) = l.top.oldSize := by
      simp [oldSize, i.notBig]
    simp only [if_neg i.nonzero, i.notBig, true_and, hsize]
    by_cases hfit : roundDown decr ≤ l.top.oldSize
    · have hsub : subPtr l.top.lmFreeptr (roundDown decr) = l.top.lmFreeptr - roundDown decr :=
        subPtr_of_le (by omega) (by omega)
      rw [if_pos hfit, hsub]
      refine ⟨rfl, i.resize w (by omega) (by omega) ?_⟩
      have := w.level.freeptr_aligned
      have := roundDown_mod_eight decr
      omega
    · rw [if_neg hfit]
      exact ⟨rfl, (i.same w).mono (Nat.sub_le _ _)⟩
  · simp only [if_neg i.nonzero, i.isBig, Bool.true_eq_false, false_and, if_false]
    exact ⟨rfl, (i.same w).mono (Nat.sub_le _ _)⟩

/-! ### MemLifoResizeLast -/

theorem LastPost.mono {size size' : Nat} {r : Option Grant × MemLifo}
    (h : LastPost base l f fs size r) (le : size' ≤ size) : LastPost base l f fs size' r := by
  obtain ⟨_ | g, l'⟩ := r
  · exact h
  · exact ⟨h.1, h.2.mono le⟩

theorem TopLast.resizeLast (w : Ready base l f fs) (last : TopLast l f fs) {newSz : Nat} {fix : Bool}
    (sound : ResizeSound l newSz fix) :
    Meets (LastPost base l f fs (roundUp newSz)) (memLifoResizeLast A l newSz fix) := by
  unfold ResizeSound at sound
  unfold memLifoResizeLast
  by_cases hzero : l.top.lmLastAlloc = 0
  · rw [if_pos hzero]
    exact rfl
  simp only [if_neg hzero]
  by_cases hle : roundUp newSz ≤ l.top.oldSize
  · simp only [hle, and_true, if_true]
    rcases last.cases w with ⟨h, -⟩ | i | ⟨c, rest, i⟩
    · exact absurd h hzero
    · have hold := i.oldSize
      have hchunk := w.chunk
      have hroom := w.level.room_hi
      have hsub : subPtr l.top.lmFreeptr (l.top.oldSize - roundUp newSz) =
          l.top.lmLastAlloc + roundUp newSz := by
        rw [subPtr_of_le (by omega) (by omega)]
        omega
      rw [if_pos i.notBig, hsub]
      refine ⟨rfl, i.resize w (Nat.le_refl _) (by omega) ?_⟩
      have := i.aligned
      have := roundUp_mod_eight newSz
      omega
    · rw [if_neg (by simp [i.isBig])]
      refine (last.shrinkLast w _).mono ?_
      have := roundDown_le (l.top.oldSize - roundUp newSz)
      omega
  · simp only [hle, and_false, if_false]
    rw [if_pos ⟨hzero, Nat.lt_of_not_le hle⟩] at sound
    refine (last.expandLast w hzero sound).mono fun r post => post.mono ?_
    have hlt := roundUp_lt newSz
    have := le_roundUp (x := roundUp newSz - l.top.oldSize) (by
      have := roundUp_mod_eight newSz
      omega)
    omega

end Twapi.Lifo
