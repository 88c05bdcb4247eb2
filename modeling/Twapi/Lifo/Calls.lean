import Twapi.Lifo.Moves

/-!
Allocating and pushing marks, from a pool that is laid out to a pool that is.

* `Ready.fits_iff` — what the code's pointer comparisons mean in such a pool.
* `Ready.update`, `Ready.obtained` — a call changes the top mark and the heap;
  the marks below keep their invariant.
* `Ready.alloc`, `Ready.pushMark` — the two calls, in terms of the moves on
  the top mark.

A call fails only by panic; `Meets` says what holds when it does not.
-/

namespace Twapi.Lifo

open Base Lib

variable {A : ChunkAllocator} {base : MemLifoChunk} {l : MemLifo} {f : Frame} {fs : List Frame}

/-- The call panics, or what it returns meets `P`. -/
def Meets {α : Type} (P : α → Prop) : Except Fault α → Prop
  | .ok r => P r
  | .error e => e = .panic

/-! ### The top mark in a laid out pool -/

variable {n req a sz : Nat} {m : MemLifoMark} {h : Heap} {f' : Frame}

/-- A listed chunk is an outstanding block. -/
theorem Between.block {lo hi : Nat} {c : MemLifoChunk} (hc : Between h lo hi c)
    (lawful : h.Lawful platform) :
    c.addr % 8 = 0 ∧ 0 < c.addr ∧ c.lcEnd < c.addr + 4294967296 ∧ c.lcEnd ≤ 9223372036854775808 := by
  obtain ⟨b, hb, ⟨haddr, hend⟩, -⟩ := hc
  obtain ⟨-, haligned, hnonnull, hsize, hbound⟩ := lawful.block b hb
  simp only [platform] at haligned hsize hbound
  omega

theorem Ready.older (w : Ready base l f fs) :
    ∀ c ∈ chunksOf base l.below ++ bigBlocksOf l.below, Between l.heap 0 f.since c :=
  w.below.between

theorem Ready.listed (w : Ready base l f fs) :
    ∀ c ∈ l.top.lmChunks ++ l.top.lmBigBlocks, Between l.heap 0 l.heap.obtained c :=
  w.level.between w.older

theorem Ready.chunk (w : Ready base l f fs) :
    l.top.lmChunk.addr % 8 = 0 ∧ 0 < l.top.lmChunk.addr ∧
      l.top.lmChunk.lcEnd < l.top.lmChunk.addr + 4294967296 ∧
      l.top.lmChunk.lcEnd ≤ 9223372036854775808 :=
  (w.listed l.top.lmChunk (by simp [MemLifoMark.lmChunks])).block w.lawful

/-- Moving the free pointer by less than 4 GiB does not wrap. -/
theorem Ready.addPtr_free (w : Ready base l f fs) (hn : n < 4294967296) :
    addPtr l.top.lmFreeptr n = l.top.lmFreeptr + n := by
  have hchunk := w.chunk
  have hroom := w.level.room_hi
  exact addPtr_of_lt (by omega)

theorem Ready.fits_iff (w : Ready base l f fs) (hn : n < 4294967296) :
    l.top.fits n = true ↔ l.top.lmFreeptr + n ≤ l.top.lmChunk.lcEnd := by
  have hlo := w.level.room_lo
  rw [MemLifoMark.fits, decide_eq_true_iff, w.addPtr_free hn]
  simp only [sizeofChunk] at hlo
  omega

/-- What a fresh block of `n` bytes at `a` looks like to the code. -/
theorem newChunk_fresh (fresh : Fresh platform h req a n) :
    newChunk a n = ⟨a, a + n⟩ ∧ alignPtr a sizeofChunk = a + sizeofChunk := by
  have hbound : a + n ≤ 9223372036854775808 := fresh.bounded
  have haligned : a % 8 = 0 := fresh.aligned
  have hpos := fresh.pos
  constructor
  · rw [newChunk, addPtr_of_lt (by omega)]
  · apply alignPtr_of_aligned
    · simp only [sizeofChunk]
      omega
    · simp only [sizeofChunk]
      omega

/-- Behind the header of a fresh block nothing is skipped. -/
theorem alignPtr_fresh (fresh : Fresh platform h req a n) (aligned : sz % 8 = 0)
    (small : sz < 4294967296) :
    alignPtr (a + sizeofChunk) sz = a + sizeofChunk + sz := by
  have hbound : a + n ≤ 9223372036854775808 := fresh.bounded
  have haligned : a % 8 = 0 := fresh.aligned
  apply alignPtr_of_aligned
  · simp only [sizeofChunk]
    omega
  · simp only [sizeofChunk]
    omega

/-- A pool whose top mark or heap changed is laid out if the top mark's level is
and the heap keeps what is older than that mark. -/
theorem Ready.update (w : Ready base l f fs) (lawful : h.Lawful platform)
    (wide : ∀ b ∈ h.outstanding, sizeofChunk ≤ b.size) (since : f'.since = f.since)
    (agree : Heap.AgreeBelow f.since l.heap h)
    (level : Level h h.obtained m f' (chunksOf base l.below) (bigBlocksOf l.below)
      (occupied l.below fs)) :
    Ready base { l with top := m, heap := h } f' fs :=
  ⟨lawful, wide, w.chunkSize_ge, w.chunkSize_lt, w.chunkSize_aligned, level,
    since ▸ w.below.transport agree⟩

theorem Ready.retop (w : Ready base l f fs) (since : f'.since = f.since)
    (level : Level l.heap l.heap.obtained m f' (chunksOf base l.below) (bigBlocksOf l.below)
      (occupied l.below fs)) : Ready base { l with top := m } f' fs :=
  w.update w.lawful w.wide since (.refl _ _) level

theorem Ready.obtained (w : Ready base l f fs) (fresh : Fresh platform l.heap req a n)
    (wide : sizeofChunk ≤ n) (since : f'.since = f.since)
    (level : Level (l.heap.obtain a n) (l.heap.obtained + 1) m f' (chunksOf base l.below)
      (bigBlocksOf l.below) (occupied l.below fs)) :
    Ready base { l with top := m, heap := l.heap.obtain a n } f' fs := by
  refine w.update (w.lawful.obtain fresh) ?_ since
    ((Heap.AgreeBelow.obtain l.heap a n).mono w.level.since_le) level
  intro b hb
  rcases Heap.mem_obtain.mp hb with rfl | hb
  · exact wide
  · exact w.wide b hb

/-! ### MemLifoAlloc -/

/-- The pool after `size` bytes were granted under the top mark: the caller may
count on any part of them. -/
def Granted (base : MemLifoChunk) (l : MemLifo) (f : Frame) (fs : List Frame) (p size : Nat) :
    Prop :=
  ∀ r ≤ size, Ready base l (f.give p r) fs ∧ TopLast l (f.give p r) fs

theorem Ready.takeRoom (w : Ready base l f fs) {actual : Bool} (hlt : sz < 4294967296)
    (aligned : sz % 8 = 0) (fits : l.top.fits sz = true)
    (sound : actual = true → l.top.lmChunk.lcEnd % 8 = 0) :
    ∃ g e, allocInChunk l.top sz actual = (g, bumped l.top e) ∧
      sz ≤ g.actualSz ∧ Granted base { l with top := bumped l.top e } f fs g.ptr g.actualSz := by
  have hfits := (w.fits_iff hlt).mp fits
  have hchunk := w.chunk
  have hlo := w.level.room_lo
  have hfree := w.level.freeptr_aligned
  obtain ⟨e, hdef, he, hend, halign⟩ : ∃ e,
      (if actual then l.top.lmChunk.lcEnd else addPtr l.top.lmFreeptr sz) = e ∧
      l.top.lmFreeptr + sz ≤ e ∧ e ≤ l.top.lmChunk.lcEnd ∧ e % 8 = 0 := by
    cases actual with
    | true => exact ⟨_, if_pos rfl, hfits, Nat.le_refl _, sound rfl⟩
    | false =>
      refine ⟨_, if_neg (by decide), ?_, ?_, ?_⟩
      · exact Nat.le_of_eq (w.addPtr_free hlt).symm
      · rw [w.addPtr_free hlt]
        exact hfits
      · rw [w.addPtr_free hlt]
        omega
  have hsize : ofInt (ptrDiff32 e l.top.lmFreeptr) = e - l.top.lmFreeptr :=
    ofInt_ptrDiff32 (by omega) (by omega)
  refine ⟨⟨l.top.lmFreeptr, e - l.top.lmFreeptr⟩, e, ?_, ?_, ?_⟩
  · simp only [allocInChunk, hdef, hsize, bumped]
  · simp only
    omega
  · intro r hr
    have hr : l.top.lmFreeptr + r ≤ e := by
      simp only at hr
      omega
    exact ⟨w.retop rfl (w.level.bump hr hend halign), .bump w.level hr⟩

theorem Ready.takeChunk (w : Ready base l f fs) (aligned : sz % 8 = 0)
    (hreq : sz + sizeofChunk ≤ req) (fresh : Fresh platform l.heap req a n) :
    ∃ g e, allocFromNewChunk l.top a n sz = (g, chunked l.top a n e) ∧ g.actualSz = sz ∧
      Granted base { l with top := chunked l.top a n e, heap := l.heap.obtain a n } f fs g.ptr sz := by
  obtain ⟨hnew, hlast⟩ := newChunk_fresh fresh
  have hn : sz + sizeofChunk ≤ n := Nat.le_trans hreq fresh.requested
  have hlt : n < 4294967296 := fresh.sized
  have hbound : a + n ≤ 9223372036854775808 := fresh.bounded
  have haligned : a % 8 = 0 := fresh.aligned
  have hfree := alignPtr_fresh fresh aligned (by omega)
  have hsize : ofInt (ptrDiff32 (a + sizeofChunk + sz) (a + sizeofChunk)) = sz := by
    rw [ofInt_ptrDiff32 (by omega) (by omega)]
    omega
  refine ⟨⟨a + sizeofChunk, sz⟩, a + sizeofChunk + sz, ?_, rfl, ?_⟩
  · simp only [allocFromNewChunk, hlast, hfree, hsize, hnew, chunked]
  · intro r hr
    refine ⟨w.obtained fresh (by omega) rfl ?_, ?_⟩
    · refine w.level.newChunk w.lawful fresh w.older (by omega) (by omega) ?_
      simp only [sizeofChunk]
      omega
    · exact .newChunk fresh w.level w.older (by omega)

theorem Ready.takeBigBlock (w : Ready base l f fs) (hreq : sz + sizeofChunk ≤ req)
    (fresh : Fresh platform l.heap req a n) :
    ∃ g, allocBigBlock l.top a n = (g, bigBlocked l.top a n) ∧ sz ≤ g.actualSz ∧
      Granted base { l with top := bigBlocked l.top a n, heap := l.heap.obtain a n } f fs g.ptr
        g.actualSz := by
  obtain ⟨hnew, hlast⟩ := newChunk_fresh fresh
  have hn : sz + sizeofChunk ≤ n := Nat.le_trans hreq fresh.requested
  have hlt : n < 4294967296 := fresh.sized
  have hsize : ofInt (ptrDiff32 (a + n) (a + sizeofChunk)) = n - sizeofChunk := by
    rw [ofInt_ptrDiff32 (by omega) (by omega)]
    omega
  refine ⟨⟨a + sizeofChunk, n - sizeofChunk⟩, ?_, ?_, ?_⟩
  · simp only [allocBigBlock, hlast, hnew, hsize, bigBlocked]
  · simp only
    omega
  · intro r hr
    simp only at hr
    exact ⟨w.obtained fresh (by omega) rfl
        (w.level.bigBlock w.lawful fresh w.older (by omega)),
      .newBigBlock w.level (by omega)⟩

/-- What `MemLifoAlloc` leaves behind. -/
def AllocPost (base : MemLifoChunk) (l : MemLifo) (f : Frame) (fs : List Frame) (sz : Nat)
    (actual : Bool) : Option Grant × MemLifo → Prop
  | (none, l') => l' = l
  | (some g, l') => l'.below = l.below ∧
      Granted base l' f fs g.ptr (if actual then g.actualSz else roundUp sz)

theorem meets_failAlloc {P : Option Grant × MemLifo → Prop} (h : P (none, l)) :
    Meets P (failAlloc l) := by
  unfold failAlloc
  split
  · exact rfl
  · exact h

theorem Granted.mono {p size size' : Nat} (h : Granted base l f fs p size) (le : size' ≤ size) :
    Granted base l f fs p size' :=
  fun r hr => h r (Nat.le_trans hr le)

/-- The size of a new chunk that does not wrap covers the request. -/
theorem Ready.newChunkSize_ge (w : Ready base l f fs) (sound : chunkRequest l sz < 4294967296) :
    sz + sizeofChunk ≤ newChunkSize l sz := by
  have hlt := w.chunkSize_lt
  unfold chunkRequest at sound
  unfold newChunkSize
  simp only [dword, sizeofChunk] at sound ⊢
  by_cases hbig : l.lifoChunkSize / 2 < sz
  · rw [if_pos hbig] at sound ⊢
    omega
  · rw [if_neg hbig] at sound ⊢
    omega

theorem Ready.alloc (w : Ready base l f fs) {actual : Bool} (sound : AllocSound l sz actual) :
    Meets (AllocPost base l f fs sz actual) (memLifoAlloc A l sz actual) := by
  unfold memLifoAlloc
  unfold AllocSound at sound
  by_cases hmax : memlifoMaxAlloc < sz
  · rw [if_pos hmax]
    exact meets_failAlloc rfl
  rw [if_neg hmax] at sound ⊢
  have hround : roundUp sz ≤ 2147483648 := by
    simp only [memlifoMaxAlloc, intMax] at hmax
    rw [roundUp_of_le (by omega)]
    omega
  have haligned := roundUp_mod_eight sz
  by_cases hfits : l.top.fits (roundUp sz) = true
  · -- room in the current chunk
    rw [if_pos hfits] at sound
    simp only [if_pos hfits]
    obtain ⟨g, e, hg, hle, granted⟩ := w.takeRoom (by omega) haligned hfits sound
    rw [hg]
    refine ⟨rfl, granted.mono ?_⟩
    split
    · exact Nat.le_refl _
    · exact hle
  simp only [if_neg hfits] at sound ⊢
  cases hleft : l.littleLeft with
  | true =>
    -- a new chunk
    simp only [hleft, if_true] at sound ⊢
    cases hfn : A.fn l.heap (newChunkSize l (roundUp sz)) with
    | none => exact meets_failAlloc rfl
    | some r =>
      obtain ⟨a, n⟩ := r
      have hreq := w.newChunkSize_ge sound
      obtain ⟨g, e, hg, hsize, granted⟩ := w.takeChunk haligned hreq (A.lawful hfn)
      simp only [hg]
      refine ⟨rfl, granted.mono ?_⟩
      split
      · exact Nat.le_of_eq hsize
      · exact Nat.le_refl _
  | false =>
    -- a big block
    simp only [hleft, Bool.false_eq_true, if_false] at sound ⊢
    cases hfn : A.fn l.heap (dword (roundUp sz + sizeofChunk)) with
    | none => exact meets_failAlloc rfl
    | some r =>
      obtain ⟨a, n⟩ := r
      have hreq : roundUp sz + sizeofChunk ≤ dword (roundUp sz + sizeofChunk) := by
        simp only [dword, sizeofChunk]
        omega
      obtain ⟨g, hg, hsize, granted⟩ := w.takeBigBlock hreq (A.lawful hfn)
      simp only [hg]
      refine ⟨rfl, granted.mono ?_⟩
      split
      · exact Nat.le_refl _
      · exact hsize

/-! ### MemLifoPushMark -/

/-- What `MemLifoPushMark` leaves behind. -/
def PushPost (base : MemLifoChunk) (l : MemLifo) (f : Frame) (fs : List Frame) :
    Option Nat × MemLifo → Prop
  | (none, l') => l' = l
  | (some n, l') => n = l'.top.addr ∧ l'.below = l.marks ∧ Ready base l' (newFrame l) (f :: fs) ∧
      TopLast l' (newFrame l) (f :: fs)

/-- A mark in the current chunk, with `frame` as the view of what is under it. -/
theorem Ready.push (w : Ready base l f fs) (last : TopLast l f fs) {frame : Frame}
    (since : frame.since = l.heap.obtained)
    (level : Level l.heap l.heap.obtained m frame l.top.lmChunks l.top.lmBigBlocks
      (own l.top f ++ occupied l.below fs)) : Ready base (l.push m) frame (f :: fs) := by
  refine ⟨w.lawful, w.wide, w.chunkSize_ge, w.chunkSize_lt, w.chunkSize_aligned, level, ?_⟩
  exact ⟨since ▸ w.level, last, w.below⟩

theorem Ready.pushChunk (w : Ready base l f fs) (last : TopLast l f fs)
    (fresh : Fresh platform l.heap req a n) (hreq : 1000 ≤ req) :
    Ready base ({ l with heap := l.heap.obtain a n }.push (markedChunk l.top a n)) (newFrame l)
      (f :: fs) := by
  have hn : 1000 ≤ n := Nat.le_trans hreq fresh.requested
  have hwide : sizeofChunk + sizeofMark ≤ n := Nat.le_trans (by decide) hn
  have kept : Heap.AgreeBelow l.heap.obtained l.heap (l.heap.obtain a n) := .obtain _ _ _
  refine ⟨w.lawful.obtain fresh, ?_, w.chunkSize_ge, w.chunkSize_lt, w.chunkSize_aligned,
    w.level.pushChunk w.lawful w.older fresh hwide, w.level.transport kept, last,
    w.below.transport (kept.mono w.level.since_le)⟩
  intro b hb
  rcases Heap.mem_obtain.mp hb with rfl | hb
  · exact Nat.le_trans (by decide) hn
  · exact w.wide b hb

theorem Ready.pushMark (w : Ready base l f fs) (last : TopLast l f fs) :
    Meets (PushPost base l f fs) (memLifoPushMark A l) := by
  have hmark : roundUp sizeofMark = sizeofMark := rfl
  unfold memLifoPushMark
  simp only [hmark]
  cases hfits : l.top.fits sizeofMark with
  | true =>
    have hfree := (w.fits_iff (by decide)).mp hfits
    have hadd : addPtr l.top.lmFreeptr sizeofMark = l.top.lmFreeptr + sizeofMark :=
      w.addPtr_free (by decide)
    simp only [if_true, hadd]
    exact ⟨rfl, rfl, w.push last rfl (w.level.push w.lawful hfree), .none rfl⟩
  | false =>
    simp only [Bool.false_eq_true, if_false]
    cases hfn : A.fn l.heap l.lifoChunkSize with
    | none =>
      cases l.panicOnFail with
      | true => exact rfl
      | false => exact rfl
    | some r =>
      obtain ⟨a, n⟩ := r
      have fresh := A.lawful hfn
      obtain ⟨hnew, hmarkAddr⟩ := newChunk_fresh fresh
      have hfree : alignPtr (a + sizeofChunk) sizeofMark = a + sizeofChunk + sizeofMark :=
        alignPtr_fresh fresh (by decide) (by decide)
      simp only [hnew, hmarkAddr, hfree]
      exact ⟨rfl, rfl, w.pushChunk last fresh w.chunkSize_ge, .none rfl⟩

end Twapi.Lifo
