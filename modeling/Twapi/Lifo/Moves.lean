import Twapi.Lifo.Layout

/-!
What each way of handing out memory does to the layout of the top mark.

There are few: take from the room of the current chunk (`Level.bump`), take
from a new chunk or a new big block (`Level.newChunk`, `Level.bigBlock`), store
a mark (`Level.push`), and resize or move the latest block. Every operation of
the pool is one of these or two in a row. Adding a block to the view is one
lemma, `Level.give`; the others supply its side conditions.
-/

namespace Twapi.Lifo

open Base Lib List MemLifoMark

variable {h : Heap} {hi : Nat} {m : MemLifoMark} {f : Frame} {pc pb : List MemLifoChunk}
  {occ : List Span}

@[simp] theorem own_give (m : MemLifoMark) (f : Frame) (p r : Nat) :
    own m (f.give p r) = ⟨p, p + r⟩ :: own m f := rfl

@[simp] theorem give_live (f : Frame) (p r : Nat) : (f.give p r).live = ⟨p, r⟩ :: f.live := rfl

/-- A mark may hand out `r` bytes at `p` if the range lies in something it
lists, is apart from everything there is, and stays out of the new room. -/
theorem Level.give (lv : Level h hi m f pc pb occ) (m' : MemLifoMark) {p r : Nat}
    (addr : m'.addr = m.addr)
    (chunks : ∃ new, m'.lmChunks = new ++ pc ∧ ∀ c ∈ new, Between h f.since hi c)
    (bigBlocks : ∃ new, m'.lmBigBlocks = new ++ pb ∧ ∀ c ∈ new, Between h f.since hi c)
    (nodup : ((m'.lmChunks ++ m'.lmBigBlocks).map MemLifoChunk.addr).Nodup)
    (keep : ∀ c ∈ m.lmChunks ++ m.lmBigBlocks, c ∈ m'.lmChunks ++ m'.lmBigBlocks)
    (home : ∃ c ∈ m'.lmChunks ++ m'.lmBigBlocks, Span.Within ⟨p, p + r⟩ c.body)
    (far : ∀ s ∈ own m f ++ occ, s.Apart ⟨p, p + r⟩)
    (clear : ∀ s ∈ own m f ++ occ, s.Apart m'.room) (clear' : Span.Apart ⟨p, p + r⟩ m'.room)
    (room_lo : m'.lmChunk.addr + sizeofChunk ≤ m'.lmFreeptr)
    (room_hi : m'.lmFreeptr ≤ m'.lmChunk.lcEnd)
    (freeptr_aligned : m'.lmFreeptr % 8 = 0) (aligned : p % 8 = 0) :
    Level h hi m' (f.give p r) pc pb occ := by
  have hown : own m' (f.give p r) ++ occ = ⟨p, p + r⟩ :: (own m f ++ occ) := by
    simp [own, MemLifoMark.span, addr, Live.span]
  refine ⟨lv.since_le, lv.kept, chunks, bigBlocks, nodup, ?_, ?_, ?_, room_lo, room_hi,
    freeptr_aligned, addr ▸ lv.mark_aligned, ?_⟩
  · intro s hs
    rw [hown] at hs
    rcases mem_cons.mp hs with rfl | hs
    · exact home
    · obtain ⟨c, hc, hin⟩ := lv.inside s hs
      exact ⟨c, keep c hc, hin⟩
  · rw [hown]
    exact pairwise_cons.mpr ⟨fun s hs => (far s hs).symm, lv.apart⟩
  · intro s hs
    rw [hown] at hs
    rcases mem_cons.mp hs with rfl | hs
    · exact clear'
    · exact clear s hs
  · intro b hb
    rcases mem_cons.mp hb with rfl | hb
    · exact aligned
    · exact lv.live_aligned b hb

/-! ### From the current chunk -/

/-- Take the room up to `e`. -/
def bumped (m : MemLifoMark) (e : Nat) : MemLifoMark :=
  { m with lmLastAlloc := m.lmFreeptr, lmFreeptr := e }

variable {r e req a n : Nat} {rest : List Live}

theorem Level.bump (lv : Level h hi m f pc pb occ) (hr : m.lmFreeptr + r ≤ e)
    (he : e ≤ m.lmChunk.lcEnd) (ha : e % 8 = 0) :
    Level h hi (bumped m e) (f.give m.lmFreeptr r) pc pb occ := by
  have hroom : Span.Within (bumped m e).room m.room := by
    simp only [Span.Within, room, bumped]
    omega
  have hnew : Span.Within ⟨m.lmFreeptr, m.lmFreeptr + r⟩ m.room := by
    simp only [Span.Within, room]
    omega
  have hlo := lv.room_lo
  refine lv.give (bumped m e) rfl lv.chunks lv.bigBlocks lv.nodup (fun c hc => hc) ?_
    (fun s hs => (lv.clear s hs).mono (Span.Within.refl s) hnew)
    (fun s hs => (lv.clear s hs).mono (Span.Within.refl s) hroom) (.inl hr) ?_ he ha
    lv.freeptr_aligned
  · refine ⟨m.lmChunk, by simp [bumped, lmChunks], ?_⟩
    simp only [Span.Within, MemLifoChunk.body]
    omega
  · simp only [bumped]
    omega

theorem LastOk.bump (lv : Level h hi m f pc pb occ) (hr : m.lmFreeptr + r ≤ e) :
    LastOk (bumped m e) pb ((bumped m e).span :: occ) (f.give m.lmFreeptr r).live := by
  refine .chunk rfl lv.room_lo hr fun s hs => lv.clear s ?_
  simpa [own, MemLifoMark.span, bumped] using hs

/-! ### From a block obtained for the purpose -/

/-- What a level has handed out keeps clear of a fresh block. -/
theorem Level.apart_fresh (lv : Level h hi m f pc pb occ)
    (older : ∀ c ∈ pc ++ pb, Between h 0 f.since c) (fresh : Fresh platform h req a n) :
    ∀ s ∈ own m f ++ occ, s.Apart ⟨a, a + n⟩ := by
  intro s hs
  obtain ⟨c, hc, hin⟩ := lv.inside s hs
  obtain ⟨b, hb, ⟨haddr, hend⟩, -⟩ := lv.between older c hc
  refine (fresh.apart b hb).mono ?_ (Span.Within.refl _)
  simp only [Span.Within, MemLifoChunk.body, Block.span] at hin ⊢
  omega

/-- A fresh block is none of those a level lists. -/
theorem Level.fresh_notMem (lv : Level h hi m f pc pb occ)
    (older : ∀ c ∈ pc ++ pb, Between h 0 f.since c) (lawful : h.Lawful platform)
    (fresh : Fresh platform h req a n) :
    a ∉ (m.lmChunks ++ m.lmBigBlocks).map MemLifoChunk.addr := by
  intro hmem
  obtain ⟨c, hc, rfl⟩ := mem_map.mp hmem
  obtain ⟨b, hb, ⟨haddr, -⟩, -⟩ := lv.between older c hc
  have hapart := fresh.apart b hb
  have hb := (lawful.block b hb).1
  have hn := fresh.pos
  simp only [Span.Apart, Block.span] at hapart
  omega

/-- The block just obtained is the newest. -/
theorem between_obtain (h : Heap) {since a n : Nat} (le : since ≤ h.obtained) :
    Between (h.obtain a n) since (h.obtained + 1) ⟨a, a + n⟩ :=
  ⟨⟨h.obtained, a, n⟩, Heap.mem_obtain.mpr (Or.inl rfl), ⟨rfl, rfl⟩, le, Nat.lt_succ_self _⟩

/-- A level after a block is obtained. -/
theorem Level.obtain (lv : Level h h.obtained m f pc pb occ) (a n : Nat) :
    Level (h.obtain a n) (h.obtained + 1) m f pc pb occ :=
  (lv.transport (.obtain h a n)).mono (Nat.le_succ _)

/-- Make `⟨a, a + n⟩` the current chunk and take what is up to `e`. -/
def chunked (m : MemLifoMark) (a n e : Nat) : MemLifoMark :=
  { m with
    lmChunk := ⟨a, a + n⟩, lmChunkPrev := m.lmChunks, lmLastAlloc := a + sizeofChunk, lmFreeptr := e }

/-- Put `⟨a, a + n⟩` on the big block list and hand out its body. -/
def bigBlocked (m : MemLifoMark) (a n : Nat) : MemLifoMark :=
  { m with lmBigBlocks := ⟨a, a + n⟩ :: m.lmBigBlocks, lmLastAlloc := a + sizeofChunk }

section Obtained

variable {req a n : Nat} (lawful : h.Lawful platform) (fresh : Fresh platform h req a n)

include lawful fresh

variable {r e : Nat}

theorem Level.newChunk (lv : Level h h.obtained m f pc pb occ)
    (older : ∀ c ∈ pc ++ pb, Between h 0 f.since c) (hr : a + sizeofChunk + r ≤ e) (he : e ≤ a + n)
    (ha : e % 8 = 0) :
    Level (h.obtain a n) (h.obtained + 1) (chunked m a n e) (f.give (a + sizeofChunk) r) pc pb occ := by
  have hfar := lv.apart_fresh older fresh
  have hnot := lv.fresh_notMem older lawful fresh
  have haligned : a % 8 = 0 := fresh.aligned
  obtain ⟨newC, hC, dC⟩ := (lv.obtain a n).chunks
  refine (lv.obtain a n).give (chunked m a n e) rfl ⟨⟨a, a + n⟩ :: newC, ?_, ?_⟩
    (lv.obtain a n).bigBlocks ?_ ?_ ⟨⟨a, a + n⟩, by simp [chunked, lmChunks], ?_⟩
    (fun s hs => (hfar s hs).mono (Span.Within.refl s) ?_)
    (fun s hs => (hfar s hs).mono (Span.Within.refl s) ?_) (.inl hr) ?_ he ha ?_
  · simp [chunked, lmChunks, ← hC]
  · intro c hc
    rcases mem_cons.mp hc with rfl | hc
    · exact between_obtain h lv.since_le
    · exact dC c hc
  · simpa [chunked, lmChunks] using
      nodup_cons.mpr ⟨hnot, lv.nodup⟩
  · intro c hc
    simp only [chunked, lmChunks, mem_append, mem_cons] at hc ⊢
    tauto
  · simp only [Span.Within, MemLifoChunk.body]
    omega
  · simp only [Span.Within]
    omega
  · simp only [Span.Within, room, chunked, sizeofChunk] at hr ⊢
    omega
  · simp only [chunked]
    omega
  · simp only [sizeofChunk]
    omega

omit lawful in
theorem LastOk.newChunk (lv : Level h h.obtained m f pc pb occ)
    (older : ∀ c ∈ pc ++ pb, Between h 0 f.since c) (hr : a + sizeofChunk + r ≤ e) :
    LastOk (chunked m a n e) pb ((chunked m a n e).span :: occ)
      (f.give (a + sizeofChunk) r).live := by
  refine .chunk rfl (Nat.le_refl _) hr fun s hs => ?_
  refine (lv.apart_fresh older fresh s ?_).mono (Span.Within.refl s) ?_
  · simpa [own, MemLifoMark.span, chunked] using hs
  · simp [Span.Within, chunked]

theorem Level.bigBlock (lv : Level h h.obtained m f pc pb occ)
    (older : ∀ c ∈ pc ++ pb, Between h 0 f.since c) (hr : sizeofChunk + r ≤ n) :
    Level (h.obtain a n) (h.obtained + 1) (bigBlocked m a n) (f.give (a + sizeofChunk) r) pc pb occ := by
  have hfar := lv.apart_fresh older fresh
  have hnot := lv.fresh_notMem older lawful fresh
  have haligned : a % 8 = 0 := fresh.aligned
  obtain ⟨newB, hB, dB⟩ := (lv.obtain a n).bigBlocks
  -- the room lies in the current chunk, which the new block is apart from
  have hroom : Span.Apart ⟨a, a + n⟩ m.room := by
    obtain ⟨b, hb, ⟨haddr, hend⟩, -⟩ := lv.between older m.lmChunk (by simp [lmChunks])
    refine (fresh.apart b hb).symm.mono (Span.Within.refl _) ?_
    have := lv.room_lo
    simp only [Span.Within, room, Block.span]
    omega
  refine (lv.obtain a n).give (bigBlocked m a n) rfl (lv.obtain a n).chunks
    ⟨⟨a, a + n⟩ :: newB, ?_, ?_⟩ ?_ ?_ ⟨⟨a, a + n⟩, by simp [bigBlocked], ?_⟩
    (fun s hs => (hfar s hs).mono (Span.Within.refl s) ?_) lv.clear
    (hroom.mono ?_ (Span.Within.refl _)) lv.room_lo lv.room_hi lv.freeptr_aligned ?_
  · simp [bigBlocked, ← hB]
  · intro c hc
    rcases mem_cons.mp hc with rfl | hc
    · exact between_obtain h lv.since_le
    · exact dB c hc
  · have hperm : (m.lmChunks ++ (bigBlocked m a n).lmBigBlocks).Perm
        (⟨a, a + n⟩ :: (m.lmChunks ++ m.lmBigBlocks)) := perm_middle
    exact (hperm.map MemLifoChunk.addr).nodup_iff.mpr (nodup_cons.mpr ⟨hnot, lv.nodup⟩)
  · intro c hc
    simp only [bigBlocked, lmChunks, mem_append, mem_cons] at hc ⊢
    tauto
  · simp only [Span.Within, MemLifoChunk.body]
    omega
  · simp only [Span.Within]
    omega
  · simp only [Span.Within]
    omega
  · simp only [sizeofChunk]
    omega

omit lawful fresh in
theorem LastOk.newBigBlock (lv : Level h h.obtained m f pc pb occ) (hr : sizeofChunk + r ≤ n) :
    LastOk (bigBlocked m a n) pb ((bigBlocked m a n).span :: occ)
      (f.give (a + sizeofChunk) r).live := by
  obtain ⟨newB, hB, -⟩ := lv.bigBlocks
  have hlist : (bigBlocked m a n).lmBigBlocks = ⟨a, a + n⟩ :: (newB ++ pb) := by
    simp [bigBlocked, hB]
  refine .bigBlock hlist rfl rfl (by simp; omega) fun s hs => ?_
  rw [← hB]
  refine lv.inside s ?_
  simpa [own, MemLifoMark.span, bigBlocked] using hs

end Obtained

/-! ### A new mark -/

/-- A mark at `addr` in the current chunk of `m`. -/
def marked (m : MemLifoMark) (addr : Nat) : MemLifoMark :=
  m.above addr m.lmChunk m.lmChunkPrev (addr + sizeofMark)

/-- A mark at the start of the new chunk `⟨a, a + n⟩`. -/
def markedChunk (m : MemLifoMark) (a n : Nat) : MemLifoMark :=
  m.above (a + sizeofChunk) ⟨a, a + n⟩ m.lmChunks (a + sizeofChunk + sizeofMark)

/-- A frame for a mark pushed when the heap is `h`. -/
def frameAt (h : Heap) : Frame := ⟨[], h.obtained, h.outstanding⟩

theorem kept_frameAt (lawful : h.Lawful platform) (b : Block) :
    b ∈ (frameAt h).kept ↔ b ∈ h.outstanding ∧ b.id < (frameAt h).since :=
  ⟨fun hb => ⟨hb, lawful.id_lt hb⟩, fun hb => hb.1⟩

theorem Level.push (lv : Level h h.obtained m f pc pb occ) (lawful : h.Lawful platform)
    (fits : m.lmFreeptr + sizeofMark ≤ m.lmChunk.lcEnd) :
    Level h h.obtained (marked m m.lmFreeptr) (frameAt h) m.lmChunks m.lmBigBlocks
      (own m f ++ occ) := by
  have hmark : Span.Within (marked m m.lmFreeptr).span m.room := by
    simp only [Span.Within, MemLifoMark.room, MemLifoMark.span, marked, MemLifoMark.above]
    omega
  have hroom : Span.Within (marked m m.lmFreeptr).room m.room := by
    simp only [Span.Within, room, marked, above]
    omega
  have hlo := lv.room_lo
  have hfree := lv.freeptr_aligned
  have hmem : ∀ s ∈ own (marked m m.lmFreeptr) (frameAt h) ++ (own m f ++ occ),
      s = (marked m m.lmFreeptr).span ∨ s ∈ own m f ++ occ := by
    intro s hs
    simpa [own, frameAt] using hs
  refine ⟨Nat.le_refl _, kept_frameAt lawful, ⟨[], rfl, by simp⟩, ⟨[], rfl, by simp⟩, lv.nodup,
    ?_, ?_, ?_, ?_, fits, ?_, hfree, by simp [frameAt]⟩
  · intro s hs
    rcases hmem s hs with rfl | hs
    · refine ⟨m.lmChunk, by simp [marked, above, lmChunks], ?_⟩
      simp only [Span.Within, MemLifoChunk.body, MemLifoMark.span, marked, MemLifoMark.above]
      omega
    · exact lv.inside s hs
  · refine pairwise_cons.mpr ⟨fun s hs => ?_, lv.apart⟩
    exact ((lv.clear s hs).mono (Span.Within.refl s) hmark).symm
  · intro s hs
    rcases hmem s hs with rfl | hs
    · exact .inl (Nat.le_refl _)
    · exact (lv.clear s hs).mono (Span.Within.refl s) hroom
  · simp only [marked, above]
    omega
  · simp only [marked, above, sizeofMark]
    omega

theorem Level.pushChunk (lv : Level h h.obtained m f pc pb occ) (lawful : h.Lawful platform)
    (older : ∀ c ∈ pc ++ pb, Between h 0 f.since c) (fresh : Fresh platform h req a n)
    (fits : sizeofChunk + sizeofMark ≤ n) :
    Level (h.obtain a n) (h.obtained + 1) (markedChunk m a n) (frameAt h) m.lmChunks
      m.lmBigBlocks (own m f ++ occ) := by
  have hfar := lv.apart_fresh older fresh
  have hnot := lv.fresh_notMem older lawful fresh
  have haligned : a % 8 = 0 := fresh.aligned
  have hmem : ∀ s ∈ own (markedChunk m a n) (frameAt h) ++ (own m f ++ occ),
      s = (markedChunk m a n).span ∨ s ∈ own m f ++ occ := by
    intro s hs
    simpa [own, frameAt] using hs
  refine ⟨Nat.le_succ _, ?_, ⟨[⟨a, a + n⟩], rfl, ?_⟩, ⟨[], rfl, by simp⟩, ?_, ?_, ?_, ?_,
    ?_, ?_, ?_, ?_, by simp [frameAt]⟩
  · intro b
    rw [kept_frameAt lawful, Heap.mem_obtain]
    constructor
    · intro hb
      exact ⟨.inr hb.1, hb.2⟩
    · rintro ⟨rfl | hb, hlt⟩
      · exact absurd hlt (Nat.lt_irrefl _)
      · exact ⟨hb, hlt⟩
  · intro c hc
    obtain rfl := mem_singleton.mp hc
    exact between_obtain h (Nat.le_refl _)
  · exact nodup_cons.mpr ⟨hnot, lv.nodup⟩
  · intro s hs
    rcases hmem s hs with rfl | hs
    · refine ⟨⟨a, a + n⟩, by simp [markedChunk, above, lmChunks], ?_⟩
      simp only [Span.Within, MemLifoChunk.body, MemLifoMark.span, markedChunk, MemLifoMark.above]
      omega
    · obtain ⟨c, hc, hin⟩ := lv.inside s hs
      refine ⟨c, ?_, hin⟩
      simp only [markedChunk, above, lmChunks, mem_append,
        mem_cons] at hc ⊢
      tauto
  · refine pairwise_cons.mpr ⟨fun s hs => ?_, lv.apart⟩
    refine ((hfar s hs).mono (Span.Within.refl s) ?_).symm
    simp only [Span.Within, MemLifoMark.span, markedChunk, MemLifoMark.above]
    omega
  · intro s hs
    rcases hmem s hs with rfl | hs
    · exact .inl (Nat.le_refl _)
    · refine (hfar s hs).mono (Span.Within.refl s) ?_
      simp only [Span.Within, room, markedChunk, above]
      omega
  · simp only [markedChunk, above]
    omega
  · simp only [markedChunk, above]
    omega
  · simp only [markedChunk, above, sizeofChunk, sizeofMark]
    omega
  · simp only [markedChunk, above, sizeofChunk]
    omega

/-! ### The latest block -/

/-- Forget the latest block. -/
def Frame.drop (f : Frame) : Frame := { f with live := f.live.tail }

variable {b : Live}

theorem Frame.resize_eq (hlive : f.live = b :: rest) (p : Nat) (size : Nat → Nat) :
    f.resize p size = f.drop.give p (size b.size) := by
  simp [Frame.resize, Frame.drop, Frame.give, hlive]

theorem mem_own_drop {s : Span} (hs : s ∈ own m f.drop ++ occ) : s ∈ own m f ++ occ := by
  simp only [own, Frame.drop, mem_append, mem_map] at hs ⊢
  rcases hs with (⟨b, hb, rfl⟩ | hs) | hs
  · exact .inl (.inl ⟨b, mem_of_mem_tail hb, rfl⟩)
  · exact .inl (.inr hs)
  · exact .inr hs

theorem Level.drop (lv : Level h hi m f pc pb occ) : Level h hi m f.drop pc pb occ := by
  have hsub : (own m f.drop ++ occ).Sublist (own m f ++ occ) :=
    (((tail_sublist f.live).map Live.span).append (List.Sublist.refl _)).append
      (List.Sublist.refl _)
  exact { lv with
    inside := fun s hs => lv.inside s (mem_own_drop hs)
    apart := lv.apart.sublist hsub
    clear := fun s hs => lv.clear s (mem_own_drop hs)
    live_aligned := fun b hb => lv.live_aligned b (mem_of_mem_tail hb) }

/-- Take the latest block back into the room. -/
def retracted (m : MemLifoMark) : MemLifoMark := { m with lmFreeptr := m.lmLastAlloc }

theorem Level.retract (lv : Level h hi m f pc pb occ) (hlive : f.live = b :: rest)
    (hptr : b.ptr = m.lmLastAlloc) (hlo : m.lmChunk.addr + sizeofChunk ≤ m.lmLastAlloc)
    (hhi : b.ptr + b.size ≤ m.lmFreeptr)
    (hclear : ∀ s ∈ rest.map Live.span ++ m.span :: occ, s.Apart ⟨m.lmLastAlloc, m.lmChunk.lcEnd⟩) :
    Level h hi (retracted m) f.drop pc pb occ := by
  have hfree := lv.room_hi
  have haligned := lv.live_aligned b (by simp [hlive])
  refine { lv.drop with
    clear := fun s hs => hclear s ?_
    room_lo := hlo
    room_hi := ?_
    freeptr_aligned := by rw [hptr] at haligned; exact haligned }
  · simpa [own, Frame.drop, hlive, MemLifoMark.span, retracted] using hs
  · simp only [retracted]
    omega

/-- Take the first big block off the list. -/
def unlisted (m : MemLifoMark) (rest : List MemLifoChunk) : MemLifoMark :=
  { m with lmBigBlocks := rest }

theorem Level.unlist (lv : Level h hi m f pc pb occ) {c : MemLifoChunk} {new : List MemLifoChunk}
    (hlive : f.live = b :: rest) (hbig : m.lmBigBlocks = c :: (new ++ pb))
    (hinside : ∀ s ∈ rest.map Live.span ++ m.span :: occ,
      ∃ d ∈ m.lmChunks ++ (new ++ pb), s.Within d.body) :
    Level h hi (unlisted m (new ++ pb)) f.drop pc pb occ ∧ Between h f.since hi c := by
  obtain ⟨new', hnew, dnew⟩ := lv.bigBlocks
  obtain rfl : new' = c :: new := by
    rw [hbig, ← cons_append] at hnew
    exact (append_cancel_right hnew).symm
  refine ⟨{ lv.drop with
    bigBlocks := ⟨new, rfl, fun d hd => dnew d (mem_cons_of_mem _ hd)⟩
    nodup := ?_
    inside := fun s hs => hinside s ?_ }, dnew c mem_cons_self⟩
  · have hsub : (m.lmChunks ++ (new ++ pb)).Sublist (m.lmChunks ++ m.lmBigBlocks) := by
      rw [hbig]
      exact (List.Sublist.refl _).append (sublist_cons_self _ _)
    exact lv.nodup.sublist (hsub.map _)
  · simpa [own, Frame.drop, hlive, MemLifoMark.span, unlisted] using hs

/-- A level survives the release of a newer block that it does not list. -/
theorem Level.release {h' : Heap} (lv : Level h hi m f pc pb occ) {b : Block}
    (hmem : ∀ c, c ∈ h'.outstanding ↔ c ∈ h.outstanding ∧ c ≠ b) (newer : f.since ≤ b.id)
    (notMem : b.addr ∉ (m.lmChunks ++ m.lmBigBlocks).map MemLifoChunk.addr) :
    Level h' hi m f pc pb occ := by
  have hbetween : ∀ c ∈ m.lmChunks ++ m.lmBigBlocks, Between h f.since hi c →
      Between h' f.since hi c := by
    rintro c hc ⟨d, hd, hdc, hdates⟩
    refine ⟨d, (hmem d).mpr ⟨hd, ?_⟩, hdc, hdates⟩
    rintro rfl
    exact notMem (mem_map.mpr ⟨c, hc, hdc.1.symm⟩)
  obtain ⟨newC, hC, dC⟩ := lv.chunks
  obtain ⟨newB, hB, dB⟩ := lv.bigBlocks
  refine { lv with
    kept := fun d => (lv.kept d).trans ?_
    chunks := ⟨newC, hC, fun c hc => hbetween c (by simp [hC, hc]) (dC c hc)⟩
    bigBlocks := ⟨newB, hB, fun c hc => hbetween c (by simp [hB, hc]) (dB c hc)⟩ }
  rw [hmem]
  constructor
  · rintro ⟨hd, hlt⟩
    refine ⟨⟨hd, ?_⟩, hlt⟩
    rintro rfl
    omega
  · intro hd
    exact ⟨hd.1.1, hd.2⟩

end Twapi.Lifo
