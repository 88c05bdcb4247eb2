import Twapi.Lifo.Session

/-!
The layout invariant of a pool and the caller's view of it.

The caller's blocks and the mark descriptors occupy address ranges inside the
bodies of chunks and big blocks. For one mark (`Level`), everything handed out
up to that mark lies inside what the mark lists, does not overlap, and keeps
clear of the mark's `room` — what is left of its current chunk. `LastOk` says
what the last allocation is: the piece just before the room, or the whole body
of the big block at the head of the list.

`Laid` states this for every mark of the stack, not only the top one, since
each becomes the top mark when the marks above it are popped. Blocks are dated
by the order they were obtained in: a mark lists beyond its predecessor's
lists only blocks obtained since it was pushed and before the next mark was.
-/

namespace Twapi.Lifo

open Base Lib

/-! ### Ranges -/

def Live.span (b : Live) : Span := ⟨b.ptr, b.ptr + b.size⟩

def MemLifoMark.span (m : MemLifoMark) : Span := ⟨m.addr, m.addr + sizeofMark⟩

/-- A chunk or big block without its descriptor. -/
def MemLifoChunk.body (c : MemLifoChunk) : Span := ⟨c.addr + sizeofChunk, c.lcEnd⟩

def MemLifoMark.room (m : MemLifoMark) : Span := ⟨m.lmFreeptr, m.lmChunk.lcEnd⟩

/-- The descriptor in front of a chunk or big block. -/
def header (b : Block) : Span := ⟨b.addr, b.addr + sizeofChunk⟩

/-- What one mark and the blocks handed out under it occupy. -/
def own (m : MemLifoMark) (f : Frame) : List Span := f.live.map Live.span ++ [m.span]

/-- What a stack of marks occupies. -/
def occupied : List MemLifoMark → List Frame → List Span
  | m :: ms, f :: fs => own m f ++ occupied ms fs
  | _, _ => []

/-- The chunk list of the top of a stack of marks; `base` is the first chunk. -/
def chunksOf (base : MemLifoChunk) : List MemLifoMark → List MemLifoChunk
  | [] => [base]
  | m :: _ => m.lmChunks

def bigBlocksOf : List MemLifoMark → List MemLifoChunk
  | [] => []
  | m :: _ => m.lmBigBlocks

/-! ### Dates -/

/-- The chunk is an outstanding block, number `lo` or later and before `hi` in
the order of obtaining. -/
def Between (h : Heap) (lo hi : Nat) (c : MemLifoChunk) : Prop :=
  ∃ b ∈ h.outstanding, (b.addr = c.addr ∧ b.addr + b.size = c.lcEnd) ∧ lo ≤ b.id ∧ b.id < hi

theorem Between.mono {h : Heap} {lo lo' hi hi' : Nat} {c : MemLifoChunk} (hc : Between h lo hi c)
    (le : lo' ≤ lo) (le' : hi ≤ hi') : Between h lo' hi' c := by
  obtain ⟨b, hb, hcb, hlo, hhi⟩ := hc
  exact ⟨b, hb, hcb, Nat.le_trans le hlo, Nat.lt_of_lt_of_le hhi le'⟩

theorem Between.transport {h h' : Heap} {lo hi : Nat} {c : MemLifoChunk} (hc : Between h lo hi c)
    (agree : Heap.AgreeBelow hi h h') : Between h' lo hi c := by
  obtain ⟨b, hb, hcb, hlo, hhi⟩ := hc
  exact ⟨b, (agree.mem b hhi).mpr hb, hcb, hlo, hhi⟩

/-! ### The invariant -/

/-- What holds of one mark `m` with frame `f`. `pc` and `pb` are its
predecessor's lists, `occ` is what the older marks occupy, and `hi` bounds the
blocks it may list. -/
structure Level (h : Heap) (hi : Nat) (m : MemLifoMark) (f : Frame) (pc pb : List MemLifoChunk)
    (occ : List Span) : Prop where
  since_le : f.since ≤ hi
  kept : ∀ b, b ∈ f.kept ↔ b ∈ h.outstanding ∧ b.id < f.since
  chunks : ∃ new, m.lmChunks = new ++ pc ∧ ∀ c ∈ new, Between h f.since hi c
  bigBlocks : ∃ new, m.lmBigBlocks = new ++ pb ∧ ∀ c ∈ new, Between h f.since hi c
  nodup : ((m.lmChunks ++ m.lmBigBlocks).map MemLifoChunk.addr).Nodup
  inside : ∀ s ∈ own m f ++ occ, ∃ c ∈ m.lmChunks ++ m.lmBigBlocks, s.Within c.body
  apart : (own m f ++ occ).Pairwise Span.Apart
  clear : ∀ s ∈ own m f ++ occ, s.Apart m.room
  room_lo : m.lmChunk.addr + sizeofChunk ≤ m.lmFreeptr
  room_hi : m.lmFreeptr ≤ m.lmChunk.lcEnd
  freeptr_aligned : m.lmFreeptr % 8 = 0
  mark_aligned : m.addr % 8 = 0
  live_aligned : ∀ b ∈ f.live, b.ptr % 8 = 0

/-- What the last allocation of `m` is; `others` is occupied by everything
but the blocks handed out under `m`, which are `live`. -/
inductive LastOk (m : MemLifoMark) (pb : List MemLifoChunk) (others : List Span) :
    List Live → Prop where
  | none : m.lmLastAlloc = 0 → LastOk m pb others []
  | chunk {b : Live} {rest : List Live} :
      b.ptr = m.lmLastAlloc → m.lmChunk.addr + sizeofChunk ≤ m.lmLastAlloc →
      b.ptr + b.size ≤ m.lmFreeptr →
      (∀ s ∈ rest.map Live.span ++ others, s.Apart ⟨m.lmLastAlloc, m.lmChunk.lcEnd⟩) →
      LastOk m pb others (b :: rest)
  | bigBlock {b : Live} {rest : List Live} {c : MemLifoChunk} {new : List MemLifoChunk} :
      m.lmBigBlocks = c :: (new ++ pb) → b.ptr = m.lmLastAlloc →
      m.lmLastAlloc = c.addr + sizeofChunk → b.ptr + b.size ≤ c.lcEnd →
      (∀ s ∈ rest.map Live.span ++ others, ∃ d ∈ m.lmChunks ++ (new ++ pb), s.Within d.body) →
      LastOk m pb others (b :: rest)

/-- The invariant of a stack of marks and their frames. -/
def Laid (h : Heap) (base : MemLifoChunk) : Nat → List MemLifoMark → List Frame → Prop
  | hi, [], [] => Between h 0 hi base
  | hi, m :: ms, f :: fs =>
    Level h hi m f (chunksOf base ms) (bigBlocksOf ms) (occupied ms fs) ∧
    LastOk m (bigBlocksOf ms) (m.span :: occupied ms fs) f.live ∧
    Laid h base f.since ms fs
  | _, _, _ => False

/-- What the operations need of a pool: the invariant, except that nothing is
said about the last allocation. `f` is the top frame and `fs` the others. -/
structure Ready (base : MemLifoChunk) (l : MemLifo) (f : Frame) (fs : List Frame) : Prop where
  lawful : l.heap.Lawful platform
  wide : ∀ b ∈ l.heap.outstanding, sizeofChunk ≤ b.size
  chunkSize_ge : 1000 ≤ l.lifoChunkSize
  chunkSize_lt : l.lifoChunkSize < 4294967296
  chunkSize_aligned : l.lifoChunkSize % 8 = 0
  level : Level l.heap l.heap.obtained l.top f (chunksOf base l.below) (bigBlocksOf l.below)
    (occupied l.below fs)
  below : Laid l.heap base f.since l.below fs

/-- `LastOk` of the top mark. -/
def TopLast (l : MemLifo) (f : Frame) (fs : List Frame) : Prop :=
  LastOk l.top (bigBlocksOf l.below) (l.top.span :: occupied l.below fs) f.live

/-- The invariant of a session. -/
def Inv (l : MemLifo) (fs : List Frame) : Prop :=
  ∃ base f rest, fs = f :: rest ∧ Ready base l f rest ∧ TopLast l f rest

/-! ### Lemmas on the heap part -/

section HeapPart

variable {h h' : Heap} {hi hi' : Nat} {m : MemLifoMark} {f : Frame} {pc pb : List MemLifoChunk}
  {occ : List Span} {base : MemLifoChunk} {ms : List MemLifoMark} {fs : List Frame}

/-- A level may list blocks up to a later bound. -/
theorem Level.mono (lv : Level h hi m f pc pb occ) (le : hi ≤ hi') :
    Level h hi' m f pc pb occ := by
  obtain ⟨newC, hC, dC⟩ := lv.chunks
  obtain ⟨newB, hB, dB⟩ := lv.bigBlocks
  exact { lv with
    since_le := Nat.le_trans lv.since_le le
    chunks := ⟨newC, hC, fun c hc => (dC c hc).mono (Nat.le_refl _) le⟩
    bigBlocks := ⟨newB, hB, fun c hc => (dB c hc).mono (Nat.le_refl _) le⟩ }

/-- A level looks only at the blocks before its bound. -/
theorem Level.transport (lv : Level h hi m f pc pb occ) (agree : Heap.AgreeBelow hi h h') :
    Level h' hi m f pc pb occ := by
  obtain ⟨newC, hC, dC⟩ := lv.chunks
  obtain ⟨newB, hB, dB⟩ := lv.bigBlocks
  refine { lv with
    kept := fun b => (lv.kept b).trans ?_
    chunks := ⟨newC, hC, fun c hc => (dC c hc).transport agree⟩
    bigBlocks := ⟨newB, hB, fun c hc => (dB c hc).transport agree⟩ }
  constructor
  · rintro ⟨hb, hid⟩
    exact ⟨(agree.mem b (Nat.lt_of_lt_of_le hid lv.since_le)).mpr hb, hid⟩
  · rintro ⟨hb, hid⟩
    exact ⟨(agree.mem b (Nat.lt_of_lt_of_le hid lv.since_le)).mp hb, hid⟩

theorem Laid.mono (w : Laid h base hi ms fs) (le : hi ≤ hi') : Laid h base hi' ms fs := by
  cases ms with
  | nil =>
    cases fs with
    | nil => exact .mono w (Nat.le_refl _) le
    | cons f fs => exact w.elim
  | cons m ms =>
    cases fs with
    | nil => exact w.elim
    | cons f fs => exact ⟨w.1.mono le, w.2⟩

/-- The invariant of a stack survives every change of the heap that leaves the
blocks before its bound alone. -/
theorem Laid.transport (w : Laid h base hi ms fs) (agree : Heap.AgreeBelow hi h h') :
    Laid h' base hi ms fs := by
  induction ms generalizing hi fs with
  | nil =>
    cases fs with
    | nil => exact .transport w agree
    | cons f fs => exact w.elim
  | cons m ms ih =>
    cases fs with
    | nil => exact w.elim
    | cons f fs =>
      exact ⟨w.1.transport agree, w.2.1, ih w.2.2 (agree.mono w.1.since_le)⟩

/-- Everything a mark lists is outstanding and older than the bound, if that
holds of what its predecessor lists. -/
theorem Level.between (lv : Level h hi m f pc pb occ)
    (older : ∀ c ∈ pc ++ pb, Between h 0 f.since c) :
    ∀ c ∈ m.lmChunks ++ m.lmBigBlocks, Between h 0 hi c := by
  obtain ⟨newC, hC, dC⟩ := lv.chunks
  obtain ⟨newB, hB, dB⟩ := lv.bigBlocks
  intro c hc
  simp only [hC, hB, List.mem_append] at hc older
  rcases hc with (hc | hc) | (hc | hc)
  · exact (dC c hc).mono (Nat.zero_le _) (Nat.le_refl _)
  · exact (older c (.inl hc)).mono (Nat.le_refl _) lv.since_le
  · exact (dB c hc).mono (Nat.zero_le _) (Nat.le_refl _)
  · exact (older c (.inr hc)).mono (Nat.le_refl _) lv.since_le

theorem Laid.between (w : Laid h base hi ms fs) :
    ∀ c ∈ chunksOf base ms ++ bigBlocksOf ms, Between h 0 hi c := by
  induction ms generalizing hi fs with
  | nil =>
    cases fs with
    | nil =>
      intro c hc
      simp only [chunksOf, bigBlocksOf, List.append_nil, List.mem_singleton] at hc
      exact hc ▸ w
    | cons f fs => exact w.elim
  | cons m ms ih =>
    cases fs with
    | nil => exact w.elim
    | cons f fs => exact w.1.between (ih w.2.2)

end HeapPart

end Twapi.Lifo
