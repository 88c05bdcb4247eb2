import Twapi.Lifo.Invariant

/-!
What the caller may rely on: the blocks handed out do not collide.

* `Safe` — every block handed out and not released is aligned, lies in memory
  that has not been freed, and is apart from every other block, from the mark
  descriptors and from the chunk descriptors.
* `Inv.safe` — the layout invariant gives this for the whole stack of marks.
* `reaches_safe` — it holds after every run whose calls meet `Guard`.
* `expandLast_overruns` — a run outside the guard: the in-place branch of
  `MemLifoExpandLast` compares the increment as a signed number.
* `Resized` — what `MemLifoExpandLast` and `MemLifoResizeLast` are for: `NULL`
  and an unchanged pool, or a block of the size asked for inside one chunk or
  big block; `ExpandBounded` — the sizes for which this comes true.
-/

namespace Twapi.Lifo

open Base Lib

/-- The caller's blocks are sound. A block's span has the size it was
requested with or last resized to. -/
structure Safe (s : Session) : Prop where
  aligned : ∀ b ∈ s.live, b.ptr % 8 = 0
  inside : ∀ b ∈ s.live, ∃ k ∈ s.pool.heap.outstanding, b.span.Within k.span
  apart : s.live.Pairwise fun b c => b.span.Apart c.span
  marks : ∀ b ∈ s.live, ∀ m ∈ s.pool.marks, b.span.Apart m.span
  headers : ∀ b ∈ s.live, ∀ k ∈ s.pool.heap.outstanding, b.span.Apart (header k)

theorem safe_iff (s : Session) : Safe s ↔
    (∀ b ∈ s.live, b.ptr % 8 = 0) ∧
    (∀ b ∈ s.live, ∃ k ∈ s.pool.heap.outstanding, b.span.Within k.span) ∧
    s.live.Pairwise (fun b c => b.span.Apart c.span) ∧
    (∀ b ∈ s.live, ∀ m ∈ s.pool.marks, b.span.Apart m.span) ∧
    (∀ b ∈ s.live, ∀ k ∈ s.pool.heap.outstanding, b.span.Apart (header k)) :=
  ⟨fun h => ⟨h.aligned, h.inside, h.apart, h.marks, h.headers⟩,
    fun ⟨h₁, h₂, h₃, h₄, h₅⟩ => ⟨h₁, h₂, h₃, h₄, h₅⟩⟩

instance (s : Session) : Decidable (Safe s) := decidable_of_iff' _ (safe_iff s)

/-! ### From the invariant -/

variable {h : Heap} {hi : Nat} {base : MemLifoChunk} {ms : List MemLifoMark} {fs : List Frame}
  {l : MemLifo}

/-- What a stack occupies: the caller's blocks and the mark descriptors. -/
theorem occupied_perm (hlength : fs.length = ms.length) :
    (occupied ms fs).Perm ((fs.flatMap Frame.live).map Live.span ++ ms.map MemLifoMark.span) := by
  induction ms generalizing fs with
  | nil =>
    obtain rfl := List.length_eq_zero_iff.mp hlength
    exact .refl _
  | cons m ms ih =>
    cases fs with
    | nil => cases hlength
    | cons f fs =>
      have htail := ih (Nat.succ.inj hlength)
      simp only [occupied, own, List.flatMap_cons, List.map_append, List.map_cons,
        List.append_assoc, List.singleton_append]
      refine List.Perm.append_left _ ?_
      exact (htail.cons _).trans List.perm_middle.symm

theorem Laid.aligned (w : Laid h base hi ms fs) : ∀ b ∈ fs.flatMap Frame.live, b.ptr % 8 = 0 := by
  induction ms generalizing hi fs with
  | nil =>
    cases fs with
    | nil => simp
    | cons f fs => exact w.elim
  | cons m ms ih =>
    cases fs with
    | nil => exact w.elim
    | cons f fs =>
      intro b hb
      rw [List.flatMap_cons, List.mem_append] at hb
      rcases hb with hb | hb
      · exact w.1.live_aligned b hb
      · exact ih w.2.2 b hb

/-- Everything a stack occupies is apart, and inside outstanding blocks clear of
every descriptor. -/
theorem Laid.sound (w : Laid h base hi ms fs) (lawful : h.Lawful platform)
    (wide : ∀ b ∈ h.outstanding, sizeofChunk ≤ b.size) :
    (occupied ms fs).Pairwise Span.Apart ∧
      ∀ s ∈ occupied ms fs, (∃ k ∈ h.outstanding, s.Within k.span) ∧
        ∀ k ∈ h.outstanding, s.Apart (header k) := by
  cases ms with
  | nil =>
    cases fs with
    | nil => simp [occupied]
    | cons f fs => exact w.elim
  | cons m ms =>
    cases fs with
    | nil => exact w.elim
    | cons f fs =>
      refine ⟨w.1.apart, fun s hs => ?_⟩
      obtain ⟨c, hc, hwithin⟩ := w.1.inside s hs
      obtain ⟨k, hk, ⟨haddr, hend⟩, -⟩ := w.1.between w.2.2.between c hc
      simp only [Span.Within, MemLifoChunk.body] at hwithin
      have hin : s.Within k.span := by
        simp only [Span.Within, Block.span]
        omega
      refine ⟨⟨k, hk, hin⟩, fun d hd => ?_⟩
      by_cases heq : d.addr = k.addr
      · refine .inr ?_
        simp only [header]
        omega
      · refine ((lawful.apart_of_ne hd hk heq).mono ?_ hin).symm
        have := wide d hd
        simp only [Span.Within, header, Block.span]
        omega

theorem Inv.safe (w : Inv l fs) : Safe ⟨l, fs⟩ := by
  obtain ⟨base, lawful, wide, -, -, -, laid⟩ := inv_iff.mp w
  obtain ⟨hapart, hsound⟩ := laid.sound lawful wide
  have hperm := occupied_perm laid.length
  have hlive : ∀ b ∈ fs.flatMap Frame.live, b.span ∈ occupied l.marks fs := fun b hb =>
    hperm.mem_iff.mpr (List.mem_append_left _ (List.mem_map_of_mem hb))
  have hall := (hperm.pairwise_iff fun hab => hab.symm).mp hapart
  rw [List.pairwise_append, List.pairwise_map] at hall
  obtain ⟨hblocks, -, hmarks⟩ := hall
  exact {
    aligned := laid.aligned
    inside := fun b hb => (hsound _ (hlive b hb)).1
    apart := hblocks
    marks := fun b hb m hm => hmarks _ (List.mem_map_of_mem hb) _ (List.mem_map_of_mem hm)
    headers := fun b hb => (hsound _ (hlive b hb)).2 }

/-! ### Over runs -/

/-- The calls of a client that keeps to the interface: sizes can be rounded up
and only the most recent mark is popped. -/
def Polite (s : Session) (op : Op) : Prop :=
  Rounds op ∧ match op with
    | .popMark mark => mark = s.pool.top.addr
    | _ => True

instance (s : Session) (op : Op) : Decidable (Polite s op) := by
  unfold Polite
  refine op.casesOn ?_ ?_ ?_ ?_ ?_ ?_ ?_ ?_ <;> intros <;> infer_instance

/-- In every run whose calls avoid the arithmetic defects the caller's blocks
stay sound, whatever the allocator answers. -/
theorem reaches_safe (A : ChunkAllocator) (chunkSz : UInt32) (panicOnFail : Bool)
    (round : RoundsUp chunkSz) (s : Session)
    (run : (lifoMachine A chunkSz panicOnFail).Reaches (Guard A) s) : Safe s :=
  (reaches_inv round run).safe

/-- An allocator for concrete runs. -/
def plainAllocator : ChunkAllocator := bump platform (by decide)

/-- The pool `MemLifoInit` makes with chunk size 1000. -/
def plainPool : MemLifo :=
  ⟨⟨24, 0, [], ⟨8, 1008⟩, [], 80⟩, [], 1000, false, ⟨[⟨0, 8, 1000⟩], 1, []⟩⟩

theorem plainPool_init :
    (lifoMachine plainAllocator 1000 false).init (.start plainPool) :=
  ⟨plainPool, by decide, rfl⟩

/-- A run through all kinds of calls: two marks, a big block that is replaced
by a larger one, and a frame in a chunk of its own. -/
def tour : List Op :=
  [.alloc 100 false, .pushMark, .alloc 400 false, .expandLast 100 true, .shrinkLast 50 true,
    .alloc 900 false, .resizeLast 2000 false, .pushFrame 300 false, .alloc 40 true, .popFrame]

theorem reaches_safe_tour : ∃ s, RoundsUp 1000 ∧
    (lifoMachine plainAllocator 1000 false).Reaches (Guard plainAllocator) s ∧
      s.live.length = 3 ∧ Safe s := by
  obtain ⟨s, run, hlive⟩ := Machine.Reaches.exists_of_run (G := Guard plainAllocator) tour
    (fun s => s.live.length = 3) plainPool_init (by decide)
  exact ⟨s, by decide, run, hlive, reaches_safe plainAllocator 1000 false (by decide) s run⟩

/-- Expanding a 16-byte block by 2 GiB succeeds in place in a chunk of 1000
bytes: the increment is negative as an `int`, so what is left of the chunk is
not less. -/
theorem expandLast_overruns : ¬ ∀ (A : ChunkAllocator) (chunkSz : UInt32) (panicOnFail : Bool),
    RoundsUp chunkSz → ∀ s, (lifoMachine A chunkSz panicOnFail).Reaches Polite s → Safe s := by
  intro claim
  obtain ⟨s, run, unsound⟩ := Machine.Reaches.exists_of_run (G := Polite)
    [.alloc 16 false, .expandLast 2147483648 false] (fun s => ¬ Safe s) plainPool_init (by decide)
  exact unsound (claim plainAllocator 1000 false (by decide) s run)

/-! ### MemLifoExpandLast and MemLifoResizeLast, for every size -/

/-- The size the caller knows the latest block by. -/
def Session.lastSize (s : Session) : Nat :=
  match s.frames with
  | ⟨b :: _, _, _⟩ :: _ => b.size
  | _ => 0

/-- The call leaves the pool alone and returns `NULL`, or returns a block of
`size` bytes inside one chunk or big block. A pool made to panic may panic. -/
def Resized (l : MemLifo) (size : Nat) : Except Fault (Option Grant × MemLifo) → Prop
  | .ok (none, l') => l' = l
  | .ok (some g, l') => ∃ c ∈ l'.top.lmChunks ++ l'.top.lmBigBlocks,
      Span.Within ⟨g.ptr, g.ptr + size⟩ c.body
  | .error e => e = .panic

instance (l : MemLifo) (size : Nat) (r : Except Fault (Option Grant × MemLifo)) :
    Decidable (Resized l size r) := by
  rcases r with e | ⟨_ | g, l'⟩ <;> unfold Resized <;> infer_instance

/-- The computations of `MemLifoExpandLast` on a block, without wrap-around and
without a change of sign: the rounded increment, the size of the block, the two
sides of the comparison, the new size. -/
structure ExpandExact (l : MemLifo) (incr : Nat) (fix : Bool) : Prop where
  rounded : incr ≤ roundUp incr
  old : l.top.isBigBlock = false → l.top.lmLastAlloc + l.top.oldSize = l.top.lmFreeptr
  oldBig : ∀ c rest, l.top.isBigBlock = true → l.top.lmBigBlocks = c :: rest →
    l.top.lmLastAlloc + l.top.oldSize = c.lcEnd
  compared : l.top.isBigBlock = false → toInt (roundUp incr) = roundUp incr ∧
    l.top.left = (l.top.lmChunk.lcEnd : Int) - l.top.lmFreeptr
  total : fix = false → l.top.isBigBlock = true ∨ l.top.left < toInt (roundUp incr) →
    dword (l.top.oldSize + roundUp incr) = l.top.oldSize + roundUp incr

/-- The increment rounds up to a `DWORD`; it and what is left of the chunk are
`int`s where they are compared; the new size is a `DWORD` where it is needed,
and so is the size of the chunk the block moves to. -/
def ExpandBounded (l : MemLifo) (incr : Nat) (fix : Bool) : Prop :=
  incr ≤ 4294967288 ∧
  (l.top.isBigBlock = false →
    roundUp incr ≤ intMax ∧ l.top.lmChunk.lcEnd - l.top.lmFreeptr ≤ intMax) ∧
  (fix = false → l.top.isBigBlock = true ∨ l.top.lmChunk.lcEnd < l.top.lmFreeptr + roundUp incr →
    l.top.oldSize + roundUp incr < 4294967296 ∧
      (l.top.isBigBlock = false → AllocSound l (l.top.oldSize + roundUp incr) false))

instance (l : MemLifo) (incr : Nat) (fix : Bool) : Decidable (ExpandBounded l incr fix) := by
  unfold ExpandBounded; infer_instance

/-- A call of `MemLifoExpandLast`: with no block to expand it allocates. -/
def ExpandCall (l : MemLifo) (incr : Nat) (fix : Bool) : Prop :=
  if l.top.lmLastAlloc = 0 then AllocSound l incr false else ExpandBounded l incr fix

/-- A call of `MemLifoResizeLast`: with no block it returns `NULL`. -/
def ResizeBounded (l : MemLifo) (newSz : Nat) (fix : Bool) : Prop :=
  l.top.lmLastAlloc ≠ 0 → newSz ≤ 4294967288 ∧
    (l.top.oldSize < roundUp newSz → ExpandBounded l (roundUp newSz - l.top.oldSize) fix)

instance (l : MemLifo) (incr : Nat) (fix : Bool) : Decidable (ExpandCall l incr fix) := by
  unfold ExpandCall; infer_instance

instance (l : MemLifo) (newSz : Nat) (fix : Bool) : Decidable (ResizeBounded l newSz fix) := by
  unfold ResizeBounded; infer_instance

variable {A : ChunkAllocator} {base : MemLifoChunk} {l : MemLifo} {f : Frame} {fs : List Frame}

/-- What was granted lies inside one of the blocks the mark lists. -/
theorem Granted.inside {p size r : Nat} (granted : Granted base l f fs p size) (hr : r ≤ size) :
    ∃ c ∈ l.top.lmChunks ++ l.top.lmBigBlocks, Span.Within ⟨p, p + r⟩ c.body :=
  (granted r hr).1.level.inside _ (by simp)

theorem LastPost.resized {size r : Nat} {a : Except Fault (Option Grant × MemLifo)}
    (post : Meets (LastPost base l f fs size) a) (hr : r ≤ size) : Resized l r a := by
  rcases a with e | ⟨_ | g, l'⟩
  · exact post
  · exact post
  · exact post.2.inside hr

variable {fix : Bool}

/-- In bounds the comparison is one of numbers. -/
theorem Ready.expandExact (w : Ready base l f fs) (last : TopLast l f fs) {incr : Nat}
    (hlast : l.top.lmLastAlloc ≠ 0) (bounded : ExpandBounded l incr fix) :
    ExpandExact l incr fix := by
  obtain ⟨hround, hsigned, htotal⟩ := bounded
  have hroom := w.level.room_hi
  have compared : l.top.isBigBlock = false → toInt (roundUp incr) = roundUp incr ∧
      l.top.left = (l.top.lmChunk.lcEnd : Int) - l.top.lmFreeptr := by
    intro hnot
    obtain ⟨hincr, hleft⟩ := hsigned hnot
    simp only [intMax] at hincr hleft
    constructor
    · simp only [toInt]
      omega
    · simp only [MemLifoMark.left, ptrDiff32, toInt]
      omega
  refine ⟨le_roundUp hround, ?_, ?_, compared, fun hfix hplace => ?_⟩
  · intro hnot
    rcases last.cases w with ⟨hzero, -⟩ | i | ⟨c, rest, i⟩
    · exact absurd hzero hlast
    · exact i.oldSize
    · simp [i.isBig] at hnot
  · intro c rest hbig hlist
    rcases last.cases w with ⟨hzero, -⟩ | i | ⟨d, rest', i⟩
    · exact absurd hzero hlast
    · simp [i.notBig] at hbig
    · have heq := i.list.symm.trans hlist
      cases heq
      exact i.oldSize
  · refine Nat.mod_eq_of_lt (htotal hfix ?_).1
    rcases hplace with hbig | hplace
    · exact .inl hbig
    · cases hbig : l.top.isBigBlock with
      | true => exact .inl rfl
      | false =>
        obtain ⟨hincr, hleft⟩ := compared hbig
        omega

theorem Ready.expandSound (w : Ready base l f fs) (last : TopLast l f fs) {incr : Nat}
    (hlast : l.top.lmLastAlloc ≠ 0) (bounded : ExpandBounded l incr fix) :
    ExpandSound l incr fix := by
  obtain ⟨-, -, -, compared, -⟩ := w.expandExact last hlast bounded
  rw [ExpandSound, if_neg hlast]
  split
  · rename_i hplace
    obtain ⟨hincr, hleft⟩ := compared hplace.1
    omega
  · rename_i hplace
    split
    · trivial
    · rename_i hfix
      refine bounded.2.2 (Bool.not_eq_true _ ▸ hfix) ?_
      cases hbig : l.top.isBigBlock with
      | true => exact .inl rfl
      | false =>
        obtain ⟨hincr, hleft⟩ := compared hbig
        have hplace : ¬ toInt (roundUp incr) ≤ l.top.left := fun h => hplace ⟨hbig, h⟩
        omega

/-- With no block under the top mark the call is an allocation. -/
theorem Ready.resizedAlloc (w : Ready base l f fs) {incr : Nat} (sound : AllocSound l incr false) :
    Resized l incr (memLifoAlloc A l incr false) := by
  have post := w.alloc (A := A) sound
  by_cases hmax : memlifoMaxAlloc < incr
  · rw [memLifoAlloc, if_pos hmax, failAlloc]
    split
    · exact rfl
    · exact rfl
  · revert post
    rcases memLifoAlloc A l incr false with e | ⟨_ | g, l'⟩
    · exact id
    · exact id
    · intro post
      refine post.2.inside ?_
      have hle : incr ≤ 4294967288 := Nat.le_trans (Nat.le_of_not_lt hmax) (by decide)
      simpa using le_roundUp hle

theorem TopLast.resizedExpand (w : Ready base l f fs) (last : TopLast l f fs) {incr : Nat}
    (call : ExpandCall l incr fix) :
    Resized l ((Session.mk l (f :: fs)).lastSize + incr) (memLifoExpandLast A l incr fix) := by
  unfold ExpandCall at call
  by_cases hlast : l.top.lmLastAlloc = 0
  · rw [if_pos hlast] at call
    rcases last.cases w with ⟨-, hlive⟩ | i | ⟨c, rest, i⟩
    · have hsize : (Session.mk l (f :: fs)).lastSize = 0 := by
        obtain ⟨live, since, kept⟩ := f
        cases hlive
        rfl
      simp only [memLifoExpandLast, if_pos hlast, hsize, Nat.zero_add]
      exact w.resizedAlloc call
    · exact absurd hlast i.nonzero
    · exact absurd hlast i.nonzero
  · rw [if_neg hlast] at call
    obtain ⟨b, rest, hlive, hsize⟩ := last.holds w hlast
    refine LastPost.resized (last.expandLast w hlast (w.expandSound last hlast call)) ?_
    have hround := (w.expandExact last hlast call).rounded
    have hsize' : (Session.mk l (f :: fs)).lastSize = b.size := by
      obtain ⟨live, since, kept⟩ := f
      cases hlive
      rfl
    omega

theorem TopLast.resizedResize (w : Ready base l f fs) (last : TopLast l f fs) {newSz : Nat}
    (bounded : ResizeBounded l newSz fix) :
    Resized l newSz (memLifoResizeLast A l newSz fix) := by
  by_cases hlast : l.top.lmLastAlloc = 0
  · rw [memLifoResizeLast, if_pos hlast]
    exact rfl
  · obtain ⟨hround, hgrow⟩ := bounded hlast
    refine LastPost.resized (last.resizeLast w ?_) (le_roundUp hround)
    unfold ResizeSound
    split
    · rename_i h
      exact w.expandSound last hlast (hgrow h.2)
    · trivial

end Twapi.Lifo
