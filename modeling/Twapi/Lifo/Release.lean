import Twapi.Lifo.Safety

/-!
What a pop and a close give back to the heap.

* `Exact` — a pop that leaves what was allocated when the mark was pushed.
* `popMark_exact_iff` — popping a mark is exact if and only if the mark lists
  every outstanding block obtained since it was pushed, and is not the bottom
  mark unless there is none. Blocks obtained under newer marks are listed by
  those, and `MemLifoPopMark` walks only the lists of the mark it is given.
* `close_exact_iff` — `MemLifoClose` frees everything, each block once, if and
  only if the chunk it frees is the only block outstanding: the bottom mark is
  its own predecessor, so popping it frees nothing.
-/

namespace Twapi.Lifo

open Base Lib

variable {A : ChunkAllocator} {h : Heap} {hi : Nat} {base : MemLifoChunk}
  {ms newer older : List MemLifoMark} {fs : List Frame} {f : Frame} {m : MemLifoMark} {l : MemLifo}

/-! ### Popping a mark -/

/-- Going from `h` to `h'` gave back what was obtained since the mark of `f` was
pushed, each block once, and nothing else. -/
structure Exact (h h' : Heap) (f : Frame) : Prop where
  left : ∀ b : Block, b ∈ h'.outstanding ↔ b ∈ f.kept
  freed : ∀ id, f.since ≤ id → id < h.obtained → h'.freed.count id = 1
  spared : ∀ id < f.since, h'.freed.count id = h.freed.count id

/-- The mark lists every outstanding block obtained since it was pushed; the
bottom mark, which has no mark under it, has none to list. -/
def Accounted (h : Heap) (m : MemLifoMark) (older : List MemLifoMark) (f : Frame) : Prop :=
  ∀ b ∈ h.outstanding, f.since ≤ b.id → older ≠ [] ∧ b.addr ∈ m.listed

instance (h : Heap) (m : MemLifoMark) (older : List MemLifoMark) (f : Frame) :
    Decidable (Accounted h m older f) := by
  unfold Accounted
  infer_instance

/-- Exactness is a matter of what is left outstanding. -/
theorem exact_iff {h' : Heap} (lawful : h.Lawful platform) (lawful' : h'.Lawful platform)
    (obtained : h'.obtained = h.obtained)
    (kept : ∀ b : Block, b ∈ f.kept ↔ b ∈ h.outstanding ∧ b.id < f.since)
    (agree : Heap.AgreeBelow f.since h h') (since : f.since ≤ h.obtained) :
    Exact h h' f ↔ ∀ b ∈ h'.outstanding, b.id < f.since := by
  constructor
  · intro exact b hb
    exact ((kept b).mp ((exact.left b).mp hb)).2
  intro hold
  refine ⟨fun b => ?_, fun id hge hlt => ?_, fun id hlt => ?_⟩
  · rw [kept]
    constructor
    · intro hb
      exact ⟨(agree.mem b (hold b hb)).mp hb, hold b hb⟩
    · intro hb
      exact (agree.mem b hb.2).mpr hb.1
  · apply (lawful'.freed_once_iff (obtained ▸ hlt)).mpr
    intro b hb heq
    have := hold b hb
    omega
  · -- a block older than the mark is released now only if it was released before
    have hid : id < h.obtained := Nat.lt_of_lt_of_le hlt since
    have hiff : h'.freed.count id = 1 ↔ h.freed.count id = 1 := by
      rw [lawful'.freed_once_iff (obtained ▸ hid), lawful.freed_once_iff hid]
      constructor
      · rintro hnone b hb rfl
        exact hnone b ((agree.mem b hlt).mpr hb) rfl
      · rintro hnone b hb rfl
        exact hnone b ((agree.mem b hlt).mp hb) rfl
    have hledger := lawful.ledger id hid
    have hledger' := lawful'.ledger id (obtained ▸ hid)
    omega

/-- Marks are at different addresses. -/
theorem Laid.nodup (w : Laid h base hi ms fs) (lawful : h.Lawful platform)
    (wide : ∀ b ∈ h.outstanding, sizeofChunk ≤ b.size) : (ms.map MemLifoMark.addr).Nodup := by
  have hall := ((occupied_perm w.length).pairwise_iff fun hab => Span.Apart.symm hab).mp
    (w.sound lawful wide).1
  rw [List.pairwise_append, List.pairwise_map, List.pairwise_map] at hall
  refine List.pairwise_map.mpr (hall.2.1.imp fun {m n} hmn heq => ?_)
  simp only [Span.Apart, MemLifoMark.span, sizeofMark] at hmn
  omega

theorem findMark_append (nodup : ((newer ++ m :: older).map MemLifoMark.addr).Nodup) :
    findMark m.addr (newer ++ m :: older) = some (m, older) := by
  induction newer with
  | nil => exact if_pos rfl
  | cons n newer ih =>
    obtain ⟨hnot, nodup⟩ := List.nodup_cons.mp nodup
    have hne : n.addr ≠ m.addr := by
      intro heq
      exact hnot (List.mem_map.mpr ⟨m, by simp, heq.symm⟩)
    exact (if_neg hne).trans (ih nodup)

/-- In every state a guarded run reaches, and for every mark of the stack with
the frames split accordingly: popping the mark is exact if and only if it
accounts for everything obtained since. -/
theorem popMark_exact_iff (A : ChunkAllocator) (chunkSz : UInt32) (panicOnFail : Bool)
    (round : RoundsUp chunkSz) (s : Session)
    (run : (lifoMachine A chunkSz panicOnFail).Reaches (Guard A) s)
    (newer older : List MemLifoMark) (m : MemLifoMark) (fs₁ fs₂ : List Frame) (f : Frame)
    (marks : s.pool.marks = newer ++ m :: older) (frames : s.frames = fs₁ ++ f :: fs₂)
    (length : fs₁.length = newer.length) :
    (∃ l', memLifoPopMark s.pool m.addr = .ok l' ∧ Exact s.pool.heap l'.heap f) ↔
      Accounted s.pool.heap m older f := by
  obtain ⟨base, lawful, wide, -, -, -, laid⟩ := inv_iff.mp (reaches_inv round run)
  rw [marks, frames] at laid
  have hfind : findMark m.addr s.pool.marks = some (m, older) := by
    rw [marks]
    exact findMark_append (laid.nodup lawful wide)
  obtain ⟨gs₁, gs₂, hi', hsplit, hlength, hle, laid⟩ := laid.split
  obtain ⟨rfl, rfl⟩ := List.append_inj hsplit (length.trans hlength.symm)
  obtain ⟨l', hpop, popped⟩ := laid.popMark lawful hfind
  have since : f.since ≤ s.pool.heap.obtained := Nat.le_trans laid.1.since_le hle
  have hthis : (∃ l', memLifoPopMark s.pool m.addr = .ok l' ∧ Exact s.pool.heap l'.heap f) ↔
      Exact s.pool.heap l'.heap f := by
    constructor
    · rintro ⟨l'', hpop', exact⟩
      rw [hpop] at hpop'
      cases hpop'
      exact exact
    · intro exact
      exact ⟨l', hpop, exact⟩
  rw [hthis]
  by_cases hbottom : older = []
  · -- the bottom mark: the heap is left as it is
    rw [popped.bottom hbottom,
      exact_iff lawful lawful rfl laid.1.kept (.refl _ _) since]
    constructor
    · intro hold b hb hge
      exact absurd (hold b hb) (Nat.not_lt_of_le hge)
    · intro accounted b hb
      apply Nat.lt_of_not_le
      intro hge
      exact (accounted b hb hge).1 hbottom
  · have pops := popped.pops hbottom
    rw [exact_iff lawful pops.lawful pops.obtained laid.1.kept pops.agree since]
    constructor
    · intro hold b hb hge
      refine ⟨hbottom, Decidable.by_contra fun hnot => ?_⟩
      exact absurd (hold b ((pops.mem b).mpr ⟨hb, fun hmem => absurd hmem hnot⟩))
        (Nat.not_lt_of_le hge)
    · intro accounted b hb
      apply Nat.lt_of_not_le
      intro hge
      obtain ⟨hb, hold⟩ := (pops.mem b).mp hb
      exact absurd (hold (accounted b hb hge).2) (Nat.not_lt_of_le hge)

/-- A mark, then another one under which a block of 900 bytes is allocated: it
takes a big block. -/
def nested : List Op := [.pushMark, .pushMark, .alloc 900 false]

/-- The state `nested` ends in. -/
def nestedSession : Session :=
  ⟨⟨⟨136, 1032, [⟨1016, 1936⟩], ⟨8, 1008⟩, [], 192⟩,
      [⟨80, 0, [], ⟨8, 1008⟩, [], 136⟩, ⟨24, 0, [], ⟨8, 1008⟩, [], 80⟩], 1000, false,
      ⟨[⟨1, 1016, 920⟩, ⟨0, 8, 1000⟩], 2, []⟩⟩,
    [⟨[⟨1032, 900⟩], 1, [⟨0, 8, 1000⟩]⟩, ⟨[], 1, [⟨0, 8, 1000⟩]⟩, ⟨[], 1, [⟨0, 8, 1000⟩]⟩]⟩

theorem nested_run :
    (lifoMachine plainAllocator 1000 false).Reaches (Guard plainAllocator) nestedSession :=
  .of_run nested plainPool_init (by decide)

/-- Popping the newer of the two marks is exact. -/
theorem popMark_exact_iff_nested : ∃ l', memLifoPopMark nestedSession.pool 136 = .ok l' ∧
    Exact nestedSession.pool.heap l'.heap ⟨[⟨1032, 900⟩], 1, [⟨0, 8, 1000⟩]⟩ :=
  (popMark_exact_iff plainAllocator 1000 false (by decide) nestedSession nested_run [] _ _ [] _ _
    rfl rfl rfl).mpr (by decide)

/-- Popping the older one is not: it takes the newer mark off the stack and
leaves that mark's big block allocated. -/
theorem popMark_leaks : ¬ ∀ (A : ChunkAllocator) (chunkSz : UInt32) (panicOnFail : Bool) (s : Session),
    (lifoMachine A chunkSz panicOnFail).Reachable s →
    ∀ (newer older : List MemLifoMark) (m : MemLifoMark) (fs₁ fs₂ : List Frame) (f : Frame),
      s.pool.marks = newer ++ m :: older → s.frames = fs₁ ++ f :: fs₂ →
      fs₁.length = newer.length →
      ∃ l', memLifoPopMark s.pool m.addr = .ok l' ∧ Exact s.pool.heap l'.heap f := by
  intro claim
  obtain ⟨l', hpop, exact⟩ := claim plainAllocator 1000 false nestedSession
    (nested_run.mono fun _ _ _ => trivial) [nestedSession.pool.top] _ _
    [⟨[⟨1032, 900⟩], 1, [⟨0, 8, 1000⟩]⟩] _ _ rfl rfl rfl
  have hheap : (memLifoPopMark nestedSession.pool 80).map (·.heap) = .ok nestedSession.pool.heap := by
    decide
  have hheap' : l'.heap = nestedSession.pool.heap := by
    have := congrArg (Except.map (·.heap)) hpop
    exact Except.ok.inj (this.symm.trans hheap)
  have hfreed := exact.freed 1 (by decide) (by decide)
  rw [hheap'] at hfreed
  exact absurd hfreed (by decide)

/-! ### Closing the pool -/

/-- Everything ever obtained was given back, each block once. -/
def AllFreedOnce (h : Heap) : Prop := ∀ id < h.obtained, h.freed.count id = 1

/-- The bottom mark is the last of the stack. -/
theorem marks_botMark (m : MemLifoMark) (ms : List MemLifoMark) :
    ∃ newer, m :: ms = newer ++ [ms.getLastD m] := by
  induction ms generalizing m with
  | nil => exact ⟨[], rfl⟩
  | cons n ms ih =>
    obtain ⟨newer, hsplit⟩ := ih n
    exact ⟨m :: newer, by rw [List.getLastD_cons, hsplit, List.cons_append]⟩

/-- In every state a guarded run reaches: closing the pool gives back everything
if and only if nothing but the chunk of the bottom mark is outstanding. -/
theorem close_exact_iff (A : ChunkAllocator) (chunkSz : UInt32) (panicOnFail : Bool)
    (round : RoundsUp chunkSz) (s : Session)
    (run : (lifoMachine A chunkSz panicOnFail).Reaches (Guard A) s) :
    (∃ h, memLifoClose s.pool = .ok h ∧ AllFreedOnce h) ↔
      ∀ b ∈ s.pool.heap.outstanding, b.addr = s.pool.botMark.lmChunk.addr := by
  obtain ⟨base, lawful, wide, -, -, -, laid⟩ := inv_iff.mp (reaches_inv round run)
  obtain ⟨newer, hmarks⟩ : ∃ newer, s.pool.marks = newer ++ [s.pool.botMark] :=
    marks_botMark s.pool.top s.pool.below
  rw [hmarks] at laid
  have hfind : findMark s.pool.botMark.addr s.pool.marks = some (s.pool.botMark, []) := by
    rw [hmarks]
    exact findMark_append (laid.nodup lawful wide)
  obtain ⟨fs₁, fs₂, hi', -, -, -, laid⟩ := laid.split
  cases fs₂ with
  | nil => exact laid.elim
  | cons f fs₂ =>
    obtain ⟨l', hpop, popped⟩ := laid.popMark lawful hfind
    have hbot : l'.botMark = s.pool.botMark := by
      have hmarks' := popped.marks
      rw [if_pos rfl] at hmarks'
      simp only [MemLifo.marks, List.cons.injEq] at hmarks'
      simp [MemLifo.botMark, hmarks'.1, hmarks'.2]
    have hheap := popped.bottom rfl
    obtain ⟨b, hb, ⟨haddr, -⟩, -⟩ := laid.1.between laid.2.2.between s.pool.botMark.lmChunk
      (by simp [MemLifoMark.lmChunks])
    obtain ⟨h', hrelease, lawful', hobtained, -, hmem⟩ := lawful.release hb
    have hclose : memLifoClose s.pool = .ok h' := by
      rw [haddr] at hrelease
      simp only [memLifoClose, hpop, bind, Except.bind, hheap, hbot, freeFn, hrelease]
    have hthis : (∃ h, memLifoClose s.pool = .ok h ∧ AllFreedOnce h) ↔
        h'.outstanding = [] := by
      rw [hclose]
      constructor
      · rintro ⟨h, heq, hall⟩
        cases heq
        apply List.eq_nil_iff_forall_not_mem.mpr
        intro d hd
        exact (lawful'.freed_once_iff (lawful'.id_lt hd)).mp (hall _ (lawful'.id_lt hd)) d hd rfl
      · intro hnil
        refine ⟨h', rfl, fun id hid => (lawful'.freed_once_iff hid).mpr ?_⟩
        simp [hnil]
    rw [hthis, List.eq_nil_iff_forall_not_mem]
    constructor
    · intro hnone d hd
      rw [← haddr]
      refine Decidable.by_contra fun hne => hnone d ((hmem d).mpr ⟨hd, ?_⟩)
      rintro rfl
      exact hne rfl
    · intro honly d hd
      obtain ⟨hd, hne⟩ := (hmem d).mp hd
      exact hne (lawful.eq_of_addr hd hb ((honly d hd).trans haddr.symm))

/-- Closing a pool whose allocations all fit in the first chunk. -/
theorem close_exact_iff_plain : ∃ s, (lifoMachine plainAllocator 1000 false).Reaches
    (Guard plainAllocator) s ∧ 1 < s.pool.marks.length ∧
      ∃ h, memLifoClose s.pool = .ok h ∧ AllFreedOnce h := by
  obtain ⟨s, run, hmarks, honly⟩ := Machine.Reaches.exists_of_run (G := Guard plainAllocator)
    [.alloc 100 false, .pushMark, .alloc 200 false]
    (fun s => 1 < s.pool.marks.length ∧
      ∀ b ∈ s.pool.heap.outstanding, b.addr = s.pool.botMark.lmChunk.addr)
    plainPool_init (by decide)
  exact ⟨s, run, hmarks, (close_exact_iff plainAllocator 1000 false (by decide) s run).mpr honly⟩

/-- Closing the pool of `nested` leaves the big block allocated. -/
theorem close_leaks : ¬ ∀ (A : ChunkAllocator) (chunkSz : UInt32) (panicOnFail : Bool) (s : Session),
    (lifoMachine A chunkSz panicOnFail).Reachable s →
      ∃ h, memLifoClose s.pool = .ok h ∧ AllFreedOnce h := by
  intro claim
  obtain ⟨h, hclose, hall⟩ := claim plainAllocator 1000 false nestedSession
    (nested_run.mono fun _ _ _ => trivial)
  have hresult : memLifoClose nestedSession.pool = .ok ⟨[⟨1, 1016, 920⟩], 2, [0]⟩ := by decide
  rw [hresult] at hclose
  cases hclose
  exact absurd (hall 1 (by decide)) (by decide)

end Twapi.Lifo
