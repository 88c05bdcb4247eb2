import Twapi.Lifo.Safety

/-!
What is done under a mark is undone by popping it.

* `Scope` — allocations, resizes and properly nested pushes and pops, between a
  push and its pop.
* `Restored` — the pool is what it was; of the heap only the log of what was
  obtained and released has grown.
* `Inv.scope` — a scope leaves the older marks alone, and the top mark lists
  every block obtained in it.
* `restored_of_scope` — so the pop gives back the pool of the push.
* `not_restored_of_wrap` — outside the guard an expansion in place can carry the
  free pointer around the address space.
-/

namespace Twapi.Lifo

open Base Lib

/-- Calls that hand out or resize a block under the top mark. -/
def Op.Plain : Op → Prop
  | .alloc .. | .expandLast .. | .shrinkLast .. | .resizeLast .. => True
  | _ => False

/-- Calls that push a mark. -/
def Op.Pushes : Op → Prop
  | .pushMark | .pushFrame .. => True
  | _ => False

/-- From `l` to `l'` by allocations, resizes, failed pushes, and pushes with
their pops, all calls meeting `G`. -/
inductive Scope (A : ChunkAllocator) (G : MemLifo → Op → Prop) : MemLifo → MemLifo → Prop where
  | refl (l : MemLifo) : Scope A G l l
  | call {l l₁ l₂ : MemLifo} {op : Op} {r : Option Grant} : Scope A G l l₁ → op.Plain → G l₁ op →
      perform A l₁ op = .ok (r, l₂) → Scope A G l l₂
  | failed {l l₁ l₂ : MemLifo} {op : Op} : Scope A G l l₁ → op.Pushes → G l₁ op →
      perform A l₁ op = .ok (none, l₂) → Scope A G l l₂
  | nest {l l₁ l₂ l₃ l₄ : MemLifo} {op : Op} {g : Grant} : Scope A G l l₁ → op.Pushes → G l₁ op →
      perform A l₁ op = .ok (some g, l₂) → Scope A G l₂ l₃ →
      perform A l₃ .popFrame = .ok (none, l₄) → Scope A G l l₄

/-- The two pools differ in the heap's log only. -/
structure Restored (l l' : MemLifo) : Prop where
  pool : l' = { l with heap := l'.heap }
  blocks : ∀ b : Block, b ∈ l'.heap.outstanding ↔ b ∈ l.heap.outstanding

/-- What a scope leaves alone. -/
structure Under (l l' : MemLifo) : Prop where
  addr : l'.top.addr = l.top.addr
  below : l'.below = l.below
  chunkSize : l'.lifoChunkSize = l.lifoChunkSize
  panic : l'.panicOnFail = l.panicOnFail

/-- The top mark lists every outstanding block obtained since number `since`. -/
def Listed (since : Nat) (l : MemLifo) : Prop :=
  ∀ b ∈ l.heap.outstanding, since ≤ b.id → b.addr ∈ l.top.listed

variable {A : ChunkAllocator} {base : MemLifoChunk} {l l' : MemLifo} {f : Frame} {fs : List Frame}
  {since : Nat}

theorem Under.refl (l : MemLifo) : Under l l := ⟨rfl, rfl, rfl, rfl⟩

theorem Under.trans {l'' : MemLifo} (u : Under l l') (u' : Under l' l'') : Under l l'' :=
  ⟨u'.addr.trans u.addr, u'.below.trans u.below, u'.chunkSize.trans u.chunkSize,
    u'.panic.trans u.panic⟩

theorem Restored.under (r : Restored l l') : Under l l' := by
  rw [r.pool]
  exact ⟨rfl, rfl, rfl, rfl⟩

theorem Restored.listed (r : Restored l l') (listed : Listed since l) : Listed since l' := by
  intro b hb
  rw [r.pool]
  exact listed b ((r.blocks b).mp hb)

/-! ### Calls under the top mark -/

/-- The call keeps what is under the top mark, and lists what it obtains. -/
def Tracks (since : Nat) (l : MemLifo) (r : Option Grant × MemLifo) : Prop :=
  Under l r.2 ∧ Listed since r.2

theorem Listed.obtain (listed : Listed since l) {a n : Nat} {m : MemLifoMark}
    (hm : ∀ p, p ∈ m.listed ↔ p = a ∨ p ∈ l.top.listed) :
    Listed since { l with top := m, heap := l.heap.obtain a n } := by
  intro b hb hid
  rcases Heap.mem_obtain.mp hb with rfl | hb
  · exact (hm _).mpr (.inl rfl)
  · exact (hm _).mpr (.inr (listed b hb hid))

theorem Listed.alloc (listed : Listed since l) (sz : Nat) (actual : Bool) :
    Meets (Tracks since l) (memLifoAlloc A l sz actual) := by
  have same : Tracks since l (none, l) := ⟨.refl l, listed⟩
  unfold memLifoAlloc
  by_cases hmax : memlifoMaxAlloc < sz
  · rw [if_pos hmax]
    exact meets_failAlloc same
  rw [if_neg hmax]
  by_cases hfits : l.top.fits (roundUp sz) = true
  · simp only [if_pos hfits]
    exact ⟨⟨rfl, rfl, rfl, rfl⟩, listed⟩
  simp only [if_neg hfits]
  cases l.littleLeft with
  | true =>
    simp only [if_true]
    cases A.fn l.heap (newChunkSize l (roundUp sz)) with
    | none => exact meets_failAlloc same
    | some r =>
      refine ⟨⟨rfl, rfl, rfl, rfl⟩, listed.obtain fun p => ?_⟩
      simp [MemLifoMark.listed, allocFromNewChunk, MemLifoMark.lmChunks, newChunk]
  | false =>
    simp only [Bool.false_eq_true, if_false]
    cases A.fn l.heap (dword (roundUp sz + sizeofChunk)) with
    | none => exact meets_failAlloc same
    | some r =>
      refine ⟨⟨rfl, rfl, rfl, rfl⟩, listed.obtain fun p => ?_⟩
      simp only [MemLifoMark.listed, allocBigBlock, MemLifoMark.lmChunks, newChunk,
        List.map_append, List.map_cons, List.mem_append, List.mem_cons]
      tauto

/-- A big block that is replaced is listed no more and outstanding no more. -/
theorem Listed.expand (w : Ready base l f fs) (last : TopLast l f fs) (listed : Listed since l)
    {incr : Nat} {fix : Bool} :
    Meets (Tracks since l) (memLifoExpandLast A l incr fix) := by
  have same : Tracks since l (none, l) := ⟨.refl l, listed⟩
  unfold memLifoExpandLast
  rcases last.cases w with ⟨hzero, -⟩ | i | ⟨c, rest, i⟩
  · simp only [if_pos hzero]
    exact listed.alloc incr false
  · simp only [if_neg i.nonzero]
    by_cases hplace : l.top.isBigBlock = false ∧ toInt (roundUp incr) ≤ l.top.left
    · rw [if_pos hplace]
      exact ⟨⟨rfl, rfl, rfl, rfl⟩, listed⟩
    rw [if_neg hplace]
    cases fix with
    | true => exact same
    | false =>
      simp only [Bool.false_eq_true, if_false]
      by_cases hmax : memlifoMaxAlloc < dword (l.top.oldSize + roundUp incr)
      · rw [if_pos hmax]
        exact same
      · simp only [if_neg hmax, i.notBig]
        exact listed.alloc _ false
  · simp only [if_neg i.nonzero, i.isBig, Bool.true_eq_false, false_and, if_false, i.list]
    cases fix with
    | true => exact same
    | false =>
      simp only [Bool.false_eq_true, if_false]
      by_cases hmax : memlifoMaxAlloc < dword (l.top.oldSize + roundUp incr)
      · rw [if_pos hmax]
        exact same
      rw [if_neg hmax]
      cases hfn : A.fn l.heap (dword (dword (l.top.oldSize + roundUp incr) + sizeofChunk)) with
      | none => exact same
      | some r =>
        obtain ⟨a, n⟩ := r
        have lawful := w.lawful.obtain (A.lawful hfn)
        obtain ⟨b, hb, ⟨haddr, -⟩, -⟩ := i.between
        obtain ⟨h', hrelease, -, -, -, hmem⟩ := lawful.release (Heap.mem_obtain.mpr (Or.inr hb))
        rw [haddr] at hrelease
        simp only [freeFn, hrelease, bind, Except.bind]
        refine ⟨⟨rfl, rfl, rfl, rfl⟩, fun d hd hid => ?_⟩
        obtain ⟨hd, hne⟩ := (hmem d).mp hd
        have haway : d.addr ≠ c.addr := fun h =>
          hne (lawful.eq_of_addr hd (Heap.mem_obtain.mpr (Or.inr hb)) (h.trans haddr.symm))
        simp only [MemLifoMark.listed, moveBigBlock, MemLifoMark.lmChunks, newChunk,
          List.map_append, List.map_cons, List.mem_append, List.mem_cons]
        rcases Heap.mem_obtain.mp hd with rfl | hd
        · exact .inr (.inl rfl)
        · have hold := listed d hd hid
          simp only [MemLifoMark.listed, i.list, MemLifoMark.lmChunks, List.map_append,
            List.map_cons, List.mem_append, List.mem_cons] at hold
          tauto

theorem Listed.shrink (listed : Listed since l) (decr : Nat) :
    Tracks since l (memLifoShrinkLast l decr) := by
  unfold memLifoShrinkLast
  by_cases hlast : l.top.lmLastAlloc = 0
  · rw [if_pos hlast]
    exact ⟨.refl l, listed⟩
  · simp only [if_neg hlast]
    split
    · exact ⟨⟨rfl, rfl, rfl, rfl⟩, listed⟩
    · exact ⟨.refl l, listed⟩

theorem Listed.resize (w : Ready base l f fs) (last : TopLast l f fs) (listed : Listed since l)
    {newSz : Nat} {fix : Bool} :
    Meets (Tracks since l) (memLifoResizeLast A l newSz fix) := by
  unfold memLifoResizeLast
  by_cases hlast : l.top.lmLastAlloc = 0
  · rw [if_pos hlast]
    exact ⟨.refl l, listed⟩
  simp only [if_neg hlast]
  by_cases hle : roundUp newSz ≤ l.top.oldSize
  · simp only [hle, and_true, if_true]
    split
    · exact ⟨⟨rfl, rfl, rfl, rfl⟩, listed⟩
    · exact listed.shrink _
  · simp only [hle, and_false, if_false]
    exact Listed.expand w last listed

variable {op : Op}

/-- The view of the top mark after a call under it. -/
theorem account_plain (plain : op.Plain) (r : Option Grant) :
    ∃ f', account l l' (f :: fs) op r = f' :: fs ∧ f'.since = f.since ∧ f'.kept = f.kept := by
  have hresize : ∀ (f : Frame) p g,
      (f.resize p g).since = f.since ∧ (f.resize p g).kept = f.kept := by
    intro f p g
    unfold Frame.resize
    split <;> exact ⟨rfl, rfl⟩
  cases op <;> first | exact plain.elim | skip
  all_goals
    cases r with
    | none => exact ⟨f, rfl, rfl, rfl⟩
    | some g => ?_
  · exact ⟨_, rfl, rfl, rfl⟩
  · simp only [account]
    split
    · exact ⟨_, rfl, rfl, rfl⟩
    · exact ⟨_, rfl, hresize _ _ _⟩
  · exact ⟨_, rfl, hresize _ _ _⟩
  · exact ⟨_, rfl, hresize _ _ _⟩

/-! ### Popping the mark -/

/-- `l'` is a scope's last pool: its mark was pushed on `l`, and `f` is the
mark's frame. -/
structure Opened (l l' : MemLifo) (f : Frame) : Prop where
  since : f.since = l.heap.obtained
  kept : f.kept = l.heap.outstanding
  below : l'.below = l.marks
  chunkSize : l'.lifoChunkSize = l.lifoChunkSize
  panic : l'.panicOnFail = l.panicOnFail
  listed : Listed f.since l'

theorem memLifoPopMark_panic {addr : Nat} (hpop : memLifoPopMark l addr = .ok l') :
    l'.panicOnFail = l.panicOnFail := by
  unfold memLifoPopMark at hpop
  cases hfind : findMark addr l.marks with
  | none => simp [hfind] at hpop
  | some r =>
    obtain ⟨m, older⟩ := r
    simp only [hfind] at hpop
    cases hfree : freeMark l.heap m (m.prev older) with
    | error e => simp [hfree, bind, Except.bind] at hpop
    | ok h =>
      simp only [hfree, bind, Except.bind, Except.ok.injEq] at hpop
      exact hpop ▸ rfl

/-- Popping the mark gives back the pool it was pushed on: the mark lists all
that was obtained since. -/
theorem Inv.restore (w : Inv l' (f :: fs)) (o : Opened l l' f) :
    ∃ l₂, memLifoPopMark l' l'.top.addr = .ok l₂ ∧ Restored l l₂ ∧ Inv l₂ fs := by
  obtain ⟨base, lawful, -, -, -, -, laid⟩ := inv_iff.mp w
  have hfind : findMark l'.top.addr l'.marks = some (l'.top, l'.below) := if_pos rfl
  have hne : l'.below ≠ [] := by simp [o.below, MemLifo.marks]
  obtain ⟨l₂, hpop, popped⟩ := laid.popMark lawful hfind
  have pops := popped.pops hne
  have hmarks : l₂.marks = l.marks := by
    rw [popped.marks, if_neg hne, o.below]
  simp only [MemLifo.marks, List.cons.injEq] at hmarks
  refine ⟨l₂, hpop, ⟨?_, fun b => ?_⟩, ?_⟩
  · have hchunk := popped.chunkSize.trans o.chunkSize
    have hpanic := (memLifoPopMark_panic hpop).trans o.panic
    obtain ⟨top, below, chunkSize, panicOnFail, heap⟩ := l₂
    simp only at hmarks hchunk hpanic
    rw [hmarks.1, hmarks.2, hchunk, hpanic]
  · rw [pops.mem, ← o.kept, laid.1.kept]
    constructor
    · rintro ⟨hb, hold⟩
      exact ⟨hb, Nat.lt_of_not_le fun hge =>
        Nat.not_lt_of_le hge (hold (o.listed b hb hge))⟩
    · rintro ⟨hb, hlt⟩
      exact ⟨hb, fun _ => hlt⟩
  · rcases w.popMark l'.top.addr with ⟨herr, -⟩ | ⟨l₃, m, older, hok, -, -, inv⟩
    · simp [hpop] at herr
    · obtain rfl : l₂ = l₃ := Except.ok.inj (hpop.symm.trans hok)
      have hdrop : l'.below.length - l₂.below.length = 1 := by
        rw [o.below, hmarks.2, MemLifo.marks, List.length_cons]
        omega
      simpa only [hdrop, List.drop_one, List.tail_cons] using inv

/-! ### Pushing a mark -/

/-- What a push leaves behind: an open scope, or the pool as it was. -/
def Opens (l : MemLifo) (f : Frame) (fs : List Frame) : Option Grant × MemLifo → Prop
  | (none, l') => Restored l l' ∧ Inv l' (f :: fs)
  | (some _, l') => ∃ f', Opened l l' f' ∧ Inv l' (f' :: f :: fs)

theorem Restored.refl (l : MemLifo) : Restored l l := ⟨rfl, fun _ => Iff.rfl⟩

/-- A block numbered like the next one to be obtained is not there yet. -/
theorem Ready.listed_fresh (w : Ready base l f fs) {m : MemLifoMark} :
    Listed l.heap.obtained (l.push m) := fun _ hb hid =>
  absurd (w.lawful.id_lt hb) (Nat.not_lt_of_le hid)

theorem Ready.openedMark (w : Ready base l f fs) (last : TopLast l f fs) :
    Meets (fun r => match r with
      | (none, l') => l' = l
      | (some n, l') => n = l'.top.addr ∧ Opened l l' (newFrame l) ∧
          Ready base l' (newFrame l) (f :: fs) ∧ TopLast l' (newFrame l) (f :: fs))
      (memLifoPushMark A l) := by
  have push := w.pushMark (A := A) last
  have tracks : Meets (fun r => r.2.lifoChunkSize = l.lifoChunkSize ∧
      r.2.panicOnFail = l.panicOnFail ∧ (r.1 ≠ none → Listed l.heap.obtained r.2))
      (memLifoPushMark A l) := by
    unfold memLifoPushMark
    by_cases hfits : l.top.fits (roundUp sizeofMark) = true
    · simp only [if_pos hfits]
      exact ⟨rfl, rfl, fun _ => w.listed_fresh⟩
    simp only [if_neg hfits]
    cases A.fn l.heap l.lifoChunkSize with
    | none =>
      cases hpanic : l.panicOnFail with
      | true => exact rfl
      | false => exact ⟨rfl, hpanic, fun h => absurd rfl h⟩
    | some r =>
      refine ⟨rfl, rfl, fun _ b hb hid => ?_⟩
      rcases Heap.mem_obtain.mp hb with rfl | hb
      · simp [MemLifoMark.listed, MemLifo.push, MemLifoMark.above, MemLifoMark.lmChunks, newChunk]
      · exact absurd (w.lawful.id_lt hb) (Nat.not_lt_of_le hid)
  revert push tracks
  rcases memLifoPushMark A l with e | ⟨_ | n, l'⟩
  · exact fun push _ => push
  · exact fun push _ => push
  · rintro ⟨haddr, hbelow, ready, last'⟩ ⟨hchunk, hpanic, hlisted⟩
    exact ⟨haddr, ⟨rfl, rfl, hbelow, hchunk, hpanic, hlisted (by simp)⟩, ready, last'⟩

theorem Ready.openedFrame (w : Ready base l f fs) (last : TopLast l f fs) {sz : UInt32}
    {actual : Bool} (rounds : RoundsUp sz) (sound : PushFrameSound A l sz.toNat actual) :
    Meets (Opens l f fs) (memLifoPushFrame A l sz.toNat actual) := by
  have inv : Inv l (f :: fs) := ⟨base, f, fs, rfl, w, last⟩
  have frame : CallPost l (f :: fs) (.pushFrame sz actual)
      (memLifoPushFrame A l sz.toNat actual) := inv.perform rounds sound
  have same : Opens l f fs (none, l) := ⟨.refl l, inv⟩
  unfold PushFrameSound at sound
  unfold memLifoPushFrame at frame ⊢
  by_cases hmax : memlifoMaxAlloc < sz.toNat
  · rw [if_pos hmax]
    exact meets_failAlloc same
  simp only [if_neg hmax] at frame sound ⊢
  by_cases hfits : l.top.fits (dword (roundUp sz.toNat + roundUp sizeofMark)) = true
  · simp only [if_pos hfits] at frame ⊢
    exact ⟨_, ⟨rfl, rfl, rfl, rfl, rfl, w.listed_fresh⟩, frame⟩
  simp only [if_neg hfits] at frame sound ⊢
  have opened := w.openedMark (A := A) last
  cases hpush : memLifoPushMark A l with
  | error e =>
    rw [hpush] at opened
    exact opened
  | ok r =>
    rw [hpush] at opened sound
    obtain ⟨_ | n, l₁⟩ := r
    · obtain rfl : l₁ = l := opened
      exact meets_failAlloc same
    · obtain ⟨rfl, o, w', last'⟩ := opened
      have tracks := o.listed.alloc (A := A) (roundUp sz.toNat) actual
      have alloc := w'.alloc (A := A) sound
      simp only [hpush, bind, Except.bind] at frame ⊢
      cases halloc : memLifoAlloc A l₁ (roundUp sz.toNat) actual with
      | error e =>
        rw [halloc] at alloc
        exact alloc
      | ok r =>
        rw [halloc] at alloc tracks
        obtain ⟨_ | g, l₂⟩ := r
        · -- no block: the mark is popped again
          obtain rfl : l₂ = l₁ := alloc
          obtain ⟨l₃, hpop, restored, inv₃⟩ :=
            Inv.restore ⟨base, _, _, rfl, w', last'⟩ o
          simp only [hpop]
          exact meets_failAlloc (P := Opens l f fs) ⟨restored, inv₃⟩
        · obtain ⟨under, listed⟩ := tracks
          simp only [halloc] at frame ⊢
          exact ⟨(newFrame l).give g.ptr (g.usable sz actual),
            ⟨rfl, rfl, under.below.trans o.below, under.chunkSize.trans o.chunkSize,
              under.panic.trans o.panic, listed⟩, frame⟩

theorem Inv.push (w : Inv l (f :: fs)) (pushes : op.Pushes) (rounds : Rounds op)
    (sound : Sound A l op) {r : Option Grant} (hperform : Lifo.perform A l op = .ok (r, l')) :
    Opens l f fs (r, l') := by
  have inv := w
  obtain ⟨base, g, gs, hframes, w, last⟩ := w
  obtain ⟨rfl, rfl⟩ := List.cons.inj hframes
  cases op with
  | pushMark =>
    have opened := w.openedMark (A := A) last
    simp only [Lifo.perform] at hperform
    cases hpush : memLifoPushMark A l with
    | error e => simp [hpush] at hperform
    | ok q =>
      obtain ⟨n, l₁⟩ := q
      rw [hpush] at opened
      obtain ⟨rfl, rfl⟩ : n.map (fun p => .mk p 0) = r ∧ l₁ = l' := by
        simpa [hpush] using hperform
      cases n with
      | none =>
        obtain rfl : l₁ = l := opened
        exact ⟨.refl _, inv⟩
      | some n => exact ⟨_, opened.2.1, ⟨base, _, _, rfl, opened.2.2.1, opened.2.2.2⟩⟩
  | pushFrame sz actual =>
    have opened := w.openedFrame (A := A) last rounds sound
    simp only [Lifo.perform] at hperform
    rw [hperform] at opened
    exact opened
  | _ => exact pushes.elim

/-! ### Scopes -/

/-- The guard, of pools. -/
def PoolGuard (A : ChunkAllocator) (l : MemLifo) (op : Op) : Prop := Rounds op ∧ Sound A l op

/-- What holds all through a scope that began in `l` with the frame `f` on top. -/
def Scoped (l : MemLifo) (f : Frame) (fs : List Frame) (l' : MemLifo) : Prop :=
  Under l l' ∧ Listed f.since l' ∧ ∃ f', Inv l' (f' :: fs) ∧ f'.since = f.since ∧ f'.kept = f.kept

/-- One call under the top mark. -/
theorem Inv.plainCall (w : Inv l (f :: fs)) (plain : op.Plain) (guard : PoolGuard A l op)
    {r : Option Grant} (hperform : Lifo.perform A l op = .ok (r, l')) (listed : Listed since l) :
    Under l l' ∧ Listed since l' ∧
      ∃ f', Inv l' (f' :: fs) ∧ f'.since = f.since ∧ f'.kept = f.kept := by
  have call := w.perform guard.1 guard.2
  rw [hperform] at call
  obtain ⟨f', haccount, hsince, hkept⟩ :
      ∃ f', account l l' (f :: fs) op r = f' :: fs ∧ f'.since = f.since ∧ f'.kept = f.kept :=
    account_plain plain r
  have tracks : Tracks since l (r, l') := by
    obtain ⟨base, g, gs, hframes, w, last⟩ := w
    have meets : ∀ {a}, Meets (Tracks since l) a → a = .ok (r, l') → Tracks since l (r, l') := by
      rintro a h rfl
      exact h
    cases op with
    | alloc sz actual => exact meets (listed.alloc sz.toNat actual) hperform
    | expandLast incr fix => exact meets (Listed.expand w last listed) hperform
    | shrinkLast decr fix => exact Except.ok.inj hperform ▸ listed.shrink decr.toNat
    | resizeLast newSz fix => exact meets (Listed.resize w last listed) hperform
    | _ => exact plain.elim
  exact ⟨tracks.1, tracks.2, f', haccount ▸ call, hsince, hkept⟩

/-- A scope stays open until its mark is popped. -/
theorem Opened.scope {l₁ l₂ : MemLifo} (o : Opened l l₁ f) (s : Scoped l₁ f fs l₂) :
    ∃ f', Opened l l₂ f' ∧ Inv l₂ (f' :: fs) := by
  obtain ⟨under, listed, f', w, hsince, hkept⟩ := s
  exact ⟨f', ⟨hsince.trans o.since, hkept.trans o.kept, under.below.trans o.below,
    under.chunkSize.trans o.chunkSize, under.panic.trans o.panic, hsince ▸ listed⟩, w⟩

/-- By induction on the scope; a nested pair restores the pool it began in. -/
theorem Inv.scope (w : Inv l (f :: fs)) (listed : Listed f.since l)
    (scope : Scope A (PoolGuard A) l l') : Scoped l f fs l' := by
  induction scope generalizing f fs with
  | refl => exact ⟨.refl _, listed, f, w, rfl, rfl⟩
  | call _ plain guard hperform ih =>
    obtain ⟨under, hlisted, f₁, w₁, hsince, hkept⟩ := ih w listed
    obtain ⟨under', hlisted', f₂, w₂, hsince', hkept'⟩ :=
      w₁.plainCall plain guard hperform hlisted
    exact ⟨under.trans under', hlisted', f₂, w₂, hsince'.trans hsince, hkept'.trans hkept⟩
  | failed _ pushes guard hperform ih =>
    obtain ⟨under, hlisted, f₁, w₁, hsince, hkept⟩ := ih w listed
    obtain ⟨restored, w₂⟩ := w₁.push pushes guard.1 guard.2 hperform
    exact ⟨under.trans restored.under, restored.listed hlisted, f₁, w₂, hsince, hkept⟩
  | nest _ pushes guard hperform _ hpop ih ih' =>
    obtain ⟨under, hlisted, f₁, w₁, hsince, hkept⟩ := ih w listed
    obtain ⟨f₂, o, w₂⟩ := w₁.push pushes guard.1 guard.2 hperform
    obtain ⟨f₃, o₃, w₃⟩ := o.scope (ih' w₂ o.listed)
    obtain ⟨l₅, hok, restored, w₄⟩ := w₃.restore o₃
    obtain rfl : l₅ = _ := by simpa [Lifo.perform, hok] using hpop
    exact ⟨under.trans restored.under, restored.listed hlisted, f₁, w₄, hsince, hkept⟩

/-- In every state a guarded run reaches: after a push and a scope of guarded
calls, popping the mark restores the pool; and a `MemLifoPushFrame` that fails
leaves it as it was. -/
theorem restored_of_scope (A : ChunkAllocator) (chunkSz : UInt32) (panicOnFail : Bool)
    (round : RoundsUp chunkSz) (s : Session)
    (run : (lifoMachine A chunkSz panicOnFail).Reaches (Guard A) s) :
    (∀ (op : Op) (g : Grant) (l₁ l₂ : MemLifo), op.Pushes → PoolGuard A s.pool op →
      perform A s.pool op = .ok (some g, l₁) → Scope A (PoolGuard A) l₁ l₂ →
        ∃ l₃, memLifoPopMark l₂ l₁.top.addr = .ok l₃ ∧ Restored s.pool l₃) ∧
    (∀ (sz : UInt32) (actual : Bool) (l' : MemLifo), PoolGuard A s.pool (.pushFrame sz actual) →
      memLifoPushFrame A s.pool sz.toNat actual = .ok (none, l') → Restored s.pool l') := by
  obtain ⟨l, frames⟩ := s
  have w : Inv l frames := reaches_inv round run
  obtain ⟨-, f, fs, rfl, -⟩ := id w
  refine ⟨fun op g l₁ l₂ pushes guard hperform scope => ?_, fun sz actual l' guard hpush => ?_⟩
  · obtain ⟨f₁, o, w₁⟩ := w.push pushes guard.1 guard.2 hperform
    have scoped' := w₁.scope o.listed scope
    obtain ⟨f₂, o₂, w₂⟩ := o.scope scoped'
    obtain ⟨l₃, hpop, restored, -⟩ := w₂.restore o₂
    rw [scoped'.1.addr] at hpop
    exact ⟨l₃, hpop, restored⟩
  · have pushes : (Op.pushFrame sz actual).Pushes := trivial
    exact (w.push pushes guard.1 guard.2 hpush).1

/-- A mark on the pool `plainPool`, and a big block under it. -/
theorem restored_of_scope_plain : ∃ g r l₁ l₂,
    perform plainAllocator plainPool .pushMark = .ok (some g, l₁) ∧
    perform plainAllocator l₁ (.alloc 900 false) = .ok (r, l₂) ∧
      ∃ l₃, memLifoPopMark l₂ l₁.top.addr = .ok l₃ ∧ Restored plainPool l₃ := by
  let l₁ : MemLifo := plainPool.push ⟨80, 0, [], ⟨8, 1008⟩, [], 136⟩
  let l₂ : MemLifo := ⟨⟨80, 1032, [⟨1016, 1936⟩], ⟨8, 1008⟩, [], 136⟩, [plainPool.top], 1000, false,
    plainPool.heap.obtain 1016 920⟩
  have hpush : perform plainAllocator plainPool .pushMark = .ok (some ⟨80, 0⟩, l₁) := by decide
  have halloc : perform plainAllocator l₁ (.alloc 900 false) = .ok (some ⟨1032, 904⟩, l₂) := by
    decide
  have scope : Scope plainAllocator (PoolGuard plainAllocator) l₁ l₂ :=
    (Scope.refl l₁).call (by trivial) ⟨by decide, by decide⟩ halloc
  exact ⟨_, _, l₁, l₂, hpush, halloc,
    (restored_of_scope plainAllocator 1000 false (by decide) (.start plainPool)
      (.init plainPool_init)).1 .pushMark _ l₁ l₂ trivial ⟨by decide, by decide⟩ hpush scope⟩

/-! ### Outside the guard -/

/-- A pool with two marks, of which the top one has last handed out the block
at `last`; its chunk lies above the big block. -/
def wrapPool (last free : Nat) : MemLifo :=
  ⟨⟨2064, last, [⟨1016, 1936⟩], ⟨1944, 2960⟩, [⟨8, 1008⟩], free⟩,
    [⟨24, 1960, [⟨1016, 1936⟩], ⟨1944, 2960⟩, [⟨8, 1008⟩], 2064⟩], 1000, false,
    ⟨[⟨2, 1944, 1016⟩, ⟨1, 1016, 920⟩, ⟨0, 8, 1000⟩], 3, []⟩⟩

/-- An expansion by 2 GiB always happens in place, as no `int` is smaller. -/
theorem expandLast_wraps (A : ChunkAllocator) (free : Nat) :
    memLifoExpandLast A (wrapPool 2120 free) 2147483648 false =
      .ok (some ⟨2120, 0⟩, wrapPool 2120 (addPtr free 2147483648)) := by
  have hround : roundUp 2147483648 = 2147483648 := rfl
  have hleft : toInt ((2147483648 : Nat) : Int) ≤ (wrapPool 2120 free).top.left := by
    simp only [MemLifoMark.left, ptrDiff32, toInt]
    omega
  unfold memLifoExpandLast
  simp only [hround]
  rw [if_neg (by simp [wrapPool]), if_pos ⟨by rfl, hleft⟩]
  rfl

theorem scope_wraps (A : ChunkAllocator) (l : MemLifo) (free k : Nat)
    (scope : Scope A (fun _ => Rounds) l (wrapPool 2120 (dwordPtr free))) :
    Scope A (fun _ => Rounds) l (wrapPool 2120 (dwordPtr (free + k * 2147483648))) := by
  induction k with
  | zero => simpa using scope
  | succ k ih =>
    have hadd : addPtr (dwordPtr (free + k * 2147483648)) 2147483648 =
        dwordPtr (free + (k + 1) * 2147483648) := by
      simp only [addPtr, dwordPtr]
      omega
    have hcall : perform A (wrapPool 2120 (dwordPtr (free + k * 2147483648)))
        (.expandLast 2147483648 false) =
          .ok (some ⟨2120, 0⟩, wrapPool 2120 (dwordPtr (free + (k + 1) * 2147483648))) :=
      (expandLast_wraps A _).trans (by rw [hadd])
    exact ih.call (by trivial) (by decide) hcall

/-- Expanded often enough, the free pointer comes around to the big block that
lies below the chunk. The next block is taken for that big block, which belongs
to the older mark; expanding it frees the big block, and the pop runs off the
end of the list. -/
theorem not_restored_of_wrap : ¬ ∀ (A : ChunkAllocator) (chunkSz : UInt32) (panicOnFail : Bool),
    RoundsUp chunkSz → ∀ s, (lifoMachine A chunkSz panicOnFail).Reaches Polite s →
      ∀ (g : Grant) (l₁ l₂ : MemLifo), perform A s.pool .pushMark = .ok (some g, l₁) →
        Scope A (fun _ => Rounds) l₁ l₂ →
          ∃ l₃, memLifoPopMark l₂ l₁.top.addr = .ok l₃ ∧ Restored s.pool l₃ := by
  intro claim
  obtain ⟨s, run, hpush⟩ := Machine.Reaches.exists_of_run (G := Polite)
    [.alloc 500 false, .alloc 900 false, .alloc 400 false, .alloc 100 false]
    (fun s => perform plainAllocator s.pool .pushMark = .ok (some ⟨2064, 0⟩, wrapPool 0 2120))
    plainPool_init (by decide)
  have halloc : perform plainAllocator (wrapPool 0 2120) (.alloc 16 false) =
      .ok (some ⟨2120, 16⟩, wrapPool 2120 2136) := by decide
  have hexpand : perform plainAllocator (wrapPool 2120 2136) (.expandLast 4294966192 false) =
      .ok (some ⟨2120, 0⟩, wrapPool 2120 (dwordPtr 4294968328)) := by decide
  have around := scope_wraps plainAllocator (wrapPool 0 2120) 4294968328 8589934590
    (((Scope.refl _).call (by trivial) (by decide) halloc).call (by trivial) (by decide) hexpand)
  have hfree : dwordPtr (4294968328 + 8589934590 * 2147483648) = 1032 := by decide
  rw [hfree] at around
  have hcollide : perform plainAllocator (wrapPool 2120 1032) (.alloc 920 false) =
      .ok (some ⟨1032, 920⟩, wrapPool 1032 1952) := by decide
  have hmove : ∃ l₂, perform plainAllocator (wrapPool 1032 1952) (.expandLast 8 false) =
      .ok (some ⟨2984, 0⟩, l₂) ∧ memLifoPopMark l₂ 2064 = .error .nullLink :=
    ⟨⟨⟨2064, 2984, [⟨2968, 3896⟩], ⟨1944, 2960⟩, [⟨8, 1008⟩], 1952⟩, (wrapPool 0 0).below, 1000,
      false, ⟨[⟨3, 2968, 928⟩, ⟨2, 1944, 1016⟩, ⟨0, 8, 1000⟩], 4, [1]⟩⟩, by decide, by decide⟩
  obtain ⟨l₂, hmove, hpop⟩ := hmove
  obtain ⟨l₃, hok, -⟩ := claim plainAllocator 1000 false (by decide) s run _ _ l₂ hpush
    ((around.call (by trivial) (by decide) hcollide).call (by trivial) (by decide) hmove)
  rw [show (wrapPool 0 2120).top.addr = 2064 from rfl, hpop] at hok
  cases hok

end Twapi.Lifo
