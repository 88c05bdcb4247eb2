import Twapi.Lifo.Safety

/-!
`MemLifoValidate`.

* `memLifoValidate` — the checks, from the top mark down.
* `WellPlaced` — the last allocation of a mark is where the validator looks for
  it: before the end of the current chunk, or the first big block, at an address
  above the current chunk.
* `Placed` — the calls after which it is: none asks for nothing where the chunk
  is full, and no big block comes to lie below the current chunk.
* `validate_of_run` — in runs of such calls the validator finds nothing wrong.
-/

namespace Twapi.Lifo

open Base Lib List

/-- The loop over the marks. `debug` is a build with `MEMLIFO_DEBUG`, in which
`lm_seq` numbers the marks from the bottom mark up; `lastSeq` is `last_seq`. -/
def validateMarks (debug : Bool) (bot : MemLifoMark) : Nat → List MemLifoMark → Int
  | _, [] => 0
  | lastSeq, m :: ms =>
    let lmSeq := ms.length + 1
    if debug ∧ lmSeq ≠ lastSeq + 1 then -5
    else if m.lmLastAlloc ≠ 0 ∧ m.lmLastAlloc < m.lmChunk.addr then -8
    else if m.lmLastAlloc ≠ 0 ∧ m.lmChunk.lcEnd ≤ m.lmLastAlloc ∧
        (m.lmBigBlocks = [] ∨ m.isBigBlock = false) then -9
    else if m.lmChunk.lcEnd < m.lmFreeptr then -10
    else match ms with
      | [] => if m.addr ≠ bot.addr then -7 else 0
      | _ :: _ => validateMarks debug bot lmSeq ms

/-- `heapValid` is what `HeapValidate` says of a pool with a heap of its own.
The magic numbers and the marks' pointers to the pool never change and are not
modelled. -/
def memLifoValidate (debug heapValid : Bool) (l : MemLifo) : Int :=
  if heapValid then validateMarks debug l.botMark 0 l.marks else -2

def WellPlaced (m : MemLifoMark) : Prop :=
  m.lmLastAlloc = 0 ∨ m.lmChunk.addr ≤ m.lmLastAlloc ∧
    (m.lmLastAlloc < m.lmChunk.lcEnd ∨ m.lmBigBlocks ≠ [] ∧ m.isBigBlock = true)

/-- What the validator asks of a pool that is laid out. In a build with
`MEMLIFO_DEBUG` it takes `lm_seq` to grow on the way down, so there can be one
mark only. -/
structure AllPlaced (debug : Bool) (l : MemLifo) : Prop where
  placed : ∀ m ∈ l.marks, WellPlaced m
  alone : debug = true → l.below = []

/-! ### The calls that keep it -/

/-- The block that answers a request of `req` bytes lies above the current
chunk. -/
def Above (A : ChunkAllocator) (l : MemLifo) (req : Nat) : Prop :=
  ∀ r ∈ A.fn l.heap req, l.top.lmChunk.addr < r.1

def AllocPlaced (A : ChunkAllocator) (l : MemLifo) (sz : Nat) : Prop :=
  if memlifoMaxAlloc < sz then True
  else if l.top.fits (roundUp sz) then l.top.lmFreeptr < l.top.lmChunk.lcEnd
  else if l.littleLeft then True
  else Above A l (dword (roundUp sz + sizeofChunk))

def PushFramePlaced (A : ChunkAllocator) (l : MemLifo) (sz : Nat) : Prop :=
  if memlifoMaxAlloc < sz then True
  else if l.top.fits (dword (roundUp sz + roundUp sizeofMark)) then
    l.top.lmFreeptr + sizeofMark < l.top.lmChunk.lcEnd
  else
    match memLifoPushMark A l with
    | .ok (some _, l') => AllocPlaced A l' (roundUp sz)
    | _ => True

def ExpandPlaced (A : ChunkAllocator) (l : MemLifo) (incr : Nat) (fix : Bool) : Prop :=
  if l.top.lmLastAlloc = 0 then AllocPlaced A l incr
  else if l.top.isBigBlock = false ∧ toInt (roundUp incr) ≤ l.top.left ∨ fix then True
  else if l.top.isBigBlock then Above A l (dword (l.top.oldSize + roundUp incr + sizeofChunk))
  else AllocPlaced A l (l.top.oldSize + roundUp incr)

/-- In a build with `MEMLIFO_DEBUG` no mark is pushed either. -/
def Placed (A : ChunkAllocator) (debug : Bool) (l : MemLifo) : Op → Prop
  | .alloc sz _ => AllocPlaced A l sz.toNat
  | .pushMark => debug = false
  | .pushFrame sz _ => debug = false ∧ PushFramePlaced A l sz.toNat
  | .expandLast incr fix => ExpandPlaced A l incr.toNat fix
  | .resizeLast newSz fix => l.top.lmLastAlloc ≠ 0 → l.top.oldSize < roundUp newSz.toNat →
      ExpandPlaced A l (roundUp newSz.toNat - l.top.oldSize) fix
  | _ => True

instance (A : ChunkAllocator) (l : MemLifo) (req : Nat) : Decidable (Above A l req) := by
  unfold Above; infer_instance

instance (A : ChunkAllocator) (l : MemLifo) (sz : Nat) : Decidable (AllocPlaced A l sz) := by
  unfold AllocPlaced; infer_instance

instance (A : ChunkAllocator) (l : MemLifo) (sz : Nat) : Decidable (PushFramePlaced A l sz) := by
  unfold PushFramePlaced
  rcases memLifoPushMark A l with e | ⟨_ | n, l'⟩ <;> infer_instance

instance (A : ChunkAllocator) (l : MemLifo) (incr : Nat) (fix : Bool) :
    Decidable (ExpandPlaced A l incr fix) := by
  unfold ExpandPlaced; infer_instance

/-- The guard of the runs the validator is right about. -/
def Checked (A : ChunkAllocator) (debug : Bool) (s : Session) (op : Op) : Prop :=
  Guard A s op ∧ Placed A debug s.pool op

instance (A : ChunkAllocator) (debug : Bool) (s : Session) (op : Op) :
    Decidable (Checked A debug s op) := by
  unfold Checked
  refine op.casesOn ?_ ?_ ?_ ?_ ?_ ?_ ?_ ?_ <;> intros <;> unfold Placed <;> infer_instance

variable {A : ChunkAllocator} {base : MemLifoChunk} {l l' : MemLifo} {f : Frame} {fs : List Frame}
  {debug : Bool}

theorem AllPlaced.retop (all : AllPlaced debug l) (below : l'.below = l.below)
    (top : WellPlaced l'.top) : AllPlaced debug l' := by
  refine ⟨fun m hm => ?_, fun h => below.trans (all.alone h)⟩
  rw [MemLifo.marks, below] at hm
  rcases mem_cons.mp hm with rfl | hm
  · exact top
  · exact all.placed m (mem_cons_of_mem _ hm)

/-- Pushing a mark whose last allocation is well placed. -/
theorem AllPlaced.push (all : AllPlaced debug l) (hdebug : debug = false)
    (below : l'.below = l.marks) (top : WellPlaced l'.top) : AllPlaced debug l' := by
  refine ⟨fun m hm => ?_, by simp [hdebug]⟩
  rw [MemLifo.marks, below] at hm
  rcases mem_cons.mp hm with rfl | hm
  · exact top
  · exact all.placed m hm

variable {actual fix : Bool} {m : MemLifoMark}

/-- Moving the free pointer moves no allocation. -/
theorem WellPlaced.free (h : WellPlaced m) (free : Nat) :
    WellPlaced { m with lmFreeptr := free } := h

/-- A first big block above the current chunk. -/
theorem wellPlaced_big {h : Heap} {req a n : Nat} (fresh : Fresh platform h req a n)
    (above : m.lmChunk.addr < a) (rest : List MemLifoChunk) :
    WellPlaced { m with lmBigBlocks := newChunk a n :: rest, lmLastAlloc := a + sizeofChunk } := by
  have hbound : a + n ≤ 9223372036854775808 := fresh.bounded
  have hadd : addPtr a sizeofChunk = a + sizeofChunk :=
    addPtr_of_lt (by simp only [sizeofChunk]; omega)
  refine .inr ⟨?_, .inr ⟨by simp, ?_⟩⟩
  · simp only
    omega
  · simp [MemLifoMark.isBigBlock, listPtr, newChunk, hadd]

theorem Ready.placedAlloc (w : Ready base l f fs) (all : AllPlaced debug l) {sz : Nat}
    (sound : AllocSound l sz actual) (placed : AllocPlaced A l sz) :
    Meets (fun r => AllPlaced debug r.2) (memLifoAlloc A l sz actual) := by
  unfold memLifoAlloc
  unfold AllocSound at sound
  unfold AllocPlaced at placed
  by_cases hmax : memlifoMaxAlloc < sz
  · rw [if_pos hmax]
    exact meets_failAlloc all
  rw [if_neg hmax] at sound placed ⊢
  by_cases hfits : l.top.fits (roundUp sz) = true
  · -- at the free pointer
    rw [if_pos hfits] at placed
    simp only [if_pos hfits]
    have hlo := w.level.room_lo
    exact all.retop rfl (.inr ⟨by simp only [allocInChunk]; omega, .inl placed⟩)
  simp only [if_neg hfits] at sound placed ⊢
  cases hleft : l.littleLeft with
  | true =>
    simp only [hleft, if_true] at sound ⊢
    cases hfn : A.fn l.heap (newChunkSize l (roundUp sz)) with
    | none => exact meets_failAlloc all
    | some r =>
      -- at the start of a chunk, which is larger than its descriptor
      obtain ⟨a, n⟩ := r
      have fresh := A.lawful hfn
      obtain ⟨hnew, hlast⟩ := newChunk_fresh fresh
      have hreq := w.newChunkSize_ge sound
      have hge := w.chunkSize_ge
      have hn : sizeofChunk < n := by
        refine Nat.lt_of_lt_of_le ?_ fresh.requested
        have hlt := w.chunkSize_lt
        unfold chunkRequest at sound
        unfold newChunkSize
        simp only [dword, sizeofChunk] at sound ⊢
        split at sound <;> rename_i h
        · rw [if_pos h]
          omega
        · rw [if_neg h]
          omega
      refine all.retop rfl (.inr ?_)
      simp only [allocFromNewChunk, hlast, hnew]
      omega
  | false =>
    simp only [hleft, Bool.false_eq_true, if_false] at placed ⊢
    cases hfn : A.fn l.heap (dword (roundUp sz + sizeofChunk)) with
    | none => exact meets_failAlloc all
    | some r =>
      obtain ⟨a, n⟩ := r
      have fresh := A.lawful hfn
      refine all.retop rfl ?_
      simp only [allocBigBlock, (newChunk_fresh fresh).2]
      exact wellPlaced_big fresh (placed (a, n) hfn) _

theorem Ready.placedPush (w : Ready base l f fs) (last : TopLast l f fs) (all : AllPlaced debug l)
    (hdebug : debug = false) : Meets (fun r => AllPlaced debug r.2) (memLifoPushMark A l) := by
  refine (w.pushMark (A := A) last).mono fun r post => ?_
  obtain ⟨_ | n, l'⟩ := r
  · obtain rfl : l' = l := post
    exact all
  · obtain ⟨-, hbelow, -, last'⟩ := post
    refine all.push hdebug hbelow (.inl ?_)
    cases last' with
    | none h => exact h

/-- A pop takes marks away. -/
theorem Inv.placedPop (w : Inv l fs) (all : AllPlaced debug l) {addr : Nat}
    (hpop : memLifoPopMark l addr = .ok l') : AllPlaced debug l' := by
  rcases w.popMark addr with ⟨herr, -⟩ | ⟨l'', m, older, hok, hfind, hmarks, -⟩
  · simp [herr] at hpop
  · obtain rfl : l'' = l' := Except.ok.inj (hok.symm.trans hpop)
    obtain ⟨-, newer, hsplit⟩ := findMark_split hfind
    refine ⟨fun k hk => all.placed k ?_, fun h => ?_⟩
    · rw [hmarks] at hk
      rw [hsplit]
      split at hk
      · simp only [mem_singleton] at hk
        simp [hk]
      · simp [hk]
    · -- one mark before, so one mark now
      have hone := congrArg length hsplit
      simp only [MemLifo.marks, all.alone h, length_cons, length_append,
        length_nil] at hone
      have holder : older = [] := length_eq_zero_iff.mp (by omega)
      rw [if_pos holder, MemLifo.marks] at hmarks
      exact (cons.inj hmarks).2

theorem Ready.placedFrame (w : Ready base l f fs) (last : TopLast l f fs) (all : AllPlaced debug l)
    (hdebug : debug = false) {sz : Nat} (sound : PushFrameSound A l sz actual)
    (placed : PushFramePlaced A l sz) :
    Meets (fun r => AllPlaced debug r.2) (memLifoPushFrame A l sz actual) := by
  unfold memLifoPushFrame
  unfold PushFrameSound at sound
  unfold PushFramePlaced at placed
  by_cases hmax : memlifoMaxAlloc < sz
  · rw [if_pos hmax]
    exact meets_failAlloc all
  rw [if_neg hmax] at sound placed ⊢
  simp only at sound ⊢
  by_cases hfits : l.top.fits (dword (roundUp sz + roundUp sizeofMark)) = true
  · -- mark and block in the current chunk
    rw [if_pos hfits] at placed ⊢
    have hchunk := w.chunk
    have hlo := w.level.room_lo
    have hfree := w.level.freeptr_aligned
    have hlast : alignPtr l.top.lmFreeptr sizeofMark = l.top.lmFreeptr + sizeofMark := by
      apply alignPtr_of_aligned
      · simp only [sizeofMark]
        omega
      · simp only [sizeofMark] at placed ⊢
        omega
    refine all.push hdebug rfl ?_
    simp only [MemLifo.push, MemLifoMark.above, hlast]
    exact .inr ⟨by simp only; omega, .inl placed⟩
  · rw [if_neg hfits] at sound placed ⊢
    have push := w.pushMark (A := A) last
    have pushed := w.placedPush (A := A) last all hdebug
    cases hpush : memLifoPushMark A l with
    | error e =>
      rw [hpush] at push
      exact push
    | ok r =>
      rw [hpush] at push pushed sound placed
      obtain ⟨_ | n, l'⟩ := r
      · exact meets_failAlloc pushed
      · obtain ⟨rfl, hbelow, w', last'⟩ := push
        have alloc := w'.alloc (A := A) sound
        have allocated := w'.placedAlloc (A := A) pushed sound placed
        simp only [bind, Except.bind]
        cases halloc : memLifoAlloc A l' (roundUp sz) actual with
        | error e =>
          rw [halloc] at alloc
          exact alloc
        | ok r =>
          rw [halloc] at alloc allocated
          obtain ⟨_ | g, l''⟩ := r
          · obtain rfl : l'' = l' := alloc
            have inv : Inv l'' (newFrame l :: f :: fs) := ⟨base, _, _, rfl, w', last'⟩
            simp only
            cases hpop : memLifoPopMark l'' l''.top.addr with
            | error e =>
              rcases inv.popMark l''.top.addr with ⟨-, hnone⟩ | ⟨_, _, _, hok, -⟩
              · simp [MemLifo.marks, findMark] at hnone
              · simp [hok] at hpop
            | ok l₃ => exact meets_failAlloc (inv.placedPop pushed hpop)
          · exact allocated

theorem TopLast.placedExpand (w : Ready base l f fs) (last : TopLast l f fs)
    (all : AllPlaced debug l) {incr : Nat} (sound : ExpandSound l incr fix)
    (placed : ExpandPlaced A l incr fix) :
    Meets (fun r => AllPlaced debug r.2) (memLifoExpandLast A l incr fix) := by
  have top : WellPlaced l.top := all.placed _ mem_cons_self
  unfold memLifoExpandLast
  unfold ExpandSound at sound
  unfold ExpandPlaced at placed
  by_cases hlast : l.top.lmLastAlloc = 0
  · rw [if_pos hlast] at sound placed
    simp only [if_pos hlast]
    exact w.placedAlloc all sound placed
  rw [if_neg hlast] at sound placed
  simp only [if_neg hlast]
  by_cases hplace : l.top.isBigBlock = false ∧ toInt (roundUp incr) ≤ l.top.left
  · rw [if_pos hplace]
    exact all.retop rfl (top.free _)
  rw [if_neg hplace] at sound ⊢
  cases fix with
  | true => exact all
  | false =>
    simp only [Bool.false_eq_true, if_false, or_false, if_neg hplace] at sound placed ⊢
    have hsz : dword (l.top.oldSize + roundUp incr) = l.top.oldSize + roundUp incr :=
      Nat.mod_eq_of_lt sound.1
    rw [hsz]
    by_cases hmax : memlifoMaxAlloc < l.top.oldSize + roundUp incr
    · rw [if_pos hmax]
      exact all
    rw [if_neg hmax]
    rcases last.cases w with ⟨hzero, -⟩ | i | ⟨c, rest, i⟩
    · exact absurd hzero hlast
    · simp only [i.notBig, Bool.false_eq_true, if_false] at sound placed ⊢
      exact w.placedAlloc all (sound.2 trivial) placed
    · -- the first big block is replaced
      simp only [i.isBig, i.list, if_true] at placed ⊢
      cases hfn : A.fn l.heap (dword (l.top.oldSize + roundUp incr + sizeofChunk)) with
      | none => exact all
      | some r =>
        obtain ⟨a, n⟩ := r
        have fresh := A.lawful hfn
        have hbound : a + n ≤ 9223372036854775808 := fresh.bounded
        have hadd : addPtr a sizeofChunk = a + sizeofChunk :=
          addPtr_of_lt (by simp only [sizeofChunk]; omega)
        have hreq : sizeofChunk ≤ dword (l.top.oldSize + roundUp incr + sizeofChunk) := by
          simp only [memlifoMaxAlloc, intMax] at hmax
          simp only [dword, sizeofChunk]
          omega
        obtain ⟨h', hfree, -⟩ := i.move w fresh hreq
        simp only [bind, Except.bind, hfree]
        refine all.retop rfl ?_
        simp only [moveBigBlock, hadd]
        exact wellPlaced_big fresh (placed (a, n) hfn) rest

theorem shrinkLast_placed (all : AllPlaced debug l) (decr : Nat) :
    AllPlaced debug (memLifoShrinkLast l decr).2 := by
  have top : WellPlaced l.top := all.placed _ mem_cons_self
  unfold memLifoShrinkLast
  by_cases hlast : l.top.lmLastAlloc = 0
  · rw [if_pos hlast]
    exact all
  · simp only [if_neg hlast]
    split
    · exact all.retop rfl (top.free _)
    · exact all

theorem TopLast.placedResize (w : Ready base l f fs) (last : TopLast l f fs)
    (all : AllPlaced debug l) {newSz : Nat} (sound : ResizeSound l newSz fix)
    (placed : l.top.lmLastAlloc ≠ 0 → l.top.oldSize < roundUp newSz →
      ExpandPlaced A l (roundUp newSz - l.top.oldSize) fix) :
    Meets (fun r => AllPlaced debug r.2) (memLifoResizeLast A l newSz fix) := by
  have top : WellPlaced l.top := all.placed _ mem_cons_self
  unfold memLifoResizeLast
  unfold ResizeSound at sound
  by_cases hlast : l.top.lmLastAlloc = 0
  · rw [if_pos hlast]
    exact all
  simp only [if_neg hlast]
  by_cases hle : roundUp newSz ≤ l.top.oldSize
  · simp only [hle, and_true, if_true]
    split
    · exact all.retop rfl (top.free _)
    · exact shrinkLast_placed all _
  · simp only [hle, and_false, if_false]
    have hgrow := Nat.lt_of_not_le hle
    rw [if_pos ⟨hlast, hgrow⟩] at sound
    exact last.placedExpand w all sound (placed hlast hgrow)

/-! ### Over runs -/

/-- Every call of the guard keeps the last allocations where they belong. -/
theorem Inv.placedPerform (w : Inv l fs) (all : AllPlaced debug l) {op : Op}
    (sound : Sound A l op) (placed : Placed A debug l op) :
    ∀ r, Lifo.perform A l op = .ok r → AllPlaced debug r.2 := by
  have inv := w
  obtain ⟨base, f, fs, rfl, w, last⟩ := w
  have meets : ∀ {a : Except Fault (Option Grant × MemLifo)},
      Meets (fun r => AllPlaced debug r.2) a → ∀ r, a = .ok r → AllPlaced debug r.2 := by
    rintro a h r rfl
    exact h
  have pop : ∀ addr r, (do return (none, ← memLifoPopMark l addr)) =
      (.ok r : Except Fault (Option Grant × MemLifo)) → AllPlaced debug r.2 := by
    intro addr r h
    cases hpop : memLifoPopMark l addr with
    | error e => simp [hpop] at h
    | ok l₂ =>
      obtain rfl : (none, l₂) = r := by simpa [hpop] using h
      exact inv.placedPop all hpop
  cases op with
  | alloc sz actual => exact meets (w.placedAlloc all sound placed)
  | pushMark =>
    have push := w.placedPush (A := A) last all placed
    intro r h
    simp only [Lifo.perform] at h
    cases hpush : memLifoPushMark A l with
    | error e => simp [hpush] at h
    | ok q =>
      rw [hpush] at push
      obtain rfl : _ = r := by simpa [hpush] using h
      exact push
  | popMark mark => exact pop mark
  | popFrame => exact pop l.top.addr
  | pushFrame sz actual => exact meets (w.placedFrame last all placed.1 sound placed.2)
  | expandLast incr fix => exact meets (last.placedExpand w all sound placed)
  | shrinkLast decr fix =>
    rintro r h
    obtain rfl : memLifoShrinkLast l decr.toNat = r := Except.ok.inj h
    exact shrinkLast_placed all decr.toNat
  | resizeLast newSz fix => exact meets (last.placedResize w all sound placed)

variable {ms : List MemLifoMark}

theorem Laid.room {h : Heap} {hi : Nat} (w : Laid h base hi ms fs) :
    ∀ m ∈ ms, m.lmFreeptr ≤ m.lmChunk.lcEnd := by
  induction ms generalizing hi fs with
  | nil => simp
  | cons m ms ih =>
    cases fs with
    | nil => exact w.elim
    | cons f fs =>
      intro k hk
      rcases mem_cons.mp hk with rfl | hk
      · exact w.1.room_hi
      · exact ih w.2.2 k hk

/-- The validator finds nothing wrong with a stack of well placed marks whose
free pointers are in their chunks. -/
theorem validateMarks_eq_zero {n : Nat} (placed : ∀ k ∈ m :: ms, WellPlaced k)
    (room : ∀ k ∈ m :: ms, k.lmFreeptr ≤ k.lmChunk.lcEnd) (alone : debug = true → ms = [] ∧ n = 0) :
    validateMarks debug (ms.getLastD m) n (m :: ms) = 0 := by
  induction ms generalizing n m with
  | nil =>
    have hseq : ¬ (debug = true ∧ 0 + 1 ≠ n + 1) := by
      rintro ⟨h, hne⟩
      exact hne (by rw [(alone h).2])
    have hm := placed m mem_cons_self
    have hfree := room m mem_cons_self
    unfold WellPlaced at hm
    unfold validateMarks
    simp only [length_nil, getLastD_nil, ne_eq, not_true_eq_false, if_false]
    rw [if_neg hseq, if_neg (by omega), if_neg (by grind), if_neg (by omega)]
  | cons k ms ih =>
    have hdebug : debug = false := by
      cases debug with
      | true => simpa using alone rfl
      | false => rfl
    have hm := placed m mem_cons_self
    have hfree := room m mem_cons_self
    unfold WellPlaced at hm
    unfold validateMarks
    rw [getLastD_cons]
    simp only
    rw [if_neg (by simp [hdebug]), if_neg (by omega), if_neg (by grind), if_neg (by omega)]
    exact ih (fun j hj => placed j (mem_cons_of_mem _ hj))
      (fun j hj => room j (mem_cons_of_mem _ hj)) (by simp [hdebug])

theorem AllPlaced.start {chunkSz : Nat} {panicOnFail : Bool}
    (hinit : memLifoInit A .empty chunkSz panicOnFail = .ok (some l)) : AllPlaced debug l := by
  unfold memLifoInit at hinit
  simp only at hinit
  split at hinit
  · split at hinit <;> cases hinit
  · cases hinit
    refine ⟨fun m hm => ?_, fun _ => rfl⟩
    obtain rfl : m = _ := mem_singleton.mp hm
    exact .inl rfl

/-- In every state reached by a run whose calls meet `Checked` the validator
returns 0, whatever the allocator answers. -/
theorem validate_of_run (A : ChunkAllocator) (chunkSz : UInt32) (panicOnFail debug : Bool)
    (round : RoundsUp chunkSz) (s : Session)
    (run : (lifoMachine A chunkSz panicOnFail).Reaches (Checked A debug) s) :
    memLifoValidate debug true s.pool = 0 := by
  have hinv : Inv s.pool s.frames := reaches_inv round (run.mono fun _ _ h => h.1)
  have hall : Inv s.pool s.frames ∧ AllPlaced debug s.pool := by
    refine run.invariant (P := fun s => Inv s.pool s.frames ∧ AllPlaced debug s.pool) ?_ ?_
    · rintro s ⟨l, hinit, rfl⟩
      exact ⟨.start round hinit, .start hinit⟩
    · rintro s op t ⟨w, all⟩ guard hstep
      refine ⟨Session.step_inv w guard.1 hstep, ?_⟩
      change Session.step A s op = some t at hstep
      unfold Session.step at hstep
      cases hperform : perform A s.pool op with
      | error e => simp [hperform] at hstep
      | ok r =>
        simp only [hperform, Option.some.injEq] at hstep
        subst hstep
        exact w.placedPerform all guard.1.2 guard.2 r hperform
  obtain ⟨base, -, -, -, -, -, laid⟩ := inv_iff.mp hinv
  rw [memLifoValidate, if_pos rfl]
  exact validateMarks_eq_zero hall.2.placed laid.room fun h => ⟨hall.2.alone h, rfl⟩

/-- A big block in a pool that has two marks. -/
theorem validate_of_run_plain : ∃ s, (lifoMachine plainAllocator 1000 false).Reaches
    (Checked plainAllocator false) s ∧ s.pool.top.isBigBlock = true ∧
      memLifoValidate false true s.pool = 0 := by
  obtain ⟨s, run, hbig⟩ := Machine.Reaches.exists_of_run (G := Checked plainAllocator false)
    [.alloc 100 false, .pushMark, .alloc 900 false] (fun s => s.pool.top.isBigBlock = true)
    plainPool_init (by decide)
  exact ⟨s, run, hbig, validate_of_run plainAllocator 1000 false false (by decide) s run⟩

/-- A block of no bytes where the chunk is full starts at the end of the chunk;
the validator takes it for a stray address. -/
theorem not_valid_of_empty : ¬ ∀ (A : ChunkAllocator) (chunkSz : UInt32) (panicOnFail debug : Bool),
    RoundsUp chunkSz → ∀ s, (lifoMachine A chunkSz panicOnFail).Reaches Polite s →
      memLifoValidate debug true s.pool = 0 := by
  intro claim
  obtain ⟨s, run, invalid⟩ := Machine.Reaches.exists_of_run (G := Polite)
    [.alloc 928 false, .alloc 0 false] (fun s => memLifoValidate false true s.pool = -9)
    plainPool_init (by decide)
  have h := claim plainAllocator 1000 false false (by decide) s run
  rw [invalid] at h
  exact absurd h (by decide)

end Twapi.Lifo
