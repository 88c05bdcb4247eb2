import Twapi.Lifo.LastBlock
import Twapi.Lifo.Pop

/-!
The invariant of a pool over whole runs.

* `Inv.perform` — every call keeps the invariant, whatever the allocator
  answers, and fails only by panic or on a handle that is no mark's.
* `Inv.start` — `MemLifoInit` establishes it.
* `reaches_inv` — so it holds after every run.
-/

namespace Twapi.Lifo

open Base Lib

variable {A : ChunkAllocator} {base : MemLifoChunk} {l : MemLifo} {f : Frame} {fs : List Frame}

/-! ### MemLifoPushFrame -/

/-- What `MemLifoPushFrame` leaves behind. -/
def FramePost (l : MemLifo) (fs : List Frame) (sz : Nat) (actual : Bool) :
    Option Grant × MemLifo → Prop
  | (none, l') => Inv l' fs
  | (some g, l') => ∀ r ≤ (if actual then g.actualSz else roundUp sz),
      Inv l' ((newFrame l).give g.ptr r :: fs)

theorem Granted.inv {p size : Nat} (granted : Granted base l f fs p size) {r : Nat} (hr : r ≤ size) :
    Inv l (f.give p r :: fs) :=
  ⟨base, _, fs, rfl, (granted r hr).1, (granted r hr).2⟩

/-- The frame fits in the current chunk: a mark and a block right behind it. -/
theorem Ready.frameInChunk (w : Ready base l f fs) (last : TopLast l f fs) {e size : Nat}
    (hsize : l.top.lmFreeptr + sizeofMark + size ≤ e) (he : e ≤ l.top.lmChunk.lcEnd)
    (ha : e % 8 = 0) :
    Granted base (l.push (bumped (marked l.top l.top.lmFreeptr) e)) (newFrame l) (f :: fs)
      (l.top.lmFreeptr + sizeofMark) size := by
  intro r hr
  have level := w.level.push w.lawful (by omega)
  have hr : l.top.lmFreeptr + sizeofMark + r ≤ e := by omega
  exact ⟨w.push last rfl (level.bump hr he ha), .bump level hr⟩

variable {actual panicOnFail : Bool} {op : Op}

/-- The mark was pushed and the block is allocated under it; if that fails the
mark is popped again. -/
theorem Ready.frameApart {l' : MemLifo} (w' : Ready base l' (newFrame l) fs)
    (last' : TopLast l' (newFrame l) fs) (hbelow : l'.below ≠ []) {sz : Nat}
    (hsz : roundUp sz ≤ 4294967288) (sound : AllocSound l' (roundUp sz) actual) :
    Meets (FramePost l fs sz actual) (do
      match ← memLifoAlloc A l' (roundUp sz) actual with
      | (some g, l) => .ok (some g, l)
      | (none, l) => do
          let l ← memLifoPopMark l l'.top.addr
          failAlloc l) := by
  have alloc := w'.alloc (A := A) sound
  cases halloc : memLifoAlloc A l' (roundUp sz) actual with
  | error e =>
    rw [halloc] at alloc
    exact alloc
  | ok r =>
    rw [halloc] at alloc
    obtain ⟨_ | g, l''⟩ := r
    · -- no block: the mark is the top mark still
      obtain rfl : l'' = l' := alloc
      have hfind : findMark l''.top.addr l''.marks = some (l''.top, l''.below) := if_pos rfl
      have inv : Inv l'' (newFrame l :: fs) := ⟨base, _, fs, rfl, w', last'⟩
      rcases inv.popMark l''.top.addr with
        ⟨-, hnone⟩ | ⟨l₃, m, older, hpop, hsome, hmarks, inv₃⟩
      · rw [hnone] at hfind
        cases hfind
      · rw [hfind] at hsome
        cases hsome
        rw [if_neg hbelow] at hmarks
        have hdrop : l''.below.length - l₃.below.length = 1 := by
          have hlength := congrArg List.length hmarks
          simp only [MemLifo.marks, List.length_cons] at hlength
          omega
        rw [hdrop] at inv₃
        simp only [bind, Except.bind, hpop]
        exact meets_failAlloc inv₃
    · intro r hr
      refine alloc.2.inv (Nat.le_trans hr ?_)
      cases actual with
      | true => exact Nat.le_refl _
      | false => exact le_roundUp hsz

theorem Ready.pushFrame (w : Ready base l f fs) (last : TopLast l f fs) {sz : Nat}
    (sound : PushFrameSound A l sz actual) :
    Meets (FramePost l (f :: fs) sz actual) (memLifoPushFrame A l sz actual) := by
  have inv : Inv l (f :: fs) := ⟨base, f, fs, rfl, w, last⟩
  unfold PushFrameSound at sound
  unfold memLifoPushFrame
  by_cases hmax : memlifoMaxAlloc < sz
  · rw [if_pos hmax]
    exact meets_failAlloc inv
  rw [if_neg hmax] at sound ⊢
  simp only [memlifoMaxAlloc, intMax] at hmax
  have hround : roundUp sz ≤ 2147483648 := by
    rw [roundUp_of_le (by omega)]
    omega
  have haligned := roundUp_mod_eight sz
  have htotal : dword (roundUp sz + roundUp sizeofMark) = roundUp sz + sizeofMark := by
    have hmark : roundUp sizeofMark = sizeofMark := rfl
    rw [hmark]
    simp only [dword, sizeofMark]
    omega
  simp only [htotal] at sound ⊢
  have hlt : roundUp sz + sizeofMark < 4294967296 := by
    simp only [sizeofMark]
    omega
  cases hfits : l.top.fits (roundUp sz + sizeofMark) with
  | true =>
    -- mark and block fit in the current chunk
    simp only [hfits, if_true] at sound ⊢
    have hroom := (w.fits_iff hlt).mp hfits
    have hchunk := w.chunk
    have hlo := w.level.room_lo
    have hfree := w.level.freeptr_aligned
    have hlast : alignPtr l.top.lmFreeptr sizeofMark = l.top.lmFreeptr + sizeofMark := by
      apply alignPtr_of_aligned
      · simp only [sizeofMark]
        omega
      · omega
    obtain ⟨e, hdef, he, hend, halign⟩ : ∃ e,
        (if actual then l.top.lmChunk.lcEnd
          else addPtr l.top.lmFreeptr (roundUp sz + sizeofMark)) = e ∧
        l.top.lmFreeptr + (roundUp sz + sizeofMark) ≤ e ∧ e ≤ l.top.lmChunk.lcEnd ∧ e % 8 = 0 := by
      cases actual with
      | true => exact ⟨_, if_pos rfl, hroom, Nat.le_refl _, sound rfl⟩
      | false =>
        refine ⟨_, if_neg (by decide), ?_, ?_, ?_⟩
        · exact Nat.le_of_eq (w.addPtr_free hlt).symm
        · rw [w.addPtr_free hlt]
          exact hroom
        · rw [w.addPtr_free hlt]
          simp only [sizeofMark]
          omega
    have hsize : ofInt (ptrDiff32 e (l.top.lmFreeptr + sizeofMark)) =
        e - (l.top.lmFreeptr + sizeofMark) :=
      ofInt_ptrDiff32 (by omega) (by omega)
    simp only [hdef, hlast, hsize]
    intro r hr
    refine (w.frameInChunk last (Nat.le_of_eq (Nat.add_sub_cancel' ?_)) hend halign).inv ?_
    · omega
    · simp only at hr
      split at hr
      · exact hr
      · omega
  | false =>
    simp only [hfits, Bool.false_eq_true, if_false] at sound ⊢
    have push := w.pushMark (A := A) last
    cases hpush : memLifoPushMark A l with
    | error e =>
      rw [hpush] at push
      exact push
    | ok r =>
      rw [hpush] at push sound
      obtain ⟨_ | n, l'⟩ := r
      · obtain rfl : l' = l := push
        exact meets_failAlloc inv
      · obtain ⟨rfl, hbelow, w', last'⟩ := push
        exact Ready.frameApart w' last' (by simp [hbelow, MemLifo.marks]) (by omega) sound

/-! ### Every call -/

theorem TopLast.inv {size : Nat} (w : Ready base l f fs) (last : TopLast l f fs)
    {r : Option Grant × MemLifo} (post : LastPost base l f fs size r) (hlast : l.top.lmLastAlloc ≠ 0)
    {g : Nat → Nat} (hg : ∀ n ≤ l.top.oldSize, g n ≤ size) :
    Inv r.2 (match r.1 with
      | none => f :: fs
      | some k => onTop (·.resize k.ptr g) (f :: fs)) := by
  obtain ⟨_ | k, l'⟩ := r
  · obtain rfl : l' = l := post
    exact ⟨base, f, fs, rfl, w, last⟩
  · obtain ⟨b, rest, hlive, hsize⟩ := last.holds w hlast
    simp only [onTop, f.resize_eq hlive]
    exact post.2.inv (hg _ hsize)

/-- The call names a mark that is not on the stack. -/
def Op.Stale (l : MemLifo) : Op → Prop
  | .popMark mark => findMark mark l.marks = none
  | _ => False

/-- What a call leaves behind: the invariant, with the caller's view brought up
to date. It fails by panic or on a stale handle only. -/
def CallPost (l : MemLifo) (fs : List Frame) (op : Op) : Except Fault (Option Grant × MemLifo) → Prop
  | .ok (r, l') => Inv l' (account l l' fs op r)
  | .error e => e = .panic ∨ e = .staleMark ∧ op.Stale l

theorem Meets.call {P : Option Grant × MemLifo → Prop} {r : Except Fault (Option Grant × MemLifo)}
    (h : Meets P r) (post : ∀ g l', P (g, l') → Inv l' (account l l' fs op g)) :
    CallPost l fs op r := by
  cases r with
  | ok r => exact post r.1 r.2 h
  | error e => exact .inl h

theorem Ready.performAlloc (w : Ready base l f fs) (last : TopLast l f fs) {sz : UInt32}
    (rounds : RoundsUp sz) (sound : AllocSound l sz.toNat actual) :
    CallPost l (f :: fs) (.alloc sz actual) (memLifoAlloc A l sz.toNat actual) := by
  apply (w.alloc sound).call
  intro g l' post
  cases g with
  | none =>
    obtain rfl : l' = l := post
    exact ⟨base, f, fs, rfl, w, last⟩
  | some g =>
    refine post.2.inv ?_
    cases actual with
    | true => exact Nat.le_refl _
    | false => exact le_roundUp rounds

theorem Ready.performPushMark (w : Ready base l f fs) (last : TopLast l f fs) :
    CallPost l (f :: fs) .pushMark (perform A l .pushMark) := by
  have push := w.pushMark (A := A) last
  simp only [perform]
  cases hpush : memLifoPushMark A l with
  | error e =>
    rw [hpush] at push
    exact .inl push
  | ok r =>
    rw [hpush] at push
    obtain ⟨_ | n, l'⟩ := r
    · obtain rfl : l' = l := push
      exact ⟨base, f, fs, rfl, w, last⟩
    · exact ⟨base, _, _, rfl, push.2.2.1, push.2.2.2⟩

theorem Inv.performPop (w : Inv l fs) (mark : Nat)
    (hop : op = .popMark mark ∨ op = .popFrame ∧ mark = l.top.addr) :
    CallPost l fs op (do return (none, ← memLifoPopMark l mark)) := by
  rcases w.popMark mark with ⟨hpop, hnone⟩ | ⟨l', m, older, hpop, -, -, inv⟩
  · rw [hpop]
    refine .inr ⟨rfl, ?_⟩
    rcases hop with rfl | ⟨rfl, rfl⟩
    · exact hnone
    · have hsome : findMark l.top.addr l.marks = some (l.top, l.below) := if_pos rfl
      rw [hsome] at hnone
      cases hnone
  · rw [hpop]
    rcases hop with rfl | ⟨rfl, rfl⟩
    · exact inv
    · exact inv

/-- Every call keeps the invariant. -/
theorem Inv.perform (w : Inv l fs) (rounds : Rounds op) (sound : Sound A l op) :
    CallPost l fs op (perform A l op) := by
  have inv := w
  obtain ⟨base, f, fs, rfl, w, last⟩ := w
  cases op with
  | alloc sz actual => exact w.performAlloc last rounds sound
  | pushMark => exact w.performPushMark last
  | popMark mark => exact inv.performPop mark (.inl rfl)
  | popFrame => exact inv.performPop l.top.addr (.inr ⟨rfl, rfl⟩)
  | pushFrame sz actual =>
    apply (w.pushFrame last sound).call
    intro g l' post
    cases g with
    | none => exact post
    | some g =>
      refine post _ ?_
      cases actual with
      | true => exact Nat.le_refl _
      | false => exact le_roundUp rounds
  | expandLast incr fix =>
    by_cases hlast : l.top.lmLastAlloc = 0
    · -- nothing to expand: an allocation
      simp only [Lifo.perform, memLifoExpandLast, if_pos hlast]
      simp only [Sound, ExpandSound, if_pos hlast] at sound
      refine (w.alloc (A := A) sound).call fun g l' post => ?_
      cases g with
      | none =>
        obtain rfl : l' = l := post
        exact inv
      | some g =>
        simp only [account, if_pos hlast]
        exact post.2.inv (le_roundUp rounds)
    · apply (last.expandLast w hlast sound).call
      intro g l' post
      have hle : incr.toNat ≤ roundUp incr.toNat := le_roundUp rounds
      have step := last.inv w post hlast (g := (· + incr.toNat)) (by intro n hn; omega)
      cases g with
      | none => exact step
      | some g => simpa only [account, if_neg hlast] using step
  | shrinkLast decr fix =>
    have post : Meets (LastPost base l f fs _) (.ok (memLifoShrinkLast l decr.toNat)) :=
      last.shrinkLast w decr.toNat
    by_cases hlast : l.top.lmLastAlloc = 0
    · simp only [Lifo.perform, memLifoShrinkLast, if_pos hlast]
      exact inv
    · apply post.call
      intro g l' post
      have hle := roundDown_le decr.toNat
      have step := last.inv w post hlast (g := (· - decr.toNat)) (by intro n hn; omega)
      cases g with
      | none => exact step
      | some g => exact step
  | resizeLast newSz fix =>
    by_cases hlast : l.top.lmLastAlloc = 0
    · simp only [Lifo.perform, memLifoResizeLast, if_pos hlast]
      exact inv
    · apply (last.resizeLast w sound).call
      intro g l' post
      have step := last.inv w post hlast (g := fun _ => newSz.toNat) fun _ _ => le_roundUp rounds
      cases g with
      | none => exact step
      | some g => exact step

/-! ### MemLifoInit -/

theorem Inv.start {chunkSz : UInt32} (round : RoundsUp chunkSz)
    (hinit : memLifoInit A .empty chunkSz.toNat panicOnFail = .ok (some l)) :
    Inv l [newFrame l] := by
  unfold memLifoInit at hinit
  generalize hsz : (if chunkSz.toNat < 1000 then 1000 else chunkSz.toNat) = sz at hinit
  have hge : 1000 ≤ sz ∧ sz ≤ 4294967288 := by
    have hround : chunkSz.toNat ≤ 4294967288 := round
    rw [← hsz]
    split <;> omega
  cases hfn : A.fn .empty sz with
  | none =>
    simp only [hfn] at hinit
    split at hinit <;> cases hinit
  | some r =>
    obtain ⟨a, n⟩ := r
    have fresh := A.lawful hfn
    have hn : sz ≤ n := fresh.requested
    have hbound : a + n ≤ 9223372036854775808 := fresh.bounded
    have haligned : a % 8 = 0 := fresh.aligned
    obtain ⟨hnew, haddr⟩ := newChunk_fresh fresh
    have hfree : alignPtr (a + sizeofChunk) sizeofMark = a + sizeofChunk + sizeofMark :=
      alignPtr_fresh fresh (by decide) (by decide)
    simp only [hfn, hnew, bottomMark, haddr, hfree] at hinit
    cases hinit
    have lawful : (Heap.empty.obtain a n).Lawful platform := Heap.Lawful.empty.obtain fresh
    have hwide : sizeofChunk + sizeofMark ≤ n := Nat.le_trans (by decide) (Nat.le_trans hge.1 hn)
    have hbase : Between (Heap.empty.obtain a n) 0 1 ⟨a, a + n⟩ :=
      between_obtain .empty (Nat.zero_le _)
    refine inv_iff.mpr ⟨⟨a, a + n⟩, lawful, ?_, ?_, roundUp_lt sz, roundUp_mod_eight sz, ?_,
      .none rfl, hbase⟩
    · intro b hb
      rcases Heap.mem_obtain.mp hb with rfl | hb
      · exact Nat.le_trans (Nat.le_add_right _ _) hwide
      · cases hb
    · exact Nat.le_trans hge.1 (le_roundUp hge.2)
    · refine ⟨Nat.le_refl _, kept_frameAt lawful, ⟨[], rfl, by simp⟩, ⟨[], rfl, by simp⟩,
        by simp [MemLifoMark.lmChunks], ?_, ?_, ?_, ?_, ?_, ?_, ?_, by simp [newFrame]⟩
      · intro s hs
        obtain rfl : s = ⟨a + sizeofChunk, a + sizeofChunk + sizeofMark⟩ := by
          simpa [own, newFrame, occupied, MemLifoMark.span] using hs
        refine ⟨⟨a, a + n⟩, by simp [MemLifoMark.lmChunks], ?_⟩
        simp only [Span.Within, MemLifoChunk.body]
        omega
      · simp [own, newFrame, occupied]
      · intro s hs
        obtain rfl : s = ⟨a + sizeofChunk, a + sizeofChunk + sizeofMark⟩ := by
          simpa [own, newFrame, occupied, MemLifoMark.span] using hs
        exact .inl (Nat.le_refl _)
      · simp only
        omega
      · simp only
        omega
      · simp only [sizeofChunk, sizeofMark]
        omega
      · simp only [sizeofChunk]
        omega

/-! ### Runs -/

theorem Session.step_inv {s t : Session} (w : Inv s.pool s.frames) (guard : Guard A s op)
    (hstep : s.step A op = some t) : Inv t.pool t.frames := by
  have call := w.perform guard.1 guard.2
  unfold Session.step at hstep
  cases hperform : Lifo.perform A s.pool op with
  | error e => simp [hperform] at hstep
  | ok r =>
    rw [hperform] at call
    simp only [hperform, Option.some.injEq] at hstep
    subst hstep
    exact call

/-- The invariant holds after every run whose calls meet the guard. -/
theorem reaches_inv {chunkSz : UInt32} (round : RoundsUp chunkSz) {s : Session}
    (run : (lifoMachine A chunkSz panicOnFail).Reaches (Guard A) s) : Inv s.pool s.frames := by
  refine run.invariant (P := fun s => Inv s.pool s.frames) ?_ fun s op t w => Session.step_inv w
  rintro s ⟨l, hinit, rfl⟩
  exact .start round hinit

end Twapi.Lifo
