import Twapi.Lib.Machine
import Twapi.Lifo.Model

/-!
A pool in use: sequences of calls, and what the caller may rely on after them.

* `perform` — one call on the pool.
* `Frame` — the caller's view of one mark: the blocks handed out under it, and
  the blocks that were outstanding when it was pushed. The view is computed
  from the calls and their results only (`account`).
* `lifoMachine` — every sequence of calls after a successful `MemLifoInit`.
* `Rounds` and `Sound` — the sizes and pool states the results about runs
  speak of.
-/

namespace Twapi.Lifo

open Base Lib

/-- A call on the pool. A size is a `DWORD`; `popMark` takes the address of
the mark to pop. -/
inductive Op where
  | alloc (sz : UInt32) (actual : Bool)
  | pushMark
  | popMark (mark : Nat)
  | popFrame
  | pushFrame (sz : UInt32) (actual : Bool)
  | expandLast (incr : UInt32) (fix : Bool)
  | shrinkLast (decr : UInt32) (fix : Bool)
  | resizeLast (newSz : UInt32) (fix : Bool)
deriving DecidableEq

/-- Make a call. A pushed mark is reported as a grant at its address. -/
def perform (A : ChunkAllocator) (l : MemLifo) : Op → Except Fault (Option Grant × MemLifo)
  | .alloc sz actual => memLifoAlloc A l sz.toNat actual
  | .pushMark => do
      let (n, l) ← memLifoPushMark A l
      return (n.map fun p => ⟨p, 0⟩, l)
  | .popMark mark => return (none, ← memLifoPopMark l mark)
  | .popFrame => return (none, ← memLifoPopMark l l.top.addr)
  | .pushFrame sz actual => memLifoPushFrame A l sz.toNat actual
  | .expandLast incr fix => memLifoExpandLast A l incr.toNat fix
  | .shrinkLast decr _ => return memLifoShrinkLast l decr.toNat
  | .resizeLast newSz fix => memLifoResizeLast A l newSz.toNat fix

/-- A block the caller holds: where it is and the size it was asked for. -/
structure Live where
  ptr : Nat
  size : Nat
deriving DecidableEq

/-- What was handed out under one mark, the latest block first; `since` is the
number of blocks obtained from the heap when the mark was pushed, and `kept`
the blocks outstanding then. -/
structure Frame where
  live : List Live
  since : Nat
  kept : List Block
deriving DecidableEq

def Frame.give (f : Frame) (p size : Nat) : Frame := { f with live := ⟨p, size⟩ :: f.live }

/-- The latest block moves or changes size. -/
def Frame.resize (f : Frame) (p : Nat) (size : Nat → Nat) : Frame :=
  match f.live with
  | [] => f
  | b :: rest => { f with live := ⟨p, size b.size⟩ :: rest }

def onTop (g : Frame → Frame) : List Frame → List Frame
  | [] => []
  | f :: fs => g f :: fs

/-- The frame of a mark pushed on `l`. -/
def newFrame (l : MemLifo) : Frame := ⟨[], l.heap.obtained, l.heap.outstanding⟩

/-- The size a caller may use of a block it asked `sz` bytes for. -/
def Grant.usable (g : Grant) (sz : UInt32) (actual : Bool) : Nat :=
  if actual then g.actualSz else sz.toNat

/-- The caller's view after a call that took the pool from `l` to `l'`. -/
def account (l l' : MemLifo) (fs : List Frame) : Op → Option Grant → List Frame
  | .popMark _, _ => fs.drop (l.below.length - l'.below.length)
  | .popFrame, _ => fs.drop (l.below.length - l'.below.length)
  | _, none => fs
  | .alloc sz actual, some g => onTop (·.give g.ptr (g.usable sz actual)) fs
  | .pushMark, some _ => newFrame l :: fs
  | .pushFrame sz actual, some g => (newFrame l).give g.ptr (g.usable sz actual) :: fs
  | .expandLast incr _, some g =>
    if l.top.lmLastAlloc = 0 then onTop (·.give g.ptr incr.toNat) fs
    else onTop (·.resize g.ptr (· + incr.toNat)) fs
  | .shrinkLast decr _, some g => onTop (·.resize g.ptr (· - decr.toNat)) fs
  | .resizeLast newSz _, some g => onTop (·.resize g.ptr fun _ => newSz.toNat) fs

/-- A pool together with the caller's view, the top mark's frame first. -/
structure Session where
  pool : MemLifo
  frames : List Frame
deriving DecidableEq

/-- The blocks handed out and not released by a pop. -/
def Session.live (s : Session) : List Live := s.frames.flatMap Frame.live

def Session.step (A : ChunkAllocator) (s : Session) (op : Op) : Option Session :=
  match perform A s.pool op with
  | .ok (r, l) => some ⟨l, account s.pool l s.frames op r⟩
  | .error _ => none

/-- The session a successful `MemLifoInit` starts: the first chunk is
outstanding when the bottom mark is stored in it. -/
def Session.start (l : MemLifo) : Session := ⟨l, [newFrame l]⟩

/-- Runs of calls on a pool initialized with chunk size `chunkSz`. -/
def lifoMachine (A : ChunkAllocator) (chunkSz : UInt32) (panicOnFail : Bool) : Machine Session Op where
  init s := ∃ l, memLifoInit A .empty chunkSz.toNat panicOnFail = .ok (some l) ∧ s = .start l
  step := Session.step A

/-! ### Sizes and states -/

/-- `ROUNDUP` of `sz` does not wrap. -/
def RoundsUp (sz : UInt32) : Prop := sz.toNat ≤ 4294967288

instance (sz : UInt32) : Decidable (RoundsUp sz) := inferInstanceAs (Decidable (_ ≤ _))

/-- The size of the call can be rounded up. -/
def Rounds : Op → Prop
  | .alloc sz _ | .pushFrame sz _ | .expandLast sz _ | .resizeLast sz _ => RoundsUp sz
  | _ => True

instance (op : Op) : Decidable (Rounds op) := by
  cases op <;> unfold Rounds <;> infer_instance

/-- `newChunkSize` before it is reduced to a `DWORD`. -/
def chunkRequest (l : MemLifo) (sz : Nat) : Nat :=
  (if l.lifoChunkSize / 2 < sz then sz + l.lifoChunkSize else l.lifoChunkSize) + sizeofChunk

/-- `MemLifoAlloc` does not take an unaligned chunk end as its free pointer,
and the size of a new chunk does not wrap. -/
def AllocSound (l : MemLifo) (sz : Nat) (actual : Bool) : Prop :=
  if memlifoMaxAlloc < sz then True
  else if l.top.fits (roundUp sz) then actual → l.top.lmChunk.lcEnd % 8 = 0
  else if l.littleLeft then chunkRequest l (roundUp sz) < 4294967296
  else True

/-- The same for the allocation inside `MemLifoPushFrame`. -/
def PushFrameSound (A : ChunkAllocator) (l : MemLifo) (sz : Nat) (actual : Bool) : Prop :=
  if memlifoMaxAlloc < sz then True
  else if l.top.fits (dword (roundUp sz + roundUp sizeofMark)) then
    actual → l.top.lmChunk.lcEnd % 8 = 0
  else
    match memLifoPushMark A l with
    | .ok (some _, l') => AllocSound l' (roundUp sz) actual
    | _ => True

/-- `MemLifoExpandLast` grows a block in place only by what is left of the
chunk, and the new size does not wrap. -/
def ExpandSound (l : MemLifo) (incr : Nat) (fix : Bool) : Prop :=
  if l.top.lmLastAlloc = 0 then AllocSound l incr false
  else if l.top.isBigBlock = false ∧ toInt (roundUp incr) ≤ l.top.left then
    l.top.lmFreeptr + roundUp incr ≤ l.top.lmChunk.lcEnd
  else if fix then True
  else l.top.oldSize + roundUp incr < 4294967296 ∧
    (l.top.isBigBlock = false → AllocSound l (l.top.oldSize + roundUp incr) false)

def ResizeSound (l : MemLifo) (newSz : Nat) (fix : Bool) : Prop :=
  if l.top.lmLastAlloc ≠ 0 ∧ l.top.oldSize < roundUp newSz then
    ExpandSound l (roundUp newSz - l.top.oldSize) fix
  else True

/-- A call that meets none of the pool's arithmetic defects. -/
def Sound (A : ChunkAllocator) (l : MemLifo) : Op → Prop
  | .alloc sz actual => AllocSound l sz.toNat actual
  | .pushFrame sz actual => PushFrameSound A l sz.toNat actual
  | .expandLast incr fix => ExpandSound l incr.toNat fix
  | .resizeLast newSz fix => ResizeSound l newSz.toNat fix
  | _ => True

instance (l : MemLifo) (sz : Nat) (actual : Bool) : Decidable (AllocSound l sz actual) := by
  unfold AllocSound; infer_instance

instance (A : ChunkAllocator) (l : MemLifo) (sz : Nat) (actual : Bool) :
    Decidable (PushFrameSound A l sz actual) := by
  unfold PushFrameSound
  cases memLifoPushMark A l with
  | error => infer_instance
  | ok r =>
    obtain ⟨n, l'⟩ := r
    cases n <;> infer_instance

instance (l : MemLifo) (incr : Nat) (fix : Bool) : Decidable (ExpandSound l incr fix) := by
  unfold ExpandSound; infer_instance

instance (l : MemLifo) (newSz : Nat) (fix : Bool) : Decidable (ResizeSound l newSz fix) := by
  unfold ResizeSound; infer_instance

instance (A : ChunkAllocator) (l : MemLifo) (op : Op) : Decidable (Sound A l op) := by
  cases op <;> unfold Sound <;> infer_instance

/-- The guard of the runs the results are about. -/
def Guard (A : ChunkAllocator) (s : Session) (op : Op) : Prop := Rounds op ∧ Sound A s.pool op

instance (A : ChunkAllocator) (s : Session) (op : Op) : Decidable (Guard A s op) :=
  inferInstanceAs (Decidable (_ ∧ _))

end Twapi.Lifo
