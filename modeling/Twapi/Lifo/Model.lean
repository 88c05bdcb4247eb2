import Twapi.Base.Word
import Twapi.Lib.Heap

/-!
The memory pool of `base/memlifo.c`: chunks, big blocks, marks and the
operations on them.

* A `MemLifoChunk *` is the list of the descriptors reached through `lc_prev`;
  a descriptor is immutable once it is linked, so sharing a list tail is
  sharing the tail by value. `listPtr` is the pointer itself.
* A mark is the descriptor the code stores inside a chunk, together with the
  address it is stored at. The mark stack is the chain through `lm_prev` from
  `lifo_top_mark`; the bottom mark is its own predecessor (`MemLifo.prev`).
* The underlying allocator is an `Allocator`; `Heap` records what it handed
  out and what was given back. Passing `freeFn` something that is not
  outstanding is a `Fault`, as are a panic and following a null link.

A `DWORD *actual_szP` argument is the flag `actual`: whether the pointer is
non-null. The value stored through it is returned in `Grant.actualSz`.
-/

namespace Twapi.Lifo

open Base Lib

/-- A descriptor at the start of a chunk or big block, and where it is. -/
structure MemLifoChunk where
  addr : Nat
  lcEnd : Nat
deriving DecidableEq

/-- `sizeof(MemLifoChunk)` and `sizeof(MemLifoMark)`. -/
def sizeofChunk : Nat := 16
def sizeofMark : Nat := 56

/-- The pointer a chunk list is known by. -/
def listPtr : List MemLifoChunk → Nat
  | [] => 0
  | c :: _ => c.addr

/-- A mark. `lmChunk` and `lmChunkPrev` are the head and the rest of the
`lm_chunks` list, which is never empty. -/
structure MemLifoMark where
  addr : Nat
  lmLastAlloc : Nat
  lmBigBlocks : List MemLifoChunk
  lmChunk : MemLifoChunk
  lmChunkPrev : List MemLifoChunk
  lmFreeptr : Nat
deriving DecidableEq

def MemLifoMark.lmChunks (m : MemLifoMark) : List MemLifoChunk := m.lmChunk :: m.lmChunkPrev

/-- The pool and the heap it draws from. `below` holds the marks under the
top mark, the bottom mark last. -/
structure MemLifo where
  top : MemLifoMark
  below : List MemLifoMark
  lifoChunkSize : Nat
  panicOnFail : Bool
  heap : Heap
deriving DecidableEq

def MemLifo.marks (l : MemLifo) : List MemLifoMark := l.top :: l.below

/-- `lifo_bot_mark`. -/
def MemLifo.botMark (l : MemLifo) : MemLifoMark := l.below.getLastD l.top

/-- What stops the program: a panic, or an error the code does not guard
against. -/
inductive Fault where
  | panic
  | badFree
  | nullLink
  | staleMark
deriving DecidableEq

/-- A block handed out: its address, and the size stored through
`actual_szP`. -/
structure Grant where
  ptr : Nat
  actualSz : Nat
deriving DecidableEq

/-- 64-bit Windows: blocks are 8-aligned, a size is a `DWORD`, and user
addresses are below `2^63`. -/
def platform : Limits := ⟨8, 4294967296, 9223372036854775808⟩

abbrev ChunkAllocator := Allocator platform

/-- `MEMLIFO_MAX_ALLOC`. -/
def memlifoMaxAlloc : Nat := intMax

/-- A failed request: panic if the pool asks for it, else return `NULL`. -/
def failAlloc (l : MemLifo) : Except Fault (Option Grant × MemLifo) :=
  if l.panicOnFail then .error .panic else .ok (none, l)

def freeFn (h : Heap) (p : Nat) : Except Fault Heap :=
  match h.release p with
  | some h' => .ok h'
  | none => .error .badFree

/-! ### MemLifoInit -/

/-- The descriptor of a new chunk of `n` bytes at `a`. -/
def newChunk (a n : Nat) : MemLifoChunk := ⟨a, addPtr a n⟩

/-- The bottom mark, stored at the start of the first chunk. -/
def bottomMark (c : MemLifoChunk) : MemLifoMark :=
  let m := alignPtr c.addr sizeofChunk
  ⟨m, 0, [], c, [], alignPtr m sizeofMark⟩

/-- `none` is `ERROR_OUTOFMEMORY`. -/
def memLifoInit (A : ChunkAllocator) (h : Heap) (chunkSz : Nat) (panicOnFail : Bool) :
    Except Fault (Option MemLifo) :=
  let chunkSz := if chunkSz < 1000 then 1000 else chunkSz
  match A.fn h chunkSz with
  | none => if panicOnFail then .error .panic else .ok none
  | some (a, n) =>
    .ok (some ⟨bottomMark (newChunk a n), [], roundUp chunkSz, panicOnFail, h.obtain a n⟩)

/-! ### MemLifoAlloc -/

/-- The room between a mark's free pointer and the end of its chunk, as the
code computes it. -/
def MemLifoMark.left (m : MemLifoMark) : Int := ptrDiff32 m.lmChunk.lcEnd m.lmFreeptr

/-- `incr` more bytes fit: the new end lies in the chunk. The first test is
the code's guard against wrap-around. -/
def MemLifoMark.fits (m : MemLifoMark) (incr : Nat) : Bool :=
  m.lmChunk.addr < addPtr m.lmFreeptr incr ∧ addPtr m.lmFreeptr incr ≤ m.lmChunk.lcEnd

/-- The common case: take the block from the current chunk. A caller that
passes `actual_szP` gets all that is left. -/
def allocInChunk (m : MemLifoMark) (sz : Nat) (actual : Bool) : Grant × MemLifoMark :=
  let free := if actual then m.lmChunk.lcEnd else addPtr m.lmFreeptr sz
  (⟨m.lmFreeptr, ofInt (ptrDiff32 free m.lmFreeptr)⟩,
    { m with lmLastAlloc := m.lmFreeptr, lmFreeptr := free })

/-- Bytes to ask for when a new chunk is allocated for a request of `sz`. -/
def newChunkSize (l : MemLifo) (sz : Nat) : Nat :=
  let chunkSz := if l.lifoChunkSize / 2 < sz then dword (sz + l.lifoChunkSize) else l.lifoChunkSize
  dword (chunkSz + sizeofChunk)

/-- Suballocate from a new chunk of `n` bytes at `a`. -/
def allocFromNewChunk (m : MemLifoMark) (a n sz : Nat) : Grant × MemLifoMark :=
  let last := alignPtr a sizeofChunk
  let free := alignPtr last sz
  (⟨last, ofInt (ptrDiff32 free last)⟩,
    { m with lmChunk := newChunk a n, lmChunkPrev := m.lmChunks, lmLastAlloc := last, lmFreeptr := free })

/-- Use a separate block of `n` bytes at `a`. -/
def allocBigBlock (m : MemLifoMark) (a n : Nat) : Grant × MemLifoMark :=
  let last := alignPtr a sizeofChunk
  (⟨last, ofInt (ptrDiff32 (newChunk a n).lcEnd last)⟩,
    { m with lmBigBlocks := newChunk a n :: m.lmBigBlocks, lmLastAlloc := last })

/-- Little space is left in the current chunk: less than an eighth of the
chunk size, compared as `int`s. -/
def MemLifo.littleLeft (l : MemLifo) : Bool := l.top.left < (toInt l.lifoChunkSize).tdiv 8

def memLifoAlloc (A : ChunkAllocator) (l : MemLifo) (sz : Nat) (actual : Bool) :
    Except Fault (Option Grant × MemLifo) :=
  if memlifoMaxAlloc < sz then failAlloc l
  else
    let sz := roundUp sz
    if l.top.fits sz then
      let (g, m) := allocInChunk l.top sz actual
      .ok (some g, { l with top := m })
    else if l.littleLeft then
      match A.fn l.heap (newChunkSize l sz) with
      | none => failAlloc l
      | some (a, n) =>
        let (g, m) := allocFromNewChunk l.top a n sz
        .ok (some g, { l with top := m, heap := l.heap.obtain a n })
    else
      match A.fn l.heap (dword (sz + sizeofChunk)) with
      | none => failAlloc l
      | some (a, n) =>
        let (g, m) := allocBigBlock l.top a n
        .ok (some g, { l with top := m, heap := l.heap.obtain a n })

/-! ### MemLifoPushMark -/

/-- A mark at `addr` whose chunk list is `c :: prev`, above `m`. -/
def MemLifoMark.above (m : MemLifoMark) (addr : Nat) (c : MemLifoChunk) (prev : List MemLifoChunk)
    (free : Nat) : MemLifoMark :=
  ⟨addr, 0, m.lmBigBlocks, c, prev, free⟩

def MemLifo.push (l : MemLifo) (n : MemLifoMark) : MemLifo :=
  { l with top := n, below := l.marks }

/-- The mark goes into the current chunk, or else into a chunk of its own; the
previous mark is left as it is. -/
def memLifoPushMark (A : ChunkAllocator) (l : MemLifo) : Except Fault (Option Nat × MemLifo) :=
  let m := l.top
  let markSz := roundUp sizeofMark
  if m.fits markSz then
    .ok (some m.lmFreeptr,
      l.push (m.above m.lmFreeptr m.lmChunk m.lmChunkPrev (addPtr m.lmFreeptr markSz)))
  else
    match A.fn l.heap l.lifoChunkSize with
    | none => if l.panicOnFail then .error .panic else .ok (none, l)
    | some (a, n) =>
      let addr := alignPtr a sizeofChunk
      .ok (some addr,
        { l with heap := l.heap.obtain a n }.push
          (m.above addr (newChunk a n) m.lmChunks (alignPtr addr sizeofMark)))

/-! ### MemLifoPopMark -/

/-- `while (c1 != end) { c2 = c1->lc_prev; free(c1); c1 = c2; }` -/
def freeUntil (h : Heap) (stop : List MemLifoChunk) : List MemLifoChunk → Except Fault Heap
  | [] => if listPtr stop = 0 then .ok h else .error .nullLink
  | c :: cs =>
    if c.addr = listPtr stop then .ok h
    else do
      let h ← freeFn h c.addr
      freeUntil h stop cs

/-- The mark stored at `addr` and the marks under it. -/
def findMark (addr : Nat) : List MemLifoMark → Option (MemLifoMark × List MemLifoMark)
  | [] => none
  | m :: ms => if m.addr = addr then some (m, ms) else findMark addr ms

/-- `lm_prev` of a mark with the marks `older` under it. -/
def MemLifoMark.prev (m : MemLifoMark) (older : List MemLifoMark) : MemLifoMark := older.headD m

/-- Free what `m` lists beyond its predecessor `n`: big blocks first, since
freeing chunks may free `m` itself. -/
def freeMark (h : Heap) (m n : MemLifoMark) : Except Fault Heap :=
  if listPtr m.lmBigBlocks ≠ listPtr n.lmBigBlocks ∨ listPtr m.lmChunks ≠ listPtr n.lmChunks then do
    let h ← freeUntil h n.lmBigBlocks m.lmBigBlocks
    freeUntil h n.lmChunks m.lmChunks
  else .ok h

def memLifoPopMark (l : MemLifo) (mark : Nat) : Except Fault MemLifo :=
  match findMark mark l.marks with
  | none => .error .staleMark
  | some (m, older) => do
      let n := m.prev older
      let h ← freeMark l.heap m n
      .ok { l with top := n, below := older.tail, heap := h }

/-! ### MemLifoPushFrame -/

def memLifoPushFrame (A : ChunkAllocator) (l : MemLifo) (sz : Nat) (actual : Bool) :
    Except Fault (Option Grant × MemLifo) :=
  if memlifoMaxAlloc < sz then failAlloc l
  else
    let m := l.top
    let sz := roundUp sz
    let total := dword (sz + roundUp sizeofMark)
    if m.fits total then
      let last := alignPtr m.lmFreeptr sizeofMark
      let free := if actual then m.lmChunk.lcEnd else addPtr m.lmFreeptr total
      let n := { m.above m.lmFreeptr m.lmChunk m.lmChunkPrev free with lmLastAlloc := last }
      .ok (some ⟨last, ofInt (ptrDiff32 free last)⟩, l.push n)
    else do
      match ← memLifoPushMark A l with
      | (none, l) => failAlloc l
      | (some n, l) =>
        match ← memLifoAlloc A l sz actual with
        | (some g, l) => .ok (some g, l)
        | (none, l) => do
            let l ← memLifoPopMark l n
            failAlloc l

/-! ### MemLifoExpandLast, MemLifoShrinkLast, MemLifoResizeLast -/

/-- The last allocation is the head of the big block list. -/
def MemLifoMark.isBigBlock (m : MemLifoMark) : Bool :=
  m.lmLastAlloc = addPtr (listPtr m.lmBigBlocks) sizeofChunk

/-- Space the last allocation occupies: a big block's payload, or everything
up to the free pointer. -/
def MemLifoMark.oldSize (m : MemLifoMark) : Nat :=
  match m.isBigBlock, m.lmBigBlocks with
  | true, c :: _ => dword (ofInt (ptrDiff32 c.lcEnd c.addr) + (4294967296 - sizeofChunk))
  | _, _ => ofInt (ptrDiff32 m.lmFreeptr m.lmLastAlloc)

/-- Replace the big block at the head of the list by one of `n` bytes at `a`. -/
def moveBigBlock (m : MemLifoMark) (rest : List MemLifoChunk) (a n : Nat) : MemLifoMark :=
  { m with lmBigBlocks := newChunk a n :: rest, lmLastAlloc := addPtr a sizeofChunk }

def memLifoExpandLast (A : ChunkAllocator) (l : MemLifo) (incr : Nat) (fix : Bool) :
    Except Fault (Option Grant × MemLifo) :=
  let m := l.top
  if m.lmLastAlloc = 0 then memLifoAlloc A l incr false
  else
    let incr := roundUp incr
    if m.isBigBlock = false ∧ toInt incr ≤ m.left then
      .ok (some ⟨m.lmLastAlloc, 0⟩, { l with top := { m with lmFreeptr := addPtr m.lmFreeptr incr } })
    else if fix then .ok (none, l)
    else
      let sz := dword (m.oldSize + incr)
      if memlifoMaxAlloc < sz then .ok (none, l)
      else
        match m.isBigBlock, m.lmBigBlocks with
        | true, [] => .error .nullLink
        | true, c :: rest =>
          match A.fn l.heap (dword (sz + sizeofChunk)) with
          | none => .ok (none, l)
          | some (a, n) => do
              let h ← freeFn (l.heap.obtain a n) c.addr
              .ok (some ⟨addPtr a sizeofChunk, 0⟩,
                { l with top := moveBigBlock m rest a n, heap := h })
        | false, _ => memLifoAlloc A l sz false

def memLifoShrinkLast (l : MemLifo) (decr : Nat) : Option Grant × MemLifo :=
  let m := l.top
  if m.lmLastAlloc = 0 then (none, l)
  else
    let decr := roundDown decr
    if m.isBigBlock = false ∧ decr ≤ ofInt (ptrDiff32 m.lmFreeptr m.lmLastAlloc) then
      (some ⟨m.lmLastAlloc, 0⟩, { l with top := { m with lmFreeptr := subPtr m.lmFreeptr decr } })
    else (some ⟨m.lmLastAlloc, 0⟩, l)

def memLifoResizeLast (A : ChunkAllocator) (l : MemLifo) (newSz : Nat) (fix : Bool) :
    Except Fault (Option Grant × MemLifo) :=
  let m := l.top
  if m.lmLastAlloc = 0 then .ok (none, l)
  else
    let newSz := roundUp newSz
    let oldSz := m.oldSize
    if m.isBigBlock = false ∧ newSz ≤ oldSz then
      .ok (some ⟨m.lmLastAlloc, 0⟩,
        { l with top := { m with lmFreeptr := subPtr m.lmFreeptr (oldSz - newSz) } })
    else if newSz ≤ oldSz then .ok (memLifoShrinkLast l (oldSz - newSz))
    else memLifoExpandLast A l (newSz - oldSz) fix

/-! ### MemLifoClose -/

/-- Pop the bottom mark, then free the chunk its list starts with. -/
def memLifoClose (l : MemLifo) : Except Fault Heap := do
  let l ← memLifoPopMark l l.botMark.addr
  freeFn l.heap l.botMark.lmChunk.addr

end Twapi.Lifo
