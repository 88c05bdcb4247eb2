import Twapi.Lifo.Layout

/-!
Popping a mark.

* `freeUntil_spec` — the loop over one list frees what is in front of the
  point it stops at, each block once.
* `Level.freeMark` — a mark's two lists, against its predecessor's: the blocks
  the mark lists that were obtained since it was pushed.
* `Laid.split` — the invariant of the stack, from any mark of it downwards.
* `Inv.popMark` — after a pop the pool is laid out, with the frames of the
  popped marks gone.
-/

namespace Twapi.Lifo

open Base Lib List

variable {h : Heap} {hi : Nat} {m : MemLifoMark} {f : Frame} {pc pb : List MemLifoChunk}
  {occ : List Span} {base : MemLifoChunk} {ms : List MemLifoMark} {fs : List Frame} {l : MemLifo}

/-! ### Freeing lists -/

/-- Going from `h` to `h'` released the blocks at the addresses `gone`. -/
structure Drops (h h' : Heap) (gone : List Nat) : Prop where
  lawful : h'.Lawful platform
  obtained : h'.obtained = h.obtained
  mem : ∀ b : Block, b ∈ h'.outstanding ↔ b ∈ h.outstanding ∧ b.addr ∉ gone

theorem Drops.none (lawful : h.Lawful platform) : Drops h h [] :=
  ⟨lawful, rfl, by simp⟩

theorem Drops.trans {h' h'' : Heap} {gone gone' : List Nat} (d : Drops h h' gone)
    (d' : Drops h' h'' gone') : Drops h h'' (gone ++ gone') := by
  refine ⟨d'.lawful, d'.obtained.trans d.obtained, fun b => ?_⟩
  rw [d'.mem, d.mem, mem_append, not_or, and_assoc]

/-- The chunk is an outstanding block. -/
def Held (h : Heap) (c : MemLifoChunk) : Prop := ∃ b ∈ h.outstanding, b.addr = c.addr

variable {c : MemLifoChunk}

theorem Held.drops {h' : Heap} {gone : List Nat} (hc : Held h c) (d : Drops h h' gone)
    (keep : c.addr ∉ gone) : Held h' c := by
  obtain ⟨b, hb, haddr⟩ := hc
  exact ⟨b, (d.mem b).mpr ⟨hb, haddr ▸ keep⟩, haddr⟩

theorem freeFn_spec (lawful : h.Lawful platform) (hc : Held h c) :
    ∃ h', freeFn h c.addr = .ok h' ∧ Drops h h' [c.addr] := by
  obtain ⟨b, hb, haddr⟩ := hc
  obtain ⟨h', hrelease, lawful', hobtained, -, hmem⟩ := lawful.release hb
  rw [haddr] at hrelease
  refine ⟨h', by simp [freeFn, hrelease], lawful', hobtained, fun d => ?_⟩
  rw [hmem, mem_singleton]
  constructor
  · rintro ⟨hd, hne⟩
    exact ⟨hd, fun heq => hne (lawful.eq_of_addr hd hb (heq.trans haddr.symm))⟩
  · rintro ⟨hd, hne⟩
    refine ⟨hd, ?_⟩
    rintro rfl
    exact hne haddr

/-- At the list it stops at the loop frees nothing. -/
theorem freeUntil_stop (h : Heap) {stop cs : List MemLifoChunk} (heq : listPtr cs = listPtr stop) :
    freeUntil h stop cs = .ok h := by
  cases cs with
  | nil => exact if_pos heq.symm
  | cons c cs => exact if_pos heq

/-- The loop frees exactly the blocks in front of `stop`. -/
theorem freeUntil_spec {stop new : List MemLifoChunk} (lawful : h.Lawful platform)
    (held : ∀ c ∈ new, Held h c) (nonnull : ∀ c ∈ new, c.addr ≠ 0)
    (nodup : ((new ++ stop).map MemLifoChunk.addr).Nodup) :
    ∃ h', freeUntil h stop (new ++ stop) = .ok h' ∧ Drops h h' (new.map MemLifoChunk.addr) := by
  induction new generalizing h with
  | nil => exact ⟨h, freeUntil_stop h rfl, .none lawful⟩
  | cons c new ih =>
    obtain ⟨hnot, nodup⟩ := nodup_cons.mp nodup
    have hne : c.addr ≠ listPtr stop := by
      cases stop with
      | nil => exact nonnull c mem_cons_self
      | cons d stop =>
        intro heq
        exact hnot (mem_map.mpr ⟨d, by simp, heq.symm⟩)
    obtain ⟨h₁, hfree, drops⟩ := freeFn_spec lawful (held c mem_cons_self)
    have held₁ : ∀ d ∈ new, Held h₁ d := by
      intro d hd
      refine (held d (mem_cons_of_mem _ hd)).drops drops ?_
      rw [mem_singleton]
      intro heq
      exact hnot (mem_map.mpr ⟨d, mem_append_left _ hd, heq⟩)
    obtain ⟨h₂, hrest, drops'⟩ :=
      ih drops.lawful held₁ (fun d hd => nonnull d (mem_cons_of_mem _ hd)) nodup
    refine ⟨h₂, ?_, drops.trans drops'⟩
    rw [cons_append, freeUntil, if_neg hne, hfree]
    exact hrest

/-! ### Freeing what a mark lists -/

/-- The addresses of the chunks and big blocks a mark lists. -/
def MemLifoMark.listed (m : MemLifoMark) : List Nat :=
  (m.lmChunks ++ m.lmBigBlocks).map MemLifoChunk.addr

/-- Going from `h` to `h'` released the blocks `m` lists that were obtained
since number `since`. -/
structure Pops (h h' : Heap) (m : MemLifoMark) (since : Nat) : Prop where
  lawful : h'.Lawful platform
  obtained : h'.obtained = h.obtained
  mem : ∀ b : Block, b ∈ h'.outstanding ↔ b ∈ h.outstanding ∧ (b.addr ∈ m.listed → b.id < since)

theorem Pops.agree {h' : Heap} {since : Nat} (p : Pops h h' m since) :
    Heap.AgreeBelow since h h' where
  mem b hb := by
    rw [p.mem]
    exact ⟨fun hmem => hmem.1, fun hmem => ⟨hmem, fun _ => hb⟩⟩
  obtained := Nat.le_of_eq p.obtained.symm

/-- The code's test for equal list heads saves nothing but time. -/
theorem freeMark_eq (h : Heap) (m n : MemLifoMark) :
    freeMark h m n = (do
      let h ← freeUntil h n.lmBigBlocks m.lmBigBlocks
      freeUntil h n.lmChunks m.lmChunks) := by
  unfold freeMark
  by_cases hsame : listPtr m.lmBigBlocks ≠ listPtr n.lmBigBlocks ∨
      listPtr m.lmChunks ≠ listPtr n.lmChunks
  · rw [if_pos hsame]
  · rw [if_neg hsame]
    simp only [not_or, ne_eq, Decidable.not_not] at hsame
    rw [freeUntil_stop h hsame.1]
    exact (freeUntil_stop h hsame.2).symm

/-- A block listed at an address is the block with that address. -/
theorem Between.id_of_addr {lo hi : Nat} (hc : Between h lo hi c) (lawful : h.Lawful platform)
    {b : Block} (hb : b ∈ h.outstanding) (heq : b.addr = c.addr) :
    lo ≤ b.id ∧ b.id < hi := by
  obtain ⟨d, hd, ⟨haddr, -⟩, hdates⟩ := hc
  obtain rfl := lawful.eq_of_addr hb hd (heq.trans haddr.symm)
  exact hdates

theorem Level.freeMark {n : MemLifoMark} (lv : Level h hi m f n.lmChunks n.lmBigBlocks occ)
    (lawful : h.Lawful platform)
    (older : ∀ c ∈ n.lmChunks ++ n.lmBigBlocks, Between h 0 f.since c) :
    ∃ h', freeMark h m n = .ok h' ∧ Pops h h' m f.since := by
  obtain ⟨newC, hC, dC⟩ := lv.chunks
  obtain ⟨newB, hB, dB⟩ := lv.bigBlocks
  have nodup := lv.nodup
  rw [map_append, nodup_append, hC, hB] at nodup
  obtain ⟨nodupC, nodupB, hdisjoint⟩ := nodup
  have held : ∀ {lo hi c}, Between h lo hi c → Held h c := fun ⟨b, hb, hc, _⟩ => ⟨b, hb, hc.1⟩
  have nonnull : ∀ {lo hi c}, Between h lo hi c → c.addr ≠ 0 := by
    rintro lo hi c ⟨b, hb, hc, -⟩
    rw [← hc.1]
    exact (lawful.block b hb).2.2.1
  obtain ⟨h₁, hbig, dropsB⟩ := freeUntil_spec lawful (fun c hc => held (dB c hc))
    (fun c hc => nonnull (dB c hc)) nodupB
  have heldC : ∀ c ∈ newC, Held h₁ c := by
    intro c hc
    apply (held (dC c hc)).drops dropsB
    intro hmem
    obtain ⟨d, hd, heq⟩ := mem_map.mp hmem
    refine hdisjoint c.addr (mem_map_of_mem (mem_append_left _ hc)) d.addr
      (mem_map_of_mem (mem_append_left _ hd)) heq.symm
  obtain ⟨h₂, hchunks, dropsC⟩ :=
    freeUntil_spec dropsB.lawful heldC (fun c hc => nonnull (dC c hc)) nodupC
  have drops := dropsB.trans dropsC
  refine ⟨h₂, ?_, drops.lawful, drops.obtained, fun b => ?_⟩
  · rw [freeMark_eq, hB, hC, hbig]
    exact hchunks
  -- a listed block is new exactly if it is not older than the mark
  rw [drops.mem, MemLifoMark.listed, hC, hB]
  simp only [map_append, mem_append, mem_map] at older ⊢
  constructor
  · rintro ⟨hb, hnot⟩
    refine ⟨hb, ?_⟩
    rintro ((⟨c, hc, heq⟩ | ⟨c, hc, heq⟩) | (⟨c, hc, heq⟩ | ⟨c, hc, heq⟩))
    · exact absurd (.inr ⟨c, hc, heq⟩) hnot
    · exact ((older c (.inl hc)).id_of_addr lawful hb heq.symm).2
    · exact absurd (.inl ⟨c, hc, heq⟩) hnot
    · exact ((older c (.inr hc)).id_of_addr lawful hb heq.symm).2
  · rintro ⟨hb, hold⟩
    refine ⟨hb, ?_⟩
    rintro (⟨c, hc, heq⟩ | ⟨c, hc, heq⟩)
    · have hlt := hold (.inr (.inl ⟨c, hc, heq⟩))
      exact absurd ((dB c hc).id_of_addr lawful hb heq.symm).1 (Nat.not_le_of_lt hlt)
    · have hlt := hold (.inl (.inl ⟨c, hc, heq⟩))
      exact absurd ((dC c hc).id_of_addr lawful hb heq.symm).1 (Nat.not_le_of_lt hlt)

/-- The bottom mark is its own predecessor: nothing is freed. -/
theorem freeMark_self (h : Heap) (m : MemLifoMark) : freeMark h m m = .ok h :=
  if_neg (by simp)

/-! ### From a mark downwards -/

theorem Laid.length (w : Laid h base hi ms fs) : fs.length = ms.length := by
  induction ms generalizing hi fs with
  | nil =>
    cases fs with
    | nil => rfl
    | cons f fs => exact w.elim
  | cons m ms ih =>
    cases fs with
    | nil => exact w.elim
    | cons f fs => exact congrArg (· + 1) (ih w.2.2)

/-- The invariant of a stack holds of every part of it that reaches down to
the bottom. -/
theorem Laid.split {newer older : List MemLifoMark} (w : Laid h base hi (newer ++ older) fs) :
    ∃ fs₁ fs₂ hi', fs = fs₁ ++ fs₂ ∧ fs₁.length = newer.length ∧ hi' ≤ hi ∧
      Laid h base hi' older fs₂ := by
  induction newer generalizing hi fs with
  | nil => exact ⟨[], fs, hi, rfl, rfl, Nat.le_refl _, w⟩
  | cons m newer ih =>
    cases fs with
    | nil => exact w.elim
    | cons f fs =>
      obtain ⟨fs₁, fs₂, hi', rfl, hlength, hle, w'⟩ := ih w.2.2
      exact ⟨f :: fs₁, fs₂, hi', rfl, congrArg (· + 1) hlength,
        Nat.le_trans hle w.1.since_le, w'⟩

variable {older : List MemLifoMark}

theorem findMark_split {addr : Nat} {m : MemLifoMark} (hfind : findMark addr ms = some (m, older)) :
    m.addr = addr ∧ ∃ newer, ms = newer ++ m :: older := by
  induction ms with
  | nil => simp [findMark] at hfind
  | cons n ms ih =>
    unfold findMark at hfind
    by_cases heq : n.addr = addr
    · rw [if_pos heq] at hfind
      cases hfind
      exact ⟨heq, [], rfl⟩
    · rw [if_neg heq] at hfind
      obtain ⟨haddr, newer, rfl⟩ := ih hfind
      exact ⟨haddr, n :: newer, rfl⟩

/-! ### MemLifoPopMark -/

/-- The invariant of a pool, with the top mark treated like the others. -/
theorem inv_iff : Inv l fs ↔ ∃ base, l.heap.Lawful platform ∧
    (∀ b ∈ l.heap.outstanding, sizeofChunk ≤ b.size) ∧ 1000 ≤ l.lifoChunkSize ∧
    l.lifoChunkSize < 4294967296 ∧ l.lifoChunkSize % 8 = 0 ∧
    Laid l.heap base l.heap.obtained l.marks fs := by
  constructor
  · rintro ⟨base, f, rest, rfl, w, last⟩
    exact ⟨base, w.lawful, w.wide, w.chunkSize_ge, w.chunkSize_lt, w.chunkSize_aligned,
      w.level, last, w.below⟩
  · rintro ⟨base, lawful, wide, hge, hlt, haligned, laid⟩
    cases fs with
    | nil => exact laid.elim
    | cons f rest =>
      exact ⟨base, f, rest, rfl, ⟨lawful, wide, hge, hlt, haligned, laid.1, laid.2.2⟩, laid.2.1⟩

/-- A pop of the mark `m`, with the marks `older` under it: what is freed, and
what becomes of the pool. -/
structure Popped (l l' : MemLifo) (m : MemLifoMark) (older : List MemLifoMark) (since : Nat) :
    Prop where
  marks : l'.marks = if older = [] then [m] else older
  chunkSize : l'.lifoChunkSize = l.lifoChunkSize
  bottom : older = [] → l'.heap = l.heap
  pops : older ≠ [] → Pops l.heap l'.heap m since

/-- Popping a mark of a laid out pool succeeds. -/
theorem Laid.popMark {m : MemLifoMark} (w : Laid l.heap base hi (m :: older) (f :: fs))
    (lawful : l.heap.Lawful platform) (hfind : findMark m.addr l.marks = some (m, older)) :
    ∃ l', memLifoPopMark l m.addr = .ok l' ∧ Popped l l' m older f.since := by
  unfold memLifoPopMark
  simp only [hfind]
  cases older with
  | nil =>
    simp only [MemLifoMark.prev, headD_nil, freeMark_self]
    exact ⟨_, rfl, rfl, rfl, fun _ => rfl, fun hne => absurd rfl hne⟩
  | cons n older =>
    obtain ⟨h', hfree, pops⟩ := Level.freeMark (n := n) w.1 lawful w.2.2.between
    simp only [MemLifoMark.prev, headD_cons, hfree]
    exact ⟨_, rfl, rfl, rfl, nofun, fun _ => pops⟩

theorem Inv.popMark (w : Inv l fs) (addr : Nat) :
    (memLifoPopMark l addr = .error .staleMark ∧ findMark addr l.marks = none) ∨
    ∃ l' m older, memLifoPopMark l addr = .ok l' ∧ findMark addr l.marks = some (m, older) ∧
      l'.marks = (if older = [] then [m] else older) ∧
      Inv l' (fs.drop (l.below.length - l'.below.length)) := by
  obtain ⟨base, lawful, wide, hge, hlt, haligned, laid⟩ := inv_iff.mp w
  cases hfind : findMark addr l.marks with
  | none => exact .inl ⟨by simp [memLifoPopMark, hfind], rfl⟩
  | some r =>
    obtain ⟨m, older⟩ := r
    obtain ⟨rfl, newer, hmarks⟩ := findMark_split hfind
    have hbelow : l.below.length = newer.length + older.length := by
      have hlength := congrArg length hmarks
      simp only [MemLifo.marks, length_cons, length_append] at hlength
      omega
    rw [hmarks] at laid
    obtain ⟨fs₁, fs₂, hi', rfl, hlength, hle, laid⟩ := laid.split
    cases fs₂ with
    | nil => exact laid.elim
    | cons f fs₂ =>
      obtain ⟨l', hpop, popped⟩ := laid.popMark lawful hfind
      refine .inr ⟨l', m, older, hpop, rfl, popped.marks, inv_iff.mpr ⟨base, ?_⟩⟩
      have hmarks' := popped.marks
      rw [popped.chunkSize]
      cases older with
      | nil =>
        rw [if_pos rfl] at hmarks'
        rw [popped.bottom rfl, hmarks']
        refine ⟨lawful, wide, hge, hlt, haligned, ?_⟩
        have hdrop : l.below.length - l'.below.length = fs₁.length := by
          have := congrArg length hmarks'
          simp only [MemLifo.marks, length_cons, length_nil] at this hbelow
          omega
        rw [hdrop, drop_left]
        exact laid.mono hle
      | cons n older =>
        have pops := popped.pops (by simp)
        rw [if_neg (by simp)] at hmarks'
        rw [hmarks']
        refine ⟨pops.lawful, fun b hb => wide b ((pops.mem b).mp hb).1, hge, hlt, haligned, ?_⟩
        have hdrop : l.below.length - l'.below.length = fs₁.length + 1 := by
          have := congrArg length hmarks'
          simp only [MemLifo.marks, length_cons] at this hbelow
          omega
        have hsplit : (fs₁ ++ f :: fs₂).drop (fs₁.length + 1) = fs₂ := by simp
        rw [hdrop, hsplit, pops.obtained]
        exact (laid.2.2.transport pops.agree).mono (Nat.le_trans laid.1.since_le hle)

end Twapi.Lifo
