import Twapi.NamedPipe.Model

/-!
The read direction: at most one callback is ever under way, and only for the
read-ahead that is pending.

* `ReaderOk` — the invariant of `io[READER]`, given what the owning thread is
  doing with it (`ReaderPhase`) and whether reads are watched.
* One lemma for each thing that can happen to `io[READER]`: the kernel and the
  pool (`ReaderOk.finish` to `ReaderOk.handle`), and the owning thread.
* `reader_inv` — the invariant holds in every reachable state. The read side
  needs no guard: the wait is removed, and its callbacks waited for, whenever
  reads are not watched.
-/

namespace Twapi.NamedPipe

open Lib Channel

/-- What the owning thread is doing with the read direction. -/
inductive ReaderPhase where
  | steady
  | draining
  | waiting
  | taking
  | testing
  | marking
  | starting
  | registering
deriving DecidableEq

def readerPhase : Pc → ReaderPhase
  | .inputUnregister _ | .watchUnregister _ => .draining
  | .inputWait _ => .waiting
  | .readData _ | .peek _ _ | .read _ _ | .readWait _ _ => .taking
  | .watchTest _ => .testing
  | .watchMark _ => .marking
  | .watchIssue _ => .starting
  | .watchRegister _ => .registering
  | _ => .steady

/-- What the owning thread has made sure of. -/
def PhaseOk (ph : ReaderPhase) (watched : Bool) (io : Io) : Prop :=
  match ph with
  | .steady => True
  | .draining | .waiting => io.port.registered = false
  | .taking => io.state ≠ .pending
  | .testing => watched = true ∧ (io.state = .pending → io.port.registered = false)
  | .marking => watched = true ∧ (io.state = .idle ∨ io.state = .pending ∧ io.port.registered = false)
  | .starting => watched = true ∧ io.state = .pending ∧ io.inflight = [] ∧ io.op ∉ io.done
  | .registering => watched = true ∧ (io.port.registered = false → io.state = .pending)

structure ReaderOk (ph : ReaderPhase) (watched : Bool) (io : Io) : Prop where
  attributed : io.state = .pending →
    ∀ t, io.port.Active (decide (ph ≠ .starting)) t → t = io.op ∧ io.op ∈ io.done
  single : io.inflight = [] ∨ io.inflight = [io.op] ∧ io.op ∉ io.done
  quiet : io.state ≠ .pending → io.inflight = []
  load : io.port.load ≤ 1
  busy : ∀ t, io.port.Active false t → io.state = .pending
  bound : ∀ t ∈ io.done, t ≤ io.op
  unregistered : io.port.registered = false → ph ≠ .draining → io.port.Drained
  unwatched : watched = false → io.port.registered = false
  samples : ∀ c ∈ io.port.running, c.2 = io.verdict
  ranBound : ∀ t ∈ io.ran, t ≤ io.op
  unrun : io.state = .pending → io.op ∉ io.ran
  phase : PhaseOk ph watched io

section Moves

variable {ph : ReaderPhase} {watched watched' : Bool} {io io' : Io}

theorem ReaderOk.new : ReaderOk .steady false .new where
  attributed := nofun
  single := Or.inl rfl
  quiet := fun _ => rfl
  load := by decide
  busy := by
    rintro t (ht | ⟨r, ht⟩ | ⟨ht, -⟩)
    · cases ht
    · cases ht
    · cases ht
  bound := nofun
  unregistered := fun _ _ => ⟨rfl, rfl⟩
  unwatched := fun _ => rfl
  samples := nofun
  ranBound := nofun
  unrun := nofun
  phase := trivial

/-! ### What follows from it -/

/-- An active callback is for the operation that is pending, which completed. -/
theorem ReaderOk.active (w : ReaderOk ph watched io) {t : Nat} (ht : io.port.Active false t) :
    io.state = .pending ∧ t = io.op ∧ io.op ∈ io.done ∧ io.inflight = [] := by
  have hstate := w.busy t ht
  obtain ⟨rfl, hdone⟩ := w.attributed hstate t ht.arm
  rcases w.single with hnone | ⟨-, hnot⟩
  · exact ⟨hstate, rfl, hdone, hnone⟩
  · exact absurd hdone hnot

/-- While the operation is in flight there is no callback. -/
theorem ReaderOk.load_of_inflight (w : ReaderOk ph watched io) (h : io.inflight ≠ []) :
    io.port.load = 0 :=
  Port.load_eq_zero_iff.mpr fun _ ht => h (w.active ht).2.2.2

theorem ReaderOk.drained_of_inflight (w : ReaderOk ph watched io) (h : io.inflight ≠ []) :
    io.port.Drained := by
  constructor
  · exact List.eq_nil_iff_forall_not_mem.mpr fun t ht => h (w.active (.inl ht)).2.2.2
  · exact List.eq_nil_iff_forall_not_mem.mpr fun c hc =>
      h (w.active (.inr (.inl ⟨c.2, hc⟩))).2.2.2

/-- In a state that is not pending there is no callback. -/
theorem ReaderOk.not_active (w : ReaderOk ph watched io) (h : io.state ≠ .pending) (t : Nat) :
    ¬ io.port.Active false t :=
  fun ht => h (w.busy t ht)

theorem verdict_ne_pending (io : Io) : io.verdict ≠ .pending := by
  unfold Io.verdict
  split <;> decide

/-! ### The kernel and the pool -/

variable {c status i : Nat}

theorem finish_eq (h : io.finish c status = some io') :
    c ∈ io.inflight ∧ status ≠ statusPending ∧
      io' = { io with
        internal := status, inflight := io.inflight.erase c, done := c :: io.done
        port := io.port.signal c } := by
  unfold Io.finish at h
  split at h
  · rename_i hc
    exact ⟨hc.1, hc.2, (Option.some.inj h).symm⟩
  · cases h

theorem handle_eq (h : io.handle i = some io') :
    ∃ c p, io.port.leave i = some (c, p) ∧
      io' = { io with
        state := if io.state = .pending then c.2 else io.state, port := p, ran := c.1 :: io.ran } := by
  obtain ⟨⟨c, p⟩, hp, rfl⟩ := Option.map_eq_some_iff.mp h
  refine ⟨c, p, hp, ?_⟩
  by_cases hs : io.state = .pending
  · simp [Io.exchange, hs]
  · simp [Io.exchange, hs]

theorem ReaderOk.finish (w : ReaderOk ph watched io) (h : io.finish c status = some io') :
    ReaderOk ph watched io' := by
  obtain ⟨hc, -, rfl⟩ := finish_eq h
  have hne : io.inflight ≠ [] := List.ne_nil_of_mem hc
  obtain ⟨hone, hnot⟩ := w.single.resolve_left hne
  obtain rfl : c = io.op := by simpa [hone] using hc
  have hstate : io.state = .pending := Decidable.byContradiction fun hs => hne (w.quiet hs)
  have hnone := Port.load_eq_zero_iff.mp (w.load_of_inflight hne)
  have hdrained := w.drained_of_inflight hne
  refine ⟨fun _ t ht => ?_, .inl (by simp [hone]), fun hs => absurd hstate hs, ?_,
    fun _ _ => hstate, ?_, fun _ _ => hdrained, w.unwatched, ?_, w.ranBound, w.unrun, ?_⟩
  · obtain rfl := Port.eq_of_active_signal hnone ht
    exact ⟨rfl, List.mem_cons_self⟩
  · exact Port.load_signal_le_one hnone
  · exact List.forall_mem_cons.mpr ⟨Nat.le_refl _, w.bound⟩
  · intro c hc
    have hrunning : (io.port.signal io.op).running = [] := hdrained.2
    simp [hrunning] at hc
  · have hphase := w.phase
    cases ph with
    | starting => exact absurd hphase.2.2.1 hne
    | _ => exact hphase

/-- A port that changed without gaining an active token. -/
theorem ReaderOk.port (w : ReaderOk ph watched io) {p : Port Nat IoState}
    (active : ∀ armed t, p.Active armed t → io.port.Active armed t) (load : p.load ≤ io.port.load)
    (registered : p.registered = io.port.registered)
    (drained : io.port.registered = false → io.port.Drained → p.Drained)
    (samples : ∀ c ∈ p.running, c.2 = io.verdict) : ReaderOk ph watched { io with port := p } where
  attributed := fun hs t ht => w.attributed hs t (active _ t ht)
  single := w.single
  quiet := w.quiet
  load := Nat.le_trans load w.load
  busy := fun t ht => w.busy t (active _ t ht)
  bound := w.bound
  unregistered := fun hr hph => drained (registered ▸ hr) (w.unregistered (registered ▸ hr) hph)
  unwatched := fun hw => registered.trans (w.unwatched hw)
  samples := samples
  ranBound := w.ranBound
  unrun := w.unrun
  phase := by
    have hphase := w.phase
    cases ph with
    | steady | taking | starting => exact hphase
    | draining | waiting => exact registered.trans hphase
    | testing => exact ⟨hphase.1, fun hs => registered.trans (hphase.2 hs)⟩
    | marking => exact ⟨hphase.1, hphase.2.imp_right fun h => ⟨h.1, registered.trans h.2⟩⟩
    | registering => exact ⟨hphase.1, fun hr => hphase.2 (registered ▸ hr)⟩

theorem ReaderOk.pick (w : ReaderOk ph watched io) (h : io.pick = some io') :
    ReaderOk ph watched io' := by
  obtain ⟨p, hp, rfl⟩ := Option.map_eq_some_iff.mp h
  obtain ⟨u, hevent, hregistered, heq⟩ := Port.pick_eq hp
  refine w.port (fun armed t ht => (Port.active_pick hp ht).arm)
    (Nat.le_of_eq (Port.load_pick hp)) (by rw [heq]) (fun hr => ?_) (heq ▸ w.samples)
  rw [hregistered] at hr
  cases hr

theorem ReaderOk.sample (w : ReaderOk ph watched io) (h : io.sample i = some io') :
    ReaderOk ph watched io' := by
  obtain ⟨p, hp, rfl⟩ := Option.map_eq_some_iff.mp h
  obtain ⟨u, hu, heq⟩ := Port.enter_eq hp
  refine w.port (fun armed t ht => Port.active_enter hp ht) (Nat.le_of_eq (Port.load_enter hp))
    (by rw [heq]) (fun _ hdrained => ?_) ?_
  · simp [hdrained.1] at hu
  · intro c hc
    rw [heq] at hc
    rcases List.mem_append.mp hc with hc | hc
    · exact w.samples c hc
    · rw [List.mem_singleton.mp hc]

/-- `NPipeThreadPoolHandler` moves the state on: the callback is for the pending
operation, and the last one. -/
theorem ReaderOk.handle (w : ReaderOk ph watched io) (h : io.handle i = some io') :
    ReaderOk ph watched io' ∧ io.state = .pending ∧ io'.state = io.verdict := by
  obtain ⟨c, p, hp, rfl⟩ := handle_eq h
  obtain ⟨hstate, ht, hdone, hnone⟩ := w.active (Port.leave_active hp)
  obtain ⟨hc, heq⟩ := Port.leave_eq hp
  have hverdict : c.2 = io.verdict := w.samples c (List.mem_of_getElem? hc)
  have hne := verdict_ne_pending io
  have hload : p.load = 0 := by
    have := Port.load_leave hp
    have := w.load
    omega
  have hactive := Port.load_eq_zero_iff.mp hload
  have hregistered : p.registered = io.port.registered := by rw [heq]
  have hdrained : p.Drained := by
    constructor
    · exact List.eq_nil_iff_forall_not_mem.mpr fun t ht => hactive t (.inl ht)
    · exact List.eq_nil_iff_forall_not_mem.mpr fun c hc => hactive c.1 (.inr (.inl ⟨c.2, hc⟩))
  simp only [hstate, if_true, hverdict]
  refine ⟨⟨fun hs => absurd hs hne, .inl hnone, fun _ => hnone, ?_, fun t ht => ?_, w.bound,
    fun _ _ => hdrained, fun hw => hregistered.trans (w.unwatched hw), ?_, ?_,
    fun hs => absurd hs hne, ?_⟩, trivial, trivial⟩
  · exact Nat.le_trans (Nat.le_of_eq hload) (Nat.zero_le _)
  · exact absurd ht (hactive t)
  · intro d hd
    simp [hdrained.2] at hd
  · intro t ht'
    rcases List.mem_cons.mp ht' with rfl | ht'
    · exact Nat.le_of_eq ht
    · exact w.ranBound t ht'
  · -- a callback runs only while a wait is registered, or is being waited for
    have hphase := w.phase
    have hreg : ph ≠ .draining → io.port.registered = true := by
      intro hph
      apply Decidable.byContradiction
      intro hr
      have hdrained := w.unregistered (by simpa using hr) hph
      simp [hdrained.2] at hc
    cases ph with
    | steady => trivial
    | draining => exact hregistered.trans hphase
    | waiting => exact absurd (hphase.symm.trans (hreg (by decide))) (by decide)
    | taking => exact hne
    | testing => exact ⟨hphase.1, fun hs => absurd hs hne⟩
    | marking =>
      rcases hphase.2 with hidle | ⟨-, hr⟩
      · rw [hstate] at hidle
        cases hidle
      · exact absurd (hr.symm.trans (hreg (by decide))) (by decide)
    | starting => exact absurd hdone hphase.2.2.2
    | registering =>
      refine ⟨hphase.1, fun hr => ?_⟩
      rw [hregistered, hreg (by decide)] at hr
      cases hr

/-! ### The owning thread -/

/-- The thread goes on to another part of its work without touching `io[READER]`. -/
theorem ReaderOk.rephase (w : ReaderOk ph watched io) (ph' : ReaderPhase) (start : ph ≠ .starting)
    (start' : ph' ≠ .starting) (drain : ph = .draining → ph' ≠ .draining → io.port.Drained)
    (watch : watched' = false → io.port.registered = false) (phase : PhaseOk ph' watched' io) :
    ReaderOk ph' watched' io where
  attributed := fun hs t ht => w.attributed hs t (by simpa [start, start'] using ht)
  single := w.single
  quiet := w.quiet
  load := w.load
  busy := w.busy
  bound := w.bound
  unregistered := fun hr hph => by
    by_cases hdraining : ph = .draining
    · exact drain hdraining hph
    · exact w.unregistered hr hdraining
  unwatched := watch
  samples := w.samples
  ranBound := w.ranBound
  unrun := w.unrun
  phase := phase

theorem ReaderOk.steady (w : ReaderOk ph watched io) (start : ph ≠ .starting)
    (drain : ph = .draining → io.port.Drained) : ReaderOk .steady watched io :=
  w.rephase .steady start (by decide) (fun h _ => drain h) w.unwatched trivial

/-- The wait is removed. -/
theorem ReaderOk.cancel (w : ReaderOk .steady watched io) :
    ReaderOk .draining watched' { io with port := io.port.cancel } where
  attributed := fun hs t ht => w.attributed hs t (Port.active_cancel ht)
  single := w.single
  quiet := w.quiet
  load := Nat.le_trans (Port.load_cancel _) w.load
  busy := fun t ht => w.busy t (Port.active_cancel ht)
  bound := w.bound
  unregistered := fun _ h => absurd rfl h
  unwatched := fun _ => rfl
  samples := w.samples
  ranBound := w.ranBound
  unrun := w.unrun
  phase := rfl

/-- The wait is registered, for the operation that is pending. -/
theorem ReaderOk.register (w : ReaderOk .registering watched io)
    (hr : io.port.registered = false) : ReaderOk .steady watched { io with port := io.port.register } := by
  obtain ⟨hwatched, hpending⟩ := w.phase
  have hstate := hpending hr
  have hdrained := w.unregistered hr (by decide)
  have hload : io.port.load = 0 := Port.load_eq_zero_iff.mpr fun t => hdrained.not_active hr
  refine ⟨fun hs t ht => w.attributed hs t (Port.active_register ht), w.single, w.quiet, ?_,
    fun _ _ => hstate, w.bound, nofun, fun hw => ?_, w.samples, w.ranBound, w.unrun, trivial⟩
  · exact Nat.le_trans (Port.load_register _) (Nat.le_of_eq (congrArg (· + 1) hload))
  · rw [hwatched] at hw
    cases hw

/-- `IOBUF_IO_PENDING` is stored for a new read-ahead. -/
theorem ReaderOk.mark (w : ReaderOk .marking watched io) (h : io.state ≠ .pending) :
    ReaderOk .starting watched { io.mark with internal := errorSuccess } := by
  have hquiet := w.quiet h
  have hfresh : io.op + 1 ∉ io.done := fun hmem => by
    have := w.bound _ hmem
    omega
  refine ⟨fun _ t ht => ?_, .inl hquiet, fun hs => absurd rfl hs, w.load, fun _ _ => rfl, ?_,
    fun hr _ => w.unregistered hr (by decide), w.unwatched, fun c hc => ?_, ?_, ?_,
    w.phase.1, rfl, hquiet, hfresh⟩
  · exact absurd ht (w.not_active h t)
  · intro t ht
    exact Nat.le_succ_of_le (w.bound t ht)
  · exact absurd (.inr (.inl ⟨c.2, hc⟩)) (w.not_active h c.1)
  · intro t ht
    exact Nat.le_succ_of_le (w.ranBound t ht)
  · intro _ hmem
    exact absurd (w.ranBound _ hmem) (Nat.not_succ_le_self _)

/-- Before the operation is started nothing is active. -/
theorem ReaderOk.not_active_starting (w : ReaderOk .starting watched io) (t : Nat) :
    ¬ io.port.Active false t :=
  fun ht => w.phase.2.2.2 (w.active ht).2.2.1

theorem ReaderOk.issue (w : ReaderOk .starting watched io) : ReaderOk .registering watched io.issue := by
  have hnone := w.not_active_starting
  obtain ⟨hwatched, hstate, hflight, hfresh⟩ := w.phase
  refine ⟨fun _ t ht => absurd (Port.active_reset ht) (hnone t), Or.inr ⟨by simp [Io.issue, hflight], hfresh⟩,
    fun hs => absurd hstate hs, Nat.le_trans (Port.load_reset _) w.load, fun _ _ => hstate, w.bound,
    fun hr _ => w.unregistered hr (by decide), w.unwatched, fun c hc => ?_, w.ranBound, w.unrun,
    hwatched, fun _ => hstate⟩
  exact absurd (.inr (.inl ⟨c.2, hc⟩)) (hnone c.1)

theorem ReaderOk.instant (w : ReaderOk .starting watched io) :
    ReaderOk .registering watched io.instant := by
  have hnone := w.not_active_starting
  obtain ⟨hwatched, hstate, hflight, hfresh⟩ := w.phase
  refine ⟨fun _ t ht => ?_, .inl hflight, fun _ => hflight, ?_, fun _ _ => hstate, ?_,
    fun hr _ => w.unregistered hr (by decide), w.unwatched, fun c hc => ?_, w.ranBound, w.unrun,
    hwatched, fun _ => hstate⟩
  · obtain rfl := Port.eq_of_active_signal hnone ht
    exact ⟨rfl, List.mem_cons_self⟩
  · exact Port.load_signal_le_one hnone
  · exact List.forall_mem_cons.mpr ⟨Nat.le_refl _, w.bound⟩
  · exact absurd (.inr (.inl ⟨c.2, hc⟩)) (hnone c.1)

theorem ReaderOk.reject (w : ReaderOk .starting watched io) :
    ReaderOk .steady watched { io.reject with state := .idle } := by
  have hnone := w.not_active_starting
  obtain ⟨hwatched, hstate, hflight, hfresh⟩ := w.phase
  refine ⟨nofun, Or.inl hflight, fun _ => hflight, Nat.le_trans (Port.load_reset _) w.load,
    fun t ht => absurd (Port.active_reset ht) (hnone t), w.bound,
    fun hr _ => w.unregistered hr (by decide), w.unwatched, fun c hc => ?_, w.ranBound, nofun, trivial⟩
  exact absurd (.inr (.inl ⟨c.2, hc⟩)) (hnone c.1)

/-- A state that is not pending, set while there is no callback. -/
theorem ReaderOk.store (w : ReaderOk ph watched io) (none : ∀ t, ¬ io.port.Active false t)
    (flight : io.inflight = []) {state : IoState}
    (hstate : state ≠ .pending) {port : Port Nat IoState}
    (hport : port = io.port ∨ port = io.port.reset) (internal : Nat) :
    ReaderOk .taking watched { io with state := state, port := port, internal := internal } := by
  have hactive : ∀ t, ¬ port.Active false t := by
    intro t ht
    rcases hport with rfl | rfl
    · exact none t ht
    · exact none t (Port.active_reset ht)
  have hregistered : port.registered = io.port.registered := by
    rcases hport with rfl | rfl <;> rfl
  have hload := Port.load_eq_zero_iff.mpr hactive
  refine ⟨fun hs => absurd hs hstate, .inl flight, fun _ => flight, ?_,
    fun t ht => absurd ht (hactive t), w.bound, fun _ _ => ⟨?_, ?_⟩,
    fun hw => hregistered.trans (w.unwatched hw), fun c hc => ?_, w.ranBound,
    fun hs => absurd hs hstate, hstate⟩
  · exact Nat.le_trans (Nat.le_of_eq hload) (Nat.zero_le _)
  · exact List.eq_nil_iff_forall_not_mem.mpr fun t ht => hactive t (.inl ht)
  · exact List.eq_nil_iff_forall_not_mem.mpr fun c hc => hactive c.1 (.inr (.inl ⟨c.2, hc⟩))
  · exact absurd (.inr (.inl ⟨c.2, hc⟩)) (hactive c.1)

end Moves

/-! ### The driver procedures -/

/-- The invariant of `io[READER]` in a state of the channel. -/
def Channel.ReaderInv (s : Channel) : Prop := ReaderOk (readerPhase s.pc) s.watchRead s.reader

section Procedures

variable {s t : Channel}

/-- A step of the owning thread that has nothing to do with reading. -/
structure Channel.Aside (s t : Channel) : Prop where
  reader : t.reader = s.reader
  watchRead : t.watchRead = s.watchRead
  readAhead : t.readAhead = s.readAhead
  consumed : t.consumed = s.consumed
  returned : t.returned = s.returned
  steady : readerPhase t.pc = .steady

theorem Channel.Aside.inv (a : s.Aside t) (w : ReaderOk .steady s.watchRead s.reader) : t.ReaderInv := by
  unfold Channel.ReaderInv
  rw [a.steady, a.watchRead, a.reader]
  exact w

theorem Channel.setError_eq (s : Channel) (e : Nat) : ∃ winerr, s.setError e = { s with winerr := winerr } := by
  unfold Channel.setError
  split
  · exact ⟨_, rfl⟩
  · exact ⟨_, rfl⟩

variable {o : Outcome} {n : Nat} {buf : List UInt8} {k : Caller}

theorem readerInv_resume (w : ReaderOk .steady s.watchRead s.reader) :
    (s.resume k).ReaderInv := by
  cases k with
  | input buf => exact w
  | watch mask => exact w

/-- `NPipeInputProc` after a successful read. -/
theorem readerInv_finishRead (w : ReaderOk .taking s.watchRead s.reader) :
    (s.finishRead buf).ReaderInv := by
  unfold Channel.finishRead
  by_cases hw : s.watchRead = true
  · rw [if_pos hw]
    exact w.rephase .testing (by decide) (by decide) nofun w.unwatched ⟨hw, fun hs => absurd hs w.phase⟩
  · rw [if_neg hw]
    exact w.steady (by decide) nofun

theorem readerInv_inputError (w : ReaderOk .taking s.watchRead s.reader) : s.inputError.ReaderInv :=
  w.steady (by decide) nofun

theorem readerInv_readAheadError (w : ReaderOk .taking s.watchRead s.reader) :
    s.readAheadError.ReaderInv := by
  unfold Channel.readAheadError
  obtain ⟨e, he⟩ := s.setError_eq s.reader.internal
  rw [he]
  exact readerInv_inputError w

/-- The entry checks, of either direction's error. -/
theorem Channel.enterError_eq (s : Channel) (io : Io) :
    ∃ winerr, (if io.state = .completedWithError then s.setError io.internal else s) =
      { s with winerr := winerr } := by
  split
  · exact s.setError_eq _
  · exact ⟨s.winerr, rfl⟩

theorem aside_nPipeInputProc (s : Channel) (n : Nat) : s.Aside (s.nPipeInputProc n) := by
  obtain ⟨e, he⟩ := s.enterError_eq s.reader
  unfold Channel.nPipeInputProc
  rw [he]
  simp only
  split
  · exact ⟨rfl, rfl, rfl, rfl, rfl, rfl⟩
  · split
    · exact ⟨rfl, rfl, rfl, rfl, rfl, rfl⟩
    · exact ⟨rfl, rfl, rfl, rfl, rfl, rfl⟩

theorem aside_nPipeOutputProc (s : Channel) (n : Nat) : s.Aside (s.nPipeOutputProc n) := by
  obtain ⟨e, he⟩ := s.enterError_eq s.writer
  unfold Channel.nPipeOutputProc
  rw [he]
  simp only
  split
  · exact ⟨rfl, rfl, rfl, rfl, rfl, rfl⟩
  · split
    · exact ⟨rfl, rfl, rfl, rfl, rfl, rfl⟩
    · split
      · exact ⟨rfl, rfl, rfl, rfl, rfl, rfl⟩
      · exact ⟨rfl, rfl, rfl, rfl, rfl, rfl⟩

theorem readerInv_inputCheck (w : ReaderOk .steady s.watchRead s.reader) :
    (s.inputCheck n).ReaderInv := by
  unfold Channel.inputCheck
  split
  · split
    · exact w
    · split
      · exact w.cancel
      · rename_i hr
        exact w.rephase .waiting (by decide) (by decide) nofun w.unwatched
          (by simpa [PhaseOk] using hr)
  · rename_i hs
    exact w.rephase .taking (by decide) (by decide) nofun w.unwatched hs

theorem readerInv_inputWait (w : ReaderOk .waiting s.watchRead s.reader)
    (h : s.inputWait n o = some t) : t.ReaderInv := by
  have hr : s.reader.port.registered = false := w.phase
  have hdrained := w.unregistered hr (by decide)
  have taking : s.reader.state ≠ .pending → ReaderOk .taking s.watchRead s.reader := fun hs =>
    w.rephase .taking (by decide) (by decide) nofun w.unwatched hs
  cases o with
  | slept blocked =>
    simp only [inputWait] at h
    split at h
    · split at h
      · rename_i hdone
        have hflight : s.reader.inflight = [] := by
          rcases w.single with hnone | ⟨-, hnot⟩
          · exact hnone
          · exact absurd hdone hnot
        have hport : (if blocked then s.reader.port.reset else s.reader.port) = s.reader.port ∨
            (if blocked then s.reader.port.reset else s.reader.port) = s.reader.port.reset := by
          cases blocked <;> simp
        have stored := w.store (fun t => hdrained.not_active hr) hflight
          (verdict_ne_pending s.reader) hport s.reader.internal
        split at h
        · cases h
          exact readerInv_readAheadError stored
        · cases h
          exact stored
      · cases h
    · rename_i hs
      split at h
      · cases h
        exact readerInv_readAheadError (taking hs)
      · cases h
        exact taking hs
  | _ => cases h

/-- In the middle of `NPipeReadData` the fields of `io[READER]` are the owning thread's. -/
theorem ReaderOk.own {watched : Bool} {io : Io} (w : ReaderOk .taking watched io) {state : IoState}
    (hstate : state ≠ .pending) (internal : Nat) :
    ReaderOk .taking watched { io with state := state, internal := internal } :=
  w.store (w.not_active w.phase) (w.quiet w.phase) hstate (.inl rfl) internal

theorem readerInv_readData (w : ReaderOk .taking s.watchRead s.reader) :
    (s.readData n).ReaderInv := by
  have taken := w.own (show IoState.idle ≠ .pending by decide) s.reader.internal
  unfold Channel.readData
  split
  · simp only
    split
    · exact readerInv_finishRead taken
    · exact taken
  · exact w

theorem readerInv_peek (w : ReaderOk .taking s.watchRead s.reader) (h : s.peek n buf o = some t) :
    t.ReaderInv := by
  cases o with
  | fail e =>
    cases h
    exact readerInv_inputError w
  | avail k =>
    simp only [peek] at h
    split at h
    · cases h
      exact readerInv_finishRead w
    · cases h
      exact w
  | _ => cases h

theorem readerInv_drained {buf bs : List UInt8} (w : ReaderOk .taking s.watchRead s.reader) :
    (s.drained buf bs).ReaderInv :=
  readerInv_finishRead (w.own w.phase errorSuccess)

theorem readerInv_read (w : ReaderOk .taking s.watchRead s.reader) (h : s.read n buf o = some t) :
    t.ReaderInv := by
  cases o with
  | bytes bs =>
    simp only [Channel.read] at h
    split at h
    · cases h
      exact readerInv_drained w
    · cases h
  | pending =>
    cases h
    exact w.own w.phase statusPending
  | fail e =>
    cases h
    exact readerInv_inputError (w.own w.phase statusPending)
  | _ => cases h

theorem readerInv_readWait (w : ReaderOk .taking s.watchRead s.reader)
    (h : s.readWait n buf o = some t) : t.ReaderInv := by
  cases o with
  | bytes bs =>
    simp only [readWait] at h
    split at h
    · cases h
      exact readerInv_drained w
    · cases h
  | fail e =>
    cases h
    exact readerInv_inputError (w.own w.phase e)
  | _ => cases h

theorem readerInv_watchTest (w : ReaderOk .testing s.watchRead s.reader) :
    (s.watchTest k).ReaderInv := by
  unfold Channel.watchTest
  split
  · exact readerInv_resume (w.steady (by decide) nofun)
  · rename_i hnot
    refine w.rephase .marking (by decide) (by decide) nofun w.unwatched ⟨w.phase.1, ?_⟩
    cases hs : s.reader.state with
    | idle => exact .inl rfl
    | pending => exact .inr ⟨rfl, w.phase.2 hs⟩
    | completed => simp [hs] at hnot
    | completedWithError => simp [hs] at hnot

theorem readerInv_watchMark (w : ReaderOk .marking s.watchRead s.reader) :
    (s.watchMark k).ReaderInv := by
  unfold Channel.watchMark
  split
  · rename_i hs
    exact w.rephase .registering (by decide) (by decide) nofun w.unwatched ⟨w.phase.1, fun _ => hs⟩
  · rename_i hs
    exact w.mark hs

theorem readerInv_watchIssue (w : ReaderOk .starting s.watchRead s.reader)
    (h : s.watchIssue k o = some t) : t.ReaderInv := by
  cases o with
  | pending =>
    cases h
    exact w.issue
  | bytes bs =>
    simp only [watchIssue] at h
    split at h
    · cases h
      exact w.instant
    · cases h
  | fail e =>
    cases h
    exact readerInv_resume w.reject
  | _ => cases h

theorem readerInv_watchRegister (w : ReaderOk .registering s.watchRead s.reader)
    (h : s.watchRegister k o = some t) :
    t.ReaderInv := by
  have steady := w.steady (by decide) nofun
  cases o with
  | go =>
    simp only [watchRegister] at h
    split at h
    · cases h
      exact readerInv_resume steady
    · cases h
  | ok =>
    simp only [watchRegister] at h
    split at h
    · cases h
    · rename_i hr
      cases h
      exact readerInv_resume (w.register (by simpa using hr))
  | refused =>
    simp only [watchRegister] at h
    split at h
    · cases h
    · cases h
      exact readerInv_resume steady
  | _ => cases h

theorem readerInv_nPipeWatchProc {mask : Mask} (w : ReaderOk .steady s.watchRead s.reader) :
    (s.nPipeWatchProc mask).ReaderInv := by
  have watched : ReaderOk .steady true s.reader :=
    w.rephase .steady (by decide) (by decide) nofun nofun trivial
  unfold Channel.nPipeWatchProc
  split
  · split
    · exact w
    · rename_i hw
      split
      · -- reads were not watched, so no wait is registered
        have hr := w.unwatched (by simpa using hw)
        exact watched.rephase .testing (by decide) (by decide) nofun nofun ⟨rfl, fun _ => hr⟩
      · exact watched
  · split
    · exact w.cancel
    · rename_i hr
      exact w.rephase .steady (by decide) (by decide) nofun (fun _ => by simpa using hr) trivial

/-- The calls that do not read: everything but `NPipeWatchProc`. -/
theorem aside_enter {c : Call} (hc : ∀ mask, c ≠ .watch mask) (h : s.enter c = some t) : s.Aside t := by
  cases c with
  | input n =>
    simp only [enter] at h
    split at h
    · cases h
      exact aside_nPipeInputProc s n
    · cases h
  | output n =>
    cases h
    exact aside_nPipeOutputProc s n
  | watch mask => exact absurd rfl (hc mask)
  | block nonblocking =>
    cases h
    exact ⟨rfl, rfl, rfl, rfl, rfl, rfl⟩
  | check =>
    cases h
    unfold Channel.nPipeCheckProc
    split
    · exact ⟨rfl, rfl, rfl, rfl, rfl, rfl⟩
    · exact ⟨rfl, rfl, rfl, rfl, rfl, rfl⟩
  | event =>
    simp only [enter, nPipeEventProc] at h
    split at h
    · cases h
      exact ⟨rfl, rfl, rfl, rfl, rfl, rfl⟩
    · cases h

/-! ### Steps of the owning thread -/

theorem aside_nPipeAccept (h : s.nPipeAccept o = some t) : s.Aside t := by
  cases o <;> cases h <;> exact ⟨rfl, rfl, rfl, rfl, rfl, rfl⟩

theorem aside_acceptRegister (h : s.acceptRegister o = some t) : s.Aside t := by
  cases o <;> cases h <;> exact ⟨rfl, rfl, rfl, rfl, rfl, rfl⟩

theorem aside_watchWriteSide (s : Channel) (mask : Mask) : s.Aside (s.watchWriteSide mask) := by
  unfold Channel.watchWriteSide
  split
  · exact ⟨rfl, rfl, rfl, rfl, rfl, rfl⟩
  · split <;> exact ⟨rfl, rfl, rfl, rfl, rfl, rfl⟩

theorem aside_watchUnregisterWrite (h : s.watchUnregisterWrite = some t) : s.Aside t := by
  unfold Channel.watchUnregisterWrite at h
  split at h
  · cases h
    exact ⟨rfl, rfl, rfl, rfl, rfl, rfl⟩
  · cases h

theorem aside_outputCheck (s : Channel) (n : Nat) : s.Aside (s.outputCheck n) := by
  unfold Channel.outputCheck
  split <;> exact ⟨rfl, rfl, rfl, rfl, rfl, rfl⟩

theorem aside_outputIssue (h : s.outputIssue n o = some t) : s.Aside t := by
  cases o <;> cases h <;> exact ⟨rfl, rfl, rfl, rfl, rfl, rfl⟩

theorem aside_outputRegister (h : s.outputRegister n o = some t) :
    s.Aside t := by
  unfold Channel.outputRegister at h
  split at h
  · split at h <;> cases h
    exact ⟨rfl, rfl, rfl, rfl, rfl, rfl⟩
  · split at h <;> cases h
    exact ⟨rfl, rfl, rfl, rfl, rfl, rfl⟩
  · split at h <;> cases h
    exact ⟨rfl, rfl, rfl, rfl, rfl, rfl⟩
  · cases h

theorem aside_outputSync (h : s.outputSync o = some t) : s.Aside t := by
  cases o <;> cases h <;> exact ⟨rfl, rfl, rfl, rfl, rfl, rfl⟩

theorem aside_eventRead (s : Channel) : s.Aside s.eventRead := by
  obtain ⟨e, he⟩ := s.enterError_eq s.reader
  unfold Channel.eventRead
  rw [he]
  exact ⟨rfl, rfl, rfl, rfl, rfl, rfl⟩

theorem aside_eventWrite (s : Channel) : s.Aside s.eventWrite := by
  obtain ⟨e, he⟩ := s.enterError_eq s.writer
  unfold Channel.eventWrite
  rw [he]
  exact ⟨rfl, rfl, rfl, rfl, rfl, rfl⟩

/-- The steps of `NPipeInputProc`, of `NPipeWatchReads` and of the read side of
`NPipeWatchProc`. -/
def Pc.Reads : Pc → Prop
  | .inputCheck _ | .inputUnregister _ | .inputWait _ | .readData _ | .peek _ _ | .read _ _
  | .readWait _ _ | .watchTest _ | .watchMark _ | .watchIssue _ | .watchRegister _
  | .watchUnregister _ => True
  | _ => False

theorem Pc.steady_of_not_reads {pc : Pc} (h : ¬ pc.Reads) : readerPhase pc = .steady := by
  cases pc <;> first | rfl | exact absurd trivial h

theorem go_eq {r : Option Channel} (h : Channel.go r o = some t) : r = some t := by
  cases o with
  | go => exact h
  | _ => cases h

/-- All other steps have nothing to do with reading. -/
theorem aside_drive (hpc : ¬ s.pc.Reads) (h : s.drive o = some t) : s.Aside t := by
  unfold Channel.drive at h
  cases heq : s.pc with
  | tcl | failed => simp only [heq] at h; cases h
  | accept => simp only [heq] at h; exact aside_nPipeAccept h
  | acceptRegister => simp only [heq] at h; exact aside_acceptRegister h
  | acceptMark => simp only [heq] at h; cases go_eq h; exact ⟨rfl, rfl, rfl, rfl, rfl, rfl⟩
  | watchWrite mask => simp only [heq] at h; cases go_eq h; exact aside_watchWriteSide s mask
  | watchUnregisterWrite => simp only [heq] at h; exact aside_watchUnregisterWrite (go_eq h)
  | outputCheck n => simp only [heq] at h; cases go_eq h; exact aside_outputCheck s n
  | outputMark n => simp only [heq] at h; cases go_eq h; exact ⟨rfl, rfl, rfl, rfl, rfl, rfl⟩
  | outputIssue n => simp only [heq] at h; exact aside_outputIssue h
  | outputDone n => simp only [heq] at h; cases go_eq h; exact ⟨rfl, rfl, rfl, rfl, rfl, rfl⟩
  | outputRegister n => simp only [heq] at h; exact aside_outputRegister h
  | outputSync n => simp only [heq] at h; exact aside_outputSync h
  | outputExchange n => simp only [heq] at h; cases go_eq h; exact ⟨rfl, rfl, rfl, rfl, rfl, rfl⟩
  | eventRead => simp only [heq] at h; cases go_eq h; exact aside_eventRead s
  | eventWrite => simp only [heq] at h; cases go_eq h; exact aside_eventWrite s
  | eventConnect => simp only [heq] at h; cases go_eq h; exact ⟨rfl, rfl, rfl, rfl, rfl, rfl⟩
  | eventIdle mask => simp only [heq] at h; cases go_eq h; exact ⟨rfl, rfl, rfl, rfl, rfl, rfl⟩
  | _ =>
    rw [heq] at hpc
    exact absurd trivial hpc

theorem readerInv_drive (w : s.ReaderInv) (h : s.drive o = some t) : t.ReaderInv := by
  by_cases hpc : s.pc.Reads
  · unfold Channel.ReaderInv at w
    unfold Channel.drive at h
    cases heq : s.pc with
    | inputCheck n =>
      simp only [heq] at h w
      cases go_eq h
      exact readerInv_inputCheck w
    | inputUnregister n =>
      simp only [heq] at h w
      have step := go_eq h
      simp only [inputUnregister] at step
      split at step <;> cases step
      rename_i hdrained
      exact w.rephase .waiting nofun (by decide) (fun _ _ => hdrained) w.unwatched w.phase
    | inputWait n => simp only [heq] at h w; exact readerInv_inputWait w h
    | readData n => simp only [heq] at h w; cases go_eq h; exact readerInv_readData w
    | peek n buf => simp only [heq] at h w; exact readerInv_peek w h
    | read n buf => simp only [heq] at h w; exact readerInv_read w h
    | readWait n buf => simp only [heq] at h w; exact readerInv_readWait w h
    | watchTest k => simp only [heq] at h w; cases go_eq h; exact readerInv_watchTest w
    | watchMark k => simp only [heq] at h w; cases go_eq h; exact readerInv_watchMark w
    | watchIssue k => simp only [heq] at h w; exact readerInv_watchIssue w h
    | watchRegister k => simp only [heq] at h w; exact readerInv_watchRegister w h
    | watchUnregister mask =>
      simp only [heq] at h w
      have step := go_eq h
      simp only [watchUnregister] at step
      split at step <;> cases step
      rename_i hdrained
      exact w.steady nofun fun _ => hdrained
    | _ =>
      rw [heq] at hpc
      exact hpc.elim
  · exact (aside_drive hpc h).inv (Pc.steady_of_not_reads hpc ▸ w)

/-! ### Every step -/

theorem readerInv_enter {c : Call} (w : s.ReaderInv) (hs : s.pc = .tcl) (h : s.enter c = some t) :
    t.ReaderInv := by
  have w' : ReaderOk .steady s.watchRead s.reader := by
    unfold Channel.ReaderInv at w
    rw [hs] at w
    exact w
  by_cases hc : ∀ mask, c ≠ .watch mask
  · exact (aside_enter hc h).inv w'
  · simp only [ne_eq, not_forall, Decidable.not_not] at hc
    obtain ⟨mask, rfl⟩ := hc
    cases h
    exact readerInv_nPipeWatchProc w'

theorem readerInv_step {a : Label} (w : s.ReaderInv) (h : s.step a = some t) : t.ReaderInv := by
  cases a with
  | call c =>
    simp only [step] at h
    split at h
    · rename_i hs
      exact readerInv_enter w hs h
    · cases h
  | drive o =>
    simp only [step] at h
    split at h
    · cases h
    · exact readerInv_drive w h
  | finish d c status bs =>
    cases d with
    | reader =>
      simp only [step, kernel] at h
      split at h
      · obtain ⟨io, hio, rfl⟩ := Option.map_eq_some_iff.mp h
        exact w.finish hio
      · cases h
    | writer =>
      simp only [step, kernel] at h
      split at h
      · obtain ⟨io, hio, rfl⟩ := Option.map_eq_some_iff.mp h
        exact w
      · cases h
  | pick d =>
    obtain ⟨io, hio, rfl⟩ := Option.map_eq_some_iff.mp h
    cases d with
    | reader => exact w.pick hio
    | writer => exact w
  | sample d i =>
    obtain ⟨io, hio, rfl⟩ := Option.map_eq_some_iff.mp h
    cases d with
    | reader => exact w.sample hio
    | writer => exact w
  | exchange d i =>
    obtain ⟨io, hio, rfl⟩ := Option.map_eq_some_iff.mp h
    cases d with
    | reader => exact (w.handle hio).1
    | writer => exact w

/-- The invariant of the read direction holds in every state any run reaches. -/
theorem reader_inv {G : Channel → Label → Prop} (run : pipeMachine.Reaches G s) : s.ReaderInv := by
  refine run.invariant (P := Channel.ReaderInv) ?_ fun s a t w _ h => readerInv_step w h
  rintro s ⟨server, rfl⟩
  cases server with
  | true => exact .new
  | false => exact .new

end Procedures

end Twapi.NamedPipe
