import Twapi.NamedPipe.Writer

/-!
What `NPipeThreadPoolHandler` may rely on in the write direction.

* `WriterSync` — callbacks are for the operation that is pending, and it has
  completed. A move keeps this unless `IOBUF_IO_PENDING` is stored while a
  callback for an earlier write may still come.
* `WriterIds` — while the state is `IOBUF_IO_PENDING` the callback of the
  latest operation has not run. A move keeps this unless the accept stores
  `IOBUF_IO_PENDING` after its callback.
-/

namespace Twapi.NamedPipe

open Lib Option Port

/-! ### What a callback is about to store -/

/-- A callback never stores `IOBUF_IO_PENDING`. -/
def Sampled (io : Io) : Prop := ∀ c ∈ io.port.running, c.2 ≠ .pending

theorem Sampled.move {ph ph' : WriterPhase} {io io' : Io} (w : Sampled io)
    (h : WriterMove ph io ph' io') : Sampled io' := by
  cases h with
  | sample hio =>
    obtain ⟨p, hp, rfl⟩ := map_eq_some_iff.mp hio
    obtain ⟨u, -, rfl⟩ := enter_eq hp
    intro c hc
    rcases List.mem_append.mp hc with hc | hc
    · exact w c hc
    · rw [List.mem_singleton.mp hc]
      exact verdict_ne_pending io
  | handle hio =>
    obtain ⟨c, p, hp, rfl⟩ := handle_eq hio
    obtain ⟨-, rfl⟩ := leave_eq hp
    intro d hd
    exact w d (List.mem_of_mem_eraseIdx hd)
  | pick hio =>
    obtain ⟨p, hp, rfl⟩ := map_eq_some_iff.mp hio
    obtain ⟨u, -, -, rfl⟩ := pick_eq hp
    exact w
  | finish hio =>
    obtain ⟨-, -, rfl⟩ := finish_eq hio
    exact w
  | settle | release =>
    unfold Io.exchange
    split <;> exact w
  | _ => exact w

/-! ### Whose callback it is -/

/-- What the owning thread has made sure of. -/
def SyncPhase (ph : WriterPhase) (io : Io) : Prop :=
  match ph with
  | .opening => io = .new
  | .accepting | .publishing | .marking => io.state ≠ .pending
  | .starting => io.state = .pending ∧ io.inflight = [] ∧ io.op ∉ io.done
  | .finished => io.op ∈ io.done
  | .steady => True

/-- The state is `IOBUF_IO_PENDING`, or will be when the accept stores it. -/
def Expects (ph : WriterPhase) (io : Io) : Prop :=
  io.state = .pending ∨ ph = .accepting ∨ ph = .publishing

structure WriterSync (ph : WriterPhase) (io : Io) : Prop where
  attributed : Expects ph io →
    ∀ t, io.port.Active (decide (ph ≠ .starting)) t → t = io.op ∧ io.op ∈ io.done
  single : io.inflight = [] ∨ io.inflight = [io.op] ∧ io.op ∉ io.done
  quiet : ¬ Expects ph io → io.inflight = []
  bound : ∀ t ∈ io.done, t ≤ io.op
  phase : SyncPhase ph io

section Sync

variable {ph ph' : WriterPhase} {io io' : Io}

variable {t i : Nat}

/-- A callback that may still act is for the operation that is pending, which completed. -/
theorem WriterSync.active (w : WriterSync ph io) (h : Expects ph io) (ht : io.port.Active false t) :
    t = io.op ∧ io.op ∈ io.done ∧ io.inflight = [] := by
  obtain ⟨rfl, hdone⟩ := w.attributed h t ht.arm
  rcases w.single with hnone | ⟨-, hnot⟩
  · exact ⟨rfl, hdone, hnone⟩
  · exact absurd hdone hnot

/-- Before the operation is started nothing is active. -/
theorem WriterSync.not_active_starting (w : WriterSync .starting io) (t : Nat) :
    ¬ io.port.Active false t :=
  fun ht => w.phase.2.2 (w.active (.inl w.phase.1) ht).2.1

/-- Until the accept is under way the direction is as it was created. -/
theorem WriterSync.new : WriterSync .opening .new where
  attributed := by
    rintro (hs | hph | hph)
    · cases hs
    · cases hph
    · cases hph
  single := .inl rfl
  quiet := fun _ => rfl
  bound := nofun
  phase := rfl

theorem new_not_active (armed : Bool) (t : Nat) : ¬ Io.new.port.Active armed t := by
  rintro (ht | ⟨r, ht⟩ | ⟨ht, -⟩)
  · cases ht
  · cases ht
  · cases ht

theorem WriterSync.finish (w : WriterSync ph io) {c status : Nat}
    (h : io.finish c status = some io') : WriterSync ph io' := by
  obtain ⟨hc, -, rfl⟩ := finish_eq h
  have hne : io.inflight ≠ [] := List.ne_nil_of_mem hc
  obtain ⟨hone, hnot⟩ := w.single.resolve_left hne
  obtain rfl : c = io.op := by simpa [hone] using hc
  have hnone : io.inflight.erase io.op = [] := by simp [hone]
  refine ⟨fun hexp t ht => ?_, .inl hnone, fun _ => hnone,
    List.forall_mem_cons.mpr ⟨Nat.le_refl _, w.bound⟩, ?_⟩
  · rcases active_signal ht with rfl | ht
    · exact ⟨rfl, List.mem_cons_self⟩
    · exact absurd (w.active hexp ht).2.1 hnot
  · have hphase := w.phase
    cases ph with
    | opening =>
      rw [show io = .new from hphase] at hc
      cases hc
    | accepting | publishing | marking => exact hphase
    | starting => exact absurd hphase.2.1 hne
    | finished => exact List.mem_cons_self
    | steady => trivial

/-- A port that changed without gaining an active token. -/
theorem WriterSync.port (w : WriterSync ph io) {p : Port Nat IoState} (opening : ph ≠ .opening)
    (active : ∀ t, p.Active (decide (ph ≠ .starting)) t → io.port.Active (decide (ph ≠ .starting)) t) :
    WriterSync ph { io with port := p } where
  attributed := fun hexp t ht => w.attributed hexp t (active t ht)
  single := w.single
  quiet := w.quiet
  bound := w.bound
  phase := by
    have hphase := w.phase
    cases ph with
    | opening => exact absurd rfl opening
    | accepting | publishing | marking | starting | finished | steady => exact hphase

/-- While the direction is as created there is nothing to pick up or to run. -/
theorem WriterSync.opening_not_active (w : WriterSync ph io) {armed : Bool}
    (ht : io.port.Active armed t) : ph ≠ .opening := by
  rintro rfl
  rw [show io = .new from w.phase] at ht
  exact new_not_active armed t ht

theorem WriterSync.pick (w : WriterSync ph io) (h : io.pick = some io') : WriterSync ph io' := by
  obtain ⟨p, hp, rfl⟩ := map_eq_some_iff.mp h
  obtain ⟨u, hevent, hregistered, -⟩ := pick_eq hp
  have hactive : io.port.Active false u := .inr (.inr ⟨hevent, .inl hregistered⟩)
  exact w.port (w.opening_not_active hactive) fun t ht => (active_pick hp ht).arm

theorem WriterSync.sample (w : WriterSync ph io) (h : io.sample i = some io') :
    WriterSync ph io' := by
  obtain ⟨p, hp, rfl⟩ := map_eq_some_iff.mp h
  obtain ⟨u, hu, -⟩ := enter_eq hp
  have hactive : io.port.Active false u := .inl (List.mem_of_getElem? hu)
  exact w.port (w.opening_not_active hactive) fun t ht => active_enter hp ht

/-- `NPipeThreadPoolHandler`: whatever it does to the state, what it acts on completed. -/
theorem WriterSync.handle (w : WriterSync ph io) (samples : Sampled io) (h : io.handle i = some io') :
    WriterSync ph io' := by
  obtain ⟨c, p, hp, rfl⟩ := handle_eq h
  have hactive : ∀ armed, io.port.Active armed c.1 := fun _ => leave_active hp
  have hopening := w.opening_not_active (hactive false)
  have hnew : c.2 ≠ .pending := samples c (List.mem_of_getElem? (leave_eq hp).1)
  have hphase := w.phase
  by_cases hstate : io.state = .pending
  · -- the state moves on, so the operation in flight must be gone
    obtain ⟨-, hdone, hnone⟩ := w.active (.inl hstate) (hactive false)
    simp only [if_pos hstate]
    refine ⟨?_, .inl hnone, fun _ => hnone, w.bound, ?_⟩
    · rintro (hs | hph) t ht
      · exact absurd hs hnew
      · exact w.attributed (Or.inr hph) t (active_leave hp ht)
    · cases ph with
      | opening => exact absurd rfl hopening
      | accepting | publishing | marking => exact hnew
      | starting => exact absurd hdone hphase.2.2
      | finished => exact hdone
      | steady => trivial
  · simp only [if_neg hstate]
    refine ⟨fun hexp t ht => w.attributed hexp t (active_leave hp ht), w.single, w.quiet, w.bound, ?_⟩
    cases ph with
    | opening => exact absurd rfl hopening
    | accepting | publishing | marking | starting | finished | steady => exact hphase

/-- The state is exchanged for another by the owning thread, between its operations. -/
theorem WriterSync.release (w : WriterSync .steady io) {old new : IoState} (hold : old ≠ .pending)
    (hnew : new ≠ .pending) : WriterSync .steady (io.exchange old new) := by
  unfold Io.exchange
  split
  · rename_i hstate
    have hs : io.state ≠ .pending := hstate ▸ hold
    have hexp : ∀ {s : IoState}, s ≠ .pending → ¬ Expects .steady { io with state := s } := by
      rintro s hs (h | h | h)
      · exact hs h
      · cases h
      · cases h
    have hquiet := w.quiet (hexp hs)
    exact ⟨fun h => absurd h (hexp hnew), .inl hquiet, fun _ => hquiet, w.bound, trivial⟩
  · exact w

/-- A write completed at once, and its state moves on. -/
theorem WriterSync.settle (w : WriterSync .finished io) :
    WriterSync .steady (io.exchange .pending .completed) := by
  have hquiet : io.inflight = [] := by
    rcases w.single with hnone | ⟨-, hnot⟩
    · exact hnone
    · exact absurd w.phase hnot
  unfold Io.exchange
  split
  · refine ⟨?_, .inl hquiet, fun _ => hquiet, w.bound, trivial⟩
    rintro (h | h | h)
    · cases h
    · cases h
    · cases h
  · rename_i hs
    refine ⟨?_, .inl hquiet, fun _ => hquiet, w.bound, trivial⟩
    rintro (h | h | h)
    · exact absurd h hs
    · cases h
    · cases h

/-- `IOBUF_IO_PENDING` is stored for a new write, while no callback for an
earlier one may come. -/
theorem WriterSync.mark (w : WriterSync .marking io) (h : io.port.load = 0) :
    WriterSync .starting io.mark := by
  have hstate : io.state ≠ .pending := w.phase
  have hquiet : io.inflight = [] := w.quiet (by
    rintro (h | h | h)
    · exact hstate h
    · cases h
    · cases h)
  have hfresh : io.op + 1 ∉ io.done := fun hmem => Nat.not_succ_le_self _ (w.bound _ hmem)
  refine ⟨fun _ t ht => ?_, .inl hquiet, fun _ => hquiet, ?_, rfl, hquiet, hfresh⟩
  · exact absurd ht (load_eq_zero_iff.mp h t)
  · intro t ht
    exact Nat.le_succ_of_le (w.bound t ht)

/-- Every move keeps it, if a write is only started when no callback may come. -/
theorem WriterSync.move (w : WriterSync ph io) (samples : Sampled io)
    (free : ph = .marking → io.port.load = 0 ∨ ph' ≠ .starting)
    (h : WriterMove ph io ph' io') : WriterSync ph' io' := by
  cases h with
  | stay => exact w
  | connected =>
    obtain rfl : io = .new := w.phase
    exact ⟨fun _ t ht => absurd ht (new_not_active _ t), .inl rfl, fun _ => rfl, nofun, trivial⟩
  | accept =>
    obtain rfl : io = .new := w.phase
    refine ⟨fun _ t ht => ?_, .inr ⟨rfl, nofun⟩, fun hexp => ?_, nofun, nofun⟩
    · exact absurd (active_reset ht) (new_not_active false t)
    · exact absurd (.inr (.inl rfl)) hexp
  | refused hph =>
    rcases hph with rfl | rfl
    · obtain rfl : io = .new := w.phase
      exact ⟨fun _ t ht => absurd ht (new_not_active _ t), .inl rfl, fun _ => rfl, nofun, nofun⟩
    · exact w
  | listen =>
    have hexp : Expects .accepting io := .inr (.inl rfl)
    refine ⟨fun _ t ht => w.attributed hexp t (active_register ht), w.single, fun hnot => ?_,
      w.bound, w.phase⟩
    exact absurd (.inr (.inr rfl)) hnot
  | publish =>
    have hexp : Expects .publishing io := .inr (.inr rfl)
    refine ⟨fun _ => w.attributed hexp, w.single, fun hnot => ?_, w.bound, trivial⟩
    exact absurd (.inl rfl) hnot
  | finish hio => exact w.finish hio
  | pick hio => exact w.pick hio
  | sample hio => exact w.sample hio
  | handle hio => exact w.handle samples hio
  | clear hs =>
    have hexp : ∀ {ph : WriterPhase}, ph = .steady ∨ ph = .marking → ¬ Expects ph io := by
      rintro ph hph (h | rfl | rfl)
      · exact hs h
      · rcases hph with hph | hph <;> cases hph
      · rcases hph with hph | hph <;> cases hph
    have hquiet := w.quiet (hexp (.inl rfl))
    exact ⟨fun h => absurd h (hexp (.inr rfl)), .inl hquiet, fun _ => hquiet, w.bound, hs⟩
  | mark =>
    rcases free rfl with hload | hph
    · exact w.mark hload
    · exact absurd rfl hph
  | instant =>
    have hnone := w.not_active_starting
    obtain ⟨-, hquiet, -⟩ := w.phase
    refine ⟨fun _ t ht => ?_, .inl hquiet, fun _ => hquiet,
      List.forall_mem_cons.mpr ⟨Nat.le_refl _, w.bound⟩, List.mem_cons_self⟩
    obtain rfl := eq_of_active_signal hnone ht
    exact ⟨rfl, List.mem_cons_self⟩
  | issue =>
    have hnone := w.not_active_starting
    obtain ⟨hstate, hquiet, hfresh⟩ := w.phase
    refine ⟨fun _ t ht => absurd (active_reset ht) (hnone t), Or.inr ⟨?_, hfresh⟩,
      fun hexp => absurd (.inl hstate) hexp, w.bound, trivial⟩
    exact congrArg (io.op :: ·) hquiet
  | reject =>
    have hnone := w.not_active_starting
    obtain ⟨-, hquiet, -⟩ := w.phase
    exact ⟨fun _ t ht => absurd (active_reset ht) (hnone t), Or.inl hquiet, fun _ => hquiet,
      w.bound, trivial⟩
  | settle => exact w.settle
  | register =>
    exact w.port (by decide) fun t ht => active_register ht
  | cancel =>
    exact w.port (by decide) fun t ht => active_cancel ht
  | release hold hnew => exact w.release hold hnew

end Sync

/-! ### Whether it has run -/

structure WriterIds (io : Io) : Prop where
  active : ∀ t, io.port.Active true t → t ≤ io.op
  inflight : ∀ t ∈ io.inflight, t ≤ io.op
  ran : ∀ t ∈ io.ran, t ≤ io.op
  unrun : io.state = .pending → io.op ∉ io.ran

section Ids

variable {ph ph' : WriterPhase} {io io' : Io}

theorem WriterIds.new : WriterIds .new where
  active := fun t ht => absurd ht (new_not_active true t)
  inflight := nofun
  ran := nofun
  unrun := nofun

/-- The next operation gets a number that no callback has. -/
theorem WriterIds.next (w : WriterIds io) (state : IoState) :
    WriterIds { io with state := state, op := io.op + 1 } where
  active := fun t ht => Nat.le_succ_of_le (w.active t ht)
  inflight := fun t ht => Nat.le_succ_of_le (w.inflight t ht)
  ran := fun t ht => Nat.le_succ_of_le (w.ran t ht)
  unrun := fun _ hmem => Nat.not_succ_le_self _ (w.ran _ hmem)

/-- A port that changed without gaining a token beyond the latest operation. -/
theorem WriterIds.port (w : WriterIds io) {p : Port Nat IoState}
    (active : ∀ t, p.Active true t → t ≤ io.op) : WriterIds { io with port := p } where
  active := active
  inflight := w.inflight
  ran := w.ran
  unrun := w.unrun

theorem WriterIds.issue (w : WriterIds io) : WriterIds io.issue where
  active := fun t ht => w.active t (Port.active_reset ht).arm
  inflight := fun t ht => by
    rcases List.mem_cons.mp ht with rfl | ht
    · exact Nat.le_refl _
    · exact w.inflight t ht
  ran := w.ran
  unrun := w.unrun

theorem WriterIds.exchange (w : WriterIds io) {old new : IoState} (h : new ≠ .pending) :
    WriterIds (io.exchange old new) := by
  unfold Io.exchange
  split
  · exact ⟨w.active, w.inflight, w.ran, fun hs => absurd hs h⟩
  · exact w

/-- Every move keeps it, if the accept stores `IOBUF_IO_PENDING` before its callback has run. -/
theorem WriterIds.move (w : WriterIds io) (samples : Sampled io)
    (first : ph = .publishing → io.op ∉ io.ran ∨ ph' ≠ .steady) (h : WriterMove ph io ph' io') :
    WriterIds io' := by
  cases h with
  | stay | connected => exact w
  | refused hph => exact w
  | accept => exact (w.next io.state).issue
  | listen => exact w.port fun t ht => w.active t (active_register ht)
  | publish =>
    rcases first rfl with hnot | hph
    · exact ⟨w.active, w.inflight, w.ran, fun _ => hnot⟩
    · exact absurd rfl hph
  | finish hio =>
    obtain ⟨hc, -, rfl⟩ := finish_eq hio
    refine ⟨fun t ht => ?_, fun t ht => w.inflight t (List.mem_of_mem_erase ht), w.ran, w.unrun⟩
    rcases active_signal ht with rfl | ht
    · exact w.inflight _ hc
    · exact w.active t ht.arm
  | pick hio =>
    obtain ⟨p, hp, rfl⟩ := map_eq_some_iff.mp hio
    exact w.port fun t ht => w.active t (active_pick hp ht).arm
  | sample hio =>
    obtain ⟨p, hp, rfl⟩ := map_eq_some_iff.mp hio
    exact w.port fun t ht => w.active t (active_enter hp ht)
  | handle hio =>
    obtain ⟨c, p, hp, rfl⟩ := handle_eq hio
    have hnew : c.2 ≠ .pending := samples c (List.mem_of_getElem? (leave_eq hp).1)
    refine ⟨fun t ht => w.active t (active_leave hp ht), w.inflight, fun t ht => ?_,
      fun hs => ?_⟩
    · rcases List.mem_cons.mp ht with rfl | ht
      · exact w.active _ (leave_active hp)
      · exact w.ran t ht
    · -- whichever way the exchange went, the state is not pending
      by_cases hstate : io.state = .pending
      · exact absurd ((if_pos hstate).symm.trans hs) hnew
      · exact absurd ((if_neg hstate).symm.trans hs) hstate
  | clear => exact ⟨w.active, w.inflight, w.ran, w.unrun⟩
  | mark => exact w.next .pending
  | instant =>
    refine ⟨fun t ht => ?_, w.inflight, w.ran, w.unrun⟩
    rcases active_signal ht with rfl | ht
    · exact Nat.le_refl _
    · exact w.active t ht.arm
  | issue => exact w.issue
  | reject =>
    exact ⟨fun t ht => w.active t (active_reset ht).arm, w.inflight, w.ran, w.unrun⟩
  | settle => exact w.exchange (by decide)
  | register => exact w.port fun t ht => w.active t (active_register ht)
  | cancel => exact w.port fun t ht => w.active t (active_cancel ht)
  | release hold hnew => exact w.exchange hnew

end Ids

/-! ### Runs -/

/-- A step of the owning thread. -/
def Label.drives : Label → Bool
  | .drive _ => true
  | _ => false

/-- A write stores `IOBUF_IO_PENDING` only while no callback for an earlier
operation is queued or running, or about to be queued. -/
def WritesAfresh (s : Channel) (a : Label) : Prop :=
  a.drives → writerPhase s.pc = .marking → s.writer.port.load = 0

/-- The accept stores `IOBUF_IO_PENDING` only if its callback has not run. -/
def AcceptsFirst (s : Channel) (a : Label) : Prop :=
  a.drives → writerPhase s.pc = .publishing → s.writer.op ∉ s.writer.ran

instance (s : Channel) (a : Label) : Decidable (WritesAfresh s a) :=
  inferInstanceAs (Decidable (_ → _ → _))

instance (s : Channel) (a : Label) : Decidable (AcceptsFirst s a) :=
  inferInstanceAs (Decidable (_ → _ → _))

/-- The callback that moves a direction's state on is the one for the operation
that is pending, and that operation has completed. -/
def Channel.Attributed (s : Channel) : Prop :=
  ∀ d i t, s.step (.exchange d i) = some t → (s.io d).state = .pending →
    (∃ r, (s.io d).port.running[i]? = some ((s.io d).op, r)) ∧ (s.io d).op ∈ (s.io d).done

/-- An operation that completed and whose callback has run is not pending. -/
def Channel.Noticed (s : Channel) : Prop :=
  ∀ d, (s.io d).op ∈ (s.io d).done → (s.io d).op ∈ (s.io d).ran → (s.io d).state ≠ .pending

section Runs

variable {s t : Channel}

variable {a : Label}

/-- Only the owning thread moves on in its work on the write direction. -/
theorem writerPhase_of_step (ha : a.drives = false) (h : s.step a = some t) :
    writerPhase s.pc = .steady ∨ writerPhase t.pc = writerPhase s.pc := by
  cases a with
  | call c =>
    simp only [Channel.step] at h
    split at h
    · rename_i hs
      exact .inl (by rw [hs]; rfl)
    · cases h
  | drive o => cases ha
  | finish d c status bs =>
    right
    cases d with
    | reader =>
      simp only [Channel.step, Channel.kernel] at h
      split at h
      · obtain ⟨io, -, rfl⟩ := map_eq_some_iff.mp h
        rfl
      · cases h
    | writer =>
      simp only [Channel.step, Channel.kernel] at h
      split at h
      · obtain ⟨io, -, rfl⟩ := map_eq_some_iff.mp h
        rfl
      · cases h
  | pick d | sample d i | exchange d i =>
    obtain ⟨io, -, rfl⟩ := map_eq_some_iff.mp h
    right
    cases d <;> rfl

theorem sampled_step (w : Sampled s.writer) (h : s.step a = some t) :
    Sampled t.writer := by
  rcases writer_step h with hmove | ⟨hw, -⟩
  · exact w.move hmove
  · rw [hw]
    exact w

theorem writerSync_step (w : WriterSync (writerPhase s.pc) s.writer) (samples : Sampled s.writer)
    (free : WritesAfresh s a) (h : s.step a = some t) :
    WriterSync (writerPhase t.pc) t.writer := by
  rcases writer_step h with hmove | ⟨hw, hpc⟩
  · refine w.move samples (fun hph => ?_) hmove
    cases ha : a.drives with
    | true => exact .inl (free ha hph)
    | false =>
      rcases writerPhase_of_step ha h with hs | ht
      · rw [hs] at hph
        cases hph
      · exact .inr (by rw [ht, hph]; decide)
  · rw [hw, hpc]
    exact w

theorem writerIds_step (w : WriterIds s.writer) (samples : Sampled s.writer)
    (first : AcceptsFirst s a) (h : s.step a = some t) : WriterIds t.writer := by
  rcases writer_step h with hmove | ⟨hw, -⟩
  · refine w.move samples (fun hph => ?_) hmove
    cases ha : a.drives with
    | true => exact .inl (first ha hph)
    | false =>
      rcases writerPhase_of_step ha h with hs | ht
      · rw [hs] at hph
        cases hph
      · exact .inr (by rw [ht, hph]; decide)
  · rw [hw]
    exact w

theorem sampled_inv {G : Channel → Label → Prop} (run : pipeMachine.Reaches G s) :
    Sampled s.writer := by
  refine run.invariant (P := fun s => Sampled s.writer) ?_ fun s a t w _ h => sampled_step w h
  rintro s ⟨server, rfl⟩
  exact nofun

/-- The run rule for the write direction: the invariant may use that callbacks
carry a final state. -/
theorem writerSync_inv (run : pipeMachine.Reaches WritesAfresh s) :
    WriterSync (writerPhase s.pc) s.writer := by
  induction run with
  | init hs =>
    obtain ⟨server, rfl⟩ := hs
    cases server with
    | true => exact .new
    | false =>
      exact ⟨fun _ t ht => absurd ht (new_not_active _ t), .inl rfl, fun _ => rfl, nofun, trivial⟩
  | step run hg hstep ih => exact writerSync_step ih (sampled_inv run) hg hstep

theorem writerIds_inv (run : pipeMachine.Reaches AcceptsFirst s) : WriterIds s.writer := by
  induction run with
  | init hs =>
    obtain ⟨server, rfl⟩ := hs
    exact .new
  | step run hg hstep ih => exact writerIds_step ih (sampled_inv run) hg hstep

/-! ### The main results -/

/-- In a run in which writes start afresh, a completion is attributed to the
operation that completed, in both directions. -/
theorem reaches_attributed (run : pipeMachine.Reaches WritesAfresh s) : s.Attributed := by
  intro d i t h hs
  obtain ⟨io, hio, rfl⟩ := map_eq_some_iff.mp h
  obtain ⟨c, p, hp, -⟩ := handle_eq hio
  have hc := (leave_eq hp).1
  have hactive : (s.io d).port.Active false c.1 := leave_active hp
  have main : c.1 = (s.io d).op ∧ (s.io d).op ∈ (s.io d).done := by
    cases d with
    | reader =>
      obtain ⟨-, ht, hdone, -⟩ := (reader_inv run).active hactive
      exact ⟨ht, hdone⟩
    | writer =>
      obtain ⟨ht, hdone, -⟩ := (writerSync_inv run).active (.inl hs) hactive
      exact ⟨ht, hdone⟩
  exact ⟨⟨c.2, by rw [hc, ← main.1]⟩, main.2⟩

/-- A write that is pending completes, and its callback is about to say so. -/
def writeCompletes : List Label :=
  [.call (.block true), .call (.output 10), .drive .go, .drive .go, .drive .pending, .drive .ok,
    .finish .writer 1 0 [], .pick .writer, .sample .writer 0]

theorem reaches_attributed_write :
    ∃ s : Channel, (s.writer.state = .pending ∧ (s.step (.exchange .writer 0)).isSome) ∧ s.Attributed := by
  obtain ⟨s, run, hs⟩ := Machine.Reaches.exists_of_run (M := pipeMachine) (G := WritesAfresh)
    writeCompletes (fun s => s.writer.state = .pending ∧ (s.step (.exchange .writer 0)).isSome)
    ⟨false, rfl⟩ (by decide)
  exact ⟨s, hs, reaches_attributed run⟩

/-- The second write completes synchronously and its callback is late; the third
one is pending when that callback runs. -/
def lateCallback : List Label :=
  [.call (.block true), .call (.output 10), .drive .go, .drive .go, .drive .pending, .drive .ok,
    .finish .writer 1 0 [], .pick .writer, .sample .writer 0, .exchange .writer 0,
    .call .check, .call .event, .drive .go, .drive .go, .drive .go, .drive .go,
    .call (.output 10), .drive .go, .drive .go, .drive .ok, .drive .go, .pick .writer,
    .call .check, .call .event, .drive .go, .drive .go, .drive .go, .drive .go,
    .call (.output 10), .drive .go, .drive .go, .drive .pending, .sample .writer 0]

/-- The late callback marks the third write as failed although it is in flight. -/
theorem late_callback_misattributed : ¬ ∀ s, pipeMachine.Reachable s → s.Attributed := by
  intro claim
  obtain ⟨s, run, hs, hnot, hstep⟩ := Machine.Reaches.exists_of_run (M := pipeMachine)
    (G := fun _ _ => True) lateCallback
    (fun s => s.writer.state = .pending ∧ s.writer.op ∉ s.writer.done ∧
      (s.step (.exchange .writer 0)).isSome)
    ⟨false, rfl⟩ (by decide)
  obtain ⟨t, ht⟩ := isSome_iff_exists.mp hstep
  exact hnot (claim s run .writer 0 t ht hs).2

/-- In a run in which the accept is marked before its callback, no completion is lost. -/
theorem reaches_noticed (run : pipeMachine.Reaches AcceptsFirst s) : s.Noticed := by
  intro d _ hran hs
  cases d with
  | reader => exact (reader_inv run).unrun hs hran
  | writer => exact (writerIds_inv run).unrun hs hran

/-- A client connects after the accept was marked. -/
def clientConnects : List Label :=
  [.drive .pending, .drive .ok, .drive .go, .finish .writer 1 0 [], .pick .writer, .sample .writer 0,
    .exchange .writer 0]

theorem reaches_noticed_accept : ∃ s : Channel, s.writer.op ∈ s.writer.ran ∧ s.Noticed := by
  obtain ⟨s, run, hs⟩ := Machine.Reaches.exists_of_run (M := pipeMachine) (G := AcceptsFirst)
    clientConnects (fun s => s.writer.op ∈ s.writer.ran) ⟨true, rfl⟩ (by decide)
  exact ⟨s, hs, reaches_noticed run⟩

/-- The client connects between the registration of the wait and the marking. -/
def earlyClient : List Label :=
  [.drive .pending, .drive .ok, .finish .writer 1 0 [], .pick .writer, .sample .writer 0,
    .exchange .writer 0, .drive .go]

/-- The accept completed, its callback has run, and the state is `IOBUF_IO_PENDING`. -/
theorem early_client_unnoticed : ¬ ∀ s, pipeMachine.Reachable s → s.Noticed := by
  intro claim
  obtain ⟨s, run, hs, hdone, hran⟩ := Machine.Reaches.exists_of_run (M := pipeMachine)
    (G := fun _ _ => True) earlyClient
    (fun s => s.writer.state = .pending ∧ s.writer.op ∈ s.writer.done ∧ s.writer.op ∈ s.writer.ran)
    ⟨true, rfl⟩ (by decide)
  exact claim s run .writer hdone hran hs

end Runs

end Twapi.NamedPipe
