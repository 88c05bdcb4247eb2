import Twapi.NamedPipe.Reader

/-!
What happens to the bytes that are read: they come in by the one-byte
read-ahead and by the drain, and go out to Tcl.

* `Channel.held` — the byte in the read-ahead slot.
* `Pc.hand` — what `NPipeInputProc` has put into the caller's buffer so far.
* `Channel.Accounted` — all bytes consumed are returned, in the buffer or held.
  Every step keeps this (`accounted_step`), unless the drain fails after the
  read-ahead byte was taken, or a read-ahead completes without a byte.
-/

namespace Twapi.NamedPipe

open Lib Channel

/-- The read-ahead has completed successfully, whether or not the callback has said so. -/
def Channel.holds (s : Channel) : Bool :=
  s.reader.state = .completed ∨
    s.reader.state = .pending ∧ s.reader.op ∈ s.reader.done ∧ s.reader.internal = errorSuccess

/-- The byte in the read-ahead slot. -/
def Channel.held (s : Channel) : List UInt8 := if s.holds then [s.readAhead] else []

/-- The caller's buffer in a run of `NPipeWatchReads`. -/
def Caller.hand : Caller → List UInt8
  | .input buf => buf
  | .watch _ => []

/-- The caller's buffer. -/
def Pc.hand : Pc → List UInt8
  | .peek _ buf | .read _ buf | .readWait _ buf => buf
  | .watchTest k | .watchMark k | .watchIssue k | .watchRegister k => k.hand
  | _ => []

/-- All bytes consumed from the pipe are accounted for, with `buf` in the buffer. -/
def Channel.AccountedWith (s : Channel) (buf : List UInt8) : Prop :=
  s.consumed = s.returned ++ buf ++ s.held

/-- In the drain, after the byte read ahead was taken. -/
def Pc.drains : Pc → Bool
  | .peek _ _ | .read _ _ | .readWait _ _ => true
  | _ => false

structure Channel.Accounted (s : Channel) : Prop where
  bytes : s.AccountedWith s.pc.hand
  taken : s.pc.drains = true → s.held = []

/-- Neither a failing drain nor an empty completion: `PeekNamedPipe` and
`ReadFile` do not fail while a byte is in the caller's buffer, and a read-ahead
that succeeds delivers its byte. -/
def DrainsSafely (s : Channel) : Label → Prop
  | .drive (.fail _) => s.pc.drains = true → s.pc.hand = []
  | .drive (.bytes bs) => readerPhase s.pc = .starting → bs ≠ []
  | .finish .reader _ status bs => status = errorSuccess → bs ≠ []
  | _ => True

instance (s : Channel) (a : Label) : Decidable (DrainsSafely s a) := by
  unfold DrainsSafely
  split <;> infer_instance

section Steps

variable {s t : Channel} {buf : List UInt8}

/-! ### The slot -/

variable {o : Outcome} {bs : List UInt8} {k : Caller} {n : Nat}

theorem singleton_of_length (h : bs.length ≤ 1) (hne : bs ≠ []) : ∃ x, bs = [x] := by
  cases bs with
  | nil => exact absurd rfl hne
  | cons x bs => exact ⟨x, by simpa using h⟩

/-- A step that changes no more of the read direction than its wait and callbacks. -/
theorem held_eq {p : Port Nat IoState} (reader : t.reader = { s.reader with port := p })
    (slot : t.readAhead = s.readAhead) : t.held = s.held := by
  unfold Channel.held Channel.holds
  rw [reader, slot]

theorem held_of_taken (hs : s.reader.state ≠ .pending) (hc : s.reader.state ≠ .completed) :
    s.held = [] := by
  simp [held, holds, hs, hc]

theorem held_of_completed (h : s.reader.state = .completed) : s.held = [s.readAhead] := by
  simp [held, holds, h]

/-- An operation that has not completed has nothing in the slot. -/
theorem held_of_started (hs : s.reader.state = .pending) (hdone : s.reader.op ∉ s.reader.done) :
    s.held = [] := by
  simp [held, holds, hs, hdone]

/-- A read-ahead that completes successfully fills the slot. -/
theorem held_of_arrived (hs : s.reader.state = .pending) (hdone : s.reader.op ∈ s.reader.done)
    (hi : s.reader.internal = errorSuccess) : s.held = [s.readAhead] := by
  simp [held, holds, hs, hdone, hi]

theorem held_of_failed (hs : s.reader.state = .pending) (hi : s.reader.internal ≠ errorSuccess) :
    s.held = [] := by
  simp [held, holds, hs, hi]

/-- The slot of a read-ahead that completed is what its state will say. -/
theorem held_of_done (hs : s.reader.state = .pending) (hdone : s.reader.op ∈ s.reader.done) :
    s.held = if s.reader.verdict = .completed then [s.readAhead] else [] := by
  by_cases hi : s.reader.internal = errorSuccess
  · simp [held, holds, Io.verdict, hs, hdone, hi]
  · simp [held, holds, Io.verdict, hs, hdone, hi]

/-- Storing the verdict of a completed read-ahead does not change the slot. -/
theorem held_of_verdict (hs : s.reader.state = .pending) (hdone : s.reader.op ∈ s.reader.done)
    (state : t.reader.state = s.reader.verdict) (slot : t.readAhead = s.readAhead) :
    t.held = s.held := by
  rw [held_of_done hs hdone]
  have hne := verdict_ne_pending s.reader
  by_cases hv : s.reader.verdict = .completed
  · rw [held_of_completed (state.trans hv), if_pos hv, slot]
  · rw [held_of_taken (state ▸ hne) (state ▸ hv), if_neg hv]

/-! ### Accounting in the driver procedures -/

theorem Channel.AccountedWith.of_eq (b : s.AccountedWith buf) (held : t.held = s.held)
    (consumed : t.consumed = s.consumed) (returned : t.returned = s.returned) :
    t.AccountedWith buf := by
  unfold Channel.AccountedWith
  rw [consumed, returned, held]
  exact b

/-- Bytes are consumed into the empty slot. -/
theorem Channel.AccountedWith.arrive (b : s.AccountedWith buf) (none : s.held = [])
    (held : t.held = bs) (consumed : t.consumed = s.consumed ++ bs)
    (returned : t.returned = s.returned) :
    t.AccountedWith buf := by
  rw [Channel.AccountedWith, none, List.append_nil] at b
  rw [Channel.AccountedWith, consumed, returned, held, b]

/-- Bytes are consumed into the buffer, the slot being empty. -/
theorem Channel.AccountedWith.drain (b : s.AccountedWith buf) (none : s.held = [])
    (held : t.held = []) (consumed : t.consumed = s.consumed ++ bs)
    (returned : t.returned = s.returned) :
    t.AccountedWith (buf ++ bs) := by
  rw [Channel.AccountedWith, none, List.append_nil] at b
  rw [Channel.AccountedWith, consumed, returned, held, b, List.append_nil, List.append_assoc]

/-- The bytes in the buffer are returned. -/
theorem accounted_give (b : s.AccountedWith buf) : (s.give buf).Accounted := by
  have hconsumed : s.consumed = (s.returned ++ buf) ++ [] ++ s.held := by
    rw [List.append_nil]
    exact b
  exact ⟨hconsumed, nofun⟩

theorem accounted_resume (b : s.AccountedWith k.hand) : (s.resume k).Accounted := by
  cases k with
  | input buf => exact accounted_give b
  | watch mask => exact ⟨b, nofun⟩

theorem accounted_finishRead (b : s.AccountedWith buf) : (s.finishRead buf).Accounted := by
  unfold Channel.finishRead
  split
  · exact ⟨b, nofun⟩
  · exact accounted_give b

/-- An error discards the buffer, which must be empty. -/
theorem accounted_inputError (b : s.AccountedWith buf) (hbuf : buf = []) : s.inputError.Accounted := by
  subst hbuf
  exact ⟨b, nofun⟩

theorem accounted_readAheadError (b : s.AccountedWith []) : s.readAheadError.Accounted := by
  unfold Channel.readAheadError
  obtain ⟨e, he⟩ := s.setError_eq s.reader.internal
  rw [he]
  exact accounted_inputError b rfl

theorem accounted_inputCheck (b : s.AccountedWith []) : (s.inputCheck n).Accounted := by
  unfold Channel.inputCheck
  split
  · split
    · exact ⟨b, nofun⟩
    · split
      · exact ⟨b, nofun⟩
      · exact ⟨b, nofun⟩
  · exact ⟨b, nofun⟩

theorem accounted_inputWait (b : s.AccountedWith []) (h : s.inputWait n o = some t) :
    t.Accounted := by
  cases o with
  | slept blocked =>
    simp only [inputWait] at h
    split at h
    · rename_i hs
      split at h
      · rename_i hdone
        -- the verdict is stored here instead of by the callback
        have stored : ∀ port,
            { s with reader := { s.reader with state := s.reader.verdict, port := port } }.AccountedWith
              [] := fun port => b.of_eq (held_of_verdict hs hdone rfl rfl) rfl rfl
        split at h
        · cases h
          exact accounted_readAheadError (stored _)
        · cases h
          exact ⟨stored _, by rintro ⟨⟩⟩
      · cases h
    · split at h
      · cases h
        exact accounted_readAheadError b
      · cases h
        exact ⟨b, by rintro ⟨⟩⟩
  | _ => cases h

/-- The byte read ahead moves from the slot to the buffer. -/
theorem accounted_readData (hs : s.reader.state ≠ .pending) (b : s.AccountedWith []) :
    (s.readData n).Accounted := by
  unfold Channel.readData
  split
  · rename_i hcompleted
    have hheld : { s with reader := { s.reader with state := .idle } }.held = [] :=
      held_of_taken nofun nofun
    have moved : { s with reader := { s.reader with state := .idle } }.AccountedWith [s.readAhead] := by
      unfold Channel.AccountedWith at b ⊢
      rw [hheld, List.append_nil]
      rw [held_of_completed hcompleted, List.append_nil] at b
      exact b
    simp only
    split
    · exact accounted_finishRead moved
    · exact ⟨moved, fun _ => hheld⟩
  · rename_i hcompleted
    exact ⟨b, fun _ => held_of_taken hs hcompleted⟩

theorem accounted_peek (b : s.AccountedWith buf) (taken : s.held = [])
    (safe : ∀ e, o = .fail e → buf = []) (h : s.peek n buf o = some t) : t.Accounted := by
  cases o with
  | fail e =>
    cases h
    exact accounted_inputError b (safe e rfl)
  | avail k =>
    simp only [peek] at h
    split at h
    · cases h
      exact accounted_finishRead b
    · cases h
      exact ⟨b, fun _ => taken⟩
  | _ => cases h

/-- While the drain is going on the slot is empty, whatever becomes of `ovl`. -/
theorem held_of_internal {internal : Nat} (hs : s.reader.state ≠ .pending) (taken : s.held = [])
    (reader : t.reader = { s.reader with internal := internal }) : t.held = [] := by
  apply held_of_taken (by rw [reader]; exact hs)
  intro hcompleted
  rw [reader] at hcompleted
  rw [held_of_completed hcompleted] at taken
  cases taken

theorem accounted_drained (hs : s.reader.state ≠ .pending) (b : s.AccountedWith buf)
    (taken : s.held = []) : (s.drained buf bs).Accounted :=
  accounted_finishRead (b.drain taken (held_of_internal hs taken rfl) rfl rfl)

theorem accounted_read (hs : s.reader.state ≠ .pending) (b : s.AccountedWith buf)
    (taken : s.held = []) (safe : ∀ e, o = .fail e → buf = []) (h : s.read n buf o = some t) :
    t.Accounted := by
  have moved : ∀ internal,
      { s with reader := { s.reader with internal := internal } }.AccountedWith buf := fun internal =>
    b.of_eq (Eq.trans (held_of_internal hs taken rfl) taken.symm) rfl rfl
  cases o with
  | bytes bs =>
    simp only [Channel.read] at h
    split at h
    · cases h
      exact accounted_drained hs b taken
    · cases h
  | pending =>
    cases h
    exact ⟨moved statusPending, fun _ => held_of_internal hs taken rfl⟩
  | fail e =>
    cases h
    exact accounted_inputError (moved statusPending) (safe e rfl)
  | _ => cases h

theorem accounted_readWait (hs : s.reader.state ≠ .pending) (b : s.AccountedWith buf)
    (taken : s.held = []) (safe : ∀ e, o = .fail e → buf = []) (h : s.readWait n buf o = some t) :
    t.Accounted := by
  cases o with
  | bytes bs =>
    simp only [readWait] at h
    split at h
    · cases h
      exact accounted_drained hs b taken
    · cases h
  | fail e =>
    cases h
    have moved : { s with reader := { s.reader with internal := e } }.AccountedWith buf :=
      b.of_eq (Eq.trans (held_of_internal hs taken rfl) taken.symm) rfl rfl
    exact accounted_inputError moved (safe e rfl)
  | _ => cases h

theorem accounted_watchTest (b : s.AccountedWith k.hand) : (s.watchTest k).Accounted := by
  unfold Channel.watchTest
  split
  · exact accounted_resume b
  · exact ⟨b, nofun⟩

/-- A read-ahead is started, which leaves the slot empty. -/
theorem accounted_watchMark (w : ReaderOk .marking s.watchRead s.reader)
    (b : s.AccountedWith k.hand) : (s.watchMark k).Accounted := by
  unfold Channel.watchMark
  split
  · exact ⟨b, nofun⟩
  · rename_i hs
    have hidle : s.reader.state = .idle := w.phase.2.resolve_right fun h => hs h.1
    have hheld : s.held = [] := held_of_taken hs (by rw [hidle]; decide)
    have hfresh : s.reader.op + 1 ∉ s.reader.done := fun hmem => Nat.not_succ_le_self _ (w.bound _ hmem)
    have hstarted : { s with reader := { s.reader.mark with internal := errorSuccess } }.held = [] :=
      held_of_started rfl hfresh
    exact ⟨b.of_eq (hstarted.trans hheld.symm) rfl rfl, nofun⟩

theorem accounted_watchIssue (w : ReaderOk .starting s.watchRead s.reader)
    (b : s.AccountedWith k.hand) (safe : o ≠ .bytes []) (h : s.watchIssue k o = some t) :
    t.Accounted := by
  obtain ⟨-, hs, -, hfresh⟩ := w.phase
  have hheld : s.held = [] := held_of_started hs hfresh
  cases o with
  | pending =>
    cases h
    have hissued : { s with reader := s.reader.issue }.held = [] := held_of_started hs hfresh
    exact ⟨b.of_eq (hissued.trans hheld.symm) rfl rfl, by rintro ⟨⟩⟩
  | bytes bs =>
    simp only [watchIssue] at h
    split at h
    · rename_i hlen
      cases h
      obtain ⟨x, rfl⟩ := singleton_of_length hlen fun hbs => safe (congrArg Outcome.bytes hbs)
      exact ⟨b.arrive hheld (held_of_arrived hs List.mem_cons_self rfl) rfl rfl, by rintro ⟨⟩⟩
    · cases h
  | fail e =>
    cases h
    have hrejected : { s with reader := { s.reader.reject with state := .idle }, winerr := e }.held = [] :=
      held_of_taken (by rintro ⟨⟩) (by rintro ⟨⟩)
    exact accounted_resume (b.of_eq (hrejected.trans hheld.symm) rfl rfl)
  | _ => cases h

theorem accounted_watchRegister (b : s.AccountedWith k.hand) (h : s.watchRegister k o = some t) :
    t.Accounted := by
  unfold Channel.watchRegister at h
  split at h
  · split at h <;> cases h
    exact accounted_resume b
  · split at h <;> cases h
    exact accounted_resume b
  · split at h <;> cases h
    exact accounted_resume b
  · cases h

/-! ### Every step -/

theorem Channel.Aside.accounted (a : s.Aside t) (b : s.AccountedWith []) (hand : t.pc.hand = [])
    (drains : t.pc.drains = false) : t.Accounted := by
  have hheld : t.held = s.held := by
    unfold Channel.held Channel.holds
    rw [a.reader, a.readAhead]
  constructor
  · rw [hand]
    exact b.of_eq hheld a.consumed a.returned
  · intro h
    rw [drains] at h
    cases h

/-- Where the thread is not concerned with reading there is nothing in a buffer. -/
theorem Pc.hand_of_steady {pc : Pc} (h : readerPhase pc = .steady) :
    pc.hand = [] ∧ pc.drains = false := by
  cases pc <;> first | exact ⟨rfl, rfl⟩ | cases h

theorem Pc.taking_of_drains {pc : Pc} (h : pc.drains = true) : readerPhase pc = .taking := by
  cases pc <;> first | rfl | cases h

theorem accounted_drive (w : s.ReaderInv) (b : s.Accounted) (safe : DrainsSafely s (.drive o))
    (h : s.drive o = some t) : t.Accounted := by
  obtain ⟨bytes, taken⟩ := b
  by_cases hpc : s.pc.Reads
  · unfold Channel.ReaderInv at w
    unfold Channel.drive at h
    have fails : s.pc.drains = true → ∀ e, o = .fail e → s.pc.hand = [] := by
      rintro hdrains e rfl
      exact safe hdrains
    cases heq : s.pc with
    | inputCheck n =>
      simp only [heq] at h bytes
      cases go_eq h
      exact accounted_inputCheck bytes
    | inputUnregister n =>
      simp only [heq] at h bytes
      have step := go_eq h
      simp only [inputUnregister] at step
      split at step <;> cases step
      exact ⟨bytes, by rintro ⟨⟩⟩
    | inputWait n => simp only [heq] at h bytes; exact accounted_inputWait bytes h
    | readData n =>
      simp only [heq] at h bytes w
      cases go_eq h
      exact accounted_readData w.phase bytes
    | peek n buf =>
      simp only [heq] at h bytes taken fails
      exact accounted_peek bytes (taken rfl) (fails rfl) h
    | read n buf =>
      simp only [heq] at h bytes taken fails w
      exact accounted_read w.phase bytes (taken rfl) (fails rfl) h
    | readWait n buf =>
      simp only [heq] at h bytes taken fails w
      exact accounted_readWait w.phase bytes (taken rfl) (fails rfl) h
    | watchTest k =>
      simp only [heq] at h bytes
      cases go_eq h
      exact accounted_watchTest bytes
    | watchMark k =>
      simp only [heq] at h bytes w
      cases go_eq h
      exact accounted_watchMark w bytes
    | watchIssue k =>
      simp only [heq] at h bytes w
      refine accounted_watchIssue w bytes ?_ h
      rintro rfl
      exact safe (by rw [heq]; rfl) rfl
    | watchRegister k => simp only [heq] at h bytes; exact accounted_watchRegister bytes h
    | watchUnregister mask =>
      simp only [heq] at h bytes
      have step := go_eq h
      simp only [watchUnregister] at step
      split at step <;> cases step
      exact ⟨bytes, by rintro ⟨⟩⟩
    | _ =>
      rw [heq] at hpc
      exact hpc.elim
  · have aside := aside_drive hpc h
    obtain ⟨hand, -⟩ := Pc.hand_of_steady (Pc.steady_of_not_reads hpc)
    obtain ⟨hand', drains'⟩ := Pc.hand_of_steady aside.steady
    exact aside.accounted (hand ▸ bytes) hand' drains'

theorem accounted_nPipeWatchProc {mask : Mask} (b : s.AccountedWith []) :
    (s.nPipeWatchProc mask).Accounted := by
  unfold Channel.nPipeWatchProc
  split
  · split
    · exact ⟨b, nofun⟩
    · split <;> exact ⟨b, nofun⟩
  · split <;> exact ⟨b, nofun⟩

theorem accounted_enter {c : Call} (b : s.AccountedWith []) (h : s.enter c = some t) :
    t.Accounted := by
  by_cases hc : ∀ mask, c ≠ .watch mask
  · have aside := aside_enter hc h
    obtain ⟨hand, drains⟩ := Pc.hand_of_steady aside.steady
    exact aside.accounted b hand drains
  · simp only [ne_eq, not_forall, Decidable.not_not] at hc
    obtain ⟨mask, rfl⟩ := hc
    cases h
    exact accounted_nPipeWatchProc b

/-- The same bytes, with the same slot and in the same place. -/
theorem Channel.Accounted.of_eq (b : s.Accounted) (pc : t.pc = s.pc) (held : t.held = s.held)
    (consumed : t.consumed = s.consumed) (returned : t.returned = s.returned) : t.Accounted := by
  constructor
  · rw [pc]
    exact b.bytes.of_eq held consumed returned
  · intro h
    rw [pc] at h
    exact held.trans (b.taken h)

/-- The kernel completes the read-ahead, with the byte or with an error. -/
theorem accounted_finish {c status : Nat} (w : s.ReaderInv) (b : s.Accounted)
    (safe : status = errorSuccess → bs ≠ []) (h : s.kernel .reader c status bs = some t) :
    t.Accounted := by
  simp only [kernel] at h
  split at h
  · rename_i hbs
    obtain ⟨io, hio, rfl⟩ := Option.map_eq_some_iff.mp h
    obtain ⟨hc, -, rfl⟩ := finish_eq hio
    have hne : s.reader.inflight ≠ [] := List.ne_nil_of_mem hc
    obtain ⟨hone, hnot⟩ := w.single.resolve_left hne
    obtain rfl : c = s.reader.op := by simpa [hone] using hc
    have hs : s.reader.state = .pending := Decidable.byContradiction fun hs => hne (w.quiet hs)
    have hheld : s.held = [] := held_of_started hs hnot
    by_cases hstatus : status = errorSuccess
    · obtain ⟨x, rfl⟩ := singleton_of_length hbs.1 (safe hstatus)
      refine ⟨b.bytes.arrive hheld (held_of_arrived hs List.mem_cons_self hstatus) rfl rfl, fun h => ?_⟩
      have taking : PhaseOk .taking s.watchRead s.reader := Pc.taking_of_drains h ▸ w.phase
      exact absurd hs taking
    · obtain rfl := hbs.2 hstatus
      exact b.of_eq rfl (Eq.trans (held_of_failed hs hstatus) hheld.symm) (List.append_nil _) rfl
  · cases h

theorem accounted_step {a : Label} (w : s.ReaderInv) (b : s.Accounted) (safe : DrainsSafely s a)
    (h : s.step a = some t) : t.Accounted := by
  cases a with
  | call c =>
    simp only [step] at h
    split at h
    · rename_i hs
      refine accounted_enter ?_ h
      have bytes := b.bytes
      rw [hs] at bytes
      exact bytes
    · cases h
  | drive o =>
    simp only [step] at h
    split at h
    · cases h
    · exact accounted_drive w b safe h
  | finish d c status bs =>
    cases d with
    | reader => exact accounted_finish w b safe h
    | writer =>
      simp only [step, kernel] at h
      split at h
      · obtain ⟨io, hio, rfl⟩ := Option.map_eq_some_iff.mp h
        exact b.of_eq rfl rfl rfl rfl
      · cases h
  | pick d =>
    obtain ⟨io, hio, rfl⟩ := Option.map_eq_some_iff.mp h
    cases d with
    | reader =>
      obtain ⟨p, -, rfl⟩ := Option.map_eq_some_iff.mp hio
      exact b.of_eq rfl (held_eq rfl rfl) rfl rfl
    | writer => exact b.of_eq rfl rfl rfl rfl
  | sample d i =>
    obtain ⟨io, hio, rfl⟩ := Option.map_eq_some_iff.mp h
    cases d with
    | reader =>
      obtain ⟨p, -, rfl⟩ := Option.map_eq_some_iff.mp hio
      exact b.of_eq rfl (held_eq rfl rfl) rfl rfl
    | writer => exact b.of_eq rfl rfl rfl rfl
  | exchange d i =>
    obtain ⟨io, hio, rfl⟩ := Option.map_eq_some_iff.mp h
    cases d with
    | reader =>
      obtain ⟨c, p, hp, -⟩ := handle_eq hio
      obtain ⟨hs, -, hdone, -⟩ := w.active (Port.leave_active hp)
      exact b.of_eq rfl (held_of_verdict hs hdone (w.handle hio).2.2 rfl) rfl rfl
    | writer => exact b.of_eq rfl rfl rfl rfl

end Steps

/-! ### The main result -/

/-- What was returned to Tcl is a prefix of what was consumed. Between calls the
rest is in the read-ahead slot; during one, part of it may be in the buffer. -/
structure Channel.NoByteLost (s : Channel) : Prop where
  ordered : s.returned <+: s.consumed
  held : s.pc = .tcl → s.consumed = s.returned ++ s.held
  during : s.consumed = s.returned ++ s.pc.hand ++ s.held

theorem accounted_inv {s : Channel} (run : pipeMachine.Reaches DrainsSafely s) : s.Accounted := by
  induction run with
  | init hs =>
    obtain ⟨server, rfl⟩ := hs
    cases server with
    | true => exact ⟨rfl, nofun⟩
    | false => exact ⟨rfl, nofun⟩
  | step run hsafe hstep ih => exact accounted_step (reader_inv run) ih hsafe hstep

/-- In a run without a failing drain or an empty completion no byte is lost. -/
theorem reaches_no_byte_lost {s : Channel} (run : pipeMachine.Reaches DrainsSafely s) :
    s.NoByteLost := by
  have bytes : s.consumed = s.returned ++ s.pc.hand ++ s.held := (accounted_inv run).bytes
  refine ⟨?_, fun hpc => ?_, bytes⟩
  · rw [bytes, List.append_assoc]
    exact List.prefix_append _ _
  · rw [hpc] at bytes
    rw [bytes, List.append_assoc]
    rfl

/-- One byte comes in while reads are watched, and its callback runs. -/
def readAhead : List Label :=
  [.call (.watch ⟨true, false⟩), .drive .go, .drive .go, .drive .pending, .drive .ok,
    .finish .reader 1 0 [65], .pick .reader, .sample .reader 0, .exchange .reader 0, .drive .go]

/-- It is returned together with two more, and a third one is read ahead. -/
def readMore : List Label :=
  readAhead ++
    [.call (.input 4), .drive .go, .drive .go, .drive (.avail 2), .drive (.bytes [66, 67]), .drive .go,
      .drive .go, .drive .pending, .drive .go, .finish .reader 2 0 [68]]

theorem reaches_no_byte_lost_watched :
    ∃ s : Channel, (s.returned = [65, 66, 67] ∧ s.consumed = [65, 66, 67, 68]) ∧ s.NoByteLost := by
  obtain ⟨s, run, hs⟩ := Machine.Reaches.exists_of_run (M := pipeMachine) (G := DrainsSafely) readMore
    (fun s => s.returned = [65, 66, 67] ∧ s.consumed = [65, 66, 67, 68]) ⟨false, rfl⟩ (by decide)
  exact ⟨s, hs, reaches_no_byte_lost run⟩

/-- The other end closes, so `PeekNamedPipe` fails after the byte read ahead was
taken; `NPipeInputProc` reports end of file and the byte is gone. -/
theorem failing_drain_loses_byte : ¬ ∀ s, pipeMachine.Reachable s → s.NoByteLost := by
  intro claim
  obtain ⟨s, run, hpc, hlost⟩ := Machine.Reaches.exists_of_run (M := pipeMachine)
    (G := fun _ _ => True) (readAhead ++ [.call (.input 4), .drive .go, .drive .go, .drive (.fail 109)])
    (fun s => s.pc = .tcl ∧ s.consumed ≠ s.returned ++ s.held) ⟨false, rfl⟩ (by decide)
  exact hlost ((claim s run).held hpc)

end Twapi.NamedPipe
