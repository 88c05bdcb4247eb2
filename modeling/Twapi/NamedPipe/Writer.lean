import Twapi.NamedPipe.Reader

/-!
The write direction, which also serves the accept.

* `WriterMove` — everything that can happen to `io[WRITER]` in one step.
* `writer_step` — there is nothing else.
-/

namespace Twapi.NamedPipe

open Lib Channel

/-- What the owning thread is doing with the write direction. -/
inductive WriterPhase where
  | opening
  | accepting
  | publishing
  | marking
  | starting
  | finished
  | steady
deriving DecidableEq

def writerPhase : Pc → WriterPhase
  | .accept => .opening
  | .acceptRegister | .failed => .accepting
  | .acceptMark => .publishing
  | .outputMark _ => .marking
  | .outputIssue _ => .starting
  | .outputDone _ => .finished
  | _ => .steady

inductive WriterMove : WriterPhase → Io → WriterPhase → Io → Prop where
  | stay {io} : WriterMove .steady io .steady io
  | connected {io} : WriterMove .opening io .steady io
  | accept {io} : WriterMove .opening io .accepting { io with op := io.op + 1 }.issue
  | refused {ph io} : ph = .opening ∨ ph = .accepting → WriterMove ph io .accepting io
  | listen {io} : WriterMove .accepting io .publishing { io with port := io.port.register }
  | publish {io} : WriterMove .publishing io .steady { io with state := .pending }
  | finish {ph io io' c status} : io.finish c status = some io' → WriterMove ph io ph io'
  | pick {ph io io'} : io.pick = some io' → WriterMove ph io ph io'
  | sample {ph io io' i} : io.sample i = some io' → WriterMove ph io ph io'
  | handle {ph io io' i} : io.handle i = some io' → WriterMove ph io ph io'
  | clear {io} : io.state ≠ .pending → WriterMove .steady io .marking { io with internal := errorSuccess }
  | mark {io} : WriterMove .marking io .starting io.mark
  | instant {io} : WriterMove .starting io .finished io.instant
  | issue {io} : WriterMove .starting io .steady io.issue
  | reject {io} : WriterMove .starting io .steady io.reject
  | settle {io} : WriterMove .finished io .steady (io.exchange .pending .completed)
  | register {io} : WriterMove .steady io .steady { io with port := io.port.register }
  | cancel {io} : WriterMove .steady io .steady { io with port := io.port.cancel }
  | release {io old new} : old ≠ .pending → new ≠ .pending →
      WriterMove .steady io .steady (io.exchange old new)

section Steps

variable {s t : Channel}

/-- What a step does to the write direction. -/
def Channel.WriterStep (s t : Channel) : Prop :=
  WriterMove (writerPhase s.pc) s.writer (writerPhase t.pc) t.writer

theorem Channel.WriterStep.of_stay (hs : writerPhase s.pc = .steady) (ht : writerPhase t.pc = .steady)
    (hw : t.writer = s.writer) : s.WriterStep t := by
  unfold Channel.WriterStep
  rw [hs, ht, hw]
  exact .stay

theorem writer_resume (s : Channel) (k : Caller) :
    writerPhase (s.resume k).pc = .steady ∧ (s.resume k).writer = s.writer := by
  cases k with
  | input buf => exact ⟨rfl, rfl⟩
  | watch mask => exact ⟨rfl, rfl⟩

theorem writer_finishRead (s : Channel) (buf : List UInt8) :
    writerPhase (s.finishRead buf).pc = .steady ∧ (s.finishRead buf).writer = s.writer := by
  unfold Channel.finishRead
  split
  · exact ⟨rfl, rfl⟩
  · exact ⟨rfl, rfl⟩

theorem writer_readAheadError (s : Channel) :
    writerPhase s.readAheadError.pc = .steady ∧ s.readAheadError.writer = s.writer := by
  obtain ⟨e, he⟩ := s.setError_eq s.reader.internal
  unfold Channel.readAheadError
  rw [he]
  exact ⟨rfl, rfl⟩

/-- Reading has nothing to do with the write direction. -/
theorem writer_reads {o : Outcome} (hpc : s.pc.Reads) (h : s.drive o = some t) :
    writerPhase t.pc = .steady ∧ t.writer = s.writer := by
  unfold Channel.drive at h
  cases heq : s.pc with
  | inputCheck n =>
    simp only [heq] at h
    cases go_eq h
    unfold Channel.inputCheck
    split
    · split
      · exact ⟨rfl, rfl⟩
      · split <;> exact ⟨rfl, rfl⟩
    · exact ⟨rfl, rfl⟩
  | inputUnregister n =>
    simp only [heq] at h
    have step := go_eq h
    simp only [inputUnregister] at step
    split at step <;> cases step
    exact ⟨rfl, rfl⟩
  | inputWait n =>
    simp only [heq] at h
    cases o with
    | slept blocked =>
      simp only [inputWait] at h
      split at h
      · split at h
        · split at h <;> cases h
          · exact writer_readAheadError _
          · exact ⟨rfl, rfl⟩
        · cases h
      · split at h <;> cases h
        · exact writer_readAheadError s
        · exact ⟨rfl, rfl⟩
    | _ => cases h
  | readData n =>
    simp only [heq] at h
    cases go_eq h
    unfold Channel.readData
    split
    · simp only
      split
      · exact writer_finishRead _ _
      · exact ⟨rfl, rfl⟩
    · exact ⟨rfl, rfl⟩
  | peek n buf =>
    simp only [heq] at h
    cases o with
    | fail e =>
      cases h
      exact ⟨rfl, rfl⟩
    | avail k =>
      simp only [peek] at h
      split at h <;> cases h
      · exact writer_finishRead s buf
      · exact ⟨rfl, rfl⟩
    | _ => cases h
  | read n buf =>
    simp only [heq] at h
    cases o with
    | bytes bs =>
      simp only [Channel.read] at h
      split at h <;> cases h
      exact writer_finishRead _ _
    | pending => cases h; exact ⟨rfl, rfl⟩
    | fail e => cases h; exact ⟨rfl, rfl⟩
    | _ => cases h
  | readWait n buf =>
    simp only [heq] at h
    cases o with
    | bytes bs =>
      simp only [readWait] at h
      split at h <;> cases h
      exact writer_finishRead _ _
    | fail e => cases h; exact ⟨rfl, rfl⟩
    | _ => cases h
  | watchTest k =>
    simp only [heq] at h
    cases go_eq h
    unfold Channel.watchTest
    split
    · exact writer_resume s k
    · exact ⟨rfl, rfl⟩
  | watchMark k =>
    simp only [heq] at h
    cases go_eq h
    unfold Channel.watchMark
    split <;> exact ⟨rfl, rfl⟩
  | watchIssue k =>
    simp only [heq] at h
    cases o with
    | bytes bs =>
      simp only [watchIssue] at h
      split at h <;> cases h
      exact ⟨rfl, rfl⟩
    | pending => cases h; exact ⟨rfl, rfl⟩
    | fail e => cases h; exact writer_resume _ k
    | _ => cases h
  | watchRegister k =>
    simp only [heq, watchRegister] at h
    split at h
    · split at h <;> cases h
      exact writer_resume s k
    · split at h <;> cases h
      exact writer_resume _ k
    · split at h <;> cases h
      exact writer_resume _ k
    · cases h
  | watchUnregister mask =>
    simp only [heq] at h
    have step := go_eq h
    simp only [watchUnregister] at step
    split at step <;> cases step
    exact ⟨rfl, rfl⟩
  | _ =>
    rw [heq] at hpc
    exact hpc.elim

theorem Pc.writer_steady_of_reads {pc : Pc} (h : pc.Reads) : writerPhase pc = .steady := by
  cases pc <;> first | rfl | exact h.elim

/-- Calling a driver procedure does not touch the write direction. -/
theorem writer_enter {c : Call} (h : s.enter c = some t) :
    writerPhase t.pc = .steady ∧ t.writer = s.writer := by
  cases c with
  | input n =>
    obtain ⟨e, he⟩ := s.enterError_eq s.reader
    simp only [enter] at h
    split at h <;> cases h
    unfold Channel.nPipeInputProc
    rw [he]
    simp only
    split
    · exact ⟨rfl, rfl⟩
    · split <;> exact ⟨rfl, rfl⟩
  | output n =>
    obtain ⟨e, he⟩ := s.enterError_eq s.writer
    cases h
    unfold Channel.nPipeOutputProc
    rw [he]
    simp only
    split
    · exact ⟨rfl, rfl⟩
    · split
      · exact ⟨rfl, rfl⟩
      · split <;> exact ⟨rfl, rfl⟩
  | watch mask =>
    cases h
    unfold Channel.nPipeWatchProc
    split
    · split
      · exact ⟨rfl, rfl⟩
      · split <;> exact ⟨rfl, rfl⟩
    · split <;> exact ⟨rfl, rfl⟩
  | block nonblocking => cases h; exact ⟨rfl, rfl⟩
  | check =>
    cases h
    unfold Channel.nPipeCheckProc
    split <;> exact ⟨rfl, rfl⟩
  | event =>
    simp only [enter, nPipeEventProc] at h
    split at h <;> cases h
    exact ⟨rfl, rfl⟩

theorem writer_drive {o : Outcome} (h : s.drive o = some t) : s.WriterStep t := by
  by_cases hpc : s.pc.Reads
  · obtain ⟨ht, hw⟩ := writer_reads hpc h
    exact .of_stay (Pc.writer_steady_of_reads hpc) ht hw
  unfold Channel.WriterStep
  unfold Channel.drive at h
  cases heq : s.pc with
  | tcl | failed => simp only [heq] at h; cases h
  | accept =>
    simp only [heq] at h
    cases o with
    | ok => cases h; exact .connected
    | pending => cases h; exact .accept
    | fail e => cases h; exact .refused (.inl rfl)
    | _ => cases h
  | acceptRegister =>
    simp only [heq] at h
    cases o with
    | ok => cases h; exact .listen
    | fail e => cases h; exact .refused (.inr rfl)
    | _ => cases h
  | acceptMark =>
    simp only [heq] at h
    cases go_eq h
    exact .publish
  | watchWrite mask =>
    simp only [heq] at h
    cases go_eq h
    unfold Channel.watchWriteSide
    split
    · exact .stay
    · split
      · exact .cancel
      · exact .stay
  | watchUnregisterWrite =>
    simp only [heq] at h
    have step := go_eq h
    simp only [watchUnregisterWrite] at step
    split at step <;> cases step
    exact .stay
  | outputCheck n =>
    simp only [heq] at h
    cases go_eq h
    unfold Channel.outputCheck
    split
    · exact .stay
    · rename_i hs
      exact .clear hs
  | outputMark n =>
    simp only [heq] at h
    cases go_eq h
    exact .mark
  | outputIssue n =>
    simp only [heq] at h
    cases o with
    | ok => cases h; exact .instant
    | pending => cases h; exact .issue
    | fail e => cases h; exact .reject
    | _ => cases h
  | outputDone n =>
    simp only [heq] at h
    cases go_eq h
    exact .settle
  | outputRegister n =>
    simp only [heq, outputRegister] at h
    split at h
    · split at h <;> cases h
      exact .stay
    · split at h <;> cases h
      exact .register
    · split at h <;> cases h
      exact .stay
    · cases h
  | outputSync n =>
    simp only [heq] at h
    cases o with
    | avail k => cases h; exact .stay
    | fail e => cases h; exact .stay
    | _ => cases h
  | outputExchange n =>
    simp only [heq] at h
    cases go_eq h
    exact .release (by decide) (by decide)
  | eventRead =>
    simp only [heq] at h
    cases go_eq h
    obtain ⟨e, he⟩ := s.enterError_eq s.reader
    unfold Channel.eventRead
    rw [he]
    exact .stay
  | eventWrite =>
    simp only [heq] at h
    cases go_eq h
    obtain ⟨e, he⟩ := s.enterError_eq s.writer
    unfold Channel.eventWrite
    rw [he]
    exact .stay
  | eventConnect =>
    simp only [heq] at h
    cases go_eq h
    exact .stay
  | eventIdle mask =>
    simp only [heq] at h
    cases go_eq h
    exact .release (by decide) (by decide)
  | _ =>
    rw [heq] at hpc
    exact absurd trivial hpc

/-- One step, seen from the write direction; the read direction's part of a
step by another party leaves it alone. -/
theorem writer_step {a : Label} (h : s.step a = some t) :
    s.WriterStep t ∨ t.writer = s.writer ∧ t.pc = s.pc := by
  cases a with
  | call c =>
    simp only [step] at h
    split at h
    · rename_i hs
      obtain ⟨ht, hw⟩ := writer_enter h
      exact .inl (.of_stay (by rw [hs]; rfl) ht hw)
    · cases h
  | drive o =>
    simp only [step] at h
    split at h
    · cases h
    · exact .inl (writer_drive h)
  | finish d c status bs =>
    cases d with
    | reader =>
      simp only [step, kernel] at h
      split at h
      · obtain ⟨io, hio, rfl⟩ := Option.map_eq_some_iff.mp h
        exact .inr ⟨rfl, rfl⟩
      · cases h
    | writer =>
      simp only [step, kernel] at h
      split at h
      · obtain ⟨io, hio, rfl⟩ := Option.map_eq_some_iff.mp h
        exact .inl (.finish hio)
      · cases h
  | pick d =>
    obtain ⟨io, hio, rfl⟩ := Option.map_eq_some_iff.mp h
    cases d with
    | reader => exact .inr ⟨rfl, rfl⟩
    | writer => exact .inl (.pick hio)
  | sample d i =>
    obtain ⟨io, hio, rfl⟩ := Option.map_eq_some_iff.mp h
    cases d with
    | reader => exact .inr ⟨rfl, rfl⟩
    | writer => exact .inl (.sample hio)
  | exchange d i =>
    obtain ⟨io, hio, rfl⟩ := Option.map_eq_some_iff.mp h
    cases d with
    | reader => exact .inr ⟨rfl, rfl⟩
    | writer => exact .inl (.handle hio)

end Steps

end Twapi.NamedPipe
