import Twapi.NamedPipe.Reader

/-!
What `NPipeInputProc` returns to Tcl.

* `Finding` — what a call was told on its way; `Inputs` — a call, from its entry to its return,
  with its findings, while the other threads go on.
* `Channel.Inside` — what is known at each point of a call. Every step keeps it (`inside_step`).
* `Proper` — no bytes for nothing: 0 is for the end of the file, and a channel that does not
  block says `EAGAIN` when there is no byte.
* `input_proper_iff` — the calls that are so.
-/

namespace Twapi.NamedPipe

open Lib Channel

/-! ### Calls -/

/-- What tells a call that there are no bytes, or no more.

* `waiting` — the channel does not block, and the read-ahead is pending.
* `empty` — it does not block, nothing was read ahead, and `PeekNamedPipe` counts no bytes.
* `nothing` — nothing was read ahead, and a read is successful without a byte.
* `closed` — the next read-ahead could not be started because the other end is closed. -/
inductive Finding where
  | waiting
  | empty
  | nothing
  | closed
deriving DecidableEq

def Channel.found (s : Channel) : Pc → Outcome → List Finding
  | .inputCheck _, _ => if s.reader.state = .pending ∧ s.nonblocking = true then [.waiting] else []
  | .peek _ buf, .avail k => if buf = [] ∧ k = 0 ∧ s.nonblocking = true then [.empty] else []
  | .read _ buf, .bytes bs | .readWait _ buf, .bytes bs =>
    if buf = [] ∧ bs = [] then [.nothing] else []
  | .watchIssue _, .fail e => if ({ s with winerr := e } : Channel).eof then [.closed] else []
  | _, _ => []

def findings (s : Channel) : Label → List Finding
  | .drive o => s.found s.pc o
  | _ => []

/-- A call of `NPipeInputProc` with room for `n` bytes, up to its return. -/
inductive Inputs (n : Nat) : List Finding → Channel → Prop where
  | enter {s t : Channel} : pipeMachine.Reachable s → s.step (.call (.input n)) = some t →
      Inputs n [] t
  | step {fs : List Finding} {s t : Channel} {a : Label} : Inputs n fs s → s.pc ≠ .tcl →
      s.step a = some t → Inputs n (fs ++ findings s a) t

/-! ### Points of a call -/

/-- `NPipeReadData` was successful with these bytes. -/
def Drawn (n : Nat) (fs : List Finding) (buf : List UInt8) : Prop :=
  buf.length ≤ n ∧ (buf ≠ [] ∧ fs = [] ∨ buf = [] ∧ (fs = [.empty] ∨ fs = [.nothing]))

inductive Returned (n : Nat) (fs : List Finding) (t : Channel) : Prop where
  | bytes {ds : List Finding} {buf : List UInt8} : t.reply = .bytes buf → Drawn n ds buf →
      (fs = ds ∧ t.eof = false ∨ fs = ds ++ [.closed] ∧ t.eof = true) → Returned n fs t
  | waiting : fs = [.waiting] → t.reply = .again → Returned n fs t
  | eof : fs = [] → t.reply = .eof → t.eof = true → Returned n fs t
  | failed {e : Nat} : fs = [] → t.reply = .failed e → e ≠ errorSuccess → Returned n fs t
  | notConnected : fs = [] → t.reply = .notConnected → Returned n fs t

/-- Nothing was found, and there is no error. -/
def Channel.Clear (s : Channel) (fs : List Finding) : Prop := fs = [] ∧ s.winerr = errorSuccess

def Channel.Inside (s : Channel) (n : Nat) (fs : List Finding) : Prop :=
  match s.pc with
  | .tcl => Returned n fs s
  | .inputCheck m | .readData m => s.Clear fs ∧ m = n
  | .inputUnregister m | .inputWait m => (s.Clear fs ∧ m = n) ∧
      (s.reader.state = .completedWithError → s.reader.internal ≠ errorSuccess)
  | .peek m buf | .read m buf | .readWait m buf => s.Clear fs ∧ buf.length + m ≤ n
  | .watchTest (.input buf) | .watchMark (.input buf) | .watchIssue (.input buf)
  | .watchRegister (.input buf) => s.winerr = errorSuccess ∧ Drawn n fs buf
  | _ => False

section Steps

variable {s t : Channel} {n : Nat} {fs : List Finding} {buf : List UInt8}

theorem eof_of_clear (clear : s.winerr = errorSuccess) : s.eof = false := by
  simp [eof, clear, errorSuccess]

theorem drawn_nil (length : buf.length ≤ n) (some : buf ≠ []) : Drawn n [] buf :=
  ⟨length, .inl ⟨some, rfl⟩⟩

theorem returned_give (noError : s.eof = false) (drawn : Drawn n fs buf) :
    Returned n fs (s.give buf) := .bytes rfl drawn (.inl ⟨rfl, noError⟩)

theorem returned_inputError (error : s.winerr ≠ errorSuccess) : Returned n [] s.inputError := by
  by_cases closed : s.eof = true
  · exact .eof rfl (if_pos closed) closed
  · exact .failed rfl (if_neg closed) error

variable {o : Outcome} {e m : Nat}

theorem setError_ne (error : e ≠ errorSuccess) :
    (s.setError e).winerr ≠ errorSuccess := by
  unfold Channel.setError
  split
  · exact error
  · assumption

theorem inside_finishRead (clear : s.winerr = errorSuccess) (drawn : Drawn n fs buf) :
    (s.finishRead buf).Inside n fs := by
  unfold Channel.finishRead
  split
  · exact ⟨clear, drawn⟩
  · exact returned_give (eof_of_clear clear) drawn

/-! ### The owning thread -/

theorem inside_nPipeInputProc : (s.nPipeInputProc n).Inside n [] := by
  unfold Channel.nPipeInputProc
  split
  · exact .notConnected rfl rfl
  · obtain ⟨winerr, checked⟩ := s.enterError_eq s.reader
    rw [checked]
    dsimp only
    split
    · rename_i error
      exact returned_inputError error
    · rename_i clear
      exact ⟨⟨rfl, Decidable.not_not.mp clear⟩, rfl⟩

theorem inside_inputCheck (clear : s.Clear fs) :
    (s.inputCheck n).Inside n
      (fs ++ if s.reader.state = .pending ∧ s.nonblocking = true then [.waiting] else []) := by
  obtain ⟨rfl, clear⟩ := clear
  unfold Channel.inputCheck
  by_cases waits : s.reader.state = .pending ∧ s.nonblocking = true
  · rw [if_pos waits, if_pos waits.1, if_pos waits.2]
    exact .waiting rfl rfl
  · rw [if_neg waits]
    split
    · rename_i pending
      rw [if_neg fun nonblocking => waits ⟨pending, nonblocking⟩]
      have sound : s.reader.state = .completedWithError → s.reader.internal ≠ errorSuccess := by
        rw [pending]
        exact nofun
      split
      · exact ⟨⟨⟨rfl, clear⟩, rfl⟩, sound⟩
      · exact ⟨⟨⟨rfl, clear⟩, rfl⟩, sound⟩
    · exact ⟨⟨rfl, clear⟩, rfl⟩

theorem verdict_error {io : Io} (error : io.verdict = .completedWithError) :
    io.internal ≠ errorSuccess := by
  intro success
  rw [Io.verdict, if_pos success] at error
  cases error

theorem inside_inputWait (clear : s.Clear fs)
    (sound : s.reader.state = .completedWithError → s.reader.internal ≠ errorSuccess)
    (h : s.inputWait n o = some t) : t.Inside n fs := by
  obtain ⟨rfl, clear⟩ := clear
  cases o with
  | slept blocked =>
    simp only [inputWait] at h
    split at h
    · split at h
      · split at h
        · rename_i error
          cases h
          exact returned_inputError (setError_ne (verdict_error error))
        · cases h
          exact ⟨⟨rfl, clear⟩, rfl⟩
      · cases h
    · split at h
      · rename_i error
        cases h
        exact returned_inputError (setError_ne (sound error))
      · cases h
        exact ⟨⟨rfl, clear⟩, rfl⟩
  | _ => cases h

theorem inside_readData (room : 0 < n) (clear : s.Clear fs) : (s.readData n).Inside n fs := by
  obtain ⟨rfl, clear⟩ := clear
  unfold Channel.readData
  split
  · dsimp only
    split
    · exact inside_finishRead clear (drawn_nil room (List.cons_ne_nil _ _))
    · exact ⟨⟨rfl, clear⟩, Nat.le_of_eq (Nat.add_sub_cancel' room)⟩
  · exact ⟨⟨rfl, clear⟩, Nat.le_of_eq (Nat.zero_add n)⟩

/-- `PeekNamedPipe`, or a read, fails. -/
theorem inside_failed (clear : s.Clear fs) (some : e ≠ errorSuccess) :
    ({ s with winerr := e } : Channel).inputError.Inside n fs := by
  obtain ⟨rfl, -⟩ := clear
  exact returned_inputError some

theorem inside_peek (clear : s.Clear fs) (length : buf.length + m ≤ n)
    (possible : o ≠ .fail errorSuccess) (h : s.peek m buf o = some t) :
    t.Inside n (fs ++ s.found (.peek m buf) o) := by
  cases o with
  | fail e =>
    cases h
    simp only [found, List.append_nil]
    exact inside_failed clear fun same => possible (congrArg _ same)
  | avail k =>
    obtain ⟨rfl, clear⟩ := clear
    simp only [peek] at h
    split at h
    · rename_i none
      cases h
      refine inside_finishRead clear ⟨Nat.le_trans (Nat.le_add_right _ m) length, ?_⟩
      by_cases empty : buf = []
      · exact .inr ⟨empty, .inl (if_pos ⟨empty, none⟩)⟩
      · exact .inl ⟨empty, if_neg fun h => empty h.1⟩
    · rename_i there
      cases h
      refine ⟨⟨if_neg fun h => there h.2, clear⟩, Nat.le_trans ?_ length⟩
      exact Nat.add_le_add_left (Nat.min_le_right _ m) _
  | _ => cases h

theorem inside_drained {bs : List UInt8} (clear : s.Clear fs) (length : buf.length + m ≤ n)
    (fits : bs.length ≤ m) :
    (s.drained buf bs).Inside n (fs ++ if buf = [] ∧ bs = [] then [.nothing] else []) := by
  obtain ⟨rfl, clear⟩ := clear
  refine inside_finishRead clear ⟨?_, ?_⟩
  · rw [List.length_append]
    exact Nat.le_trans (Nat.add_le_add_left fits _) length
  · by_cases none : buf = [] ∧ bs = []
    · exact .inr ⟨List.append_eq_nil_iff.mpr none, .inr (if_pos none)⟩
    · exact .inl ⟨fun h => none (List.append_eq_nil_iff.mp h), if_neg none⟩

theorem inside_read (clear : s.Clear fs) (length : buf.length + m ≤ n)
    (possible : o ≠ .fail errorSuccess) (h : s.read m buf o = some t) :
    t.Inside n (fs ++ s.found (.read m buf) o) := by
  cases o with
  | fail e =>
    cases h
    simp only [found, List.append_nil]
    exact inside_failed (s := { s with reader := _ }) clear
      fun same => possible (congrArg _ same)
  | bytes bs =>
    simp only [Channel.read] at h
    split at h
    · rename_i fits
      cases h
      exact inside_drained clear length fits
    · cases h
  | pending =>
    cases h
    simp only [found, List.append_nil]
    exact ⟨clear, length⟩
  | _ => cases h

theorem inside_readWait (clear : s.Clear fs) (length : buf.length + m ≤ n)
    (possible : o ≠ .fail errorSuccess) (h : s.readWait m buf o = some t) :
    t.Inside n (fs ++ s.found (.readWait m buf) o) := by
  cases o with
  | fail e =>
    cases h
    simp only [found, List.append_nil]
    exact inside_failed (s := { s with reader := _ }) clear
      fun same => possible (congrArg _ same)
  | bytes bs =>
    simp only [readWait] at h
    split at h
    · rename_i fits
      cases h
      exact inside_drained clear length fits
    · cases h
  | _ => cases h

/-! ### NPipeWatchReads -/

theorem inside_watchTest (clear : s.winerr = errorSuccess) (drawn : Drawn n fs buf) :
    (s.watchTest (.input buf)).Inside n fs := by
  unfold Channel.watchTest
  split
  · exact returned_give (eof_of_clear clear) drawn
  · exact ⟨clear, drawn⟩

theorem inside_watchMark (clear : s.winerr = errorSuccess) (drawn : Drawn n fs buf) :
    (s.watchMark (.input buf)).Inside n fs := by
  unfold Channel.watchMark
  split
  · exact ⟨clear, drawn⟩
  · exact ⟨clear, drawn⟩

theorem inside_watchIssue (clear : s.winerr = errorSuccess) (drawn : Drawn n fs buf)
    (h : s.watchIssue (.input buf) o = some t) :
    t.Inside n (fs ++ s.found (.watchIssue (.input buf)) o) := by
  cases o with
  | pending =>
    cases h
    simp only [found, List.append_nil]
    exact ⟨clear, drawn⟩
  | bytes bs =>
    simp only [watchIssue] at h
    split at h
    · cases h
      simp only [found, List.append_nil]
      exact ⟨clear, drawn⟩
    · cases h
  | fail e =>
    cases h
    refine .bytes rfl drawn ?_
    rw [found]
    by_cases closed : ({ s with winerr := e } : Channel).eof = true
    · rw [if_pos closed]
      exact .inr ⟨rfl, closed⟩
    · rw [if_neg closed, List.append_nil]
      exact .inl ⟨rfl, eq_false_of_ne_true closed⟩
  | _ => cases h

theorem inside_watchRegister (clear : s.winerr = errorSuccess) (drawn : Drawn n fs buf)
    (h : s.watchRegister (.input buf) o = some t) : t.Inside n fs := by
  cases o with
  | go =>
    simp only [watchRegister] at h
    split at h <;> cases h
    exact returned_give (eof_of_clear clear) drawn
  | ok =>
    simp only [watchRegister] at h
    split at h <;> cases h
    exact returned_give (eof_of_clear (s := { s with reader := _ }) clear) drawn
  | refused =>
    simp only [watchRegister] at h
    split at h <;> cases h
    exact returned_give rfl drawn
  | _ => cases h

theorem inside_drive (room : 0 < n) (inside : s.Inside n fs) (possible : o ≠ .fail errorSuccess)
    (h : s.drive o = some t) :
    t.Inside n (fs ++ findings s (.drive o)) := by
  unfold Channel.Inside at inside
  unfold Channel.drive at h
  rw [findings]
  cases pc : s.pc with
  | inputCheck m =>
    simp only [pc] at h inside
    obtain ⟨clear, rfl⟩ := inside
    cases go_eq h
    exact inside_inputCheck clear
  | inputUnregister m =>
    simp only [pc] at h inside
    have step := go_eq h
    simp only [inputUnregister] at step
    split at step <;> cases step
    simp only [found, List.append_nil]
    exact inside
  | inputWait m =>
    simp only [pc] at h inside
    obtain ⟨⟨clear, rfl⟩, sound⟩ := inside
    simp only [found, List.append_nil]
    exact inside_inputWait clear sound h
  | readData m =>
    simp only [pc] at h inside
    obtain ⟨clear, rfl⟩ := inside
    cases go_eq h
    simp only [found, List.append_nil]
    exact inside_readData room clear
  | peek m buf =>
    simp only [pc] at h inside
    exact inside_peek inside.1 inside.2 possible h
  | read m buf =>
    simp only [pc] at h inside
    exact inside_read inside.1 inside.2 possible h
  | readWait m buf =>
    simp only [pc] at h inside
    exact inside_readWait inside.1 inside.2 possible h
  | watchTest k =>
    cases k with
    | input buf =>
      simp only [pc] at h inside
      cases go_eq h
      simp only [found, List.append_nil]
      exact inside_watchTest inside.1 inside.2
    | watch mask => simp only [pc] at inside
  | watchMark k =>
    cases k with
    | input buf =>
      simp only [pc] at h inside
      cases go_eq h
      simp only [found, List.append_nil]
      exact inside_watchMark inside.1 inside.2
    | watch mask => simp only [pc] at inside
  | watchIssue k =>
    cases k with
    | input buf =>
      simp only [pc] at h inside
      exact inside_watchIssue inside.1 inside.2 h
    | watch mask => simp only [pc] at inside
  | watchRegister k =>
    cases k with
    | input buf =>
      simp only [pc] at h inside
      simp only [found, List.append_nil]
      exact inside_watchRegister inside.1 inside.2 h
    | watch mask => simp only [pc] at inside
  | tcl =>
    simp only [pc] at h
    cases h
  | _ => simp only [pc] at inside

/-! ### The other threads -/

/-- Between its steps a call keeps what it knows, whatever becomes of the write direction and of
the callbacks. -/
theorem Channel.Inside.of_eq (inside : s.Inside n fs) (busy : s.pc ≠ .tcl) (pc : t.pc = s.pc)
    (winerr : t.winerr = s.winerr)
    (sound : (s.reader.state = .completedWithError → s.reader.internal ≠ errorSuccess) →
      t.reader.state = .completedWithError → t.reader.internal ≠ errorSuccess) :
    t.Inside n fs := by
  unfold Channel.Inside Channel.Clear at inside ⊢
  rw [pc, winerr]
  split at inside
  · rename_i returned
    exact absurd returned busy
  all_goals first | exact inside | exact ⟨inside.1, sound inside.2⟩

/-- A read-ahead that completes is pending. -/
theorem sound_finish {c status : Nat} {bs : List UInt8} (w : s.ReaderInv)
    (h : s.kernel .reader c status bs = some t) :
    (t.pc = s.pc ∧ t.winerr = s.winerr) ∧ t.reader.state = .pending := by
  simp only [kernel] at h
  split at h
  · obtain ⟨io, hio, rfl⟩ := Option.map_eq_some_iff.mp h
    obtain ⟨mem, -, rfl⟩ := finish_eq hio
    refine ⟨⟨rfl, rfl⟩, Decidable.byContradiction fun still => ?_⟩
    rw [w.quiet still] at mem
    cases mem
  · cases h

theorem inside_step {a : Label} (w : s.ReaderInv) (room : 0 < n) (inside : s.Inside n fs)
    (busy : s.pc ≠ .tcl) (h : s.step a = some t) : t.Inside n (fs ++ findings s a) := by
  cases a with
  | call c =>
    simp only [step, if_neg busy] at h
    cases h
  | drive o =>
    simp only [step] at h
    split at h
    · cases h
    · rename_i possible
      exact inside_drive room inside possible h
  | finish d c status bs =>
    simp only [findings, List.append_nil]
    cases d with
    | reader =>
      obtain ⟨⟨pc, winerr⟩, pending⟩ := sound_finish w h
      refine inside.of_eq busy pc winerr fun _ error => ?_
      rw [pending] at error
      cases error
    | writer =>
      simp only [step, kernel] at h
      split at h
      · obtain ⟨io, hio, rfl⟩ := Option.map_eq_some_iff.mp h
        exact inside.of_eq busy rfl rfl id
      · cases h
  | pick d =>
    simp only [findings, List.append_nil]
    obtain ⟨io, hio, rfl⟩ := Option.map_eq_some_iff.mp h
    cases d with
    | reader =>
      obtain ⟨p, -, rfl⟩ := Option.map_eq_some_iff.mp hio
      exact inside.of_eq busy rfl rfl id
    | writer => exact inside.of_eq busy rfl rfl id
  | sample d i =>
    simp only [findings, List.append_nil]
    obtain ⟨io, hio, rfl⟩ := Option.map_eq_some_iff.mp h
    cases d with
    | reader =>
      obtain ⟨p, -, rfl⟩ := Option.map_eq_some_iff.mp hio
      exact inside.of_eq busy rfl rfl id
    | writer => exact inside.of_eq busy rfl rfl id
  | exchange d i =>
    simp only [findings, List.append_nil]
    obtain ⟨io, hio, rfl⟩ := Option.map_eq_some_iff.mp h
    cases d with
    | reader =>
      have verdict := (w.handle hio).2.2
      obtain ⟨c, p, -, rfl⟩ := handle_eq hio
      exact inside.of_eq busy rfl rfl fun _ error => verdict_error (verdict.symm.trans error)
    | writer => exact inside.of_eq busy rfl rfl id

end Steps

/-! ### Main result -/

def errorPipeBusy : Nat := 231
def errorPipeNotConnected : Nat := 233

/-- `EAGAIN` of the C library. -/
def eagain : Nat := 11

section Results

variable (tclWinConvertError : Nat → Nat)

/-- What `NPipeInputProc` returns, and `*errnoP`. -/
def Reply.result : Reply → Int × Option Nat
  | .bytes bs => (bs.length, none)
  | .again => (-1, some (tclWinConvertError errorPipeBusy))
  | .notConnected => (-1, some (tclWinConvertError errorPipeNotConnected))
  | .failed e => (-1, some (tclWinConvertError e))
  | _ => (0, none)

/-- A call is told that there is no byte, and does not block. -/
def NoByte (fs : List Finding) : Prop := .waiting ∈ fs ∨ .empty ∈ fs

structure Proper (n : Nat) (fs : List Finding) (t : Channel) : Prop where
  eof : (t.reply.result tclWinConvertError).1 = 0 → t.eof = true
  again : NoByte fs → t.reply.result tclWinConvertError = (-1, some eagain)
  otherwise : ¬ NoByte fs → (t.reply.result tclWinConvertError).1 ≠ 0 →
    (∃ bs, t.reply = .bytes bs ∧ 0 < bs.length ∧ bs.length ≤ n ∧
      t.reply.result tclWinConvertError = ((bs.length : Int), none)) ∨
    ∃ e, e ≠ errorSuccess ∧ t.reply.result tclWinConvertError = (-1, some (tclWinConvertError e))

/-- No call is told by `PeekNamedPipe` that there are no bytes, and none reads no bytes unless it
finds the other end closed. -/
def Served (fs : List Finding) : Prop := .empty ∉ fs ∧ (.nothing ∈ fs → .closed ∈ fs)

variable {tclWinConvertError} {n : Nat} {fs : List Finding} {t : Channel}

/-- A call that finds nothing is proper if it returns an error or bytes. -/
theorem proper_of_result (none : ¬ NoByte fs)
    (result : (t.reply.result tclWinConvertError).1 = 0 ∧ t.eof = true ∨
      (∃ bs, t.reply = .bytes bs ∧ 0 < bs.length ∧ bs.length ≤ n) ∨
      ∃ e, e ≠ errorSuccess ∧
        t.reply.result tclWinConvertError = (-1, some (tclWinConvertError e))) :
    Proper tclWinConvertError n fs t := by
  rcases result with ⟨zero, closed⟩ | ⟨bs, reply, some, fits⟩ | ⟨e, error, result⟩
  · exact ⟨fun _ => closed, fun h => absurd h none, fun _ h => absurd zero h⟩
  · have result : t.reply.result tclWinConvertError = ((bs.length : Int), Option.none) := by
      rw [reply]
      rfl
    refine ⟨fun h => ?_, fun h => absurd h none, fun _ _ => .inl ⟨bs, reply, some, fits, result⟩⟩
    rw [result] at h
    exact absurd (Int.ofNat_eq_zero.mp h) (Nat.ne_of_gt some)
  · refine ⟨fun h => ?_, fun h => absurd h none, fun _ _ => .inr ⟨e, error, result⟩⟩
    rw [result] at h
    cases h

theorem returned_proper_iff (busy : tclWinConvertError errorPipeBusy = eagain)
    (returned : Returned n fs t) : Proper tclWinConvertError n fs t ↔ Served fs := by
  cases returned with
  | @bytes ds buf reply drawn closed =>
    obtain ⟨length, ⟨some, rfl⟩ | ⟨rfl, empty | nothing⟩⟩ := drawn
    · -- bytes, whether or not the other end is closed by now
      have fs_eq : fs = [] ∨ fs = [.closed] := closed.imp (·.1) (·.1)
      have none : ¬ NoByte fs := by rcases fs_eq with rfl | rfl <;> simp [NoByte]
      have proper : Proper tclWinConvertError n fs t := proper_of_result none
        (.inr (.inl ⟨buf, reply, List.length_pos_iff.mpr some, length⟩))
      refine iff_of_true proper ?_
      rcases fs_eq with rfl | rfl <;> simp [Served]
    · have mem : .empty ∈ fs := by
        rcases closed with ⟨rfl, -⟩ | ⟨rfl, -⟩ <;> simp [empty]
      refine iff_of_false (fun proper => ?_) fun served => served.1 mem
      have result := proper.again (.inr mem)
      rw [reply] at result
      cases result
    · rcases closed with ⟨rfl, open_⟩ | ⟨rfl, closed⟩
      · refine iff_of_false (fun proper => ?_) fun served => ?_
        · have closed := proper.eof (by rw [reply]; rfl)
          rw [open_] at closed
          cases closed
        · simp [Served, nothing] at served
      · refine iff_of_true (proper_of_result ?_ (.inl ⟨by rw [reply]; rfl, closed⟩)) ?_
        · simp [NoByte, nothing]
        · simp [Served, nothing]
  | waiting found reply =>
    subst found
    refine iff_of_true ⟨fun h => ?_, fun _ => ?_, fun h => absurd (.inl (by simp)) h⟩ ?_
    · rw [reply] at h
      cases h
    · rw [reply, Reply.result, busy]
    · simp [Served]
  | eof found reply closed =>
    subst found
    exact iff_of_true (proper_of_result (by simp [NoByte]) (.inl ⟨by rw [reply]; rfl, closed⟩))
      (by simp [Served])
  | @failed e found reply error =>
    subst found
    exact iff_of_true
      (proper_of_result (by simp [NoByte]) (.inr (.inr ⟨e, error, by rw [reply]; rfl⟩)))
      (by simp [Served])
  | notConnected found reply =>
    subst found
    exact iff_of_true
      (proper_of_result (by simp [NoByte])
        (.inr (.inr ⟨errorPipeNotConnected, by decide, by rw [reply]; rfl⟩)))
      (by simp [Served])

theorem inputs_inside (inputs : Inputs n fs t) :
    0 < n ∧ pipeMachine.Reachable t ∧ t.Inside n fs := by
  induction inputs with
  | enter reached stepped =>
    have entered := stepped
    simp only [step, enter] at entered
    split at entered
    · split at entered
      · rename_i room
        cases entered
        exact ⟨room, reached.step (a := .call (.input n)) trivial stepped, inside_nPipeInputProc⟩
      · cases entered
    · cases entered
  | @step _ _ _ a _ busy stepped ih =>
    obtain ⟨room, reached, inside⟩ := ih
    exact ⟨room, reached.step (a := a) trivial stepped,
      inside_step (reader_inv reached) room inside busy stepped⟩

/-- Every call, in any state and whatever the system calls answer. -/
theorem input_proper_iff (busy : tclWinConvertError errorPipeBusy = eagain)
    (inputs : Inputs n fs t) (returned : t.pc = .tcl) :
    Proper tclWinConvertError n fs t ↔ Served fs := by
  have inside := (inputs_inside inputs).2.2
  unfold Channel.Inside at inside
  rw [returned] at inside
  exact returned_proper_iff busy inside

end Results

instance (fs : List Finding) : Decidable (Served fs) := inferInstanceAs (Decidable (_ ∧ _))

/-- Two of three bytes on a channel that blocks, and no byte on one that does not. -/
theorem input_proper_iff_read :
    (∃ t, Proper (fun e => if e = 231 then 11 else 22) 2 [] t ∧ t.reply = .bytes [65, 66]) ∧
    ∃ t, ¬ Proper (fun e => if e = 231 then 11 else 22) 2 [.empty] t ∧ t.reply = .bytes [] := by
  have blocking : pipeMachine.Reachable (.new false) := .init ⟨false, rfl⟩
  have nonblocking := blocking.step (a := .call (.block true)) trivial rfl
  constructor
  · have enter := Inputs.enter (n := 2) blocking rfl
    have check := enter.step (a := .drive .go) nofun rfl
    have data := check.step (a := .drive .go) nofun rfl
    have peek := data.step (a := .drive (.avail 3)) nofun rfl
    have read := peek.step (a := .drive (.bytes [65, 66])) nofun rfl
    exact ⟨_, (input_proper_iff rfl read rfl).mpr (by decide), rfl⟩
  · have enter := Inputs.enter (n := 2) nonblocking rfl
    have check := enter.step (a := .drive .go) nofun rfl
    have data := check.step (a := .drive .go) nofun rfl
    have peek := data.step (a := .drive (.avail 0)) nofun rfl
    exact ⟨_, fun proper => absurd ((input_proper_iff rfl peek rfl).mp proper) (by decide), rfl⟩

/-- The other end is open and has written nothing: that is returned as the end of the file. -/
theorem empty_pipe_is_eof : ¬ ∀ (tclWinConvertError : Nat → Nat),
    tclWinConvertError errorPipeBusy = eagain → ∀ (n : Nat) (fs : List Finding) (t : Channel),
    Inputs n fs t → t.pc = .tcl → Proper tclWinConvertError n fs t := by
  intro claim
  have start : pipeMachine.Reachable (.new false) := .init ⟨false, rfl⟩
  have nonblocking := start.step (a := .call (.block true)) trivial rfl
  have enter := Inputs.enter (n := 2) nonblocking rfl
  have check := enter.step (a := .drive .go) nofun rfl
  have data := check.step (a := .drive .go) nofun rfl
  have peek := data.step (a := .drive (.avail 0)) nofun rfl
  have closed := (claim (fun e => if e = 231 then 11 else 22) rfl _ _ _ peek rfl).eof rfl
  cases closed

end Twapi.NamedPipe
