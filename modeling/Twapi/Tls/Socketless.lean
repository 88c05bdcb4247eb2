import Twapi.Tls.Rules

/-!
A channel whose socket is gone: what its driver does without it.

* `Bound` — a channel that negotiates has a socket; so a channel without one
  does not negotiate, in every run (`reaches_bound`).
* `Bears` — the calls of the driver that do without the socket in a given state.
* `socketless_bears` — these and no others complete, or fail with an error of
  their own; the others refer to the variable that is missing.
-/

namespace Twapi.Tls

open Lib Script

variable {κ α : Type} {A : Answer → Prop} {c : Chan}

/-! ### Negotiation needs a socket -/

def Bound (c : Chan) : Prop := c.tls.state.negotiable = true → c.tls.socket = true

/-- `Bound` in the block of a `dict with` that began with `entry`. -/
def BoundIn (entry : Element) (x : Element × Chan) : Prop :=
  x.1.state.negotiable = true → entry.socket = true ∧ x.1.socket = true

variable {entry : Element} {f : Element → Element} {P : Chan → Prop}

theorem BoundIn.written {x : Element × Chan} (h : BoundIn entry x) :
    Bound { x.2 with tls := writeBack entry x.1 x.2.tls } := by
  intro negotiable
  obtain ⟨hentry, hlocal⟩ := h negotiable
  change (if entry.socket then x.1.socket else x.2.tls.socket) = true
  rw [if_pos hentry]
  exact hlocal

theorem record_bound {e : Io} : Keeps A Bound (record e : Prog κ Unit) :=
  record_keeps fun _ h => h

/-- A key other than `State` and `Socket` is set. -/
theorem setDict_bound (state : ∀ t, (f t).state = t.state) (socket : ∀ t, (f t).socket = t.socket) :
    Keeps A Bound (setDict f : Prog κ Unit) := by
  apply setDict_keeps
  intro c h negotiable
  rw [socket]
  exact h (state c.tls ▸ negotiable)

/-- A state is set in which the channel does not negotiate. -/
theorem setDict_settled {E : Stop κ → Chan → Prop} (settled : ∀ t, (f t).state.negotiable = false) :
    Spec A P (setDict f : Prog κ Unit) (fun _ => Bound) E :=
  .modify fun c _ negotiable => absurd negotiable (by rw [settled]; exact Bool.false_ne_true)

theorem dictWith_bound {body : Body κ α} (h : ∀ entry, Keeps A (BoundIn entry) body) :
    Keeps A Bound (dictWith body) := by
  refine dictWith_spec fun entry => (h entry).mono (fun x hx negotiable => ?_)
    (fun _ _ hx => hx.written) (fun _ _ hx => hx.written)
  obtain ⟨copied, at_entry, bound⟩ := hx
  rw [copied] at negotiable ⊢
  have hsocket : entry.socket = true := at_entry ▸ bound (at_entry ▸ negotiable)
  exact ⟨hsocket, hsocket⟩

theorem setLocals_bound (state : ∀ t, (f t).state = t.state) (socket : ∀ t, (f t).socket = t.socket) :
    Keeps A (BoundIn entry) (setLocals f : Body κ Unit) := by
  apply setLocals_keeps
  intro l c h negotiable
  obtain ⟨hentry, hlocal⟩ := h (state l ▸ negotiable)
  exact ⟨hentry, (socket l).trans hlocal⟩

/-- What works on the element itself does not concern the variables. -/
theorem inside_bound {q : Prog κ α} (h : Keeps A (fun _ => True) q) :
    Keeps A (BoundIn entry) (Script.inside q) := by
  refine .inside fun l => ?_
  intro s w r t v hw hs run
  obtain ⟨-, hv⟩ := h s w r t v hw trivial run
  cases r with
  | ok a => exact ⟨hs, hv⟩
  | error e => exact ⟨hs, hv⟩

theorem putsToken_bound (socket : Bool) (outdata : Bytes) :
    Keeps A Bound (putsToken socket outdata : Prog κ Unit) :=
  putsToken_keeps fun _ h => h

theorem flushPendingOutput_bound : Keeps A Bound (flushPendingOutput : Prog κ Unit) :=
  dictWith_bound fun _ =>
    .bind (.gets _) fun _ => .only fun _ =>
      .bind (inside_bound (putsEncrypted_keeps fun _ _ => id)) fun _ =>
        setLocals_bound (fun _ => rfl) fun _ => rfl

theorem becomeOpen_bound (socket : Bool) : Keeps A Bound (becomeOpen socket : Prog κ Unit) := by
  apply Spec.bind (setDict_settled fun _ => rfl)
  intro _
  apply Keeps.bind (Keeps.gets _)
  intro t
  refine .bind (.only fun _ => ?_) fun _ => flushPendingOutput_bound
  exact .bind (soCommand_keeps _ _) fun _ => .bind (soCommand_keeps _ _) fun _ =>
    record_bound

theorem openChannel_bound : Keeps A Bound openChannel :=
  .bind (.gets _) fun _ => .ite (fun _ => .throw _) fun _ => becomeOpen_bound _

theorem verifierReturned_bound (socket : Bool) (result : Except String Bool) :
    Keeps A Bound (verifierReturned socket result) := by
  cases result with
  | error text => exact raise_keeps _
  | ok accepts =>
    cases accepts with
    | false => exact raise_keeps _
    | true =>
      exact .bind (.modify fun _ h => h) fun _ => .bind (.gets _) fun _ =>
        .bind (.only fun _ => raise_keeps _) fun _ => becomeOpen_bound socket

theorem trustProvider_bound : Keeps A Bound (trustProvider : Prog κ Unit) :=
  .modify fun _ h => h

theorem stepped_bound (status : StepStatus) (leftover : Bytes) :
    Keeps A Bound (stepped status leftover) := by
  cases status with
  | done =>
    refine .bind trustProvider_bound fun _ => .bind (.only fun _ => ?_) fun _ =>
      openChannel_bound
    exact .bind (sspiDecryptStream_keeps fun _ _ h => h) fun _ =>
      setDict_bound (fun _ => rfl) fun _ => rfl
  | «continue» => exact .pure _
  | other name => exact raise_keeps _

theorem negotiateTurns_bound (socket : Bool) (fuel : Nat) (status : StepStatus) (outdata : Bytes)
    (leftover : Option Bytes) :
    Keeps A Bound (negotiateTurns socket fuel status outdata leftover) :=
  negotiateTurns_keeps (fun _ _ h => h) _ _ _ _ _

theorem negotiated_bound (status : StepStatus) (leftover : Option Bytes) :
    Keeps A Bound (negotiated status leftover) := by
  cases status with
  | done =>
    apply Keeps.bind trustProvider_bound
    intro _
    cases leftover with
    | none => exact raise_keeps _
    | some leftover =>
      refine .bind (.only fun _ => ?_) fun _ => openChannel_bound
      apply Keeps.bind (sspiDecryptStream_keeps fun _ _ h => h)
      intro _
      exact .bind (setDict_bound (fun _ => rfl) fun _ => rfl) fun _ =>
        .only fun _ => raise_keeps _
  | «continue» => exact raise_keeps _
  | other name => exact raise_keeps _

theorem blockingNegotiateLoop_bound : Keeps A Bound blockingNegotiateLoop :=
  .bind (.gets _) fun _ => .bind (command_keeps _ _) fun _ =>
    .bind .patience fun _ => .bind (negotiateTurns_bound _ _ _ _ _) fun _ =>
      .bind (putsToken_bound _ _) fun _ => negotiated_bound _ _

/-- `State` becomes `NEGOTIATING` where there is a socket. -/
theorem setState_bound {state : State} {P : Stop κ → Chan → Prop} :
    Spec A (fun c => c.tls.socket = true)
      (setDict (fun t => { t with state := state }) : Prog κ Unit) (fun _ => Bound) P :=
  .modify fun _ h _ => h

theorem clientBlockingNegotiate_bound :
    Spec A (fun c => c.tls.socket = true) clientBlockingNegotiate (fun _ => Bound)
      (fun _ => Bound) := by
  refine .bind (Q := fun _ => Bound) (dictWith_spec fun entry => ?_) fun _ =>
    blockingNegotiateLoop_bound
  refine .bind (Q := fun _ => BoundIn entry) (.modify fun x hx _ => ?_) fun _ =>
    (command_keeps _ _).mono (fun _ => id) (fun _ _ hx => hx.written) (fun _ _ hx => hx.written)
  obtain ⟨copied, at_entry, hsocket⟩ := hx
  exact ⟨at_entry ▸ hsocket, by rw [copied, ← at_entry]; exact hsocket⟩

theorem serverBlockingNegotiate_bound :
    Spec A (fun c => c.tls.socket = true) serverBlockingNegotiate (fun _ => Bound)
      (fun _ => Bound) := by
  apply Spec.bind setState_bound
  intro _
  apply Keeps.bind (Keeps.gets _)
  intro _
  apply Keeps.bind (soCommand_keeps _ _)
  intro _
  apply Keeps.bind (Keeps.only fun _ => raise_keeps _)
  intro _
  exact .bind (command_keeps _ _) fun _ => blockingNegotiateLoop_bound

theorem step_stepped_bound (socket : Bool) :
    Keeps A Bound (do
      let (status, outdata, leftover) ← sspiStep
      putsToken socket outdata
      stepped status leftover) :=
  .bind (command_keeps _ _) fun _ => .bind (putsToken_bound _ _) fun _ => stepped_bound _ _

theorem negotiate2_bound : Keeps A Bound negotiate2 := by
  apply Spec.bind (Q := fun t c => t = c.tls ∧ Bound c) (Spec.gets fun c h => ⟨rfl, h⟩)
  intro t
  have bound : ∀ c, t = c.tls ∧ Bound c → Bound c := fun _ h => h.2
  have socket : t.state.negotiable = true → ∀ c, t = c.tls ∧ Bound c → c.tls.socket = true :=
    fun hstate _ h => h.2 (h.1 ▸ hstate)
  split
  case h_1 =>
    refine Spec.pre (Keeps.ite (fun _ => blockingNegotiateLoop_bound) fun _ => ?_) bound
    refine Keeps.bind (soCommand_keeps _ _) fun _ => Keeps.ite (fun _ => ?_) fun _ => ?_
    · exact Keeps.only fun _ => raise_keeps _
    · exact step_stepped_bound _
  case h_2 hstate =>
    refine Spec.pre (Spec.ite (fun _ => clientBlockingNegotiate_bound) fun _ => ?_)
      (socket (by rw [hstate]; rfl))
    apply Spec.bind setState_bound
    intro _
    apply Keeps.bind (command_keeps _ _)
    intro _
    apply Keeps.bind (command_keeps _ _)
    intro _
    apply Keeps.bind (putsToken_bound _ _)
    intro _
    exact Keeps.only fun _ => raise_keeps _
  case h_3 hstate =>
    have hsocket := socket (by rw [hstate]; rfl)
    apply Spec.ite (fun _ => Spec.pre serverBlockingNegotiate_bound hsocket)
    intro _
    refine Spec.bind (Q := fun _ c => t = c.tls ∧ Bound c) ((soCommand_keeps _ _).mono
      (fun _ => id) (fun _ _ => id) (fun _ => bound)) fun _ => Spec.ite (fun _ => ?_) fun _ => ?_
    · exact Spec.pre (Keeps.only fun _ => raise_keeps _) bound
    · apply Spec.bind (Spec.pre setState_bound hsocket)
      intro _
      exact Keeps.bind (command_keeps _ _) fun _ => step_stepped_bound _
  case h_4 => exact Spec.pre (raise_keeps _) bound

/-! ### Calls keep it so -/

theorem readMore_bound (nbytes : Nat) :
    Keeps A (BoundIn entry) (readMore nbytes) := by
  refine readMore_keeps (fun rest => ?_) nbytes
  apply Keeps.bind (inside_bound (sspiDecryptStream_keeps fun _ _ => id))
  intro _
  exact .bind (setLocals_bound (fun _ => rfl) fun _ => rfl) fun _ => rest _

/-- `read` unsets `Socket` together with the change of `State` to `CLOSED`. -/
theorem readShutdown_bound (status : StreamStatus) :
    Keeps A (BoundIn entry) (readShutdown status) := by
  have closed : ∀ {β : Type} {q : Body Pending β},
      Keeps A (fun x => x.1.state = .closed) q →
      Spec A (fun x => x.1.state = .closed) q (fun _ => BoundIn entry) (fun _ => BoundIn entry) :=
    fun h => h.mono (fun _ => id)
      (fun _ _ hx negotiable => absurd negotiable (by rw [hx]; exact Bool.false_ne_true))
      (fun _ _ hx negotiable => absurd negotiable (by rw [hx]; exact Bool.false_ne_true))
  refine Spec.bind (Q := fun _ x => x.1.state = .closed) (Spec.modify fun _ _ => rfl) fun _ =>
    closed ?_
  apply Keeps.bind (command_keeps _ _)
  intro _
  apply Keeps.bind (Keeps.gets _)
  intro _
  refine .only fun _ => .bind (.only fun _ => ?_) fun _ => ?_
  · exact .inside fun _ => putsShutdown_keeps fun _ => id
  · exact .bind (attempt_keeps (command_keeps _ _)) fun _ => setLocals_keeps fun _ _ => id

theorem readBody_bound (nbytes : Nat) : Keeps A Bound (readBody nbytes) := by
  refine .bind (dictWith_bound fun entry => ?_) fun _ => record_bound
  apply Keeps.bind (readMore_bound nbytes)
  intro _
  apply Keeps.bind (Keeps.gets _)
  intro _
  refine .bind (setLocals_bound (fun _ => rfl) fun _ => rfl) fun _ => ?_
  apply Keeps.bind (inside_bound (Keeps.gets _))
  intro _
  apply Keeps.bind (Keeps.only fun _ => inside_bound (setDict_keeps fun _ => id))
  intro _
  exact .bind (.only fun _ => readShutdown_bound _) fun _ => .pure _

theorem readNegotiated_bound (nbytes : Nat) : Keeps A Bound (readNegotiated nbytes) :=
  .bind (.gets _) fun _ => .ite
    (fun _ => .ite (fun _ => raise_keeps _) fun _ => raise_keeps _) fun _ => readBody_bound _

theorem read_bound (nbytes : Nat) : Keeps A Bound (read nbytes) := by
  apply Keeps.ite (fun _ => record_bound)
  intro _
  apply Keeps.bind expectElement_keeps
  intro _
  refine .bind (.gets _) fun _ => .ite (fun _ => ?_) fun _ => readBody_bound _
  exact .bind (negotiation_keeps negotiate2_bound) fun _ => readNegotiated_bound _

theorem writeBody_bound (data : Bytes) : Keeps A Bound (writeBody data) := by
  apply dictWith_bound
  intro entry
  apply Keeps.bind (Keeps.gets _)
  intro l
  have logged : ∀ e, Keeps A (BoundIn entry) (.inside (record e) : Body Pending Unit) :=
    fun _ => inside_bound (record_keeps fun _ => id)
  split
  · exact logged _
  · apply Keeps.bind (Keeps.only fun _ => raise_keeps _)
    intro _
    refine .bind (inside_bound ?_) fun _ => ?_
    · exact dictWith_spec fun _ => Spec.mono (Keeps.bind (Keeps.gets _) fun _ => Keeps.only fun _ =>
        Keeps.bind (Keeps.inside fun _ => putsEncrypted_keeps fun _ _ => id) fun _ =>
          setLocals_keeps fun _ _ => id) (fun _ _ => trivial) (fun _ _ => id) (fun _ _ => id)
    · exact .bind (inside_bound (putsEncrypted_keeps fun _ _ => id)) fun _ =>
        .bind (logged _) fun _ => soCommand_keeps _ _
  · exact .bind (setLocals_bound (fun _ => rfl) fun _ => rfl) fun _ => logged _

theorem writeNegotiated_bound (data : Bytes) : Keeps A Bound (writeNegotiated data) := by
  refine .bind (.gets _) fun _ => .ite (fun _ => ?_) fun _ => writeBody_bound _
  apply Keeps.ite (fun _ => raise_keeps _)
  intro _
  exact .bind (setDict_bound (fun _ => rfl) fun _ => rfl) fun _ => record_bound

theorem write_bound (data : Bytes) : Keeps A Bound (write data) := by
  apply Keeps.bind expectElement_keeps
  intro _
  apply Keeps.bind (Keeps.gets _)
  intro _
  refine .ite (fun _ => ?_) fun _ => writeBody_bound _
  exact .bind (negotiation_keeps negotiate2_bound) fun _ => writeNegotiated_bound _

theorem blocking_bound (mode : Bool) : Keeps A Bound (blocking mode) := by
  refine dictWith_bound fun _ => .bind (setLocals_bound (fun _ => rfl) fun _ => rfl) fun _ => ?_
  apply Keeps.bind (Keeps.gets _)
  intro _
  apply Keeps.only
  intro _
  exact .bind (command_keeps _ _) fun _ => .bind (command_keeps _ _) fun _ =>
    .bind (command_keeps _ _) fun _ => command_keeps _ _

theorem watch_bound (watchMask : WatchMask) : Keeps A Bound (watch watchMask) := by
  refine dictWith_bound fun _ => .bind (setLocals_bound (fun _ => rfl) fun _ => rfl) fun _ => ?_
  refine .bind (.gets _) fun _ => .bind (.only fun _ => ?_) fun _ => ?_
  · refine .bind (.only fun _ => ?_) fun _ => soCommand_keeps _ _
    exact inside_bound (setDict_keeps fun _ => id)
  · exact .only fun _ => inside_bound (setDict_keeps fun _ => id)

theorem postReadEvent_bound : Keeps A Bound (postReadEvent : Prog κ Unit) :=
  setDict_bound (fun _ => rfl) fun _ => rfl

theorem postWriteEvent_bound : Keeps A Bound (postWriteEvent : Prog κ Unit) :=
  setDict_bound (fun _ => rfl) fun _ => rfl

theorem cleanup_bound : Keeps A Bound (cleanup : Prog κ Unit) :=
  cleanup_keeps (fun _ _ h => h) fun _ h => h

theorem closeChan_bound : Keeps A Bound (closeChan : Prog κ Unit) :=
  .bind (.gets _) fun _ => .ite
    (fun _ => .bind (.modify fun _ h => h) fun _ => cleanup_bound) fun _ => raise_keeps _

theorem resume_bound (r : Return) : Keeps A Bound (resume r) := by
  unfold resume
  cases r.caller with
  | create k => exact .only fun _ => expectOpen_keeps
  | read nbytes => exact readNegotiated_bound _
  | write data => exact writeNegotiated_bound _
  | handshake => exact record_bound
  | soReadHandler => exact soReadNegotiated_keeps postReadEvent_bound
  | soWriteHandler watchMask => exact soWriteNegotiated_keeps postWriteEvent_bound _

theorem verified_bound (f : Frame) (result : Except String Bool) :
    Keeps A Bound (verified f result) :=
  .bind (negotiation_keeps (verifierReturned_bound _ _)) fun _ => resume_bound _

variable {q : Prog Pending Unit} {watchMask : WatchMask}

theorem failing_bound (caller : Caller) (h : Spec A P q (fun _ => Bound) (fun _ => Bound)) :
    Spec A P (failing caller q) (fun _ => Bound) (fun _ => Bound) := by
  apply Spec.handle h
  intro stop
  cases stop with
  | error e =>
    refine .bind ?_ fun _ => raise_keeps _
    unfold discard
    split
    · exact attempt_keeps cleanup_bound
    · exact attempt_keeps closeChan_bound
    · exact Keeps.pure _
  | pending k => exact Keeps.throw _

/-- `_negotiate` unsets `Socket` together with the change of `State` to `CLOSED`. -/
theorem trapped_bound (e : Err) : Keeps A Bound (trapped e) := by
  refine .bind (.bind (.gets _) fun _ => .only fun _ => ?_) fun _ => raise_keeps _
  refine .bind (.only fun _ => .modify fun _ h => h) fun _ => ?_
  apply Spec.bind (Q := fun _ c => c.tls.state = .closed) (Spec.modify fun _ _ => rfl)
  intro _
  apply Spec.only
  · intro _
    apply Spec.bind (attempt_command_spec _ _)
    intro _
    apply Spec.modify
    intro c h negotiable
    exact absurd negotiable (by rw [show c.tls.state = .closed from h]; exact Bool.false_ne_true)
  · intro c _ h negotiable
    exact absurd negotiable (by rw [h]; exact Bool.false_ne_true)

theorem create_bound (k : Creation) :
    Spec A (fun c => c.tls.socket = true) (create k) (fun _ => Bound) (fun _ => Bound) := by
  refine create_spec k (fun _ h _ => h) negotiate2_bound clientBlockingNegotiate_bound fun mode => ?_
  refine .mono (M := fun c => c.tls.socket = true) (N := fun _ c => c.tls.socket = true)
    (G := fun _ c => c.tls.socket = true) (dictWith_spec fun entry => ?_) (fun _ => id)
    (fun _ _ => id) (fun _ _ h _ => h)
  have written : ∀ x : Element × Chan, entry.socket = true ∧ x.1.socket = true →
      (writeBack entry x.1 x.2.tls).socket = true := fun x h => by
    change (if entry.socket then x.1.socket else x.2.tls.socket) = true
    rw [if_pos h.1]
    exact h.2
  refine .mono (M := fun x => entry.socket = true ∧ x.1.socket = true)
    (N := fun _ x => entry.socket = true ∧ x.1.socket = true)
    (G := fun _ x => entry.socket = true ∧ x.1.socket = true) ?_ (fun x h => ?_)
    (fun _ => written) (fun _ => written)
  · refine Keeps.bind (setLocals_keeps fun _ _ h => h) fun _ => Keeps.bind (Keeps.gets _) fun _ => ?_
    apply Keeps.only
    intro _
    apply Keeps.bind (command_keeps _ _)
    intro _
    exact .bind (command_keeps _ _) fun _ => .bind (command_keeps _ _) fun _ =>
      command_keeps _ _
  · have hentry : entry.socket = true := h.2.1 ▸ h.2.2
    exact ⟨hentry, h.1 ▸ hentry⟩

/-! ### Runs -/

/-- `Bound`; and a channel that is being created has its socket. -/
structure Anchored (s : Conn) : Prop where
  bound : Bound s.chan
  creating : ∀ k, s.pc = .creating k → s.chan.tls.socket = true

theorem settle_anchored {frames : List Frame} {w : List Answer} {s : Conn}
    (h : Spec (fun _ => True) P q (fun _ => Bound) (fun _ => Bound)) (hc : P c)
    (run : settle frames (q c w) = some s) : Anchored s where
  bound := settle_spec (fun _ _ => id) h (fun _ _ => trivial) hc run
  creating k hk := by
    unfold settle at run
    split at run <;> cases run <;> cases hk

theorem enter_bound (call : Call) : Keeps A Bound (enter call) := by
  cases call with
  | read nbytes => exact read_bound _
  | write data => exact write_bound _
  | blocking mode => exact .bind expectElement_keeps fun _ => blocking_bound _
  | watch watchMask => exact .bind expectElement_keeps fun _ => watch_bound _
  | finalize => exact .bind (.modify fun _ h => h) fun _ => cleanup_bound
  | handshake => exact handshake_keeps negotiate2_bound fun _ => record_bound
  | closeWrite =>
    exact closeWrite_keeps flushPendingOutput_bound (setDict_bound (fun _ => rfl) fun _ => rfl)
  | soReadHandler => exact soReadHandler_keeps negotiate2_bound postReadEvent_bound
  | soWriteHandler => exact soWriteHandler_keeps negotiate2_bound postWriteEvent_bound
  | postReadEventCallback | postWriteEventCallback =>
    apply Keeps.bind (Keeps.gets _)
    intro _
    apply Keeps.only
    intro _
    exact setDict_bound (fun _ => rfl) fun _ => rfl
  | cleanupFailedAccept =>
    exact .bind (.modify fun _ h => h) fun _ => .bind (.gets _) fun _ =>
      .only fun _ => closeChan_bound

theorem anchored_step {s u : Conn} {a : Label} (anchored : Anchored s)
    (h : machine.step s a = some u) : Anchored u := by
  change step s a = some u at h
  unfold step at h
  split at h
  · split at h
    · rename_i k hpc
      exact settle_anchored (failing_bound _ (create_bound k)) (anchored.creating k hpc) h
    · cases h
  · split at h
    · exact settle_anchored (enter_bound _) anchored.bound h
    · cases h
  · split at h
    · exact settle_anchored (failing_bound _ (trapped_bound _)) anchored.bound h
    · cases h
  · split at h
    · exact settle_anchored (failing_bound _ (verified_bound _ _)) anchored.bound h
    · cases h

/-- In every run a channel without a socket is not negotiating. -/
theorem reaches_bound {s : Conn} (run : machine.Reachable s) : Bound s.chan := by
  refine Anchored.bound (run.invariant (P := Anchored) ?_ fun s a u anchored _ h =>
    anchored_step anchored h)
  rintro s ⟨k, blocking, verifier, freeCredentials, rfl⟩
  exact ⟨fun _ => rfl, fun _ _ => rfl⟩

/-! ### The driver without a socket -/

/-- The entry points of the driver. -/
def Call.ofDriver : Call → Bool
  | .watch _ | .blocking _ | .read _ | .write _ | .finalize => true
  | _ => false

/-- The call ends; it completes, or fails with an error that is not about
something missing. -/
structure Reports (c : Chan) (call : Call) : Prop where
  ends : ∃ w r d, enter call c w = some (r, d, [])
  reports : ∀ w r d v, enter call c w = some (r, d, v) →
    r = .ok () ∨ ∃ e, r = .error (.error e) ∧ ∀ name, e ≠ .missing name

/-- The calls that do without the socket. Reads of the socket are not watched; the
connection is not open, or `read` finds enough in `Input`, or `write` is disabled. -/
def Bears (c : Chan) : Call → Prop
  | .watch watchMask => watchMask.read = false
  | .read nbytes =>
    ¬ (c.tls.state = .opened ∧ c.tls.input.length < nbytes ∧
      (c.tls.blocking = true → c.tls.input = []))
  | .write _ => c.tls.state = .opened → c.tls.writeDisabled = true
  | _ => True

/-- A call that asks nothing of the environment. -/
theorem Reports.of_silent {call : Call} (r : Except (Stop Pending) Unit)
    (h : ∀ w, ∃ d, enter call c w = some (r, d, w))
    (clean : r = .ok () ∨ ∃ e, r = .error (.error e) ∧ ∀ name, e ≠ .missing name) :
    Reports c call where
  ends := by
    obtain ⟨d, hd⟩ := h []
    exact ⟨[], r, d, hd⟩
  reports w r' d' v run := by
    obtain ⟨d, hd⟩ := h w
    rw [hd] at run
    cases run
    exact clean

theorem Reports.not_missing {call : Call} {w v : List Answer} {d : Chan} {name : Variable}
    (h : Reports c call) : enter call c w ≠ some (.error (.error (.missing name)), d, v) := by
  intro run
  rcases h.reports _ _ _ _ run with hok | ⟨e, he, clean⟩
  · cases hok
  · cases he
    exact clean name rfl

theorem blocking_reports (present : c.present = true) (gone : c.tls.socket = false) (mode : Bool) :
    Reports c (.blocking mode) := by
  obtain ⟨_, _, ⟨_, _, _, _, _, _, _, _, _, _, _, _, _, _⟩, _, _, _⟩ := c
  subst present gone
  exact .of_silent (.ok ()) (fun w => ⟨_, rfl⟩) (.inl rfl)

theorem watch_reports (present : c.present = true) (unwatched : watchMask.read = false) :
    Reports c (.watch watchMask) := by
  obtain ⟨_, _, ⟨_, state, _, _, _, _, _, _, _, _, _, _, _, _⟩, _, _, _⟩ := c
  obtain ⟨_, write⟩ := watchMask
  subst present unwatched
  refine .of_silent (.ok ()) (fun w => ?_) (.inl rfl)
  cases write <;> cases state <;> exact ⟨_, rfl⟩

theorem watch_misses (present : c.present = true) (gone : c.tls.socket = false)
    (watched : watchMask.read = true) :
    ∃ d, enter (.watch watchMask) c [] = some (.error (.error (.missing .socket)), d, []) := by
  obtain ⟨_, _, ⟨_, _, _, _, _, _, _, _, _, input, _, _, _, _⟩, _, _, _⟩ := c
  obtain ⟨_, _⟩ := watchMask
  subst present gone watched
  cases input <;> exact ⟨_, rfl⟩

theorem write_reports (present : c.present = true) (settled : c.tls.state.negotiable = false)
    (bears : c.tls.state = .opened → c.tls.writeDisabled = true) (data : Bytes) :
    Reports c (.write data) := by
  obtain ⟨_, _, ⟨_, state, _, _, _, disabled, _, _, _, _, _, _, _, _⟩, _, _, _⟩ := c
  subst present
  cases state with
  | opened =>
    rw [show disabled = true from bears rfl]
    refine .of_silent (.error (.error (.message "Channel closed for output.")))
      (fun w => ⟨_, rfl⟩) (.inr ⟨_, rfl, nofun⟩)
  | listenerInit | closed => exact .of_silent (.ok ()) (fun w => ⟨_, rfl⟩) (.inl rfl)
  | serverInit | clientInit | negotiating => cases settled

theorem write_misses (present : c.present = true) (gone : c.tls.socket = false)
    (isOpen : c.tls.state = .opened) (enabled : c.tls.writeDisabled = false) (data : Bytes) :
    ∃ d, enter (.write data) c [] = some (.error (.error (.missing .socket)), d, []) := by
  obtain ⟨_, _, ⟨_, _, _, _, _, _, _, _, _, _, output, _, _, _⟩, _, _, _⟩ := c
  subst present gone isOpen enabled
  cases output <;> exact ⟨_, rfl⟩

section Read

variable {t : Element} {nbytes : Nat} {w : List Answer}

theorem readMore_apply :
    readMore nbytes (t, c) w =
      if (decide (t.input.length < nbytes) && decide (t.state = .opened)) = true then
        if t.blocking = true then readTurns (w.length + 1) .ok (t, c) w else readAvailable (t, c) w
      else some (.ok .ok, (t, c), w) := by
  change (ite _ (ite _ (.patience >>= _) _) (Pure.pure _) : Body Pending StreamStatus) (t, c) w =
    _
  split
  · split <;> rfl
  · rfl

/-- Without a socket more bytes can only come from `Input`. -/
theorem readMore_reports (idle : ¬ (t.state = .opened ∧ t.input.length < nbytes ∧
    (t.blocking = true → t.input = []))) :
    readMore nbytes (t, c) w = some (.ok .ok, (t, c), w) := by
  rw [readMore_apply]
  split
  · rename_i more
    obtain ⟨few, isOpen⟩ := Bool.and_eq_true_iff.mp more
    have blocked : t.blocking = true ∧ t.input ≠ [] := by
      by_contra h
      exact idle ⟨of_decide_eq_true isOpen, of_decide_eq_true few,
        fun hb => by_contra fun hi => h ⟨hb, hi⟩⟩
    obtain ⟨b, rest, hinput⟩ := List.exists_cons_of_ne_nil blocked.2
    rw [if_pos blocked.1]
    obtain ⟨_, _, _, _, _, _, _, _, _, input, _, _, _, _⟩ := t
    rw [show input = b :: rest from hinput]
    rfl
  · rfl

theorem readMore_misses (gone : t.socket = false) (isOpen : t.state = .opened)
    (few : t.input.length < nbytes) (blocked : t.blocking = true → t.input = []) :
    readMore nbytes (t, c) w = some (.error (.error (.missing .socket)), (t, c), w) := by
  rw [readMore_apply,
    if_pos (Bool.and_eq_true_iff.mpr ⟨decide_eq_true few, decide_eq_true isOpen⟩)]
  obtain ⟨_, _, _, blocking, _, _, _, _, _, input, _, _, _, _⟩ := t
  subst gone
  cases blocking with
  | false => rfl
  | true =>
    rw [show input = [] from blocked rfl]
    rfl

theorem readBody_reports (idle : ¬ (c.tls.state = .opened ∧ c.tls.input.length < nbytes ∧
    (c.tls.blocking = true → c.tls.input = []))) :
    ∃ d, readBody nbytes c w = some (.ok (), d, w) := by
  have posts : ∀ (b : Bool) (l : Element), ∃ d,
      Script.only b (Script.inside postReadEvent : Body Pending Unit) (l, c) w =
        some (.ok (), (l, d), w) := fun b l => by cases b <;> exact ⟨_, rfl⟩
  obtain ⟨d, hposts⟩ := posts (c.tls.watchMask.read && !(c.tls.input.drop nbytes).isEmpty)
    { c.tls with input := c.tls.input.drop nbytes }
  have block : readBlock nbytes (c.tls, c) w = some (.ok (c.tls.input.take nbytes),
      ({ c.tls with input := c.tls.input.drop nbytes }, d), w) :=
    (Script.bind_ok (readMore_reports idle)).trans <|
      (Script.bind_ok rfl).trans <| (Script.bind_ok rfl).trans <| (Script.bind_ok rfl).trans <|
        Script.bind_ok hposts
  exact ⟨_, Script.bind_ok (Script.within_of_body block)⟩

theorem readBody_misses (gone : c.tls.socket = false) (isOpen : c.tls.state = .opened)
    (few : c.tls.input.length < nbytes) (blocked : c.tls.blocking = true → c.tls.input = []) :
    ∃ d, readBody nbytes c w = some (.error (.error (.missing .socket)), d, w) :=
  ⟨_, Script.bind_error (Script.within_of_body
    (Script.bind_error (readMore_misses gone isOpen few blocked)))⟩

/-- A channel that does not negotiate is read from at once. -/
theorem enter_read (present : c.present = true) (settled : c.tls.state.negotiable = false)
    (some_bytes : nbytes ≠ 0) : enter (.read nbytes) c w = readBody nbytes c w := by
  obtain ⟨_, _, ⟨_, state, _, _, _, _, _, _, _, _, _, _, _, _⟩, _, _, _⟩ := c
  subst present
  cases nbytes with
  | zero => exact absurd rfl some_bytes
  | succ n =>
    cases state with
    | opened | listenerInit | closed => rfl
    | serverInit | clientInit | negotiating => cases settled

theorem read_reports (present : c.present = true) (settled : c.tls.state.negotiable = false)
    (idle : Bears c (.read nbytes)) : Reports c (.read nbytes) := by
  refine .of_silent (.ok ()) (fun w => ?_) (.inl rfl)
  by_cases none : nbytes = 0
  · subst none
    exact ⟨_, rfl⟩
  · rw [enter_read present settled none]
    exact readBody_reports idle

end Read

/-- `_cleanup` asks whether there is a socket. -/
theorem finalize_reports (gone : c.tls.socket = false) : Reports c .finalize where
  ends := by
    obtain ⟨_, present, ⟨_, state, _, _, _, _, _, _, free, _, _, _, _, _⟩, _, _, _⟩ := c
    subst gone
    cases present with
    | false => exact ⟨[], _, _, rfl⟩
    | true =>
      refine ⟨(if state = .opened then [.bytes []] else []) ++ [.done] ++
        if free then [.done] else [], ?_⟩
      cases state <;> cases free <;> exact ⟨_, _, rfl⟩
  reports w r d v run := by
    have own : Spec (fun _ => True) (fun _ => True) (finalize : Prog Pending Unit) (fun _ _ => True)
        (fun stop _ => ∃ text, stop = .error (.command text)) := by
      have silent : ∀ {name}, Spec (fun _ => True) (fun _ => True)
          (attempt (command name Answer.done?) : Prog Pending Unit) (fun _ _ => True)
          (fun stop _ => ∃ text, stop = .error (.command text)) := attempt_command_spec _ _
      apply Spec.bind (Q := fun _ _ => True) (Spec.modify fun _ _ => trivial)
      intro _
      apply Spec.bind (Q := fun _ _ => True) (Spec.gets fun _ _ => trivial)
      intro c
      refine .only (fun _ => ?_) fun _ _ _ => trivial
      refine .bind (Q := fun _ _ => True) (.only (fun _ => ?_) fun _ _ _ => trivial) fun _ => ?_
      · refine .bind (Q := fun _ _ => True) ((command_spec _ _).mono (fun _ => id)
          (fun _ _ => id) (fun _ _ h => h.2)) fun outdata => .only (fun _ => ?_) fun _ _ _ => trivial
        refine attempt_spec (.bind (Q := fun _ _ => True) ((command_spec _ _).mono (fun _ => id)
          (fun _ _ => id) (fun _ _ h => h.2)) fun _ => record_spec fun _ _ => trivial)
          fun _ _ _ => trivial
      · apply Spec.bind (Q := fun _ _ => True) silent
        intro _
        refine .bind (Q := fun _ _ => True) (.only (fun _ => silent) fun _ _ _ => trivial)
          fun _ => ?_
        refine .bind (Q := fun _ _ => True) (.only (fun _ => silent) fun _ _ _ => trivial)
          fun _ => ?_
        exact .modify fun _ _ => trivial
    have meets := (own c w r d v (fun _ _ => trivial) trivial run).1
    cases r with
    | ok a => exact .inl rfl
    | error stop =>
      obtain ⟨text, rfl⟩ := meets
      exact .inr ⟨_, rfl, nofun⟩

/-- Without a socket, exactly these calls of the driver complete or fail with an
error of their own; the others refer to the missing variable. -/
theorem socketless_bears {s : Conn} (run : machine.Reachable s) (present : s.chan.present = true)
    (gone : s.chan.tls.socket = false) {call : Call} (driver : call.ofDriver = true) :
    Reports s.chan call ↔ Bears s.chan call := by
  have settled : s.chan.tls.state.negotiable = false := by
    cases hn : s.chan.tls.state.negotiable with
    | false => rfl
    | true => exact absurd (reaches_bound run hn) (by rw [gone]; exact Bool.false_ne_true)
  cases call with
  | watch watchMask =>
    constructor
    · intro reports
      cases watched : watchMask.read with
      | false => exact watched
      | true =>
        obtain ⟨d, hd⟩ := watch_misses present gone watched
        exact absurd hd reports.not_missing
    · exact watch_reports present
  | blocking mode => exact ⟨fun _ => trivial, fun _ => blocking_reports present gone mode⟩
  | read nbytes =>
    refine ⟨fun reports idle => ?_, read_reports present settled⟩
    have some_bytes : nbytes ≠ 0 := by
      rintro rfl
      exact absurd idle.2.1 (Nat.not_lt_zero _)
    obtain ⟨d, hd⟩ := readBody_misses (w := []) gone idle.1 idle.2.1 idle.2.2
    rw [← enter_read present settled some_bytes] at hd
    exact reports.not_missing hd
  | write data =>
    refine ⟨fun reports isOpen => ?_, fun bears => write_reports present settled bears data⟩
    cases enabled : s.chan.tls.writeDisabled with
    | true => rfl
    | false =>
      obtain ⟨d, hd⟩ := write_misses present gone isOpen enabled data
      exact absurd hd reports.not_missing
  | finalize => exact ⟨fun _ => trivial, fun _ => finalize_reports gone⟩
  | _ => cases driver

/-- A client whose peer has closed the connection. -/
def ended : List Label :=
  [.create [.done, .done, .done, .done, .done, .step .«continue» [1] [], .done, .done],
    .call .soReadHandler [.data [2] false, .step .done [] [], .done],
    .call (.read 4) [.data [] true, .bytes [], .done]]

theorem socketless_bears_ended :
    ∃ s : Conn, s.chan.present = true ∧ s.chan.tls.socket = false ∧
      (Reports s.chan (.read 4) ↔ Bears s.chan (.read 4)) := by
  obtain ⟨s, run, present, gone⟩ := Machine.Reaches.exists_of_run (M := machine)
    (G := fun _ _ => True) ended
    (fun s => s.chan.present = true ∧ s.chan.tls.socket = false)
    ⟨.starttlsClient, false, false, true, rfl⟩ (by decide)
  exact ⟨s, present, gone, socketless_bears run present gone rfl⟩

/-- `watch` refers to the socket of a connection that the peer has closed. -/
theorem watch_refers_to_missing_socket :
    ¬ ∀ s, machine.Reachable s → s.chan.present = true → s.chan.tls.socket = false →
      ∀ call : Call, call.ofDriver = true → Reports s.chan call := by
  intro claim
  obtain ⟨s, run, present, gone⟩ := Machine.Reaches.exists_of_run (M := machine)
    (G := fun _ _ => True) ended
    (fun s => s.chan.present = true ∧ s.chan.tls.socket = false)
    ⟨.starttlsClient, false, false, true, rfl⟩ (by decide)
  have watched : (⟨true, false⟩ : WatchMask).read = true := rfl
  obtain ⟨d, hd⟩ := watch_misses present gone watched
  exact (claim s run present gone (.watch ⟨true, false⟩) rfl).not_missing hd

end Twapi.Tls
