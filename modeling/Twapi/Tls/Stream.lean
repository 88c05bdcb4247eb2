import Twapi.Tls.Rules

/-!
The two streams of a channel: no byte is lost, repeated or reordered.

* `FlowAs`, `Flow` — what was encrypted and sent, followed by `Output`, is what
  `write` took; what `read` returned, followed by `Input`, is what was decrypted.
* `Flushed` — moreover an open channel has no output pending.
* `Smooth` — the guard: `write` finds no pending output in an open channel, and
  in a `read` that ends the stream the provider's shutdown does not fail.
* `reaches_flow` — the streams are exact in every run that meets the guard.

Data that `write` throws away because the channel is closed is not in the
stream. The first half of the guard is needed because `write` writes back the
copy of `Output` it had before it called `_flush_pending_output`, the second
because `read` has taken its bytes from `Input` when the shutdown fails.
-/

namespace Twapi.Tls

open Lib Script

variable {κ α : Type} {A : Answer → Prop} {t : Element} {c : Chan}

/-! ### Streams -/

def Io.transmittedData : Io → Bytes
  | .transmitted data _ => data
  | _ => []

def Io.wroteData : Io → Bytes
  | .wrote data => data
  | _ => []

def Io.decryptedData : Io → Bytes
  | .decrypted plaintext => plaintext
  | _ => []

/-- What was given to encryption and written to the socket. -/
def Chan.transmitted (c : Chan) : Bytes := c.log.flatMap Io.transmittedData

/-- What the script wrote. -/
def Chan.wrote (c : Chan) : Bytes := c.log.flatMap Io.wroteData

def Chan.decrypted (c : Chan) : Bytes := c.log.flatMap Io.decryptedData

@[simp] theorem Chan.transmitted_logged (c : Chan) (e : Io) :
    (c.logged e).transmitted = c.transmitted ++ e.transmittedData := by
  simp [Chan.transmitted, Chan.logged]

@[simp] theorem Chan.wrote_logged (c : Chan) (e : Io) :
    (c.logged e).wrote = c.wrote ++ e.wroteData := by
  simp [Chan.wrote, Chan.logged]

@[simp] theorem Chan.decrypted_logged (c : Chan) (e : Io) :
    (c.logged e).decrypted = c.decrypted ++ e.decryptedData := by
  simp [Chan.decrypted, Chan.logged]

/-- The streams of `c` when its element is, or is about to be, `t`. -/
structure FlowAs (t : Element) (c : Chan) : Prop where
  outbound : c.transmitted ++ t.output = c.wrote
  inbound : c.returned ++ t.input = c.decrypted

def Flow (c : Chan) : Prop := FlowAs c.tls c

/-- The streams flow, and an open channel has sent its output. -/
def Flushed (c : Chan) : Prop := Flow c ∧ (c.tls.state = .opened → c.tls.output = [])

/-- The streams flow, and the channel negotiates. -/
def Negotiating (c : Chan) : Prop := Flow c ∧ c.tls.state.negotiable = true

theorem Negotiating.flushed (h : Negotiating c) : Flushed c :=
  ⟨h.1, fun hs => absurd h.2 (by rw [hs]; exact Bool.false_ne_true)⟩

variable {u entry : Element}

theorem FlowAs.congr (h : FlowAs t c) (output : u.output = t.output) (input : u.input = t.input) :
    FlowAs u c :=
  ⟨by rw [output]; exact h.outbound, by rw [input]; exact h.inbound⟩

/-- The streams do not look at the channel's own element. -/
theorem FlowAs.setTls (h : FlowAs t c) (u : Element) : FlowAs t { c with tls := u } :=
  ⟨h.outbound, h.inbound⟩

theorem FlowAs.written {entry l : Element} (h : FlowAs l c) :
    Flow { c with tls := writeBack entry l c.tls } :=
  (h.congr (u := writeBack entry l c.tls) rfl rfl).setTls _

/-- The streams, in the block of a `dict with`. -/
def Block (x : Element × Chan) : Prop := FlowAs x.1 x.2

/-- The streams while `read` holds bytes that it took from the front of `Input`. -/
def Holding (ret : Bytes) (x : Element × Chan) : Prop :=
  FlowAs { x.1 with input := ret ++ x.1.input } x.2

variable {P : Stop κ → Chan → Prop} {q : Prog Pending Unit} {x : Element × Chan}

/-- The block of a `dict with` begins with a copy of the element. -/
theorem Block.start (copied : x.1 = entry) (at_entry : x.2.tls = entry) (h : Flow x.2) :
    Block x := by
  unfold Block
  rw [copied, ← at_entry]
  exact h

theorem Block.written (h : Block x) :
    Flow { x.2 with tls := writeBack entry x.1 x.2.tls } := FlowAs.written h

theorem Holding.congr {ret : Bytes} (h : Holding ret (t, c)) (output : u.output = t.output)
    (input : u.input = t.input) : Holding ret (u, c) :=
  FlowAs.congr (u := { u with input := ret ++ u.input }) h output (congrArg (ret ++ ·) input)

/-- Entries that are not of a stream. -/
def Io.silent : Io → Bool
  | .transmitted _ _ | .wrote _ | .decrypted _ | .returned _ => false
  | .sent _ | .discarded _ | .handshake _ | .accepted | .raised _ => true

/-- What an entry adds to the streams is taken from what was pending, or put behind it. -/
theorem FlowAs.after {e : Io} (h : FlowAs t c)
    (outbound : e.transmittedData ++ u.output = t.output ++ e.wroteData)
    (inbound : e.plaintext ++ u.input = t.input ++ e.decryptedData) : FlowAs u (c.logged e) where
  outbound := by
    rw [Chan.transmitted_logged, Chan.wrote_logged, List.append_assoc, outbound,
      ← List.append_assoc, h.outbound]
  inbound := by
    rw [Chan.returned_logged, Chan.decrypted_logged, List.append_assoc, inbound,
      ← List.append_assoc, h.inbound]

theorem FlowAs.logged {e : Io} (h : FlowAs t c) (silent : e.silent = true) :
    FlowAs t (c.logged e) := by
  cases e with
  | sent | discarded | handshake | accepted | raised =>
    exact h.after (List.append_nil _).symm (List.append_nil _).symm
  | transmitted | wrote | decrypted | returned => cases silent

/-- Output is sent, from the front. -/
theorem FlowAs.transmit (h : FlowAs t c) (cipher : Bytes) :
    FlowAs { t with output := [] } (c.logged (.transmitted t.output cipher)) :=
  h.after rfl (List.append_nil _).symm

/-- Data is written behind the output that is pending. -/
theorem FlowAs.store (h : FlowAs t c) (data : Bytes) :
    FlowAs { t with output := t.output ++ data } (c.logged (.wrote data)) :=
  h.after rfl (List.append_nil _).symm

/-- With no output pending, data can be sent at once. -/
theorem FlowAs.send (h : FlowAs t c) (empty : t.output = []) (data cipher : Bytes) :
    FlowAs t ((c.logged (.transmitted data cipher)).logged (.wrote data)) where
  outbound := by
    have outbound := h.outbound
    rw [empty] at outbound
    simp [Io.transmittedData, Io.wroteData, empty, ← outbound]
  inbound := by
    simpa [Io.plaintext, Io.decryptedData] using h.inbound

/-- Plaintext is decrypted behind the input that is there. -/
theorem FlowAs.decrypt (h : FlowAs t c) (plaintext : Bytes) :
    FlowAs { t with input := t.input ++ plaintext } (c.logged (.decrypted plaintext)) :=
  h.after (List.append_nil _).symm rfl

/-- Bytes that `read` holds are returned before the rest of the input. -/
theorem FlowAs.return {ret : Bytes} (h : FlowAs { t with input := ret ++ t.input } c) :
    FlowAs t (c.logged (.returned ret)) :=
  h.after (List.append_nil _).symm (List.append_nil _).symm

/-! ### Commands -/

theorem record_flow {e : Io} (silent : e.silent = true) : Keeps A Flow (record e : Prog κ Unit) :=
  record_keeps fun _ h => FlowAs.logged h silent

theorem setDict_flow {f : Element → Element} (output : ∀ t, (f t).output = t.output)
    (input : ∀ t, (f t).input = t.input) : Keeps A Flow (setDict f : Prog κ Unit) :=
  setDict_keeps fun _ h => (FlowAs.congr h (output _) (input _)).setTls _

theorem dictWith_flow {body : Body κ α} (h : Keeps A Block body) :
    Keeps A Flow (dictWith body) :=
  dictWith_keeps (J := FlowAs) (fun _ _ _ hl => hl.written) h

theorem putsToken_flow (socket : Bool) (outdata : Bytes) :
    Keeps A Flow (putsToken socket outdata : Prog κ Unit) :=
  putsToken_keeps fun _ h => FlowAs.logged h rfl

theorem sspiDecryptStream_spec {P : Chan → Prop} {Q : Bytes → Chan → Prop}
    (h : ∀ plaintext c, P c → Q plaintext (c.logged (.decrypted plaintext))) :
    Spec A P (sspiDecryptStream : Prog κ (StreamStatus × Bytes)) (fun a => Q a.2) (fun _ => P) :=
  .bind (Q := fun _ => P) (command_keeps _ _) fun a =>
    .bind (Q := fun _ => Q a.2) (record_spec (h a.2)) fun _ => .pure fun _ => id

theorem putsEncrypted_spec {P Q : Chan → Prop} {socket : Bool} {data : Bytes}
    (h : ∀ cipher c, P c → Q (c.logged (.transmitted data cipher))) :
    Spec A P (putsEncrypted socket data : Prog κ Unit) (fun _ => Q) (fun _ => P) :=
  Spec.bind (Q := fun _ => P) (Keeps.only fun _ => raise_keeps _) fun _ =>
    .bind (Q := fun _ => P) (command_keeps _ _) fun cipher =>
      .bind (Q := fun _ => P) (soCommand_keeps _ _) fun _ => record_spec (h cipher)

/-- `_flush_pending_output` leaves no output, unless it fails. -/
theorem flushPendingOutput_spec :
    Spec A Flow (flushPendingOutput : Prog κ Unit) (fun _ c => Flow c ∧ c.tls.output = [])
      (fun _ => Flow) := by
  apply dictWith_spec
  intro entry
  refine .bind (Q := fun l x => x.1 = l ∧ Block x)
    (.gets fun x h => ⟨rfl, .start h.1 h.2.1 h.2.2⟩) fun l => ?_
  refine .mono (N := fun _ x => Block x ∧ x.1.output = []) (M := fun x =>
    x.1 = l ∧ Block x) (G := fun _ => Block) ?_ (fun _ => id)
    (fun _ x h => ⟨h.1.written, h.2⟩) (fun _ x h => h.written)
  refine .only (fun _ => ?_) fun x empty h => ⟨h.2, ?_⟩
  · refine .bind (Q := fun _ x => FlowAs { x.1 with output := [] } x.2)
      (.inside fun u => ?_) fun _ =>
        .modify fun x (h : FlowAs { x.1 with output := [] } x.2) => ⟨h, rfl⟩
    refine (putsEncrypted_spec (P := fun c => u = l ∧ FlowAs u c)
      (Q := fun c => FlowAs { u with output := [] } c) fun cipher c h => ?_).mono (fun _ => id)
      (fun _ _ => id) (fun _ _ h => h.2)
    rw [← h.1]
    exact h.2.transmit cipher
  · rw [h.1]
    simpa using empty

/-! ### Negotiation -/

theorem becomeOpen_flow (socket : Bool) :
    Spec A Flow (becomeOpen socket : Prog κ Unit) (fun _ => Flushed) (fun _ => Flow) := by
  refine .bind (Q := fun _ => Flow) (setDict_flow (fun _ => rfl) fun _ => rfl) fun _ => ?_
  apply Spec.bind (Q := fun _ => Flow) (Keeps.gets _)
  intro t
  refine Spec.bind (Q := fun _ => Flow) (Keeps.only fun _ => ?_) fun _ => ?_
  · exact .bind (soCommand_keeps _ _) fun _ => .bind (soCommand_keeps _ _) fun _ =>
      record_flow rfl
  · exact flushPendingOutput_spec.mono (fun _ => id) (fun _ _ h => ⟨h.1, fun _ => h.2⟩)
      (fun _ _ => id)

theorem openChannel_flow :
    Spec A Flow openChannel (fun _ => Flushed) (fun _ => Flow) :=
  Spec.bind (Q := fun _ => Flow) (Keeps.gets _) fun _ =>
    .ite (fun _ => .throw fun _ => id) fun _ => becomeOpen_flow _

theorem verifierReturned_flow (socket : Bool) (result : Except String Bool) :
    Spec A Flow (verifierReturned socket result) (fun _ => Flushed) (fun _ => Flow) := by
  cases result with
  | error text => exact raise_spec fun _ => id
  | ok accepts =>
    cases accepts with
    | false => exact raise_spec fun _ => id
    | true =>
      refine .bind (Q := fun _ => Flow) (.modify fun c h => ?_) fun _ => ?_
      · exact ⟨h.outbound, h.inbound⟩
      · apply Spec.bind (Q := fun _ => Flow) (Keeps.gets _)
        intro c
        exact Spec.bind (Q := fun _ => Flow) (Keeps.only fun _ => raise_keeps _) fun _ =>
          becomeOpen_flow socket

theorem trustProvider_flow : Keeps A Flow (trustProvider : Prog κ Unit) :=
  .modify fun _ h => ⟨h.outbound, h.inbound⟩

/-- What came with the last token is put behind `Input`. -/
theorem appendInput_flow (plaintext : Bytes) :
    Spec A (fun c => FlowAs { c.tls with input := c.tls.input ++ plaintext } c)
      (setDict (fun t => { t with input := t.input ++ plaintext }) : Prog κ Unit) (fun _ => Flow) P :=
  .modify fun _ h => h.setTls _

theorem decrypt_flow :
    Spec A Flow (sspiDecryptStream : Prog κ (StreamStatus × Bytes))
      (fun a c => FlowAs { c.tls with input := c.tls.input ++ a.2 } c) (fun _ => Flow) :=
  sspiDecryptStream_spec (Q := fun plaintext c =>
    FlowAs { c.tls with input := c.tls.input ++ plaintext } c) fun _ _ h => FlowAs.decrypt h _

theorem stepped_flow (status : StepStatus) (leftover : Bytes) :
    Spec A Negotiating (stepped status leftover) (fun _ => Flushed) (fun _ => Flow) := by
  cases status with
  | done =>
    refine .pre (M := Flow) ?_ fun _ h => h.1
    apply Spec.bind (Q := fun _ => Flow) trustProvider_flow
    intro _
    refine Spec.bind (Q := fun _ => Flow) (Keeps.only fun _ => ?_) fun _ => openChannel_flow
    exact Spec.bind decrypt_flow fun _ => appendInput_flow _
  | «continue» => exact .pure fun _ h => h.flushed
  | other name => exact raise_spec fun _ h => h.1

theorem negotiateTurns_flow (socket : Bool) (fuel : Nat) (status : StepStatus) (outdata : Bytes)
    (leftover : Option Bytes) :
    Keeps A Flow (negotiateTurns socket fuel status outdata leftover) :=
  negotiateTurns_keeps (I := Flow) (fun _ _ h => FlowAs.logged h rfl) _ _ _ _ _

theorem negotiated_flow (status : StepStatus) (leftover : Option Bytes) :
    Spec A Flow (negotiated status leftover) (fun _ => Flushed) (fun _ => Flow) := by
  cases status with
  | done =>
    apply Spec.bind (Q := fun _ => Flow) trustProvider_flow
    intro _
    cases leftover with
    | none => exact raise_spec fun _ => id
    | some leftover =>
      refine Spec.bind (Q := fun _ => Flow) (Keeps.only fun _ => ?_) fun _ => openChannel_flow
      apply Spec.bind decrypt_flow
      intro _
      exact Spec.bind (appendInput_flow _) fun _ => Keeps.only fun _ => raise_keeps _
  | «continue» => exact raise_spec fun _ => id
  | other name => exact raise_spec fun _ => id

theorem blockingNegotiateLoop_flow :
    Spec A Flow blockingNegotiateLoop (fun _ => Flushed) (fun _ => Flow) := by
  apply Spec.bind (Q := fun _ => Flow) (Keeps.gets _)
  intro t
  apply Spec.bind (Q := fun _ => Flow) (command_keeps _ _)
  intro _
  apply Spec.bind (Q := fun _ => Flow) Keeps.patience
  intro fuel
  apply Spec.bind (Q := fun _ => Flow) (negotiateTurns_flow _ _ _ _ _)
  intro _
  exact .bind (Q := fun _ => Flow) (putsToken_flow _ _) fun _ => negotiated_flow _ _

theorem clientBlockingNegotiate_flow :
    Spec A Flow clientBlockingNegotiate (fun _ => Flushed) (fun _ => Flow) := by
  refine .bind (Q := fun _ => Flow) (dictWith_flow ?_) fun _ => blockingNegotiateLoop_flow
  exact .bind (setLocals_keeps fun _ _ h => h.congr rfl rfl) fun _ => command_keeps _ _

theorem serverBlockingNegotiate_flow :
    Spec A Flow serverBlockingNegotiate (fun _ => Flushed) (fun _ => Flow) := by
  refine .bind (Q := fun _ => Flow) (setDict_flow (fun _ => rfl) fun _ => rfl) fun _ => ?_
  apply Spec.bind (Q := fun _ => Flow) (Keeps.gets _)
  intro _
  apply Spec.bind (Q := fun _ => Flow) (soCommand_keeps _ _)
  intro _
  apply Spec.bind (Q := fun _ => Flow) (Keeps.only fun _ => raise_keeps _)
  intro _
  exact .bind (Q := fun _ => Flow) (command_keeps _ _) fun _ => blockingNegotiateLoop_flow

theorem setState_negotiating {state : State} (negotiable : state.negotiable = true) :
    Spec A Flow (setDict (fun t => { t with state := state }) : Prog κ Unit)
      (fun _ => Negotiating) P :=
  .modify fun c h => ⟨(FlowAs.congr (u := { c.tls with state := state }) h rfl rfl).setTls _,
    negotiable⟩

/-- What negotiates and keeps that, also keeps the streams when it fails. -/
theorem Keeps.negotiating {β : Type} {q : Prog Bool β} (h : Keeps A Negotiating q) :
    Spec A Negotiating q (fun _ => Negotiating) (fun _ => Flow) :=
  h.mono (fun _ => id) (fun _ _ => id) (fun _ _ hc => hc.1)

theorem step_stepped_flow (socket : Bool) :
    Spec A Negotiating
      (do
        let (status, outdata, leftover) ← sspiStep
        putsToken socket outdata
        stepped status leftover)
      (fun _ => Flushed) (fun _ => Flow) := by
  apply Spec.bind (Keeps.negotiating (command_keeps _ _))
  intro _
  refine Spec.bind (Keeps.negotiating (putsToken_keeps fun _ h => ?_)) fun _ => stepped_flow _ _
  exact ⟨FlowAs.logged h.1 rfl, h.2⟩

/-- Negotiation flushes the output of a channel that it opens. -/
theorem negotiate2_flow : Spec A Flow negotiate2 (fun _ => Flushed) (fun _ => Flow) := by
  apply Spec.bind (Q := fun t c => t = c.tls ∧ Flow c) (Spec.gets fun c h => ⟨rfl, h⟩)
  intro t
  have flow : ∀ c, t = c.tls ∧ Flow c → Flow c := fun _ h => h.2
  split
  case h_1 hstate =>
    have negotiating : ∀ c, t = c.tls ∧ Flow c → Negotiating c := fun c h =>
      ⟨h.2, by rw [← h.1, hstate]; rfl⟩
    apply Spec.ite (fun _ => Spec.pre blockingNegotiateLoop_flow flow)
    intro _
    refine Spec.pre (Spec.bind (Keeps.negotiating (soCommand_keeps _ _)) fun _ =>
      Spec.ite (fun _ => ?_) fun _ => step_stepped_flow _) negotiating
    exact Spec.only (fun _ => raise_spec fun _ h => h.1) fun _ _ h => h.flushed
  case h_2 =>
    refine Spec.pre (Spec.ite (fun _ => clientBlockingNegotiate_flow) fun _ => ?_) flow
    apply Spec.bind (setState_negotiating rfl)
    intro _
    apply Spec.bind (Keeps.negotiating (command_keeps _ _))
    intro _
    apply Spec.bind (Keeps.negotiating (command_keeps _ _))
    intro _
    refine Spec.bind (Keeps.negotiating (putsToken_keeps fun _ h => ?_)) fun _ => ?_
    · exact ⟨FlowAs.logged h.1 rfl, h.2⟩
    · exact Spec.only (fun _ => raise_spec fun _ h => h.1) fun _ _ h => h.flushed
  case h_3 hstate =>
    have negotiating : ∀ c, t = c.tls ∧ Flow c → Negotiating c := fun c h =>
      ⟨h.2, by rw [← h.1, hstate]; rfl⟩
    apply Spec.ite (fun _ => Spec.pre serverBlockingNegotiate_flow flow)
    intro _
    refine Spec.pre (Spec.bind (Keeps.negotiating (soCommand_keeps _ _)) fun _ =>
      Spec.ite (fun _ => ?_) fun _ => ?_) negotiating
    · exact Spec.only (fun _ => raise_spec fun _ h => h.1) fun _ _ h => h.flushed
    · apply Spec.bind (Spec.pre (setState_negotiating rfl) fun _ h => h.1)
      intro _
      exact Spec.bind (Keeps.negotiating (command_keeps _ _)) fun _ => step_stepped_flow _
  case h_4 => exact Spec.pre (raise_spec fun _ => id) flow

theorem negotiate2_keeps_flow : Keeps A Flow negotiate2 :=
  negotiate2_flow.mono (fun _ => id) (fun _ _ h => h.1) (fun _ _ => id)

/-! ### Writing -/

/-- With no output pending `_flush_pending_output` does nothing, so that the copy
of `Output` that `write` writes back is right. -/
theorem flushPendingOutput_idle {E : Stop κ → Chan → Prop} :
    Spec A (fun c => FlowAs t c ∧ c.tls.output = []) (flushPendingOutput : Prog κ Unit)
      (fun _ c => FlowAs t c) E := by
  apply dictWith_spec
  intro entry
  refine .bind (Q := fun l x => l.output = [] ∧ FlowAs t x.2) (.gets fun x h => ⟨?_, h.2.2.1⟩)
    fun l => .fact fun empty => .only (fun pending => ?_) fun x _ h => h.setTls _
  · rw [h.1, ← h.2.1]
    exact h.2.2.2
  · rw [empty] at pending
    cases pending

theorem writeBody_flow (data : Bytes) :
    Spec A Flushed (writeBody data) (fun _ => Flow) (fun _ => Flow) := by
  apply dictWith_spec
  intro entry
  refine .bind (Q := fun l x => l = x.1 ∧ Block x ∧
      (x.1.state = .opened → x.1.output = [] ∧ x.2.tls.output = []))
    (.gets fun x h => ⟨rfl, .start h.1 h.2.1 h.2.2.1, fun hs => ?_⟩) fun l => ?_
  · obtain ⟨copied, at_entry, hc⟩ := h
    have empty : x.2.tls.output = [] := hc.2 (by rw [at_entry, ← copied]; exact hs)
    exact ⟨by rw [copied, ← at_entry]; exact empty, empty⟩
  split
  · refine .mono (M := Block) (N := fun _ => Block)
      (G := fun _ => Block) (.inside fun u => ?_) (fun _ h => h.2.1)
      (fun _ _ h => h.written) (fun _ _ h => h.written)
    exact record_keeps fun _ h => FlowAs.logged h rfl
  case h_2 hstate =>
    refine .mono (M := fun x => Block x ∧ x.1.output = [] ∧ x.2.tls.output = [])
      (N := fun _ => Block) (G := fun _ => Block) ?_
      (fun x h => ⟨h.2.1, h.2.2 (h.1 ▸ hstate)⟩) (fun _ _ h => h.written) (fun _ _ h => h.written)
    refine .bind (Q := fun _ x => Block x ∧ x.1.output = [] ∧ x.2.tls.output = [])
      (.only (fun _ => raise_spec fun _ h => h.1) fun _ _ => id) fun _ => ?_
    refine .bind (Q := fun _ x => Block x ∧ x.1.output = [])
      (.inside fun u => ?_) fun _ => ?_
    · refine .mono (M := fun c => u.output = [] ∧ FlowAs u c ∧ c.tls.output = [])
        (N := fun _ c => FlowAs u c ∧ u.output = []) (G := fun _ c => FlowAs u c)
        (.fact fun empty => flushPendingOutput_idle.mono (fun _ => id) (fun _ _ h => ⟨h, empty⟩)
          (fun _ _ => id)) (fun _ h => ⟨h.2.1, h.1, h.2.2⟩) (fun _ _ => id) (fun _ _ => id)
    -- The data is sent, but counts as written a step later.
    refine .bind (Q := fun _ x => FlowAs x.1 (x.2.logged (.wrote data)))
      (.inside fun u => ?_) fun _ => ?_
    · exact (putsEncrypted_spec (P := fun c => FlowAs u c ∧ u.output = [])
        (Q := fun c => FlowAs u (c.logged (.wrote data))) fun cipher c h =>
          h.1.send h.2 data cipher).mono (fun _ => id) (fun _ _ => id) (fun _ _ h => h.1)
    · exact .bind (Q := fun _ => Block) (.inside fun u => record_spec fun _ => id)
        fun _ => soCommand_keeps _ _
  · refine .mono (M := Block) (N := fun _ => Block)
      (G := fun _ => Block) ?_ (fun _ h => h.2.1) (fun _ _ h => h.written)
      (fun _ _ h => h.written)
    refine .bind (Q := fun _ x => FlowAs x.1 (x.2.logged (.wrote data)))
      (.modify fun x h => h.store data) fun _ => ?_
    exact .inside fun u => record_spec fun _ => id

theorem writeNegotiated_flow (data : Bytes) :
    Spec A Flushed (writeNegotiated data) (fun _ => Flow) (fun _ => Flow) := by
  refine .bind (Q := fun _ => Flushed) (.gets fun _ => id) fun t =>
    .ite (fun _ => ?_) fun _ => writeBody_flow data
  apply Spec.ite (fun _ => raise_spec fun _ h => h.1)
  intro _
  refine .bind (Q := fun _ c => Flow (c.logged (.wrote data))) (.modify fun c h => ?_)
    fun _ => record_spec fun _ => id
  exact (FlowAs.store h.1 data).setTls _

theorem write_flow (data : Bytes) : Spec A Flushed (write data) (fun _ => Flow) (fun _ => Flow) := by
  refine .bind (Q := fun _ => Flushed) (expectElement_spec.mono (M := Flushed) (fun _ => id)
    (fun _ _ h => h.2) (fun _ _ h => h.1)) fun _ => ?_
  refine .bind (Q := fun _ => Flushed) (.gets fun _ => id) fun t =>
    .ite (fun _ => ?_) fun _ => writeBody_flow data
  exact .bind (negotiation_spec (negotiate2_flow.pre fun _ h => h.1)) fun _ =>
    writeNegotiated_flow data

/-! ### Reading -/

theorem decryptInside_flow :
    Spec A Block
      (Script.inside sspiDecryptStream : Body κ (StreamStatus × Bytes))
      (fun a x => FlowAs { x.1 with input := x.1.input ++ a.2 } x.2) (fun _ => Block) :=
  .inside fun u => sspiDecryptStream_spec (Q := fun plaintext c =>
    FlowAs { u with input := u.input ++ plaintext } c) fun _ _ h => h.decrypt _

theorem readMore_flow (nbytes : Nat) : Keeps A Block (readMore nbytes) := by
  refine readMore_keeps (fun rest => ?_) nbytes
  apply Spec.bind decryptInside_flow
  intro _
  exact .bind (Q := fun _ => Block) (.modify fun _ h => h) fun _ => rest _

/-- The provider's shutdown fails, or the sending of its token. -/
def Answer.failsShutdown : Answer → Bool
  | .fail .shutdown _ => true
  | _ => false

section Shutdown

variable (orderly : ∀ a, A a → a.failsShutdown = false)
include orderly

theorem command_shutdown_spec {σ : Type} {P : σ → Prop} {E : Stop κ → σ → Prop}
    (fits : Answer → Option α) :
    Spec A P (command .shutdown fits : Script σ Answer (Stop κ) α) (fun _ => P) E := by
  refine .bind (.ask (Q := fun a s => a.failsShutdown = false ∧ P s) fun a s ha hs =>
    ⟨orderly a ha, hs⟩) fun a => .fact fun ha => ?_
  cases a with
  | fail failed text =>
    refine .ite (fun heq => ?_) fun _ => .stuck
    subst heq
    cases ha
  | _ =>
    dsimp only
    split
    · exact .pure fun _ => id
    · exact .stuck

/-- An orderly end of the stream does not fail, and the bytes that `read` holds
stay in front of the input. -/
theorem readShutdown_flow {E : Stop Pending → Element × Chan → Prop} (ret : Bytes)
    (status : StreamStatus) :
    Spec A (Holding ret) (readShutdown status)
      (fun _ => Holding ret) E := by
  refine .bind (Q := fun _ => Holding ret)
    (.modify fun _ h => Holding.congr h rfl rfl) fun _ => ?_
  apply Spec.bind (command_shutdown_spec orderly _)
  intro outdata
  refine .bind (Q := fun _ => Holding ret)
    (.gets fun _ => id) fun l => .only (fun _ => ?_) fun _ _ => id
  refine .bind (Q := fun _ => Holding ret)
    (.only (fun _ => .inside fun u => ?_) fun _ _ => id) fun _ => ?_
  · exact .bind (command_shutdown_spec orderly _) fun _ => record_spec fun _ h => h.logged rfl
  · exact .bind (attempt_command_spec _ _) fun _ => .modify fun _ h => Holding.congr h rfl rfl

theorem readBody_flow (nbytes : Nat) : Keeps A Flow (readBody nbytes) := by
  refine Spec.bind (Q := fun ret c => FlowAs { c.tls with input := ret ++ c.tls.input } c) ?_
    fun ret => record_spec fun c h => FlowAs.return h
  apply dictWith_spec
  intro entry
  refine .bind (Q := fun _ => Block) ((readMore_flow nbytes).mono
    (fun _ h => .start h.1 h.2.1 h.2.2) (fun _ _ => id) (fun _ _ h => h.written)) fun status => ?_
  apply Spec.bind (Q := fun l x => l = x.1 ∧ Block x) (Spec.gets fun _ h => ⟨rfl, h⟩)
  intro l
  refine .bind (Q := fun _ => Holding (l.input.take nbytes))
    (.modify fun x h => ?_) fun _ => ?_
  · refine h.2.congr rfl ?_
    change l.input.take nbytes ++ x.1.input.drop nbytes = x.1.input
    rw [h.1, List.take_append_drop]
  refine .bind (Q := fun _ => Holding (l.input.take nbytes))
    (.inside fun u => .gets fun _ => id) fun t => ?_
  refine .bind (Q := fun _ => Holding (l.input.take nbytes))
    (.only (fun _ => .inside fun u => .modify fun _ h => h.setTls _) fun _ _ => id)
    fun _ => ?_
  refine .bind (Q := fun _ => Holding (l.input.take nbytes))
    (.only (fun _ => readShutdown_flow orderly _ _) fun _ _ => id) fun _ => ?_
  exact .pure fun x h =>
    FlowAs.setTls (Holding.congr (u := writeBack entry x.1 x.2.tls) h rfl rfl) _

theorem readNegotiated_flow (nbytes : Nat) : Keeps A Flow (readNegotiated nbytes) :=
  .bind (.gets _) fun _ => .ite
    (fun _ => .ite (fun _ => raise_keeps _) fun _ => raise_keeps _)
    fun _ => readBody_flow orderly nbytes

theorem read_flow (nbytes : Nat) : Keeps A Flow (read nbytes) := by
  refine .ite (fun _ => record_keeps fun c h => ?_) fun _ => ?_
  · refine FlowAs.return (FlowAs.congr h rfl ?_)
    exact List.nil_append _
  refine Spec.bind (Q := fun _ => Flow) (expectElement_spec.mono (M := Flow) (fun _ => id)
    (fun _ _ h => h.2) (fun _ _ => id)) fun _ => ?_
  refine Keeps.bind (Keeps.gets _) fun t => Keeps.ite (fun _ => ?_) fun _ =>
    readBody_flow orderly nbytes
  exact .bind (negotiation_keeps negotiate2_keeps_flow) fun _ =>
    readNegotiated_flow orderly nbytes

end Shutdown

/-! ### Other calls -/

theorem blocking_flow (mode : Bool) : Keeps A Flow (blocking mode) :=
  blocking_keeps (J := FlowAs) (fun _ _ _ h => h.written) fun _ _ h => h.congr rfl rfl

theorem watch_flow (watchMask : WatchMask) : Keeps A Flow (watch watchMask) :=
  watch_keeps (J := FlowAs) (fun _ _ _ h => h.written) (fun _ _ h => h.congr rfl rfl)
    fun _ _ _ h => h.setTls _

theorem closeWrite_flow : Keeps A Flow closeWrite :=
  closeWrite_keeps (flushPendingOutput_spec.mono (fun _ => id) (fun _ _ h => h.1) (fun _ _ => id))
    (setDict_flow (fun _ => rfl) fun _ => rfl)

theorem postReadEvent_flow : Keeps A Flow (postReadEvent : Prog κ Unit) :=
  setDict_flow (fun _ => rfl) fun _ => rfl

theorem postWriteEvent_flow : Keeps A Flow (postWriteEvent : Prog κ Unit) :=
  setDict_flow (fun _ => rfl) fun _ => rfl

theorem cleanup_flow : Keeps A Flow (cleanup : Prog κ Unit) :=
  cleanup_keeps (I := Flow) (fun _ _ h => FlowAs.logged h rfl) fun _ h => ⟨h.outbound, h.inbound⟩

theorem finalize_flow : Keeps A Flow (finalize : Prog κ Unit) :=
  .bind (.modify fun _ h => ⟨h.outbound, h.inbound⟩) fun _ => cleanup_flow

theorem closeChan_flow : Keeps A Flow (closeChan : Prog κ Unit) :=
  .bind (.gets _) fun _ => .ite (fun _ => finalize_flow) fun _ => raise_keeps _

theorem cleanupFailedAccept_flow : Keeps A Flow (cleanupFailedAccept : Prog κ Unit) :=
  .bind (.modify fun _ h => ⟨h.outbound, h.inbound⟩) fun _ =>
    .bind (.gets _) fun _ => .only fun _ => closeChan_flow

theorem create_flow (k : Creation) : Keeps A Flow (create k) :=
  create_spec k (fun _ => id) negotiate2_keeps_flow
    (clientBlockingNegotiate_flow.mono (fun _ => id) (fun _ _ h => h.1) (fun _ _ => id)) blocking_flow

theorem resume_flow {r : Return}
    (orderly : ∀ n, r.caller = .read n → ∀ a, A a → a.failsShutdown = false) :
    Spec A Flushed (resume r) (fun _ => Flow) (fun _ => Flow) := by
  have flow : ∀ c, Flushed c → Flow c := fun _ h => h.1
  unfold resume
  cases hcaller : r.caller with
  | create k => exact Spec.pre (Keeps.only fun _ => expectOpen_keeps) flow
  | read nbytes => exact .pre (readNegotiated_flow (orderly nbytes hcaller) nbytes) flow
  | write data => exact writeNegotiated_flow data
  | handshake => exact .pre (record_flow rfl) flow
  | soReadHandler => exact .pre (soReadNegotiated_keeps postReadEvent_flow) flow
  | soWriteHandler watchMask => exact .pre (soWriteNegotiated_keeps postWriteEvent_flow _) flow

theorem verified_flow {f : Frame} (result : Except String Bool)
    (orderly : ∀ n, f.ret.caller = .read n → ∀ a, A a → a.failsShutdown = false) :
    Keeps A Flow (verified f result) :=
  Spec.bind (negotiation_spec (verifierReturned_flow f.socket result)) fun _ => resume_flow orderly

theorem fail_flow (caller : Caller) (e : Err) : Keeps A Flow (fail caller e) := by
  refine .bind ?_ fun _ => raise_keeps _
  unfold discard
  split
  · exact attempt_keeps cleanup_flow
  · exact attempt_keeps closeChan_flow
  · exact .pure _

theorem failing_flow (caller : Caller) (h : Keeps A Flow q) :
    Keeps A Flow (failing caller q) := by
  apply Keeps.handle h
  intro stop
  cases stop with
  | error e => exact fail_flow caller e
  | pending k => exact .throw _

theorem negotiateOnerror_flow (e : Err) : Keeps A Flow (negotiateOnerror e : Prog κ Unit) := by
  apply Keeps.bind (Keeps.gets _)
  intro _
  apply Keeps.only
  intro _
  apply Keeps.bind (Keeps.only fun _ => Keeps.modify fun _ h => ⟨h.outbound, h.inbound⟩)
  intro _
  refine .bind (setDict_flow (fun _ => rfl) fun _ => rfl) fun _ => .only fun _ => ?_
  exact .bind (attempt_keeps (command_keeps _ _)) fun _ =>
    setDict_flow (fun _ => rfl) fun _ => rfl

theorem trapped_flow (e : Err) : Keeps A Flow (trapped e) :=
  .bind (negotiateOnerror_flow e) fun _ => raise_keeps _

/-! ### Runs -/

theorem settle_flow {frames : List Frame} {P : Chan → Prop} {w : List Answer} {s : Conn}
    (h : Spec A P q (fun _ => Flow) (fun _ => Flow)) (hw : ∀ a ∈ w, A a) (hc : P c)
    (run : settle frames (q c w) = some s) : Flow s.chan :=
  settle_spec (fun _ _ hc => FlowAs.logged hc rfl) h hw hc run

/-- A `read` is to go on when the verifier returns. -/
def Conn.resumesRead (s : Conn) : Bool :=
  match s.frames with
  | ⟨⟨.read _, _⟩, _⟩ :: _ => true
  | _ => false

/-- `write` finds no output pending in an open channel, and the provider's
shutdown does not fail in a `read`. -/
def Smooth (s : Conn) : Label → Prop
  | .call (.write _) _ => s.chan.tls.state = .opened → s.chan.tls.output = []
  | .call (.read _) w => ∀ a ∈ w, a.failsShutdown = false
  | .verifier _ w => s.resumesRead = true → ∀ a ∈ w, a.failsShutdown = false
  | _ => True

instance (s : Conn) (a : Label) : Decidable (Smooth s a) := by
  unfold Smooth
  split <;> infer_instance

theorem flow_step {s u : Conn} {a : Label} (flow : Flow s.chan) (smooth : Smooth s a)
    (h : machine.step s a = some u) : Flow u.chan := by
  have every : ∀ w : List Answer, ∀ a ∈ w, (fun _ : Answer => True) a := fun _ _ _ => trivial
  change step s a = some u at h
  unfold step at h
  split at h
  case h_1 w =>
    split at h
    · exact settle_flow (failing_flow _ (create_flow _)) (every w) flow h
    · cases h
  case h_2 call w =>
    split at h
    · cases call with
      | read nbytes => exact settle_flow (read_flow (fun _ => id) nbytes) smooth flow h
      | write data => exact settle_flow (write_flow data) (every w) ⟨flow, smooth⟩ h
      | blocking mode =>
        exact settle_flow (.bind expectElement_keeps fun _ => blocking_flow _) (every w) flow h
      | watch watchMask =>
        exact settle_flow (.bind expectElement_keeps fun _ => watch_flow _) (every w) flow h
      | finalize => exact settle_flow finalize_flow (every w) flow h
      | handshake => exact settle_flow (handshake_keeps negotiate2_keeps_flow fun _ => record_flow rfl) (every w) flow h
      | closeWrite => exact settle_flow closeWrite_flow (every w) flow h
      | soReadHandler => exact settle_flow (soReadHandler_keeps negotiate2_keeps_flow postReadEvent_flow) (every w) flow h
      | soWriteHandler => exact settle_flow (soWriteHandler_keeps negotiate2_keeps_flow postWriteEvent_flow) (every w) flow h
      | postReadEventCallback | postWriteEventCallback =>
        refine settle_flow (Keeps.bind (Keeps.gets _) fun _ => Keeps.only fun _ => ?_) (every w)
          flow h
        exact setDict_flow (fun _ => rfl) fun _ => rfl
      | cleanupFailedAccept => exact settle_flow cleanupFailedAccept_flow (every w) flow h
    · cases h
  case h_3 w =>
    split at h
    · exact settle_flow (failing_flow _ (trapped_flow _)) (every w) flow h
    · cases h
  case h_4 result w =>
    split at h
    · rename_i f frames hpc hframes
      have orderly : ∀ n, f.ret.caller = .read n → ∀ a ∈ w, a.failsShutdown = false := by
        intro n hn
        refine smooth ?_
        obtain ⟨⟨caller, trapped⟩, socket⟩ := f
        cases hn
        unfold Conn.resumesRead
        rw [hframes]
      refine settle_flow (A := fun a => ∀ n, f.ret.caller = .read n → a.failsShutdown = false)
        (failing_flow _ (verified_flow result fun n hn a ha => ha n hn))
        (fun a ha n hn => orderly n hn a ha) flow h
    · cases h

/-- In every run in which `write` finds no output pending in an open channel and
the shutdown in a `read` does not fail, no byte of either stream is lost or
repeated: what was sent, with what waits in `Output`, is what was written, and
what was returned, with what waits in `Input`, is what was decrypted. -/
theorem reaches_flow {s : Conn} (run : machine.Reaches Smooth s) :
    s.chan.transmitted ++ s.chan.tls.output = s.chan.wrote ∧
      s.chan.returned ++ s.chan.tls.input = s.chan.decrypted := by
  have flow : Flow s.chan := by
    refine run.invariant (P := fun s => Flow s.chan) ?_ fun s a u => flow_step
    rintro s ⟨k, blocking, verifier, freeCredentials, rfl⟩
    exact ⟨rfl, rfl⟩
  exact ⟨flow.outbound, flow.inbound⟩

/-- A client that writes before its connection is open. -/
def earlyWrite : List Label :=
  [.create [.done, .done, .done, .done, .done, .step .«continue» [1] [], .done, .done],
    .call (.write [1]) [.data [] false]]

theorem reaches_flow_open :
    ∃ s : Conn, s.chan.wrote = [1, 2] ∧ s.chan.decrypted = [65, 66] ∧
      s.chan.transmitted ++ s.chan.tls.output = s.chan.wrote ∧
      s.chan.returned ++ s.chan.tls.input = s.chan.decrypted := by
  obtain ⟨s, run, hwrote, hdecrypted⟩ := Machine.Reaches.exists_of_run (M := machine) (G := Smooth)
    (earlyWrite ++ [.call .soReadHandler [.data [2] false, .step .done [] [3], .stream .ok [65],
        .bytes [101], .done, .done],
      .call (.write [2]) [.bytes [102], .done, .done],
      .call (.read 4) [.data [4] false, .stream .ok [66]]])
    (fun s => s.chan.wrote = [1, 2] ∧ s.chan.decrypted = [65, 66])
    ⟨.starttlsClient, false, false, true, rfl⟩ (by decide)
  exact ⟨s, hwrote, hdecrypted, reaches_flow run⟩

/-- Neither stream is exact in every run. Output that a failed handshake left is
sent again with every write; bytes are lost when the token of the shutdown
cannot be sent. -/
theorem streams_inexact :
    (¬ ∀ s, machine.Reachable s → s.chan.transmitted ++ s.chan.tls.output = s.chan.wrote) ∧
      ¬ ∀ s, machine.Reachable s → s.chan.returned ++ s.chan.tls.input = s.chan.decrypted := by
  constructor
  · intro claim
    obtain ⟨s, run, hsent, hwrote⟩ := Machine.Reaches.exists_of_run (M := machine)
      (G := fun _ _ => True)
      (earlyWrite ++ [.call (.blocking true) [.done, .done, .done, .done],
        .call .handshake [.step .«continue» [] [], .data [2] false, .step .done [] [],
          .fail .provider "encryption failed"],
        .call (.write [2]) [.bytes [101], .done, .bytes [102], .done, .done],
        .call (.write [3]) [.bytes [101], .done, .bytes [103], .done, .done]])
      (fun s => s.chan.transmitted = [1, 2, 1, 3] ∧ s.chan.wrote = [1, 2, 3])
      ⟨.starttlsClient, false, false, true, rfl⟩ (by decide)
    have outbound := claim s run
    rw [hsent, hwrote] at outbound
    cases outbound
  · intro claim
    obtain ⟨s, run, hreturned, hdecrypted⟩ := Machine.Reaches.exists_of_run (M := machine)
      (G := fun _ _ => True)
      [.create [.done, .done, .done, .done, .done, .step .«continue» [1] [], .done, .done],
        .call .soReadHandler [.data [2] false, .step .done [] [], .done],
        .call (.read 4) [.data [3] false, .stream (.other "expired") [65], .bytes [9],
          .fail .shutdown "connection reset by peer"]]
      (fun s => s.chan.returned ++ s.chan.tls.input = [] ∧ s.chan.decrypted = [65])
      ⟨.starttlsClient, false, false, true, rfl⟩ (by decide)
    have inbound := claim s run
    rw [hreturned, hdecrypted] at inbound
    cases inbound

end Twapi.Tls
