import Twapi.Tls.Rules

/-!
What a peer sends before it is verified is not returned to the script.

* `SealedAs`, `Sealed` — unless the peer is verified, nothing has been returned,
  and a channel that is not negotiating has no plaintext to return.
* `Leaving` — what remains of it on the way to `_cleanup`.
* `Withheld` — the guard: the `onerror` clause of `_negotiate`, which leaves the
  channel readable, finds no plaintext of an unverified peer in `Input`.
* `reaches_unread` — no run that meets the guard returns such plaintext.

The guard is needed because `_negotiate2` decrypts what came with the last token
of the handshake before `_open` runs the verifier. `onerror_leaks` shows that
from every state in which it fails the plaintext can be read.
-/

namespace Twapi.Tls

open Lib Script

variable {κ α : Type} {A : Answer → Prop} {p : Bool}

/-! ### Invariant -/

/-- The invariant of the channel `c` when its element is, or is about to be, `t`.
`p` is whether the element exists. -/
structure SealedAs (p : Bool) (t : Element) (c : Chan) : Prop where
  present : c.present = p
  unread : c.verified = false → c.returned = []
  opened : p = true → t.state = .opened → c.verified = true
  hidden : p = true → c.verified = false → t.state.negotiable = false → t.input = []
  shut : p = true → c.alive = false → c.verified = true

def Sealed (p : Bool) (c : Chan) : Prop := SealedAs p c.tls c

/-- Sealed, and still negotiating. -/
def Shaking (p : Bool) (c : Chan) : Prop := Sealed p c ∧ c.tls.state.negotiable = true

/-- Shaking, and verified unless there is a verifier to ask. -/
def Trusted (p : Bool) (c : Chan) : Prop :=
  Shaking p c ∧ (c.tls.verifier = false → c.verified = true)

/-- The channel is sealed, with an element or without. -/
def Safe (c : Chan) : Prop := Sealed c.present c

/-- What is needed to close the channel; `Input` may hold anything. -/
structure Leaving (c : Chan) : Prop where
  unread : c.verified = false → c.returned = []
  opened : c.present = true → c.tls.state = .opened → c.verified = true

variable {t : Element} {c : Chan}

theorem Sealed.present (h : Sealed p c) : c.present = p := SealedAs.present h

theorem Sealed.safe (h : Sealed p c) : Safe c := by
  unfold Safe
  rw [h.present]
  exact h

theorem Sealed.leaving (h : Sealed p c) : Leaving c where
  unread := SealedAs.unread h
  opened hp := SealedAs.opened h (h.present ▸ hp)

/-- A verified peer may be read from in every state. -/
theorem SealedAs.of_verified (present : c.present = p) (verified : c.verified = true) :
    SealedAs p t c where
  present := present
  unread h := absurd verified (by rw [h]; exact Bool.false_ne_true)
  opened _ _ := verified
  hidden _ h := absurd verified (by rw [h]; exact Bool.false_ne_true)
  shut _ _ := verified

/-- Without an element there is nothing to read. -/
theorem Sealed.of_absent (absent : c.present = false)
    (unread : c.verified = false → c.returned = []) : Sealed false c where
  present := absent
  unread := unread
  opened := nofun
  hidden := nofun
  shut := nofun

/-- The invariant looks at two keys of the element. -/
theorem SealedAs.congr {u : Element} (h : SealedAs p t c) (state : u.state = t.state)
    (input : u.input = t.input) : SealedAs p u c where
  present := h.present
  unread := h.unread
  opened hp hs := h.opened hp (state ▸ hs)
  hidden hp hv hs := input ▸ h.hidden hp hv (state ▸ hs)
  shut := h.shut

/-- The invariant does not look at the channel's own element. -/
theorem SealedAs.setTls (h : SealedAs p t c) (u : Element) : SealedAs p t { c with tls := u } :=
  ⟨h.present, h.unread, h.opened, h.hidden, h.shut⟩

theorem SealedAs.cleanups (h : SealedAs p t c) (n : Nat) :
    SealedAs p t { c with cleanups := n } :=
  ⟨h.present, h.unread, h.opened, h.hidden, h.shut⟩

variable {q : Prog Pending Unit} {e : Io}

theorem SealedAs.logged (h : SealedAs p t c) (quiet : e.plaintext = []) :
    SealedAs p t (c.logged e) where
  present := h.present
  unread hv := by rw [Chan.returned_logged, h.unread hv, quiet]; rfl
  opened := h.opened
  hidden := h.hidden
  shut := h.shut

/-- While a channel negotiates its `Input` is not looked at. -/
theorem SealedAs.negotiating {u : Element} (h : SealedAs p t c)
    (state : u.state.negotiable = true) : SealedAs p u c where
  present := h.present
  unread := h.unread
  opened _ hs := absurd state (by rw [hs]; exact Bool.false_ne_true)
  hidden _ _ hs := absurd state (by rw [hs]; exact Bool.false_ne_true)
  shut := h.shut

/-! ### Commands -/

theorem record_sealed (quiet : e.plaintext = []) :
    Keeps A (Sealed p) (record e : Prog κ Unit) :=
  record_keeps fun _ h => SealedAs.logged h quiet

/-- A key other than `State` and `Input` is set. -/
theorem setDict_sealed {f : Element → Element} (state : ∀ t, (f t).state = t.state)
    (input : ∀ t, (f t).input = t.input) : Keeps A (Sealed p) (setDict f : Prog κ Unit) :=
  setDict_keeps fun _ h => (SealedAs.congr h (state _) (input _)).setTls _

theorem sealed_written (entry l : Element) (c : Chan) (h : SealedAs p l c) :
    SealedAs p (writeBack entry l c.tls) { c with tls := writeBack entry l c.tls } :=
  (h.congr (u := writeBack entry l c.tls) rfl rfl).setTls _

theorem dictWith_sealed {body : Body κ α} (h : Keeps A (fun x => SealedAs p x.1 x.2) body) :
    Keeps A (Sealed p) (dictWith body) :=
  dictWith_keeps (J := SealedAs p) sealed_written h

/-- Inside a block only the variables count. -/
theorem inside_sealed {q : Prog κ α} (h : ∀ t, Keeps A (SealedAs p t) q) :
    Keeps A (fun x : Element × Chan => SealedAs p x.1 x.2) (Script.inside q) :=
  .inside h

theorem putsEncrypted_sealedAs {socket : Bool} {data : Bytes} :
    Keeps A (SealedAs p t) (putsEncrypted socket data : Prog κ Unit) :=
  putsEncrypted_keeps fun _ _ h => h.logged rfl

theorem flushPendingOutput_sealed : Keeps A (Sealed p) (flushPendingOutput : Prog κ Unit) :=
  dictWith_sealed <|
    .bind (.gets _) fun _ => .only fun _ =>
      .bind (inside_sealed fun _ => putsEncrypted_sealedAs) fun _ =>
        setLocals_keeps fun _ _ h => h.congr rfl rfl

/-! ### Shaking hands -/

theorem record_shaking (quiet : e.plaintext = []) (c : Chan) (h : Shaking p c) :
    Shaking p (c.logged e) :=
  ⟨SealedAs.logged h.1 quiet, h.2⟩

theorem record_trusted (quiet : e.plaintext = []) (c : Chan) (h : Trusted p c) :
    Trusted p (c.logged e) :=
  ⟨record_shaking quiet c h.1, h.2⟩

variable {P : Stop κ → Chan → Prop}

theorem trustProvider_spec :
    Spec A (Shaking p) (trustProvider : Prog κ Unit) (fun _ => Trusted p) P := by
  refine .modify fun c h => ⟨⟨?_, h.2⟩, fun hv => ?_⟩
  · cases hv : c.verified || !c.tls.verifier with
    | true => exact SealedAs.of_verified h.1.present rfl
    | false =>
      have same : c.verified = false := (Bool.or_eq_false_iff.mp hv).1
      rw [← same]
      exact h.1
  · change (c.verified || !c.tls.verifier) = true
    rw [show c.tls.verifier = false from hv]
    exact Bool.or_true _

/-- Decrypted plaintext is added to `Input` while the channel negotiates. -/
theorem appendInput_trusted (plaintext : Bytes) :
    Keeps A (Trusted p) (setDict fun t => { t with input := t.input ++ plaintext } : Prog κ Unit) :=
  setDict_keeps fun c h =>
    ⟨⟨(SealedAs.negotiating (u := { c.tls with input := c.tls.input ++ plaintext }) h.1.1 h.1.2).setTls
      _, h.1.2⟩, h.2⟩

/-- `State` becomes `OPEN` only for a verified peer. -/
theorem becomeOpen_spec (socket : Bool) :
    Spec A (fun c => c.verified = true ∧ Sealed p c) (becomeOpen socket : Prog κ Unit)
      (fun _ => Sealed p) (fun _ => Sealed p) := by
  refine .bind (Q := fun _ => Sealed p) (.modify fun c h => ?_) fun _ => ?_
  · exact SealedAs.of_verified h.2.present h.1
  · refine Keeps.bind (Keeps.gets _) fun t => Keeps.bind (Keeps.only fun _ => ?_) fun _ =>
      flushPendingOutput_sealed
    exact .bind (soCommand_keeps _ _) fun _ => .bind (soCommand_keeps _ _) fun _ =>
      record_sealed rfl

theorem openChannel_spec :
    Spec A (Trusted p) openChannel (fun _ => Sealed p) (fun _ => Sealed p) := by
  refine .bind (Q := fun t c => t = c.tls ∧ Trusted p c) (.gets fun c h => ⟨rfl, h⟩)
    fun t => .ite (fun _ => ?_) (fun unasked => ?_)
  · exact .throw fun c h => h.2.1.1
  · refine (becomeOpen_spec t.socket).pre fun c h => ⟨?_, h.2.1.1⟩
    exact h.2.2 (by rw [← h.1]; exact Bool.not_eq_true _ ▸ unasked)

/-- After the verifier the element still exists where `_open` goes on. -/
theorem verifierReturned_spec (socket : Bool) (result : Except String Bool) :
    Spec A (Sealed p) (verifierReturned socket result) (fun _ c => p = true ∧ Sealed p c)
      (fun _ => Sealed p) := by
  cases result with
  | error text => exact raise_spec fun _ => id
  | ok accepts =>
    cases accepts with
    | false => exact raise_spec fun _ => id
    | true =>
      refine .bind (Q := fun _ c => c.verified = true ∧ Sealed p c)
        (.modify fun c h => ⟨rfl, ?_⟩) fun _ => ?_
      · exact SealedAs.of_verified h.present rfl
      · refine .bind (Q := fun a c => a = c ∧ c.verified = true ∧ Sealed p c)
          (.gets fun c h => ⟨rfl, h⟩) fun a => ?_
        refine .bind (Q := fun _ c => p = true ∧ c.verified = true ∧ Sealed p c)
          (.only (fun _ => raise_spec fun c h => h.2.2) fun c here h => ?_) fun _ => ?_
        · refine ⟨?_, h.2⟩
          rw [← h.2.2.present, ← h.1]
          simpa using here
        · apply Spec.fact
          intro hp
          exact (becomeOpen_spec socket).mono (fun _ => id) (fun _ _ h => ⟨hp, h⟩)
            (fun _ _ => id)

theorem stepped_spec (status : StepStatus) (leftover : Bytes) :
    Spec A (Shaking p) (stepped status leftover) (fun _ => Sealed p) (fun _ => Sealed p) := by
  cases status with
  | done =>
    refine .bind trustProvider_spec fun _ => .bind (Q := fun _ => Trusted p) ?_
      fun _ => openChannel_spec
    refine Spec.mono (M := Trusted p) (Keeps.only fun _ => ?_) (fun _ => id) (fun _ _ => id)
      (fun _ _ h => h.1.1)
    exact .bind (sspiDecryptStream_keeps fun _ => record_trusted rfl) fun _ =>
      appendInput_trusted _
  | «continue» => exact .pure fun c h => h.1
  | other name => exact raise_spec fun c h => h.1

theorem putsToken_shaking (socket : Bool) (outdata : Bytes) :
    Keeps A (Shaking p) (putsToken socket outdata : Prog κ Unit) :=
  putsToken_keeps (record_shaking rfl)

theorem negotiateTurns_shaking (socket : Bool) (fuel : Nat) (status : StepStatus) (outdata : Bytes)
    (leftover : Option Bytes) :
    Keeps A (Shaking p) (negotiateTurns socket fuel status outdata leftover) :=
  negotiateTurns_keeps (fun _ => record_shaking rfl) _ _ _ _ _

theorem negotiated_spec (status : StepStatus) (leftover : Option Bytes) :
    Spec A (Shaking p) (negotiated status leftover) (fun _ => Sealed p) (fun _ => Sealed p) := by
  cases status with
  | done =>
    apply Spec.bind trustProvider_spec
    intro _
    cases leftover with
    | none => exact raise_spec fun c h => h.1.1
    | some leftover =>
      refine .bind (Q := fun _ => Trusted p) ?_ fun _ => openChannel_spec
      refine Spec.mono (M := Trusted p) (Keeps.only fun _ => ?_) (fun _ => id) (fun _ _ => id)
        (fun _ _ h => h.1.1)
      exact .bind (sspiDecryptStream_keeps fun _ => record_trusted rfl) fun _ =>
        .bind (appendInput_trusted _) fun _ => .only fun _ => raise_keeps _
  | «continue» => exact raise_spec fun c h => h.1
  | other name => exact raise_spec fun c h => h.1

theorem blockingNegotiateLoop_spec :
    Spec A (Shaking p) blockingNegotiateLoop (fun _ => Sealed p) (fun _ => Sealed p) := by
  have shaken : ∀ {β : Type} {q : Prog Bool β}, Keeps A (Shaking p) q →
      Spec A (Shaking p) q (fun _ => Shaking p) (fun _ => Sealed p) := fun h =>
    h.mono (fun _ => id) (fun _ _ => id) (fun _ _ hc => hc.1)
  apply Spec.bind (shaken (Keeps.gets _))
  intro t
  apply Spec.bind (shaken (command_keeps _ _))
  intro _
  apply Spec.bind (shaken Keeps.patience)
  intro fuel
  apply Spec.bind (shaken (negotiateTurns_shaking _ _ _ _ _))
  intro _
  exact .bind (shaken (putsToken_shaking _ _)) fun _ => negotiated_spec _ _

/-- A state in which a channel negotiates is set. -/
theorem setState_shaking {state : State} (negotiable : state.negotiable = true) :
    Spec A (Sealed p) (setDict (fun t => { t with state := state }) : Prog κ Unit)
      (fun _ => Shaking p) P :=
  .modify fun c h =>
    ⟨(SealedAs.negotiating (u := { c.tls with state := state }) h negotiable).setTls _, negotiable⟩

theorem clientBlockingNegotiate_sealed : Keeps A (Sealed p) clientBlockingNegotiate := by
  refine Spec.bind (Q := fun _ => Shaking p) ?_ fun _ => blockingNegotiateLoop_spec
  apply dictWith_spec
  intro entry
  refine .bind (Q := fun _ x => SealedAs p x.1 x.2 ∧ x.1.state = .negotiating)
    (.modify fun x hx => ?_) fun _ => ?_
  · obtain ⟨copied, at_entry, hc⟩ := hx
    have hl : SealedAs p x.1 x.2 := copied ▸ at_entry ▸ hc
    exact ⟨hl.negotiating rfl, rfl⟩
  · refine (command_keeps _ _).mono (fun _ => id) (fun _ x hx => ?_) (fun _ x hx => ?_)
    · have written : SealedAs p (writeBack entry x.1 x.2.tls) x.2 := hx.1.congr rfl rfl
      exact ⟨written.setTls _, congrArg State.negotiable hx.2⟩
    · have written : SealedAs p (writeBack entry x.1 x.2.tls) x.2 := hx.1.congr rfl rfl
      exact written.setTls _

theorem serverBlockingNegotiate_sealed : Keeps A (Sealed p) serverBlockingNegotiate := by
  have shaken : ∀ {β : Type} {q : Prog Bool β}, Keeps A (Shaking p) q →
      Spec A (Shaking p) q (fun _ => Shaking p) (fun _ => Sealed p) := fun h =>
    h.mono (fun _ => id) (fun _ _ => id) (fun _ _ hc => hc.1)
  apply Spec.bind (setState_shaking rfl)
  intro _
  apply Spec.bind (shaken (Keeps.gets _))
  intro _
  apply Spec.bind (shaken (soCommand_keeps _ _))
  intro _
  apply Spec.bind (shaken (Keeps.only fun _ => raise_keeps _))
  intro _
  exact .bind (shaken (command_keeps _ _)) fun _ => blockingNegotiateLoop_spec

/-- What `_negotiate2` does with a step of the provider when it does not block. -/
theorem step_stepped_spec (socket : Bool) :
    Spec A (Shaking p)
      (do
        let (status, outdata, leftover) ← sspiStep
        putsToken socket outdata
        stepped status leftover)
      (fun _ => Sealed p) (fun _ => Sealed p) := by
  have shaken : ∀ {β : Type} {q : Prog Bool β}, Keeps A (Shaking p) q →
      Spec A (Shaking p) q (fun _ => Shaking p) (fun _ => Sealed p) := fun h =>
    h.mono (fun _ => id) (fun _ _ => id) (fun _ _ hc => hc.1)
  apply Spec.bind (shaken (command_keeps _ _))
  intro _
  exact .bind (shaken (putsToken_shaking _ _)) fun _ => stepped_spec _ _

/-- Negotiation opens a channel only for a verified peer; otherwise it leaves it
negotiating. -/
theorem negotiate2_sealed : Keeps A (Sealed p) negotiate2 := by
  have shaken : ∀ {β : Type} {q : Prog Bool β}, Keeps A (Shaking p) q →
      Spec A (Shaking p) q (fun _ => Shaking p) (fun _ => Sealed p) := fun h =>
    h.mono (fun _ => id) (fun _ _ => id) (fun _ _ hc => hc.1)
  refine Spec.bind (Q := fun t c => t = c.tls ∧ Sealed p c) (Spec.gets fun c h => ⟨rfl, h⟩)
    fun t => ?_
  have sealed : ∀ c, t = c.tls ∧ Sealed p c → Sealed p c := fun c h => h.2
  split
  case h_1 hstate =>
    have shaking : ∀ c, t = c.tls ∧ Sealed p c → Shaking p c := fun c h =>
      ⟨h.2, by rw [← h.1, hstate]; rfl⟩
    refine Spec.pre (Spec.ite (fun _ => blockingNegotiateLoop_spec) fun _ => ?_) shaking
    refine Spec.bind (shaken (soCommand_keeps _ _)) fun _ => Spec.ite (fun _ => ?_) fun _ => ?_
    · exact Spec.mono (Keeps.only fun _ => raise_keeps _) (fun _ => id) (fun _ _ hc => hc.1)
        (fun _ _ hc => hc.1)
    · exact step_stepped_spec _
  case h_2 =>
    refine Spec.pre (Spec.ite (fun _ => clientBlockingNegotiate_sealed) fun _ => ?_) sealed
    apply Spec.bind (setState_shaking rfl)
    intro _
    apply Spec.bind (shaken (command_keeps _ _))
    intro _
    apply Spec.bind (shaken (command_keeps _ _))
    intro _
    apply Spec.bind (shaken (putsToken_shaking _ _))
    intro _
    exact Spec.mono (Keeps.only fun _ => raise_keeps _) (fun _ => id) (fun _ _ hc => hc.1)
      (fun _ _ hc => hc.1)
  case h_3 =>
    refine Spec.pre (Spec.ite (fun _ => serverBlockingNegotiate_sealed) fun _ => ?_) sealed
    refine Keeps.bind (soCommand_keeps _ _) fun _ => Keeps.ite (fun _ => ?_) fun _ => ?_
    · exact Keeps.only fun _ => raise_keeps _
    · apply Spec.bind (setState_shaking rfl)
      intro _
      exact Spec.bind (shaken (command_keeps _ _)) fun _ => step_stepped_spec _
  case h_4 => exact Spec.pre (raise_keeps _) sealed

/-! ### Reading -/

/-- The variables of `read`'s block while it looks for more bytes: to find the
end of the stream it has to be open, which takes a verified peer. -/
def Reading (p : Bool) (x : Element × Chan) : Prop :=
  SealedAs p x.1 x.2 ∧ (p = true → x.1.state = .opened)

theorem Reading.verified {x : Element × Chan} (hp : p = true) (h : Reading p x) :
    x.2.verified = true := h.1.opened hp (h.2 hp)

theorem Reading.append {t : Element} {c : Chan} (hp : p = true) (h : Reading p (t, c))
    (plaintext : Bytes) : Reading p ({ t with input := t.input ++ plaintext }, c) where
  left :=
    { present := h.1.present
      unread := h.1.unread
      opened := h.1.opened
      hidden := fun _ hv => absurd (h.verified hp) (by rw [hv]; exact Bool.false_ne_true)
      shut := h.1.shut }
  right := h.2

theorem sspiDecryptStream_reading :
    Keeps A (Reading p) (Script.inside sspiDecryptStream : Body κ (StreamStatus × Bytes)) :=
  .inside fun _ => sspiDecryptStream_keeps fun _ _ h => ⟨h.1.logged rfl, h.2⟩

theorem reading_reading (hp : p = true) (block : Bool) :
    Keeps A (Reading p) (if block then do
        let fuel ← Script.patience
        readTurns fuel .ok
      else readAvailable) := by
  refine reading_keeps (fun rest => ?_) block
  apply Keeps.bind sspiDecryptStream_reading
  intro _
  exact .bind (setLocals_keeps fun _ _ h => h.append hp _) fun _ => rest _

/-- What `read` holds when it has the bytes it will get: unless the peer is
verified there are none, and the stream has not ended. -/
def Filled (status : StreamStatus) (x : Element × Chan) : Prop :=
  SealedAs true x.1 x.2 ∧ (x.2.verified = false → x.1.input = [] ∧ status = .ok)

theorem readMore_spec (nbytes : Nat) :
    Spec A (fun x => SealedAs true x.1 x.2 ∧ x.1.state.negotiable = false) (readMore nbytes) Filled
      (fun _ x => SealedAs true x.1 x.2) := by
  refine .bind (Q := fun l x => l = x.1 ∧ SealedAs true x.1 x.2 ∧ x.1.state.negotiable = false)
    (.gets fun x h => ⟨rfl, h⟩) fun l => .ite (fun more => ?_) fun _ => ?_
  · have isOpen : l.state = .opened := of_decide_eq_true (Bool.and_eq_true_iff.mp more).2
    have reading : ∀ x, l = x.1 ∧ SealedAs true x.1 x.2 ∧ x.1.state.negotiable = false →
        Reading true x := fun x h => ⟨h.2.1, fun _ => h.1 ▸ isOpen⟩
    have filled : ∀ {q : Body Pending StreamStatus}, Keeps A (Reading true) q →
        Spec A (Reading true) q Filled (fun _ x => SealedAs true x.1 x.2) := fun h =>
      h.mono (fun _ => id) (fun _ x hx => ⟨hx.1, fun hv =>
        absurd (hx.verified rfl) (by rw [hv]; exact Bool.false_ne_true)⟩) (fun _ _ hx => hx.1)
    exact .pre (filled (reading_reading rfl _)) reading
  · exact .pure fun x h => ⟨h.2.1, fun hv => ⟨h.2.1.hidden rfl hv h.2.2, rfl⟩⟩

theorem SealedAs.take {t : Element} {c : Chan} (h : SealedAs p t c) (n : Nat) :
    SealedAs p { t with input := t.input.drop n } c where
  present := h.present
  unread := h.unread
  opened := h.opened
  hidden hp hv hs := by
    change t.input.drop n = []
    rw [h.hidden hp hv hs, List.drop_nil]
  shut := h.shut

/-- The end of the stream is seen for a verified peer, and does not change that. -/
def Certain (x : Element × Chan) : Prop := x.2.present = true ∧ x.2.verified = true

theorem readShutdown_certain (status : StreamStatus) : Keeps A Certain (readShutdown status) := by
  refine .bind (setLocals_keeps fun _ _ => id) fun _ => ?_
  apply Keeps.bind (command_keeps _ _)
  intro outdata
  apply Keeps.bind (Keeps.gets _)
  intro l
  refine .only fun _ => .bind (.only fun _ => ?_) fun _ => ?_
  · exact .inside fun _ => putsShutdown_keeps fun _ => id
  · exact .bind (attempt_keeps (command_keeps _ _)) fun _ => setLocals_keeps fun _ _ => id

/-- What `read` returns is plaintext of a verified peer, or nothing. -/
theorem readBody_spec (nbytes : Nat) :
    Spec A (fun c => c.tls.state.negotiable = false ∧ Sealed true c) (readBody nbytes)
      (fun _ => Sealed true) (fun _ => Sealed true) := by
  have written : ∀ (entry : Element) (x : Element × Chan), SealedAs true x.1 x.2 →
      Sealed true { x.2 with tls := writeBack entry x.1 x.2.tls } := fun entry x h =>
    (h.congr (u := writeBack entry x.1 x.2.tls) rfl rfl).setTls _
  refine .bind (Q := fun ret c => Sealed true c ∧ (c.verified = false → ret = [])) ?_
    fun ret => record_spec fun c h => ?_
  · apply dictWith_spec
    intro entry
    apply Spec.bind (Q := Filled)
    · refine (readMore_spec nbytes).mono (fun x hx => ?_) (fun _ _ => id) (fun _ => written entry)
      obtain ⟨copied, at_entry, negotiable, hc⟩ := hx
      exact ⟨copied ▸ at_entry ▸ hc, copied ▸ at_entry ▸ negotiable⟩
    · intro status
      refine .bind (Q := fun l x => l = x.1 ∧ Filled status x) (.gets fun x h => ⟨rfl, h⟩)
        fun l => ?_
      -- From here on `l` has what is returned, and the variables have the rest.
      let Kept : Element × Chan → Prop := fun x =>
        SealedAs true x.1 x.2 ∧ (x.2.verified = false → l.input = [] ∧ status = .ok)
      have kept : ∀ {β : Type} {q : Body Pending β}, Keeps A Kept q →
          Spec A Kept q (fun _ => Kept)
            (fun _ x => Sealed true { x.2 with tls := writeBack entry x.1 x.2.tls }) := fun h =>
        h.mono (fun _ => id) (fun _ _ => id) (fun _ x hx => written entry x hx.1)
      refine .bind (Q := fun _ => Kept) (.modify fun x h => ?_) fun _ => ?_
      · exact ⟨h.2.1.take nbytes, fun hv => by rw [h.1]; exact h.2.2 hv⟩
      apply Spec.bind (kept (Keeps.inside fun _ => Keeps.gets _))
      intro t
      refine .bind (kept (.only fun _ => .inside fun _ => ?_)) fun _ => ?_
      · exact setDict_keeps fun c h => ⟨h.1.setTls _, h.2⟩
      refine .bind (Q := fun _ x => SealedAs true x.1 x.2 ∧ (x.2.verified = false → l.input = []))
        ?_ fun _ => .pure fun x h => ⟨written entry x h.1, fun hv => ?_⟩
      · refine .only (fun ended => ?_) fun x _ h => ⟨h.1, fun hv => (h.2 hv).1⟩
        have certain : ∀ x, Kept x → Certain x := fun x h => by
          refine ⟨h.1.present, ?_⟩
          cases hv : x.2.verified with
          | true => rfl
          | false => exact absurd (h.2 hv).2 (of_decide_eq_true ended)
        refine (readShutdown_certain status).mono certain (fun _ x h => ?_)
          (fun _ x h => SealedAs.of_verified h.1 h.2)
        exact ⟨.of_verified h.1 h.2, fun hv => absurd h.2 (by rw [hv]; exact Bool.false_ne_true)⟩
      · rw [h.2 hv]
        exact List.take_nil
  · refine ⟨h.1.present, fun hv => ?_, h.1.opened, h.1.hidden, h.1.shut⟩
    rw [Chan.returned_logged, SealedAs.unread h.1 hv, h.2 hv]
    rfl

/-! ### Calls -/

theorem readNegotiated_spec (nbytes : Nat) : Keeps A (Sealed true) (readNegotiated nbytes) := by
  refine Spec.bind (Q := fun t c => t = c.tls ∧ Sealed true c) (Spec.gets fun c h => ⟨rfl, h⟩)
    fun t => .ite (fun _ => ?_) fun negotiable => ?_
  · exact .pre (.ite (fun _ => raise_keeps _) fun _ => raise_keeps _) fun c h => h.2
  · refine (readBody_spec nbytes).pre fun c h => ⟨?_, h.2⟩
    rw [← h.1]
    exact Bool.not_eq_true _ ▸ negotiable

/-- What comes after `_channels($chan)` is read may take the element for granted. -/
theorem expectElement_bind (h : Keeps A (Sealed true) q) :
    Keeps A (Sealed p) (do expectElement; q) := by
  refine Spec.bind (Q := fun _ c => p = true ∧ Sealed p c)
    (expectElement_spec.mono (fun _ => id) (fun _ c hc => ⟨hc.2.present ▸ hc.1, hc.2⟩)
      (fun _ _ => id)) fun _ => .fact fun hp => ?_
  subst hp
  exact h

theorem read_sealed (nbytes : Nat) : Keeps A (Sealed p) (read nbytes) := by
  refine .ite (fun _ => record_sealed rfl) fun _ => expectElement_bind ?_
  refine Spec.bind (Q := fun t c => t = c.tls ∧ Sealed true c) (Spec.gets fun c h => ⟨rfl, h⟩)
    fun t => .ite (fun _ => ?_) fun negotiable => ?_
  · exact .pre (.bind (negotiation_keeps negotiate2_sealed) fun _ => readNegotiated_spec _)
      fun c h => h.2
  · refine (readBody_spec nbytes).pre fun c h => ⟨?_, h.2⟩
    rw [← h.1]
    exact Bool.not_eq_true _ ▸ negotiable

theorem writeBody_sealed (data : Bytes) : Keeps A (Sealed p) (writeBody data) := by
  have logged : ∀ {e : Io}, e.plaintext = [] →
      Keeps A (fun x : Element × Chan => SealedAs p x.1 x.2)
        (.inside (record e) : Body Pending Unit) := fun quiet =>
    inside_sealed fun _ => record_keeps fun _ h => h.logged quiet
  refine dictWith_sealed (.bind (.gets _) fun l => ?_)
  split
  · exact logged rfl
  · apply Keeps.bind (Keeps.only fun _ => raise_keeps _)
    intro _
    refine .bind (inside_sealed fun t => ?_) fun _ => ?_
    -- The block of `_flush_pending_output` is nested: its element is not looked at.
    · refine dictWith_spec fun entry => .mono (M := fun x => SealedAs p t x.2) ?_
        (fun x h => h.2.2) (fun _ _ h => SealedAs.setTls h _) (fun _ _ h => SealedAs.setTls h _)
      apply Keeps.bind (Keeps.gets _)
      intro _
      apply Keeps.only
      intro _
      exact .bind (.inside fun _ => putsEncrypted_sealedAs) fun _ =>
        setLocals_keeps fun _ _ => id
    · apply Keeps.bind (inside_sealed fun _ => putsEncrypted_sealedAs)
      intro _
      exact .bind (logged rfl) fun _ => soCommand_keeps _ _
  · exact .bind (setLocals_keeps fun _ _ h => h.congr rfl rfl) fun _ => logged rfl

theorem writeNegotiated_sealed (data : Bytes) : Keeps A (Sealed p) (writeNegotiated data) := by
  refine .bind (.gets _) fun _ => .ite (fun _ => ?_) fun _ => writeBody_sealed _
  apply Keeps.ite (fun _ => raise_keeps _)
  intro _
  exact .bind (setDict_sealed (fun _ => rfl) fun _ => rfl) fun _ => record_sealed rfl

theorem write_sealed (data : Bytes) : Keeps A (Sealed p) (write data) := by
  refine expectElement_bind (.bind (.gets _) fun _ => .ite (fun _ => ?_) fun _ => ?_)
  · exact .bind (negotiation_keeps negotiate2_sealed) fun _ => writeNegotiated_sealed _
  · exact writeBody_sealed _

theorem blocking_sealed (mode : Bool) : Keeps A (Sealed p) (blocking mode) :=
  blocking_keeps (J := SealedAs p) sealed_written fun _ _ h => h.congr rfl rfl

theorem watch_sealed (watchMask : WatchMask) : Keeps A (Sealed p) (watch watchMask) :=
  watch_keeps (J := SealedAs p) sealed_written (fun _ _ h => h.congr rfl rfl)
    fun _ _ _ h => h.setTls _

theorem closeWrite_sealed : Keeps A (Sealed p) closeWrite :=
  closeWrite_keeps flushPendingOutput_sealed (setDict_sealed (fun _ => rfl) fun _ => rfl)

theorem postReadEvent_sealed : Keeps A (Sealed p) (postReadEvent : Prog κ Unit) :=
  setDict_sealed (fun _ => rfl) fun _ => rfl

theorem postWriteEvent_sealed : Keeps A (Sealed p) (postWriteEvent : Prog κ Unit) :=
  setDict_sealed (fun _ => rfl) fun _ => rfl

theorem postReadEventCallback_sealed : Keeps A (Sealed p) postReadEventCallback :=
  .bind (.gets _) fun _ => .only fun _ => setDict_sealed (fun _ => rfl) fun _ => rfl

theorem postWriteEventCallback_sealed : Keeps A (Sealed p) postWriteEventCallback :=
  .bind (.gets _) fun _ => .only fun _ => setDict_sealed (fun _ => rfl) fun _ => rfl

theorem create_sealed (k : Creation) : Keeps A (Sealed p) (create k) :=
  create_spec k (fun _ => id) negotiate2_sealed clientBlockingNegotiate_sealed blocking_sealed

/-- A caller goes on only where `_channels($chan)` still exists. -/
theorem resume_sealed (r : Return) : Keeps A (Sealed true) (resume r) := by
  unfold resume
  cases r.caller with
  | create k => exact .only fun _ => expectOpen_keeps
  | read nbytes => exact readNegotiated_spec _
  | write data => exact writeNegotiated_sealed _
  | handshake => exact record_sealed rfl
  | soReadHandler => exact soReadNegotiated_keeps postReadEvent_sealed
  | soWriteHandler watchMask => exact soWriteNegotiated_keeps postWriteEvent_sealed _

theorem verified_sealed (f : Frame) (result : Except String Bool) :
    Keeps A (Sealed p) (verified f result) := by
  apply Spec.bind (negotiation_spec (verifierReturned_spec f.socket result))
  intro _
  apply Spec.fact
  intro hp
  subst hp
  exact resume_sealed f.ret

/-! ### Closing -/

theorem Leaving.logged (h : Leaving c) (quiet : e.plaintext = []) : Leaving (c.logged e) where
  unread hv := by rw [Chan.returned_logged, h.unread hv, quiet]; rfl
  opened := h.opened

theorem Leaving.safe (h : Leaving c) (done : c.present = true → c.verified = true) : Safe c := by
  unfold Safe
  cases hp : c.present with
  | true => exact SealedAs.of_verified hp (done hp)
  | false => exact Sealed.of_absent hp h.unread

/-- Only the provider's shutdown of an open connection can keep the element. -/
theorem cleanup_spec :
    Spec A Leaving (cleanup : Prog κ Unit) (fun _ => Safe) (fun _ => Safe) := by
  apply Spec.bind (Q := fun a c => a = c ∧ Leaving c) (Spec.gets fun c h => ⟨rfl, h⟩)
  intro a
  refine Spec.only (fun _ => ?_) fun c absent h =>
    h.2.safe fun hp => absurd hp (by rw [← h.1, absent]; exact Bool.false_ne_true)
  apply Spec.bind (Q := fun _ => Leaving)
  · refine Spec.only (fun isOpen => ?_) fun c _ h => h.2
    have verified : ∀ c, a = c ∧ Leaving c → Leaving c ∧ (c.present = true → c.verified = true) :=
      fun c h => ⟨h.2, fun hp => h.2.opened hp (h.1 ▸ of_decide_eq_true isOpen)⟩
    refine Spec.mono (M := fun c => Leaving c ∧ (c.present = true → c.verified = true))
      (Keeps.bind (command_keeps _ _) fun _ => Keeps.only fun _ => ?_) verified (fun _ _ h => h.1)
      (fun _ _ h => h.1.safe h.2)
    exact attempt_keeps (putsShutdown_keeps fun _ h => ⟨h.1.logged rfl, h.2⟩)
  · intro _
    apply Spec.bind (attempt_command_spec _ _)
    intro _
    apply Spec.bind (Spec.only (fun _ => attempt_command_spec _ _) fun _ _ => id)
    intro _
    apply Spec.bind (Spec.only (fun _ => attempt_command_spec _ _) fun _ _ => id)
    intro _
    exact Spec.modify fun c h => (Sealed.of_absent (c := { c with present := false }) rfl h.unread).safe

theorem finalize_spec : Spec A Leaving (finalize : Prog κ Unit) (fun _ => Safe) (fun _ => Safe) :=
  .bind (Q := fun _ => Leaving) (.modify fun _ h => ⟨h.unread, h.opened⟩) fun _ =>
    cleanup_spec

/-- A channel that was closed before, and still has its element, was open. -/
theorem closeChan_spec :
    Spec A (fun c => Leaving c ∧ (c.present = true → c.alive = false → c.verified = true))
      (closeChan : Prog κ Unit) (fun _ => Safe) (fun _ => Safe) := by
  refine .bind (Q := fun a c => a = c ∧ Leaving c ∧
    (c.present = true → c.alive = false → c.verified = true)) (.gets fun c h => ⟨rfl, h⟩)
    fun a => .ite (fun _ => finalize_spec.pre fun c h => h.2.1) fun dead => ?_
  exact raise_spec fun c h => h.2.1.safe fun hp => h.2.2 hp (h.1 ▸ Bool.not_eq_true _ ▸ dead)

theorem cleanupFailedAccept_spec :
    Spec A (Sealed p) (cleanupFailedAccept : Prog κ Unit) (fun _ => Safe) (fun _ => Safe) := by
  refine .bind (Q := fun _ => Sealed p) (.modify fun c h => SealedAs.cleanups h _)
    fun _ => ?_
  refine .bind (Q := fun _ => Sealed p) (.gets fun _ => id) fun _ =>
    .only (fun _ => ?_) fun c _ h => h.safe
  exact closeChan_spec.pre fun c h => ⟨h.leaving, fun hp => SealedAs.shut h (h.present ▸ hp)⟩

/-! ### Errors -/

/-- An error on its way to the caller: `Input` may hold plaintext of an
unverified peer if the caller will close the channel, that is unless `stays`. -/
structure Thrown (stays : Prop) (c : Chan) : Prop where
  leaving : Leaving c
  shut : c.present = true → c.alive = false → c.verified = true
  safe : stays → Safe c

theorem Safe.thrown {stays : Prop} (h : Safe c) : Thrown stays c :=
  ⟨h.leaving, SealedAs.shut h, fun _ => h⟩

/-- The caller is not the creation of the channel. -/
def Caller.Stays (caller : Caller) : Prop := ∀ k, caller ≠ .create k

theorem fail_spec (caller : Caller) (e : Err) :
    Spec A (Thrown caller.Stays) (fail caller e) (fun _ => Safe) (fun _ => Safe) := by
  refine .bind (Q := fun _ => Safe) ?_ fun _ => raise_spec (E := fun _ => Safe) fun _ => id
  unfold discard
  split
  · exact attempt_spec (E := fun _ => Safe) (cleanup_spec.pre fun c h => h.leaving) fun _ _ => id
  · exact attempt_spec (E := fun _ => Safe) (closeChan_spec.pre fun c h => ⟨h.leaving, h.shut⟩)
      fun _ _ => id
  · rename_i created
    refine .pure fun c h => h.safe ?_
    rintro k rfl
    exact created k rfl

theorem failing_spec (caller : Caller) {P : Chan → Prop} (h : Spec A P q (fun _ => Safe)
      (fun stop c => Thrown caller.Stays c ∧ ((∃ k, stop = .pending k) → Safe c))) :
    Spec A P (failing caller q) (fun _ => Safe) (fun _ => Safe) := by
  apply Spec.handle h
  intro stop
  cases stop with
  | error e => exact (fail_spec caller e).pre fun c hc => hc.1
  | pending k => exact .throw fun c hc => hc.2 ⟨k, rfl⟩

theorem safe_spec (h : ∀ p, Keeps A (Sealed p) q) :
    Spec A Safe q (fun _ => Safe) (fun _ => Safe) :=
  .pre (.exists fun p => (h p).mono (fun _ => id) (fun _ _ => Sealed.safe)
    (fun _ _ => Sealed.safe)) fun c hc => ⟨c.present, hc⟩

/-- What keeps the channel sealed may be followed by any handling of errors. -/
theorem failing_safe (caller : Caller) (h : ∀ p, Keeps A (Sealed p) q) :
    Spec A Safe (failing caller q) (fun _ => Safe) (fun _ => Safe) :=
  failing_spec caller ((safe_spec h).mono (fun _ => id) (fun _ _ => id)
    (fun _ _ hc => ⟨hc.thrown, fun _ => hc⟩))

/-- `onerror` makes the channel readable. It is harmless unless it finds
plaintext of an unverified peer in a channel that stays. -/
theorem negotiateOnerror_spec {stays : Prop} {E : Stop κ → Chan → Prop} (e : Err) :
    Spec A (fun c => Safe c ∧ (stays → c.verified = true ∨ c.tls.input = []))
      (negotiateOnerror e : Prog κ Unit) (fun _ => Thrown stays) E := by
  refine .bind (Q := fun a c => a = c ∧ Safe c ∧ (stays → c.verified = true ∨ c.tls.input = []))
    (.gets fun c h => ⟨rfl, h⟩) fun a => .only (fun _ => ?_) fun c _ h => h.2.1.thrown
  refine .bind (Q := fun _ c => Safe c ∧ (stays → c.verified = true ∨ c.tls.input = []))
    (.only (fun _ => ?_) fun c _ h => h.2) fun _ => ?_
  · exact .modify fun c h => ⟨SealedAs.cleanups h.2.1 _, h.2.2⟩
  · refine .bind (Q := fun _ => Thrown stays) (.modify fun c h => ?_) fun _ => ?_
    · have unread := SealedAs.unread (c := c) h.1
      have shut := SealedAs.shut (c := c) h.1
      refine ⟨⟨unread, nofun⟩, shut, fun hs => ?_⟩
      refine ⟨rfl, unread, nofun, fun _ hv _ => ?_, shut⟩
      exact (h.2 hs).resolve_left (by rw [show c.verified = false from hv]; exact Bool.false_ne_true)
    · refine .only (fun _ => ?_) fun c _ => id
      apply Spec.bind (attempt_command_spec _ _)
      intro _
      apply Spec.modify
      intro c h
      refine ⟨⟨h.leaving.unread, h.leaving.opened⟩, h.shut, fun hs => ?_⟩
      exact (SealedAs.congr (u := { c.tls with socket := false }) (h.safe hs) rfl rfl).setTls _

theorem trapped_spec (caller : Caller) (e : Err) :
    Spec A (fun c => Safe c ∧ (caller.Stays → c.verified = true ∨ c.tls.input = []))
      (failing caller (trapped e)) (fun _ => Safe) (fun _ => Safe) := by
  refine failing_spec caller (.bind (negotiateOnerror_spec e) fun _ => raise_spec fun c h => ?_)
  exact ⟨h, nofun⟩

/-! ### Runs -/

theorem Safe.logged (h : Safe c) (quiet : e.plaintext = []) : Safe (c.logged e) :=
  SealedAs.logged h quiet

theorem enter_safe (call : Call) : Spec A Safe (enter call) (fun _ => Safe) (fun _ => Safe) := by
  cases call with
  | read nbytes => exact safe_spec fun _ => read_sealed _
  | write data => exact safe_spec fun _ => write_sealed _
  | blocking mode => exact safe_spec fun _ => expectElement_bind (blocking_sealed _)
  | watch watchMask => exact safe_spec fun _ => expectElement_bind (watch_sealed _)
  | finalize => exact finalize_spec.pre fun _ h => h.leaving
  | handshake => exact safe_spec fun _ =>
    handshake_keeps negotiate2_sealed fun _ => record_sealed rfl
  | closeWrite => exact safe_spec fun _ => closeWrite_sealed
  | soReadHandler => exact safe_spec fun _ => soReadHandler_keeps negotiate2_sealed postReadEvent_sealed
  | soWriteHandler => exact safe_spec fun _ => soWriteHandler_keeps negotiate2_sealed postWriteEvent_sealed
  | postReadEventCallback => exact safe_spec fun _ => postReadEventCallback_sealed
  | postWriteEventCallback => exact safe_spec fun _ => postWriteEventCallback_sealed
  | cleanupFailedAccept => exact .pre (.exists fun p => cleanupFailedAccept_spec (p := p)) fun c hc => ⟨c.present, hc⟩

theorem settle_safe {frames : List Frame} {P : Chan → Prop} {w : List Answer} {s : Conn}
    (h : Spec (fun _ => True) P q (fun _ => Safe) (fun _ => Safe)) (hc : P c)
    (run : settle frames (q c w) = some s) : Safe s.chan :=
  settle_spec (fun _ _ hc => hc.logged rfl) h (fun _ _ => trivial) hc run

/-- Where `onerror` begins on a channel that stays, the peer is verified or
nothing of it was decrypted. -/
def Withheld (s : Conn) : Label → Prop
  | .onerror _ =>
    match s.pc with
    | .onerror (.create _) _ => True
    | _ => s.chan.verified = true ∨ s.chan.tls.input = []
  | _ => True

instance (s : Conn) (a : Label) : Decidable (Withheld s a) := by
  unfold Withheld
  split
  · split <;> infer_instance
  · infer_instance

theorem safe_step {s u : Conn} {a : Label} (safe : Safe s.chan) (withheld : Withheld s a)
    (h : machine.step s a = some u) : Safe u.chan := by
  change step s a = some u at h
  unfold step at h
  split at h
  case h_1 w =>
    split at h
    · exact settle_safe (failing_safe _ fun _ => create_sealed _) safe h
    · cases h
  case h_2 call w =>
    split at h
    · exact settle_safe (enter_safe call) safe h
    · cases h
  case h_3 w =>
    split at h
    · rename_i caller e hpc
      refine settle_safe (trapped_spec caller e) ⟨safe, fun stays => ?_⟩ h
      unfold Withheld at withheld
      rw [hpc] at withheld
      cases caller with
      | create k => exact absurd rfl (stays k)
      | _ => exact withheld
    · cases h
  case h_4 result w =>
    split at h
    · exact settle_safe (failing_safe _ fun _ => verified_sealed _ _) safe h
    · cases h

theorem reaches_chan_safe {s : Conn} (run : machine.Reaches Withheld s) : Safe s.chan := by
  refine run.invariant (P := fun s => Safe s.chan) ?_ fun s a u => safe_step
  rintro s ⟨k, blocking, verifier, freeCredentials, rfl⟩
  refine ⟨rfl, fun _ => rfl, fun _ => ?_, fun _ _ _ => rfl, fun _ => nofun⟩
  cases k <;> exact nofun

/-- In every run in which `onerror` finds no plaintext of an unverified peer,
nothing that such a peer sent is returned to the script. -/
theorem reaches_unread {s : Conn} (run : machine.Reaches Withheld s)
    (unverified : s.chan.verified = false) : s.chan.returned = [] :=
  SealedAs.unread (reaches_chan_safe run) unverified

/-- A client whose verifier refuses the peer, then reads. `leftover` came with
the last token. -/
def refused (leftover : Bytes) (decrypted : List Answer) (closing : List Label) : List Label :=
  [.create [.done, .done, .done, .done, .done, .step .«continue» [1] [], .done, .done],
    .call .soReadHandler ([.data [2] false, .step .done [] leftover] ++ decrypted),
    .verifier (.ok false) [], .onerror [.done]] ++ closing

theorem reaches_unread_refused :
    ∃ s : Conn, Io.returned [] ∈ s.chan.log ∧ s.chan.verified = false ∧ s.chan.returned = [] := by
  obtain ⟨s, run, hread, hverified⟩ := Machine.Reaches.exists_of_run (M := machine) (G := Withheld)
    (refused [] [] [.call (.read 4) []])
    (fun s => Io.returned [] ∈ s.chan.log ∧ s.chan.verified = false)
    ⟨.starttlsClient, false, true, true, rfl⟩ (by decide)
  exact ⟨s, hread, hverified, reaches_unread run hverified⟩

/-! ### Where the guard fails -/

/-- Application data that came with the last token is read after the verifier
refused the peer. -/
theorem refused_peer_read :
    ¬ ∀ s, machine.Reachable s → s.chan.verified = false → s.chan.returned = [] := by
  intro claim
  obtain ⟨s, run, hread, hverified⟩ := Machine.Reaches.exists_of_run (M := machine)
    (G := fun _ _ => True) (refused [3] [.stream .ok [65]] [.call (.read 4) []])
    (fun s => s.chan.returned = [65] ∧ s.chan.verified = false)
    ⟨.starttlsClient, false, true, true, rfl⟩ (by decide)
  rw [claim s run hverified] at hread
  cases hread

end Twapi.Tls
