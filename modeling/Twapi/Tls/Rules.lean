import Twapi.Tls.Session

/-!
Rules for the procedures of a channel, over an invariant that is left open.

* `command_keeps` and the rules after it — a command changes nothing but the log,
  so the invariant only has to bear the entry it makes.
* `dictWith_spec`, `dictWith_keeps` — the block of a `dict with`.
* `attempt_spec` — what `catch` does with an error.
* `negotiation_keeps` and the rules after it — calls, over what negotiation keeps.
* `settle_spec` — a call seen by the machine.
-/

namespace Twapi.Tls

open Lib Script

variable {σ κ α : Type} {A : Answer → Prop}

/-- The channel with one more entry in its log. -/
def Chan.logged (c : Chan) (e : Io) : Chan := { c with log := c.log ++ [e] }

@[simp] theorem Chan.returned_logged (c : Chan) (e : Io) :
    (c.logged e).returned = c.returned ++ e.plaintext := by
  simp [Chan.returned, Chan.logged]

/-! ### Commands -/

section Commands

variable {I : σ → Prop}

variable {E : Stop κ → σ → Prop} {P : σ → Prop}

theorem raise_spec {Q : α → σ → Prop} {e : Err} (h : ∀ s, P s → E (.error e) s) :
    Spec A P (raise e : Script σ Answer (Stop κ) α) Q E :=
  .throw h

theorem raise_keeps (e : Err) : Keeps A I (raise e : Script σ Answer (Stop κ) α) := Keeps.throw _

/-- A command stops the script with an error of its own only. -/
theorem command_spec (name : Command) (fits : Answer → Option α) :
    Spec A P (command name fits : Script σ Answer (Stop κ) α) (fun _ => P)
      (fun stop s => P s ∧ ∃ text, stop = .error (.command text)) := by
  apply Spec.bind (Spec.ask (Q := fun _ => P) fun _ _ _ => id)
  intro a
  cases a with
  | fail failed text =>
    exact .ite (fun _ => raise_spec fun s hs => ⟨hs, text, rfl⟩) fun _ => .stuck
  | _ =>
    dsimp only
    split
    · exact .pure fun _ => id
    · exact .stuck

theorem command_keeps (name : Command) (fits : Answer → Option α) :
    Keeps A I (command name fits : Script σ Answer (Stop κ) α) :=
  (command_spec name fits).mono (fun _ => id) (fun _ _ => id) (fun _ _ h => h.1)

theorem soCommand_keeps (socket : Bool) (fits : Answer → Option α) :
    Keeps A I (soCommand socket fits : Script σ Answer (Stop κ) α) :=
  .ite (fun _ => command_keeps _ fits) (fun _ => raise_keeps _)

variable {p : Script σ Answer (Stop κ) Unit}

/-- `catch` continues from what the body establishes when it raises an error. -/
theorem attempt_spec {Q : Unit → σ → Prop} (body : Spec A P p Q E)
    (caught : ∀ e s, E (.error e) s → Q () s) :
    Spec A P (attempt p) Q E := by
  refine .mono (.handle (F := E) body fun e => ?_) (fun _ => id) (fun _ _ => id)
    (fun _ _ => id)
  cases e with
  | error e => exact .pure (caught e)
  | pending k => exact .throw fun _ => id

/-- A command in a `catch` does not stop the script. -/
theorem attempt_command_spec (name : Command) (fits : Answer → Option Unit) :
    Spec A P (attempt (command name fits) : Script σ Answer (Stop κ) Unit) (fun _ => P) E := by
  apply Spec.handle (command_spec name fits)
  intro stop
  cases stop with
  | error e => exact .pure fun _ h => h.1
  | pending k => exact .throw fun _ h => absurd h.2 nofun

theorem attempt_keeps (h : Keeps A I p) :
    Keeps A I (attempt p) :=
  attempt_spec h fun _ _ => id

end Commands

section Log

variable {I : Chan → Prop}

theorem record_spec {P : Chan → Prop} {Q : Unit → Chan → Prop} {E : Stop κ → Chan → Prop} {e : Io}
    (h : ∀ c, P c → Q () (c.logged e)) : Spec A P (record e : Prog κ Unit) Q E :=
  .modify h

theorem record_keeps {e : Io} (h : ∀ c, I c → I (c.logged e)) :
    Keeps A I (record e : Prog κ Unit) := .modify h

theorem setDict_keeps {f : Element → Element} (h : ∀ c, I c → I { c with tls := f c.tls }) :
    Keeps A I (setDict f : Prog κ Unit) := .modify h

theorem putsToken_keeps {socket : Bool} {outdata : Bytes}
    (h : ∀ c, I c → I (c.logged (.sent outdata))) :
    Keeps A I (putsToken socket outdata : Prog κ Unit) :=
  .only fun _ => .bind (soCommand_keeps _ _) fun _ =>
    .bind (record_keeps h) fun _ => soCommand_keeps _ _

theorem putsShutdown_keeps {outdata : Bytes} (h : ∀ c, I c → I (c.logged (.sent outdata))) :
    Keeps A I (putsShutdown outdata : Prog κ Unit) :=
  .bind (command_keeps _ _) fun _ => record_keeps h

theorem sspiDecryptStream_keeps (h : ∀ plaintext c, I c → I (c.logged (.decrypted plaintext))) :
    Keeps A I (sspiDecryptStream : Prog κ (StreamStatus × Bytes)) :=
  .bind (command_keeps _ _) fun _ =>
    .bind (record_keeps (h _)) fun _ => .pure _

theorem putsEncrypted_keeps {socket : Bool} {data : Bytes}
    (h : ∀ cipher c, I c → I (c.logged (.transmitted data cipher))) :
    Keeps A I (putsEncrypted socket data : Prog κ Unit) :=
  .bind (.only fun _ => raise_keeps _) fun _ =>
    .bind (command_keeps _ _) fun cipher =>
      .bind (soCommand_keeps _ _) fun _ => record_keeps (h cipher)

section Sends

variable (sends : ∀ outdata c, I c → I (c.logged (.sent outdata)))
include sends

/-- The turns of negotiation, which send tokens. -/
theorem negotiateTurns_keeps (socket : Bool) (fuel : Nat) (status : StepStatus) (outdata : Bytes)
    (leftover : Option Bytes) :
    Keeps A I (negotiateTurns socket fuel status outdata leftover) := by
  induction fuel generalizing status outdata leftover with
  | zero => exact .ite (fun _ => .stuck) (fun _ => .pure _)
  | succ fuel ih =>
    refine .ite (fun _ => ?_) (fun _ => .pure _)
    apply Keeps.bind (putsToken_keeps (sends _))
    intro _
    apply Keeps.bind (soCommand_keeps _ _)
    intro _
    apply Keeps.bind (Keeps.only fun _ => raise_keeps _)
    intro _
    refine .bind (.handle (command_keeps _ _) fun e => ?_) fun _ => ih _ _ _
    exact .bind (soCommand_keeps _ _) fun _ => .throw e

theorem cleanup_keeps (leaves : ∀ c, I c → I { c with present := false }) :
    Keeps A I (cleanup : Prog κ Unit) := by
  have discarded : ∀ name, Keeps A I (attempt (command name Answer.done?) : Prog κ Unit) :=
    fun _ => attempt_keeps (command_keeps _ _)
  refine .bind (.gets _) fun _ => .only fun _ => .bind ?_ fun _ => ?_
  · apply Keeps.only
    intro _
    apply Keeps.bind (command_keeps _ _)
    intro _
    apply Keeps.only
    intro _
    exact attempt_keeps (putsShutdown_keeps (sends _))
  · apply Keeps.bind (discarded _)
    intro _
    apply Keeps.bind (Keeps.only fun _ => discarded _)
    intro _
    exact .bind (.only fun _ => discarded _) fun _ => .modify leaves

end Sends

end Log

/-! ### Blocks -/

/-- The block starts with the variables equal to the element, and its outcome
counts once they are written back. -/
theorem dictWith_spec {P : Chan → Prop} {Q : α → Chan → Prop} {E : Stop κ → Chan → Prop}
    {body : Body κ α}
    (block : ∀ entry, Spec A (fun x => x.1 = entry ∧ x.2.tls = entry ∧ P x.2) body
      (fun a x => Q a { x.2 with tls := writeBack entry x.1 x.2.tls })
      (fun e x => E e { x.2 with tls := writeBack entry x.1 x.2.tls })) :
    Spec A P (dictWith body) Q E :=
  .within fun entry =>
    (block entry).pre fun _ ⟨at_entry, copied, hx⟩ => ⟨copied, at_entry.symm, hx⟩

/-- An invariant of the variables and the rest of the channel, kept by the block
and indifferent to the element, which the variables replace. -/
theorem dictWith_keeps {J : Element → Chan → Prop} {body : Body κ α}
    (written : ∀ entry l c, J l c →
      J (writeBack entry l c.tls) { c with tls := writeBack entry l c.tls })
    (block : Keeps A (fun x => J x.1 x.2) body) :
    Keeps A (fun c => J c.tls c) (dictWith body) :=
  dictWith_spec fun entry =>
    block.mono (fun _ ⟨copied, at_entry, hx⟩ => copied ▸ at_entry ▸ hx)
      (fun _ _ => written entry _ _) (fun _ _ => written entry _ _)

theorem setLocals_keeps {J : Element × Chan → Prop} {f : Element → Element}
    (h : ∀ l c, J (l, c) → J (f l, c)) : Keeps A J (setLocals f : Body κ Unit) :=
  .modify fun x => h x.1 x.2

/-! ### Reading -/

section Reading

variable {J : Element × Chan → Prop}
  (decrypts : ∀ {α : Type} {p : StreamStatus → Body Pending α}, (∀ status, Keeps A J (p status)) →
    Keeps A J do
      let (status, plaintext) ← Script.inside sspiDecryptStream
      setLocals fun l => { l with input := l.input ++ plaintext }
      p status)
include decrypts

theorem readTurns_keeps (fuel : Nat) (status : StreamStatus) :
    Keeps A J (readTurns fuel status) := by
  induction fuel generalizing status with
  | zero =>
    exact .bind (.gets _) fun _ =>
      .ite (fun _ => .stuck) fun _ => .pure _
  | succ fuel ih =>
    refine .bind (.gets _) fun _ => .ite (fun _ => ?_) fun _ => .pure _
    apply Keeps.bind (soCommand_keeps _ _)
    intro _
    exact .ite (fun _ => ih _) fun _ => decrypts ih

theorem readAvailable_keeps : Keeps A J readAvailable := by
  apply Keeps.bind (Keeps.gets _)
  intro _
  apply Keeps.bind (soCommand_keeps _ _)
  intro _
  refine .ite (fun _ => ?_) fun _ => ?_
  · apply Keeps.bind (Keeps.gets _)
    intro _
    exact .bind (.only fun _ => raise_keeps _) fun _ => .pure _
  · refine decrypts (p := fun status => do
      let l ← locals
      .only (l.input.isEmpty && decide (status = .ok)) (raise .eagain)
      Pure.pure status) fun _ => ?_
    apply Keeps.bind (Keeps.gets _)
    intro _
    exact .bind (.only fun _ => raise_keeps _) fun _ => .pure _

/-- What `read` adds to the input, by either way. -/
theorem reading_keeps (block : Bool) :
    Keeps A J (if block then do
        let fuel ← Script.patience
        readTurns fuel .ok
      else readAvailable) :=
  .ite (fun _ => .bind .patience fun _ => readTurns_keeps decrypts _ _)
    fun _ => readAvailable_keeps decrypts

theorem readMore_keeps (nbytes : Nat) : Keeps A J (readMore nbytes) :=
  .bind (.gets _) fun _ =>
    .ite (fun _ => reading_keeps decrypts _) fun _ => .pure _

end Reading

section Driver

variable {J : Element → Chan → Prop}
  (written : ∀ entry l c, J l c →
    J (writeBack entry l c.tls) { c with tls := writeBack entry l c.tls })
include written

theorem blocking_keeps {mode : Bool} (set : ∀ l c, J l c → J { l with blocking := mode } c) :
    Keeps A (fun c => J c.tls c) (blocking mode) := by
  refine dictWith_keeps written (.bind (setLocals_keeps set) fun _ => ?_)
  apply Keeps.bind (Keeps.gets _)
  intro _
  apply Keeps.only
  intro _
  exact .bind (command_keeps _ _) fun _ => .bind (command_keeps _ _) fun _ =>
    .bind (command_keeps _ _) fun _ => command_keeps _ _

theorem watch_keeps {watchMask : WatchMask}
    (set : ∀ l c, J l c → J { l with watchMask := watchMask } c)
    (posted : ∀ l c u, J l c → J l { c with tls := u }) :
    Keeps A (fun c => J c.tls c) (watch watchMask) := by
  refine dictWith_keeps written (.bind (setLocals_keeps set) fun _ => ?_)
  refine .bind (.gets _) fun _ => .bind (.only fun _ => ?_) fun _ => ?_
  · refine .bind (.only fun _ => ?_) fun _ => soCommand_keeps _ _
    exact .inside fun l => setDict_keeps fun c h => posted l c _ h
  · exact .only fun _ => .inside fun l => setDict_keeps fun c h => posted l c _ h

end Driver

/-! ### Callers -/

section Callers

variable {I : Chan → Prop}

variable {P : Chan → Prop}

variable {p : Prog Bool Unit}

/-- Negotiation that keeps an invariant keeps it for its caller, whichever way
it ends. -/
theorem negotiation_spec {Q : Unit → Chan → Prop} {r : Return} (h : Spec A P p Q (fun _ => I)) :
    Spec A P (negotiation r p) Q (fun _ => I) := by
  apply Spec.handle h
  intro e
  cases e with
  | error e => exact .throw fun _ => id
  | pending socket => exact .throw fun _ => id

theorem negotiation_keeps {r : Return} (h : Keeps A I p) :
    Keeps A I (negotiation r p) := negotiation_spec h

theorem expectElement_spec :
    Spec A P expectElement (fun _ c => c.present = true ∧ P c) (fun _ => P) := by
  apply Spec.bind (Q := fun a c => a = c ∧ P c) (Spec.gets fun c hc => ⟨rfl, hc⟩)
  intro a
  refine .only (fun _ => raise_spec fun c hc => hc.2) fun c present hc => ⟨?_, hc.2⟩
  rw [← hc.1]
  simpa using present

theorem expectElement_keeps : Keeps A I expectElement :=
  expectElement_spec.mono (fun _ => id) (fun _ _ h => h.2) (fun _ _ => id)

theorem expectOpen_keeps : Keeps A I expectOpen :=
  .bind (.gets _) fun _ => .only fun _ => raise_keeps _

theorem soReadNegotiated_keeps (posts : Keeps A I (postReadEvent : Prog Pending Unit)) :
    Keeps A I soReadNegotiated :=
  .bind (.gets _) fun _ =>
    .ite (fun _ => posts) fun _ => .only fun _ => command_keeps _ _

theorem soReadHandler_keeps (negotiates : Keeps A I negotiate2)
    (posts : Keeps A I (postReadEvent : Prog Pending Unit)) : Keeps A I soReadHandler := by
  apply Keeps.bind (Keeps.gets _)
  intro _
  apply Keeps.only
  intro _
  exact .bind (.only fun _ => negotiation_keeps negotiates) fun _ =>
    soReadNegotiated_keeps posts

theorem soWriteNegotiated_keeps (posts : Keeps A I (postWriteEvent : Prog Pending Unit))
    (watchMask : WatchMask) : Keeps A I (soWriteNegotiated watchMask) :=
  .bind (.gets _) fun _ => .only fun _ => posts

theorem soWriteHandler_keeps (negotiates : Keeps A I negotiate2)
    (posts : Keeps A I (postWriteEvent : Prog Pending Unit)) : Keeps A I soWriteHandler := by
  apply Keeps.bind (Keeps.gets _)
  intro _
  apply Keeps.only
  intro _
  apply Keeps.bind (Keeps.only fun _ => command_keeps _ _)
  intro _
  exact .bind (.only fun _ => negotiation_keeps negotiates) fun _ =>
    soWriteNegotiated_keeps posts _

theorem handshake_keeps (negotiates : Keeps A I negotiate2)
    (records : ∀ complete, Keeps A I (record (.handshake complete) : Prog Pending Unit)) :
    Keeps A I handshake := by
  apply Keeps.bind (Keeps.gets _)
  intro _
  apply Keeps.bind (Keeps.only fun _ => raise_keeps _)
  intro _
  refine .bind (.gets _) fun t => .ite (fun _ => ?_) fun _ => ?_
  · cases t.state with
    | serverInit | clientInit | negotiating =>
      exact .bind (negotiation_keeps negotiates) fun _ => records _
    | opened => exact records _
    | listenerInit | closed => exact raise_keeps _
  · cases t.state with
    | serverInit | clientInit | listenerInit | negotiating | opened => exact records _
    | closed => exact raise_keeps _

theorem closeWrite_keeps (flushes : Keeps A I (flushPendingOutput : Prog Pending Unit))
    (disables : Keeps A I (setDict (fun t => { t with writeDisabled := true }) : Prog Pending Unit)) :
    Keeps A I closeWrite := by
  apply Keeps.bind expectElement_keeps
  intro _
  apply Keeps.bind (Keeps.gets _)
  intro t
  cases t.state with
  | closed => exact .pure _
  | opened => exact .bind flushes fun _ => .bind (soCommand_keeps _ _) fun _ => disables
  | serverInit | clientInit | listenerInit | negotiating => exact raise_keeps _

/-- Creations of clients are apart from the others because they call
`_client_blocking_negotiate` without looking at `State`. -/
theorem create_spec (k : Creation) (weaken : ∀ c, P c → I c) (negotiates : Keeps A I negotiate2)
    (client : Spec A P clientBlockingNegotiate (fun _ => I) (fun _ => I))
    (blocks : ∀ mode, Spec A P (blocking mode) (fun _ => P) (fun _ => I)) :
    Spec A P (create k) (fun _ => I) (fun _ => I) := by
  have negotiated : ∀ c, Spec A P (negotiate c) (fun _ => I) (fun _ => I) := fun c =>
    .pre (negotiation_keeps negotiates) weaken
  have opens : ∀ k, Spec A P (clientNegotiate k) (fun _ => I) (fun _ => I) := fun k =>
    .bind (negotiation_spec client) fun _ => expectOpen_keeps
  cases k with
  | socketClient async => exact .only (fun _ => opens _) fun _ _ => weaken _
  | socketServer => exact .pure weaken
  | starttlsClient =>
    apply Spec.bind (Q := fun _ => P) (Spec.gets fun _ => id)
    intro _
    exact .bind (blocks _) fun _ => .ite (fun _ => opens _) fun _ => negotiated _
  | starttlsServer =>
    apply Spec.bind (Q := fun _ => P) (Spec.gets fun _ => id)
    intro _
    refine Spec.bind (blocks _) fun _ => Spec.pre (Keeps.bind (Keeps.only fun _ => ?_) fun _ =>
      negotiation_keeps negotiates) weaken
    exact Keeps.bind (command_keeps _ _) fun _ => command_keeps _ _
  | accept =>
    refine .pre (.bind (command_keeps _ _) fun _ => ?_) weaken
    exact .bind (command_keeps _ _) fun _ => negotiation_keeps negotiates

/-- What holds however a call ends holds of the state after it. -/
theorem settle_spec {q : Prog Pending Unit} {frames : List Frame} {c : Chan} {w : List Answer}
    {s : Conn} (raised : ∀ c e, I c → I (c.logged (.raised e)))
    (h : Spec A P q (fun _ => I) (fun _ => I)) (hw : ∀ a ∈ w, A a) (hc : P c)
    (run : settle frames (q c w) = some s) : I s.chan := by
  cases hq : q c w with
  | none =>
    rw [hq] at run
    cases run
  | some result =>
    obtain ⟨r, d, v⟩ := result
    rw [hq] at run
    have meets := (h c w r d v hw hc hq).1
    unfold settle at run
    split at run <;> cases run
    all_goals rename_i heq; cases heq
    · exact meets
    · exact raised _ _ meets
    · exact meets
    · exact meets

end Callers

end Twapi.Tls
