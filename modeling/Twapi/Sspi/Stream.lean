import Twapi.Sspi.Model

/-!
Stream decryption and chunks.

* `Provider.Framed` — what is assumed of `DecryptMessage`: it consumes one
  record a call and hands the rest back, and says `incomplete` where no record
  is whole.
* `sspiDecryptStream_eq` — the command drains the records of its context: the
  code refines `Framing.feed`.
* `decrypt_chunks_iff` — the way a text is cut into chunks makes no difference
  exactly when every record in it but the last is decrypted with status `ok`.
-/

namespace Twapi.Sspi

open Lib

/-- How the decryption of a whole record ends. -/
inductive RecordStatus where
  | ok
  | expired
  | renegotiate
deriving DecidableEq

namespace RecordStatus

def security : RecordStatus → SecurityStatus
  | ok => .ok
  | expired => .contextExpired
  | renegotiate => .renegotiate

def stream : RecordStatus → StreamStatus
  | ok => .ok
  | expired => .expired
  | renegotiate => .renegotiate

def goesOn (t : RecordStatus) : Bool := t = ok

theorem stream_eq_ok (t : RecordStatus) : t.stream = .ok ↔ t = ok := by
  cases t <;> simp [stream]

end RecordStatus

/-- The records a provider decrypts: whether one is whole, and what it becomes. -/
abbrev Records (σ : Type) := Framing σ UInt8 UInt8 RecordStatus

variable {σ κ : Type}

/-- The answer of a provider that decrypts the record `f` at the head of `enc`
in place. The bytes behind it stay, and `SECBUFFER_EXTRA` counts them. -/
structure Decrypted.Consumes (d : Decrypted σ) (enc : Bytes)
    (f : Frame σ UInt8 RecordStatus) : Prop where
  state : d.state = f.state
  status : d.status = f.tag.security
  data : d.data = f.output
  behind : d.memory.drop f.size = enc.drop f.size
  extra : ∀ b, d.find .extra = some b → b.cbBuffer = enc.length - f.size
  noExtra : d.find .extra = none → enc.length = f.size

/-- The answer of a provider that finds no whole record in `enc`. -/
structure Decrypted.Incomplete (d : Decrypted σ) (handle : σ) (enc : Bytes) : Prop where
  state : d.state = handle
  status : d.status = .incompleteMessage
  memory : d.memory = enc

structure Provider.Framed (P : Provider σ) (F : Records σ) : Prop where
  incomplete : ∀ handle enc, F.next handle enc = none →
    (P.decryptMessage handle enc).Incomplete handle enc
  consumes : ∀ handle enc f, F.next handle enc = some f →
    (P.decryptMessage handle enc).Consumes enc f

/-! ### One call of `DecryptStream` -/

theorem bytesAt_all (memory : Bytes) : bytesAt memory 0 memory.length = memory := by
  simp [bytesAt]

theorem bytesAt_end {memory : Bytes} {n : Nat} (rest : Bytes) (h : memory.drop n = rest) :
    bytesAt memory n rest.length = rest := by
  rw [bytesAt, h, List.take_length]

theorem Decrypted.Consumes.leftover {d : Decrypted σ} {enc : Bytes}
    {f : Frame σ UInt8 RecordStatus} (h : d.Consumes enc f) (fits : f.size ≤ enc.length) :
    d.leftover enc.length = enc.drop f.size := by
  rw [Decrypted.leftover]
  cases hb : d.find .extra with
  | none =>
    have all := h.noExtra hb
    rw [← all, List.drop_length]
  | some b =>
    have count := h.extra b hb
    have start : enc.length - b.cbBuffer = f.size := by omega
    have length : (enc.drop f.size).length = b.cbBuffer := by rw [List.length_drop, count]
    have tail := bytesAt_end (enc.drop f.size) h.behind
    rw [length] at tail
    simp only [start, tail]

theorem Decrypted.Consumes.result {d : Decrypted σ} {enc : Bytes}
    {f : Frame σ UInt8 RecordStatus} (h : d.Consumes enc f) (fits : f.size ≤ enc.length) :
    d.result enc.length = .ok ⟨f.tag.stream, f.output, enc.drop f.size⟩ := by
  have leftover := h.leftover fits
  have data := h.data
  have status := h.status
  rw [Decrypted.result, status]
  cases f.tag <;> simp [RecordStatus.security, RecordStatus.stream, leftover, data]

theorem Decrypted.Incomplete.result {d : Decrypted σ} {handle : σ} {enc : Bytes}
    (h : d.Incomplete handle enc) :
    d.result enc.length = .ok ⟨.incompleteMessage, [], enc⟩ := by
  rw [Decrypted.result, h.status, h.memory]
  simp [bytesAt_all]

variable {P : Provider σ} {F : Records σ}

theorem decryptStream_incomplete (framed : P.Framed F) {handle : σ} {objv : List Bytes}
    (h : F.next handle objv.flatten = none) :
    P.decryptStreamObjCmd handle objv =
      (handle, .ok ⟨.incompleteMessage, [], objv.flatten⟩) := by
  have answer := framed.incomplete handle _ h
  simp only [Provider.decryptStreamObjCmd, answer.state, answer.result]

theorem decryptStream_record (framed : P.Framed F) {handle : σ} {objv : List Bytes}
    {f : Frame σ UInt8 RecordStatus} (h : F.next handle objv.flatten = some f) :
    P.decryptStreamObjCmd handle objv =
      (f.state, .ok ⟨f.tag.stream, f.output, objv.flatten.drop f.size⟩) := by
  have answer := framed.consumes handle _ f h
  simp only [Provider.decryptStreamObjCmd, answer.state, answer.result (F.fits h)]

/-! ### The loop -/

/-- What draining the records of an input gives. -/
abbrev drained (F : Records σ) (handle : σ) (enc : Bytes) : Flow σ UInt8 UInt8 :=
  F.drain RecordStatus.goesOn handle enc

/-- Nothing is drained after a record that was not `ok` or left nothing over. -/
theorem drained_last {handle : σ} {enc : Bytes} {f : Frame σ UInt8 RecordStatus}
    (h : F.next handle enc = some f) (last : ¬ (f.tag = .ok ∧ enc.drop f.size ≠ [])) :
    drained F handle enc = ⟨f.state, f.output, enc.drop f.size⟩ := by
  by_cases goes : f.tag = .ok
  · have rest : enc.drop f.size = [] := by_contra fun more => last ⟨goes, more⟩
    rw [drained, Framing.drain_go h (by rw [goes]; rfl), rest, Framing.drain_nil]
    simp [Flow.after]
  · exact Framing.drain_stop h (decide_eq_false goes)

theorem decryptLoop_done {fuel : Nat} {handle : σ} {status : StreamStatus}
    {plaintext extra : Bytes} (done : ¬ (status = .ok ∧ extra ≠ [])) :
    P.decryptLoop fuel handle status plaintext extra =
      (handle, .ok ⟨status, plaintext, extra⟩) := by
  cases fuel with
  | zero => rw [Provider.decryptLoop, if_neg done]
  | succ fuel => rw [Provider.decryptLoop, if_neg done]

/-- A call of `DecryptStream` and the turns of the loop after it. -/
def Provider.decryptFrom (P : Provider σ) (fuel : Nat) (handle : σ) (plaintext : Bytes)
    (objv : List Bytes) : σ × Except Failure StreamResult :=
  match P.decryptStreamObjCmd handle objv with
  | (handle, .error code) => (handle, .error (.system code))
  | (handle, .ok r) => P.decryptLoop fuel handle r.status (plaintext ++ r.decrypted) r.extra

theorem decryptLoop_turn {fuel : Nat} {handle : σ} {plaintext extra : Bytes} (more : extra ≠ []) :
    P.decryptLoop (fuel + 1) handle .ok plaintext extra =
      P.decryptFrom fuel handle plaintext [extra] := by
  rw [Provider.decryptLoop, if_pos ⟨rfl, more⟩]
  rfl

/-- With fuel for its bytes, the loop drains the records at hand. -/
theorem decryptFrom_eq (framed : P.Framed F) {fuel : Nat} {handle : σ} {plaintext : Bytes}
    {objv : List Bytes} (enough : objv.flatten.length ≤ fuel) :
    ∃ status, ((∀ t ∈ F.tags handle objv.flatten, t = .ok) → status.reported = .ok) ∧
      P.decryptFrom fuel handle plaintext objv =
      ((drained F handle objv.flatten).state,
        .ok ⟨status, plaintext ++ (drained F handle objv.flatten).output,
          (drained F handle objv.flatten).pending⟩) := by
  induction fuel generalizing handle plaintext objv with
  | zero =>
    have none : objv.flatten = [] := List.length_eq_zero_iff.mp (by omega)
    have h : F.next handle objv.flatten = .none := by rw [none, Framing.next_nil]
    refine ⟨.incompleteMessage, fun _ => rfl, ?_⟩
    rw [Provider.decryptFrom, decryptStream_incomplete framed h, drained, Framing.drain_none h]
    exact decryptLoop_done fun done => StreamStatus.noConfusion done.1
  | succ fuel ih =>
    cases h : F.next handle objv.flatten with
    | none =>
      refine ⟨.incompleteMessage, fun _ => rfl, ?_⟩
      rw [Provider.decryptFrom, decryptStream_incomplete framed h, drained,
        Framing.drain_none h]
      exact decryptLoop_done fun done => StreamStatus.noConfusion done.1
    | some f =>
      have shorter := F.rest_lt h
      rw [Provider.decryptFrom, decryptStream_record framed h]
      by_cases more : f.tag = .ok ∧ objv.flatten.drop f.size ≠ []
      · -- The loop goes on with what the record left over.
        obtain ⟨goes, more⟩ := more
        have whole : [objv.flatten.drop f.size].flatten = objv.flatten.drop f.size := by simp
        obtain ⟨status, reported, loop⟩ := @ih f.state (plaintext ++ f.output)
          [objv.flatten.drop f.size] (by rw [whole]; omega)
        rw [whole] at loop reported
        refine ⟨status, fun all => reported fun t mem => all t ?_, ?_⟩
        · rw [Framing.tags_some h]
          exact List.mem_cons_of_mem _ mem
        rw [drained, Framing.drain_go h (by rw [goes]; rfl)]
        simp only [goes, RecordStatus.stream, decryptLoop_turn more, loop, Flow.after,
          List.append_assoc]
      · have done : ¬ (f.tag.stream = .ok ∧ objv.flatten.drop f.size ≠ []) :=
          fun both => more ⟨f.tag.stream_eq_ok.mp both.1, both.2⟩
        refine ⟨f.tag.stream, fun all => ?_, ?_⟩
        · have goes : f.tag = .ok := all f.tag (by rw [Framing.tags_some h]; simp)
          rw [goes]
          rfl
        · rw [drained_last h more]
          exact decryptLoop_done done

/-! ### Calls and chunks -/

variable [DecidableEq κ] {ctx : κ}

/-- A context as a flow nothing was decoded from yet. -/
def Context.flow (c : Context σ) : Flow σ UInt8 UInt8 := ⟨c.handle, [], c.input⟩

/-- The state of `ctx` with what is left of a flow. -/
def SspiState.put (sspiState : SspiState κ σ) (ctx : κ) (d : Flow σ UInt8 UInt8) : SspiState κ σ :=
  Function.update sspiState ctx (some ⟨d.state, d.pending⟩)

theorem SspiState.put_put (sspiState : SspiState κ σ) (d e : Flow σ UInt8 UInt8) :
    (sspiState.put ctx d).put ctx e = sspiState.put ctx e :=
  Function.update_idem ..

/-- Feeding chunks to the records of a context. -/
abbrev fed (F : Records σ) (d : Flow σ UInt8 UInt8) (chunks : List Bytes) : Flow σ UInt8 UInt8 :=
  chunks.foldl (F.feed RecordStatus.goesOn) d

theorem sspiDecryptStream_some {sspiState : SspiState κ σ} {c : Context σ}
    (h : sspiState ctx = some c) (fuel : Nat) (data : Bytes) :
    P.sspiDecryptStream fuel sspiState ctx data =
      match P.decryptFrom fuel c.handle [] [c.input, data] with
      | (handle, .error e) => (Function.update sspiState ctx (some { c with handle }), .error e)
      | (handle, .ok r) =>
        (Function.update sspiState ctx (some ⟨handle, r.extra⟩),
          .ok (r.status.reported, r.decrypted)) := by
  rw [Provider.sspiDecryptStream, h, Provider.decryptFrom]
  simp only [List.nil_append]
  rcases P.decryptStreamObjCmd c.handle [c.input, data] with ⟨handle, code | r⟩ <;> rfl

/-- One call of the command feeds one chunk. -/
theorem sspiDecryptStream_eq (framed : P.Framed F) {sspiState : SspiState κ σ} {c : Context σ}
    (h : sspiState ctx = some c) {fuel : Nat} {data : Bytes}
    (enough : c.input.length + data.length ≤ fuel) :
    ∃ status, ((∀ t ∈ F.tags c.handle (c.input ++ data), t = .ok) → status = .ok) ∧
      P.sspiDecryptStream fuel sspiState ctx data =
        (sspiState.put ctx (fed F c.flow [data]), .ok (status, (fed F c.flow [data]).output)) := by
  have whole : [c.input, data].flatten = c.input ++ data := by simp
  obtain ⟨status, reported, loop⟩ := @decryptFrom_eq _ _ _ framed fuel c.handle [] [c.input, data]
    (by rw [whole, List.length_append]; exact enough)
  rw [whole, List.nil_append] at loop
  rw [whole] at reported
  refine ⟨status.reported, reported, ?_⟩
  rw [sspiDecryptStream_some h, loop]
  rfl

/-- The calls for a list of chunks feed the chunks; none of them fails. -/
theorem decryptChunks_eq (framed : P.Framed F) {fuel : Nat} (chunks : List Bytes)
    {sspiState : SspiState κ σ} {c : Context σ} (h : sspiState ctx = some c)
    (enough : c.input.length + chunks.flatten.length ≤ fuel) :
    P.decryptChunks fuel ctx sspiState chunks =
      (sspiState.put ctx (fed F c.flow chunks), .ok (fed F c.flow chunks).output) := by
  induction chunks generalizing sspiState c with
  | nil =>
    rw [Provider.decryptChunks, SspiState.put]
    exact congrArg (·, _) (Function.update_eq_self_iff.mpr h.symm).symm
  | cons data chunks ih =>
    rw [List.flatten_cons, List.length_append] at enough
    obtain ⟨status, -, first⟩ := @sspiDecryptStream_eq _ _ _ _ _ ctx framed _ _ h fuel data (by omega)
    -- What the first call leaves behind is a context again.
    let d := fed F c.flow [data]
    have kept : d.pending.length ≤ c.input.length + data.length :=
      Framing.feed_pending_le c.flow data
    have rest := @ih (sspiState.put ctx d) ⟨d.state, d.pending⟩ (Function.update_self ..)
      (Nat.le_trans (Nat.add_le_add_right kept _) (by omega))
    have split : fed F c.flow (data :: chunks) =
        (fed F (Context.flow ⟨d.state, d.pending⟩) chunks).after d.output := by
      rw [fed, fed, ← Framing.foldl_feed_after, List.foldl_cons]
      simp [Context.flow, Flow.after, d]
    rw [Provider.decryptChunks, first]
    simp only [show fed F c.flow [data] = d from rfl, rest, split, SspiState.put_put]
    rfl

/-- What feeding chunks to a context gives: the plaintexts put together, and
its pending input. -/
def Provider.streamed (P : Provider σ) (fuel : Nat) (sspiState : SspiState κ σ) (ctx : κ)
    (chunks : List Bytes) : Except Failure Bytes × Option Bytes :=
  let (after, plaintext) := P.decryptChunks fuel ctx sspiState chunks
  (plaintext, (after ctx).map Context.input)

theorem streamed_eq (framed : P.Framed F) {sspiState : SspiState κ σ} {c : Context σ}
    (h : sspiState ctx = some c) {fuel : Nat} {chunks : List Bytes}
    (enough : c.input.length + chunks.flatten.length ≤ fuel) :
    P.streamed fuel sspiState ctx chunks =
      (.ok (fed F c.flow chunks).output, some (fed F c.flow chunks).pending) := by
  simp [Provider.streamed, decryptChunks_eq framed chunks h enough, SspiState.put]

/-- Every way of cutting a text into chunks is decrypted, and any two of them
give the same plaintext and the same pending input, exactly when every record in
the text but the last has status `ok`. -/
theorem decrypt_chunks_iff (framed : P.Framed F) {sspiState : SspiState κ σ} {c : Context σ}
    (h : sspiState ctx = some c) (text : Bytes) {fuel : Nat}
    (enough : c.input.length + text.length ≤ fuel) :
    (∀ chunks : List Bytes, chunks.flatten = text → ∃ plaintext pending,
        P.streamed fuel sspiState ctx chunks = (.ok plaintext, some pending)) ∧
      ((∀ chunks chunks' : List Bytes, chunks ≠ [] → chunks' ≠ [] →
          chunks.flatten = text → chunks'.flatten = text →
          P.streamed fuel sspiState ctx chunks = P.streamed fuel sspiState ctx chunks') ↔
        ∀ t ∈ (F.tags c.handle (c.input ++ text)).dropLast, t = .ok) := by
  have stream : ∀ chunks : List Bytes, chunks.flatten = text →
      P.streamed fuel sspiState ctx chunks =
        (.ok (fed F c.flow chunks).output, some (fed F c.flow chunks).pending) := by
    intro chunks whole
    exact streamed_eq framed h (by rw [whole]; exact enough)
  refine ⟨fun chunks whole => ⟨_, _, stream chunks whole⟩, ?_⟩
  have flows : (∀ t ∈ (F.tags c.handle (c.input ++ text)).dropLast, t = .ok) ↔
      F.Flows RecordStatus.goesOn c.handle (c.input ++ text) := by
    simp only [Framing.Flows, RecordStatus.goesOn, decide_eq_true_eq]
  rw [flows]
  constructor
  · intro same
    have whole : [text].flatten = text ∧ [text, []].flatten = text := by simp
    have again := same [text] [text, []] (by simp) (by simp) whole.1 whole.2
    rw [stream _ whole.1, stream _ whole.2] at again
    have pending := Option.some.inj (Prod.mk.inj again).2
    exact Framing.flows_of_feed_nil (d := c.flow) pending.symm
  · intro flows chunks chunks' nonempty nonempty' whole whole'
    have one := Framing.feed_chunks (d := c.flow) flows nonempty whole
    have other := Framing.feed_chunks (d := c.flow) flows nonempty' whole'
    rw [stream chunks whole, stream chunks' whole', fed, fed, one, other]

/-! ### A provider with records of two bytes -/

def pairStatus (b : UInt8) : RecordStatus :=
  if b = 0 then .ok else if b = 1 then .expired else .renegotiate

/-- The first byte says how the record ends, the second is its plaintext. -/
def pairs : Records Unit where
  next _ enc :=
    match enc with
    | t :: b :: _ => some ⟨(), [b], pairStatus t, 2⟩
    | _ => none
  pos {_ enc _} h := by
    split at h <;> cases h
    exact Nat.succ_pos 1
  fits {_ enc _} h := by
    split at h <;> cases h
    simp
  stable {_ enc _} y h := by
    split at h <;> cases h
    rfl

def pairProvider : Provider Unit where
  decryptMessage _ enc :=
    match enc with
    | t :: b :: rest =>
      ⟨(), (pairStatus t).security, t :: b :: rest,
        ⟨.data, 1, 1⟩ :: if rest = [] then [] else [⟨.extra, rest.length, 2⟩]⟩
    | _ => ⟨(), .incompleteMessage, enc, []⟩

theorem pairProvider_framed : pairProvider.Framed pairs where
  incomplete _ enc h := by
    simp only [pairs] at h
    split at h
    · cases h
    · simp only [pairProvider]
      exact ⟨rfl, rfl, rfl⟩
  consumes _ enc f h := by
    simp only [pairs] at h
    split at h
    · rename_i t b rest
      cases h
      by_cases none : rest = []
      · subst none
        exact ⟨rfl, rfl, rfl, rfl, by simp [pairProvider, Decrypted.find], fun _ => rfl⟩
      · refine ⟨rfl, rfl, ?_, rfl, ?_, ?_⟩
        · simp [pairProvider, Decrypted.data, Decrypted.find, bytesAt]
        · simp [pairProvider, Decrypted.find, none]
        · simp [pairProvider, Decrypted.find, none]
    · cases h

def fresh : SspiState Unit Unit := fun _ => some ⟨(), []⟩

theorem decrypt_chunks_iff_split :
    pairProvider.streamed 4 fresh () [[0], [65, 1], [], [66]] =
      pairProvider.streamed 4 fresh () [[0, 65, 1, 66]] := by
  have records : ∀ t ∈ (pairs.tags () ([] ++ [0, 65, 1, 66])).dropLast, t = .ok := by
    rw [List.nil_append, Framing.tags_some rfl, Framing.tags_some rfl, Framing.tags_none rfl]
    decide
  have chunks := @decrypt_chunks_iff _ _ _ _ _ () pairProvider_framed fresh ⟨(), []⟩ rfl
    [0, 65, 1, 66] 4 (by decide)
  exact chunks.2.mpr records _ _ (by decide) (by decide) rfl rfl

/-- A record that says the context has expired, and one more: together the
second is left pending, apart it is decrypted. -/
theorem expired_record_stops :
    ¬ ∀ (P : Provider Unit) (F : Records Unit), P.Framed F → ∀ chunks chunks' : List Bytes,
      chunks ≠ [] → chunks' ≠ [] → chunks.flatten = chunks'.flatten →
        P.streamed chunks.flatten.length fresh () chunks =
          P.streamed chunks'.flatten.length fresh () chunks' := by
  intro claim
  have same := claim pairProvider pairs pairProvider_framed [[1, 65, 0, 66]] [[1, 65], [0, 66]]
    (by decide) (by decide) rfl
  have together : pairProvider.streamed 4 fresh () [[1, 65, 0, 66]] =
      (.ok [65], some [0, 66]) := rfl
  have apart : pairProvider.streamed 4 fresh () [[1, 65], [0, 66]] =
      (.ok [65, 66], some []) := rfl
  cases together.symm.trans (same.trans apart)

end Twapi.Sspi
