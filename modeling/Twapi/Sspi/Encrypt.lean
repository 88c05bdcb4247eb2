import Mathlib.Tactic.Ring
import Twapi.Sspi.Stream

/-!
Encryption of a stream, `crypto/sspi.c` and `tcl/sspi.tcl`, and its decryption at the peer.

`Twapi_EncryptStreamObjCmd` encrypts up to `cbMaximumMessage` bytes in a block with room for
a header and a trailer, and hands back what follows them; `twapi::sspi_encrypt_stream` calls
it until nothing is left, and joins the blocks.

* `QueryContextAttributes` and `EncryptMessage` are parameters. `EncryptMessage` gets the
  block and the buffers in it, and gives both as they are after it.
* `Encryptor.InPlace` — it leaves the buffers where they are; of their lengths only the one
  of the trailer may get less.
* `Encryptor.Inverts` — the peer's records: what is encrypted is one that decrypts to the
  data, whatever follows it.
* `decrypt_encrypt_stream` — the blocks together decrypt to the text.
-/

namespace Twapi.Sspi

open Lib List

/-! ### `Twapi_EncryptStreamObjCmd` -/

structure StreamSizes where
  cbHeader : Nat
  cbTrailer : Nat
  cbMaximumMessage : Nat
deriving DecidableEq

/-- The block and its buffers after `EncryptMessage`. -/
structure Encrypted where
  memory : Bytes
  sbufs : List SecBuffer
deriving DecidableEq

structure Encryptor (σ : Type) where
  queryStreamSizes : σ → Except UInt32 StreamSizes
  encryptMessage : σ → (qop : UInt32) → (memory : Bytes) → List SecBuffer →
    σ × Except UInt32 Encrypted

/-- The block. What is not written yet stands as zeros. -/
def StreamSizes.block (sizes : StreamSizes) (data : Bytes) : Bytes :=
  List.replicate sizes.cbHeader 0 ++ data ++ List.replicate sizes.cbTrailer 0

def StreamSizes.sbufs (sizes : StreamSizes) (datalen : Nat) : List SecBuffer :=
  [⟨.streamHeader, sizes.cbHeader, 0⟩, ⟨.data, datalen, sizes.cbHeader⟩,
    ⟨.streamTrailer, sizes.cbTrailer, sizes.cbHeader + datalen⟩, ⟨.empty, 0, 0⟩]

/-- `Tcl_SetByteArrayLength` with the lengths of header, data and trailer. -/
def Encrypted.bytes (e : Encrypted) : Bytes :=
  e.memory.take ((e.sbufs.take 3).map SecBuffer.cbBuffer).sum

variable {σ τ κ : Type}

/-- The encrypted data and the data that is left. -/
def Encryptor.encryptStreamObjCmd (E : Encryptor σ) (handle : σ) (qop : UInt32) (data : Bytes) :
    σ × Except UInt32 (Bytes × Bytes) :=
  match E.queryStreamSizes handle with
  | .error code => (handle, .error code)
  | .ok sizes =>
    let (first, left) :=
      if sizes.cbMaximumMessage < data.length then
        (data.take sizes.cbMaximumMessage, data.drop sizes.cbMaximumMessage)
      else (data, [])
    match E.encryptMessage handle qop (sizes.block first) (sizes.sbufs first.length) with
    | (handle, .error code) => (handle, .error code)
    | (handle, .ok e) => (handle, .ok (e.bytes, left))

/-! ### `twapi::sspi_encrypt_stream` -/

/-- The loop, with the fragments it has. -/
def Encryptor.encryptLoop (E : Encryptor σ) (qop : UInt32) :
    Nat → σ → (data : Bytes) → (enc : List Bytes) → σ × Except Failure (List Bytes)
  | 0, handle, data, enc => (handle, if data = [] then .ok enc else .error .endless)
  | fuel + 1, handle, data, enc =>
    if data = [] then (handle, .ok enc)
    else
      match E.encryptStreamObjCmd handle qop data with
      | (handle, .error code) => (handle, .error (.system code))
      | (handle, .ok (fragment, data)) => E.encryptLoop qop fuel handle data (enc ++ [fragment])

def Encryptor.sspiEncryptStream [DecidableEq κ] (E : Encryptor σ) (fuel : Nat)
    (sspiState : SspiState κ σ) (ctx : κ) (qop : UInt32) (data : Bytes) :
    SspiState κ σ × Except Failure Bytes :=
  match sspiState ctx with
  | none => (sspiState, .error .badargs)
  | some c =>
    let (handle, enc) := E.encryptLoop qop fuel c.handle data []
    (Function.update sspiState ctx (some { c with handle }), enc.map List.flatten)

/-! ### What is assumed of `EncryptMessage` -/

/-- The bytes of header, data and trailer. -/
def Encrypted.record (e : Encrypted) : Bytes :=
  (e.sbufs.take 3).flatMap fun b => bytesAt e.memory b.pvBuffer b.cbBuffer

structure Encryptor.InPlace (E : Encryptor σ) : Prop where
  memory : ∀ {handle t qop memory sbufs e},
    E.encryptMessage handle qop memory sbufs = (t, .ok e) → e.memory.length = memory.length
  sbufs : ∀ {handle t qop memory header data trailer last e},
    E.encryptMessage handle qop memory [header, data, trailer, last] = (t, .ok e) →
      ∃ n ≤ trailer.cbBuffer, e.sbufs = [header, data, { trailer with cbBuffer := n }, last]

/-- Messages are of a byte at least. -/
def Encryptor.Positive (E : Encryptor σ) : Prop :=
  ∀ {handle sizes}, E.queryStreamSizes handle = .ok sizes → 0 < sizes.cbMaximumMessage

/-- `DecryptMessage` of the peer inverts `EncryptMessage` on a record. -/
def Encryptor.Inverts (E : Encryptor σ) (F : Records τ) (peer : σ → τ → Prop) : Prop :=
  ∀ {handle t d qop sizes data e}, peer handle d → E.queryStreamSizes handle = .ok sizes →
    data ≠ [] → data.length ≤ sizes.cbMaximumMessage →
    E.encryptMessage handle qop (sizes.block data) (sizes.sbufs data.length) = (t, .ok e) →
      ∃ d', F.next d e.record = some ⟨d', data, .ok, e.record.length⟩ ∧ peer t d'

/-! ### One fragment -/

variable {E : Encryptor σ}

/-- Of parts that lie behind each other, the bytes are one run of bytes. -/
theorem bytesAt_append (memory : Bytes) (start m n : Nat) :
    bytesAt memory start m ++ bytesAt memory (start + m) n = bytesAt memory start (m + n) := by
  rw [bytesAt, bytesAt, bytesAt, take_add, drop_drop]

section Fragments

variable {handle t : σ} {qop : UInt32}

/-- The output is header, data and trailer, and nothing else. -/
theorem Encryptor.InPlace.bytes_eq_record (inPlace : E.InPlace) {sizes : StreamSizes}
    {data : Bytes} {e : Encrypted}
    (encrypted : E.encryptMessage handle qop (sizes.block data) (sizes.sbufs data.length) =
      (t, .ok e)) :
    e.bytes = e.record ∧ e.record.length = ((e.sbufs.take 3).map SecBuffer.cbBuffer).sum := by
  obtain ⟨n, fits, sbufs⟩ := inPlace.sbufs encrypted
  have length := inPlace.memory encrypted
  have together := bytesAt_append e.memory sizes.cbHeader data.length n
  have whole := bytesAt_append e.memory 0 sizes.cbHeader (data.length + n)
  rw [Nat.zero_add, ← together] at whole
  have same : e.bytes = e.record := by
    rw [Encrypted.bytes, Encrypted.record, sbufs]
    simpa [bytesAt] using whole.symm
  refine ⟨same, ?_⟩
  have room : e.memory.length = sizes.cbHeader + (data.length + sizes.cbTrailer) := by
    simp [length, StreamSizes.block]
  have fits : n ≤ sizes.cbTrailer := fits
  rw [← same, Encrypted.bytes, length_take, sbufs]
  simp only [take_succ_cons, take_zero, map_cons, map_nil, sum_cons,
    sum_nil]
  omega

/-- What one call encrypts, `first`, and what it leaves: the output is the record, of the
lengths that its buffers have. -/
inductive Fragment (E : Encryptor σ) (handle : σ) (qop : UInt32) (t : σ) :
    (data fragment left : Bytes) → Prop where
  | sealed {sizes : StreamSizes} {first left : Bytes} {e : Encrypted}
      (known : E.queryStreamSizes handle = .ok sizes)
      (encrypted : E.encryptMessage handle qop (sizes.block first) (sizes.sbufs first.length) =
        (t, .ok e))
      (exact : e.record.length = ((e.sbufs.take 3).map SecBuffer.cbBuffer).sum)
      (fits : first.length ≤ sizes.cbMaximumMessage)
      (nonempty : first = [] → left = []) : Fragment E handle qop t (first ++ left) e.record left

theorem fragment_of_encryptMessage (inPlace : E.InPlace) {sizes : StreamSizes}
    {first left fragment rest : Bytes} (known : E.queryStreamSizes handle = .ok sizes)
    (fits : first.length ≤ sizes.cbMaximumMessage) (nonempty : first = [] → left = [])
    (done : (match E.encryptMessage handle qop (sizes.block first) (sizes.sbufs first.length) with
      | (handle, .error code) => (handle, .error code)
      | (handle, .ok e) => (handle, .ok (e.bytes, left)) : σ × Except UInt32 (Bytes × Bytes)) =
        (t, .ok (fragment, rest))) :
    Fragment E handle qop t (first ++ left) fragment rest := by
  cases encrypted : E.encryptMessage handle qop (sizes.block first) (sizes.sbufs first.length) with
  | mk u result =>
    rw [encrypted] at done
    cases result with
    | error code => cases done
    | ok e =>
      cases done
      obtain ⟨same, exact⟩ := inPlace.bytes_eq_record encrypted
      rw [same]
      exact .sealed known encrypted exact fits nonempty

theorem encryptStreamObjCmd_fragment (inPlace : E.InPlace) (positive : E.Positive)
    {data fragment left : Bytes}
    (done : E.encryptStreamObjCmd handle qop data = (t, .ok (fragment, left))) :
    Fragment E handle qop t data fragment left := by
  unfold Encryptor.encryptStreamObjCmd at done
  cases known : E.queryStreamSizes handle with
  | error code =>
    rw [known] at done
    cases done
  | ok sizes =>
    rw [known] at done
    have some_fits := positive known
    by_cases more : sizes.cbMaximumMessage < data.length
    · simp only [if_pos more] at done
      have length : (data.take sizes.cbMaximumMessage).length = sizes.cbMaximumMessage := by
        rw [length_take]
        omega
      have split := fragment_of_encryptMessage inPlace known (Nat.le_of_eq length)
        (fun none => absurd (congrArg List.length none) (by simp [length]; omega)) done
      rwa [take_append_drop] at split
    · simp only [if_neg more] at done
      have split := fragment_of_encryptMessage inPlace known (Nat.le_of_not_lt more)
        (fun _ => rfl) done
      rwa [append_nil] at split

end Fragments

/-! ### The whole text -/

theorem Fragment.shorter {handle t : σ} {qop : UInt32} {data fragment left : Bytes}
    (sealed : Fragment E handle qop t data fragment left) (nonempty : data ≠ []) :
    left.length < data.length := by
  cases sealed with
  | sealed known encrypted exact fits all =>
    rename_i sizes first e
    have some_first : first ≠ [] := by
      intro none
      exact nonempty (by rw [none, all none]; rfl)
    have := length_pos_iff.mpr some_first
    rw [length_append]
    omega

/-- With a turn for each byte, the loop ends. -/
theorem encryptLoop_ends (inPlace : E.InPlace) (positive : E.Positive) {qop : UInt32}
    {fuel : Nat} {handle : σ} {data : Bytes} {enc : List Bytes} (enough : data.length ≤ fuel) :
    (E.encryptLoop qop fuel handle data enc).2 ≠ .error .endless := by
  induction fuel generalizing handle data enc with
  | zero =>
    have none : data = [] := length_eq_zero_iff.mp (by omega)
    simp [Encryptor.encryptLoop, none]
  | succ fuel ih =>
    rw [Encryptor.encryptLoop]
    split
    · simp
    · rename_i nonempty
      split
      · simp
      · rename_i u fragment left done
        have shorter := (encryptStreamObjCmd_fragment inPlace positive done).shorter nonempty
        exact ih (by omega)

/-- The fragments are whole records of the peer, that decrypt to the data. -/
theorem encryptLoop_whole (inPlace : E.InPlace) (positive : E.Positive) {F : Records τ}
    {peer : σ → τ → Prop} (inverts : E.Inverts F peer) {qop : UInt32} {fuel : Nat}
    {handle t : σ} {d : τ} {data : Bytes} {enc fragments : List Bytes} (peers : peer handle d)
    (done : E.encryptLoop qop fuel handle data enc = (t, .ok fragments)) :
    ∃ d' later, fragments = enc ++ later ∧
      F.Whole RecordStatus.goesOn d later.flatten data d' ∧ peer t d' := by
  induction fuel generalizing handle d data enc with
  | zero =>
    rw [Encryptor.encryptLoop] at done
    split at done
    · rename_i none
      cases done
      exact ⟨d, [], (append_nil _).symm, none ▸ .nil d, peers⟩
    · cases done
  | succ fuel ih =>
    rw [Encryptor.encryptLoop] at done
    split at done
    · rename_i none
      cases done
      exact ⟨d, [], (append_nil _).symm, none ▸ .nil d, peers⟩
    · rename_i nonempty
      split at done
      · cases done
      · rename_i u fragment left step
        cases encryptStreamObjCmd_fragment inPlace positive step with
        | sealed known encrypted exact fits all =>
          rename_i sizes first e
          have some_first : first ≠ [] := fun none => nonempty (by rw [none, all none]; rfl)
          obtain ⟨d', next, peers'⟩ := inverts peers known some_first fits encrypted
          obtain ⟨d'', later, split, whole, last⟩ := ih peers' done
          refine ⟨d'', e.record :: later, by simpa using split, ?_, last⟩
          rw [flatten_cons]
          exact .cons next rfl rfl whole

theorem sspiEncryptStream_some [DecidableEq κ] {sspiState : SspiState κ σ} {ctx : κ}
    {c : Context σ} (known : sspiState ctx = some c) (fuel : Nat) (qop : UInt32) (data : Bytes) :
    E.sspiEncryptStream fuel sspiState ctx qop data =
      (Function.update sspiState ctx
        (some { c with handle := (E.encryptLoop qop fuel c.handle data []).1 }),
        (E.encryptLoop qop fuel c.handle data []).2.map List.flatten) := by
  rw [Encryptor.sspiEncryptStream, known]

theorem records_ok {F : Records τ} {d d' : τ} {enc data : Bytes}
    (whole : F.Whole RecordStatus.goesOn d enc data d') : ∀ t ∈ F.tags d enc, t = .ok :=
  fun t mem => of_decide_eq_true (whole.tags_go t mem)

/-- **`sspi_encrypt_stream`**: it ends, whatever the text; each block is header, data and
trailer; and the blocks together decrypt at the peer to the text, with nothing left over. -/
theorem decrypt_encrypt_stream [DecidableEq κ] {P : Provider τ} {F : Records τ}
    {peer : σ → τ → Prop} (framed : P.Framed F) (inPlace : E.InPlace) (positive : E.Positive)
    (inverts : E.Inverts F peer) {sspiState : SspiState κ σ} {peerState : SspiState κ τ}
    {ctx peerCtx : κ} {c : Context σ} {d : τ} (known : sspiState ctx = some c)
    (peerKnown : peerState peerCtx = some ⟨d, []⟩) (peers : peer c.handle d) (qop : UInt32)
    (data : Bytes) {fuel : Nat} (enough : data.length ≤ fuel) :
    (E.sspiEncryptStream fuel sspiState ctx qop data).2 ≠ .error .endless ∧
    (∀ handle t text fragment left,
      E.encryptStreamObjCmd handle qop text = (t, .ok (fragment, left)) →
        Fragment E handle qop t text fragment left) ∧
    ∀ after enc, E.sspiEncryptStream fuel sspiState ctx qop data = (after, .ok enc) →
      ∃ c' d', after ctx = some c' ∧ peer c'.handle d' ∧ ∀ fuel', enc.length ≤ fuel' →
        P.sspiDecryptStream fuel' peerState peerCtx enc =
          (peerState.put peerCtx ⟨d', [], []⟩, .ok (.ok, data)) := by
  refine ⟨?_, fun handle t text fragment left => encryptStreamObjCmd_fragment inPlace positive, ?_⟩
  · rw [sspiEncryptStream_some known]
    have ends := @encryptLoop_ends _ _ inPlace positive qop fuel c.handle data [] enough
    cases run : (E.encryptLoop qop fuel c.handle data []).2 with
    | error e =>
      rw [run] at ends
      intro same
      cases same
      exact ends rfl
    | ok fragments => exact fun same => nomatch same
  · intro after enc encrypted
    rw [sspiEncryptStream_some known] at encrypted
    cases run : E.encryptLoop qop fuel c.handle data [] with
    | mk t result =>
      rw [run] at encrypted
      cases result with
      | error e => cases encrypted
      | ok fragments =>
        cases encrypted
        obtain ⟨d', later, split, whole, peers'⟩ :=
          encryptLoop_whole inPlace positive inverts peers run
        rw [nil_append] at split
        subst split
        refine ⟨_, d', Function.update_self .., peers', fun fuel' room => ?_⟩
        obtain ⟨status, reported, decrypted⟩ :=
          @sspiDecryptStream_eq _ _ _ _ _ peerCtx framed _ _ peerKnown fuel' fragments.flatten
            (by simpa using room)
        have fed_eq : fed F (Context.flow ⟨d, []⟩) [fragments.flatten] = ⟨d', data, []⟩ := by
          simp only [fed, foldl_cons, foldl_nil, Framing.feed, Context.flow,
            nil_append, whole.drain]
          rfl
        rw [decrypted, reported (records_ok whole), fed_eq]
        rfl

/-! ### Records of two bytes -/

/-- Messages of a byte, behind a header of one. The trailer has room for two bytes, and is
empty. -/
def pairEncryptor : Encryptor Unit where
  queryStreamSizes _ := .ok ⟨1, 2, 1⟩
  encryptMessage _ _ memory sbufs :=
    match sbufs with
    | [header, data, trailer, last] =>
      ((), .ok ⟨memory, [header, data, { trailer with cbBuffer := 0 }, last]⟩)
    | _ => ((), .error 0x80090308)

theorem pairEncryptor_inPlace : pairEncryptor.InPlace where
  memory {_ _ _ _ sbufs _} done := by
    simp only [pairEncryptor] at done
    split at done <;> cases done
    rfl
  sbufs done := by
    cases done
    exact ⟨0, Nat.zero_le _, rfl⟩

theorem pairEncryptor_inverts : pairEncryptor.Inverts pairs fun _ _ => True := by
  intro handle t d qop sizes data e _ known nonempty fits encrypted
  cases known
  obtain ⟨b, rfl⟩ : ∃ b, data = [b] :=
    length_eq_one_iff.mp (Nat.le_antisymm fits (length_pos_iff.mpr nonempty))
  cases encrypted
  exact ⟨(), rfl, trivial⟩

theorem decrypt_encrypt_stream_pairs :
    (pairEncryptor.sspiEncryptStream 2 fresh () 0 [65, 66]).2 = .ok [0, 65, 0, 66] ∧
      (pairProvider.sspiDecryptStream 4 fresh () [0, 65, 0, 66]).2 = .ok (.ok, [65, 66]) := by
  have stream := decrypt_encrypt_stream pairProvider_framed pairEncryptor_inPlace
    (fun known => by cases known; decide) pairEncryptor_inverts
    (show fresh () = some ⟨(), []⟩ from rfl) (show fresh () = some ⟨(), []⟩ from rfl) trivial 0
    [65, 66] (show length ([65, 66] : Bytes) ≤ 2 by decide)
  obtain ⟨-, -, round⟩ := stream
  obtain ⟨c', d', -, -, decrypted⟩ := round _ [0, 65, 0, 66] rfl
  exact ⟨rfl, by rw [decrypted 4 (by decide)]⟩

end Twapi.Sspi
