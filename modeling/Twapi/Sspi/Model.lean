import Mathlib.Logic.Function.Basic
import Twapi.Lib.Frames

/-!
Decryption of a stream, `crypto/sspi.c` and `tcl/sspi.tcl`.

`Twapi_DecryptStreamObjCmd` hands one block to `DecryptMessage`, which decrypts
in place; `twapi::sspi_decrypt_stream` calls it until what comes back says that
it is not `ok` or leaves nothing over, and keeps the rest in the context's
`Input`.

* `DecryptMessage` is a parameter: from the state of a security context and a
  block it gives the state after, a status, the block after, and the buffers 1
  to 3, which point into that block.
* A context's handle stands for the security context it refers to, with its
  state. The other fields of `_sspi_state` are not used here.
* The loop of the script has fuel; lengths are `Nat`.
-/

namespace Twapi.Sspi

abbrev Bytes := List UInt8

/-! ### `DecryptMessage` and its buffers -/

inductive SecurityStatus where
  | ok
  | incompleteMessage
  | contextExpired
  | renegotiate
  | failed (code : UInt32)
deriving DecidableEq

inductive BufferType where
  | empty
  | data
  | token
  | missing
  | extra
  | streamTrailer
  | streamHeader
deriving DecidableEq

/-- `pvBuffer` is the offset in the block. -/
structure SecBuffer where
  bufferType : BufferType
  cbBuffer : Nat
  pvBuffer : Nat
deriving DecidableEq

structure Decrypted (σ : Type) where
  state : σ
  status : SecurityStatus
  memory : Bytes
  sbufs : List SecBuffer
deriving DecidableEq

structure Provider (σ : Type) where
  decryptMessage : σ → Bytes → Decrypted σ

def bytesAt (memory : Bytes) (start count : Nat) : Bytes := (memory.drop start).take count

/-- The first of the buffers 1 to 3 with this type. -/
def Decrypted.find {σ : Type} (d : Decrypted σ) (bufferType : BufferType) : Option SecBuffer :=
  d.sbufs.find? fun b => b.bufferType = bufferType

/-- The last of the buffers 3 to 1 that is a non-empty `SECBUFFER_EXTRA`, at the
end of the bytes of buffer 0. -/
def objFromSECBUFFER_EXTRA (memory : Bytes) (sb0 : SecBuffer) (sbufs : List SecBuffer) : Bytes :=
  match sbufs.reverse.find? fun b => b.bufferType = .extra ∧ b.cbBuffer ≠ 0 with
  | some b => bytesAt memory (sb0.pvBuffer + (sb0.cbBuffer - b.cbBuffer)) b.cbBuffer
  | none => []

/-! ### `Twapi_DecryptStreamObjCmd` -/

/-- The first element of the command's result. -/
inductive StreamStatus where
  | ok
  | incompleteMessage
  | expired
  | renegotiate
deriving DecidableEq

structure StreamResult where
  status : StreamStatus
  decrypted : Bytes
  extra : Bytes
deriving DecidableEq

variable {σ κ : Type}

def Decrypted.data (d : Decrypted σ) : Bytes :=
  match d.find .data with
  | some b => bytesAt d.memory b.pvBuffer b.cbBuffer
  | none => []

def Decrypted.leftover (d : Decrypted σ) (enclen : Nat) : Bytes :=
  match d.find .extra with
  | some b => bytesAt d.memory (enclen - b.cbBuffer) b.cbBuffer
  | none => []

def Decrypted.result (d : Decrypted σ) (enclen : Nat) : Except UInt32 StreamResult :=
  match d.status with
  | .incompleteMessage => .ok ⟨.incompleteMessage, [], bytesAt d.memory 0 enclen⟩
  | .ok => .ok ⟨.ok, d.data, d.leftover enclen⟩
  | .contextExpired => .ok ⟨.expired, d.data, d.leftover enclen⟩
  | .renegotiate => .ok ⟨.renegotiate, d.data, d.leftover enclen⟩
  | .failed code => .error code

/-- The arguments after the handle are put behind each other. -/
def Provider.decryptStreamObjCmd (P : Provider σ) (handle : σ) (objv : List Bytes) :
    σ × Except UInt32 StreamResult :=
  let enc := objv.flatten
  let d := P.decryptMessage handle enc
  (d.state, d.result enc.length)

/-! ### `twapi::sspi_decrypt_stream` -/

inductive Failure where
  | badargs
  | system (code : UInt32)
  | endless
deriving DecidableEq

/-- One element of the array `_sspi_state`. -/
structure Context (σ : Type) where
  handle : σ
  input : Bytes
deriving DecidableEq

abbrev SspiState (κ σ : Type) := κ → Option (Context σ)

/-- The loop that collects as much data as possible. -/
def Provider.decryptLoop (P : Provider σ) :
    Nat → σ → StreamStatus → Bytes → Bytes → σ × Except Failure StreamResult
  | 0, handle, status, plaintext, extra =>
    if status = .ok ∧ extra ≠ [] then (handle, .error .endless)
    else (handle, .ok ⟨status, plaintext, extra⟩)
  | fuel + 1, handle, status, plaintext, extra =>
    if status = .ok ∧ extra ≠ [] then
      match P.decryptStreamObjCmd handle [extra] with
      | (handle, .error code) => (handle, .error (.system code))
      | (handle, .ok r) => P.decryptLoop fuel handle r.status (plaintext ++ r.decrypted) r.extra
    else (handle, .ok ⟨status, plaintext, extra⟩)

def StreamStatus.reported : StreamStatus → StreamStatus
  | .incompleteMessage => .ok
  | status => status

/-- An error leaves `Input` as it was. -/
def Provider.sspiDecryptStream [DecidableEq κ] (P : Provider σ) (fuel : Nat)
    (sspiState : SspiState κ σ) (ctx : κ) (data : Bytes) :
    SspiState κ σ × Except Failure (StreamStatus × Bytes) :=
  match sspiState ctx with
  | none => (sspiState, .error .badargs)
  | some c =>
    match P.decryptStreamObjCmd c.handle [c.input, data] with
    | (handle, .error code) =>
      (Function.update sspiState ctx (some { c with handle }), .error (.system code))
    | (handle, .ok r) =>
      match P.decryptLoop fuel handle r.status r.decrypted r.extra with
      | (handle, .error e) =>
        (Function.update sspiState ctx (some { c with handle }), .error e)
      | (handle, .ok r) =>
        (Function.update sspiState ctx (some ⟨handle, r.extra⟩),
          .ok (r.status.reported, r.decrypted))

/-- Chunks fed one after another: what comes back, put together. -/
def Provider.decryptChunks [DecidableEq κ] (P : Provider σ) (fuel : Nat) (ctx : κ) :
    SspiState κ σ → List Bytes → SspiState κ σ × Except Failure Bytes
  | sspiState, [] => (sspiState, .ok [])
  | sspiState, data :: chunks =>
    match P.sspiDecryptStream fuel sspiState ctx data with
    | (sspiState, .error e) => (sspiState, .error e)
    | (sspiState, .ok (_, plaintext)) =>
      let (sspiState, rest) := P.decryptChunks fuel ctx sspiState chunks
      (sspiState, rest.map (plaintext ++ ·))

end Twapi.Sspi
