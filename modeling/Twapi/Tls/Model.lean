import Twapi.Lib.Script

/-!
The reflected TLS channel of `tcl/tls.tcl`, for one channel: the element of
`_channels` it keeps and the procedures that work on it.

* `Element` — that element. Keys that a procedure may unset or add are flags here.
* `Chan` — the element with what is outside it: whether the Tcl channel and the
  element exist, the `after 0` scripts, and the log of what was done.
* `Answer` — what a command of the socket or of the security provider answers.
* `dictWith` — `dict with _channels($chan)`: the variables hold a copy, which is
  written back when the block is left, over what a nested procedure stored.
* `openChannel` stops at the verifier, a script that may call the channel again;
  `verifierReturned` is the rest of `_open`.

`verified` and `log` are not in the source. A peer is verified when `_open` is
past the verifier or, without a verifier, when the provider is done.
-/

namespace Twapi.Tls

open Lib

/-! ### Data -/

abbrev Bytes : Type := List UInt8

/-- `State`. -/
inductive State where
  | serverInit
  | clientInit
  | listenerInit
  | opened
  | negotiating
  | closed
deriving DecidableEq

/-- `State in {SERVERINIT CLIENTINIT NEGOTIATING}`. -/
def State.negotiable : State → Bool
  | .serverInit | .clientInit | .negotiating => true
  | .listenerInit | .opened | .closed => false

def State.name : State → String
  | .serverInit => "SERVERINIT"
  | .clientInit => "CLIENTINIT"
  | .listenerInit => "LISTENERINIT"
  | .opened => "OPEN"
  | .negotiating => "NEGOTIATING"
  | .closed => "CLOSED"

/-- `Type`. -/
inductive Kind where
  | server
  | client
  | listener
deriving DecidableEq

/-- What a script finds missing: an array element, a dictionary key or the
variable that `dict with` makes of it. -/
inductive Variable where
  | channel
  | socket
  | leftover
deriving DecidableEq

inductive Err where
  | missing (name : Variable)
  | eagain
  | message (text : String)
  /-- The error of a command that was called. -/
  | command (text : String)
deriving DecidableEq

structure WatchMask where
  read : Bool
  write : Bool
deriving DecidableEq

/-- An element of `_channels`. -/
structure Element where
  socket : Bool
  state : State
  type : Kind
  blocking : Bool
  watchMask : WatchMask
  writeDisabled : Bool
  verifier : Bool
  acceptCallback : Bool
  freeCredentials : Bool
  input : Bytes
  output : Bytes
  readEventPosted : Bool
  writeEventPosted : Bool
  errorResult : Option Err
deriving DecidableEq

/-- What `dict with` leaves in the element when the variables hold `l`, and `t`
is the element by then. It writes the keys that were there on `entry`. -/
def writeBack (entry l t : Element) : Element :=
  { l with
    socket := if entry.socket then l.socket else t.socket
    readEventPosted := if entry.readEventPosted then l.readEventPosted else t.readEventPosted
    writeEventPosted := if entry.writeEventPosted then l.writeEventPosted else t.writeEventPosted
    errorResult := if entry.errorResult.isSome then l.errorResult else t.errorResult }

/-- An entry of the log: a token was sent to the peer; data was encrypted and the
result sent; plaintext was decrypted, and returned by `read`; `write` took data
or threw it away; and so on. -/
inductive Io where
  | sent (token : Bytes)
  | transmitted (data cipher : Bytes)
  | decrypted (plaintext : Bytes)
  | returned (data : Bytes)
  | wrote (data : Bytes)
  | discarded (data : Bytes)
  | handshake (complete : Bool)
  | accepted
  | raised (e : Err)
deriving DecidableEq

/-- One channel. `alive` is whether the Tcl channel is open, `present` whether
`_channels` has its element, `cleanups` how many `_cleanup_failed_accept` wait. -/
structure Chan where
  alive : Bool
  present : Bool
  tls : Element
  cleanups : Nat
  verified : Bool
  log : List Io
deriving DecidableEq

/-- What `read` has returned to the script so far. -/
def Io.plaintext : Io → Bytes
  | .returned data => data
  | _ => []

def Chan.returned (c : Chan) : Bytes := c.log.flatMap Io.plaintext

/-- `sspi_step`'s status. -/
inductive StepStatus where
  | done
  | «continue»
  | other (name : String)
deriving DecidableEq

def StepStatus.name : StepStatus → String
  | .done => "done"
  | .«continue» => "continue"
  | .other name => name

/-- `sspi_decrypt_stream`'s status, and the `eof` of `read`. -/
inductive StreamStatus where
  | ok
  | eof
  | other (name : String)
deriving DecidableEq

def StreamStatus.name : StreamStatus → String
  | .ok => "ok"
  | .eof => "eof"
  | .other name => name

/-- What a command is of: the socket, the provider, or the provider's shutdown
with the token it sends. -/
inductive Command where
  | socket
  | provider
  | shutdown
deriving DecidableEq

/-- What a command answers: the bytes a socket has with what `chan eof` says
then, the result of a provider's command, or an error. -/
inductive Answer where
  | done
  | data (input : Bytes) (eof : Bool)
  | step (status : StepStatus) (outdata leftover : Bytes)
  | stream (status : StreamStatus) (plaintext : Bytes)
  | bytes (output : Bytes)
  | fail (command : Command) (text : String)
deriving DecidableEq

def Answer.done? : Answer → Option Unit
  | .done => some ()
  | _ => none

def Answer.data? : Answer → Option (Bytes × Bool)
  | .data input eof => some (input, eof)
  | _ => none

def Answer.step? : Answer → Option (StepStatus × Bytes × Bytes)
  | .step status outdata leftover => some (status, outdata, leftover)
  | _ => none

def Answer.stream? : Answer → Option (StreamStatus × Bytes)
  | .stream status plaintext => some (status, plaintext)
  | _ => none

def Answer.bytes? : Answer → Option Bytes
  | .bytes output => some output
  | _ => none

/-- Why a procedure stops: an error, or what `κ` stands for. -/
inductive Stop (κ : Type) where
  | error (e : Err)
  | pending (k : κ)
deriving DecidableEq

/-- A procedure. -/
abbrev Prog (κ : Type) := Script Chan Answer (Stop κ)

/-- The block of a `dict with`, with the variables in front. -/
abbrev Body (κ : Type) := Script (Element × Chan) Answer (Stop κ)

variable {σ κ α : Type}

/-! ### Commands -/

def raise (e : Err) : Script σ Answer (Stop κ) α := Script.throw (.error e)

def command (name : Command) (fits : Answer → Option α) : Script σ Answer (Stop κ) α := do
  let a ← Script.ask
  match a with
  | .fail failed text => if failed = name then raise (.command text) else Script.stuck
  | a =>
    match fits a with
    | some x => pure x
    | none => Script.stuck

/-- A command of the socket, which has `$Socket` among its arguments. -/
def soCommand (socket : Bool) (fits : Answer → Option α) : Script σ Answer (Stop κ) α :=
  if socket then command .socket fits else raise (.missing .socket)

/-- `catch`, which ignores an error. -/
def attempt (p : Script σ Answer (Stop κ) Unit) : Script σ Answer (Stop κ) Unit :=
  p.handle fun
    | .error _ => pure ()
    | .pending k => Script.throw (.pending k)

def record (e : Io) : Prog κ Unit := Script.modify fun c => { c with log := c.log ++ [e] }

def dict : Prog κ Element := Script.gets Chan.tls

def setDict (f : Element → Element) : Prog κ Unit := Script.modify fun c => { c with tls := f c.tls }

def dictWith (body : Body κ α) : Prog κ α :=
  Script.within Chan.tls (fun entry l c => { c with tls := writeBack entry l c.tls }) body

def locals : Body κ Element := Script.gets Prod.fst

def setLocals (f : Element → Element) : Body κ Unit := Script.modify fun x => (f x.1, x.2)

/-- `puts -nonewline $Socket` and `flush $Socket` of a token, if there is one. -/
def putsToken (socket : Bool) (outdata : Bytes) : Prog κ Unit :=
  Script.only (!outdata.isEmpty) do
    soCommand socket Answer.done?
    record (.sent outdata)
    soCommand socket Answer.done?

def sspiStep : Prog κ (StepStatus × Bytes × Bytes) := command .provider Answer.step?

def sspiShutdownContext : Script σ Answer (Stop κ) Bytes := command .shutdown Answer.bytes?

/-- `puts -nonewline $Socket` of the token of a shutdown, where `Socket` exists. -/
def putsShutdown (outdata : Bytes) : Prog κ Unit := do
  command .shutdown Answer.done?
  record (.sent outdata)

def sspiDecryptStream : Prog κ (StreamStatus × Bytes) := do
  let (status, plaintext) ← command .provider Answer.stream?
  record (.decrypted plaintext)
  pure (status, plaintext)

/-- `puts -nonewline $Socket [sspi_encrypt_stream $SspiContext $data]`, whose
arguments are substituted in this order. -/
def putsEncrypted (socket : Bool) (data : Bytes) : Prog κ Unit := do
  Script.only (!socket) (raise (.missing .socket))
  let cipher ← command .provider Answer.bytes?
  soCommand socket Answer.done?
  record (.transmitted data cipher)

/-- `_blocking_read`: at least a byte, or the end of the stream. -/
def blockingRead (socket : Bool) : Script σ Answer (Stop κ) (Bytes × Bool) :=
  soCommand socket Answer.data?

/-! ### Events and output -/

def postReadEvent : Prog κ Unit := setDict fun t => { t with readEventPosted := true }

def postWriteEvent : Prog κ Unit := setDict fun t => { t with writeEventPosted := true }

def flushPendingOutput : Prog κ Unit :=
  dictWith do
    let l ← locals
    Script.only (!l.output.isEmpty) do
      Script.inside (putsEncrypted l.socket l.output)
      setLocals fun l => { l with output := [] }

/-! ### Negotiation -/

/-- Without a verifier the provider has done what there is of verification. -/
def trustProvider : Prog κ Unit :=
  Script.modify fun c => { c with verified := c.verified || !c.tls.verifier }

/-- `_open` from where the peer is verified. -/
def becomeOpen (socket : Bool) : Prog κ Unit := do
  setDict fun t => { t with state := .opened }
  let t ← dict
  Script.only t.acceptCallback do
    soCommand socket Answer.done?
    soCommand socket Answer.done?
    record .accepted
  flushPendingOutput

/-- `_open`. It is pending on the verifier, and then holds whether its own
`$Socket` exists. -/
def openChannel : Prog Bool Unit := do
  let t ← dict
  if t.verifier then Script.throw (.pending t.socket) else becomeOpen t.socket

/-- `_open` when the verifier returned or raised an error. If it closed the
channel, `dict set` makes an element of `State` alone and the next access to a
key fails: the element counts as missing. -/
def verifierReturned (socket : Bool) : Except String Bool → Prog Bool Unit
  | .ok true => do
      Script.modify fun c => { c with verified := true }
      let c ← Script.gets id
      Script.only (!c.present) (raise (.missing .channel))
      becomeOpen socket
  | .ok false =>
    raise (.message "SSL/TLS negotiation failed. Verifier callback returned false.")
  | .error text => raise (.command text)

/-- `_negotiate2` on what a non-blocking `sspi_step` returned. -/
def stepped (status : StepStatus) (leftover : Bytes) : Prog Bool Unit :=
  match status with
  | .done => do
      trustProvider
      Script.only (!leftover.isEmpty) do
        -- A status other than `ok` is ignored.
        let (_, plaintext) ← sspiDecryptStream
        setDict fun t => { t with input := t.input ++ plaintext }
      openChannel
  | .«continue» => pure ()
  | .other name => raise (.message ("Unexpected status " ++ name ++ " from sspi_step"))

/-- The turns of `_blocking_negotiate_loop`; `leftover` is not set before the
first of them. -/
def negotiateTurns (socket : Bool) :
    Nat → StepStatus → Bytes → Option Bytes → Prog Bool (StepStatus × Bytes × Option Bytes)
  | 0, status, outdata, leftover =>
    if status = .«continue» then Script.stuck else pure (status, outdata, leftover)
  | fuel + 1, status, outdata, leftover =>
    if status = .«continue» then do
      putsToken socket outdata
      let (_, eof) ← blockingRead socket
      Script.only eof (raise (.message "Unexpected EOF during TLS negotiation."))
      let (status, outdata, leftover) ← sspiStep.handle fun e => do
        soCommand socket Answer.done?
        Script.throw e
      negotiateTurns socket fuel status outdata (some leftover)
    else pure (status, outdata, leftover)

/-- `_blocking_negotiate_loop` after its last turn. -/
def negotiated (status : StepStatus) (leftover : Option Bytes) : Prog Bool Unit :=
  match status with
  | .done => do
      trustProvider
      match leftover with
      | none => raise (.missing .leftover)
      | some leftover => do
          Script.only (!leftover.isEmpty) do
            let (status, plaintext) ← sspiDecryptStream
            setDict fun t => { t with input := t.input ++ plaintext }
            Script.only (decide (status ≠ .ok))
              (raise (.message ("Error status " ++ status.name ++ " decrypting data")))
          openChannel
  | status => raise (.message ("TLS negotiation failed: status " ++ status.name ++ "."))

def blockingNegotiateLoop : Prog Bool Unit := do
  let t ← dict
  let (status, outdata, _) ← sspiStep
  let fuel ← Script.patience
  let (status, outdata, leftover) ← negotiateTurns t.socket fuel status outdata none
  putsToken t.socket outdata
  negotiated status leftover

def clientBlockingNegotiate : Prog Bool Unit := do
  dictWith do
    setLocals fun l => { l with state := .negotiating }
    command .provider Answer.done?
  blockingNegotiateLoop

def serverBlockingNegotiate : Prog Bool Unit := do
  setDict fun t => { t with state := .negotiating }
  let t ← dict
  let (_, eof) ← blockingRead t.socket
  Script.only eof (raise (.message "Unexpected EOF during TLS negotiation (server)."))
  command .provider Answer.done?
  blockingNegotiateLoop

def negotiate2 : Prog Bool Unit := do
  let t ← dict
  match t.state with
  | .negotiating =>
    if t.blocking && !t.acceptCallback then blockingNegotiateLoop
    else do
      let (data, eof) ← soCommand t.socket Answer.data?
      if data.isEmpty then
        Script.only eof
          (raise (.message "Unexpected EOF during TLS negotiation (NEGOTIATING)"))
      else do
        let (status, outdata, leftover) ← sspiStep
        putsToken t.socket outdata
        stepped status leftover
  | .clientInit =>
    if t.blocking then clientBlockingNegotiate
    else do
      setDict fun t => { t with state := .negotiating }
      command .provider Answer.done?
      let (status, outdata, _) ← sspiStep
      putsToken t.socket outdata
      Script.only (decide (status ≠ .«continue»))
        (raise (.message ("Unexpected status " ++ status.name ++ " from sspi_step")))
  | .serverInit =>
    if t.blocking && !t.acceptCallback then serverBlockingNegotiate
    else do
      let (data, eof) ← soCommand t.socket Answer.data?
      if data.isEmpty then
        Script.only eof
          (raise (.message "Unexpected EOF during TLS negotiation (SERVERINIT)"))
      else do
        setDict fun t => { t with state := .negotiating }
        command .provider Answer.done?
        let (status, outdata, leftover) ← sspiStep
        putsToken t.socket outdata
        stepped status leftover
  | state => raise (.message ("Internal error: _negotiate called in state " ++ state.name))

/-- The `onerror` clause of `_negotiate`, without its `rethrow`. -/
def negotiateOnerror (e : Err) : Prog κ Unit := do
  let c ← Script.gets id
  Script.only c.present do
    Script.only (decide (c.tls.type = .server ∧
        (c.tls.state = .serverInit ∨ c.tls.state = .negotiating)))
      (Script.modify fun c => { c with cleanups := c.cleanups + 1 })
    setDict fun t => { t with state := .closed, errorResult := some e }
    Script.only c.tls.socket do
      attempt (command .socket Answer.done?)
      setDict fun t => { t with socket := false }

/-! ### Closing -/

def cleanup : Prog κ Unit := do
  let c ← Script.gets id
  Script.only c.present do
    let t := c.tls
    Script.only (decide (t.state = .opened)) do
      let outdata ← sspiShutdownContext
      Script.only (!outdata.isEmpty && t.socket) (attempt (putsShutdown outdata))
    attempt (command .provider Answer.done?)
    Script.only t.socket (attempt (command .socket Answer.done?))
    Script.only t.freeCredentials (attempt (command .provider Answer.done?))
    Script.modify fun c => { c with present := false }

/-- `finalize`, which the channel's closing calls. -/
def finalize : Prog κ Unit := do
  Script.modify fun c => { c with alive := false }
  cleanup

/-- `close $chan`. -/
def closeChan : Prog κ Unit := do
  let c ← Script.gets id
  if c.alive then finalize else raise (.command "can not find channel")

def cleanupFailedAccept : Prog κ Unit := do
  Script.modify fun c => { c with cleanups := c.cleanups - 1 }
  let c ← Script.gets id
  Script.only (c.present && decide (c.tls.type = .server) && decide (c.tls.state = .closed))
    closeChan

end Twapi.Tls
