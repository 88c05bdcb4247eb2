import Twapi.Lib.Machine
import Twapi.Tls.Model

/-!
A channel in use: how it was created, the calls of its driver and its event
handlers, and the verifier scripts that are running.

* `Caller`, `Return` — who called `_negotiate2`, and whether through `_negotiate`,
  whose `onerror` clause is a step of its own here.
* `enter` — a call from its start; `resume` — from where negotiation returned.
* `Conn` — the channel with a stack of verifiers. A verifier is a script: while
  it runs the channel can be called again, also from the event loop.
* `machine` — a label holds a call with every answer it gets. A call that waits
  for ever has no label.
-/

namespace Twapi.Tls

open Lib

/-! ### Callers -/

/-- What creates a channel: `_socket` for a client or a listener, `_starttls`,
`_accept`. -/
inductive Creation where
  | socketClient (async : Bool)
  | socketServer
  | starttlsClient
  | starttlsServer
  | accept
deriving DecidableEq

/-- Who negotiates. `soWriteHandler` holds its copy of `WatchMask`. -/
inductive Caller where
  | create (k : Creation)
  | read (nbytes : Nat)
  | write (data : Bytes)
  | handshake
  | soReadHandler
  | soWriteHandler (watchMask : WatchMask)
deriving DecidableEq

/-- Where `_negotiate2` returns to: `trapped` is through `_negotiate`. -/
structure Return where
  caller : Caller
  trapped : Bool
deriving DecidableEq

/-- A running verifier: what called `_open`, and whether that has a `$Socket`. -/
structure Frame where
  ret : Return
  socket : Bool
deriving DecidableEq

/-- What a call can stop at: the `onerror` clause of `_negotiate`, or a verifier. -/
inductive Pending where
  | onerror (c : Caller) (e : Err)
  | verifier (f : Frame)
deriving DecidableEq

/-- Negotiation as its caller sees it. -/
def negotiation (r : Return) (p : Prog Bool Unit) : Prog Pending Unit :=
  p.handle fun
    | .error e => Script.throw (if r.trapped then .pending (.onerror r.caller e) else .error e)
    | .pending socket => Script.throw (.pending (.verifier ⟨r, socket⟩))

/-- `_negotiate`. -/
def negotiate (c : Caller) : Prog Pending Unit := negotiation ⟨c, true⟩ negotiate2

/-- `_channels($chan)` is read. -/
def expectElement : Prog Pending Unit := do
  let c ← Script.gets id
  Script.only (!c.present) (raise (.missing .channel))

/-! ### Driver -/

def blocking (mode : Bool) : Prog Pending Unit :=
  dictWith do
    setLocals fun l => { l with blocking := mode }
    let l ← locals
    Script.only l.socket do
      -- `fconfigure`, `flush` and the two handlers.
      command .socket Answer.done?
      command .socket Answer.done?
      command .socket Answer.done?
      command .socket Answer.done?

def watch (watchMask : WatchMask) : Prog Pending Unit :=
  dictWith do
    setLocals fun l => { l with watchMask := watchMask }
    let l ← locals
    Script.only watchMask.read do
      Script.only (!l.input.isEmpty || !l.socket) (Script.inside postReadEvent)
      soCommand l.socket Answer.done?
    Script.only (watchMask.write && (decide (l.state = .opened) || l.state.negotiable))
      (Script.inside postWriteEvent)

/-- The loop of a blocking `read`. -/
def readTurns : Nat → StreamStatus → Body Pending StreamStatus
  | 0, status => do
      let l ← locals
      if l.input.isEmpty && decide (status = .ok) then Script.stuck else pure status
  | fuel + 1, status => do
      let l ← locals
      if l.input.isEmpty && decide (status = .ok) then do
        let (data, _) ← blockingRead l.socket
        if data.isEmpty then readTurns fuel .eof
        else do
          let (status, plaintext) ← Script.inside sspiDecryptStream
          setLocals fun l => { l with input := l.input ++ plaintext }
          readTurns fuel status
      else pure status

/-- The non-blocking `read` of what the socket has. -/
def readAvailable : Body Pending StreamStatus := do
  let l ← locals
  let (data, eof) ← soCommand l.socket Answer.data?
  if data.isEmpty then do
    let l ← locals
    Script.only (l.input.isEmpty && !eof) (raise .eagain)
    pure (if eof then .eof else .ok)
  else do
    let (status, plaintext) ← Script.inside sspiDecryptStream
    setLocals fun l => { l with input := l.input ++ plaintext }
    let l ← locals
    Script.only (l.input.isEmpty && decide (status = .ok)) (raise .eagain)
    pure status

/-- What `read` does to the channel when there is no more to read. -/
def readShutdown (status : StreamStatus) : Body Pending Unit := do
  setLocals fun l => { l with state := .closed }
  let outdata ← sspiShutdownContext
  let l ← locals
  Script.only l.socket do
    Script.only (!outdata.isEmpty && decide (status ≠ .eof)) (Script.inside (putsShutdown outdata))
    attempt (command .socket Answer.done?)
    setLocals fun l => { l with socket := false }

/-- More bytes, if there are too few and the connection is open. -/
def readMore (nbytes : Nat) : Body Pending StreamStatus := do
  let l ← locals
  if decide (l.input.length < nbytes) && decide (l.state = .opened) then
    if l.blocking then do
      let fuel ← Script.patience
      readTurns fuel .ok
    else readAvailable
  else pure .ok

/-- The block of `read`, with what it returns. -/
def readBlock (nbytes : Nat) : Body Pending Bytes := do
  let status ← readMore nbytes
  let l ← locals
  setLocals fun l => { l with input := l.input.drop nbytes }
  let t ← Script.inside dict
  Script.only (t.watchMask.read && !(l.input.drop nbytes).isEmpty) (Script.inside postReadEvent)
  Script.only (decide (status ≠ .ok)) (readShutdown status)
  pure (l.input.take nbytes)

/-- `read` from where the channel is not negotiating. -/
def readBody (nbytes : Nat) : Prog Pending Unit := do
  let ret ← dictWith (readBlock nbytes)
  record (.returned ret)

def readNegotiated (nbytes : Nat) : Prog Pending Unit := do
  let t ← dict
  if t.state.negotiable then
    if t.blocking then raise (.message "TLS negotiation failed on blocking channel")
    else raise .eagain
  else readBody nbytes

def read (nbytes : Nat) : Prog Pending Unit :=
  if nbytes = 0 then record (.returned [])
  else do
    expectElement
    let t ← dict
    if t.state.negotiable then do
      negotiate (.read nbytes)
      readNegotiated nbytes
    else readBody nbytes

/-- `write` from where the channel is not negotiating. Data counts as written from
where it is stored or sent. -/
def writeBody (data : Bytes) : Prog Pending Unit :=
  dictWith do
    let l ← locals
    match l.state with
    | .closed => Script.inside (record (.discarded data))
    | .opened => do
        Script.only l.writeDisabled (raise (.message "Channel closed for output."))
        Script.inside flushPendingOutput
        Script.inside (putsEncrypted l.socket data)
        Script.inside (record (.wrote data))
        soCommand l.socket Answer.done?
    | _ => do
        setLocals fun l => { l with output := l.output ++ data }
        Script.inside (record (.wrote data))

def writeNegotiated (data : Bytes) : Prog Pending Unit := do
  let t ← dict
  if t.state.negotiable then
    if t.blocking then raise (.message "TLS negotiation failed on blocking channel")
    else do
      setDict fun t => { t with output := t.output ++ data }
      record (.wrote data)
  else writeBody data

def write (data : Bytes) : Prog Pending Unit := do
  expectElement
  let t ← dict
  if t.state.negotiable then do
    negotiate (.write data)
    writeNegotiated data
  else writeBody data

/-! ### Commands of the script -/

def handshake : Prog Pending Unit := do
  let c ← Script.gets id
  Script.only (!c.present) (raise (.message "Not a valid TLS channel."))
  let t ← dict
  if t.blocking then
    match t.state with
    | .negotiating | .clientInit | .serverInit => do
        negotiation ⟨.handshake, false⟩ negotiate2
        record (.handshake true)
    | .opened => record (.handshake true)
    -- The source spells `LISTERNERINIT` and so has no case for a listener.
    | .listenerInit | .closed => raise (.message "Channel has been closed or in error state.")
  else
    match t.state with
    | .opened => record (.handshake true)
    | .clientInit | .serverInit | .listenerInit | .negotiating => record (.handshake false)
    | .closed => raise (.message "Channel has been closed or in error state.")

/-- `tls_close $chan write`; the `flush $chan` it begins with is a `write`. -/
def closeWrite : Prog Pending Unit := do
  expectElement
  let t ← dict
  match t.state with
  | .closed => pure ()
  | .opened => do
      flushPendingOutput
      soCommand t.socket Answer.done?
      setDict fun t => { t with writeDisabled := true }
  | _ => raise (.message "Connection not in OPEN state.")

/-! ### Events -/

def soReadNegotiated : Prog Pending Unit := do
  let t ← dict
  if t.watchMask.read then postReadEvent
  else Script.only (!t.state.negotiable && t.socket) (command .socket Answer.done?)

def soReadHandler : Prog Pending Unit := do
  let c ← Script.gets id
  Script.only c.present do
    Script.only c.tls.state.negotiable (negotiate .soReadHandler)
    soReadNegotiated

def soWriteNegotiated (watchMask : WatchMask) : Prog Pending Unit := do
  let t ← dict
  Script.only (watchMask.write && decide (t.state = .opened)) postWriteEvent

def soWriteHandler : Prog Pending Unit := do
  let c ← Script.gets id
  Script.only c.present do
    let t := c.tls
    Script.only (!t.watchMask.write && t.socket) (command .socket Answer.done?)
    Script.only t.state.negotiable (negotiate (.soWriteHandler t.watchMask))
    soWriteNegotiated t.watchMask

/-- The `chan postevent` that follows may be answered by a call. -/
def postReadEventCallback : Prog Pending Unit := do
  let c ← Script.gets id
  Script.only c.present (setDict fun t => { t with readEventPosted := false })

def postWriteEventCallback : Prog Pending Unit := do
  let c ← Script.gets id
  Script.only c.present (setDict fun t => { t with writeEventPosted := false })

/-! ### Creation -/

/-- What `_init` sets. -/
def init (k : Creation) (blocking verifier freeCredentials : Bool) : Element where
  socket := true
  state :=
    match k with
    | .socketClient _ | .starttlsClient => .clientInit
    | .socketServer => .listenerInit
    | .starttlsServer | .accept => .serverInit
  type :=
    match k with
    | .socketClient _ | .starttlsClient => .client
    | .socketServer => .listener
    | .starttlsServer | .accept => .server
  blocking := blocking
  watchMask := ⟨false, false⟩
  writeDisabled := false
  verifier := verifier
  acceptCallback :=
    match k with
    | .socketServer | .accept => true
    | .socketClient _ | .starttlsClient | .starttlsServer => false
  freeCredentials := freeCredentials
  input := []
  output := []
  readEventPosted := false
  writeEventPosted := false
  errorResult := none

/-- A client that negotiated before it is returned has to be open. -/
def expectOpen : Prog Pending Unit := do
  let c ← Script.gets id
  Script.only (!c.present || decide (c.tls.state ≠ .opened))
    (raise (if c.present then c.tls.errorResult.getD (.message "TLS negotiation aborted")
      else .message "TLS negotiation aborted"))

def clientNegotiate (k : Creation) : Prog Pending Unit := do
  negotiation ⟨.create k, false⟩ clientBlockingNegotiate
  expectOpen

/-- A creation after its `_init`. `_starttls` gives the channel the blocking
mode of the socket, through the driver. -/
def create : Creation → Prog Pending Unit
  | .socketClient async => Script.only (!async) (clientNegotiate (.socketClient async))
  | .socketServer => pure ()
  | .starttlsClient => do
      let t ← dict
      blocking t.blocking
      if t.blocking then clientNegotiate .starttlsClient else negotiate (.create .starttlsClient)
  | .starttlsServer => do
      let t ← dict
      blocking t.blocking
      Script.only (!t.blocking) do
        command .socket Answer.done?
        command .socket Answer.done?
      negotiate (.create .starttlsServer)
  | .accept => do
      command .socket Answer.done?
      command .socket Answer.done?
      negotiate (.create .accept)

/-! ### Calls -/

inductive Call where
  | read (nbytes : Nat)
  | write (data : Bytes)
  | blocking (mode : Bool)
  | watch (watchMask : WatchMask)
  | finalize
  | handshake
  | closeWrite
  | soReadHandler
  | soWriteHandler
  | postReadEventCallback
  | postWriteEventCallback
  | cleanupFailedAccept
deriving DecidableEq

/-- The driver is called while the Tcl channel is open; an `after 0` script runs
if it waits. -/
def Call.enabled (c : Chan) : Call → Bool
  | .soReadHandler | .soWriteHandler => true
  | .postReadEventCallback => c.tls.readEventPosted
  | .postWriteEventCallback => c.tls.writeEventPosted
  | .cleanupFailedAccept => decide (0 < c.cleanups)
  | _ => c.alive

def enter : Call → Prog Pending Unit
  | .read nbytes => read nbytes
  | .write data => write data
  | .blocking mode => do
      expectElement
      blocking mode
  | .watch watchMask => do
      expectElement
      watch watchMask
  | .finalize => finalize
  | .handshake => handshake
  | .closeWrite => closeWrite
  | .soReadHandler => soReadHandler
  | .soWriteHandler => soWriteHandler
  | .postReadEventCallback => postReadEventCallback
  | .postWriteEventCallback => postWriteEventCallback
  | .cleanupFailedAccept => cleanupFailedAccept

/-- What a caller does when negotiation returned. -/
def resume (r : Return) : Prog Pending Unit :=
  match r.caller with
  | .create _ => Script.only (!r.trapped) expectOpen
  | .read nbytes => readNegotiated nbytes
  | .write data => writeNegotiated data
  | .handshake => record (.handshake true)
  | .soReadHandler => soReadNegotiated
  | .soWriteHandler watchMask => soWriteNegotiated watchMask

/-- A creation that fails closes the channel, or in `_accept` only cleans up. -/
def discard : Caller → Prog Pending Unit
  | .create .accept => attempt cleanup
  | .create _ => attempt closeChan
  | _ => pure ()

/-- What a caller does with an error. -/
def fail (c : Caller) (e : Err) : Prog Pending Unit := do
  discard c
  raise e

def failing (c : Caller) (p : Prog Pending Unit) : Prog Pending Unit :=
  p.handle fun
    | .error e => fail c e
    | .pending k => Script.throw (.pending k)

/-! ### Runs -/

/-- Where control is: a creation after `_init`, the application's scripts and
the event loop, or the `onerror` clause of `_negotiate`. -/
inductive Pc where
  | creating (k : Creation)
  | script
  | onerror (c : Caller) (e : Err)
deriving DecidableEq

structure Conn where
  chan : Chan
  pc : Pc
  frames : List Frame
deriving DecidableEq

inductive Label where
  | create (w : List Answer)
  | call (c : Call) (w : List Answer)
  | onerror (w : List Answer)
  | verifier (result : Except String Bool) (w : List Answer)

/-- The state after a call that used every answer. -/
def settle (frames : List Frame) :
    Option (Except (Stop Pending) Unit × Chan × List Answer) → Option Conn
  | some (.ok (), c, []) => some ⟨c, .script, frames⟩
  | some (.error (.error e), c, []) => some ⟨{ c with log := c.log ++ [.raised e] }, .script, frames⟩
  | some (.error (.pending (.onerror caller e)), c, []) => some ⟨c, .onerror caller e, frames⟩
  | some (.error (.pending (.verifier f)), c, []) => some ⟨c, .script, f :: frames⟩
  | _ => none

/-- The verifier of the frame returned: the rest of `_open` and of its caller. -/
def verified (f : Frame) (result : Except String Bool) : Prog Pending Unit := do
  negotiation f.ret (verifierReturned f.socket result)
  resume f.ret

/-- The `onerror` clause of `_negotiate`, which rethrows to the caller. -/
def trapped (e : Err) : Prog Pending Unit := do
  negotiateOnerror e
  raise e

def step (s : Conn) : Label → Option Conn
  | .create w =>
    match s.pc with
    | .creating k => settle s.frames (failing (.create k) (create k) s.chan w)
    | _ => none
  | .call c w =>
    if s.pc = .script ∧ c.enabled s.chan then settle s.frames (enter c s.chan w) else none
  | .onerror w =>
    match s.pc with
    | .onerror c e => settle s.frames (failing c (trapped e) s.chan w)
    | _ => none
  | .verifier result w =>
    match s.pc, s.frames with
    | .script, f :: frames =>
      settle frames (failing f.ret.caller (verified f result) s.chan w)
    | _, _ => none

/-- A channel after its `_init`. -/
def start (k : Creation) (blocking verifier freeCredentials : Bool) : Conn where
  chan :=
    { alive := true
      present := true
      tls := init k blocking verifier freeCredentials
      cleanups := 0
      verified := false
      log := [] }
  pc := .creating k
  frames := []

def machine : Machine Conn Label where
  init s := ∃ k blocking verifier freeCredentials, s = start k blocking verifier freeCredentials
  step := step

end Twapi.Tls
