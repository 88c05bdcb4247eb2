import Twapi.Lib.Machine
import Twapi.Lib.Port

/-!
The named pipe channel of `namedpipe/namedpipe.c`: one channel, the thread that
owns it, the kernel and the thread pool.

* A driver procedure is cut into steps where it reads or writes what another
  thread may change: an `io[].state`, an `ovl.Internal`, an event or a wait.
  `Pc` says where the owning thread is; the procedures' local variables are
  its arguments.
* `Outcome` is what a system call answers, `Label` one step of one party. Any
  order of labels is a run.
* An overlapped operation on a direction has a number, `Io.op` being the latest
  one. `inflight`, `done` and `ran` record the operations the kernel still has,
  those that completed, and those whose callback has run. Like `consumed` and
  `returned` they are bookkeeping the code does not have.

`ReadFile` and the other calls that start an operation reset the event they are
given. A failed read transfers nothing, pipes being in byte mode.
-/

namespace Twapi.NamedPipe

open Lib

/-! ### Data -/

/-- `IOBUF_IDLE` and so on. -/
inductive IoState where
  | idle
  | pending
  | completed
  | completedWithError
deriving DecidableEq

/-- The index into `io[]`. -/
inductive Direction where
  | reader
  | writer
deriving DecidableEq

/-- `ERROR_SUCCESS` and `STATUS_PENDING`. -/
def errorSuccess : Nat := 0
def statusPending : Nat := 259

/-- `TWAPI_ERROR_TO_WIN32(TWAPI_REGISTER_WAIT_FAILED)`. -/
def registerWaitFailed : Nat := 3758096395

/-- `struct _NPipeIO`: `internal` is `ovl.Internal`, and `port` is `hevent`
with the wait `hwait` and its callbacks. A callback carries the state it is
about to store. -/
structure Io where
  state : IoState
  internal : Nat
  port : Port Nat IoState
  op : Nat
  inflight : List Nat
  done : List Nat
  ran : List Nat
deriving DecidableEq

structure Mask where
  readable : Bool
  writable : Bool
deriving DecidableEq

/-- Where `NPipeWatchReads` returns to: `NPipeInputProc` with the bytes read,
or `NPipeWatchProc`. -/
inductive Caller where
  | input (buf : List UInt8)
  | watch (mask : Mask)
deriving DecidableEq

/-- Where the owning thread is. `n` is the room in the caller's buffer and
`buf` what is in it. -/
inductive Pc where
  | tcl
  | accept
  | acceptRegister
  | acceptMark
  | failed
  | inputCheck (n : Nat)
  | inputUnregister (n : Nat)
  | inputWait (n : Nat)
  | readData (n : Nat)
  | peek (n : Nat) (buf : List UInt8)
  | read (n : Nat) (buf : List UInt8)
  | readWait (n : Nat) (buf : List UInt8)
  | watchTest (k : Caller)
  | watchMark (k : Caller)
  | watchIssue (k : Caller)
  | watchRegister (k : Caller)
  | watchUnregister (mask : Mask)
  | watchWrite (mask : Mask)
  | watchUnregisterWrite
  | outputCheck (n : Nat)
  | outputMark (n : Nat)
  | outputIssue (n : Nat)
  | outputDone (n : Nat)
  | outputRegister (n : Nat)
  | outputSync (n : Nat)
  | outputExchange (n : Nat)
  | eventRead
  | eventWrite
  | eventConnect
  | eventIdle (mask : Mask)
deriving DecidableEq

/-- What a driver procedure returned. -/
inductive Reply where
  | nothing
  | bytes (bs : List UInt8)
  | count (n : Nat)
  | again
  | notConnected
  | eof
  | failed (winerr : Nat)
  | notify (mask : Mask)
deriving DecidableEq

structure Channel where
  reader : Io
  writer : Io
  readAhead : UInt8
  watchRead : Bool
  watchWrite : Bool
  nonblocking : Bool
  connected : Bool
  eventQueued : Bool
  eofNotified : Bool
  winerr : Nat
  pc : Pc
  reply : Reply
  consumed : List UInt8
  returned : List UInt8
deriving DecidableEq

def Channel.io (s : Channel) : Direction → Io
  | .reader => s.reader
  | .writer => s.writer

def Channel.setIo (s : Channel) (io : Io) : Direction → Channel
  | .reader => { s with reader := io }
  | .writer => { s with writer := io }

/-- What a system call answers. `go` is a step without a call, `slept` the end
of a wait that did or did not have to block, `refused` a failing
`RegisterWaitForSingleObject`. -/
inductive Outcome where
  | go
  | ok
  | pending
  | fail (winerr : Nat)
  | bytes (bs : List UInt8)
  | avail (n : Nat)
  | slept (blocked : Bool)
  | refused
deriving DecidableEq

inductive Call where
  | input (n : Nat)
  | output (n : Nat)
  | watch (mask : Mask)
  | block (nonblocking : Bool)
  | check
  | event
deriving DecidableEq

/-- A step: the owning thread is called or goes on, the kernel completes an
operation, the pool picks up a signal, a callback reads `ovl.Internal`, a
callback exchanges the state. -/
inductive Label where
  | call (c : Call)
  | drive (o : Outcome)
  | finish (d : Direction) (c : Nat) (status : Nat) (bs : List UInt8)
  | pick (d : Direction)
  | sample (d : Direction) (i : Nat)
  | exchange (d : Direction) (i : Nat)
deriving DecidableEq

/-! ### Operations on one direction -/

namespace Io

/-- The state `NPipeThreadPoolHandler` computes from `ovl.Internal`. -/
def verdict (io : Io) : IoState :=
  if io.internal = errorSuccess then .completed else .completedWithError

/-- `InterlockedCompareExchange` of the state. -/
def exchange (io : Io) (old new : IoState) : Io := if io.state = old then { io with state := new } else io

/-- Store `IOBUF_IO_PENDING` for the operation about to be started. -/
def mark (io : Io) : Io := { io with state := .pending, op := io.op + 1 }

/-- The operation was started and is pending. -/
def issue (io : Io) : Io :=
  { io with internal := statusPending, inflight := io.op :: io.inflight, port := io.port.reset }

/-- The operation completed at once. -/
def instant (io : Io) : Io :=
  { io with internal := errorSuccess, done := io.op :: io.done, port := io.port.signal io.op }

/-- The operation could not be started. -/
def reject (io : Io) : Io := { io with internal := statusPending, port := io.port.reset }

/-- The kernel completes operation `c`. -/
def finish (io : Io) (c status : Nat) : Option Io :=
  if c ∈ io.inflight ∧ status ≠ statusPending then
    some { io with
      internal := status, inflight := io.inflight.erase c, done := c :: io.done, port := io.port.signal c }
  else none

def pick (io : Io) : Option Io := io.port.pick.map fun p => { io with port := p }

/-- `NPipeThreadPoolHandler` up to the exchange. -/
def sample (io : Io) (i : Nat) : Option Io :=
  (io.port.enter i io.verdict).map fun p => { io with port := p }

/-- `NPipeThreadPoolHandler` from the exchange on. -/
def handle (io : Io) (i : Nat) : Option Io :=
  (io.port.leave i).map fun (c, p) =>
    { io with port := p, ran := c.1 :: io.ran }.exchange .pending c.2

end Io

namespace Channel

/-! ### Returning from a driver procedure -/

/-- `SET_NPIPE_ERROR`. -/
def setError (s : Channel) (e : Nat) : Channel :=
  if s.winerr = errorSuccess then { s with winerr := e } else s

/-- `NPIPE_EOF`. -/
def eof (s : Channel) : Bool := s.winerr = 38 ∨ s.winerr = 109 ∨ s.winerr = 3221225803

def ret (s : Channel) (r : Reply) : Channel := { s with pc := .tcl, reply := r }

/-- `error_return` of `NPipeInputProc`. -/
def inputError (s : Channel) : Channel := s.ret (if s.eof then .eof else .failed s.winerr)

/-- `error_return` of `NPipeOutputProc`. -/
def outputError (s : Channel) : Channel := s.ret (.failed s.winerr)

/-- `NPipeInputProc` returns the bytes in the caller's buffer. -/
def give (s : Channel) (buf : List UInt8) : Channel :=
  { s with pc := .tcl, reply := .bytes buf, returned := s.returned ++ buf }

/-- `NPipeWatchReads` returns. -/
def resume (s : Channel) : Caller → Channel
  | .input buf => s.give buf
  | .watch mask => { s with pc := .watchWrite mask }

/-! ### What is notifiable -/

def eofNotifiable (s : Channel) : Bool := s.eof ∧ !s.eofNotified

/-- `NPIPE_READ_NOTIFIABLE` and `NPIPE_WRITE_NOTIFIABLE`. -/
def ioNotifiable (s : Channel) (io : Io) : Bool :=
  io.state = .completed ∨ io.state = .completedWithError ∨ s.winerr ≠ errorSuccess ∧ !s.connected

/-- `NPIPE_NOTIFIABLE`. -/
def notifiable (s : Channel) : Bool :=
  s.ioNotifiable s.reader ∨ s.ioNotifiable s.writer ∨ s.eofNotifiable

/-! ### NPipeAccept -/

def nPipeAccept (s : Channel) : Outcome → Option Channel
  | .ok => some { s with connected := true, pc := .tcl }
  | .pending => some { s with writer := { s.writer with op := s.writer.op + 1 }.issue, pc := .acceptRegister }
  | .fail e => some { s with winerr := e, pc := .failed }
  | _ => none

def acceptRegister (s : Channel) : Outcome → Option Channel
  | .ok => some { s with writer := { s.writer with port := s.writer.port.register }, pc := .acceptMark }
  | .fail e => some { s with winerr := e, pc := .failed }
  | _ => none

/-- The state is set after the wait is registered. -/
def acceptMark (s : Channel) : Channel :=
  { s with writer := { s.writer with state := .pending }, pc := .tcl }

/-! ### NPipeWatchReads -/

def watchTest (s : Channel) (k : Caller) : Channel :=
  if s.winerr ≠ errorSuccess ∨ s.reader.state = .completed ∨ s.reader.state = .completedWithError then
    s.resume k
  else { s with pc := .watchMark k }

def watchMark (s : Channel) (k : Caller) : Channel :=
  if s.reader.state = .pending then { s with pc := .watchRegister k }
  else { s with reader := { s.reader.mark with internal := errorSuccess }, pc := .watchIssue k }

/-- `ReadFile` of one byte into `read_ahead`. -/
def watchIssue (s : Channel) (k : Caller) : Outcome → Option Channel
  | .pending => some { s with reader := s.reader.issue, pc := .watchRegister k }
  | .bytes bs =>
    if bs.length ≤ 1 then
      some { s with
        reader := s.reader.instant, readAhead := bs.headD s.readAhead, consumed := s.consumed ++ bs
        pc := .watchRegister k }
    else none
  | .fail e => some ({ s with reader := { s.reader.reject with state := .idle }, winerr := e }.resume k)
  | _ => none

def watchRegister (s : Channel) (k : Caller) : Outcome → Option Channel
  | .go => if s.reader.port.registered then some (s.resume k) else none
  | .ok =>
    if s.reader.port.registered then none
    else some ({ s with reader := { s.reader with port := s.reader.port.register } }.resume k)
  | .refused =>
    if s.reader.port.registered then none else some ({ s with winerr := registerWaitFailed }.resume k)
  | _ => none

/-! ### NPipeInputProc and NPipeReadData -/

def nPipeInputProc (s : Channel) (n : Nat) : Channel :=
  if !s.connected then s.ret .notConnected
  else
    let s := if s.reader.state = .completedWithError then s.setError s.reader.internal else s
    if s.winerr ≠ errorSuccess then s.inputError else { s with pc := .inputCheck n }

def inputCheck (s : Channel) (n : Nat) : Channel :=
  if s.reader.state = .pending then
    if s.nonblocking then s.ret .again
    else if s.reader.port.registered then
      { s with reader := { s.reader with port := s.reader.port.cancel }, pc := .inputUnregister n }
    else { s with pc := .inputWait n }
  else { s with pc := .readData n }

/-- `UnregisterWaitEx` returns when the callbacks have. -/
def inputUnregister (s : Channel) (n : Nat) : Option Channel :=
  if s.reader.port.Drained then some { s with pc := .inputWait n } else none

def readAheadError (s : Channel) : Channel := (s.setError s.reader.internal).inputError

/-- `GetOverlappedResult` on the read-ahead, unless a callback was faster. It
waits for the event, and so resets it, only if the read is still pending. -/
def inputWait (s : Channel) (n : Nat) : Outcome → Option Channel
  | .slept blocked =>
    if s.reader.state = .pending then
      if s.reader.op ∈ s.reader.done then
        let port := if blocked then s.reader.port.reset else s.reader.port
        let s := { s with reader := { s.reader with state := s.reader.verdict, port := port } }
        if s.reader.state = .completedWithError then some s.readAheadError
        else some { s with pc := .readData n }
      else none
    else if s.reader.state = .completedWithError then some s.readAheadError
    else some { s with pc := .readData n }
  | _ => none

/-- `NPipeReadData` was successful. -/
def finishRead (s : Channel) (buf : List UInt8) : Channel :=
  if s.watchRead then { s with pc := .watchTest (.input buf) } else s.give buf

/-- Take the byte read ahead, if there is one. -/
def readData (s : Channel) (n : Nat) : Channel :=
  if s.reader.state = .completed then
    let s := { s with reader := { s.reader with state := .idle } }
    if n = 1 then s.finishRead [s.readAhead] else { s with pc := .peek (n - 1) [s.readAhead] }
  else { s with pc := .peek n [] }

def peek (s : Channel) (n : Nat) (buf : List UInt8) : Outcome → Option Channel
  | .fail e => some { s with winerr := e }.inputError
  | .avail k =>
    if k = 0 ∧ s.nonblocking then some (s.finishRead buf)
    else some { s with pc := .read (min (if k = 0 then 1 else k) n) buf }
  | _ => none

/-- A `ReadFile` or `GetOverlappedResult` of the drain delivered `bs`. -/
def drained (s : Channel) (buf bs : List UInt8) : Channel :=
  { s with reader := { s.reader with internal := errorSuccess }, consumed := s.consumed ++ bs }.finishRead
    (buf ++ bs)

def read (s : Channel) (n : Nat) (buf : List UInt8) : Outcome → Option Channel
  | .bytes bs => if bs.length ≤ n then some (s.drained buf bs) else none
  | .pending =>
    some { s with reader := { s.reader with internal := statusPending }, pc := .readWait n buf }
  | .fail e =>
    some { s with reader := { s.reader with internal := statusPending }, winerr := e }.inputError
  | _ => none

def readWait (s : Channel) (n : Nat) (buf : List UInt8) : Outcome → Option Channel
  | .bytes bs => if bs.length ≤ n then some (s.drained buf bs) else none
  | .fail e => some { s with reader := { s.reader with internal := e }, winerr := e }.inputError
  | _ => none

/-! ### NPipeWatchProc -/

/-- `NPipeDisableWatch` of the reader, up to its wait for the callbacks. -/
def nPipeWatchProc (s : Channel) (mask : Mask) : Channel :=
  if mask.readable then
    if s.watchRead then { s with pc := .watchWrite mask }
    else if s.connected then { s with watchRead := true, pc := .watchTest (.watch mask) }
    else { s with watchRead := true, pc := .watchWrite mask }
  else if s.reader.port.registered then
    { s with
      watchRead := false, reader := { s.reader with port := s.reader.port.cancel }
      pc := .watchUnregister mask }
  else { s with watchRead := false, pc := .watchWrite mask }

def watchUnregister (s : Channel) (mask : Mask) : Option Channel :=
  if s.reader.port.Drained then some { s with pc := .watchWrite mask } else none

/-- The write side. -/
def watchWriteSide (s : Channel) (mask : Mask) : Channel :=
  if mask.writable then { s with watchWrite := true }.ret .nothing
  else if s.watchWrite ∧ !s.nonblocking ∧ s.writer.port.registered then
    { s with
      watchWrite := false, writer := { s.writer with port := s.writer.port.cancel }
      pc := .watchUnregisterWrite }
  else { s with watchWrite := false }.ret .nothing

def watchUnregisterWrite (s : Channel) : Option Channel :=
  if s.writer.port.Drained then some (s.ret .nothing) else none

/-! ### NPipeOutputProc -/

def nPipeOutputProc (s : Channel) (n : Nat) : Channel :=
  if !s.connected then s.ret .notConnected
  else
    let s := if s.writer.state = .completedWithError then s.setError s.writer.internal else s
    if s.winerr ≠ errorSuccess then s.outputError
    else if s.nonblocking then { s with pc := .outputCheck n }
    else { s with pc := .outputSync n }

def outputCheck (s : Channel) (n : Nat) : Channel :=
  if s.writer.state = .pending then s.ret .again
  else { s with writer := { s.writer with internal := errorSuccess }, pc := .outputMark n }

def outputMark (s : Channel) (n : Nat) : Channel :=
  { s with writer := s.writer.mark, pc := .outputIssue n }

/-- `WriteFile` with the overlapped structure of the channel. -/
def outputIssue (s : Channel) (n : Nat) : Outcome → Option Channel
  | .ok => some { s with writer := s.writer.instant, pc := .outputDone n }
  | .pending => some { s with writer := s.writer.issue, pc := .outputRegister n }
  | .fail e => some { s with writer := s.writer.reject, winerr := e }.outputError
  | _ => none

/-- The write completed right away: no need to wait for the callback. -/
def outputDone (s : Channel) (n : Nat) : Channel :=
  { s with writer := s.writer.exchange .pending .completed }.ret (.count n)

def outputRegister (s : Channel) (n : Nat) : Outcome → Option Channel
  | .go => if s.writer.port.registered then some (s.ret (.count n)) else none
  | .ok =>
    if s.writer.port.registered then none
    else some ({ s with writer := { s.writer with port := s.writer.port.register } }.ret (.count n))
  | .refused =>
    if s.writer.port.registered then none else some { s with winerr := registerWaitFailed }.outputError
  | _ => none

/-- A blocking `WriteFile`, on an overlapped structure of its own; `ok` is the
number of bytes written. -/
def outputSync (s : Channel) : Outcome → Option Channel
  | .avail n => some { s with pc := .outputExchange n }
  | .fail e => some { s with winerr := e }.outputError
  | _ => none

def outputExchange (s : Channel) (n : Nat) : Channel :=
  { s with writer := s.writer.exchange .idle .completed }.ret (.count n)

/-! ### NPipeBlockProc, NPipeCheckProc, NPipeEventProc -/

def nPipeBlockProc (s : Channel) (nonblocking : Bool) : Channel :=
  { s with nonblocking := nonblocking }.ret .nothing

def nPipeCheckProc (s : Channel) : Channel :=
  if s.notifiable ∧ !s.eventQueued then { s with eventQueued := true }.ret .nothing else s.ret .nothing

def nPipeEventProc (s : Channel) : Option Channel :=
  if s.eventQueued then some { s with eventQueued := false, pc := .eventRead } else none

def eventRead (s : Channel) : Channel :=
  { (if s.reader.state = .completedWithError then s.setError s.reader.internal else s) with
    pc := .eventWrite }

def eventWrite (s : Channel) : Channel :=
  { (if s.writer.state = .completedWithError then s.setError s.writer.internal else s) with
    pc := .eventConnect }

/-- The events to report, and the connection completing. -/
def eventConnect (s : Channel) : Channel :=
  let connects := s.ioNotifiable s.writer ∧ !s.connected
  let mask : Mask := {
    readable := s.watchRead ∧ (s.ioNotifiable s.reader ∨ connects ∨ s.eofNotifiable)
    writable := s.watchWrite ∧ (s.ioNotifiable s.writer ∨ s.eofNotifiable) }
  { s with
    connected := s.connected ∨ s.ioNotifiable s.writer
    eofNotified := s.eofNotified ∨ s.eofNotifiable
    pc := .eventIdle mask }

def eventIdle (s : Channel) (mask : Mask) : Channel :=
  { s with writer := s.writer.exchange .completed .idle }.ret (.notify mask)

/-! ### The machine -/

/-- Tcl calls a driver procedure; `NPipeReadData` asserts that there is room. -/
def enter (s : Channel) : Call → Option Channel
  | .input n => if 0 < n then some (s.nPipeInputProc n) else none
  | .output n => some (s.nPipeOutputProc n)
  | .watch mask => some (s.nPipeWatchProc mask)
  | .block nonblocking => some (s.nPipeBlockProc nonblocking)
  | .check => some s.nPipeCheckProc
  | .event => s.nPipeEventProc

/-- A step that makes no system call. -/
def go (r : Option Channel) : Outcome → Option Channel
  | .go => r
  | _ => none

/-- The owning thread goes on. -/
def drive (s : Channel) (o : Outcome) : Option Channel :=
  match s.pc with
  | .tcl | .failed => none
  | .accept => s.nPipeAccept o
  | .acceptRegister => s.acceptRegister o
  | .acceptMark => go (some s.acceptMark) o
  | .inputCheck n => go (some (s.inputCheck n)) o
  | .inputUnregister n => go (s.inputUnregister n) o
  | .inputWait n => s.inputWait n o
  | .readData n => go (some (s.readData n)) o
  | .peek n buf => s.peek n buf o
  | .read n buf => s.read n buf o
  | .readWait n buf => s.readWait n buf o
  | .watchTest k => go (some (s.watchTest k)) o
  | .watchMark k => go (some (s.watchMark k)) o
  | .watchIssue k => s.watchIssue k o
  | .watchRegister k => s.watchRegister k o
  | .watchUnregister mask => go (s.watchUnregister mask) o
  | .watchWrite mask => go (some (s.watchWriteSide mask)) o
  | .watchUnregisterWrite => go s.watchUnregisterWrite o
  | .outputCheck n => go (some (s.outputCheck n)) o
  | .outputMark n => go (some (s.outputMark n)) o
  | .outputIssue n => s.outputIssue n o
  | .outputDone n => go (some (s.outputDone n)) o
  | .outputRegister n => s.outputRegister n o
  | .outputSync _ => s.outputSync o
  | .outputExchange n => go (some (s.outputExchange n)) o
  | .eventRead => go (some s.eventRead) o
  | .eventWrite => go (some s.eventWrite) o
  | .eventConnect => go (some s.eventConnect) o
  | .eventIdle mask => go (some (s.eventIdle mask)) o

/-- The kernel completes a write or a connect, which deliver nothing, or the
read-ahead. -/
def kernel (s : Channel) (d : Direction) (c status : Nat) (bs : List UInt8) : Option Channel :=
  match d with
  | .reader =>
    if bs.length ≤ 1 ∧ (status ≠ errorSuccess → bs = []) then
      (s.reader.finish c status).map fun io =>
        { s with reader := io, readAhead := bs.headD s.readAhead, consumed := s.consumed ++ bs }
    else none
  | .writer => if bs = [] then (s.writer.finish c status).map fun io => { s with writer := io } else none

def step (s : Channel) : Label → Option Channel
  | .call c => if s.pc = .tcl then s.enter c else none
  | .drive o => if o = .fail errorSuccess then none else s.drive o
  | .finish d c status bs => s.kernel d c status bs
  | .pick d => (s.io d).pick.map fun io => s.setIo io d
  | .sample d i => ((s.io d).sample i).map fun io => s.setIo io d
  | .exchange d i => ((s.io d).handle i).map fun io => s.setIo io d

end Channel

def Io.new : Io := ⟨.idle, 0, .fresh, 0, [], [], []⟩

/-- `NPipeChannelNew`, then the server's accept or the client's connected flag. -/
def Channel.new (server : Bool) : Channel :=
  ⟨.new, .new, 0, false, false, false, !server, false, false, errorSuccess,
    if server then .accept else .tcl, .nothing, [], []⟩

/-- All runs of a channel, server or client. -/
def pipeMachine : Machine Channel Label where
  init s := ∃ server, s = .new server
  step := Channel.step

end Twapi.NamedPipe
