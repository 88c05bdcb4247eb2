import Twapi.Lib.Ledger
import Twapi.Lib.Lifetime
import Twapi.NamedPipe.Model

/-!
The commands that create a named pipe channel, `Twapi_NPipeServerObjCmd` and
`Twapi_NPipeClientObjCmd` of `namedpipe/namedpipe.c`, with `NPipeShutdown`.

* What the system answers is a parameter (`Answers`): for each call the error, where
  there is one.
* `uses` are the accesses of the context and its release, `handles` the handles and the
  wait that are acquired and released. The context keeps what was in it when it is
  released.
* Tcl calls `NPipeThreadActionProc` when a channel is created, and when it is closed
  before `NPipeCloseProc`. It closes a channel that is unregistered at once.
* `server_proper_iff`, `client_proper_iff` — when a command is as it should be, and
  `creation_proper_iff` both.
-/

namespace Twapi.NamedPipe.Create

open Lib (Entry Use Clean deletions deletions_access)

/-! ### State -/

inductive Handle where
  | pipe
  | sync
  | reader
  | writer
  | wait
deriving DecidableEq

/-- What is used of `NPipeChannel`. Handles are there or not; `hwait` is that of the
writer, a reader has none yet. -/
structure NPipeChannel where
  thread : Bool
  channel : Bool
  hpipe : Bool
  hsync : Bool
  readerEvent : Bool
  writerEvent : Bool
  hwait : Bool
  pending : Bool
  connected : Bool
  nrefs : Int
  winerr : Nat
deriving DecidableEq

/-- `pcP` is what is in the memory of the context, whether or not it is released.
`registered` is the channel of the interpreter. -/
structure World where
  pcP : Option NPipeChannel
  uses : List Use
  handles : List (Entry Handle)
  registered : Option Mask
deriving DecidableEq

def World.start : World := ⟨none, [], [], none⟩

inductive Result where
  | ok
  | error
deriving DecidableEq

namespace World

variable (w : World)

/-- An access of the context that changes it. -/
def access (f : NPipeChannel → NPipeChannel) : World :=
  { w with pcP := w.pcP.map f, uses := .access :: w.uses }

def acquire (h : Handle) : World := { w with handles := w.handles ++ [.acquire h] }

def release (h : Handle) (held : Bool) : World :=
  if held then { w with handles := w.handles ++ [.release h] } else w

/-- `NPipeChannelNew` -/
def nPipeChannelNew : World :=
  { w with pcP := some ⟨false, false, false, false, false, false, false, false, false, 0, 0⟩,
           uses := [.access] }

/-- `NPipeChannelRef` -/
def nPipeChannelRef (incr : Int) : World := w.access fun c => { c with nrefs := c.nrefs + incr }

/-- `NPipeChannelUnref` and `NPipeChannelDelete` -/
def nPipeChannelUnref (decr : Int) : World :=
  let gone := w.pcP.any (·.nrefs ≤ decr)
  let w := w.nPipeChannelRef (-decr)
  if gone then { w with uses := .delete :: w.uses } else w

/-- `NPipeShutdown`. The wait for an operation that is pending is left out. -/
def nPipeShutdown (unrefs : Int) : World :=
  match w.pcP with
  | none => w
  | some c =>
    let unrefs := if c.hwait then unrefs + 1 else unrefs
    let w := ((((w.release .wait c.hwait).release .pipe c.hpipe).release .writer
      c.writerEvent).release .reader c.readerEvent).release .sync c.hsync
    let w := w.access fun c => { c with
      hwait := false, hpipe := false, writerEvent := false, readerEvent := false, hsync := false }
    if unrefs = 0 then w else w.nPipeChannelUnref unrefs

/-- `TCL_CHANNEL_THREAD_INSERT` -/
def threadInsert : World := (w.access fun c => { c with thread := true }).nPipeChannelRef 1

def threadRemove : World := (w.access fun c => { c with thread := false }).nPipeChannelUnref 1

/-- The reference for Tcl, `Tcl_CreateChannel` and `Tcl_RegisterChannel`. -/
def createChannel (mask : Mask) : World :=
  let w := (w.nPipeChannelRef 1).threadInsert
  { w.access fun c => { c with channel := true } with registered := some mask }

/-- `Tcl_UnregisterChannel`, with `NPipeCloseProc`. -/
def unregisterChannel : World := { w.threadRemove.nPipeShutdown 1 with registered := none }

end World

/-! ### The commands -/

def ERROR_SUCCESS : Nat := 0
def ERROR_PIPE_CONNECTED : Nat := 535
def ERROR_IO_PENDING : Nat := 997

/-- The calls of the system: of those that fail the error. `file` is
`CreateNamedPipeW` or `CreateFileW`. -/
structure Answers where
  secattr : Bool
  file : Option Nat
  isPipe : Bool
  sync : Option Nat
  reader : Option Nat
  writer : Option Nat
  connect : Option Nat
  register : Option Nat
deriving DecidableEq

/-- The arguments; `args` is whether they can be read, and `readable` and `writable`
are what the mode or the access asks for. -/
structure Request where
  args : Bool
  pipe_mode : UInt32
  mask : Mask

/-- `NPipeAccept`: its error, and the context. -/
def nPipeAccept (a : Answers) (w : World) : Nat × World :=
  match a.connect with
  | none => (ERROR_SUCCESS, w.access fun c => { c with connected := true })
  | some winerr =>
    if winerr = ERROR_PIPE_CONNECTED then
      (ERROR_SUCCESS, w.access fun c => { c with connected := true })
    else if winerr = ERROR_IO_PENDING then
      let w := w.nPipeChannelRef 1
      match a.register with
      | none =>
        (ERROR_IO_PENDING,
          (w.acquire .wait).access fun c => { c with hwait := true, pending := true })
      | some winerr => (winerr, w.nPipeChannelUnref 1)
    else (winerr, w.access id)

/-- The events, up to the first that cannot be created, and its error. -/
def createEvents (a : Answers) (w : World) : Option Nat × World :=
  match a.sync with
  | some winerr => (some winerr, w)
  | none =>
    let w := (w.acquire .sync).access fun c => { c with hsync := true }
    match a.reader with
    | some winerr => (some winerr, w)
    | none =>
      let w := (w.acquire .reader).access fun c => { c with readerEvent := true }
      match a.writer with
      | some winerr => (some winerr, w)
      | none => (none, (w.acquire .writer).access fun c => { c with writerEvent := true })

/-- The exit for errors. -/
def failed (winerr : Nat) (w : World) : Result × World :=
  (.error, (w.access fun c => { c with winerr }).nPipeShutdown 0)

/-- What follows when there are all events. -/
def withEvents (a : Answers) (w : World) (next : World → Result × World) : Result × World :=
  match createEvents a w with
  | (some winerr, w) => failed winerr w
  | (none, w) => next w

/-- What `Twapi_NPipeServerObjCmd` does after `NPipeAccept`. -/
def accepted : Nat × World → Result × World
  | (winerr, w) =>
    if winerr = ERROR_SUCCESS ∨ winerr = ERROR_IO_PENDING then (.ok, w)
    else failed winerr (w.unregisterChannel.access fun c => { c with channel := false })

def twapiNPipeServerObjCmd (r : Request) (a : Answers) : Result × World :=
  if ¬ r.args ∨ r.pipe_mode &&& 7 ≠ 0 then (.error, .start)
  else
    let w := World.start.nPipeChannelNew
    if ¬ a.secattr then (.error, w)
    else
      match a.file with
      | some winerr => failed winerr w
      | none =>
        let w := (w.acquire .pipe).access fun c => { c with hpipe := true }
        withEvents a w fun w => accepted (nPipeAccept a (w.createChannel r.mask))

def twapiNPipeClientObjCmd (r : Request) (a : Answers) : Result × World :=
  if ¬ r.args then (.error, .start)
  else if ¬ a.secattr then (.error, .start)
  else
    match a.file with
    | some _ => (.error, .start)
    | none =>
      let w := World.start.acquire .pipe
      if ¬ a.isPipe then (.error, w.release .pipe true)
      else
        let w := w.nPipeChannelNew.access fun c => { c with hpipe := true }
        withEvents a w fun w =>
          (.ok, (w.createChannel r.mask).access fun c => { c with connected := true })

/-! ### A proper end -/

/-- The references to a context: those of the Tcl channel, of the list of the thread and
of the thread pool. -/
def holders (w : World) (c : NPipeChannel) : Int :=
  (if w.registered.isSome then 1 else 0) + (if c.thread then 1 else 0) +
    (if c.hwait then 1 else 0)

/-- Either there is a channel that is registered, whose context is there with exactly the
references to it; or the handles are closed, and the context, where there was one, was
released once and not accessed after that. -/
def Proper : Result × World → Prop
  | (.ok, w) => w.registered.isSome = true ∧ deletions w.uses = 0 ∧
      ∃ c ∈ w.pcP, c.channel = true ∧ c.nrefs = holders w c
  | (.error, w) => w.registered = none ∧ Entry.Settled w.handles ∧
      (w.pcP.isSome = true → deletions w.uses = 1 ∧ Clean w.uses)

/-- `NPipeAccept` comes to a connection, or to a wait for one. -/
def Accepted (a : Answers) : Prop :=
  ∀ winerr ∈ a.connect, winerr = ERROR_PIPE_CONNECTED ∨ winerr = ERROR_SUCCESS ∨
    winerr = ERROR_IO_PENDING ∧
      ∀ winerr ∈ a.register, winerr = ERROR_SUCCESS ∨ winerr = ERROR_IO_PENDING

/-- All events can be created. -/
def EventsMade (a : Answers) : Prop := a.sync = none ∧ a.reader = none ∧ a.writer = none

/-! ### The exit for errors -/

section
variable {w : World} {c : NPipeChannel}

@[simp] theorem World.release_pcP (h : Handle) (held : Bool) : (w.release h held).pcP = w.pcP := by
  unfold World.release
  split <;> rfl

@[simp] theorem World.release_uses (h : Handle) (held : Bool) :
    (w.release h held).uses = w.uses := by
  unfold World.release
  split <;> rfl

/-- The exit only accesses the context, where it has no wait. -/
theorem failed_uses (winerr : Nat) (there : w.pcP = some c) (waits : c.hwait = false) :
    (failed winerr w).2.uses = .access :: .access :: w.uses := by
  simp [failed, World.nPipeShutdown, World.access, there, waits]

/-- So it is not proper: either nothing releases the context, or it was released before. -/
theorem failed_not_proper (winerr : Nat) (there : w.pcP = some c) (waits : c.hwait = false) :
    ¬ Proper (failed winerr w) := by
  rintro ⟨-, -, released⟩
  have ended : deletions (failed winerr w).2.uses = 1 ∧ Clean (failed winerr w).2.uses :=
    released (by simp [World.nPipeShutdown, World.access, there, waits])
  rw [failed_uses winerr there waits, deletions_access, deletions_access] at ended
  have deleted : .delete ∈ w.uses := List.count_pos_iff.mp (by
    rw [← deletions, ended.1]
    exact Nat.one_pos)
  exact ended.2 (List.mem_cons_of_mem _ deleted)

/-! ### The events -/

/-- There is a context, and nothing waits for it. -/
def Unwaited (w : World) : Prop := ∃ c, w.pcP = some c ∧ c.hwait = false

theorem createEvents_failed {a : Answers} (unwaited : Unwaited w) (fails : ¬ EventsMade a) :
    ∃ winerr failed, createEvents a w = (some winerr, failed) ∧ Unwaited failed := by
  obtain ⟨c, there, waits⟩ := unwaited
  unfold createEvents
  cases sync : a.sync with
  | some winerr => exact ⟨_, _, rfl, c, there, waits⟩
  | none =>
    cases reader : a.reader with
    | some winerr => exact ⟨_, _, rfl, _, congrArg (Option.map _) there, waits⟩
    | none =>
      cases writer : a.writer with
      | some winerr =>
        exact ⟨_, _, rfl, _, congrArg (Option.map _) (congrArg (Option.map _) there), waits⟩
      | none => exact absurd ⟨sync, reader, writer⟩ fails

/-- All events. -/
def World.events (w : World) : World :=
  ((((((w.acquire .sync).access fun c => { c with hsync := true }).acquire
    .reader).access fun c => { c with readerEvent := true }).acquire
    .writer).access fun c => { c with writerEvent := true })

theorem createEvents_made {a : Answers} (events : EventsMade a) :
    createEvents a w = (none, w.events) := by
  obtain ⟨sync, reader, writer⟩ := events
  simp only [createEvents, sync, reader, writer, World.events]

theorem withEvents_proper_iff (a : Answers) (unwaited : Unwaited w)
    (next : World → Result × World) :
    Proper (withEvents a w next) ↔ EventsMade a ∧ Proper (next w.events) := by
  unfold withEvents
  by_cases events : EventsMade a
  · rw [createEvents_made events, and_iff_right events]
  · obtain ⟨winerr, w', failed, c, there, waits⟩ := createEvents_failed unwaited events
    rw [failed]
    exact iff_of_false (failed_not_proper winerr there waits) fun h => events h.1

end

/-! ### The commands -/

/-- What both commands have before they create the Tcl channel. -/
def ready : World :=
  ((World.start.nPipeChannelNew.acquire .pipe).access fun c => { c with hpipe := true }).events

section
variable {r : Request} {a : Answers}

/-- A channel without a wait is kept, or the exit for errors is used for it. -/
theorem accepted_iff {w : World} (winerr : Nat) (proper : Proper (.ok, w))
    (unwaited : Unwaited (w.unregisterChannel.access fun c => { c with channel := false })) :
    Proper (accepted (winerr, w)) ↔ winerr = ERROR_SUCCESS ∨ winerr = ERROR_IO_PENDING := by
  unfold accepted
  dsimp only
  split
  · rename_i good
    exact iff_of_true proper good
  · rename_i bad
    obtain ⟨c, there, waits⟩ := unwaited
    exact iff_of_false (failed_not_proper winerr there waits) bad

theorem accepted_proper_iff (mask : Mask) :
    Proper (accepted (nPipeAccept a (ready.createChannel mask))) ↔ Accepted a := by
  unfold Accepted nPipeAccept
  cases a.connect with
  | none => exact iff_of_true ⟨rfl, rfl, _, rfl, rfl, rfl⟩ nofun
  | some winerr =>
    simp only [Option.mem_some_iff, forall_eq']
    split
    · rename_i connected
      exact iff_of_true ⟨rfl, rfl, _, rfl, rfl, rfl⟩ (.inl connected)
    · rename_i unconnected
      rw [or_iff_right unconnected]
      split
      · rename_i pending
        rw [or_iff_right (by rw [pending]; decide), and_iff_right pending]
        cases a.register with
        | none => exact iff_of_true ⟨rfl, rfl, _, rfl, rfl, rfl⟩ nofun
        | some unregistered =>
          simp only [Option.mem_some_iff, forall_eq']
          exact accepted_iff unregistered ⟨rfl, rfl, _, rfl, rfl, rfl⟩ ⟨_, rfl, rfl⟩
      · rename_i ended
        rw [accepted_iff winerr ⟨rfl, rfl, _, rfl, rfl, rfl⟩ ⟨_, rfl, rfl⟩]
        simp only [ended, false_and]

/-- The server: where nothing is created; and where everything is, and the connection is
accepted or waited for. -/
theorem server_proper_iff :
    Proper (twapiNPipeServerObjCmd r a) ↔
      ¬ r.args ∨ r.pipe_mode &&& 7 ≠ 0 ∨
        a.secattr ∧ a.file = none ∧ EventsMade a ∧ Accepted a := by
  unfold twapiNPipeServerObjCmd
  rw [← or_assoc]
  split
  · rename_i refused
    exact iff_of_true ⟨rfl, rfl, nofun⟩ (.inl refused)
  · rename_i given
    rw [or_iff_right given]
    split
    · rename_i secattr
      refine iff_of_false ?_ fun h => secattr h.1
      rintro ⟨-, -, released⟩
      exact absurd (released rfl).1 (by decide)
    · rename_i secattr
      rw [and_iff_right (not_not.mp secattr)]
      cases file : a.file with
      | some winerr => exact iff_of_false (failed_not_proper winerr rfl rfl) (by simp)
      | none =>
        rw [and_iff_right rfl, ← accepted_proper_iff r.mask]
        exact withEvents_proper_iff a ⟨_, rfl, rfl⟩ _

/-- The client: where no context is made, and where all events are. -/
theorem client_proper_iff :
    Proper (twapiNPipeClientObjCmd r a) ↔
      ¬ r.args ∨ ¬ a.secattr ∨ a.file ≠ none ∨ ¬ a.isPipe ∨ EventsMade a := by
  unfold twapiNPipeClientObjCmd
  split
  · rename_i refused
    exact iff_of_true ⟨rfl, rfl, nofun⟩ (.inl refused)
  · rename_i given
    rw [or_iff_right given]
    split
    · rename_i secattr
      exact iff_of_true ⟨rfl, rfl, nofun⟩ (.inl secattr)
    · rename_i secattr
      rw [or_iff_right secattr]
      cases file : a.file with
      | some winerr => exact iff_of_true ⟨rfl, rfl, nofun⟩ (.inl nofun)
      | none =>
        rw [or_iff_right (not_not.mpr rfl)]
        dsimp only
        split
        · rename_i other
          exact iff_of_true ⟨rfl, by decide, nofun⟩ (.inl other)
        · rename_i isPipe
          rw [or_iff_right isPipe]
          refine (withEvents_proper_iff a ⟨_, rfl, rfl⟩ _).trans ?_
          exact and_iff_left ⟨rfl, rfl, _, rfl, rfl, rfl⟩

theorem creation_proper_iff (r : Request) (a : Answers) :
    (Proper (twapiNPipeServerObjCmd r a) ↔
      ¬ r.args ∨ r.pipe_mode &&& 7 ≠ 0 ∨
        a.secattr ∧ a.file = none ∧ EventsMade a ∧ Accepted a) ∧
    (Proper (twapiNPipeClientObjCmd r a) ↔
      ¬ r.args ∨ ¬ a.secattr ∨ a.file ≠ none ∨ ¬ a.isPipe ∨ EventsMade a) :=
  ⟨server_proper_iff, client_proper_iff⟩

/-- A pipe that can be read and written, when the client that waits is gone. -/
theorem accept_failure_used_after_release :
    let ended := twapiNPipeServerObjCmd ⟨true, 0, ⟨true, true⟩⟩
      ⟨true, none, true, none, none, none, some 232, none⟩
    ended.1 = .error ∧ deletions ended.2.uses = 1 ∧ ¬ Clean ended.2.uses ∧ ¬ Proper ended := by
  refine ⟨rfl, rfl, ?_, failed_not_proper _ rfl rfl⟩
  decide

end

end Twapi.NamedPipe.Create
