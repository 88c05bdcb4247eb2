import Twapi.Lib.Traced
import Twapi.Sspi.Model

/-!
A step of a negotiation, `crypto/sspi.c`: `Twapi_InitializeSecurityContextObjCmd` and
`Twapi_AcceptSecurityContextObjCmd`.

* The call of the provider and `CompleteAuthToken` are parameters: the answer of the one for
  the input buffers, the status of the other.
* Both commands are `securityContext`, which has the body that they share, with the table of
  the statuses that each of them knows.
* Events are on two blocks of memory: the output buffer, which the provider allocates, and
  the input buffers. A block that is read after it was freed stands with what it had.
* `proper_iff` — the calls that are reported truly and leave the output buffer freed once.
-/

namespace Twapi.Sspi

open Lib
open Lib.Traced

/-! ### The provider -/

inductive AuthStatus where
  | ok
  | continueNeeded
  | completeNeeded
  | completeAndContinue
  | incompleteCredentials
  | incompleteMessage
  | contextExpired
  | failed (code : UInt32)
deriving DecidableEq

structure SecHandle where
  dwLower : UInt64
  dwUpper : UInt64
deriving DecidableEq

/-- An element of the list of input buffers. -/
structure InBuffer where
  bufferType : UInt32
  data : Bytes
deriving DecidableEq

/-- `out` is none where `pvBuffer` stays null. `memory` and `sbufs` are the first input buffer
and the descriptions of all of them, after the call. -/
structure AuthAnswer where
  status : AuthStatus
  newContext : SecHandle
  attr : UInt32
  expiration : Int
  out : Option Bytes
  memory : Bytes
  sb0 : SecBuffer
  sbufs : List SecBuffer
deriving DecidableEq

/-- The input buffers, if there are any. -/
abbrev Call := Option (List InBuffer) → AuthAnswer

/-! ### Results -/

/-- The first element of the result, and `State` of a context. -/
inductive State where
  | ok
  | «continue»
  | incompleteCredentials
  | incompleteMessage
  | expired
deriving DecidableEq

structure RawContext where
  state : State
  /-- None is the empty string. -/
  handle : Option SecHandle
  out : List (BufferType × Bytes)
  outattr : UInt32
  expiration : Int
  extra : Bytes
deriving DecidableEq

inductive AuthError where
  | invalidArgs (text : String)
  | system (code : UInt32)
deriving DecidableEq

inductive Block where
  | output
  | input
deriving DecidableEq

inductive Event where
  /-- The provider allocates the output buffer. -/
  | alloc
  | read (b : Block)
  | free (b : Block)
deriving DecidableEq

/-! ### The commands -/

/-- What the `switch` makes of a status. -/
inductive Handling where
  | report (state : State)
  /-- `CompleteAuthToken` comes first. -/
  | complete (state : State)
  | fail (code : UInt32)
deriving DecidableEq

/-- `SEC_I_INCOMPLETE_CREDENTIALS` -/
def secIIncompleteCredentials : UInt32 := 0x90320

def initializeHandling : AuthStatus → Handling
  | .ok => .report .ok
  | .continueNeeded => .report .«continue»
  | .completeNeeded => .complete .ok
  | .completeAndContinue => .complete .«continue»
  | .incompleteCredentials => .report .incompleteCredentials
  | .incompleteMessage => .report .incompleteMessage
  | .contextExpired => .report .expired
  | .failed code => .fail code

def acceptHandling : AuthStatus → Handling
  | .ok => .report .ok
  | .continueNeeded => .report .«continue»
  | .completeNeeded => .complete .ok
  | .completeAndContinue => .complete .«continue»
  | .incompleteMessage => .report .incompleteMessage
  | .contextExpired => .report .expired
  | .incompleteCredentials => .fail secIIncompleteCredentials
  | .failed code => .fail code

def secbufferAttrmask : UInt32 := 0xF0000000

def secbufferToken : UInt32 := 2

def InBuffer.isToken (b : InBuffer) : Bool := b.bufferType &&& ~~~secbufferAttrmask = secbufferToken

/-- `sbd_inP` -/
def inputs : List InBuffer → Option (List InBuffer)
  | [] => none
  | sbdIn => some sbdIn

def AuthAnswer.handle (a : AuthAnswer) (context : Option SecHandle) : Option SecHandle × UInt32 :=
  match context with
  | some context => (some context, a.attr)
  | none =>
    if a.newContext.dwLower ≠ 0 ∨ a.newContext.dwUpper ≠ 0 then (some a.newContext, a.attr)
    else (none, 0)

/-- The data that is handed back to the caller. -/
def AuthAnswer.extra (a : AuthAnswer) (sbdIn : Option (List InBuffer)) : Bytes :=
  if sbdIn.isNone then []
  else if a.status = .incompleteMessage then bytesAt a.memory a.sb0.pvBuffer a.sb0.cbBuffer
  else objFromSECBUFFER_EXTRA a.memory a.sb0 a.sbufs

/-- An event of each block that is there. -/
def onBlocks (e : Block → Event) (a : AuthAnswer) (sbdIn : Option (List InBuffer)) : List Event :=
  (if a.out.isSome then [e .output] else []) ++ (if sbdIn.isSome then [e .input] else [])

/-- What follows the `switch`. -/
def report (context : Option SecHandle) (sbdIn : Option (List InBuffer)) (a : AuthAnswer)
    (state : State) : Traced Event (Except AuthError RawContext) := do
  let (handle, outattr) := a.handle context
  tellAll (onBlocks .read a sbdIn)
  tellAll (onBlocks .free a sbdIn)
  return .ok ⟨state, handle, [(.token, a.out.getD [])], outattr, a.expiration, a.extra sbdIn⟩

def securityContext (handling : AuthStatus → Handling) (context : Option SecHandle)
    (sbdIn : List InBuffer) (call : Call) (completeAuthToken : UInt32) :
    Traced Event (Except AuthError RawContext) := do
  if (sbdIn.head?.any fun b => !b.isToken) then
    return .error (.invalidArgs "First buffer type must be SECBUFFER_TOKEN")
  else
    let sbdIn := inputs sbdIn
    let a := call sbdIn
    tellAll (if a.out.isSome then [.alloc] else [])
    match handling a.status with
    | .report state => report context sbdIn a state
    | .complete state => do
        -- After an error the buffers are freed, and it goes on all the same.
        tellAll (if completeAuthToken = 0 then [] else onBlocks .free a sbdIn)
        report context sbdIn a state
    | .fail code => do
        tellAll (if sbdIn.isSome then [.free .input] else [])
        return .error (.system code)

def initializeSecurityContextObjCmd := securityContext initializeHandling

def acceptSecurityContextObjCmd := securityContext acceptHandling

inductive Ctxtype where
  | client
  | server
deriving DecidableEq

def Ctxtype.handling : Ctxtype → AuthStatus → Handling
  | .client => initializeHandling
  | .server => acceptHandling

/-- The command of a side. -/
def Ctxtype.securityContextObjCmd : Ctxtype → Option SecHandle → List InBuffer → Call → UInt32 →
    Traced Event (Except AuthError RawContext)
  | .client => initializeSecurityContextObjCmd
  | .server => acceptSecurityContextObjCmd

theorem securityContextObjCmd_eq (side : Ctxtype) :
    side.securityContextObjCmd = securityContext side.handling := by
  cases side <;> rfl

/-! ### Calls that are in order -/

/-- The status is the one that the result is for, and a token that had to be completed was. -/
def Reports (handling : AuthStatus → Handling) (status : AuthStatus) (completeAuthToken : UInt32)
    (state : State) : Prop :=
  handling status = .report state ∨ handling status = .complete state ∧ completeAuthToken = 0

/-- The result is one of calls that succeeded; the output buffer is not read after it was
freed, and it is freed as often as it was allocated. -/
structure Proper (handling : AuthStatus → Handling) (sbdIn : List InBuffer) (call : Call)
    (completeAuthToken : UInt32) (x : Traced Event (Except AuthError RawContext)) : Prop where
  succeeded : ∀ raw, x.result = .ok raw →
    Reports handling (call (inputs sbdIn)).status completeAuthToken raw.state
  readBefore : ∀ before after, x.events = before ++ .free .output :: after →
    .read .output ∉ after
  freedOnce : x.events.count (.free .output) = x.events.count .alloc

/-- The first input buffer is of the type that is asked for. -/
def Accepted (sbdIn : List InBuffer) : Prop := ∀ b, sbdIn.head? = some b → b.isToken = true

/-- Where a token has to be completed, it is; and a call that fails allocates no output
buffer. -/
def InOrder (handling : AuthStatus → Handling) (sbdIn : List InBuffer) (call : Call)
    (completeAuthToken : UInt32) : Prop :=
  Accepted sbdIn →
    match handling (call (inputs sbdIn)).status with
    | .report _ => True
    | .complete _ => completeAuthToken = 0
    | .fail _ => (call (inputs sbdIn)).out = none

variable {handling : AuthStatus → Handling} {context : Option SecHandle} {sbdIn : List InBuffer}
  {call : Call} {completeAuthToken : UInt32}

/-- Where what comes first frees nothing and what comes then reads nothing, nothing is read
that was freed. -/
theorem not_read_after {first later before after : List Event} (kept : .free .output ∉ first)
    (unread : .read .output ∉ later)
    (split : first ++ later = before ++ .free .output :: after) : .read .output ∉ after := by
  rcases List.append_eq_append_iff.mp split with ⟨more, rfl, rfl⟩ | ⟨more, rfl, rest⟩
  · exact fun mem => unread (List.mem_append_right _ (List.mem_cons_of_mem _ mem))
  · cases more with
    | nil =>
      rw [List.nil_append] at rest
      exact fun mem => unread (rest ▸ List.mem_cons_of_mem _ mem)
    | cons e more =>
      cases rest
      exact absurd (by simp) kept

theorem securityContext_refused (refused : ¬ Accepted sbdIn) :
    securityContext handling context sbdIn call completeAuthToken =
      pure (.error (.invalidArgs "First buffer type must be SECBUFFER_TOKEN")) := by
  have first : (sbdIn.head?.any fun b => !b.isToken) = true := by
    cases head : sbdIn.head? with
    | none => exact absurd (fun b some => by rw [head] at some; cases some) refused
    | some b =>
      cases token : b.isToken with
      | false => simp [token]
      | true =>
        refine absurd (fun c some => ?_) refused
        rw [head] at some
        cases some
        exact token
  rw [securityContext, if_pos first]

/-- The events of a call whose answer is reported. -/
def reported (a : AuthAnswer) (sbdIn : Option (List InBuffer)) : List Event :=
  ((if a.out.isSome then [.alloc] else []) ++ onBlocks .read a sbdIn) ++ onBlocks .free a sbdIn

variable {x : Traced Event (Except AuthError RawContext)}

theorem report_proper {raw : RawContext} (result : x.result = .ok raw)
    (reports : Reports handling (call (inputs sbdIn)).status completeAuthToken raw.state)
    (events : x.events = reported (call (inputs sbdIn)) (inputs sbdIn)) :
    Proper handling sbdIn call completeAuthToken x where
  succeeded raw' result' := by
    cases result.symm.trans result'
    exact reports
  readBefore before after split := by
    rw [events] at split
    refine not_read_after ?_ ?_ split <;> unfold onBlocks <;> split_ifs <;> simp
  freedOnce := by
    rw [events]
    unfold reported onBlocks
    split_ifs <;> simp

theorem securityContext_accepted (accepted : Accepted sbdIn) :
    securityContext handling context sbdIn call completeAuthToken = do
      tellAll (if (call (inputs sbdIn)).out.isSome then [.alloc] else [])
      match handling (call (inputs sbdIn)).status with
      | .report state => report context (inputs sbdIn) (call (inputs sbdIn)) state
      | .complete state => do
          tellAll (if completeAuthToken = 0 then []
            else onBlocks .free (call (inputs sbdIn)) (inputs sbdIn))
          report context (inputs sbdIn) (call (inputs sbdIn)) state
      | .fail code => do
          tellAll (if (inputs sbdIn).isSome then [.free .input] else [])
          return .error (.system code) := by
  have first : ¬ (sbdIn.head?.any fun b => !b.isToken) = true := by
    cases head : sbdIn.head? with
    | none => simp
    | some b => simp [accepted b head]
  rw [securityContext, if_neg first]

/-- After a status that is an error only the input buffers are freed. -/
theorem fail_proper_iff {e : AuthError} (result : x.result = .error e)
    (events : x.events = (if (call (inputs sbdIn)).out.isSome then [.alloc] else []) ++
      if (inputs sbdIn).isSome then [.free .input] else []) :
    Proper handling sbdIn call completeAuthToken x ↔ (call (inputs sbdIn)).out = none := by
  have count : x.events.count .alloc = if (call (inputs sbdIn)).out.isSome then 1 else 0 := by
    rw [events]
    split_ifs <;> rfl
  have unfreed : .free .output ∉ x.events := by
    rw [events]
    split_ifs <;> simp
  constructor
  · intro proper
    have freed := proper.freedOnce
    rw [count, List.count_eq_zero_of_not_mem unfreed] at freed
    cases allocated : (call (inputs sbdIn)).out with
    | none => rfl
    | some token =>
      rw [allocated] at freed
      cases freed
  · intro none
    refine ⟨fun raw same => (nomatch result.symm.trans same), fun before after split => ?_, ?_⟩
    · exact absurd (split ▸ List.mem_append_right _ List.mem_cons_self) unfreed
    · rw [count, List.count_eq_zero_of_not_mem unfreed, none]
      rfl

/-- The calls that are in order are those that are reported truly, and leave the output buffer
freed once and not read after it. -/
theorem proper_iff :
    Proper handling sbdIn call completeAuthToken
        (securityContext handling context sbdIn call completeAuthToken) ↔
      InOrder handling sbdIn call completeAuthToken := by
  unfold InOrder
  by_cases accepted : Accepted sbdIn
  · rw [securityContext_accepted accepted]
    cases known : handling (call (inputs sbdIn)).status with
    | report state =>
      refine ⟨fun _ _ => trivial, fun _ => report_proper rfl (.inl known) ?_⟩
      simp [report, reported]
    | complete state =>
      constructor
      · intro proper _
        exact ((proper.succeeded _ rfl).resolve_left fun same => by
          rw [known] at same
          cases same).2
      · intro inOrder
        have completed : completeAuthToken = 0 := inOrder accepted
        refine report_proper rfl (.inr ⟨known, completed⟩) ?_
        simp [report, reported, completed]
    | fail code =>
      refine (fail_proper_iff (e := .system code) rfl ?_).trans
        ⟨fun none _ => none, fun inOrder => inOrder accepted⟩
      simp
  · rw [securityContext_refused accepted]
    refine ⟨fun _ yes => absurd yes accepted, fun _ => ?_⟩
    refine ⟨fun raw result => (nomatch result), fun before after split => ?_, rfl⟩
    rw [events_pure] at split
    cases before <;> cases split

/-- A provider with a token that has to be completed. -/
def uncompleted : Call := fun _ => ⟨.completeNeeded, ⟨1, 2⟩, 0, 0, some [7], [], ⟨.token, 0, 0⟩, []⟩

/-- Where the token cannot be completed, the result is `ok`, with the token read after it was
freed, and freed again. -/
theorem uncompleted_ok :
    initializeSecurityContextObjCmd none [] uncompleted 0x80090308 =
      ⟨.ok ⟨.ok, some ⟨1, 2⟩, [(.token, [7])], 0, 0, []⟩,
        [.alloc, .free .output, .read .output, .free .output]⟩ := by decide

end Twapi.Sspi
