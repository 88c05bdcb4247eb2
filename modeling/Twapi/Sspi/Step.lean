import Mathlib.Data.Prod.Lex
import Mathlib.Logic.Relation
import Twapi.Sspi.Context
import Twapi.Sspi.Stream

/-!
Negotiations, `twapi::sspi_step` of `tcl/sspi.tcl`.

* `iterate` — the body of the procedure, which calls itself where it has no result yet;
  `sspiStep` has fuel for that.
* `AuthProvider` has a state of its own for each context, and answers from it. The context is
  one that exists.
* Events are the bytes that the provider took and those that are left for the caller, the
  tokens that it produced and those that are returned.
* `Leaves` is what is assumed of a provider: the input it does not take is at the end of the
  first buffer, as it was.
* `steps_conserve` — no byte and no token is lost, repeated or moved in a run.
* `sspiStep_ends` — a call ends if each iteration takes a byte, or goes down in a
  well-founded order of the states.

`complete` and `complete_and_continue` are no results of the commands of `crypto/sspi.c`.
-/

namespace Twapi.Sspi

open Lib List
open Lib.Traced

/-! ### The provider -/

structure AuthProvider (σ : Type) where
  call : Ctxtype → σ → Option SecHandle → Call
  completeAuthToken : Ctxtype → σ → Option SecHandle → UInt32
  /-- The state after both. -/
  next : Ctxtype → σ → Option SecHandle → Option (List InBuffer) → σ

/-- `inbuflist` -/
def tokenBuffers (input : Bytes) : List InBuffer := [⟨secbufferToken, input⟩, ⟨0, []⟩]

variable {σ : Type}

def AuthProvider.rawContext (P : AuthProvider σ) (side : Ctxtype) (s : σ)
    (handle : Option SecHandle) (input : Bytes) : Except AuthError RawContext :=
  (side.securityContextObjCmd handle (tokenBuffers input) (P.call side s handle)
    (P.completeAuthToken side s handle)).result

/-! ### `twapi::sspi_step` -/

/-- An element of `_sspi_state`, with the provider's state. -/
structure SecContext (σ : Type) where
  ctxtype : Ctxtype
  state : State
  handle : Option SecHandle
  output : List (BufferType × Bytes)
  outattr : UInt32
  expiration : Int
  input : Bytes
  security : σ
deriving DecidableEq

inductive Progress where
  | done
  | «continue»
  | disconnected
deriving DecidableEq

structure StepResult where
  progress : Progress
  data : Bytes
  extradata : Bytes
deriving DecidableEq

inductive StepError where
  | auth (e : AuthError)
  | unsupported
  | endless
deriving DecidableEq

inductive StepEvent where
  | took (bytes : Bytes)
  | left (bytes : Bytes)
  | produced (token : Bytes)
  | returned (token : Bytes)
  /-- The caller has to get more data. -/
  | incomplete
deriving DecidableEq

def gatherSecbufData : List (BufferType × Bytes) → Bytes
  | [buf] => buf.2
  | bufs => (bufs.map Prod.snd).flatten

/-- What is handed to the caller, with its events. -/
def giveBack (c : SecContext σ) (r : StepResult) :
    Traced StepEvent (SecContext σ × Except StepError (Option StepResult)) := do
  tell (.returned r.data)
  tell (.left r.extradata)
  return (c, .ok (some r))

/-- The body, after `Input` has what was received. No result is the call of itself. -/
def AuthProvider.iterate (P : AuthProvider σ) (c : SecContext σ) :
    Traced StepEvent (SecContext σ × Except StepError (Option StepResult)) :=
  match c.state with
  | .ok => giveBack { c with output := [], input := [] } ⟨.done, gatherSecbufData c.output, c.input⟩
  | .«continue» =>
    if c.input.length ≠ 0 then
      let security := P.next c.ctxtype c.security c.handle (inputs (tokenBuffers c.input))
      match P.rawContext c.ctxtype c.security c.handle c.input with
      | .error e => return ({ c with security }, .error (.auth e))
      | .ok raw => do
          tell (.took (c.input.take (c.input.length - raw.extra.length)))
          tell (.produced (gatherSecbufData raw.out))
          return ({ c with
            state := raw.state, handle := raw.handle, output := c.output ++ raw.out
            outattr := raw.outattr, expiration := raw.expiration, input := raw.extra
            security }, .ok none)
    else giveBack { c with output := [] } ⟨.«continue», gatherSecbufData c.output, []⟩
  | .incompleteMessage => do
      tell .incomplete
      giveBack { c with state := .«continue» } ⟨.«continue», [], []⟩
  | .expired => giveBack c ⟨.disconnected, [], []⟩
  | .incompleteCredentials => return (c, .error .unsupported)

def AuthProvider.sspiStep (P : AuthProvider σ) :
    Nat → SecContext σ → Bytes → Traced StepEvent (SecContext σ × Except StepError StepResult)
  | 0, c, received => return ({ c with input := c.input ++ received }, .error .endless)
  | fuel + 1, c, received => do
      match ← P.iterate { c with input := c.input ++ received } with
      | (c, .error e) => return (c, .error e)
      | (c, .ok (some r)) => return (c, .ok r)
      | (c, .ok none) => P.sspiStep fuel c []

/-- One call after the other, whether they fail or not. -/
def AuthProvider.steps (P : AuthProvider σ) (fuel : Nat) :
    SecContext σ → List Bytes → Traced StepEvent (SecContext σ)
  | c, [] => return c
  | c, received :: rs => do
      let (c, _) ← P.sspiStep fuel c received
      P.steps fuel c rs

/-! ### Events of a run -/

def StepEvent.taken : StepEvent → Bytes
  | .took bytes => bytes
  | _ => []

def StepEvent.leftover : StepEvent → Bytes
  | .left bytes => bytes
  | _ => []

def StepEvent.token : StepEvent → Bytes
  | .produced token => token
  | _ => []

def StepEvent.sent : StepEvent → Bytes
  | .returned token => token
  | _ => []

@[simp] theorem gather_nil : gatherSecbufData [] = [] := rfl

theorem gather_eq (bufs : List (BufferType × Bytes)) :
    gatherSecbufData bufs = (bufs.map Prod.snd).flatten := by
  unfold gatherSecbufData
  split
  · simp
  · rfl

theorem gather_append (a b : List (BufferType × Bytes)) :
    gatherSecbufData (a ++ b) = gatherSecbufData a ++ gatherSecbufData b := by
  simp only [gather_eq, map_append, flatten_append]

/-! ### What is assumed of a provider -/

structure AuthProvider.Leaves (P : AuthProvider σ) : Prop where
  first : ∀ side s handle input, let a := P.call side s handle (inputs (tokenBuffers input))
    a.sb0.pvBuffer = 0 ∧ a.sb0.cbBuffer = input.length ∧ a.memory.length = input.length
  incomplete : ∀ side s handle input, let a := P.call side s handle (inputs (tokenBuffers input))
    a.status = .incompleteMessage → a.memory = input
  extra : ∀ side s handle input, let a := P.call side s handle (inputs (tokenBuffers input))
    ∀ b ∈ a.sbufs, b.bufferType = .extra → b.cbBuffer ≤ input.length ∧
      a.memory.drop (input.length - b.cbBuffer) = input.drop (input.length - b.cbBuffer)

/-- The data that is handed back is of the answer. -/
theorem extra_of_securityContext {handling : AuthStatus → Handling} {context : Option SecHandle}
    {sbdIn : List InBuffer} {call : Call} {completeAuthToken : UInt32} {raw : RawContext}
    (accepted : Accepted sbdIn)
    (done : (securityContext handling context sbdIn call completeAuthToken).result = .ok raw) :
    raw.extra = (call (inputs sbdIn)).extra (inputs sbdIn) := by
  rw [securityContext_accepted accepted] at done
  cases known : handling (call (inputs sbdIn)).status with
  | report state =>
    rw [known] at done
    cases done
    rfl
  | complete state =>
    rw [known] at done
    cases done
    rfl
  | fail code =>
    rw [known] at done
    cases done

theorem accepted_tokenBuffers (input : Bytes) : Accepted (tokenBuffers input) := by
  intro b first
  cases first
  exact decide_eq_true (show secbufferToken &&& ~~~secbufferAttrmask = secbufferToken by decide)

variable {c d c' : SecContext σ} {input : Bytes}

/-- What is left over is the end of the input. -/
theorem AuthProvider.Leaves.extra_suffix {P : AuthProvider σ} (leaves : P.Leaves) {side : Ctxtype}
    {s : σ} {handle : Option SecHandle} {raw : RawContext}
    (done : P.rawContext side s handle input = .ok raw) : raw.extra <:+ input := by
  unfold AuthProvider.rawContext at done
  rw [securityContextObjCmd_eq] at done
  have handed := extra_of_securityContext (accepted_tokenBuffers input) done
  obtain ⟨start, count, length⟩ := leaves.first side s handle input
  have incomplete := leaves.incomplete side s handle input
  have extra := leaves.extra side s handle input
  generalize P.call side s handle (inputs (tokenBuffers input)) = a at *
  rw [handed, AuthAnswer.extra, if_neg (by simp [inputs, tokenBuffers])]
  split
  · rename_i status
    have all : bytesAt input 0 input.length = input := bytesAt_all input
    simp only [start, count, incomplete status, all, suffix_refl]
  · unfold objFromSECBUFFER_EXTRA
    split
    · rename_i b found
      have isExtra := find?_some found
      have isBuffer := mem_reverse.mp (mem_of_find?_eq_some found)
      obtain ⟨fits, behind⟩ := extra b isBuffer (by simpa using (of_decide_eq_true isExtra).1)
      rw [start, count, Nat.zero_add, bytesAt, behind,
        take_of_length_le (by rw [length_drop]; omega)]
      exact drop_suffix _ input
    · exact nil_suffix

/-! ### One call -/

/-- From `c`, with what was received, to `c'`: the bytes that were taken, those left for the
caller and those still held are the input; the tokens that were returned and those held are
those that there were. After a negotiation is done no more bytes are taken. -/
structure Conserves (c : SecContext σ) (received : Bytes) (es : List StepEvent)
    (c' : SecContext σ) : Prop where
  bytes : es.flatMap StepEvent.taken ++ (es.flatMap StepEvent.leftover ++ c'.input) = c.input ++ received
  tokens : es.flatMap StepEvent.sent ++ gatherSecbufData c'.output =
    gatherSecbufData c.output ++ es.flatMap StepEvent.token
  done : c.state = .ok → es.flatMap StepEvent.taken = [] ∧ c'.state = .ok
  kept : c'.state ≠ .ok → es.flatMap StepEvent.leftover = []

theorem Conserves.refl (c : SecContext σ) : Conserves c [] [] c where
  bytes := by simp
  tokens := by simp
  done ok := ⟨rfl, ok⟩
  kept _ := rfl

theorem Conserves.trans {c d e : SecContext σ} {r r' : Bytes} {es es' : List StepEvent}
    (first : Conserves c r es d) (later : Conserves d r' es' e) :
    Conserves c (r ++ r') (es ++ es') e where
  bytes := by
    simp only [flatMap_append]
    have before := first.bytes
    have after := later.bytes
    by_cases ok : d.state = .ok
    · rw [(later.done ok).1, nil_append] at after
      rw [(later.done ok).1, append_nil, append_assoc (es.flatMap StepEvent.leftover),
        after, ← append_assoc (es.flatMap StepEvent.leftover), ← append_assoc, before,
        append_assoc]
    · rw [first.kept ok, nil_append] at before ⊢
      rw [append_assoc, after, ← append_assoc, before, append_assoc]
  tokens := by
    simp only [flatMap_append]
    rw [append_assoc, later.tokens, ← append_assoc, first.tokens, append_assoc]
  done ok := by
    obtain ⟨none, still⟩ := first.done ok
    obtain ⟨none', still'⟩ := later.done still
    exact ⟨by rw [flatMap_append, none, none']; rfl, still'⟩
  kept other := by
    have before : d.state ≠ .ok := fun ok => other (later.done ok).2
    rw [flatMap_append, first.kept before, later.kept other]
    rfl

theorem Conserves.append {received : Bytes} {es : List StepEvent}
    (conserves : Conserves { c with input := c.input ++ received } [] es c') :
    Conserves c received es c' where
  bytes := by
    have bytes := conserves.bytes
    rwa [append_nil] at bytes
  tokens := conserves.tokens
  done := conserves.done
  kept := conserves.kept

variable {P : AuthProvider σ}

theorem giveBack_conserves {r : StepResult} (bytes : r.extradata ++ c'.input = c.input)
    (tokens : r.data ++ gatherSecbufData c'.output = gatherSecbufData c.output)
    (done : c.state = .ok → c'.state = .ok) (kept : c'.state ≠ .ok → r.extradata = []) :
    Conserves c [] (giveBack c' r).events c' where
  bytes := by simpa [giveBack, StepEvent.taken, StepEvent.leftover] using bytes
  tokens := by simpa [giveBack, StepEvent.sent, StepEvent.token] using tokens
  done ok := ⟨rfl, done ok⟩
  kept other := by simpa [giveBack, StepEvent.leftover] using kept other

theorem iterate_conserves (leaves : P.Leaves) (c : SecContext σ) :
    Conserves c [] (P.iterate c).events (P.iterate c).result.1 := by
  unfold AuthProvider.iterate
  split
  · rename_i ok
    exact giveBack_conserves (append_nil _) (append_nil _) (fun _ => ok)
      fun other => absurd ok other
  · rename_i going
    split
    · dsimp only
      split
      · exact ⟨by simp, by simp, fun ok => State.noConfusion (going.symm.trans ok), fun _ => rfl⟩
      · rename_i raw done
        have whole := suffix_iff_eq_append.mp (leaves.extra_suffix done)
        exact {
          bytes := by
            simpa [StepEvent.taken, StepEvent.leftover] using whole
          tokens := by simp [StepEvent.sent, StepEvent.token, gather_append]
          done := fun ok => State.noConfusion (going.symm.trans ok)
          kept := fun _ => rfl }
    · rename_i none
      exact giveBack_conserves rfl (append_nil _)
        (fun ok => State.noConfusion (going.symm.trans ok)) fun _ => rfl
  · rename_i waiting
    have rest : Conserves c [] (giveBack { c with state := .«continue» }
        ⟨.«continue», [], []⟩).events { c with state := .«continue» } :=
      giveBack_conserves rfl rfl (fun ok => State.noConfusion (waiting.symm.trans ok)) fun _ => rfl
    exact ⟨rest.bytes, rest.tokens, rest.done, rest.kept⟩
  · rename_i closed
    exact giveBack_conserves rfl rfl id fun _ => rfl
  · exact .refl c

/-- A call is its first iteration, and the calls of itself after it. -/
theorem sspiStep_conserves (leaves : P.Leaves) (fuel : Nat) (c : SecContext σ) (received : Bytes) :
    Conserves c received (P.sspiStep fuel c received).events
      (P.sspiStep fuel c received).result.1 := by
  induction fuel generalizing c received with
  | zero => exact (Conserves.refl _).append
  | succ fuel ih =>
    have first := (iterate_conserves leaves { c with input := c.input ++ received }).append
    rw [AuthProvider.sspiStep]
    rcases answer : (P.iterate { c with input := c.input ++ received }).result
      with ⟨d, e | (_ | r)⟩ <;>
      rw [bind_of_result answer] <;> rw [answer] at first
    · simpa using first
    · simpa using first.trans (ih d [])
    · simpa using first

theorem steps_conserve (leaves : P.Leaves) (fuel : Nat) (c : SecContext σ) (rs : List Bytes) :
    Conserves c rs.flatten (P.steps fuel c rs).events (P.steps fuel c rs).result := by
  induction rs generalizing c with
  | nil => exact .refl c
  | cons received rs ih => exact (sspiStep_conserves leaves fuel c received).trans (ih _)

/-! ### What a call returns -/

/-- The data and the leftover of a result. -/
def delivered : Except StepError StepResult → Bytes × Bytes
  | .ok r => (r.data, r.extradata)
  | .error _ => ([], [])

/-- A call of itself delivers nothing; a result is what its events say, and unless it waits for
the rest of a message, or the context is closed, no token is held after it. -/
structure Delivers (es : List StepEvent) (c : SecContext σ) (result : Except StepError StepResult) :
    Prop where
  data : (es.flatMap StepEvent.sent, es.flatMap StepEvent.leftover) = delivered result
  released : ∀ r, result = .ok r → r.progress ≠ .disconnected → .incomplete ∉ es → c.output = []

def IterationDelivers (x : Traced StepEvent (SecContext σ × Except StepError (Option StepResult))) :
    Prop :=
  match x.result with
  | (c, .error e) => Delivers x.events c (.error e)
  | (c, .ok (some r)) => Delivers x.events c (.ok r)
  | (_, .ok none) => x.events.flatMap StepEvent.sent = [] ∧
      x.events.flatMap StepEvent.leftover = []

theorem giveBack_delivers {r : StepResult} (released : r.progress ≠ .disconnected → c.output = []) :
    IterationDelivers (giveBack c r) :=
  ⟨by simp [giveBack, delivered, StepEvent.sent, StepEvent.leftover], fun r' same open' _ => by
    cases same
    exact released open'⟩

theorem iterate_delivers (c : SecContext σ) : IterationDelivers (P.iterate c) := by
  unfold AuthProvider.iterate
  split
  · exact giveBack_delivers fun _ => rfl
  · split
    · dsimp only
      split
      · exact ⟨rfl, fun r same => (nomatch same)⟩
      · exact ⟨rfl, rfl⟩
    · exact giveBack_delivers fun _ => rfl
  · exact ⟨rfl, fun r same _ more => absurd (by simp) more⟩
  · exact giveBack_delivers fun open' => absurd rfl open'
  · exact ⟨rfl, fun r same => (nomatch same)⟩

theorem sspiStep_delivers (fuel : Nat) (c : SecContext σ) (received : Bytes) :
    Delivers (P.sspiStep fuel c received).events (P.sspiStep fuel c received).result.1
      (P.sspiStep fuel c received).result.2 := by
  induction fuel generalizing c received with
  | zero => exact ⟨rfl, fun r same => (nomatch same)⟩
  | succ fuel ih =>
    have first := iterate_delivers (P := P) { c with input := c.input ++ received }
    unfold IterationDelivers at first
    rw [AuthProvider.sspiStep]
    rcases answer : (P.iterate { c with input := c.input ++ received }).result
      with ⟨d, e | (_ | r)⟩ <;>
      rw [bind_of_result answer] <;> rw [answer] at first
    · simpa using first
    · obtain ⟨sent, left⟩ := first
      have later := ih d []
      refine ⟨?_, fun r same closed waits => ?_⟩
      · rw [flatMap_append, flatMap_append, sent, left]
        exact later.data
      · exact later.released r same closed fun mem => waits (mem_append_right _ mem)
    · simpa using first

/-! ### The end of a call -/

/-- An iteration that is followed by another one. -/
def AuthProvider.Iterates (P : AuthProvider σ) (c d : SecContext σ) : Prop :=
  (P.iterate c).result = (d, .ok none)

theorem length_le_of_iterates (leaves : P.Leaves) (iterates : P.Iterates c d) :
    d.input.length ≤ c.input.length := by
  have bytes := congrArg length (iterate_conserves leaves c).bytes
  rw [show (P.iterate c).result = _ from iterates] at bytes
  simp only [length_append, length_nil] at bytes
  omega

theorem sspiStep_received (fuel : Nat) (c : SecContext σ) (received : Bytes) :
    (P.sspiStep fuel c received).result =
      (P.sspiStep fuel { c with input := c.input ++ received } []).result := by
  cases fuel with
  | zero => simp [AuthProvider.sspiStep]
  | succ fuel => simp [AuthProvider.sspiStep]

theorem iterate_ne_endless (c d : SecContext σ) :
    (P.iterate c).result ≠ (d, .error .endless) := by
  unfold AuthProvider.iterate
  split
  · exact fun same => (nomatch same)
  · split
    · dsimp only
      split <;> exact fun same => (nomatch same)
    · exact fun same => (nomatch same)
  all_goals exact fun same => (nomatch same)

/-- From every context, a call ends whose iterations each take a byte or go down. -/
theorem iterations_end (leaves : P.Leaves) {lt : σ → σ → Prop} (wf : WellFounded lt)
    (c : SecContext σ)
    (progress : ∀ d e, Relation.ReflTransGen P.Iterates c d → P.Iterates d e →
      e.input.length < d.input.length ∨ lt e.security d.security) :
    ∃ n, ∀ fuel, n ≤ fuel → (P.sspiStep fuel c []).result.2 ≠ .error .endless := by
  induction measured : (c.input.length, c.security) using
    (Prod.lex ⟨(· < ·), Nat.lt_wfRel.wf⟩ ⟨lt, wf⟩).wf.induction generalizing c with
  | _ m ih =>
    subst measured
    cases answer : (P.iterate c).result with
    | mk d result =>
      have turn : ∀ fuel, (P.sspiStep (fuel + 1) c []).result =
          match result with
          | .error e => (d, .error e)
          | .ok (some r) => (d, .ok r)
          | .ok none => (P.sspiStep fuel d []).result := by
        intro fuel
        rw [AuthProvider.sspiStep, append_nil, bind_of_result answer]
        rcases result with e | (_ | r) <;> rfl
      match result with
      | .error e =>
        refine ⟨1, fun fuel some => ?_⟩
        obtain ⟨fuel, rfl⟩ := Nat.exists_eq_add_of_le' some
        rw [turn]
        intro endless
        cases endless
        exact iterate_ne_endless c d answer
      | .ok (some r) =>
        refine ⟨1, fun fuel some => ?_⟩
        obtain ⟨fuel, rfl⟩ := Nat.exists_eq_add_of_le' some
        rw [turn]
        exact fun endless => (nomatch endless)
      | .ok none =>
        have iterates : P.Iterates c d := answer
        have down : Prod.Lex (· < ·) lt (d.input.length, d.security)
            (c.input.length, c.security) := by
          rcases progress c d .refl iterates with shorter | lower
          · exact .left _ _ shorter
          · rcases Nat.lt_or_eq_of_le (length_le_of_iterates leaves iterates) with shorter | same
            · exact .left _ _ shorter
            · rw [same]
              exact .right _ lower
        obtain ⟨n, ends⟩ := ih _ down d (fun e f reached => progress e f (.head iterates reached)) rfl
        refine ⟨n + 1, fun fuel enough => ?_⟩
        obtain ⟨fuel, rfl⟩ := Nat.exists_eq_add_of_le' (Nat.le_trans (Nat.le_add_left 1 n) enough)
        rw [turn]
        exact ends fuel (by omega)

/-- An answer that leaves the input as it is, with `extra` bytes of it not taken. -/
def answering (status : AuthStatus) (out : Option Bytes) (extra : Nat → Nat) : Call := fun sbdIn =>
  let input := (sbdIn.bind List.head?).elim [] InBuffer.data
  ⟨status, ⟨1, 1⟩, 0, 0, out, input, ⟨.token, input.length, 0⟩,
    [⟨.extra, extra input.length, 0⟩]⟩

/-- Takes a byte and has a token for it; then the context has expired. -/
def closing : AuthProvider Bool where
  call _ closed _ :=
    if closed then answering .contextExpired none fun _ => 0
    else answering .continueNeeded (some [7]) fun n => n - 1
  completeAuthToken _ _ _ := 0
  next _ _ _ _ := true

/-- Takes nothing, and is in one of its two states after the other. -/
def turning : AuthProvider Bool where
  call _ _ _ := answering .continueNeeded none id
  completeAuthToken _ _ _ := 0
  next _ s _ _ := !s

theorem answering_extra (status : AuthStatus) (out : Option Bytes) (extra : Nat → Nat)
    (fits : extra input.length ≤ input.length) :
    let a := answering status out extra (inputs (tokenBuffers input))
    ∀ b ∈ a.sbufs, b.bufferType = .extra → b.cbBuffer ≤ input.length ∧
      a.memory.drop (input.length - b.cbBuffer) = input.drop (input.length - b.cbBuffer) := by
  intro a b mem _
  cases mem_singleton.mp mem
  exact ⟨fits, rfl⟩

theorem closing_leaves : closing.Leaves where
  first _ closed _ _ := by cases closed <;> exact ⟨rfl, rfl, rfl⟩
  incomplete _ closed _ _ := by cases closed <;> exact fun same => (nomatch same)
  extra _ closed _ input := by
    cases closed
    · exact answering_extra .continueNeeded (some [7]) (fun n => n - 1) (Nat.sub_le _ _)
    · exact answering_extra .contextExpired none (fun _ => 0) (Nat.zero_le _)

theorem turning_leaves : turning.Leaves where
  first _ _ _ _ := ⟨rfl, rfl, rfl⟩
  incomplete _ _ _ _ := fun same => (nomatch same)
  extra _ _ _ _ := answering_extra .continueNeeded none id (Nat.le_refl _)

/-- A context in the middle of its negotiation. -/
def negotiating : SecContext Bool := ⟨.server, .«continue», some ⟨1, 1⟩, [], 0, 0, [], false⟩

/-- Once the context has expired, nothing is produced and nothing returned. -/
theorem sspiStep_expired (closed : c.state = .expired) (fuel : Nat) (received : Bytes) :
    (P.sspiStep fuel c received).result.1.state = .expired ∧
      (P.sspiStep fuel c received).events.flatMap StepEvent.sent = [] ∧
      (P.sspiStep fuel c received).events.flatMap StepEvent.token = [] := by
  cases fuel with
  | zero => exact ⟨closed, rfl, rfl⟩
  | succ fuel =>
    have turn : P.iterate { c with input := c.input ++ received } =
        giveBack { c with input := c.input ++ received } ⟨.disconnected, [], []⟩ := by
      simp only [AuthProvider.iterate, closed]
    rw [AuthProvider.sspiStep, turn]
    exact ⟨closed, rfl, rfl⟩

theorem steps_expired (closed : c.state = .expired) (fuel : Nat) (rs : List Bytes) :
    (P.steps fuel c rs).events.flatMap StepEvent.sent = [] ∧
      (P.steps fuel c rs).events.flatMap StepEvent.token = [] := by
  induction rs generalizing c with
  | nil => exact ⟨rfl, rfl⟩
  | cons received rs ih =>
    obtain ⟨still, sent, produced⟩ := sspiStep_expired closed fuel received
    obtain ⟨sent', produced'⟩ := ih still
    simp only [AuthProvider.steps, events_bind, flatMap_append]
    exact ⟨by rw [sent]; exact sent', by rw [produced]; exact produced'⟩

theorem turning_rawContext (side : Ctxtype) (s : Bool) (handle : Option SecHandle)
    (more : input ≠ []) : ∃ raw, turning.rawContext side s handle input = .ok raw ∧
      raw.state = .«continue» ∧ raw.extra = input := by
  have all : objFromSECBUFFER_EXTRA input ⟨.token, input.length, 0⟩ [⟨.extra, input.length, 0⟩] =
      input := by
    simp [objFromSECBUFFER_EXTRA, more, bytesAt]
  unfold AuthProvider.rawContext
  rw [securityContextObjCmd_eq, securityContext_accepted (accepted_tokenBuffers input)]
  cases side <;> exact ⟨_, rfl, rfl, all⟩

/-- Of an iteration only the state of the provider is left changed. -/
theorem turning_iterates {c : SecContext Bool} (going : c.state = .«continue»)
    (more : c.input ≠ []) : ∃ d, turning.Iterates c d ∧ d.state = .«continue» ∧
      d.input = c.input ∧ d.security = !c.security := by
  obtain ⟨raw, done, state, extra⟩ := turning_rawContext c.ctxtype c.security c.handle more
  refine ⟨{ c with
    state := raw.state, handle := raw.handle, output := c.output ++ raw.out
    outattr := raw.outattr, expiration := raw.expiration, input := raw.extra
    security := !c.security }, ?_, state, extra, rfl⟩
  unfold AuthProvider.Iterates AuthProvider.iterate
  simp only [going, if_pos (fun none => more (length_eq_zero_iff.mp none)), done]
  rfl

theorem turning_endless (fuel : Nat) {c : SecContext Bool} (going : c.state = .«continue»)
    (more : c.input ≠ []) : (turning.sspiStep fuel c []).result.2 = .error .endless := by
  induction fuel generalizing c with
  | zero => rfl
  | succ fuel ih =>
    obtain ⟨d, iterates, going', same, -⟩ := turning_iterates going more
    have answer : (turning.iterate c).result = (d, .ok none) := iterates
    rw [AuthProvider.sspiStep, append_nil, bind_of_result answer]
    exact ih going' (same ▸ more)

/-- Each iteration changes the state of the provider. -/
theorem turning_changes (d e : SecContext Bool)
    (reached : Relation.ReflTransGen turning.Iterates
      { negotiating with input := negotiating.input ++ [5] } d)
    (iterates : turning.Iterates d e) :
    e.input.length < d.input.length ∨ e.security ≠ d.security := by
  have kept : d.state = .«continue» ∧ d.input = [5] := by
    clear iterates
    induction reached with
    | refl => exact ⟨rfl, rfl⟩
    | tail _ turn ih =>
      obtain ⟨f, turn', state, same, -⟩ := turning_iterates ih.1 (by rw [ih.2]; decide)
      cases turn.symm.trans turn'
      exact ⟨state, same.trans ih.2⟩
  obtain ⟨f, iterates', -, -, other⟩ := turning_iterates kept.1 (by rw [kept.2]; decide)
  cases iterates.symm.trans iterates'
  rw [other]
  exact .inr (Bool.not_ne_self _)

end Twapi.Sspi
