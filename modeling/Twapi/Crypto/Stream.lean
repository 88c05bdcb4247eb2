import Mathlib.Data.List.Infix

/-!
Streams that are encrypted and decrypted piece by piece, `capi_encrypt_bytes` and
`capi_decrypt_bytes` of `tcl/crypto.tcl`, with `capi_key_free`.

* `cryptBytes` — one call, from the entry of its key in the dictionary of what was left
  over.
* `step` — the dictionaries and the keys that are registered.
* `expected` — what a call passes on where there were no other keys. `independent_iff`
  says of which sequences of calls this is what is passed on.
-/

namespace Twapi.CryptStream

abbrev Bytes := List UInt8

inductive Operation where
  | encrypt
  | decrypt
deriving DecidableEq

inductive Pad where
  | oaep
  | pkcs1
  | nopadcheck
deriving DecidableEq

/-- What was left over of a key: an entry of `_capi_encrypt_partials` or of
`_capi_decrypt_partials`, which is removed where there is no data. -/
structure Leftover where
  data : Bytes
  blocklen : Nat
  some_data : data ≠ []

/-- What the CryptoAPI says during a call: the length of a block in bits, whether the
key and the hash are such that it is asked to encrypt or to decrypt, and what it
returns then. -/
structure Answer where
  blocklen : Option Nat
  reached : Bool
  result : Option Bytes

section

variable {H : Type}

structure Call (H : Type) where
  operation : Operation
  bytes : Bytes
  hhash : Option H
  final : Bool
  pad : Pad
  answer : Answer

/-- The arguments of `CryptEncrypt` or `CryptDecrypt`. -/
structure Passed (H : Type) where
  hhash : Option H
  final : Bool
  flags : Nat
  data : Bytes
deriving DecidableEq

/-- The entry of the key after a call, what was passed on and what is returned. -/
structure Effect (H : Type) where
  entry : Option Leftover
  passed : Option (Passed H)
  result : Option Bytes

/-- The native commands, which check that the key is registered. -/
def cryptNative (registered : Bool) (c : Call H) (flags : Nat) (data : Bytes) :
    Option (Passed H) × Option Bytes :=
  if registered && c.answer.reached then (some ⟨c.hhash, c.final, flags, data⟩, c.answer.result)
  else (none, none)

/-- `capi_key_blocklen` in bytes, unless it is known. -/
def blocklenOf (entry : Option Leftover) (registered : Bool) (c : Call H) : Option Nat :=
  match entry with
  | some left => some left.blocklen
  | none => if registered then c.answer.blocklen.map (· / 8) else none

def textOf (entry : Option Leftover) (bytes : Bytes) : Bytes :=
  match entry with
  | some left => left.data ++ bytes
  | none => bytes

def leftover (data : Bytes) (blocklen : Nat) : Option Leftover :=
  if some_data : data ≠ [] then some ⟨data, blocklen, some_data⟩ else none

/-- The two commands, for the paddings they know and the flags of these in the last
piece and before it. -/
def cryptBytes (pads : List Pad) (finalFlags flags : Pad → Option Nat) (entry : Option Leftover)
    (registered : Bool) (c : Call H) : Effect H :=
  if c.pad ∉ pads then ⟨entry, none, none⟩
  else if c.final then
    match finalFlags c.pad with
    | none => ⟨none, none, none⟩
    | some flags =>
      let out := cryptNative registered c flags (textOf entry c.bytes)
      ⟨none, out.1, out.2⟩
  else
    match blocklenOf entry registered c, flags c.pad with
    | none, _ => ⟨entry, none, none⟩
    -- The division by 0 is an error.
    | some 0, _ => ⟨entry, none, none⟩
    | some _, none => ⟨entry, none, none⟩
    | some blocklen, some flags =>
      let text := textOf entry c.bytes
      let len := text.length / blocklen * blocklen
      let out := cryptNative registered c flags (text.take len)
      match out.2 with
      | none => ⟨entry, out.1, none⟩
      | some enc => ⟨leftover (text.drop len) blocklen, out.1, some enc⟩

/-- The dictionary `pkcs1 0 oaep 0x40` -/
def padFlags : Pad → Option Nat
  | .pkcs1 => some 0
  | .oaep => some 0x40
  | .nopadcheck => none

/-- The dictionary `pkcs1 0 oaep 0x40 nopadcheck 0x20` -/
def padFlagsUnchecked : Pad → Option Nat
  | .pkcs1 => some 0
  | .oaep => some 0x40
  | .nopadcheck => some 0x20

def capiEncryptBytes (entry : Option Leftover) (registered : Bool) (c : Call H) : Effect H :=
  cryptBytes [.oaep, .pkcs1] padFlags padFlags entry registered c

def capiDecryptBytes (entry : Option Leftover) (registered : Bool) (c : Call H) : Effect H :=
  cryptBytes [.oaep, .pkcs1, .nopadcheck] padFlagsUnchecked padFlags entry registered c

def capiBytes (entry : Option Leftover) (registered : Bool) (c : Call H) : Effect H :=
  match c.operation with
  | .encrypt => capiEncryptBytes entry registered c
  | .decrypt => capiDecryptBytes entry registered c

/-- The last piece of a stream, of no bytes: what was left over is passed on. -/
def lastPiece (operation : Operation) : Call H where
  operation := operation
  bytes := []
  hhash := none
  final := true
  pad := .pkcs1
  answer := ⟨none, true, none⟩

theorem passed_lastPiece (entry : Option Leftover) (operation : Operation) :
    (capiBytes entry true (lastPiece operation : Call H)).passed =
      some ⟨none, true, 0, textOf entry []⟩ := by
  cases operation with
  | encrypt => rfl
  | decrypt => rfl

theorem leftover_eq_none {entry : Option Leftover} (empty : textOf entry [] = []) : entry = none := by
  cases entry with
  | none => rfl
  | some left => exact absurd ((List.append_nil _).symm.trans empty) left.some_data

/-! ### Keys -/

variable [DecidableEq H]

/-- Newest first in a list. Keys are created with any handle, also with one that another
key had. -/
inductive Event (H : Type) where
  | create (hkey : H)
  | call (hkey : H) (c : Call H)
  | free (hkey : H)

structure State (H : Type) where
  registered : H → Bool
  partials : Operation → H → Option Leftover

def start : State H := ⟨fun _ => false, fun _ _ => none⟩

/-- The effect of a call on a key. -/
def State.effect (s : State H) (hkey : H) (c : Call H) : Effect H :=
  capiBytes (s.partials c.operation hkey) (s.registered hkey) c

/-- `capi_key_free` is `CryptDestroyKey`, of a key that is registered. -/
def step (s : State H) : Event H → State H
  | .create hkey => { s with registered := Function.update s.registered hkey true }
  | .call hkey c =>
    { s with partials := fun operation hkey' =>
        if operation = c.operation ∧ hkey' = hkey then (s.effect hkey c).entry
        else s.partials operation hkey' }
  | .free hkey => { s with registered := Function.update s.registered hkey false }

def stateAfter : List (Event H) → State H
  | [] => start
  | e :: past => step (stateAfter past) e

/-- The calls on a key since it was created. -/
def since (hkey : H) : List (Event H) → List (Call H)
  | [] => []
  | .create hkey' :: past => if hkey' = hkey then [] else since hkey past
  | .call hkey' c :: past => if hkey' = hkey then c :: since hkey past else since hkey past
  | .free _ :: past => since hkey past

/-- What is left over of a key that only these calls were made on. -/
def replay : List (Call H) → Operation → Option Leftover
  | [], _ => none
  | c :: past, operation =>
    if operation = c.operation then (capiBytes (replay past operation) true c).entry
    else replay past operation

def expected (past : List (Call H)) (c : Call H) : Option (Passed H) :=
  (capiBytes (replay past c.operation) true c).passed

/-- At any time, what a call on a key passes on is a function of the calls on this key. -/
def Independent (es : List (Event H)) : Prop :=
  ∀ past, past <:+ es → ∀ hkey, (stateAfter past).registered hkey = true →
    ∀ c, ((stateAfter past).effect hkey c).passed = expected (since hkey past) c

/-- Keys are created with handles that nothing is left over of. -/
def Clean : List (Event H) → Prop
  | [] => True
  | .create hkey :: past =>
    (∀ operation, (stateAfter past).partials operation hkey = none) ∧ Clean past
  | _ :: past => Clean past

/-! ### Results -/

theorem partials_eq_replay {past : List (Event H)} (clean : Clean past) {hkey : H}
    (registered : (stateAfter past).registered hkey = true) (operation : Operation) :
    (stateAfter past).partials operation hkey = replay (since hkey past) operation := by
  induction past with
  | nil => cases registered
  | cons e past ih =>
    cases e with
    | create hkey' =>
      by_cases same : hkey' = hkey
      · subst same
        rw [since, if_pos rfl]
        exact clean.1 operation
      · rw [since, if_neg same]
        have other : (step (stateAfter past) (.create hkey')).registered hkey =
            (stateAfter past).registered hkey := Function.update_of_ne (Ne.symm same) ..
        exact ih clean.2 (other ▸ registered)
    | call hkey' c =>
      have before := ih clean registered
      by_cases same : hkey' = hkey
      · subst same
        rw [since, if_pos rfl, replay]
        change (if operation = c.operation ∧ hkey' = hkey' then _ else _) = _
        by_cases of_call : operation = c.operation
        · subst of_call
          have known : (stateAfter past).registered hkey' = true := registered
          rw [if_pos ⟨rfl, rfl⟩, if_pos rfl, State.effect, before, known]
        · rw [if_neg fun is => of_call is.1, if_neg of_call, before]
      · rw [since, if_neg same]
        exact (if_neg fun is => same is.2.symm).trans before
    | free hkey' =>
      by_cases same : hkey = hkey'
      · subst same
        have freed : (step (stateAfter past) (.free hkey)).registered hkey = false :=
          Function.update_self ..
        exact absurd (freed.symm.trans registered) nofun
      · have other : (step (stateAfter past) (.free hkey')).registered hkey =
            (stateAfter past).registered hkey := Function.update_of_ne same ..
        exact ih clean (other ▸ registered)

theorem Clean.of_suffix {past es : List (Event H)} (clean : Clean es) (suffix : past <:+ es) :
    Clean past := by
  induction es with
  | nil =>
    rw [List.suffix_nil.mp suffix]
    trivial
  | cons e es ih =>
    obtain rfl | earlier := List.suffix_cons_iff.mp suffix
    · exact clean
    · cases e with
      | create hkey => exact ih clean.2 earlier
      | call hkey c => exact ih clean earlier
      | free hkey => exact ih clean earlier

/-- What calls pass on are functions of the calls on their keys if and only if keys are
created with handles that nothing is left over of. -/
theorem independent_iff (es : List (Event H)) : Independent es ↔ Clean es := by
  constructor
  · intro independent
    induction es with
    | nil => trivial
    | cons e es ih =>
      have earlier : Clean es :=
        ih fun past suffix => independent past (suffix.trans (List.suffix_cons e es))
      cases e with
      | call hkey c => exact earlier
      | free hkey => exact earlier
      | create hkey =>
        refine ⟨fun operation => ?_, earlier⟩
        have registered : (stateAfter (.create hkey :: es)).registered hkey = true :=
          Function.update_self ..
        have passed := independent _ List.suffix_rfl hkey registered (lastPiece operation)
        rw [State.effect, registered, passed_lastPiece, expected, since, if_pos rfl,
          passed_lastPiece] at passed
        injection passed with same
        injection same with _ _ _ data
        exact leftover_eq_none data
  · intro clean past suffix hkey registered c
    rw [State.effect, expected, registered,
      partials_eq_replay (clean.of_suffix suffix) registered c.operation]

/-- A stream of three bytes that is not ended: the key that gets its handle passes them
on. -/
theorem leftover_of_freed_key :
    ¬ ∃ data : List (Call Nat) → Call Nat → Option (Passed Nat),
      ∀ es hkey, (stateAfter es).registered hkey = true →
        ∀ c, ((stateAfter es).effect hkey c).passed = data (since hkey es) c := by
  rintro ⟨data, only⟩
  let piece : Call Nat := ⟨.encrypt, [1, 2, 3], none, false, .oaep, ⟨some 64, true, some []⟩⟩
  have fresh := only [.create 1] 1 rfl (lastPiece .encrypt)
  have reused := only [.create 1, .free 1, .call 1 piece, .create 1] 1 rfl (lastPiece .encrypt)
  have differ := fresh.trans reused.symm
  revert differ
  decide

end

end Twapi.CryptStream
