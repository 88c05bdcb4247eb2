import Twapi.Crypto.Stream
import Mathlib.Data.List.TakeDrop

/-!
A byte string in chunks, with `capi_encrypt_bytes` and `capi_decrypt_bytes`.

* `BlockKey` is what CryptoAPI does with the key of a block cipher: whole blocks are a
  stream, and padding is applied or removed in the final call, where that has data.
* `chunked` — the results of the calls on the chunks, in one; `whole` — one call.
* `chunks_iff` — when they are the same.
-/

namespace Twapi.CryptStream.Chunks

open List

/-! ### Blocks -/

section Blocks

variable (blocklen : Nat)

/-- The blocks of a text that are whole. -/
def blocks (text : Bytes) : Bytes := text.take (text.length / blocklen * blocklen)

def remain (text : Bytes) : Bytes := text.drop (text.length / blocklen * blocklen)

theorem blocks_remain (text : Bytes) : blocks blocklen text ++ remain blocklen text = text :=
  take_append_drop _ _

theorem length_blocks (text : Bytes) :
    (blocks blocklen text).length = text.length / blocklen * blocklen := by
  rw [blocks, length_take, Nat.min_eq_left (Nat.div_mul_le_self _ _)]

theorem dvd_blocks (text : Bytes) : blocklen ∣ (blocks blocklen text).length := by
  rw [length_blocks]
  exact Nat.dvd_mul_left _ _

theorem remain_eq_nil_iff (text : Bytes) :
    remain blocklen text = [] ↔ blocklen ∣ text.length := by
  rw [remain, drop_eq_nil_iff]
  constructor
  · intro le
    exact ⟨text.length / blocklen, by
      rw [Nat.mul_comm]
      exact Nat.le_antisymm le (Nat.div_mul_le_self _ _)⟩
  · intro dvd
    rw [Nat.div_mul_cancel dvd]

variable {blocklen} (pos : 0 < blocklen) (text later : Bytes)

include pos in
/-- What comes later is appended to what remains. -/
theorem blocks_append :
    blocks blocklen (text ++ later) =
        blocks blocklen text ++ blocks blocklen (remain blocklen text ++ later) ∧
      remain blocklen (text ++ later) = remain blocklen (remain blocklen text ++ later) := by
  have split : text ++ later = blocks blocklen text ++ (remain blocklen text ++ later) := by
    rw [← append_assoc, blocks_remain]
  have lengths : (text ++ later).length / blocklen * blocklen =
      (blocks blocklen text).length +
        (remain blocklen text ++ later).length / blocklen * blocklen := by
    obtain ⟨n, len⟩ := dvd_blocks blocklen text
    rw [split, length_append, len, Nat.mul_add_div pos, Nat.add_mul, Nat.mul_comm n]
  constructor
  · rw [blocks, lengths, split, take_length_add_append]
    rfl
  · rw [remain, lengths, split, drop_length_add_append]
    rfl

end Blocks

/-! ### Keys -/

/-- `stream` is about whole blocks; `final` is a final call, for its flags. -/
structure BlockKey (σ : Type) where
  blocklen : Nat
  stream : Operation → σ → Bytes → Bytes × σ
  final : Operation → σ → Nat → Bytes → Option Bytes
  blocklen_pos : 0 < blocklen
  stream_nil : ∀ operation s, stream operation s [] = ([], s)
  stream_append : ∀ operation s a b, blocklen ∣ a.length → blocklen ∣ b.length →
    stream operation s (a ++ b) =
      ((stream operation s a).1 ++ (stream operation (stream operation s a).2 b).1,
        (stream operation (stream operation s a).2 b).2)
  final_nil : ∀ operation s flags, final operation s flags [] = some []
  final_append : ∀ operation s flags a b, blocklen ∣ a.length → b ≠ [] →
    final operation s flags (a ++ b) =
      (final operation (stream operation s a).2 flags b).map ((stream operation s a).1 ++ ·)
  padded : ∀ operation s flags data, flags = 0 ∨ flags = 0x40 → blocklen ∣ data.length →
    data ≠ [] → final operation s flags data ≠ some (stream operation s data).1

variable {σ : Type} (k : BlockKey σ) (operation : Operation) (pad : Pad)

/-- A call, for what CryptoAPI returns. -/
def BlockKey.call (final : Bool) (bytes : Bytes) (result : Option Bytes) : Call Unit :=
  ⟨operation, bytes, none, final, pad, ⟨some (8 * k.blocklen), true, result⟩⟩

def BlockKey.respond (s : σ) : Option (Passed Unit) → Option Bytes × σ
  | none => (none, s)
  | some passed =>
    if passed.final then (k.final operation s passed.flags passed.data, s)
    else (some (k.stream operation s passed.data).1, (k.stream operation s passed.data).2)

/-- One call: what is returned, and the state of the key and the entry after it. -/
def BlockKey.send (final : Bool) (bytes : Bytes) (t : σ × Option Leftover) :
    Option (Bytes × σ × Option Leftover) :=
  let asked := (capiBytes t.2 true (k.call operation pad final bytes none)).passed
  let answer := k.respond operation t.1 asked
  let effect := capiBytes t.2 true (k.call operation pad final bytes answer.1)
  effect.result.map fun out => (out, answer.2, effect.entry)

/-- The calls with `-final 0` -/
def BlockKey.feed : List Bytes → σ × Option Leftover → Option (Bytes × σ × Option Leftover)
  | [], t => some ([], t)
  | part :: parts, t =>
    (k.send operation pad false part t).bind fun x =>
      (BlockKey.feed parts x.2).map fun y => (x.1 ++ y.1, y.2)

def BlockKey.chunked (parts : List Bytes) (last : Bytes) (t : σ × Option Leftover) : Option Bytes :=
  (k.feed operation pad parts t).bind fun x =>
    (k.send operation pad true last x.2).map fun y => x.1 ++ y.1

def BlockKey.whole (bytes : Bytes) (t : σ × Option Leftover) : Option Bytes :=
  (k.send operation pad true bytes t).map Prod.fst

/-- A key after calls that left these bytes over. -/
def BlockKey.after (s : σ) (before : Bytes) : σ × Option Leftover :=
  (s, leftover before k.blocklen)

/-- There is one chunk; or the final call has data, or there are none at all. A padding that
is not known before the final call is refused in several chunks, as it may be in one. -/
def BlockKey.Keeps (s : σ) (before : Bytes) (parts : List Bytes) (last : Bytes) : Prop :=
  parts = [] ∨
    match operation, pad with
    | .encrypt, .nopadcheck => True
    | .decrypt, .nopadcheck =>
      k.final .decrypt s 0x20 (before ++ (parts.flatten ++ last)) = none
    | _, _ => last ≠ [] ∨ ¬ k.blocklen ∣ (before ++ parts.flatten).length ∨
        before ++ parts.flatten = []

/-! ### One call -/

theorem textOf_leftover (before bytes : Bytes) (blocklen : Nat) :
    textOf (leftover before blocklen) bytes = before ++ bytes := by
  unfold leftover
  split
  · rfl
  · rename_i empty
    rw [Decidable.not_not.mp empty]
    rfl

theorem blocklenOf_leftover (before : Bytes) (final : Bool) (bytes : Bytes)
    (result : Option Bytes) :
    blocklenOf (leftover before k.blocklen) true (k.call operation pad final bytes result) =
      some k.blocklen := by
  unfold leftover
  split
  · rfl
  · exact congrArg some (Nat.mul_div_cancel_left k.blocklen (by decide))

section Send

variable {k operation pad} {s : σ} {before : Bytes} {flags : Nat}

/-- The final call, for a padding that is known in it. -/
theorem send_final (bytes : Bytes)
    (known : (match operation with | .encrypt => padFlags | .decrypt => padFlagsUnchecked) pad =
      some flags) :
    k.send operation pad true bytes (k.after s before) =
      (k.final operation s flags (before ++ bytes)).map fun out => (out, s, none) := by
  unfold BlockKey.send BlockKey.after
  cases operation <;> cases pad <;> cases known <;>
    simp [capiBytes, capiEncryptBytes, capiDecryptBytes, cryptBytes, cryptNative, BlockKey.call,
      BlockKey.respond, padFlags, padFlagsUnchecked, textOf_leftover]

/-- What a call before it passes on. -/
theorem capiBytes_next (bytes : Bytes) (result : Option Bytes) (known : padFlags pad = some flags) :
    capiBytes (leftover before k.blocklen) true (k.call operation pad false bytes result) =
      ⟨if result = none then leftover before k.blocklen
        else leftover (remain k.blocklen (before ++ bytes)) k.blocklen,
        some ⟨none, false, flags, blocks k.blocklen (before ++ bytes)⟩, result⟩ := by
  have one : capiBytes (leftover before k.blocklen) true (k.call operation pad false bytes result) =
      cryptBytes [pad] (fun _ => none) padFlags (leftover before k.blocklen) true
        (k.call operation pad false bytes result) := by
    cases operation <;> cases pad <;> cases known <;> rfl
  obtain ⟨n, len⟩ := Nat.exists_eq_succ_of_ne_zero k.blocklen_pos.ne'
  have same : (k.call operation pad false bytes result).pad = pad := rfl
  have next : ¬ (k.call operation pad false bytes result).final = true := nofun
  rw [one, cryptBytes, blocklenOf_leftover, same, known, if_neg (by simp), if_neg next, len]
  dsimp only
  rw [textOf_leftover]
  cases result <;> rfl

/-- A call before it. -/
theorem send_next (bytes : Bytes) (known : padFlags pad = some flags) :
    k.send operation pad false bytes (k.after s before) =
      some ((k.stream operation s (blocks k.blocklen (before ++ bytes))).1,
        k.after (k.stream operation s (blocks k.blocklen (before ++ bytes))).2
          (remain k.blocklen (before ++ bytes))) := by
  simp [BlockKey.send, BlockKey.after, capiBytes_next _ _ known, BlockKey.respond]

/-- A padding that is not known before the final call. -/
theorem send_unknown (bytes : Bytes) (t : σ × Option Leftover) (unknown : padFlags pad = none) :
    k.send operation pad false bytes t = none := by
  have refused (pads : List Pad) (finalFlags : Pad → Option Nat) (result : Option Bytes) :
      (cryptBytes pads finalFlags padFlags t.2 true
        (k.call operation pad false bytes result)).result = none := by
    have same : (k.call operation pad false bytes result).pad = pad := rfl
    have next : ¬ (k.call operation pad false bytes result).final = true := nofun
    rw [cryptBytes, if_neg next, same, unknown]
    split
    · rfl
    · split <;> trivial
  have none_ (result : Option Bytes) :
      (capiBytes t.2 true (k.call operation pad false bytes result)).result = none := by
    cases operation
    · exact refused _ _ result
    · exact refused _ _ result
  simp [BlockKey.send, none_]

/-- The calls before the final one. -/
theorem feed_eq (known : padFlags pad = some flags) (part : Bytes) (parts : List Bytes) (s : σ)
    (before : Bytes) :
    k.feed operation pad (part :: parts) (k.after s before) =
      some ((k.stream operation s (blocks k.blocklen (before ++ (part :: parts).flatten))).1,
        k.after (k.stream operation s (blocks k.blocklen (before ++ (part :: parts).flatten))).2
          (remain k.blocklen (before ++ (part :: parts).flatten))) := by
  induction parts generalizing part s before with
  | nil => simp [BlockKey.feed, send_next _ known]
  | cons next parts ih =>
    obtain ⟨split, rest⟩ := blocks_append k.blocklen_pos (before ++ part)
      (next :: parts).flatten
    have joined : before ++ (part :: next :: parts).flatten =
        before ++ part ++ (next :: parts).flatten := by
      rw [flatten_cons, append_assoc]
    rw [BlockKey.feed, send_next _ known, Option.bind_some, ih, Option.map_some, joined, split,
      rest, k.stream_append _ _ _ _ (dvd_blocks _ _) (dvd_blocks _ _)]

end Send

/-! ### Chunks -/

section Chunks

variable {k operation pad} {flags : Nat}

/-- With a padding that is known everywhere -/
theorem chunked_iff_of_known (known : padFlags pad = some flags) (s : σ) (before part : Bytes)
    (parts : List Bytes) (last : Bytes) :
    k.chunked operation pad (part :: parts) last (k.after s before) =
        k.whole operation pad ((part :: parts).flatten ++ last) (k.after s before) ↔
      last ≠ [] ∨ ¬ k.blocklen ∣ (before ++ (part :: parts).flatten).length ∨
        before ++ (part :: parts).flatten = [] := by
  have final : (match operation with | .encrypt => padFlags | .decrypt => padFlagsUnchecked) pad =
      some flags := by
    cases operation <;> cases pad <;> cases known <;> rfl
  rw [BlockKey.chunked, BlockKey.whole, feed_eq known, Option.bind_some, send_final _ final,
    send_final _ final, Option.map_map, Option.map_map, ← append_assoc]
  generalize before ++ (part :: parts).flatten = text
  have split : text ++ last = blocks k.blocklen text ++ (remain k.blocklen text ++ last) := by
    rw [← append_assoc, blocks_remain]
  by_cases data : remain k.blocklen text ++ last = []
  · obtain ⟨none_, rfl⟩ := append_eq_nil_iff.mp data
    have all := blocks_remain k.blocklen text
    rw [none_, append_nil] at all
    have dvd := (remain_eq_nil_iff _ _).mp none_
    rw [none_, all, append_nil, append_nil, k.final_nil]
    by_cases empty : text = []
    · subst empty
      rw [k.final_nil, k.stream_nil]
      exact iff_of_true rfl (.inr (.inr rfl))
    · refine iff_of_false (fun same => ?_) ?_
      · refine k.padded operation s flags text ?_ dvd empty ?_
        · cases pad <;> cases known
          · exact .inr rfl
          · exact .inl rfl
        · cases out : k.final operation s flags text with
          | none =>
            rw [out] at same
            cases same
          | some bytes =>
            rw [out] at same
            have same : (k.stream operation s text).1 ++ [] = bytes := Option.some.inj same
            rw [← same, append_nil]
      · rintro (h | h | h)
        · exact h rfl
        · exact h dvd
        · exact empty h
  · have some_ : last ≠ [] ∨ ¬ k.blocklen ∣ text.length := by
      rw [← remain_eq_nil_iff, or_comm]
      exact not_and_or.mp fun none_ => data (append_eq_nil_iff.mpr none_)
    refine iff_of_true ?_ (some_.imp_right .inl)
    rw [split, k.final_append _ _ _ _ _ (dvd_blocks _ _) data]
    cases k.final operation (k.stream operation s (blocks k.blocklen text)).2 flags
      (remain k.blocklen text ++ last) with
    | none => rfl
    | some out => rfl

variable (k operation pad)

theorem chunks_iff (s : σ) (before : Bytes) (parts : List Bytes) (last : Bytes) :
    k.chunked operation pad parts last (k.after s before) =
        k.whole operation pad (parts.flatten ++ last) (k.after s before) ↔
      k.Keeps operation pad s before parts last := by
  cases parts with
  | nil =>
    refine iff_of_true ?_ (.inl rfl)
    rw [BlockKey.chunked, BlockKey.feed, Option.bind_some]
    rfl
  | cons part parts =>
    unfold BlockKey.Keeps
    rw [or_iff_right (cons_ne_nil _ _)]
    cases pad with
    | oaep =>
      have known : padFlags .oaep = some 0x40 := rfl
      cases operation <;> exact chunked_iff_of_known known s before part parts last
    | pkcs1 =>
      have known : padFlags .pkcs1 = some 0 := rfl
      cases operation <;> exact chunked_iff_of_known known s before part parts last
    | nopadcheck =>
      rw [BlockKey.chunked, BlockKey.feed, send_unknown _ _ rfl]
      cases operation with
      | encrypt => exact iff_of_true rfl trivial
      | decrypt =>
        rw [BlockKey.whole, send_final _ rfl]
        cases k.final .decrypt s 0x20 (before ++ ((part :: parts).flatten ++ last)) with
        | none => exact iff_of_true rfl rfl
        | some out => exact iff_of_false nofun nofun

end Chunks

/-! ### A key -/

/-- The number of bytes that fill a block of two, each with this value. -/
def padding (data : Bytes) : Bytes :=
  if data.length % 2 = 0 then [2, 2] else [1]

/-- The padding is read from its end. -/
def unpad : Bytes → Option Bytes
  | x :: y :: rest =>
    if x = 1 then some (y :: rest) else if x = 2 ∧ y = 2 then some rest else none
  | _ => none

def unpadded (data : Bytes) : Option Bytes :=
  if data.length % 2 = 0 then (unpad data.reverse).map List.reverse else none

theorem unpad_append (x y : UInt8) (rest before : Bytes) :
    unpad (x :: y :: rest ++ before) = (unpad (x :: y :: rest)).map (· ++ before) := by
  simp only [unpad, cons_append]
  split
  · rfl
  · split
    · rfl
    · rfl

theorem length_unpad {data out : Bytes} (removed : unpad data = some out) :
    out.length < data.length := by
  unfold unpad at removed
  split at removed
  · split at removed
    · cases removed
      exact Nat.lt_succ_self _
    · split at removed
      · cases removed
        exact Nat.lt_succ_of_lt (Nat.lt_succ_self _)
      · cases removed
  · cases removed

theorem unpadded_ne (data : Bytes) : unpadded data ≠ some data := by
  unfold unpadded
  split
  · intro same
    obtain ⟨out, removed, back⟩ := Option.map_eq_some_iff.mp same
    have shorter := length_unpad removed
    have length := congrArg length back
    rw [length_reverse] at shorter length
    exact absurd shorter (by omega)
  · nofun

theorem unpadded_append {a b : Bytes} (dvd : 2 ∣ a.length) (some_ : b ≠ []) :
    unpadded (a ++ b) = (unpadded b).map (a ++ ·) := by
  have parity : (a ++ b).length % 2 = b.length % 2 := by
    rw [length_append]
    omega
  unfold unpadded
  rw [parity]
  by_cases even : b.length % 2 = 0
  · rw [if_pos even, if_pos even, reverse_append]
    match rev : b.reverse with
    | [] => exact absurd (reverse_eq_nil_iff.mp rev) some_
    | [_] =>
      have one := congrArg length rev
      rw [length_reverse] at one
      simp [one] at even
    | x :: y :: rest =>
      rw [unpad_append, Option.map_map, Option.map_map]
      congr 1
      funext out
      simp
  · rw [if_neg even, if_neg even]
    rfl

/-- Blocks of two bytes, which stay as they are. -/
def plainKey : BlockKey Unit where
  blocklen := 2
  stream _ s data := (data, s)
  final operation _ _ data :=
    if data = [] then some []
    else
      match operation with
      | .encrypt => some (data ++ padding data)
      | .decrypt => unpadded data
  blocklen_pos := by decide
  stream_nil _ _ := rfl
  stream_append _ _ _ _ _ _ := rfl
  final_nil _ _ _ := rfl
  final_append operation s flags a b dvd some_ := by
    have parity : (a ++ b).length % 2 = b.length % 2 := by
      rw [List.length_append]
      omega
    have both : a ++ b ≠ [] := fun none_ => some_ (List.append_eq_nil_iff.mp none_).2
    rw [if_neg both, if_neg some_]
    cases operation with
    | encrypt =>
      dsimp only [padding]
      rw [parity, List.append_assoc]
      rfl
    | decrypt => exact unpadded_append dvd some_
  padded operation s flags data _ dvd some_ := by
    rw [if_neg some_]
    cases operation with
    | encrypt =>
      have even : data.length % 2 = 0 := Nat.mod_eq_zero_of_dvd dvd
      simp [padding, even]
    | decrypt => exact unpadded_ne data

/-- Two bytes in one chunk, and then none: the padding is not applied. What is encrypted is
decrypted with `nopadcheck`, but not in chunks. -/
theorem chunks_differ :
    plainKey.chunked .encrypt .pkcs1 [[7, 8]] [] (plainKey.after () []) = some [7, 8] ∧
      plainKey.whole .encrypt .pkcs1 [7, 8] (plainKey.after () []) = some [7, 8, 2, 2] ∧
      plainKey.chunked .decrypt .nopadcheck [[7, 8]] [2, 2] (plainKey.after () []) = none ∧
      plainKey.whole .decrypt .nopadcheck [7, 8, 2, 2] (plainKey.after () []) = some [7, 8] := by
  decide

end Twapi.CryptStream.Chunks
