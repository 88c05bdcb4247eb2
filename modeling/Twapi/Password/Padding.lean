import Twapi.Base.Word
import Twapi.Lib.Bytes

/-!
Encryption in memory, `ObjEncryptBytes` and `ObjEncryptWinChars` of `base/tclobjs.c` and what
decrypts for each of them.

* Whole blocks of eight bytes are encrypted. The last byte is the length of the padding; the
  bytes before it are what the buffer had. Bytes are encrypted as characters.
* Every function returns its writes as well.
* `sound_iff` — lengths are right up to what an `int` holds of the padded bytes. A length of
  padding that no characters have is still accepted, and half a character is dropped.
-/

namespace Twapi.Password.Padding

open Base Lib List

abbrev Bytes := List UInt8

/-- `RtlEncryptMemory` and `RtlDecryptMemory`, and what a new buffer has. -/
structure Cipher where
  encrypt : Bytes → Bytes
  decrypt : Bytes → Bytes
  stale : Nat → Bytes
  length_encrypt : ∀ bytes, (encrypt bytes).length = bytes.length
  length_decrypt : ∀ bytes, (decrypt bytes).length = bytes.length
  length_stale : ∀ n, (stale n).length = n
  decrypt_encrypt : ∀ bytes, bytes.length % 8 = 0 → decrypt (encrypt bytes) = bytes
  encrypt_decrypt : ∀ bytes, bytes.length % 8 = 0 → encrypt (decrypt bytes) = bytes

/-- Bytes that are written into a buffer. -/
structure Write where
  size : Nat
  offset : Int
  length : Nat

def Write.Inside (w : Write) : Prop := 0 ≤ w.offset ∧ w.offset + w.length ≤ w.size

inductive Error where
  | bufferOverrun
  | padLength (n : Int)
deriving DecidableEq

structure Run (α : Type) where
  value : Except Error α
  writes : List Write

def Run.bind {α β : Type} (r : Run α) (f : α → Run β) : Run β :=
  match r.value with
  | .error e => ⟨.error e, r.writes⟩
  | .ok a => ⟨(f a).value, r.writes ++ (f a).writes⟩

/-- A length converted to `size_t`. -/
def sizeT (n : Int) : Nat := (n % 18446744073709551616).toNat

/-- `sz` -/
def paddedSize (nin : Int) : Int :=
  if nin % 8 ≠ 0 then toInt (nin + 7) / 8 * 8 else toInt (nin + 8)

/-- `pad_len` -/
def padLen (nin : Int) : Int := if nin % 8 ≠ 0 then toInt (paddedSize nin - nin) else 8

/-- The buffer is the one that `outP` points to, with `*noutP`. -/
def twapiEncryptData (c : Cipher) (inP : Bytes) (nin : Int) (outP : Option (Bytes × Int)) :
    Run (Bytes × Int) :=
  let sz := paddedSize nin
  match outP with
  | none => ⟨.ok ([], sz), []⟩
  | some (out, nout) =>
    if sz > nout then ⟨.error .bufferOverrun, []⟩
    else
      let last := out.set (sz - 1).toNat (UInt8.ofNat (padLen nin).toNat)
      ⟨.ok (c.encrypt (inP.take nin.toNat ++ last.drop nin.toNat), sz),
        [⟨out.length, sz - 1, 1⟩, ⟨out.length, 0, sizeT nin⟩]⟩

def objEncryptWinChars (c : Cipher) (text : List UInt16) : Run Bytes :=
  let nin := toInt (2 * text.length)
  (twapiEncryptData c (wide text) nin none).bind fun sized =>
    (twapiEncryptData c (wide text) nin (some (c.stale sized.2.toNat, sized.2))).bind fun enc =>
      ⟨.ok enc.1, []⟩

/-- Bytes as characters. -/
def widen (bytes : Bytes) : List UInt16 := bytes.map fun b => UInt16.ofNat b.toNat

def objEncryptBytes (c : Cipher) (bytes : Bytes) : Run Bytes :=
  let nalloc := toInt (2 * bytes.length)
  let size := ofInt (if nalloc = 0 then 2 else nalloc)
  (⟨.ok (), [⟨size, 0, 2 * bytes.length⟩]⟩ : Run Unit).bind fun _ =>
    objEncryptWinChars c (widen bytes)

def twapiDecryptData (c : Cipher) (enc : Bytes) (outP : Option (Bytes × Int)) :
    Run (Bytes × Int) :=
  let nenc : Int := enc.length
  if nenc = 0 ∨ nenc % 8 ≠ 0 then ⟨.error (.padLength nenc), []⟩
  else
    match outP with
    | none => ⟨.ok ([], nenc), []⟩
    | some (out, nout) =>
      if nout < nenc then ⟨.error .bufferOverrun, []⟩
      else
        let dec := c.decrypt enc
        let writes := [⟨out.length, 0, enc.length⟩]
        let pad_len : Int := (dec.getLastD 0).toNat
        if pad_len = 0 ∨ pad_len > 8 ∨ pad_len > nenc then ⟨.error (.padLength pad_len), writes⟩
        else ⟨.ok (dec ++ out.drop enc.length, nenc - pad_len), writes⟩

def objDecryptWinCharsSWS (c : Cipher) (enc : Bytes) : Run (List UInt16) :=
  (twapiDecryptData c enc none).bind fun sized =>
    let dec := c.stale (sized.2 + 2).toNat
    (twapiDecryptData c enc (some (dec, sized.2))).bind fun out =>
      ⟨.ok (units (out.1.take (out.2 / 2 * 2).toNat)), [⟨dec.length, out.2 / 2 * 2, 2⟩]⟩

/-- The bytes after the leading ones. -/
def objDecryptBytesExSWS (c : Cipher) (enc : Bytes) (nleading : Nat) : Run Bytes :=
  (objDecryptWinCharsSWS c enc).bind fun uniP =>
    let nalloc := toInt (nleading + uniP.length)
    let size := ofInt (if nalloc = 0 then 1 else nalloc)
    ⟨.ok (uniP.map fun unit => UInt8.ofNat unit.toNat), [⟨size, nleading, uniP.length⟩]⟩

/-! ### What is meant -/

/-- What is decrypted is what was encrypted, and every write is inside its buffer. -/
def Restores {α : Type} (encrypted : Run Bytes) (decrypt : Bytes → Run α) (a : α) : Prop :=
  (∀ w ∈ encrypted.writes, w.Inside) ∧
    ∃ enc, encrypted.value = .ok enc ∧ (decrypt enc).value = .ok a ∧
      ∀ w ∈ (decrypt enc).writes, w.Inside

/-- The length of padding that characters have. -/
def ValidPad (c : Cipher) (enc : Bytes) : Prop :=
  enc ≠ [] ∧ enc.length % 8 = 0 ∧ ((c.decrypt enc).getLastD 0).toNat ∈ [2, 4, 6, 8]

/-- What has other padding is rejected, and no write is outside of its buffer. -/
def Rejects (c : Cipher) (enc : Bytes) : Prop :=
  (∀ w ∈ (objDecryptWinCharsSWS c enc).writes, w.Inside) ∧
    (ValidPad c enc ∨ ∃ e, (objDecryptWinCharsSWS c enc).value = .error e)

/-- Whole blocks, the padding of which is of an odd length. -/
def OddPad (c : Cipher) (enc : Bytes) : Prop :=
  enc ≠ [] ∧ enc.length % 8 = 0 ∧ ((c.decrypt enc).getLastD 0).toNat ∈ [1, 3, 5, 7]

variable {α β : Type}

@[simp] theorem Run.bind_ok (a : α) (writes : List Write) (f : α → Run β) :
    (⟨.ok a, writes⟩ : Run α).bind f = ⟨(f a).value, writes ++ (f a).writes⟩ := rfl

@[simp] theorem Run.bind_error (e : Error) (writes : List Write) (f : α → Run β) :
    (⟨.error e, writes⟩ : Run α).bind f = ⟨.error e, writes⟩ := rfl

theorem padded_of_le {n : Nat} (h : n ≤ 2147483639) :
    paddedSize n = (n / 8 * 8 + 8 : Nat) ∧ padLen n = (8 - n % 8 : Nat) := by
  unfold padLen paddedSize toInt
  split <;> constructor <;> omega

/-- The size is positive only where it is the one of the next block. -/
theorem le_of_paddedSize_pos {nin : Int} (low : -2147483648 ≤ nin) (high : nin ≤ 2147483647)
    (h : 0 < paddedSize nin) : 0 ≤ nin ∧ nin ≤ 2147483639 := by
  unfold paddedSize toInt at h
  split at h <;> omega

/-- The characters and their padding. -/
def plain (c : Cipher) (text : List UInt16) : Bytes :=
  let n := 2 * text.length
  wide text ++ ((c.stale (n / 8 * 8 + 8)).set (n / 8 * 8 + 7) (UInt8.ofNat (8 - n % 8))).drop n

variable {c : Cipher} {text : List UInt16} {enc : Bytes}

theorem length_plain : (plain c text).length = 2 * text.length / 8 * 8 + 8 := by
  simp only [plain, length_append, length_wide, length_drop, length_set,
    c.length_stale]
  omega

theorem last_plain : (plain c text).getLastD 0 = UInt8.ofNat (8 - 2 * text.length % 8) := by
  have hindex : 2 * text.length + (2 * text.length / 8 * 8 + 8 - 1 - 2 * text.length) =
      2 * text.length / 8 * 8 + 7 := by omega
  rw [getLastD_eq_getLast?, getLast?_eq_getElem?, length_plain, plain,
    getElem?_append_right (by simp; omega), length_wide, getElem?_drop, hindex,
    getElem?_set_self (by rw [c.length_stale]; omega)]
  rfl

/-- The size that is asked for is the one of the second call. -/
theorem encrypt_run (c : Cipher) (inP : Bytes) (nin : Int) :
    ((twapiEncryptData c inP nin none).bind fun sized =>
      (twapiEncryptData c inP nin (some (c.stale sized.2.toNat, sized.2))).bind fun enc =>
        (⟨.ok enc.1, []⟩ : Run Bytes)) =
      ⟨.ok (c.encrypt (inP.take nin.toNat ++ ((c.stale (paddedSize nin).toNat).set
          (paddedSize nin - 1).toNat (UInt8.ofNat (padLen nin).toNat)).drop nin.toNat)),
        [⟨(paddedSize nin).toNat, paddedSize nin - 1, 1⟩,
          ⟨(paddedSize nin).toNat, 0, sizeT nin⟩]⟩ := by
  simp only [twapiEncryptData, Run.bind_ok, gt_iff_lt, lt_irrefl, if_false, c.length_stale,
    nil_append, append_nil]

theorem objEncryptWinChars_eq (h : text.length ≤ 1073741819) :
    objEncryptWinChars c text = ⟨.ok (c.encrypt (plain c text)),
      [⟨2 * text.length / 8 * 8 + 8, (2 * text.length / 8 * 8 + 7 : Nat), 1⟩,
        ⟨2 * text.length / 8 * 8 + 8, 0, 2 * text.length⟩]⟩ := by
  have hnin : toInt (2 * text.length) = ((2 * text.length : Nat) : Int) := by
    unfold toInt
    omega
  have hsize : sizeT ((2 * text.length : Nat) : Int) = 2 * text.length := by
    unfold sizeT
    omega
  obtain ⟨hsz, hpad⟩ := padded_of_le (n := 2 * text.length) (by omega)
  have hlast : (((2 * text.length / 8 * 8 + 8 : Nat) : Int) - 1) =
      (2 * text.length / 8 * 8 + 7 : Nat) := by omega
  have htake : (wide text).take (2 * text.length) = wide text := take_of_length_le (by simp)
  rw [objEncryptWinChars, encrypt_run]
  simp only [hnin, hsz, hpad, hsize, hlast, Int.toNat_natCast, htake, plain]

/-- What decryption gives of any bytes. -/
theorem objDecryptWinCharsSWS_eq (c : Cipher) (enc : Bytes) :
    objDecryptWinCharsSWS c enc =
      if enc = [] ∨ enc.length % 8 ≠ 0 then ⟨.error (.padLength enc.length), []⟩
      else
        let pad := ((c.decrypt enc).getLastD 0).toNat
        if pad = 0 ∨ 8 < pad then
          ⟨.error (.padLength pad), [⟨enc.length + 2, 0, enc.length⟩]⟩
        else
          ⟨.ok (units ((c.decrypt enc).take ((enc.length - pad) / 2 * 2))),
            [⟨enc.length + 2, 0, enc.length⟩,
              ⟨enc.length + 2, ((enc.length - pad) / 2 * 2 : Nat), 2⟩]⟩ := by
  have hcond : ((enc.length : Int) = 0 ∨ (enc.length : Int) % 8 ≠ 0) ↔
      (enc = [] ∨ enc.length % 8 ≠ 0) := by
    rw [← length_eq_zero_iff]
    omega
  simp only [objDecryptWinCharsSWS, twapiDecryptData, hcond]
  by_cases hbad : enc = [] ∨ enc.length % 8 ≠ 0
  · simp only [hbad, if_true, Run.bind]
  · have hlong : 8 ≤ enc.length := by
      rw [← length_eq_zero_iff] at hbad
      omega
    have hstale : ((enc.length : Int) + 2).toNat = enc.length + 2 := by omega
    simp only [hbad, if_false, Run.bind, lt_irrefl, hstale, c.length_stale]
    set pad := ((c.decrypt enc).getLastD 0).toNat with hpad
    have hiff : ((pad : Int) = 0 ∨ (pad : Int) > 8 ∨ (pad : Int) > enc.length) ↔
        (pad = 0 ∨ 8 < pad) := by omega
    simp only [hiff]
    by_cases hwrong : pad = 0 ∨ 8 < pad
    · simp only [hwrong, if_true, nil_append]
    · have hcount : ((enc.length : Int) - pad) / 2 * 2 = ((enc.length - pad) / 2 * 2 : Nat) := by
        omega
      simp only [hwrong, if_false, hcount, Int.toNat_natCast, nil_append]
      rw [take_append_of_le_length (by rw [c.length_decrypt]; omega)]
      rfl

theorem decrypt_inside (c : Cipher) (enc : Bytes) :
    ∀ w ∈ (objDecryptWinCharsSWS c enc).writes, w.Inside := by
  rw [objDecryptWinCharsSWS_eq]
  split
  · simp
  · dsimp only
    split <;> simp only [mem_cons, not_mem_nil, or_false, forall_eq_or_imp, forall_eq,
      Write.Inside] <;> omega

/-- No more characters are decrypted than fit with a byte of padding. -/
theorem length_of_decrypted (h : (objDecryptWinCharsSWS c enc).value = .ok text) :
    2 * text.length + 1 ≤ enc.length := by
  rw [objDecryptWinCharsSWS_eq] at h
  split at h
  · cases h
  · rename_i hgood
    rw [← length_eq_zero_iff] at hgood
    dsimp only at h
    split at h
    · cases h
    · obtain rfl := Except.ok.inj h
      rw [length_units, length_take, c.length_decrypt]
      omega

theorem decrypt_encrypted (h : text.length ≤ 1073741819) :
    (objDecryptWinCharsSWS c (c.encrypt (plain c text))).value = .ok text := by
  have hlength : (c.encrypt (plain c text)).length = 2 * text.length / 8 * 8 + 8 := by
    rw [c.length_encrypt, length_plain]
  have hpad : ((c.decrypt (c.encrypt (plain c text))).getLastD 0).toNat =
      8 - 2 * text.length % 8 := by
    rw [c.decrypt_encrypt _ (by rw [length_plain]; omega), last_plain, UInt8.toNat_ofNat']
    omega
  have hgood : ¬ (c.encrypt (plain c text) = [] ∨ (c.encrypt (plain c text)).length % 8 ≠ 0) := by
    rw [← length_eq_zero_iff, hlength]
    omega
  have htake : (2 * text.length / 8 * 8 + 8 - (8 - 2 * text.length % 8)) / 2 * 2 =
      (wide text).length := by
    rw [length_wide]
    omega
  rw [objDecryptWinCharsSWS_eq, if_neg hgood]
  simp only [hpad]
  rw [if_neg (by omega), hlength, htake, c.decrypt_encrypt _ (by rw [length_plain]; omega), plain,
    take_left]
  simpa [units] using units_wide_append text []

/-- Where the writes are inside, and as many characters come back, the length is in range. -/
theorem length_le_of_inside (hwrites : ∀ w ∈ (objEncryptWinChars c text).writes, w.Inside)
    (henc : (objEncryptWinChars c text).value = .ok enc) {text' : List UInt16}
    (hdec : (objDecryptWinCharsSWS c enc).value = .ok text') (hsame : text'.length = text.length) :
    text.length ≤ 1073741819 := by
  have hrange : -2147483648 ≤ toInt (2 * text.length) ∧ toInt (2 * text.length) ≤ 2147483647 := by
    unfold toInt
    omega
  rw [objEncryptWinChars, encrypt_run] at hwrites henc
  generalize toInt (2 * text.length) = nin at hrange hwrites henc
  have hlast : 0 ≤ paddedSize nin - 1 := (hwrites _ mem_cons_self).1
  obtain ⟨hnin, hsmall⟩ := le_of_paddedSize_pos hrange.1 hrange.2 (by omega)
  obtain ⟨n, rfl⟩ := Int.eq_ofNat_of_zero_le hnin
  rw [(padded_of_le (by omega)).1] at henc
  have hlength : enc.length ≤ n / 8 * 8 + 8 := by
    rw [← Except.ok.inj henc, c.length_encrypt, length_append, length_take,
      length_drop, length_set, c.length_stale, Int.toNat_natCast, Int.toNat_natCast]
    omega
  have := length_of_decrypted hdec
  omega

theorem restores_winChars_iff (c : Cipher) (text : List UInt16) :
    Restores (objEncryptWinChars c text) (objDecryptWinCharsSWS c) text ↔
      text.length ≤ 1073741819 := by
  constructor
  · rintro ⟨hwrites, enc, henc, hdec, -⟩
    exact length_le_of_inside hwrites henc hdec rfl
  · intro h
    rw [objEncryptWinChars_eq h]
    refine ⟨?_, _, rfl, decrypt_encrypted h, decrypt_inside c _⟩
    simp only [mem_cons, not_mem_nil, or_false, forall_eq_or_imp, forall_eq, Write.Inside]
    omega

variable {r : Run α}

theorem Run.value_bind {a : α} (h : r.value = .ok a) (f : α → Run β) :
    (r.bind f).value = (f a).value := by
  rw [Run.bind, h]

theorem Run.writes_bind {a : α} (h : r.value = .ok a) (f : α → Run β) :
    (r.bind f).writes = r.writes ++ (f a).writes := by
  rw [Run.bind, h]

theorem Run.exists_of_bind {b : β} {f : α → Run β} (h : (r.bind f).value = .ok b) :
    ∃ a, r.value = .ok a ∧ (f a).value = .ok b := by
  unfold Run.bind at h
  split at h
  · cases h
  · rename_i a ha
    exact ⟨a, ha, h⟩

/-- What is allocated of a size has that many bytes, or more if there are none. -/
theorem le_alloc {n : Nat} (h : n ≤ 2147483647) (k : Int) :
    (n : Int) ≤ ofInt (if toInt n = 0 then k else toInt n) := by
  unfold toInt ofInt
  split <;> omega

theorem length_widen (bytes : Bytes) : (widen bytes).length = bytes.length := List.length_map _

theorem narrow_widen (bytes : Bytes) :
    (widen bytes).map (fun unit => UInt8.ofNat unit.toNat) = bytes := by
  rw [widen, map_map]
  refine map_id'' (fun b => ?_) bytes
  have := b.toNat_lt
  rw [Function.comp_apply, UInt16.toNat_ofNat', Nat.mod_eq_of_lt (by omega), UInt8.ofNat_toNat]

theorem objEncryptBytes_value (c : Cipher) (bytes : Bytes) :
    (objEncryptBytes c bytes).value = (objEncryptWinChars c (widen bytes)).value := by
  unfold objEncryptBytes
  exact Run.value_bind rfl _

theorem objEncryptBytes_writes (c : Cipher) (bytes : Bytes) :
    (objEncryptBytes c bytes).writes =
      ⟨ofInt (if toInt (2 * bytes.length) = 0 then 2 else toInt (2 * bytes.length)), 0,
        2 * bytes.length⟩ :: (objEncryptWinChars c (widen bytes)).writes := by
  unfold objEncryptBytes
  exact Run.writes_bind rfl _

theorem restores_bytes_iff (c : Cipher) (bytes : Bytes) :
    (∀ nleading ≤ 1073741824, Restores (objEncryptBytes c bytes)
      (fun enc => objDecryptBytesExSWS c enc nleading) bytes) ↔ bytes.length ≤ 1073741819 := by
  rw [← length_widen]
  constructor
  · intro h
    obtain ⟨hwrites, enc, henc, hdec, -⟩ := h 0 (Nat.zero_le _)
    rw [objEncryptBytes_value] at henc
    rw [objEncryptBytes_writes] at hwrites
    obtain ⟨uniP, huni, hnarrow⟩ := Run.exists_of_bind hdec
    refine length_le_of_inside (fun w hw => hwrites w (mem_cons_of_mem _ hw)) henc huni ?_
    rw [length_widen, ← Except.ok.inj hnarrow, length_map]
  · intro h nleading hleading
    have hdec := decrypt_encrypted (c := c) h
    refine ⟨?_, c.encrypt (plain c (widen bytes)), ?_, ?_, ?_⟩
    · have := le_alloc (n := 2 * bytes.length) (by rw [← length_widen]; omega) 2
      rw [objEncryptBytes_writes]
      intro w hw
      rcases mem_cons.mp hw with rfl | hw
      · push_cast at this
        simp only [Write.Inside]
        omega
      · exact ((restores_winChars_iff c _).mpr h).1 w hw
    · rw [objEncryptBytes_value, objEncryptWinChars_eq h]
    · exact (Run.value_bind hdec _).trans (congrArg Except.ok (narrow_widen bytes))
    · have := le_alloc (n := nleading + (widen bytes).length) (by omega) 1
      push_cast at this
      refine fun w hw => ?_
      unfold objDecryptBytesExSWS at hw
      rw [Run.writes_bind hdec, mem_append, mem_singleton] at hw
      rcases hw with hw | rfl
      · exact decrypt_inside c _ w hw
      · simp only [Write.Inside]
        exact ⟨Int.natCast_nonneg _, this⟩

theorem rejects_iff (c : Cipher) (enc : Bytes) : Rejects c enc ↔ ¬ OddPad c enc := by
  rw [Rejects, and_iff_right (decrypt_inside c enc), objDecryptWinCharsSWS_eq, ValidPad, OddPad]
  by_cases hbad : enc = [] ∨ enc.length % 8 ≠ 0
  · simp only [hbad, if_true]
    simp only [Except.error.injEq, exists_eq', or_true, true_iff]
    tauto
  · obtain ⟨hne, hwhole⟩ : enc ≠ [] ∧ enc.length % 8 = 0 := by tauto
    rw [if_neg hbad, and_iff_right hne, and_iff_right hne, and_iff_right hwhole,
      and_iff_right hwhole]
    generalize ((c.decrypt enc).getLastD 0).toNat = pad
    simp only [mem_cons, not_mem_nil, or_false]
    split
    · simp only [Except.error.injEq, exists_eq', or_true, true_iff]
      omega
    · simp only [reduceCtorEq, exists_false, or_false]
      omega

/-- Both kinds of strings come back, and wrong padding is rejected, up to the longest strings of
which the size of the blocks is an `int`, and where the padding is not of an odd length. -/
theorem sound_iff (c : Cipher) (text : List UInt16) (bytes enc : Bytes) :
    (Restores (objEncryptWinChars c text) (objDecryptWinCharsSWS c) text ∧
      (∀ nleading ≤ 1073741824, Restores (objEncryptBytes c bytes)
        (fun enc => objDecryptBytesExSWS c enc nleading) bytes) ∧ Rejects c enc) ↔
      text.length ≤ 1073741819 ∧ bytes.length ≤ 1073741819 ∧ ¬ OddPad c enc := by
  rw [restores_winChars_iff, restores_bytes_iff, rejects_iff]

/-- A cipher that leaves everything as it is. -/
def plainCipher : Cipher where
  encrypt := id
  decrypt := id
  stale n := List.replicate n 0
  length_encrypt _ := rfl
  length_decrypt _ := rfl
  length_stale _ := List.length_replicate
  decrypt_encrypt _ _ := rfl
  encrypt_decrypt _ _ := rfl

/-- Three bytes of padding are accepted, and half a character is dropped. -/
theorem accepts_odd_pad :
    let enc := [97, 0, 98, 0, 99, 0, 0, 3]
    (objDecryptWinCharsSWS plainCipher enc).value = .ok [97, 98] ∧ ¬ Rejects plainCipher enc := by
  refine ⟨by decide, (rejects_iff _ _).not.mpr (not_not.mpr ?_)⟩
  exact ⟨by decide, by decide, by decide⟩

end Twapi.Password.Padding
