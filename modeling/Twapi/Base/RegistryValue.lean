import Twapi.Lib.Bytes

/-!
Registry values in memory: `_decode_mem_registry_value` of `tcl/twapi.tcl` over
`Twapi_ReadMemory` of `base/calls.c`.

* The memory is what is mapped from the address of the memory object on. Strings are
  their UTF-16 units, as Tcl counts its characters.
* `expected` — what the bytes of a value alone stand for.
* `EmptyAt` — where there is an empty string in the data of a multi-string.
* `decodes_iff` — which data are decoded, whatever lies around them.
-/

namespace Twapi.RegistryValue

open Lib List

abbrev Bytes := List UInt8

inductive Failure where
  | accessViolation
  | message (text : String)
deriving DecidableEq

/-! ### Memory -/

/-- `GETINT`: a `long` of 32 bits takes unsigned numbers too. -/
def getInt (n : Int) : Except Failure Int :=
  if -2 ^ 32 < n ∧ n < 2 ^ 32 then .ok (n.bmod (2 ^ 32))
  else .error (.message "integer value too large to represent")

def bytesAt (mem : Bytes) (p : Int) (count : Nat) : Except Failure Bytes :=
  if count = 0 then .ok []
  else if 0 ≤ p ∧ p + count ≤ mem.length then .ok ((mem.drop p.toNat).take count)
  else .error .accessViolation

/-- Up to the terminating null; `none` is when there is none. -/
def untilNull : Bytes → Option (List UInt16)
  | a :: b :: rest =>
    if UInt16.ofNat (ofBytes [a, b]) = 0 then some []
    else (untilNull rest).map (UInt16.ofNat (ofBytes [a, b]) :: ·)
  | _ => none

/-- The loop that looks for a null in so many characters. -/
def upTo : (count : Nat) → Bytes → Option (List UInt16)
  | 0, _ => some []
  | count + 1, a :: b :: rest =>
    if UInt16.ofNat (ofBytes [a, b]) = 0 then some []
    else (upTo count rest).map (UInt16.ofNat (ofBytes [a, b]) :: ·)
  | _ + 1, _ => none

/-- `Twapi_ReadMemory 0` -/
def readInt (mem : Bytes) (offset : Int) : Except Failure Int := do
  let offset ← getInt offset
  let bytes ← bytesAt mem offset 4
  pure (signedOf bytes)

/-- `Twapi_ReadMemory 1`; a negative length makes an empty byte array. -/
def readBinary (mem : Bytes) (offset len : Int) : Except Failure Bytes := do
  let offset ← getInt offset
  let len ← getInt len
  bytesAt mem offset len.toNat

/-- `Twapi_ReadMemory 3` -/
def readWide (mem : Bytes) (offset len : Int) (modifier : Bool) :
    Except Failure (List UInt16) := do
  let offset ← getInt offset
  let len ← getInt len
  if 0 ≤ len then
    let len := len.toNat / 2
    if modifier then
      if len = 0 then pure []
      else if offset < 0 then .error .accessViolation
      else match upTo len (mem.drop offset.toNat) with
        | none => .error .accessViolation
        | some text => pure text
    else do
      let bytes ← bytesAt mem offset (2 * len)
      pure (units bytes)
  else if offset < 0 then .error .accessViolation
  else match untilNull (mem.drop offset.toNat) with
    | none => .error .accessViolation
    | some text => pure text

theorem readWide_lt {mem : Bytes} {offset len : Int} {modifier : Bool} {text : List UInt16}
    (read : readWide mem offset len modifier = .ok text) : offset < 2 ^ 32 := by
  by_contra large
  have tooLarge : getInt offset = .error (.message "integer value too large to represent") :=
    if_neg fun range => large range.2
  rw [readWide, tooLarge] at read
  cases read

/-! ### The procedure -/

inductive Value where
  | int (n : Int)
  | bytes (bytes : Bytes)
  | text (text : List UInt16)
  | multi (texts : List (List UInt16))
deriving DecidableEq

/-- The loop of type 7. -/
def multiFrom (mem : Bytes) (len off : Int) (multi : List (List UInt16)) :
    Except Failure (List (List UInt16)) :=
  match _read : readWide mem off (-1) false with
  | .error failure => .error failure
  | .ok str =>
    if len ≠ -1 ∧ off + str.length + 1 > len then
      .error (.message "Possible memory corruption: read memory beyond specified memory size.")
    else if str.length = 0 then .ok multi
    else multiFrom mem len (off + 2 * (str.length + 1)) (multi ++ [str])
termination_by (2 ^ 32 - off).toNat
decreasing_by
  have := readWide_lt _read
  omega

def unsupported (type : Int) : Failure :=
  .message s!"Unsupported registry value type '{type}'"

/-- The types whose value is what is in memory. -/
def plainType : Int → Option String
  | 0 => some "none"
  | 3 => some "binary"
  | 6 => some "link"
  | 8 => some "resource_list"
  | _ => none

/-- `_decode_mem_registry_value`; `binary scan` with `I` and `w` -/
def decodeMemRegistryValue (type : Int) (mem : Bytes) (len off : Int) :
    Except Failure (String × Value) :=
  match type with
  | 1 => do pure ("sz", .text (← readWide mem off len true))
  | 2 => do pure ("expand_sz", .text (← readWide mem off len true))
  | 7 => do pure ("multi_sz", .multi (← multiFrom mem len off []))
  | 4 =>
    if len < 4 then .error (.message "Insufficient number of bytes to convert to integer.")
    else do pure ("dword", .int (← readInt mem off))
  | 5 =>
    if len < 4 then
      .error (.message "Insufficient number of bytes to convert to big-endian integer.")
    else do pure ("dword_big_endian", .int (signedOf (← readBinary mem off 4).reverse))
  | 11 =>
    if len < 8 then .error (.message "Insufficient number of bytes to convert to wide integer.")
    else do pure ("qword", .int (signedOf (← readBinary mem off 8)))
  | type =>
    match plainType type with
    | none => .error (unsupported type)
    | some name => do pure (name, .bytes (← readBinary mem off len))

/-! ### What is asked for -/

/-- The strings up to the empty one or to the end -/
def strings (text : List UInt16) : List (List UInt16) :=
  (text.splitOn 0).takeWhile (· ≠ [])

def expected (type : Int) (data : Bytes) : Except Failure (String × Value) :=
  match type with
  | 1 => .ok ("sz", .text ((units data).takeWhile (· ≠ 0)))
  | 2 => .ok ("expand_sz", .text ((units data).takeWhile (· ≠ 0)))
  | 7 => .ok ("multi_sz", .multi (strings (units data)))
  | 4 =>
    if data.length < 4 then
      .error (.message "Insufficient number of bytes to convert to integer.")
    else .ok ("dword", .int (signedOf (data.take 4)))
  | 5 =>
    if data.length < 4 then
      .error (.message "Insufficient number of bytes to convert to big-endian integer.")
    else .ok ("dword_big_endian", .int (signedOf (data.take 4).reverse))
  | 11 =>
    if data.length < 8 then
      .error (.message "Insufficient number of bytes to convert to wide integer.")
    else .ok ("qword", .int (signedOf (data.take 8)))
  | type =>
    match plainType type with
    | none => .error (unsupported type)
    | some name => .ok (name, .bytes data)

/-- The value comes from its data alone, whatever lies before and after them. -/
def Decodes (type : Int) (off : Nat) (data : Bytes) : Prop :=
  ∀ before after : Bytes, before.length = off →
    decodeMemRegistryValue type (before ++ data ++ after) data.length off = expected type data

/-- An empty string begins at this unit: a null at the start or after a null. -/
def EmptyAt (text : List UInt16) (k : Nat) : Prop :=
  text[k]? = some 0 ∧ (k = 0 ∨ text[k - 1]? = some 0)

/-! ### Reads inside the data -/

theorem getInt_of_lt {n : Nat} (small : n < 2 ^ 31) : getInt n = .ok n := by
  rw [getInt, if_pos (by omega), Int.bmod_eq_of_le (by omega) (by omega)]

theorem upTo_append (data after : Bytes) :
    upTo (data.length / 2) (data ++ after) = some ((units data).takeWhile (· ≠ 0)) := by
  fun_induction units data with
  | case1 a b rest ih =>
    have half : (a :: b :: rest).length / 2 = rest.length / 2 + 1 := by
      simp only [length_cons]
      omega
    rw [half, cons_append, cons_append, upTo, ih]
    by_cases null : UInt16.ofNat (ofBytes [a, b]) = 0
    · rw [if_pos null, takeWhile_cons_of_neg (by simpa using null)]
    · rw [if_neg null, takeWhile_cons_of_pos (by simpa using null), Option.map_some]
  | case2 data short =>
    rcases data with _ | ⟨a, _ | ⟨b, rest⟩⟩
    · simp [upTo]
    · simp [upTo]
    · exact (short a b rest rfl).elim

section
variable {before data after : Bytes} (offInt : before.length < 2 ^ 31)

theorem drop_before : (before ++ data ++ after).drop before.length = data ++ after := by
  rw [append_assoc, drop_left]

theorem bytesAt_data {count : Nat} (inside : count ≤ data.length) :
    bytesAt (before ++ data ++ after) before.length count = .ok (data.take count) := by
  unfold bytesAt
  split
  · rename_i none_
    rw [none_, take_zero]
  · rw [if_pos (by simp only [length_append]; omega), Int.toNat_natCast, drop_before,
      take_append_of_le_length inside]

include offInt

theorem readInt_data (inside : 4 ≤ data.length) :
    readInt (before ++ data ++ after) before.length = .ok (signedOf (data.take 4)) := by
  rw [readInt, getInt_of_lt offInt]
  change (bytesAt _ _ 4).bind _ = _
  rw [bytesAt_data inside]
  rfl

theorem readBinary_data {count : Nat} (inside : count ≤ data.length) (countInt : count < 2 ^ 31) :
    readBinary (before ++ data ++ after) before.length count = .ok (data.take count) := by
  rw [readBinary, getInt_of_lt offInt, getInt_of_lt countInt]
  exact bytesAt_data inside

theorem readWide_data (lenInt : data.length < 2 ^ 31) :
    readWide (before ++ data ++ after) before.length data.length true =
      .ok ((units data).takeWhile (· ≠ 0)) := by
  have text := upTo_append data after
  rw [readWide, getInt_of_lt offInt, getInt_of_lt lenInt]
  simp only [bind, Except.bind, Int.natCast_nonneg, if_true, Int.toNat_natCast]
  split
  · rename_i none_
    rw [none_] at text
    exact congrArg Except.ok (Option.some.inj text)
  · rw [if_neg (by omega), drop_before, text]
    rfl

end

/-! ### Multi-strings -/

theorem not_emptyAt {text : List UInt16} (nonzero : 0 ∉ text) (k : Nat) : ¬ EmptyAt text k :=
  fun empty => nonzero (mem_of_getElem? empty.1)

/-- Behind a string. -/
theorem emptyAt_string_iff {str text : List UInt16} (some_ : str ≠ []) (nonzero : 0 ∉ str)
    {k : Nat} : EmptyAt (str ++ 0 :: text) k ↔ ∃ l, k = l + (str.length + 1) ∧ EmptyAt text l := by
  have pos : 0 < str.length := length_pos_iff.mpr some_
  have inside {i : Nat} (less : i < str.length) : (str ++ 0 :: text)[i]? ≠ some 0 := fun null => by
    rw [getElem?_append_left less] at null
    exact nonzero (mem_of_getElem? null)
  have behind (l : Nat) : (str ++ 0 :: text)[l + (str.length + 1)]? = text[l]? := by
    rw [getElem?_append_right (by omega),
      show l + (str.length + 1) - str.length = l + 1 by omega, getElem?_cons_succ]
  constructor
  · rintro ⟨null, start⟩
    have after : str.length < k := by
      by_contra within
      rcases start with rfl | previous
      · exact inside pos null
      · exact inside (by omega) previous
    obtain ⟨l, rfl⟩ : ∃ l, k = l + (str.length + 1) := ⟨k - (str.length + 1), by omega⟩
    rw [behind] at null
    refine ⟨l, rfl, null, ?_⟩
    rcases Nat.eq_zero_or_pos l with first | pos
    · exact .inl first
    · refine .inr ?_
      rw [← behind, show l - 1 + (str.length + 1) = l + (str.length + 1) - 1 by omega]
      exact start.resolve_left (by omega)
  · rintro ⟨l, rfl, null, start⟩
    refine ⟨by rw [behind, null], .inr ?_⟩
    cases l with
    | zero =>
      rw [Nat.zero_add, Nat.add_sub_cancel, getElem?_append_right (Nat.le_refl _),
        Nat.sub_self, getElem?_cons_zero]
    | succ l =>
      rw [show l + 1 + (str.length + 1) - 1 = l + (str.length + 1) by omega, behind]
      exact start.resolve_left (Nat.succ_ne_zero l)

theorem strings_empty (text : List UInt16) : strings (0 :: text) = [] := by
  rw [strings, show (0 : UInt16) :: text = [] ++ 0 :: text from rfl,
    splitOn_append_cons_self_of_not_mem not_mem_nil]
  rfl

variable {str : List UInt16}

theorem strings_string (text : List UInt16) (some_ : str ≠ []) (nonzero : 0 ∉ str) :
    strings (str ++ 0 :: text) = str :: strings text := by
  rw [strings, splitOn_append_cons_self_of_not_mem nonzero,
    takeWhile_cons_of_pos (by simpa using some_), strings]

/-- What is read up to the null, and what is behind it. -/
theorem untilNull_eq_some {bytes : Bytes} (found : untilNull bytes = some str) :
    0 ∉ str ∧ units bytes = str ++ 0 :: units (bytes.drop (2 * (str.length + 1))) ∧
      2 * (str.length + 1) ≤ bytes.length ∧
      ∀ after, untilNull (bytes ++ after) = some str := by
  fun_induction untilNull bytes generalizing str with
  | case1 a b rest null =>
    cases found
    refine ⟨not_mem_nil, ?_, ?_, fun after => ?_⟩
    · change UInt16.ofNat (ofBytes [a, b]) :: units rest = _
      rw [null]
      rfl
    · simp
    · rw [cons_append, cons_append, untilNull, if_pos null]
  | case2 a b rest nonnull ih =>
    obtain ⟨rest_, inner, rfl⟩ := Option.map_eq_some_iff.mp found
    obtain ⟨nonzero, text, length, behind⟩ := ih inner
    refine ⟨?_, ?_, ?_, fun after => ?_⟩
    · exact not_mem_cons_of_ne_of_not_mem (Ne.symm nonnull) nonzero
    · change UInt16.ofNat (ofBytes [a, b]) :: units rest = _
      rw [text]
      rfl
    · simp only [length_cons]
      omega
    · rw [cons_append, cons_append, untilNull, if_neg nonnull, behind]
      rfl
  | case3 => cases found

theorem untilNull_eq_none {bytes : Bytes} (missing : untilNull bytes = none) :
    0 ∉ units bytes := by
  fun_induction untilNull bytes with
  | case1 => cases missing
  | case2 a b rest nonnull ih =>
    exact not_mem_cons_of_ne_of_not_mem (Ne.symm nonnull)
      (ih (Option.map_eq_none_iff.mp missing))
  | case3 bytes short =>
    match bytes, short with
    | [], _ => exact not_mem_nil
    | [_], _ => exact not_mem_nil
    | a :: b :: rest, short => exact (short a b rest rfl).elim

/-! ### The loop -/

section
variable {mem : Bytes} {len off : Nat} (lenInt : len < 2 ^ 31) {multi : List (List UInt16)}

theorem readWide_terminated (offInt : off < 2 ^ 31) {bytes : Bytes} (at_ : mem.drop off = bytes) :
    readWide mem off (-1) false =
      match untilNull bytes with
      | none => .error .accessViolation
      | some text => .ok text := by
  have minusOne : getInt (-1) = .ok (-1) := rfl
  rw [readWide, getInt_of_lt offInt, minusOne]
  simp only [bind, Except.bind]
  rw [if_neg (by decide), if_neg (by omega), Int.toNat_natCast, at_]
  rfl

theorem multiFrom_of_error {failure : Failure}
    (failed : readWide mem off (-1) false = .error failure) :
    multiFrom mem len off multi = .error failure := by
  rw [multiFrom]
  split
  · rename_i failure_ same
    rw [failed] at same
    cases same
    rfl
  · rename_i str same
    rw [failed] at same
    cases same

theorem multiFrom_of_read {str : List UInt16} (read : readWide mem off (-1) false = .ok str) :
    multiFrom mem len off multi =
      if len < off + str.length + 1 then .error (.message
        "Possible memory corruption: read memory beyond specified memory size.")
      else if str = [] then .ok multi
      else multiFrom mem len (off + 2 * (str.length + 1) : Nat) (multi ++ [str]) := by
  rw [multiFrom]
  split
  · rename_i failure failed
    rw [read] at failed
    cases failed
  · rename_i str_ same
    rw [read] at same
    cases same
    refine if_congr (by omega) rfl (if_congr length_eq_zero_iff rfl ?_)
    push_cast
    rfl

include lenInt

/-- Up to an empty string inside the data, the strings are those of the data. -/
theorem multiFrom_data {bytes after : Bytes} (at_ : mem.drop off = bytes ++ after) {k : Nat}
    (empty : EmptyAt (units bytes) k) (within : off + 2 * k < len) :
    multiFrom mem len off multi = .ok (multi ++ strings (units bytes)) := by
  induction size : bytes.length using Nat.strong_induction_on generalizing off bytes k multi with
  | _ _ ih =>
    have read := readWide_terminated (by omega) at_
    cases found : untilNull bytes with
    | none => exact absurd empty (not_emptyAt (untilNull_eq_none found) k)
    | some str =>
      obtain ⟨nonzero, text, length, behind⟩ := untilNull_eq_some found
      rw [behind after] at read
      rw [multiFrom_of_read read, text]
      rw [text] at empty
      by_cases none_ : str = []
      · subst none_
        rw [if_neg (by simp only [length_nil]; omega), if_pos rfl, nil_append,
          strings_empty, append_nil]
      · obtain ⟨l, rfl, later⟩ := (emptyAt_string_iff none_ nonzero).mp empty
        have rest : mem.drop (off + 2 * (str.length + 1)) =
            bytes.drop (2 * (str.length + 1)) ++ after := by
          rw [← drop_drop, at_, drop_append_of_le_length length]
        rw [if_neg (by omega), if_neg none_,
          ih _ (by rw [← size, length_drop]; omega) rest later (by omega) rfl,
          strings_string _ none_ nonzero, append_assoc]
        rfl

/-- What ends the loop is an empty string, and no further than the check lets it be. -/
theorem emptyAt_of_multiFrom {texts : List (List UInt16)}
    (ok : multiFrom mem len off multi = .ok texts) :
    ∃ k, EmptyAt (units (mem.drop off)) k ∧ off + 2 * k < len := by
  induction size : mem.length - off using Nat.strong_induction_on generalizing off multi with
  | _ _ ih =>
    cases read : readWide mem off (-1) false with
    | error failure =>
      rw [multiFrom_of_error read] at ok
      cases ok
    | ok str =>
      rw [multiFrom_of_read read] at ok
      split at ok
      · cases ok
      · rename_i checked
        rw [readWide_terminated (by omega) rfl] at read
        cases found : untilNull (mem.drop off) with
        | none => rw [found] at read; cases read
        | some str_ =>
          rw [found] at read
          cases read
          obtain ⟨nonzero, text, length, -⟩ := untilNull_eq_some found
          split at ok
          · rename_i none_
            subst none_
            exact ⟨0, by rw [text]; exact ⟨rfl, .inl rfl⟩, by omega⟩
          · rename_i some_
            rw [length_drop] at length
            obtain ⟨l, empty, within⟩ := ih _ (by omega) ok rfl
            rw [drop_drop] at text
            rw [text]
            exact ⟨l + (str.length + 1),
              (emptyAt_string_iff some_ nonzero).mpr ⟨l, rfl, empty⟩, by omega⟩

end

/-! ### Which data are decoded -/

section
variable {off : Nat} {data : Bytes} (offInt : off < 2 ^ 31) (lenInt : data.length < 2 ^ 31)
include offInt lenInt

theorem decodes_of_ne (type : Int) (single : type ≠ 7) : Decodes type off data := by
  rintro before after rfl
  have text := @readWide_data before data after offInt lenInt
  have int (long : 4 ≤ data.length) := @readInt_data before data after offInt long
  have binary {count : Nat} (inside : count ≤ data.length) (small : count < 2 ^ 31) :=
    @readBinary_data before data after offInt count inside small
  unfold decodeMemRegistryValue
  split
  · rw [text]
    rfl
  · rw [text]
    rfl
  · exact absurd rfl single
  · simp only [expected]
    by_cases short : data.length < 4
    · rw [if_pos short, if_pos (by omega)]
    · rw [if_neg short, if_neg (by omega), int (Nat.le_of_not_lt short)]
      rfl
  · simp only [expected]
    by_cases short : data.length < 4
    · rw [if_pos short, if_pos (by omega)]
    · have read := binary (Nat.le_of_not_lt short) (by decide)
      rw [Nat.cast_ofNat] at read
      rw [if_neg short, if_neg (by omega), read]
      rfl
  · simp only [expected]
    by_cases short : data.length < 8
    · rw [if_pos short, if_pos (by omega)]
    · have read := binary (Nat.le_of_not_lt short) (by decide)
      rw [Nat.cast_ofNat] at read
      rw [if_neg short, if_neg (by omega), read]
      rfl
  · rename_i n1 n2 n7 n4 n5 n11
    have plain : expected type data =
        match plainType type with
        | none => .error (unsupported type)
        | some name => .ok (name, .bytes data) := by
      unfold expected
      split
      · exact (n1 rfl).elim
      · exact (n2 rfl).elim
      · exact (n7 rfl).elim
      · exact (n4 rfl).elim
      · exact (n5 rfl).elim
      · exact (n11 rfl).elim
      · rfl
    rw [binary (Nat.le_refl _) lenInt, take_length, plain]
    rfl

/-- A multi-string is decoded where an empty string ends it inside its data. Its end is
compared in characters from the end of one string to the next, and from the memory
object on instead of from the offset. -/
theorem decodes_iff (type : Int) :
    Decodes type off data ↔
      (type = 7 → ∃ k, EmptyAt (units data) k ∧ off + 2 * k < data.length) := by
  constructor
  · rintro decodes rfl
    have size : (replicate off (0 : UInt8)).length = off := length_replicate
    have decoded := decodes (replicate off 0) [] size
    rw [append_nil] at decoded
    simp only [decodeMemRegistryValue, expected] at decoded
    cases loop : multiFrom (replicate off 0 ++ data) data.length off [] with
    | error failure => rw [loop] at decoded; cases decoded
    | ok texts =>
      obtain ⟨k, empty, within⟩ := emptyAt_of_multiFrom lenInt loop
      rw [drop_left' size] at empty
      exact ⟨k, empty, within⟩
  · intro ends
    by_cases multi : type = 7
    · obtain ⟨k, empty, within⟩ := ends multi
      subst multi
      rintro before after rfl
      simp only [decodeMemRegistryValue, expected]
      rw [multiFrom_data lenInt drop_before empty within]
      rfl
    · exact decodes_of_ne offInt lenInt type multi

end

/-- The string `a` and an empty one, at the start of the memory -/
theorem decodes_at_start : Decodes 7 0 [0x61, 0, 0, 0, 0, 0] :=
  (decodes_iff (by decide) (by decide) 7).mpr fun _ => ⟨2, ⟨rfl, .inr rfl⟩, by decide⟩

/-- The same bytes at the offset 6 are refused. The string `ab` without a null is read
beyond its bytes. -/
theorem multi_string_fails :
    decodeMemRegistryValue 7 [1, 2, 3, 4, 5, 6, 0x61, 0, 0, 0, 0, 0] 6 6 =
        .error (.message
          "Possible memory corruption: read memory beyond specified memory size.") ∧
      ¬ Decodes 7 6 [0x61, 0, 0, 0, 0, 0] ∧
      decodeMemRegistryValue 7 [0x61, 0, 0x62, 0] 4 0 = .error .accessViolation ∧
      ¬ Decodes 7 0 [0x61, 0, 0x62, 0] := by
  have refused : decodeMemRegistryValue 7 [1, 2, 3, 4, 5, 6, 0x61, 0, 0, 0, 0, 0] 6 6 =
      .error (.message
        "Possible memory corruption: read memory beyond specified memory size.") := by
    have read : readWide [1, 2, 3, 4, 5, 6, 0x61, 0, 0, 0, 0, 0] (6 : Nat) (-1) false =
        .ok [0x61] := by decide
    have loop := @multiFrom_of_read _ 6 6 [] _ read
    rw [if_pos (by decide)] at loop
    change (multiFrom _ ((6 : Nat) : Int) ((6 : Nat) : Int) [] >>= _) = _
    rw [loop]
    rfl
  have beyond : decodeMemRegistryValue 7 [0x61, 0, 0x62, 0] 4 0 = .error .accessViolation := by
    have read : readWide [0x61, 0, 0x62, 0] (0 : Nat) (-1) false = .error .accessViolation := by
      decide
    change (multiFrom _ ((4 : Nat) : Int) ((0 : Nat) : Int) [] >>= _) = _
    rw [multiFrom_of_error read]
    rfl
  refine ⟨refused, fun all => ?_, beyond, fun all => ?_⟩
  · have decoded := all [1, 2, 3, 4, 5, 6] [] rfl
    exact absurd (refused.symm.trans decoded) (by decide)
  · have decoded := all [] [] rfl
    exact absurd (beyond.symm.trans decoded) (by decide)

end Twapi.RegistryValue
