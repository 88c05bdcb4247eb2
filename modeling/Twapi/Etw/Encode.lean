import Twapi.Etw.Model

/-!
What the fields of an event look like, and that they are read back.

* `Kind.Encodes` — the bytes of a value, by the kind of the field.
* `At` — the cursor is before the bytes that are left.
* `switch_takes_iff` — a field is read back exactly when it fits what follows it.
* `parseEventMofData_exact_iff` — and so is an event.
-/

namespace Twapi.Etw

open Lib List

/-! ### Encodings -/

/-- Values of a fixed size. -/
inductive Scalar where
  | boolean
  | signed (size : Nat)
  | unsigned (size : Nat)
  | hex (size digits : Nat)
  | character
  | float
  | double
  | unit
  | guid
  | ipv4
  | ipv6
deriving DecidableEq

inductive Kind where
  | scalar (s : Scalar)
  | string
  | wstring
  | counted (reverse : Bool)
  | wcounted (reverse : Bool)
  | variant
  | sid
  | rest
  | wrest
  | pointer
deriving DecidableEq

def Scalar.size : Scalar → Nat
  | .boolean | .float | .ipv4 => 4
  | .signed size | .unsigned size | .hex size _ => size
  | .character => 1
  | .double => 8
  | .unit => 2
  | .guid | .ipv6 => 16

def Scalar.Encodes (W : Conversions) : Scalar → Obj → List UInt8 → Prop
  | .boolean, obj, bytes => ∃ n < 256 ^ 4, obj = .bool (n ≠ 0) ∧ bytes = toBytes 4 n
  | .signed size, obj, bytes => ∃ z : Int, -(256 ^ size / 2) ≤ z ∧ z < 256 ^ size / 2 ∧
      obj = .int z ∧ bytes = toBytes size (z % 256 ^ size).toNat
  | .unsigned size, obj, bytes =>
    ∃ n : Nat, n < 256 ^ size ∧ obj = .int n ∧ bytes = toBytes size n
  | .hex size digits, obj, bytes =>
    ∃ n < 256 ^ size, obj = .string (Etw.hex digits n) ∧ bytes = toBytes size n
  | .character, obj, bytes => ∃ c, obj = .chars [c] ∧ bytes = [c]
  | .float, obj, bytes => ∃ n < 256 ^ 4, obj = .float n ∧ bytes = toBytes 4 n
  | .double, obj, bytes => ∃ n < 256 ^ 8, obj = .double n ∧ bytes = toBytes 8 n
  | .unit, obj, bytes => ∃ c, obj = .wchars [c] ∧ bytes = wide [c]
  | .guid, obj, bytes => obj = .string (W.stringFromGUID bytes) ∧ bytes.length = 16
  | .ipv4, obj, bytes => ∃ n < 256 ^ 4, obj = .string (W.inetNtoa n) ∧ bytes = toBytes 4 n
  | .ipv6, obj, bytes => obj = .string ((W.stringFromIPv6 bytes).getD "") ∧ bytes.length = 16

/-- The two bytes before a counted string. -/
def countBytes (reverse : Bool) (n : Nat) : List UInt8 :=
  if reverse then (toBytes 2 n).reverse else toBytes 2 n

/-- Revision 1, at most 15 sub-authorities, and bytes for as many as it has. -/
structure IsSid (sid : List UInt8) : Prop where
  revision : sid[0]? = some 1
  subAuthorities : ∃ n, sid[1]? = some n ∧ n.toNat ≤ 15 ∧ sid.length = sidLength n.toNat

/-- A SID stands behind a `TOKEN_USER`, but for the empty one. What is not
counted goes on to the end. -/
def Kind.Encodes (W : Conversions) (pointerSize : Nat) : Kind → Obj → List UInt8 → Prop
  | .scalar s, obj, bytes => s.Encodes W obj bytes
  | .string, obj, bytes => ∃ text, 0 ∉ text ∧ obj = .chars text ∧ bytes = text ++ [0]
  | .wstring, obj, bytes => ∃ text, 0 ∉ text ∧ obj = .wchars text ∧ bytes = wide text ++ wide [0]
  | .counted reverse, obj, bytes => ∃ text, text.length < 65536 ∧ obj = .chars text ∧
      bytes = countBytes reverse text.length ++ text
  | .wcounted reverse, obj, bytes => ∃ text, text.length < 65536 ∧ obj = .wchars text ∧
      bytes = countBytes reverse text.length ++ wide text
  | .variant, obj, bytes => ∃ blob, obj = .bytes blob ∧ bytes = toBytes 4 blob.length ++ blob
  | .sid, obj, bytes => obj = .string "" ∧ bytes = toBytes 4 0 ∨
      ∃ user sid, user.length = pointerSize * 2 ∧ IsSid sid ∧
        obj = .string ((W.stringFromSid sid).getD "") ∧ bytes = user ++ sid
  | .rest, obj, bytes => obj = .chars bytes
  | .wrest, obj, bytes => ∃ text, obj = .wchars text ∧ bytes = wide text
  | .pointer, obj, bytes => ∃ n < 256 ^ pointerSize,
      obj = .string (hex (2 * pointerSize) n) ∧ bytes = toBytes pointerSize n

/-- The kinds of the types that are decoded. -/
def MofType.kind : MofType → Option Kind
  | .string => some .string
  | .wstring => some .wstring
  | .stringcounted => some (.counted false)
  | .stringreversecounted => some (.counted true)
  | .wstringcounted => some (.wcounted false)
  | .wstringreversecounted => some (.wcounted true)
  | .boolean => some (.scalar .boolean)
  | .sint8 => some (.scalar (.signed 1))
  | .uint8 => some (.scalar (.unsigned 1))
  | .csint8 | .cuint8 => some (.scalar .character)
  | .sint16 => some (.scalar (.signed 2))
  | .uint16 => some (.scalar (.unsigned 2))
  | .sint32 => some (.scalar (.signed 4))
  | .uint32 => some (.scalar (.unsigned 4))
  | .sint64 => some (.scalar (.signed 8))
  | .uint64 => some (.scalar (.unsigned 8))
  | .xsint16 | .xuint16 => some (.scalar (.hex 2 0))
  | .xsint32 | .xuint32 => some (.scalar (.hex 4 8))
  | .xsint64 | .xuint64 => some (.scalar (.hex 8 16))
  | .real32 => some (.scalar .float)
  | .real64 => some (.scalar .double)
  | .object => none
  | .char16 => some (.scalar .unit)
  | .uint8guid | .objectguid => some (.scalar .guid)
  | .objectipaddr => some (.scalar .ipv4)
  | .objectipaddrv6 => some (.scalar .ipv6)
  | .objectvariant => some .variant
  | .objectsid => some .sid
  | .uint64wmitime | .objectwmitime => some (.scalar (.unsigned 8))
  | .uint16port | .objectport => some (.scalar (.unsigned 2))
  | .datetime => none
  | .stringnotcounted => some .rest
  | .wstringnotcounted => some .wrest
  | .pointer => some .pointer

/-- When a field is read back, `rest` behind it: after a wide string the number
of bytes is even; what is not counted is the end, and not empty; a SID does not
begin like the empty one and has room for one sub-authority. -/
def Kind.Fits (pointerSize : Nat) (bytes rest : List UInt8) : Kind → Prop
  | .wstring => rest.length % 2 = 0
  | .rest | .wrest => bytes ≠ [] ∧ rest = []
  | .sid => bytes.length = 4 ∨
      ofBytes (bytes.take 4) ≠ 0 ∧ pointerSize * 2 + 12 ≤ bytes.length + rest.length
  | _ => True

/-! ### Scalars -/

/-- What the code makes of the bytes of a scalar. -/
def Scalar.read (W : Conversions) : Scalar → List UInt8 → Obj
  | .boolean, bytes => .bool (ofBytes bytes ≠ 0)
  | .signed _, bytes => Etw.signed bytes
  | .unsigned _, bytes => Etw.unsigned bytes
  | .hex _ digits, bytes => hexadecimal digits bytes
  | .character, bytes => .chars bytes
  | .float, bytes => .float (ofBytes bytes)
  | .double, bytes => .double (ofBytes bytes)
  | .unit, bytes => .wchars (units bytes)
  | .guid, bytes => .string (W.stringFromGUID bytes)
  | .ipv4, bytes => .string (W.inetNtoa (ofBytes bytes))
  | .ipv6, bytes => .string ((W.stringFromIPv6 bytes).getD "")

theorem units_wide (text : List UInt16) : units (wide text) = text := by
  have h := units_wide_append text []
  simpa [units] using h

variable {W : Conversions} {obj : Obj} {s : Scalar}

theorem Scalar.Encodes.length {bytes : List UInt8} (encodes : s.Encodes W obj bytes) :
    bytes.length = s.size := by
  cases s with
  | boolean | unsigned size | hex size digits | float | double | ipv4 =>
    obtain ⟨n, -, -, rfl⟩ := encodes
    exact length_toBytes ..
  | signed size =>
    obtain ⟨z, -, -, -, rfl⟩ := encodes
    exact length_toBytes ..
  | character =>
    obtain ⟨c, -, rfl⟩ := encodes
    rfl
  | unit =>
    obtain ⟨c, -, rfl⟩ := encodes
    exact length_wide _
  | guid | ipv6 => exact encodes.2

variable {pointerSize : Nat}

theorem Kind.Encodes.scalar_length {bytes : List UInt8}
    (encodes : (Kind.scalar s).Encodes W pointerSize obj bytes) :
    bytes.length = s.size := Scalar.Encodes.length encodes

theorem Scalar.Encodes.read {bytes : List UInt8} (encodes : s.Encodes W obj bytes) :
    s.read W bytes = obj := by
  cases s with
  | boolean | unsigned size | hex size digits | float | double | ipv4 =>
    obtain ⟨n, small, rfl, rfl⟩ := encodes
    simp only [Scalar.read, Etw.unsigned, hexadecimal, ofBytes_toBytes_of_lt small]
  | signed size =>
    obtain ⟨z, low, high, rfl, rfl⟩ := encodes
    exact congrArg Obj.int (signedOf_toBytes low high)
  | character =>
    obtain ⟨c, rfl, rfl⟩ := encodes
    rfl
  | unit =>
    obtain ⟨c, rfl, rfl⟩ := encodes
    exact congrArg Obj.wchars (units_wide [c])
  | guid | ipv6 => exact encodes.1.symm

/-! ### The cursor -/

/-- The cursor is in the data, and these are the bytes from it to the end. -/
def At (d : EventData) (cur : Cursor) (rest : List UInt8) : Prop :=
  ∃ p : Nat, cur = ⟨p, rest.length⟩ ∧ d.bytes.drop p = rest

section Cursor

variable {h : Host} {d : EventData} {cur : Cursor} {bytes rest : List UInt8}

theorem At.remain (at_ : At d cur rest) : cur.remain = rest.length := by
  obtain ⟨p, rfl, -⟩ := at_
  rfl

theorem At.small (at_ : At d cur rest) : rest.length < 2147483648 := by
  obtain ⟨p, -, rfl⟩ := at_
  have fits := d.fits
  rw [length_drop]
  omega

/-- A number of bytes is the same as a `size_t`. -/
theorem size_of_lt {n : Nat} (small : n < 2147483648) : h.size n = n := by
  cases h <;> simp only [Host.size, Host.bits] <;> omega

theorem At.size (at_ : At d cur rest) : h.size cur.remain = rest.length := by
  rw [at_.remain, size_of_lt at_.small]

theorem At.next (at_ : At d cur (bytes ++ rest)) :
    At d ⟨cur.bytesP + bytes.length, cur.remain - bytes.length⟩ rest := by
  obtain ⟨p, rfl, left⟩ := at_
  refine ⟨p + bytes.length, ?_, ?_⟩
  · simp only [length_append, Cursor.mk.injEq]
    omega
  · rw [← drop_drop, left, drop_left]

/-- What is read from inside the data. -/
theorem At.read (at_ : At d cur (bytes ++ rest)) :
    d.read cur.bytesP bytes.length = bytes := by
  obtain ⟨p, rfl, left⟩ := at_
  apply ext_getElem
  · simp [EventData.read]
  · intro k _ inside
    have there : d.bytes[p + k]? = some bytes[k] := by
      rw [← getElem?_drop, left, getElem?_append_left inside,
        getElem?_eq_getElem inside]
    have byte : d.byte ((p : Int) + k) = bytes[k] := by
      change d.bytes.getD (p + k) _ = _
      rw [getD_eq_getElem?_getD, there, Option.getD_some]
    simp only [EventData.read, getElem_map, getElem_range, byte]

theorem At.read_from {before : List UInt8} (at_ : At d cur (before ++ (bytes ++ rest))) :
    d.read (cur.bytesP + before.length) bytes.length = bytes := at_.next.read

theorem At.read_take (at_ : At d cur rest) {n : Nat} (inside : n ≤ rest.length) :
    d.read cur.bytesP n = rest.take n := by
  have here : At d cur (rest.take n ++ rest.drop n) := by rwa [take_append_drop]
  have size : (rest.take n).length = n := length_take_of_le inside
  rw [← here.read, size]

theorem At.read_all (at_ : At d cur rest) : d.read cur.bytesP rest.length = rest := by
  rw [at_.read_take (Nat.le_refl _), take_length]

end Cursor

/-! ### One field -/

/-- An object is made of the next `size` bytes, and these are eaten. -/
def Switch.Takes (s : Switch) (cur : Cursor) (obj : Obj) (size : Nat) : Prop :=
  ∃ eaten at_, s = .value obj eaten at_ ∧ at_.bytesP + eaten = cur.bytesP + size ∧
    at_.remain - eaten = cur.remain - size

section Field

variable {h : Host} {W : Conversions} {d : EventData} {cur : Cursor} {bytes rest : List UInt8}
  {obj : Obj} {size : Nat}

theorem read_result (start count : Nat) :
    (Etw.read d cur start count).result = d.read (cur.bytesP + start) count := rfl

theorem not_takes_done : ¬ Switch.Takes .done cur obj size := by
  rintro ⟨eaten, at_, equal, -⟩
  cases equal

theorem takes_value_iff {obj' : Obj} {eaten : Int} :
    Switch.Takes (.value obj' eaten cur) cur obj size ↔ obj' = obj ∧ eaten = size := by
  constructor
  · rintro ⟨eaten', at_, equal, moved, -⟩
    cases equal
    exact ⟨rfl, by omega⟩
  · rintro ⟨rfl, rfl⟩
    exact ⟨_, cur, rfl, rfl, rfl⟩

variable {f : List UInt8 → Obj} {n : Nat}

theorem taking_takes (at_ : At d cur (bytes ++ rest)) (length : bytes.length = size)
    (makes : f bytes = obj) :
    (taking d cur size f).result.Takes cur obj size := by
  subst length
  have same : d.read (cur.bytesP + (0 : Nat)) bytes.length = bytes := by
    rw [Int.natCast_zero, Int.add_zero, at_.read]
  exact takes_value_iff.mpr ⟨(congrArg f same).trans makes, rfl⟩

theorem fixed_takes (at_ : At d cur (bytes ++ rest)) (length : bytes.length = size)
    (makes : f bytes = obj) :
    (fixed h d cur size f).result.Takes cur obj size := by
  have enough : ¬ h.size cur.remain < size := by
    rw [at_.size, length_append]
    omega
  simp only [fixed, short, Traced.result_bind, Traced.result_pure, enough, decide_false,
    Bool.false_eq_true, if_false]
  exact taking_takes at_ length makes

theorem string_takes {text : List UInt8} (at_ : At d cur (text ++ [0] ++ rest)) (clean : 0 ∉ text) :
    (string d cur).result.Takes cur (.chars text) (text ++ [0]).length := by
  have total := at_.remain
  have found : (text ++ [0] ++ rest).takeWhile (· ≠ 0) = text := by
    rw [append_assoc, takeWhile_append_of_pos]
    · simp
    · intro c among
      exact decide_eq_true fun zero => clean (zero ▸ among)
  have max : cur.remain.toNat = (text ++ [0] ++ rest).length := by rw [total, Int.toNat_natCast]
  have before : text.length ≠ (text ++ [0] ++ rest).length := by simp
  simp only [string, objFromStringLimited, Traced.result_bind, Traced.result_pure, max,
    at_.read_all, found, if_neg before]
  refine takes_value_iff.mpr ⟨rfl, ?_⟩
  rw [total]
  simp only [length_append, length_singleton]
  omega

theorem units_take_even (bytes : List UInt8) :
    units (bytes.take (2 * (bytes.length / 2))) = units bytes := by
  fun_induction units bytes with
  | case1 a b rest ih =>
    have half : 2 * ((rest.length + 1 + 1) / 2) = 2 * (rest.length / 2) + 1 + 1 := by omega
    rw [length_cons, length_cons, half, take_succ_cons, take_succ_cons,
      units, ih]
  | case2 bytes short =>
    match bytes, short with
    | [], _ => rfl
    | [_], _ => simp [units]
    | a :: b :: rest, short => exact (short a b rest rfl).elim

/-- A wide string with an odd number of bytes behind it eats one too many. -/
theorem wstring_takes_iff {text : List UInt16}
    (at_ : At d cur (wide text ++ wide [0] ++ rest)) (clean : 0 ∉ text) :
    (wstring h d cur).result.Takes cur (.wchars text) (wide text ++ wide [0]).length ↔
      rest.length % 2 = 0 := by
  have total := at_.remain
  have length : (wide text ++ wide [0] ++ rest).length = 2 * (text.length + 1) + rest.length := by
    simp only [length_append, length_wide, length_singleton]
    omega
  have max : h.size cur.remain / 2 = text.length + 1 + rest.length / 2 := by
    rw [at_.size, length]
    omega
  have found : (units (d.read cur.bytesP (2 * (h.size cur.remain / 2)))).takeWhile (· ≠ 0) =
      text := by
    rw [at_.size, at_.read_take (by omega), units_take_even, append_assoc,
      units_wide_append, takeWhile_append_of_pos]
    · rw [units_wide_append]
      simp
    · intro c among
      exact decide_eq_true fun zero => clean (zero ▸ among)
  have before : text.length ≠ text.length + 1 + rest.length / 2 := by omega
  simp only [wstring, objFromWinCharsLimited, Traced.result_bind, Traced.result_pure, found]
  rw [max, if_neg before, takes_value_iff, total]
  simp only [length, true_and, length_append, length_wide, length_singleton]
  omega

theorem length_countBytes (reverse : Bool) (n : Nat) : (countBytes reverse n).length = 2 := by
  cases reverse <;> rfl

theorem count_countBytes (reverse : Bool) (small : n < 65536) :
    count reverse (countBytes reverse n) = n := by
  cases reverse with
  | false => exact ofBytes_toBytes_of_lt (show n < 256 ^ 2 from small)
  | true =>
    have high : n / 256 < 256 := by omega
    have low : n % 256 < 256 := Nat.mod_lt n (by decide)
    have swapped : ofBytes (countBytes true n) = n / 256 + 256 * (n % 256) := by
      change ofBytes [UInt8.ofNat (n / 256), UInt8.ofNat n] = _
      rw [ofBytes_cons, ofBytes_cons, UInt8.toNat_ofNat', UInt8.toNat_ofNat',
        Nat.mod_eq_of_lt high]
      rfl
    have first : (n / 256 + 256 * (n % 256)) % 256 = n / 256 := by
      rw [Nat.add_mul_mod_self_left, Nat.mod_eq_of_lt high]
    have second : (n / 256 + 256 * (n % 256)) / 256 = n % 256 := by
      rw [Nat.add_mul_div_left _ _ (by decide), Nat.div_eq_of_lt high, Nat.zero_add]
    simp only [count, swapped, if_true, first, second]
    omega

variable {blob sid : List UInt8} {reverse : Bool}

/-- What comes after the two bytes of the count. -/
theorem At.count (at_ : At d cur (countBytes reverse n ++ bytes ++ rest)) (small : n < 65536) :
    Etw.count reverse (d.read (cur.bytesP + (0 : Nat)) 2) = n ∧
      d.read (cur.bytesP + (2 : Nat)) bytes.length = bytes := by
  have length := length_countBytes reverse n
  rw [append_assoc] at at_
  have first := at_.read
  have second := at_.read_from
  rw [length] at first second
  refine ⟨?_, second⟩
  rw [Int.natCast_zero, Int.add_zero, first, count_countBytes reverse small]

theorem stringcounted_takes {text : List UInt8}
    (at_ : At d cur (countBytes reverse text.length ++ text ++ rest)) (small : text.length < 65536) :
    (stringcounted d reverse cur).result.Takes cur (.chars text)
      (countBytes reverse text.length ++ text).length := by
  have total := at_.remain
  obtain ⟨counted, behind⟩ := at_.count small
  simp only [length_append, length_countBytes] at total ⊢
  have enough : ¬ cur.remain < 2 := by omega
  have whole : ¬ cur.remain < 2 + (text.length : Int) := by omega
  simp only [stringcounted, if_neg enough, Traced.result_bind, Traced.result_pure, Etw.read,
    counted, if_neg whole, behind]
  refine takes_value_iff.mpr ⟨rfl, ?_⟩
  omega

theorem wstringcounted_takes {text : List UInt16}
    (at_ : At d cur (countBytes reverse text.length ++ wide text ++ rest))
    (small : text.length < 65536) :
    (wstringcounted h d reverse cur).result.Takes cur (.wchars text)
      (countBytes reverse text.length ++ wide text).length := by
  have total := at_.remain
  have fits := at_.small
  obtain ⟨counted, behind⟩ := at_.count small
  simp only [length_append, length_countBytes, length_wide] at total fits behind ⊢
  have enough : ¬ cur.remain < 2 := by omega
  have left : cur.remain - 2 = ((2 * text.length + rest.length : Nat) : Int) := by omega
  have whole : ¬ h.size (cur.remain - 2) < 2 * text.length := by
    rw [left, size_of_lt (by omega)]
    omega
  simp only [wstringcounted, if_neg enough, Traced.result_bind, Etw.read, counted, if_neg whole,
    Traced.result_pure, behind, units_wide]
  refine takes_value_iff.mpr ⟨rfl, ?_⟩
  omega

theorem size_add_four (small : n < 2147483648) :
    (h.size n + 4) % 2 ^ h.bits = n + 4 := by
  rw [size_of_lt small]
  cases h <;> exact Nat.mod_eq_of_lt (by simp only [Host.bits]; omega)

theorem variantOfLength_takes {length : List UInt8} (four : length.length = 4)
    (at_ : At d cur (length ++ (blob ++ rest))) :
    (variantOfLength h d cur blob.length).result.Takes cur (.bytes blob) (4 + blob.length) := by
  have total := at_.size (h := h)
  have fits := at_.small
  simp only [length_append, four] at total fits
  have behind := at_.read_from
  rw [four] at behind
  have whole : ¬ h.size cur.remain < (h.size blob.length + 4) % 2 ^ h.bits := by
    rw [total, size_add_four (by omega)]
    omega
  unfold variantOfLength
  simp only [Traced.result_bind]
  rw [if_neg whole]
  exact takes_value_iff.mpr ⟨congrArg Obj.bytes behind, by omega⟩

theorem objectvariant_takes (at_ : At d cur (toBytes 4 blob.length ++ (blob ++ rest))) :
    (objectvariant h d cur).result.Takes cur (.bytes blob)
      (toBytes 4 blob.length ++ blob).length := by
  have fits := at_.small
  simp only [length_append, length_toBytes] at fits
  have front : d.read (cur.bytesP + (0 : Nat)) 4 = toBytes 4 blob.length := by
    have front := at_.read
    rwa [length_toBytes, ← Int.add_zero cur.bytesP] at front
  have length : Base.toInt (ofBytes (toBytes 4 blob.length)) = blob.length := by
    rw [ofBytes_toBytes_of_lt (show blob.length < 256 ^ 4 by omega)]
    unfold Base.toInt
    omega
  -- rewritten, not unfolded: the kernel must not evaluate the comparison in the branch
  rw [objectvariant, Traced.result_bind, read_result, front, length, length_append,
    length_toBytes]
  exact variantOfLength_takes (length_toBytes ..) at_

/-- What is not counted goes on to the end of the data. -/
theorem stringnotcounted_takes_iff (at_ : At d cur (bytes ++ rest)) :
    (stringnotcounted d cur).result.Takes cur (.chars bytes) bytes.length ↔ rest = [] := by
  have total := at_.remain
  have max : cur.remain.toNat = (bytes ++ rest).length := by rw [total, Int.toNat_natCast]
  have all := at_.read_all
  rw [← max, ← Int.add_zero cur.bytesP] at all
  simp only [stringnotcounted, Traced.result_bind, Traced.result_pure, read_result,
    Int.natCast_zero, all, takes_value_iff]
  rw [total, length_append]
  constructor
  · rintro ⟨-, length⟩
    exact length_eq_zero_iff.mp (by omega)
  · rintro rfl
    simp

theorem wstringnotcounted_takes_iff {text : List UInt16} (at_ : At d cur (wide text ++ rest)) :
    (wstringnotcounted h d cur).result.Takes cur (.wchars text) (wide text).length ↔
      rest = [] := by
  have total := at_.remain
  have half := at_.read_take (n := 2 * ((wide text ++ rest).length / 2)) (by omega)
  rw [← at_.size (h := h), ← Int.add_zero cur.bytesP] at half
  simp only [wstringnotcounted, Traced.result_bind, Traced.result_pure, read_result,
    Int.natCast_zero, half, takes_value_iff]
  rw [at_.size, units_take_even, units_wide_append, total, length_append]
  constructor
  · rintro ⟨-, length⟩
    exact length_eq_zero_iff.mp (by omega)
  · rintro rfl
    simp [units]

/-! ### SIDs -/

theorem IsSid.length_bounds (isSid : IsSid sid) :
    8 ≤ sid.length ∧ sid.length ≤ 68 := by
  obtain ⟨n, -, few, length⟩ := isSid.subAuthorities
  unfold sidLength at length
  omega

/-- The empty SID. -/
theorem objectsid_takes_empty {pointerSize : Int} (at_ : At d cur (toBytes 4 0 ++ rest)) :
    (objectsid h W d pointerSize cur).result.Takes cur (.string "") (toBytes 4 0).length := by
  have total := at_.size (h := h)
  simp only [length_append, length_toBytes] at total
  have enough : ¬ h.size cur.remain < 4 := by omega
  have front := at_.read
  rw [length_toBytes, ← Int.add_zero cur.bytesP] at front
  simp only [objectsid, short, Traced.result_bind, Traced.result_pure, enough, decide_false,
    Bool.false_eq_true, if_false, read_result, Int.natCast_zero, front]
  rw [ofBytes_toBytes, if_pos (Nat.zero_mod _)]
  exact takes_value_iff.mpr ⟨rfl, rfl⟩

/-- A SID has to have the size of one with a sub-authority. -/
theorem behindTokenUser_takes_iff (isSid : IsSid sid) (at_ : At d cur (sid ++ rest)) :
    (behindTokenUser h W d cur).result.Takes cur (.string ((W.stringFromSid sid).getD ""))
      sid.length ↔ 12 ≤ sid.length + rest.length := by
  have total := at_.size (h := h)
  have remain := at_.remain
  obtain ⟨least, most⟩ := isSid.length_bounds
  rw [length_append] at total remain
  by_cases enough : 12 ≤ sid.length + rest.length
  · have long : ¬ h.size cur.remain < 12 := by omega
    generalize copied : (if h.size cur.remain > 68 then 68 else h.size cur.remain) = n
    have inside : sid.length ≤ n ∧ n ≤ (sid ++ rest).length := by
      rw [length_append]
      split at copied <;> omega
    have buf := at_.read_take inside.2
    rw [← Int.add_zero cur.bytesP] at buf
    have byte (k : Nat) (early : k < 8) : ((sid ++ rest).take n)[k]? = sid[k]? := by
      rw [getElem?_take_of_lt (by omega), getElem?_append_left (by omega)]
    obtain ⟨count, second, few, length⟩ := isSid.subAuthorities
    have revision : ((sid ++ rest).take n).getD 0 0 = 1 := by
      rw [getD_eq_getElem?_getD, byte 0 (by decide), isSid.revision, Option.getD_some]
    have subAuthorityCount : ((sid ++ rest).take n).getD 1 0 = count := by
      rw [getD_eq_getElem?_getD, byte 1 (by decide), second, Option.getD_some]
    have whole : ((sid ++ rest).take n).take sid.length = sid := by
      rw [take_take, Nat.min_eq_left inside.1, take_left]
    have sane : ¬ ((1 : UInt8) ≠ 1 ∨ 15 < count.toNat) := by
      rintro (other | many)
      · exact other rfl
      · omega
    have fits : ¬ (68 < h.size (sid.length : Int) ∨ cur.remain < sid.length) := by
      rw [size_of_lt (by omega)]
      omega
    simp only [behindTokenUser, short, Traced.result_bind, Traced.result_pure, long, decide_false,
      Bool.false_eq_true, if_false, read_result, Int.natCast_zero, copied, buf, revision,
      subAuthorityCount, ← length, if_neg sane, if_neg fits, whole]
    exact iff_of_true (takes_value_iff.mpr ⟨rfl, rfl⟩) enough
  · have less : h.size cur.remain < 12 := by omega
    simp only [behindTokenUser, short, Traced.result_bind, Traced.result_pure, less, decide_true,
      if_true]
    exact iff_of_false not_takes_done enough

theorem takes_shift_iff {s : Switch} {k : Nat} :
    s.Takes ⟨cur.bytesP + k, cur.remain - k⟩ obj size ↔ s.Takes cur obj (k + size) := by
  constructor
  · rintro ⟨eaten, at_, equal, moved, left⟩
    dsimp only at moved left
    exact ⟨eaten, at_, equal, by omega, by omega⟩
  · rintro ⟨eaten, at_, equal, moved, left⟩
    exact ⟨eaten, at_, equal, by dsimp only; omega, by dsimp only; omega⟩

/-- A SID must not begin like the empty one. -/
theorem objectsid_takes_iff {pointerSize : Nat} {user sid : List UInt8} (four : 4 ≤ pointerSize)
    (length : user.length = pointerSize * 2) (isSid : IsSid sid)
    (at_ : At d cur (user ++ (sid ++ rest))) :
    (objectsid h W d pointerSize cur).result.Takes cur
      (.string ((W.stringFromSid sid).getD "")) (user ++ sid).length ↔
      ofBytes (user.take 4) ≠ 0 ∧ 12 ≤ sid.length + rest.length := by
  have total := at_.size (h := h)
  rw [length_append] at total
  have enough : ¬ h.size cur.remain < 4 := by omega
  have front := at_.read_take (n := 4) (by rw [length_append]; omega)
  rw [take_append_of_le_length (by omega), ← Int.add_zero cur.bytesP] at front
  simp only [objectsid, short, Traced.result_bind, Traced.result_pure, enough, decide_false,
    Bool.false_eq_true, if_false, read_result, Int.natCast_zero, front]
  by_cases empty : ofBytes (user.take 4) = 0
  · rw [if_pos empty]
    refine iff_of_false ?_ fun condition => condition.1 empty
    intro takes
    have eaten := (takes_value_iff.mp takes).2
    rw [length_append] at eaten
    omega
  · have moved : (pointerSize : Int) * 2 = (user.length : Int) := by omega
    rw [if_neg empty, moved]
    simp only [Traced.result_bind]
    rw [length_append, ← takes_shift_iff, behindTokenUser_takes_iff isSid at_.next]
    exact ⟨fun room => ⟨empty, room⟩, And.right⟩

/-! ### The switch -/

variable {mof : MofType} {pointerSize : Nat}

/-- A scalar is read back whatever follows it. -/
theorem switch_scalar {s : Scalar} (kind : mof.kind = some (.scalar s))
    (encodes : s.Encodes W obj bytes) (at_ : At d cur (bytes ++ rest)) :
    (switch h W d pointerSize cur mof).result.Takes cur obj bytes.length := by
  have length := encodes.length
  have makes := encodes.read
  rw [length]
  cases mof with
  | sint8 | uint8 | csint8 | cuint8 =>
    cases kind
    exact taking_takes at_ length makes
  | real32 | real64 =>
    cases kind
    have enough := at_.remain
    simp only [Scalar.size] at length
    rw [length_append, length] at enough
    rw [switch, if_neg (by omega)]
    exact taking_takes at_ length makes
  | boolean | sint16 | uint16 | sint32 | uint32 | sint64 | uint64 | xsint16 | xuint16 | xsint32
  | xuint32 | xsint64 | xuint64 | char16 | uint8guid | objectguid | objectipaddr | objectipaddrv6
  | uint64wmitime | objectwmitime | uint16port | objectport =>
    cases kind
    exact fixed_takes at_ length makes
  | string | wstring | stringcounted | stringreversecounted | wstringcounted
  | wstringreversecounted | object | objectvariant | objectsid | datetime | stringnotcounted
  | wstringnotcounted | pointer => cases kind

theorem pointer_takes (width : pointerSize = 4 ∨ pointerSize = 8)
    (encodes : Kind.pointer.Encodes W pointerSize obj bytes) (at_ : At d cur (bytes ++ rest)) :
    (switch h W d pointerSize cur .pointer).result.Takes cur obj bytes.length := by
  obtain ⟨n, small, rfl, rfl⟩ := encodes
  have front := at_.read
  rw [length_toBytes, ← Int.add_zero cur.bytesP] at front
  rw [length_toBytes]
  rcases width with rfl | rfl
  · rw [switch, if_neg (by decide)]
    simp only [Traced.result_bind, Traced.result_pure, read_result, Int.natCast_zero, front,
      hexadecimal, ofBytes_toBytes_of_lt small]
    exact takes_value_iff.mpr ⟨rfl, rfl⟩
  · rw [switch, if_pos (by decide)]
    simp only [Traced.result_bind, Traced.result_pure, read_result, Int.natCast_zero, front,
      hexadecimal, ofBytes_toBytes_of_lt small]
    exact takes_value_iff.mpr ⟨rfl, rfl⟩

theorem sid_takes_iff (width : pointerSize = 4 ∨ pointerSize = 8)
    (encodes : Kind.sid.Encodes W pointerSize obj bytes) (at_ : At d cur (bytes ++ rest)) :
    (objectsid h W d pointerSize cur).result.Takes cur obj bytes.length ↔
      Kind.sid.Fits pointerSize bytes rest := by
  rcases encodes with ⟨rfl, rfl⟩ | ⟨user, sid, length, isSid, rfl, rfl⟩
  · exact iff_of_true (objectsid_takes_empty at_) (.inl (length_toBytes ..))
  · have four : 4 ≤ pointerSize := by omega
    have long := isSid.length_bounds.1
    rw [append_assoc] at at_
    rw [objectsid_takes_iff four length isSid at_]
    simp only [Kind.Fits, length_append]
    rw [take_append_of_le_length (by omega)]
    constructor
    · rintro ⟨begins, room⟩
      exact .inr ⟨begins, by omega⟩
    · rintro (short | ⟨begins, room⟩)
      · omega
      · exact ⟨begins, by omega⟩

/-- A field is read back, and exactly its own bytes are eaten, if and only if it
fits what follows it. -/
theorem switch_takes_iff {K : Kind} (width : pointerSize = 4 ∨ pointerSize = 8)
    (kind : mof.kind = some K) (encodes : K.Encodes W pointerSize obj bytes)
    (at_ : At d cur (bytes ++ rest)) (left : bytes ++ rest ≠ []) :
    (switch h W d pointerSize cur mof).result.Takes cur obj bytes.length ↔
      K.Fits pointerSize bytes rest := by
  cases mof with
  | string =>
    cases kind
    obtain ⟨text, clean, rfl, rfl⟩ := encodes
    exact iff_of_true (string_takes at_ clean) trivial
  | wstring =>
    cases kind
    obtain ⟨text, clean, rfl, rfl⟩ := encodes
    exact wstring_takes_iff at_ clean
  | stringcounted | stringreversecounted =>
    cases kind
    obtain ⟨text, small, rfl, rfl⟩ := encodes
    exact iff_of_true (stringcounted_takes at_ small) trivial
  | wstringcounted | wstringreversecounted =>
    cases kind
    obtain ⟨text, small, rfl, rfl⟩ := encodes
    exact iff_of_true (wstringcounted_takes at_ small) trivial
  | objectvariant =>
    cases kind
    obtain ⟨blob, rfl, rfl⟩ := encodes
    rw [append_assoc] at at_
    exact iff_of_true (objectvariant_takes at_) trivial
  | objectsid =>
    cases kind
    exact sid_takes_iff width encodes at_
  | stringnotcounted =>
    cases kind
    subst encodes
    refine (stringnotcounted_takes_iff at_).trans ⟨?_, And.right⟩
    rintro rfl
    exact ⟨fun none_ => left (by rw [none_]; rfl), rfl⟩
  | wstringnotcounted =>
    cases kind
    obtain ⟨text, rfl, rfl⟩ := encodes
    refine (wstringnotcounted_takes_iff at_).trans ⟨?_, And.right⟩
    rintro rfl
    exact ⟨fun none_ => left (by rw [none_]; rfl), rfl⟩
  | pointer =>
    cases kind
    exact iff_of_true (pointer_takes width encodes at_) trivial
  | object | datetime => cases kind
  | boolean | sint8 | uint8 | csint8 | cuint8 | sint16 | uint16 | sint32 | uint32 | sint64
  | uint64 | xsint16 | xuint16 | xsint32 | xuint32 | xsint64 | xuint64 | real32 | real64 | char16
  | uint8guid | objectguid | objectipaddr | objectipaddrv6 | uint64wmitime | objectwmitime
  | uint16port | objectport =>
    cases kind
    exact iff_of_true (switch_scalar rfl encodes at_) trivial

end Field

/-- Only what is not counted can be empty. -/
theorem fits_ne_nil {mof : MofType} {K : Kind} {bytes rest : List UInt8} (width : 0 < pointerSize)
    (supported : mof.kind = some K) (encodes : K.Encodes W pointerSize obj bytes)
    (fits : K.Fits pointerSize bytes rest) :
    bytes ≠ [] := by
  rintro rfl
  cases mof with
  | string =>
    cases supported
    obtain ⟨text, -, -, nil⟩ := encodes
    have length := congrArg length nil
    rw [length_append, length_nil] at length
    cases length
  | wstring =>
    cases supported
    obtain ⟨text, -, -, nil⟩ := encodes
    have length := congrArg length nil
    rw [length_append, length_wide [0], length_nil] at length
    cases length
  | stringcounted | stringreversecounted | wstringcounted | wstringreversecounted =>
    cases supported
    obtain ⟨text, -, -, nil⟩ := encodes
    have length := congrArg length nil
    rw [length_append, length_countBytes, length_nil] at length
    omega
  | objectvariant =>
    cases supported
    obtain ⟨blob, -, nil⟩ := encodes
    have length := congrArg length nil
    rw [length_append, length_toBytes, length_nil] at length
    omega
  | objectsid =>
    cases supported
    obtain ⟨-, nil⟩ | ⟨user, sid, -, isSid, -, nil⟩ := encodes
    · cases nil
    · have long := isSid.length_bounds.1
      rw [(append_eq_nil_iff.mp nil.symm).2] at long
      exact absurd long (by decide)
  | pointer =>
    cases supported
    obtain ⟨n, -, -, nil⟩ := encodes
    have length := congrArg length nil
    rw [length_toBytes, length_nil] at length
    omega
  | stringnotcounted | wstringnotcounted =>
    cases supported
    exact fits.1 rfl
  | object | datetime => cases supported
  | boolean | sint8 | uint8 | csint8 | cuint8 | sint16 | uint16 | sint32 | uint32 | sint64
  | uint64 | xsint16 | xuint16 | xsint32 | xuint32 | xsint64 | xuint64 | real32 | real64 | char16
  | uint8guid | objectguid | objectipaddr | objectipaddrv6 | uint64wmitime | objectwmitime
  | uint16port | objectport =>
    cases supported
    cases Kind.Encodes.scalar_length encodes

end Twapi.Etw
