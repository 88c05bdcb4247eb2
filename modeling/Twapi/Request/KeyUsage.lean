import Twapi.CryptObject.Reading
import Twapi.Lib.Table

/-!
Key usages, `tcl/crypto.tcl`: `_make_keyusage_ext` and `_cert_decode_keyusage`.

* `keyusageBytes` — the bits of a list of usages.
* `certDecodeKeyusage` — the usages of a byte string. For an extension it is given a
  list of the bytes and the number of unused bits instead, and takes the string of that.
* `sameUsages_iff` says of which bit strings the usages are those whose bits are set.
-/

namespace Twapi.Request

open CryptObject Base List

def keyusageByte1 : List (String × UInt8) :=
  [("digital_signature", 0x80), ("non_repudiation", 0x40), ("key_encipherment", 0x20),
   ("data_encipherment", 0x10), ("key_agreement", 0x08), ("key_cert_sign", 0x04),
   ("crl_sign", 0x02), ("encipher_only", 0x01)]

def keyusageByte2 : List (String × UInt8) := [("decipher_only", 0x80)]

/-- The loop of `_make_keyusage_ext`; no usage has another name. -/
def keyusageBytes : List String → UInt8 × UInt8 → Option (UInt8 × UInt8)
  | [], bytes => some bytes
  | usage :: rest, (byte1, byte2) =>
    match keyusageByte1.lookup usage with
    | some val => keyusageBytes rest (byte1 ||| val, byte2)
    | none =>
      match keyusageByte2.lookup usage with
      | some val => keyusageBytes rest (byte1, byte2 ||| val)
      | none => none

def usagesOf (byte1 byte2 : UInt8) : List String :=
  (keyusageByte1.filter fun entry => byte1 &&& entry.2 ≠ 0).map Prod.fst ++
    (keyusageByte2.filter fun entry => byte2 &&& entry.2 ≠ 0).map Prod.fst

/-- `_cert_decode_keyusage`; it is an error if there is no second byte. -/
def certDecodeKeyusage (bin : Bytes) : Option Obj :=
  match bin with
  | [] => some (.atom "*")
  | [_] => none
  | byte1 :: byte2 :: _ => some (.list ((usagesOf byte1 byte2).map .atom))

/-- `CertGetIntendedKeyUsage`, as it is called: the first two bytes. -/
def intendedKeyUsage (data : Bytes) : Bytes := [data.getD 0 0, data.getD 1 0]

/-- Both are lists with the same elements. -/
def SameUsages (usages usages' : Option Obj) : Prop :=
  ∃ xs ys, usages = some (.list xs) ∧ usages' = some (.list ys) ∧
    ∀ u, u ∈ xs.map Obj.text ↔ u ∈ ys.map Obj.text

/-- The string of a list that begins with a character in this form begins with the same
byte, and of the byte that follows the same bit is looked at. -/
def StartsAs (form : Form) (c : Char) (byte2 : UInt8) : Prop :=
  match form with
  | .bare => True
  | .brace => c = '\x7b' ∧ byte2 &&& 0x80 = 0
  | .escape => c ≠ '#' ∧ (escapeChar true c = [c] ∨ c = '\\' ∧ byte2 &&& 0x80 = 0)
  | .mask => c ≠ '#' ∧ (escapeChar false c = [c] ∨ c = '\\' ∧ byte2 &&& 0x80 = 0)

def Legible (data : Bytes) : Prop :=
  match data with
  | [] => False
  | byte1 :: rest => StartsAs (formOf true (data.map charOf)) (charOf byte1) (rest.headD 0)

instance (form : Form) (c : Char) (byte2 : UInt8) : Decidable (StartsAs form c byte2) :=
  match form with
  | .bare => inferInstanceAs (Decidable True)
  | .brace => inferInstanceAs (Decidable (_ ∧ _))
  | .escape => inferInstanceAs (Decidable (_ ∧ _))
  | .mask => inferInstanceAs (Decidable (_ ∧ _))

instance (data : Bytes) : Decidable (Legible data) :=
  match data with
  | [] => inferInstanceAs (Decidable False)
  | byte1 :: rest =>
    inferInstanceAs (Decidable
      (StartsAs (formOf true ((byte1 :: rest).map charOf)) (charOf byte1) (rest.headD 0)))

def quotedBytes : List UInt8 :=
  [0x09, 0x0a, 0x0b, 0x0c, 0x0d, 0x20, 0x22, 0x23, 0x24, 0x3b, 0x5b, 0x5c, 0x5d, 0x7b, 0x7d]

theorem legible_pair : ((range 256).all fun n => [(0 : UInt8), 0x80].all fun b2 =>
    decide (Legible [UInt8.ofNat n, b2]) == !quotedBytes.contains (UInt8.ofNat n)) = true := by
  decide +kernel

/-! ### Bits and names -/

theorem mem_usagesOf (byte1 byte2 : UInt8) (u : String) :
    u ∈ usagesOf byte1 byte2 ↔
      (∃ entry ∈ keyusageByte1, byte1 &&& entry.2 ≠ 0 ∧ entry.1 = u) ∨
        ∃ entry ∈ keyusageByte2, byte2 &&& entry.2 ≠ 0 ∧ entry.1 = u := by
  simp only [usagesOf, mem_append, mem_map, mem_filter, decide_eq_true_eq, and_assoc]

theorem entry_eq_of_name : ∀ entry ∈ keyusageByte1, ∀ other ∈ keyusageByte1,
    other.1 = entry.1 → other = entry := by decide

theorem name_ne : ∀ entry ∈ keyusageByte1, ∀ other ∈ keyusageByte2, other.1 ≠ entry.1 := by decide

variable {entry : String × UInt8} {byte1 byte2 : UInt8}

theorem mem_usagesOf_byte1 (byte1 byte2 : UInt8) (listed : entry ∈ keyusageByte1) :
    entry.1 ∈ usagesOf byte1 byte2 ↔ byte1 &&& entry.2 ≠ 0 := by
  rw [mem_usagesOf]
  constructor
  · rintro (⟨other, among, set, name⟩ | ⟨other, among, -, name⟩)
    · rwa [entry_eq_of_name entry listed other among name] at set
    · exact absurd name (name_ne entry listed other among)
  · intro set
    exact .inl ⟨entry, listed, set, rfl⟩

theorem mem_usagesOf_byte2 :
    "decipher_only" ∈ usagesOf byte1 byte2 ↔ byte2 &&& 0x80 ≠ 0 := by
  rw [mem_usagesOf]
  constructor
  · rintro (⟨other, among, -, name⟩ | ⟨other, among, set, -⟩)
    · exact absurd name.symm (name_ne other among ("decipher_only", 0x80) (by decide))
    · cases mem_singleton.mp among
      exact set
  · intro set
    exact .inr ⟨("decipher_only", 0x80), mem_singleton_self _, set, rfl⟩

/-- Every bit of a byte has a name. -/
theorem named_bit : ∀ i < 8, ∃ entry ∈ keyusageByte1, entry.2.toBitVec = BitVec.twoPow 8 i := by
  decide

theorem byte_eq_iff {x y : UInt8} :
    x = y ↔ ∀ entry ∈ keyusageByte1, x &&& entry.2 ≠ 0 ↔ y &&& entry.2 ≠ 0 := by
  have bit (z m : UInt8) (i : Nat) (is : m.toBitVec = BitVec.twoPow 8 i) (small : i < 8) :
      z &&& m ≠ 0 ↔ z.toBitVec.getLsbD i = true := by
    rw [ne_eq, ← UInt8.toBitVec_inj, UInt8.toBitVec_and, is, BitVec.and_twoPow]
    cases z.toBitVec.getLsbD i with
    | false => simp
    | true =>
      refine iff_of_true (fun zero => ?_) rfl
      have set := congrArg (fun b => b.getLsbD i) zero
      simp [small] at set
  constructor
  · rintro rfl entry -
    exact Iff.rfl
  · intro same
    apply UInt8.toBitVec_inj.mp
    apply BitVec.eq_of_getLsbD_eq
    intro i small
    obtain ⟨entry, listed, is⟩ := named_bit i small
    have equal := same entry listed
    rw [bit x entry.2 i is small, bit y entry.2 i is small] at equal
    exact Bool.eq_iff_iff.mpr equal

theorem usages_same_iff (x y z w : UInt8) :
    (∀ u, u ∈ usagesOf x y ↔ u ∈ usagesOf z w) ↔ x = z ∧ (y &&& 0x80 = 0 ↔ w &&& 0x80 = 0) := by
  constructor
  · intro same
    constructor
    · refine byte_eq_iff.mpr fun entry listed => ?_
      rw [← mem_usagesOf_byte1 x y listed, ← mem_usagesOf_byte1 z w listed]
      exact same entry.1
    · have decipher := same "decipher_only"
      rw [mem_usagesOf_byte2, mem_usagesOf_byte2] at decipher
      exact not_iff_not.mp decipher
  · rintro ⟨rfl, bit⟩ u
    rw [mem_usagesOf, mem_usagesOf]
    refine or_congr_right ?_
    have one : ∀ entry ∈ keyusageByte2, y &&& entry.2 ≠ 0 ↔ w &&& entry.2 ≠ 0 := by
      intro entry listed
      cases mem_singleton.mp listed
      exact not_congr bit
    constructor
    · rintro ⟨entry, listed, set, name⟩
      exact ⟨entry, listed, (one entry listed).mp set, name⟩
    · rintro ⟨entry, listed, set, name⟩
      exact ⟨entry, listed, (one entry listed).mpr set, name⟩

/-! ### Strings of lists -/

theorem byteOf_eq_iff {d : Char} (small : d.toNat < 256) (b : UInt8) :
    byteOf d = b ↔ charOf b = d := by
  constructor
  · rintro rfl
    exact (charOf_byteOf_iff d).mpr small
  · rintro rfl
    exact byteOf_charOf b

theorem low_bit {b : UInt8} (low : b.toNat < 128) : b &&& 0x80 = 0 := by
  have bit : (0x80 : UInt8).toBitVec = BitVec.twoPow 8 7 := by decide
  have clear : b.toBitVec.getLsbD 7 = false := Nat.testBit_lt_two_pow low
  apply UInt8.toBitVec_inj.mp
  rw [UInt8.toBitVec_and, bit, BitVec.and_twoPow, clear]
  rfl

theorem escapeChar_cases (braces : Bool) (c : Char) :
    escapeChar braces c = [c] ∨ c.toNat < 128 ∧ ∃ d, escapeChar braces c = ['\\', d] := by
  by_cases plain : escapeChar braces c = [c]
  · exact .inl plain
  · refine .inr ?_
    unfold escapeChar at plain ⊢
    split_ifs at plain ⊢ with h1 h2 h3 h4 h5 h6 h7
    · subst h1
      exact ⟨by decide, _, rfl⟩
    · subst h2
      exact ⟨by decide, _, rfl⟩
    · subst h3
      exact ⟨by decide, _, rfl⟩
    · subst h4
      exact ⟨by decide, _, rfl⟩
    · subst h5
      exact ⟨by decide, _, rfl⟩
    · refine ⟨?_, _, rfl⟩
      simp only [Bool.or_eq_true, decide_eq_true_eq] at h6
      obtain ((((((rfl | rfl) | rfl) | rfl) | rfl) | rfl) | rfl) := h6 <;> decide
    · refine ⟨?_, _, rfl⟩
      simp only [Bool.and_eq_true, Bool.or_eq_true, decide_eq_true_eq] at h7
      obtain ⟨-, rfl | rfl⟩ := h7 <;> decide
    · exact absurd rfl plain

/-- The usages of a value that is taken for bytes. -/
theorem certDecodeKeyusage_of_chars {o : Obj} {x y : Char} {rest : List Char}
    (chars : o.text.toList = x :: y :: rest) :
    certDecodeKeyusage o.toBytes = some (.list ((usagesOf (byteOf x) (byteOf y)).map .atom)) := by
  rw [Obj.toBytes, chars]
  rfl

theorem sameUsages_of_chars {o : Obj} {x y : Char} {rest : List Char}
    (chars : o.text.toList = x :: y :: rest) (data : Bytes) :
    SameUsages (certDecodeKeyusage o.toBytes) (certDecodeKeyusage (intendedKeyUsage data)) ↔
      byteOf x = data.getD 0 0 ∧ (byteOf y &&& 0x80 = 0 ↔ data.getD 1 0 &&& 0x80 = 0) := by
  have texts (names : List String) : (names.map Obj.atom).map Obj.text = names := by
    rw [map_map]
    exact map_id names
  rw [← usages_same_iff, certDecodeKeyusage_of_chars chars]
  constructor
  · rintro ⟨xs, ys, first, second, same⟩
    cases first
    cases second
    rwa [texts, texts] at same
  · intro same
    refine ⟨_, _, rfl, rfl, ?_⟩
    rwa [texts, texts]

/-- The string of the value of a bit string, which is a list. -/
theorem chars_obj (byte1 : UInt8) (bytes : Bytes) (unused : DWORD) :
    (BitBlob.obj ⟨byte1 :: bytes, unused⟩).text.toList =
      convertElement true ((byte1 :: bytes).map charOf) ++
        ' ' :: convertElement false (Obj.ofDWORD unused).text.toList := by
  have text : (BitBlob.obj ⟨byte1 :: bytes, unused⟩).text =
      String.ofList (formatList [(Obj.ofBytes (byte1 :: bytes)).text.toList,
        (Obj.ofDWORD unused).text.toList]) := rfl
  have chars : (Obj.ofBytes (byte1 :: bytes)).text.toList = (byte1 :: bytes).map charOf :=
    String.toList_ofList
  rw [text, String.toList_ofList, chars, formatList, flatMap_cons, flatMap_nil,
    append_nil]

/-- The second bit of a byte that is looked at. -/
def Alike (y : Char) (byte2 : UInt8) : Prop := byteOf y &&& 0x80 = 0 ↔ byte2 &&& 0x80 = 0

/-- What follows the first byte where that is as it is: the second one, a backslash, or
the space before the number of unused bits. -/
theorem next_escaped (braces : Bool) (bytes : Bytes) (more : List Char) :
    ∃ y rest, (bytes.map charOf).flatMap (escapeChar braces) ++ ' ' :: more = y :: rest ∧
      Alike y (bytes.headD 0) := by
  cases bytes with
  | nil => exact ⟨' ', more, rfl, iff_of_true (by decide) (by decide)⟩
  | cons b bytes =>
    rw [map_cons, flatMap_cons]
    obtain plain | ⟨low, d, escaped⟩ := escapeChar_cases braces (charOf b)
    · rw [plain]
      refine ⟨charOf b, _, rfl, ?_⟩
      rw [Alike, byteOf_charOf]
      exact Iff.rfl
    · rw [escaped]
      rw [toNat_charOf] at low
      exact ⟨'\\', _, rfl, iff_of_true (by decide) (low_bit low)⟩

theorem next_plain (bytes : Bytes) (more : List Char) :
    ∃ y rest, bytes.map charOf ++ ' ' :: more = y :: rest ∧ Alike y (bytes.headD 0) := by
  cases bytes with
  | nil => exact ⟨' ', more, rfl, iff_of_true (by decide) (by decide)⟩
  | cons b bytes =>
    refine ⟨charOf b, bytes.map charOf ++ ' ' :: more, rfl, ?_⟩
    rw [Alike, byteOf_charOf]
    exact Iff.rfl

/-- Where backslashes are written, with one before a `#` that leads. -/
theorem starts_escaped (braces : Bool) (byte1 : UInt8) (bytes : Bytes) (more : List Char) :
    ∃ x y rest, (if (charOf byte1 :: bytes.map charOf).head? = some '#' then ['\\'] else []) ++
        (charOf byte1 :: bytes.map charOf).flatMap (escapeChar braces) ++ ' ' :: more =
          x :: y :: rest ∧
      (byteOf x = byte1 ∧ Alike y (bytes.headD 0) ↔
        charOf byte1 ≠ '#' ∧ (escapeChar braces (charOf byte1) = [charOf byte1] ∨
          charOf byte1 = '\\' ∧ bytes.headD 0 &&& 0x80 = 0)) := by
  rw [head?_cons, flatMap_cons]
  by_cases hash : charOf byte1 = '#'
  · have plain : escapeChar braces '#' = ['#'] := by cases braces <;> rfl
    rw [hash, if_pos rfl, plain]
    refine ⟨'\\', _, _, rfl, iff_of_false ?_ fun legible => legible.1 rfl⟩
    rintro ⟨same, -⟩
    rw [byteOf_eq_iff (by decide), hash] at same
    exact absurd same (by decide)
  · rw [if_neg fun is => hash (Option.some.inj is), nil_append]
    obtain plain | ⟨-, d, escaped⟩ := escapeChar_cases braces (charOf byte1)
    · obtain ⟨y, rest, next, alike⟩ := next_escaped braces bytes more
      rw [plain]
      refine ⟨charOf byte1, y, rest, congrArg (charOf byte1 :: ·) next, ?_⟩
      exact iff_of_true ⟨byteOf_charOf byte1, alike⟩ ⟨hash, .inl rfl⟩
    · rw [escaped]
      refine ⟨'\\', d, _, rfl, ?_⟩
      rw [byteOf_eq_iff (by decide)]
      constructor
      · rintro ⟨backslash, alike⟩
        have twice : escapeChar braces '\\' = ['\\', '\\'] := by cases braces <;> rfl
        rw [backslash, twice] at escaped
        cases escaped
        exact ⟨hash, .inr ⟨backslash, alike.mp (by decide)⟩⟩
      · rintro ⟨-, alone | ⟨backslash, low⟩⟩
        · cases (cons.inj alone).2
        · have twice : escapeChar braces '\\' = ['\\', '\\'] := by cases braces <;> rfl
          rw [backslash, twice] at escaped
          cases escaped
          exact ⟨backslash, iff_of_true (by decide) low⟩

/-- The first two characters of the string of a list, and what they tell of the first
two bytes of its first element. -/
theorem convertElement_starts (byte1 : UInt8) (bytes : Bytes) (more : List Char) :
    ∃ x y rest, convertElement true ((byte1 :: bytes).map charOf) ++ ' ' :: more = x :: y :: rest ∧
      (byteOf x = byte1 ∧ Alike y (bytes.headD 0) ↔ Legible (byte1 :: bytes)) := by
  unfold convertElement Legible
  dsimp only
  cases formOf true ((byte1 :: bytes).map charOf) with
  | bare =>
    obtain ⟨y, rest, next, alike⟩ := next_plain bytes more
    refine ⟨charOf byte1, y, rest, congrArg (charOf byte1 :: ·) next, ?_⟩
    exact iff_of_true ⟨byteOf_charOf byte1, alike⟩ trivial
  | brace =>
    refine ⟨'\x7b', charOf byte1, _, rfl, ?_⟩
    rw [byteOf_eq_iff (by decide), Alike, byteOf_charOf]
    refine and_congr_right fun brace => ?_
    have low : byte1 &&& 0x80 = 0 := by
      rw [← (byteOf_eq_iff (by decide) byte1).mpr brace]
      decide
    exact iff_comm.trans (iff_true_right low)
  | escape =>
    simp only [Bool.true_and, decide_eq_true_eq]
    exact starts_escaped true byte1 bytes more
  | mask =>
    simp only [Bool.true_and, decide_eq_true_eq]
    exact starts_escaped false byte1 bytes more

/-- A string of a list is never too short. -/
theorem certDecodeKeyusage_obj (byte1 : UInt8) (bytes : Bytes) (unused : DWORD) :
    ∃ usages, certDecodeKeyusage (BitBlob.obj ⟨byte1 :: bytes, unused⟩).toBytes =
      some (.list usages) := by
  obtain ⟨x, y, rest, starts, -⟩ := convertElement_starts byte1 bytes
    (convertElement false (Obj.ofDWORD unused).text.toList)
  exact ⟨_, certDecodeKeyusage_of_chars ((chars_obj byte1 bytes unused).trans starts)⟩

theorem sameUsages_iff (blob : BitBlob) :
    SameUsages (certDecodeKeyusage blob.obj.toBytes)
        (certDecodeKeyusage (intendedKeyUsage blob.data)) ↔
      Legible blob.data := by
  obtain ⟨data, unused⟩ := blob
  cases data with
  | nil =>
    have text : (BitBlob.obj ⟨[], unused⟩).text =
        String.ofList (formatList [[], (Obj.ofDWORD 0).text.toList]) := rfl
    have chars := congrArg String.toList text
    rw [String.toList_ofList, formatList] at chars
    rw [sameUsages_of_chars chars]
    refine iff_of_false ?_ id
    rintro ⟨first, -⟩
    have brace : byteOf '\x7b' ≠ 0 := by decide
    exact brace first
  | cons byte1 bytes =>
    have second : (byte1 :: bytes).getD 1 0 = bytes.headD 0 := by cases bytes <;> rfl
    obtain ⟨x, y, rest, starts, legible⟩ := convertElement_starts byte1 bytes
      (convertElement false (Obj.ofDWORD unused).text.toList)
    rw [sameUsages_of_chars ((chars_obj byte1 bytes unused).trans starts), second]
    exact legible

/-! ### Usages that are set -/

/-- Every name has a bit of its own. -/
theorem bit_of_own : ∀ entry ∈ keyusageByte1, ∀ other ∈ keyusageByte1,
    entry.2 &&& other.2 ≠ 0 ↔ other.1 = entry.1 := by decide

theorem or_and_ne_zero (x y m : UInt8) :
    (x ||| y) &&& m ≠ 0 ↔ x &&& m ≠ 0 ∨ y &&& m ≠ 0 := by
  have apart : (x ||| y) &&& m = (x &&& m) ||| (y &&& m) := by
    apply UInt8.toBitVec_inj.mp
    exact BitVec.and_or_distrib_right
  rw [apart, ne_eq, UInt8.or_eq_zero_iff]
  exact not_and_or

theorem mem_usagesOf_or_byte1 (listed : entry ∈ keyusageByte1) (byte1 byte2 : UInt8) (u : String) :
    u ∈ usagesOf (byte1 ||| entry.2) byte2 ↔ u ∈ usagesOf byte1 byte2 ∨ u = entry.1 := by
  rw [mem_usagesOf, mem_usagesOf]
  constructor
  · rintro (⟨other, among, set, rfl⟩ | second)
    · obtain set | set := (or_and_ne_zero _ _ _).mp set
      · exact .inl (.inl ⟨other, among, set, rfl⟩)
      · exact .inr ((bit_of_own entry listed other among).mp set)
    · exact .inl (.inr second)
  · rintro ((⟨other, among, set, rfl⟩ | second) | rfl)
    · exact .inl ⟨other, among, (or_and_ne_zero _ _ _).mpr (.inl set), rfl⟩
    · exact .inr second
    · refine .inl ⟨entry, listed, (or_and_ne_zero _ _ _).mpr (.inr ?_), rfl⟩
      exact (bit_of_own entry listed entry listed).mpr rfl

theorem mem_usagesOf_or_byte2 (byte1 byte2 : UInt8) (u : String) :
    u ∈ usagesOf byte1 (byte2 ||| 0x80) ↔ u ∈ usagesOf byte1 byte2 ∨ u = "decipher_only" := by
  rw [mem_usagesOf, mem_usagesOf, or_assoc]
  refine or_congr_right ?_
  constructor
  · rintro ⟨entry, listed, -, rfl⟩
    cases mem_singleton.mp listed
    exact .inr rfl
  · rintro (⟨entry, listed, set, rfl⟩ | rfl)
    · exact ⟨entry, listed, by
        cases mem_singleton.mp listed
        exact (or_and_ne_zero _ _ _).mpr (.inr (by decide)), rfl⟩
    · exact ⟨("decipher_only", 0x80), mem_singleton_self _,
        (or_and_ne_zero _ _ _).mpr (.inr (by decide)), rfl⟩

/-- By induction on the usages that are left. -/
theorem mem_usagesOf_keyusageBytes {names : List String} :
    ∀ {byte1 byte2 : UInt8} {bytes : UInt8 × UInt8},
      keyusageBytes names (byte1, byte2) = some bytes →
      ∀ u, u ∈ usagesOf bytes.1 bytes.2 ↔ u ∈ usagesOf byte1 byte2 ∨ u ∈ names := by
  induction names with
  | nil =>
    intro byte1 byte2 bytes made u
    cases made
    exact (or_iff_left not_mem_nil).symm
  | cons usage rest ih =>
    intro byte1 byte2 bytes made u
    unfold keyusageBytes at made
    rw [mem_cons, ← or_assoc]
    cases first : keyusageByte1.lookup usage with
    | some val =>
      rw [first] at made
      rw [ih made u, mem_usagesOf_or_byte1 (Lib.mem_of_lookup first)]
    | none =>
      rw [first] at made
      cases second : keyusageByte2.lookup usage with
      | some val =>
        rw [second] at made
        cases mem_singleton.mp (Lib.mem_of_lookup second)
        rw [ih made u, mem_usagesOf_or_byte2]
      | none =>
        rw [second] at made
        cases made

theorem usagesOf_zero : usagesOf 0 0 = [] := by decide

/-- The second byte has no other bit than the first. -/
theorem keyusageBytes_byte2 {names : List String} :
    ∀ {byte1 byte2 : UInt8} {bytes : UInt8 × UInt8},
      keyusageBytes names (byte1, byte2) = some bytes → byte2 ∈ [(0 : UInt8), 0x80] →
        bytes.2 ∈ [(0 : UInt8), 0x80] := by
  induction names with
  | nil =>
    intro byte1 byte2 bytes made among
    cases made
    exact among
  | cons usage rest ih =>
    intro byte1 byte2 bytes made among
    unfold keyusageBytes at made
    cases first : keyusageByte1.lookup usage with
    | some val =>
      rw [first] at made
      exact ih made among
    | none =>
      rw [first] at made
      cases second : keyusageByte2.lookup usage with
      | some val =>
        rw [second] at made
        cases mem_singleton.mp (Lib.mem_of_lookup second)
        refine ih made ?_
        have closed : ∀ b ∈ [(0 : UInt8), 0x80], b ||| 0x80 ∈ [(0 : UInt8), 0x80] := by
          intro b either
          obtain rfl | rfl := mem_pair.mp either
          · exact mem_pair.mpr (.inr rfl)
          · exact mem_pair.mpr (.inr rfl)
        exact closed byte2 among
      | none =>
        rw [second] at made
        cases made

/-- Of usages that are set, those are decoded exactly if the first byte is not one that
is quoted in a list. -/
theorem made_legible_iff {names : List String}
    (made : keyusageBytes names (0, 0) = some (byte1, byte2)) :
    Legible [byte1, byte2] ↔ byte1 ∉ quotedBytes := by
  have pairs := all_eq_true.mp legible_pair byte1.toNat (mem_range.mpr byte1.toNat_lt)
  have pair := all_eq_true.mp pairs byte2 (keyusageBytes_byte2 made mem_cons_self)
  rw [UInt8.ofNat_toNat, beq_iff_eq] at pair
  rw [← decide_eq_true_iff (p := Legible _), pair]
  simp

end Twapi.Request
