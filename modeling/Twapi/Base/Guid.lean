import Twapi.Lib.Bytes
import Twapi.Lib.Hex

/-!
GUIDs as strings and in binary form, `tcl/twapi.tcl`.

* `binaryToGuid`, `guidToBinary` — the two procedures.
* `Fields` — what a GUID is, with both its forms.
* `binaryToGuid_binary`, `guidToBinary_text` — what each procedure does to a GUID.
* `guid_round_trip_iff` — which GUIDs come back.
-/

namespace Twapi.Guid

open Lib List

abbrev Bytes := List UInt8

inductive Error where
  | invalidBinary
  | invalidSyntax (guid : String)
  | notInteger (digits : List Char)
  | notHexadecimal (digits : List Char)
deriving DecidableEq

/-! ### Binary strings -/

/-- `binary scan` with `H` -/
def scanH (bytes : Bytes) : List Char :=
  bytes.flatMap fun b => [Nat.digitChar (b.toNat / 16), Nat.digitChar (b.toNat % 16)]

def packHex : List Char → Option Bytes
  | [] => some []
  | [c] => (hexValue c).map fun h => [UInt8.ofNat (16 * h)]
  | c :: d :: cs => do
      let h ← hexValue c
      let l ← hexValue d
      let bytes ← packHex cs
      pure (UInt8.ofNat (16 * h + l) :: bytes)

/-- `binary format` with `H` and an even number of digits; zeros stand for those missing. -/
def formatH (count : Nat) (cs : List Char) : Except Error Bytes :=
  match packHex (cs.take count) with
  | none => .error (.notHexadecimal cs)
  | some bytes => .ok (bytes ++ List.replicate (count / 2 - bytes.length) 0)

/-- `binary format` with `i` or `s`, of `0x` and digits. -/
def formatInt (width : Nat) (cs : List Char) : Except Error Bytes :=
  match if cs = [] then none else hexNumber cs with
  | none => .error (.notInteger cs)
  | some n => .ok (toBytes width n)

/-! ### The procedures -/

/-- `_binary_to_guid`. The numbers are printed as unsigned. -/
def binaryToGuid (bin : Bytes) (off : Nat) : Except Error String :=
  let data := bin.drop off
  if data.length < 16 then .error .invalidBinary
  else
    let g1 := ofBytes (data.take 4)
    let g2 := ofBytes ((data.drop 4).take 2)
    let g3 := ofBytes ((data.drop 6).take 2)
    let g4 := scanH ((data.drop 8).take 2)
    let g5 := scanH ((data.drop 10).take 6)
    .ok (String.ofList ('{' :: padded 8 g1 ++ '-' :: padded 2 g2 ++ '-' :: padded 2 g3 ++
      '-' :: (g4 ++ '-' :: g5).map Char.toUpper ++ ['}']))

/-- The digits of a string in the registry form, if that is what it is. -/
def registryParts (s : String) : Option (List (List Char)) :=
  let parts := (s.toList.drop 1).dropLast.splitOn '-'
  if s.toList.head? = some '{' ∧ s.toList.getLast? = some '}' ∧
      parts.map List.length = [8, 4, 4, 4, 12] then some parts
  else none

def inRegistryForm (digit : Char → Bool) (s : String) : Bool :=
  (registryParts s).any fun parts => parts.all (·.all digit)

structure Api where
  iidFromString : String → Bool
  uuidFromString : String → Bool

/-- `ObjToGUID`, as far as whether it succeeds -/
def isValidGuid (api : Api) (guid : String) : Bool :=
  if guid.toList.head? = some '{' then api.iidFromString guid else api.uuidFromString guid

/-- `_guid_to_binary` -/
def guidToBinary (api : Api) (guid : String) : Except Error Bytes :=
  if isValidGuid api guid = false then .error (.invalidSyntax guid)
  else do
    let parts := (guid.toList.drop 1).dropLast.splitOn '-'
    let b1 ← formatInt 4 (parts.getD 0 [])
    let b2 ← formatInt 2 (parts.getD 1 [])
    let b3 ← formatInt 2 (parts.getD 2 [])
    let b4 ← formatH 4 (parts.getD 3 [])
    let b5 ← formatH 12 (parts.getD 4 [])
    pure (b1 ++ b2 ++ b3 ++ b4 ++ b5)

/-! ### GUIDs -/

structure Fields where
  data1 : UInt32
  data2 : UInt16
  data3 : UInt16
  clock : Bytes
  node : Bytes
  length_clock : clock.length = 2
  length_node : node.length = 6

namespace Fields

def binary (g : Fields) : Bytes :=
  toBytes 4 g.data1.toNat ++ (toBytes 2 g.data2.toNat ++ (toBytes 2 g.data3.toNat ++
    (g.clock ++ g.node)))

def parts (short : Nat → List Char) (g : Fields) : List (List Char) :=
  [hexDigits 8 g.data1.toNat, short g.data2.toNat, short g.data3.toNat,
    (scanH g.clock).map Char.toUpper, (scanH g.node).map Char.toUpper]

/-- The string form, with the two short numbers written by `short`. -/
def textWith (short : Nat → List Char) (g : Fields) : String :=
  String.ofList ('{' :: ['-'].intercalate (g.parts short) ++ ['}'])

def text (g : Fields) : String := g.textWith (hexDigits 4)

/-- The string form with the short numbers as they are printed. -/
def printed (g : Fields) : String := g.textWith (padded 2)

end Fields

/-! ### Binary form -/

variable {width n : Nat}

theorem toBytes_ofBytes_take {bytes : Bytes} (enough : width ≤ bytes.length) :
    toBytes width (ofBytes (bytes.take width)) = bytes.take width := by
  have length : (bytes.take width).length = width := length_take_of_le enough
  calc toBytes width (ofBytes (bytes.take width))
      = toBytes (bytes.take width).length (ofBytes (bytes.take width)) := by rw [length]
    _ = bytes.take width := toBytes_ofBytes _

theorem ofBytes_take_lt (width : Nat) (bytes : Bytes) :
    ofBytes (bytes.take width) < 256 ^ width :=
  Nat.lt_of_lt_of_le (ofBytes_lt _) (Nat.pow_le_pow_right (by decide) (length_take_le ..))

theorem exists_binary {bin : Bytes} (size : bin.length = 16) : ∃ g : Fields, g.binary = bin := by
  have size4 : (bin.drop 4).length = 12 := by rw [length_drop, size]
  have size6 : (bin.drop 6).length = 10 := by rw [length_drop, size]
  have size8 : (bin.drop 8).length = 8 := by rw [length_drop, size]
  have size10 : (bin.drop 10).length = 6 := by rw [length_drop, size]
  refine ⟨⟨UInt32.ofNat (ofBytes (bin.take 4)), UInt16.ofNat (ofBytes ((bin.drop 4).take 2)),
    UInt16.ofNat (ofBytes ((bin.drop 6).take 2)), (bin.drop 8).take 2, bin.drop 10,
    by rw [length_take, size8]; rfl, size10⟩, ?_⟩
  rw [Fields.binary, UInt32.toNat_ofNat_of_lt' (ofBytes_take_lt 4 bin),
    UInt16.toNat_ofNat_of_lt' (ofBytes_take_lt 2 _),
    UInt16.toNat_ofNat_of_lt' (ofBytes_take_lt 2 _),
    toBytes_ofBytes_take (by omega), toBytes_ofBytes_take (by omega),
    toBytes_ofBytes_take (by omega)]
  have rejoin (start width : Nat) :
      (bin.drop start).take width ++ bin.drop (start + width) = bin.drop start := by
    rw [← drop_drop, take_append_drop]
  change bin.take 4 ++ ((bin.drop 4).take 2 ++ ((bin.drop 6).take 2 ++
    ((bin.drop 8).take 2 ++ bin.drop 10))) = bin
  rw [rejoin 8 2, rejoin 6 2, rejoin 4 2, take_append_drop]

theorem length_scanH (bytes : Bytes) : (scanH bytes).length = 2 * bytes.length := by
  induction bytes with
  | nil => rfl
  | cons b bytes ih =>
    rw [scanH, flatMap_cons, length_append]
    change 2 + (scanH bytes).length = _
    rw [ih, length_cons]
    omega

/-- The first number takes no more than its eight digits. -/
theorem binaryToGuid_binary (g : Fields) : binaryToGuid g.binary 0 = .ok g.printed := by
  have long : ¬ g.binary.length < 16 := by
    simp [Fields.binary, g.length_clock, g.length_node]
  have first : padded 8 g.data1.toNat = hexDigits 8 g.data1.toNat :=
    padded_eq_of_lt (by decide) g.data1.toNat_lt
  have from4 : g.binary.drop 4 =
      toBytes 2 g.data2.toNat ++ (toBytes 2 g.data3.toNat ++ (g.clock ++ g.node)) :=
    drop_left' (length_toBytes ..)
  have from6 : g.binary.drop 6 = toBytes 2 g.data3.toNat ++ (g.clock ++ g.node) := by
    rw [← drop_drop (i := 2) (j := 4), from4]
    exact drop_left' (length_toBytes ..)
  have from8 : g.binary.drop 8 = g.clock ++ g.node := by
    rw [← drop_drop (i := 2) (j := 6), from6]
    exact drop_left' (length_toBytes ..)
  have from10 : g.binary.drop 10 = g.node := by
    rw [← drop_drop (i := 2) (j := 8), from8]
    exact drop_left' g.length_clock
  have whole : g.node.take 6 = g.node := take_of_length_le (Nat.le_of_eq g.length_node)
  rw [binaryToGuid, drop_zero]
  dsimp only
  rw [if_neg long, from4, from6, from8, from10, whole, take_left' (length_toBytes ..),
    take_left' (length_toBytes ..), take_left' g.length_clock, Fields.binary,
    take_left' (length_toBytes ..), ofBytes_toBytes_of_lt g.data1.toNat_lt,
    ofBytes_toBytes_of_lt g.data2.toNat_lt, ofBytes_toBytes_of_lt g.data3.toNat_lt, first]
  simp [Fields.printed, Fields.textWith, Fields.parts, intercalate]

/-! ### Digits of byte strings -/

theorem map_toUpper_scanH_cons (b : UInt8) (bytes : Bytes) :
    (scanH (b :: bytes)).map Char.toUpper =
      upperDigit (b.toNat / 16) :: upperDigit (b.toNat % 16) ::
        (scanH bytes).map Char.toUpper := rfl

theorem isUpperHex_of_mem_scanH {bytes : Bytes} {c : Char}
    (mem : c ∈ (scanH bytes).map Char.toUpper) : isUpperHex c = true := by
  induction bytes with
  | nil => cases mem
  | cons b bytes ih =>
    have small := b.toNat_lt
    rw [map_toUpper_scanH_cons] at mem
    rcases mem_cons.mp mem with rfl | mem
    · exact isUpperHex_iff.mpr ⟨b.toNat / 16, by omega, rfl⟩
    · rcases mem_cons.mp mem with rfl | mem
      · exact isUpperHex_iff.mpr ⟨b.toNat % 16, by omega, rfl⟩
      · exact ih mem

theorem packHex_scanH (bytes : Bytes) :
    packHex ((scanH bytes).map Char.toUpper) = some bytes := by
  induction bytes with
  | nil => rfl
  | cons b bytes ih =>
    have small := b.toNat_lt
    have same : UInt8.ofNat (16 * (b.toNat / 16) + b.toNat % 16) = b := by
      rw [Nat.div_add_mod, UInt8.ofNat_toNat]
    rw [map_toUpper_scanH_cons, packHex, hexValue_upperDigit (by omega),
      hexValue_upperDigit (by omega), ih]
    exact congrArg (fun b => some (b :: bytes)) same

theorem exists_scanH {count : Nat} {cs : List Char} (size : cs.length = 2 * count)
    (upper : ∀ c ∈ cs, isUpperHex c = true) :
    ∃ bytes : Bytes, bytes.length = count ∧ (scanH bytes).map Char.toUpper = cs := by
  induction count generalizing cs with
  | zero => exact ⟨[], rfl, (length_eq_zero_iff.mp size).symm⟩
  | succ count ih =>
    match cs, size, upper with
    | c :: d :: cs, size, upper =>
      obtain ⟨h, smallH, rfl⟩ := isUpperHex_iff.mp (upper c mem_cons_self)
      obtain ⟨l, smallL, rfl⟩ :=
        isUpperHex_iff.mp (upper d (mem_cons_of_mem _ mem_cons_self))
      obtain ⟨bytes, length, digits⟩ := ih (Nat.add_right_cancel (m := 2) size) fun c mem =>
        upper c (mem_cons_of_mem _ (mem_cons_of_mem _ mem))
      have value : (UInt8.ofNat (16 * h + l)).toNat = 16 * h + l :=
        UInt8.toNat_ofNat_of_lt' (by change _ < 256; omega)
      refine ⟨UInt8.ofNat (16 * h + l) :: bytes, congrArg (· + 1) length, ?_⟩
      rw [map_toUpper_scanH_cons, value, digits, show (16 * h + l) / 16 = h by omega,
        show (16 * h + l) % 16 = l by omega]

/-! ### String form -/

theorem parts_registry {parts : List (List Char)} (some_ : parts ≠ [])
    (plain : ∀ cs ∈ parts, '-' ∉ cs) :
    (((String.ofList ('{' :: ['-'].intercalate parts ++ ['}'])).toList.drop 1).dropLast).splitOn
      '-' = parts := by
  rw [String.toList_ofList, cons_append, drop_succ_cons, drop_zero,
    dropLast_concat]
  exact splitOn_intercalate '-' plain some_

theorem registryParts_eq_some {s : String} {parts : List (List Char)}
    (form : registryParts s = some parts) :
    s = String.ofList ('{' :: ['-'].intercalate parts ++ ['}']) ∧
      parts.map List.length = [8, 4, 4, 4, 12] := by
  unfold registryParts at form
  dsimp only at form
  split at form
  · rename_i given
    obtain ⟨head, last, lengths⟩ := given
    cases form
    refine ⟨?_, lengths⟩
    rw [intercalate_splitOn, ← String.toList_inj, String.toList_ofList]
    generalize s.toList = cs at head last lengths
    match cs, head, last, lengths with
    | [c], _, _, lengths => simp at lengths
    | c :: d :: cs, head, last, _ =>
      rw [head?_cons, Option.some_inj] at head
      rw [getLast?_cons_cons] at last
      rw [head, drop_succ_cons, drop_zero, cons_append,
        dropLast_append_getLast? '}' last]
  · cases form

theorem registryParts_ofList {parts : List (List Char)} (some_ : parts ≠ [])
    (plain : ∀ cs ∈ parts, '-' ∉ cs) :
    registryParts (String.ofList ('{' :: ['-'].intercalate parts ++ ['}'])) =
      if parts.map List.length = [8, 4, 4, 4, 12] then some parts else none := by
  unfold registryParts
  dsimp only
  rw [parts_registry some_ plain, String.toList_ofList, getLast?_concat]
  exact if_congr (by simp) rfl rfl

/-! ### Round trips -/

def isCanonical (s : String) : Bool := inRegistryForm isUpperHex s

theorem exists_text {s : String} (canonical : isCanonical s = true) : ∃ g : Fields, g.text = s := by
  obtain ⟨parts, form, digits⟩ := (Option.any_eq_true ..).mp canonical
  obtain ⟨rfl, lengths⟩ := registryParts_eq_some form
  simp only [map_eq_cons_iff, map_eq_nil_iff] at lengths
  obtain ⟨p1, _, rfl, size1, p2, _, rfl, size2, p3, _, rfl, size3, p4, _, rfl, size4, p5, _, rfl,
    size5, rfl⟩ := lengths
  simp only [all_cons, all_nil, Bool.and_true, Bool.and_eq_true, all_eq_true]
    at digits
  obtain ⟨upper1, upper2, upper3, upper4, upper5⟩ := digits
  obtain ⟨data1, small1, same1⟩ := hexDigits_of_upper upper1
  obtain ⟨data2, small2, same2⟩ := hexDigits_of_upper upper2
  obtain ⟨data3, small3, same3⟩ := hexDigits_of_upper upper3
  obtain ⟨clock, sizeClock, same4⟩ := exists_scanH (show p4.length = 2 * 2 from size4) upper4
  obtain ⟨node, sizeNode, same5⟩ := exists_scanH (show p5.length = 2 * 6 from size5) upper5
  rw [size1] at small1 same1
  rw [size2] at small2 same2
  rw [size3] at small3 same3
  refine ⟨⟨UInt32.ofNat data1, UInt16.ofNat data2, UInt16.ofNat data3, clock, node, sizeClock,
    sizeNode⟩, ?_⟩
  simp only [Fields.text, Fields.textWith, Fields.parts]
  rw [UInt32.toNat_ofNat_of_lt' small1, UInt16.toNat_ofNat_of_lt' small2,
    UInt16.toNat_ofNat_of_lt' small3, ← same1, ← same2, ← same3, same4, same5]

theorem parts_ne_nil (short : Nat → List Char) (g : Fields) : g.parts short ≠ [] :=
  cons_ne_nil _ _

section
variable {short : Nat → List Char} (digits : ∀ n, ∃ width, short n = hexDigits width n)
include digits

theorem upper_parts (g : Fields) : ∀ cs ∈ g.parts short, ∀ c ∈ cs, isUpperHex c = true := by
  simp only [Fields.parts, forall_mem_cons, not_mem_nil, false_implies, implies_true,
    and_true]
  obtain ⟨width2, data2⟩ := digits g.data2.toNat
  obtain ⟨width3, data3⟩ := digits g.data3.toNat
  rw [data2, data3]
  exact ⟨fun _ => isUpperHex_of_mem, fun _ => isUpperHex_of_mem, fun _ => isUpperHex_of_mem,
    fun _ => isUpperHex_of_mem_scanH, fun _ => isUpperHex_of_mem_scanH⟩

theorem plain_parts (g : Fields) : ∀ cs ∈ g.parts short, '-' ∉ cs := fun cs part dash =>
  absurd (upper_parts digits g cs part _ dash) (by decide)

omit digits in
theorem lengths_parts_iff (g : Fields) :
    (g.parts short).map List.length = [8, 4, 4, 4, 12] ↔
      (short g.data2.toNat).length = 4 ∧ (short g.data3.toNat).length = 4 := by
  simp [Fields.parts, length_scanH, g.length_clock, g.length_node]

end

theorem formatInt_hexDigits (pos : 0 < width) (small : n < 256 ^ width) :
    formatInt width (hexDigits (2 * width) n) = .ok (toBytes width n) := by
  have some_ : hexDigits (2 * width) n ≠ [] := ne_nil_of_length_pos (by simp [pos])
  have value : hexNumber (hexDigits (2 * width) n) = some n := by
    rw [hexNumber_hexDigits, Nat.pow_mul, Nat.mod_eq_of_lt small]
  rw [formatInt, if_neg some_, value]

theorem formatH_scanH {count : Nat} {bytes : Bytes} (size : 2 * bytes.length = count) :
    formatH count ((scanH bytes).map Char.toUpper) = .ok bytes := by
  have all : ((scanH bytes).map Char.toUpper).take count = (scanH bytes).map Char.toUpper :=
    take_of_length_le (by rw [length_map, length_scanH, size])
  rw [formatH, all, packHex_scanH]
  simp [← size]

theorem length_short_iff (small : n < 16 ^ 4) : (padded 2 n).length = 4 ↔ 16 ^ 3 ≤ n := by
  have most : (padded 2 n).length ≤ 4 :=
    (length_padded_le_iff (by decide) (by decide)).mpr small
  have three : (padded 2 n).length ≤ 3 ↔ n < 16 ^ 3 :=
    length_padded_le_iff (by decide) (by decide)
  omega

/-- The two short numbers take all of their four digits. -/
def Fields.IsWide (g : Fields) : Prop := 16 ^ 3 ≤ g.data2.toNat ∧ 16 ^ 3 ≤ g.data3.toNat

theorem printed_eq_text {g : Fields} (wide : g.IsWide) : g.printed = g.text := by
  have short {n : Nat} (low : 16 ^ 3 ≤ n) (small : n < 16 ^ 4) : padded 2 n = hexDigits 4 n :=
    padded_eq_hexDigits (by decide) (by decide) low small
  rw [Fields.printed, Fields.text, Fields.textWith, Fields.textWith, Fields.parts, Fields.parts,
    short wide.1 g.data2.toNat_lt, short wide.2 g.data3.toNat_lt]

section
variable {api : Api}
  (registry : ∀ s, api.iidFromString s = inRegistryForm (fun c => (hexValue c).isSome) s)
include registry

theorem isValidGuid_textWith_iff {short : Nat → List Char}
    (digits : ∀ n, ∃ width, short n = hexDigits width n) (g : Fields) :
    isValidGuid api (g.textWith short) = true ↔
      (short g.data2.toNat).length = 4 ∧ (short g.data3.toNat).length = 4 := by
  have braced : (g.textWith short).toList.head? = some '{' := by
    rw [Fields.textWith, String.toList_ofList]
    rfl
  rw [isValidGuid, if_pos braced, registry, ← lengths_parts_iff, inRegistryForm, Fields.textWith,
    registryParts_ofList (parts_ne_nil short g) (plain_parts digits g)]
  split
  · rename_i lengths
    refine iff_of_true (all_eq_true.mpr fun cs part => all_eq_true.mpr fun c mem => ?_)
      lengths
    obtain ⟨d, small, rfl⟩ := isUpperHex_iff.mp (upper_parts digits g cs part c mem)
    rw [hexValue_upperDigit small]
    rfl
  · rename_i lengths
    exact iff_of_false Bool.false_ne_true lengths

theorem guidToBinary_text (g : Fields) : guidToBinary api g.text = .ok g.binary := by
  have digits (n : Nat) : ∃ width, hexDigits 4 n = hexDigits width n := ⟨4, rfl⟩
  have valid : isValidGuid api g.text = true :=
    (isValidGuid_textWith_iff registry digits g).mpr ⟨length_hexDigits .., length_hexDigits ..⟩
  have parts : ((g.text.toList.drop 1).dropLast).splitOn '-' = g.parts (hexDigits 4) :=
    parts_registry (parts_ne_nil _ g) (plain_parts digits g)
  have clock := formatH_scanH (show 2 * g.clock.length = 4 by rw [g.length_clock])
  have node := formatH_scanH (show 2 * g.node.length = 12 by rw [g.length_node])
  rw [guidToBinary, if_neg (by rw [valid]; decide), parts, Fields.binary]
  have short (data : UInt16) : formatInt 2 (hexDigits 4 data.toNat) = .ok (toBytes 2 data.toNat) :=
    formatInt_hexDigits (by decide) data.toNat_lt
  have long : formatInt 4 (hexDigits 8 g.data1.toNat) = .ok (toBytes 4 g.data1.toNat) :=
    formatInt_hexDigits (by decide) g.data1.toNat_lt
  simp only [Fields.parts, getD_cons_zero, getD_cons_succ, clock, node, short, long,
    bind, Except.bind, pure, Except.pure, append_assoc]

theorem isValidGuid_printed_iff (g : Fields) :
    isValidGuid api g.printed = true ↔ g.IsWide := by
  have digits (n : Nat) : ∃ width, padded 2 n = hexDigits width n := ⟨_, padded_eq 2 n⟩
  rw [Fields.printed, isValidGuid_textWith_iff registry digits, Fields.IsWide,
    length_short_iff g.data2.toNat_lt, length_short_iff g.data3.toNat_lt]

theorem guidToBinary_printed_iff (g : Fields) :
    guidToBinary api g.printed = .ok g.binary ↔ g.IsWide := by
  constructor
  · intro back
    refine (isValidGuid_printed_iff registry g).mp ?_
    by_contra invalid
    rw [guidToBinary, if_pos (Bool.eq_false_of_not_eq_true invalid)] at back
    cases back
  · intro wide
    rw [printed_eq_text wide, guidToBinary_text registry]

theorem printed_eq_text_iff (g : Fields) : g.printed = g.text ↔ g.IsWide := by
  refine ⟨fun same => ?_, printed_eq_text⟩
  rw [← guidToBinary_printed_iff registry, same, guidToBinary_text registry]

end

theorem length_text (g : Fields) : g.text.length = 38 := by
  rw [← String.length_toList, Fields.text, Fields.textWith, String.toList_ofList]
  simp [Fields.parts, intercalate, length_scanH, g.length_clock, g.length_node]

theorem binary_isWide_iff (g : Fields) :
    0x10 ≤ g.binary.getD 5 0 ∧ 0x10 ≤ g.binary.getD 7 0 ↔ g.IsWide := by
  have high {n : Nat} (small : n < 16 ^ 4) : 0x10 ≤ UInt8.ofNat (n / 256) ↔ 16 ^ 3 ≤ n := by
    rw [UInt8.le_iff_toNat_le, UInt8.toNat_ofNat_of_lt' (by change _ < 256; omega)]
    change 16 ≤ n / 256 ↔ _
    omega
  exact and_congr (high g.data2.toNat_lt) (high g.data3.toNat_lt)

theorem text_isWide_iff (g : Fields) :
    g.text.toList.getD 10 ' ' ≠ '0' ∧ g.text.toList.getD 15 ' ' ≠ '0' ↔ g.IsWide := by
  have front {n : Nat} (small : n < 16 ^ 4) :
      upperDigit (n / 16 / 16 / 16 % 16) ≠ '0' ↔ 16 ^ 3 ≤ n := by
    rw [Ne, upperDigit_eq_zero_iff (Nat.mod_lt _ (by decide))]
    omega
  rw [Fields.text, Fields.textWith, String.toList_ofList]
  exact and_congr (front g.data2.toNat_lt) (front g.data3.toNat_lt)

/-- A number in the middle with a zero in front of it loses it, and then the string is no GUID. -/
theorem guid_round_trip_iff {api : Api}
    (registry : ∀ s, api.iidFromString s = inRegistryForm (fun c => (hexValue c).isSome) s) :
    (∀ bin : Bytes, bin.length = 16 →
      ((∃ s, binaryToGuid bin 0 = .ok s ∧ s.length = 38 ∧ guidToBinary api s = .ok bin) ↔
        0x10 ≤ bin.getD 5 0 ∧ 0x10 ≤ bin.getD 7 0)) ∧
    ∀ s, isCanonical s = true →
      ((∃ bin, guidToBinary api s = .ok bin ∧ binaryToGuid bin 0 = .ok s) ↔
        s.toList.getD 10 ' ' ≠ '0' ∧ s.toList.getD 15 ' ' ≠ '0') := by
  constructor
  · intro bin size
    obtain ⟨g, rfl⟩ := exists_binary size
    rw [binary_isWide_iff, binaryToGuid_binary]
    constructor
    · rintro ⟨s, printed, -, back⟩
      cases printed
      exact (guidToBinary_printed_iff registry g).mp back
    · intro wide
      refine ⟨_, rfl, ?_, (guidToBinary_printed_iff registry g).mpr wide⟩
      rw [printed_eq_text wide, length_text]
  · intro s canonical
    obtain ⟨g, rfl⟩ := exists_text canonical
    rw [text_isWide_iff, guidToBinary_text registry, ← printed_eq_text_iff registry]
    constructor
    · rintro ⟨bin, binary, back⟩
      cases binary
      rw [binaryToGuid_binary] at back
      exact Except.ok.inj back
    · intro same
      exact ⟨_, rfl, by rw [binaryToGuid_binary, same]⟩

/-- What accepts the strings of either form, and no others. -/
def formApi : Api where
  iidFromString := inRegistryForm fun c => (hexValue c).isSome
  uuidFromString s :=
    inRegistryForm (fun c => (hexValue c).isSome) (String.ofList ('{' :: s.toList ++ ['}']))

def sample (high : UInt8) : Bytes :=
  [0x78, 0x56, 0x34, 0x12, 0xAB, high, 0x34, 0x12, 1, 2, 3, 4, 5, 6, 7, 8]

theorem guid_round_trip_formApi :
    (∃ s, binaryToGuid (sample 0x10) 0 = .ok s ∧ s.length = 38 ∧
        guidToBinary formApi s = .ok (sample 0x10)) ∧
      ∃ bin, guidToBinary formApi "\x7b12345678-10AB-1234-0102-030405060708\x7d" = .ok bin ∧
        binaryToGuid bin 0 = .ok "\x7b12345678-10AB-1234-0102-030405060708\x7d" :=
  have trips := @guid_round_trip_iff formApi fun _ => rfl
  ⟨(trips.1 (sample 0x10) rfl).mpr (by decide), (trips.2 _ (by decide)).mpr (by decide)⟩

/-- The second number is 0x00AB. -/
theorem guid_round_trip_fails :
    binaryToGuid (sample 0) 0 = .ok "\x7b12345678-AB-1234-0102-030405060708\x7d" ∧
      guidToBinary formApi "\x7b12345678-AB-1234-0102-030405060708\x7d" =
        .error (.invalidSyntax "\x7b12345678-AB-1234-0102-030405060708\x7d") ∧
      ¬ ∀ bin : Bytes, bin.length = 16 →
        ∃ s, binaryToGuid bin 0 = .ok s ∧ s.length = 38 ∧ guidToBinary formApi s = .ok bin := by
  have printed : binaryToGuid (sample 0) 0 = .ok "\x7b12345678-AB-1234-0102-030405060708\x7d" := by
    decide
  refine ⟨printed, by decide, fun all => ?_⟩
  obtain ⟨s, same, full, -⟩ := all (sample 0) rfl
  rw [printed] at same
  cases same
  exact absurd full (by decide)

end Twapi.Guid
