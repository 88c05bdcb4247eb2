import Twapi.Security.Model

/-!
ACEs, made values of and made of these again.

* `Sid.read_bytes` — a SID is what was stored.
* `aceFields_stored`, `aceSize_stored` — the fields of the block for a plain ACE.
* `objToACESWS_objFromACE` — what becomes of an ACE, by its type.
-/

namespace Twapi.Security

open Lib List
open CryptObject (DWORD Bytes Obj Fault cstr charOf decimal)

/-! ### Fields -/

theorem field_append (before rest : Bytes) (width n : Nat) :
    field (before ++ (toBytes width n ++ rest)) before.length width = n % 256 ^ width := by
  have long : ((toBytes width n).length : Nat) = width := length_toBytes ..
  rw [field, drop_left, take_left' long, ofBytes_toBytes]

theorem field_append_zero (rest : Bytes) (width n : Nat) :
    field (toBytes width n ++ rest) 0 width = n % 256 ^ width := field_append [] rest width n

/-- A field of some of the bytes. -/
theorem field_take {bytes : Bytes} {offset width length : Nat} (within : offset + width ≤ length) :
    field (bytes.take length) offset width = field bytes offset width := by
  rw [field, field, drop_take, take_take, Nat.min_eq_left (by omega)]

theorem field_append_left {bytes : Bytes} {offset width : Nat} (rest : Bytes)
    (within : offset + width ≤ bytes.length) :
    field (bytes ++ rest) offset width = field bytes offset width := by
  have same : field ((bytes ++ rest).take bytes.length) offset width =
      field (bytes ++ rest) offset width := field_take within
  rw [take_left' rfl] at same
  exact same.symm

theorem field_lt (bytes : Bytes) (offset width : Nat) : field bytes offset width < 256 ^ width := by
  have small := ofBytes_lt ((bytes.drop offset).take width)
  have short : ((bytes.drop offset).take width).length ≤ width := length_take_le ..
  exact small.trans_le (Nat.pow_le_pow_right (by decide) short)

theorem Block.length_store (memory : Block) {size : Nat} {bytes : Bytes}
    (within : bytes.length ≤ size) : (memory.store size bytes).length = size := by
  rw [store, length_append, length_drop, length_map, length_range]
  omega

/-! ### SIDs -/

theorem dwords_stored (ns : List DWORD) (rest : Bytes) :
    dwords ns.length ((ns.flatMap fun n => toBytes 4 n.toNat) ++ rest) = ns := by
  induction ns with
  | nil => rfl
  | cons n ns ih =>
    have first : BitVec.ofNat 32 (n.toNat % 256 ^ 4) = n := by
      have small : n.toNat < 256 ^ 4 := n.isLt
      rw [Nat.mod_eq_of_lt small, BitVec.ofNat_toNat, BitVec.setWidth_eq]
    have behind : (toBytes 4 n.toNat ++
        ((ns.flatMap fun n => toBytes 4 n.toNat) ++ rest)).drop 4 =
        (ns.flatMap fun n => toBytes 4 n.toNat) ++ rest := drop_left' (length_toBytes ..)
    rw [length_cons, flatMap_cons, append_assoc, dwords, field_append_zero, behind,
      first, ih]

namespace Sid

theorem length_bytes (sid : Sid) : sid.bytes.length = sid.length := by
  have words : (sid.subAuthority.flatMap fun n => toBytes 4 n.toNat).length =
      4 * sid.subAuthority.length := by
    induction sid.subAuthority with
    | nil => rfl
    | cons n ns ih =>
      rw [flatMap_cons, length_append, length_toBytes, ih, length_cons]
      omega
  rw [bytes, length_cons, length_cons, length_append, words,
    sid.length_identifierAuthority, length, sidLengthRequired]
  omega

theorem length_le (sid : Sid) : sid.length ≤ sidLengthRequired SID_MAX_SUB_AUTHORITIES := by
  have few := sid.length_subAuthority
  rw [length, sidLengthRequired, sidLengthRequired]
  omega

theorem read_bytes (sid : Sid) (rest : Bytes) : read (sid.bytes ++ rest) = some sid := by
  have few := sid.length_subAuthority
  have count : field (sid.bytes ++ rest) 1 1 = sid.subAuthority.length := by
    have small : sid.subAuthority.length % 256 ^ 1 = sid.subAuthority.length :=
      Nat.mod_eq_of_lt (few.trans_lt (by decide))
    exact (field_append [1] _ 1 _).trans small
  have long : sidLengthRequired (field (sid.bytes ++ rest) 1 1) ≤ (sid.bytes ++ rest).length := by
    rw [count, length_append, length_bytes]
    exact Nat.le_add_right ..
  have behind : (sid.bytes ++ rest).drop 2 = sid.identifierAuthority ++
      ((sid.subAuthority.flatMap fun n => toBytes 4 n.toNat) ++ rest) := by
    rw [← append_assoc]
    rfl
  have authority : ((sid.bytes ++ rest).drop 2).take 6 = sid.identifierAuthority := by
    rw [behind, take_left' sid.length_identifierAuthority]
  have words : (sid.bytes ++ rest).drop 8 =
      (sid.subAuthority.flatMap fun n => toBytes 4 n.toNat) ++ rest := by
    have both : (sid.bytes ++ rest).drop (2 + 6) = ((sid.bytes ++ rest).drop 2).drop 6 :=
      drop_drop.symm
    rw [both, behind, drop_left' sid.length_identifierAuthority]
  have revision : field (sid.bytes ++ rest) 0 1 = 1 := rfl
  rw [read, dif_pos ⟨revision, count.trans_le few, long⟩]
  refine congrArg some (Sid.ext authority ?_)
  change dwords (field (sid.bytes ++ rest) 1 1) ((sid.bytes ++ rest).drop 8) = _
  rw [count, words, dwords_stored]

end Sid

/-! ### The block for a plain ACE -/

/-- What the code looks at of a plain ACE. -/
structure AceFields where
  type : Nat
  flags : Nat
  mask : DWORD
  sid : Option Sid
deriving DecidableEq

def aceFields (ace : Bytes) : AceFields :=
  ⟨aceType ace, aceFlags ace, aceMask ace, Sid.read (ace.drop plainSidStart)⟩

theorem ofInt_natCast (n : Nat) : UInt8.ofInt n = UInt8.ofNat n := by
  rw [UInt8.ofInt, ← UInt8.toNat_inj, UInt8.toNat_ofNat', UInt8.toNat_ofNat']
  omega

section Stored

variable (type flags : Nat) (mask : DWORD) (sid : Sid) (rest : Bytes)

def plainBytes : Bytes :=
  [UInt8.ofInt type, UInt8.ofInt flags] ++ toBytes 2 plainAceSize ++ toBytes 4 mask.toNat ++ sid.bytes

theorem length_plainBytes : (plainBytes type flags mask sid).length = 8 + sid.length := by
  rw [plainBytes, length_append, length_append, length_append, length_toBytes,
    length_toBytes, sid.length_bytes]
  rfl

theorem plainBytes_append : plainBytes type flags mask sid ++ rest =
    toBytes 1 type ++ (toBytes 1 flags ++ (toBytes 2 plainAceSize ++ (toBytes 4 mask.toNat ++
      (sid.bytes ++ rest)))) := by
  have byte : ∀ n : Nat, [UInt8.ofInt n] = toBytes 1 n := fun n => congrArg ([·]) (ofInt_natCast n)
  rw [plainBytes, ← byte, ← byte, append_assoc, append_assoc, append_assoc]
  rfl

theorem aceSize_plainBytes : aceSize (plainBytes type flags mask sid ++ rest) = plainAceSize := by
  rw [plainBytes_append, ← append_assoc]
  exact field_append (toBytes 1 type ++ toBytes 1 flags) _ 2 _

theorem aceFields_plainBytes {type flags : Nat} (type_lt : type < 256) (flags_lt : flags < 256) :
    aceFields (plainBytes type flags mask sid ++ rest) = ⟨type, flags, mask, some sid⟩ := by
  have type_eq : aceType (plainBytes type flags mask sid ++ rest) = type := by
    rw [plainBytes_append]
    exact (field_append_zero _ 1 type).trans (Nat.mod_eq_of_lt type_lt)
  have flags_eq : aceFlags (plainBytes type flags mask sid ++ rest) = flags := by
    rw [plainBytes_append]
    exact (field_append (toBytes 1 type) _ 1 flags).trans (Nat.mod_eq_of_lt flags_lt)
  have mask_eq : aceMask (plainBytes type flags mask sid ++ rest) = mask := by
    have small : mask.toNat < 256 ^ 4 := mask.isLt
    have value : field (plainBytes type flags mask sid ++ rest) 4 4 = mask.toNat := by
      rw [plainBytes_append, ← append_assoc, ← append_assoc]
      exact (field_append (toBytes 1 type ++ toBytes 1 flags ++ toBytes 2 plainAceSize) _ 4 _).trans
        (Nat.mod_eq_of_lt small)
    rw [aceMask, value, BitVec.ofNat_toNat, BitVec.setWidth_eq]
  have sid_eq : Sid.read ((plainBytes type flags mask sid ++ rest).drop plainSidStart) =
      some sid := by
    have eight : (toBytes 1 type ++ toBytes 1 flags ++ toBytes 2 plainAceSize ++
        toBytes 4 mask.toNat).length = plainSidStart := rfl
    rw [plainBytes_append, ← append_assoc, ← append_assoc, ← append_assoc,
      drop_left' eight, sid.read_bytes]
  rw [aceFields, type_eq, flags_eq, mask_eq, sid_eq]

end Stored

/-! ### Values -/

section Convert

variable (W : Windows)

theorem objGetElements_list (objs : List Obj) : objGetElements (.list objs) = .ok objs := rfl

theorem objToInt_objFromInt {n : Nat} (small : n < 0x10000) :
    objToInt W (objFromInt n) = .ok (n : Int) := by
  have text : (objFromInt n).text = toString n := rfl
  rw [objToInt, text, W.asInt_toString n small]

theorem twapiSidFromStringSWS_convert (sid : Sid) :
    twapiSidFromStringSWS W (.atom (W.convertSidToStringSid sid)) = .ok sid := by
  have text : (Obj.atom (W.convertSidToStringSid sid)).text = W.convertSidToStringSid sid := rfl
  rw [twapiSidFromStringSWS, text, W.convertStringSidToSid_convert]

/-- The value of a plain ACE. -/
def plainObj (type flags : Nat) (mask : DWORD) (sid : Sid) : Obj :=
  .list [objFromInt type, objFromInt flags, Obj.ofDWORD mask, .atom (W.convertSidToStringSid sid)]

variable {ace : Bytes}

theorem objFromACE_plain {sid : Sid} (plain : aceType ace ∈ plainTypes)
    (read : Sid.read (ace.drop plainSidStart) = some sid) :
    objFromACE W (some ace) = .ok (plainObj W (aceType ace) (aceFlags ace) (aceMask ace) sid) := by
  rw [objFromACE, if_pos plain, objFromSID, read]
  rfl

theorem objToACESWS_plain (memory : Block) {type flags : Nat} (mask : DWORD) (sid : Sid)
    (plain : type ∈ plainTypes) (type_lt : type < 256) (flags_lt : flags < 256) :
    objToACESWS W memory (plainObj W type flags mask sid) =
      .ok (memory.store plainAceSize (plainBytes type flags mask sid)) := by
  have fits : sid.length ≤ plainAceSize - 12 + 4 := sid.length_le.trans (by decide)
  have encoded : plainACESWS W memory type flags (.ofDWORD mask)
      (.atom (W.convertSidToStringSid sid)) =
      .ok (memory.store plainAceSize (plainBytes type flags mask sid)) := by
    have copied : copySid (plainAceSize - 12 + 4) sid = .ok sid.bytes := if_pos fits
    rw [plainACESWS, W.asDWORD_ofDWORD]
    simp only [twapiSidFromStringSWS_convert]
    change (copySid (plainAceSize - 12 + 4) sid).bind _ = _
    rw [copied]
    rfl
  have listed : ∃ plain ∈ plainTypes, (type : Int) = (plain : Int) := ⟨type, plain, rfl⟩
  rw [objToACESWS, plainObj, objGetElements_list]
  change (objToInt W (objFromInt type)).bind _ = _
  rw [objToInt_objFromInt W (by omega)]
  change (objToInt W (objFromInt flags)).bind _ = _
  rw [objToInt_objFromInt W (by omega)]
  exact (if_pos listed).trans encoded

theorem plain_not_object {type : Nat} (plain : type ∈ plainTypes) : type ∉ objectTypes := by
  intro object
  simp only [objectTypes, plainTypes, mem_cons, not_mem_nil, or_false] at object plain
  omega

theorem objFromACE_object {sid : Sid} (object : aceType ace ∈ objectTypes)
    (read : Sid.read (ace.drop (objectSid ace)) = some sid) :
    objFromACE W (some ace) = .ok (.list [objFromInt (aceType ace), objFromInt (aceFlags ace),
      Obj.ofDWORD (aceMask ace), objFromGUID W ace (objectGuids ace).1,
      objFromGUID W ace (objectGuids ace).2, .atom (W.convertSidToStringSid sid)]) := by
  have notPlain : aceType ace ∉ plainTypes := fun plain => plain_not_object plain object
  rw [objFromACE, if_neg notPlain, if_pos object, objFromSID, read]
  rfl

/-- A list that does not begin with a plain type and is as long as others are. -/
theorem objToACESWS_unlisted (memory : Block) {type flags : Nat} (objv : List Obj)
    (notPlain : type ∉ plainTypes) (type_lt : type < 256) (flags_lt : flags < 256) :
    objToACESWS W memory (.list (objFromInt type :: objFromInt flags :: objv)) =
      match objv with
      | [bytes] =>
        .ok (memory.store (sidLengthRequired SID_MAX_SUB_AUTHORITIES + bytes.toBytes.length)
          bytes.toBytes)
      | _ => .error invalidAce := by
  have unlisted : ¬ ∃ plain ∈ plainTypes, (type : Int) = (plain : Int) := by
    rintro ⟨plain, mem, same⟩
    exact notPlain (Int.ofNat.inj same ▸ mem)
  rw [objToACESWS, objGetElements_list]
  change (objToInt W (objFromInt type)).bind _ = _
  rw [objToInt_objFromInt W (by omega)]
  change (objToInt W (objFromInt flags)).bind _ = _
  rw [objToInt_objFromInt W (by omega)]
  exact if_neg unlisted

theorem aceType_lt (ace : Bytes) : aceType ace < 256 := field_lt ace 0 1

theorem aceFlags_lt (ace : Bytes) : aceFlags ace < 256 := field_lt ace 1 1

/-- The block for a plain ACE. -/
theorem roundTrip_plain (memory : Block) (isAce : IsAce ace) (plain : aceType ace ∈ plainTypes) :
    ∃ aceobj block, objFromACE W (some ace) = .ok aceobj ∧
      objToACESWS W memory aceobj = .ok block ∧ aceFields block = aceFields ace ∧
      aceSize block = plainAceSize ∧ block.length = plainAceSize := by
  obtain ⟨sid, read⟩ := Option.isSome_iff_exists.mp (isAce.plain plain)
  have fields : aceFields ace = ⟨aceType ace, aceFlags ace, aceMask ace, some sid⟩ := by
    rw [aceFields, read]
  have short : (plainBytes (aceType ace) (aceFlags ace) (aceMask ace) sid).length ≤
      plainAceSize := by
    have bound := sid.length_le
    have size : plainAceSize = sidLengthRequired SID_MAX_SUB_AUTHORITIES + 12 := rfl
    rw [length_plainBytes]
    omega
  refine ⟨_, _, objFromACE_plain W plain read,
    objToACESWS_plain W memory _ sid plain (aceType_lt ace) (aceFlags_lt ace), ?_, ?_,
    memory.length_store short⟩
  · rw [fields, Block.store]
    exact aceFields_plainBytes _ sid _ (aceType_lt ace) (aceFlags_lt ace)
  · exact aceSize_plainBytes ..

end Convert

/-! ### An ACE for everyone -/

/-- The SID with the string "S-1-1-0". -/
def everyone : Sid := ⟨[0, 0, 0, 0, 0, 1], [0], rfl, by decide⟩

def sidChars (sid : Sid) : List Char := sid.bytes.map fun b => Char.ofNat (b.toNat + 256)

def sidOfChars (cs : List Char) : Option Sid :=
  Sid.read (cs.map fun c => UInt8.ofNat (c.toNat - 256))

theorem toNat_sidChar (b : UInt8) : (Char.ofNat (b.toNat + 256)).toNat = b.toNat + 256 := by
  have small := b.toNat_lt
  have valid : (b.toNat + 256).isValidChar := .inl (by omega)
  unfold Char.ofNat
  rw [dif_pos valid]
  rfl

theorem sidOfChars_sidChars (sid : Sid) : sidOfChars (sidChars sid) = some sid := by
  have back : (fun c : Char => UInt8.ofNat (c.toNat - 256)) ∘
      (fun b : UInt8 => Char.ofNat (b.toNat + 256)) = id := by
    funext b
    rw [Function.comp, toNat_sidChar, Nat.add_sub_cancel, UInt8.ofNat_toNat]
    rfl
  have whole := sid.read_bytes []
  rw [append_nil] at whole
  rw [sidOfChars, sidChars, map_map, back, map_id, whole]

/-- The string of one SID, and a stand-in for the others'. -/
def sidText (sid : Sid) : String :=
  if sid = everyone then "S-1-1-0" else String.ofList ('x' :: sidChars sid)

def textSid (s : String) : Except Nat Sid :=
  if s = "S-1-1-0" then .ok everyone
  else
    match s.toList with
    | 'x' :: cs => (sidOfChars cs).elim (.error ERROR_INVALID_SID) .ok
    | _ => .error ERROR_INVALID_SID

theorem textSid_sidText (sid : Sid) : textSid (cstr (sidText sid)) = .ok sid := by
  by_cases known : sid = everyone
  · rw [sidText, if_pos known, known]
    rfl
  have noNul : '\x00' ∉ (sidText sid).toList := by
    rw [sidText, if_neg known, String.toList_ofList]
    intro mem
    rcases mem_cons.mp mem with first | mem
    · cases first
    · obtain ⟨b, _, nul⟩ := mem_map.mp mem
      have value := congrArg Char.toNat nul
      rw [toNat_sidChar] at value
      have zero : ('\x00').toNat = 0 := rfl
      omega
  rw [(CryptObject.cstr_eq_iff _).mpr noNul, sidText, if_neg known, textSid]
  have other : String.ofList ('x' :: sidChars sid) ≠ "S-1-1-0" := by
    intro same
    have chars := congrArg String.toList same
    rw [String.toList_ofList] at chars
    cases chars
  rw [if_neg other, String.toList_ofList]
  simp only [sidOfChars_sidChars, Option.elim_some]

def sampleWindows : Windows where
  toTcl := decimal
  asInt s := (decimal.asDWORD s).map fun n => (n.toNat : Int)
  convertSidToStringSid := sidText
  convertStringSidToSid := textSid
  stringFromGUID _ := "\x7b00000000-0000-0000-0000-000000000000\x7d"
  isValidAcl _ := true
  unprepared _ _ _ := .error (.system ERROR_ALLOTTED_SPACE_EXCEEDED)
  asInt_toString n small := by
    have same := decimal.asDWORD_ofDWORD (BitVec.ofNat 32 n)
    have value : (BitVec.ofNat 32 n).toNat = n := Nat.mod_eq_of_lt (by omega)
    have text : (Obj.ofDWORD (BitVec.ofNat 32 n)).text = toString n := congrArg toString value
    rw [text] at same
    rw [same, Option.map_some, value]
  convertStringSidToSid_convert := textSid_sidText
  convertStringSidToSid_empty := ⟨ERROR_INVALID_SID, rfl⟩
  isValidAcl_of_isPlain _ _ := rfl

instance (ace : Bytes) : Decidable (IsAce ace) :=
  decidable_of_iff (4 ≤ ace.length ∧ aceSize ace = ace.length ∧
      (aceType ace ∈ plainTypes → (Sid.read (ace.drop plainSidStart)).isSome) ∧
      (aceType ace ∈ objectTypes → (Sid.read (ace.drop (objectSid ace))).isSome))
    ⟨fun h => ⟨h.1, h.2.1, h.2.2.1, h.2.2.2⟩, fun h => ⟨h.header, h.size, h.plain, h.object⟩⟩

/-- Read access for everyone. -/
def everyoneAce : Ace where
  bytes := [0, 0, 20, 0, 0, 0, 0, 0x80, 1, 1, 0, 0, 0, 0, 0, 1, 0, 0, 0, 0]
  isAce := by decide

/-- The same for objects of all kinds, and with a condition that is empty. -/
def everyoneObjectAce : Ace where
  bytes := [5, 0, 24, 0, 0, 0, 0, 0x80, 0, 0, 0, 0, 1, 1, 0, 0, 0, 0, 0, 1, 0, 0, 0, 0]
  isAce := by decide

def everyoneCallbackAce : Ace where
  bytes := [9, 0, 20, 0, 0, 0, 0, 0x80, 1, 1, 0, 0, 0, 0, 0, 1, 0, 0, 0, 0]
  isAce := by decide

/-! ### Round trips -/

/-- What is stored for an ACE that is plain, one with GUIDs, or another. -/
theorem objToACESWS_objFromACE (W : Windows) (memory : Block) (ace : Ace) :
    ∃ aceobj, objFromACE W (some ace.bytes) = .ok aceobj ∧
      (aceType ace.bytes ∈ plainTypes → ∃ block, objToACESWS W memory aceobj = .ok block ∧
        aceFields block = aceFields ace.bytes ∧ aceSize block = plainAceSize ∧
        block.length = plainAceSize) ∧
      (aceType ace.bytes ∈ objectTypes → objToACESWS W memory aceobj = .error invalidAce) ∧
      (aceType ace.bytes ∉ plainTypes ++ objectTypes → ∃ block,
        objToACESWS W memory aceobj = .ok block ∧ block.take (aceSize block) = ace.bytes) := by
  obtain ⟨ace, isAce⟩ := ace
  by_cases plain : aceType ace ∈ plainTypes
  · obtain ⟨aceobj, block, decoded, encoded, kept⟩ := roundTrip_plain W memory isAce plain
    refine ⟨aceobj, decoded, fun _ => ⟨block, encoded, kept⟩, fun object => ?_, fun other => ?_⟩
    · exact absurd object (plain_not_object plain)
    · exact absurd (mem_append_left _ plain) other
  by_cases object : aceType ace ∈ objectTypes
  · obtain ⟨sid, read⟩ := Option.isSome_iff_exists.mp (isAce.object object)
    refine ⟨_, objFromACE_object W object read, fun plain' => absurd plain' plain, fun _ => ?_,
      fun other => absurd (mem_append_right _ object) other⟩
    exact objToACESWS_unlisted W memory _ plain (aceType_lt ace) (aceFlags_lt ace)
  · have whole : ace.take (aceSize ace) = ace := by
      rw [isAce.size]
      exact take_length
    have decoded : objFromACE W (some ace) = .ok (.list [objFromInt (aceType ace),
        objFromInt (aceFlags ace), Obj.ofBytes ace]) := by
      rw [objFromACE, if_neg plain, if_neg object, whole]
    refine ⟨_, decoded, fun plain' => absurd plain' plain, fun object' => absurd object' object,
      fun _ => ⟨_, objToACESWS_unlisted W memory _ plain (aceType_lt ace) (aceFlags_lt ace), ?_⟩⟩
    -- The header is the one that was copied, and with it the size.
    have size : ∀ rest, aceSize (ace ++ rest) = ace.length := fun rest =>
      (field_append_left rest isAce.header).trans isAce.size
    rw [CryptObject.toBytes_ofBytes, Block.store, size, take_left' rfl]

theorem objToACESWS_objFromACE_everyone :
    (∃ aceobj block, objFromACE sampleWindows (some everyoneAce.bytes) = .ok aceobj ∧
      objToACESWS sampleWindows (fun _ => 0) aceobj = .ok block ∧
      aceFields block = ⟨0, 0, 0x80000000, some everyone⟩ ∧ aceSize block = 80) ∧
    (∃ aceobj, objFromACE sampleWindows (some everyoneObjectAce.bytes) = .ok aceobj ∧
      objToACESWS sampleWindows (fun _ => 0) aceobj = .error invalidAce) ∧
    ∃ aceobj block, objFromACE sampleWindows (some everyoneCallbackAce.bytes) = .ok aceobj ∧
      objToACESWS sampleWindows (fun _ => 0) aceobj = .ok block ∧
      block.take (aceSize block) = everyoneCallbackAce.bytes := by
  have roundTrip := objToACESWS_objFromACE sampleWindows (fun _ => 0)
  refine ⟨?_, ?_, ?_⟩
  · obtain ⟨aceobj, decoded, plain, -⟩ := roundTrip everyoneAce
    obtain ⟨block, encoded, fields, size, -⟩ := plain (by decide)
    exact ⟨aceobj, block, decoded, encoded, fields.trans (by decide), size⟩
  · obtain ⟨aceobj, decoded, -, object, -⟩ := roundTrip everyoneObjectAce
    exact ⟨aceobj, decoded, object (by decide)⟩
  · obtain ⟨aceobj, decoded, -, -, other⟩ := roundTrip everyoneCallbackAce
    obtain ⟨block, encoded, same⟩ := other (by decide)
    exact ⟨aceobj, block, decoded, encoded, same⟩

/-- The ACE of 20 bytes becomes one of 80. -/
theorem everyoneAce_grows : ¬ ∀ ace : Ace, ∃ aceobj block,
    objFromACE sampleWindows (some ace.bytes) = .ok aceobj ∧
      objToACESWS sampleWindows (fun _ => 0) aceobj = .ok block ∧
      block.take (aceSize block) = ace.bytes := by
  intro claim
  obtain ⟨aceobj, block, decoded, encoded, same⟩ := claim everyoneAce
  obtain ⟨aceobj', block', decoded', encoded', -, size, length⟩ :=
    roundTrip_plain sampleWindows (fun _ => 0) everyoneAce.isAce (by decide)
  cases decoded.symm.trans decoded'
  cases encoded.symm.trans encoded'
  have long := congrArg List.length same
  rw [size, length_take, length] at long
  exact absurd long (by decide)

end Twapi.Security
