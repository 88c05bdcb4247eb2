import Twapi.AccessRights.Model
import Twapi.Lib.Table

/-!
The names of a mask have the mask.

* `Denotes` — the values of names, one by one.
* `listed_of_mem` — each name of the tables is read back in lower case.
* `accessRightsToMask_names` — the mask comes back, or the bits of a label.
-/

namespace Twapi.AccessRights

open Lib List BitVec

section Denote

variable (T : Tcl) (vista : Bool)

def Denotes (rights : List String) (xs : List Mask) : Prop :=
  List.Forall₂ (fun right x => rightValue T vista right = .ok (x.toNat : Int)) rights xs

variable {T vista}

theorem Denotes.append {rights rights' : List String} {xs xs' : List Mask}
    (first : Denotes T vista rights xs) (second : Denotes T vista rights' xs') :
    Denotes T vista (rights ++ rights') (xs ++ xs') := by
  induction first with
  | nil => exact second
  | cons value _ ih => exact .cons value ih

variable {rights : List String}

theorem Denotes.orRights {xs : List Mask} (denotes : Denotes T vista rights xs) (before : Mask) :
    orRights T vista before.toNat rights = .ok ((before ||| union xs).toNat : Int) := by
  induction denotes generalizing before with
  | nil => rw [union_nil, AccessRights.orRights, ofNat_eq_ofNat, or_zero]
  | cons value _ ih =>
    rename_i right x rights xs _
    have both : Int.lor before.toNat x.toNat = ((before ||| x).toNat : Int) := rfl
    rw [AccessRights.orRights, value]
    change AccessRights.orRights T vista (Int.lor before.toNat x.toNat) rights = _
    rw [both, ih, union_cons, BitVec.or_assoc]

theorem Denotes.accessRightsToMask {xs : List Mask} (denotes : Denotes T vista rights xs) :
    accessRightsToMask T vista [rights] = .ok ((union xs).toNat : Int) := by
  have zero := denotes.orRights 0
  rw [ofNat_eq_ofNat, zero_or] at zero
  rw [AccessRights.accessRightsToMask, flatten_cons, flatten_nil, append_nil]
  exact zero

end Denote

/-! ### Upper and lower case -/

/-- A capital letter, a digit or an underscore. -/
def isWordByte (b : UInt8) : Bool := (65 ≤ b && b ≤ 90) || (48 ≤ b && b ≤ 57) || b = 95

theorem utf8_eq (s : String) :
    s.toByteArray.data.toList = s.toList.flatMap String.utf8EncodeChar := by
  rw [← String.utf8Encode_toList, utf8Encode, toList_data_toByteArray]

theorem utf8EncodeChar_ascii {c : Char} (ascii : ∀ b ∈ String.utf8EncodeChar c, b < 128) :
    c.toNat < 128 ∧ String.utf8EncodeChar c = [UInt8.ofNat c.toNat] := by
  have below : ∀ n, UInt8.ofNat n ∈ String.utf8EncodeChar c → n < 256 → n < 128 := by
    intro n mem small
    have lt := UInt8.lt_iff_toNat_lt.mp (ascii _ mem)
    rw [UInt8.toNat_ofNat', Nat.mod_eq_of_lt small] at lt
    exact lt
  unfold String.utf8EncodeChar at below ⊢
  simp only at below ⊢
  split
  · rename_i one
    exact ⟨Nat.lt_succ_of_le one, rfl⟩
  · rename_i more
    rw [if_neg more] at below
    -- The first of several bytes is at least 0xc0.
    split at below
    · have first := below _ mem_cons_self (by omega)
      omega
    · split at below
      · have first := below _ mem_cons_self (by omega)
        omega
      · have first := below _ mem_cons_self (by omega)
        omega

set_option maxRecDepth 4000 in
theorem word_of_byte : ∀ n < 128, isWordByte (UInt8.ofNat n) = true →
    (Char.ofNat n).toLower.toNat < 128 ∧ (Char.ofNat n).toLower.toUpper = Char.ofNat n ∧
      (UInt8.ofNat n ≤ 90 → 65 ≤ UInt8.ofNat n → (Char.ofNat n).toLower.isAlpha = true) := by
  decide

/-- A string of words that begins with a letter. -/
def isWord (s : String) : Bool :=
  let bytes := s.toByteArray.data.toList
  bytes.all isWordByte && bytes.head?.any fun b => b ≤ 90 && 65 ≤ b

section Words

variable {s : String}

theorem chars_of_isWord (word : isWord s = true) :
    ∀ c ∈ s.toList, c.toNat < 128 ∧ String.utf8EncodeChar c = [UInt8.ofNat c.toNat] ∧
      isWordByte (UInt8.ofNat c.toNat) = true := by
  intro c mem
  simp only [isWord, utf8_eq, Bool.and_eq_true, all_eq_true] at word
  have bytes : ∀ b ∈ String.utf8EncodeChar c, isWordByte b = true := fun b mem' =>
    word.1 b (mem_flatMap.mpr ⟨c, mem, mem'⟩)
  have ascii : ∀ b ∈ String.utf8EncodeChar c, b < 128 := by
    intro b mem'
    have range := bytes b mem'
    simp only [isWordByte, Bool.or_eq_true, Bool.and_eq_true, decide_eq_true_iff,
      UInt8.le_iff_toNat_le, ← UInt8.toNat_inj, UInt8.reduceToNat] at range
    rw [UInt8.lt_iff_toNat_lt]
    change b.toNat < 128
    omega
  obtain ⟨small, single⟩ := utf8EncodeChar_ascii ascii
  exact ⟨small, single, bytes _ (single ▸ mem_singleton_self _)⟩

theorem toLower_chars (word : isWord s = true) : ∀ c ∈ s.toList,
    c.toLower.toNat < 128 ∧ c.toLower.toUpper = c := by
  intro c mem
  obtain ⟨small, -, byte⟩ := chars_of_isWord word c mem
  have facts := word_of_byte c.toNat small byte
  rw [Char.ofNat_toNat] at facts
  exact ⟨facts.1, facts.2.1⟩

theorem toUpper_toLower (word : isWord s = true) : s.toLower.toUpper = s := by
  have chars : s.toLower.toUpper.toList = (s.toList.map Char.toLower).map Char.toUpper :=
    String.toList_map.trans (congrArg (map Char.toUpper) String.toList_map)
  rw [← String.toList_inj, chars, map_map]
  exact (map_congr_left fun c mem => (toLower_chars word c mem).2).trans (map_id _)

theorem ascii_toLower (word : isWord s = true) :
    s.toLower.toList.all (·.toNat < 128) = true := by
  have chars : s.toLower.toList = s.toList.map Char.toLower := String.toList_map
  rw [chars, all_map, all_eq_true]
  exact fun c mem => decide_eq_true (toLower_chars word c mem).1

theorem letter_toLower (word : isWord s = true) :
    s.toLower.toList.head?.any Char.isAlpha = true := by
  have chars : s.toLower.toList = s.toList.map Char.toLower := String.toList_map
  have all := chars_of_isWord word
  simp only [isWord, utf8_eq, Bool.and_eq_true] at word
  obtain ⟨-, first⟩ := word
  rw [chars]
  rcases list : s.toList with _ | ⟨c, cs⟩
  · rw [list] at first
    cases first
  · rw [list] at first all
    obtain ⟨small, single, byte⟩ := all c mem_cons_self
    rw [flatMap_cons, single] at first
    change (decide (UInt8.ofNat c.toNat ≤ 90) && decide (65 ≤ UInt8.ofNat c.toNat)) = true at first
    rw [Bool.and_eq_true, decide_eq_true_iff, decide_eq_true_iff] at first
    have letter := (word_of_byte c.toNat small byte).2.2 first.1 first.2
    rwa [Char.ofNat_toNat] at letter

end Words

/-! ### Names of the tables -/

section Tables

variable (T : Tcl) (vista : Bool)

def labelNames : List String :=
  ["NO_WRITE_UP", "SYSTEM_MANDATORY_LABEL_NO_WRITE_UP", "NO_READ_UP",
   "SYSTEM_MANDATORY_LABEL_NO_READ_UP", "NO_EXECUTE_UP", "SYSTEM_MANDATORY_LABEL_NO_EXECUTE_UP"]

theorem labelRights_upper : labelRights.map (fun entry => entry.1.toUpper) = labelNames := by
  simp only [labelRights, labelNames, map_cons, map_nil, cons.injEq, and_true]
  simp only [String.toUpper, ← String.toList_inj, String.toList_map]
  refine ⟨?_, ?_, ?_, ?_, ?_, ?_⟩ <;> decide

/-- A word that is defined, and is the name of no label. -/
def listed (name : String) : Bool :=
  isWord name && name ∉ labelNames && ((securityDefs vista).lookup name).isSome

def valueOf (name : String) : Mask := ((securityDefs vista).lookup name).getD 0

variable {vista} {name : String}

theorem lookup_of_listed (ok : listed vista name = true) :
    (securityDefs vista).lookup name = some (valueOf vista name) := by
  simp only [listed, Bool.and_eq_true] at ok
  obtain ⟨x, found⟩ := Option.isSome_iff_exists.mp ok.2
  rw [valueOf, found, Option.getD_some]

theorem definition_of_listed (ok : listed vista name = true) :
    definition vista name = .ok (valueOf vista name) := by
  rw [definition, lookup_of_listed ok]

theorem rightValue_toLower (ok : listed vista name = true) :
    rightValue T vista name.toLower = .ok ((valueOf vista name).toNat : Int) := by
  have found := lookup_of_listed ok
  simp only [listed, Bool.and_eq_true, decide_eq_true_iff] at ok
  obtain ⟨⟨word, noLabel⟩, -⟩ := ok
  have upper := toUpper_toLower word
  have label : labelRights.lookup name.toLower = none := by
    rw [lookup_eq_none_iff]
    rintro ⟨key, n⟩ mem
    refine bne_iff_ne.mpr fun same => noLabel ?_
    have shown : name = key.toUpper := upper.symm.trans (congrArg String.toUpper same)
    rw [← labelRights_upper, shown]
    exact mem_map_of_mem mem
  have letter := letter_toLower word
  have nonempty : name.toLower ≠ "" := by
    intro empty
    rw [empty] at letter
    cases letter
  have number := T.asInteger_letter _ letter
  have back : T.toupper name.toLower = name := (T.toupper_ascii _ (ascii_toLower word)).trans upper
  rw [rightValue, label]
  simp only [if_neg nonempty, number, back, found]

def tables (vista : Bool) : List (List String) :=
  standardMasks :: commonBits :: genericBits :: bitsOfType vista "process" ::
    (typeMasks ++ typeBits).map Prod.snd

def bytesOf (s : String) : List UInt8 := s.toByteArray.data.toList

theorem bytesOf_injective : Function.Injective bytesOf := fun _ _ same =>
  String.toByteArray_inj.mp (ByteArray.ext (Array.toList_inj.mp same))

def byBytes (defs : List (String × Mask)) : List (List UInt8 × Mask) :=
  defs.map fun entry => (bytesOf entry.1, entry.2)

/-- A definition by the bytes of its name, which are taken from a string only once. -/
def found (vista : Bool) (name : String) : Option Mask :=
  ((byBytes commonDefs).lookup (bytesOf name)).or
    ((byBytes (if vista then vistaDefs else xpDefs)).lookup (bytesOf name))

theorem found_eq (vista : Bool) (name : String) :
    found vista name = (securityDefs vista).lookup name := by
  rw [found, byBytes, byBytes, lookup_map_key bytesOf_injective, lookup_map_key bytesOf_injective,
    securityDefs, lookup_append]

-- One evaluation for both, as the names of single rights are looked up in each.
theorem tables_checked :
    (∀ vista, ∀ names ∈ tables vista, ∀ name ∈ names,
      (isWord name && bytesOf name ∉ labelNames.map bytesOf && (found vista name).isSome) = true) ∧
      ∀ vista, ∀ names ∈ commonBits :: genericBits ::
        typeBits.map (fun entry => bitsOfType vista entry.1),
        Apart 0 (names.map fun name => (found vista name).getD 0) := by
  decide +kernel

theorem listed_of_mem (vista : Bool) : ∀ names ∈ tables vista, ∀ name ∈ names,
    listed vista name = true := by
  intro names table name mem
  have checked := tables_checked.1 vista names table name mem
  simp only [Bool.and_eq_true, decide_eq_true_iff, found_eq] at checked
  simp only [listed, Bool.and_eq_true, decide_eq_true_iff]
  exact ⟨⟨checked.1.1, fun label => checked.1.2 (mem_map_of_mem label)⟩, checked.2⟩

/-- `KEY_WOW64_RES` comes after its bits. -/
theorem apart_of_mem (vista : Bool) : ∀ names ∈ commonBits :: genericBits ::
    typeBits.map (fun entry => bitsOfType vista entry.1),
    Apart 0 (names.map (valueOf vista)) := by
  intro names table
  have checked := tables_checked.2 vista names table
  simp only [found_eq] at checked
  exact checked

end Tables

/-! ### Names of a mask -/

section Names

variable (T : Tcl) {vista : Bool} {names : List String} (m : Mask)

theorem combinedRights_denotes (ok : ∀ name ∈ names, listed vista name = true) :
    ∃ rights, combinedRights vista m names = .ok rights ∧
      Denotes T vista rights ((names.map (valueOf vista)).filter fun x => x &&& m = x) := by
  induction names with
  | nil => exact ⟨[], rfl, .nil⟩
  | cons name names ih =>
    have first := ok name mem_cons_self
    obtain ⟨rights, found, denotes⟩ := ih fun name mem => ok name (mem_cons_of_mem _ mem)
    refine ⟨if valueOf vista name &&& m = valueOf vista name then name.toLower :: rights
      else rights, ?_, ?_⟩
    · rw [combinedRights, definition_of_listed first, found]
      rfl
    · rw [map_cons, filter_cons]
      by_cases inside : valueOf vista name &&& m = valueOf vista name
      · rw [if_pos inside, if_pos (decide_eq_true inside)]
        exact .cons (rightValue_toLower T first) denotes
      · rw [if_neg inside, if_neg (by simpa using inside)]
        exact denotes

theorem singleRights_denotes (ok : ∀ name ∈ names, listed vista name = true) :
    ∃ rights, singleRights vista m names =
        .ok (rights, (takeBits (names.map (valueOf vista)) m).2) ∧
      Denotes T vista rights (takeBits (names.map (valueOf vista)) m).1 := by
  induction names generalizing m with
  | nil => exact ⟨[], rfl, .nil⟩
  | cons name names ih =>
    have first := ok name mem_cons_self
    have rest : ∀ name ∈ names, listed vista name = true := fun name mem =>
      ok name (mem_cons_of_mem _ mem)
    rw [singleRights, definition_of_listed first, map_cons, takeBits]
    by_cases there : valueOf vista name &&& m ≠ 0
    · obtain ⟨rights, found, denotes⟩ := ih (m &&& ~~~valueOf vista name) rest
      refine ⟨name.toLower :: rights, ?_, ?_⟩
      · rw [if_pos there]
        refine (if_pos there).trans ?_
        rw [found]
        rfl
      · rw [if_pos there]
        exact .cons (rightValue_toLower T first) denotes
    · obtain ⟨rights, found, denotes⟩ := ih m rest
      refine ⟨rights, ?_, ?_⟩
      · rw [if_neg there]
        exact (if_neg there).trans found
      · rw [if_neg there]
        exact denotes

theorem toList_hex32 (x : Mask) :
    (hex32 x).toList = '0' :: 'x' :: (Nat.toDigits 16 x.toNat).leftpad 8 '0' := by
  rw [hex32, String.toList_append, String.toList_ofList, String.toList_ofList]
  rfl

theorem rightValue_hex32 (x : Mask) : rightValue T vista (hex32 x) = .ok (x.toNat : Int) := by
  have chars := toList_hex32 x
  have label : labelRights.lookup (hex32 x) = none := by
    rw [lookup_eq_none_iff]
    rintro ⟨key, n⟩ mem
    refine bne_iff_ne.mpr fun same => ?_
    have zero : key.toList.head? = some '0' := by rw [← show hex32 x = key from same, chars]; rfl
    have letters : ∀ entry ∈ labelRights, entry.1.toList.head? ≠ some '0' := by simp [labelRights]
    exact letters _ mem zero
  have nonempty : hex32 x ≠ "" := by
    intro empty
    rw [empty] at chars
    cases chars
  rw [rightValue, label]
  simp only [if_neg nonempty, T.asInteger_hex32]

theorem leftOver_denotes : Denotes T vista (leftOver m)
    (((List.range 32).filter fun i => m &&& BitVec.twoPow 32 i ≠ 0).map (BitVec.twoPow 32)) := by
  rw [leftOver]
  induction (range 32).filter fun i => m &&& twoPow 32 i ≠ 0 with
  | nil => exact .nil
  | cons i is ih => exact .cons (rightValue_hex32 T _) ih

end Names

/-! ### Labels -/

/-- One right of a label, if the mask has its bit. -/
theorem label_denotes (T : Tcl) (vista : Bool) (m : Mask) {right : String} {i : Nat}
    (value : rightValue T vista right = .ok ((BitVec.twoPow 32 i).toNat : Int)) :
    ∃ xs, Denotes T vista (if m &&& BitVec.twoPow 32 i ≠ 0 then [right] else []) xs ∧
      union xs = m &&& BitVec.twoPow 32 i := by
  by_cases there : m &&& twoPow 32 i ≠ 0
  · rw [if_pos there]
    refine ⟨[twoPow 32 i], .cons value .nil, ?_⟩
    rw [union_cons, union_nil, and_twoPow_of_ne_zero there]
    exact or_zero
  · rw [if_neg there]
    exact ⟨[], .nil, (not_not.mp there).symm⟩

theorem mandatoryLabelRights_denotes (T : Tcl) (vista : Bool) (m : Mask) :
    ∃ xs, Denotes T vista (mandatoryLabelRights m) xs ∧ union xs = m &&& 7 := by
  obtain ⟨writes, write, write_eq⟩ := label_denotes T vista m (i := 0)
    (show rightValue T vista "system_mandatory_label_no_write_up" = _ from rfl)
  obtain ⟨reads, read, read_eq⟩ := label_denotes T vista m (i := 1)
    (show rightValue T vista "system_mandatory_label_no_read_up" = _ from rfl)
  obtain ⟨executes, execute, execute_eq⟩ := label_denotes T vista m (i := 2)
    (show rightValue T vista "system_mandatory_label_no_execute_up" = _ from rfl)
  refine ⟨_, (write.append read).append execute, ?_⟩
  rw [union_append, union_append, write_eq, read_eq, execute_eq, ← and_or_distrib_left,
    ← and_or_distrib_left]
  rfl

/-! ### Round trips -/

/-- What is found of a type is that of a type of the table. -/
theorem bitsOfType_cases (vista : Bool) (type : String) :
    bitsOfType vista type = [] ∨ ∃ names, (type, names) ∈ typeBits := by
  rcases found : typeBits.lookup type with _ | names
  · have other : type ≠ "process" := by
      rintro rfl
      cases found
    left
    rw [bitsOfType, found, decide_eq_false other, Bool.and_false]
    rfl
  · exact .inr ⟨names, mem_of_lookup found⟩

variable {type name : String} {vista : Bool}

theorem listed_lookup {table : List (String × List String)}
    (sub : ∀ entry ∈ table, entry ∈ typeMasks ++ typeBits)
    (mem : name ∈ (table.lookup type).getD []) : listed vista name = true := by
  rcases found : table.lookup type with _ | names
  · rw [found] at mem
    cases mem
  · rw [found] at mem
    have inTable : names ∈ (typeMasks ++ typeBits).map Prod.snd :=
      mem_map.mpr ⟨(type, names), sub _ (mem_of_lookup found), rfl⟩
    refine listed_of_mem vista names ?_ name mem
    exact mem_cons_of_mem _ (mem_cons_of_mem _ (mem_cons_of_mem _
      (mem_cons_of_mem _ inTable)))

theorem listed_bitsOfType (mem : name ∈ bitsOfType vista type) : listed vista name = true := by
  rw [bitsOfType] at mem
  rcases mem_append.mp mem with table | added
  · exact listed_lookup (fun _ => mem_append_right _) table
  · by_cases process : (vista && type = "process") = true
    · rw [if_pos process] at added
      rw [Bool.and_eq_true, decide_eq_true_iff] at process
      refine listed_of_mem vista (bitsOfType vista "process") ?_ name ?_
      · exact mem_cons_of_mem _ (mem_cons_of_mem _ (mem_cons_of_mem _
          mem_cons_self))
      · rw [bitsOfType, process.1]
        exact mem_append_right _ added
    · rw [if_neg process] at added
      cases added

theorem apart_bitsOfType (vista : Bool) (type : String) :
    Apart 0 ((bitsOfType vista type).map (valueOf vista)) := by
  rcases bitsOfType_cases vista type with none | ⟨names, mem⟩
  · rw [none]
    trivial
  · exact apart_of_mem vista _ (mem_cons_of_mem _ (mem_cons_of_mem _
      (mem_map_of_mem mem)))

theorem union_singleRights {names : List String} (m : Mask)
    (apart : Apart 0 (names.map (valueOf vista))) :
    union (takeBits (names.map (valueOf vista)) m).1 |||
      (takeBits (names.map (valueOf vista)) m).2 = m :=
  union_takeBits apart and_zero

theorem accessMaskToRights_denotes (T : Tcl) (vista : Bool) (m : Mask)
    (noLabel : type ≠ "mandatory_label") :
    ∃ rights xs, accessMaskToRights vista m type = .ok rights ∧ Denotes T vista rights xs ∧
      union xs = m := by
  obtain ⟨standard, standard_ok, standard_xs⟩ := combinedRights_denotes T m
    (listed_of_mem vista standardMasks mem_cons_self)
  have combined_listed : ∀ name ∈ (typeMasks.lookup type).getD [], listed vista name = true :=
    fun name mem => listed_lookup (fun _ => mem_append_left _) mem
  have single_listed : ∀ name ∈ bitsOfType vista type, listed vista name = true :=
    fun name mem => listed_bitsOfType mem
  obtain ⟨combined, combined_ok, combined_xs⟩ := combinedRights_denotes T m combined_listed
  obtain ⟨common, common_ok, common_xs⟩ := singleRights_denotes T m
    (listed_of_mem vista commonBits (mem_cons_of_mem _ mem_cons_self))
  have common_union := union_singleRights m (apart_of_mem vista commonBits mem_cons_self)
  generalize takeBits (commonBits.map (valueOf vista)) m = taken₁ at *
  obtain ⟨generic, generic_ok, generic_xs⟩ := singleRights_denotes T taken₁.2
    (listed_of_mem vista genericBits
      (mem_cons_of_mem _ (mem_cons_of_mem _ mem_cons_self)))
  have generic_union := union_singleRights taken₁.2
    (apart_of_mem vista genericBits (mem_cons_of_mem _ mem_cons_self))
  generalize takeBits (genericBits.map (valueOf vista)) taken₁.2 = taken₂ at *
  obtain ⟨single, single_ok, single_xs⟩ := singleRights_denotes T taken₂.2 single_listed
  have single_union := union_singleRights taken₂.2 (apart_bitsOfType vista type)
  generalize takeBits ((bitsOfType vista type).map (valueOf vista)) taken₂.2 = taken₃ at *
  refine ⟨standard ++ combined ++ common ++ generic ++ single ++ leftOver taken₃.2, _, ?_,
    ((((standard_xs.append combined_xs).append common_xs).append generic_xs).append
      single_xs).append (leftOver_denotes T taken₃.2), ?_⟩
  · rw [accessMaskToRights, if_neg noLabel, standard_ok, combined_ok, common_ok]
    change (singleRights vista taken₁.2 genericBits).bind _ = _
    rw [generic_ok]
    change (singleRights vista taken₂.2 (bitsOfType vista type)).bind _ = _
    rw [single_ok]
    rfl
  · -- The combined rights have no bits but those of the mask, and the others have each.
    simp only [union_append, union_bits, BitVec.or_assoc]
    rw [single_union, generic_union, common_union, union_filter_or, union_filter_or]

/-- All types but labels keep every bit. -/
theorem accessRightsToMask_names (T : Tcl) (vista : Bool) (access_mask : Mask) (type : String) :
    ∃ rights, accessMaskToRights vista access_mask type = .ok rights ∧
      accessRightsToMask T vista [rights] =
        .ok ((if type = "mandatory_label" then access_mask &&& 7 else access_mask).toNat : Int) := by
  by_cases label : type = "mandatory_label"
  · obtain ⟨xs, denotes, same⟩ := mandatoryLabelRights_denotes T vista access_mask
    refine ⟨mandatoryLabelRights access_mask, if_pos label, ?_⟩
    rw [denotes.accessRightsToMask, same, if_pos label]
  · obtain ⟨rights, xs, named, denotes, same⟩ := accessMaskToRights_denotes T vista access_mask label
    refine ⟨rights, named, ?_⟩
    rw [denotes.accessRightsToMask, same, if_neg label]

/-! ### A label with another bit -/

def hexDigit (c : Char) : Nat := if c.isDigit then c.toNat - 48 else c.toNat - 87

def hexNat (cs : List Char) (n : Nat) : Nat := cs.foldl (fun n c => 16 * n + hexDigit c) n

theorem hexNat_toDigits (n : Nat) : hexNat (Nat.toDigits 16 n) 0 = n := by
  have digit : ∀ d < 16, hexDigit d.digitChar = d := by decide
  induction n using Nat.strongRecOn with
  | ind n ih =>
    rw [Nat.toDigits_eq_if (by decide)]
    split
    · rename_i small
      exact (Nat.zero_add _).trans (digit n small)
    · rename_i large
      have last := digit (n % 16) (Nat.mod_lt n (by decide))
      have before := ih (n / 16) (by omega)
      rw [hexNat] at before
      rw [hexNat, foldl_append, before]
      change 16 * (n / 16) + hexDigit (n % 16).digitChar = n
      omega

theorem hexNat_leftpad (width : Nat) (ds : List Char) :
    hexNat (ds.leftpad width '0') 0 = hexNat ds 0 := by
  rw [leftpad]
  induction width - ds.length with
  | zero => rfl
  | succ n ih => exact ih

/-- Integers in hexadecimal. -/
def hexadecimal (s : String) : Option Int :=
  match s.toList with
  | '0' :: 'x' :: cs => some (hexNat cs 0 : Int)
  | _ => none

theorem hexadecimal_hex32 (x : Mask) : hexadecimal (hex32 x) = some (x.toNat : Int) := by
  rw [hexadecimal, toList_hex32]
  change some ((hexNat ((Nat.toDigits 16 x.toNat).leftpad 8 '0') 0 : Nat) : Int) = _
  rw [hexNat_leftpad, hexNat_toDigits]

def sampleTcl : Tcl where
  asInteger := hexadecimal
  toupper := String.toUpper
  asInteger_hex32 := hexadecimal_hex32
  asInteger_letter s letter := by
    rw [hexadecimal]
    split
    · rename_i cs chars
      rw [chars] at letter
      cases letter
    · rfl
  toupper_ascii _ _ := rfl

/-- A bit of the mask of a label that is none of the three. -/
theorem label_loses_bit : ¬ ∀ (access_mask : Mask) (type : String), ∃ rights,
    accessMaskToRights true access_mask type = .ok rights ∧
      accessRightsToMask sampleTcl true [rights] = .ok (access_mask.toNat : Int) := by
  intro claim
  obtain ⟨rights, named, back⟩ := claim 8 "mandatory_label"
  have none : accessMaskToRights true 8 "mandatory_label" = .ok [] := if_pos rfl
  cases named.symm.trans none
  cases back

end Twapi.AccessRights
