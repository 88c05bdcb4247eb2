import Twapi.Security.Ace

/-!
Security descriptors, made values of and made of these again.

* `AclState` — an ACL is absent, null or a list of ACEs.
* `aclToSet_objFromACL` — an ACL of plain ACEs comes back as it was, but one that is null and
  not so by default is not set.
* `objToPSECURITY_DESCRIPTORSWS_objFrom` — the whole descriptor.
-/

namespace Twapi.Security

open Lib List
open Base (convertElement escapeChar formOf formatList)
open CryptObject (DWORD Bytes Obj Fault cstr)

/-! ### The string of an ACL -/

theorem escapeChar_starts (braces : Bool) (c : Char) :
    ∃ x rest, escapeChar braces c = x :: rest ∧ (x = c ∨ x = '\\') := by
  unfold escapeChar
  repeat' split
  all_goals exact ⟨_, _, rfl, by simp⟩

/-- An element begins as the string does, or with a brace or a backslash. -/
theorem convertElement_starts_with (quoteHash : Bool) (c : Char) (cs : List Char) :
    ∃ x rest, convertElement quoteHash (c :: cs) = x :: rest ∧ (x = c ∨ x = '\x7b' ∨ x = '\\') := by
  have escaped : ∀ braces, ∃ x rest,
      (if quoteHash && (c :: cs).head? = some '#' then ['\\'] else []) ++
        (c :: cs).flatMap (escapeChar braces) = x :: rest ∧ (x = c ∨ x = '\x7b' ∨ x = '\\') := by
    intro braces
    obtain ⟨x, rest, starts, same⟩ := escapeChar_starts braces c
    split
    · exact ⟨'\\', _, rfl, .inr (.inr rfl)⟩
    · rw [flatMap_cons, starts]
      exact ⟨x, _, rfl, same.imp_right .inr⟩
  unfold convertElement
  cases formOf quoteHash (c :: cs) with
  | bare => exact ⟨c, cs, rfl, .inl rfl⟩
  | brace => exact ⟨'\x7b', _, rfl, .inr (.inl rfl)⟩
  | escape => exact escaped true
  | mask => exact escaped false

theorem text_acl_ne_null (revision : Nat) (aces : Obj) :
    cstr (Obj.list [objFromInt revision, aces]).text ≠ "null" := by
  have digits : (toString revision).toList = Nat.toDigits 10 revision := by simp
  obtain ⟨c, cs, first⟩ := exists_cons_of_ne_nil
    (Nat.toDigits_ne_nil (n := revision) (b := 10))
  have digit : c.isDigit = true :=
    Nat.isDigit_of_mem_toDigits (by decide) (by decide) (first ▸ mem_cons_self)
  obtain ⟨x, rest, starts, begins⟩ := convertElement_starts_with true c cs
  have chars : (Obj.list [objFromInt revision, aces]).text.toList =
      x :: (rest ++ [aces.text.toList].flatMap fun t => ' ' :: convertElement false t) := by
    have text : (Obj.list [objFromInt revision, aces]).text =
        String.ofList (formatList [(toString revision).toList, aces.text.toList]) := rfl
    rw [text, String.toList_ofList, formatList, digits, first, starts]
    rfl
  intro null
  have null_chars := congrArg String.toList null
  rw [cstr, String.toList_ofList, chars, takeWhile_cons] at null_chars
  have n : x = 'n' := by
    split at null_chars
    · exact (cons.inj null_chars).1
    · cases null_chars
  rcases begins with same | brace | backslash
  · rw [← same, n] at digit
    exact absurd digit (by decide)
  · rw [n] at brace
    exact absurd brace (by decide)
  · rw [n] at backslash
    exact absurd backslash (by decide)

/-! ### Lists of ACEs -/

def PlainAces (aces : List Bytes) : Prop := ∀ ace ∈ aces, IsAce ace ∧ aceType ace ∈ plainTypes

/-- A block that was made for a plain ACE. -/
structure Rebuilt (ace block : Bytes) : Prop where
  fields : aceFields block = aceFields ace
  size : aceSize block = plainAceSize
  length : block.length = plainAceSize

variable {ace block : Bytes}

theorem Rebuilt.type (rebuilt : Rebuilt ace block) :
    aceType block = aceType ace := congrArg AceFields.type rebuilt.fields

theorem Rebuilt.take (rebuilt : Rebuilt ace block) :
    block.take (aceSize block) = block := by
  rw [rebuilt.size, ← rebuilt.length]
  exact take_length

theorem Rebuilt.isAce (rebuilt : Rebuilt ace block) (isAce : IsAce ace)
    (plain : aceType ace ∈ plainTypes) : IsAce block where
  header := by
    rw [rebuilt.length]
    decide
  size := by rw [rebuilt.size, rebuilt.length]
  plain _ := by
    have same : Sid.read (block.drop plainSidStart) = Sid.read (ace.drop plainSidStart) :=
      congrArg AceFields.sid rebuilt.fields
    rw [same]
    exact isAce.plain plain
  object object := by
    rw [rebuilt.type] at object
    exact absurd object (plain_not_object plain)

section Convert

variable (W : Windows)

variable {aces : List Bytes}

theorem blocksOf_objFromACE (memory : Blocks) (plain : PlainAces aces) :
    ∃ objs blocks, (aces.mapM fun ace => objFromACE W (some ace)) = .ok objs ∧
      blocksOf W memory objs = .ok blocks ∧ List.Forall₂ Rebuilt aces blocks := by
  induction aces generalizing memory with
  | nil => exact ⟨[], [], rfl, rfl, .nil⟩
  | cons ace aces ih =>
    obtain ⟨isAce, type⟩ := plain ace mem_cons_self
    obtain ⟨obj, block, decoded, encoded, fields, size, length⟩ :=
      roundTrip_plain W (memory 0) isAce type
    obtain ⟨objs, blocks, decodeds, encodeds, rebuilt⟩ :=
      ih (fun i => memory (i + 1)) fun ace mem => plain ace (mem_cons_of_mem _ mem)
    refine ⟨obj :: objs, block :: blocks, ?_, ?_, .cons ⟨fields, size, length⟩ rebuilt⟩
    · rw [mapM_cons, decoded, decodeds]
      rfl
    · rw [blocksOf, encoded, encodeds]
      rfl

theorem addAces_of_fits {acl : Acl} (fits : acl.used + (aces.map List.length).sum ≤ acl.size) :
    addAces acl aces = .ok { acl with aces := acl.aces ++ aces } := by
  induction aces generalizing acl with
  | nil => rw [addAces, append_nil]
  | cons ace aces ih =>
    rw [map_cons, sum_cons] at fits
    have added : addAce acl ace = .ok { acl with aces := acl.aces ++ [ace] } :=
      if_pos (by omega)
    have used : Acl.used { acl with aces := acl.aces ++ [ace] } = acl.used + ace.length := by
      rw [Acl.used, Acl.used, map_append, sum_append, ← Nat.add_assoc]
      rfl
    rw [addAces, added]
    have rest : Acl.used { acl with aces := acl.aces ++ [ace] } + (aces.map length).sum ≤
        acl.size := by
      rw [used, Nat.add_assoc]
      exact fits
    refine (ih rest).trans ?_
    rw [append_assoc]
    rfl

end Convert

section Blocks

variable {aces blocks : List Bytes}

theorem sum_rebuilt {f : Bytes → Nat} (f_eq : ∀ ace block, Rebuilt ace block → f block = plainAceSize)
    (rebuilt : List.Forall₂ Rebuilt aces blocks) :
    (blocks.map f).sum = plainAceSize * aces.length := by
  induction rebuilt with
  | nil => rfl
  | cons first _ ih =>
    rw [map_cons, sum_cons, ih, f_eq _ _ first, length_cons, Nat.mul_succ,
      Nat.add_comm]

theorem fields_rebuilt (rebuilt : List.Forall₂ Rebuilt aces blocks) :
    blocks.map aceFields = aces.map aceFields := by
  induction rebuilt with
  | nil => rfl
  | cons first _ ih => rw [map_cons, map_cons, ih, first.fields]

theorem take_rebuilt (rebuilt : List.Forall₂ Rebuilt aces blocks) :
    blocks.map (fun block => block.take (aceSize block)) = blocks := by
  induction rebuilt with
  | nil => rfl
  | cons first _ ih => rw [map_cons, ih, first.take]

theorem plain_rebuilt (rebuilt : List.Forall₂ Rebuilt aces blocks) (plain : PlainAces aces) :
    ∀ block ∈ blocks, IsAce block ∧ aceType block ∈ plainTypes ∧ block.length % 4 = 0 := by
  induction rebuilt with
  | nil => exact fun _ mem => absurd mem not_mem_nil
  | cons first _ ih =>
    intro block mem
    rcases mem_cons.mp mem with rfl | mem
    · obtain ⟨isAce, type⟩ := plain _ mem_cons_self
      refine ⟨first.isAce isAce type, first.type ▸ type, ?_⟩
      rw [first.length]
      rfl
    · exact ih (fun ace mem => plain ace (mem_cons_of_mem _ mem)) block mem

theorem aclRevision_plain (plain : ∀ block ∈ blocks, aceType block ∈ plainTypes) :
    aclRevision blocks = ACL_REVISION := by
  refine if_neg ?_
  rintro ⟨block, mem, ds⟩
  have type := plain block mem
  simp only [plainTypes, dsTypes, mem_cons, not_mem_nil, or_false] at type ds
  omega

end Blocks

/-! ### ACLs -/

inductive AclState where
  | absent
  | null
  | acl (aces : List AceFields)
deriving DecidableEq

/-- The ACL of a descriptor, if its flag is set. -/
def aclState (present : Bool) (aclP : Option Acl) : AclState :=
  if present then
    match aclP with
    | none => .null
    | some acl => .acl (acl.aces.map aceFields)
  else .absent

/-- What is left of an ACL: it is no longer there if it is null and not so by default. -/
def AclState.kept (defaulted : Bool) : AclState → AclState
  | .null => if defaulted then .null else .absent
  | state => state

/-- A size that fits into `AclSize`, for an ACL with as many plain ACEs. -/
def Acl.Fits (acl : Acl) : Prop := sizeofACL + plainAceSize * acl.aces.length ≤ 0xffff

section Convert

variable (W : Windows)

theorem objToPACLSWS_objFromACL (memory : Blocks) {acl : Acl} (plain : PlainAces acl.aces)
    (fits : acl.Fits) :
    ∃ obj acl', objFromACL W (some acl) = .ok obj ∧
      objToPACLSWS W memory obj = .ok (some acl') ∧
      acl'.aces.map aceFields = acl.aces.map aceFields := by
  obtain ⟨objs, blocks, decoded, encoded, rebuilt⟩ := blocksOf_objFromACE W memory plain
  have sizes := sum_rebuilt (f := aceSize) (fun _ _ r => r.size) rebuilt
  have lengths := sum_rebuilt (f := length) (fun _ _ r => r.length) rebuilt
  have blocks_plain := plain_rebuilt rebuilt plain
  have revision : aclRevision blocks = ACL_REVISION :=
    aclRevision_plain fun block mem => (blocks_plain block mem).2.1
  let size := sizeofACL + plainAceSize * acl.aces.length
  have small : size ≤ 0xffff := fits
  have filled : fillAcl W size ACL_REVISION blocks = .ok ⟨ACL_REVISION, size, blocks⟩ := by
    rw [fillAcl, if_pos small, addAces_of_fits]
    · rfl
    · rw [lengths]
      exact Nat.le_refl _
  have valid : W.isValidAcl ⟨ACL_REVISION, size, blocks⟩ = true :=
    W.isValidAcl_of_isPlain _
      { revision := rfl
        used := by
          rw [Acl.used, lengths]
        size := fits
        aces := blocks_plain }
  refine ⟨.list [objFromInt acl.revision, .list objs], ⟨ACL_REVISION, size, blocks⟩, ?_, ?_,
    fields_rebuilt rebuilt⟩
  · rw [objFromACL, decoded]
    rfl
  · rw [objToPACLSWS, if_neg (text_acl_ne_null acl.revision (.list objs)), objGetElements_list]
    change (blocksOf W memory objs).bind _ = _
    rw [encoded]
    change (fillAcl W (sizeofACL + (blocks.map aceSize).sum) (aclRevision blocks)
      (blocks.map fun block => block.take (aceSize block))).bind _ = _
    rw [sizes, revision, take_rebuilt rebuilt, filled]
    change (if W.isValidAcl ⟨ACL_REVISION, size, blocks⟩ then _ else _) = _
    rw [if_pos valid]
    rfl

/-- The state after a call that sets the ACL, or after none. -/
def setState : Option (Option Acl) → AclState
  | none => .absent
  | some aclP => aclState true aclP

theorem aclToSet_objFromACL (memory : Blocks) (control present defaulted : Control)
    {aclP : Option Acl}
    (plain : ∀ acl ∈ presentAcl control present aclP, PlainAces acl.aces ∧ acl.Fits) :
    ∃ obj set, objFromACL W (presentAcl control present aclP) = .ok obj ∧
      aclToSet W memory control present defaulted obj = .ok set ∧
      setState set = (aclState (control.has present) aclP).kept (control.has defaulted) := by
  rcases flag : control.has present with _ | _
  · refine ⟨.atom "null", none, ?_, ?_, rfl⟩
    · rw [presentAcl, flag]
      rfl
    · rw [aclToSet, flag]
      rfl
  · have shown : presentAcl control present aclP = aclP := if_pos flag
    have call : ∀ obj, aclToSet W memory control present defaulted obj =
        (objToPACLSWS W memory obj).bind fun aclP =>
          .ok (if aclP.isSome || control.has defaulted then some aclP else none) :=
      fun _ => if_pos flag
    rw [shown] at plain ⊢
    rcases aclP with _ | acl
    · refine ⟨.atom "null", if control.has defaulted then some none else none, rfl, ?_, ?_⟩
      · rw [call]
        rfl
      · cases control.has defaulted <;> rfl
    · obtain ⟨plain, fits⟩ := plain acl rfl
      obtain ⟨obj, acl', decoded, encoded, fields⟩ := objToPACLSWS_objFromACL W memory plain fits
      refine ⟨obj, some (some acl'), decoded, ?_, congrArg AclState.acl fields⟩
      rw [call, encoded]
      rfl

end Convert

/-! ### Control bits -/

namespace Control

variable {flag mask : Control}

theorem or_and (control : Control) (disjoint : flag &&& mask = 0) :
    (control ||| flag) &&& mask = control &&& mask := by
  rw [BitVec.and_or_distrib_right, disjoint]
  exact BitVec.or_zero

theorem put_and (control : Control) (on : Bool) (disjoint : flag &&& mask = 0) :
    control.put flag on &&& mask = control &&& mask := by
  cases on with
  | true => exact or_and control disjoint
  | false =>
    -- The mask is cleared where the flag is, which is nowhere.
    have kept : ~~~flag &&& mask = mask := by
      have split : flag &&& mask ||| ~~~flag &&& mask = mask := by
        rw [← BitVec.and_or_distrib_right, BitVec.or_not_self, BitVec.allOnes_and]
      rw [disjoint] at split
      exact BitVec.zero_or.symm.trans split
    change control &&& ~~~flag &&& mask = _
    rw [BitVec.and_assoc, kept]

theorem has_or_self (control : Control) (nonzero : flag ≠ 0) : (control ||| flag).has flag = true := by
  rw [has, BitVec.and_or_distrib_right, BitVec.and_self, decide_eq_true_iff]
  exact fun zero => nonzero (BitVec.or_eq_zero_iff.mp zero).2

variable {present defaulted : Control}

/-- The two flags of an ACL are set. -/
theorem set_and (control : Control) (value : Bool) (apart : present &&& mask = 0)
    (apart' : defaulted &&& mask = 0) :
    (control ||| present).put defaulted value &&& mask = control &&& mask :=
  (put_and _ _ apart').trans (or_and _ apart)

theorem has_set (control : Control) (value : Bool) (nonzero : present ≠ 0)
    (disjoint : defaulted &&& present = 0) :
    ((control ||| present).put defaulted value).has present = true := by
  rw [has, put_and _ _ disjoint]
  exact has_or_self control nonzero

theorem has_congr {control control' : Control} (same : control &&& flag = control' &&& flag) :
    control.has flag = control'.has flag := by
  rw [has, has, same]

end Control

namespace SecurityDescriptor

def daclState (secd : SecurityDescriptor) : AclState :=
  aclState (secd.control.has SE_DACL_PRESENT) secd.dacl

def saclState (secd : SecurityDescriptor) : AclState :=
  aclState (secd.control.has SE_SACL_PRESENT) secd.sacl

variable (secd : SecurityDescriptor) (control : Control) {mask : Control}

theorem setOwner_control (sid : Option Sid) (disjoint : SE_OWNER_DEFAULTED &&& mask = 0) :
    (secd.setOwner control sid).control &&& mask = secd.control &&& mask := by
  rcases sid with _ | sid
  · rfl
  · exact Control.put_and _ _ disjoint

theorem setGroup_control (sid : Option Sid) (disjoint : SE_GROUP_DEFAULTED &&& mask = 0) :
    (secd.setGroup control sid).control &&& mask = secd.control &&& mask := by
  rcases sid with _ | sid
  · rfl
  · exact Control.put_and _ _ disjoint

theorem setDacl_control (acl : Option (Option Acl)) (present : SE_DACL_PRESENT &&& mask = 0)
    (defaulted : SE_DACL_DEFAULTED &&& mask = 0) :
    (secd.setDacl control acl).control &&& mask = secd.control &&& mask := by
  rcases acl with _ | acl
  · rfl
  · exact Control.set_and _ _ present defaulted

theorem setSacl_control (acl : Option (Option Acl)) (present : SE_SACL_PRESENT &&& mask = 0)
    (defaulted : SE_SACL_DEFAULTED &&& mask = 0) :
    (secd.setSacl control acl).control &&& mask = secd.control &&& mask := by
  rcases acl with _ | acl
  · rfl
  · exact Control.set_and _ _ present defaulted

/-- Where there was no ACL, the state is that of the call. -/
theorem setDacl_state (set : Option (Option Acl))
    (absent : secd.control.has SE_DACL_PRESENT = false) :
    (secd.setDacl control set).daclState = setState set := by
  rcases set with _ | acl
  · rw [daclState, setDacl, absent]
    rfl
  · have present : (secd.setDacl control (some acl)).control.has SE_DACL_PRESENT = true :=
      Control.has_set _ _ (by decide) (by decide)
    rw [daclState, present]
    rfl

theorem setSacl_state (set : Option (Option Acl))
    (absent : secd.control.has SE_SACL_PRESENT = false) :
    (secd.setSacl control set).saclState = setState set := by
  rcases set with _ | acl
  · rw [saclState, setSacl, absent]
    rfl
  · have present : (secd.setSacl control (some acl)).control.has SE_SACL_PRESENT = true :=
      Control.has_set _ _ (by decide) (by decide)
    rw [saclState, present]
    rfl

theorem setSacl_daclState (set : Option (Option Acl)) :
    (secd.setSacl control set).daclState = secd.daclState := by
  have bit : (secd.setSacl control set).control &&& SE_DACL_PRESENT =
      secd.control &&& SE_DACL_PRESENT := setSacl_control secd control set (by decide) (by decide)
  have dacl : (secd.setSacl control set).dacl = secd.dacl := by
    rcases set with _ | set <;> rfl
  rw [daclState, Control.has_congr bit, dacl, daclState]

end SecurityDescriptor

/-! ### Descriptors -/

/-- A descriptor whose ACLs have plain ACEs, where they are present. -/
structure PlainDescriptor extends SecurityDescriptor where
  revision_eq : revision = SECURITY_DESCRIPTOR_REVISION
  dacl_plain : ∀ acl ∈ presentAcl control SE_DACL_PRESENT dacl, PlainAces acl.aces
  sacl_plain : ∀ acl ∈ presentAcl control SE_SACL_PRESENT sacl, PlainAces acl.aces

/-- The ACLs that are present fit. -/
def SecurityDescriptor.Fits (secd : SecurityDescriptor) : Prop :=
  (∀ acl ∈ presentAcl secd.control SE_DACL_PRESENT secd.dacl, acl.Fits) ∧
    ∀ acl ∈ presentAcl secd.control SE_SACL_PRESENT secd.sacl, acl.Fits

section Convert

variable (W : Windows)

theorem convertSidToStringSid_ne_empty (sid : Sid) : W.convertSidToStringSid sid ≠ "" := by
  intro empty
  obtain ⟨code, refused⟩ := W.convertStringSidToSid_empty
  have converted := W.convertStringSidToSid_convert sid
  rw [empty] at converted
  cases refused.symm.trans converted

theorem sidOfObj_objFromSIDOrNull (sid : Option Sid) :
    sidOfObj W (objFromSIDOrNull W sid) = .ok sid := by
  rcases sid with _ | sid
  · rfl
  · have text : (Obj.atom (W.convertSidToStringSid sid)).text ≠ "" :=
      convertSidToStringSid_ne_empty W sid
    rw [objFromSIDOrNull, sidOfObj, if_neg text, twapiSidFromStringSWS_convert]
    rfl

end Convert

section Rebuilt

variable (control : Control) (owner group : Option Sid) (dacl sacl : Option (Option Acl))

/-- A new descriptor with its control bits, its owner and its group. -/
def ownedDescriptor : SecurityDescriptor :=
  ((SecurityDescriptor.initial.setControl secd_control_mask
    (secd_control_mask &&& control)).setOwner control owner).setGroup control group

def rebuiltDescriptor : SecurityDescriptor :=
  ((ownedDescriptor control owner group).setDacl control dacl).setSacl control sacl

theorem ownedDescriptor_control {mask : Control}
    (ownerFlag : SE_OWNER_DEFAULTED &&& mask = 0) (groupFlag : SE_GROUP_DEFAULTED &&& mask = 0) :
    (ownedDescriptor control owner group).control &&& mask =
      (secd_control_mask &&& control) &&& mask := by
  rw [ownedDescriptor, SecurityDescriptor.setGroup_control _ _ _ groupFlag,
    SecurityDescriptor.setOwner_control _ _ _ ownerFlag]
  exact congrArg (· &&& mask) BitVec.zero_or

/-- No other bits are set. -/
theorem ownedDescriptor_absent {flag : Control} (ownerFlag : SE_OWNER_DEFAULTED &&& flag = 0)
    (groupFlag : SE_GROUP_DEFAULTED &&& flag = 0) (unmasked : secd_control_mask &&& flag = 0) :
    (ownedDescriptor control owner group).control.has flag = false := by
  have zero : (ownedDescriptor control owner group).control &&& flag = 0 := by
    rw [ownedDescriptor_control control owner group ownerFlag groupFlag, BitVec.and_assoc,
      BitVec.and_comm control, ← BitVec.and_assoc, unmasked]
    exact BitVec.zero_and
  rw [Control.has, zero]
  rfl

theorem rebuiltDescriptor_owner : (rebuiltDescriptor control owner group dacl sacl).owner = owner := by
  rcases owner with _ | owner <;> rcases group with _ | group <;> rcases dacl with _ | dacl <;>
    rcases sacl with _ | sacl <;> rfl

theorem rebuiltDescriptor_group : (rebuiltDescriptor control owner group dacl sacl).group = group := by
  rcases owner with _ | owner <;> rcases group with _ | group <;> rcases dacl with _ | dacl <;>
    rcases sacl with _ | sacl <;> rfl

theorem rebuiltDescriptor_daclState :
    (rebuiltDescriptor control owner group dacl sacl).daclState = setState dacl := by
  rw [rebuiltDescriptor, SecurityDescriptor.setSacl_daclState, SecurityDescriptor.setDacl_state]
  exact ownedDescriptor_absent control owner group (by decide) (by decide) (by decide)

theorem rebuiltDescriptor_saclState :
    (rebuiltDescriptor control owner group dacl sacl).saclState = setState sacl := by
  rw [rebuiltDescriptor, SecurityDescriptor.setSacl_state]
  have same : ((ownedDescriptor control owner group).setDacl control dacl).control &&&
      SE_SACL_PRESENT = (ownedDescriptor control owner group).control &&& SE_SACL_PRESENT :=
    SecurityDescriptor.setDacl_control _ _ _ (by decide) (by decide)
  rw [Control.has_congr same]
  exact ownedDescriptor_absent control owner group (by decide) (by decide) (by decide)

theorem rebuiltDescriptor_control :
    (rebuiltDescriptor control owner group dacl sacl).control &&& secd_control_mask =
      control &&& secd_control_mask := by
  rw [rebuiltDescriptor, SecurityDescriptor.setSacl_control _ _ _ (by decide) (by decide),
    SecurityDescriptor.setDacl_control _ _ _ (by decide) (by decide),
    ownedDescriptor_control _ _ _ (by decide) (by decide), BitVec.and_comm secd_control_mask,
    BitVec.and_assoc, BitVec.and_self]

end Rebuilt

/-! ### Round trips -/

theorem roundTrip_descriptor (W : Windows) (dacls sacls : Blocks) (secd : PlainDescriptor)
    (fits : secd.Fits) :
    ∃ obj dacl sacl, objFromSECURITY_DESCRIPTOR W (some secd.toSecurityDescriptor) = .ok obj ∧
      objToPSECURITY_DESCRIPTORSWS W dacls sacls obj =
        .ok (some (rebuiltDescriptor secd.control secd.owner secd.group dacl sacl)) ∧
      setState dacl = secd.daclState.kept (secd.control.has SE_DACL_DEFAULTED) ∧
      setState sacl = secd.saclState.kept (secd.control.has SE_SACL_DEFAULTED) := by
  obtain ⟨⟨revision, control, owner, group, dacl, sacl⟩, revision_eq, dacl_plain, sacl_plain⟩ := secd
  obtain ⟨daclObj, daclSet, daclDecoded, daclEncoded, daclKept⟩ :=
    aclToSet_objFromACL W dacls control SE_DACL_PRESENT SE_DACL_DEFAULTED
      fun acl mem => ⟨dacl_plain acl mem, fits.1 acl mem⟩
  obtain ⟨saclObj, saclSet, saclDecoded, saclEncoded, saclKept⟩ :=
    aclToSet_objFromACL W sacls control SE_SACL_PRESENT SE_SACL_DEFAULTED
      fun acl mem => ⟨sacl_plain acl mem, fits.2 acl mem⟩
  refine ⟨.list [objFromInt control.toNat, objFromSIDOrNull W owner, objFromSIDOrNull W group,
      daclObj, saclObj], daclSet, saclSet, ?_, ?_, daclKept, saclKept⟩
  · have supported : ¬ revision ≠ SECURITY_DESCRIPTOR_REVISION := fun ne => ne revision_eq
    rw [objFromSECURITY_DESCRIPTOR]
    refine (if_neg supported).trans ?_
    rw [daclDecoded, saclDecoded]
    rfl
  · have bits : BitVec.ofInt 16 (control.toNat : Int) = control := by
      rw [BitVec.ofInt_natCast, BitVec.ofNat_toNat, BitVec.setWidth_eq]
    have whole : ¬ ((BitVec.ofInt 16 (control.toNat : Int)).toNat : Int) ≠ control.toNat := by
      rw [bits]
      exact fun ne => ne rfl
    rw [objToPSECURITY_DESCRIPTORSWS, objGetElements_list]
    change (objToInt W (objFromInt control.toNat)).bind _ = _
    rw [objToInt_objFromInt W control.isLt]
    refine (if_neg whole).trans ?_
    rw [bits, sidOfObj_objFromSIDOrNull, sidOfObj_objFromSIDOrNull]
    change (aclToSet W dacls control SE_DACL_PRESENT SE_DACL_DEFAULTED daclObj).bind _ = _
    rw [daclEncoded]
    change (aclToSet W sacls control SE_SACL_PRESENT SE_SACL_DEFAULTED saclObj).bind _ = _
    rw [saclEncoded]
    rfl

/-- An ACL that is null and not so by default is lost, and nothing else. -/
theorem objToPSECURITY_DESCRIPTORSWS_objFrom (W : Windows) (dacls sacls : Blocks)
    (secd : PlainDescriptor) (fits : secd.Fits) :
    ∃ obj secd', objFromSECURITY_DESCRIPTOR W (some secd.toSecurityDescriptor) = .ok obj ∧
      objToPSECURITY_DESCRIPTORSWS W dacls sacls obj = .ok (some secd') ∧
      secd'.owner = secd.owner ∧ secd'.group = secd.group ∧
      secd'.daclState = secd.daclState.kept (secd.control.has SE_DACL_DEFAULTED) ∧
      secd'.saclState = secd.saclState.kept (secd.control.has SE_SACL_DEFAULTED) ∧
      secd'.control &&& secd_control_mask = secd.control &&& secd_control_mask := by
  obtain ⟨obj, dacl, sacl, decoded, encoded, daclKept, saclKept⟩ :=
    roundTrip_descriptor W dacls sacls secd fits
  exact ⟨obj, _, decoded, encoded, rebuiltDescriptor_owner .., rebuiltDescriptor_group ..,
    (rebuiltDescriptor_daclState ..).trans daclKept,
    (rebuiltDescriptor_saclState ..).trans saclKept, rebuiltDescriptor_control ..⟩

/-- A DACL for everyone, and a SACL that is null by default. -/
def everyoneDescriptor : PlainDescriptor where
  revision := 1
  control := 0x1034
  owner := some everyone
  group := none
  dacl := some ⟨2, 28, [everyoneAce.bytes]⟩
  sacl := none
  revision_eq := rfl
  dacl_plain := by
    rintro acl ⟨⟩ ace mem
    rw [List.mem_singleton.mp mem]
    exact ⟨everyoneAce.isAce, by decide⟩
  sacl_plain := by
    rintro acl ⟨⟩

theorem objToPSECURITY_DESCRIPTORSWS_objFrom_everyone :
    ∃ obj secd', objFromSECURITY_DESCRIPTOR sampleWindows
        (some everyoneDescriptor.toSecurityDescriptor) = .ok obj ∧
      objToPSECURITY_DESCRIPTORSWS sampleWindows (fun _ _ => 0) (fun _ _ => 0) obj =
        .ok (some secd') ∧
      secd'.owner = some everyone ∧ secd'.group = none ∧
      secd'.daclState = .acl [⟨0, 0, 0x80000000, some everyone⟩] ∧ secd'.saclState = .null := by
  have fits : everyoneDescriptor.Fits := by
    constructor
    · rintro acl ⟨⟩
      change sizeofACL + plainAceSize * 1 ≤ 0xffff
      decide
    · rintro acl ⟨⟩
  obtain ⟨obj, secd', decoded, encoded, owner, group, dacl, sacl, -⟩ :=
    objToPSECURITY_DESCRIPTORSWS_objFrom sampleWindows (fun _ _ => 0) (fun _ _ => 0)
      everyoneDescriptor fits
  exact ⟨obj, secd', decoded, encoded, owner, group, dacl.trans (by decide), sacl.trans (by decide)⟩

/-- Everyone has all access. -/
def openDescriptor : PlainDescriptor where
  revision := 1
  control := SE_DACL_PRESENT
  owner := none
  group := none
  dacl := none
  sacl := none
  revision_eq := rfl
  dacl_plain := by
    rintro acl ⟨⟩
  sacl_plain := by
    rintro acl ⟨⟩

theorem openDescriptor_loses_dacl : ¬ ∀ secd : PlainDescriptor, ∃ obj secd',
    objFromSECURITY_DESCRIPTOR sampleWindows (some secd.toSecurityDescriptor) = .ok obj ∧
      objToPSECURITY_DESCRIPTORSWS sampleWindows (fun _ _ => 0) (fun _ _ => 0) obj =
        .ok (some secd') ∧
      secd'.daclState = secd.daclState := by
  intro claim
  have fits : openDescriptor.Fits := by
    constructor <;> rintro acl ⟨⟩
  obtain ⟨obj, secd', decoded, encoded, same⟩ := claim openDescriptor
  obtain ⟨obj', dacl, sacl, decoded', encoded', kept, -⟩ :=
    roundTrip_descriptor sampleWindows (fun _ _ => 0) (fun _ _ => 0) openDescriptor fits
  cases decoded.symm.trans decoded'
  cases encoded.symm.trans encoded'
  rw [rebuiltDescriptor_daclState, kept] at same
  exact absurd same (by decide)

end Twapi.Security
