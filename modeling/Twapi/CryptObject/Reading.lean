import Mathlib.Data.List.TakeWhile
import Twapi.CryptObject.Decode

/-!
What a value says to its reader, and what of it is kept when it is parsed.

* `Reading` — strings and byte strings stay as they are; empty parts that are optional
  are the same as ones that are left out.
* `Kind.carries` — the value of a parsed structure reads as the value it was parsed from,
  exactly if `Kind.Keeps` holds.
-/

namespace Twapi.CryptObject

open Option Obj Kind

/-! ### Readings -/

inductive NameReading where
  | plain (choice : DWORD) (name : String)
  | other (oid value : String)

/-- An extension has no reading of its value where that is empty and stands for no
structure. -/
inductive Reading where
  | bits (data : String) (unused : DWORD)
  | usages (oids : List String)
  | names (names : List NameReading)
  | basicConstraints (ca constrained : Bool) (pathLen : DWORD)
  | authorityKeyId (keyId : String) (issuer : List NameReading) (serial : String)
  | algorithm (oid parameters : String)
  | extensions (exts : List (String × Bool × Option Reading))
  | anyString (type : DWORD) (value : String)
  | publicKey (oid parameters data : String) (unused : DWORD)
  | blob (data : String)

def readList {α : Type} (read : Obj → Option α) : List Obj → Option (List α)
  | [] => some []
  | o :: os =>
    match read o, readList read os with
    | some a, some as => some (a :: as)
    | _, _ => none

section

variable (T : Tcl)

/-- No bits are unused where there are none. -/
def readBits (o : Obj) : Option (String × DWORD) :=
  match o.elements with
  | some [] => some ("", 0)
  | some [data, unused] =>
    match T.asDWORD unused.text with
    | some n => some (data.text, if data.text = "" then 0 else n)
    | none => none
  | _ => none

def readName (o : Obj) : Option NameReading :=
  match o.elements with
  | some [choice, name] =>
    match T.asDWORD choice.text with
    | none => none
    | some n =>
      if n = 1 then
        match name.elements with
        | some [oid, value] => some (.other oid.text value.text)
        | _ => none
      else some (.plain n name.text)
  | _ => none

def readNames (o : Obj) : Option (List NameReading) :=
  match o.elements with
  | none => none
  | some names => readList (readName T) names

def readAlgorithm (o : Obj) : Option (String × String) :=
  match o.elements with
  | some [] => some ("", "")
  | some [oid] => some (oid.text, "")
  | some [oid, parameters] => some (oid.text, parameters.text)
  | _ => none

def Kind.read (kind : Kind) (o : Obj) : Option Reading :=
  match kind with
  | .keyUsage => (readBits T o).map fun bits => .bits bits.1 bits.2
  | .enhancedKeyUsage => o.elements.map fun oids => .usages (oids.map Obj.text)
  | .alternateName => (readNames T o).map .names
  | .basicConstraints2 =>
    match o.elements with
    | some [ca, constrained, pathLen] =>
      match T.asBoolean ca.text, T.asBoolean constrained.text, T.asDWORD pathLen.text with
      | some ca, some constrained, some pathLen => some (.basicConstraints ca constrained pathLen)
      | _, _, _ => none
    | _ => none
  | .authorityKeyId2 =>
    match o.elements with
    | some [keyId, issuer, serial] =>
      (readNames T issuer).map fun names => .authorityKeyId keyId.text names serial.text
    | _ => none
  | .algorithmIdentifier => (readAlgorithm o).map fun alg => .algorithm alg.1 alg.2
  | .unicodeAnyString =>
    match o.elements with
    | some [type, value] => (T.asDWORD type.text).map fun type => .anyString type value.text
    | _ => none
  | .publicKeyInfo =>
    match o.elements with
    | some [alg, key] =>
      match readAlgorithm alg, readBits T key with
      | some alg, some bits => some (.publicKey alg.1 alg.2 bits.1 bits.2)
      | _, _ => none
    | _ => none
  | .subjectKeyIdentifier => some (.blob o.text)
  | .publicKeyBlob => none
  | .extensions => none

end

/-! ### What is kept -/

/-- All characters are ones that bytes stand for. -/
def IsBytes (o : Obj) : Prop := ∀ c ∈ o.text.toList, c.toNat < 256

/-- The string does not end before its last character. -/
def NulFree (o : Obj) : Prop := '\x00' ∉ o.text.toList

def KeepsBits (o : Obj) : Prop :=
  match o.elements with
  | some [data, _] => IsBytes data
  | _ => True

def KeepsName (T : Tcl) (o : Obj) : Prop :=
  match o.elements with
  | some [choice, name] =>
    match T.asDWORD choice.text with
    | none => True
    | some n =>
      if n = 2 ∨ n = 3 ∨ n = 7 then NulFree name
      else if n = 5 ∨ n = 8 then IsBytes name
      else if n = 1 then
        match name.elements with
        | some [_, value] => IsBytes value
        | _ => True
      else True
  | _ => True

def KeepsNames (T : Tcl) (o : Obj) : Prop :=
  match o.elements with
  | none => True
  | some names => ∀ name ∈ names, KeepsName T name

def KeepsAlgorithm (o : Obj) : Prop :=
  match o.elements with
  | some [_, parameters] => IsBytes parameters
  | _ => True

/-- Byte strings are bytes, and names that are strings do not end early. -/
def Kind.Keeps (T : Tcl) (kind : Kind) (o : Obj) : Prop :=
  match kind with
  | .keyUsage => KeepsBits o
  | .alternateName => KeepsNames T o
  | .authorityKeyId2 =>
    match o.elements with
    | some [keyId, issuer, serial] => IsBytes keyId ∧ KeepsNames T issuer ∧ IsBytes serial
    | _ => True
  | .algorithmIdentifier => KeepsAlgorithm o
  | .publicKeyInfo =>
    match o.elements with
    | some [alg, key] => KeepsAlgorithm alg ∧ KeepsBits key
    | _ => True
  | .subjectKeyIdentifier => IsBytes o
  | _ => True

/-! ### Characters and bytes -/

theorem toNat_charOf (b : UInt8) : (charOf b).toNat = b.toNat := by
  have small := b.toNat_lt
  have valid : b.toNat.isValidChar := .inl (by omega)
  unfold charOf Char.ofNat
  rw [dif_pos valid]
  rfl

theorem charOf_byteOf_iff (c : Char) : charOf (byteOf c) = c ↔ c.toNat < 256 := by
  rw [← Char.toNat_inj, toNat_charOf]
  unfold byteOf
  rw [UInt8.toNat_ofNat']
  omega

theorem byteOf_charOf (b : UInt8) : byteOf (charOf b) = b := by
  unfold byteOf
  rw [toNat_charOf]
  exact UInt8.ofNat_toNat

theorem toBytes_ofBytes (bytes : Bytes) : (Obj.ofBytes bytes).toBytes = bytes := by
  have chars : (ofBytes bytes).text.toList = bytes.map charOf := String.toList_ofList
  have back : byteOf ∘ charOf = id := funext byteOf_charOf
  rw [toBytes, chars, List.map_map, back, List.map_id]

theorem text_ofBytes_iff (o : Obj) : (Obj.ofBytes o.toBytes).text = o.text ↔ IsBytes o := by
  have chars : (ofBytes o.toBytes).text =
      String.ofList (o.text.toList.map fun c => charOf (byteOf c)) := by
    unfold Obj.ofBytes Obj.toBytes
    rw [List.map_map]
    rfl
  have each : (o.text.toList.map fun c => charOf (byteOf c)) = o.text.toList.map id ↔
      ∀ c ∈ o.text.toList, charOf (byteOf c) = c := List.map_inj_left
  rw [chars, ← String.toList_inj, String.toList_ofList]
  rw [List.map_id] at each
  simp only [each, charOf_byteOf_iff, IsBytes]

theorem ofBytes_text_eq_iff (bytes : Bytes) : (Obj.ofBytes bytes).text = "" ↔ bytes = [] := by
  have chars : (ofBytes bytes).text = String.ofList (bytes.map charOf) := rfl
  rw [chars, ← String.toList_eq_nil_iff, String.toList_ofList, List.map_eq_nil_iff]

theorem toBytes_eq_nil_iff (o : Obj) : o.toBytes = [] ↔ o.text = "" := by
  unfold Obj.toBytes
  rw [List.map_eq_nil_iff, String.toList_eq_nil_iff]

theorem cstr_eq_iff (s : String) : cstr s = s ↔ '\x00' ∉ s.toList := by
  unfold cstr
  rw [← String.toList_inj, String.toList_ofList, List.takeWhile_eq_self_iff]
  constructor
  · intro all nul
    exact absurd (all _ nul) (by decide)
  · intro free c among
    refine decide_eq_true ?_
    rintro rfl
    exact free among

/-! ### Values of parsed structures -/

/-- The value of what is parsed reads as the value it is parsed from, exactly if that
is kept. -/
def Carries {α β : Type} (parse : Obj → Except Fault α) (obj : α → Obj) (read : Obj → Option β)
    (keeps : Obj → Prop) : Prop :=
  ∀ o a, parse o = .ok a → ∃ m m', read o = some m ∧ read (obj a) = some m' ∧ (m' = m ↔ keeps o)

theorem Carries.list {α β : Type} {parse : Obj → Except Fault α} {obj : α → Obj}
    {read : Obj → Option β} {keeps : Obj → Prop} (carries : Carries parse obj read keeps)
    {os : List Obj} : ∀ {as : List α}, parseList parse os = .ok as →
      ∃ ms ms', readList read os = some ms ∧ readList read (as.map obj) = some ms' ∧
        (ms' = ms ↔ ∀ o ∈ os, keeps o) := by
  induction os with
  | nil =>
    intro as parsed
    cases parsed
    exact ⟨[], [], rfl, rfl, iff_of_true rfl nofun⟩
  | cons o os ih =>
    intro as parsed
    unfold parseList at parsed
    cases first : parse o with
    | error fault =>
      rw [first] at parsed
      cases parsed
    | ok a =>
      rw [first] at parsed
      cases others : parseList parse os with
      | error fault =>
        rw [others] at parsed
        cases parsed
      | ok as =>
        rw [others] at parsed
        cases parsed
        obtain ⟨m, m', reads, reads', kept⟩ := carries o a first
        obtain ⟨ms, ms', all, all', keptAll⟩ := ih others
        refine ⟨m :: ms, m' :: ms', ?_, ?_, ?_⟩
        · simp only [readList, reads, all]
        · simp only [List.map_cons, readList, reads', all']
        · rw [List.cons.injEq, kept, keptAll, List.forall_mem_cons]

section

variable (T : Tcl)

theorem carries_bits (junk : DWORD) :
    Carries (parseBitBlob T junk) BitBlob.obj (readBits T) KeepsBits := by
  intro o blob parsed
  unfold parseBitBlob at parsed
  unfold KeepsBits
  split at parsed
  · rename_i empty
    cases parsed
    refine ⟨("", 0), ("", 0), ?_, ?_, ?_⟩
    · rw [readBits, empty]
    · simp [readBits, BitBlob.obj, elements, T.asDWORD_ofDWORD, text]
    · rw [empty]
      exact iff_of_true rfl trivial
  · rename_i data unused two
    cases number : T.asDWORD unused.text with
    | none =>
      rw [number] at parsed
      cases parsed
    | some n =>
      rw [number] at parsed
      dsimp only at parsed
      split at parsed
      · cases parsed
        rw [two]
        by_cases none : data.text = ""
        · refine ⟨("", 0), ("", 0), ?_, ?_, ?_⟩
          · simp [readBits, two, number, none]
          · have empty := (toBytes_eq_nil_iff data).mpr none
            simp [readBits, BitBlob.obj, empty, elements, T.asDWORD_ofDWORD, text]
          · refine iff_of_true rfl fun c among => ?_
            rw [none] at among
            cases among
        · have bytes := mt (toBytes_eq_nil_iff data).mp none
          have text := mt (ofBytes_text_eq_iff data.toBytes).mp bytes
          refine ⟨(data.text, n), ((ofBytes data.toBytes).text, n), ?_, ?_, ?_⟩
          · simp [readBits, two, number, none]
          · simp only [readBits, BitBlob.obj, if_neg bytes, elements, T.asDWORD_ofDWORD,
              if_neg text]
          · rw [Prod.mk.injEq, text_ofBytes_iff]
            exact and_iff_left rfl
      · cases parsed
  · cases parsed

variable {o choice name : Obj} {n junk : DWORD}

theorem readName_plain (two : o.elements = some [choice, name])
    (number : T.asDWORD choice.text = some n) (plain : n ≠ 1) :
    readName T o = some (.plain n name.text) := by
  unfold readName
  rw [two]
  dsimp only
  rw [number]
  exact if_neg plain

theorem readName_list (n : DWORD) (name : Obj) (plain : n ≠ 1) :
    readName T (.list [.ofDWORD n, name]) = some (.plain n name.text) :=
  readName_plain T rfl (T.asDWORD_ofDWORD n) plain

theorem carries_string (two : o.elements = some [choice, name])
    (number : T.asDWORD choice.text = some n) (plain : n ≠ 1) :
    ∃ m m', readName T o = some m ∧
      readName T (.list [.ofDWORD n, .atom (cstr name.text)]) = some m' ∧ (m' = m ↔ NulFree name) := by
  refine ⟨.plain n name.text, .plain n (cstr name.text), readName_plain T two number plain,
    readName_list T n _ plain, ?_⟩
  rw [NameReading.plain.injEq, cstr_eq_iff]
  exact and_iff_right rfl

theorem carries_bytes (two : o.elements = some [choice, name])
    (number : T.asDWORD choice.text = some n) (plain : n ≠ 1) :
    ∃ m m', readName T o = some m ∧
      readName T (.list [.ofDWORD n, .ofBytes name.toBytes]) = some m' ∧ (m' = m ↔ IsBytes name) := by
  refine ⟨.plain n name.text, .plain n (ofBytes name.toBytes).text,
    readName_plain T two number plain, readName_list T n _ plain, ?_⟩
  rw [NameReading.plain.injEq, text_ofBytes_iff]
  exact and_iff_right rfl

theorem keepsName_of (two : o.elements = some [choice, name])
    (number : T.asDWORD choice.text = some n) :
    KeepsName T o =
      if n = 2 ∨ n = 3 ∨ n = 7 then NulFree name
      else if n = 5 ∨ n = 8 then IsBytes name
      else if n = 1 then
        match name.elements with
        | some [_, value] => IsBytes value
        | _ => True
      else True := by
  rw [KeepsName, two]
  dsimp only
  rw [number]

theorem carries_name : Carries (parseAltName T) AltName.obj (readName T) (KeepsName T) := by
  intro o name parsed
  unfold parseAltName at parsed
  split at parsed
  · rename_i choice value two
    cases number : T.asDWORD choice.text with
    | none =>
      rw [number] at parsed
      cases parsed
    | some n =>
      rw [number] at parsed
      dsimp only at parsed
      have kept := keepsName_of T two number
      split_ifs at parsed with isRfc isDns isUrl isId isOther isDirectory isIp
      · subst isRfc
        cases parsed
        rw [kept]
        exact carries_string T two number (by decide)
      · subst isDns
        cases parsed
        rw [kept]
        exact carries_string T two number (by decide)
      · subst isUrl
        cases parsed
        rw [kept]
        exact carries_string T two number (by decide)
      · subst isId
        cases parsed
        rw [kept]
        exact ⟨.plain 9 value.text, .plain 9 value.text, readName_plain T two number (by decide),
          readName_list T 9 _ (by decide), iff_of_true rfl trivial⟩
      · subst isOther
        split at parsed
        · rename_i oid data pair
          cases parsed
          refine ⟨.other oid.text data.text, .other oid.text (ofBytes data.toBytes).text, ?_, ?_,
            ?_⟩
          · simp only [readName, two, number, pair, if_true]
          · simp only [readName, AltName.obj, elements, T.asDWORD_ofDWORD, if_true, text]
          · rw [NameReading.other.injEq, text_ofBytes_iff, kept, pair]
            exact and_iff_right rfl
        · cases parsed
      · subst isDirectory
        cases parsed
        rw [kept]
        exact carries_bytes T two number (by decide)
      · subst isIp
        cases parsed
        rw [kept]
        exact carries_bytes T two number (by decide)
  · cases parsed

theorem carries_names :
    Carries (parseAltNames T) (fun names => .list (names.map AltName.obj)) (readNames T)
      (KeepsNames T) := by
  intro o names parsed
  unfold parseAltNames at parsed
  unfold readNames KeepsNames
  cases list : o.elements with
  | none =>
    rw [list] at parsed
    cases parsed
  | some os =>
    rw [list] at parsed
    exact (carries_name T).list parsed

theorem carries_algorithm :
    Carries parseAlgorithmId AlgorithmId.obj readAlgorithm KeepsAlgorithm := by
  intro o alg parsed
  unfold parseAlgorithmId at parsed
  unfold readAlgorithm KeepsAlgorithm
  split at parsed
  · cases parsed
  · rename_i empty
    cases parsed
    rw [empty]
    exact ⟨("", ""), ("", ""), rfl, rfl, iff_of_true rfl trivial⟩
  · rename_i oid one
    cases parsed
    rw [one]
    exact ⟨(oid.text, ""), (oid.text, ""), rfl, rfl, iff_of_true rfl trivial⟩
  · rename_i oid parameters two
    cases parsed
    rw [two]
    refine ⟨(oid.text, parameters.text), (oid.text, (ofBytes parameters.toBytes).text), rfl, rfl,
      ?_⟩
    rw [Prod.mk.injEq, text_ofBytes_iff]
    exact and_iff_right rfl
  · cases parsed

/-- Where the value is one of a list of three values, of which the one in the middle is
a list of names. -/
theorem carries_authorityKeyId {u : Struct} (parsed : parseAuthorityKeyId T o = .ok u)
    (sub : String → Bytes → Obj) :
    ∃ m m', Kind.read T .authorityKeyId2 o = some m ∧
      Kind.read T .authorityKeyId2 (u.obj sub) = some m' ∧ (m' = m ↔ Kind.Keeps T .authorityKeyId2 o) := by
  unfold parseAuthorityKeyId at parsed
  split at parsed
  · rename_i keyId issuer serial three
    cases names : parseAltNames T issuer with
    | error fault =>
      rw [names] at parsed
      cases parsed
    | ok entries =>
      rw [names] at parsed
      cases parsed
      obtain ⟨m, m', reads, reads', kept⟩ := carries_names T issuer entries names
      refine ⟨.authorityKeyId keyId.text m serial.text,
        .authorityKeyId (ofBytes keyId.toBytes).text m' (ofBytes serial.toBytes).text,
        ?_, ?_, ?_⟩
      · simp only [Kind.read, three, reads, map_some]
      · simp only [Kind.read, Struct.obj, elements, reads', map_some]
      · simp only [Reading.authorityKeyId.injEq, Kind.Keeps, three, text_ofBytes_iff, kept]
  · cases parsed

theorem carries_publicKey {alg : AlgorithmId} {key : BitBlob}
    (parsed : parsePublicKeyInfo T junk o = .ok (alg, key)) (sub : String → Bytes → Obj) :
    ∃ m m', Kind.read T .publicKeyInfo o = some m ∧
      Kind.read T .publicKeyInfo ((Struct.publicKey alg key).obj sub) = some m' ∧
      (m' = m ↔ Kind.Keeps T .publicKeyInfo o) := by
  unfold parsePublicKeyInfo at parsed
  split at parsed
  · rename_i first second two
    cases algorithm : parseAlgorithmId first with
    | error fault =>
      rw [algorithm] at parsed
      cases parsed
    | ok alg' =>
      rw [algorithm] at parsed
      cases bits : parseBitBlob T junk second with
      | error fault =>
        rw [bits] at parsed
        cases parsed
      | ok key' =>
        rw [bits] at parsed
        cases parsed
        obtain ⟨m, m', reads, reads', kept⟩ := carries_algorithm first alg algorithm
        obtain ⟨n, n', readsBits, readsBits', keptBits⟩ := carries_bits T junk second key bits
        refine ⟨.publicKey m.1 m.2 n.1 n.2, .publicKey m'.1 m'.2 n'.1 n'.2, ?_, ?_, ?_⟩
        · simp only [Kind.read, two, reads, readsBits]
        · simp only [Kind.read, Struct.obj, elements, reads', readsBits']
        · simp only [Reading.publicKey.injEq, Kind.Keeps, two, ← kept, ← keptBits, Prod.ext_iff,
            and_assoc]
  · cases parsed

theorem map_ok {α β : Type} {x : Except Fault α} {f : α → β} {b : β} (ok : x.map f = .ok b) :
    ∃ a, x = .ok a ∧ f a = b := by
  cases x with
  | error fault => cases ok
  | ok a => exact ⟨a, rfl, Except.ok.inj ok⟩

/-- All kinds but extensions and key blobs. -/
theorem Kind.carries {kind : Kind} {u : Struct} (parsed : kind.parse T junk o = .ok u)
    (noBlob : kind ≠ .publicKeyBlob) (sub : String → Bytes → Obj) :
    ∃ m m', kind.read T o = some m ∧ kind.read T (u.obj sub) = some m' ∧ (m' = m ↔ kind.Keeps T o) := by
  cases kind with
  | keyUsage =>
    obtain ⟨blob, bits, rfl⟩ := map_ok parsed
    obtain ⟨m, m', reads, reads', kept⟩ := carries_bits T junk o blob bits
    refine ⟨.bits m.1 m.2, .bits m'.1 m'.2, ?_, ?_, ?_⟩
    · simp only [read, reads, map_some]
    · simp only [read, Struct.obj, reads', map_some]
    · simp only [Reading.bits.injEq, Kind.Keeps, ← kept, Prod.ext_iff]
  | enhancedKeyUsage =>
    obtain ⟨oids, usages, rfl⟩ := map_ok parsed
    unfold parseEnhkeyUsage at usages
    cases list : o.elements with
    | none =>
      rw [list] at usages
      cases usages
    | some os =>
      rw [list] at usages
      cases usages
      refine ⟨.usages (os.map text), .usages (os.map text), ?_, ?_,
        iff_of_true rfl trivial⟩
      · simp only [read, list, map_some]
      · have texts : (os.map text).map (text ∘ atom) = os.map text :=
          List.map_id _
        simp only [read, Struct.obj, elements, map_some, List.map_map]
        rw [← texts, List.map_map]
        rfl
  | alternateName =>
    obtain ⟨names, entries, rfl⟩ := map_ok parsed
    obtain ⟨m, m', reads, reads', kept⟩ := carries_names T o names entries
    refine ⟨.names m, .names m', ?_, ?_, ?_⟩
    · simp only [read, reads, map_some]
    · simp only [read, Struct.obj, reads', map_some]
    · rw [Reading.names.injEq, kept]
      exact Iff.rfl
  | basicConstraints2 =>
    simp only [parse, parseBasicConstraints] at parsed
    split at parsed
    · rename_i ca constrained pathLen three
      split at parsed
      · rename_i ca' constrained' pathLen' isCa isConstrained isPathLen
        cases parsed
        refine ⟨.basicConstraints ca' constrained' pathLen',
          .basicConstraints ca' constrained' pathLen', ?_, ?_, iff_of_true rfl trivial⟩
        · simp only [read, three, isCa, isConstrained, isPathLen]
        · simp only [read, Struct.obj, elements, T.asBoolean_ofBool, T.asDWORD_ofDWORD]
      · cases parsed
    · cases parsed
  | authorityKeyId2 => exact carries_authorityKeyId T parsed sub
  | algorithmIdentifier =>
    obtain ⟨alg, algorithm, rfl⟩ := map_ok parsed
    obtain ⟨m, m', reads, reads', kept⟩ := carries_algorithm o alg algorithm
    refine ⟨.algorithm m.1 m.2, .algorithm m'.1 m'.2, ?_, ?_, ?_⟩
    · simp only [read, reads, map_some]
    · simp only [read, Struct.obj, reads', map_some]
    · simp only [Reading.algorithm.injEq, Kind.Keeps, ← kept, Prod.ext_iff]
  | extensions => cases parsed
  | unicodeAnyString =>
    simp only [parse, parseNameValue] at parsed
    split at parsed
    · rename_i type value two
      cases number : T.asDWORD type.text with
      | none =>
        rw [number] at parsed
        cases parsed
      | some n =>
        rw [number] at parsed
        cases parsed
        refine ⟨.anyString n value.text, .anyString n value.text, ?_, ?_, iff_of_true rfl trivial⟩
        · simp only [read, two, number, map_some]
        · simp only [read, Struct.obj, elements, T.asDWORD_ofDWORD, map_some,
            text]
    · cases parsed
  | publicKeyInfo =>
    obtain ⟨⟨alg, key⟩, info, rfl⟩ := map_ok parsed
    exact carries_publicKey T info sub
  | publicKeyBlob => exact absurd rfl noBlob
  | subjectKeyIdentifier =>
    cases parsed
    refine ⟨.blob o.text, .blob (ofBytes o.toBytes).text, rfl, rfl, ?_⟩
    rw [Reading.blob.injEq, text_ofBytes_iff]
    exact Iff.rfl

end

end Twapi.CryptObject
