import Mathlib.Algebra.Order.BigOperators.Group.List
import Mathlib.Logic.Equiv.List
import Mathlib.Tactic.DeriveEncodable
import Twapi.CryptObject.Exact
import Twapi.CryptObject.Reading

/-!
Values that are encoded and decoded.

* `readObject` — the reading of a value, extensions to any depth.
* `Same` — two values with one and the same reading.
* `decodes_same_iff` says which values are decoded to the same from what they are
  encoded to.
-/

namespace Twapi.CryptObject

open Lib (Traced)
open Lib.Traced

/-! ### Readings of extensions -/

section

variable (T : Tcl)

def Obj.isEmpty : Obj → Bool
  | .atom s => s = ""
  | .list xs => xs.isEmpty

/-- The reading of a value that was left out. -/
def emptyReading (oid : String) : Option Reading :=
  match (oidArg T oid).kind with
  | none => none
  | some .extensions => some (.extensions [])
  | some kind => kind.read T (.atom "")

mutual

def readObject (oid : String) (o : Obj) : Option Reading :=
  match (oidArg T oid).kind with
  | none => none
  | some .extensions =>
    match o with
    | .atom s => if s = "" then some (.extensions []) else none
    | .list exts => (readExtensions exts).map .extensions
  | some kind => kind.read T o
termination_by structural o

def readExtensions (os : List Obj) : Option (List (String × Bool × Option Reading)) :=
  match os with
  | [] => some []
  | o :: os =>
    match readExtension o, readExtensions os with
    | some m, some ms => some (m :: ms)
    | _, _ => none
termination_by structural os

def readExtension (o : Obj) : Option (String × Bool × Option Reading) :=
  match o with
  | .list [oid, critical, value] =>
    match T.asBoolean critical.text with
    | none => none
    | some critical =>
      match readObject oid.text value with
      | some m => some (oid.text, critical, some m)
      | none => if value.isEmpty then some (oid.text, critical, none) else none
  | .list [oid, critical] =>
    match T.asBoolean critical.text with
    | none => none
    | some critical => some (oid.text, critical, emptyReading T oid.text)
  | .list _ => none
  | .atom _ => none
termination_by structural o

end

/-- Both values can be read, and read the same. -/
def Same (oid : String) (o o' : Obj) : Prop :=
  ∃ m, readObject T oid o = some m ∧ readObject T oid o' = some m

/-! ### Conditions -/

mutual

/-- No key blob is among the extensions, at any depth. -/
def Listed (oid : String) (o : Obj) : Prop :=
  match (oidArg T oid).kind with
  | none => True
  | some .extensions =>
    match o with
    | .atom _ => True
    | .list exts => ListedExtensions exts
  | some kind => kind ≠ .publicKeyBlob
termination_by structural o

def ListedExtensions (os : List Obj) : Prop :=
  match os with
  | [] => True
  | o :: os => ListedExtension o ∧ ListedExtensions os
termination_by structural os

def ListedExtension (o : Obj) : Prop :=
  match o with
  | .list [oid, _, value] => Listed oid.text value
  | .list _ => True
  | .atom _ => True
termination_by structural o

end

mutual

/-- The value can be parsed, and is kept. -/
def KeepsValue (oid : String) (o : Obj) : Prop :=
  match (oidArg T oid).kind with
  | none => False
  | some .extensions =>
    match o with
    | .atom s => s = ""
    | .list exts => KeepsExtensions exts
  | some kind => (∃ u, kind.parse T 0 o = .ok u) ∧ kind.Keeps T o
termination_by structural o

def KeepsExtensions (os : List Obj) : Prop :=
  match os with
  | [] => True
  | o :: os => KeepsExtension o ∧ KeepsExtensions os
termination_by structural os

def KeepsExtension (o : Obj) : Prop :=
  match o with
  | .list [oid, critical, value] => (T.asBoolean critical.text).isSome ∧ KeepsValue oid.text value
  | .list [_, critical] => (T.asBoolean critical.text).isSome
  | .list _ => False
  | .atom _ => False
termination_by structural o

end

/-- Extensions can be parsed; other values are kept if they can. -/
def Keeps (oid : String) (o : Obj) : Prop :=
  match (oidArg T oid).kind with
  | none => True
  | some .extensions => KeepsValue T oid o
  | some kind => ∀ u, kind.parse T 0 o = .ok u → kind.Keeps T o

end

/-! ### Equations -/

section Equations

variable {T : Tcl} {oid : String} {o : Obj} {kind : Kind}

theorem readObject_leaf (is : (oidArg T oid).kind = some kind) (leaf : kind ≠ .extensions) :
    readObject T oid o = kind.read T o := by
  rw [readObject.eq_def, is]
  cases kind with
  | extensions => exact absurd rfl leaf
  | _ => rfl

theorem keepsValue_leaf (is : (oidArg T oid).kind = some kind) (leaf : kind ≠ .extensions) :
    KeepsValue T oid o ↔ (∃ u, kind.parse T 0 o = .ok u) ∧ kind.Keeps T o := by
  rw [KeepsValue.eq_def, is]
  cases kind with
  | extensions => exact absurd rfl leaf
  | _ => exact Iff.rfl

theorem listed_leaf (is : (oidArg T oid).kind = some kind) (leaf : kind ≠ .extensions) :
    Listed T oid o ↔ kind ≠ .publicKeyBlob := by
  rw [Listed.eq_def, is]
  cases kind with
  | extensions => exact absurd rfl leaf
  | _ => exact Iff.rfl

theorem readObject_empty : readObject T oid (.atom "") = emptyReading T oid := by
  cases is : (oidArg T oid).kind with
  | none => rw [readObject.eq_def, emptyReading, is]
  | some kind =>
    rw [readObject.eq_def, emptyReading, is]
    cases kind with
    | extensions => rfl
    | _ => rfl

theorem readExtensions_cons {os : List Obj} {ms : List (String × Bool × Option Reading)} :
    readExtensions T (o :: os) = some ms ↔
      ∃ m rest, readExtension T o = some m ∧ readExtensions T os = some rest ∧ ms = m :: rest := by
  rw [readExtensions.eq_def]
  dsimp only
  constructor
  · intro read
    split at read
    · rename_i m rest first others
      exact ⟨m, rest, first, others, (Option.some.inj read).symm⟩
    · cases read
  · rintro ⟨m, rest, first, others, rfl⟩
    rw [first, others]

theorem interpreted_of_kind {arg : OidArg} (is : arg.kind = some kind)
    (noBlob : kind ≠ .publicKeyBlob) : arg.interpreted = true := by
  unfold OidArg.interpreted
  rw [is]
  simp [noBlob]

/-- What is left unset does not matter for whether a value can be parsed. -/
theorem parses_iff (junk : DWORD) :
    (∃ u, kind.parse T junk o = .ok u) ↔ ∃ u, kind.parse T 0 o = .ok u := by
  by_cases set : kind.LeavesUnset o
  · refine iff_of_true ?_ ?_
    · exact parses_of_unset set junk
    · exact parses_of_unset set 0
  · rw [parse_of_set set junk]

theorem isFor_of_parse {arg : OidArg} {junk : DWORD} {u : Struct} (is : arg.kind = some kind)
    (parsed : kind.parse T junk o = .ok u) : u.IsFor arg := by
  cases kind with
  | keyUsage =>
    obtain ⟨a, -, rfl⟩ := map_ok parsed
    exact is
  | enhancedKeyUsage =>
    obtain ⟨a, -, rfl⟩ := map_ok parsed
    exact is
  | alternateName =>
    obtain ⟨a, -, rfl⟩ := map_ok parsed
    exact is
  | basicConstraints2 =>
    simp only [Kind.parse, parseBasicConstraints] at parsed
    split at parsed
    · split at parsed
      · cases parsed
        exact is
      · cases parsed
    · cases parsed
  | authorityKeyId2 =>
    simp only [Kind.parse, parseAuthorityKeyId] at parsed
    split at parsed
    · split at parsed
      · cases parsed
        exact is
      · cases parsed
    · cases parsed
  | algorithmIdentifier =>
    obtain ⟨a, -, rfl⟩ := map_ok parsed
    exact is
  | extensions => cases parsed
  | unicodeAnyString =>
    simp only [Kind.parse, parseNameValue] at parsed
    split at parsed
    · split at parsed
      · cases parsed
        exact is
      · cases parsed
    · cases parsed
  | publicKeyInfo =>
    obtain ⟨a, -, rfl⟩ := map_ok parsed
    exact is
  | publicKeyBlob =>
    obtain ⟨a, -, rfl⟩ := map_ok parsed
    exact is
  | subjectKeyIdentifier =>
    cases parsed
    exact is

end Equations

/-! ### Encoding and decoding -/

section Results

variable {api : Api} {T : Tcl} {oid : String} {o : Obj} {kind : Kind}

variable {u : Struct}

theorem submit_result {arg : OidArg} {enc : Bytes} (encoded : api.encode arg u = .ok enc) :
    (submit api.toEncoder arg u u).result = .ok enc := by
  unfold submit
  rw [encoded]
  dsimp only
  split
  · rfl
  · rw [result_bind, if_pos (api.le_alloc _)]
    rfl

/-- A structure that is encoded, and the value that it is decoded to. -/
theorem Inverse.round (inverse : Inverse api) (isFor : u.IsFor (oidArg T oid))
    (interpreted : (oidArg T oid).interpreted) :
    ∃ enc, (submit api.toEncoder (oidArg T oid) u u).result = .ok enc ∧
      decodeObject api T oid enc = .ok (u.obj (decodeValue api T)) := by
  obtain ⟨enc, encoded, decoded⟩ := inverse.inverse (oidArg T oid) u isFor
  exact ⟨enc, submit_result encoded, decodeObject_of_decode api T interpreted decoded⟩

theorem round_leaf (junk : String → Obj → Junk) (inverse : Inverse api)
    (is : (oidArg T oid).kind = some kind) (leaf : kind ≠ .extensions)
    (noBlob : kind ≠ .publicKeyBlob) (parsed : kind.parse T (junk oid o).unused o = .ok u) :
    ∃ enc, (encodeObject api.toEncoder T junk oid o).result = .ok enc ∧
      decodeObject api T oid enc = .ok (u.obj (decodeValue api T)) := by
  obtain ⟨enc, encoded, decoded⟩ :=
    inverse.round (isFor_of_parse is parsed) (interpreted_of_kind is noBlob)
  refine ⟨enc, ?_, decoded⟩
  rw [encodeObject_leaf is leaf, parsed]
  dsimp only
  rw [if_neg noBlob]
  exact encoded

/-- Extensions that were parsed, or what memory held where they were not. -/
theorem round_extensions (junk : String → Obj → Junk) (inverse : Inverse api)
    (is : (oidArg T oid).kind = some .extensions) (os : List Obj) :
    ∃ enc, (encodeObject api.toEncoder T junk oid (.list os)).result = .ok enc ∧
      decodeObject api T oid enc = .ok ((Struct.extensions
        ((parseExtensions api.toEncoder T junk os).result.toOption.getD
          (junk oid (.list os)).exts)).obj (decodeValue api T)) := by
  obtain ⟨enc, encoded, decoded⟩ := inverse.round (u := .extensions _) is
    (interpreted_of_kind is nofun)
  refine ⟨enc, ?_, decoded⟩
  rw [encodeObject.eq_def, is]
  exact encoded

theorem round_atom (junk : String → Obj → Junk) (inverse : Inverse api)
    (is : (oidArg T oid).kind = some .extensions) (s : String) :
    ∃ enc, (encodeObject api.toEncoder T junk oid (.atom s)).result = .ok enc ∧
      decodeObject api T oid enc = .ok ((Struct.extensions
        (if s = "" then [] else (junk oid (.atom s)).exts)).obj (decodeValue api T)) := by
  obtain ⟨enc, encoded, decoded⟩ := inverse.round (u := .extensions _) is
    (interpreted_of_kind is nofun)
  refine ⟨enc, ?_, decoded⟩
  rw [encodeObject.eq_def, is, ← encoded]
  dsimp only
  split
  · rfl
  · rfl

theorem decodeValue_nil (inverse : Inverse api) (oid : String) :
    decodeValue api T oid [] = .atom "" := by
  obtain ⟨⟨code, fails⟩, ⟨code', fails'⟩⟩ := inverse.nothing (oidArg T oid)
  have none : ∃ code, decodeObject api T oid [] = .error code := by
    rw [decodeObject]
    split
    · exact ⟨code, by rw [fails]⟩
    · exact ⟨code', fails'⟩
  obtain ⟨code, none⟩ := none
  rw [decodeValue, none]
  rfl

end Results

/-! ### Values that are kept -/

section Kept

variable {api : Api} {T : Tcl}

/-- The value of an extension. -/
def Extension.obj (api : Api) (T : Tcl) (ext : Extension) : Obj :=
  .list [.atom ext.oid, .ofBool ext.critical, decodeValue api T ext.oid ext.value]

theorem andThen_ok_iff {α : Type} {x : Traced Call (Except Fault α)}
    {xs : Traced Call (Except Fault (List α))} {as : List α} :
    (andThen x xs).result = .ok as ↔
      ∃ a rest, x.result = .ok a ∧ xs.result = .ok rest ∧ as = a :: rest := by
  unfold andThen
  rw [result_bind]
  cases x.result with
  | error fault => exact iff_of_false nofun nofun
  | ok a =>
    simp only [result_bind, result_pure]
    constructor
    · intro ok
      obtain ⟨rest, others, rfl⟩ := map_ok ok
      exact ⟨a, rest, rfl, others, rfl⟩
    · rintro ⟨a', rest, first, others, rfl⟩
      cases first
      rw [others]
      rfl

theorem same_of_leaf (inverse : Inverse api) (junk : String → Obj → Junk) {oid : String} {o : Obj}
    {kind : Kind} (is : (oidArg T oid).kind = some kind) (leaf : kind ≠ .extensions)
    (listed : Listed T oid o) (keeps : KeepsValue T oid o) :
    ∃ enc v, (encodeObject api.toEncoder T junk oid o).result = .ok enc ∧
      decodeObject api T oid enc = .ok v ∧ Same T oid o v := by
  have noBlob := (listed_leaf is leaf).mp listed
  obtain ⟨parses, kept⟩ := (keepsValue_leaf is leaf).mp keeps
  obtain ⟨u, parsed⟩ := (parses_iff (junk oid o).unused).mpr parses
  obtain ⟨enc, encoded, decoded⟩ := round_leaf junk inverse is leaf noBlob parsed
  obtain ⟨m, m', reads, reads', same⟩ := Kind.carries T parsed noBlob (decodeValue api T)
  refine ⟨enc, _, encoded, decoded, m, ?_, ?_⟩
  · rw [readObject_leaf is leaf, reads]
  · rw [readObject_leaf is leaf, reads', same.mpr kept]

/-- The third part is left out. -/
theorem readExtension_short (inverse : Inverse api) (oid : String) (critical : Bool) :
    readExtension T (Extension.obj api T ⟨oid, critical, []⟩) =
      some (oid, critical, emptyReading T oid) := by
  unfold Extension.obj
  rw [decodeValue_nil inverse, readExtension.eq_def]
  dsimp only
  rw [T.asBoolean_ofBool]
  dsimp only [Obj.text]
  rw [readObject_empty]
  cases emptyReading T oid with
  | none => rfl
  | some m => rfl

variable (junk : String → Obj → Junk)

mutual

theorem same_of_keeps (inverse : Inverse api) (oid : String) (o : Obj) (listed : Listed T oid o)
    (keeps : KeepsValue T oid o) :
    ∃ enc v, (encodeObject api.toEncoder T junk oid o).result = .ok enc ∧
      decodeObject api T oid enc = .ok v ∧ Same T oid o v := by
  match is : (oidArg T oid).kind with
  | none =>
    rw [KeepsValue.eq_def, is] at keeps
    exact keeps.elim
  | some .extensions =>
    rw [KeepsValue.eq_def, is] at keeps
    rw [Listed.eq_def, is] at listed
    match o with
    | .atom s =>
      have empty : s = "" := keeps
      obtain ⟨enc, encoded, decoded⟩ := round_atom junk inverse is s
      rw [if_pos empty] at decoded
      refine ⟨enc, _, encoded, decoded, .extensions [], ?_, ?_⟩
      · rw [readObject.eq_def, is]
        exact if_pos empty
      · rw [readObject.eq_def, is]
        rfl
    | .list os =>
      obtain ⟨exts, parsed, ms, reads, reads'⟩ := sames_of_keeps inverse os listed keeps
      obtain ⟨enc, encoded, decoded⟩ := round_extensions junk inverse is os
      rw [parsed] at decoded
      refine ⟨enc, _, encoded, decoded, .extensions ms, ?_, ?_⟩
      · rw [readObject.eq_def, is]
        dsimp only
        rw [reads]
        rfl
      · rw [readObject.eq_def, is]
        exact congrArg (Option.map Reading.extensions) reads'
  | some .keyUsage => exact same_of_leaf inverse junk is nofun listed keeps
  | some .enhancedKeyUsage => exact same_of_leaf inverse junk is nofun listed keeps
  | some .alternateName => exact same_of_leaf inverse junk is nofun listed keeps
  | some .basicConstraints2 => exact same_of_leaf inverse junk is nofun listed keeps
  | some .authorityKeyId2 => exact same_of_leaf inverse junk is nofun listed keeps
  | some .algorithmIdentifier => exact same_of_leaf inverse junk is nofun listed keeps
  | some .unicodeAnyString => exact same_of_leaf inverse junk is nofun listed keeps
  | some .publicKeyInfo => exact same_of_leaf inverse junk is nofun listed keeps
  | some .publicKeyBlob => exact same_of_leaf inverse junk is nofun listed keeps
  | some .subjectKeyIdentifier => exact same_of_leaf inverse junk is nofun listed keeps
termination_by structural o

theorem sames_of_keeps (inverse : Inverse api) (os : List Obj) (listed : ListedExtensions T os)
    (keeps : KeepsExtensions T os) :
    ∃ exts, (parseExtensions api.toEncoder T junk os).result = .ok exts ∧
      ∃ ms, readExtensions T os = some ms ∧
        readExtensions T (exts.map (Extension.obj api T)) = some ms := by
  match os with
  | [] => exact ⟨[], rfl, [], rfl, rfl⟩
  | o :: os =>
    obtain ⟨keep, keeps⟩ := keeps
    obtain ⟨listed, listeds⟩ := listed
    obtain ⟨ext, parsed, m, reads, reads'⟩ := same_extension_of_keeps inverse o listed keep
    obtain ⟨exts, parseds, ms, all, all'⟩ := sames_of_keeps inverse os listeds keeps
    refine ⟨ext :: exts, ?_, m :: ms, ?_, ?_⟩
    · rw [parseExtensions.eq_def]
      exact andThen_ok_iff.mpr ⟨ext, exts, parsed, parseds, rfl⟩
    · exact readExtensions_cons.mpr ⟨m, ms, reads, all, rfl⟩
    · exact readExtensions_cons.mpr ⟨m, ms, reads', all', rfl⟩
termination_by structural os

theorem same_extension_of_keeps (inverse : Inverse api) (o : Obj) (listed : ListedExtension T o)
    (keeps : KeepsExtension T o) :
    ∃ ext, (parseExtension api.toEncoder T junk o).result = .ok ext ∧
      ∃ m, readExtension T o = some m ∧ readExtension T (Extension.obj api T ext) = some m := by
  match o with
  | .list [oid, critical, value] =>
    obtain ⟨isBool, keep⟩ := keeps
    obtain ⟨isCritical, known⟩ := Option.isSome_iff_exists.mp isBool
    obtain ⟨enc, v, encoded, decoded, m, reads, reads'⟩ := same_of_keeps inverse oid.text value listed keep
    refine ⟨⟨oid.text, isCritical, enc⟩, ?_, (oid.text, isCritical, some m), ?_, ?_⟩
    · rw [parseExtension.eq_def]
      simp only [known, result_bind, encoded]
      rfl
    · rw [readExtension.eq_def]
      simp only [known, reads]
    · rw [Extension.obj, decodeValue, decoded, readExtension.eq_def]
      simp only [T.asBoolean_ofBool, Obj.text, reads']
  | .list [oid, critical] =>
    obtain ⟨isCritical, known⟩ := Option.isSome_iff_exists.mp keeps
    refine ⟨⟨oid.text, isCritical, []⟩, ?_, (oid.text, isCritical, emptyReading T oid.text), ?_,
      readExtension_short inverse oid.text isCritical⟩
    · rw [parseExtension.eq_def]
      simp only [known, result_pure]
    · rw [readExtension.eq_def]
      simp only [known]
  | .list [] => exact keeps.elim
  | .list [_] => exact keeps.elim
  | .list (_ :: _ :: _ :: _ :: _) => exact keeps.elim
  | .atom s => exact keeps.elim
termination_by structural o

end

end Kept

/-! ### Values that are not kept -/

/-- Memory that holds no bits. -/
def noJunk : String → Obj → Junk := fun _ _ => ⟨0, [], []⟩

section Lost

variable {api : Api} {T : Tcl}

theorem differ_of_leaf (inverse : Inverse api) {oid : String} {o : Obj} {kind : Kind}
    (is : (oidArg T oid).kind = some kind) (leaf : kind ≠ .extensions) (listed : Listed T oid o)
    (lost : ¬ KeepsValue T oid o) {enc : Bytes}
    (encoded : (encodeObject api.toEncoder T noJunk oid o).result = .ok enc) :
    ∃ v, decodeObject api T oid enc = .ok v ∧ ¬ Same T oid o v := by
  have noBlob := (listed_leaf is leaf).mp listed
  cases parsed : kind.parse T 0 o with
  | error fault =>
    rw [encodeObject_leaf is leaf, noJunk, parsed] at encoded
    cases encoded
  | ok u =>
    obtain ⟨enc', encoded', decoded⟩ :=
      round_leaf noJunk inverse is leaf noBlob parsed
    rw [encoded] at encoded'
    cases encoded'
    refine ⟨_, decoded, ?_⟩
    rintro ⟨x, read, read'⟩
    obtain ⟨m, m', reads, reads', same⟩ := Kind.carries T parsed noBlob (decodeValue api T)
    rw [readObject_leaf is leaf, reads] at read
    rw [readObject_leaf is leaf, reads'] at read'
    have equal : m' = m := Option.some.inj (read'.trans read.symm)
    exact lost ((keepsValue_leaf is leaf).mpr ⟨⟨u, parsed⟩, same.mp equal⟩)

/-- Of an extension whose value was encoded, an empty value stands for a structure. -/
theorem read_of_empty {oid : String} {o : Obj} (listed : Listed T oid o) (empty : o.isEmpty)
    {enc : Bytes} (encoded : (encodeObject api.toEncoder T noJunk oid o).result = .ok enc) :
    ∃ m, readObject T oid o = some m := by
  cases is : (oidArg T oid).kind with
  | none =>
    rw [encodeObject.eq_def, is] at encoded
    cases encoded
  | some kind =>
    by_cases leaf : kind = .extensions
    · subst leaf
      refine ⟨.extensions [], ?_⟩
      rw [readObject.eq_def, is]
      cases o with
      | atom s => exact if_pos (of_decide_eq_true empty)
      | list xs =>
        cases xs with
        | nil => rfl
        | cons x xs => cases empty
    · cases parsed : kind.parse T 0 o with
      | error fault =>
        rw [encodeObject_leaf is leaf, noJunk, parsed] at encoded
        cases encoded
      | ok u =>
        obtain ⟨m, -, reads, -⟩ := Kind.carries T parsed ((listed_leaf is leaf).mp listed) fun _ _ => .atom ""
        exact ⟨m, by rw [readObject_leaf is leaf, reads]⟩

mutual

theorem differ_of_lost (inverse : Inverse api) (oid : String) (o : Obj) (listed : Listed T oid o)
    (lost : ¬ KeepsValue T oid o) {enc : Bytes}
    (encoded : (encodeObject api.toEncoder T noJunk oid o).result = .ok enc) :
    ∃ v, decodeObject api T oid enc = .ok v ∧ ¬ Same T oid o v := by
  match is : (oidArg T oid).kind with
  | none =>
    rw [encodeObject.eq_def, is] at encoded
    cases encoded
  | some .extensions =>
    match o with
    | .atom s =>
      obtain ⟨enc', encoded', decoded⟩ := round_atom noJunk inverse is s
      rw [encoded] at encoded'
      cases encoded'
      refine ⟨_, decoded, ?_⟩
      rintro ⟨m, read, -⟩
      rw [KeepsValue.eq_def, is] at lost
      rw [readObject.eq_def, is] at read
      dsimp only at read
      rw [if_neg lost] at read
      cases read
    | .list os =>
      obtain ⟨enc', encoded', decoded⟩ := round_extensions noJunk inverse is os
      rw [encoded] at encoded'
      cases encoded'
      refine ⟨_, decoded, ?_⟩
      rintro ⟨m, read, read'⟩
      rw [KeepsValue.eq_def, is] at lost
      rw [Listed.eq_def, is] at listed
      rw [readObject.eq_def, is] at read read'
      obtain ⟨ms, reads, rfl⟩ := Option.map_eq_some_iff.mp read
      obtain ⟨ms', reads', equal⟩ := Option.map_eq_some_iff.mp read'
      cases equal
      cases parsed : (parseExtensions api.toEncoder T noJunk os).result with
      | ok exts =>
        rw [parsed] at reads'
        exact differs_of_lost inverse os listed lost parsed ⟨ms, reads, reads'⟩
      | error fault =>
        -- Nothing was set, so the list is empty, and so is the value.
        rw [parsed] at reads'
        have none : ms = [] := (Option.some.inj reads').symm
        subst none
        cases os with
        | nil => exact lost trivial
        | cons o os =>
          obtain ⟨m, rest, -, -, longer⟩ := readExtensions_cons.mp reads
          cases longer
  | some .keyUsage => exact differ_of_leaf inverse is nofun listed lost encoded
  | some .enhancedKeyUsage => exact differ_of_leaf inverse is nofun listed lost encoded
  | some .alternateName => exact differ_of_leaf inverse is nofun listed lost encoded
  | some .basicConstraints2 => exact differ_of_leaf inverse is nofun listed lost encoded
  | some .authorityKeyId2 => exact differ_of_leaf inverse is nofun listed lost encoded
  | some .algorithmIdentifier => exact differ_of_leaf inverse is nofun listed lost encoded
  | some .unicodeAnyString => exact differ_of_leaf inverse is nofun listed lost encoded
  | some .publicKeyInfo => exact differ_of_leaf inverse is nofun listed lost encoded
  | some .publicKeyBlob => exact differ_of_leaf inverse is nofun listed lost encoded
  | some .subjectKeyIdentifier => exact differ_of_leaf inverse is nofun listed lost encoded
termination_by structural o

theorem differs_of_lost (inverse : Inverse api) (os : List Obj) (listed : ListedExtensions T os)
    (lost : ¬ KeepsExtensions T os) {exts : List Extension}
    (parsed : (parseExtensions api.toEncoder T noJunk os).result = .ok exts) :
    ¬ ∃ ms, readExtensions T os = some ms ∧
      readExtensions T (exts.map (Extension.obj api T)) = some ms := by
  match os with
  | [] => exact absurd trivial lost
  | o :: os =>
    rw [parseExtensions.eq_def] at parsed
    obtain ⟨ext, rest, first, others, rfl⟩ := andThen_ok_iff.mp parsed
    rintro ⟨ms, reads, reads'⟩
    obtain ⟨m, ms', read, all, rfl⟩ := readExtensions_cons.mp reads
    obtain ⟨m', ms'', read', all', equal⟩ := readExtensions_cons.mp reads'
    cases equal
    by_cases keep : KeepsExtension T o
    · have later : ¬ KeepsExtensions T os := fun keeps => lost ⟨keep, keeps⟩
      exact differs_of_lost inverse os listed.2 later others ⟨ms', all, all'⟩
    · exact differ_extension_of_lost inverse o listed.1 keep first ⟨m, read, read'⟩
termination_by structural os

theorem differ_extension_of_lost (inverse : Inverse api) (o : Obj) (listed : ListedExtension T o)
    (lost : ¬ KeepsExtension T o) {ext : Extension}
    (parsed : (parseExtension api.toEncoder T noJunk o).result = .ok ext) :
    ¬ ∃ m, readExtension T o = some m ∧ readExtension T (Extension.obj api T ext) = some m := by
  match o with
  | .list [oid, critical, value] =>
    rw [parseExtension.eq_def] at parsed
    cases known : T.asBoolean critical.text with
    | none =>
      simp only [known] at parsed
      cases parsed
    | some isCritical =>
      simp only [known, result_bind, result_pure] at parsed
      obtain ⟨enc, encoded, rfl⟩ := map_ok parsed
      have nested : ¬ KeepsValue T oid.text value := by
        intro keeps
        exact lost ⟨by rw [known]; rfl, keeps⟩
      obtain ⟨v, decoded, differ⟩ := differ_of_lost inverse oid.text value listed nested encoded
      rintro ⟨m, read, read'⟩
      rw [Extension.obj, decodeValue, decoded, readExtension.eq_def] at read'
      rw [readExtension.eq_def] at read
      simp only [known] at read
      simp only [T.asBoolean_ofBool, Obj.text] at read'
      cases reads : readObject T oid.text value with
      | none =>
        rw [reads] at read
        by_cases empty : value.isEmpty
        · obtain ⟨n, reads'⟩ := read_of_empty listed empty encoded
          rw [reads] at reads'
          cases reads'
        · simp only [if_neg empty] at read
          cases read
      | some n =>
        rw [reads] at read
        cases read
        cases reads' : readObject T oid.text v with
        | none =>
          rw [reads'] at read'
          dsimp only at read'
          split at read'
          · cases read'
          · cases read'
        | some n' =>
          rw [reads'] at read'
          cases read'
          exact differ ⟨n, reads, reads'⟩
  | .list [oid, critical] =>
    rw [parseExtension.eq_def] at parsed
    cases known : T.asBoolean critical.text with
    | none =>
      simp only [known] at parsed
      cases parsed
    | some isCritical =>
      have isBool : (T.asBoolean critical.text).isSome := by
        rw [known]
        rfl
      exact absurd isBool lost
  | .list [] => cases parsed
  | .list [_] => cases parsed
  | .list (_ :: _ :: _ :: _ :: _) => cases parsed
  | .atom s =>
    rintro ⟨m, read, -⟩
    cases read
termination_by structural o

end

end Lost

/-! ### The two functions -/

section Iff

variable {api : Api} {T : Tcl} {oid : String} {o : Obj}

/-- Extensions are encoded whether they can be parsed or not. -/
theorem accepts_extensions (inverse : Inverse api) (is : (oidArg T oid).kind = some .extensions)
    (o : Obj) : ∃ enc, (encodeObject api.toEncoder T noJunk oid o).result = .ok enc := by
  cases o with
  | atom s =>
    obtain ⟨enc, encoded, -⟩ := round_atom noJunk inverse is s
    exact ⟨enc, encoded⟩
  | list os =>
    obtain ⟨enc, encoded, -⟩ := round_extensions noJunk inverse is os
    exact ⟨enc, encoded⟩

theorem decodes_of_keeps (inverse : Inverse api) (listed : Listed T oid o)
    (keeps : KeepsValue T oid o) {junk : String → Obj → Junk} {enc : Bytes}
    (encoded : (encodeObject api.toEncoder T junk oid o).result = .ok enc) :
    ∃ v, decodeObject api T oid enc = .ok v ∧ Same T oid o v := by
  obtain ⟨enc', v, encoded', decoded, same⟩ := same_of_keeps junk inverse oid o listed keeps
  rw [encoded] at encoded'
  cases encoded'
  exact ⟨v, decoded, same⟩

theorem keepsValue_of_decodes (inverse : Inverse api) (listed : Listed T oid o) {enc : Bytes}
    (encoded : (encodeObject api.toEncoder T noJunk oid o).result = .ok enc)
    (decodes : ∃ v, decodeObject api T oid enc = .ok v ∧ Same T oid o v) : KeepsValue T oid o := by
  by_contra lost
  obtain ⟨v, decoded, same⟩ := decodes
  obtain ⟨v', decoded', differ⟩ := differ_of_lost inverse oid o listed lost encoded
  rw [decoded] at decoded'
  cases decoded'
  exact differ same

end Iff

theorem decodes_same_iff (api : Api) (T : Tcl) (inverse : Inverse api) (oid : String) (o : Obj)
    (listed : Listed T oid o) :
    (∀ junk enc, (encodeObject api.toEncoder T junk oid o).result = .ok enc →
      ∃ v, decodeObject api T oid enc = .ok v ∧ Same T oid o v) ↔ Keeps T oid o := by
  unfold Keeps
  cases is : (oidArg T oid).kind with
  | none =>
    refine iff_of_true (fun junk enc encoded => ?_) trivial
    rw [encodeObject.eq_def, is] at encoded
    cases encoded
  | some kind =>
    by_cases leaf : kind = .extensions
    · subst leaf
      constructor
      · intro decodes
        obtain ⟨enc, encoded⟩ := accepts_extensions inverse is o
        exact keepsValue_of_decodes inverse listed encoded (decodes noJunk enc encoded)
      · intro keeps junk enc encoded
        exact decodes_of_keeps inverse listed keeps encoded
    · have noBlob := (listed_leaf is leaf).mp listed
      have keeps_iff : (∀ u, kind.parse T 0 o = .ok u → kind.Keeps T o) ↔
          ∀ u, kind.parse T 0 o = .ok u → KeepsValue T oid o := by
        refine forall_congr' fun u => forall_congr' fun parsed => ?_
        rw [keepsValue_leaf is leaf]
        exact (and_iff_right ⟨u, parsed⟩).symm
      have goal_iff : (∀ junk enc, (encodeObject api.toEncoder T junk oid o).result = .ok enc →
          ∃ v, decodeObject api T oid enc = .ok v ∧ Same T oid o v) ↔
          ∀ u, kind.parse T 0 o = .ok u → KeepsValue T oid o := by
        constructor
        · intro decodes u parsed
          obtain ⟨enc, encoded, -⟩ := round_leaf noJunk inverse is leaf noBlob parsed
          exact keepsValue_of_decodes inverse listed encoded (decodes noJunk enc encoded)
        · intro keeps junk enc encoded
          cases parsed : kind.parse T (junk oid o).unused o with
          | error fault =>
            rw [encodeObject_leaf is leaf, parsed] at encoded
            cases encoded
          | ok u =>
            obtain ⟨u', parsed'⟩ := (parses_iff _).mp ⟨u, parsed⟩
            exact decodes_of_keeps inverse listed (keeps u' parsed') encoded
      rw [goal_iff, ← keeps_iff]
      cases kind with
      | extensions => exact absurd rfl leaf
      | _ => exact Iff.rfl

/-! ### An encoder and its decoder -/

instance encodableUInt8 : Encodable UInt8 := Encodable.ofLeftInverse UInt8.toNat UInt8.ofNat fun b => by simp

instance encodableBitVec {w : Nat} : Encodable (BitVec w) :=
  Encodable.ofLeftInverse BitVec.toNat (BitVec.ofNat w) fun n => by simp

instance encodableChar : Encodable Char :=
  Encodable.ofLeftInverse Char.toNat Char.ofNat fun c => by simp

instance encodableString : Encodable String :=
  Encodable.ofLeftInverse String.toList String.ofList fun s => by simp

deriving instance Encodable for BitBlob, AltName, AlgorithmId, Extension, Attribute, Struct

/-- Key usages of one byte, and no extensions, as they are in DER. -/
def Struct.der : Struct → Option Bytes
  | .extensions [] => some [0x30, 0]
  | .bits ⟨[b], n⟩ => if n.toNat < 8 then some [3, 2, UInt8.ofNat n.toNat, b] else none
  | _ => none

/-- Everything else, in unary; the length is also that of what is encoded within. -/
def Struct.unary (u : Struct) : Bytes :=
  0xFF :: List.replicate (Nat.pair (Encodable.encode u) (u.values.map List.length).sum) 0

def Struct.enc (u : Struct) : Bytes := u.der.getD u.unary

def badTag : Nat := 0x8009310B

def ofUnary (enc : Bytes) : Except Nat Struct :=
  match Encodable.decode (Nat.unpair (enc.length - 1)).1 with
  | none => .error badTag
  | some u => if u.unary = enc then .ok u else .error badTag

def ofDer (enc : Bytes) : Except Nat Struct :=
  match enc with
  | [t, l, n, b] =>
    if t = 3 ∧ l = 2 then .ok (.bits ⟨[b], BitVec.ofNat 32 n.toNat⟩) else ofUnary enc
  | [t, l] => if t = 0x30 ∧ l = 0 then .ok (.extensions []) else ofUnary enc
  | _ => ofUnary enc

theorem Struct.length_lt_unary {u : Struct} {value : Bytes} (among : value ∈ u.values) :
    value.length < u.unary.length := by
  have within : value.length ≤ (u.values.map List.length).sum :=
    List.single_le_sum (fun _ _ => Nat.zero_le _) _ (List.mem_map_of_mem among)
  have pair := Nat.right_le_pair (Encodable.encode u) (u.values.map List.length).sum
  rw [Struct.unary, List.length_cons, List.length_replicate]
  omega

theorem inner_ofUnary {enc : Bytes} {u : Struct} (decoded : ofUnary enc = .ok u) {value : Bytes}
    (among : value ∈ u.values) : value.length < enc.length := by
  unfold ofUnary at decoded
  split at decoded
  · cases decoded
  · split at decoded
    · rename_i same
      cases decoded
      rw [← same]
      exact Struct.length_lt_unary among
    · cases decoded

theorem ofUnary_unary (u : Struct) : ofUnary u.unary = .ok u := by
  unfold ofUnary
  rw [Struct.unary, List.length_cons, List.length_replicate, Nat.add_sub_cancel, Nat.unpair_pair,
    Encodable.encodek]
  exact if_pos rfl

/-- Nothing in unary is as it is in DER. -/
theorem ofDer_unary (u : Struct) : ofDer u.unary = .ok u := by
  rw [← ofUnary_unary u]
  unfold ofDer
  split
  · rename_i t l n b four
    refine if_neg fun der => ?_
    have head : (0xFF : UInt8) = t := (List.cons.inj four).1
    rw [der.1] at head
    cases head
  · rename_i t l two
    refine if_neg fun der => ?_
    have head : (0xFF : UInt8) = t := (List.cons.inj two).1
    rw [der.1] at head
    cases head
  · rfl

theorem ofDer_enc (u : Struct) : ofDer u.enc = .ok u := by
  unfold Struct.enc
  cases der : u.der with
  | none => exact ofDer_unary u
  | some enc =>
    unfold Struct.der at der
    split at der
    · cases der
      rfl
    · rename_i b n
      split at der
      · rename_i small
        cases der
        have number : BitVec.ofNat 32 (UInt8.ofNat n.toNat).toNat = n := by
          rw [UInt8.toNat_ofNat', Nat.mod_eq_of_lt (by omega)]
          exact BitVec.ofNat_toNat ..
        exact congrArg (fun m => Except.ok (Struct.bits ⟨[b], m⟩)) number
      · cases der
    · cases der

/-- What a decoder is for, where every structure is encoded. -/
def unaryApi : Api where
  encode _ u := .ok u.enc
  alloc n := n
  le_alloc _ := le_rfl
  decode _ enc := ofDer enc
  other _ _ := .error badTag
  inner _ enc u decoded value among := by
    unfold ofDer at decoded
    split at decoded
    · split at decoded
      · cases decoded
        cases among
      · exact inner_ofUnary decoded among
    · split at decoded
      · cases decoded
        cases among
      · exact inner_ofUnary decoded among
    · exact inner_ofUnary decoded among

theorem unaryApi_inverse : Inverse unaryApi where
  inverse _ u _ := ⟨u.enc, rfl, ofDer_enc u⟩
  nothing _ := by
    have none : ofUnary [] = .error badTag := by
      unfold ofUnary
      split
      · rfl
      · exact if_neg nofun
    exact ⟨⟨badTag, none⟩, badTag, rfl⟩

/-- The first bit is set, and seven are unused. -/
theorem decodes_same_key_usage :
    ∃ enc, (encodeObject unaryApi.toEncoder decimal noJunk "2.5.29.15"
        (.list [.atom "\x80", .atom "7"])).result = .ok enc ∧
      ∃ v, decodeObject unaryApi decimal "2.5.29.15" enc = .ok v ∧
        Same decimal "2.5.29.15" (.list [.atom "\x80", .atom "7"]) v := by
  have is : (oidArg decimal "2.5.29.15").kind = some .keyUsage := by decide
  have bytes : IsBytes (.atom "\x80") := by
    intro c among
    cases List.mem_singleton.mp among
    decide
  have keeps : Keeps decimal "2.5.29.15" (.list [.atom "\x80", .atom "7"]) := by
    unfold Keeps
    rw [is]
    exact fun _ _ => bytes
  obtain ⟨enc, encoded, -⟩ := round_leaf noJunk unaryApi_inverse is nofun nofun
    (o := .list [.atom "\x80", .atom "7"]) (u := .bits ⟨[0x80], 7⟩) (by decide)
  exact ⟨enc, encoded, (decodes_same_iff unaryApi decimal unaryApi_inverse _ _
    ((listed_leaf is nofun).mpr nofun)).mpr keeps noJunk enc encoded⟩

/-- Basic constraints that are none: what is decoded are the extensions that memory
held. -/
theorem bad_extension_decoded :
    ¬ ∀ (api : Api) (T : Tcl), Inverse api → ∀ oid o, Listed T oid o →
      ∀ junk enc, (encodeObject api.toEncoder T junk oid o).result = .ok enc →
        ∃ v, decodeObject api T oid enc = .ok v ∧ Same T oid o v := by
  intro decodes
  let o : Obj := .list [.list [.atom "2.5.29.19", .atom "1", .atom "true"]]
  have is : (oidArg decimal "1.2.840.113549.1.9.14").kind = some .extensions := by decide
  have isBasic : (oidArg decimal "2.5.29.19").kind = some .basicConstraints2 := by decide
  have listed : Listed decimal "1.2.840.113549.1.9.14" o := by
    rw [Listed.eq_def, is]
    exact ⟨(listed_leaf isBasic nofun).mpr nofun, trivial⟩
  have encoded : (encodeObject unaryApi.toEncoder decimal noJunk "1.2.840.113549.1.9.14" o).result =
      .ok [0x30, 0] := by rfl
  obtain ⟨v, -, m, read, -⟩ :=
    decodes unaryApi decimal unaryApi_inverse _ o listed noJunk _ encoded
  have unread : readObject decimal "1.2.840.113549.1.9.14" o = none := by rfl
  rw [unread] at read
  cases read

end Twapi.CryptObject
