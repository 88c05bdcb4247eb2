import Mathlib.Data.List.Forall2
import Twapi.Etw.Property

/-!
The properties of an event, `TwapiDecodeEVENT_PROPERTY_INFO` of `etw/etw.c` with
`TwapiTdhPropertyArraySize`, and the loop of `TwapiTdhGetEventInformation` over them.

* What the TDH calls answer is a parameter (`Answers`).
* `Denotes` — the values that a property has, a struct those of its members.
* `decode_denotes` — what the decoder returns are these values, in any event.
* `top_level_decoded_iff` — where it returns them for a property of a well-formed event.
-/

namespace Twapi.Etw.Tdh

open Nat

open Lib (ofBytes)

/-! ### Events -/

/-- The name is an offset that is not zero. -/
inductive PropertyType where
  | struct (start num : UInt16)
  | nonStruct (t : InType) (o : OutType) (mapNameOffset : Nat)
deriving DecidableEq

/-- `EVENT_PROPERTY_INFO`; `paramCount` is whether the count is that of another property. -/
structure EventPropertyInfo where
  nameOffset : Nat
  paramCount : Bool
  count : UInt16
  countPropertyIndex : UInt16
  type : PropertyType
deriving DecidableEq

/-- `TRACE_EVENT_INFO`: the array of properties, and the texts by their offsets. -/
structure TraceEventInfo where
  propertyCount : Nat
  topLevelPropertyCount : Nat
  info : UInt16 → EventPropertyInfo
  text : Nat → List UInt16

def TraceEventInfo.name (tei : TraceEventInfo) (i : UInt16) : List UInt16 :=
  tei.text (tei.info i).nameOffset

/-- `PROPERTY_DATA_DESCRIPTOR` -/
structure Descriptor where
  name : List UInt16
  arrayIndex : Nat
deriving DecidableEq

def ulongMax : Nat := 4294967295

/-- The answers of `TdhGetPropertySize`, of `TdhGetProperty` for a buffer of a size, and of
`TdhGetEventMapInformation` without and with a buffer. An error is a number. -/
structure Answers where
  size : List Descriptor → Except Nat Nat
  property : List Descriptor → Nat → Except Nat (List UInt8)
  sized : ∀ pdd sz bytes, property pdd sz = .ok bytes → bytes.length = sz
  mapStatus : List UInt16 → Nat
  map : List UInt16 → Except Nat EventMapInfo

/-- A value, or the names and the values of the members. -/
inductive Data where
  | value (v : Value)
  | members (ms : List (List UInt16 × List Data))

inductive DecodeError where
  | noName
  | indirectSize
  | outOfBounds (index : Nat)
  | system (winerr : Nat)
  | value (e : Error)
deriving DecidableEq

/-- What a function returns; it may not return, by a panic or as it calls itself without
end. -/
abbrev Result (α : Type) := Option (Except DecodeError α)

/-! ### `TwapiTdhPropertyArraySize` -/

section Decode

variable (h : Host) (W : Api) (evr : EventRecord) (beyond : Int → UInt8) (T : Answers)
  (tei : TraceEventInfo)

/-- The property that has the count. -/
def countDescriptor (i : UInt16) : List Descriptor :=
  [⟨tei.name (tei.info i).countPropertyIndex, ulongMax⟩]

def twapiTdhPropertyArraySize (i : UInt16) : Except DecodeError Nat :=
  if ¬ (tei.info i).paramCount then .ok (tei.info i).count.toNat
  else
    let pdd := countDescriptor tei i
    match T.size pdd with
    | .error winerr => .error (.system winerr)
    | .ok size =>
      if size ≠ 2 ∧ size ≠ 4 then .error .indirectSize
      else
        match T.property pdd size with
        | .error winerr => .error (.system winerr)
        | .ok bytes =>
          if size = 2 then .ok (ofBytes bytes)
          else if tei.propertyCount < ofBytes bytes then .error (.outOfBounds (ofBytes bytes))
          else .ok (ofBytes bytes % 65536)

/-! ### `TwapiDecodeEVENT_PROPERTY_INFO` -/

def ERROR_SUCCESS : Nat := 0
def ERROR_INSUFFICIENT_BUFFER : Nat := 122

/-- The map of the values, or the error. -/
def mapOf (mapNameOffset : Nat) : Except Nat (Option EventMapInfo) :=
  if mapNameOffset = 0 then .ok none
  else
    let name := tei.text mapNameOffset
    let winerr := T.mapStatus name
    if winerr = ERROR_INSUFFICIENT_BUFFER then (T.map name).map some
    else if winerr = ERROR_SUCCESS then .ok none
    else .error winerr

/-- The bytes of a property in a frame; what is done in between may fail. -/
def bytesOf {α : Type} (pdd : List Descriptor) (before : Except Nat α)
    (f : α → EventData → Except Error Value) : Result Value :=
  match T.size pdd with
  | .error winerr => some (.error (.system winerr))
  | .ok size =>
    if 2147483647 < size then none
    else
      match before with
      | .error winerr => some (.error (.system winerr))
      | .ok a =>
        match T.property pdd size with
        | .error winerr => some (.error (.system winerr))
        | .ok bytes => (pushFrame bytes beyond).map fun d => (f a d).mapError .value

/-- A value of a scalar; `owner` is the struct it is in, and its index. -/
def scalarAt (owner : Option (List UInt16 × Nat)) (name : List UInt16) (t : InType) (o : OutType)
    (mapNameOffset k : Nat) : Result Value :=
  let pdd : List Descriptor :=
    match owner with
    | some (struct_name, struct_index) => [⟨struct_name, struct_index⟩, ⟨name, k⟩]
    | none => [⟨name, k⟩]
  bytesOf beyond T pdd (mapOf T tei mapNameOffset) fun emi d =>
    (twapiTdhPropertyValue h W d evr t o emi).result

/-- Arrays of characters are strings. -/
def isChars (t : InType) (o : OutType) : Bool :=
  o = .string ∧ (t = .unicodechar ∨ t = .ansichar)

def charsOf (name : List UInt16) (t : InType) : Result Value :=
  bytesOf beyond T [⟨name, ulongMax⟩] (.ok ()) fun _ d =>
    if t = .unicodechar then
      .ok (.obj (objFromWinCharsLimited d (whole d) (d.bytes.length / 2)).result.1)
    else .ok (.obj (objFromStringLimited d (whole d) d.bytes.length).result.1)

end Decode

/-- A loop that ends with the first error. -/
def collect {α β : Type} (f : α → Result β) : List α → Result (List β)
  | [] => some (.ok [])
  | a :: as =>
    match f a with
    | none => none
    | some (.error e) => some (.error e)
    | some (.ok b) => (collect f as).map fun r => r.map (b :: ·)

/-- The properties from an index to a bound, of which at most `n`. The index is a `USHORT`. -/
def decodeRange {β : Type} (f : UInt16 → Result β) : Nat → UInt16 → Nat → Result (List β)
  | n, i, bound =>
    if i.toNat < bound then
      match n with
      | 0 => none
      | n + 1 =>
        match f i with
        | none => none
        | some (.error e) => some (.error e)
        | some (.ok b) => (decodeRange f n (i + 1) bound).map fun r => r.map (b :: ·)
    else some (.ok [])

section Decode

variable (h : Host) (W : Api) (evr : EventRecord) (beyond : Int → UInt8) (T : Answers)
  (tei : TraceEventInfo)

/-- The decoder, for calls of at most a depth, and as many members of each struct. -/
def decode : Nat → UInt16 → Option (List UInt16 × Nat) → Result (List UInt16 × List Data)
  | 0, _, _ => none
  | n + 1, i, owner =>
    if (tei.info i).nameOffset = 0 then some (.error .noName)
    else
      match twapiTdhPropertyArraySize T tei i with
      | .error e => some (.error e)
      | .ok nvalues =>
        let name := tei.name i
        let values : Result (List Data) :=
          match (tei.info i).type with
          | .struct start num =>
            let bound := start.toNat + num.toNat
            collect (fun array_index =>
              (if tei.topLevelPropertyCount < bound then some (.error (.outOfBounds bound))
              else
                decodeRange (fun m => decode n m (some (name, array_index))) n start
                  bound).map fun r => r.map .members) (List.range nvalues)
          | .nonStruct t o mapNameOffset =>
            if isChars t o then
              (charsOf beyond T name t).map fun r => r.map fun v => [.value v]
            else
              collect (fun array_index =>
                (scalarAt h W evr beyond T tei owner name t o mapNameOffset
                  array_index).map fun r => r.map .value) (List.range nvalues)
        values.map fun r => r.map fun vs => (name, vs)

/-- The loop of `TwapiTdhGetEventInformation`. -/
def decodeTopLevel (n : Nat) : Result (List (List UInt16 × List Data)) :=
  decodeRange (fun i => decode h W evr beyond T tei n i none) n 0 tei.topLevelPropertyCount

end Decode

/-! ### Results -/

section

variable {α β γ : Type}

theorem map_ok_iff {x : Result α} {g : α → β} {b : β} :
    (x.map fun r => r.map g) = some (.ok b) ↔ ∃ a, x = some (.ok a) ∧ g a = b := by
  constructor
  · intro mapped
    match x, mapped with
    | some (.ok a), mapped => exact ⟨a, rfl, Except.ok.inj (Option.some.inj mapped)⟩
  · rintro ⟨a, rfl, rfl⟩
    rfl

theorem collect_ok_iff {f : α → Result β} {as : List α} {bs : List β} :
    collect f as = some (.ok bs) ↔ List.Forall₂ (fun a b => f a = some (.ok b)) as bs := by
  induction as generalizing bs with
  | nil =>
    rw [List.forall₂_nil_left_iff, collect]
    exact ⟨fun h => (Except.ok.inj (Option.some.inj h)).symm, fun h => by rw [h]⟩
  | cons a as ih =>
    rw [List.forall₂_cons_left_iff, collect]
    split
    · rename_i none_
      simp [none_]
    · rename_i e error
      simp [error]
    · rename_i b ok
      rw [map_ok_iff]
      simp [ok, ih, eq_comm, and_comm]

theorem collect_map (f : α → Result β) (g : β → γ) (as : List α) :
    collect (fun a => (f a).map fun r => r.map g) as =
      (collect f as).map fun r => r.map (List.map g) := by
  induction as with
  | nil => rfl
  | cons a as ih =>
    simp only [collect, ih]
    match f a with
    | none => rfl
    | some (.error e) => rfl
    | some (.ok b) =>
      dsimp only [Option.map, Except.map]
      match collect f as with
      | none => rfl
      | some (.error e) => rfl
      | some (.ok bs) => rfl

theorem collect_range {f : Nat → Result β} {n : Nat} {bs : List β} :
    collect f (List.range n) = some (.ok bs) ↔
      bs.length = n ∧ ∀ k b, bs[k]? = some b → f k = some (.ok b) := by
  rw [collect_ok_iff, List.forall₂_iff_get]
  constructor
  · rintro ⟨length, all⟩
    rw [List.length_range] at length
    refine ⟨length.symm, fun k b at_k => ?_⟩
    obtain ⟨below, rfl⟩ := List.getElem?_eq_some_iff.mp at_k
    simpa using all k (by simpa [length] using below) below
  · rintro ⟨rfl, all⟩
    refine ⟨List.length_range, fun k _ below => ?_⟩
    simpa using all k _ (List.getElem?_eq_getElem below)

theorem decodeRange_end {f : UInt16 → Result β} {n : Nat} {i : UInt16} {bound : Nat}
    (done : ¬ i.toNat < bound) : decodeRange f n i bound = some (.ok []) := by
  cases n <;> rw [decodeRange, if_neg done]

end

/-! ### What a property has -/

section

variable (h : Host) (W : Api) (evr : EventRecord) (beyond : Int → UInt8) (T : Answers)
  (tei : TraceEventInfo)

/-- The count of a property, its own or the value of another property of size 2 or 4. -/
inductive CountIs (i : UInt16) : Nat → Prop where
  | direct : (tei.info i).paramCount = false → CountIs i (tei.info i).count.toNat
  | referenced {size : Nat} {bytes : List UInt8} : (tei.info i).paramCount = true →
      T.size (countDescriptor tei i) = .ok size → size = 2 ∨ size = 4 →
      T.property (countDescriptor tei i) size = .ok bytes → CountIs i (ofBytes bytes)

/-- The values of a property: for an array of characters the string, and else as many as its
count. Those of a struct are the names and the values of its members in their order. -/
inductive Denotes : Option (List UInt16 × Nat) → UInt16 → List Data → Prop where
  | chars {owner : Option (List UInt16 × Nat)} {i : UInt16} {t : InType} {o : OutType} {map : Nat}
      {v : Value} : (tei.info i).type = .nonStruct t o map → isChars t o = true →
      charsOf beyond T (tei.name i) t = some (.ok v) → Denotes owner i [.value v]
  | scalars {owner : Option (List UInt16 × Nat)} {i : UInt16} {t : InType} {o : OutType}
      {map : Nat} {vs : List Value} : (tei.info i).type = .nonStruct t o map →
      isChars t o = false → CountIs T tei i vs.length →
      (∀ k v, vs[k]? = some v →
        scalarAt h W evr beyond T tei owner (tei.name i) t o map k = some (.ok v)) →
      Denotes owner i (vs.map .value)
  | structs {owner : Option (List UInt16 × Nat)} {i start num : UInt16}
      {rows : List (List (List UInt16 × List Data))} : (tei.info i).type = .struct start num →
      CountIs T tei i rows.length →
      (∀ row ∈ rows, row.length = num.toNat) →
      (∀ (k j : Nat) (row : List (List UInt16 × List Data)) (name : List UInt16)
        (vs : List Data), rows[k]? = some row → row[j]? = some (name, vs) →
          name = tei.name (start + UInt16.ofNat j)) →
      (∀ (k j : Nat) (row : List (List UInt16 × List Data)) (name : List UInt16)
        (vs : List Data), rows[k]? = some row → row[j]? = some (name, vs) →
          Denotes (some (tei.name i, k)) (start + UInt16.ofNat j) vs) →
      Denotes owner i (rows.map .members)

end

section

variable {h : Host} {W : Api} {evr : EventRecord} {beyond : Int → UInt8} {T : Answers}
  {tei : TraceEventInfo} {i : UInt16} {n m : Nat} {owner : Option (List UInt16 × Nat)}

theorem CountIs.unique (first : CountIs T tei i n) (second : CountIs T tei i m) : n = m := by
  cases first with
  | direct own =>
    cases second with
    | direct => rfl
    | referenced other => rw [own] at other; cases other
  | referenced other size width bytes =>
    cases second with
    | direct own => rw [own] at other; cases other
    | referenced _ size' _ bytes' =>
      obtain rfl := Except.ok.inj (size.symm.trans size')
      obtain rfl := Except.ok.inj (bytes.symm.trans bytes')
      rfl

/-- A count of four bytes that is larger than the number of properties is refused. -/
def Refused (T : Answers) (tei : TraceEventInfo) (i : UInt16) (n : Nat) : Prop :=
  (tei.info i).paramCount = true ∧ T.size (countDescriptor tei i) = .ok 4 ∧ tei.propertyCount < n

theorem arraySize_refused (count : CountIs T tei i n) (refused : Refused T tei i n) :
    twapiTdhPropertyArraySize T tei i = .error (.outOfBounds n) := by
  obtain ⟨other, four, more⟩ := refused
  cases count with
  | direct own => rw [own] at other; cases other
  | referenced _ size width bytes =>
    obtain rfl := Except.ok.inj (size.symm.trans four)
    simp [twapiTdhPropertyArraySize, other, size, bytes, more]

theorem arraySize_eq (count : CountIs T tei i n) (kept : ¬ Refused T tei i n) :
    twapiTdhPropertyArraySize T tei i = .ok (n % 65536) := by
  cases count with
  | direct own =>
    have small := (tei.info i).count.toNat_lt
    simp [twapiTdhPropertyArraySize, own]
  | referenced other size width bytes =>
    have length := T.sized _ _ _ bytes
    rcases width with rfl | rfl
    · have small := Lib.ofBytes_lt ‹_›
      rw [length] at small
      simp only [twapiTdhPropertyArraySize, other, size, bytes]
      exact congrArg Except.ok (mod_eq_of_lt small).symm
    · have few : ¬ tei.propertyCount < ofBytes _ := fun more => kept ⟨other, size, more⟩
      simp [twapiTdhPropertyArraySize, other, size, bytes, few]

/-! ### The decoder -/

/-- What is decoded is a list of so many values, or for an array of characters of one. -/
theorem decode_length {fuel nvalues : Nat} {owner : Option (List UInt16 × Nat)}
    {name : List UInt16} {vs : List Data}
    (size : twapiTdhPropertyArraySize T tei i = .ok nvalues)
    (ended : decode h W evr beyond T tei fuel i owner = some (.ok (name, vs))) :
    vs.length = nvalues ∨ vs.length = 1 := by
  cases fuel with
  | zero => cases ended
  | succ fuel =>
    rw [decode] at ended
    split at ended
    · cases ended
    · rw [size] at ended
      obtain ⟨vs', values, same⟩ := map_ok_iff.mp ended
      obtain ⟨rfl, rfl⟩ := Prod.mk.inj same
      split at values
      · exact .inl (collect_range.mp values).1
      · split at values
        · obtain ⟨v, -, rfl⟩ := map_ok_iff.mp values
          exact .inr rfl
        · exact .inl (collect_range.mp values).1

end

/-! ### Well-formed events -/

/-- The properties at the top are first, those that are members of a struct come after them. -/
structure WellFormed (tei : TraceEventInfo) : Prop where
  top : tei.topLevelPropertyCount ≤ tei.propertyCount
  named : ∀ i : UInt16, i.toNat < tei.propertyCount → (tei.info i).nameOffset ≠ 0
  counts : ∀ i : UInt16, i.toNat < tei.propertyCount → (tei.info i).paramCount = true →
    (tei.info i).countPropertyIndex.toNat < tei.propertyCount
  members : ∀ (i start num : UInt16), i.toNat < tei.propertyCount →
    (tei.info i).type = .struct start num →
      tei.topLevelPropertyCount ≤ start.toNat ∧ start.toNat + num.toNat ≤ tei.propertyCount

section

variable (h : Host) (W : Api) (evr : EventRecord) (beyond : Int → UInt8) (T : Answers)
  (tei : TraceEventInfo)

/-- The calls give the counts, and bytes that are values of the properties at the top. -/
structure Answered : Prop where
  counts : ∀ i : UInt16, i.toNat < tei.topLevelPropertyCount → ∃ n, CountIs T tei i n
  scalars : ∀ (i : UInt16) (t : InType) (o : OutType) (map n k : Nat),
    i.toNat < tei.topLevelPropertyCount → (tei.info i).type = .nonStruct t o map →
      isChars t o = false → CountIs T tei i n → k < n →
        ∃ v, scalarAt h W evr beyond T tei none (tei.name i) t o map k = some (.ok v)
  chars : ∀ (i : UInt16) (t : InType) (o : OutType) (map : Nat),
    i.toNat < tei.topLevelPropertyCount → (tei.info i).type = .nonStruct t o map →
      isChars t o = true → ∃ v, charsOf beyond T (tei.name i) t = some (.ok v)

/-- A property is decoded to what it denotes, which is as many values as its count. -/
def Decoded (i : UInt16) : Prop :=
  ∃ vs, CountIs T tei i vs.length ∧ Denotes h W evr beyond T tei none i vs ∧
    ∃ depth, ∀ n, depth ≤ n →
      decode h W evr beyond T tei n i none = some (.ok (tei.name i, vs))

/-- A count that is not refused and fits a `USHORT`; and a struct, if there is any of it, has
its members where the code looks for them, and an array of characters has one. -/
def Kept (i : UInt16) (n : Nat) : Prop :=
  ¬ Refused T tei i n ∧ n < 65536 ∧
    match (tei.info i).type with
    | .struct start num => n = 0 ∨ start.toNat + num.toNat ≤ tei.topLevelPropertyCount
    | .nonStruct t o _ => isChars t o = true → n = 1

end

section

variable {h : Host} {W : Api} {evr : EventRecord} {beyond : Int → UInt8} {T : Answers}
  {tei : TraceEventInfo} {i : UInt16} {n : Nat}

theorem exists_values {α : Type} {P : Nat → α → Prop} (each : ∀ k < n, ∃ v, P k v) :
    ∃ vs : List α, vs.length = n ∧ ∀ k v, vs[k]? = some v → P k v := by
  induction n with
  | zero => exact ⟨[], rfl, by simp⟩
  | succ n ih =>
    obtain ⟨vs, rfl, all⟩ := ih fun k below => each k (lt_succ_of_lt below)
    obtain ⟨v, last⟩ := each vs.length (lt_succ_self _)
    refine ⟨vs ++ [v], by simp, fun k w at_k => ?_⟩
    by_cases below : k < vs.length
    · rw [List.getElem?_append_left below] at at_k
      exact all k w at_k
    · rw [List.getElem?_append_right (Nat.le_of_not_lt below),
        List.getElem?_singleton] at at_k
      split at at_k
      · obtain rfl : k = vs.length := by omega
        rwa [← Option.some.inj at_k]
      · cases at_k

/-- Nothing is decoded where the decoder ends with an error. -/
theorem not_decoded {e : DecodeError}
    (fails : ∀ n, decode h W evr beyond T tei (n + 1) i none = some (.error e)) :
    ¬ Decoded h W evr beyond T tei i := by
  rintro ⟨vs, -, -, depth, ends⟩
  have ended := ends (depth + 1) (le_succ depth)
  rw [fails] at ended
  cases ended

variable {fuel map : Nat}

/-- The struct is refused at its first value. -/
theorem decode_struct_refused {start num : UInt16} (named : (tei.info i).nameOffset ≠ 0)
    (size : twapiTdhPropertyArraySize T tei i = .ok (n + 1))
    (type : (tei.info i).type = .struct start num)
    (beyondTop : tei.topLevelPropertyCount < start.toNat + num.toNat) :
    decode h W evr beyond T tei (fuel + 1) i none =
      some (.error (.outOfBounds (start.toNat + num.toNat))) := by
  rw [decode, if_neg named, size]
  simp only [type, if_pos beyondTop, List.range_succ_eq_map, collect]
  rfl

/-- A struct of which there is no value, or which has no members. -/
theorem decode_struct_empty {start num : UInt16} (named : (tei.info i).nameOffset ≠ 0)
    (size : twapiTdhPropertyArraySize T tei i = .ok n)
    (type : (tei.info i).type = .struct start num)
    (empty : n = 0 ∨ num.toNat = 0 ∧ start.toNat ≤ tei.topLevelPropertyCount) :
    decode h W evr beyond T tei (fuel + 1) i none =
      some (.ok (tei.name i, (List.replicate n []).map .members)) := by
  rw [decode, if_neg named, size]
  simp only [type, collect_map]
  refine map_ok_iff.mpr ⟨_, map_ok_iff.mpr ⟨List.replicate n [], ?_, rfl⟩, rfl⟩
  refine collect_range.mpr ⟨List.length_replicate, fun k row at_k => ?_⟩
  obtain ⟨below, rfl⟩ := List.getElem?_eq_some_iff.mp at_k
  rw [List.length_replicate] at below
  rcases empty with rfl | ⟨noMembers, low⟩
  · cases below
  · rw [noMembers, add_zero, if_neg (not_lt.mpr low), List.getElem_replicate]
    exact decodeRange_end (lt_irrefl _)

/-- A struct with values is decoded where its members end below the properties at the top. -/
theorem decoded_struct_iff (wf : WellFormed tei) (top : i.toNat < tei.topLevelPropertyCount)
    (count : CountIs T tei i n) (size : twapiTdhPropertyArraySize T tei i = .ok n)
    {start num : UInt16} (type : (tei.info i).type = .struct start num) :
    Decoded h W evr beyond T tei i ↔
      n = 0 ∨ start.toNat + num.toNat ≤ tei.topLevelPropertyCount := by
  have inside := lt_of_lt_of_le top wf.top
  have named := wf.named i inside
  obtain ⟨behind, -⟩ := wf.members i start num inside type
  constructor
  · intro decoded
    by_contra neither
    obtain ⟨some_, more⟩ := not_or.mp neither
    obtain ⟨m, rfl⟩ := exists_eq_succ_of_ne_zero some_
    exact not_decoded (fun fuel =>
      decode_struct_refused named size type (Nat.lt_of_not_le more)) decoded
  · intro kept
    have empty : n = 0 ∨ num.toNat = 0 ∧ start.toNat ≤ tei.topLevelPropertyCount := by omega
    have noMembers : n = 0 ∨ num.toNat = 0 := by omega
    refine ⟨(List.replicate n []).map .members, by simpa using count, ?_, 1, fun fuel deep => ?_⟩
    · refine .structs type (by simpa using count) ?_ ?_ ?_
      · intro row among
        obtain ⟨some_, rfl⟩ := List.mem_replicate.mp among
        rw [List.length_nil]
        omega
      · intro k j row name vs at_k at_j
        obtain ⟨-, rfl⟩ := List.mem_replicate.mp (List.mem_of_getElem? at_k)
        cases at_j
      · intro k j row name vs at_k at_j
        obtain ⟨-, rfl⟩ := List.mem_replicate.mp (List.mem_of_getElem? at_k)
        cases at_j
    · obtain ⟨fuel, rfl⟩ := exists_eq_succ_of_ne_zero (ne_of_gt deep)
      exact decode_struct_empty named size type empty

theorem decoded_scalars (wf : WellFormed tei) (ans : Answered h W evr beyond T tei)
    (top : i.toNat < tei.topLevelPropertyCount) (count : CountIs T tei i n)
    (size : twapiTdhPropertyArraySize T tei i = .ok n) {t : InType} {o : OutType}
    (type : (tei.info i).type = .nonStruct t o map) (scalar : isChars t o = false) :
    Decoded h W evr beyond T tei i := by
  have named := wf.named i (lt_of_lt_of_le top wf.top)
  obtain ⟨vs, rfl, each⟩ := exists_values fun k below =>
    ans.scalars i t o map n k top type scalar count below
  refine ⟨vs.map .value, by simpa using count, .scalars type scalar count each, 1,
    fun fuel deep => ?_⟩
  obtain ⟨fuel, rfl⟩ := exists_eq_succ_of_ne_zero (ne_of_gt deep)
  rw [decode, if_neg named, size]
  simp only [type, scalar, collect_map]
  refine map_ok_iff.mpr ⟨_, map_ok_iff.mpr ⟨vs, ?_, rfl⟩, rfl⟩
  exact collect_range.mpr ⟨rfl, each⟩

theorem decoded_chars_iff (wf : WellFormed tei) (ans : Answered h W evr beyond T tei)
    (top : i.toNat < tei.topLevelPropertyCount) (count : CountIs T tei i n)
    (size : twapiTdhPropertyArraySize T tei i = .ok n) {t : InType} {o : OutType}
    (type : (tei.info i).type = .nonStruct t o map) (chars : isChars t o = true) :
    Decoded h W evr beyond T tei i ↔ n = 1 := by
  have named := wf.named i (lt_of_lt_of_le top wf.top)
  obtain ⟨v, string⟩ := ans.chars i t o map top type chars
  have ends (fuel : Nat) : decode h W evr beyond T tei (fuel + 1) i none =
      some (.ok (tei.name i, [.value v])) := by
    rw [decode, if_neg named, size]
    simp only [type, chars, string]
    rfl
  constructor
  · rintro ⟨vs, counted, -, depth, ended⟩
    have same := (ended (depth + 1) (le_succ depth)).symm.trans (ends depth)
    obtain ⟨-, rfl⟩ := Prod.mk.inj (Except.ok.inj (Option.some.inj same))
    exact count.unique counted
  · rintro rfl
    refine ⟨[.value v], count, .chars type chars string, 1, fun fuel deep => ?_⟩
    obtain ⟨fuel, rfl⟩ := exists_eq_succ_of_ne_zero (ne_of_gt deep)
    exact ends fuel

end

/-- Decoding a property at the top of a well-formed event gives all its values exactly where
its count is kept. -/
theorem top_level_decoded_iff (h : Host) (W : Api) (evr : EventRecord) (beyond : Int → UInt8)
    (T : Answers) (tei : TraceEventInfo) (wf : WellFormed tei)
    (ans : Answered h W evr beyond T tei) (i : UInt16)
    (top : i.toNat < tei.topLevelPropertyCount) :
    Decoded h W evr beyond T tei i ↔ ∀ n, CountIs T tei i n → Kept T tei i n := by
  obtain ⟨n, count⟩ := ans.counts i top
  have unique : (∀ n, CountIs T tei i n → Kept T tei i n) ↔ Kept T tei i n :=
    ⟨fun all => all n count, fun kept m counted => count.unique counted ▸ kept⟩
  have named := wf.named i (lt_of_lt_of_le top wf.top)
  rw [unique, Kept]
  by_cases refused : Refused T tei i n
  · have fails (fuel : Nat) : decode h W evr beyond T tei (fuel + 1) i none =
        some (.error (.outOfBounds n)) := by
      rw [decode, if_neg named, arraySize_refused count refused]
    exact iff_of_false (not_decoded fails) fun kept => kept.1 refused
  · rw [and_iff_right refused]
    have size := arraySize_eq count refused
    by_cases small : n < 65536
    · rw [and_iff_right small]
      rw [mod_eq_of_lt small] at size
      cases type : (tei.info i).type with
      | struct start num => exact decoded_struct_iff wf top count size type
      | nonStruct t o map =>
        cases chars : isChars t o with
        | false =>
          refine iff_of_true (decoded_scalars wf ans top count size type chars) fun isTrue => ?_
          rw [chars] at isTrue
          cases isTrue
        | true =>
          rw [decoded_chars_iff wf ans top count size type chars]
          exact ⟨fun one _ => one, fun kept => kept chars⟩
    · refine iff_of_false ?_ fun kept => small kept.1
      rintro ⟨vs, counted, -, depth, ended⟩
      have length := decode_length size (ended depth (le_refl depth))
      have same := count.unique counted
      omega

/-! A number at the top, and a number in a struct -/

/-- All properties have four bytes, which are zero. -/
def zeros : Answers :=
  ⟨fun _ => .ok 4, fun _ size => .ok (List.replicate size 0),
    fun _ _ _ read => Except.ok.inj read ▸ List.length_replicate, fun _ => 0,
    fun _ => .ok ⟨.other, false, []⟩⟩

def number : EventPropertyInfo := ⟨2, false, 1, 0, .nonStruct .int32 .other 0⟩

def flat : TraceEventInfo := ⟨1, 1, fun _ => number, fun offset => [UInt16.ofNat offset]⟩

def structured : TraceEventInfo :=
  ⟨2, 1, fun i => if i = 0 then ⟨1, false, 1, 0, .struct 1 1⟩ else number,
    fun offset => [UInt16.ofNat offset]⟩

theorem flat_wellFormed : WellFormed flat :=
  ⟨le_refl 1, fun _ _ => succ_ne_zero 1, fun _ _ => nofun, fun _ _ _ _ => nofun⟩

theorem flat_answered (h : Host) (W : Api) (evr : EventRecord) (beyond : Int → UInt8) :
    Answered h W evr beyond zeros flat where
  counts i _ := ⟨1, .direct rfl⟩
  scalars i t o map n k _ type _ _ _ := by
    obtain ⟨rfl, rfl, rfl⟩ := PropertyType.nonStruct.inj type
    exact ⟨_, rfl⟩
  chars i t o map _ type chars := by
    obtain ⟨rfl, rfl, rfl⟩ := PropertyType.nonStruct.inj type
    cases chars

theorem flat_decoded :
    Decoded .x64 noApi ⟨false, true, 0⟩ (fun _ => 0) zeros flat 0 := by
  refine (top_level_decoded_iff .x64 noApi ⟨false, true, 0⟩ (fun _ => 0) zeros flat
    flat_wellFormed (flat_answered ..) 0 one_pos).mpr fun n count => ?_
  cases count with
  | direct => exact ⟨fun refused => (nomatch refused.1), by decide, nofun⟩
  | referenced other => cases other

theorem structured_wellFormed : WellFormed structured where
  top := by decide
  named i _ := by
    by_cases first : i = 0 <;> simp [structured, first, number]
  counts i _ other := by
    by_cases first : i = 0 <;> simp [structured, first, number] at other
  members i start num _ type := by
    by_cases first : i = 0 <;> simp [structured, first, number] at type
    obtain ⟨rfl, rfl⟩ := type
    decide

/-- The member of the struct is the second property, and there is one at the top. -/
theorem struct_of_one_member_refused :
    WellFormed structured ∧ Answered .x64 noApi ⟨false, true, 0⟩ (fun _ => 0) zeros structured ∧
      ¬ Decoded .x64 noApi ⟨false, true, 0⟩ (fun _ => 0) zeros structured 0 := by
  refine ⟨structured_wellFormed, ?_, not_decoded fun n => rfl⟩
  have first (i : UInt16) (top : i.toNat < 1) : i = 0 := by
    rw [← UInt16.toNat_inj]
    exact lt_one_iff.mp top
  constructor
  · intro i top
    obtain rfl := first i top
    exact ⟨1, .direct rfl⟩
  · intro i t o map n k top type
    obtain rfl := first i top
    cases type
  · intro i t o map top type
    obtain rfl := first i top
    cases type

end Twapi.Etw.Tdh
