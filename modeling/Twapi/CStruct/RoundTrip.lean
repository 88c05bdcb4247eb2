import Twapi.CStruct.Access

/-!
A value that was written is read back.

* `Fields.InRange` — values in the range of their types, that are stored as they are.
* `Fields.Same` — values that are equal field by field.
* `store_run`, `storeField_run`, `parseFields_run` — what is written shows when it is read.
* `twapiCStructParse_read` — the commands.
-/

namespace Twapi.CStruct

open Lib

/-! ### Values -/

section Values

variable {A : Arch} (T : Tcl A)

/-- The integers of a type that are read as they were written. -/
def CStructType.Holds : CStructType → Int → Prop
  | .char, n => -128 ≤ n ∧ n < 128
  | .uchar, n => 0 ≤ n ∧ n < 256
  | .short, n => -32768 ≤ n ∧ n < 32768
  | .ushort, n => 0 ≤ n ∧ n < 65536
  | .int, n => -2 ^ 31 ≤ n ∧ n < 2 ^ 31
  | .uint, n => 0 ≤ n ∧ n < 2 ^ 32
  | .int64, n => -2 ^ 63 ≤ n ∧ n < 2 ^ 63
  | .uint64, n => 0 ≤ n ∧ n < 2 ^ 63
  | .cbsize, n => 0 < n ∧ n < 2 ^ 32
  | _, _ => True

/-- Integers in range, and wide strings without null characters. -/
def scalarInRange (type : CStructType) (v : String) : Prop :=
  (∀ n, T.number v = some n → type.Holds n) ∧ (type = .wstring → '\x00' ∉ v.toList)

/-- A value, or as many as the array has elements. -/
def inField (one : String → Prop) (f : Field) (v : String) : Prop :=
  if f.count = 0 then one v
  else ∃ ws, T.elements v = .ok ws ∧ ws.length = f.count.toNat ∧ ∀ w ∈ ws, one w

/-- The fields of a nested structure are no more than can be read. -/
def Fields.InRange : Fields → List String → Prop
  | .field f rest, v :: vs => inField T (scalarInRange T f.type) f v ∧ rest.InRange vs
  | .nested f _ _ child rest, v :: vs =>
    inField T (fun v => child.length ≤ 64 ∧ ∃ ws, T.elements v = .ok ws ∧ child.InRange ws) f v ∧
      rest.InRange vs
  | _, _ => True

/-- Floating-point numbers are not compared. -/
def scalarSame (type : CStructType) (v : String) (o : Obj) : Prop :=
  match type with
  | .boolean => ∃ b, T.toBoolean v = .ok b ∧ o = .boolean b
  | .char | .uchar | .short | .ushort | .int | .uint | .int64 | .uint64 | .cbsize =>
    ∃ n, T.number v = some n ∧ o = .int n
  | .handle => ∃ p, T.toOpaque v = .ok p ∧ o = .pointer p "HANDLE"
  | .string | .wstring => o = .string v
  | .psid => ∃ sid text, T.stringSidToSid v = some sid ∧ T.stringSidToSid text = some sid ∧
      o = .string text
  | .float | .double => ∃ bits, o = .double bits
  | .void | .struct => False

def sameField (one : String → Obj → Prop) (f : Field) (v : String) (o : Obj) : Prop :=
  if f.count = 0 then one v o
  else ∃ ws os, T.elements v = .ok ws ∧ o = .list os ∧ List.Forall₂ one ws os

def Fields.Same : Fields → List String → List Obj → Prop
  | .nil, [], [] => True
  | .field f rest, v :: vs, o :: os => sameField T (scalarSame T f.type) f v o ∧ rest.Same vs os
  | .nested f _ _ child rest, v :: vs, o :: os =>
    sameField T (fun v o => ∃ ws os, T.elements v = .ok ws ∧ o = .list os ∧ child.Same ws os) f v o ∧
      rest.Same vs os
  | _, _, _ => False

end Values

/-! ### What is written, and what is read after it -/

/-- Blocks stay where they are. -/
def Extends (s t : State) : Prop :=
  ∀ p text, s.blocks.lookup p = some text → t.blocks.lookup p = some text

/-- Nothing outside a range was written. -/
structure Writes (lo hi : Int) (s t : State) : Prop where
  outside : ∀ x, x < lo ∨ hi ≤ x → t.mem x = s.mem x
  blocks : Extends s t

/-- The program returns this, and the memory stays. -/
def Reads {α : Type} (p : Prog α) (s : State) (a : α) : Prop :=
  ∃ t, p s = (.ok a, t) ∧ t.mem = s.mem ∧ t.blocks = s.blocks

/-- What the program returns in every later state in which the range is left alone. -/
def Shows (lo hi : Int) (t : State) {α : Type} (p : Prog α) (P : α → Prop) : Prop :=
  ∀ u, Agree lo hi u.mem t.mem → Extends t u → ∃ a, P a ∧ Reads p u a

section Rules

variable {lo hi lo' hi' : Int} {s t u : State} {α β : Type}

theorem Writes.refl (lo hi : Int) (s : State) : Writes lo hi s s := ⟨fun _ _ => rfl, fun _ _ h => h⟩

theorem Writes.trans (first : Writes lo hi s t) (second : Writes lo hi t u) : Writes lo hi s u where
  outside x out := (second.outside x out).trans (first.outside x out)
  blocks p text found := second.blocks p text (first.blocks p text found)

theorem Writes.mono (writes : Writes lo hi s t) (low : lo' ≤ lo) (high : hi ≤ hi') :
    Writes lo' hi' s t where
  outside x out := writes.outside x (by omega)
  blocks := writes.blocks

theorem Writes.of_same (mem : t.mem = s.mem) (blocks : t.blocks = s.blocks) (a : Int) :
    Writes a a s t where
  outside x _ := by rw [mem]
  blocks p text found := by rwa [blocks]

/-- A structure whose first field was written, and then the rest of it. -/
theorem Writes.fields {a b : Int} {m : State} (first : Writes a b s m) (rest : Writes b hi m t)
    (low : lo ≤ a) (high : b ≤ hi) (order : a ≤ b) : Writes lo hi s t :=
  (first.mono low high).trans (rest.mono (by omega) (Int.le_refl hi))

theorem Reads.pure (s : State) (a : α) : Reads (Pure.pure a : Prog α) s a := ⟨s, rfl, rfl, rfl⟩

variable {P : α → Prop} {p : Prog α}

/-- What shows still shows after writing somewhere else. -/
theorem Shows.after (shows_it : Shows lo hi t p P) (writes : Writes lo' hi' t u)
    (apart : hi ≤ lo' ∨ hi' ≤ lo) : Shows lo hi u p P := by
  intro v agree blocks
  refine shows_it v (agree.trans fun x low high => writes.outside x (by omega)) ?_
  exact fun p text found => blocks p text (writes.blocks p text found)

theorem Shows.mono (shows_it : Shows lo hi t p P) (low : lo' ≤ lo) (high : hi ≤ hi') :
    Shows lo' hi' t p P :=
  fun v agree => shows_it v (agree.mono low high)

/-- A field and the fields after it. -/
theorem Shows.fields {a b : Int} {m : State} {q : Prog β} {Q : β → Prop} (first : Shows a b m p P)
    (writes : Writes b hi m t) (rest : Shows b hi t q Q) (low : lo ≤ a) (high : b ≤ hi)
    (order : a ≤ b) :
    Shows lo hi t p P ∧ Shows lo hi t q Q :=
  ⟨(first.after writes (.inl (Int.le_refl b))).mono low high,
    rest.mono (by omega) (Int.le_refl hi)⟩

theorem Shows.pure {a : α} (holds : P a) : Shows lo hi t (Pure.pure a : Prog α) P :=
  fun u _ _ => ⟨a, holds, .pure u a⟩

theorem Shows.bind {f : α → Prog β} {Q : β → Prop} (first : Shows lo hi t p P)
    (second : ∀ a, P a → Shows lo hi t (f a) Q) :
    Shows lo hi t (p >>= f) Q := by
  intro u agree blocks
  obtain ⟨a, holds, reads⟩ := first u agree blocks
  obtain ⟨v, run, mem, same⟩ := reads
  have agree' : Agree lo hi v.mem t.mem := mem ▸ agree
  have blocks' : Extends t v := by
    intro p text found
    rw [same]
    exact blocks p text found
  obtain ⟨b, holds', w, next, mem', same'⟩ := second a holds v agree' blocks'
  refine ⟨b, holds', w, ?_, mem'.trans mem, same'.trans same⟩
  change Memo.bind p f u = _
  rw [Memo.bind, run]
  exact next

end Rules

/-! ### One value -/

theorem ofBytes_bytesOf {width : Nat} {n : Int} (low : 0 ≤ n) (high : n < 256 ^ width) :
    (ofBytes (bytesOf width n) : Int) = n := by
  have same : n % 256 ^ width = n := Int.emod_eq_of_lt low high
  rw [bytesOf, same, ofBytes_toBytes_of_lt (by zify; omega), Int.toNat_of_nonneg low]

theorem signedOf_bytesOf {width : Nat} {n : Int} (low : -(256 ^ width / 2) ≤ n)
    (high : n < 256 ^ width / 2) : signedOf (bytesOf width n) = n :=
  signedOf_toBytes low high

theorem toBytes_ofInt32 (n : Int) : toBytes 4 (BitVec.ofInt 32 n).toNat = bytesOf 4 n := by
  rw [BitVec.toNat_ofInt, bytesOf]
  rfl

theorem toBytes_ofInt64 (n : Int) : toBytes 8 (BitVec.ofInt 64 n).toNat = bytesOf 8 n := by
  rw [BitVec.toNat_ofInt, bytesOf]
  rfl

section Scalars

variable {A : Arch} {T : Tcl A}

variable {type : CStructType} {s t : State} {obj : String} {a : Int}

/-- Where the integer that a value stands for is in the range, it is what is stored. -/
theorem rangedInt_ok {low high m : Int} (ranged : rangedInt T obj low high = .ok m) {P : Int → Prop}
    (inRange : ∀ n, T.number obj = some n → P n) (small : ∀ n, P n → -2 ^ 31 ≤ n ∧ n < 2 ^ 31) :
    T.number obj = some m ∧ P m := by
  obtain ⟨b, converted, within⟩ := bind_eq_ok ranged
  cases parsed : T.toInt obj with
  | error e =>
    rw [parsed] at converted
    cases converted
  | ok b' =>
    rw [parsed] at converted
    cases converted
    obtain ⟨n, number, same⟩ := T.toInt_eq obj b parsed
    have holds := inRange n number
    obtain ⟨least, most⟩ := small n holds
    have value : b.toInt = n := by
      rw [same, BitVec.toInt_ofInt]
      exact Int.bmod_eq_of_le (by omega) (by omega)
    rw [value] at within
    by_cases out : n < low ∨ high < n
    · rw [if_pos out] at within
      cases within
    · rw [if_neg out] at within
      cases within
      exact ⟨number, holds⟩

theorem mapError_eq_ok {ε ε' α : Type} {f : ε → ε'} {x : Except ε α} {a : α}
    (mapped : x.mapError f = .ok a) : x = .ok a := by
  cases x with
  | error e => cases mapped
  | ok b =>
    cases mapped
    rfl

/-- What is stored of an integer that is converted are its lowest bytes. -/
theorem converted_ok {w k : Nat} {convert : String → Except String (BitVec w)}
    (reads : ∀ s b, convert s = .ok b → ∃ n, T.number s = some n ∧ b = BitVec.ofInt w n)
    (lowest : ∀ n, toBytes k (BitVec.ofInt w n).toNat = bytesOf k n) {bytes : List UInt8}
    (stored : (do
      let b ← (convert obj).mapError tclError
      return toBytes k b.toNat) = .ok bytes) :
    ∃ n, T.number obj = some n ∧ bytes = bytesOf k n := by
  obtain ⟨b, converted, same⟩ := bind_eq_ok stored
  obtain ⟨n, number, rfl⟩ := reads obj b (mapError_eq_ok converted)
  cases same
  exact ⟨n, number, lowest n⟩

/-- What is stored of an integer, a boolean or a handle is read as what it was. -/
theorem scalarObj_same {bytes : List UInt8} (stored : scalarBytes T type obj = .ok bytes)
    (inRange : scalarInRange T type obj) :
    scalarSame T type obj (scalarObj T type bytes) := by
  have integers := inRange.1
  cases type
  case void | string | wstring | psid | struct => cases stored
  case boolean =>
    obtain ⟨b, converted, same⟩ := bind_eq_ok stored
    cases same
    refine ⟨b, mapError_eq_ok converted, ?_⟩
    cases b <;> rfl
  case float | double =>
    obtain ⟨b, _, same⟩ := bind_eq_ok stored
    cases same
    exact ⟨_, rfl⟩
  case char | short =>
    obtain ⟨n, ranged, same⟩ := bind_eq_ok stored
    cases same
    obtain ⟨number, holds⟩ := rangedInt_ok ranged integers fun n h => by
      simp only [CStructType.Holds] at h
      omega
    simp only [CStructType.Holds] at holds
    exact ⟨n, number, congrArg Obj.int (signedOf_bytesOf (by omega) (by omega))⟩
  case uchar | ushort =>
    obtain ⟨n, ranged, same⟩ := bind_eq_ok stored
    cases same
    obtain ⟨number, holds⟩ := rangedInt_ok ranged integers fun n h => by
      simp only [CStructType.Holds] at h
      omega
    simp only [CStructType.Holds] at holds
    exact ⟨n, number, congrArg Obj.int (ofBytes_bytesOf (by omega) (by omega))⟩
  case int =>
    obtain ⟨n, number, rfl⟩ := converted_ok T.toLong_eq toBytes_ofInt32 stored
    have holds := integers n number
    simp only [CStructType.Holds] at holds
    exact ⟨n, number, congrArg Obj.int (signedOf_bytesOf (by omega) (by omega))⟩
  case uint =>
    obtain ⟨n, number, rfl⟩ := converted_ok T.toLong_eq toBytes_ofInt32 stored
    have holds := integers n number
    simp only [CStructType.Holds] at holds
    exact ⟨n, number, congrArg Obj.int (ofBytes_bytesOf (by omega) (by omega))⟩
  case cbsize =>
    obtain ⟨n, number, rfl⟩ := converted_ok T.toInt_eq toBytes_ofInt32 stored
    have holds := integers n number
    simp only [CStructType.Holds] at holds
    exact ⟨n, number, congrArg Obj.int (ofBytes_bytesOf (by omega) (by omega))⟩
  case int64 | uint64 =>
    obtain ⟨n, number, rfl⟩ := converted_ok T.toWideInt_eq toBytes_ofInt64 stored
    have holds := integers n number
    simp only [CStructType.Holds] at holds
    exact ⟨n, number, congrArg Obj.int (signedOf_bytesOf (by omega) (by omega))⟩
  case handle =>
    obtain ⟨p, converted, same⟩ := bind_eq_ok stored
    cases same
    have parsed := mapError_eq_ok converted
    refine ⟨p, parsed, ?_⟩
    exact congrArg (Obj.pointer · "HANDLE") (ofBytes_toBytes_of_lt (T.toOpaque_lt obj p parsed))

/-- A pointer to a new block. -/
theorem storePointer_run {text : Text} (run : storePointer T text a s = (.ok (), t)) :
    ∃ p, p < 256 ^ A.pointer ∧ t.blocks.lookup p = some text ∧
      t.mem = s.mem.write a (toBytes A.pointer p) ∧ Extends s t := by
  obtain ⟨p, u, copied, written⟩ := bind_run run
  rw [copyOf] at copied
  cases fresh : T.fresh s.blocks with
  | none =>
    rw [fresh] at copied
    cases copied
  | some q =>
    rw [fresh] at copied
    cases copied
    cases written
    refine ⟨p, T.fresh_lt _ p fresh, List.lookup_cons_self, rfl, fun r text' found => ?_⟩
    have other : r ≠ p := by
      rintro rfl
      rw [T.fresh_lookup _ r fresh] at found
      cases found
    change List.lookup r ((p, text) :: s.blocks) = some text'
    rw [List.lookup_cons, beq_eq_false_iff_ne.mpr other]
    exact found

theorem writes_of_write {bytes : List UInt8} (written : t.mem = s.mem.write a bytes)
    (blocks : Extends s t) :
    Writes a (a + bytes.length) s t where
  outside x out := by
    have agree : Agree x (x + 1) (s.mem.write a bytes) s.mem := agree_write (by omega)
    rw [written]
    exact agree x (Int.le_refl x) (by omega)
  blocks := blocks

/-- What was written is read, and decides what comes after. -/
theorem shows_readAt {bytes : List UInt8} {α : Type} {f : List UInt8 → Prog α} {P : α → Prop}
    (written : t.mem = s.mem.write a bytes) (next : Shows a (a + bytes.length) t (f bytes) P) :
    Shows a (a + bytes.length) t (readAt a bytes.length >>= f) P := by
  intro u agree blocks
  have read : u.mem.read a bytes.length = bytes := by
    rw [read_of_agree agree, written, read_write]
  obtain ⟨b, holds, v, run, mem, same⟩ := next
    { u with accessed := (a, bytes.length) :: u.accessed } agree blocks
  refine ⟨b, holds, v, ?_, mem, same⟩
  change f (u.mem.read a bytes.length) _ = _
  rw [read]
  exact run

/-- A pointer that is read leads to the block it was made for. -/
theorem shows_pointedObj {text : Text} {p : Nat} {lo hi : Int} {o : Obj}
    (found : t.blocks.lookup p = some text) (made : textObj T type text = .ok o) {P : Obj → Prop}
    (holds : P o) : Shows lo hi t (pointedObj T type p) P := by
  intro u _ blocks
  refine ⟨o, holds, u, ?_, rfl, rfl⟩
  rw [pointedObj, blocks p text found]
  exact congrArg (·, u) made

theorem storePointer_shows {text : Text} {o : Obj}
    (pointer : type = .string ∨ type = .wstring ∨ type = .psid)
    (run : storePointer T text a s = (.ok (), t)) (made : textObj T type text = .ok o)
    {P : Obj → Prop} (holds : P o) :
    Writes a (a + type.elem_size A) s t ∧
      Shows a (a + type.elem_size A) t (extract T type a) P := by
  obtain ⟨p, small, found, written, blocks⟩ := storePointer_run run
  have width : type.elem_size A = (toBytes A.pointer p).length := by
    rw [length_toBytes]
    rcases pointer with rfl | rfl | rfl <;> rfl
  rw [width]
  refine ⟨writes_of_write written blocks, ?_⟩
  rw [extract, width]
  refine shows_readAt written ?_
  have value := ofBytes_toBytes_of_lt small
  rcases pointer with rfl | rfl | rfl <;>
  · change Shows _ _ t (pointedObj T _ (ofBytes (toBytes A.pointer p))) P
    rw [value]
    exact shows_pointedObj found made holds

/-- One value that is not a string. -/
theorem scalar_shows (noPointer : type ≠ .string ∧ type ≠ .wstring ∧ type ≠ .psid)
    (run : (match scalarBytes T type obj with
      | .error e => (Memo.throw e : Prog Unit)
      | .ok bytes => writeAt a bytes) s = (.ok (), t)) (inRange : scalarInRange T type obj) :
    Writes a (a + type.elem_size A) s t ∧
      Shows a (a + type.elem_size A) t (extract T type a) (scalarSame T type obj) := by
  cases stored : scalarBytes T type obj with
  | error e =>
    rw [stored] at run
    cases run
  | ok bytes =>
    rw [stored] at run
    cases run
    rw [extract, ← length_scalarBytes T stored]
    refine ⟨writes_of_write rfl fun _ _ found => found, shows_readAt rfl ?_⟩
    have same := scalarObj_same stored inRange
    obtain ⟨notString, notWide, notSid⟩ := noPointer
    cases type
    case string => exact absurd rfl notString
    case wstring => exact absurd rfl notWide
    case psid => exact absurd rfl notSid
    all_goals exact .pure same

theorem takeWhile_of_notMem {c : Char} {cs : List Char} (notMem : c ∉ cs) :
    cs.takeWhile (· ≠ c) = cs := by
  induction cs with
  | nil => rfl
  | cons d cs ih =>
    obtain ⟨first, later⟩ := not_or.mp (mt List.mem_cons.mpr notMem)
    have differs : d ≠ c := fun same => first same.symm
    rw [List.takeWhile_cons, if_pos (decide_eq_true differs), ih later]

/-- One value that was stored. -/
theorem store_run (run : store T type obj a s = (.ok (), t)) (inRange : scalarInRange T type obj) :
    Writes a (a + type.elem_size A) s t ∧
      Shows a (a + type.elem_size A) t (extract T type a) (scalarSame T type obj) := by
  cases type
  case string => exact storePointer_shows (.inl rfl) run rfl rfl
  case wstring =>
    have whole : String.ofList (obj.toList.takeWhile (· ≠ '\x00')) = obj := by
      rw [takeWhile_of_notMem (inRange.2 rfl), String.ofList_toList]
    exact storePointer_shows (.inr (.inl rfl)) run rfl (congrArg Obj.string whole)
  case psid =>
    cases converted : T.stringSidToSid obj with
    | none =>
      rw [store, converted] at run
      cases run
    | some sid =>
      rw [store, converted] at run
      obtain ⟨text, back, same⟩ := T.sid_text obj sid converted
      have made : textObj T .psid (.sid sid) = .ok (.string text) := by
        rw [textObj, back]
        rfl
      exact storePointer_shows (.inr (.inr rfl)) run made ⟨sid, text, converted, same, rfl⟩
  all_goals exact scalar_shows ⟨nofun, nofun, nofun⟩ run inRange

end Scalars

/-! ### Arrays and fields -/

section Fields

variable {A : Arch} {T : Tcl A}

variable {s t : State} {a pv : Int} {obj : String} {f : Field} {size : DWORD}

variable {P : String → Obj → Prop} {R : String → Prop} {objs : List String}

/-- The elements of an array, one after the other. -/
theorem storeArray_run {one : String → Int → Prog Unit} {get : Int → Prog Obj} {stride : Int}
    (each : ∀ obj a s t, one obj a s = (.ok (), t) → R obj →
      Writes a (a + size.toNat) s t ∧ Shows a (a + size.toNat) t (get a) (P obj))
    (same : 1 < objs.length → stride = size.toNat) (small : size.toNat * objs.length < 2 ^ 32)
    (run : storeArray one size objs a s = (.ok (), t)) (all : ∀ obj ∈ objs, R obj) :
    Writes a (a + (size.toNat * objs.length : Nat)) s t ∧
      Shows a (a + (size.toNat * objs.length : Nat)) t (extractArray get stride objs.length a)
        (List.Forall₂ P objs) := by
  induction objs generalizing a s with
  | nil =>
    cases run
    exact ⟨.refl .., .pure .nil⟩
  | cons obj objs ih =>
    obtain ⟨_, m, first, rest⟩ := bind_run run
    obtain ⟨writes, shown⟩ := each obj a s m first (all obj List.mem_cons_self)
    have others : ∀ obj' ∈ objs, R obj' := fun obj' mem => all obj' (List.mem_cons_of_mem obj mem)
    rw [List.length_cons, Nat.mul_succ] at small
    rw [List.length_cons, Nat.mul_succ]
    cases objs with
    | nil =>
      cases rest
      refine ⟨writes.mono (Int.le_refl a) (by omega), ?_⟩
      refine (shown.mono (Int.le_refl a) (by omega)).bind fun o holds => ?_
      exact (Shows.pure List.Forall₂.nil).bind fun os hold => Shows.pure (.cons holds hold)
    | cons obj' objs =>
      have twice : size.toNat ≤ size.toNat * (obj' :: objs).length :=
        Nat.le_mul_of_pos_right _ (Nat.succ_pos _)
      have positive : size.toInt = size.toNat := BitVec.toInt_eq_toNat_of_lt (by omega)
      have step : stride = size.toNat := same (by simp)
      rw [positive] at rest
      obtain ⟨writes', shown'⟩ := ih (fun _ => step) (by omega) rest others
      refine ⟨(writes.mono (Int.le_refl a) (by omega)).trans
        (writes'.mono (by omega) (by omega)), ?_⟩
      refine ((shown.after writes' (by omega)).mono (Int.le_refl a) (by omega)).bind
        fun o holds => ?_
      rw [← step] at shown'
      exact (shown'.mono (by omega) (by omega)).bind fun os hold => .pure (.cons holds hold)

/-- A value, or as many as the array has elements. -/
theorem storeField_run {one : String → Int → Prog Unit} (get : Int → Prog Obj) (stride : Int)
    (each : ∀ obj a s t, one obj a s = (.ok (), t) → R obj →
      Writes a (a + f.size.toNat) s t ∧ Shows a (a + f.size.toNat) t (get a) (P obj))
    (same : 1 < f.count.toNat → stride = f.size.toNat) (small : f.size.toNat * f.elems < 2 ^ 32)
    (run : storeField T one f obj a s = (.ok (), t)) (inRange : inField T R f obj) :
    Writes a (a + (f.size.toNat * f.elems : Nat)) s t ∧
      Shows a (a + (f.size.toNat * f.elems : Nat)) t (extractField get stride f a)
        (sameField T P f obj) := by
  rw [storeField] at run
  rw [inField] at inRange
  have sameField_eq : sameField T P f obj = if f.count = 0 then P obj else fun o =>
      ∃ ws os, T.elements obj = .ok ws ∧ o = .list os ∧ List.Forall₂ P ws os := by
    funext o
    rw [sameField]
    by_cases scalar : f.count = 0
    · rw [if_pos scalar, if_pos scalar]
    · rw [if_neg scalar, if_neg scalar]
  rw [extractField, sameField_eq]
  by_cases scalar : f.count = 0
  · rw [if_pos scalar] at run inRange
    rw [if_pos scalar, if_pos scalar, elems_scalar scalar, Nat.mul_one]
    exact each obj a s t run inRange
  · rw [if_neg scalar] at run inRange
    rw [if_neg scalar, if_neg scalar]
    obtain ⟨ws, list, length, all⟩ := inRange
    rw [list] at run
    have enough : ¬ ws.length < f.count.toNat := by omega
    simp only [if_neg enough] at run
    rw [List.take_of_length_le (by omega)] at run
    rw [elems_eq scalar] at small ⊢
    rw [← length] at small same ⊢
    obtain ⟨writes, shown⟩ := storeArray_run each same small run all
    refine ⟨writes, shown.bind fun os holds => .pure ⟨ws, os, list, rfl, holds⟩⟩

/-- A size that was given is left as it is. -/
theorem checkSize_run {s t u : State}
    (stored : storeField T (store T f.type) f obj a s = (.ok (), t))
    (scalar : f.type = .cbsize → f.count = 0) (inRange : inField T (scalarInRange T f.type) f obj)
    (run : checkSize size f a t = (.ok (), u)) : u.mem = t.mem ∧ u.blocks = t.blocks := by
  rw [checkSize] at run
  by_cases cbsize : f.type = .cbsize
  · rw [if_pos cbsize] at run
    rw [storeField, if_pos (scalar cbsize), cbsize] at stored
    rw [inField, if_pos (scalar cbsize), cbsize] at inRange
    cases converted : T.toInt obj with
    | error e =>
      rw [store, scalarBytes, converted] at stored
      · cases stored
      all_goals rintro ⟨⟩
    | ok b =>
      rw [store, scalarBytes, converted] at stored
      · cases stored
        obtain ⟨n, number, reduced⟩ := T.toInt_eq obj b converted
        obtain ⟨low, high⟩ := inRange.1 n number
        have value : (ofBytes (toBytes 4 b.toNat) : Int) = n := by
          rw [reduced, toBytes_ofInt32]
          exact ofBytes_bytesOf (by omega) (by omega)
        have read : (s.mem.write a (toBytes 4 b.toNat)).read a 4 = toBytes 4 b.toNat :=
          read_write
        obtain ⟨bytes, m, reads, run⟩ := bind_run run
        cases reads
        simp only [read] at run
        have notZero : ¬ ofBytes (toBytes 4 b.toNat) = 0 := by omega
        rw [if_neg notZero] at run
        by_cases large : ofBytes (toBytes 4 b.toNat) > size.toNat
        · rw [if_pos large] at run
          cases run
        · rw [if_neg large] at run
          cases run
          exact ⟨rfl, rfl⟩
      all_goals rintro ⟨⟩
  · rw [if_neg cbsize] at run
    cases run
    exact ⟨rfl, rfl⟩

/-- No `void` is written. -/
theorem not_void (stored : storeField T (store T f.type) f obj a s = (.ok (), t)) :
    f.type ≠ .void := by
  intro void
  rw [storeField, void] at stored
  by_cases scalar : f.count = 0
  · rw [if_pos scalar] at stored
    cases stored
  · rw [if_neg scalar] at stored
    cases list : T.elements obj with
    | error e =>
      rw [list] at stored
      cases stored
    | ok ws =>
      rw [list] at stored
      by_cases few : ws.length < f.count.toNat
      · simp only [if_pos few] at stored
        cases stored
      · simp only [if_neg few] at stored
        have some_elements := elems_eq scalar ▸ elems_pos f
        cases ws with
        | nil => exact few some_elements
        | cons w ws =>
          obtain ⟨n, same⟩ := Nat.exists_eq_succ_of_ne_zero (Nat.ne_of_gt some_elements)
          rw [same, List.take_succ_cons] at stored
          obtain ⟨_, m, first, _⟩ := bind_run stored
          cases first

theorem orInvalid_run {p : Prog Unit} (run : orInvalid p s = (.ok (), t)) :
    p s = (.ok (), t) := by
  rw [orInvalid] at run
  rcases first : p s with ⟨e | a, u⟩
  · rw [first] at run
    cases run
  · rw [first] at run
    cases run
    rfl

/-- A structure, of which the loop over the fields is known. -/
theorem parseWith_run {child : Fields} {size nbytes : DWORD}
    (loop : ∀ ws s t, ws.length = child.length → child.InRange T ws →
      parseFields T child size ws a s = (.ok (), t) →
      Writes a (a + size.toNat) s t ∧
        Shows a (a + size.toNat) t (extractFields T false child a) (child.Same T ws))
    (run : parseWith T size child.length (fun objs pv => parseFields T child size objs pv) nbytes
      obj a s = (.ok (), t)) (narrow : child.length ≤ 64) {ws : List String}
    (list : T.elements obj = .ok ws) (inRange : child.InRange T ws) :
    Writes a (a + size.toNat) s t ∧
      Shows a (a + size.toNat) t
        (extractWith false size child.length (fun pv => extractFields T false child pv) nbytes a)
        (fun o => ∃ ws os, T.elements obj = .ok ws ∧ o = .list os ∧ child.Same T ws os) := by
  rw [parseWith] at run
  by_cases same : size = nbytes
  · rw [if_neg (not_not.mpr same), list] at run
    by_cases length : ws.length = child.length
    · simp only [if_neg (not_not.mpr length)] at run
      obtain ⟨writes, shown⟩ := loop ws s t length inRange run
      refine ⟨writes, ?_⟩
      have sized : ¬ (nbytes ≠ 0 ∧ nbytes ≠ size) := fun h => h.2 same.symm
      have fits : ¬ child.length > (if false = true then 32 else 64) := Nat.not_lt.mpr narrow
      rw [extractWith, if_neg sized, if_neg fits]
      exact shown.bind fun os hold => .pure ⟨ws, os, list, rfl, hold⟩
    · simp only [ne_eq, length, not_false_eq_true, if_true] at run
      cases run
  · rw [if_pos same] at run
    cases run

/-- A field and those after it: what each of them writes and shows. -/
theorem fields_cons {natural start size alignment : Nat}
    (placed : f.Placed natural start size alignment) {s m t : State}
    (writes : Writes (pv + f.offset.toNat)
      (pv + f.offset.toNat + (f.size.toNat * f.elems : Nat)) s m) {p : Prog Obj} {P : Obj → Prop}
    (shown : Shows (pv + f.offset.toNat)
      (pv + f.offset.toNat + (f.size.toNat * f.elems : Nat)) m p P)
    (writes' : Writes (pv + f.stop) (pv + size) m t) {q : Prog (List Obj)} {Q R : List Obj → Prop}
    (shown' : Shows (pv + f.stop) (pv + size) t q Q) (both : ∀ o os, P o → Q os → R (o :: os)) :
    Writes (pv + start) (pv + size) s t ∧
      Shows (pv + start) (pv + size) t (do
        let o ← p
        let os ← q
        return o :: os) R := by
  have first := placed.after
  have reach := placed.within
  have stop_at : pv + (f.stop : Int) = pv + f.offset.toNat + (f.size.toNat * f.elems : Nat) := by
    rw [Field.stop]
    omega
  rw [stop_at] at writes' shown'
  refine ⟨writes.fields writes' (by omega) (by omega) (by omega), ?_⟩
  obtain ⟨one, others⟩ := shown.fields writes' shown' (by omega : pv + (start : Int) ≤ _)
    (by omega) (by omega)
  exact one.bind fun o holds => others.bind fun os hold => .pure (both o os holds hold)

/-- The loop over the fields. -/
theorem parseFields_run {fields : Fields} {words : List String} (defines : fields.Defines T words)
    {start al : Nat} (laidOut : fields.LaidOut A start size.toNat al)
    (length : objs.length = fields.length) (run : parseFields T fields size objs pv s = (.ok (), t))
    (inRange : fields.InRange T objs) :
    Writes (pv + start) (pv + size.toNat) s t ∧
      Shows (pv + start) (pv + size.toNat) t (extractFields T false fields pv)
        (fields.Same T objs) := by
  induction fields generalizing words start al size objs pv s t with
  | nil =>
    rw [List.length_eq_zero_iff.mp length] at run ⊢
    cases run
    exact ⟨.refl .., .pure trivial⟩
  | field f rest ih =>
    cases objs with
    | nil => cases length
    | cons obj objs =>
      cases words with
      | nil => exact defines.elim
      | cons word words =>
        obtain ⟨⟨d, _, _, type, count, _, single⟩, definesRest⟩ := defines
        obtain ⟨placed, elem_size, after⟩ := laidOut
        obtain ⟨here, later⟩ := inRange
        obtain ⟨_, m, stored, run⟩ := bind_run run
        obtain ⟨_, m', checked, run⟩ := bind_run run
        have scalar : f.type = .cbsize → f.count = 0 := by
          rw [type, count]
          exact single
        obtain ⟨sameMem, sameBlocks⟩ := checkSize_run stored scalar here checked
        have reach := placed.within
        have below := size.isLt
        obtain ⟨writes, shown⟩ := storeField_run (extract T f.type) (f.type.elem_size A)
          (fun obj a s t run inRange => by
            rw [elem_size]
            exact store_run run inRange)
          (fun _ => by rw [elem_size]) (by omega) stored here
        have same := Writes.of_same sameMem sameBlocks
          (pv + f.offset.toNat + (f.size.toNat * f.elems : Nat))
        obtain ⟨writes', shown'⟩ := ih definesRest after (Nat.succ.inj length) run later
        rw [extractFields, if_neg (not_void stored)]
        exact fields_cons placed (writes.trans (same.mono (by omega) (Int.le_refl _)))
          (shown.after same (.inl (Int.le_refl _))) writes' shown'
          fun o os holds hold => ⟨holds, hold⟩
  | nested f childSize childAl child rest ihChild ih =>
    cases objs with
    | nil => cases length
    | cons obj objs =>
      cases words with
      | nil => exact defines.elim
      | cons word words =>
        obtain ⟨⟨d, inner, innerWords, _, _, _, _, _, _, _, definesChild⟩, definesRest⟩ :=
          defines
        obtain ⟨placed, elem_size, _, laidOutChild, after⟩ := laidOut
        obtain ⟨here, later⟩ := inRange
        obtain ⟨_, m, stored, run⟩ := bind_run run
        have reach := placed.within
        have below := size.isLt
        have stride : 1 < f.count.toNat → f.size.toInt = f.size.toNat := by
          intro several
          refine BitVec.toInt_eq_toNat_of_lt ?_
          have twice : f.size.toNat * 2 ≤ f.size.toNat * f.elems :=
            Nat.mul_le_mul_left _ (Nat.le_trans several (Nat.le_max_right ..))
          omega
        obtain ⟨writes, shown⟩ := storeField_run
          (extractWith false childSize child.length
            (fun pv => extractFields T false child pv) f.size)
          f.size.toInt
          (P := fun v o => ∃ ws os, T.elements v = .ok ws ∧ o = .list os ∧
            child.Same T ws os)
          (fun obj a s t run inRange => by
            obtain ⟨narrow, ws, list, inRange⟩ := inRange
            rw [elem_size] at run ⊢
            refine parseWith_run (fun ws s t length inRange run => ?_) (orInvalid_run run)
              narrow list inRange
            obtain ⟨writes, shown⟩ := ihChild definesChild laidOutChild length run inRange
            rw [Int.natCast_zero, Int.add_zero] at writes shown
            exact ⟨writes, shown⟩)
          stride (by omega) stored here
        obtain ⟨writes', shown'⟩ := ih definesRest after (Nat.succ.inj length) run later
        rw [extractFields]
        exact fields_cons placed writes shown writes' shown'
          fun o os holds hold => ⟨holds, hold⟩

end Fields

/-! ### The commands -/

section Commands

variable {A : Arch} (T : Tcl A)

def Rep.InRange (rep : Rep) (valObj : String) : Prop :=
  rep.fields.length ≤ 64 ∧ ∃ ws, T.elements valObj = .ok ws ∧ rep.fields.InRange T ws

def Rep.Same (rep : Rep) (valObj : String) (o : Obj) : Prop :=
  ∃ ws os, T.elements valObj = .ok ws ∧ o = .list os ∧ rep.fields.Same T ws os

/-- What was written for a value is read as the same value. -/
def ReadBack (depth : Nat) (csvalObj csObj valObj : String) (rep : Rep) : Prop :=
  T.elements csvalObj = .ok [csObj, valObj] → objCastToCStruct T depth csObj false = .ok rep →
  rep.fields.exactSize A < 2 ^ 32 →
  ∀ (allow_null : Bool) (pv a : Int) (nbytes : DWORD) (s t : State),
    twapiCStructParse T depth csvalObj allow_null pv s = (.ok (nbytes, some a), t) →
    ∃ o u, objFromCStruct T depth csObj false nbytes a t = (.ok o, u) ∧ rep.Same T valObj o

theorem twapiCStructParse_read (depth : Nat) (csvalObj csObj valObj : String) (rep : Rep)
    (inRange : rep.InRange T valObj) : ReadBack T depth csvalObj csObj valObj rep := by
  intro pair accepted fits allow_null pv a nbytes s t written
  obtain ⟨narrow, ws, list, inRange⟩ := inRange
  have sound := objCastToCStruct_sound accepted
  obtain ⟨words, _, defines⟩ := sound.defines
  rw [twapiCStructParse, pair] at written
  simp only [accepted] at written
  obtain ⟨_, m, stored, written⟩ := bind_run written
  cases written
  have stored := orInvalid_run stored
  obtain ⟨_, shown⟩ := parseWith_run (fun ws s t length inRange run => by
    have looped := parseFields_run defines (sound.laidOut fits) length run inRange
    rwa [Int.natCast_zero, Int.add_zero] at looped) stored narrow list inRange
  obtain ⟨o, same, u, reads, _, _⟩ := shown t (.refl _ _ _) fun _ _ found => found
  refine ⟨o, u, ?_, same⟩
  rw [objFromCStruct, accepted]
  exact reads

end Commands

/-! ### A structure with its size -/

def listOf (words : List String) : String := Parseargs.plainTcl.ofList words

/-- A structure that is only its size. -/
def sized : Rep := ⟨4, 4, .field ⟨"a", .cbsize, 0, 0, 4⟩ .nil⟩

def valueOf (value : String) : String := listOf [defined [["a", "cbsize"]], listOf [value]]

theorem twapiCStructParse_read_four :
    ReadBack plainTcl 1 (valueOf "4") (defined [["a", "cbsize"]]) (listOf ["4"]) sized := by
  refine twapiCStructParse_read plainTcl 1 _ _ _ _ ⟨by decide, ["4"], ?_, ?_, trivial⟩
  · exact Parseargs.plainTcl.elements_ofList ["4"]
  · refine ⟨fun n number => ?_, nofun⟩
    have four : decimalInt "4" = some 4 := by decide
    cases four.symm.trans number
    exact ⟨by decide, by decide⟩

def emptyState : State := ⟨fun _ => 0, [], []⟩

/-- The integer that a structure of one field was read as. -/
def onlyInt : Except Error Obj → Option Int
  | .ok (.list [.int n]) => some n
  | _ => none

/-- A size of 0 is stored as the size of the structure. -/
theorem cbsize_zero_replaced : ¬ ∀ (depth : Nat) (csvalObj csObj valObj : String) (rep : Rep),
    ReadBack plainTcl depth csvalObj csObj valObj rep := by
  intro reads
  obtain ⟨stored, four⟩ :
      (twapiCStructParse plainTcl 1 (valueOf "0") false 0 emptyState).1 = .ok (4, some 0) ∧
      onlyInt (objFromCStruct plainTcl 1 (defined [["a", "cbsize"]]) false 4 0
        (twapiCStructParse plainTcl 1 (valueOf "0") false 0 emptyState).2).1 = some 4 := by
    decide +kernel
  have pair : plainTcl.elements (valueOf "0") = .ok [defined [["a", "cbsize"]], listOf ["0"]] :=
    Parseargs.plainTcl.elements_ofList _
  have accepted : objCastToCStruct plainTcl 1 (defined [["a", "cbsize"]]) false = .ok sized := by
    decide +kernel
  have read_back := reads 1 _ _ _ _ pair accepted (by decide) false 0 0 4 emptyState
  generalize twapiCStructParse plainTcl 1 (valueOf "0") false 0 emptyState = run
    at stored four read_back
  obtain ⟨r, t⟩ := run
  obtain ⟨o, u, read, ws, os, list, same, fields⟩ := read_back t (congrArg (·, t) stored)
  have values : plainTcl.elements (listOf ["0"]) = .ok ["0"] :=
    Parseargs.plainTcl.elements_ofList _
  have words : ws = ["0"] := Except.ok.inj (list.symm.trans values)
  subst words
  rcases os with _ | ⟨o', _ | ⟨o'', os⟩⟩
  · exact fields
  · obtain ⟨⟨n, number, isInt⟩, _⟩ := fields
    have zero : decimalInt "0" = some 0 := by decide
    cases zero.symm.trans number
    rw [read, same, isInt] at four
    cases four
  · exact fields.2

end Twapi.CStruct
