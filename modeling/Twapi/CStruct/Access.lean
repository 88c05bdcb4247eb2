import Twapi.CStruct.Layout
import Twapi.Parseargs.Correct

/-!
What is read and written lies within the structure.

* `parseFields_within`, `extractFields_within` — the loops, over the fields.
* `objCastToCStruct_layout` — the layout of a definition that fits 32 bits, and the accesses.
-/

namespace Twapi.CStruct

open Lib

/-- Nothing outside a range was read or written. -/
def Within (lo hi : Int) (s : State) : Prop :=
  ∀ x ∈ s.accessed, lo ≤ x.1 ∧ x.1 + x.2 ≤ hi

/-- Whatever it comes to, nothing outside the range is read or written. -/
def Stays (lo hi : Int) {α : Type} (p : Prog α) : Prop := Ends (Within lo hi) p fun _ => True

variable {lo hi : Int} {α β : Type}

/-! ### Steps -/

theorem Stays.bind {p : Prog α} {f : α → Prog β} (first : Stays lo hi p)
    (second : ∀ a, Stays lo hi (f a)) : Stays lo hi (p >>= f) :=
  Ends.bind first (fun a _ => second a) fun _ _ => trivial

theorem Stays.pure (a : α) : Stays lo hi (Pure.pure a : Prog α) := fun _ h => ⟨trivial, h⟩

theorem Stays.throw (e : Error) : Stays lo hi (Memo.throw e : Prog α) := fun _ h => ⟨trivial, h⟩

theorem Stays.ite {c : Prop} [Decidable c] {p q : Prog α} (yes : Stays lo hi p)
    (no : Stays lo hi q) : Stays lo hi (if c then p else q) := by
  by_cases h : c
  · rwa [if_pos h]
  · rwa [if_neg h]

variable {a : Int}

theorem stays_readAt {n : Nat} (low : lo ≤ a) (high : a + n ≤ hi) :
    Stays lo hi (readAt a n) := by
  intro s within
  refine ⟨trivial, fun x mem => ?_⟩
  rcases List.mem_cons.mp mem with rfl | before
  · exact ⟨low, high⟩
  · exact within x before

theorem stays_writeAt {bytes : List UInt8} (low : lo ≤ a) (high : a + bytes.length ≤ hi) :
    Stays lo hi (writeAt a bytes) := by
  intro s within
  refine ⟨trivial, fun x mem => ?_⟩
  rcases List.mem_cons.mp mem with rfl | before
  · exact ⟨low, high⟩
  · exact within x before

section Parse

variable {A : Arch} (T : Tcl A)

theorem stays_copyOf (text : Text) : Stays lo hi (copyOf T text) := by
  intro s within
  rw [copyOf]
  cases T.fresh s.blocks with
  | none => exact ⟨trivial, within⟩
  | some p => exact ⟨trivial, within⟩

theorem stays_orInvalid {p : Prog Unit} (stays : Stays lo hi p) : Stays lo hi (orInvalid p) := by
  intro s within
  have after := (stays s within).2
  rw [orInvalid]
  rcases run : p s with ⟨_ | _, t⟩
  · rw [run] at after
    exact ⟨trivial, after⟩
  · rw [run] at after
    exact ⟨trivial, after⟩

variable {type : CStructType}

theorem length_scalarBytes {obj : String} {bytes : List UInt8}
    (stored : scalarBytes T type obj = .ok bytes) : bytes.length = type.elem_size A := by
  cases type
  case void | string | wstring | psid | struct => cases stored
  all_goals
    obtain ⟨b, _, same⟩ := bind_eq_ok stored
    cases same
    exact length_toBytes ..

theorem stays_storePointer {text : Text} {a : Int} (low : lo ≤ a) (high : a + A.pointer ≤ hi) :
    Stays lo hi (storePointer T text a) :=
  (stays_copyOf T text).bind fun p => stays_writeAt low (by rw [length_toBytes]; exact high)

theorem stays_store (obj : String) {a : Int} (low : lo ≤ a) (high : a + type.elem_size A ≤ hi) :
    Stays lo hi (store T type obj a) := by
  rw [store.eq_def]
  split
  · exact stays_storePointer T low high
  · exact stays_storePointer T low high
  · split
    · exact .throw _
    · exact stays_storePointer T low high
  · split
    · exact .throw _
    · rename_i bytes stored
      exact stays_writeAt low (by rw [length_scalarBytes T stored]; exact high)

end Parse

/-- Elements that follow one another. With a second one, the size of one is no negative
integer. -/
theorem stays_storeArray {one : String → Int → Prog Unit} {size : DWORD}
    (each : ∀ obj a, lo ≤ a → a + size.toNat ≤ hi → Stays lo hi (one obj a)) (objs : List String)
    (low : lo ≤ a) (high : a + (size.toNat * objs.length : Nat) ≤ hi)
    (small : size.toNat * objs.length < 2 ^ 32) : Stays lo hi (storeArray one size objs a) := by
  induction objs generalizing a with
  | nil => exact .pure ()
  | cons obj objs ih =>
    rw [List.length_cons, Nat.mul_succ] at high small
    refine (each obj a low (by omega)).bind fun _ => ?_
    cases objs with
    | nil => exact .pure ()
    | cons obj' objs =>
      have twice : size.toNat ≤ size.toNat * (obj' :: objs).length :=
        Nat.le_mul_of_pos_right _ (Nat.succ_pos _)
      have positive : size.toInt = size.toNat := BitVec.toInt_eq_toNat_of_lt (by omega)
      rw [positive]
      exact ih (by omega) (by omega) (by omega)

theorem elems_eq {f : Field} (array : f.count ≠ 0) : f.elems = f.count.toNat := by
  refine Nat.max_eq_right (Nat.pos_iff_ne_zero.mpr fun zero => array ?_)
  exact BitVec.eq_of_toNat_eq zero

theorem elems_scalar {f : Field} (scalar : f.count = 0) : f.elems = 1 := by
  rw [Field.elems, scalar]
  rfl

section Fields

variable {A : Arch} (T : Tcl A)

variable {a pv stride : Int} {size nbytes : DWORD}

variable {f : Field}

theorem stays_storeField {one : String → Int → Prog Unit} (obj : String)
    (each : ∀ obj a, lo ≤ a → a + f.size.toNat ≤ hi → Stays lo hi (one obj a)) (low : lo ≤ a)
    (high : a + (f.size.toNat * f.elems : Nat) ≤ hi) (small : f.size.toNat * f.elems < 2 ^ 32) :
    Stays lo hi (storeField T one f obj a) := by
  rw [storeField]
  by_cases scalar : f.count = 0
  · rw [if_pos scalar]
    rw [elems_scalar scalar, Nat.mul_one] at high
    exact each obj a low high
  · rw [if_neg scalar]
    rw [elems_eq scalar] at high small
    cases T.elements obj with
    | error e => exact .throw _
    | ok arrayObj =>
      by_cases few : arrayObj.length < f.count.toNat
      · simp only [if_pos few]
        exact .throw _
      · simp only [if_neg few]
        have length : (arrayObj.take f.count.toNat).length = f.count.toNat := by
          rw [List.length_take]
          omega
        exact stays_storeArray each _ low (by rw [length]; exact high) (by rw [length]; exact small)

theorem stays_checkSize (low : lo ≤ a) (high : f.type = .cbsize → a + 4 ≤ hi) :
    Stays lo hi (checkSize size f a) := by
  rw [checkSize]
  by_cases cbsize : f.type = .cbsize
  · rw [if_pos cbsize]
    have four := high cbsize
    refine (stays_readAt low four).bind fun bytes => ?_
    refine .ite (.throw _) (.ite ?_ (.pure _))
    exact stays_writeAt low (by rw [length_toBytes]; exact four)
  · rw [if_neg cbsize]
    exact .pure _

theorem stays_parseWith {nfields : Nat} {loop : List String → Int → Prog Unit}
    (loops : ∀ objs, Stays lo hi (loop objs a)) (obj : String) :
    Stays lo hi (parseWith T size nfields loop nbytes obj a) := by
  refine .ite (.throw _) ?_
  cases T.elements obj with
  | error e => exact .throw _
  | ok objs => exact .ite (.throw _) (loops objs)

/-- Every field lies within the structure, those of a nested structure within their element. -/
theorem parseFields_within {fields : Fields} {start al : Nat}
    (laidOut : fields.LaidOut A start size.toNat al) (low : lo ≤ pv) (high : pv + size.toNat ≤ hi)
    (objs : List String) :
    Stays lo hi (parseFields T fields size objs pv) := by
  induction fields generalizing start al size pv objs with
  | nil => exact .pure ()
  | field f rest ih =>
    cases objs with
    | nil => exact .pure ()
    | cons obj objs =>
      obtain ⟨placed, elem_size, after⟩ := laidOut
      have within := placed.within
      have below := size.isLt
      refine .bind ?_ fun _ => .bind ?_ fun _ => ih after low high objs
      · refine stays_storeField T obj (fun obj a l h => ?_) (by omega) (by omega) (by omega)
        exact stays_store T obj l (by rw [← elem_size]; exact h)
      · refine stays_checkSize (by omega) fun cbsize => ?_
        have one := Nat.le_mul_of_pos_right f.size.toNat (elems_pos f)
        rw [elem_size, cbsize, CStructType.elem_size] at one
        rw [elem_size, cbsize, CStructType.elem_size] at within
        omega
  | nested f childSize childAl child rest ihChild ih =>
    cases objs with
    | nil => exact .pure ()
    | cons obj objs =>
      obtain ⟨placed, elem_size, _, inner, after⟩ := laidOut
      have within := placed.within
      have below := size.isLt
      refine .bind ?_ fun _ => ih after low high objs
      refine stays_storeField T obj (fun obj a l h => ?_) (by omega) (by omega) (by omega)
      rw [elem_size] at h
      exact stays_orInvalid (stays_parseWith T (fun objs => ihChild inner l h objs) obj)

/-! ### Values that are read -/

theorem stays_extract {type : CStructType} (low : lo ≤ a) (high : a + type.elem_size A ≤ hi) :
    Stays lo hi (extract T type a) := by
  refine (stays_readAt low high).bind fun bytes => ?_
  have pointed (type : CStructType) : Stays lo hi (pointedObj T type (ofBytes bytes)) := by
    intro s within
    rw [pointedObj]
    cases s.blocks.lookup (ofBytes bytes) with
    | none => exact ⟨trivial, within⟩
    | some text => exact ⟨trivial, within⟩
  cases type
  case string | wstring | psid => exact pointed _
  all_goals exact .pure _

theorem stays_extractArray {one : Int → Prog Obj} {size : Nat}
    (each : ∀ a, lo ≤ a → a + size ≤ hi → Stays lo hi (one a)) {count : Nat}
    (same : 1 < count → stride = size) (low : lo ≤ a) (high : a + (size * count : Nat) ≤ hi) :
    Stays lo hi (extractArray one stride count a) := by
  induction count generalizing a with
  | zero => exact .pure _
  | succ count ih =>
    rw [Nat.mul_succ] at high
    refine (each a low (by omega)).bind fun obj => ?_
    refine .bind ?_ fun objs => .pure _
    cases count with
    | zero => exact .pure _
    | succ count =>
      rw [same (by omega)]
      rw [same (by omega)] at ih
      exact ih (fun _ => rfl) (by omega) (by omega)

theorem stays_extractField {one : Int → Prog Obj}
    (each : ∀ a, lo ≤ a → a + f.size.toNat ≤ hi → Stays lo hi (one a))
    (same : 1 < f.count.toNat → stride = f.size.toNat) (low : lo ≤ a)
    (high : a + (f.size.toNat * f.elems : Nat) ≤ hi) :
    Stays lo hi (extractField one stride f a) := by
  rw [extractField]
  by_cases scalar : f.count = 0
  · rw [if_pos scalar]
    rw [elems_scalar scalar, Nat.mul_one] at high
    exact each a low high
  · rw [if_neg scalar]
    rw [elems_eq scalar] at high
    exact (stays_extractArray each same low high).bind fun objs => .pure _

theorem stays_extractWith {include_key : Bool} {nfields : Nat} {loop : Int → Prog (List Obj)}
    (loops : Stays lo hi (loop a)) :
    Stays lo hi (extractWith include_key size nfields loop nbytes a) :=
  .ite (.throw _) (.ite (.throw _) (loops.bind fun _ => .pure _))

theorem extractFields_within (include_key : Bool) {fields : Fields} {start al : Nat}
    (laidOut : fields.LaidOut A start size.toNat al) (low : lo ≤ pv) (high : pv + size.toNat ≤ hi) :
    Stays lo hi (extractFields T include_key fields pv) := by
  induction fields generalizing start al size pv with
  | nil => exact .pure _
  | field f rest ih =>
    obtain ⟨placed, elem_size, after⟩ := laidOut
    have within := placed.within
    refine .ite (ih after low high) ?_
    refine .bind ?_ fun obj => (ih after low high).bind fun objs => .pure _
    refine stays_extractField (fun a l h => ?_) (fun _ => by rw [elem_size]) (by omega) (by omega)
    exact stays_extract T l (by rw [← elem_size]; exact h)
  | nested f childSize childAl child rest ihChild ih =>
    obtain ⟨placed, elem_size, _, inner, after⟩ := laidOut
    have within := placed.within
    have below := size.isLt
    refine .bind ?_ fun obj => (ih after low high).bind fun objs => .pure _
    refine stays_extractField (fun a l h => ?_) (fun several => ?_) (by omega) (by omega)
    · rw [elem_size] at h
      exact stays_extractWith (ihChild inner l h)
    · refine BitVec.toInt_eq_toNat_of_lt ?_
      have twice : f.size.toNat * 2 ≤ f.size.toNat * f.elems :=
        Nat.mul_le_mul_left _ (Nat.le_trans several (Nat.le_max_right ..))
      omega

end Fields

/-! ### The layout -/

section Layout

variable {A : Arch} (T : Tcl A)

/-- What is said of the layout of a definition, and of the values that are written and
read by it. -/
structure Layout (word : String) (rep : Rep) : Prop where
  defines : ∃ words, T.elements word = .ok words ∧ rep.fields.Defines T words
  laidOut : rep.fields.LaidOut A 0 rep.size.toNat rep.alignment.toNat
  multiple : rep.alignment.toNat ∣ rep.size.toNat
  exact : rep.size.toNat = rep.fields.exactSize A
  parse : ∀ (valObj : String) (nbytes : DWORD) (pv : Int) (s : State), s.accessed = [] →
    Within pv (pv + rep.size.toNat) (parseCStructHelper T rep valObj nbytes pv s).2
  extract : ∀ (include_key : Bool) (nbytes : DWORD) (pv : Int) (s : State), s.accessed = [] →
    Within pv (pv + rep.size.toNat) (objFromCStructHelper T rep include_key nbytes pv s).2

variable {T}

/-- A definition whose layout fits 32 bits takes up some bytes, unless it is all `void`. -/
theorem objCastToCStruct_layout {depth : Nat} {word : String} {allow_empty : Bool} {rep : Rep}
    (accepted : objCastToCStruct T depth word allow_empty = .ok rep)
    (fits : rep.fields.exactSize A < 2 ^ 32) :
    Layout T word rep ∧ (0 < rep.size.toNat ∨ rep.fields.NoBytes) := by
  have sound := objCastToCStruct_sound accepted
  have laidOut := sound.laidOut fits
  have start {pv : Int} {s : State} (fresh : s.accessed = []) :
      Within pv (pv + rep.size.toNat) s := by
    intro x mem
    rw [fresh] at mem
    cases mem
  refine ⟨⟨sound.defines, laidOut, ?_, sound.size fits, ?_, ?_⟩, ?_⟩
  · rw [sound.size fits, sound.alignment]
    exact dvd_exactSize rep.fields
  · intro valObj nbytes pv s fresh
    have loops := parseFields_within T laidOut (Int.le_refl pv) (Int.le_refl _)
    exact (stays_parseWith T loops valObj s (start fresh)).2
  · intro include_key nbytes pv s fresh
    have loops := extractFields_within T include_key laidOut (Int.le_refl pv)
      (Int.le_refl _)
    exact (stays_extractWith loops s (start fresh)).2
  · obtain ⟨words, _, defines⟩ := sound.defines
    rcases extent_pos defines 0 with some_bytes | none_at_all
    · left
      rw [sound.size fits]
      exact Nat.lt_of_lt_of_le some_bytes (extent_le_exactSize rep.fields)
    · exact .inr none_at_all

end Layout

/-! ### A Tcl -/

def decimal (cs : List Char) : Option Nat :=
  if cs ≠ [] ∧ cs.all Char.isDigit then
    some (cs.foldl (fun n c => 10 * n + (c.toNat - '0'.toNat)) 0)
  else none

def decimalInt (s : String) : Option Int :=
  match s.toList with
  | '-' :: cs => (decimal cs).map fun n => -(n : Int)
  | cs => (decimal cs).map fun n => (n : Int)

/-- Integers whose magnitude fits the width. -/
def reduced (w : Nat) (s : String) : Except String (BitVec w) :=
  match decimalInt s with
  | none => .error ("expected integer but got \"" ++ s ++ "\"")
  | some n =>
    if n.natAbs < 2 ^ w then .ok (BitVec.ofInt w n)
    else .error "integer value too large to represent"

theorem reduced_eq (w : Nat) (s : String) (b : BitVec w) (parsed : reduced w s = .ok b) :
    ∃ n, decimalInt s = some n ∧ b = BitVec.ofInt w n := by
  rw [reduced] at parsed
  cases number : decimalInt s with
  | none =>
    rw [number] at parsed
    cases parsed
  | some n =>
    simp only [number] at parsed
    by_cases small : n.natAbs < 2 ^ w
    · rw [if_pos small] at parsed
      cases parsed
      exact ⟨n, rfl, rfl⟩
    · rw [if_neg small] at parsed
      cases parsed

/-- The first address that is not taken. -/
def firstFree (blocks : List (Nat × Text)) : Option Nat :=
  (List.range 256).find? fun p => (blocks.lookup p).isNone

/-- A Tcl with lists like this, decimal integers and no other numbers. -/
def plainTcl : Tcl .x64 where
  elements := Parseargs.plainTcl.elements
  number := decimalInt
  toInt := reduced 32
  toLong := reduced 32
  toWideInt := reduced 64
  toBoolean s := if s = "1" then .ok true else if s = "0" then .ok false
    else .error ("expected boolean value but got \"" ++ s ++ "\"")
  toDouble s := .error ("expected floating-point number but got \"" ++ s ++ "\"")
  float _ := 0
  ofFloat _ := 0
  toOpaque s := if s = "NULL" then .ok 0 else .error "Invalid pointer or opaque value"
  stringSidToSid _ := none
  sidToStringSid _ := .error "The security ID structure is invalid."
  fresh := firstFree
  toInt_eq := reduced_eq 32
  toLong_eq := reduced_eq 32
  toWideInt_eq := reduced_eq 64
  toOpaque_lt s p parsed := by
    by_cases null : s = "NULL"
    · rw [if_pos null] at parsed
      cases parsed
      decide
    · rw [if_neg null] at parsed
      cases parsed
  sid_text s sid parsed := by cases parsed
  fresh_lt blocks p found := by
    have small := List.mem_range.mp (List.mem_of_find?_eq_some found)
    exact Nat.lt_of_lt_of_le small (Nat.le_self_pow (by decide) 256)
  fresh_lookup blocks p found := by
    have free := List.find?_some (p := fun p => (blocks.lookup p).isNone) found
    exact Option.isNone_iff_eq_none.mp free

/-- The definition of a structure. -/
def defined (fields : List (List String)) : String :=
  Parseargs.plainTcl.ofList (fields.map Parseargs.plainTcl.ofList)

def pair : Rep :=
  ⟨12, 4, .field ⟨"a", .char, 0, 0, 1⟩ (.field ⟨"b", .int, 2, 4, 4⟩ .nil)⟩

theorem cast_pair :
    objCastToCStruct plainTcl 1 (defined [["a", "i1"], ["b", "i4", "2"]]) false = .ok pair := by
  decide

theorem objCastToCStruct_layout_pair :
    Layout plainTcl (defined [["a", "i1"], ["b", "i4", "2"]]) pair ∧
      (0 < pair.size.toNat ∨ pair.fields.NoBytes) :=
  objCastToCStruct_layout cast_pair (by decide)

/-- Sizes that do not fit wrap: of 65536 structures of 65536 bytes none are left. -/
example : (castFields plainTcl
    (fun _ => .ok ⟨65536, 1, .field ⟨"b", .uchar, 65536, 0, 1⟩ .nil⟩) 1
    [Parseargs.plainTcl.ofList ["a", "struct", "65536", ""]] 0 1).toOption.map
      (fun (fields, size, _) => (size, fields.exactSize .x64)) = some (0, 2 ^ 32) := by
  decide

/-- A `void` is accepted and takes up nothing. -/
theorem void_without_bytes : ¬ ∀ (depth : Nat) (word : String) (allow_empty : Bool) (rep : Rep),
    objCastToCStruct plainTcl depth word allow_empty = .ok rep → 0 < rep.size.toNat := by
  intro positive
  have accepted : objCastToCStruct plainTcl 1 (defined [["x", "void"]]) false =
      .ok ⟨0, 1, .field ⟨"x", .void, 0, 0, 0⟩ .nil⟩ := by
    rfl
  exact absurd (positive _ _ _ _ accepted) (by decide)

end Twapi.CStruct
