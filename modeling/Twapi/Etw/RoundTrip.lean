import Twapi.Etw.Encode

/-!
The data of an event is read back.

* `switch_conserves` — `bytesP` and `remain` move together.
* `loop_exact_iff` — fields are read back exactly when each one fits what
  follows it, by induction on the fields.
* `parseEventMofData_exact_iff` — so is the data of an event.
-/

namespace Twapi.Etw

open Lib

/-! ### The end of the data -/

section Conserve

variable {h : Host} {W : Conversions} {d : EventData} {cur : Cursor} {pointerSize : Int}

/-- The cursor that a value is eaten from has the same end. -/
def Switch.Conserves (cur : Cursor) : Switch → Prop
  | .done => True
  | .value _ _ at_ => at_.bytesP + at_.remain = cur.bytesP + cur.remain

theorem bind_conserves {α : Type} {x : Traced Event α} {f : α → Traced Event Switch}
    (all : ∀ a, (f a).result.Conserves cur) : (x >>= f).result.Conserves cur := all _

theorem ite_conserves {c : Prop} [Decidable c] {x y : Traced Event Switch}
    (left : x.result.Conserves cur) (right : y.result.Conserves cur) :
    (if c then x else y).result.Conserves cur := by
  split
  · exact left
  · exact right

theorem done_conserves : (pure .done : Traced Event Switch).result.Conserves cur := trivial

theorem value_conserves {obj : Obj} {eaten : Int} :
    (pure (.value obj eaten cur) : Traced Event Switch).result.Conserves cur := rfl

variable {f : List UInt8 → Obj}

theorem taking_conserves {size : Nat} :
    (taking d cur size f).result.Conserves cur :=
  bind_conserves fun _ => value_conserves

theorem fixed_conserves {size : Nat} :
    (fixed h d cur size f).result.Conserves cur :=
  bind_conserves fun _ => ite_conserves done_conserves taking_conserves

theorem stringcounted_conserves {reverse : Bool} :
    (stringcounted d reverse cur).result.Conserves cur := by
  apply ite_conserves done_conserves
  apply bind_conserves
  intro counted
  apply bind_conserves
  intro text
  exact value_conserves

theorem wstringcounted_conserves {reverse : Bool} :
    (wstringcounted h d reverse cur).result.Conserves cur := by
  apply ite_conserves done_conserves
  apply bind_conserves
  intro counted
  apply bind_conserves
  intro _
  apply ite_conserves
  · exact bind_conserves fun _ => value_conserves
  · exact bind_conserves fun _ => value_conserves

theorem variantOfLength_conserves {eaten : Int} :
    (variantOfLength h d cur eaten).result.Conserves cur := by
  apply bind_conserves
  intro _
  apply bind_conserves
  intro _
  exact ite_conserves done_conserves (bind_conserves fun _ => value_conserves)

theorem objectvariant_conserves : (objectvariant h d cur).result.Conserves cur := by
  rw [objectvariant]
  exact bind_conserves fun _ => variantOfLength_conserves

theorem behindTokenUser_conserves : (behindTokenUser h W d cur).result.Conserves cur := by
  apply bind_conserves
  intro few
  apply ite_conserves done_conserves
  apply bind_conserves
  intro _
  apply bind_conserves
  intro buf
  apply ite_conserves done_conserves
  apply bind_conserves
  intro _
  exact ite_conserves done_conserves value_conserves

/-- Behind the `TOKEN_USER`, as much is taken off `remain` as `bytesP` moves. -/
theorem objectsid_conserves : (objectsid h W d pointerSize cur).result.Conserves cur := by
  apply bind_conserves
  intro few
  apply ite_conserves done_conserves
  apply bind_conserves
  intro first
  apply ite_conserves value_conserves
  apply bind_conserves
  intro _
  have kept : Switch.Conserves ⟨cur.bytesP + pointerSize * 2, cur.remain - pointerSize * 2⟩
      (behindTokenUser h W d _).result := behindTokenUser_conserves
  generalize (behindTokenUser h W d _).result = s at kept ⊢
  cases s with
  | done => trivial
  | value obj eaten at_ =>
    simp only [Switch.Conserves] at kept ⊢
    omega

theorem switch_conserves {mof : MofType} :
    (switch h W d pointerSize cur mof).result.Conserves cur := by
  cases mof with
  | string | wstring | stringnotcounted | wstringnotcounted =>
    exact bind_conserves fun _ => value_conserves
  | stringcounted | stringreversecounted => exact stringcounted_conserves
  | wstringcounted | wstringreversecounted => exact wstringcounted_conserves
  | sint8 | uint8 | csint8 | cuint8 => exact taking_conserves
  | real32 | real64 => exact ite_conserves done_conserves taking_conserves
  | object | datetime => exact done_conserves
  | objectvariant => exact objectvariant_conserves
  | objectsid => exact objectsid_conserves
  | pointer =>
    apply ite_conserves
    · exact bind_conserves fun _ => value_conserves
    · exact bind_conserves fun _ => value_conserves
  | boolean | sint16 | uint16 | sint32 | uint32 | sint64 | uint64 | xsint16 | xuint16 | xsint32
  | xuint32 | xsint64 | xuint64 | char16 | uint8guid | objectguid | objectipaddr | objectipaddrv6
  | uint64wmitime | objectwmitime | uint16port | objectport => exact fixed_conserves

end Conserve

/-! ### Fields -/

/-- A field of an event: its descriptor, a value of its kind, and the bytes of
the value. -/
structure Field (T : Base.Tcl) (W : Conversions) (pointerSize : Nat) where
  name : String
  type : String
  mof : MofType
  kind : Kind
  obj : Obj
  bytes : List UInt8
  typed : (T.asInt type).bind MofType.ofEnum = some mof
  supported : mof.kind = some kind
  encodes : kind.Encodes W pointerSize obj bytes

section Fields

variable {T : Base.Tcl} {h : Host} {W : Conversions} {pointerSize : Nat} {d : EventData}
  {cur : Cursor} {dict : Dict}

def Field.descriptor (f : Field T W pointerSize) : String × String := (f.name, f.type)

def Field.taken (f : Field T W pointerSize) : Taken := ⟨f.name, f.obj, f.bytes.length⟩

def Field.Fits (f : Field T W pointerSize) (rest : List UInt8) : Prop :=
  f.kind.Fits pointerSize f.bytes rest

/-- The data of an event with these fields. -/
def encoding (fields : List (Field T W pointerSize)) : List UInt8 := fields.flatMap Field.bytes

def dictOf (dict : Dict) (fields : List (Field T W pointerSize)) : Dict :=
  fields.foldl (fun dict f => dict.put f.name f.obj) dict

/-- Every field fits what follows it. -/
def AllFit : List (Field T W pointerSize) → Prop
  | [] => True
  | f :: fields => f.Fits (encoding fields) ∧ AllFit fields

/-- The values of the fields are put, and each one eats exactly its own bytes. -/
structure Exact (dict : Dict) (fields : List (Field T W pointerSize)) (p : Parsed) : Prop where
  outcome : p.outcome = .ok (dictOf dict fields)
  taken : p.taken = fields.map Field.taken

variable {fields : List (Field T W pointerSize)}

theorem allFit_iff :
    AllFit fields ↔ ∀ before f after, fields = before ++ f :: after → f.Fits (encoding after) := by
  induction fields with
  | nil =>
    apply iff_of_true trivial
    intro before f after split
    cases before <;> cases split
  | cons g fields ih =>
    constructor
    · rintro ⟨first, others⟩ before f after split
      cases before with
      | nil =>
        cases split
        exact first
      | cons g' before =>
        cases split
        exact ih.mp others before f after rfl
    · intro all
      refine ⟨all [] g fields rfl, ih.mpr ?_⟩
      rintro before f after rfl
      exact all (g :: before) f after rfl

theorem Field.bytes_ne_nil (f : Field T W pointerSize) (width : 0 < pointerSize)
    {rest : List UInt8} (fits : f.Fits rest) : f.bytes ≠ [] :=
  fits_ne_nil width f.supported f.encodes fits

/-- One turn of the loop. -/
theorem loop_field (f : Field T W pointerSize) (descriptors : List (String × String))
    (more : 0 < cur.remain) :
    (loop T h W d pointerSize (f.descriptor :: descriptors) cur dict).result =
      match (switch h W d pointerSize cur f.mof).result with
      | .done => ⟨.ok dict, []⟩
      | .value obj eaten at_ =>
        let next : Cursor := ⟨at_.bytesP + eaten, at_.remain - eaten⟩
        let rest := (loop T h W d pointerSize descriptors next (dict.put f.name obj)).result
        ⟨rest.outcome, ⟨f.name, obj, next.bytesP - cur.bytesP⟩ :: rest.taken⟩ := by
  obtain ⟨n, type, label⟩ := Option.bind_eq_some_iff.mp f.typed
  rw [Field.descriptor, loop, if_pos more, type]
  split
  · rename_i none_
    cases none_
  · rename_i zero
    cases zero
    cases label
  · rename_i equal
    cases equal
    rw [label]
    dsimp only
    rw [Traced.result_bind]
    cases (switch h W d pointerSize cur f.mof).result with
    | done => rfl
    | value obj eaten at_ => rfl

/-- A value put is the right one when it is what the field is to give. -/
theorem exact_cons_iff {f : Field T W pointerSize} {obj : Obj} {eaten : Int} {rest : Parsed} :
    Exact dict (f :: fields) ⟨rest.outcome, ⟨f.name, obj, eaten⟩ :: rest.taken⟩ ↔
      (obj = f.obj ∧ eaten = f.bytes.length) ∧
        rest.outcome = .ok (dictOf (dict.put f.name f.obj) fields) ∧
          rest.taken = fields.map Field.taken := by
  constructor
  · rintro ⟨outcome, taken⟩
    obtain ⟨head, tail⟩ := List.cons.inj taken
    cases head
    exact ⟨⟨rfl, rfl⟩, outcome, tail⟩
  · rintro ⟨⟨rfl, rfl⟩, outcome, tail⟩
    exact ⟨outcome, congrArg (f.taken :: ·) tail⟩

/-- By induction on the fields: as long as they fit, the cursor is before the
bytes of those that are left. -/
theorem loop_exact_iff (width : pointerSize = 4 ∨ pointerSize = 8)
    (fields : List (Field T W pointerSize)) (at_ : At d cur (encoding fields)) :
    Exact dict fields
        (loop T h W d pointerSize (fields.map Field.descriptor) cur dict).result ↔
      AllFit fields := by
  induction fields generalizing cur dict with
  | nil => exact iff_of_true ⟨rfl, rfl⟩ trivial
  | cons f fields ih =>
    change At d cur (f.bytes ++ encoding fields) at at_
    have total := at_.remain
    by_cases left : f.bytes ++ encoding fields = []
    · have none_ : ¬ 0 < cur.remain := by
        rw [total, left]
        decide
      rw [List.map_cons, Field.descriptor, loop, if_neg none_]
      apply iff_of_false
      · intro exact_
        cases exact_.taken
      · intro fit
        exact f.bytes_ne_nil (by omega) fit.1 (List.append_eq_nil_iff.mp left).1
    · have more : 0 < cur.remain := by
        have := List.length_pos_iff.mpr left
        omega
      have takes := switch_takes_iff (h := h) width f.supported f.encodes at_ left
      have kept : ((switch h W d pointerSize cur f.mof).result).Conserves cur :=
        switch_conserves
      rw [List.map_cons, loop_field f _ more]
      cases result : (switch h W d pointerSize cur f.mof).result with
      | done =>
        rw [result] at takes
        apply iff_of_false
        · intro exact_
          cases exact_.taken
        · intro fit
          exact not_takes_done (takes.mpr fit.1)
      | value obj eaten at_' =>
        rw [result] at takes kept
        simp only [Switch.Conserves] at kept
        rw [exact_cons_iff]
        have head : (obj = f.obj ∧ at_'.bytesP + eaten - cur.bytesP = f.bytes.length) ↔
            f.Fits (encoding fields) := by
          rw [Field.Fits, ← takes]
          constructor
          · rintro ⟨rfl, size⟩
            exact ⟨eaten, at_', rfl, by omega, by omega⟩
          · rintro ⟨eaten', at_'', equal, moved, -⟩
            cases equal
            exact ⟨rfl, by omega⟩
        rw [head]
        apply and_congr_right
        intro fits
        obtain ⟨rfl, size⟩ := head.mpr fits
        have next : (⟨at_'.bytesP + eaten, at_'.remain - eaten⟩ : Cursor) =
            ⟨cur.bytesP + f.bytes.length, cur.remain - f.bytes.length⟩ := by
          rw [Cursor.mk.injEq]
          omega
        rw [next]
        exact ⟨fun tail => (ih at_.next).mp ⟨tail.1, tail.2⟩, fun fit =>
          ⟨((ih at_.next).mpr fit).outcome, ((ih at_.next).mpr fit).taken⟩⟩

/-! ### The command -/

/-- The list of alternating names and types. -/
def descriptors (fields : List (Field T W pointerSize)) : List String :=
  fields.flatMap fun f => [f.name, f.type]

theorem pairs_descriptors (fields : List (Field T W pointerSize)) :
    pairs (descriptors fields) = fields.map Field.descriptor := by
  induction fields with
  | nil => rfl
  | cons f fields ih => exact congrArg (f.descriptor :: ·) ih

theorem length_descriptors (fields : List (Field T W pointerSize)) :
    (descriptors fields).length % 2 = 0 := by
  induction fields with
  | nil => rfl
  | cons f fields ih =>
    change ((descriptors fields).length + 1 + 1) % 2 = 0
    omega

/-- The data of an event with these fields gives a dictionary of their values,
and each field eats exactly its own bytes, if and only if every field fits what
follows it. -/
theorem parseEventMofData_exact_iff (h : Host) (width : pointerSize = 4 ∨ pointerSize = 8)
    (fields : List (Field T W pointerSize)) {fieldsArg pointerArg : String}
    (listed : T.asList fieldsArg = some (descriptors fields))
    (sized : T.asInt pointerArg = some (pointerSize : Int)) (data : d.bytes = encoding fields) :
    Exact [] fields (parseEventMofData T h W d 4 fieldsArg pointerArg).result ↔
      ∀ before f after, fields = before ++ f :: after → f.Fits (encoding after) := by
  have even : ¬ (descriptors fields).length % 2 = 1 := by
    rw [length_descriptors]
    decide
  have valid : ¬ ((pointerSize : Int) ≠ 4 ∧ (pointerSize : Int) ≠ 8) := by omega
  have start : At d ⟨(0 : Nat), d.bytes.length⟩ (encoding fields) := ⟨0, by rw [data], data⟩
  rw [← allFit_iff, ← loop_exact_iff (h := h) width fields start, parseEventMofData,
    if_neg (by decide), listed, sized]
  dsimp only
  rw [if_neg even, if_neg valid, Traced.result_bind, pairs_descriptors]
  rfl

end Fields

/-! ### Two events -/

/-- Tcl, of the strings used here. -/
def someTcl : Base.Tcl where
  asList s := List.lookup s
    [("a 2 b 9", ["a", "2", "b", "9"]), ("b 9 a 2", ["b", "9", "a", "2"]), ("v 32", ["v", "32"])]
  asInt s := List.lookup s [("2", 2), ("9", 9), ("4", 4), ("32", 32)]
  notList _ := "unmatched open brace in list"
  notInt s := "expected integer but got \"" ++ s ++ "\""

def someConversions : Conversions := ⟨fun _ => "", fun _ => none, fun _ => "", fun _ => none⟩

/-- `a`, an empty wide string. -/
def emptyWide : Field someTcl someConversions 4 where
  name := "a"
  type := "2"
  mof := .wstring
  kind := .wstring
  obj := .wchars []
  bytes := [0, 0]
  typed := rfl
  supported := rfl
  encodes := ⟨[], by decide, rfl, rfl⟩

/-- `b`, the byte 5. -/
def five : Field someTcl someConversions 4 where
  name := "b"
  type := "9"
  mof := .uint8
  kind := .scalar (.unsigned 1)
  obj := .int 5
  bytes := [5]
  typed := rfl
  supported := rfl
  encodes := ⟨5, by decide, rfl, rfl⟩

theorem parseEventMofData_exact_iff_five :
    Exact [] [five, emptyWide]
      (parseEventMofData someTcl .x64 someConversions ⟨[5, 0, 0], by decide, fun _ => 0⟩ 4
        "b 9 a 2" "4").result := by
  refine (parseEventMofData_exact_iff .x64 (.inl rfl) [five, emptyWide] rfl rfl rfl).mpr ?_
  refine allFit_iff.mp ⟨trivial, ?_, trivial⟩
  exact Nat.zero_mod 2

/-- With one byte behind it, a wide string eats that too. -/
theorem wide_string_eats_next :
    ¬ ∀ (T : Base.Tcl) (h : Host) (W : Conversions) (fields : List (Field T W 4)) (d : EventData)
      (fieldsArg pointerArg : String), T.asList fieldsArg = some (descriptors fields) →
      T.asInt pointerArg = some 4 → d.bytes = encoding fields →
      Exact [] fields (parseEventMofData T h W d 4 fieldsArg pointerArg).result := by
  intro claim
  have taken := (claim someTcl .x64 someConversions [emptyWide, five]
    ⟨[0, 0, 5], by decide, fun _ => 0⟩ "a 2 b 9" "4" rfl rfl rfl).taken
  revert taken
  decide

end Twapi.Etw
