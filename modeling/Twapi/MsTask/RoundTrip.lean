import Twapi.MsTask.Trigger

/-!
What becomes of the fields of a trigger on their way through lists.

* `Stands` — what is listed under a name is the value of that field; `Lists` — so is all that
  is listed, and no field is missing.
* `objToTaskTrigger_of_lists` — such a list is read as the trigger, in whatever order.
* `objToTaskTrigger_objFrom` — and the list that is made of it is one.
-/

namespace Twapi.MsTask

open Lib

variable (T : Tcl)

/-! ### Numbers -/

variable {n : Int}

theorem objToInt_decimal (low : -(2 ^ 32) < n) (high : n < 2 ^ 32) :
    objToInt T (decimal n) = .ok (n.bmod (2 ^ 32)) := by
  rw [objToInt, T.asWide_decimal n (by omega) (by omega)]
  exact if_pos ⟨low, high⟩

theorem objToWord_ofWord (w : WORD) : objToWord T (objFromWord w) = .ok w := by
  have small := w.isLt
  have same : (w.toNat : Int).bmod (2 ^ 32) = w.toNat := by
    apply Int.bmod_eq_of_le
    · omega
    · omega
  rw [objToWord, objFromWord, objToInt_decimal T (by omega) (by omega), ok_bind, same,
    if_neg (by omega), BitVec.ofInt_natCast, BitVec.ofNat_toNat, BitVec.setWidth_eq]

theorem ofInt_bmod (n : Int) : BitVec.ofInt 32 (n.bmod (2 ^ 32)) = BitVec.ofInt 32 n := by
  apply BitVec.eq_of_toInt_eq
  rw [BitVec.toInt_ofInt, BitVec.toInt_ofInt, Int.bmod_bmod]

theorem objToDword_decimal (low : -(2 ^ 32) < n) (high : n < 2 ^ 32) :
    objToDword T (decimal n) = .ok (BitVec.ofInt 32 n) := by
  rw [objToDword, objToInt_decimal T low high, ok_bind, ofInt_bmod]
  rfl

theorem objToDword_ofDword (d : DWORD) : objToDword T (objFromDword d) = .ok d := by
  have small := d.isLt
  rw [objFromDword, objToDword_decimal T (by omega) (by omega), BitVec.ofInt_natCast,
    BitVec.ofNat_toNat, BitVec.setWidth_eq]

theorem objToDword_toInt (d : DWORD) : objToDword T (decimal d.toInt) = .ok d := by
  have low := d.le_toInt
  have high := d.toInt_lt
  rw [objToDword_decimal T (by omega) (by omega), BitVec.ofInt_toInt]

theorem intOf_ofWord (w : WORD) : intOf T (objFromWord w) = .ok w.toNat := by
  have small := w.isLt
  rw [intOf, objFromWord, T.asWide_decimal _ (by omega) (by omega)]

theorem intOf_ofDword (d : DWORD) : intOf T (objFromDword d) = .ok d.toNat := by
  have small := d.isLt
  rw [intOf, objFromDword, T.asWide_decimal _ (by omega) (by omega)]

/-! ### Types -/

theorem typeWord_ofWord (w : WORD) : typeWord T (objFromWord w) = .ok w := by
  rw [typeWord, objToWord_ofWord]
  rfl

theorem typeDword_ofDword (d : DWORD) : typeDword T (objFromDword d) = .ok d := by
  rw [typeDword, objToDword_ofDword]
  rfl

theorem objToInt_tag (low : 0 ≤ n) (high : n < 8) : objToInt T (decimal n) = .ok n := by
  rw [objToInt_decimal T (by omega) (by omega), Int.bmod_eq_of_le (by omega) (by omega)]

theorem objToType_objFromType (type : TriggerType) : objToType T (objFromType type) = .ok type := by
  cases type <;>
    simp [objToType, objFromType, objToInt_tag, ok_bind, bare, typeWord_ofWord, typeDword_ofDword]

/-! ### Lists of fields -/

/-- What is listed under a name is read as the value of a trigger. -/
def Stands (t : TaskTrigger) : Field → Value → Prop
  | .word f, value => objToWord T (value.string T) = .ok (t.words f)
  | .dword f, value => objToDword T (value.string T) = .ok (t.dwords f)
  | .type, value => ∃ ts, value.elements T = .ok ts ∧ objToType T ts = .ok t.type

structure Lists (data : Data) (t : TaskTrigger) : Prop where
  stands : ∀ p ∈ data, ∃ field, fieldNames.lookup p.1 = some field ∧ Stands T t field p.2
  whole : ∀ p ∈ fieldNames, p.1 ∈ data.map Prod.fst

/-- Where two triggers have a field in common. -/
def Agree (s t : TaskTrigger) : Field → Prop
  | .word f => s.words f = t.words f
  | .dword f => s.dwords f = t.dwords f
  | .type => s.type = t.type

variable {T} {s t : TaskTrigger} {data : Data}

theorem eq_of_agree (all : ∀ field, Agree s t field) : s = t := by
  have words : s.words = t.words := funext fun f => all (.word f)
  have dwords : s.dwords = t.dwords := funext fun f => all (.dword f)
  have type : s.type = t.type := all .type
  cases s
  cases t
  cases words
  cases dwords
  cases type
  rfl

/-- One field is read. -/
theorem setField_stands {name : String} {value : Value} {field : Field}
    (named : fieldNames.lookup name = some field) (stands : Stands T t field value) :
    ∃ s', setField T s name value = .ok s' ∧ Agree s' t field ∧
      ∀ other, Agree s t other → Agree s' t other := by
  unfold setField
  rw [named]
  cases field with
  | word f =>
    refine ⟨_, by simp only; rw [stands]; rfl, by simp [Agree], fun other agree => ?_⟩
    cases other with
    | word g =>
      by_cases same : g = f
      · subst same
        simp [Agree]
      · simpa [Agree, same] using agree
    | dword _ => exact agree
    | type => exact agree
  | dword f =>
    refine ⟨_, by simp only; rw [stands]; rfl, by simp [Agree], fun other agree => ?_⟩
    cases other with
    | dword g =>
      by_cases same : g = f
      · subst same
        simp [Agree]
      · simpa [Agree, same] using agree
    | word _ => exact agree
    | type => exact agree
  | type =>
    obtain ⟨ts, elements, read⟩ := stands
    refine ⟨{ s with type := t.type }, by simp only; rw [elements, ok_bind, read]; rfl, rfl,
      fun other agree => ?_⟩
    cases other with
    | type => rfl
    | word _ => exact agree
    | dword _ => exact agree

theorem setFields_stands
    (stands : ∀ p ∈ data, ∃ field, fieldNames.lookup p.1 = some field ∧ Stands T t field p.2) :
    ∃ s', setFields T (flatten data) s = .ok s' ∧ (∀ field, Agree s t field → Agree s' t field) ∧
      ∀ p ∈ data, ∀ field, fieldNames.lookup p.1 = some field → Agree s' t field := by
  induction data generalizing s with
  | nil => exact ⟨s, rfl, fun _ agree => agree, fun p mem => absurd mem List.not_mem_nil⟩
  | cons p data ih =>
    obtain ⟨name, value⟩ := p
    obtain ⟨field, named, here⟩ := stands (name, value) List.mem_cons_self
    obtain ⟨s₁, read, agree, kept⟩ := setField_stands (s := s) named here
    obtain ⟨s', later, kept', rest⟩ :=
      ih (s := s₁) fun p mem => stands p (List.mem_cons_of_mem _ mem)
    refine ⟨s', ?_, fun other agree => kept' other (kept other agree), fun p mem other named' => ?_⟩
    · change (setField T s (String.ofList name.toList) value >>= setFields T (flatten data)) = _
      rw [String.ofList_toList, read]
      exact later
    · rcases List.mem_cons.mp mem with rfl | mem
      · cases named.symm.trans named'
        exact kept' field agree
      · exact rest p mem other named'

theorem length_flatten (data : Data) : (flatten data).length % 2 = 0 := by
  induction data with
  | nil => rfl
  | cons p data ih =>
    rw [flatten, List.flatMap_cons, List.length_append]
    change (2 + (flatten data).length) % 2 = 0
    omega

theorem exists_name (field : Field) : ∃ p ∈ fieldNames, fieldNames.lookup p.1 = some field := by
  have each : ∀ p ∈ fieldNames, fieldNames.lookup p.1 = some p.2 := by decide
  have mem : field ∈ fieldNames.map Prod.snd := by
    cases field with
    | word f => cases f <;> decide
    | dword f => cases f <;> decide
    | type => decide
  obtain ⟨p, listed, rfl⟩ := List.mem_map.mp mem
  exact ⟨p, listed, each p listed⟩

theorem objToTaskTrigger_of_lists (lists : Lists T data t) :
    objToTaskTrigger T (flatten data) = .ok t := by
  rw [objToTaskTrigger, if_neg (by rw [length_flatten]; decide)]
  obtain ⟨s', read, -, agree⟩ := setFields_stands (s := .zero) lists.stands
  rw [read]
  refine congrArg Except.ok (eq_of_agree fun field => ?_)
  obtain ⟨p, listed, named⟩ := exists_name field
  obtain ⟨q, mem, same⟩ := List.mem_map.mp (lists.whole p listed)
  exact agree q mem field (same ▸ named)

theorem Lists.perm {data' : Data} (lists : Lists T data t) (perm : data'.Perm data) :
    Lists T data' t :=
  ⟨fun p mem => lists.stands p (perm.mem_iff.mp mem),
    fun p listed => (perm.map Prod.fst).mem_iff.mpr (lists.whole p listed)⟩

theorem stands_value (field : Field) : Stands T t field (t.value field) := by
  cases field with
  | word f => exact objToWord_ofWord T (t.words f)
  | dword f => exact objToDword_ofDword T (t.dwords f)
  | type => exact ⟨objFromType t.type, rfl, objToType_objFromType T t.type⟩

theorem lists_objFrom (t : TaskTrigger) : Lists T (objFromTaskTrigger t) t := by
  refine ⟨fun p mem => ?_, fun p listed => ?_⟩
  · have each : ∀ p ∈ fieldNames, fieldNames.lookup p.1 = some p.2 := by decide
    obtain ⟨q, listed, rfl⟩ := List.mem_map.mp mem
    exact ⟨q.2, each q listed, stands_value q.2⟩
  · rw [objFromTaskTrigger, List.map_map]
    exact List.mem_map.mpr ⟨p, listed, rfl⟩

/-- `ObjToTASK_TRIGGER` of `ObjFromTASK_TRIGGER` -/
theorem objToTaskTrigger_objFrom (t : TaskTrigger) :
    objToTaskTrigger T (flatten (objFromTaskTrigger t)) = .ok t :=
  objToTaskTrigger_of_lists (lists_objFrom t)

end Twapi.MsTask
