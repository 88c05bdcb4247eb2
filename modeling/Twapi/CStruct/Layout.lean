import Twapi.CStruct.Model
import Twapi.Lib.Results

/-!
The layout of a structure.

* `Fields.extent`, `Fields.exactSize` — where fields end, in integers.
* `Fields.LaidOut` — fields that are aligned, follow one another and lie within the structure.
* `castFields_exact` — the loop, as long as there is no wrap.
* `objCastToCStruct_sound` — every definition that is accepted.
-/

namespace Twapi.CStruct

open Lib BitVec Nat

/-! ### Integers -/

def roundUp (o a : Nat) : Nat := (o + a - 1) / a * a

variable {a b : Nat}

theorem le_roundUp (o : Nat) (pos : 0 < a) : o ≤ roundUp o a := by
  have split := div_add_mod (o + a - 1) a
  have small := mod_lt (o + a - 1) pos
  rw [roundUp, mul_comm]
  omega

theorem dvd_roundUp (o a : Nat) : a ∣ roundUp o a := Nat.dvd_mul_left ..

/-- The alignment of every field and structure. -/
def IsAlignment (a : Nat) : Prop := a = 1 ∨ a = 2 ∨ a = 4 ∨ a = 8

theorem IsAlignment.pos (h : IsAlignment a) : 0 < a := by
  rcases h with rfl | rfl | rfl | rfl <;> decide

theorem IsAlignment.dvd (ha : IsAlignment a) (hb : IsAlignment b) (le : a ≤ b) :
    a ∣ b := by
  rcases ha with rfl | rfl | rfl | rfl <;> rcases hb with rfl | rfl | rfl | rfl <;> omega

theorem IsAlignment.max (ha : IsAlignment a) (hb : IsAlignment b) :
    IsAlignment (max a b) := by
  rcases le_total a b with le | le
  · rwa [max_eq_right le]
  · rwa [max_eq_left le]

/-- What is masked out and what is left. -/
theorem toNat_and_not (x m : DWORD) : (x &&& ~~~m).toNat = x.toNat - (x &&& m).toNat := by
  have apart : (x &&& m) &&& (x &&& ~~~m) = 0#32 := by
    ext i low
    simp only [getElem_and, getElem_not, getElem_zero]
    cases x[i] <;> cases m[i] <;> rfl
  have whole : (x &&& m) + (x &&& ~~~m) = x := by
    rw [add_eq_or_of_and_eq_zero _ _ apart]
    ext i low
    simp only [getElem_and, getElem_not, getElem_or]
    cases x[i] <;> cases m[i] <;> rfl
  have sum := toNat_add_of_and_eq_zero apart
  rw [whole] at sum
  omega

theorem and_mask (h : IsAlignment a) (n : Nat) : n &&& (a - 1) = n % a := by
  rcases h with rfl | rfl | rfl | rfl
  · exact and_two_pow_sub_one_eq_mod n 0
  · exact and_two_pow_sub_one_eq_mod n 1
  · exact and_two_pow_sub_one_eq_mod n 2
  · exact and_two_pow_sub_one_eq_mod n 3

theorem toNat_alignTo {offset alignment : DWORD} (h : IsAlignment alignment.toNat)
    (fits : offset.toNat + alignment.toNat - 1 < 2 ^ 32) :
    (alignTo offset alignment).toNat = roundUp offset.toNat alignment.toNat := by
  have pos := h.pos
  have low := alignment.isLt
  have mask : (alignment - 1).toNat = alignment.toNat - 1 := by
    rw [toNat_sub, show (1 : DWORD).toNat = 1 from rfl]
    omega
  have last : (offset + alignment - 1).toNat = offset.toNat + alignment.toNat - 1 := by
    rw [toNat_sub, toNat_add, show (1 : DWORD).toNat = 1 from rfl]
    omega
  rw [alignTo, toNat_and_not, toNat_and, mask, last, and_mask h, roundUp]
  have split := div_add_mod (offset.toNat + alignment.toNat - 1) alignment.toNat
  rw [mul_comm] at split
  omega

/-- What does not wrap once it is rounded did not wrap before. -/
theorem fits_of_roundUp {o a : Nat} (h : IsAlignment a) (fits : roundUp o a < 2 ^ 32) :
    o + a - 1 < 2 ^ 32 := by
  rw [roundUp] at fits
  rcases h with rfl | rfl | rfl | rfl <;> omega

/-! ### Layouts in integers -/

/-- The alignment that is natural for a type is its size. -/
def CStructType.alignment (A : Arch) (t : CStructType) : Nat := max 1 (t.elem_size A)

/-- A scalar is one element. -/
def Field.elems (f : Field) : Nat := max 1 f.count.toNat

section Exact

variable (A : Arch)

def Fields.alignment : Fields → Nat
  | .nil => 1
  | .field f rest => max (f.type.alignment A) rest.alignment
  | .nested _ _ _ child rest => max child.alignment rest.alignment

/-- Where the fields end that begin at an offset. -/
def Fields.extent : Fields → Nat → Nat
  | .nil, o => o
  | .field f rest, o =>
    rest.extent (roundUp o (f.type.alignment A) + f.type.elem_size A * f.elems)
  | .nested f _ _ child rest, o =>
    rest.extent (roundUp o (child.alignment A) +
      roundUp (child.extent 0) (child.alignment A) * f.elems)

def Fields.exactSize (fields : Fields) : Nat := roundUp (fields.extent A 0) (fields.alignment A)

/-- A structure of nothing but `void`, at any depth. -/
def Fields.NoBytes : Fields → Prop
  | .nil => True
  | .field f rest => f.type = .void ∧ rest.NoBytes
  | .nested _ _ _ child rest => child.NoBytes ∧ rest.NoBytes

/-! ### Layouts in words -/

/-- Where a field of a natural alignment lies in a structure, after what came before it. -/
structure Field.Placed (f : Field) (natural start size alignment : Nat) : Prop where
  after : start ≤ f.offset.toNat
  aligned : natural ∣ f.offset.toNat
  divides : natural ∣ alignment
  within : f.offset.toNat + f.size.toNat * f.elems ≤ size

def Field.stop (f : Field) : Nat := f.offset.toNat + f.size.toNat * f.elems

/-- Every field lies after the end of the one before it. -/
def Fields.LaidOut : Fields → (start size alignment : Nat) → Prop
  | .nil, start, size, _ => start ≤ size
  | .field f rest, start, size, alignment =>
    f.Placed (f.type.alignment A) start size alignment ∧
    f.size.toNat = f.type.elem_size A ∧
    rest.LaidOut f.stop size alignment
  | .nested f childSize childAlignment child rest, start, size, alignment =>
    f.Placed childAlignment.toNat start size alignment ∧
    f.size = childSize ∧ childAlignment.toNat ∣ childSize.toNat ∧
    child.LaidOut 0 childSize.toNat childAlignment.toNat ∧
    rest.LaidOut f.stop size alignment

end Exact

section Facts

variable {A : Arch}

theorem isAlignment_type (t : CStructType) : IsAlignment (t.alignment A) := by
  cases t <;> cases A <;> simp [CStructType.alignment, CStructType.elem_size, Arch.pointer,
    IsAlignment]

theorem isAlignment_fields (fields : Fields) : IsAlignment (fields.alignment A) := by
  induction fields with
  | nil => exact .inl rfl
  | field f rest ih => exact (isAlignment_type f.type).max ih
  | nested f size alignment child rest ihChild ih => exact ihChild.max ih

theorem elems_pos (f : Field) : 0 < f.elems := Nat.lt_of_lt_of_le Nat.one_pos (Nat.le_max_left ..)

theorem le_extent (fields : Fields) (o : Nat) : o ≤ fields.extent A o := by
  induction fields generalizing o with
  | nil => exact le_refl o
  | field f rest ih =>
    have up := le_roundUp o (isAlignment_type (A := A) f.type).pos
    exact Nat.le_trans (Nat.le_trans up (Nat.le_add_right ..)) (ih _)
  | nested f size alignment child rest _ ih =>
    have up := le_roundUp o (isAlignment_fields (A := A) child).pos
    exact Nat.le_trans (Nat.le_trans up (Nat.le_add_right ..)) (ih _)

theorem extent_le_exactSize (fields : Fields) : fields.extent A 0 ≤ fields.exactSize A :=
  le_roundUp _ (isAlignment_fields fields).pos

theorem elem_size_pos {t : CStructType} (notVoid : t ≠ .void) (notStruct : t ≠ .struct) :
    0 < t.elem_size A := by
  cases t <;> cases A <;> simp_all [CStructType.elem_size, Arch.pointer]

end Facts

/-! ### Definitions that are accepted -/

section Accepted

variable {A : Arch} (T : Tcl A)

/-- The fields of a list of definitions, one for one. -/
def Fields.Defines : Fields → List String → Prop
  | .nil, [] => True
  | .field f rest, obj :: objs =>
    (∃ d, definition T obj = .ok d ∧ f.name = d.name ∧ f.type = d.deftype ∧
      f.count = d.array_size ∧ d.deftype ≠ .struct ∧
      (d.deftype = .cbsize → d.array_size = 0)) ∧ rest.Defines objs
  | .nested f _ _ child rest, obj :: objs =>
    (∃ d word words, definition T obj = .ok d ∧ f.name = d.name ∧ f.type = d.deftype ∧
      f.count = d.array_size ∧ d.deftype = .struct ∧ d.child = some word ∧
      T.elements word = .ok words ∧ child.Defines words) ∧ rest.Defines objs
  | _, _ => False

/-- What is true of a structure however large it is, and what if it fits 32 bits. -/
structure Sound (word : String) (rep : Rep) : Prop where
  defines : ∃ words, T.elements word = .ok words ∧ rep.fields.Defines T words
  alignment : rep.alignment.toNat = rep.fields.alignment A
  size : rep.fields.exactSize A < 2 ^ 32 → rep.size.toNat = rep.fields.exactSize A
  laidOut : rep.fields.exactSize A < 2 ^ 32 →
    rep.fields.LaidOut A 0 rep.size.toNat rep.alignment.toNat

variable {T}

variable {fields : Fields} {e : Element}

variable {cast : String → Except Error Rep}

theorem elementOf_ok {n : Nat} {d : Def} (accepted : elementOf (A := A) cast n d = .ok e) :
    (d.deftype ≠ .struct ∧ (d.deftype = .void → n = 1) ∧
      (d.deftype = .cbsize → d.array_size = 0) ∧
      e = ⟨BitVec.ofNat 32 (d.deftype.elem_size A), 0, none⟩) ∨
    (∃ word rep, d.deftype = .struct ∧ d.child = some word ∧ cast word = .ok rep ∧
      e = ⟨rep.size, rep.alignment, some rep⟩) := by
  obtain ⟨name, deftype, array_size, child⟩ := d
  rw [elementOf.eq_def] at accepted
  cases deftype
  case void =>
    by_cases single : n = 1
    · simp only [ne_eq, single, not_true_eq_false, if_false] at accepted
      cases accepted
      exact .inl ⟨nofun, fun _ => single, nofun, rfl⟩
    · simp only [ne_eq, single, not_false_eq_true, if_true] at accepted
      cases accepted
  case cbsize =>
    by_cases scalar : array_size = 0
    · simp only [ne_eq, scalar, not_true_eq_false, if_false] at accepted
      cases accepted
      exact .inl ⟨nofun, nofun, fun _ => scalar, rfl⟩
    · simp only [ne_eq, scalar, not_false_eq_true, if_true] at accepted
      cases accepted
  case struct =>
    cases child with
    | none => cases accepted
    | some word =>
      obtain ⟨rep, nested, same⟩ := bind_eq_ok accepted
      cases same
      exact .inr ⟨word, rep, rfl, rfl, nested, rfl⟩
  all_goals
    cases accepted
    exact .inl ⟨nofun, nofun, nofun, rfl⟩

theorem toNat_elem_size (t : CStructType) :
    (BitVec.ofNat 32 (t.elem_size A)).toNat = t.elem_size A := by
  cases t <;> cases A <;> rfl

theorem toNat_max {a b : DWORD} : (if a > b then a else b).toNat = max b.toNat a.toNat := by
  by_cases more : a > b
  · rw [if_pos more, max_eq_right (le_of_lt (lt_def.mp more))]
  · rw [if_neg more, Nat.max_eq_left (Nat.le_of_not_lt fun h => more (lt_def.mpr h))]

/-- The alignment of an element that is no structure, and where it puts a field. -/
theorem leaf_alignment {t : CStructType} {offset : DWORD} (al : DWORD)
    (same : e = ⟨BitVec.ofNat 32 (t.elem_size A), 0, none⟩) (pos : 0 < al.toNat)
    (start : t.elem_size A = 0 → offset = 0) :
    (if e.alignment > al then e.alignment else al).toNat = max al.toNat (t.alignment A) ∧
    (roundUp offset.toNat (t.alignment A) < 2 ^ 32 →
      (alignTo offset e.alignment).toNat = roundUp offset.toNat (t.alignment A)) := by
  have alignment : e.alignment.toNat = t.elem_size A := by
    rw [same]
    exact toNat_elem_size t
  rw [toNat_max, alignment]
  by_cases empty : t.elem_size A = 0
  · have zero : e.alignment = 0 := eq_of_toNat_eq (alignment.trans empty)
    rw [start empty, zero, CStructType.alignment, empty]
    exact ⟨by omega, fun _ => by decide⟩
  · have natural : t.alignment A = e.alignment.toNat := by
      rw [CStructType.alignment, alignment]
      omega
    rw [natural, alignment]
    refine ⟨rfl, fun fits => ?_⟩
    rw [← alignment] at fits ⊢
    have isAlignment : IsAlignment e.alignment.toNat := natural ▸ isAlignment_type t
    exact toNat_alignTo isAlignment (fits_of_roundUp isAlignment fits)

theorem toNat_next {offset size count : DWORD}
    (fits : offset.toNat + size.toNat * max 1 count.toNat < 2 ^ 32) :
    (if count = 0 then offset + size else offset + count * size).toNat =
      offset.toNat + size.toNat * max 1 count.toNat := by
  by_cases scalar : count = 0
  · rw [if_pos scalar, toNat_add]
    rw [scalar] at fits ⊢
    have one : max 1 (0 : DWORD).toNat = 1 := rfl
    rw [one, Nat.mul_one] at fits ⊢
    exact Nat.mod_eq_of_lt fits
  · have pos : 0 < count.toNat := by
      rw [Nat.pos_iff_ne_zero]
      exact fun zero => scalar (eq_of_toNat_eq zero)
    rw [Nat.max_eq_right pos, Nat.mul_comm] at fits ⊢
    rw [if_neg scalar, toNat_add, toNat_mul,
      Nat.mod_eq_of_lt (a := count.toNat * size.toNat) (by omega), Nat.mod_eq_of_lt fits]

theorem placed {f : Field} {natural start size alignment : Nat}
    (offset : f.offset.toNat = roundUp start natural) (pos : 0 < natural)
    (divides : natural ∣ alignment) (within : f.stop ≤ size) :
    f.Placed natural start size alignment where
  after := offset ▸ le_roundUp start pos
  aligned := offset ▸ dvd_roundUp start natural
  divides := divides
  within := within

theorem start_le_size {start size alignment : Nat} (laidOut : fields.LaidOut A start size alignment) :
    start ≤ size := by
  cases fields with
  | nil => exact laidOut
  | field f rest =>
    exact Nat.le_trans laidOut.1.after (Nat.le_trans (Nat.le_add_right ..) laidOut.1.within)
  | nested f childSize childAlignment child rest =>
    exact Nat.le_trans laidOut.1.after (Nat.le_trans (Nat.le_add_right ..) laidOut.1.within)

/-- The alignment of a nested structure, and where it puts a field. -/
theorem nested_alignment {rep : Rep} (offset al : DWORD)
    (same : e = ⟨rep.size, rep.alignment, some rep⟩) (isAlignment : IsAlignment rep.alignment.toNat) :
    (if e.alignment > al then e.alignment else al).toNat = max al.toNat rep.alignment.toNat ∧
    (roundUp offset.toNat rep.alignment.toNat < 2 ^ 32 →
      (alignTo offset e.alignment).toNat = roundUp offset.toNat rep.alignment.toNat) := by
  have alignment : e.alignment = rep.alignment := by
    rw [same]
    refine if_neg fun zero => ?_
    have pos := isAlignment.pos
    rw [show rep.alignment = 0 from zero] at pos
    exact absurd pos (lt_irrefl 0)
  rw [toNat_max, alignment]
  exact ⟨rfl, fun fits => toNat_alignTo isAlignment (fits_of_roundUp isAlignment fits)⟩

/-- One field that does not wrap, and those after it. -/
theorem field_exact {f : Field} {rest : Fields} {natural start : Nat} {last al : DWORD}
    (placed_at : roundUp start natural < 2 ^ 32 → f.offset.toNat = roundUp start natural)
    (pos : 0 < natural) (divides : natural ∣ al.toNat)
    (fits : rest.extent A (roundUp start natural + f.size.toNat * f.elems) < 2 ^ 32)
    (exact : ∀ next : DWORD,
      next = (if f.count = 0 then f.offset + f.size else f.offset + f.count * f.size) →
      rest.extent A next.toNat < 2 ^ 32 →
      last.toNat = rest.extent A next.toNat ∧
      ∀ size, last.toNat ≤ size → rest.LaidOut A next.toNat size al.toNat) :
    last.toNat = rest.extent A (roundUp start natural + f.size.toNat * f.elems) ∧
    ∀ size, last.toNat ≤ size →
      f.Placed natural start size al.toNat ∧ rest.LaidOut A f.stop size al.toNat := by
  have reach := le_extent (A := A) rest (roundUp start natural + f.size.toNat * f.elems)
  have offset := placed_at (by omega)
  rw [← offset] at fits reach ⊢
  have next := toNat_next (lt_of_le_of_lt reach fits)
  obtain ⟨stops, laidOut⟩ := exact _ rfl (next ▸ fits)
  rw [next] at stops laidOut
  refine ⟨stops, fun size within => ?_⟩
  have after := laidOut size within
  exact ⟨placed offset pos divides (start_le_size after), after⟩

/-- The loop: while nothing wraps, offsets are those in integers. -/
theorem castFields_sound (sound : ∀ word rep, cast word = .ok rep → Sound T word rep) {n : Nat}
    {objs : List String} {offset al last al' : DWORD}
    (accepted : castFields T cast n objs offset al = .ok (fields, last, al'))
    (isAlignment : IsAlignment al.toNat) (few : objs.length ≤ n)
    (single : n = 1 → objs ≠ [] → offset = 0) :
    fields.Defines T objs ∧ al'.toNat = max al.toNat (fields.alignment A) ∧
    (fields.extent A offset.toNat < 2 ^ 32 →
      last.toNat = fields.extent A offset.toNat ∧
      ∀ size, last.toNat ≤ size → fields.LaidOut A offset.toNat size al'.toNat) := by
  induction objs generalizing offset al fields with
  | nil =>
    cases accepted
    refine ⟨trivial, ?_, fun _ => ⟨rfl, fun size le => le⟩⟩
    exact (max_eq_left isAlignment.pos).symm
  | cons obj objs ih =>
    obtain ⟨d, defined, accepted⟩ := bind_eq_ok accepted
    obtain ⟨e, element, accepted⟩ := bind_eq_ok accepted
    obtain ⟨⟨rest, stop, al''⟩, looped, same⟩ := bind_eq_ok accepted
    cases same
    have fewer : objs.length ≤ n := le_of_succ_le few
    have notFirst {o : DWORD} : n = 1 → objs ≠ [] → o = 0 := by
      intro one more
      rw [List.length_cons] at few
      have none_left : objs.length = 0 := by omega
      exact absurd (List.length_eq_zero_iff.mp none_left) more
    rcases elementOf_ok element with ⟨notStruct, void, scalar, leaf⟩ |
      ⟨word, rep, struct, child, nested, same⟩
    · have start : d.deftype.elem_size A = 0 → offset = 0 := by
        intro empty
        by_cases isVoid : d.deftype = .void
        · exact single (void isVoid) (List.cons_ne_nil obj objs)
        · exact absurd empty (ne_of_gt (elem_size_pos isVoid notStruct))
      obtain ⟨grown, placed_at⟩ := leaf_alignment al leaf isAlignment.pos start
      have natural := isAlignment_type (A := A) d.deftype
      obtain ⟨defines, alignment, exact⟩ := ih looped
        (by rw [grown]; exact isAlignment.max natural) fewer notFirst
      have elem_size : e.elem_size.toNat = d.deftype.elem_size A := by
        rw [leaf]
        exact toNat_elem_size d.deftype
      have childless : e.child = none := by rw [leaf]
      have total := isAlignment.max (natural.max (isAlignment_fields (A := A) rest))
      rw [grown, max_assoc] at alignment
      rw [childless]
      refine ⟨⟨⟨d, defined, rfl, rfl, rfl, notStruct, scalar⟩, defines⟩, alignment, fun fits => ?_⟩
      rw [← alignment] at total
      obtain ⟨stops, laidOut⟩ := field_exact (f := ⟨d.name, d.deftype, d.array_size,
        alignTo offset e.alignment, e.elem_size⟩) placed_at natural.pos
        (natural.dvd total (by omega)) (by rw [elem_size]; exact fits)
        (fun next same => same ▸ exact)
      rw [elem_size] at stops
      refine ⟨stops, fun size within => ?_⟩
      obtain ⟨here, after⟩ := laidOut size within
      exact ⟨here, elem_size, after⟩
    · have inner := sound word rep nested
      have natural : IsAlignment rep.alignment.toNat := by
        rw [inner.alignment]
        exact isAlignment_fields rep.fields
      obtain ⟨grown, placed_at⟩ := nested_alignment offset al same natural
      obtain ⟨defines, alignment, exact⟩ := ih looped
        (by rw [grown]; exact isAlignment.max natural) fewer notFirst
      obtain ⟨words, list, definesChild⟩ := inner.defines
      have total := isAlignment.max (natural.max (isAlignment_fields (A := A) rest))
      rw [grown, max_assoc] at alignment
      rw [same]
      refine ⟨⟨⟨d, word, words, defined, rfl, rfl, rfl, struct, child, list, definesChild⟩,
        defines⟩, by rw [alignment, inner.alignment]; rfl, fun fits => ?_⟩
      have divides : rep.alignment.toNat ∣ al'.toNat := by
        refine natural.dvd ?_ (by omega)
        rw [alignment, inner.alignment]
        exact isAlignment.max ((isAlignment_fields rep.fields).max (isAlignment_fields rest))
      let f : Field := ⟨d.name, d.deftype, d.array_size, alignTo offset e.alignment, e.elem_size⟩
      change rest.extent A (roundUp offset.toNat (rep.fields.alignment A) +
        rep.fields.exactSize A * f.elems) < 2 ^ 32 at fits
      have reach := le_extent (A := A) rest (roundUp offset.toNat (rep.fields.alignment A) +
        rep.fields.exactSize A * f.elems)
      have once : rep.fields.exactSize A ≤ rep.fields.exactSize A * f.elems :=
        Nat.le_mul_of_pos_right _ (elems_pos f)
      have small : rep.fields.exactSize A < 2 ^ 32 := by omega
      have elem_size : f.size.toNat = rep.fields.exactSize A := by
        rw [← inner.size small, show f.size = e.elem_size from rfl, same]
      rw [← inner.alignment, ← elem_size] at fits
      obtain ⟨stops, laidOut⟩ := field_exact (f := f) placed_at natural.pos divides fits
        (fun next same => same ▸ exact)
      rw [elem_size, inner.alignment] at stops
      refine ⟨stops, fun size within => ?_⟩
      obtain ⟨here, after⟩ := laidOut size within
      have whole : rep.alignment.toNat ∣ rep.size.toNat := by
        rw [inner.size small, inner.alignment]
        exact dvd_roundUp ..
      have elem_eq : f.size = rep.size := by rw [show f.size = e.elem_size from rfl, same]
      subst same
      exact ⟨here, elem_eq, whole, inner.laidOut small, after⟩

/-- Every definition that is accepted. -/
theorem objCastToCStruct_sound {depth : Nat} {word : String} {allow_empty : Bool} {rep : Rep}
    (accepted : objCastToCStruct T depth word allow_empty = .ok rep) : Sound T word rep := by
  induction depth generalizing word allow_empty rep with
  | zero => cases accepted
  | succ depth ih =>
    obtain ⟨objs, list, accepted⟩ := bind_eq_ok accepted
    cases elements : T.elements word with
    | error e =>
      rw [elements] at list
      cases list
    | ok objs' =>
      rw [elements] at list
      cases list
      by_cases empty : objs = [] ∧ allow_empty = false
      · rw [if_pos empty] at accepted
        cases accepted
      · rw [if_neg empty] at accepted
        obtain ⟨⟨fields, last, al⟩, looped, same⟩ := bind_eq_ok accepted
        cases same
        have one : IsAlignment (1 : DWORD).toNat := .inl rfl
        obtain ⟨defines, alignment, exact⟩ := castFields_sound (fun word rep => ih) looped one
          (le_refl _) fun _ _ => rfl
        have pos := (isAlignment_fields (A := A) fields).pos
        have natural : al.toNat = fields.alignment A := by
          rw [alignment]
          exact max_eq_right pos
        have size (small : fields.exactSize A < 2 ^ 32) :
            (alignTo last al).toNat = fields.exactSize A := by
          have below := lt_of_le_of_lt (extent_le_exactSize (A := A) fields) small
          obtain ⟨stops, _⟩ := exact below
          have isAlignment : IsAlignment al.toNat := natural ▸ isAlignment_fields fields
          have rounded : roundUp last.toNat al.toNat = fields.exactSize A := by
            rw [stops, natural]
            rfl
          rw [toNat_alignTo isAlignment (fits_of_roundUp isAlignment (rounded ▸ small)), rounded]
        refine ⟨⟨objs, elements, defines⟩, natural, size, fun small => ?_⟩
        have below := lt_of_le_of_lt (extent_le_exactSize (A := A) fields) small
        obtain ⟨stops, laidOut⟩ := exact below
        refine laidOut _ ?_
        rw [stops]
        exact (extent_le_exactSize fields).trans_eq (size small).symm

theorem dvd_exactSize (fields : Fields) : fields.alignment A ∣ fields.exactSize A :=
  dvd_roundUp ..

/-- Only `void` takes no space. -/
theorem extent_pos {words : List String} (defines : fields.Defines T words) (o : Nat) :
    o < fields.extent A o ∨ fields.NoBytes := by
  induction fields generalizing words o with
  | nil => exact .inr trivial
  | field f rest ih =>
    cases words with
    | nil => exact defines.elim
    | cons word words =>
      obtain ⟨⟨d, _, _, type, _, notStruct, _⟩, definesRest⟩ := defines
      have up := le_roundUp o (isAlignment_type (A := A) f.type).pos
      have reach := le_extent (A := A) rest
        (roundUp o (f.type.alignment A) + f.type.elem_size A * f.elems)
      by_cases isVoid : f.type = .void
      · rcases ih definesRest (roundUp o (f.type.alignment A) +
          f.type.elem_size A * f.elems) with more | none_left
        · left
          change o < rest.extent A _
          omega
        · exact .inr ⟨isVoid, none_left⟩
      · left
        have bytes := elem_size_pos (A := A) isVoid (type ▸ notStruct)
        have some_bytes := mul_pos bytes (elems_pos f)
        change o < rest.extent A _
        omega
  | nested f size alignment child rest ihChild ih =>
    cases words with
    | nil => exact defines.elim
    | cons word words =>
      obtain ⟨⟨d, inner, innerWords, _, _, _, _, _, _, _, definesChild⟩, definesRest⟩ := defines
      have up := le_roundUp o (isAlignment_fields (A := A) child).pos
      have reach := le_extent (A := A) rest
        (roundUp o (child.alignment A) + child.exactSize A * f.elems)
      rcases ihChild definesChild 0 with bytes | none_inside
      · left
        have inside := lt_of_lt_of_le bytes (extent_le_exactSize child)
        have some_bytes := mul_pos inside (elems_pos f)
        change o < rest.extent A (roundUp o (child.alignment A) + child.exactSize A * f.elems)
        omega
      · rcases ih definesRest (roundUp o (child.alignment A) +
          child.exactSize A * f.elems) with more | none_left
        · left
          change o < rest.extent A (roundUp o (child.alignment A) + child.exactSize A * f.elems)
          omega
        · exact .inr ⟨none_inside, none_left⟩

end Accepted

end Twapi.CStruct
