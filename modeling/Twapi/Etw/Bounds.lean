import Twapi.Etw.RoundTrip

/-!
What `Twapi_ParseEventMofData` reads lies in the data of the event.

* `Event.Safe` — the bytes accessed are among those that remain, and neither an
  `int` that is compared with a `size_t` nor `remain` is negative.
* `Good` — a branch of the switch whose events are safe and that eats no more
  than remains, with a rule for each way in which branches are put together.
* `Checked` — what a branch must find where the code does not check it.
* `switch_safe_iff`, `loop_safe_iff` — exactly where that is found all is safe.
-/

namespace Twapi.Etw

open Lib Int

/-! ### Safety -/

/-- The cursor is in the data. -/
structure Inside (d : EventData) (cur : Cursor) : Prop where
  start : 0 ≤ cur.bytesP
  whole : cur.bytesP + cur.remain = d.bytes.length
  left : 0 ≤ cur.remain

def Event.Safe (d : EventData) : Event → Prop
  | .access cur start count => Inside d cur ∧ (start + count : Int) ≤ cur.remain
  | .compare x => 0 ≤ x
  | .remain x => 0 ≤ x

/-- No more is eaten than remains. -/
def Switch.Within (d : EventData) : Switch → Prop
  | .done => True
  | .value _ eaten at_ => Inside d at_ ∧ 0 ≤ eaten ∧ eaten ≤ at_.remain

/-- A branch with safe events that eats no more than remains. -/
structure Good (d : EventData) (x : Traced Event Switch) : Prop where
  events : x.All (Event.Safe d)
  within : x.result.Within d

section Safety

variable {h : Host} {W : Conversions} {d : EventData} {cur : Cursor} {pointerSize : Int}

theorem Inside.small (inside : Inside d cur) : cur.remain < 2147483648 := by
  have := inside.start
  have := inside.whole
  have := d.fits
  omega

/-- An `int` of what remains is the same as a `size_t`. -/
theorem size_of_nonneg {x : Int} (nonneg : 0 ≤ x) (small : x < 2147483648) :
    h.size x = x.toNat := by
  obtain ⟨n, rfl⟩ := eq_ofNat_of_zero_le nonneg
  exact size_of_lt (by omega)

theorem Inside.size (inside : Inside d cur) : (h.size cur.remain : Int) = cur.remain := by
  rw [size_of_nonneg inside.left inside.small, toNat_of_nonneg inside.left]

theorem Inside.next (inside : Inside d cur) {eaten : Int} (some_ : 0 ≤ eaten)
    (most : eaten ≤ cur.remain) : Inside d ⟨cur.bytesP + eaten, cur.remain - eaten⟩ := by
  obtain ⟨start, whole, left⟩ := inside
  exact ⟨by dsimp only; omega, by dsimp only; omega, by dsimp only; omega⟩

/-! ### Rules -/

theorem good_done : Good d (pure .done) := ⟨Traced.all_pure _, trivial⟩

theorem good_value (inside : Inside d cur) {obj : Obj} {eaten : Int} (some_ : 0 ≤ eaten)
    (most : eaten ≤ cur.remain) : Good d (pure (.value obj eaten cur)) :=
  ⟨Traced.all_pure _, inside, some_, most⟩

theorem good_bind {α : Type} {x : Traced Event α} {f : α → Traced Event Switch}
    (first : x.All (Event.Safe d)) (rest : Good d (f x.result)) : Good d (x >>= f) :=
  ⟨(Traced.all_bind x f).mpr ⟨first, rest.events⟩, rest.within⟩

theorem good_ite {c : Prop} [Decidable c] {x y : Traced Event Switch} (left : c → Good d x)
    (right : ¬ c → Good d y) : Good d (if c then x else y) := by
  split
  · rename_i holds
    exact left holds
  · rename_i fails
    exact right fails

theorem read_safe_iff (inside : Inside d cur) {start count : Nat} :
    (read d cur start count).All (Event.Safe d) ↔ (start + count : Int) ≤ cur.remain := by
  rw [read, Traced.all_bind, Traced.all_tell]
  exact ⟨fun safe => safe.1.2, fun enough => ⟨⟨inside, enough⟩, Traced.all_pure _⟩⟩

theorem compare_safe_iff {x : Int} :
    (Traced.tell (.compare x)).All (Event.Safe d) ↔ 0 ≤ x := Traced.all_tell _

theorem short_safe (inside : Inside d cur) (size : Nat) :
    (short h cur size).All (Event.Safe d) := by
  rw [short, Traced.all_bind]
  exact ⟨compare_safe_iff.mpr inside.left, Traced.all_pure _⟩

theorem short_iff (inside : Inside d cur) {size : Nat} :
    (short h cur size).result = true ↔ cur.remain < size := by
  have same := inside.size (h := h)
  rw [short, Traced.result_bind, Traced.result_pure, decide_eq_true_iff]
  omega

theorem objFromStringLimited_safe (inside : Inside d cur) {max : Nat} (most : max ≤ cur.remain) :
    (objFromStringLimited d cur max).All (Event.Safe d) := by
  rw [objFromStringLimited, Traced.all_bind, Traced.all_tell]
  exact ⟨⟨inside, by omega⟩, Traced.all_pure _⟩

theorem objFromWinCharsLimited_safe (inside : Inside d cur) {max : Nat}
    (most : 2 * max ≤ cur.remain) : (objFromWinCharsLimited d cur max).All (Event.Safe d) := by
  rw [objFromWinCharsLimited, Traced.all_bind, Traced.all_tell]
  exact ⟨⟨inside, by omega⟩, Traced.all_pure _⟩

/-! ### Branches that check -/

theorem taking_good (inside : Inside d cur) {size : Nat} {f : List UInt8 → Obj}
    (enough : (size : Int) ≤ cur.remain) : Good d (taking d cur size f) := by
  apply good_bind
  · exact (read_safe_iff inside).mpr (by omega)
  · exact good_value inside (by omega) enough

theorem fixed_good (inside : Inside d cur) {size : Nat} {f : List UInt8 → Obj} :
    Good d (fixed h d cur size f) := by
  apply good_bind (short_safe inside size)
  apply good_ite
  · exact fun _ => good_done
  · intro enough
    rw [short_iff inside] at enough
    exact taking_good inside (by omega)

theorem length_read (p : Int) (count : Nat) : (d.read p count).length = count := by
  simp [EventData.read]

/-- What remains behind a text that was looked for in `max` characters. -/
theorem remaining_bounds {length max : Nat} (most : length ≤ max) :
    0 ≤ (if length = max then 0 else (max : Int) - length - 1) ∧
      (if length = max then 0 else (max : Int) - length - 1) ≤ max := by
  split <;> omega

theorem string_good (inside : Inside d cur) : Good d (string d cur) := by
  have left := inside.left
  have most : ((d.read cur.bytesP cur.remain.toNat).takeWhile (· ≠ 0)).length ≤
      cur.remain.toNat := by
    have fewer := (List.takeWhile_prefix (l := d.read cur.bytesP cur.remain.toNat)
      (· ≠ 0)).length_le
    rwa [length_read] at fewer
  obtain ⟨low, high⟩ := remaining_bounds most
  apply good_bind (objFromStringLimited_safe inside (by omega))
  simp only [objFromStringLimited, Traced.result_bind, Traced.result_pure]
  exact good_value inside (by omega) (by omega)

theorem wstring_good (inside : Inside d cur) : Good d (wstring h d cur) := by
  have same := inside.size (h := h)
  have most : ((units (d.read cur.bytesP (2 * (h.size cur.remain / 2)))).takeWhile
      (· ≠ 0)).length ≤ h.size cur.remain / 2 := by
    have fewer := (List.takeWhile_prefix
      (l := units (d.read cur.bytesP (2 * (h.size cur.remain / 2)))) (· ≠ 0)).length_le
    rw [length_units, length_read] at fewer
    omega
  obtain ⟨low, high⟩ := remaining_bounds most
  apply good_bind (objFromWinCharsLimited_safe inside (by omega))
  simp only [objFromWinCharsLimited, Traced.result_bind, Traced.result_pure]
  exact good_value inside (by omega) (by omega)

theorem stringcounted_good (inside : Inside d cur) {reverse : Bool} :
    Good d (stringcounted d reverse cur) := by
  apply good_ite
  · exact fun _ => good_done
  · intro two
    apply good_bind
    · exact (read_safe_iff inside).mpr (by omega)
    · generalize count reverse _ = eaten
      have most : (((if cur.remain < 2 + eaten then (cur.remain - 2).toNat else eaten : Nat) : Int) +
          2) ≤ cur.remain := by
        split <;> omega
      apply good_bind
      · exact (read_safe_iff inside).mpr (by omega)
      · exact good_value inside (by omega) most

theorem wstringcounted_good (inside : Inside d cur) {reverse : Bool} :
    Good d (wstringcounted h d reverse cur) := by
  apply good_ite
  · exact fun _ => good_done
  · intro two
    have small := inside.small
    have same : (h.size (cur.remain - 2) : Int) = cur.remain - 2 := by
      rw [size_of_nonneg (by omega) (by omega), toNat_of_nonneg (by omega)]
    apply good_bind
    · exact (read_safe_iff inside).mpr (by omega)
    · generalize count reverse _ = eaten
      apply good_bind (compare_safe_iff.mpr (by omega))
      apply good_ite
      · intro truncated
        apply good_bind
        · exact (read_safe_iff inside).mpr (by omega)
        · exact good_value inside (by omega) (le_refl _)
      · intro whole
        apply good_bind
        · exact (read_safe_iff inside).mpr (by omega)
        · exact good_value inside (by omega) (by omega)

theorem stringnotcounted_good (inside : Inside d cur) : Good d (stringnotcounted d cur) := by
  have left := inside.left
  apply good_bind
  · exact (read_safe_iff inside).mpr (by omega)
  · exact good_value inside left (le_refl _)

theorem wstringnotcounted_good (inside : Inside d cur) : Good d (wstringnotcounted h d cur) := by
  have left := inside.left
  have same := inside.size (h := h)
  apply good_bind
  · exact (read_safe_iff inside).mpr (by omega)
  · exact good_value inside left (le_refl _)

/-! ### Branches that do not -/

/-- The number that a variant or a SID begins with. -/
def EventData.ulong (d : EventData) (cur : Cursor) : Nat := ofBytes (d.read cur.bytesP 4)

/-- What the code does not check: a variant has a length, which is no negative
`int`; a SID that is not empty has a `TOKEN_USER`, and a pointer all its bytes. -/
def Checked (d : EventData) (pointerSize : Int) (cur : Cursor) : MofType → Prop
  | .objectvariant => 4 ≤ cur.remain ∧ d.ulong cur < 2147483648
  | .objectsid => cur.remain < 4 ∨ d.ulong cur = 0 ∨ pointerSize * 2 ≤ cur.remain
  | .pointer => pointerSize ≤ cur.remain
  | _ => True

theorem variantOfLength_good (inside : Inside d cur) {eaten : Int} (nonneg : 0 ≤ eaten)
    (small : eaten < 2147483648) : Good d (variantOfLength h d cur eaten) := by
  obtain ⟨n, rfl⟩ := eq_ofNat_of_zero_le nonneg
  have same := inside.size (h := h)
  have sum : (h.size n + 4) % 2 ^ h.bits = n + 4 := size_add_four (by omega)
  apply good_bind (compare_safe_iff.mpr inside.left)
  apply good_bind (compare_safe_iff.mpr nonneg)
  apply good_ite
  · exact fun _ => good_done
  · rw [sum]
    intro whole
    apply good_bind
    · exact (read_safe_iff inside).mpr (by rw [toNat_natCast]; omega)
    · exact good_value inside (by omega) (by omega)

theorem ulong_lt (d : EventData) (cur : Cursor) : d.ulong cur < 4294967296 := by
  have less := ofBytes_lt (d.read cur.bytesP 4)
  rwa [length_read] at less

/-- The length of a variant, stored into an `int`. -/
theorem toInt_ulong (d : EventData) (cur : Cursor) :
    0 ≤ Base.toInt (d.ulong cur) ↔ d.ulong cur < 2147483648 := by
  have less := ulong_lt d cur
  unfold Base.toInt
  omega

theorem objectvariant_good (inside : Inside d cur)
    (checked : Checked d pointerSize cur .objectvariant) : Good d (objectvariant h d cur) := by
  obtain ⟨four, small⟩ := checked
  have nonneg := (toInt_ulong d cur).mpr small
  have high : Base.toInt (d.ulong cur) < 2147483648 := by
    unfold Base.toInt
    omega
  rw [objectvariant]
  apply good_bind
  · exact (read_safe_iff inside).mpr (by omega)
  · rw [read_result, Int.natCast_zero, Int.add_zero]
    exact variantOfLength_good inside nonneg high

theorem objectvariant_checked (inside : Inside d cur)
    (safe : (objectvariant h d cur).All (Event.Safe d)) :
    Checked d pointerSize cur .objectvariant := by
  rw [objectvariant, Traced.all_bind, read_safe_iff inside, read_result, Int.natCast_zero,
    add_zero, variantOfLength, Traced.all_bind, Traced.all_bind, compare_safe_iff,
    compare_safe_iff] at safe
  obtain ⟨four, -, nonneg, -⟩ := safe
  exact ⟨by omega, (toInt_ulong d cur).mp nonneg⟩

theorem behindTokenUser_good (inside : Inside d cur) : Good d (behindTokenUser h W d cur) := by
  have same := inside.size (h := h)
  apply good_bind (short_safe inside 12)
  apply good_ite
  · exact fun _ => good_done
  · intro _
    apply good_bind (compare_safe_iff.mpr inside.left)
    apply good_bind
    · exact (read_safe_iff inside).mpr (by split <;> omega)
    · generalize (read d cur 0 _).result = buf
      apply good_ite
      · exact fun _ => good_done
      · intro _
        apply good_bind (compare_safe_iff.mpr (natCast_nonneg _))
        apply good_ite
        · exact fun _ => good_done
        · intro fits
          exact good_value inside (natCast_nonneg _) (not_lt.mp (not_or.mp fits).2)

theorem objectsid_good (inside : Inside d cur) (pos : 0 ≤ pointerSize)
    (checked : Checked d pointerSize cur .objectsid) :
    Good d (objectsid h W d pointerSize cur) := by
  apply good_bind (short_safe inside 4)
  apply good_ite
  · exact fun _ => good_done
  · intro four
    rw [short_iff inside] at four
    apply good_bind
    · exact (read_safe_iff inside).mpr (by omega)
    · rw [read_result, Int.natCast_zero, Int.add_zero]
      apply good_ite
      · exact fun _ => good_value inside (by decide) (by omega)
      · intro begins
        have room : pointerSize * 2 ≤ cur.remain := by
          rcases checked with few | zero | room
          · omega
          · exact absurd zero begins
          · exact room
        apply good_bind
        · exact (Traced.all_tell _).mpr (sub_nonneg.mpr room)
        · exact behindTokenUser_good (inside.next (by omega) room)

theorem objectsid_checked (inside : Inside d cur)
    (safe : (objectsid h W d pointerSize cur).All (Event.Safe d)) :
    Checked d pointerSize cur .objectsid := by
  by_cases few : cur.remain < 4
  · exact .inl few
  by_cases zero : d.ulong cur = 0
  · exact .inr (.inl zero)
  have long : ¬ (short h cur 4).result = true := by
    rw [short_iff inside]
    exact few
  rw [objectsid, Traced.all_bind, if_neg long, Traced.all_bind, read_result, Int.natCast_zero,
    add_zero] at safe
  have behind := safe.2.2
  have begins : ¬ ofBytes (d.read cur.bytesP 4) = 0 := zero
  rw [if_neg begins, Traced.all_bind, Traced.all_tell] at behind
  exact .inr (.inr (sub_nonneg.mp behind.1))

theorem pointer_good (inside : Inside d cur) (width : pointerSize = 4 ∨ pointerSize = 8)
    (checked : Checked d pointerSize cur .pointer) :
    Good d (switch h W d pointerSize cur .pointer) := by
  simp only [Checked] at checked
  apply good_ite
  · intro eight
    apply good_bind
    · exact (read_safe_iff inside).mpr (by omega)
    · exact good_value inside (by omega) checked
  · intro four
    apply good_bind
    · exact (read_safe_iff inside).mpr (by omega)
    · exact good_value inside (by omega) checked

theorem pointer_checked (inside : Inside d cur) (width : pointerSize = 4 ∨ pointerSize = 8)
    (safe : (switch h W d pointerSize cur .pointer).All (Event.Safe d)) :
    Checked d pointerSize cur .pointer := by
  simp only [Checked]
  rcases width with rfl | rfl
  · rw [switch, if_neg (by decide), Traced.all_bind, read_safe_iff inside] at safe
    omega
  · rw [switch, if_pos rfl, Traced.all_bind, read_safe_iff inside] at safe
    omega

/-! ### The switch -/

theorem switch_good (inside : Inside d cur) (width : pointerSize = 4 ∨ pointerSize = 8)
    {mof : MofType} (checked : Checked d pointerSize cur mof) (more : 0 < cur.remain) :
    Good d (switch h W d pointerSize cur mof) := by
  cases mof with
  | string => exact string_good inside
  | wstring => exact wstring_good inside
  | stringcounted | stringreversecounted => exact stringcounted_good inside
  | wstringcounted | wstringreversecounted => exact wstringcounted_good inside
  | sint8 | uint8 | csint8 | cuint8 => exact taking_good inside more
  | real32 | real64 =>
    apply good_ite
    · exact fun _ => good_done
    · intro enough
      exact taking_good inside (not_lt.mp enough)
  | object | datetime => exact good_done
  | objectvariant => exact objectvariant_good inside checked
  | objectsid => exact objectsid_good inside (by omega) checked
  | stringnotcounted => exact stringnotcounted_good inside
  | wstringnotcounted => exact wstringnotcounted_good inside
  | pointer => exact pointer_good inside width checked
  | boolean | sint16 | uint16 | sint32 | uint32 | sint64 | uint64 | xsint16 | xuint16 | xsint32
  | xuint32 | xsint64 | xuint64 | char16 | uint8guid | objectguid | objectipaddr | objectipaddrv6
  | uint64wmitime | objectwmitime | uint16port | objectport => exact fixed_good inside

/-- A branch is safe exactly where it finds what it does not check. -/
theorem switch_safe_iff (inside : Inside d cur) (width : pointerSize = 4 ∨ pointerSize = 8)
    {mof : MofType} (more : 0 < cur.remain) :
    (switch h W d pointerSize cur mof).All (Event.Safe d) ↔ Checked d pointerSize cur mof := by
  constructor
  · intro safe
    cases mof with
    | objectvariant => exact objectvariant_checked inside safe
    | objectsid => exact objectsid_checked inside safe
    | pointer => exact pointer_checked inside width safe
    | _ => trivial
  · intro checked
    exact (switch_good inside width checked more).events

/-! ### The loop -/

variable {T : Base.Tcl} {dict : Dict}

/-- The types that are decoded, each with the cursor it is decoded at. -/
def visited (T : Base.Tcl) (h : Host) (W : Conversions) (d : EventData) (pointerSize : Int) :
    List (String × String) → Cursor → List (MofType × Cursor)
  | [], _ => []
  | (_, type) :: fields, cur =>
    if 0 < cur.remain then
      match (T.asInt type).bind MofType.ofEnum with
      | none => []
      | some mof =>
        (mof, cur) :: match (switch h W d pointerSize cur mof).result with
          | .done => []
          | .value _ eaten at_ =>
            visited T h W d pointerSize fields ⟨at_.bytesP + eaten, at_.remain - eaten⟩
    else []

/-- The loop makes no more turns than there are descriptors. -/
theorem visited_length_le (fields : List (String × String)) (cur : Cursor) :
    (visited T h W d pointerSize fields cur).length ≤ fields.length := by
  induction fields generalizing cur with
  | nil => exact Nat.le_refl _
  | cons field fields ih =>
    rw [visited]
    split
    · split
      · exact Nat.zero_le _
      · rw [List.length_cons, List.length_cons]
        apply Nat.succ_le_succ
        split
        · exact Nat.zero_le _
        · exact ih _
    · exact Nat.zero_le _

/-- The events of a turn that decodes a type. -/
theorem loop_turn_safe_iff {name type : String} {fields : List (String × String)} {mof : MofType}
    (more : 0 < cur.remain) (label : (T.asInt type).bind MofType.ofEnum = some mof) :
    (loop T h W d pointerSize ((name, type) :: fields) cur dict).All (Event.Safe d) ↔
      (switch h W d pointerSize cur mof).All (Event.Safe d) ∧
        match (switch h W d pointerSize cur mof).result with
        | .done => True
        | .value obj eaten at_ => 0 ≤ at_.remain - eaten ∧
            (loop T h W d pointerSize fields ⟨at_.bytesP + eaten, at_.remain - eaten⟩
              (dict.put name obj)).All (Event.Safe d) := by
  obtain ⟨n, typeenum, labelled⟩ := Option.bind_eq_some_iff.mp label
  rw [loop, if_pos more, typeenum]
  split
  · rename_i none_
    cases none_
  · rename_i zero
    cases zero
    cases labelled
  · rename_i equal
    cases equal
    rw [labelled]
    dsimp only
    rw [Traced.all_bind]
    apply and_congr_right
    intro _
    cases (switch h W d pointerSize cur mof).result with
    | done => exact iff_of_true (Traced.all_pure _) trivial
    | value obj eaten at_ =>
      dsimp only
      rw [Traced.all_bind, Traced.all_tell, Traced.all_bind]
      exact and_congr_right fun _ => and_iff_left (Traced.all_pure _)

/-- A turn that decodes nothing reads nothing. -/
theorem loop_stop_safe {name type : String} {fields : List (String × String)}
    (label : (T.asInt type).bind MofType.ofEnum = none) :
    (loop T h W d pointerSize ((name, type) :: fields) cur dict).All (Event.Safe d) := by
  rw [loop]
  apply Traced.all_ite
  · split
    · exact Traced.all_pure _
    · exact Traced.all_pure _
    · rename_i n _ typeenum
      rw [typeenum] at label
      rw [show MofType.ofEnum n = none from label]
      exact Traced.all_pure _
  · exact Traced.all_pure _

/-- By induction on the fields: as long as every branch finds what it does not
check, the cursor stays in the data. -/
theorem loop_safe_iff (width : pointerSize = 4 ∨ pointerSize = 8)
    (fields : List (String × String)) (inside : Inside d cur) :
    (loop T h W d pointerSize fields cur dict).All (Event.Safe d) ↔
      ∀ v ∈ visited T h W d pointerSize fields cur, Checked d pointerSize v.2 v.1 := by
  induction fields generalizing cur dict with
  | nil => exact iff_of_true (Traced.all_pure _) (List.forall_mem_nil _)
  | cons field fields ih =>
    obtain ⟨name, type⟩ := field
    by_cases more : 0 < cur.remain
    · cases label : (T.asInt type).bind MofType.ofEnum with
      | none =>
        rw [visited, if_pos more, label]
        exact iff_of_true (loop_stop_safe label) (List.forall_mem_nil _)
      | some mof =>
        rw [loop_turn_safe_iff more label, visited, if_pos more, label, List.forall_mem_cons,
          switch_safe_iff inside width more]
        apply and_congr_right
        intro checked
        have within := (switch_good (h := h) (W := W) inside width checked more).within
        cases result : (switch h W d pointerSize cur mof).result with
        | done => exact iff_of_true trivial (List.forall_mem_nil _)
        | value obj eaten at_ =>
          rw [result] at within
          obtain ⟨at_inside, some_, most⟩ := within
          dsimp only
          rw [← ih (at_inside.next some_ most)]
          exact and_iff_right (sub_nonneg.mpr most)
    · rw [loop, visited, if_neg more, if_neg more]
      exact iff_of_true (Traced.all_pure _) (List.forall_mem_nil _)

end Safety

/-! ### The command -/

/-- The arguments of the command pass its checks. -/
structure Accepted (T : Base.Tcl) (objc : Nat) (fields pointerSize : String)
    (types : List String) (size : Int) : Prop where
  objc : objc = 4
  listed : T.asList fields = some types
  sized : T.asInt pointerSize = some size
  even : ¬ types.length % 2 = 1
  width : size = 4 ∨ size = 8

/-- For any data, the loop ends after as many turns as there are descriptors at
the most; and the command reads inside the data and keeps `remain` and what it
compares from being negative, if and only if every type that is decoded finds
what its branch does not check. -/
theorem parseEventMofData_safe_iff (T : Base.Tcl) (h : Host) (W : Conversions) (d : EventData)
    (objc : Nat) (fields pointerSize : String) :
    (∀ types size, (visited T h W d size (pairs types) ⟨0, d.bytes.length⟩).length ≤
      (pairs types).length) ∧
    ((parseEventMofData T h W d objc fields pointerSize).All (Event.Safe d) ↔
      ∀ types size, Accepted T objc fields pointerSize types size →
        ∀ v ∈ visited T h W d size (pairs types) ⟨0, d.bytes.length⟩,
          Checked d size v.2 v.1) := by
  refine ⟨fun types size => visited_length_le _ _, ?_⟩
  by_cases accepted : ∃ types size, Accepted T objc fields pointerSize types size
  · obtain ⟨types, size, accepted⟩ := accepted
    have width : ¬ (size ≠ 4 ∧ size ≠ 8) := by
      have := accepted.width
      omega
    have inside : Inside d ⟨0, d.bytes.length⟩ :=
      ⟨le_refl _, zero_add _, natCast_nonneg _⟩
    have run : (parseEventMofData T h W d objc fields pointerSize).All (Event.Safe d) ↔
        (loop T h W d size (pairs types) ⟨0, d.bytes.length⟩ []).All (Event.Safe d) := by
      rw [parseEventMofData, if_neg (not_not.mpr accepted.objc), accepted.listed, accepted.sized]
      dsimp only
      rw [if_neg accepted.even, if_neg width, Traced.all_bind, Traced.all_tell]
      exact and_iff_right (natCast_nonneg _)
    rw [run, loop_safe_iff accepted.width _ inside]
    constructor
    · rintro checked types' size' accepted'
      cases accepted.listed.symm.trans accepted'.listed
      cases accepted.sized.symm.trans accepted'.sized
      exact checked
    · intro checked
      exact checked types size accepted
  · refine iff_of_true ?_ fun types size accepted' => absurd ⟨types, size, accepted'⟩ accepted
    unfold parseEventMofData
    split
    · exact Traced.all_pure _
    · rename_i four
      split
      · exact Traced.all_pure _
      · exact Traced.all_pure _
      · rename_i types size listed sized
        split
        · exact Traced.all_pure _
        · rename_i even
          split
          · exact Traced.all_pure _
          · rename_i width
            exact absurd ⟨types, size, not_not.mp four, listed, sized, even, by omega⟩ accepted

/-- A variant in one byte of data: its length is read behind the end. -/
theorem variant_reads_behind :
    ¬ ∀ (T : Base.Tcl) (h : Host) (W : Conversions) (d : EventData) (objc : Nat)
      (fields pointerSize : String),
      (parseEventMofData T h W d objc fields pointerSize).All (Event.Safe d) := by
  intro claim
  have safe := claim someTcl .x64 someConversions ⟨[7], by decide, fun _ => 0⟩ 4 "v 32" "4"
    (.access ⟨0, 1⟩ 0 4) (by decide)
  exact absurd safe.2 (by decide)

end Twapi.Etw
