import Mathlib.Data.List.Count
import Mathlib.Tactic.Ring

/-!
Batches of enumerators: `TwapiIEnumNextHelper` of `com/com.c`.

* An enumerator is what it has not handed out yet. `Next` hands out as many elements as
  there are up to the count, and succeeds with `S_OK` when that is the count.
* `Elem` — an element, with the references and the memory that are handed out with it.
  An object in a result is known by the element it is made of.
* `Proper` — the sequence comes through, and nothing of it is lost.
* `enumeration_proper_iff` — which elements come through in which batches.
-/

namespace Twapi.Com.EnumNext

open List

/-! ### Elements -/

inductive Resource where
  | interface (p : Nat)
  | bstr (b : Nat)
  | array (a : Nat)
  | record (r : Nat)
deriving DecidableEq

/-- What a VARIANT refers to. Of an array, `elems` are what its elements own. The copy of
a record is what `RecordCreateCopy` makes of it. -/
inductive Content where
  | plain
  | bstr (b : Nat)
  | interface (p : Nat)
  | byRef (p : Nat)
  | array (a : Nat) (elems : List Resource)
  | record (info data copy : Option Nat)
deriving DecidableEq

/-- A value is that of a VARIANT as far as it is no reference. -/
inductive Elem (D : Type) where
  | connectData (pUnk : Option Nat) (dwCookie : Nat)
  | variant (content : Content) (value : D)
  | connectionPoint (p : Option Nat)
deriving DecidableEq

def Content.owned : Content → List Resource
  | .plain | .byRef _ => []
  | .bstr b => [.bstr b]
  | .interface p => [.interface p]
  | .array a elems => .array a :: elems
  | .record info data _ => info.toList.map .interface ++ data.toList.map .record

variable {D : Type}

def Elem.owned : Elem D → List Resource
  | .connectData pUnk _ => pUnk.toList.map .interface
  | .variant content _ => content.owned
  | .connectionPoint p => p.toList.map .interface

/-- The type code of its enumerator -/
def Elem.enumType : Elem D → Nat
  | .connectData .. => 0
  | .variant .. => 1
  | .connectionPoint _ => 2

/-! ### Conversion -/

/-- The object that is appended, the references and copies that are made for it, those that
reach the script, and what is released. -/
structure Converted (D : Type) where
  item : Option (Elem D)
  acquired : List Resource
  delivered : List Resource
  released : List Resource
deriving DecidableEq

def Resource.isInterface : Resource → Bool
  | .interface _ => true
  | _ => false

/-- References that `ObjFromVARIANT` acquires -/
def Content.acquired : Content → List Resource
  | .byRef p => [.interface p]
  | .array _ elems => elems.filter Resource.isInterface
  | .record (some _) (some _) (some copy) => [.record copy]
  | _ => []

/-- References that are in its object -/
def Content.delivered : Content → List Resource
  | .interface p => [.interface p]
  | .byRef p => [.interface p]
  | .array _ elems => elems.filter Resource.isInterface
  | .record (some info) (some _) (some copy) => [.interface info, .record copy]
  | _ => []

/-- `VariantClear`, of a string only -/
def Content.cleared : Content → List Resource
  | .bstr b => [.bstr b]
  | _ => []

/-- The second `switch` -/
def convert (enumType : Nat) (e : Elem D) : Converted D :=
  match enumType, e with
  | 0, .connectData pUnk dwCookie =>
    ⟨some (.connectData pUnk dwCookie), [], pUnk.toList.map .interface, []⟩
  | 1, .variant content value =>
    ⟨some (.variant content value), content.acquired, content.delivered, content.cleared⟩
  | 3, .connectionPoint p => ⟨some (.connectionPoint p), [], p.toList.map .interface, []⟩
  | _, _ => ⟨none, [], [], []⟩

/-! ### The helper -/

/-- The size of a pointer, and for which sizes there is memory -/
structure Env where
  ptr : Nat
  allocates : Nat → Bool

structure State (D : Type) where
  rest : List (Elem D)
  handedOut : List Resource
  acquired : List Resource
  delivered : List Resource
  released : List Resource
deriving DecidableEq

/-- The flag and the objects, or an error. -/
inductive Answer (D : Type) where
  | ok (more : Bool) (items : List (Elem D))
  | systemError (hr : Nat)
  | unknownEnumType
deriving DecidableEq

/-- A call; a failure is what `Next` fails with. -/
structure Call where
  count : Nat
  failure : Option Nat
deriving DecidableEq

def elemSize (env : Env) : (enumType : Nat) → Option Nat
  | 0 => some (2 * env.ptr)
  | 1 => some (8 + 2 * env.ptr)
  | 2 => some env.ptr
  | _ => none

/-- `MemLifoPushFrame`; without memory it panics. -/
def memLifoPushFrame (env : Env) (sz : Nat) : Option Nat :=
  if sz > 2 ^ 31 - 1 then none else if env.allocates sz then some sz else none

/-- The elements are handed out, and each is converted. -/
def State.take (s : State D) (enumType count : Nat) : State D :=
  let got := s.rest.take count
  { rest := s.rest.drop count
    handedOut := s.handedOut ++ got.flatMap Elem.owned
    acquired := s.acquired ++ got.flatMap fun e => (convert enumType e).acquired
    delivered := s.delivered ++ got.flatMap fun e => (convert enumType e).delivered
    released := s.released ++ got.flatMap fun e => (convert enumType e).released }

/-- `TwapiIEnumNextHelper`; `none` is a panic, or a write beyond the frame. -/
def twapiIEnumNextHelper (env : Env) (enumType : Nat) (call : Call) (s : State D) :
    Option (Answer D × State D) :=
  if call.count = 0 then some (.ok true [], s)
  else
    match elemSize env enumType with
    | none => some (.unknownEnumType, s)
    | some size =>
      match memLifoPushFrame env (call.count * size % 2 ^ 32) with
      | none => none
      | some frame =>
        if frame < call.count * size then none
        else
          match call.failure with
          | some hr => some (.systemError hr, s)
          | none =>
            let got := s.rest.take call.count
            some (.ok (got.length = call.count)
              (got.filterMap fun e => (convert enumType e).item),
              s.take enumType call.count)

def run (env : Env) (enumType : Nat) : List Call → State D → Option (List (Answer D) × State D)
  | [], s => some ([], s)
  | call :: calls, s =>
    match twapiIEnumNextHelper env enumType call s with
    | none => none
    | some (answer, s) =>
      match run env enumType calls s with
      | none => none
      | some (answers, s) => some (answer :: answers, s)

def start (sequence : List (Elem D)) : State D := ⟨sequence, [], [], [], []⟩

/-! ### What is asked for -/

def Answer.items : Answer D → List (Elem D)
  | .ok _ items => items
  | _ => []

def Answer.more : Answer D → Option Bool
  | .ok more _ => some more
  | _ => none

def Call.asked (call : Call) : Nat := if call.failure.isNone then call.count else 0

/-- The elements that are asked for in all -/
def asked : List Call → Nat
  | [] => 0
  | call :: calls => call.asked + asked calls

/-- The flag is true as long as the elements are enough for the count. -/
def flags : (left : Nat) → List Call → List (Option Bool)
  | _, [] => []
  | left, call :: calls =>
    (if call.failure.isNone then some (call.count ≤ left : Bool)
      else if call.count = 0 then some true else none) :: flags (left - call.asked) calls

structure Proper (sequence : List (Elem D)) (calls : List Call) (answers : List (Answer D))
    (s : State D) : Prop where
  items : answers.flatMap Answer.items = sequence.take (asked calls)
  flags : answers.map Answer.more = flags sequence.length calls
  balanced : ∀ r, (s.handedOut ++ s.acquired).count r = (s.delivered ++ s.released).count r

/-! ### Runs -/

/-- The frame holds the elements. -/
def Fits (env : Env) (size : Nat) (call : Call) : Prop :=
  call.count = 0 ∨
    call.count * size < 2 ^ 31 ∧ env.allocates (call.count * size) = true

@[simp] theorem State.take_zero (s : State D) (enumType : Nat) : s.take enumType 0 = s := by
  simp [State.take]

theorem State.take_take (s : State D) (enumType m n : Nat) :
    (s.take enumType m).take enumType n = s.take enumType (m + n) := by
  simp [State.take, take_add, drop_drop]

variable {env : Env} {enumType size : Nat}

theorem memLifoPushFrame_eq_some {sz frame : Nat} (pushed : memLifoPushFrame env sz = some frame) :
    frame = sz ∧ sz < 2 ^ 31 ∧ env.allocates sz = true := by
  unfold memLifoPushFrame at pushed
  split at pushed
  · cases pushed
  · split at pushed
    · cases pushed
      exact ⟨rfl, by omega, ‹_›⟩
    · cases pushed

theorem helper_isSome_iff (known : elemSize env enumType = some size) (call : Call) (s : State D) :
    (twapiIEnumNextHelper env enumType call s).isSome = true ↔ Fits env size call := by
  unfold twapiIEnumNextHelper Fits
  rw [known]
  by_cases zero : call.count = 0
  · rw [if_pos zero]
    exact iff_of_true rfl (.inl zero)
  · rw [if_neg zero]
    dsimp only
    cases pushed : memLifoPushFrame env (call.count * size % 2 ^ 32) with
    | none =>
      refine iff_of_false Bool.false_ne_true fun fits => ?_
      obtain ⟨small, memory⟩ := fits.resolve_left zero
      rw [Nat.mod_eq_of_lt (by omega), memLifoPushFrame, if_neg (by omega), if_pos memory]
        at pushed
      cases pushed
    | some frame =>
      obtain ⟨rfl, small, memory⟩ := memLifoPushFrame_eq_some pushed
      dsimp only
      split
      · rename_i less
        refine iff_of_false Bool.false_ne_true fun fits => ?_
        obtain ⟨small, -⟩ := fits.resolve_left zero
        rw [Nat.mod_eq_of_lt (by omega)] at less
        exact Nat.lt_irrefl _ less
      · rename_i enough
        have same : call.count * size % 2 ^ 32 = call.count * size :=
          Nat.le_antisymm (Nat.mod_le _ _) (Nat.le_of_not_lt enough)
        rw [same] at small memory
        refine iff_of_true ?_ (.inr ⟨small, memory⟩)
        cases call.failure <;> rfl

theorem helper_eq_some (known : elemSize env enumType = some size) {call : Call} {s s' : State D}
    {answer : Answer D} (ended : twapiIEnumNextHelper env enumType call s = some (answer, s')) :
    s' = s.take enumType call.asked ∧
      answer.items = (s.rest.take call.asked).filterMap (fun e => (convert enumType e).item) ∧
      answer.more =
        if call.failure.isNone then some (call.count ≤ s.rest.length : Bool)
        else if call.count = 0 then some true else none := by
  unfold twapiIEnumNextHelper at ended
  rw [known] at ended
  by_cases zero : call.count = 0
  · rw [if_pos zero] at ended
    cases ended
    have nothing : call.asked = 0 := by unfold Call.asked; split <;> simp [zero]
    rw [nothing, State.take_zero, zero]
    exact ⟨rfl, rfl, by simp [Answer.more]⟩
  · rw [if_neg zero] at ended
    dsimp only at ended
    split at ended
    · cases ended
    · split at ended
      · cases ended
      · cases failure : call.failure with
        | some hr =>
          rw [failure] at ended
          cases ended
          rw [Call.asked, failure]
          exact ⟨(State.take_zero s enumType).symm, rfl, by simp [Answer.more, zero]⟩
        | none =>
          rw [failure] at ended
          cases ended
          rw [Call.asked, failure]
          refine ⟨rfl, rfl, ?_⟩
          simp only [Answer.more, Option.isNone_none, if_true, length_take]
          exact congrArg some (decide_eq_decide.mpr (by omega))

/-- What is handed out and converted in a run, with the flags. -/
theorem run_eq_some (known : elemSize env enumType = some size) {calls : List Call}
    {s s' : State D} {answers : List (Answer D)}
    (ended : run env enumType calls s = some (answers, s')) :
    s' = s.take enumType (asked calls) ∧
      answers.flatMap Answer.items =
        (s.rest.take (asked calls)).filterMap (fun e => (convert enumType e).item) ∧
      answers.map Answer.more = flags s.rest.length calls := by
  induction calls generalizing s answers with
  | nil =>
    cases ended
    exact ⟨(State.take_zero s' enumType).symm, rfl, rfl⟩
  | cons call calls ih =>
    unfold run at ended
    split at ended
    · cases ended
    · rename_i answer mid first
      split at ended
      · cases ended
      · rename_i later last rest
        cases ended
        obtain ⟨rfl, items, more⟩ := helper_eq_some known first
        obtain ⟨rfl, laterItems, laterFlags⟩ := ih rest
        refine ⟨State.take_take .., ?_, ?_⟩
        · rw [flatMap_cons, items, laterItems, asked, take_add, filterMap_append]
          rfl
        · rw [map_cons, more, laterFlags, flags]
          exact congrArg (fun left => _ :: flags left calls) (length_drop ..)

theorem run_isSome_iff (known : elemSize env enumType = some size) (calls : List Call)
    (s : State D) :
    (run env enumType calls s).isSome = true ↔ ∀ call ∈ calls, Fits env size call := by
  induction calls generalizing s with
  | nil => exact iff_of_true rfl (fun _ mem => nomatch mem)
  | cons call calls ih =>
    rw [forall_mem_cons, ← helper_isSome_iff known call s, run]
    cases first : twapiIEnumNextHelper env enumType call s with
    | none => simp
    | some result =>
      obtain ⟨answer, mid⟩ := result
      rw [← ih mid]
      cases rest : run env enumType calls mid <;> simp [rest]

/-! ### What is kept -/

/-- What is neither in the object nor released. -/
def Content.left : Content → List Resource
  | .array a elems => .array a :: elems
  | .record (some _) (some data) (some _) => [.record data]
  | .record info data _ => info.toList.map .interface ++ data.toList.map .record
  | _ => []

theorem Content.count_left (content : Content) (r : Resource) :
    (content.owned ++ content.acquired).count r =
      (content.delivered ++ content.cleared).count r + content.left.count r := by
  cases content with
  | plain | bstr | interface | byRef =>
    simp [owned, acquired, delivered, cleared, left]
  | array a elems =>
    simp only [owned, acquired, delivered, cleared, left, append_nil, count_append]
    omega
  | record info data copy =>
    cases info <;> cases data <;> cases copy <;>
      simp [owned, acquired, delivered, cleared, left, count_cons]
    omega

/-- Neither an array nor a record -/
def Content.isKept : Content → Bool
  | .array .. => false
  | .record info data _ => info.isNone && data.isNone
  | _ => true

theorem Content.left_eq_nil_iff (content : Content) :
    content.left = [] ↔ content.isKept = true := by
  cases content with
  | plain | bstr | interface | byRef => simp [left, isKept]
  | array a elems => simp [left, isKept]
  | record info data copy =>
    cases info <;> cases data <;> cases copy <;> simp [left, isKept]

def Elem.left : Elem D → List Resource
  | .connectData .. => []
  | .variant content _ => content.left
  | .connectionPoint p => p.toList.map .interface

/-- A connection, or a VARIANT that is neither an array nor a record. -/
def Elem.isKept : Elem D → Bool
  | .connectData .. => true
  | .variant content _ => content.isKept
  | .connectionPoint _ => false

theorem Elem.count_left (e : Elem D) (r : Resource) :
    (e.owned ++ (convert e.enumType e).acquired).count r =
      ((convert e.enumType e).delivered ++ (convert e.enumType e).released).count r +
        e.left.count r := by
  cases e with
  | connectData pUnk dwCookie => simp [owned, convert, enumType, left]
  | variant content value => exact content.count_left r
  | connectionPoint p => simp [owned, convert, enumType, left]

theorem Elem.isKept_iff (e : Elem D) :
    e.isKept = true ↔ (convert e.enumType e).item = some e ∧ e.left = [] := by
  cases e with
  | connectData pUnk dwCookie => simp [isKept, convert, enumType, left]
  | variant content value => simp [isKept, convert, enumType, left, content.left_eq_nil_iff]
  | connectionPoint p => simp [isKept, convert, enumType]

theorem item_eq (e : Elem D) :
    (convert e.enumType e).item = none ∨ (convert e.enumType e).item = some e := by
  cases e with
  | connectData pUnk dwCookie => exact .inr rfl
  | variant content value => exact .inr rfl
  | connectionPoint p => exact .inl rfl

theorem count_take {got : List (Elem D)} (kinds : ∀ e ∈ got, e.enumType = enumType)
    (r : Resource) :
    (got.flatMap Elem.owned ++ got.flatMap fun e => (convert enumType e).acquired).count r =
      ((got.flatMap fun e => (convert enumType e).delivered) ++
        got.flatMap fun e => (convert enumType e).released).count r +
        (got.flatMap Elem.left).count r := by
  induction got with
  | nil => rfl
  | cons e got ih =>
    rw [forall_mem_cons] at kinds
    have rest := ih kinds.2
    have first := e.count_left r
    rw [kinds.1] at first
    simp only [flatMap_cons, count_append] at first rest ⊢
    omega

theorem items_eq_iff {got : List (Elem D)} (kinds : ∀ e ∈ got, e.enumType = enumType) :
    got.filterMap (fun e => (convert enumType e).item) = got ↔
      ∀ e ∈ got, (convert enumType e).item = some e := by
  induction got with
  | nil => exact iff_of_true rfl (fun _ mem => nomatch mem)
  | cons e got ih =>
    rw [forall_mem_cons] at kinds ⊢
    rw [← ih kinds.2]
    rcases item_eq e with missing | there
    · rw [kinds.1] at missing
      simp only [filterMap_cons, missing]
      refine iff_of_false (fun same => ?_) (fun both => nomatch both.1)
      have shorter := length_filterMap_le (fun e => (convert enumType e).item) got
      rw [same, length_cons] at shorter
      omega
    · rw [kinds.1] at there
      simp only [filterMap_cons, there, cons_inj_right, true_and]

/-- The enumeration is proper where all frames hold their elements, and where nothing that
is handed out is a connection point, an array or a record. -/
theorem enumeration_proper_iff (known : elemSize env enumType = some size)
    {sequence : List (Elem D)} (kinds : ∀ e ∈ sequence, e.enumType = enumType)
    (calls : List Call) :
    (∃ answers s, run env enumType calls (start sequence) = some (answers, s) ∧
        Proper sequence calls answers s) ↔
      (∀ call ∈ calls, Fits env size call) ∧
        ∀ e ∈ sequence.take (asked calls), e.isKept = true := by
  have gotKinds (e) (mem : e ∈ sequence.take (asked calls)) : e.enumType = enumType :=
    kinds e (mem_of_mem_take mem)
  have kept_iff : (∀ e ∈ sequence.take (asked calls), e.isKept = true) ↔
      (∀ e ∈ sequence.take (asked calls), (convert enumType e).item = some e) ∧
        ∀ e ∈ sequence.take (asked calls), e.left = [] := by
    rw [← forall₂_and]
    refine forall₂_congr fun e mem => ?_
    rw [e.isKept_iff, gotKinds e mem]
  have none_left_iff : (∀ e ∈ sequence.take (asked calls), e.left = []) ↔
      ∀ r, ((sequence.take (asked calls)).flatMap Elem.left).count r = 0 := by
    rw [← flatMap_eq_nil_iff, eq_nil_iff_forall_not_mem]
    exact forall_congr' fun r => count_eq_zero.symm
  rw [kept_iff, none_left_iff, ← items_eq_iff gotKinds, ← run_isSome_iff known calls
    (start sequence), Option.isSome_iff_exists]
  constructor
  · rintro ⟨answers, s, ended, proper⟩
    obtain ⟨rfl, items, -⟩ := run_eq_some known ended
    refine ⟨⟨_, ended⟩, items.symm.trans proper.items, fun r => ?_⟩
    have balanced := proper.balanced r
    have counted := count_take gotKinds r
    simp only [State.take, start, nil_append] at balanced
    omega
  · rintro ⟨⟨⟨answers, s⟩, ended⟩, all, none_⟩
    obtain ⟨rfl, items, more⟩ := run_eq_some known ended
    refine ⟨answers, _, ended, items.trans all, more, fun r => ?_⟩
    have counted := count_take gotKinds r
    rw [none_ r, Nat.add_zero] at counted
    simpa only [State.take, start, nil_append] using counted

/-- Pointers of eight bytes, and memory for a thousand. -/
def smallEnv : Env := ⟨8, fun sz => sz ≤ 1000⟩

theorem three_values_proper :
    ∃ answers s, run smallEnv 1 [⟨2, none⟩, ⟨2, some 5⟩, ⟨2, none⟩]
        (start [.variant (.bstr 1) 10, .variant .plain 20, .variant (.interface 2) 30]) =
          some (answers, s) ∧
      Proper [.variant (.bstr 1) 10, .variant .plain 20, .variant (.interface 2) 30]
        [⟨2, none⟩, ⟨2, some 5⟩, ⟨2, none⟩] answers s :=
  (enumeration_proper_iff (show elemSize smallEnv 1 = some 24 from rfl) (by decide) _).mpr
    ⟨by simp [Fits, smallEnv], by decide⟩

/-- A connection point is handed out, and is neither in the result nor released. -/
theorem connection_points_lost :
    run smallEnv 2 [⟨1, none⟩] (start ([.connectionPoint (some 1)] : List (Elem Unit))) =
        some ([.ok true []], ⟨[], [.interface 1], [], [], []⟩) ∧
      ¬ Proper ([.connectionPoint (some 1)] : List (Elem Unit)) [⟨1, none⟩] [.ok true []]
        ⟨[], [.interface 1], [], [], []⟩ := by
  refine ⟨by decide, fun proper => ?_⟩
  have items := proper.items
  cases items

end Twapi.Com.EnumNext
