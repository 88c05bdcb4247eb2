import Twapi.Lib.Bytes
import Twapi.Lib.Memory
import Twapi.Lib.Traced

/-!
Blocks of string resources: `Twapi_SplitStringResource` of `resource/resource.c`, which
is `resource_stringblock_to_strings`, and `strings_to_resource_stringblock` of
`resource.tcl`.

* A string is its UTF-16 units, as Tcl counts its characters.
* `inside_iff` — the split reads inside the block where its counts are in order.
* `split_block` — the split of a block that was made of strings.
-/

namespace Twapi.Resource

open Lib List
open Lib.Traced (tell All all_bind all_tell all_pure all_ite)

/-- The range of bytes that is read. -/
structure Read where
  start : Int
  size : Nat
deriving DecidableEq

/-- The loop: `wP` is an address, and `len` the bytes that are left. -/
def splitFrom (m : Mem) (wP len : Int) : Traced Read (List (List UInt16)) :=
  if more : 2 ≤ len then do
    tell ⟨wP, 2⟩
    let slen := ofBytes (m.read wP 2)
    if slen > 2 * len then pure []
    else
      tell ⟨wP + 2, 2 * slen⟩
      let rest ← splitFrom m (wP + 2 + 2 * slen) (len - 2 * (1 + slen))
      pure (units (m.read (wP + 2) (2 * slen)) :: rest)
  else pure []
termination_by len.toNat

/-- `Twapi_SplitStringResource` of the `len` bytes at `wP`. -/
def splitStringResource (m : Mem) (wP : Int) (len : Nat) : Traced Read (List (List UInt16)) :=
  splitFrom m wP len

/-- `binary format sa* $n [encoding convertto unicode $s]` -/
def counted (s : List UInt16) : List UInt8 := toBytes 2 s.length ++ wide s

/-- `strings_to_resource_stringblock`; `none` is the error. -/
def stringsToResourceStringblock (strings : List (List UInt16)) : Option (List UInt8) :=
  if strings.length > 16 then none
  else some ((List.range 16).flatMap fun i => counted (strings.getD i []))

/-! ### Reads -/

/-- All reads are inside the `len` bytes at `wP`. -/
def Inside (wP len : Int) {α : Type} (x : Traced Read α) : Prop :=
  x.All fun r => wP ≤ r.start ∧ r.start + r.size ≤ wP + len

/-- One string after the other with its count before it, up to a count that is more
than twice the bytes from it on, or to less than a count. -/
inductive Consistent : List UInt8 → Prop where
  | short {bytes : List UInt8} : bytes.length < 2 → Consistent bytes
  | excess {bytes : List UInt8} : 2 * bytes.length < ofBytes (bytes.take 2) → Consistent bytes
  | string {bytes : List UInt8} : 2 + 2 * ofBytes (bytes.take 2) ≤ bytes.length →
      Consistent (bytes.drop (2 + 2 * ofBytes (bytes.take 2))) → Consistent bytes

variable {m : Mem} {wP : Int}

variable {len : Int}

theorem splitFrom_end (short : len < 2) : splitFrom m wP len = pure [] := by
  rw [splitFrom, dif_neg (by omega)]

theorem splitFrom_excess (more : 2 ≤ len) (excess : ofBytes (m.read wP 2) > 2 * len) :
    splitFrom m wP len = ⟨[], [⟨wP, 2⟩]⟩ := by
  rw [splitFrom, dif_pos more]
  simp only [if_pos excess]
  rfl

/-- The rest of the strings, and the two reads of the first. -/
theorem splitFrom_string (more : 2 ≤ len) {slen : Nat} (counts : ofBytes (m.read wP 2) = slen)
    (fits : slen ≤ 2 * len) :
    splitFrom m wP len =
      let rest := splitFrom m (wP + 2 + 2 * slen) (len - 2 * (1 + slen))
      ⟨units (m.read (wP + 2) (2 * slen)) :: rest.result,
        ⟨wP, 2⟩ :: ⟨wP + 2, 2 * slen⟩ :: rest.events⟩ := by
  subst counts
  rw [splitFrom, dif_pos more]
  simp only [if_neg (Int.not_lt.mpr fits)]
  refine congrArg (Traced.mk _) ?_
  exact congrArg (fun es => _ :: _ :: es) (append_nil _)

/-- Nothing before `wP` is read. -/
theorem splitFrom_starts (m : Mem) (wP len : Int) :
    (splitFrom m wP len).All fun r => wP ≤ r.start := by
  fun_induction splitFrom m wP len with
  | case1 wP len more ih =>
    refine (all_bind _ _).mpr ⟨(all_tell _).mpr (Int.le_refl _), ?_⟩
    apply all_ite
    · exact all_pure _
    · refine (all_bind _ _).mpr ⟨(all_tell _).mpr (Int.le_add_of_nonneg_right (by decide)), ?_⟩
      refine (all_bind _ _).mpr ⟨fun r among => ?_, all_pure _⟩
      have later := ih r among
      dsimp only at later
      omega
  | case2 => exact all_pure _

/-- The reads after the first string are inside the rest of the bytes. -/
theorem inside_string (more : 2 ≤ len) {slen : Nat} (counts : ofBytes (m.read wP 2) = slen)
    (fits : slen ≤ 2 * len) :
    Inside wP len (splitFrom m wP len) ↔ 2 + 2 * slen ≤ len ∧
      Inside (wP + 2 + 2 * slen) (len - 2 * (1 + slen))
        (splitFrom m (wP + 2 + 2 * slen) (len - 2 * (1 + slen))) := by
  rw [splitFrom_string more counts fits]
  simp only [Inside, All, forall_mem_cons]
  constructor
  · rintro ⟨-, ⟨-, string⟩, rest⟩
    refine ⟨by push_cast at string; omega, fun r among => ⟨?_, ?_⟩⟩
    · exact splitFrom_starts _ _ _ r among
    · have := (rest r among).2
      omega
  · rintro ⟨string, rest⟩
    refine ⟨by omega, by push_cast; omega, fun r among => ?_⟩
    have := rest r among
    omega

/-- All reads are inside if and only if the counts are in order. -/
theorem inside_iff (m : Mem) (wP : Int) (len : Nat) :
    Inside wP len (splitStringResource m wP len) ↔ Consistent (m.read wP len) := by
  unfold splitStringResource
  induction len using Nat.strong_induction_on generalizing wP with
  | _ len ih =>
    by_cases more : 2 ≤ len
    · have count := take_read m wP more
      by_cases excess : 2 * len < ofBytes (m.read wP 2)
      · refine iff_of_true ?_ (.excess (by rwa [count, length_read]))
        rw [splitFrom_excess (by omega) (by omega)]
        intro r among
        obtain rfl := mem_singleton.mp among
        exact ⟨Int.le_refl _, by push_cast; omega⟩
      · have rest (fits : 2 + 2 * ofBytes (m.read wP 2) ≤ len) :
            Inside (wP + 2 + 2 * ofBytes (m.read wP 2)) (len - 2 * (1 + ofBytes (m.read wP 2)))
                (splitFrom m (wP + 2 + 2 * ofBytes (m.read wP 2))
                  (len - 2 * (1 + ofBytes (m.read wP 2)))) ↔
              Consistent ((m.read wP len).drop (2 + 2 * ofBytes (m.read wP 2))) := by
          have address : wP + ((2 + 2 * ofBytes (m.read wP 2) : Nat) : Int) =
              wP + 2 + 2 * ofBytes (m.read wP 2) := by omega
          have left : ((len - (2 + 2 * ofBytes (m.read wP 2)) : Nat) : Int) =
              len - 2 * (1 + ofBytes (m.read wP 2)) := by omega
          rw [drop_read, ← ih _ (by omega), address, left]
        rw [inside_string (by omega) rfl (by omega)]
        constructor
        · rintro ⟨fits, inside⟩
          refine .string (by rw [count, length_read]; omega) ?_
          rw [count]
          exact (rest (by omega)).mp inside
        · intro consistent
          cases consistent with
          | short less => rw [length_read] at less; omega
          | excess much => rw [count, length_read] at much; omega
          | string fits inside =>
            rw [count, length_read] at fits
            rw [count] at inside
            exact ⟨by omega, (rest fits).mpr inside⟩
    · refine iff_of_true ?_ (.short (by rw [length_read]; omega))
      rw [splitFrom_end (by omega)]
      exact all_pure _

/-! ### Blocks that were made of strings -/

theorem length_counted (s : List UInt16) : (counted s).length = 2 + 2 * s.length := by
  rw [counted, length_append, length_toBytes, length_wide]

/-- The split of strings one after the other, with their counts. -/
theorem split_counted {strings : List (List UInt16)} (short : ∀ s ∈ strings, s.length < 65536)
    {len : Nat} (there : m.read wP len = strings.flatMap counted) :
    (splitFrom m wP len).result = strings := by
  induction strings generalizing wP len with
  | nil =>
    have none_ : len = 0 := by simpa using congrArg length there
    rw [splitFrom_end (by omega)]
    rfl
  | cons s strings ih =>
    have small := short s (mem_cons_self ..)
    rw [flatMap_cons] at there
    have length : len = 2 + 2 * s.length + (strings.flatMap counted).length := by
      have := congrArg length there
      rwa [length_read, length_append, length_counted] at this
    have count : ofBytes (m.read wP 2) = s.length := by
      have head := congrArg (take 2) there
      rw [take_read m wP (by omega), counted, append_assoc,
        take_left' (length_toBytes 2 _)] at head
      rw [head, ofBytes_toBytes_of_lt small]
    have text : m.read (wP + 2) (2 * s.length) = wide s := by
      have tail := congrArg (fun bytes => (bytes.drop 2).take (2 * s.length)) there
      rw [drop_read, take_read _ _ (by omega), counted, append_assoc,
        drop_left' (length_toBytes 2 _), take_left' (length_wide s)] at tail
      exact tail
    have rest : m.read (wP + 2 + 2 * s.length) (len - (2 + 2 * s.length)) =
        strings.flatMap counted := by
      have tail := congrArg (drop (2 + 2 * s.length)) there
      rw [drop_read, drop_left' (length_counted s)] at tail
      rw [← tail]
      exact congrArg (m.read · _) (by push_cast; omega)
    have left : (len : Int) - 2 * (1 + s.length) = ((len - (2 + 2 * s.length) : Nat) : Int) := by
      omega
    rw [splitFrom_string (by omega) count (by omega), left, text]
    have units_eq : units (wide s) = s := by simpa [units] using units_wide_append s []
    rw [units_eq]
    exact congrArg (s :: ·) (ih (fun t among => short t (mem_cons_of_mem _ among)) rest)

/-- The list, padded with empty strings to 16. -/
def padded (strings : List (List UInt16)) : List (List UInt16) :=
  strings ++ List.replicate (16 - strings.length) []

theorem stringsToResourceStringblock_eq {strings : List (List UInt16)}
    (few : strings.length ≤ 16) :
    stringsToResourceStringblock strings = some ((padded strings).flatMap counted) := by
  have elements : padded strings = (range 16).map fun i => strings.getD i [] := by
    apply ext_getElem (by simp [padded]; omega)
    intro i low high
    simp only [padded, getElem_map, getElem_range, getElem_append, getD]
    split
    · rename_i inside
      simp [inside]
    · rename_i beyond
      simp [getElem?_eq_none (Nat.not_lt.mp beyond)]
  rw [stringsToResourceStringblock, if_neg (by omega), elements, flatMap_map]

/-- Of every byte string the split reads bytes inside it only, if and only if its
counts are in order; and of a block that was made of strings it is these strings. -/
theorem split_block (m : Mem) (wP : Int) (len : Nat) {strings : List (List UInt16)}
    (few : strings.length ≤ 16) (short : ∀ s ∈ strings, s.length < 65536) :
    (Inside wP len (splitStringResource m wP len) ↔ Consistent (m.read wP len)) ∧
      ∃ block, stringsToResourceStringblock strings = some block ∧
        (m.read wP len = block → (splitStringResource m wP len).result = padded strings) := by
  refine ⟨inside_iff m wP len, _, stringsToResourceStringblock_eq few, fun there => ?_⟩
  refine split_counted (fun s among => ?_) there
  rcases mem_append.mp among with given | empty
  · exact short s given
  · rw [eq_of_mem_replicate empty]
    decide

/-- The block of one string. -/
theorem split_block_one :
    (splitStringResource
      (Mem.write (fun _ => 0) 0 ([1, 0, 65] ++ List.replicate 31 0)) 0 34).result =
        padded [[65]] := by
  obtain ⟨block, made, same⟩ := (split_block
    (Mem.write (fun _ => 0) 0 ([1, 0, 65] ++ replicate 31 0)) 0 34
    (show [[65]].length ≤ 16 by decide) (by decide)).2
  refine same (Option.some.inj (Eq.trans ?_ made))
  decide

/-- Memory that has a count of one string, and is zero elsewhere. -/
def oneUnit : Mem := fun a => if a = 0 then 1 else 0

/-- One unit is announced, and the block ends after the count. -/
theorem truncated_block_read_beyond :
    ¬ ∀ (m : Mem) (len : Nat), Inside 0 len (splitStringResource m 0 len) := by
  intro all
  have inside : Inside 0 2 (splitFrom oneUnit 0 2) := all oneUnit 2
  have count : ofBytes (oneUnit.read 0 2) = 1 := by decide
  rw [inside_string (by decide) count (by decide)] at inside
  exact absurd inside.1 (by decide)

end Twapi.Resource
