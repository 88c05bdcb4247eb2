import Twapi.Lib.Memory

/-!
Item id lists, `ObjToPIDL` and `ObjFromPIDL` of `base/tclobjs.c`.

* `itemLength` — the size prefix at a place, two bytes with the least significant first.
* `verify` — the loop of `ObjToPIDL`; `objToPIDL` — the whole of it.
* `objFromPIDL` — the decoder, which trusts the list.
* `objToPIDL_spec` — no byte outside the string is read, a list is made of a string if its chain
  of prefixes ends in the string, and the decoder finds the end of that chain.

A walk that reads a byte outside its buffer has the outcome `none`.
-/

namespace Twapi.Base.Pidl

open Lib

/-- `p[1]*256 + p[0]` -/
def itemLength (buffer : List UInt8) (p : Nat) : Option Nat :=
  match buffer[p]?, buffer[p + 1]? with
  | some low, some high => some (high.toNat * 256 + low.toNat)
  | _, _ => none

/-- The loop of `ObjToPIDL`, at `p` with `numbytes` left. -/
def verify (ids : List UInt8) (p numbytes : Nat) : Option (Except String Unit) :=
  match itemLength ids p with
  | none => none
  | some itemlen =>
    if itemlen = 0 then some (.ok ())
    else if numbytes - 2 < itemlen then some (.error "Invalid item id list format")
    else verify ids (p + itemlen) (numbytes - itemlen)
termination_by numbytes

/-- `ObjToPIDL`, with whether `CoTaskMemAlloc` gives memory. The list is a copy of the string;
a string that is too short for a prefix gives the null list. -/
def objToPIDL (ids : List UInt8) (alloc : Bool) : Option (Except String (Option (List UInt8))) :=
  if ids.length < 2 then some (.ok none)
  else
    match verify ids 0 ids.length with
    | none => none
    | some (.error e) => some (.error e)
    | some (.ok ()) =>
      if alloc then some (.ok (some ids))
      else some (.error "CoTaskMemAlloc failed in SHChangeNotify")

variable {buffer ids : List UInt8} {p numbytes q : Nat}

theorem lt_of_itemLength {p n : Nat} (read : itemLength buffer p = some n) :
    p + 1 < buffer.length := by
  unfold itemLength at read
  split at read
  next high => exact (List.getElem?_eq_some_iff.mp high).1
  next => cases read

/-- Where the loop of `ObjFromPIDL` stops: the first item of length zero. -/
def terminator (pidl : List UInt8) (p : Nat) : Option Nat :=
  match _read : itemLength pidl p with
  | none => none
  | some len => if len = 0 then some p else terminator pidl (p + len)
termination_by pidl.length - p
decreasing_by
  have := lt_of_itemLength _read
  omega

/-- `ObjFromPIDL`: the bytes of the list up to its terminator, and the terminator. -/
def objFromPIDL (pidl : List UInt8) : Option (List UInt8) :=
  (terminator pidl 0).map fun p => pidl.take (2 + p)

/-! ### The two walks -/

theorem exists_itemLength (inside : p + 1 < buffer.length) :
    ∃ n, itemLength buffer p = some n := by
  rw [itemLength, List.getElem?_eq_getElem inside,
    List.getElem?_eq_getElem (Nat.lt_of_succ_lt inside)]
  exact ⟨_, rfl⟩

/-- The loop reads inside the string as long as `numbytes` counts what is behind `p`. -/
theorem exists_verify (counts : p + numbytes = ids.length) (two : 2 ≤ numbytes) :
    ∃ verdict, verify ids p numbytes = some verdict := by
  fun_induction verify ids p numbytes with
  | case1 p numbytes outside =>
    obtain ⟨n, read⟩ : ∃ n, itemLength ids p = some n := exists_itemLength (by omega)
    cases outside.symm.trans read
  | case2 | case3 => exact ⟨_, rfl⟩
  | case4 p numbytes itemlen _ nonzero fits ih => exact ih (by omega) (by omega)

theorem walk_of_verify (accepted : verify ids p numbytes = some (.ok ())) :
    ∃ ps q, Walk (itemLength ids) p ps q := by
  fun_induction verify ids p numbytes with
  | case1 => cases accepted
  | case2 p numbytes read => exact ⟨_, _, .last read⟩
  | case3 => cases accepted
  | case4 p numbytes itemlen read nonzero _ ih =>
    obtain ⟨ps, q, rest⟩ := ih accepted
    exact ⟨_, _, .next read nonzero rest⟩

/-- A chain that ends in the string is never taken to run past it: the prefix behind every item
is in the string. -/
theorem verify_of_walk {ps : List Nat} (walk : Walk (itemLength ids) p ps q)
    (counts : p + numbytes = ids.length) :
    verify ids p numbytes = some (.ok ()) := by
  induction walk generalizing numbytes with
  | last zero =>
    rw [verify, zero]
    rfl
  | next read nonzero rest ih =>
    have inside := lt_of_itemLength rest.link_end
    have le := rest.le
    rw [verify, read]
    simp only [nonzero, if_false]
    rw [if_neg (by omega)]
    exact ih (by omega)

theorem terminator_of_walk {pidl : List UInt8} {ps : List Nat}
    (walk : Walk (itemLength pidl) p ps q) : terminator pidl p = some q := by
  induction walk with
  | last zero =>
    rw [terminator.eq_def]
    split
    next none => cases zero.symm.trans none
    next len read =>
      obtain rfl := Option.some.inj (zero.symm.trans read)
      rfl
  | next linked nonzero _ ih =>
    rw [terminator.eq_def]
    split
    next none => cases linked.symm.trans none
    next len read =>
      obtain rfl := Option.some.inj (linked.symm.trans read)
      rw [if_neg nonzero, ih]

/-! ### The encoder and the decoder -/

/-- The chain of prefixes of a string ends in the string, with the terminator at `q`. -/
def ChainEnds (ids : List UInt8) (q : Nat) : Prop := ∃ ps, Walk (itemLength ids) 0 ps q

/-- What `ObjToPIDL` does with a string. -/
structure Validated (ids : List UInt8) (alloc : Bool) : Prop where
  /-- It ends, and reads no byte outside the string. -/
  inside : objToPIDL ids alloc ≠ none
  /-- A string without room for a prefix is not looked at. -/
  null : objToPIDL ids alloc = some (.ok none) ↔ ids.length < 2
  /-- A list is made of a string exactly when its chain ends, and it is a copy. -/
  accepted (pidl : List UInt8) : objToPIDL ids alloc = some (.ok (some pidl)) ↔
    pidl = ids ∧ alloc ∧ ∃ q, ChainEnds ids q
  /-- The terminator is in the string, and the decoder stops with it. -/
  decoded (pidl : List UInt8) : objToPIDL ids alloc = some (.ok (some pidl)) →
    ∃ q, ChainEnds ids q ∧ q + 2 ≤ pidl.length ∧ objFromPIDL pidl = some (pidl.take (2 + q))

theorem decoded_of_chainEnds (chain : ChainEnds ids q) :
    q + 2 ≤ ids.length ∧ objFromPIDL ids = some (ids.take (2 + q)) := by
  obtain ⟨ps, walk⟩ := chain
  refine ⟨lt_of_itemLength walk.link_end, ?_⟩
  rw [objFromPIDL, terminator_of_walk walk]
  rfl

theorem verify_ok_iff :
    verify ids 0 ids.length = some (.ok ()) ↔ ∃ q, ChainEnds ids q := by
  constructor
  · intro accepted
    obtain ⟨ps, q, walk⟩ := walk_of_verify accepted
    exact ⟨q, ps, walk⟩
  · rintro ⟨q, ps, walk⟩
    exact verify_of_walk walk (Nat.zero_add _)

theorem objToPIDL_some_iff (ids : List UInt8) (alloc : Bool) (pidl : List UInt8) :
    objToPIDL ids alloc = some (.ok (some pidl)) ↔ pidl = ids ∧ alloc ∧ ∃ q, ChainEnds ids q := by
  constructor
  · intro accepted
    unfold objToPIDL at accepted
    split at accepted
    · cases accepted
    · split at accepted
      next => cases accepted
      next => cases accepted
      next ok =>
        split at accepted
        next given =>
          cases accepted
          exact ⟨rfl, given, verify_ok_iff.mp ok⟩
        next => cases accepted
  · rintro ⟨rfl, given, q, chain⟩
    have inside := (decoded_of_chainEnds chain).1
    rw [objToPIDL, if_neg (by omega), verify_ok_iff.mpr ⟨q, chain⟩]
    exact if_pos given

/-- The loop of `ObjToPIDL` reads no byte outside the string and accepts a string exactly when
its chain of prefixes ends in it; the decoder goes over that chain and no further. -/
theorem objToPIDL_spec (ids : List UInt8) (alloc : Bool) : Validated ids alloc where
  inside := by
    intro outside
    unfold objToPIDL at outside
    split at outside
    next => cases outside
    next long =>
      obtain ⟨verdict, read⟩ := exists_verify (Nat.zero_add ids.length) (Nat.le_of_not_lt long)
      rw [read] at outside
      rcases verdict with e | ⟨⟩
      · cases outside
      · revert outside
        cases alloc <;> intro outside <;> cases outside
  null := by
    unfold objToPIDL
    constructor
    · intro null
      split at null
      next short => exact short
      next =>
        split at null
        next => cases null
        next => cases null
        next => split at null <;> cases null
    · intro short
      rw [if_pos short]
  accepted := objToPIDL_some_iff ids alloc
  decoded := by
    intro pidl made
    obtain ⟨rfl, -, q, chain⟩ := (objToPIDL_some_iff ids alloc pidl).mp made
    exact ⟨q, chain, decoded_of_chainEnds chain⟩

end Twapi.Base.Pidl
