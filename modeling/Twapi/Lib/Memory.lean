import Mathlib.Tactic.Common

/-!
Memory that is read and written in ranges of bytes.

* `Mem.read`, `Mem.write` — a range.
* `Agree` — two memories with the same bytes in a range.
* `read_write`, `read_of_agree`, `agree_write` — what a write leaves alone.
* `Walk` — a walk over elements that say how far behind them the next one is,
  and zero where they are the last.
-/

namespace Twapi.Lib

/-- The bytes at every address. -/
def Mem : Type := Int → UInt8

namespace Mem

def read (m : Mem) (a : Int) (n : Nat) : List UInt8 := (List.range n).map fun (i : Nat) => m (a + i)

def write (m : Mem) (a : Int) (bytes : List UInt8) : Mem := fun x =>
  if a ≤ x ∧ x < a + bytes.length then bytes.getD (x - a).toNat 0 else m x

end Mem

/-- The same bytes from `lo` up to `hi`. -/
def Agree (lo hi : Int) (m m' : Mem) : Prop := ∀ x, lo ≤ x → x < hi → m x = m' x

variable {m m' m'' : Mem} {a lo hi : Int} {n : Nat} {bytes : List UInt8}

@[simp] theorem length_read : (m.read a n).length = n := by
  rw [Mem.read, List.length_map, List.length_range]

/-- Of what is read from an address on, the first bytes. -/
theorem take_read (m : Mem) (a : Int) {n k : Nat} (le : k ≤ n) :
    (m.read a n).take k = m.read a k := by
  simp only [Mem.read, ← List.map_take, List.take_range, Nat.min_eq_left le]

theorem drop_read (m : Mem) (a : Int) (n k : Nat) :
    (m.read a n).drop k = m.read (a + k) (n - k) := by
  apply List.ext_getElem (by simp)
  intro i _ _
  simp only [Mem.read, List.getElem_drop, List.getElem_map, List.getElem_range]
  exact congrArg m (by omega)

theorem Agree.refl (lo hi : Int) (m : Mem) : Agree lo hi m m := fun _ _ _ => rfl

theorem Agree.trans (first : Agree lo hi m m') (second : Agree lo hi m' m'') :
    Agree lo hi m m'' :=
  fun x low high => (first x low high).trans (second x low high)

theorem Agree.mono {lo' hi' : Int} (agree : Agree lo hi m m') (low : lo ≤ lo') (high : hi' ≤ hi) :
    Agree lo' hi' m m' :=
  fun x l h => agree x (Int.le_trans low l) (Int.lt_of_lt_of_le h high)

theorem read_of_agree (agree : Agree a (a + n) m m') : m.read a n = m'.read a n := by
  refine List.map_congr_left fun i mem => ?_
  have small := List.mem_range.mp mem
  exact agree _ (by omega) (by omega)

theorem read_write : (m.write a bytes).read a bytes.length = bytes := by
  apply List.ext_getElem length_read
  intro i low high
  have within : a ≤ a + (i : Int) ∧ a + (i : Int) < a + bytes.length := by omega
  have index : (a + (i : Int) - a).toNat = i := by omega
  simp only [Mem.read, List.getElem_map, List.getElem_range, Mem.write, if_pos within, index]
  exact (List.getElem_eq_getD 0).symm

/-- A write leaves what ends before it alone, and what begins after it. -/
theorem agree_write (apart : hi ≤ a ∨ a + bytes.length ≤ lo) :
    Agree lo hi (m.write a bytes) m := by
  intro x low high
  have outside : ¬ (a ≤ x ∧ x < a + bytes.length) := by omega
  rw [Mem.write, if_neg outside]

/-! ### Relative links -/

/-- From `p` over the places `ps` to the last of them, `q`. -/
inductive Walk (link : Nat → Option Nat) : (p : Nat) → (ps : List Nat) → (q : Nat) → Prop
  | last {p : Nat} (zero : link p = some 0) : Walk link p [p] p
  | next {p n q : Nat} {ps : List Nat} (linked : link p = some n) (nonzero : n ≠ 0)
      (rest : Walk link (p + n) ps q) : Walk link p (p :: ps) q

namespace Walk

variable {link : Nat → Option Nat} {p q : Nat} {ps : List Nat}

theorem le (walk : Walk link p ps q) : p ≤ q := by
  induction walk with
  | last => exact Nat.le_refl _
  | next _ _ _ ih => exact Nat.le_trans (Nat.le_add_right _ _) ih

/-- The element at the end says that it is the last. -/
theorem link_end (walk : Walk link p ps q) : link q = some 0 := by
  induction walk with
  | last zero => exact zero
  | next _ _ _ ih => exact ih

end Walk

end Twapi.Lib
