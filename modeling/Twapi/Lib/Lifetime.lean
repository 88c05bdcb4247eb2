import Mathlib.Tactic.Common

/-!
The history of one reference-counted object: what was done to it, latest first.

* `Clean` — nothing was done to it after it was deleted.
* `deletions` — how often it was deleted; in a clean history at most once.
-/

namespace Twapi.Lib

/-- The object's memory is accessed, or the object is deleted. -/
inductive Use where
  | access
  | delete
deriving DecidableEq

/-- Nothing was done to the object after it was deleted. -/
def Clean (log : List Use) : Prop := .delete ∉ log.tail

def deletions (log : List Use) : Nat := log.count .delete

instance (log : List Use) : Decidable (Clean log) := inferInstanceAs (Decidable (¬ _))

@[simp] theorem deletions_access (log : List Use) : deletions (.access :: log) = deletions log :=
  List.count_cons_of_ne (by decide)

@[simp] theorem deletions_delete (log : List Use) : deletions (.delete :: log) = deletions log + 1 :=
  List.count_cons_self

/-- A live object may be used in any way. -/
theorem Clean.use {log : List Use} (live : deletions log = 0) (u : Use) : Clean (u :: log) :=
  List.count_eq_zero.mp live

end Twapi.Lib
