import Mathlib.Data.List.Basic

/-!
The patterns of Tcl: `string match -nocase` and `lsearch -nocase`.

`lower` is what Tcl makes of a character in lower case.
-/

namespace Twapi.Base

/-! ### `string match -nocase` -/

/-- What is behind a set; one that has no end ends with the pattern. -/
def skipSet : List Char → List Char
  | [] => []
  | c :: pattern => if c = ']' then pattern else skipSet pattern

/-- The characters from `a` to `b` or from `b` to `a`. -/
def between (a b c : Char) : Bool := (a ≤ c && c ≤ b) || (b ≤ c && c ≤ a)

/-- What is behind a set that has `c`. The end of a range may be `]`, and the set is read
only up to where `c` is found in it. -/
def matchSet (lower : Char → Char) (c : Char) : List Char → Option (List Char)
  | [] | ']' :: _ | [_, '-'] => none
  | a :: '-' :: b :: pattern =>
    if between (lower a) (lower b) c then some (skipSet pattern) else matchSet lower c pattern
  | a :: pattern => if lower a = c then some (skipSet pattern) else matchSet lower c pattern

theorem length_skipSet_le (pattern : List Char) : (skipSet pattern).length ≤ pattern.length := by
  induction pattern with
  | nil => exact Nat.le_refl _
  | cons c pattern ih =>
    rw [skipSet]
    split
    · exact Nat.le_succ _
    · exact Nat.le_succ_of_le ih

variable {lower : Char → Char}

theorem length_lt_of_matchSet {c : Char} {pattern rest : List Char}
    (found : matchSet lower c pattern = some rest) : rest.length < pattern.length := by
  fun_induction matchSet lower c pattern with
  | case1 | case2 | case3 => cases found
  | case4 a b pattern =>
    cases found
    have := length_skipSet_le pattern
    simp only [List.length_cons]
    omega
  | case5 a b pattern _ _ ih =>
    exact Nat.lt_add_right _ (Nat.lt_add_right _ (Nat.lt_succ_of_lt (ih found)))
  | case6 a pattern =>
    cases found
    exact Nat.lt_succ_of_le (length_skipSet_le pattern)
  | case7 a pattern _ _ _ _ ih => exact Nat.lt_succ_of_lt (ih found)

/-- `Tcl_StringCaseMatch` without regard to case. -/
def stringCaseMatch (lower : Char → Char) (pattern s : List Char) : Bool :=
  match pattern with
  | [] => s.isEmpty
  | p :: pattern =>
    if p = '*' then s.tails.any fun rest => stringCaseMatch lower pattern rest
    else
      match s with
      | [] => false
      | c :: s =>
        if p = '?' then stringCaseMatch lower pattern s
        else if p = '[' then
          match _found : matchSet lower (lower c) pattern with
          | none => false
          | some rest => stringCaseMatch lower rest s
        else if p = '\\' then
          match pattern with
          | [] => false
          | q :: pattern => lower c = lower q && stringCaseMatch lower pattern s
        else lower c = lower p && stringCaseMatch lower pattern s
termination_by pattern.length
decreasing_by
  all_goals simp only [List.length_cons]
  all_goals try have := length_lt_of_matchSet _found
  all_goals omega

/-- The characters that stand for others in a pattern. -/
def specials : List Char := ['*', '?', '[', '\\']

/-- A pattern without such characters matches what is equal in lower case. -/
theorem stringCaseMatch_iff {pattern : List Char} (s : List Char)
    (plain : ∀ c ∈ pattern, c ∉ specials) :
    stringCaseMatch lower pattern s ↔ s.map lower = pattern.map lower := by
  induction pattern generalizing s with
  | nil => simp [stringCaseMatch]
  | cons p pattern ih =>
    obtain ⟨first, rest⟩ := List.forall_mem_cons.mp plain
    have star : p ≠ '*' := fun eq => first (eq ▸ by decide)
    have one : p ≠ '?' := fun eq => first (eq ▸ by decide)
    have set : p ≠ '[' := fun eq => first (eq ▸ by decide)
    have escape : p ≠ '\\' := fun eq => first (eq ▸ by decide)
    cases s with
    | nil =>
      rw [stringCaseMatch.eq_def]
      simp [star]
    | cons c s =>
      rw [stringCaseMatch.eq_def]
      simp [star, one, set, escape, ih s rest]

theorem stringCaseMatch_set (lower : Char → Char) (pattern : List Char) (c : Char) (s : List Char) :
    stringCaseMatch lower ('[' :: pattern) (c :: s) =
      (matchSet lower (lower c) pattern).any fun rest => stringCaseMatch lower rest s := by
  rw [stringCaseMatch.eq_def]
  simp only [Char.reduceEq, if_false, if_true]
  split <;> rename_i found <;> simp [found]

/-- A pattern that matches something longer, or as long where it has such characters, matches
something else as well. -/
theorem exists_other_match {pattern s : List Char} (found : stringCaseMatch id pattern s)
    (long : pattern.length < s.length ∨
      pattern.length ≤ s.length ∧ ∃ c ∈ pattern, c ∈ specials) :
    ∃ t ≠ s, stringCaseMatch id pattern t := by
  induction h : pattern.length using Nat.strongRecOn generalizing pattern s with
  | ind n ih =>
    subst h
    cases pattern with
    | nil => cases s <;> simp [stringCaseMatch] at found long
    | cons p pattern =>
      by_cases star : p = '*'
      · subst star
        refine ⟨'*' :: s, by simp, ?_⟩
        rw [stringCaseMatch.eq_def] at found ⊢
        simp only [if_true, List.any_eq_true] at found ⊢
        obtain ⟨rest, among, found⟩ := found
        exact ⟨rest, List.mem_cons_of_mem _ among, found⟩
      cases s with
      | nil =>
        rw [stringCaseMatch.eq_def] at found
        simp [star] at found
      | cons c s =>
        have next {rest : List Char} (found : stringCaseMatch id rest s)
            (shorter : rest.length < pattern.length) :
            ∃ t ≠ s, stringCaseMatch id rest t := by
          refine ih _ (by simp; omega) found (.inl ?_) rfl
          simp only [List.length_cons] at long
          omega
        by_cases one : p = '?'
        · subst one
          refine ⟨(if c = 'a' then 'b' else 'a') :: s, ?_, ?_⟩
          · by_cases a : c = 'a' <;> simp [a, eq_comm]
          · rw [stringCaseMatch.eq_def] at found ⊢
            simpa using found
        by_cases set : p = '['
        · subst set
          rw [stringCaseMatch_set] at found
          obtain ⟨rest, inside, found⟩ := Option.any_eq_true _ _ |>.mp found
          obtain ⟨t, other, found⟩ := next found (length_lt_of_matchSet inside)
          refine ⟨c :: t, by simpa using other, ?_⟩
          rw [stringCaseMatch_set, inside]
          exact found
        by_cases escape : p = '\\'
        · subst escape
          rw [stringCaseMatch.eq_def] at found
          cases pattern with
          | nil => simp at found
          | cons q pattern =>
            simp only [Char.reduceEq, if_false, if_true, Bool.and_eq_true] at found
            obtain ⟨t, other, matched⟩ := next found.2 (by simp)
            refine ⟨c :: t, by simpa using other, ?_⟩
            rw [stringCaseMatch.eq_def]
            simpa [matched] using found.1
        · have plain : p ∉ specials := by simp [specials, star, one, set, escape]
          rw [stringCaseMatch.eq_def] at found
          simp only [star, one, set, escape, if_false, Bool.and_eq_true] at found
          have long' : pattern.length < s.length ∨
              pattern.length ≤ s.length ∧ ∃ c ∈ pattern, c ∈ specials := by
            simpa [plain] using long
          obtain ⟨t, other, matched⟩ := ih _ (by simp) found.2 long' rfl
          refine ⟨c :: t, by simpa using other, ?_⟩
          rw [stringCaseMatch.eq_def]
          simpa [star, one, set, escape, matched] using found.1

/-! ### `lsearch -nocase` -/

/-- `lsearch -nocase $elems $pattern`. -/
def lsearchNocase (lower : Char → Char) (elems : List String) (pattern : String) : Option Nat :=
  elems.findIdx? fun elem => stringCaseMatch lower pattern.toList elem.toList

/-- The first element that is equal to `s` in lower case. -/
def positionNocase (lower : Char → Char) (elems : List String) (s : String) : Option Nat :=
  elems.findIdx? fun elem => elem.toList.map lower = s.toList.map lower

theorem lsearchNocase_eq {pattern : String} (elems : List String)
    (plain : ∀ c ∈ pattern.toList, c ∉ specials) :
    lsearchNocase lower elems pattern = positionNocase lower elems pattern := by
  unfold lsearchNocase positionNocase
  congr 1
  funext elem
  exact Bool.eq_iff_iff.mpr ((stringCaseMatch_iff _ plain).trans decide_eq_true_iff.symm)

end Twapi.Base
