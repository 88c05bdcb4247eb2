import Twapi.Lib.Rank

/-!
The translation that `get_file_version_resource` of `resource.tcl` takes.

* A translation is eight hexadecimal digits, four of the language and four of the
  codepage, as `Twapi_VerQueryValue_TRANSLATIONS` writes them.
* `scan_eq_foldl` — the loop is the selection by rank of `Lib.Rank`, the ranks in the
  order of the comment in it.
* `matched_isBest` — what it comes to.
-/

namespace Twapi.Resource

open Lib

/-! ### Translations -/

def hexDigit (c : Char) : Nat :=
  if c.isDigit then c.toNat - '0'.toNat else c.toLower.toNat - 'a'.toNat + 10

/-- The number `0x` and the digits. -/
def hexNumber (digits : List Char) : Int := digits.foldl (fun n c => 16 * n + hexDigit c) 0

/-- `0x[string range $langcp 0 3]` -/
def verlangid (langcp : String) : Int := hexNumber (langcp.toList.take 4)

/-- `0x[string range $langcp 4 7]` -/
def vercp (langcp : String) : Int := hexNumber ((langcp.toList.drop 4).take 4)

/-- `$langid & 0x3ff` -/
def extractPrimaryLangid (langid : Int) : Int := langid % 0x400

/-- The loop over the translations; `found` is the array `match`. -/
def scan (langid cp : Int) : List String → (Nat → Option String) → Nat → Option String
  | [], found => found
  | langcp :: rest, found =>
    if verlangid langcp = langid ∧ vercp langcp = cp then put found 0 langcp
    else if (found 1).isSome then scan langid cp rest found
    else if verlangid langcp = langid then scan langid cp rest (put found 1 langcp)
    else if (found 2).isSome then scan langid cp rest found
    else
      let verprimary := extractPrimaryLangid (verlangid langcp)
      if verprimary = extractPrimaryLangid langid ∧ vercp langcp = cp then
        scan langid cp rest (put found 2 langcp)
      else if (found 3).isSome then scan langid cp rest found
      else if verprimary = extractPrimaryLangid langid then
        scan langid cp rest (put found 3 langcp)
      else if (found 4).isSome then scan langid cp rest found
      else if verprimary = 0 then scan langid cp rest (put found 4 langcp)
      else if (found 5).isSome then scan langid cp rest found
      else if verprimary = 9 then scan langid cp rest (put found 5 langcp)
      else if ¬ (found 6).isSome then scan langid cp rest (put found 6 langcp)
      else scan langid cp rest found

/-- `match(7)`, in case the list is empty. -/
def noTranslation : String := "00000000"

/-- `$match($i)` after the loop for `i`. -/
def matched (langid cp : Int) (langcps : List String) : String :=
  let found := scan langid cp langcps (put (fun _ => none) 7 noTranslation)
  (((List.range 8).find? fun i => (found i).isSome).bind found).getD ""

/-- The order of the classes: exact, same language, same primary language and exact
codepage, same primary language, neutral, English, other. -/
def matchClass (langid cp : Int) (langcp : String) : Nat :=
  if verlangid langcp = langid ∧ vercp langcp = cp then 0
  else if verlangid langcp = langid then 1
  else
    let verprimary := extractPrimaryLangid (verlangid langcp)
    if verprimary = extractPrimaryLangid langid ∧ vercp langcp = cp then 2
    else if verprimary = extractPrimaryLangid langid then 3
    else if verprimary = 0 then 4
    else if verprimary = 9 then 5
    else 6

theorem matchClass_le (langid cp : Int) (langcp : String) : matchClass langid cp langcp ≤ 6 := by
  unfold matchClass
  dsimp only
  split_ifs <;> decide

/-! ### The loop as a selection -/

variable {langid cp : Int} {langcp : String} {found : Nat → Option String}

/-- One turn of the loop, before there is an exact match. The tests are those of the
classes in order, and before each one is the guard for what is noted. -/
theorem scan_cons {rest : List String} (inexact : found 0 = none) :
    scan langid cp (langcp :: rest) found =
      if matchClass langid cp langcp = 0 then put found 0 langcp
      else scan langid cp rest (note (matchClass langid cp) found langcp) := by
  rw [note_eq_guarded inexact]
  by_cases exact_ : verlangid langcp = langid ∧ vercp langcp = cp
  · rw [scan, matchClass, if_pos exact_, if_pos exact_, if_pos rfl]
  have turn {c : Nat} (guards : List Nat) (class_ : matchClass langid cp langcp = c + 1)
      (all : guards = (List.range (c + 1)).map Nat.succ) :
      (if matchClass langid cp langcp = 0 then put found 0 langcp
        else scan langid cp rest (guarded found (matchClass langid cp langcp) langcp
          ((List.range (matchClass langid cp langcp)).map Nat.succ))) =
        scan langid cp rest (guarded found (c + 1) langcp guards) := by
    rw [class_, if_neg (Nat.succ_ne_zero c), all]
  unfold matchClass at turn ⊢
  rw [scan]
  simp only [if_neg exact_] at turn ⊢
  by_cases lang : verlangid langcp = langid
  · simp only [if_pos lang] at turn ⊢
    rw [turn [1] rfl rfl]
    simp only [guarded, apply_ite (scan langid cp rest)]
  simp only [if_neg lang] at turn ⊢
  by_cases primaryCp : extractPrimaryLangid (verlangid langcp) = extractPrimaryLangid langid ∧
      vercp langcp = cp
  · simp only [if_pos primaryCp] at turn ⊢
    rw [turn [1, 2] rfl rfl]
    simp only [guarded, apply_ite (scan langid cp rest)]
  simp only [if_neg primaryCp] at turn ⊢
  by_cases primary : extractPrimaryLangid (verlangid langcp) = extractPrimaryLangid langid
  · simp only [if_pos primary] at turn ⊢
    rw [turn [1, 2, 3] rfl rfl]
    simp only [guarded, apply_ite (scan langid cp rest)]
  simp only [if_neg primary] at turn ⊢
  by_cases neutral : extractPrimaryLangid (verlangid langcp) = 0
  · simp only [if_pos neutral] at turn ⊢
    rw [turn [1, 2, 3, 4] rfl rfl]
    simp only [guarded, apply_ite (scan langid cp rest)]
  simp only [if_neg neutral] at turn ⊢
  by_cases english : extractPrimaryLangid (verlangid langcp) = 9
  · simp only [if_pos english] at turn ⊢
    rw [turn [1, 2, 3, 4, 5] rfl rfl]
    simp only [guarded, apply_ite (scan langid cp rest)]
  simp only [if_neg english] at turn ⊢
  rw [turn [1, 2, 3, 4, 5, 6] rfl rfl]
  simp only [guarded, apply_ite (scan langid cp rest), ite_not]

/-- The loop is the selection by class. -/
theorem scan_eq_foldl (langcps : List String) (inexact : found 0 = none) :
    scan langid cp langcps found = langcps.foldl (note (matchClass langid cp)) found := by
  induction langcps generalizing found with
  | nil => rfl
  | cons langcp rest ih =>
    rw [scan_cons inexact, List.foldl_cons]
    split
    · rename_i exact_
      have noted : note (matchClass langid cp) found langcp = put found 0 langcp := by
        rw [note_of_better, exact_]
        intro k below
        rw [exact_, Nat.le_zero] at below
        exact below ▸ inexact
      rw [noted, foldl_note_of_exact _ (by simp [put])]
    · rename_i later
      refine ih ?_
      unfold note
      split
      · exact inexact
      · exact (if_neg (Ne.symm later)).trans inexact

/-- The loop for `i` stops at the first element of `match` that exists. -/
theorem matched_eq {found : Nat → Option String} {langcps : List String}
    (scanned : scan langid cp langcps (put (fun _ => none) 7 noTranslation) = found) {k : Nat}
    (some_ : (found k).isSome = true) (le : k ≤ 7) :
    ∃ i ≤ k, found i = some (matched langid cp langcps) ∧ ∀ j < i, found j = none := by
  rw [matched, scanned]
  cases first : (List.range 8).find? fun i => (found i).isSome with
  | none =>
    have none_ := List.find?_eq_none.mp first k (List.mem_range.mpr (by omega))
    exact absurd some_ none_
  | some i =>
    obtain ⟨exists_, -, before⟩ := List.find?_range_eq_some.mp first
    obtain ⟨langcp, at_i⟩ := Option.isSome_iff_exists.mp exists_
    refine ⟨i, ?_, ?_, fun j less => by simpa using before j less⟩
    · by_contra beyond
      simpa [some_] using before k (by omega)
    · rw [Option.bind_some, at_i, Option.getD_some]

/-- The translation is the earliest of the best class, and `00000000` where there is
none. -/
theorem matched_isBest (langid cp : Int) (langcps : List String) :
    langcps = [] ∧ matched langid cp langcps = noTranslation ∨
      IsBest (matchClass langid cp) langcps (matched langid cp langcps) := by
  cases langcps with
  | nil => exact .inl ⟨rfl, rfl⟩
  | cons langcp rest =>
    refine .inr ?_
    have start : Noted (matchClass langid cp) 7 [] (put (fun _ => none) 7 noTranslation) :=
      .nil fun k below => if_neg (by omega)
    have scanned : scan langid cp (langcp :: rest) (put (fun _ => none) 7 noTranslation) = _ :=
      scan_eq_foldl (langcp :: rest) rfl
    have noted := foldl_note (langcp :: rest) start
    obtain ⟨k, le, some_⟩ := noted.covered langcp (List.mem_cons_self ..)
    have small := matchClass_le langid cp langcp
    obtain ⟨i, below, found, least⟩ := matched_eq scanned some_ (by omega)
    exact noted.isBest (by omega) found least

end Twapi.Resource
