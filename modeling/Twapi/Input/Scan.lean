import Mathlib.Data.List.TakeWhile
import Twapi.Input.Grammar
import Twapi.Lib.Results
import Twapi.Lib.Table

/-!
`_parse_send_keys` item by item.

* `vk_special`, `times_special` — where special characters can stand between braces.
* `parseKeys_modifier`, `parseKeys_key`, `parseKeys_group`, `parseKeys_braced` — one item.
* `Scan`, `scan` — every string is taken apart in one way, which inductions follow.
* `parseKeys_inputs` — the events are only added to.
-/

namespace Twapi.Input

open Lib List

variable {t : Tcl} {rest text : List Char} {unicode : Option Nat} {inputs trailer : List Event}

/-! ### Strings -/

variable {s name keys : List Char} {c : Char}

theorem stringFirst_none (absent : c ∉ s) (start : Nat) :
    stringFirst c s start = none := by
  simp only [stringFirst, Option.map_eq_none_iff, findIdx?_eq_none_iff, beq_eq_false_iff_ne]
  rintro d mem rfl
  exact absent (mem_of_mem_drop mem)

theorem findIdx?_first {c : Char} (absent : c ∉ text) :
    (text ++ c :: rest).findIdx? (· == c) = some text.length := by
  have before : text.findIdx? (· == c) = none := by
    simpa [findIdx?_eq_none_iff] using fun d mem (same : d = c) => absent (same ▸ mem)
  simp [findIdx?_append, before, findIdx?_cons]

theorem stringFirst_first {b c : Char} (other : b ≠ c) (absent : c ∉ text) :
    stringFirst c (b :: (text ++ c :: rest)) 0 = some (text.length + 1) := by
  have found : ((b :: text) ++ c :: rest).findIdx? (· == c) = some (text.length + 1) :=
    findIdx?_first (by simpa using ⟨other.symm, absent⟩)
  simpa [stringFirst] using found

theorem stringRange_first (b c : Char) :
    stringRange (b :: (text ++ c :: rest)) 1 text.length = text := by
  simp [stringRange]

theorem upTo_first (absent : c ∉ text) : upTo c (text ++ c :: rest) = text := by
  have before : ∀ d ∈ text, (d != c) = true := by
    simpa using fun d mem (same : d = c) => absent (same ▸ mem)
  simp [upTo, takeWhile_append_of_pos before]

theorem past_first (absent : c ∉ text) : past c (text ++ c :: rest) = rest := by
  have before : ∀ d ∈ text, (d != c) = true := by
    simpa using fun d mem (same : d = c) => absent (same ▸ mem)
  simp [past, dropWhile_append_of_pos before]

theorem upTo_append_of_mem (mem : c ∈ text) : upTo c (text ++ rest) = upTo c text := by
  obtain ⟨before, after, rfl, absent⟩ := eq_append_cons_of_mem mem
  rw [append_assoc, cons_append, upTo_first absent, upTo_first absent]

theorem upTo_append_of_not_mem (absent : c ∉ text) :
    upTo c (text ++ rest) = text ++ upTo c rest :=
  takeWhile_append_of_pos (by
    simpa using fun d mem (same : d = c) => absent (same ▸ mem))

theorem not_mem_upTo (c : Char) (s : List Char) : c ∉ upTo c s := by
  intro mem
  simpa using mem_takeWhile_imp mem

/-! ### Names and counts -/

/-- The names of the keys have no special characters, but for the three modifiers. -/
theorem vkMap_special : (vkMap.all fun e => [['+'], ['^'], ['%']].contains e.1.toList ||
    !e.1.toList.isEmpty && e.1.toList.all fun c => !special.contains c) = true := by
  decide +kernel

theorem vk_special {k : Vk} (found : vk name = some k) :
    name = ['+'] ∨ name = ['^'] ∨ name = ['%'] ∨ name ≠ [] ∧ ∀ c ∈ name, c ∉ special := by
  have listed := all_eq_true.mp vkMap_special _ (mem_of_lookup found)
  rw [String.toList_ofList] at listed
  simpa [or_assoc] using listed

/-- A name has no special characters in any case of its letters. -/
theorem namedKey_special {k : Vk} (found : namedKey t name = some k) :
    name ≠ [] ∧ ∀ c ∈ name, c ∉ special := by
  rw [namedKey] at found
  split at found
  · cases found
  · next symbol =>
    have upper := vk_special found
    have single : ∀ s ∈ special, name.map t.toupper = [s] → name = [s] := by
      intro s mem same
      obtain ⟨c, rfl, one⟩ := map_eq_singleton_iff.mp same
      rw [(t.toupper_special mem).mp one]
    rcases upper with plus | caret | percent | ⟨nonempty, plain⟩
    · exact absurd (.inl (single '+' (by decide) plus)) symbol
    · exact absurd (.inr (.inl (single '^' (by decide) caret))) symbol
    · exact absurd (.inr (.inr (single '%' (by decide) percent))) symbol
    · refine ⟨fun none => nonempty (by simp [none]), fun c mem isSpecial => ?_⟩
      refine plain c ?_ isSpecial
      exact (t.toupper_special isSpecial).mpr rfl ▸ mem_map_of_mem mem

theorem space_or_mem_dropWhile {p : Char → Bool} (mem : c ∈ s) :
    p c = true ∨ c ∈ s.dropWhile p := by
  rw [← takeWhile_append_dropWhile (p := p) (l := s), mem_append] at mem
  exact mem.imp_left mem_takeWhile_imp

theorem space_or_mem_trim (mem : c ∈ s) :
    t.space c = true ∨ c ∈ t.trim s := by
  rcases space_or_mem_dropWhile mem with space | mem
  · exact .inl space
  · exact (space_or_mem_dropWhile (mem_reverse.mpr mem)).imp_right mem_reverse.mpr

/-- Of the special characters a count can have the sign alone. -/
theorem times_special {count : List Char} (read : (times t count).isSome) :
    ∀ c ∈ count, c ∈ special → c = '+' := by
  intro c mem isSpecial
  have trimmed : c ∈ t.trim count :=
    (space_or_mem_trim mem).resolve_left (by simp [t.space_special isSpecial])
  rw [times, if_neg (ne_nil_of_mem trimmed)] at read
  cases number : t.integer (t.trim count) with
  | none => simp [number] at read
  | some n => exact t.integer_special number c trimmed isSpecial

theorem readCount_eq_ok {count : List Char} {n : Nat} :
    t.readCount count = .ok n ↔ times t count = some n := by
  simp only [Tcl.readCount, times]
  split
  · simp
  · cases t.integer (t.trim count) with
    | none => simp
    | some m =>
      cases m with
      | ofNat m => simp [Int.not_lt.mpr (Int.natCast_nonneg m)]
      | negSucc m => simp [Int.negSucc_lt_zero]

/-! ### One item -/

theorem vkRead_modifier (m : Modifier) : vkRead [m.char] = .ok m.key := by cases m <;> rfl

theorem vkRead_return : vkRead "RETURN".toList = .ok ⟨0x0D, false⟩ := rfl

theorem parseKeys_nil : parseKeys t [] unicode inputs trailer = .ok inputs := by
  rw [parseKeys]

theorem parseKeys_modifier (m : Modifier) :
    parseKeys t (m.char :: rest) unicode inputs trailer =
      parseKeys t rest unicode (inputs ++ [.keydown m.key]) (.keyup m.key :: trailer) := by
  have symbol : m.char = '+' ∨ m.char = '^' ∨ m.char = '%' := by cases m <;> decide
  rw [parseKeys, if_pos symbol, vkRead_modifier]
  rfl

theorem parseKeys_key {c : Char} (plain : c ∉ ['+', '^', '%', '(', '{']) :
    parseKeys t (c :: rest) unicode inputs trailer =
      parseKeys t rest (if c = '~' then unicode else some c.toNat)
        (inputs ++ ((Item.key c).meaning t ++ trailer)) [] := by
  simp only [mem_cons, not_or, not_mem_nil, not_false_eq_true, and_true] at plain
  obtain ⟨plus, caret, percent, paren, brace⟩ := plain
  rw [parseKeys, if_neg (by simp [plus, caret, percent]), if_neg paren, if_neg brace, vkRead_return]
  by_cases enter : c = '~'
  · simp [enter, Item.meaning]
    rfl
  · simp [enter, Item.meaning]

theorem parseKeys_group (closes : ')' ∉ text) :
    parseKeys t ('(' :: (text ++ ')' :: rest)) unicode inputs trailer =
      parseKeys t text none [] [] >>= fun group =>
        parseKeys t rest unicode (inputs ++ (group ++ trailer)) [] := by
  have found : stringFirst ')' ('(' :: (text ++ ')' :: rest)) 0 = _ :=
    stringFirst_first (by decide) closes
  rw [parseKeys, if_neg (by decide), if_neg (by decide), if_pos rfl]
  simp only [found, Nat.add_sub_cancel, stringRange_first]
  simp

theorem parseKeys_group_open (opened : ')' ∉ rest) :
    parseKeys t ('(' :: rest) unicode inputs trailer =
      .error "Invalid key sequence - unterminated (" := by
  rw [parseKeys, if_neg (by decide), if_neg (by decide), if_pos rfl]
  simp [stringFirst_none (c := ')') (s := '(' :: rest) (by simpa using opened)]

theorem parseKeys_braced (closes : '}' ∉ text) :
    parseKeys t ('{' :: (text ++ '}' :: rest)) unicode inputs trailer =
      braced t text unicode >>= fun r =>
        parseKeys t rest r.2 (inputs ++ (r.1 ++ trailer)) [] := by
  have found : stringFirst '}' ('{' :: (text ++ '}' :: rest)) 0 = _ :=
    stringFirst_first (by decide) closes
  have again : (if text.length + 1 = 1 then
      stringFirst '}' ('{' :: (text ++ '}' :: rest)) (text.length + 1) else
        some (text.length + 1)) = some (text.length + 1) := by
    rcases eq_or_ne text [] with rfl | nonempty
    · rfl
    · simp [nonempty]
  rw [parseKeys, if_neg (by decide), if_neg (by decide), if_neg (by decide), if_pos rfl]
  simp only [found, again, Nat.add_sub_cancel, stringRange_first]
  simp

theorem parseKeys_braced_open (opened : '}' ∉ rest) :
    parseKeys t ('{' :: rest) unicode inputs trailer =
      .error "Invalid key sequence - unterminated \x7b" := by
  rw [parseKeys, if_neg (by decide), if_neg (by decide), if_neg (by decide), if_pos rfl]
  simp [stringFirst_none (c := '}') (s := '{' :: rest) (by simpa using opened)]

theorem map_map (r : Except String (List Event)) (xs ys : List Event) :
    (r.map (ys ++ ·)).map (xs ++ ·) = r.map (xs ++ ys ++ ·) := by
  cases r <;> simp [Except.map]

/-! ### Whole strings -/

/-- How a string is scanned: what the first character asks for, and where it ends. -/
inductive Scan : List Char → Prop where
  | nil : Scan []
  | modifier (m : Modifier) {rest : List Char} : Scan rest → Scan (m.char :: rest)
  | key {c : Char} {rest : List Char} :
      c ∉ ['+', '^', '%', '(', '{'] → Scan rest → Scan (c :: rest)
  | group {text rest : List Char} :
      ')' ∉ text → Scan text → Scan rest → Scan ('(' :: (text ++ ')' :: rest))
  | groupOpen {rest : List Char} : ')' ∉ rest → Scan ('(' :: rest)
  | braced {text rest : List Char} :
      '}' ∉ text → Scan rest → Scan ('{' :: (text ++ '}' :: rest))
  | bracedOpen {rest : List Char} : '}' ∉ rest → Scan ('{' :: rest)

theorem scan (keys : List Char) : Scan keys := by
  match keys with
  | [] => exact .nil
  | c :: rest =>
    by_cases symbol : ∃ m : Modifier, c = m.char
    · obtain ⟨m, rfl⟩ := symbol
      exact .modifier m (scan rest)
    · by_cases paren : c = '('
      · subst paren
        by_cases closes : ')' ∈ rest
        · obtain ⟨text, rest, rfl, first⟩ := eq_append_cons_of_mem closes
          exact .group first (scan text) (scan rest)
        · exact .groupOpen closes
      · by_cases brace : c = '{'
        · subst brace
          by_cases closes : '}' ∈ rest
          · obtain ⟨text, rest, rfl, first⟩ := eq_append_cons_of_mem closes
            exact .braced first (scan rest)
          · exact .bracedOpen closes
        · refine .key ?_ (scan rest)
          simp only [mem_cons, not_mem_nil, or_false, not_or]
          exact ⟨fun h => symbol ⟨.shift, h⟩, fun h => symbol ⟨.control, h⟩,
            fun h => symbol ⟨.alt, h⟩, paren, brace⟩
termination_by keys.length

/-- The events are added to those there were. -/
theorem parseKeys_inputs (s : Scan keys) (unicode : Option Nat) (inputs trailer : List Event) :
    parseKeys t keys unicode inputs trailer =
      (parseKeys t keys unicode [] trailer).map (inputs ++ ·) := by
  induction s generalizing unicode inputs trailer with
  | nil => simp [parseKeys_nil, Except.map]
  | modifier m _ ih =>
    rw [parseKeys_modifier, parseKeys_modifier, ih _ (inputs ++ _), ih _ ([] ++ _), map_map,
      nil_append]
  | key plain _ ih =>
    rw [parseKeys_key plain, parseKeys_key plain, ih _ (inputs ++ _), ih _ ([] ++ _), map_map,
      nil_append]
  | @group text rest closes _ _ _ ih =>
    rw [parseKeys_group closes, parseKeys_group closes]
    cases parseKeys t text none [] [] with
    | error e => rfl
    | ok group =>
      change parseKeys t rest _ _ _ = (parseKeys t rest _ _ _).map _
      rw [ih _ (inputs ++ _), ih _ ([] ++ _), map_map, nil_append]
  | groupOpen opened => simp [parseKeys_group_open opened, Except.map]
  | @braced text rest closes _ ih =>
    rw [parseKeys_braced closes, parseKeys_braced closes]
    cases braced t text unicode with
    | error e => rfl
    | ok r =>
      change parseKeys t rest _ _ _ = (parseKeys t rest _ _ _).map _
      rw [ih _ (inputs ++ _), ih _ ([] ++ _), map_map, nil_append]
  | bracedOpen opened => simp [parseKeys_braced_open opened, Except.map]

/-- `keys` is accepted and gives the events `es`. -/
def Enters (t : Tcl) (keys : List Char) (unicode : Option Nat) (trailer es : List Event) : Prop :=
  parseKeys t keys unicode [] trailer = .ok es

theorem parseKeys_eq_ok {es : List Event} :
    parseKeys t keys unicode inputs trailer = .ok es ↔
      ∃ es', Enters t keys unicode trailer es' ∧ es = inputs ++ es' := by
  simp only [Enters]
  rw [parseKeys_inputs (scan keys)]
  cases parseKeys t keys unicode [] trailer <;> simp [Except.map, eq_comm]

variable {es : List Event}

theorem enters_nil : Enters t [] unicode trailer es ↔ es = [] := by
  rw [Enters, parseKeys_nil, Except.ok.injEq, eq_comm]

theorem enters_modifier (m : Modifier) : Enters t (m.char :: rest) unicode trailer es ↔
    ∃ es', Enters t rest unicode (.keyup m.key :: trailer) es' ∧ es = .keydown m.key :: es' := by
  rw [Enters, parseKeys_modifier, parseKeys_eq_ok]
  rfl

theorem enters_key {c : Char} (plain : c ∉ ['+', '^', '%', '(', '{']) :
    Enters t (c :: rest) unicode trailer es ↔
      ∃ es', Enters t rest (if c = '~' then unicode else some c.toNat) [] es' ∧
        es = (Item.key c).meaning t ++ trailer ++ es' := by
  rw [Enters, parseKeys_key plain, parseKeys_eq_ok]
  rfl

theorem enters_group (closes : ')' ∉ text) :
    Enters t ('(' :: (text ++ ')' :: rest)) unicode trailer es ↔
      ∃ group es', Enters t text none [] group ∧ Enters t rest unicode [] es' ∧
        es = group ++ trailer ++ es' := by
  rw [Enters, parseKeys_group closes]
  constructor
  · intro ok
    obtain ⟨group, read, after⟩ := bind_eq_ok ok
    obtain ⟨es', left, rfl⟩ := parseKeys_eq_ok.mp after
    exact ⟨group, es', read, left, rfl⟩
  · rintro ⟨group, es', read, left, rfl⟩
    rw [Enters] at read
    rw [read]
    exact parseKeys_eq_ok.mpr ⟨es', left, rfl⟩

theorem enters_braced (closes : '}' ∉ text) :
    Enters t ('{' :: (text ++ '}' :: rest)) unicode trailer es ↔
      ∃ r es', braced t text unicode = .ok r ∧ Enters t rest r.2 [] es' ∧
        es = r.1 ++ trailer ++ es' := by
  rw [Enters, parseKeys_braced closes]
  constructor
  · intro ok
    obtain ⟨r, read, after⟩ := bind_eq_ok ok
    obtain ⟨es', left, rfl⟩ := parseKeys_eq_ok.mp after
    exact ⟨r, es', read, left, rfl⟩
  · rintro ⟨r, es', read, left, rfl⟩
    rw [read]
    exact parseKeys_eq_ok.mpr ⟨es', left, rfl⟩

theorem not_enters_group (opened : ')' ∉ rest) : ¬ Enters t ('(' :: rest) unicode trailer es := by
  rw [Enters, parseKeys_group_open opened]
  exact fun ok => nomatch ok

theorem not_enters_braced (opened : '}' ∉ rest) : ¬ Enters t ('{' :: rest) unicode trailer es := by
  rw [Enters, parseKeys_braced_open opened]
  exact fun ok => nomatch ok

end Twapi.Input
