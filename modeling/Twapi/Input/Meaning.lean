import Twapi.Input.Scan
import Twapi.Lib.Surplus

/-!
Whether `_parse_send_keys` returns the meaning of the keys it accepts.

* `exists_items` — it does for a regular string.
* `Item.enters`, `enters_items` — what it returns for an item, and that it has too much from the
  first item on that it gets wrong.
* `parseSendKeys_denotes_iff` — the accepted strings whose meaning it returns.
-/

namespace Twapi.Input

open Lib List

variable {t : Tcl} {rest text keys : List Char} {unicode : Option Nat} {trailer es : List Event}

/-! ### The parts of a string -/

theorem tokens_modifier (m : Modifier) :
    tokens (m.char :: rest) = .modifier m.char :: tokens rest := by
  cases m <;> rw [tokens] <;> simp [Modifier.char]

theorem tokens_key {c : Char} (plain : c ∉ ['+', '^', '%', '(', '{']) :
    tokens (c :: rest) = .key c :: tokens rest := by
  simp only [mem_cons, not_or, not_mem_nil, not_false_eq_true, and_true] at plain
  obtain ⟨plus, caret, percent, paren, brace⟩ := plain
  rw [tokens, if_neg (by simp [plus, caret, percent]), if_neg paren, if_neg brace]

theorem tokens_group (closes : ')' ∉ text) :
    tokens ('(' :: (text ++ ')' :: rest)) = .group text :: tokens rest := by
  rw [tokens, if_neg (by decide), if_pos rfl, upTo_first closes, past_first closes]

theorem tokens_braced (closes : '}' ∉ text) :
    tokens ('{' :: (text ++ '}' :: rest)) = .braced text :: tokens rest := by
  rw [tokens, if_neg (by decide), if_neg (by decide), if_pos rfl, upTo_first closes,
    past_first closes]

theorem tokens_nil : tokens [] = [] := by rw [tokens]

theorem tokens_eq_nil_iff : tokens keys = [] ↔ keys = [] := by
  cases keys with
  | nil => simp [tokens_nil]
  | cons c rest =>
    rw [tokens]
    split
    · simp
    · split
      · simp
      · split <;> simp

theorem regularTokens_cons {part : Token} {ts : List Token} : RegularTokens (part :: ts) ↔
    (ts = [] → ∀ c, part ≠ .modifier c) ∧
      (∀ text, part = .braced text → text ∉ [[], ['+'], ['^'], ['%']]) ∧ RegularTokens ts := by
  cases ts with
  | nil => simp [RegularTokens, eq_comm]
  | cons next ts =>
    have last : (part :: next :: ts).getLast? = (next :: ts).getLast? := getLast?_cons_cons
    simp only [RegularTokens, last, mem_cons, reduceCtorEq, false_imp_iff, true_and]
    constructor
    · rintro ⟨ended, braces⟩
      exact ⟨fun text same => braces text (.inl same.symm), ended,
        fun text mem => braces text (.inr mem)⟩
    · rintro ⟨first, ended, braces⟩
      exact ⟨ended, fun text mem => mem.elim (fun same => first text same.symm) (braces text)⟩

/-- What the first part of a regular string is not. -/
def Token.Regular : Token → Prop
  | .braced text => text ∉ [[], ['+'], ['^'], ['%']]
  | .group text => RegularTokens (tokens text)
  | _ => True

theorem regular_of_tokens {part : Token} (split : tokens keys = part :: tokens rest) :
    Regular keys ↔ (rest = [] → ∀ c, part ≠ .modifier c) ∧ part.Regular ∧ Regular rest := by
  rw [Regular, Regular, split, regularTokens_cons, tokens_eq_nil_iff]
  cases part <;> simp [Token.Regular, or_imp, forall_and, and_assoc]
  tauto

/-! ### Regular strings -/

theorem not_mem_tokens_group (s : Scan keys) (closes : ')' ∉ keys)
    (ok : Enters t keys unicode trailer es) (inner : List Char) : .group inner ∉ tokens keys := by
  induction s generalizing unicode trailer es with
  | nil => simp [tokens_nil]
  | modifier m _ ih =>
    obtain ⟨es', after, -⟩ := (enters_modifier m).mp ok
    rw [tokens_modifier]
    simpa using ih (fun mem => closes (mem_cons_of_mem _ mem)) after
  | key plain _ ih =>
    obtain ⟨es', after, -⟩ := (enters_key plain).mp ok
    rw [tokens_key plain]
    simpa using ih (fun mem => closes (mem_cons_of_mem _ mem)) after
  | group => exact absurd (by simp) closes
  | groupOpen opened => exact absurd ok (not_enters_group opened)
  | braced brace _ ih =>
    obtain ⟨r, es', -, after, -⟩ := (enters_braced brace).mp ok
    rw [tokens_braced brace]
    simpa using ih (fun mem => closes (by simp [mem])) after
  | bracedOpen opened => exact absurd ok (not_enters_braced opened)

/-- Inside a group the same items are well-formed, but for a closing parenthesis. -/
theorem Item.wellFormed_inGroup (item : Item) (formed : item.WellFormed t false)
    (closes : ')' ∉ item.text) : item.WellFormed t true := by
  cases item with
  | key c => exact ⟨formed.1, fun _ same => closes (same ▸ mem_cons_self)⟩
  | braced c count => exact formed
  | named name => exact formed
  | group items => exact absurd (by simp [Item.text]) closes
  | modified m item =>
    exact item.wellFormed_inGroup formed fun mem => closes (mem_cons_of_mem _ mem)

theorem wellFormeds_inGroup (items : List Item) (formed : WellFormeds t false items)
    (closes : ')' ∉ texts items) : WellFormeds t true items := by
  induction items with
  | nil => trivial
  | cons item items ih =>
    rw [texts, mem_append, not_or] at closes
    exact ⟨item.wellFormed_inGroup formed.1 closes.1, ih formed.2 closes.2⟩

/-- An item under modifiers, the first one outermost -/
def under (ms : List Modifier) (item : Item) : Item := ms.foldr .modified item

/-- The keys to be released after the item under modifiers -/
def releases (ms : List Modifier) : List Event := (ms.map fun m => .keyup m.key).reverse

def presses (ms : List Modifier) : List Event := ms.map fun m => .keydown m.key

theorem text_under (ms : List Modifier) (item : Item) :
    (under ms item).text = ms.map Modifier.char ++ item.text := by
  induction ms with
  | nil => rfl
  | cons m ms ih => exact congrArg (m.char :: ·) ih

theorem wellFormed_under {inGroup : Bool} {item : Item} (formed : item.WellFormed t inGroup)
    (ms : List Modifier) : (under ms item).WellFormed t inGroup := by
  induction ms with
  | nil => exact formed
  | cons m ms ih => exact ih

theorem meaning_under (ms : List Modifier) (item : Item) :
    (under ms item).meaning t = presses ms ++ item.meaning t ++ releases ms := by
  induction ms with
  | nil => simp [under, presses, releases]
  | cons m ms ih =>
    change .keydown m.key :: (under ms item).meaning t ++ [.keyup m.key] = _
    rw [ih]
    simp [presses, releases]

theorem releases_snoc (ms : List Modifier) (m : Modifier) :
    releases (ms ++ [m]) = .keyup m.key :: releases ms := by simp [releases]

/-- The items of a string under the modifiers before it. -/
def Spells (t : Tcl) (ms : List Modifier) (keys : List Char) (es : List Event) : Prop :=
  ∃ items, WellFormeds t false items ∧ texts items = ms.map Modifier.char ++ keys ∧
    meanings t items = presses ms ++ es

theorem Spells.cons {item : Item} (formed : item.WellFormed t false) (ms : List Modifier)
    (after : Spells t [] rest es) :
    Spells t ms (item.text ++ rest) (item.meaning t ++ releases ms ++ es) := by
  obtain ⟨items, formed', text, meaning⟩ := after
  refine ⟨under ms item :: items, ⟨wellFormed_under formed ms, formed'⟩, ?_, ?_⟩
  · rw [texts, text_under, text, map_nil, nil_append, append_assoc]
  · rw [meanings, meaning_under, meaning]
    simp [presses]

/-- What stands between braces is an item, unless it is one of those that are got wrong. -/
theorem exists_braced {r : List Event × Option Nat} (closes : '}' ∉ text)
    (regular : text ∉ [[], ['+'], ['^'], ['%']]) (ok : braced t text unicode = .ok r) :
    ∃ item : Item, item.WellFormed t false ∧ item.text = '{' :: (text ++ ['}']) ∧
      item.meaning t = r.1 := by
  simp only [mem_cons, not_mem_nil, or_false, not_or] at regular
  obtain ⟨nonempty, plus, caret, percent⟩ := regular
  have name : namedKey t text = vk (text.map t.toupper) := by
    rw [namedKey, if_neg (by simp [plus, caret, percent])]
  rw [braced] at ok
  cases found : vk (text.map t.toupper) with
  | some k =>
    rw [found] at ok
    cases ok
    exact ⟨.named text, ⟨closes, by rw [name, found]; rfl⟩, rfl, by
      rw [Item.meaning, name, found]; rfl⟩
  | none =>
    obtain ⟨c, count, rfl⟩ := exists_cons_of_ne_nil nonempty
    rw [found] at ok
    obtain ⟨n, read, entered⟩ := bind_eq_ok ok
    cases entered
    have number := readCount_eq_ok.mp read
    have closes' : '}' ∉ count := fun mem => closes (mem_cons_of_mem _ mem)
    refine ⟨.braced c count, ⟨closes', by rw [tail_cons] at number; simp [number],
      by rw [name, found]⟩, rfl, ?_⟩
    rw [Item.meaning]
    rw [tail_cons] at number
    simp [number]

theorem exists_items (s : Scan keys) (regular : Regular keys) (ms : List Modifier)
    (held : keys = [] → ms = []) (ok : Enters t keys unicode (releases ms) es) :
    Spells t ms keys es := by
  induction s generalizing unicode ms es with
  | nil =>
    obtain rfl := enters_nil.mp ok
    obtain rfl := held rfl
    exact ⟨[], trivial, rfl, rfl⟩
  | @modifier m rest _ ih =>
    obtain ⟨more, -, regular'⟩ := (regular_of_tokens (tokens_modifier m)).mp regular
    obtain ⟨es', after, rfl⟩ := (enters_modifier m).mp ok
    rw [← releases_snoc] at after
    obtain ⟨items, formed, text, meaning⟩ :=
      ih regular' _ (fun none => absurd rfl (more none m.char)) after
    exact ⟨items, formed, by simpa using text, by simpa [presses] using meaning⟩
  | @key c rest plain _ ih =>
    obtain ⟨-, -, regular'⟩ := (regular_of_tokens (tokens_key plain)).mp regular
    obtain ⟨es', after, rfl⟩ := (enters_key plain).mp ok
    have formed : (Item.key c).WellFormed t false := ⟨plain, fun inGroup => nomatch inGroup⟩
    exact .cons formed ms (ih regular' [] (fun _ => rfl) after)
  | @group text rest closes s _ ihText ih =>
    obtain ⟨-, inner, regular'⟩ := (regular_of_tokens (tokens_group closes)).mp regular
    obtain ⟨group, es', read, after, rfl⟩ := (enters_group closes).mp ok
    have flat := not_mem_tokens_group s closes read
    obtain ⟨items, formed, same, meaning⟩ :=
      ihText ⟨inner, fun text mem => absurd mem (flat text)⟩ [] (fun _ => rfl) read
    have formed' : (Item.group items).WellFormed t false :=
      wellFormeds_inGroup items formed (same ▸ closes)
    have spelled := Spells.cons formed' ms (ih regular' [] (fun _ => rfl) after)
    rw [Item.text, same, Item.meaning, meaning] at spelled
    simpa [presses] using spelled
  | groupOpen opened => exact absurd ok (not_enters_group opened)
  | @braced text rest closes _ ih =>
    obtain ⟨-, whole, regular'⟩ := (regular_of_tokens (tokens_braced closes)).mp regular
    obtain ⟨r, es', read, after, rfl⟩ := (enters_braced closes).mp ok
    obtain ⟨item, formed, same, meaning⟩ := exists_braced closes whole read
    have spelled := Spells.cons formed ms (ih regular' [] (fun _ => rfl) after)
    rw [same, meaning] at spelled
    simpa using spelled
  | bracedOpen opened => exact absurd ok (not_enters_braced opened)

/-! ### Items that are got wrong -/

mutual

/-- An item that is got right -/
def Item.Clean : Item → Prop
  | .key _ => True
  | .braced c count => c ≠ '}' ∧ c :: count ∉ [['+'], ['^'], ['%']]
  | .named _ => True
  | .group items => ')' ∉ texts items ∧ Cleans items
  | .modified _ item => item.Clean

def Cleans : List Item → Prop
  | [] => True
  | item :: items => item.Clean ∧ Cleans items

end

/-- Only keys that are released. -/
def Released (trailer : List Event) : Prop := ∀ e ∈ trailer, ∃ k, e = .keyup k

theorem released_nil : Released [] := by simp [Released]

/-- What is entered for an item or for several is their meaning, or has too much. -/
def Compares (clean : Prop) (entered meant : List Event) : Prop :=
  clean ∧ entered = meant ∨ Surplus entered meant

theorem press_ne {c : Char} (other : c ≠ '}') : press c ≠ .unicode '}'.toNat := by
  rw [press]
  split
  · exact fun same => by cases same
  · split
    · exact fun same => by cases same
    · exact fun same => other (Char.toNat_inj.mp (Event.unicode.inj same))

/-- A count that is read as keys, up to the brace after it -/
theorem enters_count {count : List Char} (plain : ∀ c ∈ count, c ∈ special → c = '+')
    (ok : Enters t (count ++ '}' :: rest) unicode trailer es) :
    ∃ e q unicode' es', es = e :: q ++ es' ∧ Enters t rest unicode' [] es' ∧
      (count ≠ [] → e ≠ .unicode '}'.toNat) := by
  induction count generalizing unicode trailer es with
  | nil =>
    obtain ⟨es', after, rfl⟩ := (enters_key (by decide)).mp ok
    exact ⟨press '}', trailer, _, es', rfl, after, fun more => absurd rfl more⟩
  | cons c count ih =>
    have plain' := fun c mem => plain c (mem_cons_of_mem _ mem)
    by_cases sign : c = '+'
    · subst sign
      obtain ⟨es', after, rfl⟩ := (enters_modifier .shift).mp ok
      obtain ⟨e, q, unicode', es', rfl, left, -⟩ := ih plain' after
      exact ⟨.keydown Modifier.shift.key, e :: q, unicode', es', rfl, left,
        fun _ same => nomatch same⟩
    · have ordinary : c ∉ special := fun mem => sign (plain c mem_cons_self mem)
      have asKey : c ∉ ['+', '^', '%', '(', '{'] := by
        simp only [special, mem_cons, not_or] at ordinary ⊢
        tauto
      have notEnter : c ≠ '~' := by
        rintro rfl
        exact ordinary (by decide)
      have notBrace : c ≠ '}' := by
        rintro rfl
        exact ordinary (by decide)
      obtain ⟨es', after, rfl⟩ := (enters_key asKey).mp ok
      obtain ⟨e, q, unicode', es', rfl, left, -⟩ := ih plain' after
      refine ⟨press c, trailer ++ e :: q, unicode', es', ?_, left, fun _ => press_ne notBrace⟩
      simp [Item.meaning, notEnter]

/-- A brace that is closed at once enters the last character again, and then its own text. -/
theorem surplus_closed {count : List Char} {c : Nat} {e : Event} {q : List Event}
    (released : Released trailer) (number : (times t count).isSome)
    (other : count ≠ [] → e ≠ .unicode '}'.toNat) :
    Surplus (.unicode c :: trailer ++ e :: q) ((Item.braced '}' count).meaning t ++ trailer) := by
  rw [Item.meaning]
  rcases eq_or_ne count [] with rfl | nonempty
  · have once : times t [] = some 1 := by simp [times, Tcl.trim]
    rw [once]
    exact .of_length (by simp)
  · cases trailer with
    | nil => exact .of_replicate (other nonempty) (by simp)
    | cons first trailer =>
      obtain ⟨k, rfl⟩ := released first mem_cons_self
      exact .of_replicate (fun same => by cases same) (by simp)

theorem upTo_group (items : List Item) : ∃ inner, ')' ∉ inner ∧
    upTo ')' (Item.group items).text = '(' :: inner := by
  refine ⟨upTo ')' (texts items ++ [')']), not_mem_upTo _ _, ?_⟩
  simp [Item.text, upTo]

/-- An item of a group that has a closing parenthesis is cut there. -/
theorem Item.cut (item : Item) (formed : item.WellFormed t true) (mem : ')' ∈ item.text)
    (trailer es : List Event) : ¬ Enters t (upTo ')' item.text) unicode trailer es := by
  cases item with
  | key c => exact absurd (mem_singleton.mp mem).symm (formed.2 rfl)
  | braced c count =>
    have inCount : ')' ∉ count := fun mem =>
      absurd (times_special formed.2.1 ')' mem (by decide)) (by decide)
    have first : c = ')' := by simpa [Item.text, inCount, eq_comm] using mem
    subst first
    have opened : upTo ')' (Item.braced ')' count).text = ['{'] := rfl
    rw [opened]
    exact not_enters_braced (by simp)
  | named name =>
    obtain ⟨k, found⟩ := Option.isSome_iff_exists.mp formed.2
    have inName : ')' ∉ name := fun mem => (namedKey_special found).2 ')' mem (by decide)
    simp [Item.text, inName] at mem
  | group items =>
    obtain ⟨inner, closes, same⟩ := upTo_group items
    rw [same]
    exact not_enters_group closes
  | modified m item =>
    have later : ')' ∈ item.text := by
      refine (mem_cons.mp mem).resolve_left ?_
      cases m <;> decide
    have split : upTo ')' (Item.modified m item).text = m.char :: upTo ')' item.text := by
      have ne : (m.char != ')') = true := by cases m <;> decide
      simp [Item.text, upTo, ne]
    rw [split, enters_modifier]
    rintro ⟨es', after, -⟩
    exact item.cut formed later _ _ after

variable {r : List Event × Option Nat} {o o' : List Event}

theorem Compares.after {clean : Prop} (compared : Compares clean o o') (before : List Event) :
    Compares clean (before ++ o) (before ++ o') :=
  compared.imp (fun same => ⟨same.1, by rw [same.2]⟩) fun surplus => surplus.after before

theorem Compares.append {clean clean' : Prop} {o o' p p' : List Event}
    (first : Compares clean o o') (second : Compares clean' p p') :
    Compares (clean ∧ clean') (o ++ p) (o' ++ p') := by
  rcases first with ⟨right, rfl⟩ | surplus
  · exact (second.after o).imp_left fun same => ⟨⟨right, same.1⟩, same.2⟩
  · refine .inr (surplus.append ?_)
    rcases second with ⟨-, rfl⟩ | surplus'
    · exact .refl p
    · exact surplus'.keeps

theorem Compares.snoc {clean : Prop} (compared : Compares clean o o') (after : List Event) :
    Compares clean (o ++ after) (o' ++ after) := by
  rcases compared with ⟨right, rfl⟩ | surplus
  · exact .inl ⟨right, rfl⟩
  · exact .inr (surplus.append (.refl after))

/-- The three characters that the table has as keys are entered as keys. -/
theorem braced_modifier (m : Modifier) (unicode : Option Nat) :
    braced t [m.char] unicode = .ok ([.key m.key], unicode) := by
  have isSpecial : m.char ∈ special := by cases m <;> decide
  have upper : t.toupper m.char = m.char := (t.toupper_special isSpecial).mpr rfl
  have found : vk [m.char] = some m.key := by cases m <;> rfl
  simp [braced, upper, found]

theorem braced_named {name : List Char} {k : Vk} (found : namedKey t name = some k)
    (unicode : Option Nat) : braced t name unicode = .ok ([.key k], unicode) := by
  rw [namedKey] at found
  split at found
  · cases found
  · rw [braced, found]

theorem braced_count {c : Char} {count : List Char} {n : Nat}
    (plain : vk ((c :: count).map t.toupper) = none) (number : times t count = some n)
    (ok : braced t (c :: count) unicode = .ok r) :
    r.1 = List.replicate n (.unicode c.toNat) := by
  rw [braced, plain] at ok
  obtain ⟨n', read, entered⟩ := bind_eq_ok ok
  have same := (readCount_eq_ok.mp read).symm.trans number
  cases same
  cases entered
  rfl

theorem braced_nil (ok : braced t [] unicode = .ok r) :
    ∃ c, r.1 = [.unicode c] := by
  have absent : vk ([].map t.toupper) = none := rfl
  rw [braced, absent] at ok
  obtain ⟨n, read, entered⟩ := bind_eq_ok ok
  have once : times t [] = some 1 := by simp [times, Tcl.trim]
  have same := (readCount_eq_ok.mp read).symm.trans once
  cases same
  cases unicode with
  | none => cases entered
  | some c =>
    cases entered
    exact ⟨c, rfl⟩

theorem modifier_of_symbol {name : List Char} (symbol : name ∈ [['+'], ['^'], ['%']]) :
    ∃ m : Modifier, name = [m.char] := by
  simp only [mem_cons, not_mem_nil, or_false] at symbol
  rcases symbol with rfl | rfl | rfl
  · exact ⟨.shift, rfl⟩
  · exact ⟨.control, rfl⟩
  · exact ⟨.alt, rfl⟩

theorem enters_item_braced {c : Char} {count : List Char} {inGroup : Bool}
    (formed : (Item.braced c count).WellFormed t inGroup) (released : Released trailer)
    (ok : Enters t ((Item.braced c count).text ++ rest) unicode trailer es) :
    ∃ o unicode' es', es = o ++ es' ∧ Enters t rest unicode' [] es' ∧
      Compares (Item.braced c count).Clean o ((Item.braced c count).meaning t ++ trailer) := by
  obtain ⟨closes, number, unnamed⟩ := formed
  obtain ⟨n, times_eq⟩ := Option.isSome_iff_exists.mp number
  by_cases atOnce : c = '}'
  · -- The text of the item is `{}`, and what follows it is entered as keys.
    subst atOnce
    have ok' : Enters t ('{' :: ([] ++ '}' :: (count ++ '}' :: rest))) unicode trailer es := by
      simpa [Item.text] using ok
    obtain ⟨r, es₁, read, after, rfl⟩ := (enters_braced (by simp)).mp ok'
    obtain ⟨last, entered⟩ := braced_nil read
    obtain ⟨e, q, unicode', es', rfl, left, other⟩ :=
      enters_count (times_special number) after
    refine ⟨.unicode last :: trailer ++ e :: q, unicode', es', by simp [entered], left, ?_⟩
    exact .inr (surplus_closed released number other)
  · have ok' : Enters t ('{' :: ((c :: count) ++ '}' :: rest)) unicode trailer es := by
      simpa [Item.text] using ok
    have closes' : '}' ∉ c :: count := by simpa [Ne.symm atOnce] using closes
    obtain ⟨r, es', read, after, rfl⟩ := (enters_braced closes').mp ok'
    refine ⟨r.1 ++ trailer, r.2, es', rfl, after, ?_⟩
    by_cases symbol : c :: count ∈ [['+'], ['^'], ['%']]
    · obtain ⟨m, same⟩ := modifier_of_symbol symbol
      obtain ⟨rfl, rfl⟩ := cons.inj same
      rw [braced_modifier] at read
      cases read
      have once : times t [] = some 1 := by simp [times, Tcl.trim]
      rw [Item.meaning, once]
      exact .inr (.of_head (fun same => by cases same) (by simp))
    · have plain : vk ((c :: count).map t.toupper) = none := by
        rw [namedKey, if_neg (by simpa using symbol)] at unnamed
        exact unnamed
      rw [braced_count plain times_eq read, Item.meaning, times_eq]
      exact .inl ⟨⟨atOnce, symbol⟩, rfl⟩

mutual

/-- What is entered for an item, from any state: its meaning, or too much. -/
theorem Item.enters (item : Item) {inGroup : Bool} (formed : item.WellFormed t inGroup)
    {rest : List Char} {unicode : Option Nat} {trailer es : List Event}
    (released : Released trailer) (ok : Enters t (item.text ++ rest) unicode trailer es) :
    ∃ o unicode' es', es = o ++ es' ∧ Enters t rest unicode' [] es' ∧
      Compares item.Clean o (item.meaning t ++ trailer) := by
  cases item with
  | key c =>
    obtain ⟨es', after, rfl⟩ := (enters_key formed.1).mp ok
    exact ⟨_, _, es', rfl, after, .inl ⟨trivial, rfl⟩⟩
  | braced c count => exact enters_item_braced formed released ok
  | named name =>
    obtain ⟨k, found⟩ := Option.isSome_iff_exists.mp formed.2
    have ok' : Enters t ('{' :: (name ++ '}' :: rest)) unicode trailer es := by
      simpa [Item.text] using ok
    obtain ⟨r, es', read, after, rfl⟩ := (enters_braced formed.1).mp ok'
    rw [braced_named found] at read
    cases read
    refine ⟨_, _, es', rfl, after, .inl ⟨trivial, ?_⟩⟩
    rw [Item.meaning, found]
    rfl
  | group items =>
    by_cases closes : ')' ∈ texts items
    · -- The group is read up to the first closing parenthesis.
      obtain ⟨before, later, split, first⟩ := eq_append_cons_of_mem closes
      have ok' : Enters t ('(' :: (before ++ ')' :: (later ++ ')' :: rest))) unicode trailer
          es := by
        simpa [Item.text, split] using ok
      obtain ⟨group, es', read, -, -⟩ := (enters_group first).mp ok'
      refine absurd ?_ (cut_items items formed closes none group)
      rw [split, upTo_first first]
      exact read
    · have ok' : Enters t ('(' :: (texts items ++ ')' :: rest)) unicode trailer es := by
        simpa [Item.text] using ok
      obtain ⟨group, es', read, after, rfl⟩ := (enters_group closes).mp ok'
      obtain ⟨o, unicode', none', rfl, ended, compared⟩ :=
        enters_items items formed [] (by simpa using read)
      obtain rfl := enters_nil.mp ended
      refine ⟨o ++ trailer, unicode, es', by simp, after, ?_⟩
      rw [Item.meaning]
      exact (compared.snoc trailer).imp_left fun same => ⟨⟨closes, same.1⟩, same.2⟩
  | modified m item =>
    obtain ⟨es₁, after, rfl⟩ := (enters_modifier m).mp ok
    have released' : Released (.keyup m.key :: trailer) := by
      intro e mem
      rcases mem_cons.mp mem with rfl | mem
      · exact ⟨_, rfl⟩
      · exact released e mem
    obtain ⟨o, unicode', es', rfl, left, compared⟩ := item.enters formed released' after
    refine ⟨.keydown m.key :: o, unicode', es', rfl, left, ?_⟩
    have whole := compared.after [.keydown m.key]
    rw [Item.Clean, Item.meaning]
    simpa using whole

theorem enters_items (items : List Item) {inGroup : Bool} (formed : WellFormeds t inGroup items)
    (rest : List Char) {unicode : Option Nat} {es : List Event}
    (ok : Enters t (texts items ++ rest) unicode [] es) :
    ∃ o unicode' es', es = o ++ es' ∧ Enters t rest unicode' [] es' ∧
      Compares (Cleans items) o (meanings t items) := by
  cases items with
  | nil => exact ⟨[], unicode, es, rfl, ok, .inl ⟨trivial, rfl⟩⟩
  | cons item items =>
    rw [texts, append_assoc] at ok
    obtain ⟨o, unicode₁, es₁, rfl, after, first⟩ :=
      item.enters formed.1 released_nil ok
    obtain ⟨p, unicode', es', rfl, left, second⟩ := enters_items items formed.2 rest after
    rw [append_nil] at first
    exact ⟨o ++ p, unicode', es', by simp, left, first.append second⟩

/-- A group with a closing parenthesis inside is an error. -/
theorem cut_items (items : List Item) (formed : WellFormeds t true items)
    (closes : ')' ∈ texts items) (unicode : Option Nat) (es : List Event) :
    ¬ Enters t (upTo ')' (texts items)) unicode [] es := by
  cases items with
  | nil => cases closes
  | cons item items =>
    rw [texts] at closes ⊢
    by_cases here : ')' ∈ item.text
    · rw [upTo_append_of_mem here]
      exact item.cut formed.1 here _ _
    · intro ok
      rw [upTo_append_of_not_mem here] at ok
      obtain ⟨-, unicode', es', -, after, -⟩ :=
        item.enters formed.1 released_nil ok
      exact cut_items items formed.2 ((mem_append.mp closes).resolve_left here) _ _ after

end

/-! ### The accepted strings -/

theorem regular_nil : Regular [] := by simp [Regular, RegularTokens, tokens_nil]

theorem text_ne_nil (item : Item) : item.text ≠ [] := by cases item <;> simp [Item.text]

mutual

theorem Item.regular (item : Item) {inGroup : Bool} (formed : item.WellFormed t inGroup)
    (clean : item.Clean) {rest : List Char} (after : Regular rest) :
    Regular (item.text ++ rest) := by
  cases item with
  | key c =>
    exact (regular_of_tokens (tokens_key formed.1)).mpr
      ⟨fun _ c same => (nomatch same), trivial, after⟩
  | braced c count =>
    have closes : '}' ∉ c :: count := by simpa [Ne.symm clean.1] using formed.1
    have split : tokens ('{' :: (c :: count ++ '}' :: rest)) = _ := tokens_braced closes
    have regular := (regular_of_tokens split).mpr
      ⟨fun _ c same => (nomatch same), by simpa [Token.Regular] using clean.2, after⟩
    simpa [Item.text] using regular
  | named name =>
    obtain ⟨k, found⟩ := Option.isSome_iff_exists.mp formed.2
    have symbol : name ∉ [['+'], ['^'], ['%']] := by
      intro symbol
      rw [namedKey, if_pos (by simpa using symbol)] at found
      cases found
    have split : tokens ('{' :: (name ++ '}' :: rest)) = _ := tokens_braced formed.1
    have regular := (regular_of_tokens split).mpr
      ⟨fun _ c same => (nomatch same),
        by simpa [Token.Regular, (namedKey_special found).1] using symbol, after⟩
    simpa [Item.text] using regular
  | group items =>
    have split : tokens ('(' :: (texts items ++ ')' :: rest)) = _ := tokens_group clean.1
    have regular := (regular_of_tokens split).mpr
      ⟨fun _ c same => (nomatch same), (regular_items items formed clean.2).1, after⟩
    simpa [Item.text] using regular
  | modified m item =>
    refine (regular_of_tokens (tokens_modifier m)).mpr ⟨fun ended => ?_, trivial,
      item.regular formed clean after⟩
    exact absurd (append_eq_nil_iff.mp ended).1 (text_ne_nil item)

theorem regular_items (items : List Item) {inGroup : Bool} (formed : WellFormeds t inGroup items)
    (clean : Cleans items) : Regular (texts items) := by
  cases items with
  | nil => exact regular_nil
  | cons item items =>
    exact item.regular formed.1 clean.1 (regular_items items formed.2 clean.2)

end

/-- **`_parse_send_keys`**: what it returns for a string it accepts is the meaning of the string,
which leaves no key down, just where no modifier ends the string or a group, no brace is closed at
once, and none has a modifier alone. -/
theorem parseSendKeys_denotes_iff (ok : parseSendKeys t keys = .ok es) :
    (Denotes t keys es ∧ ∀ held, heldAfter held es = held) ↔ Regular keys := by
  constructor
  · rintro ⟨⟨items, formed, text, meaning⟩, -⟩
    have whole : Enters t (texts items ++ []) none [] es := by
      rw [text, append_nil]
      exact ok
    obtain ⟨o, unicode, none', rfl, ended, compared⟩ := enters_items items formed [] whole
    obtain rfl := enters_nil.mp ended
    rcases compared with ⟨clean, -⟩ | surplus
    · exact text ▸ regular_items items formed clean
    · exact absurd (by simp [meaning]) surplus.ne
  · intro regular
    obtain ⟨items, formed, text, meaning⟩ :=
      exists_items (scan keys) regular [] (fun _ => rfl) ok
    obtain rfl : meanings t items = es := meaning
    exact ⟨⟨items, formed, text, rfl⟩, heldAfter_meanings items⟩

/-! ### A Tcl with decimal digits -/

theorem toUpper_special {c s : Char} (mem : s ∈ special) : c.toUpper = s ↔ c = s := by
  have outside : ¬ (97 ≤ s.val ∧ s.val ≤ 122) ∧ ¬ (65 ≤ s.val ∧ s.val ≤ 90) := by
    simp only [special, mem_cons, not_mem_nil, or_false] at mem
    rcases mem with rfl | rfl | rfl | rfl | rfl | rfl | rfl | rfl <;> decide
  unfold Char.toUpper
  split
  · next lower =>
    constructor
    · rintro rfl
      refine absurd ?_ outside.2
      simp only
      grind
    · rintro rfl
      exact absurd lower outside.1
  · rfl

def decimal (s : List Char) : Option Int :=
  if s.all Char.isDigit then some (s.foldl (fun n c => 10 * n + (c.toNat - 48)) 0) else none

def asciiTcl : Tcl where
  toupper := Char.toUpper
  space c := c = ' '
  integer := decimal
  toupper_special := toUpper_special
  space_special mem := by
    simp only [special, List.mem_cons, List.not_mem_nil, or_false] at mem
    rcases mem with rfl | rfl | rfl | rfl | rfl | rfl | rfl | rfl <;> rfl
  integer_special := by
    intro s n number c mem isSpecial
    rw [decimal, Option.ite_none_right_eq_some] at number
    have digit := List.all_eq_true.mp number.1 c mem
    simp only [special, List.mem_cons, List.not_mem_nil, or_false] at isSpecial
    rcases isSpecial with rfl | rfl | rfl | rfl | rfl | rfl | rfl | rfl <;> cases digit

theorem parseSendKeys_denotes_iff_shifted :
    (Denotes asciiTcl "+{f1}".toList
      [.keydown ⟨0x10, false⟩, .key ⟨0x70, false⟩, .keyup ⟨0x10, false⟩] ∧
        ∀ held, heldAfter held
          [.keydown ⟨0x10, false⟩, .key ⟨0x70, false⟩, .keyup ⟨0x10, false⟩] = held) ↔
      Regular "+{f1}".toList := by
  refine parseSendKeys_denotes_iff ((enters_modifier .shift).mpr ⟨_, ?_, rfl⟩)
  have brace : Enters asciiTcl ('{' :: (['f', '1'] ++ '}' :: [])) none [.keyup ⟨0x10, false⟩] _ :=
    (enters_braced (by decide)).mpr ⟨_, [], rfl, enters_nil.mpr rfl, rfl⟩
  exact brace

/-- A modifier that ends the string leaves its key down. -/
theorem last_modifier_held : ¬ ∀ (t : Tcl) (keys : List Char) (es : List Event),
    parseSendKeys t keys = .ok es → Denotes t keys es ∧ ∀ held, heldAfter held es = held := by
  intro claim
  have accepted : parseSendKeys asciiTcl "+".toList = .ok [.keydown Modifier.shift.key] := by
    exact (enters_modifier .shift).mpr ⟨[], enters_nil.mpr rfl, rfl⟩
  have released := (claim _ _ _ accepted).2 []
  cases released

end Twapi.Input
