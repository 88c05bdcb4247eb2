import Twapi.Input.SendKeys

/-!
The documented grammar of the keys (`doc/input.man`) as a syntax tree with its text and its
meaning.

* `Item` — a character, a braced item, a group, an item under a modifier.
* `Denotes` — a list of events is the meaning of a key string.
* `heldAfter_meaning` — the meaning of a key string leaves no key down.
* `Regular` — the key strings without the items that `_parse_send_keys` gets wrong.
-/

namespace Twapi.Input

variable {t : Tcl}

/-! ### Items -/

inductive Modifier where
  | shift
  | control
  | alt
deriving DecidableEq

def Modifier.char : Modifier → Char
  | .shift => '+'
  | .control => '^'
  | .alt => '%'

def Modifier.key : Modifier → Vk
  | .shift => ⟨0x10, false⟩
  | .control => ⟨0x11, false⟩
  | .alt => ⟨0x12, false⟩

/-- An item of a key string, with its text: the blanks before a count, the case of a name. -/
inductive Item where
  /-- a character for itself, or `~` -/
  | key (c : Char)
  /-- `{C}` and `{C N}` -/
  | braced (c : Char) (count : List Char)
  /-- `{NAME}` -/
  | named (name : List Char)
  | group (items : List Item)
  | modified (m : Modifier) (item : Item)

mutual

def Item.text : Item → List Char
  | .key c => [c]
  | .braced c count => '{' :: c :: count ++ ['}']
  | .named name => '{' :: name ++ ['}']
  | .group items => '(' :: texts items ++ [')']
  | .modified m item => m.char :: item.text

def texts : List Item → List Char
  | [] => []
  | item :: items => item.text ++ texts items

end

/-- The names of the keys: the table has the modifier characters too. -/
def namedKey (t : Tcl) (name : List Char) : Option Vk :=
  if name = ['+'] ∨ name = ['^'] ∨ name = ['%'] then none else vk (name.map t.toupper)

/-- The number that a count stands for: 1 where it is left out -/
def times (t : Tcl) (count : List Char) : Option Nat :=
  if t.trim count = [] then some 1
  else
    match t.integer (t.trim count) with
    | some (.ofNat n) => some n
    | _ => none

mutual

/-- The items that the grammar has. A closing parenthesis stands for itself where it does not
close a group. -/
def Item.WellFormed (t : Tcl) (inGroup : Bool) : Item → Prop
  | .key c => c ∉ ['+', '^', '%', '(', '{'] ∧ (inGroup → c ≠ ')')
  | .braced c count => '}' ∉ count ∧ (times t count).isSome ∧ namedKey t (c :: count) = none
  | .named name => '}' ∉ name ∧ (namedKey t name).isSome
  | .group items => WellFormeds t true items
  | .modified _ item => item.WellFormed t inGroup

def WellFormeds (t : Tcl) (inGroup : Bool) : List Item → Prop
  | [] => True
  | item :: items => item.WellFormed t inGroup ∧ WellFormeds t inGroup items

end

mutual

def Item.meaning (t : Tcl) : Item → List Event
  | .key c => if c = '~' then [.key ⟨0x0D, false⟩] else [press c]
  | .braced c count => List.replicate ((times t count).getD 0) (.unicode c.toNat)
  | .named name => ((namedKey t name).map Event.key).toList
  | .group items => meanings t items
  | .modified m item => .keydown m.key :: item.meaning t ++ [.keyup m.key]

def meanings (t : Tcl) : List Item → List Event
  | [] => []
  | item :: items => item.meaning t ++ meanings t items

end

/-- `es` is the meaning of the key string `keys`. -/
def Denotes (t : Tcl) (keys : List Char) (es : List Event) : Prop :=
  ∃ items, WellFormeds t false items ∧ texts items = keys ∧ meanings t items = es

/-! ### Keys held down -/

/-- The keys that are held down after the events, the last one first -/
def heldAfter : List Vk → List Event → List Vk
  | held, [] => held
  | held, .keydown k :: es => heldAfter (k :: held) es
  | held, .keyup k :: es => heldAfter (held.erase k) es
  | held, _ :: es => heldAfter held es

theorem heldAfter_append (held : List Vk) (es es' : List Event) :
    heldAfter held (es ++ es') = heldAfter (heldAfter held es) es' := by
  induction es generalizing held with
  | nil => rfl
  | cons e es ih => cases e <;> exact ih _

theorem heldAfter_unicode (held : List Vk) (n c : Nat) :
    heldAfter held (List.replicate n (.unicode c)) = held := by
  induction n with
  | zero => rfl
  | succ n ih => exact ih

theorem heldAfter_press (held : List Vk) (c : Char) : heldAfter held [press c] = held := by
  rw [press]
  split
  · rfl
  · split <;> rfl

mutual

theorem Item.heldAfter_meaning (item : Item) (held : List Vk) :
    heldAfter held (item.meaning t) = held := by
  cases item with
  | key c =>
    rw [Item.meaning]
    split
    · rfl
    · exact heldAfter_press held c
  | braced c count => exact heldAfter_unicode held _ _
  | named name => rw [Item.meaning]; cases namedKey t name <;> rfl
  | group items => rw [Item.meaning]; exact heldAfter_meanings items held
  | modified m item =>
    rw [Item.meaning, List.cons_append, heldAfter, heldAfter_append,
      item.heldAfter_meaning (m.key :: held)]
    exact List.erase_cons_head m.key held

theorem heldAfter_meanings (items : List Item) (held : List Vk) :
    heldAfter held (meanings t items) = held := by
  cases items with
  | nil => rfl
  | cons item items =>
    rw [meanings, heldAfter_append, item.heldAfter_meaning, heldAfter_meanings items]

end

/-! ### The strings that are read right -/

/-- The parts of a key string as they stand in it: a brace and a parenthesis end at the first
closing one. -/
inductive Token where
  | modifier (c : Char)
  | key (c : Char)
  | group (text : List Char)
  | braced (text : List Char)
deriving DecidableEq

/-- What stands before the first `c` -/
def upTo (c : Char) (s : List Char) : List Char := s.takeWhile (· != c)

/-- What stands after the first `c` -/
def past (c : Char) (s : List Char) : List Char := (s.dropWhile (· != c)).tail

theorem length_past_le (c : Char) (s : List Char) : (past c s).length ≤ s.length :=
  Nat.le_trans (List.tail_suffix _).length_le (List.dropWhile_suffix _).length_le

def tokens : List Char → List Token
  | [] => []
  | c :: rest =>
    if c = '+' ∨ c = '^' ∨ c = '%' then .modifier c :: tokens rest
    else if c = '(' then .group (upTo ')' rest) :: tokens (past ')' rest)
    else if c = '{' then .braced (upTo '}' rest) :: tokens (past '}' rest)
    else .key c :: tokens rest
termination_by keys => keys.length
decreasing_by all_goals simp [Nat.lt_succ_iff, length_past_le]

/-- No modifier is the last, and no brace is closed at once or has a modifier alone. -/
def RegularTokens (ts : List Token) : Prop :=
  (∀ c, ts.getLast? ≠ some (.modifier c)) ∧
    ∀ text, .braced text ∈ ts → text ∉ [[], ['+'], ['^'], ['%']]

def Regular (keys : List Char) : Prop :=
  RegularTokens (tokens keys) ∧ ∀ text, .group text ∈ tokens keys → RegularTokens (tokens text)

end Twapi.Input
