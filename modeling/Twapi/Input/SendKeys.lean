/-!
The keys of `send_keys` (`tcl/input.tcl`): `_parse_send_keys` turns a string in the format of
Visual Basic's SendKeys into the list of events for `send_input`.
-/

namespace Twapi.Input

/-! ### What is used of Tcl -/

/-- The characters with a meaning in a key string -/
def special : List Char := ['+', '^', '%', '~', '(', ')', '{', '}']

/-- `string toupper`, which maps each character by itself, the white space that `string trim` takes
off, and the texts that `incr` takes for an integer. None of them knows the special characters,
but for the sign of an integer. -/
structure Tcl where
  toupper : Char → Char
  space : Char → Bool
  integer : List Char → Option Int
  toupper_special : ∀ {c s}, s ∈ special → (toupper c = s ↔ c = s)
  space_special : ∀ {c}, c ∈ special → space c = false
  integer_special : ∀ {s n}, integer s = some n → ∀ c ∈ s, c ∈ special → c = '+'

/-- `string trim` -/
def Tcl.trim (t : Tcl) (s : List Char) : List Char :=
  ((s.dropWhile t.space).reverse.dropWhile t.space).reverse

/-- `string first c s start` -/
def stringFirst (c : Char) (s : List Char) (start : Nat) : Option Nat :=
  ((s.drop start).findIdx? (· == c)).map (· + start)

/-- `string range s first last` -/
def stringRange (s : List Char) (first last : Nat) : List Char := (s.take (last + 1)).drop first

/-! ### The table of the keys -/

/-- A virtual key code, the scan code 0 and the option `-extended` -/
structure Vk where
  code : Nat
  extended : Bool
deriving DecidableEq

/-- `vk_map`, as `_init_vk_map` sets it -/
def vkMap : List (String × Vk) := [
  ("+", ⟨0x10, false⟩), ("^", ⟨0x11, false⟩), ("%", ⟨0x12, false⟩), ("BACK", ⟨0x08, false⟩),
  ("BACKSPACE", ⟨0x08, false⟩), ("BS", ⟨0x08, false⟩), ("BKSP", ⟨0x08, false⟩),
  ("TAB", ⟨0x09, false⟩), ("CLEAR", ⟨0x0C, false⟩), ("RETURN", ⟨0x0D, false⟩),
  ("ENTER", ⟨0x0D, false⟩), ("SHIFT", ⟨0x10, false⟩), ("CONTROL", ⟨0x11, false⟩),
  ("MENU", ⟨0x12, false⟩), ("ALT", ⟨0x12, false⟩), ("PAUSE", ⟨0x13, false⟩),
  ("BREAK", ⟨0x13, false⟩), ("CAPITAL", ⟨0x14, false⟩), ("CAPSLOCK", ⟨0x14, false⟩),
  ("KANA", ⟨0x15, false⟩), ("HANGEUL", ⟨0x15, false⟩), ("HANGUL", ⟨0x15, false⟩),
  ("JUNJA", ⟨0x17, false⟩), ("FINAL", ⟨0x18, false⟩), ("HANJA", ⟨0x19, false⟩),
  ("KANJI", ⟨0x19, false⟩), ("ESCAPE", ⟨0x1B, false⟩), ("ESC", ⟨0x1B, false⟩),
  ("CONVERT", ⟨0x1C, false⟩), ("NONCONVERT", ⟨0x1D, false⟩), ("ACCEPT", ⟨0x1E, false⟩),
  ("MODECHANGE", ⟨0x1F, false⟩), ("SPACE", ⟨0x20, false⟩), ("PRIOR", ⟨0x21, false⟩),
  ("PGUP", ⟨0x21, false⟩), ("NEXT", ⟨0x22, false⟩), ("PGDN", ⟨0x22, false⟩),
  ("END", ⟨0x23, false⟩), ("HOME", ⟨0x24, false⟩), ("LEFT", ⟨0x25, false⟩), ("UP", ⟨0x26, false⟩),
  ("RIGHT", ⟨0x27, false⟩), ("DOWN", ⟨0x28, false⟩), ("SELECT", ⟨0x29, false⟩),
  ("PRINT", ⟨0x2A, false⟩), ("PRTSC", ⟨0x2C, false⟩), ("EXECUTE", ⟨0x2B, false⟩),
  ("SNAPSHOT", ⟨0x2C, false⟩), ("INSERT", ⟨0x2D, false⟩), ("INS", ⟨0x2D, false⟩),
  ("DELETE", ⟨0x2E, false⟩), ("DEL", ⟨0x2E, false⟩), ("HELP", ⟨0x2F, false⟩),
  ("LWIN", ⟨0x5B, false⟩), ("RWIN", ⟨0x5C, false⟩), ("APPS", ⟨0x5D, false⟩),
  ("SLEEP", ⟨0x5F, false⟩), ("NUMPAD0", ⟨0x60, false⟩), ("NUMPAD1", ⟨0x61, false⟩),
  ("NUMPAD2", ⟨0x62, false⟩), ("NUMPAD3", ⟨0x63, false⟩), ("NUMPAD4", ⟨0x64, false⟩),
  ("NUMPAD5", ⟨0x65, false⟩), ("NUMPAD6", ⟨0x66, false⟩), ("NUMPAD7", ⟨0x67, false⟩),
  ("NUMPAD8", ⟨0x68, false⟩), ("NUMPAD9", ⟨0x69, false⟩), ("MULTIPLY", ⟨0x6A, false⟩),
  ("ADD", ⟨0x6B, false⟩), ("SEPARATOR", ⟨0x6C, false⟩), ("SUBTRACT", ⟨0x6D, false⟩),
  ("DECIMAL", ⟨0x6E, false⟩), ("DIVIDE", ⟨0x6F, false⟩), ("F1", ⟨0x70, false⟩),
  ("F2", ⟨0x71, false⟩), ("F3", ⟨0x72, false⟩), ("F4", ⟨0x73, false⟩), ("F5", ⟨0x74, false⟩),
  ("F6", ⟨0x75, false⟩), ("F7", ⟨0x76, false⟩), ("F8", ⟨0x77, false⟩), ("F9", ⟨0x78, false⟩),
  ("F10", ⟨0x79, false⟩), ("F11", ⟨0x7A, false⟩), ("F12", ⟨0x7B, false⟩), ("F13", ⟨0x7C, false⟩),
  ("F14", ⟨0x7D, false⟩), ("F15", ⟨0x7E, false⟩), ("F16", ⟨0x7F, false⟩), ("F17", ⟨0x80, false⟩),
  ("F18", ⟨0x81, false⟩), ("F19", ⟨0x82, false⟩), ("F20", ⟨0x83, false⟩), ("F21", ⟨0x84, false⟩),
  ("F22", ⟨0x85, false⟩), ("F23", ⟨0x86, false⟩), ("F24", ⟨0x87, false⟩),
  ("NUMLOCK", ⟨0x90, false⟩), ("SCROLL", ⟨0x91, false⟩), ("SCROLLLOCK", ⟨0x91, false⟩),
  ("LSHIFT", ⟨0xA0, false⟩), ("RSHIFT", ⟨0xA1, true⟩), ("LCONTROL", ⟨0xA2, false⟩),
  ("RCONTROL", ⟨0xA3, true⟩), ("LMENU", ⟨0xA4, false⟩), ("LALT", ⟨0xA4, false⟩),
  ("RMENU", ⟨0xA5, true⟩), ("RALT", ⟨0xA5, true⟩), ("BROWSER_BACK", ⟨0xA6, false⟩),
  ("BROWSER_FORWARD", ⟨0xA7, false⟩), ("BROWSER_REFRESH", ⟨0xA8, false⟩),
  ("BROWSER_STOP", ⟨0xA9, false⟩), ("BROWSER_SEARCH", ⟨0xAA, false⟩),
  ("BROWSER_FAVORITES", ⟨0xAB, false⟩), ("BROWSER_HOME", ⟨0xAC, false⟩),
  ("VOLUME_MUTE", ⟨0xAD, false⟩), ("VOLUME_DOWN", ⟨0xAE, false⟩), ("VOLUME_UP", ⟨0xAF, false⟩),
  ("MEDIA_NEXT_TRACK", ⟨0xB0, false⟩), ("MEDIA_PREV_TRACK", ⟨0xB1, false⟩),
  ("MEDIA_STOP", ⟨0xB2, false⟩), ("MEDIA_PLAY_PAUSE", ⟨0xB3, false⟩),
  ("LAUNCH_MAIL", ⟨0xB4, false⟩), ("LAUNCH_MEDIA_SELECT", ⟨0xB5, false⟩),
  ("LAUNCH_APP1", ⟨0xB6, false⟩), ("LAUNCH_APP2", ⟨0xB7, false⟩)]

/-- `[info exists vk_map($name)]`, with what it holds -/
def vk (name : List Char) : Option Vk := vkMap.lookup (String.ofList name)

/-- `$vk_map($name)` -/
def vkRead (name : List Char) : Except String Vk :=
  match vk name with
  | some k => .ok k
  | none => .error s!"can't read \"vk_map({String.ofList name})\": no such element in array"

/-! ### `_parse_send_keys` -/

/-- What `send_input` is told to do: a key goes down, up, or both, or a character is entered. -/
inductive Event where
  | keydown (k : Vk)
  | keyup (k : Vk)
  | key (k : Vk)
  | unicode (c : Nat)
deriving DecidableEq

/-- The default of the switch: letters and digits are keys, so that they work with modifiers. -/
def press (key : Char) : Event :=
  if 0x61 ≤ key.toNat ∧ key.toNat ≤ 0x7A then .key ⟨key.toNat - 32, false⟩
  else if 0x30 ≤ key.toNat ∧ key.toNat ≤ 0x39 then .key ⟨key.toNat, false⟩
  else .unicode key.toNat

/-- The count of `{C N}` after the character -/
def Tcl.readCount (t : Tcl) (rest : List Char) : Except String Nat :=
  let count := t.trim rest
  if count = [] then .ok 1
  else
    match t.integer count with
    | none => .error s!"expected integer but got \"{String.ofList count}\""
    | some n =>
      if n < 0 then .error "Negative character count specified in braced key input"
      else .ok n.toNat

/-- What stands between braces: its events, and the variable `unicode` after them. `scan` of an
empty string leaves the variable as it was, and reading it fails when it was never set. -/
def braced (t : Tcl) (key : List Char) (unicode : Option Nat) :
    Except String (List Event × Option Nat) :=
  match vk (key.map t.toupper) with
  | some k => .ok ([.key k], unicode)
  | none => do
    let unicode := (key.head?.map Char.toNat).or unicode
    let count ← t.readCount key.tail
    match unicode with
    | some c => .ok (List.replicate count (.unicode c), unicode)
    | none =>
      if count = 0 then .ok ([], unicode) else .error "can't read \"unicode\": no such variable"

/-- The loop of `_parse_send_keys` from the index where the string `keys` is left. `unicode` is
the variable that `scan` sets, `inputs` has the events and `trailer` the keys to be released after
the next item. -/
def parseKeys (t : Tcl) (keys : List Char) (unicode : Option Nat) (inputs trailer : List Event) :
    Except String (List Event) :=
  match keys with
  | [] => .ok inputs
  | key :: rest =>
    if key = '+' ∨ key = '^' ∨ key = '%' then do
      let k ← vkRead [key]
      parseKeys t rest unicode (inputs ++ [.keydown k]) (.keyup k :: trailer)
    else if key = '~' then do
      let k ← vkRead "RETURN".toList
      parseKeys t rest unicode (inputs ++ [.key k] ++ trailer) []
    else if key = '(' then
      match stringFirst ')' (key :: rest) 0 with
      | none => .error "Invalid key sequence - unterminated ("
      | some nextparen => do
        let group ← parseKeys t (stringRange (key :: rest) 1 (nextparen - 1)) none [] []
        parseKeys t (rest.drop nextparen) unicode (inputs ++ group ++ trailer) []
    else if key = '{' then
      match stringFirst '}' (key :: rest) 0 with
      | none => .error "Invalid key sequence - unterminated \x7b"
      | some nextbrace =>
        -- the next brace is looked for from the place of this one
        match if nextbrace = 1 then stringFirst '}' (key :: rest) nextbrace
          else some nextbrace with
        | none => .error "Invalid key sequence - unterminated \x7b"
        | some nextbrace => do
          let (events, unicode) ← braced t (stringRange (key :: rest) 1 (nextbrace - 1)) unicode
          parseKeys t (rest.drop nextbrace) unicode (inputs ++ events ++ trailer) []
    else parseKeys t rest (some key.toNat) (inputs ++ [press key] ++ trailer) []
termination_by keys.length
decreasing_by all_goals simp [stringRange]; try omega

def parseSendKeys (t : Tcl) (keys : List Char) : Except String (List Event) :=
  parseKeys t keys none [] []

end Twapi.Input
