/-!
The string of a Tcl list: how `TclScanElement` chooses the form of an element and how
`TclConvertElement` writes it.
-/

namespace Twapi.Base

/-- The elements of a list and the value of an integer, where the string is one;
and the messages where it is none. -/
structure Tcl where
  asList : String → Option (List String)
  asInt : String → Option Int
  notList : String → String
  notInt : String → String

inductive Form where
  | bare
  | brace
  /-- Backslashes, also before braces. -/
  | escape
  /-- Backslashes, but not before braces. -/
  | mask
deriving DecidableEq

structure Scan where
  nesting : Int
  forbidNone : Bool
  requireEscape : Bool
  preferEscape : Bool
  preferBrace : Bool
deriving DecidableEq

/-- White space and the other characters for which braces are preferred. -/
def needsBrace (c : Char) : Bool :=
  c = '[' || c = '$' || c = ';' || c = ' ' || c = '\x0c' || c = '\n' || c = '\r' || c = '\t' ||
    c = '\x0b'

def scanFrom : List Char → Scan → Scan
  | [], st => st
  | '{' :: cs, st => scanFrom cs { st with nesting := st.nesting + 1 }
  | '}' :: cs, st =>
    scanFrom cs
      { st with
        nesting := st.nesting - 1
        requireEscape := st.requireEscape || st.nesting - 1 < 0 }
  | ['\\'], st => { st with requireEscape := true }
  | '\\' :: '\n' :: cs, st => scanFrom cs { st with requireEscape := true }
  | '\\' :: '{' :: cs, st => scanFrom cs { st with forbidNone := true, preferBrace := true }
  | '\\' :: '}' :: cs, st => scanFrom cs { st with forbidNone := true, preferBrace := true }
  | '\\' :: '\\' :: cs, st => scanFrom cs { st with forbidNone := true, preferBrace := true }
  | '\\' :: cs, st => scanFrom cs { st with forbidNone := true, preferBrace := true }
  | c :: cs, st =>
    if c = ']' || c = '"' then scanFrom cs { st with forbidNone := true, preferEscape := true }
    else if needsBrace c then scanFrom cs { st with forbidNone := true, preferBrace := true }
    else scanFrom cs st

/-- The form of an element; `quoteHash` is for the first of a list. -/
def formOf (quoteHash : Bool) (s : List Char) : Form :=
  let leads := s.head? = some '{' || s.head? = some '"'
  let hash := quoteHash && s.head? = some '#'
  let st := scanFrom s ⟨0, leads, false, false, leads || hash⟩
  if s = [] then .brace
  else if st.requireEscape || st.nesting ≠ 0 then .escape
  else if st.forbidNone then if st.preferEscape && !st.preferBrace then .mask else .brace
  else if hash then .brace
  else .bare

def escapeChar (braces : Bool) (c : Char) : List Char :=
  if c = '\x0c' then ['\\', 'f']
  else if c = '\n' then ['\\', 'n']
  else if c = '\r' then ['\\', 'r']
  else if c = '\t' then ['\\', 't']
  else if c = '\x0b' then ['\\', 'v']
  else if c = ']' || c = '[' || c = '$' || c = ';' || c = ' ' || c = '\\' || c = '"' then ['\\', c]
  else if braces && (c = '{' || c = '}') then ['\\', c]
  else [c]

def convertElement (quoteHash : Bool) (s : List Char) : List Char :=
  let hash := if quoteHash && s.head? = some '#' then ['\\'] else []
  match formOf quoteHash s with
  | .bare => s
  | .brace => '{' :: s ++ ['}']
  | .escape => hash ++ s.flatMap (escapeChar true)
  | .mask => hash ++ s.flatMap (escapeChar false)

/-- `UpdateStringOfList` -/
def formatList : List (List Char) → List Char
  | [] => []
  | s :: rest => convertElement true s ++ rest.flatMap fun t => ' ' :: convertElement false t

/-! ### Examples -/

example : formatList ["a b".toList, "#c".toList, "".toList] = "\x7ba b\x7d #c \x7b\x7d".toList := by decide

example : formatList ["#a".toList, "b]c".toList, "d".toList] = "\x7b#a\x7d b\\]c d".toList := by decide

end Twapi.Base
