import Twapi.Base.ListFormat

/-!
The `trap` command, `base/trap.c`.

A word of the command is a string, and what it does when it is evaluated as a
script: `Word.run` changes the interpreter and ends with a code. The interpreter
is what `trap` uses of it, and a `state` for the rest.

* What Tcl's parser makes of a string is a parameter (`Tcl`), and so are the
  comparison `lstrcmpA` and what a conversion that fails leaves in the interpreter
  with its message.
* The positions of the words that were evaluated, in order, are bookkeeping the
  code does not have.
-/

namespace Twapi.Trap

/-! ### The interpreter -/

/-- `same` is `lstrcmpA`. With a message, a conversion that fails may set `errorCode`
(from Tcl 8.6 on it does): `blamed` is the code, and `charge` the return options
with it. -/
structure Tcl extends Base.Tcl where
  same : String → String → Bool
  blamed : String → Option String
  charge : String → String → String

/-- A completion code. -/
inductive Code where
  | ok
  | error
  | «return»
  | «break»
  | «continue»
  | other (n : Int)
deriving DecidableEq

/-- `errorCode` is the global variable; the trap stack grows at its end. -/
structure Interp (σ : Type) where
  trapstack : List String
  result : String
  options : String
  errorCode : Option String
  state : σ
deriving DecidableEq

variable {σ : Type}

abbrev Prog (σ : Type) := Interp σ → Code × Interp σ

structure Word (σ : Type) where
  str : String
  run : Prog σ

def Interp.setResult (i : Interp σ) (result : String) : Interp σ := { i with result }

/-- The result and the return options of the error that was caught. -/
def Interp.push (i : Interp σ) : Interp σ :=
  { i with trapstack := i.trapstack ++ [i.result, i.options] }

/-- `Tcl_ListObjReplace` of the last two. -/
def Interp.pop (i : Interp σ) : Interp σ :=
  { i with trapstack := i.trapstack.take (i.trapstack.length - 2) }

/-! ### Syntax -/

/-- The finalization clause: its position, and its script. -/
structure Final (σ : Type) where
  position : Nat
  script : Word σ

inductive Syntax (σ : Type) where
  | badArgs
  | badSyntax
  | parsed (final : Option (Final σ))

/-- The first loop, over the words from position `i` on. -/
def parse : List (Word σ) → Nat → Option (Final σ) → Syntax σ
  | [], _, final => .parsed final
  | w :: rest, i, final =>
    if w.str = "onerror" then
      match rest with
      | _ :: _ :: rest => parse rest (i + 3) final
      | _ => .badArgs
    else if w.str = "finally" then
      match rest with
      | script :: rest =>
        if final.isSome then .badSyntax else parse rest (i + 2) (some ⟨i, script⟩)
      | _ => .badArgs
    else .badSyntax

/-! ### Matching -/

def head (code : List String) : String := code.headD ""

/-- The second element, where there is one. -/
def second (code : List String) : String := code.tail.headD ""

/-- The comparison as integers, with the message that is left where one of the
two is none. -/
def matchInt (T : Tcl) (code : List String) (pattern : String) : Bool × Option String :=
  match T.asInt pattern with
  | none => (false, some (T.notInt pattern))
  | some patInt =>
    if second code = "" then (false, none)
    else
      match T.asInt (second code) with
      | none => (false, some (T.notInt (second code)))
      | some errorCodeInt => (errorCodeInt = patInt, none)

/-- Whether the elements of a pattern match the elements of `errorCode`. -/
def matchPattern (T : Tcl) (code : List String) : List String → Bool × Option String
  | [] => (true, none)
  | [facility] => (T.same (head code) facility, none)
  | facility :: pattern :: _ =>
    if T.same (head code) facility then
      if T.same (second code) pattern then (true, none) else matchInt T code pattern
    else (false, none)

/-- What a conversion that fails leaves. -/
def Interp.complain (T : Tcl) (i : Interp σ) (message : String) : Interp σ :=
  match T.blamed message with
  | none => i.setResult message
  | some code =>
    { i with result := message, options := T.charge code i.options, errorCode := some code }

def Interp.note (T : Tcl) (i : Interp σ) (message : Option String) : Interp σ :=
  message.elim i (i.complain T)

inductive Search (σ : Type) where
  | handler (position : Nat) (script : Word σ) (i : Interp σ)
  | badPattern (i : Interp σ)
  | none (i : Interp σ)

/-- The second loop, over the words from position `n` on. -/
def search (T : Tcl) (final : Option Nat) (code : List String) :
    List (Word σ) → Nat → Interp σ → Search σ
  | _ :: pattern :: script :: rest, n, i =>
    if final = some n then search T final code (script :: rest) (n + 2) i
    else
      match T.asList pattern.str with
      | none => .badPattern (i.complain T (T.notList pattern.str))
      | some elements =>
        match matchPattern T code elements with
        | (true, message) => .handler (n + 2) script (i.note T message)
        | (false, message) => search T final code rest (n + 3) (i.note T message)
  | _, _, i => .none i

/-! ### `Twapi_TrapObjCmd` -/

/-- How a command ends, with the positions of the words it evaluated. -/
structure Ended (σ : Type) where
  code : Code
  interp : Interp σ
  evaluated : List Nat

def Ended.pop (e : Ended σ) : Ended σ := { e with interp := e.interp.pop }

/-- The label `finalize`: the code and the result stand, unless the script of the
clause is an error. -/
def finalize (final : Option (Final σ)) (e : Ended σ) : Ended σ :=
  match final with
  | none => e
  | some f =>
    match f.script.run (e.interp.setResult "") with
    | (.error, i) => ⟨.error, i, e.evaluated ++ [f.position + 1]⟩
    | (_, i) =>
      ⟨e.code, { i with result := e.interp.result, options := e.interp.options },
        e.evaluated ++ [f.position + 1]⟩

/-- After an error in the body, the stack pushed. -/
def onError (T : Tcl) (clauses : List (Word σ)) (final : Option (Final σ)) (i : Interp σ) :
    Ended σ :=
  match i.errorCode with
  | none => finalize final ⟨.error, i, [1]⟩
  | some errorCode =>
    match T.asList errorCode with
    | none => finalize final ⟨.error, i.complain T (T.notList errorCode), [1]⟩
    | some code =>
      match search T (final.map Final.position) code clauses 2 i with
      | .badPattern i => ⟨.error, i, [1]⟩
      | .handler position script i =>
        let (code, i) := script.run i
        finalize final ⟨code, i, [1, position]⟩
      | .none i => finalize final ⟨.error, i, [1]⟩

def usage : String := "script ?onerror ERROR errorscript? ...?finally FINALSCRIPT?"

def invalidSyntax (command : String) : String :=
  "Invalid syntax: should be " ++ command ++
    " SCRIPT ?onerror ERROR ERRORSCRIPT? ...?finally FINALSCRIPT?"

def wrongNumArgs (command : String) : String :=
  "wrong # args: should be \"" ++ command ++ " " ++ usage ++ "\""

def trapObjCmd (T : Tcl) (objv : List (Word σ)) (i : Interp σ) : Ended σ :=
  match objv with
  | command :: body :: clauses =>
    match parse clauses 2 none with
    | .badArgs => ⟨.error, i.setResult (wrongNumArgs command.str), []⟩
    | .badSyntax => ⟨.error, i.setResult (invalidSyntax command.str), []⟩
    | .parsed final =>
      match body.run i with
      | (.error, i) => (onError T clauses final i.push).pop
      | (code, i) => finalize final ⟨code, i, [1]⟩
  | words => ⟨.error, i.setResult (wrongNumArgs ((words.map Word.str).headD "")), []⟩

/-- The command as a script's command. -/
def trapRun (T : Tcl) (objv : List (Word σ)) : Prog σ := fun i =>
  let e := trapObjCmd T objv i
  (e.code, e.interp)

/-! ### Scripts -/

/-- The script goes on after a command that is `ok`. -/
def andThen (p q : Prog σ) : Prog σ := fun i =>
  match p i with
  | (.ok, i) => q i
  | stopped => stopped

/-- The script goes on whatever the code of the command, as after a `catch`. -/
def caught (p : Prog σ) (q : Code → Prog σ) : Prog σ := fun i =>
  let (code, i) := p i
  q code i

/-- Scripts: commands that leave the trap stack alone, in sequence and under
`catch`, and `trap` commands with scripts for words, in any nesting. -/
inductive Script (T : Tcl) : Prog σ → Prop where
  | command {p : Prog σ} : (∀ i, (p i).2.trapstack = i.trapstack) → Script T p
  | andThen {p q : Prog σ} : Script T p → Script T q → Script T (andThen p q)
  | caught {p : Prog σ} {q : Code → Prog σ} : Script T p → (∀ code, Script T (q code)) →
      Script T (caught p q)
  | trap {objv : List (Word σ)} : (∀ w ∈ objv, Script T w.run) → Script T (trapRun T objv)

end Twapi.Trap
