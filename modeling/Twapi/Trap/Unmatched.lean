import Twapi.Trap.Finally

/-!
An error of the body that no clause matches.

* `complaints` are the messages of the conversions that fail on the way.
* `sift_unmatched`, `trapObjCmd_unmatched` — without a match the search leaves the
  messages in the interpreter, and nothing else.
* `own_error_iff` — when the command ends with the error of the body: the result and
  the return options, which have its `-errorcode` and `-errorinfo`.
-/

namespace Twapi.Trap

variable {σ : Type} {T : Tcl}

/-! ### Messages -/

/-- The messages of clauses that do not match, and whether the last of them is that of
a pattern that is not a list, where the search stops. -/
def complaints (T : Tcl) (code : List String) : List (Clause σ) → List String × Bool
  | [] => ([], false)
  | c :: cs =>
    match T.asList c.pattern with
    | none => ([T.notList c.pattern], true)
    | some elements =>
      let rest := complaints T code cs
      ((matchPattern T code elements).2.toList ++ rest.1, rest.2)

/-- The messages after an error with an `errorCode`. -/
def allComplaints (T : Tcl) (errorCode : Option String) (cs : List (Clause σ)) :
    List String × Bool :=
  match errorCode with
  | none => ([], false)
  | some errorCode =>
    match T.asList errorCode with
    | none => ([T.notList errorCode], false)
    | some code => complaints T code cs

/-- The interpreter with the messages left in it. -/
def Interp.after (T : Tcl) (i : Interp σ) (messages : List String) : Interp σ :=
  messages.foldl (Interp.complain T) i

theorem Interp.after_note (i : Interp σ) (message : Option String) (messages : List String) :
    (i.note T message).after T messages = i.after T (message.toList ++ messages) := by
  cases message <;> rfl

/-- Without a match the search goes on to the end, or to a pattern that is not a
list. -/
theorem sift_unmatched {code : List String} {cs : List (Clause σ)}
    (unmatched : cs.find? (Clause.matches T code) = none) (i : Interp σ) :
    sift T code cs i =
      if (complaints T code cs).2 then .badPattern (i.after T (complaints T code cs).1)
      else .none (i.after T (complaints T code cs).1) := by
  induction cs generalizing i with
  | nil => rfl
  | cons c cs ih =>
    rw [List.find?_eq_none] at unmatched
    have off := unmatched c (List.mem_cons_self ..)
    have ih := ih (List.find?_eq_none.mpr fun d among => unmatched d (List.mem_cons_of_mem _ among))
    rw [sift, complaints]
    cases elements : T.asList c.pattern with
    | none => rfl
    | some elements' =>
      simp only [Clause.matches, elements] at off
      cases hit : matchPattern T code elements' with
      | mk fits message =>
        rw [hit] at off
        obtain rfl : fits = false := by simpa using off
        simp only [hit, ih, Interp.after_note]

/-! ### The end of the command -/

/-- The search comes to an end at a pattern that is not a list, and otherwise the
finalization clause is next. -/
def ending (final : Option (Final σ)) (stopped : Bool) (i : Interp σ) : Ended σ :=
  if stopped then ⟨.error, i, [1]⟩ else finalize final ⟨.error, i, [1]⟩

variable {command body : Word σ} {words : List (Word σ)} {final : Option (Final σ)}
  {i j : Interp σ}

/-- The messages for the clauses of a command. -/
abbrev heard (T : Tcl) (words : List (Word σ)) (j : Interp σ) : List String × Bool :=
  allComplaints T j.errorCode (clauses words 2)

theorem caughtCode_error (ran : body.run i = (.error, j)) :
    caughtCode T body i = j.errorCode.bind T.asList := by
  simp only [caughtCode, ran]

theorem onError_unmatched (parsed : parse words 2 none = .parsed final)
    (ran : body.run i = (.error, j)) (unmatched : selected T body words i = none) :
    onError T words final j.push =
      ending final (heard T words j).2 (j.push.after T (heard T words j).1) := by
  rw [selected, caughtCode_error ran] at unmatched
  have code_eq : j.push.errorCode = j.errorCode := rfl
  unfold onError heard allComplaints
  rw [code_eq]
  cases set : j.errorCode with
  | none => rfl
  | some errorCode =>
    dsimp only
    cases isList : T.asList errorCode with
    | none => rfl
    | some code =>
      rw [set, Option.bind_some, isList, Option.bind_some] at unmatched
      dsimp only
      rw [search_eq_sift T code parsed (by simp), sift_unmatched unmatched]
      cases (complaints T code (clauses words 2)).2 <;> rfl

/-- Without a match the command is the search, with its messages, and what comes
after it. -/
theorem trapObjCmd_unmatched (parsed : parse words 2 none = .parsed final)
    (ran : body.run i = (.error, j)) (unmatched : selected T body words i = none) :
    trapObjCmd T (command :: body :: words) i =
      (ending final (heard T words j).2 (j.push.after T (heard T words j).1)).pop := by
  rw [← onError_unmatched parsed ran unmatched]
  simp only [trapObjCmd, parsed, ran]

/-! ### The error of the body -/

/-- The result and the return options are the same. -/
def Interp.SameError (i j : Interp σ) : Prop := i.result = j.result ∧ i.options = j.options

/-- The command ends with what the body set. -/
def OwnError (j : Interp σ) (e : Ended σ) : Prop := e.code = .error ∧ e.interp.SameError j

/-- The interpreter that the finalization clause leaves, where it is evaluated and ends
with an error. -/
def finalError (final : Option (Final σ)) (stopped : Bool) (i : Interp σ) : Option (Interp σ) :=
  if stopped then none
  else
    final.bind fun f =>
      match f.script.run (i.setResult "") with
      | (.error, k) => some k
      | _ => none

theorem ownError_ending {stopped : Bool} {k : Interp σ} :
    OwnError j (ending final stopped k).pop ↔ ((finalError final stopped k).getD k).SameError j := by
  unfold ending finalError
  cases stopped with
  | true => exact and_iff_right rfl
  | false =>
    cases final with
    | none => exact and_iff_right rfl
    | some f =>
      simp only [Bool.false_eq_true, if_false, finalize, Option.bind_some]
      cases ran : f.script.run (k.setResult "") with
      | mk code m => cases code <;> exact and_iff_right rfl

/-- The return options with the codes of messages. -/
def charged (T : Tcl) (options : String) (messages : List String) : String :=
  messages.foldl (fun o message => (T.blamed message).elim o (T.charge · o)) options

theorem Interp.result_complain (i : Interp σ) (message : String) :
    (i.complain T message).result = message := by
  unfold complain
  split <;> rfl

theorem Interp.options_complain (i : Interp σ) (message : String) :
    (i.complain T message).options = (T.blamed message).elim i.options (T.charge · i.options) := by
  unfold complain
  split
  · rename_i none_
    rw [none_]
    rfl
  · rename_i some_
    rw [some_]
    rfl

/-- The last message is the result. -/
theorem Interp.result_after (i : Interp σ) (messages : List String) :
    (i.after T messages).result = messages.getLast?.getD i.result := by
  induction messages generalizing i with
  | nil => rfl
  | cons message messages ih =>
    rw [after, List.foldl_cons, ← after, ih, result_complain, List.getLast?_cons]
    rfl

theorem Interp.options_after (i : Interp σ) (messages : List String) :
    (i.after T messages).options = charged T i.options messages := by
  induction messages generalizing i with
  | nil => rfl
  | cons message messages ih =>
    rw [after, List.foldl_cons, ← after, ih, options_complain]
    rfl

/-- Where the finalization clause does not fail, the last message is the result of the
body, and the codes of the messages leave its return options as they are; where it
fails, it is with the same error. -/
structure Unspoilt (T : Tcl) (words : List (Word σ)) (final : Option (Final σ)) (j : Interp σ) :
    Prop where
  quiet : finalError final (heard T words j).2 (j.push.after T (heard T words j).1) = none →
    (heard T words j).1.getLast?.getD j.result = j.result ∧
      charged T j.options (heard T words j).1 = j.options
  final : ∀ k, finalError final (heard T words j).2 (j.push.after T (heard T words j).1) = some k →
    k.SameError j

/-- An error of the body that no clause matches is the error of the command if and only
if the messages and the finalization clause do not spoil it. -/
theorem own_error_iff (parsed : parse words 2 none = .parsed final)
    (ran : body.run i = (.error, j)) (unmatched : selected T body words i = none) :
    OwnError j (trapObjCmd T (command :: body :: words) i) ↔ Unspoilt T words final j := by
  rw [trapObjCmd_unmatched parsed ran unmatched, ownError_ending]
  cases failed : finalError final (heard T words j).2 (j.push.after T (heard T words j).1) with
  | none =>
    rw [Option.getD_none, Interp.SameError, Interp.result_after, Interp.options_after]
    exact ⟨fun same => ⟨fun _ => same, fun k h => absurd (failed.symm.trans h) nofun⟩,
      fun unspoilt => unspoilt.quiet failed⟩
  | some k =>
    rw [Option.getD_some]
    exact ⟨fun same => ⟨fun h => absurd (failed.symm.trans h) nofun,
        fun k' h => Option.some.inj (failed.symm.trans h) ▸ same⟩,
      fun unspoilt => unspoilt.final k failed⟩

/-! ### Codes that are not numbers -/

/-- Tcl, of two lists of two words, and of one number. -/
def posix : Tcl where
  asList s :=
    if s = "POSIX ENOENT" then some ["POSIX", "ENOENT"]
    else if s = "POSIX 2" then some ["POSIX", "2"]
    else some [s]
  asInt s := if s = "2" then some 2 else none
  same a b := a == b
  notList _ := "unmatched open brace in list"
  notInt s := "expected integer but got \"" ++ s ++ "\""
  blamed _ := some "TCL VALUE NUMBER"
  charge code _ := "-errorcode \x7b" ++ code ++ "\x7d"

/-- The error of a file that is not there. -/
def noent : Interp Unit :=
  ⟨[], "no such file", "-errorcode \x7bPOSIX ENOENT\x7d", some "POSIX ENOENT", ()⟩

def opening : Word Unit := ⟨"open x", fun _ => (.error, noent)⟩

/-- The pattern is of another facility. -/
theorem own_error_iff_facility :
    OwnError noent (trapObjCmd posix
      (idle "trap" :: opening :: [idle "onerror", idle "WIN32", idle "h"]) quiet) := by
  refine (own_error_iff rfl rfl
    (by decide)).mpr ⟨fun _ => by decide, fun k failed => ?_⟩
  cases failed

/-- The code of the error is not the number of the pattern, and none at all. -/
theorem number_pattern_replaces_error :
    ¬ ∀ (T : Tcl) (command body : Word Unit) (words : List (Word Unit)) (final : Option (Final Unit))
      (i j : Interp Unit), parse words 2 none = .parsed final → body.run i = (.error, j) →
      selected T body words i = none →
      OwnError j (trapObjCmd T (command :: body :: words) i) := by
  intro all
  have own := all posix (idle "trap") opening [idle "onerror", idle "POSIX 2", idle "h"] none quiet
    noent rfl rfl (by decide)
  exact absurd own.2.1 (by decide)

end Twapi.Trap
