import Mathlib.Tactic.Common
import Twapi.Trap.Model

/-!
What a `trap` command evaluates, and the trap stack.

* `search_spec` — the second loop walks the clauses that the first one found.
* `script_keeps` — scripts leave the trap stack as it was, whatever the nesting.
* `trapObjCmd_evaluated` — the words a command evaluates.
* `trap_proper_iff` — the command does as it should, exactly when there is no
  `finally` clause or the search does not meet a pattern that is not a list.
-/

namespace Twapi.Trap

variable {σ : Type} {T : Tcl}

/-! ### Clauses -/

/-- An `onerror` clause: its position, its pattern and its script. -/
structure Clause (σ : Type) where
  position : Nat
  pattern : String
  script : Word σ

/-- The `onerror` clauses of words that the syntax check lets through. -/
def clauses : List (Word σ) → Nat → List (Clause σ)
  | w :: x :: script :: rest, n =>
    if w.str = "onerror" then ⟨n, x.str, script⟩ :: clauses rest (n + 3)
    else clauses (script :: rest) (n + 2)
  | _, _ => []

/-- Whether the pattern of a clause is a list that matches. -/
def Clause.matches (T : Tcl) (code : List String) (c : Clause σ) : Bool :=
  match T.asList c.pattern with
  | none => false
  | some elements => (matchPattern T code elements).1

/-- A pattern that is not a list comes before the first that matches. -/
def Meets (T : Tcl) (code : List String) : List (Clause σ) → Prop
  | [] => False
  | c :: cs => T.asList c.pattern = none ∨ c.matches T code = false ∧ Meets T code cs

/-- What a search should come to. -/
def Finds (T : Tcl) (code : List String) (cs : List (Clause σ)) : Search σ → Prop
  | .handler position script _ => ¬ Meets T code cs ∧
      ∃ c, cs.find? (Clause.matches T code) = some c ∧ c.position + 2 = position ∧
        c.script = script
  | .badPattern _ => Meets T code cs
  | .none _ => ¬ Meets T code cs ∧ cs.find? (Clause.matches T code) = none

def Search.interp : Search σ → Interp σ
  | .handler _ _ i | .badPattern i | .none i => i

/-! ### What the first loop finds -/

variable {i j : Interp σ} {code : List String} {n : Nat}

/-- A finalization clause that was found stays. -/
theorem parse_keeps {words : List (Word σ)} {f : Final σ} {final : Option (Final σ)}
    (parsed : parse words n (some f) = .parsed final) : final = some f := by
  generalize kept : some f = g at parsed
  fun_induction parse words n g with
  | case1 => exact (Syntax.parsed.inj parsed).symm
  | case2 _ _ _ _ _ _ _ ih => exact ih kept parsed
  | case5 _ _ _ _ _ _ _ h => exact absurd (kept ▸ rfl) h
  | case3 | case4 | case6 | case7 => cases parsed

/-- A finalization clause that is new is further on, and its script is one of
the words. -/
theorem parse_new {words : List (Word σ)} {g final : Option (Final σ)}
    (parsed : parse words n g = .parsed final) {f : Final σ} (found : f ∈ final) :
    f ∈ g ∨ n ≤ f.position ∧ f.script ∈ words := by
  fun_induction parse words n g with
  | case1 => exact .inl (Syntax.parsed.inj parsed ▸ found)
  | case2 w n g _ pattern script rest ih =>
    rcases ih parsed with old | ⟨further, among⟩
    · exact .inl old
    · exact .inr ⟨by omega, by simp [among]⟩
  | case5 w n g _ _ script rest fresh ih =>
    rcases ih parsed with old | ⟨further, among⟩
    · obtain rfl := Option.mem_some.mp old
      exact .inr ⟨Nat.le_refl _, by simp⟩
    · exact .inr ⟨by omega, by simp [among]⟩
  | case3 | case4 | case6 | case7 => cases parsed

/-! ### What the second loop finds -/

@[simp] theorem complain_trapstack (i : Interp σ) (message : String) :
    (i.complain T message).trapstack = i.trapstack := by
  unfold Interp.complain
  split <;> rfl

@[simp] theorem note_trapstack (i : Interp σ) (message : Option String) :
    (i.note T message).trapstack = i.trapstack := by
  cases message with
  | none => rfl
  | some message => exact complain_trapstack i message

theorem search_stack {final : Option Nat} (words : List (Word σ)) (n : Nat) (i : Interp σ) :
    (search T final code words n i).interp.trapstack = i.trapstack := by
  fun_induction search T final code words n i with
  | case1 _ _ _ _ _ _ _ ih => exact ih
  | case2 => exact complain_trapstack _ _
  | case3 => exact note_trapstack _ _
  | case4 _ _ _ _ _ _ _ _ _ _ _ ih => exact ih.trans (note_trapstack _ _)
  | case5 => rfl

/-- The handler of a search is one of the words. -/
theorem search_script {final : Option Nat} {words : List (Word σ)} {position : Nat}
    {script : Word σ} (found : search T final code words n i = .handler position script j) :
    script ∈ words := by
  fun_induction search T final code words n i with
  | case1 _ _ _ _ _ _ _ ih => exact List.mem_cons_of_mem _ (List.mem_cons_of_mem _ (ih found))
  | case2 | case5 => cases found
  | case3 =>
    cases found
    simp
  | case4 _ _ _ _ _ _ _ _ _ _ _ ih => simp [ih found]

variable {cs : List (Clause σ)}

/-- A clause that matches is the one. -/
theorem Finds.first {c : Clause σ} {elements : List String}
    (isList : T.asList c.pattern = some elements) (fits : c.matches T code = true) :
    Finds T code (c :: cs) (.handler (c.position + 2) c.script i) := by
  refine ⟨?_, c, List.find?_cons_of_pos fits, rfl, rfl⟩
  rintro (notList | ⟨off, -⟩)
  · cases isList.symm.trans notList
  · cases fits.symm.trans off

/-- A clause that does not match makes no difference. -/
theorem Finds.later {c : Clause σ} {s : Search σ} {elements : List String}
    (isList : T.asList c.pattern = some elements) (off : c.matches T code = false)
    (finds : Finds T code cs s) : Finds T code (c :: cs) s := by
  have meets : Meets T code (c :: cs) → Meets T code cs := by
    rintro (notList | ⟨-, later⟩)
    · cases isList.symm.trans notList
    · exact later
  have find : (c :: cs).find? (Clause.matches T code) = cs.find? (Clause.matches T code) :=
    List.find?_cons_of_neg (by simp [off])
  cases s with
  | handler position script i =>
    obtain ⟨proper, d, first, rfl, rfl⟩ := finds
    exact ⟨proper ∘ meets, d, find.trans first, rfl, rfl⟩
  | badPattern i => exact .inr ⟨off, finds⟩
  | none i => exact ⟨finds.1 ∘ meets, find.trans finds.2⟩

/-- The second loop, over the clauses. -/
def sift (T : Tcl) (code : List String) : List (Clause σ) → Interp σ → Search σ
  | [], i => .none i
  | c :: cs, i =>
    match T.asList c.pattern with
    | none => .badPattern (i.complain T (T.notList c.pattern))
    | some elements =>
      match matchPattern T code elements with
      | (true, message) => .handler (c.position + 2) c.script (i.note T message)
      | (false, message) => sift T code cs (i.note T message)

/-- Over words that the first loop lets through, the second one skips the
finalization clause, and takes no other words for it. -/
theorem search_eq_sift (T : Tcl) (code : List String) {words : List (Word σ)}
    {g final : Option (Final σ)} (parsed : parse words n g = .parsed final)
    (before : ∀ f ∈ g, f.position < n) (i : Interp σ) :
    search T (final.map Final.position) code words n i = sift T code (clauses words n) i := by
  fun_induction parse words n g generalizing i with
  | case1 => rfl
  | case2 w n g onerror pattern script rest ih =>
    have ih := ih parsed fun f found => Nat.lt_of_lt_of_le (before f found) (by omega)
    have elsewhere : final.map Final.position ≠ some n := by
      intro here
      obtain ⟨f, found, at_n⟩ := Option.map_eq_some_iff.mp here
      rcases parse_new parsed found with old | ⟨further, -⟩
      · have := before f old
        omega
      · omega
    rw [search, if_neg elsewhere, clauses, if_pos onerror, sift]
    cases T.asList pattern.str with
    | none => rfl
    | some elements =>
      cases hit : matchPattern T code elements with
      | mk fits message =>
        simp only [hit]
        cases fits with
        | true => rfl
        | false => exact ih _
  | case5 w n g onerror finally_ script rest fresh ih =>
    obtain rfl := parse_keeps parsed
    have ih := ih parsed fun f found => by
      obtain rfl := Option.mem_some.mp found
      exact Nat.lt_add_of_pos_right (by decide)
    cases rest with
    | nil => rfl
    | cons next rest =>
      rw [search, if_pos (by rfl), clauses, if_neg onerror]
      exact ih i
  | case3 | case4 | case6 | case7 => cases parsed

theorem sift_spec (T : Tcl) (code : List String) (cs : List (Clause σ)) (i : Interp σ) :
    Finds T code cs (sift T code cs i) := by
  induction cs generalizing i with
  | nil => exact ⟨id, rfl⟩
  | cons c cs ih =>
    rw [sift]
    cases elements : T.asList c.pattern with
    | none => exact .inl elements
    | some elements' =>
      have tried : c.matches T code = (matchPattern T code elements').1 := by
        simp only [Clause.matches, elements]
      cases hit : matchPattern T code elements' with
      | mk fits message =>
        rw [hit] at tried
        simp only [hit]
        cases fits with
        | true => exact .first elements tried
        | false => exact .later elements tried (ih (i.note T message))

/-- Over words that the first loop lets through, the second one does what it
should. -/
theorem search_spec (T : Tcl) (code : List String) {words : List (Word σ)}
    {g final : Option (Final σ)} (parsed : parse words n g = .parsed final)
    (before : ∀ f ∈ g, f.position < n) (i : Interp σ) :
    Finds T code (clauses words n) (search T (final.map Final.position) code words n i) :=
  search_eq_sift T code parsed before i ▸ sift_spec T code (clauses words n) i

/-! ### The trap stack -/

/-- A program that leaves the trap stack as it was. -/
def Balanced (p : Prog σ) : Prop := ∀ i, (p i).2.trapstack = i.trapstack

theorem push_pop (h : j.trapstack = i.push.trapstack) :
    j.pop.trapstack = i.trapstack := by
  simp [Interp.pop, h, Interp.push]

theorem finalize_stack {final : Option (Final σ)}
    (balanced : ∀ f ∈ final, Balanced f.script.run) (e : Ended σ) :
    (finalize final e).interp.trapstack = e.interp.trapstack := by
  cases final with
  | none => rfl
  | some f =>
    have kept := balanced f rfl (e.interp.setResult "")
    rw [finalize]
    split
    · rename_i j ran
      rw [ran] at kept
      exact kept
    · rename_i ran
      rw [ran] at kept
      exact kept

/-- What was pushed is still there after the handler and the finalization
clause. -/
theorem onError_stack {words : List (Word σ)} {final : Option (Final σ)}
    (handlers : ∀ w ∈ words, Balanced w.run) (finals : ∀ f ∈ final, Balanced f.script.run)
    (i : Interp σ) : (onError T words final i).interp.trapstack = i.trapstack := by
  unfold onError
  split
  · exact finalize_stack finals _
  split
  · exact (finalize_stack finals _).trans (complain_trapstack _ _)
  rename_i code _
  have kept : (search T (final.map Final.position) code words 2 i).interp.trapstack =
      i.trapstack := search_stack words 2 i
  split
  · rename_i found
    rw [found] at kept
    exact kept
  · rename_i script j found
    rw [found] at kept
    have among := search_script found
    exact (finalize_stack finals _).trans ((handlers script among j).trans kept)
  · rename_i found
    rw [found] at kept
    exact (finalize_stack finals _).trans kept

/-- A `trap` command of balanced scripts is balanced, whatever its words are. -/
theorem trap_keeps {objv : List (Word σ)} (balanced : ∀ w ∈ objv, Balanced w.run) :
    Balanced (trapRun T objv) := by
  intro i
  unfold trapRun trapObjCmd
  split
  · rename_i command body words
    have handlers : ∀ w ∈ words, Balanced w.run := by
      intro w among
      exact balanced w (List.mem_cons_of_mem _ (List.mem_cons_of_mem _ among))
    have kept := balanced body (List.mem_cons_of_mem _ (List.mem_cons_self ..)) i
    split
    · rfl
    · rfl
    · rename_i final parsed
      have finals : ∀ f ∈ final, Balanced f.script.run := by
        intro f found
        rcases parse_new parsed found with none_ | ⟨-, among⟩
        · cases none_
        · exact handlers _ among
      split
      · rename_i j ran
        rw [ran] at kept
        exact (push_pop (onError_stack handlers finals j.push)).trans kept
      · rename_i ran
        rw [ran] at kept
        exact (finalize_stack finals _).trans kept
  · rfl

/-- Scripts leave the trap stack as it was, by induction on their nesting. -/
theorem script_keeps {p : Prog σ} (script : Script T p) : Balanced p := by
  induction script with
  | command keeps => exact keeps
  | @andThen p q _ _ keepsP keepsQ =>
    intro i
    have kept := keepsP i
    unfold andThen
    split
    · rename_i j ran
      rw [ran] at kept
      exact (keepsQ j).trans kept
    · exact kept
  | caught _ _ keepsP keepsQ =>
    intro i
    exact (keepsQ _ _).trans (keepsP i)
  | trap _ balanced => exact trap_keeps balanced

/-! ### What is evaluated -/

/-- The elements of `errorCode` after an error in the body. -/
def caughtCode (T : Tcl) (body : Word σ) (i : Interp σ) : Option (List String) :=
  match body.run i with
  | (.error, i) => i.errorCode.bind T.asList
  | _ => none

/-- The first clause whose pattern matches the error of the body. -/
def selected (T : Tcl) (body : Word σ) (words : List (Word σ)) (i : Interp σ) :
    Option (Clause σ) :=
  (caughtCode T body i).bind fun code => (clauses words 2).find? (Clause.matches T code)

/-- The search after an error of the body comes upon a pattern that is not a
list. -/
def MeetsBad (T : Tcl) (body : Word σ) (words : List (Word σ)) (i : Interp σ) : Prop :=
  ∃ code ∈ caughtCode T body i, Meets T code (clauses words 2)

/-- The words evaluated when `handler` is run. -/
def evaluations (handler : Option (Clause σ)) (final : Option (Final σ)) : List Nat :=
  1 :: (handler.toList.map fun c => c.position + 2) ++ final.toList.map fun f => f.position + 1

theorem finalize_evaluated (final : Option (Final σ)) (e : Ended σ) :
    (finalize final e).evaluated = e.evaluated ++ final.toList.map fun f => f.position + 1 := by
  cases final with
  | none => exact (List.append_nil _).symm
  | some f =>
    rw [finalize]
    split <;> rfl

variable {command body : Word σ} {words : List (Word σ)} {final : Option (Final σ)}

theorem onError_uncaught (uncaught : i.errorCode.bind T.asList = none) :
    (onError T words final i).evaluated = evaluations none final := by
  unfold onError
  split
  · exact finalize_evaluated final _
  · rename_i errorCode set
    rw [set] at uncaught
    simp only [Option.bind_some] at uncaught
    rw [uncaught]
    exact finalize_evaluated final _

theorem onError_caught (caught : i.errorCode.bind T.asList = some code) :
    onError T words final i =
      match search T (final.map Final.position) code words 2 i with
      | .badPattern i => ⟨.error, i, [1]⟩
      | .handler position script i =>
        finalize final ⟨(script.run i).1, (script.run i).2, [1, position]⟩
      | .none i => finalize final ⟨.error, i, [1]⟩ := by
  obtain ⟨errorCode, set, isList⟩ := Option.bind_eq_some_iff.mp caught
  unfold onError
  split
  · rename_i unset
    cases set.symm.trans unset
  · rename_i set'
    cases set.symm.trans set'
    split
    · rename_i notList
      cases isList.symm.trans notList
    · rename_i isList'
      cases isList.symm.trans isList'
      rfl

/-- A command whose body ends with an error evaluates what the clauses make of
it. -/
theorem trapObjCmd_error (parsed : parse words 2 none = .parsed final)
    (ran : body.run i = (.error, j)) :
    (trapObjCmd T (command :: body :: words) i).evaluated =
      (onError T words final j.push).evaluated := by
  simp only [trapObjCmd, parsed, ran]
  rfl

theorem trapObjCmd_ends (parsed : parse words 2 none = .parsed final)
    (ends : (body.run i).1 ≠ .error) :
    (trapObjCmd T (command :: body :: words) i).evaluated = evaluations none final := by
  cases ran : body.run i with
  | mk code j =>
    rw [ran] at ends
    simp only [trapObjCmd, parsed, ran]
    exact finalize_evaluated final _

/-- Without a bad pattern, the first clause that matches and then the
finalization clause. -/
theorem trapObjCmd_evaluated (parsed : parse words 2 none = .parsed final)
    (proper : ¬ MeetsBad T body words i) :
    (trapObjCmd T (command :: body :: words) i).evaluated =
      evaluations (selected T body words i) final := by
  cases ran : body.run i with
  | mk ended j =>
    by_cases error : ended = .error
    · subst error
      have caughtCode_eq : caughtCode T body i = j.push.errorCode.bind T.asList := by
        simp only [caughtCode, ran]
        rfl
      rw [trapObjCmd_error parsed ran]
      cases caught : j.push.errorCode.bind T.asList with
      | none =>
        rw [onError_uncaught caught, selected, caughtCode_eq, caught, Option.bind_none]
      | some code =>
        rw [caught] at caughtCode_eq
        have finds := search_spec T code parsed (by simp) j.push
        rw [onError_caught caught, selected, caughtCode_eq, Option.bind_some]
        split
        · rename_i found
          rw [found] at finds
          exact absurd ⟨code, caughtCode_eq, finds⟩ proper
        · rename_i found
          rw [found] at finds
          obtain ⟨-, c, first, rfl, -⟩ := finds
          rw [first, finalize_evaluated]
          rfl
        · rename_i found
          rw [found] at finds
          rw [finds.2, finalize_evaluated]
          rfl
    · have ends : (body.run i).1 ≠ .error := by
        rw [ran]
        exact error
      rw [trapObjCmd_ends parsed ends, selected, caughtCode, ran]
      split
      · rename_i h
        exact absurd (congrArg Prod.fst h) error
      · rfl

/-- With one, neither. -/
theorem trapObjCmd_bad (parsed : parse words 2 none = .parsed final) (bad : MeetsBad T body words i) :
    (trapObjCmd T (command :: body :: words) i).evaluated = evaluations (none : Option (Clause σ)) none := by
  obtain ⟨code, caught, meets⟩ := bad
  cases ran : body.run i with
  | mk ended j =>
    simp only [caughtCode, ran] at caught
    split at caught
    · rename_i h
      obtain ⟨rfl, rfl⟩ := Prod.mk.inj h
      have finds := search_spec T code parsed (by simp) j.push
      rw [trapObjCmd_error parsed ran, onError_caught (i := j.push) caught]
      split
      · rfl
      · rename_i found
        rw [found] at finds
        exact absurd meets finds.1
      · rename_i found
        rw [found] at finds
        exact absurd meets finds.1
    · cases caught

/-! ### A proper end -/

/-- The trap stack is as it was before; at most one handler is evaluated, that
of the first clause that matches, and after it the finalization clause once. A
bad pattern ends the search without a handler. -/
structure Proper (T : Tcl) (body : Word σ) (words : List (Word σ)) (final : Option (Final σ))
    (i : Interp σ) (e : Ended σ) : Prop where
  stack : e.interp.trapstack = i.trapstack
  evaluated : ∃ handler,
    (handler = selected T body words i ∨ handler = none ∧ MeetsBad T body words i) ∧
      e.evaluated = evaluations handler final

/-- Once the syntax check has passed, a command ends as it should if and only if
it has no finalization clause, or does not come upon a bad pattern. -/
theorem trap_proper_iff (parsed : parse words 2 none = .parsed final)
    (scripts : ∀ w ∈ command :: body :: words, Script T w.run) (i : Interp σ) :
    Proper T body words final i (trapObjCmd T (command :: body :: words) i) ↔
      final = none ∨ ¬ MeetsBad T body words i := by
  have stack : (trapObjCmd T (command :: body :: words) i).interp.trapstack = i.trapstack :=
    trap_keeps (fun w among => script_keeps (scripts w among)) i
  constructor
  · intro proper
    by_contra failed
    obtain ⟨some_, bad⟩ := not_or.mp failed
    obtain ⟨f, rfl⟩ := Option.ne_none_iff_exists'.mp some_
    obtain ⟨handler, -, evaluated⟩ := proper.evaluated
    rw [trapObjCmd_bad parsed (not_not.mp bad)] at evaluated
    simp [evaluations] at evaluated
  · intro condition
    refine ⟨stack, ?_⟩
    by_cases bad : MeetsBad T body words i
    · rcases condition with rfl | proper
      · exact ⟨none, .inr ⟨rfl, bad⟩, trapObjCmd_bad parsed bad⟩
      · exact absurd bad proper
    · exact ⟨selected T body words i, .inl rfl, trapObjCmd_evaluated parsed bad⟩

/-! ### Two commands -/

/-- Tcl, of strings that are one word or none, or an open brace. -/
def words1 : Tcl where
  asList s := if s = "\x7b" then none else if s = "" then some [] else some [s]
  asInt _ := none
  same a b := a == b
  blamed _ := none
  charge _ options := options
  notList _ := "unmatched open brace in list"
  notInt s := "expected integer but got \"" ++ s ++ "\""

def idle (s : String) : Word Unit := ⟨s, fun i => (.ok, i)⟩

/-- `error x`. -/
def failing : Word Unit :=
  ⟨"error x", fun i => (.error, { i with result := "x", errorCode := some "NONE" })⟩

def quiet : Interp Unit := ⟨[], "", "", none, ()⟩

theorem idle_script (s : String) : Script words1 (idle s).run := .command fun _ => rfl

theorem failing_script : Script words1 failing.run := .command fun _ => rfl

theorem trap_proper_iff_caught :
    Proper words1 failing [idle "onerror", idle "", idle "h", idle "finally", idle "f"]
      (some ⟨5, idle "f"⟩) quiet
      (trapObjCmd words1
        (idle "trap" :: failing :: [idle "onerror", idle "", idle "h", idle "finally", idle "f"])
        quiet) := by
  refine (trap_proper_iff rfl ?_ quiet).mpr (.inr ?_)
  · simp [idle_script, failing_script]
  · rintro ⟨code, -, meets⟩
    rcases meets with notList | ⟨off, -⟩
    · cases notList
    · cases off

/-- After an error in the body, a pattern that is an open brace: the finalization
clause is left out. -/
theorem bad_pattern_skips_final :
    ¬ ∀ (T : Tcl) (command body : Word Unit) (words : List (Word Unit)) (f : Final Unit)
      (i : Interp Unit), parse words 2 none = .parsed (some f) →
      (∀ w ∈ command :: body :: words, Script T w.run) →
      (f.position + 1) ∈ (trapObjCmd T (command :: body :: words) i).evaluated := by
  intro claim
  have evaluated := claim words1 (idle "trap") failing
    [idle "onerror", idle "\x7b", idle "h", idle "finally", idle "f"] ⟨5, idle "f"⟩ quiet rfl
    (by simp [idle_script, failing_script])
  revert evaluated
  decide

end Twapi.Trap
