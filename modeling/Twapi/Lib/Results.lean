import Mathlib.Tactic.Common

/-!
Results of steps that may fail.

* `ok_bind`, `bind_eq_ok`, `mapError_ok` — one step after the other.
* `toOption_bind`, `toOption_mapError`, `toOption_mapM` — where the errors do not matter.
* `stateM_pure`, `stateM_throw`, `stateM_bind`, `stateM_map` — steps that have a state as
  well.
* `forall₂_of_mapM` — the results of a list of steps, one for one.
* `foldlM_error`, `foldlM_keeps` — steps one after the other: where they stop, and what none
  of them changes.
-/

namespace Twapi.Lib

variable {α β γ ε ε' : Type}

theorem ok_bind (a : α) (f : α → Except ε β) : ((Except.ok a : Except ε α) >>= f) = f a := rfl

theorem bind_eq_ok {x : Except ε α} {f : α → Except ε β} {b : β} (h : x >>= f = .ok b) :
    ∃ a, x = .ok a ∧ f a = .ok b := by
  cases x with
  | error e => cases h
  | ok a => exact ⟨a, rfl, h⟩

variable {g : α → Option β} {as : List α} {σ : Type}

theorem stateM_pure (a : α) (s : σ) :
    (pure a : ExceptT ε (StateM σ) α) s = (.ok a, s) := rfl

theorem stateM_throw (e : ε) (s : σ) :
    (throw e : ExceptT ε (StateM σ) α) s = (.error e, s) := rfl

theorem stateM_bind (x : ExceptT ε (StateM σ) α) (f : α → ExceptT ε (StateM σ) β) (s : σ) :
    (x >>= f) s =
      match x s with
      | (.ok a, s) => f a s
      | (.error e, s) => (.error e, s) := by
  change (x s >>= fun as => ExceptT.bindCont f as.1 as.2 : Id _) = _
  rcases x s with ⟨result, t⟩
  cases result <;> rfl

theorem stateM_map (f : α → β) (x : ExceptT ε (StateM σ) α) (s : σ) :
    (f <$> x) s =
      match x s with
      | (.ok a, s) => (.ok (f a), s)
      | (.error e, s) => (.error e, s) := by
  rw [← bind_pure_comp, stateM_bind]
  rfl

theorem mapError_ok (f : ε → ε') (a : α) : (Except.ok a : Except ε α).mapError f = .ok a := rfl

theorem toOption_bind (x : Except ε α) (f : α → Except ε β) :
    (x >>= f).toOption = x.toOption.bind fun a => (f a).toOption := by
  cases x <;> rfl

theorem toOption_mapError (f : ε → ε') (x : Except ε α) :
    (x.mapError f).toOption = x.toOption := by
  cases x <;> rfl

/-- Where each step is a step that may fail and then a function, so are all of them. -/
theorem toOption_mapM {f : α → Except ε γ} {h : β → γ} (step : ∀ a, (f a).toOption = (g a).map h)
    (as : List α) :
    (as.mapM f).toOption = (as.mapM g).map (List.map h) := by
  induction as with
  | nil => rfl
  | cons a as ih =>
    rw [List.mapM_cons, List.mapM_cons, toOption_bind, step a]
    cases g a with
    | none => rfl
    | some b =>
      simp only [Option.map_some, Option.bind_some, toOption_bind, ih, Option.bind_eq_bind]
      cases as.mapM g with
      | none => rfl
      | some bs => rfl

theorem forall₂_of_mapM {bs : List β} (all : as.mapM g = some bs) :
    List.Forall₂ (fun a b => g a = some b) as bs := by
  induction as generalizing bs with
  | nil =>
    cases all
    exact .nil
  | cons a as ih =>
    rw [List.mapM_cons] at all
    obtain ⟨b, first, all⟩ := Option.bind_eq_some_iff.mp all
    obtain ⟨cs, later, same⟩ := Option.bind_eq_some_iff.mp all
    cases same
    exact .cons first (ih later)

theorem exists_of_mem_mapM {bs : List β} {b : β} (all : as.mapM g = some bs) (mem : b ∈ bs) :
    ∃ a ∈ as, g a = some b := by
  have each := forall₂_of_mapM all
  clear all
  induction each with
  | nil => cases mem
  | cons first _ ih =>
    rcases List.mem_cons.mp mem with same | later
    · exact ⟨_, List.mem_cons_self, same ▸ first⟩
    · obtain ⟨a, isElem, result⟩ := ih later
      exact ⟨a, List.mem_cons_of_mem _ isElem, result⟩

variable {f : β → α → Except ε β}

/-- Steps that come to an error stop at the first of them that fails. -/
theorem foldlM_error {b : β} {e : ε} (failed : as.foldlM f b = .error e) :
    ∃ done a rest c, as = done ++ a :: rest ∧ done.foldlM f b = .ok c ∧ f c a = .error e := by
  induction as generalizing b with
  | nil => cases failed
  | cons a as ih =>
    rw [List.foldlM_cons] at failed
    cases step : f b a with
    | error e' =>
      rw [step] at failed
      cases failed
      exact ⟨[], a, as, b, rfl, rfl, step⟩
    | ok c =>
      rw [step] at failed
      obtain ⟨done, a', rest, d, split, before, last⟩ := ih failed
      refine ⟨a :: done, a', rest, d, congrArg (a :: ·) split, ?_, last⟩
      rw [List.foldlM_cons, step]
      exact before

/-- What no step changes is as it was. -/
theorem foldlM_keeps (view : β → γ) {b c : β}
    (keeps : ∀ a ∈ as, ∀ b c, f b a = .ok c → view c = view b) (done : as.foldlM f b = .ok c) :
    view c = view b := by
  induction as generalizing b with
  | nil =>
    cases done
    rfl
  | cons a as ih =>
    rw [List.foldlM_cons] at done
    obtain ⟨d, first, later⟩ := bind_eq_ok done
    have rest := ih (fun a' mem => keeps a' (List.mem_cons_of_mem _ mem)) later
    exact rest.trans (keeps a List.mem_cons_self b d first)

end Twapi.Lib
