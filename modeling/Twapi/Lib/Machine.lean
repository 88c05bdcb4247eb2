/-!
Executable labelled transition systems and invariants of their guarded runs.

A `Machine` steps by a partial function: the label carries every choice the
environment makes (an interleaving, the answer of a system call), so one label
fixes the step and a run is a list of labels.

* `Machine.Reaches` — the states reached by runs all of whose steps meet a
  guard. `fun _ _ => True` is the unguarded case.
* `Reaches.invariant` — the induction rule: a property of the initial states
  that every guarded step keeps holds in every reached state.
* `Reaches.of_run`, `Reaches.exists_of_run` — a concrete guarded run,
  evaluated, reaches its last state.
-/

namespace Twapi.Lib

/-- A labelled transition system; a label that is not enabled has no step. -/
structure Machine (σ α : Type) where
  init : σ → Prop
  step : σ → α → Option σ

namespace Machine

variable {σ α : Type}

/-- States reached from an initial state by steps that meet the guard `G` in
the state they are taken from. -/
inductive Reaches (M : Machine σ α) (G : σ → α → Prop) : σ → Prop where
  | init {s : σ} : M.init s → Reaches M G s
  | step {s t : σ} {a : α} : Reaches M G s → G s a → M.step s a = some t → Reaches M G t

/-- Every state any run reaches. -/
abbrev Reachable (M : Machine σ α) : σ → Prop := M.Reaches fun _ _ => True

/-- Run a list of labels; `none` as soon as one of them is not enabled. -/
def run (M : Machine σ α) (s : σ) (as : List α) : Option σ := as.foldlM M.step s

/-- Run a list of labels, each of which must meet the guard where it is taken. -/
def runWhere (M : Machine σ α) (G : σ → α → Prop) [∀ s a, Decidable (G s a)] :
    σ → List α → Option σ
  | s, [] => some s
  | s, a :: as => if G s a then (M.step s a).bind fun t => runWhere M G t as else none

@[simp] theorem run_nil (M : Machine σ α) (s : σ) : M.run s [] = some s := rfl

@[simp] theorem run_cons (M : Machine σ α) (s : σ) (a : α) (as : List α) :
    M.run s (a :: as) = (M.step s a).bind fun t => M.run t as := by
  simp [run, List.foldlM_cons, Option.bind_eq_bind]

namespace Reaches

variable {M : Machine σ α} {G G' : σ → α → Prop}

/-- The invariant rule: what holds initially and is kept by every guarded step
holds in every state a guarded run reaches. -/
theorem invariant {P : σ → Prop} (start : ∀ s, M.init s → P s)
    (keep : ∀ s a t, P s → G s a → M.step s a = some t → P t) {s : σ}
    (h : M.Reaches G s) : P s := by
  induction h with
  | init hs => exact start _ hs
  | step _ hg hstep ih => exact keep _ _ _ ih hg hstep

/-- A weaker guard reaches at least as much. -/
theorem mono (weaker : ∀ s a, G s a → G' s a) {s : σ} (h : M.Reaches G s) : M.Reaches G' s := by
  induction h with
  | init hs => exact .init hs
  | step _ hg hstep ih => exact .step ih (weaker _ _ hg) hstep

/-- Continue a guarded run by a list of labels, each checked against the guard. -/
theorem append [∀ s a, Decidable (G s a)] {s t : σ} {as : List α} (h : M.Reaches G s)
    (hrun : M.runWhere G s as = some t) : M.Reaches G t := by
  induction as generalizing s with
  | nil =>
    simp only [runWhere, Option.some.injEq] at hrun
    exact hrun ▸ h
  | cons a as ih =>
    simp only [runWhere] at hrun
    split at hrun
    · rename_i hg
      obtain ⟨u, hu, htail⟩ := Option.bind_eq_some_iff.mp hrun
      exact ih (h.step hg hu) htail
    · simp at hrun

/-- An evaluated guarded run from an initial state reaches its last state. -/
theorem of_run [∀ s a, Decidable (G s a)] {s t : σ} (as : List α) (hs : M.init s)
    (hrun : M.runWhere G s as = some t) : M.Reaches G t :=
  append (.init hs) hrun

/-- A concrete guarded run whose last state passes a test. -/
theorem exists_of_run [∀ s a, Decidable (G s a)] {s : σ} (as : List α) (p : σ → Prop)
    [DecidablePred p] (hs : M.init s)
    (hrun : (M.runWhere G s as).map (fun t => decide (p t)) = some true) :
    ∃ t, M.Reaches G t ∧ p t := by
  obtain ⟨t, ht, hp⟩ := Option.map_eq_some_iff.mp hrun
  exact ⟨t, of_run as hs ht, of_decide_eq_true hp⟩

end Reaches

end Machine

end Twapi.Lib
