import Twapi.InterpContext.References

/-!
The finalizers of contexts.

* `Finalized` — the finalizer of a context was called once its interpreter was cleaned up,
  before the context was deleted.
* `Alone` — a cleanup that is the first one of its module.
* `finalized_once` — only such cleanups call the finalizer: the pointer is in the definition
  of the module, which the contexts share, and is cleared after the first call.
-/

namespace Twapi.InterpContext

open Lib List

variable {M I : Type}

/-- The modules of the contexts. -/
def State.modules (s : State M I) : List M := s.allocated.map (·.modP)

/-- No context of the module was cleaned up. -/
def State.Untouched (s : State M I) (modP : M) : Prop :=
  ∀ d : Nat, s.modules[d]? = some modP → d ∈ s.callWhenDeleted

/-- The pointer to a finalizer is there until a context of the module is cleaned up; no
finalizer is called before. -/
structure Pointers (D : Modules M) (s : State M I) : Prop where
  finalizer : ∀ modP, s.finalizer modP = true ↔ D.finalizer modP = true ∧ s.Untouched modP
  early : ∀ (c : Nat) tic, s.allocated[c]? = some tic → c ∈ s.callWhenDeleted → tic.calls = []

/-- A context whose initializer succeeded, of a module with a finalizer. -/
def TwapiInterpContext.Owed (D : Modules M) (tic : TwapiInterpContext M I) : Prop :=
  D.finalizer tic.modP = true ∧ tic.outcome.initializer = true

/-- The finalizer of every such context is called in the cleanup, once, and before any
deletion. -/
def Finalized (D : Modules M) (s : State M I) : Prop :=
  ∀ (c : Nat) tic, s.allocated[c]? = some tic → tic.Owed D →
    if c ∈ s.callWhenDeleted then tic.calls = []
    else ∃ n, tic.calls = List.replicate n .delete ++ [.finalizer]

/-- A cleanup of such a context is the first one of its module. -/
def Alone (D : Modules M) (s : State M I) : Label M I → Prop
  | .cleanup c => ∀ tic, s.allocated[c]? = some tic → tic.Owed D → s.Untouched tic.modP
  | _ => True

/-! ### Steps -/

theorem modules_found {s : State M I} {c : Nat} {tic : TwapiInterpContext M I}
    (found : s.allocated[c]? = some tic) : s.modules[c]? = some tic.modP := by
  rw [State.modules, getElem?_map, found]
  rfl

section Steps

variable [DecidableEq M] [DecidableEq I] {D : Modules M} {s t : State M I}

omit [DecidableEq M] [DecidableEq I] in
theorem register_cases (D : Modules M) (s : State M I) (interp : I) (modP : M)
    (outcome : Outcome) :
    let t := twapiRegisterModule D s interp modP outcome
    t = s ∨ ∃ tic, tic.modP = modP ∧ tic.calls = [] ∧ t.allocated = s.allocated ++ [tic] ∧
      t.callWhenDeleted = s.allocated.length :: s.callWhenDeleted ∧
      t.finalizer = s.finalizer := by
  rw [twapiRegisterModule]
  by_cases own : D.newTic modP = true
  · rw [if_pos own]
    refine .inr ⟨_, ?_, ?_, rfl, rfl, rfl⟩
    · cases outcome.ok <;> rfl
    · cases outcome.ok <;> rfl
  · exact .inl (if_neg own)

omit [DecidableEq M] [DecidableEq I] in
theorem register_pointers (pointers : Pointers D s) (interp : I) (modP : M)
    (outcome : Outcome) : Pointers D (twapiRegisterModule D s interp modP outcome) := by
  rcases register_cases D s interp modP outcome with same |
    ⟨tic, _, calls, allocated, callWhenDeleted, finalizer⟩
  · rwa [same]
  have modules : (twapiRegisterModule D s interp modP outcome).modules =
      s.modules ++ [tic.modP] := by
    rw [State.modules, allocated, map_append]
    rfl
  have length : s.modules.length = s.allocated.length := length_map ..
  constructor
  · intro other
    rw [finalizer, State.Untouched, modules, callWhenDeleted]
    refine (pointers.finalizer other).trans (and_congr_right fun _ => ⟨?_, ?_⟩)
    · intro untouched d found
      rcases lookup_snoc found with ⟨here, _⟩ | old
      · exact mem_cons.mpr (.inl (here.trans length))
      · exact mem_cons_of_mem _ (untouched d old)
    · intro untouched d found
      have inside : d < s.modules.length := (List.getElem?_eq_some_iff.mp found).1
      have still : (s.modules ++ [tic.modP])[d]? = some other :=
        (getElem?_append_left inside).trans found
      rcases mem_cons.mp (untouched d still) with here | owed
      · omega
      · exact owed
  · intro c tic' found owed
    rw [allocated] at found
    rw [callWhenDeleted] at owed
    rcases lookup_snoc found with ⟨_, rfl⟩ | old
    · exact calls
    · have inside := (List.getElem?_eq_some_iff.mp old).1
      rcases mem_cons.mp owed with here | before
      · exact absurd here (Nat.ne_of_lt inside)
      · exact pointers.early c tic' old before

omit [DecidableEq I] in
theorem cleanup_finalizer (s : State M I) (c : Nat) (modP other : M) :
    (twapiInterpContextCleanup s c modP).finalizer other =
      if other = modP then false else s.finalizer other := by
  have finalize : (s.finalize c modP).finalizer other =
      if other = modP then false else s.finalizer other := by
    rw [State.finalize]
    by_cases present : s.finalizer modP = true
    · rw [if_pos present]
      exact Function.update_apply s.finalizer modP false other
    · rw [if_neg present]
      by_cases same : other = modP
      · rw [if_pos same, same]
        exact Bool.eq_false_iff.mpr present
      · rw [if_neg same]
  exact finalize

omit [DecidableEq I] in
theorem cleanup_modules (s : State M I) (c : Nat) (modP : M) :
    (twapiInterpContextCleanup s c modP).modules = s.modules := by
  rw [State.modules, cleanup_allocated]
  exact map_modify_of fun tic => (cleaned_eq _ _ tic).1

variable {tic : TwapiInterpContext M I} {c : Nat}

omit [DecidableEq M] [DecidableEq I] in
theorem not_mem_erase (sound : Sound s) (found : s.allocated[c]? = some tic) :
    c ∉ s.callWhenDeleted.erase c := by
  rw [← count_eq_zero, count_erase_self]
  have once := (sound.counted c tic found).once
  omega

omit [DecidableEq I] in
theorem cleanup_pointers (pointers : Pointers D s) (sound : Sound s)
    (found : s.allocated[c]? = some tic) :
    Pointers D (twapiInterpContextCleanup s c tic.modP) := by
  have gone := not_mem_erase sound found
  have callWhenDeleted := (cleanup_lists s c tic.modP).1
  constructor
  · intro other
    rw [cleanup_finalizer, State.Untouched, cleanup_modules, callWhenDeleted]
    by_cases same : other = tic.modP
    · subst same
      rw [if_pos rfl]
      refine ⟨nofun, fun ⟨_, untouched⟩ => absurd (untouched c (modules_found found)) gone⟩
    · rw [if_neg same]
      refine (pointers.finalizer other).trans (and_congr_right fun _ => ?_)
      refine forall_congr' fun d => imp_congr_right fun found' => ?_
      have differ : d ≠ c := by
        rintro rfl
        exact same (Option.some.inj (found'.symm.trans (modules_found found)))
      exact (mem_erase_of_ne differ).symm
  · intro d other found' owed
    rw [cleanup_allocated] at found'
    rw [callWhenDeleted] at owed
    rcases lookup_modify found' with ⟨rfl, _⟩ | ⟨differ, was⟩
    · exact absurd owed gone
    · exact pointers.early d other was (mem_of_mem_erase owed)

theorem step_pointers {l : Label M I} (pointers : Pointers D s) (sound : Sound s)
    (stepped : step D s l = some t) : Pointers D t := by
  have sound' := step_sound sound stepped
  rcases step_cases stepped with ⟨interp, modP, outcome, rfl, rfl⟩ |
    ⟨c, tic, rfl, found, _, rfl⟩ | ⟨finalizer, callWhenDeleted, c, f, allocated, kept⟩
  · exact register_pointers pointers interp modP outcome
  · exact cleanup_pointers pointers sound found
  · have modules : t.modules = s.modules := by
      rw [State.modules, allocated]
      exact map_modify_of fun tic => (kept tic).modP
    constructor
    · intro modP
      rw [finalizer, State.Untouched, modules, callWhenDeleted]
      exact pointers.finalizer modP
    · intro d tic found owed
      have undeleted : tic.deleted = 0 := by
        have none_called := (sound'.counted d tic found).kept
        have one := count_pos_iff.mpr owed
        omega
      rw [allocated] at found
      rw [callWhenDeleted] at owed
      rcases lookup_modify found with ⟨rfl, old, was, rfl⟩ | ⟨_, was⟩
      · have nothing := pointers.early d old was owed
        rcases (kept old).calls with same | called
        · exact same.trans nothing
        · rw [TwapiInterpContext.deleted, called, count_cons_self] at undeleted
          cases undeleted
      · exact pointers.early d tic was owed

/-! ### Cleaned up once -/

omit [DecidableEq I] in
/-- What the cleanup leaves behind. -/
theorem cleanup_calls {tic tic' : TwapiInterpContext M I} (pointers : Pointers D s)
    (found : s.allocated[c]? = some tic) (owed : c ∈ s.callWhenDeleted)
    (found' : (twapiInterpContextCleanup s c tic.modP).allocated[c]? = some tic') :
    tic'.modP = tic.modP ∧ tic'.outcome = tic.outcome ∧
      ∃ n, tic'.calls = List.replicate n .delete ++
        if s.finalizer tic.modP then [.finalizer] else [] := by
  have nothing := pointers.early c tic found owed
  rw [cleanup_allocated, getElem?_modify_eq, found] at found'
  cases Option.some.inj found'
  obtain ⟨modP, outcome, n, calls⟩ :=
    cleaned_eq (s.finalizer tic.modP) (s.waits.count c) tic
  refine ⟨modP, outcome, n, calls.trans (congrArg _ ?_)⟩
  cases s.finalizer tic.modP with
  | true => exact congrArg _ nothing
  | false => exact nothing

theorem step_finalized {l : Label M I} (finalized : Finalized D s) (pointers : Pointers D s)
    (sound : Sound s) (alone : Alone D s l) (stepped : step D s l = some t) :
    Finalized D t := by
  have pointers' := step_pointers pointers sound stepped
  intro d tic' found' owing
  by_cases still : d ∈ t.callWhenDeleted
  · rw [if_pos still]
    exact pointers'.early d tic' found' still
  rw [if_neg still]
  rcases step_cases stepped with ⟨interp, modP, outcome, rfl, rfl⟩ |
    ⟨c, tic, rfl, found, owed, rfl⟩ | ⟨_, callWhenDeleted, c, f, allocated, kept⟩
  · rcases register_cases D s interp modP outcome with same |
      ⟨tic, _, _, allocated, callWhenDeleted, _⟩
    · rw [same] at found' still
      have before := finalized d tic' found' owing
      rwa [if_neg still] at before
    · rw [callWhenDeleted, mem_cons, not_or] at still
      rw [allocated] at found'
      rcases lookup_snoc found' with ⟨here, _⟩ | old
      · exact absurd here still.1
      · have before := finalized d tic' old owing
        rwa [if_neg still.2] at before
  · by_cases same : d = c
    · subst same
      obtain ⟨modP, outcome, n, calls⟩ := cleanup_calls pointers found owed found'
      have owing' : tic.Owed D := by rwa [TwapiInterpContext.Owed, modP, outcome] at owing
      have present : s.finalizer tic.modP = true :=
        (pointers.finalizer _).mpr ⟨owing'.1, alone tic found owing'⟩
      rw [if_pos present] at calls
      exact ⟨n, calls⟩
    · rw [cleanup_allocated] at found'
      rw [(cleanup_lists s c tic.modP).1, mem_erase_of_ne same] at still
      rcases lookup_modify found' with ⟨here, _⟩ | ⟨_, old⟩
      · exact absurd here same
      · have before := finalized d tic' old owing
        rwa [if_neg still] at before
  · rw [callWhenDeleted] at still
    rw [allocated] at found'
    rcases lookup_modify found' with ⟨rfl, old, was, rfl⟩ | ⟨_, old⟩
    · have owing' : old.Owed D := by
        rwa [TwapiInterpContext.Owed, (kept old).modP, (kept old).outcome] at owing
      have before := finalized d old was owing'
      rw [if_neg still] at before
      obtain ⟨n, calls⟩ := before
      rcases (kept old).calls with same | called
      · exact ⟨n, same.trans calls⟩
      · exact ⟨n + 1, called.trans (congrArg _ calls)⟩
    · have before := finalized d tic' old owing
      rwa [if_neg still] at before

theorem reaches_pointers {G : State M I → Label M I → Prop} (reached : (machine D).Reaches G s) :
    Pointers D s := by
  induction reached with
  | init first =>
    rw [show _ = start D from first]
    constructor
    · exact fun modP => ⟨fun present => ⟨present, nofun⟩, fun present => present.1⟩
    · exact fun _ _ found => (nomatch found)
  | step before _ stepped pointers => exact step_pointers pointers (sound_of_reaches before) stepped

/-- In every run that cleans up one context of a module at most, and not after a cleanup of
another: the pointer was cleared. -/
theorem finalized_once :
    (∀ s : State M I, (machine D).Reaches (Alone D) s → Finalized D s) ∧
    ∀ (G : State M I → Label M I → Prop) (s t : State M I) (l : Label M I),
      (machine D).Reaches G s → step D s l = some t → ¬ Alone D s l → ¬ Finalized D t := by
  constructor
  · intro s reached
    induction reached with
    | init first =>
      rw [show _ = start D from first]
      exact fun _ _ found => (nomatch found)
    | step before alone stepped finalized =>
      exact step_finalized finalized (reaches_pointers before) (sound_of_reaches before) alone
        stepped
  · intro G s t l reached stepped again finalized
    have pointers := reaches_pointers reached
    have sound := sound_of_reaches reached
    cases l with
    | cleanup c =>
      obtain ⟨tic, found, owed, rfl⟩ := cleanup_step stepped
      obtain ⟨owing, touched⟩ : tic.Owed D ∧ ¬ s.Untouched tic.modP := by
        by_contra harmless
        refine again fun tic' found' owing => ?_
        cases Option.some.inj (found'.symm.trans found)
        by_contra touched
        exact harmless ⟨owing, touched⟩
      have cleared : ¬ s.finalizer tic.modP = true :=
        fun present => touched ((pointers.finalizer _).mp present).2
      obtain ⟨tic', found'⟩ : ∃ tic',
          (twapiInterpContextCleanup s c tic.modP).allocated[c]? = some tic' := by
        rw [cleanup_allocated, getElem?_modify_eq, found]
        exact ⟨_, rfl⟩
      obtain ⟨modP, outcome, n, calls⟩ := cleanup_calls pointers found owed found'
      have owing' : tic'.Owed D := by rwa [TwapiInterpContext.Owed, modP, outcome]
      have called := finalized c tic' found' owing'
      rw [(cleanup_lists s c tic.modP).1, if_neg (not_mem_erase sound found)] at called
      obtain ⟨m, called⟩ := called
      rw [calls, if_neg cleared, append_nil] at called
      have mem : Call.finalizer ∈ replicate n .delete :=
        called ▸ mem_append_right _ (mem_singleton_self _)
      exact absurd (eq_of_mem_replicate mem) nofun
    | _ => exact again trivial

end Steps

/-! ### Two interpreters -/

/-- An interpreter in which the module is registered is deleted. -/
def interpreter (interp c : Nat) : List (Label Unit Nat) :=
  [.register interp () ⟨true, true⟩, .deleteInterp interp, .cleanup c]

instance (modP : Unit) (s : State Unit Nat) : Decidable (s.Untouched modP) :=
  decidable_of_iff (∀ d < s.modules.length, d ∈ s.callWhenDeleted)
    ⟨fun all d found => all d (List.getElem?_eq_some_iff.mp found).1,
      fun all d inside => all d (List.getElem?_eq_getElem inside)⟩

instance (s : State Unit Nat) (l : Label Unit Nat) : Decidable (Alone baseModule s l) :=
  match l with
  | .cleanup c =>
    decidable_of_iff (∀ tic ∈ s.allocated[c]?.toList,
      tic.outcome.initializer = true → s.Untouched tic.modP)
      ⟨fun all tic found owing => all tic (by rw [found]; exact List.mem_singleton_self _)
          owing.2,
        fun all tic mem owing => all tic (Option.mem_toList.mp mem) ⟨rfl, owing⟩⟩
  | .register .. | .deleteInterp .. | .enqueue .. | .event .. | .registerWait ..
  | .unregisterWait .. | .ref .. | .unref .. => isTrue trivial

theorem finalized_once_twoInterpreters :
    (∃ s : State Unit Nat, Finalized baseModule s ∧ s.allocated.map (·.deleted) = [1]) ∧
    ∃ t : State Unit Nat, ¬ Finalized baseModule t ∧ t.allocated.length = 2 := by
  obtain ⟨s, reached, deleted⟩ := Machine.Reaches.exists_of_run
    (M := machine (M := Unit) (I := Nat) baseModule) (G := Alone baseModule)
    (interpreter 0 0) (fun s => s.allocated.map (·.deleted) = [1]) rfl (by decide)
  obtain ⟨t, reached', two⟩ := Machine.Reaches.exists_of_run
    (M := machine (M := Unit) (I := Nat) baseModule) (G := fun _ _ => True)
    (interpreter 0 0 ++ (interpreter 1 1).take 2)
    (fun s => ¬ Alone baseModule s (.cleanup 1) ∧
      ∃ t ∈ step baseModule s (.cleanup 1), t.allocated.length = 2) rfl (by decide)
  obtain ⟨again, u, stepped, length⟩ := two
  exact ⟨⟨s, finalized_once.1 s reached, deleted⟩, u,
    finalized_once.2 _ t u _ reached' stepped again, length⟩

/-- The finalizer is not called in the second interpreter. -/
theorem second_interpreter_not_finalized :
    ¬ ∀ s : State Unit Nat, (machine baseModule).Reachable s → Finalized baseModule s := by
  intro claim
  obtain ⟨s, reached, found, cleaned⟩ := Machine.Reaches.exists_of_run
    (M := machine (M := Unit) (I := Nat) baseModule) (G := fun _ _ => True)
    (interpreter 0 0 ++ interpreter 1 1)
    (fun s => s.allocated[1]? = some ⟨(), 1, false, 0, ⟨true, true⟩, [.delete]⟩ ∧
      1 ∉ s.callWhenDeleted) rfl (by decide)
  have finalized := claim s reached 1 _ found ⟨rfl, rfl⟩
  rw [if_neg cleaned] at finalized
  obtain ⟨n, calls⟩ := finalized
  have same : [Call.delete] = replicate n .delete ++ [.finalizer] := calls
  have mem : .finalizer ∈ [Call.delete] :=
    same ▸ mem_append_right _ (mem_singleton_self _)
  exact absurd mem (by decide)

end Twapi.InterpContext
