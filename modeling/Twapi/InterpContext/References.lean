import Twapi.InterpContext.Model

/-!
References to contexts.

* `Counted` — what the reference count and the deletions of one context have to do with the
  number of its holders, whatever became of its registration.
* `step_sound` — every step keeps it, for every context.
* `refs_held` — without registrations that fail, the count is the number of holders, and a
  context is deleted once, when there are none.
-/

namespace Twapi.InterpContext

open Lib List Option State

variable {M I : Type}

/-! ### One context -/

/-- The reference that is dropped by a registration that failed. -/
def TwapiInterpContext.missing (tic : TwapiInterpContext M I) : Int :=
  if tic.outcome.ok then 0 else 1

/-- With `p` cleanups that are owed, `q` entries in the list and `h` holders in all. Where
the registration failed, one reference too many was dropped. -/
structure Counted (tic : TwapiInterpContext M I) (p q h : Nat) : Prop where
  nrefs : tic.nrefs = h - tic.missing
  deleted : tic.outcome.ok = true → tic.deleted = if h = 0 then 1 else 0
  kept : 0 < tic.deleted → p = 0
  once : p ≤ 1
  listed : q = p

section Counted

variable {tic : TwapiInterpContext M I} {p q h : Nat}

theorem Counted.ref (counted : Counted tic p q h) (live : 0 < h) :
    Counted (tic.ref 1) p q (h + 1) where
  nrefs := by
    have nrefs := counted.nrefs
    change tic.nrefs + 1 = ((h + 1 : Nat) : Int) - tic.missing
    omega
  deleted ok := by
    rw [if_neg (Nat.succ_ne_zero h)]
    exact (counted.deleted ok).trans (if_neg (Nat.ne_of_gt live))
  kept := counted.kept
  once := counted.once
  listed := counted.listed

section Unref

variable {decr : Int} {h' : Nat} (less : (h' : Int) = h - decr)
include less

theorem Counted.nrefs_unref (counted : Counted tic p q h) :
    (tic.unref decr).nrefs = h' - (tic.unref decr).missing := by
  have nrefs := counted.nrefs
  change tic.nrefs - decr = h' - tic.missing
  omega

/-- The last reference deletes the context. -/
theorem Counted.deleted_unref (counted : Counted tic p q h) (some_ : 0 < decr)
    (ok : tic.outcome.ok = true) : (tic.unref decr).deleted = if h' = 0 then 1 else 0 := by
  have nrefs := counted.nrefs
  have deleted := counted.deleted ok
  rw [TwapiInterpContext.missing, if_pos ok] at nrefs
  rw [if_neg (by omega)] at deleted
  rw [TwapiInterpContext.deleted_unref]
  by_cases last : h' = 0
  · rw [if_pos (by omega), if_pos last, deleted]
  · rw [if_neg (by omega), if_neg last, deleted]

end Unref

/-- A reference that is neither the interpreter's nor the list's is dropped. -/
theorem Counted.unref (counted : Counted tic p q h) (other : p + q < h) :
    Counted (tic.unref 1) p q (h - 1) where
  nrefs := counted.nrefs_unref (by omega)
  deleted := counted.deleted_unref (by omega) Int.one_pos
  kept := by
    have nrefs := counted.nrefs
    have listed := counted.listed
    have kept := counted.kept
    rw [TwapiInterpContext.deleted_unref]
    by_cases last : tic.nrefs ≤ 1
    · intro _
      have most : tic.missing ≤ 1 := by
        rw [TwapiInterpContext.missing]
        cases tic.outcome.ok <;> decide
      omega
    · rw [if_neg last]
      exact kept
  once := counted.once
  listed := counted.listed

/-- The interpreter and the list let go of the context. -/
theorem Counted.close (counted : Counted tic 1 1 h) (both : 2 ≤ h) :
    Counted (tic.unref (1 + 1)) 0 0 (h - 2) where
  nrefs := counted.nrefs_unref (by omega)
  deleted := counted.deleted_unref (by omega) (by decide)
  kept _ := rfl
  once := Nat.zero_le 1
  listed := rfl

/-- Every wait is a reference of its own. -/
theorem Counted.shutdownWaits {n : Nat} (counted : Counted tic p q h) (others : p + q + n ≤ h) :
    Counted (shutdownWaits n tic) p q (h - n) := by
  induction n generalizing tic h with
  | zero => exact counted
  | succ n ih =>
    have less := ih (counted.unref (by omega)) (by omega)
    have same : h - 1 - n = h - (n + 1) := by omega
    rwa [same] at less

/-- Fields that do not count. -/
theorem Counted.congr {tic' : TwapiInterpContext M I} (counted : Counted tic p q h)
    (nrefs : tic'.nrefs = tic.nrefs) (outcome : tic'.outcome = tic.outcome)
    (deleted : tic'.deleted = tic.deleted) : Counted tic' p q h where
  nrefs := by rw [nrefs, TwapiInterpContext.missing, outcome]; exact counted.nrefs
  deleted := by rw [outcome, deleted]; exact counted.deleted
  kept := by rw [deleted]; exact counted.kept
  once := counted.once
  listed := counted.listed

end Counted

/-- A new context, whether its registration goes on to fail or not. -/
theorem Counted.registered (interp : I) (modP : M) (outcome : Outcome) :
    let tic := twapiAllocateInterpContext interp modP outcome
    Counted (if outcome.ok then tic else tic.unref 1) 1 1 2 := by
  cases succeeded : outcome.ok with
  | true =>
    refine ⟨?_, fun _ => rfl, fun called => absurd called (Nat.lt_irrefl 0), Nat.le_refl 1,
      rfl⟩
    have missing : (twapiAllocateInterpContext interp modP outcome).missing = 0 :=
      if_pos succeeded
    rw [if_pos rfl, missing]
    rfl
  | false =>
    refine ⟨?_, fun _ => rfl, fun called => absurd called (Nat.lt_irrefl 0), Nat.le_refl 1,
      rfl⟩
    have missing : ((twapiAllocateInterpContext interp modP outcome).unref 1).missing = 1 := by
      rw [TwapiInterpContext.missing, if_neg]
      exact Bool.eq_false_iff.mp succeeded
    rw [if_neg Bool.false_ne_true, missing]
    rfl

/-! ### Cleanup -/

/-- The finalizer, of one context. -/
def TwapiInterpContext.finalizeIf (present : Bool) (tic : TwapiInterpContext M I) :
    TwapiInterpContext M I :=
  if present then { tic with calls := .finalizer :: tic.calls } else tic

/-- What a cleanup makes of the context. -/
def TwapiInterpContext.cleaned (present : Bool) (waits : Nat) (tic : TwapiInterpContext M I) :
    TwapiInterpContext M I :=
  (shutdownWaits waits { tic.finalizeIf present with attached := false }).unref (1 + 1)

theorem Counted.cleaned {tic : TwapiInterpContext M I} {h n : Nat} (present : Bool)
    (counted : Counted tic 1 1 h) (others : 2 + n ≤ h) :
    Counted (tic.cleaned present n) 0 0 (h - n - 2) := by
  have same : Counted { tic.finalizeIf present with attached := false } 1 1 h := by
    cases present with
    | true => exact counted.congr rfl rfl (count_cons_of_ne (by decide))
    | false => exact counted.congr rfl rfl rfl
  exact (same.shutdownWaits (n := n) (by omega)).close (by omega)

/-- What a step that neither registers nor cleans up a context makes of it. -/
structure Kept (tic tic' : TwapiInterpContext M I) : Prop where
  modP : tic'.modP = tic.modP
  outcome : tic'.outcome = tic.outcome
  calls : tic'.calls = tic.calls ∨ tic'.calls = .delete :: tic.calls

theorem Kept.unref {tic tic' : TwapiInterpContext M I} (modP : tic'.modP = tic.modP)
    (outcome : tic'.outcome = tic.outcome) (calls : tic'.calls = tic.calls) (decr : Int) :
    Kept tic (tic'.unref decr) := by
  refine ⟨modP, outcome, ?_⟩
  simp only [TwapiInterpContext.unref, calls]
  by_cases last : tic'.nrefs ≤ decr
  · exact .inr (if_pos last)
  · exact .inl (if_neg last)

theorem shutdownWaits_eq (n : Nat) (tic : TwapiInterpContext M I) :
    (shutdownWaits n tic).modP = tic.modP ∧ (shutdownWaits n tic).outcome = tic.outcome ∧
      ∃ k, (shutdownWaits n tic).calls = List.replicate k .delete ++ tic.calls := by
  induction n generalizing tic with
  | zero => exact ⟨rfl, rfl, 0, rfl⟩
  | succ n ih =>
    obtain ⟨modP, outcome, k, calls⟩ := ih (tic.unref 1)
    refine ⟨modP, outcome, ?_⟩
    rcases (@Kept.unref M I tic tic rfl rfl rfl 1).calls with same | called
    · exact ⟨k, calls.trans (by rw [same])⟩
    · refine ⟨k + 1, calls.trans ?_⟩
      rw [called, replicate_succ', append_assoc]
      rfl

theorem cleaned_eq (present : Bool) (n : Nat) (tic : TwapiInterpContext M I) :
    (tic.cleaned present n).modP = tic.modP ∧ (tic.cleaned present n).outcome = tic.outcome ∧
      ∃ k, (tic.cleaned present n).calls =
        List.replicate k .delete ++ (tic.finalizeIf present).calls := by
  obtain ⟨modP, outcome, k, calls⟩ :=
    shutdownWaits_eq n { tic.finalizeIf present with attached := false }
  refine ⟨?_, ?_, ?_⟩
  · refine modP.trans ?_
    cases present <;> rfl
  · refine outcome.trans ?_
    cases present <;> rfl
  · rcases (@Kept.unref M I _ (shutdownWaits n _) rfl rfl rfl (1 + 1)).calls with same | called
    · exact ⟨k, same.trans calls⟩
    · exact ⟨k + 1, called.trans (by rw [calls]; rfl)⟩

section Cleanup

variable [DecidableEq M]

theorem finalize_allocated (s : State M I) (c : Nat) (modP : M) :
    (s.finalize c modP).allocated =
      s.allocated.modify c (.finalizeIf (s.finalizer modP)) := by
  rw [finalize]
  cases present : s.finalizer modP with
  | true => rfl
  | false => exact (modify_id c s.allocated).symm

theorem cleanup_allocated (s : State M I) (c : Nat) (modP : M) :
    (twapiInterpContextCleanup s c modP).allocated =
      s.allocated.modify c (.cleaned (s.finalizer modP) (s.waits.count c)) := by
  have waits : (s.finalize c modP).waits = s.waits := by
    rw [finalize]
    split <;> rfl
  simp only [twapiInterpContextCleanup, State.modify, finalize_allocated, waits,
    modify_modify_eq]
  rfl

theorem cleanup_lists (s : State M I) (c : Nat) (modP : M) :
    let t := twapiInterpContextCleanup s c modP
    t.callWhenDeleted = s.callWhenDeleted.erase c ∧ t.contexts = s.contexts.erase c ∧
      t.events = s.events ∧ t.waits = s.waits.filter (· ≠ c) ∧ t.others = s.others := by
  simp only [twapiInterpContextCleanup, State.modify, State.finalize]
  split <;> exact ⟨rfl, rfl, rfl, rfl, rfl⟩

end Cleanup

/-! ### All contexts -/

/-- Every context, and nothing refers to one that was not allocated. -/
structure Sound (s : State M I) : Prop where
  counted : ∀ c tic, s.allocated[c]? = some tic →
    Counted tic (s.callWhenDeleted.count c) (s.contexts.count c) (s.holders c)
  unallocated : ∀ c, s.allocated.length ≤ c → s.holders c = 0

variable {s t : State M I} {c d : Nat}

/-- A step that changes one context, and the holders of that one. -/
theorem Sound.modify {f : TwapiInterpContext M I → TwapiInterpContext M I} (sound : Sound s)
    (allocated : t.allocated = s.allocated.modify c f)
    (owed : ∀ d, d ≠ c → t.callWhenDeleted.count d = s.callWhenDeleted.count d)
    (listed : ∀ d, d ≠ c → t.contexts.count d = s.contexts.count d)
    (holders : ∀ d, d ≠ c → t.holders d = s.holders d) (fewer : s.holders c = 0 → t.holders c = 0)
    (here : ∀ tic, s.allocated[c]? = some tic →
      Counted (f tic) (t.callWhenDeleted.count c) (t.contexts.count c) (t.holders c)) :
    Sound t where
  counted d tic found := by
    rw [allocated] at found
    rcases lookup_modify found with ⟨rfl, before, was, rfl⟩ | ⟨other, was⟩
    · exact here before was
    · rw [owed d other, listed d other, holders d other]
      exact sound.counted d tic was
  unallocated d outside := by
    rw [allocated, length_modify] at outside
    by_cases same : d = c
    · subst same
      exact fewer (sound.unallocated d outside)
    · rw [holders d same]
      exact sound.unallocated d outside

theorem count_cons_other (l : List Nat) (other : d ≠ c) :
    (c :: l).count d = l.count d :=
  count_cons_of_ne (Ne.symm other)

theorem count_erase_other (l : List Nat) (other : d ≠ c) :
    (l.erase c).count d = l.count d :=
  count_erase_of_ne other

theorem holders_pos (mem : c ∈ s.callWhenDeleted ∨ c ∈ s.events ∨ c ∈ s.waits ∨ c ∈ s.others) :
    0 < s.holders c := by
  rw [holders]
  rcases mem with mem | mem | mem | mem <;>
  · have one := count_pos_iff.mpr mem
    omega

/-- One more holder that is neither the interpreter nor the list. -/
theorem Sound.oneMore (sound : Sound s) (live : 0 < s.holders c)
    (allocated : t.allocated = s.allocated.modify c (.ref 1))
    (owed : t.callWhenDeleted = s.callWhenDeleted) (listed : t.contexts = s.contexts)
    (others : ∀ d, d ≠ c → t.holders d = s.holders d) (one_more : t.holders c = s.holders c + 1) :
    Sound t := by
  refine sound.modify allocated (fun d _ => by rw [owed]) (fun d _ => by rw [listed]) others
    (fun none_left => absurd none_left (Nat.ne_of_gt live)) fun tic found => ?_
  rw [owed, listed, one_more]
  exact (sound.counted c tic found).ref live

/-- A holder less that is neither the interpreter nor the list. -/
theorem Sound.oneLess (sound : Sound s) (allocated : t.allocated = s.allocated.modify c (.unref 1))
    (owed : t.callWhenDeleted = s.callWhenDeleted) (listed : t.contexts = s.contexts)
    (others : ∀ d, d ≠ c → t.holders d = s.holders d) (one_less : t.holders c + 1 = s.holders c)
    (other : s.callWhenDeleted.count c + s.contexts.count c < s.holders c) : Sound t := by
  refine sound.modify allocated (fun d _ => by rw [owed]) (fun d _ => by rw [listed]) others
    (fun none_left => by omega) fun tic found => ?_
  have less := (sound.counted c tic found).unref other
  rwa [owed, listed, show t.holders c = s.holders c - 1 by omega]

theorem register_sound {D : Modules M} (sound : Sound s) (interp : I) (modP : M) (outcome : Outcome) :
    Sound (twapiRegisterModule D s interp modP outcome) := by
  rw [twapiRegisterModule]
  by_cases own : D.newTic modP = true
  · rw [if_pos own]
    have empty := sound.unallocated s.allocated.length (Nat.le_refl _)
    simp only [holders] at empty
    have listed : ∀ d, count d (if D.isBase modP then s.allocated.length :: s.contexts
        else s.contexts ++ [s.allocated.length]) =
        s.contexts.count d + if d = s.allocated.length then 1 else 0 := by
      intro d
      by_cases new : d = s.allocated.length
      · subst new
        cases D.isBase modP <;> simp
      · cases D.isBase modP <;> simp [new, Ne.symm new]
    constructor
    · intro c tic found
      simp only [holders, listed, count_cons, beq_iff_eq]
      rcases lookup_snoc found with ⟨here, same⟩ | was
      · subst here same
        have unowed : s.callWhenDeleted.count s.allocated.length = 0 := by omega
        have unlisted : s.contexts.count s.allocated.length = 0 := by omega
        have unqueued : s.events.count s.allocated.length = 0 := by omega
        have unwaited : s.waits.count s.allocated.length = 0 := by omega
        have unheld : s.others.count s.allocated.length = 0 := by omega
        rw [unowed, unlisted, unqueued, unwaited, unheld, if_pos rfl]
        exact .registered interp modP outcome
      · have before := (List.getElem?_eq_some_iff.mp was).choose
        have other : c ≠ s.allocated.length := Nat.ne_of_lt before
        simp only [if_neg other, if_neg (Ne.symm other), Nat.add_zero]
        exact sound.counted c tic was
    · intro c outside
      rw [length_append, length_singleton] at outside
      have other : c ≠ s.allocated.length := by omega
      have none_before := sound.unallocated c (by omega)
      simpa only [holders, listed, count_cons, beq_iff_eq, if_neg other,
        if_neg (Ne.symm other), Nat.add_zero] using none_before
  · rw [if_neg own]
    exact sound

theorem cleanup_sound [DecidableEq M] (sound : Sound s) (owed : c ∈ s.callWhenDeleted) (modP : M) :
    Sound (twapiInterpContextCleanup s c modP) := by
  obtain ⟨callWhenDeleted, contexts, events, waits, others⟩ := cleanup_lists s c modP
  refine sound.modify (cleanup_allocated s c modP) (fun d other => ?_) (fun d other => ?_)
    (fun d other => ?_) (fun none_left => ?_) fun tic found => ?_
  · rw [callWhenDeleted, count_erase_other _ other]
  · rw [contexts, count_erase_other _ other]
  · simp only [holders, callWhenDeleted, contexts, events, waits, others,
      count_erase_other _ other]
    rw [count_filter (by simpa using other)]
  · have live := holders_pos (s := s) (.inl owed)
    omega
  · have counted := sound.counted c tic found
    have one : s.callWhenDeleted.count c = 1 :=
      Nat.le_antisymm counted.once (count_pos_iff.mpr owed)
    have listed : s.contexts.count c = 1 := counted.listed.trans one
    have gone : (s.waits.filter (· ≠ c)).count c = 0 := by
      rw [count_eq_zero]
      simp
    have before : s.holders c =
        2 + s.waits.count c + (s.events.count c + s.others.count c) := by
      simp only [holders, one, listed]
      omega
    have after : (twapiInterpContextCleanup s c modP).holders c =
        s.holders c - s.waits.count c - 2 := by
      simp only [holders, callWhenDeleted, contexts, events, waits, others, gone,
        count_erase_self, one, listed]
      omega
    rw [after, callWhenDeleted, contexts, count_erase_self, count_erase_self, one,
      listed]
    rw [one, listed] at counted
    exact counted.cleaned _ (by omega)

section Steps

variable [DecidableEq M] [DecidableEq I] {D : Modules M} {s t : State M I}

theorem cleanup_step {c : Nat} (stepped : step D s (.cleanup c) = some t) :
    ∃ tic, s.allocated[c]? = some tic ∧ c ∈ s.callWhenDeleted ∧
      t = twapiInterpContextCleanup s c tic.modP := by
  rw [step] at stepped
  cases found : s.allocated[c]? with
  | none =>
    rw [found] at stepped
    cases stepped
  | some tic =>
    simp only [found] at stepped
    obtain ⟨⟨_, owed⟩, same⟩ := ite_none_right_eq_some.mp stepped
    exact ⟨tic, rfl, owed, (some.inj same).symm⟩

theorem step_sound {l : Label M I} (sound : Sound s) (stepped : step D s l = some t) :
    Sound t := by
  cases l with
  | register interp modP outcome =>
    obtain ⟨_, same⟩ := ite_none_left_eq_some.mp stepped
    cases same
    exact register_sound sound interp modP outcome
  | deleteInterp interp =>
    obtain ⟨_, same⟩ := ite_none_left_eq_some.mp stepped
    cases same
    exact ⟨sound.counted, sound.unallocated⟩
  | cleanup c =>
    obtain ⟨tic, _, owed, rfl⟩ := cleanup_step stepped
    exact cleanup_sound sound owed tic.modP
  | enqueue c | ref c =>
    obtain ⟨live, same⟩ := ite_none_right_eq_some.mp stepped
    cases same
    refine sound.oneMore live rfl rfl rfl (fun d other => ?_) ?_
    · simp only [State.holders, State.modify, count_cons_other _ other]
    · simp only [State.holders, State.modify, count_cons_self]
      omega
  | event c | unregisterWait c | unref c =>
    obtain ⟨among, same⟩ := ite_none_right_eq_some.mp stepped
    cases same
    have one := count_pos_iff.mpr among
    refine sound.oneLess rfl rfl rfl (fun d other => ?_) ?_ ?_
    · simp only [State.holders, State.modify, count_erase_other _ other]
    · simp only [State.holders, State.modify, count_erase_self]
      omega
    · simp only [holders]
      omega
  | registerWait c ok =>
    obtain ⟨owed, same⟩ := ite_none_right_eq_some.mp stepped
    have live := holders_pos (.inl owed)
    cases ok with
    | true =>
      cases same
      refine sound.oneMore live rfl rfl rfl (fun d other => ?_) ?_
      · simp only [State.holders, State.modify, count_cons_other _ other]
      · simp only [State.holders, State.modify, count_cons_self]
        omega
    | false =>
      cases same
      have same := modify_modify_eq (.ref 1)
        (.unref 1) c s.allocated
      refine sound.modify same (fun _ _ => rfl) (fun _ _ => rfl) (fun _ _ => rfl)
        (fun none_left => none_left) fun tic found => ?_
      refine ((sound.counted c tic found).ref live).unref ?_
      simp only [holders]
      omega

theorem step_cases {l : Label M I} (stepped : step D s l = some t) :
    (∃ interp modP outcome, l = .register interp modP outcome ∧
      t = twapiRegisterModule D s interp modP outcome) ∨
    (∃ c tic, l = .cleanup c ∧ s.allocated[c]? = some tic ∧ c ∈ s.callWhenDeleted ∧
      t = twapiInterpContextCleanup s c tic.modP) ∨
    t.finalizer = s.finalizer ∧ t.callWhenDeleted = s.callWhenDeleted ∧
      ∃ c f, t.allocated = s.allocated.modify c f ∧ ∀ tic, Kept tic (f tic) := by
  have ref : ∀ tic : TwapiInterpContext M I, Kept tic (tic.ref 1) :=
    fun _ => ⟨rfl, rfl, .inl rfl⟩
  have unref : ∀ tic : TwapiInterpContext M I, Kept tic (tic.unref 1) :=
    fun _ => .unref rfl rfl rfl 1
  cases l with
  | register interp modP outcome =>
    obtain ⟨_, same⟩ := ite_none_left_eq_some.mp stepped
    exact .inl ⟨interp, modP, outcome, rfl, (some.inj same).symm⟩
  | deleteInterp interp =>
    obtain ⟨_, same⟩ := ite_none_left_eq_some.mp stepped
    cases same
    exact .inr (.inr ⟨rfl, rfl, 0, id, (modify_id 0 _).symm,
      fun _ => ⟨rfl, rfl, .inl rfl⟩⟩)
  | cleanup c =>
    obtain ⟨tic, found, owed, same⟩ := cleanup_step stepped
    exact .inr (.inl ⟨c, tic, rfl, found, owed, same⟩)
  | enqueue c | ref c =>
    obtain ⟨_, same⟩ := ite_none_right_eq_some.mp stepped
    cases same
    exact .inr (.inr ⟨rfl, rfl, c, _, rfl, ref⟩)
  | event c | unregisterWait c | unref c =>
    obtain ⟨_, same⟩ := ite_none_right_eq_some.mp stepped
    cases same
    exact .inr (.inr ⟨rfl, rfl, c, _, rfl, unref⟩)
  | registerWait c ok =>
    obtain ⟨_, same⟩ := ite_none_right_eq_some.mp stepped
    cases ok with
    | true =>
      cases same
      exact .inr (.inr ⟨rfl, rfl, c, _, rfl, ref⟩)
    | false =>
      cases same
      exact .inr (.inr ⟨rfl, rfl, c, _, modify_modify_eq _ _ c s.allocated,
        fun tic => @.unref M I tic (tic.ref 1) rfl rfl rfl 1⟩)

end Steps

section Runs

variable [DecidableEq M] [DecidableEq I] {D : Modules M} {s t : State M I}

theorem sound_of_reaches {G : State M I → Label M I → Prop} (reached : (machine D).Reaches G s) :
    Sound s := by
  induction reached with
  | init first =>
    rw [show _ = start D from first]
    exact ⟨fun _ _ found => (nomatch found), fun _ _ => rfl⟩
  | step _ _ stepped sound => exact step_sound sound stepped

/-- No registration of a module with a context of its own fails. -/
def Label.Succeeds (D : Modules M) : Label M I → Prop
  | .register _ modP outcome => D.newTic modP = true → outcome.ok = true
  | _ => True

instance (l : Label M I) : Decidable (l.Succeeds D) := by
  cases l <;> unfold Label.Succeeds <;> infer_instance

/-- No registration failed so far. -/
def Succeeded (s : State M I) : Prop :=
  ∀ (c : Nat) tic, s.allocated[c]? = some tic → tic.outcome.ok = true

theorem Succeeded.step {l : Label M I} (before : Succeeded s) (succeeds : l.Succeeds D)
    (stepped : step D s l = some t) : Succeeded t := by
  intro c tic found
  rcases step_cases stepped with ⟨interp, modP, outcome, rfl, rfl⟩ | ⟨d, was, rfl, _, _, rfl⟩ |
    ⟨_, _, d, f, allocated, kept⟩
  · rw [twapiRegisterModule] at found
    by_cases own : D.newTic modP = true
    · have ok := succeeds own
      simp only [if_pos own, if_pos ok] at found
      rcases lookup_snoc found with ⟨_, rfl⟩ | old
      · exact ok
      · exact before c tic old
    · rw [if_neg own] at found
      exact before c tic found
  · rw [cleanup_allocated] at found
    rcases lookup_modify found with ⟨rfl, old, was', rfl⟩ | ⟨_, old⟩
    · rw [(cleaned_eq _ _ old).2.1]
      exact before c old was'
    · exact before c tic old
  · rw [allocated] at found
    rcases lookup_modify found with ⟨rfl, old, was, rfl⟩ | ⟨_, old⟩
    · rw [(kept old).outcome]
      exact before c old was
    · exact before c tic old

/-- The count of every context is the number of its holders; a context is deleted when it
has none, and once. -/
def RefsHeld (s : State M I) : Prop :=
  ∀ (c : Nat) tic, s.allocated[c]? = some tic →
    tic.nrefs = (s.holders c : Int) ∧ tic.deleted = if s.holders c = 0 then 1 else 0

/-- In every run without failing registrations, and not right after one that fails: the
context has two holders then, and one reference. -/
theorem refs_held :
    (∀ s : State M I, (machine D).Reaches (fun _ l => l.Succeeds D) s → RefsHeld s) ∧
    ∀ (G : State M I → Label M I → Prop) (s t : State M I) (l : Label M I),
      (machine D).Reaches G s → step D s l = some t → ¬ l.Succeeds D → ¬ RefsHeld t := by
  constructor
  · intro s reached
    have all_ok : Succeeded s := by
      refine reached.invariant ?_ fun _ _ _ before succeeds stepped =>
        before.step succeeds stepped
      rintro s rfl c tic found
      cases found
    intro c tic found
    have counted := (sound_of_reaches reached).counted c tic found
    have ok := all_ok c tic found
    have nrefs := counted.nrefs
    rw [TwapiInterpContext.missing, if_pos ok, Int.sub_zero] at nrefs
    exact ⟨nrefs, counted.deleted ok⟩
  · intro G s t l reached stepped fails held
    cases l with
    | register interp modP outcome =>
      rw [Label.Succeeds, Classical.not_imp] at fails
      obtain ⟨own, failed⟩ := fails
      have sound := step_sound (sound_of_reaches reached) stepped
      obtain ⟨_, same⟩ := ite_none_left_eq_some.mp stepped
      cases same
      have found : (twapiRegisterModule D s interp modP outcome).allocated[s.allocated.length]? =
          some ((twapiAllocateInterpContext interp modP outcome).unref 1) := by
        simp only [twapiRegisterModule, if_pos own, if_neg failed]
        exact getElem?_concat_length
      have nrefs := (sound.counted _ _ found).nrefs
      have missing : ((twapiAllocateInterpContext interp modP outcome).unref 1).missing = 1 :=
        if_neg failed
      rw [(held _ _ found).1, missing] at nrefs
      omega
    | _ => exact fails trivial

/-- One module, with a finalizer and contexts of its own. -/
def baseModule : Modules Unit where
  finalizer _ := true
  newTic _ := true
  isBase _ := true

/-- A callback is queued, and runs after the interpreter is gone. -/
def lateCallback (initializer : Bool) : List (Label Unit Unit) :=
  [.register () () ⟨initializer, true⟩, .enqueue 0, .registerWait 0 true, .deleteInterp (),
    .cleanup 0]

theorem refs_held_lateCallback :
    (∃ s : State Unit Unit, RefsHeld s ∧ s.callWhenDeleted = [] ∧ s.events = [0]) ∧
    ∃ t : State Unit Unit, ¬ RefsHeld t ∧ t.allocated.length = 1 := by
  obtain ⟨s, reached, cleaned⟩ := Machine.Reaches.exists_of_run
    (M := machine (M := Unit) (I := Unit) baseModule) (G := fun _ l => l.Succeeds baseModule)
    (lateCallback true) (fun s => s.callWhenDeleted = [] ∧ s.events = [0]) rfl (by decide)
  refine ⟨⟨s, refs_held.1 s reached, cleaned⟩, _, refs_held.2 (fun _ _ => True) (start baseModule)
    _ (.register () () ⟨false, true⟩) (.init rfl) rfl (by decide), rfl⟩

/-- The context is deleted while the callback that was queued refers to it. -/
theorem failed_registration_deletes_early :
    ¬ ∀ s : State Unit Unit, (machine baseModule).Reachable s → RefsHeld s := by
  intro claim
  obtain ⟨s, reached, deleted, queued⟩ := Machine.Reaches.exists_of_run
    (M := machine (M := Unit) (I := Unit) baseModule) (G := fun _ _ => True)
    (lateCallback false) (fun s => s.allocated.map (·.deleted) = [1] ∧ 0 ∈ s.events) rfl
    (by decide)
  obtain ⟨tic, found, once⟩ : ∃ tic, s.allocated[0]? = some tic ∧ tic.deleted = 1 := by
    have first : (s.allocated.map (·.deleted))[0]? = some 1 := by rw [deleted]; rfl
    rw [getElem?_map] at first
    exact map_eq_some_iff.mp first
  have held := (claim s reached 0 tic found).2
  have live := holders_pos (s := s) (c := 0) (.inr (.inl queued))
  rw [once, if_neg (Nat.ne_of_gt live)] at held
  cases held

end Runs

end Twapi.InterpContext
