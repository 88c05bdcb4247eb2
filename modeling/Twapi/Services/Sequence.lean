import Mathlib.Tactic.Linarith
import Mathlib.Data.List.Lex
import Mathlib.Data.Char
import Twapi.Services.Model

/-!
State changes and sequence numbers.

* `Moved` — all that one step can do to the state and the sequence numbers of
  a service; `step_moved` is the inversion lemma.
* `Heeds` — an application-initiated update is ignored exactly while a request
  is outstanding.
* `Answers` — the guard: an update that is let through carries the number of the
  latest request.
* `sequenced` — states change as they should in every run; every run whose steps
  meet the guard heeds; a step that does not meet it ends that.
-/

namespace Twapi.Services

open Lib

variable {Name : Type} [DecidableEq Name] {T : Tcl Name} {w u : World Name} {svc svc' : Service}
  {name n : Name} {a : Label Name}

/-! ### Numbers and strings -/

theorem decimal_isNumber (n : Nat) : ¬ (decimal n = [] ∨ ∃ c ∈ decimal n, c.isDigit = false) := by
  rintro (empty | ⟨c, mem, notDigit⟩)
  · exact absurd empty (by simp [decimal])
  · have digit := Nat.isDigit_of_mem_toDigits (b := 10) (by decide) (by decide) mem
    rw [notDigit] at digit
    cases digit

variable {target current : ServiceState} {state : StateToken} {t seq : Token}

/-- A value that is not above a number and is not that number is below it. -/
theorem Token.below_of_not {n : Nat} (notAbove : t.above n = false) (other : t.is n = false) :
    t.below n = true := by
  cases t with
  | num q =>
    simp only [Token.above, Token.below, Token.is, decide_eq_false_iff_not, not_lt,
      Token.num.injEq, decide_eq_true_eq] at *
    exact lt_of_le_of_ne notAbove (by exact_mod_cast other)
  | text s notNumber =>
    simp only [Token.above, Token.below, decide_eq_false_iff_not, decide_eq_true_eq] at *
    rcases lt_trichotomy s (decimal n) with less | equal | more
    · exact less
    · exact absurd (equal ▸ notNumber) (decimal_isNumber n)
    · exact absurd more notAbove

theorem Token.eq_of_is {z : Int} (h : t.is z = true) : t = .num z := of_decide_eq_true h

/-! ### What one step does to a service -/

/-- The elements that a report leaves as they are. -/
structure SameCore (svc svc' : Service) : Prop where
  state : svc'.state = svc.state
  seq : svc'.seq = svc.seq
  seqack : svc'.seqack = svc.seqack
  awaiting : svc'.awaiting = svc.awaiting

theorem SameCore.refl (svc : Service) : SameCore svc svc := ⟨rfl, rfl, rfl, rfl⟩

theorem SameCore.trans {x y z : Service} (h : SameCore x y) (h' : SameCore y z) : SameCore x z :=
  ⟨h'.state.trans h.state, h'.seq.trans h.seq, h'.seqack.trans h.seqack,
    h'.awaiting.trans h.awaiting⟩

theorem stamped_core (svc : Service) : SameCore svc svc.stamped.1 := by
  rw [Service.stamped]
  split
  · exact ⟨rfl, rfl, rfl, rfl⟩
  · exact ⟨rfl, rfl, rfl, rfl⟩

/-- `u` has `svc'` for `name`, and the other services of `w`. -/
structure PutsAt (w u : World Name) (name : Name) (svc' : Service) : Prop where
  here : u.services name = some svc'
  elsewhere : ∀ n, n ≠ name → u.services n = w.services n

theorem put_puts (w : World Name) (name : Name) (svc : Service) :
    PutsAt w (w.put name svc) name svc :=
  ⟨Function.update_self .., fun _ other => Function.update_of_ne other ..⟩

omit [DecidableEq Name] in
theorem PutsAt.of_services {v : World Name} (h : PutsAt w u name svc)
    (same : v.services = u.services) : PutsAt w v name svc :=
  ⟨same ▸ h.here, same ▸ h.elsewhere⟩

omit [DecidableEq Name] in
theorem PutsAt.again {v : World Name} (h : PutsAt w u name svc) (h' : PutsAt u v name svc') :
    PutsAt w v name svc' :=
  ⟨h'.here, fun n other => (h'.elsewhere n other).trans (h.elsewhere n other)⟩

theorem report_puts (w : World Name) (name : Name) (svc : Service) :
    ∃ svc', PutsAt w (reportServiceStatus w name svc) name svc' ∧ SameCore svc svc' := by
  have stamped := stamped_core svc
  have set : ∀ (s : Service) (waithint : Nat), ∃ s',
      PutsAt w (setServiceStatus w name s waithint) name s' ∧ SameCore s s' := by
    intro s waithint
    simp only [setServiceStatus]
    split
    · exact ⟨_, (put_puts w name _).of_services rfl, ⟨rfl, rfl, rfl, rfl⟩⟩
    · exact ⟨s, put_puts w name s, .refl s⟩
  obtain ⟨s', puts, core⟩ := set svc.stamped.1 svc.stamped.2
  refine ⟨s', ?_, stamped.trans core⟩
  simp only [reportServiceStatus]
  split
  · exact puts
  · exact puts.of_services rfl

variable {control : Control}

/-- A request that changes the state takes a sequence number, and no other does. -/
theorem react_cases {state : ServiceState} {r : Reaction} (h : react state control = some r) :
    (∃ target, r = .goTo target ∧ target.pending = true ∧
        (state = .stopped → control = .start)) ∨
      r.state = none ∧ (r.tellApp && r.needResponse) = false := by
  cases state <;> cases control <;> simp only [react, Option.some.injEq, reduceCtorEq] at h <;>
    subst h <;> first
      | exact .inl ⟨_, rfl, rfl, by simp⟩
      | exact .inr ⟨rfl, rfl⟩

/-- An update that is neither an error nor ignored. -/
structure Heard (svc : Service) (seq : Token) (state : StateToken)
    (opts : Option StatusOptions) : Prop where
  state : state.target.isSome = true
  numbered : seq.is (-1) = false
  opts : opts.isSome = true
  sent : seq.above svc.seq = false
  taken : svc.ignores seq = false

instance (svc : Service) (seq : Token) (state : StateToken)
    (opts : Option StatusOptions) : Decidable (Heard svc seq state opts) :=
  decidable_of_iff (state.target.isSome = true ∧ seq.is (-1) = false ∧ opts.isSome = true ∧
      seq.above svc.seq = false ∧ svc.ignores seq = false)
    ⟨fun ⟨state, numbered, opts, sent, taken⟩ => ⟨state, numbered, opts, sent, taken⟩,
      fun h => ⟨h.state, h.numbered, h.opts, h.sent, h.taken⟩⟩

/-- All that the step `a` can do to the state and the sequence numbers of the
service `name`. -/
inductive Moved (T : Tcl Name) (a : Label Name) (name : Name) (svc svc' : Service) : Prop where
  | still : SameCore svc svc' → Moved T a name svc svc'
  | requested (n : Name) (control : Control) : a = .control n control → T.tolower n = name →
      svc'.state.pending = true → (svc.state = .stopped → control = .start) →
      svc'.seq = svc.seq + 1 → svc'.seqack = svc.seqack → svc'.awaiting = true →
      Moved T a name svc svc'
  | answered (n : Name) (seq : Token) (state : StateToken) (opts : Option StatusOptions) :
      a = .update n seq state opts → T.tolower n = name → Heard svc seq state opts →
      (svc'.state = svc.state ∨ allowedChange svc.state svc'.state = true ∧
        svc'.state.pending = false) →
      svc'.seq = svc.seq → svc'.seqack = seq →
      svc'.awaiting = (svc.awaiting && !seq.is svc.seq) → Moved T a name svc svc'

omit [DecidableEq Name] in
theorem still_puts (h : w.services name = some svc) : PutsAt w w name svc := ⟨h, fun _ _ => rfl⟩

theorem tellApp_puts (puts : PutsAt w u name svc) (control : Control) :
    PutsAt w (tellApp u name control true) name
      { svc with seq := svc.seq + 1, awaiting := true } := by
  simp only [tellApp, puts.here, if_true]
  exact (puts.again (put_puts u name _)).of_services rfl

theorem notify_puts (puts : PutsAt w u name svc) (control : Control) :
    PutsAt w (tellApp u name control false) name svc := by
  simp only [tellApp, puts.here]
  exact puts.of_services rfl

theorem serviceHandlerUnsafe_moved (h : w.services (T.tolower n) = some svc) :
    ∃ svc', PutsAt w (serviceHandlerUnsafe T w n control) (T.tolower n) svc' ∧
      Moved T (.control n control) (T.tolower n) svc svc' := by
  simp only [serviceHandlerUnsafe, h]
  cases hr : react svc.state control with
  | none => exact ⟨svc, still_puts h, .still (.refl svc)⟩
  | some r =>
    rcases react_cases hr with ⟨target, rfl, pending, start⟩ | ⟨stays, quiet⟩
    · -- A request: the state is set and reported, and the application is told.
      obtain ⟨s, reported, core⟩ := report_puts (w.put (T.tolower n) (svc.enter target 1))
        (T.tolower n) (svc.enter target 1)
      have told := tellApp_puts ((put_puts w _ _).again reported) control
      refine ⟨_, told, .requested n control rfl rfl ?_ start ?_ core.seqack rfl⟩
      · exact core.state ▸ pending
      · exact congrArg (· + 1) core.seq
    · simp only [stays]
      have kept := put_puts w (T.tolower n) svc
      have reported : ∃ s, PutsAt w (if r.reportStatus then
          reportServiceStatus (w.put (T.tolower n) svc) (T.tolower n) svc
          else w.put (T.tolower n) svc) (T.tolower n) s ∧ SameCore svc s := by
        split
        · obtain ⟨s, puts, core⟩ := report_puts (w.put (T.tolower n) svc) (T.tolower n) svc
          exact ⟨s, kept.again puts, core⟩
        · exact ⟨svc, kept, .refl svc⟩
      obtain ⟨s, puts, core⟩ := reported
      refine ⟨s, ?_, .still core⟩
      cases tells : r.tellApp with
      | false => simpa using puts
      | true =>
        rw [tells, Bool.true_and] at quiet
        rw [quiet]
        exact notify_puts puts control

theorem updateServiceStatus_heard {opts : StatusOptions} (h : w.services (T.tolower n) = some svc)
    (valid : state.target = some target) (numbered : seq.is (-1) = false)
    (sent : seq.above svc.seq = false) (taken : svc.ignores seq = false) :
    updateServiceStatus T w n seq state (some opts) =
      .ok (changeState w (T.tolower n) (svc.respond seq target opts) target) := by
  simp [updateServiceStatus, valid, numbered, h, sent, taken]

theorem respond_core (svc : Service) (seq : Token) (target : ServiceState) (opts : StatusOptions) :
    SameCore { svc with seqack := seq, awaiting := svc.awaiting && !seq.is svc.seq }
      (svc.respond seq target opts) := by
  simp only [Service.respond]
  split
  · exact ⟨rfl, rfl, rfl, rfl⟩
  · exact ⟨rfl, rfl, rfl, rfl⟩

theorem target_not_pending (h : state.target = some target) : target.pending = false := by
  cases state <;> cases h <;> rfl

/-- A change of state is to the target, from where it is allowed. -/
theorem changeState_puts (w : World Name) (name : Name) (svc : Service) (target : ServiceState) :
    ∃ svc', PutsAt w (changeState w name svc target).2 name svc' ∧
      (svc'.state = svc.state ∨ svc'.state = target ∧ allowedChange svc.state target = true) ∧
      svc'.seq = svc.seq ∧ svc'.seqack = svc.seqack ∧ svc'.awaiting = svc.awaiting := by
  rw [changeState]
  split
  · exact ⟨svc, put_puts w name svc, .inl rfl, rfl, rfl, rfl⟩
  · split
    · rename_i allowed
      obtain ⟨s, puts, core⟩ := report_puts w name (svc.enter target svc.checkpoint)
      refine ⟨s, ?_, .inr ⟨core.state, allowed⟩, core.seq, core.seqack, core.awaiting⟩
      simp only [tellAllStopped]
      split
      · exact puts.of_services rfl
      · exact puts
    · exact ⟨svc, put_puts w name svc, .inl rfl, rfl, rfl, rfl⟩

/-- A call that is no error is ignored, or heard. -/
theorem updateServiceStatus_cases {opts : Option StatusOptions} {r : UpdateResult}
    (done : updateServiceStatus T w n seq state opts = .ok (r, u)) :
    r = .ignored ∧ u = w ∨
      ∃ svc target o, w.services (T.tolower n) = some svc ∧ Heard svc seq state opts ∧
        state.target = some target ∧ opts = some o ∧
        (r, u) = changeState w (T.tolower n) (svc.respond seq target o) target := by
  simp only [updateServiceStatus] at done
  split at done
  · cases done
  · rename_i target valid
    split at done
    · cases done
      exact .inl ⟨rfl, rfl⟩
    · rename_i numbered
      split at done
      · cases done
      · rename_i o
        split at done
        · cases done
        · rename_i svc hs
          split at done
          · cases done
          · rename_i sent
            split at done
            · cases done
              exact .inl ⟨rfl, rfl⟩
            · rename_i taken
              refine .inr ⟨svc, target, o, hs, ?_, valid, rfl, (Except.ok.inj done).symm⟩
              exact ⟨by rw [valid]; rfl, Bool.eq_false_iff.mpr numbered, rfl,
                Bool.eq_false_iff.mpr sent, Bool.eq_false_iff.mpr taken⟩

/-- What a call that was heard leaves behind. -/
theorem heard_puts {o : StatusOptions} (w : World Name) (n : Name) (svc : Service)
    (valid : state.target = some target) :
    ∃ svc', PutsAt w (changeState w n (svc.respond seq target o) target).2 n svc' ∧
      (svc'.state = svc.state ∨ allowedChange svc.state svc'.state = true ∧
        svc'.state.pending = false) ∧
      svc'.seq = svc.seq ∧ svc'.seqack = seq ∧
      svc'.awaiting = (svc.awaiting && !seq.is svc.seq) := by
  have respond := respond_core svc seq target o
  obtain ⟨s, puts, change, seqs, acks, awaits⟩ := changeState_puts w n
    (svc.respond seq target o) target
  refine ⟨s, puts, ?_, seqs.trans respond.seq, acks.trans respond.seqack,
    awaits.trans respond.awaiting⟩
  rcases change with same | ⟨new, allowed⟩
  · exact .inl (same.trans respond.state)
  · rw [new]
    exact .inr ⟨respond.state ▸ allowed, target_not_pending valid⟩

/-- A step leaves the services as they are, or moves one of them. -/
theorem step_puts (moves : step T w a = some u) :
    u.services = w.services ∨
      ∃ n svc svc', w.services n = some svc ∧ PutsAt w u n svc' ∧ Moved T a n svc svc' := by
  cases a with
  | control n control =>
    cases moves
    cases hs : w.services (T.tolower n) with
    | none => exact .inl (by simp [serviceHandlerUnsafe, hs])
    | some svc =>
      obtain ⟨svc', puts, moved⟩ := serviceHandlerUnsafe_moved hs
      exact .inr ⟨_, svc, svc', hs, puts, moved⟩
  | update n seq state opts =>
    simp only [step] at moves
    split at moves
    · rename_i r v done
      cases moves
      rcases updateServiceStatus_cases done with ⟨_, same⟩ |
        ⟨svc, target, o, hs, heard, valid, _, hu⟩
      · exact .inl (congrArg World.services same)
      · obtain ⟨svc', puts, change, seqs, acks, awaits⟩ := heard_puts (o := o) w (T.tolower n)
          svc valid
        rw [← hu] at puts
        exact .inr ⟨_, svc, svc', hs, puts,
          .answered n seq state opts rfl rfl heard change seqs acks awaits⟩
    · cases moves
      exact .inl rfl
  | expire i =>
    simp only [step, Option.bind_eq_bind, Option.bind_eq_some_iff, Option.some.injEq] at moves
    obtain ⟨t, _, rfl⟩ := moves
    rw [expire]
    split
    · exact .inl rfl
    · rename_i n _
      rw [callScmWithinWaithint]
      split
      · exact .inl rfl
      · rename_i svc hs
        split
        · obtain ⟨svc', puts, core⟩ := report_puts { w with timers := w.timers.eraseIdx i } n svc
          exact .inr ⟨n, svc, svc', hs, ⟨puts.here, puts.elsewhere⟩, .still core⟩
        · exact .inl rfl

/-- A service after a step was one before it, and moved as `Moved` says. -/
theorem step_moved (moves : step T w a = some u) (h : u.services name = some svc') :
    ∃ svc, w.services name = some svc ∧ Moved T a name svc svc' := by
  rcases step_puts moves with same | ⟨n, svc, s, hn, puts, moved⟩
  · exact ⟨svc', same ▸ h, .still (.refl svc')⟩
  · by_cases here : name = n
    · subst here
      cases h.symm.trans puts.here
      exact ⟨svc, hn, moved⟩
    · exact ⟨svc', (puts.elsewhere name here).symm.trans h, .still (.refl svc')⟩

/-! ### States -/

/-- A service leaves `stopped` by a start control only, and becomes `running` or
`paused` from a pending state only. -/
structure Changes (T : Tcl Name) (a : Label Name) (name : Name) (svc svc' : Service) : Prop where
  starts : svc.state = .stopped → svc'.state ≠ .stopped →
    ∃ n, a = .control n .start ∧ T.tolower n = name
  runs : svc'.state = .running → svc.state ≠ .running → svc.state.pending = true
  pauses : svc'.state = .paused → svc.state ≠ .paused → svc.state.pending = true

theorem allowedChange_stopped (allowed : allowedChange .stopped target = true)
    (settled : target.pending = false) :
    target = .stopped := by
  cases target with
  | stopped => rfl
  | running | paused => cases allowed
  | startPending | stopPending | continuePending | pausePending => cases settled

theorem allowedChange_running (allowed : allowedChange current .running = true)
    (other : current ≠ .running) :
    current.pending = true := by
  cases current with
  | stopped | paused => cases allowed
  | running => exact absurd rfl other
  | startPending | stopPending | continuePending | pausePending => rfl

theorem allowedChange_paused (allowed : allowedChange current .paused = true) :
    current.pending = true := by
  cases current with
  | stopped | paused | running | startPending | stopPending => cases allowed
  | continuePending | pausePending => rfl

omit [DecidableEq Name] in
theorem Moved.changes (h : Moved T a name svc svc') : Changes T a name svc svc' := by
  cases h with
  | still core =>
    have same := core.state
    exact ⟨fun stopped left => absurd (same.trans stopped) left,
      fun runs other => absurd (same.symm.trans runs) other,
      fun pauses other => absurd (same.symm.trans pauses) other⟩
  | requested n control label lowered pending start _ _ _ =>
    refine ⟨fun stopped _ => ⟨n, start stopped ▸ label, lowered⟩, fun runs _ => ?_,
      fun pauses _ => ?_⟩
    · rw [runs] at pending
      cases pending
    · rw [pauses] at pending
      cases pending
  | answered n seq state opts _ _ _ change _ _ _ =>
    refine ⟨fun stopped left => ?_, fun runs other => ?_, fun pauses other => ?_⟩
    · rcases change with same | ⟨allowed, settled⟩
      · exact absurd (same.trans stopped) left
      · exact absurd (allowedChange_stopped (stopped ▸ allowed) settled) left
    · rcases change with same | ⟨allowed, _⟩
      · exact absurd (same.symm.trans runs) other
      · exact allowedChange_running (runs ▸ allowed) other
    · rcases change with same | ⟨allowed, _⟩
      · exact absurd (same.symm.trans pauses) other
      · exact allowedChange_paused (pauses ▸ allowed)

/-! ### Sequence numbers -/

/-- A well-formed update with sequence number 0 is ignored exactly while a
request is outstanding. -/
def Heeds (T : Tcl Name) (w : World Name) : Prop :=
  ∀ n svc seq state opts, w.services (T.tolower n) = some svc → seq.is 0 = true →
    state.target.isSome = true →
    ((∃ u, updateServiceStatus T w n seq state (some opts) = .ok (.ignored, u)) ↔
      svc.awaiting = true)

/-- An update that is heard carries the number of the latest request. -/
def Answers (T : Tcl Name) (w : World Name) : Label Name → Prop
  | .update n seq state opts => ∀ svc, w.services (T.tolower n) = some svc →
      Heard svc seq state opts → seq.is svc.seq = true
  | _ => True

/-- `seqack` tells whether a request is outstanding. -/
structure Service.Synced (svc : Service) : Prop where
  flag : svc.seqack.below svc.seq = svc.awaiting
  number : ∃ q, svc.seqack = .num q ∧ q ≤ svc.seq

theorem Token.zero_numbered : (Token.num 0).is (-1) = false := by
  simp [Token.is]

theorem Token.zero_sent (n : Nat) : (Token.num 0).above n = false := by
  simp [Token.above]

theorem changeState_ne_ignored (w : World Name) (name : Name) (svc : Service)
    (target : ServiceState) : (changeState w name svc target).1 ≠ .ignored := by
  rw [changeState]
  split
  · simp
  · split
    · simp
    · simp

/-- With number 0, the comparison of `seq` and `seqack` decides. -/
theorem ignored_zero_iff {opts : StatusOptions} (h : w.services (T.tolower n) = some svc)
    (valid : state.target.isSome = true) :
    (∃ u, updateServiceStatus T w n (.num 0) state (some opts) = .ok (.ignored, u)) ↔
      svc.seqack.below svc.seq = true := by
  obtain ⟨target, valid⟩ := Option.isSome_iff_exists.mp valid
  have zero : (Token.num 0).is 0 = true := rfl
  have ignores : svc.ignores (.num 0) = svc.seqack.below svc.seq := by
    rw [Service.ignores, zero, Bool.true_or, Bool.and_true]
  cases flag : svc.seqack.below svc.seq with
  | true =>
    refine ⟨fun _ => rfl, fun _ => ⟨w, ?_⟩⟩
    simp [updateServiceStatus, valid, Token.zero_numbered, h, Token.zero_sent, ignores, flag]
  | false =>
    refine ⟨fun ⟨u, ignored⟩ => ?_, fun h => Bool.noConfusion h⟩
    rw [updateServiceStatus_heard h valid Token.zero_numbered (Token.zero_sent _)
      (ignores.trans flag)] at ignored
    have same := congrArg Prod.fst (Except.ok.inj ignored)
    exact (changeState_ne_ignored _ _ _ _ same).elim

theorem heeds_iff : Heeds T w ↔
    ∀ n svc, w.services (T.tolower n) = some svc →
      svc.seqack.below svc.seq = svc.awaiting := by
  constructor
  · intro heeds n svc h
    have iff := heeds n svc (.num 0) .stopped ⟨none, none, none⟩ h rfl rfl
    rw [ignored_zero_iff h rfl] at iff
    exact Bool.eq_iff_iff.mpr iff
  · intro flags n svc seq state opts h zero valid
    rw [Token.eq_of_is zero]
    exact (ignored_zero_iff h valid).trans (Bool.eq_iff_iff.mp (flags n svc h))

omit [DecidableEq Name] in
theorem Moved.synced (h : Moved T a name svc svc') (synced : svc.Synced)
    (answers : ∀ n seq state opts, a = .update n seq state opts → T.tolower n = name →
      Heard svc seq state opts → seq.is svc.seq = true) : svc'.Synced := by
  obtain ⟨flag, q, number, bound⟩ := synced
  cases h with
  | still core =>
    refine ⟨?_, q, core.seqack.trans number, core.seq ▸ bound⟩
    rw [core.seqack, core.seq, core.awaiting, flag]
  | requested _ _ _ _ _ _ seqs acks awaits =>
    have below : q < (svc.seq + 1 : Nat) := by
      push_cast
      linarith
    refine ⟨?_, q, acks.trans number, seqs ▸ below.le⟩
    rw [acks, number, seqs, awaits]
    exact decide_eq_true below
  | answered n seq state opts label lowered heard _ seqs acks awaits =>
    have latest := answers n seq state opts label lowered heard
    refine ⟨?_, svc.seq, acks.trans (Token.eq_of_is latest), seqs ▸ le_refl _⟩
    rw [acks, seqs, awaits, latest, Token.eq_of_is latest]
    simp [Token.below]

def Synced (w : World Name) : Prop := ∀ name svc, w.services name = some svc → svc.Synced

theorem synced_step (synced : Synced w) (answers : Answers T w a)
    (moves : step T w a = some u) : Synced u := by
  intro name svc' h
  obtain ⟨svc, hs, moved⟩ := step_moved moves h
  apply moved.synced (synced name svc hs)
  intro n seq state opts label lowered heard
  subst label lowered
  exact answers svc hs heard

theorem fresh_synced : Service.fresh.Synced := ⟨rfl, 0, rfl, le_rfl⟩

theorem reaches_synced (run : (machine T).Reaches (Answers T) w) : Synced w := by
  refine run.invariant ?_ fun _ _ _ synced answers moves => synced_step synced answers moves
  rintro _ ⟨services, controls, _, rfl⟩ name svc h
  simp only at h
  split at h
  · cases h
    exact fresh_synced
  · cases h

theorem Synced.heeds (synced : Synced w) : Heeds T w :=
  heeds_iff.mpr fun _ svc h => (synced _ svc h).flag

/-- After an update that was heard without the number of the latest request,
updates are ignored although nothing is outstanding. -/
theorem unanswered_breaks (synced : Synced w) (moves : step T w a = some u)
    (other : ¬ Answers T w a) : ¬ Heeds T u := by
  cases a with
  | control | expire => exact absurd trivial other
  | update n seq state opts =>
    simp only [Answers, not_forall] at other
    obtain ⟨svc, h, heard, notLatest⟩ := other
    have notLatest : seq.is svc.seq = false := Bool.eq_false_iff.mpr notLatest
    have below := Token.below_of_not heard.sent notLatest
    -- The call was let through, so nothing was outstanding.
    have idle : svc.awaiting = false := by
      have taken := heard.taken
      rw [Service.ignores, below, Bool.or_true, Bool.and_true, (synced _ svc h).flag] at taken
      exact taken
    obtain ⟨target, valid⟩ := Option.isSome_iff_exists.mp heard.state
    obtain ⟨o, rfl⟩ := Option.isSome_iff_exists.mp heard.opts
    obtain ⟨svc', puts, _, seqs, acks, awaits⟩ := heard_puts (o := o) w (T.tolower n) svc valid
    have after : u.services (T.tolower n) = some svc' := by
      simp only [step, updateServiceStatus_heard h valid heard.numbered heard.sent heard.taken,
        Option.some.injEq] at moves
      exact moves ▸ puts.here
    intro heeds
    have flag := heeds_iff.mp heeds n svc' after
    rw [acks, seqs, awaits, idle, Bool.false_and, below] at flag
    cases flag

/-- States change as they should in every step of every run. An update with
sequence number 0 is ignored exactly while a request is outstanding, in every
state of a run all of whose updates that are heard carry the number of the
latest request; the first that does not puts an end to it. -/
theorem sequenced (T : Tcl Name) :
    (∀ w a u, (machine T).Reachable w → (machine T).step w a = some u → ∀ name svc svc',
        w.services name = some svc → u.services name = some svc' → Changes T a name svc svc') ∧
      (∀ w, (machine T).Reaches (Answers T) w → Heeds T w) ∧
      (∀ w a u, (machine T).Reaches (Answers T) w → (machine T).step w a = some u →
        (Heeds T u ↔ Answers T w a)) := by
  refine ⟨fun w a u _ moves name svc svc' h h' => ?_, fun w run => (reaches_synced run).heeds,
    fun w a u run moves => ⟨fun heeds => ?_, fun answers => ?_⟩⟩
  · obtain ⟨s, hs, moved⟩ := step_moved moves h'
    cases hs.symm.trans h
    exact moved.changes
  · by_contra other
    exact unanswered_breaks (reaches_synced run) moves other heeds
  · exact (synced_step (reaches_synced run) answers moves).heeds

/-- Names that are words of lower case. -/
def plain : Tcl String := ⟨id, some⟩

/-- After a start that was answered, an application-initiated update leaves the
next one ignored, although nothing is outstanding. -/
theorem unsolicited_update_ignored :
    ¬ ∀ w, (machine plain).Reachable w → Heeds plain w := by
  intro claim
  obtain ⟨w, run, flag⟩ := Machine.Reaches.exists_of_run (M := machine plain)
    (G := fun _ _ => True)
    [.control "echo" .start, .update "echo" (.num 1) .running (some ⟨none, none, none⟩),
      .update "echo" (.num 0) .running (some ⟨none, none, none⟩)]
    (fun w => (w.services "echo").map (fun svc => (svc.seqack.below svc.seq, svc.awaiting)) =
      some (true, false))
    ⟨["echo"], 5, rfl, rfl⟩ (by decide)
  obtain ⟨svc, h, pair⟩ := Option.map_eq_some_iff.mp flag
  have same := heeds_iff.mp (claim w run) "echo" svc h
  rw [(Prod.mk.inj pair).1, (Prod.mk.inj pair).2] at same
  cases same

end Twapi.Services
