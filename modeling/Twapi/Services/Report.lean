import Twapi.Services.Sequence

/-!
Status reports.

* `Reported` — the last report is of the current state; the checkpoints of a
  stay increase; a timer will still report while the state is pending.
* `Smooth` — the guard: names are read back from the script of a timer, and
  codes and checkpoints convert to a C `int`.
* `Ready.report` — one report, from what a service is like before it, settles all
  of it; every step makes at most one.
* `reaches_reported` — every run whose steps meet the guard.
-/

namespace Twapi.Services

open Lib

variable {Name : Type} [DecidableEq Name] {T : Tcl Name} {w u v : World Name} {svc svc' : Service}
  {name n : Name} {a : Label Name}

/-- The last report for a service. -/
def World.last (w : World Name) (name : Name) : Option Report :=
  (w.reported.find? fun r => r.1 = name).map Prod.snd

/-- A scheduled timer that will report for this state and checkpoint. -/
def World.Watched (T : Tcl Name) (w : World Name) (name : Name) (svc : Service) : Prop :=
  ∃ t ∈ w.timers, T.reads t.name = some name ∧ t.matches svc = true

/-- The status of a service is reported as it should be. -/
structure Reported (T : Tcl Name) (w : World Name) (name : Name) (svc : Service) : Prop where
  last : ∀ r, w.last name = some r → r.state = svc.state.value
  first : w.last name = none → svc.state = .stopped
  increasing : svc.state.pending = true → svc.stay.Pairwise (· > ·)
  zero : svc.state.pending = false → ∀ c ∈ svc.stay, c = 0
  timer : svc.state.pending = true → w.Watched T name svc

/-! ### The guard -/

def StatusOptions.fit (o : StatusOptions) : Bool :=
  o.exitcode.all fitsInt && o.servicecode.all fitsInt

/-- The codes of a stop that is heard convert to a C `int`. -/
def CodesFit (T : Tcl Name) (w : World Name) : Label Name → Prop
  | .update n seq state (some o) => ∀ svc ∈ w.services (T.tolower n),
      Heard svc seq state (some o) → state = .stopped → o.fit = true
  | .update _ _ _ none => True
  | .control _ _ => True
  | .expire _ => True

instance (T : Tcl Name) (w : World Name) : ∀ a, Decidable (CodesFit T w a)
  | .update n seq state (some o) => inferInstanceAs (Decidable (∀ svc ∈ w.services (T.tolower n),
      Heard svc seq state (some o) → state = .stopped → o.fit = true))
  | .update _ _ _ none => .isTrue trivial
  | .control _ _ => .isTrue trivial
  | .expire _ => .isTrue trivial

/-- The codes of the step convert to a C `int`, and so does the next checkpoint
of every service; every name is read back from a timer's script. -/
def Smooth (T : Tcl Name) (w : World Name) (a : Label Name) : Prop :=
  CodesFit T w a ∧ ∀ name ∈ w.names, T.reads name = some name ∧
    ∀ svc ∈ w.services name, fitsInt (svc.checkpoint + 1) = true

instance (T : Tcl Name) (w : World Name) (a : Label Name) : Decidable (Smooth T w a) :=
  inferInstanceAs (Decidable (_ ∧ _))

/-! ### One report -/

/-- What a service is like before a report. -/
structure Ready (T : Tcl Name) (w : World Name) (name : Name) (svc : Service) : Prop where
  registered : name ∈ w.names
  literal : T.reads name = some name
  controls : fitsInt w.controls = true
  exitcode : fitsInt svc.exitcode = true
  servicecode : fitsInt svc.servicecode = true
  checkpoint : fitsInt (svc.checkpoint + 1) = true
  waithint : svc.waithint = 2000
  sorted : svc.state.pending = true → svc.stay.Pairwise (· > ·)
  bounded : svc.state.pending = true → ∀ c ∈ svc.stay, c ≤ svc.checkpoint
  zero : svc.state.pending = false → ∀ c ∈ svc.stay, c = 0

/-- What holds of a service between the steps. -/
structure Kept (T : Tcl Name) (w : World Name) (name : Name) (svc : Service) : Prop where
  registered : name ∈ w.names
  exitcode : fitsInt svc.exitcode = true
  servicecode : fitsInt svc.servicecode = true
  waithint : svc.waithint = 2000
  bounded : svc.state.pending = true → ∀ c ∈ svc.stay, c ≤ svc.checkpoint
  reported : Reported T w name svc

theorem Kept.ready (h : Kept T w name svc) (controls : fitsInt w.controls = true)
    (hs : w.services name = some svc) (smooth : Smooth T w a) : Ready T w name svc := by
  obtain ⟨literal, room⟩ := smooth.2 name h.registered
  exact ⟨h.registered, literal, controls, h.exitcode, h.servicecode, room svc hs, h.waithint,
    h.reported.increasing, h.bounded, h.reported.zero⟩

omit [DecidableEq Name] in
/-- Nothing was reported in a state that has just been set. -/
theorem Ready.enter (h : Ready T w name svc) (state : ServiceState) (checkpoint : Nat)
    (room : fitsInt (checkpoint + 1) = true) :
    Ready T w name (svc.enter state checkpoint) :=
  ⟨h.registered, h.literal, h.controls, h.exitcode, h.servicecode, room, h.waithint,
    fun _ => .nil, by simp [Service.enter], by simp [Service.enter]⟩

theorem fitsInt_value (state : ServiceState) : fitsInt state.value = true := by
  cases state <;> rfl

omit [DecidableEq Name] in
/-- The conversions of a report succeed. -/
theorem Ready.converts (h : Ready T w name svc) :
    (svc.stamped.1.report svc.stamped.2 w.controls).converts = true := by
  have state := fitsInt_value svc.state
  have hint : fitsInt svc.waithint = true := by rw [h.waithint]; rfl
  rw [Service.stamped]
  split
  · simp [Report.converts, Service.report, state, hint, h.controls, h.exitcode, h.servicecode]
    exact_mod_cast h.checkpoint
  · have zero : fitsInt 0 = true := rfl
    simp [Report.converts, Service.report, state, zero, h.controls, h.exitcode, h.servicecode]

/-- The service after a report. -/
def Service.afterReport (svc : Service) : Service :=
  { svc.stamped.1 with stay := svc.stamped.1.checkpoint :: svc.stay }

theorem stamped_stay (svc : Service) : svc.stamped.1.stay = svc.stay := by
  rw [Service.stamped]
  split
  · rfl
  · rfl

/-- A report that converts: what changes is the service, the reports, and in a
pending state the timers. -/
structure ReportsAt (w u : World Name) (name : Name) (svc : Service) : Prop where
  puts : PutsAt w u name svc.afterReport
  names : u.names = w.names
  controls : u.controls = w.controls
  reported : ∃ r : Report, r.state = svc.state.value ∧ u.reported = (name, r) :: w.reported
  timers : ∀ t ∈ w.timers, t ∈ u.timers
  timer : svc.state.pending = true →
    (⟨name, svc.state, svc.checkpoint + 1⟩ : Timer Name) ∈ u.timers

theorem Ready.reportsAt (h : Ready T w name svc) :
    ReportsAt w (reportServiceStatus w name svc) name svc := by
  have set : setServiceStatus w name svc.stamped.1 svc.stamped.2 =
      { w.put name svc.afterReport with
        reported := (name, svc.stamped.1.report svc.stamped.2 w.controls) :: w.reported } := by
    simp only [setServiceStatus, h.converts, h.registered, and_self, if_true, stamped_stay,
      Service.afterReport]
  have puts := put_puts w name svc.afterReport
  have state : (svc.stamped.1.report svc.stamped.2 w.controls).state = svc.state.value :=
    congrArg ServiceState.value (stamped_core svc).state
  simp only [reportServiceStatus, set]
  cases pending : svc.state.pending with
  | true =>
    have hint : svc.stamped.2 = 2000 := by simp [Service.stamped, pending, h.waithint]
    rw [if_neg (by rw [hint]; decide)]
    refine ⟨puts.of_services rfl, rfl, rfl, ⟨_, state, rfl⟩,
      fun t mem => List.mem_append_left _ mem, fun _ => ?_⟩
    simp [World.schedule, Service.stamped, pending]
  | false =>
    have hint : svc.stamped.2 = 0 := by simp [Service.stamped, pending]
    rw [if_pos hint]
    exact ⟨puts.of_services rfl, rfl, rfl, ⟨_, state, rfl⟩, fun t mem => mem,
      fun h => absurd h (by simp [pending])⟩

theorem afterReport_pending (pending : svc.state.pending = true) :
    svc.afterReport = { svc with
      checkpoint := svc.checkpoint + 1, stay := (svc.checkpoint + 1) :: svc.stay } := by
  simp [Service.afterReport, Service.stamped, pending]

theorem afterReport_settled (settled : svc.state.pending = false) :
    svc.afterReport = { svc with checkpoint := 0, stay := 0 :: svc.stay } := by
  simp [Service.afterReport, Service.stamped, settled]

theorem Ready.kept (h : Ready T w name svc) (reports : ReportsAt w u name svc) :
    Kept T u name svc.afterReport := by
  obtain ⟨r, state, cons⟩ := reports.reported
  have last : u.last name = some r := by simp [World.last, cons]
  have registered : name ∈ u.names := reports.names ▸ h.registered
  cases pending : svc.state.pending with
  | true =>
    have older : ∀ c ∈ svc.stay, c < svc.checkpoint + 1 := fun c mem =>
      Nat.lt_succ_of_le (h.bounded pending c mem)
    rw [afterReport_pending pending]
    refine ⟨registered, h.exitcode, h.servicecode, h.waithint, fun _ c mem => ?_,
      fun r' hr' => ?_, fun none => ?_, fun _ => ?_, fun settled => ?_, fun _ => ?_⟩
    · rcases List.mem_cons.mp mem with rfl | mem
      · exact le_refl _
      · exact (older c mem).le
    · cases last.symm.trans hr'
      exact state
    · cases last.symm.trans none
    · exact List.pairwise_cons.mpr ⟨older, h.sorted pending⟩
    · cases pending.symm.trans settled
    · exact ⟨_, reports.timer pending, h.literal, by simp [Timer.matches]⟩
  | false =>
    rw [afterReport_settled pending]
    refine ⟨registered, h.exitcode, h.servicecode, h.waithint, fun other => ?_,
      fun r' hr' => ?_, fun none => ?_, fun other => ?_, fun _ c mem => ?_, fun other => ?_⟩
    · cases pending.symm.trans other
    · cases last.symm.trans hr'
      exact state
    · cases last.symm.trans none
    · cases pending.symm.trans other
    · rcases List.mem_cons.mp mem with rfl | mem
      · rfl
      · exact h.zero pending c mem
    · cases pending.symm.trans other

/-- What holds of another service depends on its reports and its timers only. -/
theorem Kept.frame (h : Kept T w name svc) (names : u.names = w.names)
    (last : u.last name = w.last name) (timers : w.Watched T name svc → u.Watched T name svc) :
    Kept T u name svc where
  registered := names ▸ h.registered
  exitcode := h.exitcode
  servicecode := h.servicecode
  waithint := h.waithint
  bounded := h.bounded
  reported := {
    last := fun r hr => h.reported.last r (last ▸ hr)
    first := fun none => h.reported.first (last ▸ none)
    increasing := h.reported.increasing
    zero := h.reported.zero
    timer := fun pending => timers (h.reported.timer pending) }

theorem ReportsAt.other (reports : ReportsAt w u name svc) (h : Kept T w n svc')
    (other : n ≠ name) : Kept T u n svc' := by
  obtain ⟨r, _, cons⟩ := reports.reported
  refine h.frame reports.names ?_ fun ⟨t, mem, watches⟩ => ⟨t, reports.timers t mem, watches⟩
  simp [World.last, cons, Ne.symm other]

/-! ### One step -/

/-- All services but one are kept. -/
structure KeptBut (T : Tcl Name) (w : World Name) (name : Name) : Prop where
  controls : fitsInt w.controls = true
  others : ∀ n svc, n ≠ name → w.services n = some svc → Kept T w n svc

structure AllKept (T : Tcl Name) (w : World Name) : Prop where
  controls : fitsInt w.controls = true
  kept : ∀ name svc, w.services name = some svc → Kept T w name svc

theorem AllKept.but (h : AllKept T w) (name : Name) : KeptBut T w name :=
  ⟨h.controls, fun n svc _ => h.kept n svc⟩

theorem KeptBut.put (h : KeptBut T w name) (svc : Service) : KeptBut T (w.put name svc) name := by
  refine ⟨h.controls, fun n s other hs => ?_⟩
  rw [(put_puts w name svc).elsewhere n other] at hs
  exact (h.others n s other hs).frame rfl rfl id

/-- A report settles all there is to keep. -/
theorem KeptBut.report (h : KeptBut T w name) (ready : Ready T w name svc) :
    AllKept T (reportServiceStatus w name svc) := by
  have reports := ready.reportsAt
  refine ⟨reports.controls ▸ h.controls, fun n s hs => ?_⟩
  by_cases here : n = name
  · subst here
    cases hs.symm.trans reports.puts.here
    exact ready.kept reports
  · rw [reports.puts.elsewhere n here] at hs
    exact reports.other (h.others n s here hs) here

/-- Putting a service that is kept. -/
theorem KeptBut.restore (h : KeptBut T w name) (kept : Kept T w name svc) :
    AllKept T (w.put name svc) := by
  refine ⟨h.controls, fun n s hs => ?_⟩
  by_cases here : n = name
  · subst here
    cases hs.symm.trans (put_puts w n svc).here
    exact kept.frame rfl rfl id
  · rw [(put_puts w name svc).elsewhere n here] at hs
    exact (h.others n s here hs).frame rfl rfl id

theorem AllKept.tell (h : AllKept T w) (control : Option Control) (seq : Int) :
    AllKept T (w.tell name control seq) :=
  ⟨h.controls, fun n svc hs => (h.kept n svc hs).frame rfl rfl id⟩

/-- The sequence numbers have no part in what is kept. -/
theorem Kept.renumber (h : Kept T w name svc) (seq : Nat) (seqack : Token) (awaiting : Bool) :
    Kept T w name { svc with seq, seqack, awaiting } :=
  ⟨h.registered, h.exitcode, h.servicecode, h.waithint, h.bounded, h.reported.last,
    h.reported.first, h.reported.increasing, h.reported.zero, h.reported.timer⟩

theorem AllKept.tellApp (h : AllKept T w) (name : Name) (control : Control)
    (needResponse : Bool) : AllKept T (tellApp w name control needResponse) := by
  rw [Services.tellApp]
  split
  · exact h
  · rename_i svc hs
    split
    · have told := (h.but name).restore ((h.kept name svc hs).renumber (svc.seq + 1) svc.seqack true)
      exact told.tell (some control) _
    · exact h.tell (some control) _

theorem Ready.put (h : Ready T w name svc) (s : Service) : Ready T (w.put name s) name svc :=
  ⟨h.registered, h.literal, h.controls, h.exitcode, h.servicecode, h.checkpoint, h.waithint,
    h.sorted, h.bounded, h.zero⟩

theorem serviceHandlerUnsafe_kept (h : AllKept T w) {control : Control}
    (smooth : Smooth T w (.control n control)) :
    AllKept T (serviceHandlerUnsafe T w n control) := by
  cases hs : w.services (T.tolower n) with
  | none => simpa [serviceHandlerUnsafe, hs] using h
  | some svc =>
    have kept := h.kept _ svc hs
    have ready := kept.ready h.controls hs smooth
    simp only [serviceHandlerUnsafe, hs]
    cases hr : react svc.state control with
    | none => exact h
    | some r =>
      rcases react_cases hr with ⟨target, rfl, _, _⟩ | ⟨stays, _⟩
      · have entered := ready.enter target 1 rfl
        exact .tellApp (((h.but _).put _).report (entered.put _)) _ control true
      · simp only [stays]
        have reported : AllKept T (if r.reportStatus then
            reportServiceStatus (w.put (T.tolower n) svc) (T.tolower n) svc
            else w.put (T.tolower n) svc) := by
          split
          · exact ((h.but _).put svc).report (ready.put svc)
          · exact (h.but _).restore kept
        split
        · exact reported.tellApp _ control r.needResponse
        · exact reported

/-! ### Updates -/

theorem StateToken.eq_stopped_of (state : StateToken) (h : state.target = some .stopped) :
    state = .stopped := by
  cases state with
  | stopped => rfl
  | running | paused | other => cases h

theorem fitsInt_getD {o : Option Int} {z : Int} (fit : o.all fitsInt = true)
    (old : fitsInt z = true) : fitsInt (o.getD z) = true := by
  cases o with
  | none => exact old
  | some _ => exact fit

/-- The answer of the application changes the codes of a stop at most. -/
theorem respond_codes {o : StatusOptions} {target : ServiceState}
    (fit : target = .stopped → o.fit = true) (seq : Token) (exitcode : fitsInt svc.exitcode = true)
    (servicecode : fitsInt svc.servicecode = true) :
    ∃ e s : Int, fitsInt e = true ∧ fitsInt s = true ∧ svc.respond seq target o =
      { svc with
        exitcode := e, servicecode := s, seqack := seq
        awaiting := svc.awaiting && !seq.is svc.seq } := by
  rw [Service.respond]
  split
  · rename_i stops
    obtain ⟨fitExit, fitService⟩ := Bool.and_eq_true_iff.mp (fit stops)
    exact ⟨_, _, fitsInt_getD fitExit exitcode, fitsInt_getD fitService servicecode, rfl⟩
  · exact ⟨_, _, exitcode, servicecode, rfl⟩

omit [DecidableEq Name] in
theorem Ready.recode (h : Ready T w name svc) {e s : Int} (exitcode : fitsInt e = true)
    (servicecode : fitsInt s = true) (seqack : Token) (awaiting : Bool) :
    Ready T w name { svc with exitcode := e, servicecode := s, seqack, awaiting } :=
  ⟨h.registered, h.literal, h.controls, exitcode, servicecode, h.checkpoint, h.waithint, h.sorted,
    h.bounded, h.zero⟩

theorem Kept.recode (h : Kept T w name svc) {e s : Int} (exitcode : fitsInt e = true)
    (servicecode : fitsInt s = true) (seqack : Token) (awaiting : Bool) :
    Kept T w name { svc with exitcode := e, servicecode := s, seqack, awaiting } :=
  ⟨h.registered, exitcode, servicecode, h.waithint, h.bounded, h.reported.last, h.reported.first,
    h.reported.increasing, h.reported.zero, h.reported.timer⟩

theorem changeState_kept (h : AllKept T w) (kept : Kept T w name svc) (ready : Ready T w name svc)
    (target : ServiceState) : AllKept T (changeState w name svc target).2 := by
  rw [changeState]
  split
  · exact (h.but name).restore kept
  · split
    · have reported := (h.but name).report (ready.enter target svc.checkpoint ready.checkpoint)
      simp only [tellAllStopped]
      split
      · exact reported.tell none 0
      · exact reported
    · exact (h.but name).restore kept

theorem updateServiceStatus_kept (h : AllKept T w) {seq : Token} {state : StateToken}
    {opts : Option StatusOptions} {r : UpdateResult}
    (smooth : Smooth T w (.update n seq state opts))
    (done : updateServiceStatus T w n seq state opts = .ok (r, u)) : AllKept T u := by
  rcases updateServiceStatus_cases done with ⟨_, rfl⟩ |
    ⟨svc, target, o, hs, heard, valid, rfl, hu⟩
  · exact h
  · have stops : target = .stopped → o.fit = true := fun stops =>
      smooth.1 svc hs heard (state.eq_stopped_of (stops ▸ valid))
    have kept := h.kept _ svc hs
    have ready := kept.ready h.controls hs smooth
    obtain ⟨e, s, exitcode, servicecode, respond⟩ := respond_codes stops seq
      kept.exitcode kept.servicecode
    let awaiting := svc.awaiting && !seq.is svc.seq
    have changed := changeState_kept h (kept.recode exitcode servicecode seq awaiting)
      (ready.recode exitcode servicecode seq awaiting) target
    rw [← respond, ← hu] at changed
    exact changed

/-! ### Timers -/

/-- A timer that does not report for a service is no loss to it. -/
theorem Kept.drop (h : Kept T w name svc) {i : Nat} {t : Timer Name} (due : w.timers[i]? = some t)
    (idle : ¬ (T.reads t.name = some name ∧ t.matches svc = true)) :
    Kept T { w with timers := w.timers.eraseIdx i } name svc := by
  refine h.frame rfl rfl fun ⟨t', mem, watches⟩ => ⟨t', ?_, watches⟩
  have other : t' ≠ t := fun same => idle (same ▸ watches)
  obtain ⟨j, hj⟩ := List.mem_iff_getElem?.mp mem
  refine List.mem_eraseIdx_iff_getElem?.mpr ⟨j, fun same => other ?_, hj⟩
  subst same
  exact Option.some.inj (hj.symm.trans due)

theorem expire_kept (h : AllKept T w) {i : Nat} {t : Timer Name} (due : w.timers[i]? = some t)
    (smooth : Smooth T w (.expire i)) :
    AllKept T (expire T { w with timers := w.timers.eraseIdx i } t) := by
  have dropped : ∀ {n svc}, w.services n = some svc →
      ¬ (T.reads t.name = some n ∧ t.matches svc = true) →
      Kept T { w with timers := w.timers.eraseIdx i } n svc := fun hs =>
    (h.kept _ _ hs).drop due
  rw [expire]
  split
  · rename_i none
    exact ⟨h.controls, fun n svc hs => dropped hs fun watches => by
      cases none.symm.trans watches.1⟩
  · rename_i name reads
    have others : ∀ n svc, n ≠ name → w.services n = some svc →
        Kept T { w with timers := w.timers.eraseIdx i } n svc := fun n svc other hs =>
      dropped hs fun watches => other (Option.some.inj (watches.1.symm.trans reads))
    rw [callScmWithinWaithint]
    split
    · rename_i none
      refine ⟨h.controls, fun n svc hs => others n svc (fun same => ?_) hs⟩
      cases (same ▸ hs).symm.trans none
    · rename_i svc hs
      split
      · -- The timer reports, and is replaced by the one its report schedules.
        have ready := (h.kept name svc hs).ready h.controls hs smooth
        refine KeptBut.report ⟨h.controls, others⟩ ⟨ready.registered, ready.literal,
          ready.controls, ready.exitcode, ready.servicecode, ready.checkpoint, ready.waithint,
          ready.sorted, ready.bounded, ready.zero⟩
      · rename_i stale
        refine ⟨h.controls, fun n s hn => ?_⟩
        by_cases here : n = name
        · subst here
          cases hn.symm.trans hs
          exact dropped hs fun watches => stale watches.2
        · exact others n s here hn

/-! ### Runs -/

theorem step_kept (h : AllKept T w) (smooth : Smooth T w a) (moves : step T w a = some u) :
    AllKept T u := by
  cases a with
  | control n control =>
    cases moves
    exact serviceHandlerUnsafe_kept h smooth
  | update n seq state opts =>
    simp only [step] at moves
    split at moves
    · rename_i r v done
      cases moves
      exact updateServiceStatus_kept h smooth done
    · cases moves
      exact h
  | expire i =>
    simp only [step, Option.bind_eq_bind, Option.bind_eq_some_iff, Option.some.injEq] at moves
    obtain ⟨t, due, rfl⟩ := moves
    exact expire_kept h due smooth

theorem initially_kept (h : initially T w) : AllKept T w := by
  obtain ⟨services, controls, fits, rfl⟩ := h
  refine ⟨fits, fun name svc hs => ?_⟩
  simp only at hs
  split at hs
  · rename_i mem
    cases hs
    refine ⟨mem, rfl, rfl, rfl, fun pending => ?_, fun r hr => ?_, fun _ => rfl, fun pending => ?_,
      fun _ c hc => ?_, fun pending => ?_⟩
    · cases pending
    · cases hr
    · cases pending
    · cases hc
    · cases pending
  · cases hs

/-- Over every run whose steps are smooth, the status of every service is
reported as it should be. -/
theorem reaches_reported (run : (machine T).Reaches (Smooth T) w)
    (h : w.services name = some svc) : Reported T w name svc := by
  have kept : AllKept T w :=
    run.invariant (fun _ => initially_kept) fun _ _ _ kept smooth => step_kept kept smooth
  exact (kept.kept name svc h).reported

theorem reaches_reported_start :
    ∃ w : World String, (∃ svc, w.services "echo" = some svc ∧ svc.state = .startPending ∧
      svc.stay = [4, 3, 2] ∧ Reported plain w "echo" svc) := by
  obtain ⟨w, run, start⟩ := Machine.Reaches.exists_of_run (M := machine plain) (G := Smooth plain)
    [.control "echo" .start, .expire 0, .control "echo" .interrogate, .expire 0]
    (fun w => (w.services "echo").map (fun svc => (svc.state, svc.stay)) =
      some (.startPending, [4, 3, 2]))
    ⟨["echo"], 5, rfl, rfl⟩ (by decide)
  obtain ⟨svc, h, both⟩ := Option.map_eq_some_iff.mp start
  exact ⟨w, svc, h, (Prod.mk.inj both).1, (Prod.mk.inj both).2, reaches_reported run h⟩

/-- Only a name that is a word of letters and digits is read back. -/
def words : Tcl String := ⟨id, fun s => if s.toList.all Char.isAlphanum then some s else none⟩

/-- A stop with an exit code of 33 bits is not reported; no timer reports for a
service whose name has a blank in it. -/
theorem reports_missed :
    (¬ ∀ w, (machine words).Reachable w → ∀ name svc, w.services name = some svc →
        ∀ r, w.last name = some r → r.state = svc.state.value) ∧
      ¬ ∀ w, (machine words).Reachable w → ∀ name svc, w.services name = some svc →
        svc.state.pending = true → w.Watched words name svc := by
  constructor
  · intro claim
    obtain ⟨w, run, stop⟩ := Machine.Reaches.exists_of_run (M := machine words)
      (G := fun _ _ => True)
      [.control "echo" .start, .update "echo" (.num 1) .running (some ⟨none, none, none⟩),
        .update "echo" (.num 1) .stopped (some ⟨some (2 ^ 32), none, none⟩)]
      (fun w => (w.services "echo").map Service.state = some .stopped ∧
        (w.last "echo").map Report.state = some 4)
      ⟨["echo"], 5, rfl, rfl⟩ (by decide)
    obtain ⟨svc, h, stopped⟩ := Option.map_eq_some_iff.mp stop.1
    obtain ⟨r, hr, running⟩ := Option.map_eq_some_iff.mp stop.2
    have same := claim w run "echo" svc h r hr
    rw [running, stopped] at same
    cases same
  · intro claim
    obtain ⟨w, run, start⟩ := Machine.Reaches.exists_of_run (M := machine words)
      (G := fun _ _ => True)
      [.control "my service" .start]
      (fun w => (w.services "my service").map Service.state = some .startPending ∧
        ∀ t ∈ w.timers, words.reads t.name = none)
      ⟨["my service"], 5, rfl, rfl⟩ (by decide)
    obtain ⟨svc, h, state⟩ := Option.map_eq_some_iff.mp start.1
    obtain ⟨t, mem, reads, _⟩ := claim w run "my service" svc h (by rw [state]; rfl)
    cases reads.symm.trans (start.2 t mem)

end Twapi.Services
