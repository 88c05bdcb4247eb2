import Mathlib.Data.List.Nodup
import Twapi.DirMonitor.Lifecycle

/-!
What is released, and how often.

* `Label.Clean` — registrations succeed, and monitors are shut down while a read is in
  progress.
* `Proper` — lists, references and resources, as one wants them.
* `step_fails` — what a step that is not clean leaves behind.
* `reaches_proper` — exactly the clean runs are proper throughout.
-/

namespace Twapi.DirMonitor

open Lib Option TwapiDirectoryMonitorContext

/-! ### Runs -/

/-- A monitor in the list whose read is in progress. -/
def State.Reading (s : State) (c : Nat) : Prop :=
  ∀ m, s.contexts[c]? = some m → m.iobP.isSome = true

/-- Every system call of a registration succeeds, and a monitor is shut down while a read is in
progress. -/
def Label.Clean (s : State) : Label → Prop
  | .register o => o = ⟨true, true, true, true⟩
  | .unregister c => s.Reading c
  | .callback cb => ∀ m, s.contexts[cb.dmcP]? = some m →
      (m.ticP && s.interpDeleted) = true → m.iobP.isSome = true
  | .cleanupNext => ∀ c ∈ s.directoryMonitors.items.head?, s.Reading c
  | _ => True

variable {s : State}

theorem settled_found {c : Nat} {m : TwapiDirectoryMonitorContext} (settled : s.settled c = some m) :
    s.contexts[c]? = some m ∧ m.rearming = false := by
  obtain ⟨found, still⟩ := filter_eq_some_iff.mp settled
  exact ⟨found, by simpa using still⟩

theorem step_inv {s t : State} {l : Label} (inv : Inv s) (clean : l.Clean s)
    (stepped : step s l = some t) : Inv t := by
  cases l with
  | register o =>
    obtain ⟨mode, registered⟩ := ite_none_right_eq_some.mp stepped
    rw [show o = _ from clean, register_eq inv] at registered
    cases registered
    exact registered_inv inv mode
  | unregister c =>
    obtain ⟨⟨_, listed⟩, shut⟩ := ite_none_right_eq_some.mp stepped
    obtain ⟨m, settled, rfl⟩ := map_eq_some_iff.mp shut
    obtain ⟨found, still⟩ := settled_found settled
    exact shutdown_inv inv found listed still (clean m found)
  | signaled c result =>
    obtain ⟨m, settled, waiting⟩ := bind_eq_some_iff.mp stepped
    obtain ⟨found, _⟩ := settled_found settled
    obtain ⟨valid, read⟩ := ite_none_right_eq_some.mp waiting
    obtain ⟨iob, reading, rfl⟩ := map_eq_some_iff.mp read
    have listed : c ∈ s.directoryMonitors.items := by
      by_contra unlisted
      have placed := inv.placed c m found
      rw [State.Placed, if_neg unlisted] at placed
      rw [placed.handles] at valid
      cases valid
    exact signaled_inv inv found listed reading result
  | rearm c ok =>
    obtain ⟨m, found, between⟩ := bind_eq_some_iff.mp stepped
    obtain ⟨rearming, same⟩ := ite_none_right_eq_some.mp between
    cases same
    have listed : c ∈ s.directoryMonitors.items := by
      by_contra unlisted
      have placed := inv.placed c m found
      rw [State.Placed, if_neg unlisted] at placed
      exact Bool.false_ne_true (placed.rearming.symm.trans rearming)
    exact rearm_inv inv found listed rearming ok
  | callback cb =>
    obtain ⟨⟨_, queued⟩, dequeued⟩ := ite_none_right_eq_some.mp stepped
    obtain ⟨m, found, settled⟩ := bind_eq_some_iff.mp dequeued
    obtain ⟨still, same⟩ := ite_none_left_eq_some.mp settled
    cases same
    refine callback_inv inv queued found (fun shuts => ?_) (clean m found)
    by_contra rearming
    rw [Bool.not_eq_false] at rearming
    exact still (by rw [shuts, rearming]; rfl)
  | deleteInterp =>
    obtain ⟨_, same⟩ := ite_none_right_eq_some.mp stepped
    cases same
    exact ⟨inv.count, inv.nodup, inv.placed, inv.listed, inv.queued, inv.data, inv.ledger⟩
  | cleanup finalizer =>
    obtain ⟨⟨mode, _⟩, same⟩ := ite_none_right_eq_some.mp stepped
    cases same
    refine ⟨inv.count, inv.nodup, inv.placed, inv.listed, inv.queued, fun gone => ?_,
      inv.ledger⟩
    obtain ⟨left, _⟩ := inv.data gone
    rw [mode] at left
    cases left
  | cleanupNext =>
    obtain ⟨_, next⟩ := ite_none_right_eq_some.mp stepped
    have count := inv.count
    split at next
    · obtain ⟨c, first, shut⟩ := bind_eq_some_iff.mp next
      obtain ⟨m, settled, rfl⟩ := map_eq_some_iff.mp shut
      obtain ⟨found, still⟩ := settled_found settled
      have listed := List.mem_of_head? first
      exact shutdown_inv inv found listed still (clean c first m found)
    · rename_i none_left
      cases next
      have empty : s.directoryMonitors.items = [] :=
        List.eq_nil_of_length_eq_zero (by omega)
      exact ⟨inv.count, inv.nodup, inv.placed, inv.listed, inv.queued,
        fun _ => ⟨rfl, empty⟩, inv.ledger⟩

theorem start_inv : Inv start where
  count := rfl
  nodup := List.nodup_nil
  placed _ _ found := nomatch found
  listed _ mem := nomatch mem
  queued _ mem := nomatch mem
  data gone := nomatch gone
  ledger b := (if_neg (Nat.not_lt_zero b)).symm

/-! ### What one wants -/

/-- What refers to a monitor: the list, the thread pool and callbacks. -/
def State.holders (s : State) (c : Nat) (m : TwapiDirectoryMonitorContext) : Nat :=
  s.directoryMonitors.items.count c + (m.handles .threadPoolRegistry).toNat + s.callbacks c

/-- The list is what its count says. A monitor is in the list where it was linked and not
unlinked, and is deleted once, when nothing refers to it. A handle is open where it was
acquired and not released, which it is of a monitor that is not in the list. Every buffer is
in one place, or was freed once; a monitor that was deleted has none. -/
structure Proper (s : State) : Prop where
  count : s.directoryMonitors.count = s.directoryMonitors.items.length
  nodup : s.directoryMonitors.items.Nodup
  linked : ∀ (c : Nat) m, s.contexts[c]? = some m →
    m.log.count .link = m.log.count .unlink + s.directoryMonitors.items.count c
  freed : ∀ (c : Nat) m, s.contexts[c]? = some m →
    m.log.count .delete = if s.holders c m = 0 then 1 else 0
  handles : ∀ (c : Nat) m, s.contexts[c]? = some m → ∀ h,
    m.log.count (.acquire h) = m.log.count (.release h) + (m.handles h).toNat
  closed : ∀ (c : Nat) m, s.contexts[c]? = some m → ∀ h,
    m.handles h = true → c ∈ s.directoryMonitors.items
  buffers : ∀ b, s.places b = if b < s.next then 1 else 0
  empty : ∀ (c : Nat) m, s.contexts[c]? = some m → m.log.count .delete ≠ 0 → m.iobP = none

theorem Inv.proper (inv : Inv s) : Proper s := by
  have live : ∀ (c : Nat) m, s.contexts[c]? = some m → c ∈ s.directoryMonitors.items →
      Live m (s.callbacks c) := fun c m found listed => inv.live found listed
  have closed : ∀ (c : Nat) m, s.contexts[c]? = some m → c ∉ s.directoryMonitors.items →
      Closed m (s.callbacks c) := by
    intro c m found unlisted
    have placed := inv.placed c m found
    rwa [State.Placed, if_neg unlisted] at placed
  refine ⟨inv.count, inv.nodup, ?_, ?_, ?_, ?_, inv.ledger, ?_⟩
  · intro c m found
    by_cases listed : c ∈ s.directoryMonitors.items
    · rw [(live c m found listed).log, List.count_eq_one_of_mem inv.nodup listed]
      rfl
    · rw [(closed c m found listed).log, List.count_eq_zero_of_not_mem listed]
      split <;> rfl
  · intro c m found
    by_cases listed : c ∈ s.directoryMonitors.items
    · have held : s.holders c m ≠ 0 := by
        rw [State.holders, List.count_eq_one_of_mem inv.nodup listed]
        omega
      rw [(live c m found listed).log, if_neg held]
      rfl
    · have shut := closed c m found listed
      have held : s.holders c m = s.callbacks c := by
        rw [State.holders, List.count_eq_zero_of_not_mem listed, shut.handles]
        exact Nat.zero_add _
      rw [shut.log, held]
      split <;> rfl
  · intro c m found h
    by_cases listed : c ∈ s.directoryMonitors.items
    · rw [(live c m found listed).log, (live c m found listed).handles]
      cases h <;> rfl
    · rw [(closed c m found listed).log, (closed c m found listed).handles]
      split <;> cases h <;> rfl
  · intro c m found h valid
    by_contra unlisted
    rw [(closed c m found unlisted).handles] at valid
    cases valid
  · intro c m found deleted
    by_cases listed : c ∈ s.directoryMonitors.items
    · rw [(live c m found listed).log] at deleted
      exact absurd rfl deleted
    · refine (closed c m found listed).buffer ?_
      by_contra queued
      rw [(closed c m found listed).log, if_neg queued] at deleted
      exact absurd rfl deleted

/-! ### Failures -/

section Failures

variable {s t : State} {c : Nat} {m : TwapiDirectoryMonitorContext}

/-- A monitor that nothing refers to and that was not deleted. -/
theorem not_proper_of_leaked (found : t.contexts[c]? = some m)
    (undeleted : m.log.count .delete = 0) (unlisted : c ∉ t.directoryMonitors.items)
    (unwatched : m.handles .threadPoolRegistry = false) (unqueued : t.callbacks c = 0) :
    ¬ Proper t := by
  intro proper
  have freed := proper.freed c m found
  rw [undeleted, State.holders, List.count_eq_zero_of_not_mem unlisted, unwatched, unqueued]
    at freed
  cases freed

theorem shutdown_unlinked (unwatched : m.handles .threadPoolRegistry = false)
    (unread : m.iobP = none) : m.shutdown false =
      (if m.handles .directory then m.release .directory else m, []) := by
  have closeEvent : ∀ m' : TwapiDirectoryMonitorContext, m'.iobP = none → m'.closeEvent = m' := by
    intro m' unread
    simp only [closeEvent, unread, ite_self]
  cases directory : m.handles .directory with
  | true =>
    simp only [shutdown, unwatched, directory, Bool.false_eq_true,
      if_false, if_true]
    exact congrArg (·, []) (closeEvent _ unread)
  | false =>
    simp only [shutdown, unwatched, directory, Bool.false_eq_true,
      if_false]
    exact congrArg (·, []) (closeEvent _ unread)

/-- A monitor that was not linked is not deleted. -/
theorem systemError_leaks (inv : Inv s) (next : Nat) (freed : List Nat)
    (unlinked : m.ticP = false) (unwatched : m.handles .threadPoolRegistry = false)
    (unlogged : m.log.count .delete = 0) (unread : m.iobP = none) :
    ¬ Proper (systemError { s with next, freed } m) := by
  have result : (systemError { s with next, freed } m).contexts[s.contexts.length]? =
      some (if m.handles .directory then m.release .directory else m) := by
    simp only [systemError, twapiShutdownDirectoryMonitor, unlinked, Bool.false_and,
      shutdown_unlinked unwatched unread]
    simp [State.put]
  refine not_proper_of_leaked result ?_ ?_ ?_ ?_
  · cases m.handles .directory with
    | true => exact (List.count_cons_of_ne (by decide)).trans unlogged
    | false => exact unlogged
  · simp only [systemError, twapiShutdownDirectoryMonitor, unlinked, Bool.false_and]
    exact fun mem => Nat.lt_irrefl _ (inv.listed _ mem)
  · cases m.handles .directory with
    | true => exact unwatched
    | false => exact unwatched
  · simp only [systemError, twapiShutdownDirectoryMonitor, unlinked, Bool.false_and]
    exact unallocated_callbacks inv

theorem register_fails (inv : Inv s) (mode : s.mode = .running) {o : Outcomes}
    (failed : o ≠ ⟨true, true, true, true⟩)
    (registered : twapiRegisterDirectoryMonitorObjCmd s o = some t) : ¬ Proper t := by
  obtain ⟨createFile, createEvent, read, registerWait⟩ := o
  rw [twapiRegisterDirectoryMonitorObjCmd] at registered
  cases createFile with
  | false =>
    cases registered
    exact systemError_leaks inv s.next s.freed rfl rfl rfl rfl
  | true =>
  cases createEvent with
  | false =>
    cases registered
    exact systemError_leaks inv s.next s.freed rfl rfl rfl rfl
  | true =>
  cases read with
  | false =>
    cases registered
    exact systemError_leaks inv (s.next + 1) ([s.next] ++ s.freed) rfl rfl rfl rfl
  | true =>
  cases registerWait with
  | true => exact absurd rfl failed
  | false =>
    -- the list has lost one entry more than it had
    have count := inv.count
    have new : s.contexts.length ∉ s.directoryMonitors.items := fun mem =>
      Nat.lt_irrefl _ (inv.listed _ mem)
    have pval : s.pval = true := by
      by_contra gone
      have left := (inv.data (Bool.eq_false_iff.mpr gone)).1
      rw [mode] at left
      cases left
    simp only [prepend_eq inv, initiateRead] at registered
    have list : t.directoryMonitors =
        ⟨s.directoryMonitors.items, s.directoryMonitors.count - 1⟩ := by
      cases registered
      simp [systemError, twapiShutdownDirectoryMonitor, State.put, pval, ZList.remove,
        List.erase_of_not_mem new]
    intro proper
    have counted := proper.count
    rw [list] at counted
    simp only at counted
    omega

theorem unref_handles (m : TwapiDirectoryMonitorContext) (decr : Int) :
    (m.unref decr).1.handles = m.handles := by
  rw [unref]
  split <;> rfl

/-- A monitor that is shut down without a read in progress: the event stays open. -/
theorem shutdown_unread {q : Nat} (live : Live m q) (unread : m.iobP = none) :
    (m.shutdown true).1.handles .completionEvent = true := by
  obtain ⟨ticP, handles, nrefs, iobP, rearming, log⟩ := m
  have valid : handles = fun _ => true := live.handles
  subst valid
  cases unread
  simp only [shutdown, closeEvent,
    release, if_true, reduceCtorEq, if_false]
  rw [if_neg (by decide), unref_handles]
  rfl

theorem not_proper_of_open (found : t.contexts[c]? = some m) {h : Handle}
    (valid : m.handles h = true) (unlisted : c ∉ t.directoryMonitors.items) : ¬ Proper t :=
  fun proper => unlisted (proper.closed c m found h valid)

theorem shutdown_fails (inv : Inv s) (found : s.contexts[c]? = some m)
    (listed : c ∈ s.directoryMonitors.items) (unread : m.iobP = none) :
    ¬ Proper (twapiShutdownDirectoryMonitor s c m) := by
  have live := inv.live found listed
  have linked : (m.ticP && s.pval) = true := by rw [live.ticP, inv.pval listed]; rfl
  have after : (twapiShutdownDirectoryMonitor s c m).contexts[c]? = some (m.shutdown true).1 := by
    simp only [twapiShutdownDirectoryMonitor, linked, State.put, if_true,
      List.getElem?_modify_eq, found]
    rfl
  refine not_proper_of_open after (shutdown_unread live unread) ?_
  simp only [twapiShutdownDirectoryMonitor, linked]
  exact fun mem => (inv.nodup.mem_erase_iff.mp mem).1 rfl

theorem callback_fails {cb : Callback} (inv : Inv s) (found : s.contexts[cb.dmcP]? = some m)
    (shuts : (m.ticP && s.interpDeleted) = true) (unread : m.iobP = none) :
    ¬ Proper (twapiDirectoryMonitorCallbackFn { s with events := s.events.erase cb } cb m) := by
  obtain ⟨ticP, deleted⟩ := Bool.and_eq_true_iff.mp shuts
  have listed := inv.mem_of_ticP found ticP
  have live := inv.live found listed
  have pval := inv.pval listed
  rw [callback_shutdown found ticP deleted pval]
  refine not_proper_of_open (c := cb.dmcP) (m := ((m.shutdown true).1.unref 1).1)
    (h := .completionEvent) ?_ ?_ ?_
  · simp only [State.put, State.dequeue, List.getElem?_modify_eq, found]
    rfl
  · rw [unref_handles]
    exact shutdown_unread live unread
  · exact fun mem => (inv.nodup.mem_erase_iff.mp mem).1 rfl

theorem step_fails {l : Label} (inv : Inv s) (unclean : ¬ l.Clean s) (stepped : step s l = some t) :
    ¬ Proper t := by
  cases l with
  | register o =>
    obtain ⟨mode, registered⟩ := ite_none_right_eq_some.mp stepped
    exact register_fails inv mode unclean registered
  | unregister c =>
    obtain ⟨⟨_, listed⟩, shut⟩ := ite_none_right_eq_some.mp stepped
    obtain ⟨m, settled, rfl⟩ := map_eq_some_iff.mp shut
    obtain ⟨found, _⟩ := settled_found settled
    refine shutdown_fails inv found listed ?_
    by_contra reading
    refine unclean fun m' found' => ?_
    cases found.symm.trans found'
    exact isSome_iff_ne_none.mpr reading
  | callback cb =>
    obtain ⟨_, dequeued⟩ := ite_none_right_eq_some.mp stepped
    obtain ⟨m, found, settled⟩ := bind_eq_some_iff.mp dequeued
    obtain ⟨_, same⟩ := ite_none_left_eq_some.mp settled
    cases same
    by_cases shuts : (m.ticP && s.interpDeleted) = true
    · refine callback_fails inv found shuts ?_
      by_contra reading
      refine unclean fun m' found' _ => ?_
      cases found.symm.trans found'
      exact isSome_iff_ne_none.mpr reading
    · refine absurd (fun m' found' shuts' => ?_) unclean
      cases found.symm.trans found'
      exact absurd shuts' shuts
  | cleanupNext =>
    obtain ⟨_, next⟩ := ite_none_right_eq_some.mp stepped
    split at next
    · obtain ⟨c, first, shut⟩ := bind_eq_some_iff.mp next
      obtain ⟨m, settled, rfl⟩ := map_eq_some_iff.mp shut
      obtain ⟨found, _⟩ := settled_found settled
      refine shutdown_fails inv found (List.mem_of_head? first) ?_
      by_contra reading
      refine unclean fun c' first' m' found' => ?_
      cases first.symm.trans first'
      cases found.symm.trans found'
      exact isSome_iff_ne_none.mpr reading
    · rename_i none_left
      refine absurd (fun c first => ?_) unclean
      have count := inv.count
      have listed := List.length_pos_of_mem (List.mem_of_head? first)
      omega
  | signaled | rearm | deleteInterp | cleanup => exact absurd trivial unclean

end Failures

theorem reaches_inv (reached : machine.Reaches (fun s l => l.Clean s) s) : Inv s := by
  induction reached with
  | init first =>
    rw [show _ = start from first]
    exact start_inv
  | step _ clean stepped inv => exact step_inv inv clean stepped

/-- In every run whose steps are clean, and not after the first that is not. -/
theorem reaches_proper (s : State) (reached : machine.Reaches (fun s l => l.Clean s) s) :
    Proper s ∧ ∀ t l, step s l = some t → ¬ l.Clean s → ¬ Proper t :=
  ⟨(reaches_inv reached).proper,
    fun _ _ stepped unclean => step_fails (reaches_inv reached) unclean stepped⟩

instance (s : State) (c : Nat) : Decidable (s.Reading c) :=
  inferInstanceAs (Decidable (∀ m ∈ s.contexts[c]?, m.iobP.isSome = true))

instance (s : State) (l : Label) : Decidable (l.Clean s) :=
  match l with
  | .register o => inferInstanceAs (Decidable (o = ⟨true, true, true, true⟩))
  | .unregister c => inferInstanceAs (Decidable (s.Reading c))
  | .callback cb => inferInstanceAs (Decidable (∀ m ∈ s.contexts[cb.dmcP]?,
      (m.ticP && s.interpDeleted) = true → m.iobP.isSome = true))
  | .cleanupNext =>
    inferInstanceAs (Decidable (∀ c ∈ s.directoryMonitors.items.head?, s.Reading c))
  | .signaled .. | .rearm .. | .deleteInterp | .cleanup _ => isTrue trivial

/-- A monitor that is unregistered while a callback is queued, and a registration of a
directory that cannot be opened. -/
theorem reaches_proper_unregistered :
    (∃ s, Proper s ∧ s.freed = [1, 0] ∧ s.events = []) ∧
    ∃ t, ¬ Proper t ∧ t.contexts.length = 1 := by
  obtain ⟨s, reached, freed⟩ := Machine.Reaches.exists_of_run (M := machine)
    (G := fun s l => l.Clean s)
    [.register ⟨true, true, true, true⟩, .signaled 0 .ok, .rearm 0 true, .unregister 0,
      .callback ⟨0, some 0⟩] (fun s => s.freed = [1, 0] ∧ s.events = []) rfl (by decide)
  exact ⟨⟨s, (reaches_proper s reached).1, freed⟩, _,
    (reaches_proper start (.init rfl)).2 _ (.register ⟨false, true, true, true⟩) rfl (by decide),
    rfl⟩

/-- The wait cannot be registered: the monitor is taken off the list twice. -/
theorem failed_wait_unlinks_twice : ¬ ∀ s, machine.Reachable s → Proper s := by
  intro claim
  obtain ⟨s, reached, list⟩ := Machine.Reaches.exists_of_run (M := machine) (G := fun _ _ => True)
    [.register ⟨true, true, true, false⟩] (fun s => s.directoryMonitors = ⟨[], -1⟩) rfl
    (by decide)
  have count := (claim s reached).count
  rw [list] at count
  exact absurd count (by decide)

end Twapi.DirMonitor
