import Twapi.Async.Model

/-!
When the callback and its reference to the interpreter context are released.

* `Owned` — the reference count is the number of references the two threads
  hold, and the callback has been deleted, or is about to be, exactly if nobody
  holds one any more.
* `reaches_owned` — this holds in every state, whatever the wait returned.
* `reaches_sound` — if the wait is satisfied the callback is deleted exactly
  once, after both threads are done with it. A caller that gives up keeps its
  reference for ever.
-/

namespace Twapi.Async

open Lib Enqueue

variable {ρ : Type}

/-! ### Who holds a reference -/

/-- References the enqueuing thread holds, for itself or for the queue. -/
def CallerPc.holds (timeout : Nat) : CallerPc → Nat
  | .queue => if timeout = 0 then 1 else 2
  | .wait | .answered | .owned _ | .unref _ | .done (.abandoned _) => 1
  | .start | .failing _ | .method | .ref | .deleting _ => 0
  | .done (.failed _) | .done .unsupported | .done .queued | .done (.answered _) => 0

/-- The reference of the queue, until the interpreter's thread drops it. -/
def EventPc.holds : EventPc → Nat
  | .callback | .signal | .release | .detach | .unref => 1
  | .none | .deleting | .done => 0

/-- Before the first reference only the enqueuing thread knows the callback. -/
def CallerPc.fresh : CallerPc → Bool
  | .start | .method | .ref | .done .unsupported => true
  | .failing _ | .queue | .wait | .answered | .owned _ | .unref _ | .deleting _ => false
  | .done (.failed _) | .done .queued | .done (.answered _) | .done (.abandoned _) => false

/-- About to call `TwapiCallbackDelete`. -/
def CallerPc.deletes : CallerPc → Bool
  | .failing _ | .deleting _ => true
  | .start | .method | .ref | .queue | .wait | .answered | .owned _ | .unref _ | .done _ => false

def EventPc.deletes : EventPc → Bool
  | .deleting => true
  | .none | .callback | .signal | .release | .detach | .unref | .done => false

/-- The interpreter's thread has dropped the reference to the context. -/
def EventPc.released : EventPc → Bool
  | .detach | .unref | .deleting | .done => true
  | .none | .callback | .signal | .release => false

/-- `TwapiEnqueueCallback` ended early, or has not come to queueing the event. -/
def Return.early : Return → Bool
  | .failed _ | .unsupported => true
  | .queued | .answered _ | .abandoned _ => false

def CallerPc.unqueued : CallerPc → Bool
  | .start | .failing _ | .method | .ref | .queue => true
  | .wait | .answered | .owned _ | .unref _ | .deleting _ => false
  | .done r => r.early

/-- The context is referenced. -/
def CallerPc.took : CallerPc → Bool
  | .start | .failing _ | .method | .ref => false
  | .queue | .wait | .answered | .owned _ | .unref _ | .deleting _ => true
  | .done r => !r.early

namespace Enqueue

def holds (s : Enqueue ρ) : Nat := s.caller.holds s.timeout + s.event.holds

/-- Deletions made, and one that is about to be made. -/
def ended (s : Enqueue ρ) : Nat :=
  deletions s.log + s.caller.deletes.toNat + s.event.deletes.toNat

/-- The callback is known and nobody holds a reference. -/
def orphaned (s : Enqueue ρ) : Bool := s.holds = 0 ∧ s.caller.fresh = false

end Enqueue

structure Owned (s : Enqueue ρ) : Prop where
  refs : s.cb.nrefs = s.holds
  ended : s.ended = s.orphaned.toNat
  clean : Clean s.log
  unqueued : s.caller.unqueued = true ↔ s.event = .none
  taken : s.taken = s.caller.took.toNat
  released : s.released = s.event.released.toNat

section Moves

variable {s t : Enqueue ρ}

theorem Owned.start (method : EnqueueMethod) (timeout : Nat) (wantsResponse : Bool) :
    Owned (.start method timeout wantsResponse : Enqueue ρ) where
  refs := rfl
  ended := rfl
  clean := nofun
  unqueued := ⟨fun _ => rfl, fun _ => rfl⟩
  taken := rfl
  released := rfl

/-- While somebody holds a reference, or nobody else knows the callback, it is alive. -/
theorem Owned.alive (w : Owned s) (h : s.orphaned = false) : deletions s.log = 0 := by
  have hended := w.ended
  rw [h] at hended
  unfold Enqueue.ended at hended
  simp only [Bool.toNat_false] at hended
  omega

/-- A thread about to delete the callback is the only one, and the first. -/
theorem Owned.ended_of_deletes (w : Owned s)
    (h : s.caller.deletes = true ∨ s.event.deletes = true) :
    deletions s.log = 0 ∧ s.orphaned = true := by
  have hended := w.ended
  have hle := Bool.toNat_le s.orphaned
  unfold Enqueue.ended at hended
  have hpos : s.caller.deletes.toNat + s.event.deletes.toNat ≠ 0 := by
    rcases h with h | h
    · rw [h, Bool.toNat_true]
      omega
    · rw [h, Bool.toNat_true]
      omega
  refine ⟨by omega, ?_⟩
  cases ho : s.orphaned with
  | true => rfl
  | false =>
    rw [ho] at hended
    simp only [Bool.toNat_false] at hended
    omega

theorem Owned.deletes_alone (w : Owned s) (hc : s.caller.deletes = true) : s.event.deletes = false := by
  have hended := w.ended
  have hle := Bool.toNat_le s.orphaned
  rw [Enqueue.ended, hc, Bool.toNat_true] at hended
  apply Bool.eq_false_iff.mpr
  intro he
  rw [he, Bool.toNat_true] at hended
  omega

/-- A step of a thread that holds a reference, and still does. -/
theorem Owned.access (w : Owned s) (alive : s.orphaned = false) (alive' : t.orphaned = false)
    (refs : t.cb.nrefs = s.cb.nrefs) (holds : t.holds = s.holds) (log : t.log = .access :: s.log)
    (caller : t.caller.deletes = s.caller.deletes) (event : t.event.deletes = s.event.deletes)
    (unqueued : t.caller.unqueued = true ↔ t.event = .none) (taken : t.taken = t.caller.took.toNat)
    (released : t.released = t.event.released.toNat) : Owned t where
  refs := by rw [refs, holds, w.refs]
  ended := by
    have hended := w.ended
    unfold Enqueue.ended at hended ⊢
    rw [log, deletions_access, caller, event, hended, alive, alive']
  clean := log ▸ .use (w.alive alive) _
  unqueued := unqueued
  taken := taken
  released := released

/-- Without a reference nobody is left that could delete the callback. -/
theorem not_orphaned_of_holds (h : s.holds ≠ 0) : s.orphaned = false :=
  decide_eq_false fun orphaned => h orphaned.1

theorem not_orphaned_of_fresh (h : s.caller.fresh = true) : s.orphaned = false :=
  decide_eq_false fun orphaned => nomatch h.symm.trans orphaned.2

theorem caller_holds (h : s.caller.holds s.timeout ≠ 0) : s.holds ≠ 0 :=
  fun none => h (Nat.eq_zero_of_add_eq_zero_right none)

theorem event_holds (h : s.event.holds ≠ 0) : s.holds ≠ 0 :=
  fun none => h (Nat.eq_zero_of_add_eq_zero_left none)

/-- A thread drops its reference, and is about to delete the callback if it was the last. -/
theorem Owned.unref (w : Owned s) (alive : s.orphaned = false) (refs : t.cb.nrefs = s.cb.nrefs - 1)
    (holds : t.holds + 1 = s.holds) (log : t.log = .access :: s.log) (known : t.caller.fresh = false)
    (deletes : t.caller.deletes.toNat + t.event.deletes.toNat = (decide (s.cb.nrefs ≤ 1)).toNat)
    (unqueued : t.caller.unqueued = true ↔ t.event = .none) (taken : t.taken = t.caller.took.toNat)
    (released : t.released = t.event.released.toNat) : Owned t where
  refs := by
    have hrefs := w.refs
    omega
  ended := by
    have hlog := w.alive alive
    have hrefs := w.refs
    have hlast : s.cb.nrefs ≤ 1 ↔ t.holds = 0 := by omega
    have horphaned : t.orphaned = decide (s.cb.nrefs ≤ 1) := by
      simp [orphaned, known, hlast]
    rw [Enqueue.ended, log, deletions_access, hlog, Nat.zero_add, deletes, horphaned]
  clean := log ▸ .use (w.alive alive) _
  unqueued := unqueued
  taken := taken
  released := released

/-- A thread deletes the callback. -/
theorem Owned.delete (w : Owned s) (deletes : s.caller.deletes = true ∨ s.event.deletes = true)
    (refs : t.cb.nrefs = s.cb.nrefs) (holds : t.holds = s.holds) (log : t.log = .delete :: s.log)
    (known : t.caller.fresh = s.caller.fresh)
    (done : t.caller.deletes = false ∧ t.event.deletes = false)
    (unqueued : t.caller.unqueued = true ↔ t.event = .none) (taken : t.taken = t.caller.took.toNat)
    (released : t.released = t.event.released.toNat) : Owned t where
  refs := by rw [refs, holds, w.refs]
  ended := by
    obtain ⟨hlog, horphaned⟩ := w.ended_of_deletes deletes
    have horphaned' : t.orphaned = true := by
      rw [← horphaned, orphaned, orphaned, holds, known]
    rw [Enqueue.ended, log, deletions_delete, hlog, done.1, done.2, horphaned']
    rfl
  clean := log ▸ .use (w.ended_of_deletes deletes).1 _
  unqueued := unqueued
  taken := taken
  released := released

/-! ### The enqueuing thread -/

theorem Owned.createEvent (w : Owned s) (hs : s.caller = .start) (error : Option Nat) :
    Owned (s.createEvent error) := by
  have hevent : s.event = .none := w.unqueued.mp (by rw [hs]; rfl)
  have alive : s.orphaned = false := not_orphaned_of_fresh (by rw [hs]; rfl)
  have hholds : s.holds = 0 := by rw [holds, hs, hevent]; rfl
  have hrefs : s.cb.nrefs = 0 := by rw [w.refs, hholds]; rfl
  have htaken : s.taken = 0 := by rw [w.taken, hs]; rfl
  cases error with
  | none =>
    refine w.access alive (not_orphaned_of_fresh rfl) rfl ?_ rfl ?_ rfl ⟨fun _ => hevent, fun _ => rfl⟩
      htaken w.released
    · rw [hholds, holds]
      exact congrArg (0 + ·.holds) hevent
    · rw [hs]
      rfl
  | some e =>
    -- `TwapiCallbackDelete` will be called on a callback nobody else knows
    have hlog := w.alive alive
    refine ⟨?_, ?_, .use hlog _, ⟨fun _ => hevent, fun _ => rfl⟩, htaken, w.released⟩
    · rw [holds]
      exact hrefs.trans (congrArg (fun pc : EventPc => ((0 + pc.holds : Nat) : Int)) hevent).symm
    · simp [Enqueue.ended, Enqueue.orphaned, Enqueue.holds, Enqueue.createEvent, Enqueue.access,
        CallerPc.holds, CallerPc.fresh, CallerPc.deletes, EventPc.holds, EventPc.deletes, hevent, hlog]

variable {pc : CallerPc}

/-- A step of the enqueuing thread that touches nothing, before the first reference. -/
theorem Owned.move (w : Owned s) (fresh : s.caller.fresh = true) (fresh' : pc.fresh = true)
    (holds : s.caller.holds s.timeout = pc.holds s.timeout)
    (deletes : s.caller.deletes = pc.deletes) (unqueued : s.caller.unqueued = pc.unqueued)
    (took : s.caller.took = pc.took) : Owned { s with caller := pc } where
  refs := by
    have hrefs := w.refs
    unfold Enqueue.holds at hrefs ⊢
    rw [holds] at hrefs
    exact hrefs
  ended := by
    have hended := w.ended
    rw [not_orphaned_of_fresh fresh] at hended
    rw [not_orphaned_of_fresh (s := { s with caller := pc }) fresh']
    unfold Enqueue.ended at hended ⊢
    rw [deletes] at hended
    exact hended
  clean := w.clean
  unqueued := unqueued ▸ w.unqueued
  taken := took ▸ w.taken
  released := w.released

theorem Owned.ref (w : Owned s) (hs : s.caller = .ref) : Owned s.ref := by
  have hevent : s.event = .none := w.unqueued.mp (by rw [hs]; rfl)
  have hlog := w.alive (not_orphaned_of_fresh (by rw [hs]; rfl))
  have hrefs : s.cb.nrefs = 0 := by rw [w.refs, holds, hs, hevent]; rfl
  have htaken : s.taken = 0 := by rw [w.taken, hs]; rfl
  refine ⟨?_, ?_, .use hlog _, ⟨fun _ => hevent, fun _ => rfl⟩, congrArg (· + 1) htaken, w.released⟩
  · by_cases ht : s.timeout = 0
    · simp [Enqueue.holds, Enqueue.ref, Enqueue.access, CallerPc.holds, EventPc.holds, hevent, ht, hrefs]
    · simp [Enqueue.holds, Enqueue.ref, Enqueue.access, CallerPc.holds, EventPc.holds, hevent, ht, hrefs]
  · by_cases ht : s.timeout = 0
    · simp [Enqueue.ended, Enqueue.orphaned, Enqueue.holds, Enqueue.ref, Enqueue.access, CallerPc.holds,
        CallerPc.fresh, CallerPc.deletes, EventPc.holds, EventPc.deletes, hevent, hlog, ht]
    · simp [Enqueue.ended, Enqueue.orphaned, Enqueue.holds, Enqueue.ref, Enqueue.access, CallerPc.holds,
        CallerPc.fresh, CallerPc.deletes, EventPc.holds, EventPc.deletes, hevent, hlog, ht]

/-- The reference for the queue goes with the event. -/
theorem Owned.queue (w : Owned s) (hs : s.caller = .queue) : Owned s.queue := by
  have hevent : s.event = .none := w.unqueued.mp (by rw [hs]; rfl)
  have hrefs := w.refs
  have htaken : s.taken = 1 := by rw [w.taken, hs]; rfl
  have hreleased : s.released = 0 := by rw [w.released, hevent]; rfl
  have hlog := w.alive (not_orphaned_of_holds (caller_holds (by
    rw [hs, CallerPc.holds]
    split <;> decide)))
  simp only [holds, hs, hevent, CallerPc.holds, EventPc.holds] at hrefs
  by_cases ht : s.timeout = 0
  · refine ⟨?_, ?_, w.clean, ?_, ?_, hreleased⟩
    · simpa [Enqueue.holds, Enqueue.queue, CallerPc.holds, EventPc.holds, ht] using hrefs
    · simp [Enqueue.ended, Enqueue.orphaned, Enqueue.holds, Enqueue.queue, CallerPc.deletes,
        EventPc.holds, EventPc.deletes, hlog, ht]
    · simp [Enqueue.queue, CallerPc.unqueued, Return.early, ht]
    · simpa [Enqueue.queue, CallerPc.took, Return.early, ht] using htaken
  · refine ⟨?_, ?_, w.clean, ?_, ?_, hreleased⟩
    · simpa [Enqueue.holds, Enqueue.queue, CallerPc.holds, EventPc.holds, ht] using hrefs
    · simp [Enqueue.ended, Enqueue.orphaned, Enqueue.holds, Enqueue.queue, CallerPc.deletes,
        EventPc.holds, EventPc.deletes, hlog, ht]
    · simp [Enqueue.queue, CallerPc.unqueued, ht]
    · simpa [Enqueue.queue, CallerPc.took, ht] using htaken

/-- The thread waits, or has been answered. -/
def CallerPc.waits : CallerPc → Bool
  | .wait | .answered | .owned _ | .unref _ | .done (.abandoned _) => true
  | _ => false

/-- A thread that waits, or was answered, holds a reference of its own. -/
theorem CallerPc.waits_spec (pc : CallerPc) (h : pc.waits = true) (timeout : Nat) :
    pc.holds timeout = 1 ∧ pc.deletes = false ∧ pc.unqueued = false ∧ pc.took = true := by
  cases pc with
  | done r => cases r <;> first | exact ⟨rfl, rfl, rfl, rfl⟩ | cases h
  | _ => first | exact ⟨rfl, rfl, rfl, rfl⟩ | cases h

variable {cb : TwapiCallback ρ}

/-- It goes on without dropping it. -/
theorem Owned.keep (w : Owned s) (hcb : cb.nrefs = s.cb.nrefs) (waits : s.caller.waits = true)
    (waits' : pc.waits = true) :
    Owned { s with cb := cb, caller := pc }.access := by
  obtain ⟨holds, deletes, unqueued, took⟩ := CallerPc.waits_spec _ waits s.timeout
  obtain ⟨holds', deletes', unqueued', took'⟩ := CallerPc.waits_spec _ waits' s.timeout
  have hunqueued := w.unqueued
  have htaken := w.taken
  rw [unqueued] at hunqueued
  rw [took] at htaken
  refine w.access (not_orphaned_of_holds (caller_holds ?_)) (not_orphaned_of_holds (caller_holds ?_)) hcb
    ?_ rfl (deletes'.trans deletes.symm) rfl ?_ ?_ w.released
  · rw [holds]
    decide
  · exact ne_of_eq_of_ne holds' (by decide)
  · exact congrArg (· + s.event.holds) (holds'.trans holds.symm)
  · exact unqueued' ▸ hunqueued
  · exact took' ▸ htaken

/-- The caller drops its reference. -/
theorem Owned.callerUnref (w : Owned s) {e : Nat} (hs : s.caller = .unref e) : Owned (s.callerUnref e) := by
  obtain ⟨holds, -, unqueued, took⟩ := CallerPc.waits_spec s.caller (by rw [hs]; rfl) s.timeout
  have alive : s.orphaned = false := not_orphaned_of_holds (caller_holds (by rw [holds]; decide))
  have hevent : s.event.deletes = false := by
    apply Bool.eq_false_iff.mpr
    intro hd
    rw [(w.ended_of_deletes (Or.inr hd)).2] at alive
    cases alive
  have hunqueued := w.unqueued
  have htaken := w.taken
  have hholds : s.event.holds + 1 = s.holds := by rw [Enqueue.holds, holds, Nat.add_comm]
  rw [unqueued] at hunqueued
  rw [took] at htaken
  have heq : s.callerUnref e = { s with
      cb := { s.cb with nrefs := s.cb.nrefs - 1 }
      caller := if s.cb.nrefs ≤ 1 then .deleting e else .done (.answered e)
      log := .access :: s.log } := by
    by_cases hlast : s.cb.nrefs ≤ 1 <;>
      simp [Enqueue.callerUnref, Enqueue.twapiCallbackUnref, Enqueue.access, hlast]
  rw [heq]
  refine w.unref alive rfl ?_ rfl ?_ ?_ ?_ ?_ w.released
  · rw [← hholds, Enqueue.holds]
    split <;> simp [CallerPc.holds]
  · split <;> rfl
  · by_cases hlast : s.cb.nrefs ≤ 1 <;> simp [CallerPc.deletes, hevent, hlast]
  · split <;> exact hunqueued
  · split <;> exact htaken

theorem Owned.callerStep (w : Owned s) (h : s.twapiEnqueueCallback = some t) : Owned t := by
  unfold Enqueue.twapiEnqueueCallback at h
  cases hs : s.caller with
  | start =>
    simp only [hs] at h
    split at h <;> cases h
    exact w.move (by rw [hs]; rfl) rfl (by rw [hs]; rfl) (by rw [hs]; rfl) (by rw [hs]; rfl)
      (by rw [hs]; rfl)
  | method =>
    simp only [hs] at h
    split at h
    · cases h
      exact w.move (by rw [hs]; rfl) rfl (by rw [hs]; rfl) (by rw [hs]; rfl) (by rw [hs]; rfl)
        (by rw [hs]; rfl)
    · cases h
      exact w.move (by rw [hs]; rfl) rfl (by rw [hs]; rfl) (by rw [hs]; rfl) (by rw [hs]; rfl)
        (by rw [hs]; rfl)
  | ref =>
    simp only [hs] at h
    cases h
    exact w.ref hs
  | queue =>
    simp only [hs] at h
    cases h
    exact w.queue hs
  | answered =>
    simp only [hs] at h
    cases h
    unfold Enqueue.answered
    split
    · exact w.keep rfl (by rw [hs]; rfl) rfl
    · exact w.keep rfl (by rw [hs]; rfl) rfl
  | owned e =>
    simp only [hs] at h
    cases h
    exact w.keep rfl (by rw [hs]; rfl) rfl
  | unref e =>
    simp only [hs] at h
    cases h
    exact w.callerUnref hs
  | failing e | deleting e =>
    simp only [hs] at h
    cases h
    have hdeletes : s.caller.deletes = true := by rw [hs]; rfl
    have hunqueued := w.unqueued
    have htaken := w.taken
    rw [hs] at hunqueued htaken
    refine w.delete (.inl hdeletes) rfl ?_ rfl ?_ ⟨rfl, w.deletes_alone hdeletes⟩ hunqueued htaken w.released
    · rw [holds, holds, hs]
      rfl
    · rw [hs]
      rfl
  | wait | done r =>
    simp only [hs] at h
    cases h

theorem Owned.wait (w : Owned s) (hs : s.caller = .wait) {r : WaitResult} (h : s.wait r = some t) :
    Owned t := by
  cases r with
  | object0 =>
    simp only [Enqueue.wait] at h
    split at h <;> cases h
    exact w.keep rfl (by rw [hs]; rfl) rfl
  | timeout =>
    cases h
    exact w.keep (show s.cb.nrefs = s.cb.nrefs from rfl) (by rw [hs]; rfl) rfl
  | failed e =>
    cases h
    exact w.keep (show s.cb.nrefs = s.cb.nrefs from rfl) (by rw [hs]; rfl) rfl

/-! ### The interpreter's thread -/

/-- It goes on without dropping its reference. -/
theorem Owned.proceed (w : Owned s) {pc : EventPc} {released : Nat} (hcb : cb.nrefs = s.cb.nrefs)
    (holds : s.event.holds = 1) (holds' : pc.holds = 1) (hreleased : released = pc.released.toNat) :
    Owned { s with cb := cb, event := pc, released := released }.access := by
  have known : ∀ {pc : EventPc}, pc.holds = 1 → pc.deletes = false ∧ pc ≠ .none := by
    intro pc hpc
    cases pc with
    | callback | signal | release | detach | unref => exact ⟨rfl, nofun⟩
    | none | deleting | done => cases hpc
  obtain ⟨deletes, queued⟩ := known holds
  obtain ⟨deletes', queued'⟩ := known holds'
  refine w.access (not_orphaned_of_holds (event_holds ?_)) (not_orphaned_of_holds (event_holds ?_)) hcb
    ?_ rfl rfl (deletes'.trans deletes.symm) ?_ w.taken hreleased
  · rw [holds]
    decide
  · exact ne_of_eq_of_ne holds' (by decide)
  · exact congrArg (s.caller.holds s.timeout + ·) (holds'.trans holds.symm)
  · exact ⟨fun h => absurd (w.unqueued.mp h) queued, fun h => absurd h queued'⟩

theorem CallerPc.unqueued_of_fresh (h : pc.fresh = true) : pc.unqueued = true := by
  cases pc with
  | done r => cases r <;> first | rfl | cases h
  | _ => first | rfl | cases h

theorem Owned.eventUnref (w : Owned s) (hs : s.event = .unref) : Owned s.eventUnref := by
  have alive : s.orphaned = false := not_orphaned_of_holds (event_holds (by rw [hs]; decide))
  have hcaller : s.caller.deletes = false := by
    apply Bool.eq_false_iff.mpr
    intro hd
    rw [(w.ended_of_deletes (Or.inl hd)).2] at alive
    cases alive
  have hqueued : s.caller.unqueued = false := by
    apply Bool.eq_false_iff.mpr
    intro hq
    rw [w.unqueued.mp hq] at hs
    cases hs
  have hreleased : s.released = 1 := by rw [w.released, hs]; rfl
  have hholds : s.caller.holds s.timeout + 1 = s.holds := by rw [holds, hs]; rfl
  have hknown : s.caller.fresh = false := by
    apply Bool.eq_false_iff.mpr
    intro hf
    rw [CallerPc.unqueued_of_fresh hf] at hqueued
    cases hqueued
  have heq : s.eventUnref = { s with
      cb := { s.cb with nrefs := s.cb.nrefs - 1 }
      event := if s.cb.nrefs ≤ 1 then .deleting else .done
      log := .access :: s.log } := by
    by_cases hlast : s.cb.nrefs ≤ 1 <;>
      simp [Enqueue.eventUnref, Enqueue.twapiCallbackUnref, Enqueue.access, hlast]
  rw [heq]
  refine w.unref alive rfl ?_ rfl hknown ?_ ?_ w.taken ?_
  · rw [← hholds]
    split <;> rfl
  · by_cases hlast : s.cb.nrefs ≤ 1 <;> simp [EventPc.deletes, hcaller, hlast]
  · split <;> simp [hqueued]
  · split <;> exact hreleased

theorem Owned.eventStep (w : Owned s) (h : s.twapiTclEventProc = some t) : Owned t := by
  have hreleased := w.released
  unfold Enqueue.twapiTclEventProc at h
  cases hs : s.event with
  | signal =>
    simp only [hs] at h
    cases h
    rw [hs] at hreleased
    exact w.proceed rfl (by rw [hs]; rfl) rfl hreleased
  | release =>
    simp only [hs] at h
    cases h
    rw [hs] at hreleased
    exact w.proceed (show s.cb.nrefs = s.cb.nrefs from rfl) (by rw [hs]; rfl) rfl (congrArg (· + 1) hreleased)
  | detach =>
    simp only [hs] at h
    cases h
    rw [hs] at hreleased
    exact w.proceed rfl (by rw [hs]; rfl) rfl hreleased
  | unref =>
    simp only [hs] at h
    cases h
    exact w.eventUnref hs
  | deleting =>
    simp only [hs] at h
    cases h
    have hdeletes : s.event.deletes = true := by rw [hs]; rfl
    have hcaller : s.caller.deletes = false := by
      apply Bool.eq_false_iff.mpr
      intro hc
      rw [w.deletes_alone hc] at hdeletes
      cases hdeletes
    have hqueued : s.caller.unqueued = false := by
      apply Bool.eq_false_iff.mpr
      intro hq
      rw [w.unqueued.mp hq] at hs
      cases hs
    rw [hs] at hreleased
    refine w.delete (.inr hdeletes) rfl ?_ rfl rfl ⟨hcaller, rfl⟩ ?_ w.taken hreleased
    · rw [holds, holds, hs]
      rfl
    · exact ⟨fun h => absurd (hqueued.symm.trans h) (by decide), nofun⟩
  | none | callback | done =>
    simp only [hs] at h
    cases h

/-! ### Every step -/

theorem owned_step {a : Label ρ} (w : Owned s) (h : s.step a = some t) : Owned t := by
  cases a with
  | createEvent error =>
    simp only [step] at h
    split at h <;> cases h
    rename_i hs
    exact w.createEvent hs.1 error
  | caller => exact w.callerStep h
  | wait r =>
    simp only [step] at h
    split at h
    · rename_i hs
      exact w.wait hs h
    · cases h
  | callback ok winerr response =>
    simp only [step] at h
    split at h <;> cases h
    rename_i hs
    have hreleased := w.released
    rw [hs] at hreleased
    exact w.proceed rfl (by rw [hs]; rfl) rfl hreleased
  | event => exact w.eventStep h

end Moves

/-! ### Runs -/

/-- Both threads are done with the callback: the caller has returned, and the
event was never queued or has been handled. -/
def Enqueue.Finished (s : Enqueue ρ) : Prop :=
  (∃ r, s.caller = .done r) ∧ (s.event = .none ∨ s.event = .done)

/-- The callback is deleted exactly once and not touched afterwards, and the
reference to the context is dropped exactly once. -/
structure Enqueue.Sound (s : Enqueue ρ) : Prop where
  clean : Clean s.log
  deleted : s.Finished → deletions s.log = 1
  context : s.released ≤ s.taken ∧ s.taken ≤ 1
  released : s.Finished → s.released = s.taken

/-- A supported way of queueing, and a wait that is satisfied. -/
def Answered (s : Enqueue ρ) : Label ρ → Prop
  | .caller => s.caller = .method → s.method = .direct
  | .wait r => r = .object0
  | _ => True

instance [DecidableEq ρ] (s : Enqueue ρ) (a : Label ρ) : Decidable (Answered s a) := by
  unfold Answered
  split <;> infer_instance

section Runs

variable {G : Enqueue ρ → Label ρ → Prop} {s t : Enqueue ρ}

/-- The ownership invariant holds in every run, also if the wait is not satisfied. -/
theorem reaches_owned (run : (enqueueMachine ρ).Reaches G s) : Owned s := by
  refine run.invariant (P := Owned) ?_ fun s a t w _ h => owned_step w h
  rintro s ⟨method, timeout, wantsResponse, rfl⟩
  exact .start method timeout wantsResponse

theorem CallerPc.took_of_queued {pc : CallerPc} (h : pc.unqueued = false) : pc.took = true := by
  cases pc with
  | done r => exact congrArg (!·) h
  | _ => first | rfl | cases h

/-- Once the event is handled the reference to the context is dropped, and not before. -/
theorem Owned.context (w : Owned s) : s.released ≤ s.taken ∧ s.taken ≤ 1 := by
  rw [w.released, w.taken]
  refine ⟨?_, Bool.toNat_le _⟩
  cases hr : s.event.released with
  | false => exact Nat.zero_le _
  | true =>
    have hqueued : s.caller.unqueued = false := by
      apply Bool.eq_false_iff.mpr
      intro hq
      rw [w.unqueued.mp hq] at hr
      cases hr
    exact Nat.le_of_eq (congrArg Bool.toNat (CallerPc.took_of_queued hqueued)).symm

theorem Owned.released_of_finished (w : Owned s) (h : s.Finished) : s.released = s.taken := by
  obtain ⟨⟨r, hr⟩, hevent | hevent⟩ := h
  · have hearly : r.early = true := by
      have hunqueued := w.unqueued.mpr hevent
      rw [hr] at hunqueued
      exact hunqueued
    rw [w.released, w.taken, hevent, hr, CallerPc.took, hearly]
    rfl
  · have hqueued : s.caller.unqueued = false := by
      apply Bool.eq_false_iff.mpr
      intro hq
      rw [w.unqueued.mp hq] at hevent
      cases hevent
    rw [w.released, w.taken, hevent, CallerPc.took_of_queued hqueued]
    rfl

/-- Without answer: the method is not supported, or the wait was not satisfied. -/
def CallerPc.gaveUp : CallerPc → Bool
  | .done .unsupported | .done (.abandoned _) => true
  | _ => false

theorem Owned.deleted_of_finished (w : Owned s) (h : s.Finished) (answered : s.caller.gaveUp = false) :
    deletions s.log = 1 := by
  obtain ⟨⟨r, hr⟩, hevent⟩ := h
  have hevent : s.event.holds = 0 ∧ s.event.deletes = false := by
    rcases hevent with h | h
    · rw [h]
      exact ⟨rfl, rfl⟩
    · rw [h]
      exact ⟨rfl, rfl⟩
  have hcaller : s.caller.holds s.timeout = 0 ∧ s.caller.fresh = false ∧ s.caller.deletes = false := by
    rw [hr] at answered ⊢
    cases r <;> first | exact ⟨rfl, rfl, rfl⟩ | cases answered
  have horphaned : s.orphaned = true := by
    simp [orphaned, holds, hcaller.1, hcaller.2.1, hevent.1]
  have hended := w.ended
  rw [Enqueue.ended, hcaller.2.2, hevent.2, horphaned] at hended
  exact hended

/-- A caller that was answered does not give up. -/
theorem not_gaveUp_step {a : Label ρ} (hs : s.caller.gaveUp = false) (answered : Answered s a)
    (h : s.step a = some t) : t.caller.gaveUp = false := by
  cases a with
  | createEvent error =>
    simp only [step] at h
    split at h <;> cases h
    cases error <;> rfl
  | caller =>
    simp only [step, twapiEnqueueCallback] at h
    cases hpc : s.caller with
    | start =>
      simp only [hpc] at h
      split at h <;> cases h
      rfl
    | method =>
      simp only [hpc, answered hpc] at h
      cases h
      rfl
    | ref | owned e | failing e | deleting e =>
      simp only [hpc] at h
      cases h
      rfl
    | queue =>
      simp only [hpc] at h
      cases h
      unfold Enqueue.queue
      dsimp only
      split <;> rfl
    | answered =>
      simp only [hpc] at h
      cases h
      unfold Enqueue.answered Enqueue.access
      dsimp only
      split <;> rfl
    | unref e =>
      simp only [hpc] at h
      cases h
      unfold Enqueue.callerUnref
      dsimp only
      split <;> rfl
    | wait | done r =>
      simp only [hpc] at h
      cases h
  | wait r =>
    obtain rfl : r = .object0 := answered
    simp only [step, wait] at h
    split at h
    · split at h <;> cases h
      rfl
    · cases h
  | callback ok winerr response =>
    simp only [step] at h
    split at h <;> cases h
    exact hs
  | event =>
    simp only [step, twapiTclEventProc] at h
    cases hpc : s.event with
    | signal | release | detach | deleting | unref =>
      simp only [hpc] at h
      cases h
      exact hs
    | none | callback | done =>
      simp only [hpc] at h
      cases h

theorem reaches_not_gaveUp (run : (enqueueMachine ρ).Reaches Answered s) : s.caller.gaveUp = false := by
  refine run.invariant (P := fun s => s.caller.gaveUp = false) ?_ fun s a t hs ha h => not_gaveUp_step hs ha h
  rintro s ⟨method, timeout, wantsResponse, rfl⟩
  rfl

/-! ### The main result -/

/-- If the wait is satisfied, the callback is deleted exactly once after both
threads are done with it, in any order of their steps. -/
theorem reaches_sound (run : (enqueueMachine ρ).Reaches Answered s) : s.Sound := by
  have w := reaches_owned run
  exact {
    clean := w.clean
    deleted := fun h => w.deleted_of_finished h (reaches_not_gaveUp run)
    context := w.context
    released := w.released_of_finished }

/-- The caller is answered before the interpreter's thread drops its reference. -/
def answeredFirst : List (Label Nat) :=
  [.createEvent none, .caller, .caller, .caller, .callback true 0 (some 7), .event, .wait .object0,
    .caller, .caller, .caller, .event, .event, .event, .event]

theorem reaches_sound_answered : ∃ s : Enqueue Nat, (s.Finished ∧ s.cb.winerr = 0) ∧ s.Sound := by
  obtain ⟨s, run, hcaller, hevent, hwinerr⟩ := Machine.Reaches.exists_of_run (M := enqueueMachine Nat)
    (G := Answered) answeredFirst
    (fun s => s.caller = .done (.answered 0) ∧ s.event = .done ∧ s.cb.winerr = 0)
    ⟨.direct, 100, true, rfl⟩ (by decide)
  exact ⟨s, ⟨⟨⟨_, hcaller⟩, .inr hevent⟩, hwinerr⟩, reaches_sound run⟩

/-- The wait times out, and the event is handled later. -/
def timedOut : List (Label Nat) :=
  [.createEvent none, .caller, .caller, .caller, .wait .timeout, .callback true 0 (some 7), .event,
    .event, .event, .event]

/-- The reference of the caller is never dropped, so nobody deletes the callback. -/
theorem timed_out_leaks : ¬ ∀ s, (enqueueMachine Nat).Reachable s → s.Sound := by
  intro claim
  obtain ⟨s, run, hcaller, hevent, hlog⟩ := Machine.Reaches.exists_of_run (M := enqueueMachine Nat)
    (G := fun _ _ => True) timedOut
    (fun s => s.caller = .done (.abandoned waitTimeout) ∧ s.event = .done ∧ deletions s.log = 0)
    ⟨.direct, 100, true, rfl⟩ (by decide)
  have hdeleted := (claim s run).deleted ⟨⟨_, hcaller⟩, .inr hevent⟩
  rw [hlog] at hdeleted
  cases hdeleted

end Runs

end Twapi.Async
