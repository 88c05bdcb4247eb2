import Twapi.DirMonitor.Model

/-!
The life of a directory monitor.

* `Live`, `Closed` — a monitor in the list, and one that was shut down, with the number of
  callbacks that are queued for it.
* `Inv` — every monitor is one of the two, every buffer is in one place.
* `shutdown_inv`, `signaled_inv`, `rearm_inv`, `callback_inv`, `registered_inv` — the steps.
-/

namespace Twapi.DirMonitor

open Lib List State

/-! ### One monitor -/

/-- The buffer that a monitor holds. -/
def TwapiDirectoryMonitorContext.buffers (m : TwapiDirectoryMonitorContext) : List Nat :=
  (m.iobP.map (·.id)).toList

def registeredLog : List Act :=
  [.acquire .threadPoolRegistry, .link, .acquire .completionEvent, .acquire .directory]

def closedLog : List Act :=
  [.release .completionEvent, .release .directory, .unlink, .release .threadPoolRegistry] ++
    registeredLog

/-- In the list, with `q` callbacks that are queued. -/
structure Live (m : TwapiDirectoryMonitorContext) (q : Nat) : Prop where
  ticP : m.ticP = true
  handles : m.handles = fun _ => true
  nrefs : m.nrefs = 2 + q
  log : m.log = registeredLog
  reading : ∀ iob, m.iobP = some iob → iob.hEvent = true
  rearming : m.rearming = true → m.iobP = none

/-- Shut down, with `q` callbacks that are queued. It is deleted after the last. -/
structure Closed (m : TwapiDirectoryMonitorContext) (q : Nat) : Prop where
  ticP : m.ticP = false
  handles : m.handles = fun _ => false
  nrefs : m.nrefs = q
  log : m.log = if q = 0 then .delete :: closedLog else closedLog
  rearming : m.rearming = false
  buffer : q = 0 → m.iobP = none

section Monitor

variable {m : TwapiDirectoryMonitorContext} {q : Nat}

open TwapiDirectoryMonitorContext

theorem unref_buffers (m : TwapiDirectoryMonitorContext) (decr : Int) :
    (m.unref decr).2 ++ (m.unref decr).1.buffers = m.buffers := by
  rw [unref]
  by_cases last : m.nrefs ≤ decr
  · simp only [if_pos last]
    exact append_nil _
  · simp only [if_neg last]
    rfl

/-- What the shutdown makes of a monitor whose read is in progress, before the references are
dropped. -/
def shutDown (m : TwapiDirectoryMonitorContext) (iob : Buffer) : TwapiDirectoryMonitorContext :=
  { m with
    ticP := false
    handles := fun _ => false
    iobP := some { iob with hEvent := false }
    log := closedLog }

theorem Live.shutdown_eq (live : Live m q) {iob : Buffer} (reading : m.iobP = some iob) :
    m.shutdown true = (shutDown m iob).unref 2 := by
  obtain ⟨ticP, handles, nrefs, iobP, rearming, log⟩ := m
  obtain ⟨id, hEvent⟩ := iob
  have valid : handles = fun _ => true := live.handles
  have logged : log = registeredLog := live.log
  have started : hEvent = true := live.reading ⟨id, hEvent⟩ reading
  cases reading
  subst valid logged started
  have released : (fun h' => if h' = Handle.completionEvent then false
      else if h' = .directory then false
      else if h' = .threadPoolRegistry then false else true) = fun _ => false := by
    funext h
    cases h <;> rfl
  simp only [TwapiDirectoryMonitorContext.shutdown, closeEvent, release, if_true, reduceCtorEq,
    if_false, released]
  rfl

theorem Live.shutdown (live : Live m q) (settled : m.rearming = false)
    (reading : m.iobP.isSome = true) : Closed (m.shutdown true).1 q := by
  obtain ⟨iob, reading⟩ := Option.isSome_iff_exists.mp reading
  rw [live.shutdown_eq reading, unref]
  have nrefs : (shutDown m iob).nrefs = 2 + q := live.nrefs
  by_cases last : q = 0
  · rw [if_pos (by omega)]
    refine ⟨rfl, rfl, ?_, ?_, settled, fun _ => rfl⟩
    · change (shutDown m iob).nrefs + -2 = q
      omega
    · rw [if_pos last]
      rfl
  · rw [if_neg (by omega)]
    refine ⟨rfl, rfl, ?_, ?_, settled, fun none_left => absurd none_left last⟩
    · change (shutDown m iob).nrefs + -2 = q
      omega
    · rw [if_neg last]
      rfl

theorem Live.shutdown_buffers (live : Live m q) (reading : m.iobP.isSome = true) :
    (m.shutdown true).2 ++ (m.shutdown true).1.buffers = m.buffers := by
  obtain ⟨iob, reading⟩ := Option.isSome_iff_exists.mp reading
  rw [live.shutdown_eq reading, unref_buffers, buffers, buffers, reading]
  rfl

/-- A callback has run. -/
theorem Live.unref (live : Live m (q + 1)) : Live (m.unref 1).1 q := by
  have nrefs := live.nrefs
  rw [TwapiDirectoryMonitorContext.unref, if_neg (by omega)]
  refine ⟨live.ticP, live.handles, ?_, live.log, live.reading, live.rearming⟩
  change m.nrefs + -1 = 2 + q
  omega

theorem Closed.unref (closed : Closed m (q + 1)) : Closed (m.unref 1).1 q := by
  have nrefs := closed.nrefs
  have log := closed.log
  rw [if_neg (Nat.succ_ne_zero q)] at log
  rw [TwapiDirectoryMonitorContext.unref]
  by_cases last : q = 0
  · rw [if_pos (by omega)]
    refine ⟨closed.ticP, closed.handles, ?_, ?_, closed.rearming, fun _ => rfl⟩
    · change m.nrefs + -1 = q
      omega
    · rw [if_pos last]
      exact congrArg _ log
  · rw [if_neg (by omega)]
    refine ⟨closed.ticP, closed.handles, ?_, ?_, closed.rearming,
      fun none_left => absurd none_left last⟩
    · change m.nrefs + -1 = q
      omega
    · rw [if_neg last]
      exact log

/-- A callback is queued. -/
theorem Live.ref (live : Live m q) : Live (m.ref 1) (q + 1) where
  ticP := live.ticP
  handles := live.handles
  nrefs := by
    have nrefs := live.nrefs
    change m.nrefs + 1 = 2 + ((q + 1 : Nat) : Int)
    omega
  log := live.log
  reading := live.reading
  rearming := live.rearming

end Monitor

/-! ### All monitors -/

/-- How many callbacks are queued for a monitor. -/
def State.callbacks (s : State) (c : Nat) : Nat := s.events.countP (·.dmcP = c)

/-- How often a buffer is held by a monitor or by a callback, or was freed. -/
def State.places (s : State) (b : Nat) : Nat :=
  (s.contexts.flatMap (·.buffers)).count b + (s.events.flatMap (·.iobP.toList)).count b +
    s.freed.count b

/-- The monitor is in the list and in use, or was shut down. -/
def State.Placed (s : State) (c : Nat) (m : TwapiDirectoryMonitorContext) : Prop :=
  if c ∈ s.directoryMonitors.items then Live m (s.callbacks c) else Closed m (s.callbacks c)

structure Inv (s : State) : Prop where
  count : s.directoryMonitors.count = s.directoryMonitors.items.length
  nodup : s.directoryMonitors.items.Nodup
  placed : ∀ c m, s.contexts[c]? = some m → s.Placed c m
  listed : ∀ c ∈ s.directoryMonitors.items, c < s.contexts.length
  queued : ∀ cb ∈ s.events, cb.dmcP < s.contexts.length
  data : s.pval = false → s.mode = .gone ∧ s.directoryMonitors.items = []
  ledger : ∀ b, s.places b = if b < s.next then 1 else 0

variable {c : Nat}

/-- A step that concerns one monitor. -/
theorem Inv.change {s t : State} {m m' : TwapiDirectoryMonitorContext} (inv : Inv s)
    (found : s.contexts[c]? = some m) (contexts : t.contexts = s.contexts.modify c fun _ => m')
    (list : t.directoryMonitors = s.directoryMonitors ∨
      c ∈ s.directoryMonitors.items ∧ t.directoryMonitors = s.directoryMonitors.remove c)
    (events : ∀ cb ∈ t.events, cb ∈ s.events ∨ cb.dmcP = c)
    (callbacks : ∀ d, d ≠ c → t.callbacks d = s.callbacks d) (placed : t.Placed c m')
    (pval : t.pval = s.pval) (mode : t.mode = s.mode)
    (ledger : ∀ b, t.places b + (if b < s.next then 1 else 0) =
      s.places b + if b < t.next then 1 else 0) : Inv t := by
  have length : t.contexts.length = s.contexts.length := by rw [contexts, length_modify]
  have elsewhere : ∀ d, d ≠ c →
      (d ∈ t.directoryMonitors.items ↔ d ∈ s.directoryMonitors.items) := by
    intro d other
    rcases list with same | ⟨_, removed⟩
    · rw [same]
    · rw [removed]
      exact mem_erase_of_ne other
  have fewer : ∀ d ∈ t.directoryMonitors.items, d ∈ s.directoryMonitors.items := by
    intro d mem
    rcases list with same | ⟨_, removed⟩
    · rwa [same] at mem
    · rw [removed] at mem
      exact mem_of_mem_erase mem
  refine ⟨?_, ?_, ?_, ?_, ?_, ?_, ?_⟩
  · rcases list with same | ⟨here, removed⟩
    · rw [same]
      exact inv.count
    · have positive := length_pos_of_mem here
      have count := inv.count
      rw [removed, ZList.remove]
      simp only [length_erase_of_mem here]
      omega
  · rcases list with same | ⟨_, removed⟩
    · rw [same]
      exact inv.nodup
    · rw [removed]
      exact inv.nodup.erase c
  · intro d m'' found'
    rw [contexts] at found'
    rcases lookup_modify found' with ⟨rfl, _, _, rfl⟩ | ⟨other, was⟩
    · exact placed
    · have before := inv.placed d m'' was
      rw [State.Placed] at before ⊢
      rwa [callbacks d other, if_congr (elsewhere d other) rfl rfl]
  · intro d mem
    rw [length]
    exact inv.listed d (fewer d mem)
  · intro cb mem
    rw [length]
    rcases events cb mem with before | here
    · exact inv.queued cb before
    · rw [here]
      exact (List.getElem?_eq_some_iff.mp found).1
  · intro gone
    obtain ⟨left, empty⟩ := inv.data (pval ▸ gone)
    refine ⟨mode.trans left, eq_nil_iff_forall_not_mem.mpr fun d mem => ?_⟩
    have none_left := fewer d mem
    rw [empty] at none_left
    cases none_left
  · intro b
    have before := inv.ledger b
    have after := ledger b
    omega

variable {m : TwapiDirectoryMonitorContext} {s : State}

theorem Inv.live (inv : Inv s) (found : s.contexts[c]? = some m)
    (listed : c ∈ s.directoryMonitors.items) :
    Live m (s.callbacks c) := by
  have placed := inv.placed c m found
  rwa [State.Placed, if_pos listed] at placed

/-- What was shut down has no interpreter context. -/
theorem Inv.mem_of_ticP (inv : Inv s) (found : s.contexts[c]? = some m) (ticP : m.ticP = true) :
    c ∈ s.directoryMonitors.items := by
  by_contra unlisted
  have placed := inv.placed c m found
  rw [State.Placed, if_neg unlisted] at placed
  exact Bool.false_ne_true (placed.ticP.symm.trans ticP)

theorem Inv.pval (inv : Inv s) (listed : c ∈ s.directoryMonitors.items) :
    s.pval = true := by
  by_contra gone
  rw [(inv.data (Bool.eq_false_iff.mpr gone)).2] at listed
  cases listed

/-! ### Steps -/

section Steps

variable {s : State} {c : Nat} {m : TwapiDirectoryMonitorContext}

theorem places_put (found : s.contexts[c]? = some m)
    (r : TwapiDirectoryMonitorContext × List Nat) (b : Nat) :
    (s.put c r).places b + m.buffers.count b =
      s.places b + (r.1.buffers.count b + r.2.count b) := by
  have changed : _ + m.buffers.count b = _ + r.1.buffers.count b :=
    count_flatMap_modify (f := (·.buffers)) (g := fun _ => r.1) found b
  simp only [places, State.put, count_append]
  omega

variable {r : TwapiDirectoryMonitorContext × List Nat} {m' : TwapiDirectoryMonitorContext}

/-- What a monitor gives up is freed. -/
theorem places_put_eq (found : s.contexts[c]? = some m) (conserved : r.2 ++ r.1.buffers = m.buffers)
    (b : Nat) : (s.put c r).places b = s.places b := by
  have put := places_put found r b
  have same : r.2.count b + r.1.buffers.count b = m.buffers.count b := by
    rw [← count_append, conserved]
  omega

theorem shutdown_inv (inv : Inv s) (found : s.contexts[c]? = some m)
    (listed : c ∈ s.directoryMonitors.items) (settled : m.rearming = false)
    (reading : m.iobP.isSome = true) : Inv (twapiShutdownDirectoryMonitor s c m) := by
  have live := inv.live found listed
  have linked : (m.ticP && s.pval) = true := by rw [live.ticP, inv.pval listed]; rfl
  rw [twapiShutdownDirectoryMonitor, linked]
  have gone : c ∉ s.directoryMonitors.items.erase c :=
    fun mem => (inv.nodup.mem_erase_iff.mp mem).1 rfl
  refine inv.change found rfl (.inr ⟨listed, rfl⟩) (fun cb mem => .inl mem) (fun _ _ => rfl) ?_ rfl
    rfl fun b => congrArg (· + _) ?_
  · rw [State.Placed]
    exact (if_neg gone).symm ▸ live.shutdown settled reading
  · exact places_put_eq (s := { s with directoryMonitors := s.directoryMonitors.remove c }) found
      (live.shutdown_buffers reading) b

/-- A callback is queued for a monitor in the list. -/
theorem queue_inv {t : State} {iobP : Option Nat} (inv : Inv s) (found : s.contexts[c]? = some m)
    (listed : c ∈ s.directoryMonitors.items)
    (contexts : t.contexts = s.contexts.modify c fun _ => m')
    (list : t.directoryMonitors = s.directoryMonitors) (events : t.events = s.events ++ [⟨c, iobP⟩])
    (live : Live m' (s.callbacks c + 1)) (pval : t.pval = s.pval) (mode : t.mode = s.mode)
    (ledger : ∀ b, t.places b + (if b < s.next then 1 else 0) =
      s.places b + if b < t.next then 1 else 0) : Inv t := by
  have callbacks : ∀ d, t.callbacks d = s.callbacks d + if c = d then 1 else 0 := by
    intro d
    rw [callbacks, events, countP_append, countP_singleton]
    simp only [decide_eq_true_eq, callbacks]
  refine inv.change found contexts (.inl list) ?_ ?_ ?_ pval mode ledger
  · intro cb mem
    rw [events] at mem
    rcases mem_append.mp mem with before | new
    · exact .inl before
    · exact .inr (by rw [mem_singleton.mp new])
  · intro d other
    rw [callbacks, if_neg (Ne.symm other)]
    rfl
  · rw [State.Placed, list, if_pos listed, callbacks, if_pos rfl]
    exact live

theorem places_queue (s : State) (cb : Callback) (b : Nat) :
    ({ s with events := s.events ++ [cb] } : State).places b =
      s.places b + cb.iobP.toList.count b := by
  simp only [places, flatMap_append, count_append, flatMap_singleton]
  omega

theorem signaled_inv (inv : Inv s) (found : s.contexts[c]? = some m)
    (listed : c ∈ s.directoryMonitors.items) {iob : Buffer} (reading : m.iobP = some iob)
    (result : Overlapped) : Inv (signaled s c m iob result) := by
  have live := (inv.live found listed).ref
  cases result with
  | incomplete => exact inv
  | error =>
    refine queue_inv inv found listed rfl rfl rfl
      ⟨live.ticP, live.handles, live.nrefs, live.log, nofun, fun _ => rfl⟩ rfl rfl fun b => ?_
    refine congrArg (· + _) ((places_queue _ _ b).trans ?_)
    exact (places_put_eq found (append_nil _) b)
  | ok =>
    refine queue_inv inv found listed rfl rfl rfl
      ⟨live.ticP, live.handles, live.nrefs, live.log, nofun, fun _ => rfl⟩ rfl rfl fun b => ?_
    refine congrArg (· + _) ((places_queue _ _ b).trans ?_)
    have put := places_put found ({ m.ref 1 with iobP := none, rearming := true }, []) b
    have moved : m.buffers = [iob.id] := by
      rw [TwapiDirectoryMonitorContext.buffers, reading]
      rfl
    rw [moved] at put
    exact put

/-- A buffer that is new. -/
theorem next_place (b next : Nat) :
    ([next] : List Nat).count b + (if b < next then 1 else 0) = if b < next + 1 then 1 else 0 := by
  rw [count_singleton]
  by_cases new : b = next
  · subst new
    simp
  · by_cases old : b < next
    · simp [old, Nat.lt_succ_of_lt old, Ne.symm new]
    · simp [old, show ¬ b < next + 1 by omega, Ne.symm new]

/-- A new buffer is held by a monitor that held none, or freed. -/
theorem places_next (found : s.contexts[c]? = some m) (held : m.buffers = [])
    (new : r.2 ++ r.1.buffers = [s.next]) (b : Nat) :
    (({ s with next := s.next + 1 } : State).put c r).places b +
      (if b < s.next then 1 else 0) = s.places b + if b < s.next + 1 then 1 else 0 := by
  have put : _ + m.buffers.count b = s.places b + _ :=
    places_put (s := { s with next := s.next + 1 }) found r b
  have one : r.2.count b + r.1.buffers.count b = ([s.next] : List Nat).count b := by
    rw [← count_append, new]
  rw [held, count_nil] at put
  rw [← next_place b s.next]
  omega

theorem rearm_inv (inv : Inv s) (found : s.contexts[c]? = some m)
    (listed : c ∈ s.directoryMonitors.items) (rearming : m.rearming = true) (ok : Bool) :
    Inv (rearm s c m ok) := by
  have live := inv.live found listed
  have unread := live.rearming rearming
  have held : m.buffers = [] := by
    rw [TwapiDirectoryMonitorContext.buffers, unread]
    rfl
  cases ok with
  | true =>
    have result : rearm s c m true = { s with next := s.next + 1 }.put c
        ({ m with rearming := false, iobP := some ⟨s.next, true⟩ }, []) := by
      simp only [rearm, TwapiDirectoryMonitorContext.initiateRead, unread]
      rfl
    rw [result]
    refine inv.change found rfl (.inl rfl) (fun cb mem => .inl mem) (fun _ _ => rfl) ?_ rfl rfl
      fun b => ?_
    · rw [State.Placed]
      refine (if_pos listed).symm ▸
        ⟨live.ticP, live.handles, live.nrefs, live.log, ?_, fun still => nomatch still⟩
      rintro iob ⟨⟩
      rfl
    · exact places_next found held rfl b
  | false =>
    have live' := live.ref
    have result : rearm s c m false = { { s with next := s.next + 1 }.put c
        ({ m.ref 1 with rearming := false, iobP := none }, [s.next]) with
        events := s.events ++ [⟨c, none⟩] } := by
      simp only [rearm, TwapiDirectoryMonitorContext.initiateRead, unread]
      rfl
    rw [result]
    refine queue_inv inv found listed rfl rfl rfl
      ⟨live'.ticP, live'.handles, live'.nrefs, live'.log, nofun, fun _ => rfl⟩ rfl rfl
      fun b => ?_
    have next := places_next found held
      (r := ({ m.ref 1 with rearming := false, iobP := none }, [s.next])) rfl b
    exact (congrArg (· + _) (places_queue _ ⟨c, none⟩ b)).trans next

variable {cb : Callback}

theorem callbacks_erase (queued : cb ∈ s.events) (d : Nat) :
    s.callbacks d =
      (s.events.erase cb).countP (·.dmcP = d) + if cb.dmcP = d then 1 else 0 := by
  rw [callbacks, (perm_cons_erase queued).countP_eq, countP_cons]
  simp only [decide_eq_true_eq]

/-- A callback is dequeued and its buffer freed. -/
def State.dequeue (s : State) (cb : Callback) : State :=
  { s with events := s.events.erase cb, freed := cb.iobP.toList ++ s.freed }

theorem places_dequeue (queued : cb ∈ s.events) (b : Nat) :
    (s.dequeue cb).places b = s.places b := by
  have moved := ((perm_cons_erase queued).flatMap_right fun cb => cb.iobP.toList).count_eq b
  rw [flatMap_cons, count_append] at moved
  simp only [places, dequeue, count_append]
  omega

/-- The callback drops its reference. -/
theorem dequeue_inv {t : State} (inv : Inv s) (queued : cb ∈ s.events)
    (found : s.contexts[cb.dmcP]? = some m)
    (contexts : t.contexts = s.contexts.modify cb.dmcP fun _ => (m'.unref 1).1)
    (list : t.directoryMonitors = s.directoryMonitors ∨ cb.dmcP ∈ s.directoryMonitors.items ∧
      t.directoryMonitors = s.directoryMonitors.remove cb.dmcP)
    (events : t.events = s.events.erase cb)
    (placed : if cb.dmcP ∈ t.directoryMonitors.items then Live m' (s.callbacks cb.dmcP)
      else Closed m' (s.callbacks cb.dmcP)) (pval : t.pval = s.pval) (mode : t.mode = s.mode)
    (next : t.next = s.next) (ledger : ∀ b, t.places b = s.places b) : Inv t := by
  refine inv.change found contexts list ?_ ?_ ?_ pval mode fun b => by rw [ledger, next]
  · intro cb' mem
    rw [events] at mem
    exact .inl (mem_of_mem_erase mem)
  · intro d other
    rw [callbacks_erase queued d, if_neg (Ne.symm other), callbacks, events]
    rfl
  · have callbacks : s.callbacks cb.dmcP = t.callbacks cb.dmcP + 1 := by
      rw [callbacks_erase queued, if_pos rfl, callbacks, events]
    rw [callbacks] at placed
    rw [State.Placed]
    split at placed
    · rename_i listed
      rw [if_pos listed]
      exact placed.unref
    · rename_i unlisted
      rw [if_neg unlisted]
      exact placed.unref

theorem callback_shutdown (found : s.contexts[cb.dmcP]? = some m) (ticP : m.ticP = true)
    (deleted : s.interpDeleted = true) (pval : s.pval = true) :
    twapiDirectoryMonitorCallbackFn { s with events := s.events.erase cb } cb m =
      ({ s.dequeue cb with directoryMonitors := s.directoryMonitors.remove cb.dmcP }.put cb.dmcP
        (m.shutdown true)).put cb.dmcP ((m.shutdown true).1.unref 1) := by
  simp only [twapiDirectoryMonitorCallbackFn, ticP, deleted, twapiShutdownDirectoryMonitor, pval]
  simp [State.put, dequeue, getElem?_modify_eq, found, pval, deleted]

theorem callback_inv (inv : Inv s) (queued : cb ∈ s.events) (found : s.contexts[cb.dmcP]? = some m)
    (settled : (m.ticP && s.interpDeleted) = true → m.rearming = false)
    (reading : (m.ticP && s.interpDeleted) = true → m.iobP.isSome = true) :
    Inv (twapiDirectoryMonitorCallbackFn { s with events := s.events.erase cb } cb m) := by
  by_cases shuts : (m.ticP && s.interpDeleted) = true
  · obtain ⟨ticP, deleted⟩ := Bool.and_eq_true_iff.mp shuts
    have listed := inv.mem_of_ticP found ticP
    have live := inv.live found listed
    have gone : cb.dmcP ∉ s.directoryMonitors.items.erase cb.dmcP :=
      fun mem => (inv.nodup.mem_erase_iff.mp mem).1 rfl
    rw [callback_shutdown found ticP deleted (inv.pval listed)]
    have shut : ∀ b, ({ s.dequeue cb with
        directoryMonitors := s.directoryMonitors.remove cb.dmcP }.put cb.dmcP
          (m.shutdown true)).places b = s.places b := fun b =>
      (places_put_eq (s := { s.dequeue cb with
        directoryMonitors := s.directoryMonitors.remove cb.dmcP }) found
        (live.shutdown_buffers (reading shuts)) b).trans (places_dequeue queued b)
    refine dequeue_inv inv queued found (modify_modify_eq _ _ _ _) (.inr ⟨listed, rfl⟩) rfl
      ((if_neg gone).symm ▸ live.shutdown (settled shuts) (reading shuts)) rfl rfl rfl fun b => ?_
    refine (places_put_eq ?_ (unref_buffers _ 1) b).trans (shut b)
    simp only [State.put, dequeue, getElem?_modify_eq, found]
    rfl
  · have result : twapiDirectoryMonitorCallbackFn { s with events := s.events.erase cb } cb m =
        (s.dequeue cb).put cb.dmcP (m.unref 1) := by
      simp only [twapiDirectoryMonitorCallbackFn]
      cases ticP : m.ticP with
      | false => simp [State.put, dequeue, found]
      | true =>
        have alive : s.interpDeleted = false := by simpa [ticP] using shuts
        simp [State.put, dequeue, alive]
    rw [result]
    refine dequeue_inv inv queued found rfl (.inl rfl) rfl (inv.placed _ m found) rfl rfl rfl
      fun b => ?_
    exact (places_put_eq (s := s.dequeue cb) found (unref_buffers m 1) b).trans
      (places_dequeue queued b)

theorem prepend_eq (inv : Inv s) (c : Nat) : s.directoryMonitors.prepend c =
    some ⟨c :: s.directoryMonitors.items, s.directoryMonitors.count + 1⟩ := by
  have count := inv.count
  rw [ZList.prepend]
  cases items : s.directoryMonitors.items with
  | nil =>
    rw [items] at count
    have empty : s.directoryMonitors.count = 0 := count
    rw [if_pos empty, empty]
    rfl
  | cons d ds =>
    rw [items, length_cons] at count
    rw [if_neg (by omega), if_neg (cons_ne_nil d ds)]

theorem unallocated_callbacks (inv : Inv s) : s.callbacks s.contexts.length = 0 := by
  rw [callbacks, countP_eq_zero]
  intro cb mem here
  exact Nat.ne_of_lt (inv.queued cb mem) (of_decide_eq_true here)

/-- A registered monitor. -/
def registeredMonitor (next : Nat) : TwapiDirectoryMonitorContext where
  ticP := true
  handles _ := true
  nrefs := 2
  iobP := some ⟨next, true⟩
  rearming := false
  log := registeredLog

theorem register_eq (inv : Inv s) :
    twapiRegisterDirectoryMonitorObjCmd s ⟨true, true, true, true⟩ =
      some { s with
        contexts := s.contexts ++ [registeredMonitor s.next]
        directoryMonitors :=
          ⟨s.contexts.length :: s.directoryMonitors.items, s.directoryMonitors.count + 1⟩
        next := s.next + 1 } := by
  have valid : (fun h' => if h' = Handle.threadPoolRegistry then true
      else if h' = .completionEvent then true
      else if h' = .directory then true else false) = fun _ => true := by
    funext h
    cases h <;> rfl
  simp only [twapiRegisterDirectoryMonitorObjCmd, TwapiDirectoryMonitorContext.initiateRead,
    TwapiDirectoryMonitorContext.acquire, twapiDirectoryMonitorContextNew, Bool.not_true,
    Bool.false_eq_true, if_false, if_true, prepend_eq inv, TwapiDirectoryMonitorContext.ref, valid]
  rfl

theorem registered_inv (inv : Inv s) (mode : s.mode = .running) :
    Inv { s with
      contexts := s.contexts ++ [registeredMonitor s.next]
      directoryMonitors :=
        ⟨s.contexts.length :: s.directoryMonitors.items, s.directoryMonitors.count + 1⟩
      next := s.next + 1 } := by
  have new : s.contexts.length ∉ s.directoryMonitors.items := fun mem =>
    Nat.lt_irrefl _ (inv.listed _ mem)
  have count := inv.count
  refine ⟨?_, nodup_cons.mpr ⟨new, inv.nodup⟩, ?_, ?_, ?_, ?_, ?_⟩
  · simp only [length_cons]
    omega
  · intro c m found
    rw [State.Placed]
    rcases lookup_snoc found with ⟨rfl, rfl⟩ | old
    · have none_queued := unallocated_callbacks inv
      rw [if_pos mem_cons_self]
      rw [callbacks] at none_queued ⊢
      rw [none_queued]
      refine ⟨rfl, rfl, rfl, rfl, ?_, nofun⟩
      rintro iob ⟨⟩
      rfl
    · have inside := (List.getElem?_eq_some_iff.mp old).1
      have placed := inv.placed c m old
      rw [State.Placed] at placed
      have same : c ∈ s.contexts.length :: s.directoryMonitors.items ↔
          c ∈ s.directoryMonitors.items := by
        rw [mem_cons, or_iff_right (Nat.ne_of_lt inside)]
      exact (if_congr same rfl rfl).mpr placed
  · intro c mem
    rw [length_append, length_singleton]
    rcases mem_cons.mp mem with rfl | old
    · exact Nat.lt_succ_self _
    · exact Nat.lt_succ_of_lt (inv.listed c old)
  · intro cb mem
    rw [length_append, length_singleton]
    exact Nat.lt_succ_of_lt (inv.queued cb mem)
  · intro gone
    obtain ⟨left, _⟩ := inv.data gone
    rw [mode] at left
    cases left
  · intro b
    have before := inv.ledger b
    have fresh := next_place b s.next
    simp only [places, flatMap_append, count_append] at before ⊢
    change _ + ([s.next] : List Nat).count b + _ + _ = _
    omega

end Steps

end Twapi.DirMonitor
