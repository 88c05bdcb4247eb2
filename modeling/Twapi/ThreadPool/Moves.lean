import Twapi.Lib.Table
import Twapi.ThreadPool.Model

/-!
What a step can do to the registrations, and what holds of them in every run.

* `Move` — the changes of the id counter, the registration objects, the list and
  the event queue; `move_of_step` shows that there are no others.
* `Listed` — a registration is on the list exactly as long as its `ticP` is set;
  until then it keeps its handle and its wait, and only then callbacks run.
-/

namespace Twapi.ThreadPool

open Lib

variable {w : Nat} {s t : Pool w}

/-- A registration whose wait is registered. -/
def registered (id : BitVec w) (h : Nat) (nrefs : UInt32) : TwapiThreadPoolRegistration w :=
  ⟨some h, true, true, id, nrefs + 2, 0, 0, h⟩

/-- A registration that `RegisterWaitForSingleObject` refused. -/
def refused (id : BitVec w) (h : Nat) (nrefs : UInt32) : TwapiThreadPoolRegistration w :=
  TwapiThreadPoolRegistration.shutdown
    ((TwapiThreadPoolRegistration.ref ⟨some h, false, true, id, nrefs, 0, 0, h⟩ 2).unref 1)

/-- Whether the step takes a new id. -/
def Label.takesId : Label w → Bool
  | .register _ _ _ | .newId => true
  | .unregister _ | .fire _ | .enqueue _ _ | .dispatch _ | .deleteInterp | .cleanup | .next | .stopped =>
    false

inductive Move (s : Pool w) :
    Label w → BitVec w → List (TwapiThreadPoolRegistration w) → List Nat → List (Event w) → Prop where
  | keep {a} : a.takesId = false → Move s a s.gIdGenerator s.objs s.registrations s.events
  | newId : Move s .newId (s.gIdGenerator + 1) s.objs s.registrations s.events
  | added (h : Nat) (nrefs : UInt32) :
      Move s (.register h nrefs true) (s.gIdGenerator + 1)
        (s.objs ++ [registered (s.gIdGenerator + 1) h nrefs]) (s.objs.length :: s.registrations) s.events
  | refused (h : Nat) (nrefs : UInt32) :
      Move s (.register h nrefs false) (s.gIdGenerator + 1)
        (s.objs ++ [refused (s.gIdGenerator + 1) h nrefs]) s.registrations s.events
  | released {a} {i : Nat} {r : TwapiThreadPoolRegistration w} :
      s.objs[i]? = some r → (r.tpHandle = true → r.running = 0) →
      Move s a s.gIdGenerator (s.objs.modify i TwapiThreadPoolRegistration.shutdown)
        (if r.ticP then s.registrations.erase i else s.registrations) s.events
  | fired {i : Nat} {r : TwapiThreadPoolRegistration w} :
      s.objs[i]? = some r → r.tpHandle = true →
      Move s (.fire i) s.gIdGenerator (s.objs.modify i fun r => { r with running := r.running + 1 })
        s.registrations s.events
  | queued {i : Nat} {r : TwapiThreadPoolRegistration w} (timedOut : Bool) :
      s.objs[i]? = some r → 0 < r.running →
      Move s (.enqueue i timedOut) s.gIdGenerator
        (s.objs.modify i fun r => { r with running := r.running - 1 })
        s.registrations (s.events ++ [⟨r.id, timedOut, i⟩])
  | dispatched (k : Nat) :
      Move s (.dispatch k) s.gIdGenerator s.objs s.registrations (s.events.eraseIdx k)

/-- What a step does to the books. -/
def Pool.MovesTo (s t : Pool w) (a : Label w) : Prop :=
  Move s a t.gIdGenerator t.objs t.registrations t.events

theorem modify_length_append {α : Type} (l : List α) (a : α) (f : α → α) :
    (l ++ [a]).modify l.length f = l ++ [f a] := by
  induction l with
  | nil => rfl
  | cons b l ih => exact congrArg (b :: ·) ih

variable {a : Label w} {i : Nat}

theorem lookup_append {α : Type} {l : List α} {a b : α} (h : (l ++ [a])[i]? = some b) :
    l[i]? = some b ∨ i = l.length ∧ b = a := by
  rcases Nat.lt_trichotomy i l.length with hlt | rfl | hgt
  · rw [List.getElem?_append_left hlt] at h
    exact .inl h
  · rw [List.getElem?_concat_length] at h
    exact .inr ⟨rfl, (Option.some.inj h).symm⟩
  · have hlen : i < (l ++ [a]).length := (List.getElem?_eq_some_iff.mp h).1
    rw [List.length_append, List.length_singleton] at hlen
    omega

/-! ### The steps of the interpreter's thread -/

theorem register_ok (s : Pool w) (h : Nat) (nrefs : UInt32) :
    s.twapiThreadPoolRegister h nrefs true = { s with
      gIdGenerator := s.gIdGenerator + 1, objs := s.objs ++ [registered (s.gIdGenerator + 1) h nrefs]
      registrations := s.objs.length :: s.registrations, ticRefs := s.ticRefs + 1
      reply := .id (s.gIdGenerator + 1) } := by
  simp [Pool.twapiThreadPoolRegister, modify_length_append, registered, TwapiThreadPoolRegistration.ref]

theorem register_refused (s : Pool w) (h : Nat) (nrefs : UInt32) :
    s.twapiThreadPoolRegister h nrefs false = { s with
      gIdGenerator := s.gIdGenerator + 1, objs := s.objs ++ [refused (s.gIdGenerator + 1) h nrefs]
      reply := .registerWaitFailed } := by
  simp [Pool.twapiThreadPoolRegister, Pool.twapiThreadPoolRegistrationShutdown, Pool.release,
    modify_length_append, refused, TwapiThreadPoolRegistration.ref, TwapiThreadPoolRegistration.unref]

theorem movesTo_release (ha : a.takesId = false)
    (h : ∀ r, s.objs[i]? = some r → r.tpHandle = true → r.running = 0) :
    s.MovesTo (s.release i) a := by
  unfold Pool.MovesTo Pool.release
  cases hr : s.objs[i]? with
  | none => exact .keep ha
  | some r =>
    have moved := Move.released (a := a) hr (h r hr)
    cases hticP : r.ticP with
    | true =>
      rw [hticP] at moved
      simpa [hticP] using moved
    | false =>
      rw [hticP] at moved
      simpa [hticP] using moved

theorem movesTo_shutdown {cleaning : Bool} (ha : a.takesId = false) :
    s.MovesTo (s.twapiThreadPoolRegistrationShutdown i cleaning) a := by
  unfold Pool.twapiThreadPoolRegistrationShutdown
  split
  · exact .keep ha
  · rename_i hno
    refine movesTo_release ha fun r hr htp => absurd ?_ hno
    rw [hr]
    exact htp

theorem movesTo_stopped (h : s.stopped = some t) : s.MovesTo t .stopped := by
  unfold Pool.stopped at h
  split at h
  · rename_i i cleaning hpc
    split at h
    · rename_i hidle
      cases h
      apply movesTo_release rfl
      intro r hr _
      rw [hr] at hidle
      simpa using hidle
    · cases h
  · cases h

theorem movesTo_callback {k : Nat} (h : s.twapiThreadPoolRegistrationCallback k = some t) :
    s.MovesTo t (.dispatch k) := by
  obtain ⟨e, he, rfl⟩ := Option.map_eq_some_iff.mp h
  dsimp only
  split
  · exact .dispatched k
  · split
    · exact .dispatched k
    · exact .dispatched k

/-- There are no other changes. -/
theorem move_of_step (h : s.step a = some t) : s.MovesTo t a := by
  cases a with
  | register hd nrefs ok =>
    simp only [Pool.step] at h
    split at h <;> cases h
    cases ok with
    | true =>
      rw [register_ok]
      exact .added hd nrefs
    | false =>
      rw [register_refused]
      exact .refused hd nrefs
  | unregister id =>
    simp only [Pool.step] at h
    split at h <;> cases h
    unfold Pool.twapiThreadPoolUnregister
    split
    · exact movesTo_shutdown rfl
    · exact .keep rfl
  | newId =>
    cases h
    exact .newId
  | fire i =>
    simp only [Pool.step, Pool.fire] at h
    split at h <;> cases h
    rename_i htp
    cases hr : s.objs[i]? with
    | none =>
      rw [hr] at htp
      cases htp
    | some r =>
      rw [hr] at htp
      exact .fired hr htp
  | enqueue i timedOut =>
    simp only [Pool.step, Pool.twapiThreadPoolRegistrationProc] at h
    split at h
    · rename_i r hr
      split at h <;> cases h
      rename_i hrunning
      exact .queued timedOut hr hrunning
    · cases h
  | dispatch k =>
    simp only [Pool.step] at h
    split at h
    · exact movesTo_callback h
    · cases h
  | deleteInterp =>
    cases h
    exact .keep rfl
  | cleanup =>
    simp only [Pool.step] at h
    split at h <;> cases h
    exact .keep rfl
  | next =>
    simp only [Pool.step] at h
    split at h <;> cases h
    unfold Pool.next
    split
    · exact .keep rfl
    · exact movesTo_shutdown rfl
  | stopped => exact movesTo_stopped h

/-! ### The list -/

/-- What holds of the registration at place `i`. -/
structure Entry (registrations : List Nat) (i : Nat) (r : TwapiThreadPoolRegistration w) : Prop where
  listed : i ∈ registrations ↔ r.ticP = true
  waits : r.tpHandle = r.ticP
  handle : r.ticP = true → r.handle = some r.given
  running : 0 < r.running → r.ticP = true

structure Listed (s : Pool w) : Prop where
  nodup : s.registrations.Nodup
  known : ∀ i ∈ s.registrations, i < s.objs.length
  entry : ∀ i r, s.objs[i]? = some r → Entry s.registrations i r

theorem Listed.start : Listed (.start : Pool w) := ⟨.nil, nofun, nofun⟩

/-- A new place in the list of objects is on no list yet. -/
theorem Listed.fresh (inv : Listed s) : s.objs.length ∉ s.registrations :=
  fun h => Nat.lt_irrefl _ (inv.known _ h)

/-- Registrations that change only in ways that do not matter for the list. -/
theorem Listed.modify (inv : Listed s)
    {f : TwapiThreadPoolRegistration _ → TwapiThreadPoolRegistration _}
    (objs : t.objs = s.objs.modify i f) (registrations : t.registrations = s.registrations)
    (entry : ∀ r, s.objs[i]? = some r → Entry s.registrations i r → Entry s.registrations i (f r)) :
    Listed t where
  nodup := registrations ▸ inv.nodup
  known := by
    rw [objs, registrations, List.length_modify]
    exact inv.known
  entry := by
    rw [objs, registrations]
    intro j r hr
    rcases lookup_modify hr with ⟨rfl, q, hq, rfl⟩ | ⟨-, hq⟩
    · exact entry q hq (inv.entry j q hq)
    · exact inv.entry j r hq

/-- `TwapiThreadPoolRegistrationShutdown` changes the count, and clears the handles. -/
theorem shutdown_eq (r : TwapiThreadPoolRegistration w) : ∃ nrefs frees, r.shutdown =
    { r with handle := none, tpHandle := false, ticP := false, nrefs := nrefs, frees := frees } := by
  unfold TwapiThreadPoolRegistration.shutdown
  generalize (if r.tpHandle then (1 : UInt32) else 0) + (if r.ticP then 1 else 0) = unrefs
  dsimp only
  split
  · exact ⟨_, _, rfl⟩
  · exact ⟨_, _, rfl⟩

/-- A registration that was shut down is on no list, and no callback is under way for it. -/
theorem Entry.of_shutdown {registrations : List Nat} {r : TwapiThreadPoolRegistration w}
    (listed : i ∉ registrations) (idle : r.running = 0) : Entry registrations i r.shutdown := by
  obtain ⟨nrefs, frees, heq⟩ := shutdown_eq r
  rw [heq]
  refine ⟨⟨fun h => absurd h listed, nofun⟩, rfl, nofun, fun h => ?_⟩
  exact absurd (idle ▸ h) (Nat.lt_irrefl 0)

theorem Listed.append (inv : Listed s) {r : TwapiThreadPoolRegistration _} {registrations : List Nat}
    (objs : t.objs = s.objs ++ [r]) (eq : t.registrations = registrations)
    (nodup : registrations.Nodup) (known : ∀ i ∈ registrations, i ∈ s.registrations ∨ i = s.objs.length)
    (kept : ∀ i, i < s.objs.length → (i ∈ registrations ↔ i ∈ s.registrations))
    (entry : Entry registrations s.objs.length r) : Listed t where
  nodup := eq ▸ nodup
  known := by
    rw [objs, eq, List.length_append, List.length_singleton]
    intro i hi
    rcases known i hi with hi | rfl
    · exact Nat.lt_succ_of_lt (inv.known i hi)
    · exact Nat.lt_succ_self _
  entry := by
    rw [objs, eq]
    intro i q hq
    rcases lookup_append hq with hq | ⟨rfl, rfl⟩
    · have old := inv.entry i q hq
      have hi := kept i (List.getElem?_eq_some_iff.mp hq).1
      exact ⟨hi.trans old.listed, old.waits, old.handle, old.running⟩
    · exact entry

theorem listed_move (inv : Listed s) (h : s.MovesTo t a) : Listed t := by
  unfold Pool.MovesTo at h
  generalize hg : t.gIdGenerator = g at h
  generalize ho : t.objs = objs at h
  generalize hr : t.registrations = regs at h
  generalize he : t.events = events at h
  cases h with
  | keep | newId | dispatched k =>
    refine ⟨hr ▸ inv.nodup, ?_, ?_⟩
    · rw [ho, hr]
      exact inv.known
    · rw [ho, hr]
      exact inv.entry
  | added hd nrefs =>
    apply inv.append ho hr (List.nodup_cons.mpr ⟨inv.fresh, inv.nodup⟩)
    · intro i hi
      rcases List.mem_cons.mp hi with rfl | hi
      · exact .inr rfl
      · exact .inl hi
    · intro i hi
      rw [List.mem_cons]
      exact ⟨fun h => h.resolve_left (Nat.ne_of_lt hi), .inr⟩
    · exact ⟨⟨fun _ => rfl, fun _ => List.mem_cons_self⟩, rfl, fun _ => rfl, fun h => absurd h (Nat.lt_irrefl 0)⟩
  | refused hd nrefs =>
    refine inv.append ho hr inv.nodup (fun i hi => .inl hi) (fun i hi => Iff.rfl) ?_
    exact .of_shutdown inv.fresh rfl
  | fired hq htp =>
    apply inv.modify ho hr
    intro r hr e
    obtain rfl : r = _ := Option.some.inj (hr.symm.trans hq)
    exact ⟨e.listed, e.waits, e.handle, fun _ => e.waits ▸ htp⟩
  | queued timedOut hq hrunning =>
    apply inv.modify ho hr
    intro r hr e
    obtain rfl : r = _ := Option.some.inj (hr.symm.trans hq)
    exact ⟨e.listed, e.waits, e.handle, fun _ => e.running hrunning⟩
  | @released _ i r hq hidle =>
    have e := inv.entry i r hq
    have idle : r.running = 0 := by
      rcases Nat.eq_zero_or_pos r.running with h | h
      · exact h
      · exact hidle (e.waits.trans (e.running h))
    cases hticP : r.ticP with
    | false =>
      have hi : i ∉ s.registrations := fun h => by simp [e.listed.mp h] at hticP
      rw [hticP] at hr
      apply inv.modify ho hr
      intro q hq' _
      obtain rfl : q = r := Option.some.inj (hq'.symm.trans hq)
      exact .of_shutdown hi idle
    | true =>
      rw [hticP] at hr
      have hmem : ∀ j, j ∈ t.registrations ↔ j ≠ i ∧ j ∈ s.registrations := by
        intro j
        rw [hr, if_pos rfl, inv.nodup.mem_erase_iff]
      refine ⟨?_, ?_, ?_⟩
      · rw [hr, if_pos rfl]
        exact inv.nodup.erase i
      · rw [ho, List.length_modify]
        intro j hj
        exact inv.known j ((hmem j).mp hj).2
      · rw [ho]
        intro j q hq'
        rcases lookup_modify hq' with ⟨rfl, r', hr', rfl⟩ | ⟨hne, hq'⟩
        · obtain rfl : r' = r := Option.some.inj (hr'.symm.trans hq)
          exact .of_shutdown (fun h => ((hmem j).mp h).1 rfl) idle
        · have old := inv.entry j q hq'
          refine ⟨?_, old.waits, old.handle, old.running⟩
          rw [hmem j, old.listed]
          exact ⟨fun h => h.2, fun h => ⟨hne, h⟩⟩

/-- The list is in order in every run. -/
theorem reaches_listed {G : Pool w → Label w → Prop} (run : (poolMachine w).Reaches G s) : Listed s := by
  refine run.invariant (P := Listed) ?_ fun s a t inv _ h => listed_move inv (move_of_step h)
  rintro s rfl
  exact .start

end Twapi.ThreadPool
