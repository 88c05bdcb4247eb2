import Twapi.ThreadPool.Moves

/-!
Whose signal handler a queued event invokes. The event carries an id only, so
everything rests on ids being different.

* `Identified` — registrations have different ids, and an event has the id of
  the registration it came from. It holds until the counter wraps.
* `reaches_faithful` — until then an event invokes the handler of its own
  registration, while that is on the list, and otherwise nothing.
-/

namespace Twapi.ThreadPool

open Lib

variable {w : Nat} {s t : Pool w}

/-- The id of the registration at place `i`, on the list or not. -/
def Pool.idAt (s : Pool w) (i : Nat) : Option (BitVec w) := s.objs[i]?.map (·.id)

structure Identified (s : Pool w) : Prop where
  bound : ∀ i id, s.idAt i = some id → id.toNat ≤ s.gIdGenerator.toNat
  distinct : ∀ i j id, s.idAt i = some id → s.idAt j = some id → i = j
  events : ∀ e ∈ s.events, s.idAt e.source = some e.id

theorem Identified.start : Identified (.start : Pool w) := ⟨nofun, nofun, nofun⟩

theorem toNat_succ {g : BitVec w} (room : g.toNat + 1 < 2 ^ w) : (g + 1).toNat = g.toNat + 1 := by
  have hone : (1 : BitVec w).toNat = 1 % 2 ^ w := BitVec.toNat_ofNat 1 w
  rw [BitVec.toNat_add, hone, Nat.mod_eq_of_lt (by omega : 1 < 2 ^ w), Nat.mod_eq_of_lt room]

/-! ### Ids -/

variable {r : TwapiThreadPoolRegistration w} {id : BitVec w} {i : Nat}

theorem idAt_modify {f : TwapiThreadPoolRegistration w → TwapiThreadPoolRegistration w}
    (objs : t.objs = s.objs.modify i f) (id : ∀ r, (f r).id = r.id) (j : Nat) :
    t.idAt j = s.idAt j := by
  unfold Pool.idAt
  rw [objs]
  by_cases hj : j = i
  · subst hj
    rw [List.getElem?_modify_eq]
    cases s.objs[j]? with
    | none => rfl
    | some r => exact congrArg some (id r)
  · rw [List.getElem?_modify_ne f s.objs (Ne.symm hj)]

theorem idAt_append (objs : t.objs = s.objs ++ [r]) (h : t.idAt i = some id) :
    s.idAt i = some id ∨ i = s.objs.length ∧ id = r.id := by
  obtain ⟨q, hq, rfl⟩ := Option.map_eq_some_iff.mp h
  rw [objs] at hq
  rcases lookup_append hq with hq | ⟨hi, rfl⟩
  · exact .inl (Option.map_eq_some_iff.mpr ⟨q, hq, rfl⟩)
  · exact .inr ⟨hi, rfl⟩

theorem idAt_append_old (objs : t.objs = s.objs ++ [r]) (h : s.idAt i = some id) :
    t.idAt i = some id := by
  obtain ⟨q, hq, rfl⟩ := Option.map_eq_some_iff.mp h
  have hlt := (List.getElem?_eq_some_iff.mp hq).1
  rw [Pool.idAt, objs, List.getElem?_append_left hlt, hq]
  rfl

/-- The id counter goes on, and no object changes its id. -/
theorem Identified.keep (inv : Identified s) (counter : s.gIdGenerator.toNat ≤ t.gIdGenerator.toNat)
    (ids : ∀ i, t.idAt i = s.idAt i)
    (events : ∀ e ∈ t.events, e ∈ s.events ∨ s.idAt e.source = some e.id) : Identified t where
  bound := by
    intro i id h
    rw [ids] at h
    exact Nat.le_trans (inv.bound i id h) counter
  distinct := by
    intro i j id hi hj
    rw [ids] at hi hj
    exact inv.distinct i j id hi hj
  events := by
    intro e he
    rw [ids]
    rcases events e he with he | h
    · exact inv.events e he
    · exact h

/-- A new registration has a new id. -/
theorem Identified.append (inv : Identified s) (room : s.gIdGenerator.toNat + 1 < 2 ^ w)
    (counter : t.gIdGenerator = s.gIdGenerator + 1) (objs : t.objs = s.objs ++ [r])
    (id : r.id = s.gIdGenerator + 1) (events : t.events = s.events) :
    Identified t := by
  have hnew : r.id.toNat = s.gIdGenerator.toNat + 1 := by rw [id, toNat_succ room]
  have hother : ∀ i, s.idAt i ≠ some r.id := by
    intro i h
    have hle := inv.bound i r.id h
    rw [hnew] at hle
    exact Nat.not_succ_le_self _ hle
  refine ⟨?_, ?_, ?_⟩
  · rw [counter, toNat_succ room]
    intro i id h
    rcases idAt_append objs h with h | ⟨-, rfl⟩
    · exact Nat.le_succ_of_le (inv.bound i id h)
    · exact Nat.le_of_eq hnew
  · intro i j id hi hj
    rcases idAt_append objs hi with hi | ⟨rfl, rfl⟩
    · rcases idAt_append objs hj with hj | ⟨rfl, rfl⟩
      · exact inv.distinct i j id hi hj
      · exact absurd hi (hother i)
    · rcases idAt_append objs hj with hj | ⟨rfl, -⟩
      · exact absurd hj (hother j)
      · rfl
  · rw [events]
    intro e he
    exact idAt_append_old objs (inv.events e he)

/-- The id counter does not wrap in this step. -/
def CounterRoom (s : Pool w) (a : Label w) : Prop :=
  a.takesId = true → s.gIdGenerator.toNat + 1 < 2 ^ w

instance (s : Pool w) (a : Label w) : Decidable (CounterRoom s a) :=
  inferInstanceAs (Decidable (_ → _))

theorem identified_move {a : Label w} (inv : Identified s) (room : CounterRoom s a)
    (h : s.MovesTo t a) : Identified t := by
  unfold Pool.MovesTo at h
  generalize hg : t.gIdGenerator = g at h
  generalize ho : t.objs = objs at h
  generalize hr : t.registrations = regs at h
  generalize he : t.events = events at h
  have same : t.objs = s.objs → ∀ i, t.idAt i = s.idAt i := fun heq i => by rw [Pool.idAt, heq]; rfl
  have counter : t.gIdGenerator = s.gIdGenerator → s.gIdGenerator.toNat ≤ t.gIdGenerator.toNat :=
    fun heq => Nat.le_of_eq (by rw [heq])
  cases h with
  | keep => exact inv.keep (counter hg) (same ho) (he ▸ fun e h => .inl h)
  | newId =>
    refine inv.keep ?_ (same ho) (he ▸ fun e h => .inl h)
    rw [hg, toNat_succ (room rfl)]
    exact Nat.le_succ _
  | added hd nrefs => exact inv.append (room rfl) hg ho rfl he
  | refused hd nrefs =>
    refine inv.append (room rfl) hg ho ?_ he
    obtain ⟨n, f, heq⟩ := shutdown_eq ((TwapiThreadPoolRegistration.ref
      ⟨some hd, false, true, s.gIdGenerator + 1, nrefs, 0, 0, hd⟩ 2).unref 1)
    rw [refused, heq]
    rfl
  | released hq hidle =>
    refine inv.keep (counter hg) (idAt_modify ho fun r => ?_) (he ▸ fun e h => .inl h)
    obtain ⟨n, f, heq⟩ := shutdown_eq r
    rw [heq]
  | fired hq htp => exact inv.keep (counter hg) (idAt_modify ho fun r => rfl) (he ▸ fun e h => .inl h)
  | queued timedOut hq hrunning =>
    refine inv.keep (counter hg) (idAt_modify ho fun r => rfl) ?_
    rw [he]
    intro e h
    rcases List.mem_append.mp h with h | h
    · exact .inl h
    · rw [List.mem_singleton.mp h]
      exact .inr (Option.map_eq_some_iff.mpr ⟨_, hq, rfl⟩)
  | dispatched k =>
    refine inv.keep (counter hg) (same ho) ?_
    rw [he]
    intro e h
    exact .inl (List.mem_of_mem_eraseIdx h)

/-! ### Dispatching -/

/-- What `ZLIST_LOCATE` finds is on the list and has the id. -/
theorem locate_some (h : s.locate id = some i) :
    i ∈ s.registrations ∧ s.idAt i = some id := by
  refine ⟨List.mem_of_find?_eq_some h, ?_⟩
  have hid := List.find?_some h
  cases hr : s.objs[i]? with
  | none =>
    rw [hr] at hid
    cases hid
  | some r =>
    rw [hr] at hid
    rw [Pool.idAt, hr]
    exact congrArg some (of_decide_eq_true hid)

theorem invoked_shutdown (s : Pool w) (i : Nat) (cleaning : Bool) :
    (s.twapiThreadPoolRegistrationShutdown i cleaning).invoked = s.invoked ∧
      (s.release i).invoked = s.invoked := by
  have hrelease : (s.release i).invoked = s.invoked := by
    unfold Pool.release
    split
    · dsimp only
      split <;> rfl
    · rfl
  refine ⟨?_, hrelease⟩
  unfold Pool.twapiThreadPoolRegistrationShutdown
  split
  · rfl
  · exact hrelease

/-- Nothing but dispatching an event invokes a handler. -/
theorem invoked_step {a : Label w} (ha : ∀ k, a ≠ .dispatch k) (h : s.step a = some t) :
    t.invoked = s.invoked := by
  cases a with
  | register hd nrefs ok =>
    simp only [Pool.step] at h
    split at h <;> cases h
    cases ok with
    | true => rw [register_ok]
    | false => rw [register_refused]
  | unregister id =>
    simp only [Pool.step] at h
    split at h <;> cases h
    unfold Pool.twapiThreadPoolUnregister
    split
    · exact (invoked_shutdown s _ _).1
    · rfl
  | newId | deleteInterp =>
    cases h
    rfl
  | fire i =>
    simp only [Pool.step, Pool.fire] at h
    split at h <;> cases h
    rfl
  | enqueue i timedOut =>
    simp only [Pool.step, Pool.twapiThreadPoolRegistrationProc] at h
    split at h
    · split at h <;> cases h
      rfl
    · cases h
  | dispatch k => exact absurd rfl (ha k)
  | cleanup =>
    simp only [Pool.step] at h
    split at h <;> cases h
    rfl
  | next =>
    simp only [Pool.step] at h
    split at h <;> cases h
    unfold Pool.next
    split
    · rfl
    · exact (invoked_shutdown s _ _).1
  | stopped =>
    simp only [Pool.step, Pool.stopped] at h
    split at h
    · split at h <;> cases h
      exact (invoked_shutdown s _ true).2
    · cases h

/-! ### Runs -/

/-- A handler is invoked only by dispatching an event of its own registration,
which is on the list, and with that registration's handle. -/
def Pool.Faithful (s : Pool w) : Prop :=
  ∀ a t, s.step a = some t → t.invoked = s.invoked ∨
    ∃ k e, ∃ r : TwapiThreadPoolRegistration w,
      a = .dispatch k ∧ s.events[k]? = some e ∧ s.objs[e.source]? = some r ∧ r.id = e.id ∧
        e.source ∈ s.registrations ∧
        t.invoked = ⟨e.source, e.id, some r.given, e.timedOut⟩ :: s.invoked

theorem Identified.faithful (inv : Identified s) (listed : Listed s) : s.Faithful := by
  intro a t h
  by_cases ha : ∀ k, a ≠ .dispatch k
  · exact .inl (invoked_step ha h)
  simp only [ne_eq, not_forall, Decidable.not_not] at ha
  obtain ⟨k, rfl⟩ := ha
  simp only [Pool.step] at h
  split at h
  · obtain ⟨e, he, rfl⟩ := Option.map_eq_some_iff.mp h
    dsimp only
    split
    · exact .inl rfl
    · cases hlocate : ({ s with events := s.events.eraseIdx k } : Pool w).locate e.id with
      | none => exact .inl rfl
      | some i =>
        obtain ⟨hi, hid⟩ := locate_some hlocate
        -- the registration found has the id of the event, so it is its source
        obtain rfl : i = e.source :=
          inv.distinct i e.source e.id hid (inv.events e (List.mem_of_getElem? he))
        obtain ⟨r, hr, hrid⟩ := Option.map_eq_some_iff.mp hid
        have entry := listed.entry e.source r hr
        refine .inr ⟨k, e, r, rfl, he, hr, hrid, hi, ?_⟩
        have hhandle : (s.objs[e.source]?.bind (·.handle)) = some r.given := by
          rw [show s.objs[e.source]? = some r from hr]
          exact entry.handle (entry.listed.mp hi)
        exact congrArg (fun handle => (⟨e.source, e.id, handle, e.timedOut⟩ : Invocation w) :: s.invoked)
          hhandle
  · cases h

theorem reaches_identified (run : (poolMachine w).Reaches CounterRoom s) : Identified s := by
  refine run.invariant (P := Identified) ?_ fun s a t inv room h =>
    identified_move inv room (move_of_step h)
  rintro s rfl
  exact .start

/-- As long as the id counter has not wrapped every event is dispatched to the
registration it came from, or not at all. -/
theorem reaches_faithful (run : (poolMachine w).Reaches CounterRoom s) : s.Faithful :=
  (reaches_identified run).faithful (reaches_listed run)

theorem reaches_faithful_dispatch :
    ∃ s : Pool 32, ((s.step (.dispatch 0)).map (·.invoked) = some [⟨0, 1, some 4, false⟩]) ∧
      s.Faithful := by
  obtain ⟨s, run, hs⟩ := Machine.Reaches.exists_of_run (M := poolMachine 32) (G := CounterRoom)
    [.register 4 0 true, .fire 0, .enqueue 0 false]
    (fun s => (s.step (.dispatch 0)).map (·.invoked) = some [⟨0, 1, some 4, false⟩]) rfl (by decide)
  exact ⟨s, hs, reaches_faithful run⟩

/-! ### When the counter wraps -/

/-- Any number of ids can be handed out, to other users of the counter. -/
theorem reachable_newIds (run : (poolMachine w).Reachable s) (k : Nat) :
    (poolMachine w).Reachable { s with gIdGenerator := s.gIdGenerator + BitVec.ofNat w k } := by
  induction k with
  | zero =>
    rw [BitVec.add_zero]
    exact run
  | succ k ih =>
    refine .step (a := .newId) ih trivial (congrArg some ?_)
    have hnext : s.gIdGenerator + BitVec.ofNat w k + 1 = s.gIdGenerator + BitVec.ofNat w (k + 1) := by
      rw [BitVec.add_assoc, BitVec.ofNat_add]
      rfl
    exact congrArg (fun g => ({ s with gIdGenerator := g } : Pool w)) hnext

/-- The registration of handle 4 is gone, one of its events is still queued. -/
def staleEvent : Pool 32 :=
  ⟨1, [⟨none, false, false, 1, 0, 0, 1, 4⟩], [], [⟨1, false, 0⟩], [], false, false, 0, .idle, .id 1⟩

/-- With 32-bit ids the counter wraps after 2^32 of them; handle 8 then gets the
id of handle 4, and the event that is still queued invokes its handler. -/
theorem wrapped_id_misdirects : ¬ ∀ s : Pool 32, (poolMachine 32).Reachable s → s.Faithful := by
  intro claim
  have stale : (poolMachine 32).Reachable staleEvent :=
    Machine.Reaches.of_run [.register 4 0 true, .fire 0, .enqueue 0 false, .unregister 1, .stopped] rfl
      (by decide)
  have wrapped := reachable_newIds stale (2 ^ 32 - 1)
  obtain ⟨s, run, hsource, hstep⟩ : ∃ s : Pool 32, (poolMachine 32).Reachable s ∧
      s.events = [⟨1, false, 0⟩] ∧
      (s.step (.dispatch 0)).map (fun t => (s.invoked, t.invoked)) = some ([], [⟨1, 1, some 8, false⟩]) := by
    refine ⟨_, wrapped.step (a := .register 8 0 true) trivial rfl, ?_, ?_⟩
    · decide
    · decide
  obtain ⟨t, ht, hinvoked⟩ := Option.map_eq_some_iff.mp hstep
  obtain ⟨hold, hnew⟩ := Prod.mk.inj hinvoked
  rcases claim s run (.dispatch 0) t ht with hsame | ⟨k, e, r, hk, he, -, -, -, hfaithful⟩
  · rw [hold, hnew] at hsame
    cases hsame
  · rw [hsource] at he
    obtain rfl : e = ⟨1, false, 0⟩ := List.mem_singleton.mp (List.mem_of_getElem? he)
    rw [hnew] at hfaithful
    cases hfaithful

end Twapi.ThreadPool
