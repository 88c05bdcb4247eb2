import Twapi.Lib.Table
import Twapi.Resolve.Answers

/-!
The requests that are in flight.

* `InPlace`, `Orderly` — what is true of a request, by where it is, and of all of them.
* `Orderly.move`, `Orderly.append` — one request goes to another place, or is added.
* `orderly_step` — every step keeps it, as long as an id that is given is not in the
  table still.
-/

namespace Twapi.Resolve

open Lib Option

section Invariant

variable (P : Platform) {w : Nat}

/-! ### Requests -/

/-- The event of a request that is still to be served. -/
def Request.waiting (r : Request w) : Option (TwapiHostnameEvent w) :=
  match r.place with
  | .working theP | .queued theP => some theP
  | .running _ | .idle | .timer | .done => none

/-- A request that holds a reference to the interpreter context. -/
def Request.holds (r : Request w) : Bool :=
  match r.place with
  | .working _ | .queued _ | .running _ => true
  | .idle | .timer | .done => false

/-- An answer out of the request's own lookup. -/
def Own (r : Request w) (inv : Invocation) : Prop :=
  match r.outcome with
  | none => r.lookup = .address anyAddress ∧
      inv = ⟨r.script, anyAddress, .success, .hostname anyAddress⟩
  | some R => ∃ entry, r.lookup.entry P r.script = some entry ∧
      inv = resolveHandler (handler P R (r.lookup.event P (0 : BitVec w))) entry

/-- A request that was served, once the interpreter is still there. -/
structure Answered (s : Network w) (r : Request w) : Prop where
  most : r.replies.length ≤ 1
  least : s.interpDeleted = false → r.replies ≠ []
  own : ∀ inv ∈ r.replies, Own P r inv

/-- A request that was not served. Its script is in the table. -/
structure Waits (s : Network w) (r : Request w) (theP : TwapiHostnameEvent w) : Prop where
  replies : r.replies = []
  released : r.released = 0
  proc : theP.proc = r.lookup.kind
  entry : ∃ entry, r.lookup.entry P r.script = some entry ∧
    (s.interpDeleted = false → s.scripts r.lookup.kind theP.id = some entry)

def InPlace (s : Network w) (r : Request w) : Prop :=
  match r.place with
  | .working theP => Waits P s r theP ∧ theP = r.lookup.event P theP.id
  | .queued theP => Waits P s r theP ∧
      ∃ R, r.outcome = some R ∧ theP = handler P R (r.lookup.event P theP.id)
  | .running _ => Answered P s r ∧ r.released = 0 ∧ r.lookup ≠ .address anyAddress
  | .idle | .timer => r.lookup = .address anyAddress ∧ r.outcome = none ∧ r.replies = [] ∧
      r.released = 0
  | .done => Answered P s r ∧
      r.released = if r.lookup = .address anyAddress then 0 else 1

structure Orderly (s : Network w) : Prop where
  placed : ∀ (i : Nat) (r : Request w), s.requests[i]? = some r → InPlace P s r
  distinct : ∀ (i j : Nat) (r q : Request w) x y, s.requests[i]? = some r → s.requests[j]? = some q →
    r.waiting = some x → q.waiting = some y → r.lookup.kind = q.lookup.kind → x.id = y.id → i = j
  refs : s.ticRefs = (if s.interpDeleted then 0 else 1) + s.requests.countP Request.holds

end Invariant

section Steps

variable {P : Platform} {w : Nat} {s t : Network w} {r : Request w}

/-! ### Events -/

/-- A worker fills in an event and leaves its procedure and its id alone. -/
theorem handler_proc_id (R : Resolver) (theP : TwapiHostnameEvent w) :
    (handler P R theP).proc = theP.proc ∧ (handler P R theP).id = theP.id := by
  unfold handler twapiHostnameHandler twapiAddressHandler
  rcases theP with ⟨_ | _, _⟩
  · exact ⟨rfl, rfl⟩
  · dsimp only
    split
    · exact ⟨rfl, rfl⟩
    · split_ifs <;> exact ⟨rfl, rfl⟩

theorem handler_with_id (R : Resolver) (theP : TwapiHostnameEvent w) (id : BitVec w) :
    handler P R { theP with id := id } = { handler P R theP with id := id } := by
  unfold handler twapiHostnameHandler twapiAddressHandler
  rcases theP with ⟨_ | _, _⟩
  · rfl
  · dsimp only
    split
    · rfl
    · split_ifs <;> rfl

theorem resolveHandler_with_id (theP : TwapiHostnameEvent w) (id : BitVec w) (entry : Scripts) :
    resolveHandler { theP with id := id } entry = resolveHandler theP entry := by
  cases entry <;> rfl

/-- The id of an event makes no difference to what its script is told. -/
theorem resolveHandler_id (R : Resolver) (lookup : Lookup) (id : BitVec w) (entry : Scripts) :
    resolveHandler (handler P R (lookup.event P id)) entry =
      resolveHandler (handler P R (lookup.event P (0 : BitVec w))) entry := by
  have same : lookup.event P id = { lookup.event P (0 : BitVec w) with id := id } := by
    cases lookup <;> rfl
  rw [same, handler_with_id, resolveHandler_with_id]

theorem event_proc (lookup : Lookup) (id : BitVec w) :
    (lookup.event P id).proc = lookup.kind ∧ (lookup.event P id).id = id := by
  cases lookup <;> exact ⟨rfl, rfl⟩

/-! ### A request that a step leaves alone -/

/-- What is asked of a step for a request that it leaves alone. -/
structure Keeps (s t : Network w) (r : Request w) : Prop where
  alive : t.interpDeleted = false → s.interpDeleted = false
  script : t.interpDeleted = false → ∀ theP, r.waiting = some theP → ∀ entry,
    s.scripts r.lookup.kind theP.id = some entry → t.scripts r.lookup.kind theP.id = some entry

theorem Answered.keep (answered : Answered P s r) (keeps : Keeps s t r) : Answered P t r where
  most := answered.most
  least alive := answered.least (keeps.alive alive)
  own := answered.own

variable {theP : TwapiHostnameEvent w} {i : Nat} {script : String}

theorem Waits.keep (waits : Waits P s r theP) (waiting : r.waiting = some theP)
    (keeps : Keeps s t r) : Waits P t r theP where
  replies := waits.replies
  released := waits.released
  proc := waits.proc
  entry := by
    obtain ⟨entry, found, script⟩ := waits.entry
    exact ⟨entry, found, fun alive =>
      keeps.script alive theP waiting entry (script (keeps.alive alive))⟩

theorem InPlace.keep (placed : InPlace P s r) (keeps : Keeps s t r) : InPlace P t r := by
  unfold InPlace at placed ⊢
  cases place : r.place with
  | working theP =>
    rw [place] at placed
    exact ⟨placed.1.keep (by simp [Request.waiting, place]) keeps, placed.2⟩
  | queued theP =>
    rw [place] at placed
    exact ⟨placed.1.keep (by simp [Request.waiting, place]) keeps, placed.2⟩
  | running theP =>
    rw [place] at placed
    exact ⟨placed.1.keep keeps, placed.2⟩
  | idle =>
    rw [place] at placed
    exact placed
  | timer =>
    rw [place] at placed
    exact placed
  | done =>
    rw [place] at placed
    exact ⟨placed.1.keep keeps, placed.2⟩

theorem Keeps.of_same (deleted : t.interpDeleted = s.interpDeleted)
    (scripts : t.scripts = s.scripts) : Keeps s t r where
  alive alive := deleted ▸ alive
  script _ _ _ _ found := scripts ▸ found

/-! ### Steps -/

/-- One request goes to another place, and the others stay. -/
theorem Orderly.move {f : Request w → Request w} (orderly : Orderly P s)
    (found : s.requests[i]? = some r) (requests : t.requests = s.requests.modify i f)
    (placed : InPlace P t (f r))
    (keeps : ∀ (j : Nat) (q : Request w), j ≠ i → s.requests[j]? = some q → Keeps s t q)
    (lookup : (f r).lookup = r.lookup)
    (waiting : ∀ y, (f r).waiting = some y → ∃ x, r.waiting = some x ∧ x.id = y.id)
    (deleted : t.interpDeleted = s.interpDeleted)
    (refs : t.ticRefs + r.holds.toNat = s.ticRefs + (f r).holds.toNat) : Orderly P t where
  placed j q mem := by
    rw [requests] at mem
    rcases lookup_modify mem with ⟨-, a, at_i, rfl⟩ | ⟨other, before⟩
    · have same : a = r := some.inj (at_i.symm.trans found)
      exact same ▸ placed
    · exact (orderly.placed j q before).keep (keeps j q other before)
  distinct j k p q x y memP memQ waitP waitQ kind id := by
    -- Every request has the waiting event it had, or one with the same id.
    have before : ∀ {j : Nat} {p : Request w} {x : TwapiHostnameEvent w},
        t.requests[j]? = some p → p.waiting = some x →
        ∃ p' x', s.requests[j]? = some p' ∧ p'.waiting = some x' ∧
          p'.lookup.kind = p.lookup.kind ∧ x'.id = x.id := by
      intro j p x mem wait
      rw [requests] at mem
      rcases lookup_modify mem with ⟨rfl, a, at_i, rfl⟩ | ⟨-, was⟩
      · have same : a = r := some.inj (at_i.symm.trans found)
        subst same
        obtain ⟨x', wait', id'⟩ := waiting x wait
        exact ⟨a, x', found, wait', congrArg Lookup.kind lookup.symm, id'⟩
      · exact ⟨p, x, was, wait, rfl, rfl⟩
    obtain ⟨p', x', memP', waitP', kindP, idP⟩ := before memP waitP
    obtain ⟨q', y', memQ', waitQ', kindQ, idQ⟩ := before memQ waitQ
    exact orderly.distinct j k p' q' x' y' memP' memQ' waitP' waitQ'
      (kindP.trans (kind.trans kindQ.symm)) (idP.trans (id.trans idQ.symm))
  refs := by
    have counted := countP_modify (p := Request.holds) (f := f) found
    have inv := orderly.refs
    rw [requests, deleted]
    omega

/-- A request is added. -/
theorem Orderly.append {q : Request w} (orderly : Orderly P s)
    (requests : t.requests = s.requests ++ [q]) (placed : InPlace P t q)
    (keeps : ∀ (j : Nat) (r : Request w), s.requests[j]? = some r → Keeps s t r)
    (fresh : ∀ (j : Nat) (r : Request w) x y, s.requests[j]? = some r → r.waiting = some x → q.waiting = some y →
      r.lookup.kind = q.lookup.kind → x.id ≠ y.id)
    (deleted : t.interpDeleted = s.interpDeleted)
    (refs : t.ticRefs = s.ticRefs + q.holds.toNat) : Orderly P t where
  placed j r mem := by
    rw [requests] at mem
    rcases lookup_snoc mem with ⟨-, rfl⟩ | before
    · exact placed
    · exact (orderly.placed j r before).keep (keeps j r before)
  distinct j k p r x y memP memR waitP waitR kind id := by
    rw [requests] at memP memR
    rcases lookup_snoc memP with ⟨atP, rfl⟩ | beforeP
    · rcases lookup_snoc memR with ⟨atR, -⟩ | beforeR
      · exact atP.trans atR.symm
      · exact absurd id.symm (fresh k r y x beforeR waitR waitP kind.symm)
    · rcases lookup_snoc memR with ⟨-, rfl⟩ | beforeR
      · exact absurd id (fresh j p x y beforeP waitP waitR kind)
      · exact orderly.distinct j k p r x y beforeP beforeR waitP waitR kind id
  refs := by
    have inv := orderly.refs
    rw [requests, deleted, refs, List.countP_append, inv]
    cases holds : q.holds <;> simp [holds, Int.add_assoc]

/-- The requests are those that were there. -/
theorem Orderly.same (orderly : Orderly P s) (requests : t.requests = s.requests)
    (keeps : ∀ r, Keeps s t r)
    (refs : t.ticRefs + (if s.interpDeleted then 0 else 1) =
      s.ticRefs + (if t.interpDeleted then 0 else 1)) : Orderly P t where
  placed j r mem := by
    rw [requests] at mem
    exact (orderly.placed j r mem).keep (keeps r)
  distinct j k p q x y memP memQ := by
    rw [requests] at memP memQ
    exact orderly.distinct j k p q x y memP memQ
  refs := by
    have inv := orderly.refs
    rw [requests]
    omega

theorem Network.placeAt_eq {place : Place w} (h : s.placeAt i = some place) :
    ∃ r, s.requests[i]? = some r ∧ r.place = place :=
  map_eq_some_iff.mp h

theorem Network.scripts_setScripts (kind k : Kind) (id j : BitVec w) (entry : Option Scripts) :
    (s.setScripts kind id entry).scripts k j =
      if k = kind ∧ j = id then entry else s.scripts k j :=
  update_update_apply s.scripts kind k id j entry

theorem InPlace.waits (placed : InPlace P s r) (waiting : r.waiting = some theP) :
    Waits P s r theP := by
  unfold InPlace at placed
  unfold Request.waiting at waiting
  cases place : r.place with
  | working x | queued x =>
    rw [place] at placed waiting
    cases some.inj waiting
    exact placed.1
  | running x | idle | timer | done =>
    rw [place] at waiting
    cases waiting

/-- What has an entry in the table of scripts is not the address that is not looked up. -/
theorem ne_anyAddress_of_entry {lookup : Lookup} {entry : Scripts}
    (found : lookup.entry P script = some entry) : lookup ≠ .address anyAddress := by
  rintro rfl
  cases found

theorem Orderly.submit (orderly : Orderly P s) (alive : s.interpDeleted = false) {lookup : Lookup}
    {id : BitVec w} {entry : Scripts} (found : lookup.entry P script = some entry)
    (fresh : s.scripts lookup.kind id = none) (queued : Bool) :
    Orderly P (s.submit lookup script queued (lookup.event P id) entry) := by
  have absent : ∀ (r : Request w) theP (j : Nat), s.requests[j]? = some r → r.waiting = some theP →
      r.lookup.kind = lookup.kind → theP.id ≠ id := by
    intro r theP j mem waiting kind same
    obtain ⟨entry', -, script'⟩ := ((orderly.placed j r mem).waits waiting).entry
    have present := script' alive
    rw [kind, same, fresh] at present
    cases present
  cases queued with
  | false =>
    have undone : (s.addRefs 1).addRefs (-1) = s := by
      simp only [Network.addRefs, Int.add_neg_cancel_right]
    change Orderly P ((s.addRefs 1).addRefs (-1))
    exact undone.symm ▸ orderly
  | true =>
    have given := event_proc (P := P) lookup id
    refine orderly.append (q := ⟨lookup, script, .working (lookup.event P id), none, [], 0⟩)
      rfl ⟨⟨rfl, rfl, given.1, entry, found, fun _ => ?_⟩, ?_⟩ ?_ ?_ rfl rfl
    · change (Network.setScripts lookup.kind (lookup.event P id).id _ _).scripts _ _ = _
      rw [Network.scripts_setScripts, if_pos ⟨rfl, rfl⟩]
    · rw [given.2]
    · refine fun j r mem => ⟨fun same => same, fun _ theP waiting entry' before => ?_⟩
      change (Network.setScripts lookup.kind (lookup.event P id).id _ _).scripts _ _ = _
      rw [Network.scripts_setScripts, if_neg]
      · exact before
      · rintro ⟨kind, same⟩
        exact absent r theP j mem waiting kind (same.trans given.2)
    · intro j r x y mem waitX waitY kind same
      cases some.inj waitY
      exact absent r x j mem waitX kind (same.trans given.2)

/-- The next id is not in the table still. -/
def FreshId (s : Network w) : Label → Prop
  | .resolve lookup _ _ => s.scripts lookup.kind (s.gIdGenerator + 1) = none
  | _ => True

instance (s : Network w) : (a : Label) → Decidable (FreshId s a)
  | .resolve lookup _ _ => inferInstanceAs (Decidable (s.scripts lookup.kind _ = none))
  | .newId | .complete .. | .serve _ | .unref _ | .idle _ | .timer _ | .deleteInterp =>
    inferInstanceAs (Decidable True)

theorem orderly_resolve (orderly : Orderly P s) (alive : s.interpDeleted = false) {lookup : Lookup}
    {queued : Bool} (fresh : s.scripts lookup.kind (s.gIdGenerator + 1) = none)
    (h : s.resolve P lookup script queued = some t) : Orderly P t := by
  have counted : Orderly P { s with gIdGenerator := s.gIdGenerator + 1 } :=
    orderly.same rfl (fun r => .of_same rfl rfl) rfl
  cases lookup with
  | hostname name ipversion =>
    simp only [Network.resolve] at h
    cases version : ipversionToAf P ipversion with
    | none =>
      rw [version] at h
      cases h
    | some af =>
      rw [version] at h
      cases some.inj h
      have found : (Lookup.hostname name ipversion).entry P script =
          some (.hostname af (P.toLower name) script) := by
        simp only [Lookup.entry, version, map_some]
      exact counted.submit alive found fresh queued
  | address addr =>
    simp only [Network.resolve] at h
    by_cases any : addr = anyAddress
    · rw [if_pos any] at h
      cases some.inj h
      refine orderly.append (q := ⟨.address addr, script, .idle, none, [], 0⟩) rfl
        ⟨congrArg Lookup.address any, rfl, rfl, rfl⟩ (fun j r mem => Keeps.of_same rfl rfl)
        (fun j r x y mem waitX waitY => by cases waitY) rfl ?_
      simp [Request.holds, Network.append]
    · rw [if_neg any] at h
      cases some.inj h
      have found : (Lookup.address addr).entry P script = some (.address addr script) := if_neg any
      exact counted.submit alive found fresh queued

theorem orderly_complete (orderly : Orderly P s) (found : s.requests[i]? = some r)
    (place : r.place = .working theP) (R : Resolver) :
    Orderly P (s.modify i fun r =>
      { r with place := .queued (handler P R theP), outcome := some R }) := by
  have placed := orderly.placed i r found
  rw [InPlace, place] at placed
  obtain ⟨waits, event⟩ := placed
  have given := handler_proc_id (P := P) R theP
  refine orderly.move found rfl ⟨⟨waits.replies, waits.released, ?_, ?_⟩, R, rfl, ?_⟩
    (fun j q _ _ => .of_same rfl rfl) rfl ?_ rfl ?_
  · exact given.1.trans waits.proc
  · rw [given.2]
    exact waits.entry
  · rw [given.2]
    exact congrArg (handler P R) event
  · intro y wait
    refine ⟨theP, by simp [Request.waiting, place], ?_⟩
    rw [← some.inj wait]
    exact given.2.symm
  · simp [Request.holds, place, Network.modify]

theorem orderly_serve (orderly : Orderly P s) (found : s.requests[i]? = some r)
    (place : r.place = .queued theP) :
    Orderly P (s.serve i theP) := by
  have placed := orderly.placed i r found
  rw [InPlace, place] at placed
  obtain ⟨waits, R, outcome, event⟩ := placed
  obtain ⟨entry, isEntry, inTable⟩ := waits.entry
  have waiting : r.waiting = some theP := by simp [Request.waiting, place]
  have other := ne_anyAddress_of_entry isEntry
  cases deleted : s.interpDeleted with
  | true =>
    rw [Network.serve, if_pos deleted]
    refine orderly.move found rfl ⟨⟨?_, ?_, ?_⟩, waits.released, other⟩
      (fun j q _ _ => .of_same rfl rfl) rfl (fun y wait => by cases wait) rfl ?_
    · simp [waits.replies]
    · intro alive
      exact absurd (deleted.symm.trans alive) (by decide)
    · intro inv mem
      have none : inv ∈ r.replies := mem
      rw [waits.replies] at none
      cases none
    · simp [Request.holds, place, Network.modify]
  | false =>
    have lookup : s.scripts theP.proc theP.id = some entry := by
      rw [waits.proc]
      exact inTable deleted
    rw [Network.serve, if_neg (by simp [deleted]), lookup]
    have told : Own P r (resolveHandler theP entry) := by
      simp only [Own, outcome]
      refine ⟨entry, isEntry, ?_⟩
      rw [event, resolveHandler_id]
    refine orderly.move found rfl ⟨⟨?_, ?_, ?_⟩, waits.released, other⟩ ?_ rfl
      (fun y wait => by cases wait) rfl ?_
    · simp [waits.replies]
    · exact fun _ none => by cases none
    · intro inv mem
      rw [waits.replies] at mem
      cases List.mem_singleton.mp mem
      exact told
    · refine fun j q apart mem => ⟨fun same => same, fun _ theQ waitQ entry' before => ?_⟩
      change (s.setScripts theP.proc theP.id none).scripts _ _ = _
      rw [Network.scripts_setScripts, if_neg]
      · exact before
      · rintro ⟨kind, id⟩
        exact apart (orderly.distinct j i q r theQ theP mem found waitQ waiting
          (kind.trans waits.proc) id)
    · simp [Request.holds, place, Network.modify, Network.setScripts]

theorem orderly_unref (orderly : Orderly P s) (found : s.requests[i]? = some r)
    (place : r.place = .running theP) :
    Orderly P ((s.modify i fun r =>
      { r with place := .done, released := r.released + 1 }).addRefs (-1)) := by
  have placed := orderly.placed i r found
  rw [InPlace, place] at placed
  obtain ⟨answered, released, other⟩ := placed
  refine orderly.move found rfl ⟨⟨answered.most, answered.least, answered.own⟩, ?_⟩
    (fun j q _ _ => .of_same rfl rfl) rfl (fun y wait => by cases wait) rfl ?_
  · rw [if_neg other]
    exact congrArg (· + 1) released
  · simp only [Request.holds, place, Network.addRefs, Network.modify, Bool.toNat_true,
      Bool.toNat_false]
    omega

theorem orderly_idle (orderly : Orderly P s) (found : s.requests[i]? = some r)
    (place : r.place = .idle) :
    Orderly P (s.modify i fun r => { r with place := .timer }) := by
  have placed := orderly.placed i r found
  rw [InPlace, place] at placed
  refine orderly.move found rfl placed (fun j q _ _ => .of_same rfl rfl) rfl
    (fun y wait => by cases wait) rfl ?_
  simp [Request.holds, place, Network.modify]

theorem orderly_timer (orderly : Orderly P s) (found : s.requests[i]? = some r)
    (place : r.place = .timer) :
    Orderly P (s.modify i fun r =>
      if s.interpDeleted then { r with place := .done }
      else
        { r with
          place := .done
          replies := ⟨r.script, anyAddress, .success, .hostname anyAddress⟩ :: r.replies }) := by
  have placed := orderly.placed i r found
  rw [InPlace, place] at placed
  obtain ⟨any, outcome, replies, released⟩ := placed
  cases deleted : s.interpDeleted with
  | true =>
    refine orderly.move found rfl ⟨⟨?_, ?_, ?_⟩, ?_⟩ (fun j q _ _ => .of_same rfl rfl) rfl
      (fun y wait => by cases wait) rfl ?_
    · simp [replies]
    · exact fun alive => absurd (deleted.symm.trans alive) (by decide)
    · intro inv mem
      have none : inv ∈ r.replies := mem
      rw [replies] at none
      cases none
    · exact released.trans (if_pos any).symm
    · simp [Request.holds, place, Network.modify]
  | false =>
    refine orderly.move found rfl ⟨⟨?_, ?_, ?_⟩, ?_⟩ (fun j q _ _ => .of_same rfl rfl) rfl
      (fun y wait => by cases wait) rfl ?_
    · simp [replies]
    · exact fun _ none => by cases none
    · intro inv mem
      have single : inv ∈ [⟨r.script, anyAddress, .success, .hostname anyAddress⟩] := by
        simpa [replies] using mem
      cases List.mem_singleton.mp single
      have own : Own P r ⟨r.script, anyAddress, .success, .hostname anyAddress⟩ := by
        simp only [Own, outcome]
        exact ⟨any, trivial⟩
      exact own
    · exact released.trans (if_pos any).symm
    · simp [Request.holds, place, Network.modify]

theorem orderly_delete (orderly : Orderly P s) (alive : s.interpDeleted = false) :
    Orderly P ({ s with interpDeleted := true, scripts := fun _ _ => none }.addRefs (-1)) := by
  refine orderly.same rfl (fun r => ⟨fun same => ?_, fun same => ?_⟩) ?_
  · cases same
  · cases same
  · simp only [Network.addRefs, alive, if_true, Bool.false_eq_true, if_false]
    omega

theorem orderly_step (orderly : Orderly P s) {a : Label} (fresh : FreshId s a)
    (h : s.step P a = some t) : Orderly P t := by
  cases a with
  | resolve lookup script queued =>
    simp only [Network.step] at h
    cases deleted : s.interpDeleted with
    | true =>
      rw [if_pos deleted] at h
      cases h
    | false =>
      rw [if_neg (by simp [deleted])] at h
      exact orderly_resolve orderly deleted fresh h
  | newId =>
    cases some.inj h
    exact orderly.same rfl (fun r => .of_same rfl rfl) rfl
  | complete i R =>
    simp only [Network.step] at h
    split at h
    · next theP at_i =>
        obtain ⟨r, found, place⟩ := Network.placeAt_eq at_i
        cases some.inj h
        exact orderly_complete orderly found place R
    · cases h
  | serve i =>
    simp only [Network.step] at h
    split at h
    · next theP at_i =>
        obtain ⟨r, found, place⟩ := Network.placeAt_eq at_i
        cases some.inj h
        exact orderly_serve orderly found place
    · cases h
  | unref i =>
    simp only [Network.step] at h
    split at h
    · next theP at_i =>
        obtain ⟨r, found, place⟩ := Network.placeAt_eq at_i
        cases some.inj h
        exact orderly_unref orderly found place
    · cases h
  | idle i =>
    simp only [Network.step] at h
    split at h
    · next at_i =>
        obtain ⟨r, found, place⟩ := Network.placeAt_eq at_i
        cases some.inj h
        exact orderly_idle orderly found place
    · cases h
  | timer i =>
    simp only [Network.step] at h
    split at h
    · next at_i =>
        obtain ⟨r, found, place⟩ := Network.placeAt_eq at_i
        cases some.inj h
        exact orderly_timer orderly found place
    · cases h
  | deleteInterp =>
    simp only [Network.step] at h
    cases deleted : s.interpDeleted with
    | true =>
      rw [if_pos deleted] at h
      cases h
    | false =>
      rw [if_neg (by simp [deleted])] at h
      cases some.inj h
      exact orderly_delete orderly deleted

theorem orderly_start : Orderly P (.start : Network w) := by
  constructor
  · intro i r mem
    cases mem
  · intro i j r q x y mem
    cases mem
  · rfl

theorem reaches_orderly (run : (machine P w).Reaches FreshId s) : Orderly P s :=
  run.invariant (fun _ start => start ▸ orderly_start)
    fun _ _ _ orderly fresh step => orderly_step orderly fresh step

end Steps

end Twapi.Resolve
