import Twapi.Resolve.Requests

/-!
Every lookup that is made with `-async` is answered, whatever is in flight with it.

* `Served` — what asynchronous lookups are to keep to.
* `served_iff` — they do, but for what some scripts are told: what the lookup returns
  without `-async` exactly where the outcome is such.
-/

namespace Twapi.Resolve

open Lib

section Served

variable {P : Platform} {w : Nat} {s t : Network w} {r : Request w}

/-! ### Answers -/

/-- How far a request is from its end. -/
def Place.left : Place w → Nat
  | .working _ => 3
  | .queued _ | .idle => 2
  | .running _ | .timer => 1
  | .done => 0

/-- What asynchronous lookups are to keep to. -/
structure Served (P : Platform) (s : Network w) : Prop where
  once : ∀ r ∈ s.requests, r.replies.length ≤ 1
  surviving : s.interpDeleted = false → ∀ r ∈ s.requests, r.place = .done → r.replies.length = 1
  own : ∀ r ∈ s.requests, ∀ inv ∈ r.replies, Own P r inv
  agrees : ∀ r ∈ s.requests, ∀ inv ∈ r.replies, ∀ R, (r.outcome = none ∨ r.outcome = some R) →
    Agrees P R r.lookup inv
  /-- The address that is not looked up takes no reference. -/
  released : ∀ r ∈ s.requests, r.lookup ≠ .address anyAddress →
    r.released = if r.place = .done then 1 else 0
  refs : s.ticRefs = (if s.interpDeleted then 0 else 1) + s.requests.countP Request.holds
  /-- A request that is not done gets nearer to its end. -/
  proceeds : ∀ (i : Nat) r, s.requests[i]? = some r → r.place ≠ .done →
    ∃ a t r', s.step P a = some t ∧ t.requests[i]? = some r' ∧ r'.place.left < r.place.left

variable {i : Nat}

theorem Network.modify_at (found : s.requests[i]? = some r) (f : Request w → Request w) :
    (s.modify i f).requests[i]? = some (f r) := by
  simp [Network.modify, found]

theorem Network.placeAt_of (found : s.requests[i]? = some r) :
    s.placeAt i = some r.place := by
  rw [Network.placeAt, found]
  rfl

theorem serve_at (found : s.requests[i]? = some r) (theP : TwapiHostnameEvent w) :
    ∃ r', (s.serve i theP).requests[i]? = some r' ∧ r'.place = .running theP := by
  unfold Network.serve
  split
  · exact ⟨_, Network.modify_at found _, rfl⟩
  · split
    · exact ⟨_, Network.modify_at found _, rfl⟩
    · exact ⟨_, Network.modify_at (s := s.setScripts _ _ _) found _, rfl⟩

theorem proceeds (R : Resolver) (found : s.requests[i]? = some r) (unfinished : r.place ≠ .done) :
    ∃ a t r', s.step P a = some t ∧ t.requests[i]? = some r' ∧ r'.place.left < r.place.left := by
  have at_i := Network.placeAt_of found
  cases place : r.place with
  | working theP =>
    rw [place] at at_i
    refine ⟨.complete i R, _, _, ?_, Network.modify_at found fun r =>
      { r with place := .queued (handler P R theP), outcome := some R }, Nat.lt_succ_self 2⟩
    simp only [Network.step, at_i]
  | queued theP =>
    rw [place] at at_i
    obtain ⟨r', found', place'⟩ := serve_at found theP
    refine ⟨.serve i, _, r', ?_, found', ?_⟩
    · simp only [Network.step, at_i]
    · rw [place']
      exact Nat.lt_succ_self 1
  | running theP =>
    rw [place] at at_i
    refine ⟨.unref i, (s.modify i fun r =>
      { r with place := .done, released := r.released + 1 }).addRefs (-1), _, ?_,
      Network.modify_at found _, Nat.lt_succ_self 0⟩
    simp only [Network.step, at_i]
  | idle =>
    rw [place] at at_i
    refine ⟨.idle i, _, _, ?_, Network.modify_at found fun r => { r with place := .timer },
      Nat.lt_succ_self 1⟩
    simp only [Network.step, at_i]
  | timer =>
    rw [place] at at_i
    have stepped : ∃ t, s.step P (.timer i) = some t ∧
        ∃ r', t.requests[i]? = some r' ∧ r'.place = .done := by
      simp only [Network.step, at_i]
      refine ⟨_, rfl, _, Network.modify_at found _, ?_⟩
      split_ifs <;> rfl
    obtain ⟨t, step, r', found', place'⟩ := stepped
    refine ⟨.timer i, t, r', step, found', ?_⟩
    rw [place']
    exact Nat.lt_succ_self 0
  | done => exact absurd place unfinished

theorem answered_of_mem (placed : InPlace P s r) {inv : Invocation} (mem : inv ∈ r.replies) :
    Answered P s r := by
  unfold InPlace at placed
  cases place : r.place with
  | working theP | queued theP =>
    rw [place] at placed
    rw [placed.1.replies] at mem
    cases mem
  | running theP | done =>
    rw [place] at placed
    exact placed.1
  | idle | timer =>
    rw [place] at placed
    rw [placed.2.2.1] at mem
    cases mem

theorem replies_le (placed : InPlace P s r) : r.replies.length ≤ 1 := by
  cases replies : r.replies with
  | nil => exact Nat.zero_le 1
  | cons inv rest =>
    rw [← replies]
    exact (answered_of_mem placed (replies ▸ List.mem_cons_self)).most

theorem released_eq (placed : InPlace P s r) (other : r.lookup ≠ .address anyAddress) :
    r.released = if r.place = .done then 1 else 0 := by
  unfold InPlace at placed
  cases place : r.place with
  | working theP | queued theP =>
    rw [place] at placed
    exact placed.1.released
  | running theP =>
    rw [place] at placed
    exact placed.2.1
  | idle | timer =>
    rw [place] at placed
    exact absurd placed.1 other
  | done =>
    rw [place] at placed
    exact placed.2.trans (if_neg other)

/-- An answer agrees with the lookup that waits where the outcome is such. -/
theorem agrees_own_iff {inv : Invocation} {R : Resolver} (own : Own P r inv)
    (outcome : r.outcome = some R) : Agrees P R r.lookup inv ↔ Meets P R r.lookup := by
  simp only [Own, outcome] at own
  obtain ⟨entry, found, rfl⟩ := own
  exact agrees_iff found

/-- **Asynchronous lookups.** As long as an id that is given is not in the table of scripts
still, every script is invoked at most once, and once if the interpreter survives, with the
outcome of its own lookup, and the reference of every lookup is released once. The scripts
are told what the same lookup returns without `-async`, exactly where the outcomes of those
that were invoked are such. -/
theorem served_iff (run : (machine P w).Reaches FreshId s) :
    Served P s ↔ ∀ r ∈ s.requests, r.replies ≠ [] → ∀ R, r.outcome = some R →
      Meets P R r.lookup := by
  have orderly := reaches_orderly run
  have placed : ∀ r ∈ s.requests, InPlace P s r := by
    intro r mem
    obtain ⟨i, found⟩ := List.mem_iff_getElem?.mp mem
    exact orderly.placed i r found
  constructor
  · intro served r mem replied R outcome
    obtain ⟨inv, isReply⟩ := List.exists_mem_of_ne_nil r.replies replied
    exact (agrees_own_iff (served.own r mem inv isReply) outcome).mp
      (served.agrees r mem inv isReply R (.inr outcome))
  · intro meets
    refine ⟨fun r mem => replies_le (placed r mem), ?_, ?_, ?_,
      fun r mem => released_eq (placed r mem), orderly.refs, ?_⟩
    · intro alive r mem done
      have answered : Answered P s r := by
        have held := placed r mem
        rw [InPlace, done] at held
        exact held.1
      exact Nat.le_antisymm answered.most (List.length_pos_iff.mpr (answered.least alive))
    · exact fun r mem inv isReply => (answered_of_mem (placed r mem) isReply).own inv isReply
    · intro r mem inv isReply R outcome
      have own := (answered_of_mem (placed r mem) isReply).own inv isReply
      rcases outcome with none | some
      · simp only [Own, none] at own
        obtain ⟨any, rfl⟩ := own
        rw [any]
        exact agrees_anyAddress r.script
      · have replied : r.replies ≠ [] := List.ne_nil_of_mem isReply
        exact (agrees_own_iff own some).mpr (meets r mem replied R some)
    · intro i r found unfinished
      exact proceeds ⟨fun _ _ _ => (0, []), fun _ _ => none, fun _ _ => (0, "")⟩ found unfinished

end Served

/-! ### A name server that fails -/

/-- A machine with one name server, whose lookups fail with `status`. -/
def failing (status : Nat) : Resolver :=
  ⟨fun _ _ _ => (status, []), fun _ _ => none, fun _ _ => (status, "")⟩

/-- Words are numbers if they are those below, and no string is a pair. -/
def plainPlatform : Platform where
  toLower s := s
  elements s := some [s]
  toInt s := if s = "0" then some 0 else none
  lstrcmpA s t := if s = t then 0 else 1
  vista := true

/-- A lookup of a name, up to its end. -/
def oneLookup (R : Resolver) : List Label :=
  [.resolve (.hostname "host" "0") "script" true, .complete 0 R, .serve 0, .unref 0]

theorem served_iff_unknownHost :
    ∃ s : Network 64,
      (machine plainPlatform 64).runWhere FreshId .start (oneLookup (failing 11001)) = some s ∧
      s.requests.map (·.replies) = [[⟨"script", "host", .success, .addresses []⟩]] ∧
      Served plainPlatform s := by
  have run := Machine.Reaches.of_run (M := machine plainPlatform 64) (G := FreshId)
    (oneLookup (failing 11001)) rfl rfl
  refine ⟨_, rfl, rfl, (served_iff run).mpr ?_⟩
  intro r mem _ R outcome
  cases List.mem_singleton.mp mem
  cases Option.some.inj outcome
  have other : (11001 : Nat) ≠ 11002 ∧ (11001 : Nat) ≠ 11003 := by decide
  exact other

/-- Error 11002 is an empty list without `-async`, and a failure with it. -/
theorem tryAgain_reported : ¬ ∀ s : Network 64, (machine plainPlatform 64).Reachable s →
    Served plainPlatform s := by
  intro served
  have run := served _ ((Machine.Reaches.of_run (M := machine plainPlatform 64) (G := FreshId)
    (oneLookup (failing 11002)) rfl rfl).mono fun _ _ _ => trivial)
  have agrees := run.agrees _ List.mem_cons_self _ List.mem_cons_self (failing 11002) (.inr rfl)
    (.addresses []) rfl
  cases agrees.1

end Twapi.Resolve
