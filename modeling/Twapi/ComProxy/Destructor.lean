import Mathlib.Data.List.Forall2
import Mathlib.Data.List.Perm.Subperm
import Twapi.ComProxy.Model

/-!
What every state of the proxies keeps, and what a destructor does to it.

* `Inv` — the registry has the proxies with a trace, and every proxy that was made
  is alive, or has released its reference once, or has its destructor running: those
  are the `pending` ones.
* `Finds` — the destructors that a `destroy` runs find the proxy of their ITypeComp;
  `destroyWith_spec` says what they do then.
-/

namespace Twapi.ComProxy

variable {Ifc Name : Type} {P : Pointers Ifc} {s t : State Ifc Name} {pending : List Nat}

/-! ### The invariant -/

/-- The releases of the reference of a proxy. -/
def State.releasesOf (s : State Ifc Name) (id : Nat) : Nat :=
  s.releases.countP fun e => decide (e.1 = .proxy id)

structure Inv (P : Pointers Ifc) (pending : List Nat) (s : State Ifc Name) : Prop where
  registered : ∀ i n, s.registry i = some n ↔
    ∃ p, s.proxies n = some p ∧ p.traced ∧ p.ifc = i
  made : ∀ n p, s.proxies n = some p → s.created[p.id]? = some p.ifc
  distinct : ∀ n m p q, s.proxies n = some p → s.proxies m = some q → p.id = q.id → n = m
  null : ∀ n p, s.proxies n = some p → (p.cls = .null ↔ P.null p.ifc)
  holds : ∀ n p, s.proxies n = some p → s.releasesOf p.id = 0
  waits : ∀ id ∈ pending, s.releasesOf id = 0
  once : ∀ id i, s.created[id]? = some i → P.null i = false → id ∉ pending →
    (∀ n p, s.proxies n = some p → p.id ≠ id) → s.releasesOf id = 1
  owns : ∀ id i, (.proxy id, i) ∈ s.releases → s.created[id]? = some i

theorem Inv.start : Inv P [] (.start : State Ifc Name) where
  registered i n := by
    constructor
    · nofun
    · rintro ⟨p, h, -⟩
      cases h
  made n p at_ := nomatch at_
  distinct n m p q at_ := nomatch at_
  null n p at_ := nomatch at_
  holds n p at_ := nomatch at_
  waits id among := nomatch among
  once id i made := nomatch made
  owns id i among := nomatch among

/-- A reference of the caller is released. -/
theorem Inv.release_caller (inv : Inv P pending s) (i : Ifc) :
    Inv P pending (s.release .caller i) := by
  have same (id : Nat) : (s.release .caller i).releasesOf id = s.releasesOf id :=
    List.countP_cons_of_neg (by simp)
  exact
    { registered := inv.registered
      made := inv.made
      distinct := inv.distinct
      null := inv.null
      holds := fun n p h => (same p.id).trans (inv.holds n p h)
      waits := fun id h => (same id).trans (inv.waits id h)
      once := fun id i made nonnull out gone => (same id).trans (inv.once id i made nonnull out gone)
      owns := by
        intro id i' among
        cases among with
        | tail _ among => exact inv.owns id i' among }

variable {p q : Proxy Ifc Name} {n : Name} {running : List Name}

/-- A proxy starts to be destroyed. -/
theorem Inv.starts (inv : Inv P pending s) (at_ : s.proxies n = some p) :
    Inv P (p.id :: pending) s where
  registered := inv.registered
  made := inv.made
  distinct := inv.distinct
  null := inv.null
  holds := inv.holds
  waits := by
    intro id among
    cases among with
    | head => exact inv.holds n p at_
    | tail _ among => exact inv.waits id among
  once id i made nonnull out := inv.once id i made nonnull fun among => out (.tail _ among)
  owns := inv.owns

/-- Two proxies that differ in what no count depends on. -/
def Alike (p q : Proxy Ifc Name) : Prop :=
  q.id = p.id ∧ q.ifc = p.ifc ∧ q.cls = p.cls ∧ q.traced = p.traced

theorem Alike.refl (p : Proxy Ifc Name) : Alike p p := ⟨rfl, rfl, rfl, rfl⟩

theorem Alike.trans {p q r : Proxy Ifc Name} (first : Alike p q) (next : Alike q r) : Alike p r :=
  ⟨next.1.trans first.1, next.2.1.trans first.2.1, next.2.2.1.trans first.2.2.1,
    next.2.2.2.trans first.2.2.2⟩

/-- Proxies may go, and no other comes. -/
def Shrinks (s t : State Ifc Name) : Prop :=
  t.created = s.created ∧ ∀ n q, t.proxies n = some q → ∃ p, s.proxies n = some p ∧ Alike p q

theorem Shrinks.refl (s : State Ifc Name) : Shrinks s s := ⟨rfl, fun _ q h => ⟨q, h, .refl q⟩⟩

variable {u : State Ifc Name}

theorem Shrinks.trans (first : Shrinks s t) (next : Shrinks t u) :
    Shrinks s u := by
  refine ⟨next.1.trans first.1, fun n q h => ?_⟩
  obtain ⟨p, h, same⟩ := next.2 n q h
  obtain ⟨p', h', same'⟩ := first.2 n p h
  exact ⟨p', h', same'.trans same⟩

theorem shrinks_nativeRelease (p : Proxy Ifc Name) : Shrinks s (s.nativeRelease p) := by
  unfold State.nativeRelease
  split
  · exact .refl s
  · exact ⟨rfl, fun _ q h => ⟨q, h, .refl q⟩⟩

/-! ### Destructors that are running -/

/-- The proxies whose destructors are running. -/
structure Stack (s : State Ifc Name) (running : List Name) (pending : List Nat) : Prop where
  ids : List.Forall₂ (fun n id => ∃ p, s.proxies n = some p ∧ p.id = id) running pending
  nodup : pending.Nodup

theorem Stack.mem_pending (stack : Stack s running pending) (at_ : s.proxies n = some p)
    (among : n ∈ running) : p.id ∈ pending := by
  obtain ⟨ids, -⟩ := stack
  induction ids with
  | nil => cases among
  | cons first _ ih =>
    cases among with
    | head =>
      obtain ⟨q, h, rfl⟩ := first
      cases at_.symm.trans h
      exact .head _
    | tail _ among => exact .tail _ (ih among)

theorem Stack.mem_running (stack : Stack s running pending) (inv : Inv P pending s)
    (at_ : s.proxies n = some p) (among : p.id ∈ pending) : n ∈ running := by
  have distinct := inv.distinct
  obtain ⟨ids, -⟩ := stack
  clear inv
  induction ids with
  | nil => cases among
  | cons first _ ih =>
    cases among with
    | head =>
      obtain ⟨q, h, same⟩ := first
      cases distinct _ _ _ _ h at_ same
      exact .head _
    | tail _ among => exact .tail _ (ih among)

/-- There are as many as there are proxies at most. -/
theorem Stack.length_le (stack : Stack s running pending) (inv : Inv P pending s) :
    running.length ≤ s.created.length := by
  rw [stack.ids.length_eq, ← List.length_range (n := s.created.length)]
  refine (stack.nodup.subperm fun id among => ?_).length_le
  obtain ⟨n, -, p, at_, rfl⟩ : ∃ n ∈ running, ∃ p, s.proxies n = some p ∧ p.id = id := by
    obtain ⟨ids, -⟩ := stack
    clear inv
    induction ids with
    | nil => cases among
    | cons first _ ih =>
      cases among with
      | head => exact ⟨_, .head _, first⟩
      | tail _ among =>
        obtain ⟨n, mem, h⟩ := ih among
        exact ⟨n, .tail _ mem, h⟩
  have bound := (List.getElem?_eq_some_iff.mp (inv.made n p at_)).1
  exact List.mem_range.mpr bound

theorem Stack.push (stack : Stack s running pending) (inv : Inv P pending s)
    (at_ : s.proxies n = some p) (fresh : n ∉ running) : Stack s (n :: running) (p.id :: pending) :=
  ⟨.cons ⟨p, at_, rfl⟩ stack.ids,
    List.nodup_cons.mpr ⟨fun among => fresh (stack.mem_running inv at_ among), stack.nodup⟩⟩

/-! ### Changes of one proxy -/

variable [DecidableEq Name]

@[simp] theorem set_proxies_self (n : Name) (p : Option (Proxy Ifc Name)) :
    (s.set n p).proxies n = p := by
  show Function.update s.proxies n p n = p
  rw [Function.update_self]

theorem set_proxies_ne {n m : Name} (other : m ≠ n) (p : Option (Proxy Ifc Name)) :
    (s.set n p).proxies m = s.proxies m := by
  show Function.update s.proxies n p m = s.proxies m
  rw [Function.update_of_ne other]

/-- A proxy is replaced by one that is alike. -/
theorem Inv.alike (inv : Inv P pending s) (at_ : s.proxies n = some p) (same : Alike p q) :
    Inv P pending (s.set n (some q)) := by
  obtain ⟨id, ifc, cls, traced⟩ := same
  have back {m : Name} {q' : Proxy Ifc Name} (h : (s.set n (some q)).proxies m = some q') :
      ∃ p', s.proxies m = some p' ∧ Alike p' q' := by
    by_cases here : m = n
    · subst here
      rw [set_proxies_self] at h
      cases h
      exact ⟨p, at_, id, ifc, cls, traced⟩
    · rw [set_proxies_ne here] at h
      exact ⟨q', h, .refl q'⟩
  have forth {m : Name} {p' : Proxy Ifc Name} (h : s.proxies m = some p') :
      ∃ q', (s.set n (some q)).proxies m = some q' ∧ Alike p' q' := by
    by_cases here : m = n
    · subst here
      cases at_.symm.trans h
      exact ⟨q, set_proxies_self m _, id, ifc, cls, traced⟩
    · exact ⟨p', (set_proxies_ne here _).trans h, .refl p'⟩
  constructor
  · intro i m
    refine (inv.registered i m).trans ⟨?_, ?_⟩
    · rintro ⟨p', h, tr, rfl⟩
      obtain ⟨q', h', same⟩ := forth h
      exact ⟨q', h', same.2.2.2.trans tr, same.2.1⟩
    · rintro ⟨q', h, tr, rfl⟩
      obtain ⟨p', h', same⟩ := back h
      exact ⟨p', h', same.2.2.2.symm.trans tr, same.2.1.symm⟩
  · intro m q' h
    obtain ⟨p', h', same⟩ := back h
    rw [same.1, same.2.1]
    exact inv.made m p' h'
  · intro m m' q₁ q₂ h₁ h₂ eq
    obtain ⟨p₁, h₁, same₁⟩ := back h₁
    obtain ⟨p₂, h₂, same₂⟩ := back h₂
    exact inv.distinct m m' p₁ p₂ h₁ h₂ (same₁.1.symm.trans (eq.trans same₂.1))
  · intro m q' h
    obtain ⟨p', h', same⟩ := back h
    rw [same.2.2.1, same.2.1]
    exact inv.null m p' h'
  · intro m q' h
    obtain ⟨p', h', same⟩ := back h
    rw [same.1]
    exact inv.holds m p' h'
  · exact inv.waits
  · intro id' i' made nonnull out gone
    refine inv.once id' i' made nonnull out fun m p' h eq => ?_
    obtain ⟨q', h', same⟩ := forth h
    exact gone m q' h' (same.1.trans eq)
  · exact inv.owns

theorem Inv.incr (inv : Inv P pending s) (at_ : s.proxies n = some p) (k : Int) :
    Inv P pending (s.incr n p k) :=
  inv.alike at_ ⟨rfl, rfl, rfl, rfl⟩

theorem shrinks_alike (at_ : s.proxies n = some p) (same : Alike p q) :
    Shrinks s (s.set n (some q)) := by
  refine ⟨rfl, fun m q' h => ?_⟩
  by_cases here : m = n
  · subst here
    rw [set_proxies_self] at h
    cases h
    exact ⟨p, at_, same⟩
  · rw [set_proxies_ne here] at h
    exact ⟨q', h, .refl q'⟩

theorem shrinks_incr (at_ : s.proxies n = some p) (k : Int) :
    Shrinks s (s.incr n p k) := shrinks_alike at_ ⟨rfl, rfl, rfl, rfl⟩

theorem Stack.incr (stack : Stack s running pending) (at_ : s.proxies n = some p) (k : Int) :
    Stack (s.incr n p k) running pending := by
  refine ⟨stack.ids.imp fun m id h => ?_, stack.nodup⟩
  obtain ⟨q, hq, same⟩ := h
  by_cases here : m = n
  · subst here
    cases at_.symm.trans hq
    exact ⟨_, set_proxies_self m _, same⟩
  · exact ⟨q, (set_proxies_ne here _).trans hq, same⟩

/-! ### Commands that go -/

variable [DecidableEq Ifc]

theorem remove_proxies (m : Name) :
    (s.remove n).proxies m = if m = n then none else s.proxies m := by
  unfold State.remove
  by_cases here : m = n
  · subst here
    rw [if_pos rfl]
    split
    · assumption
    · exact set_proxies_self m none
  · rw [if_neg here]
    split
    · rfl
    · exact set_proxies_ne here none

theorem remove_created (n : Name) : (s.remove n).created = s.created := by
  unfold State.remove
  split <;> rfl

theorem remove_releases (n : Name) : (s.remove n).releases = s.releases := by
  unfold State.remove
  split <;> rfl

/-- The registry follows the command that is deleted. -/
theorem remove_registered
    (registered : ∀ i n, s.registry i = some n ↔ ∃ p, s.proxies n = some p ∧ p.traced ∧ p.ifc = i)
    (i : Ifc) (m : Name) :
    (s.remove n).registry i = some m ↔
      ∃ p, (s.remove n).proxies m = some p ∧ p.traced ∧ p.ifc = i := by
  simp only [remove_proxies]
  unfold State.remove
  cases at_ : s.proxies n with
  | none =>
    dsimp only
    rw [registered]
    by_cases here : m = n
    · subst here
      rw [at_, if_pos rfl]
    · rw [if_neg here]
  | some p =>
    dsimp only
    by_cases here : m = n
    · subst here
      rw [if_pos rfl]
      constructor
      · intro reg
        exfalso
        by_cases tr : p.traced
        · rw [if_pos tr] at reg
          by_cases same : i = p.ifc
          · subst same
            rw [Function.update_self] at reg
            cases reg
          · rw [Function.update_of_ne same] at reg
            obtain ⟨q, hq, -, rfl⟩ := (registered i m).mp reg
            cases at_.symm.trans hq
            exact same rfl
        · rw [if_neg tr] at reg
          obtain ⟨q, hq, tr', -⟩ := (registered i m).mp reg
          cases at_.symm.trans hq
          exact tr tr'
      · rintro ⟨q, h, -⟩
        cases h
    · rw [if_neg here, ← registered]
      by_cases tr : p.traced
      · rw [if_pos tr]
        by_cases same : i = p.ifc
        · subst same
          rw [Function.update_self]
          have own := (registered p.ifc n).mpr ⟨p, at_, tr, rfl⟩
          rw [own]
          constructor
          · nofun
          · intro h
            exact absurd (Option.some.inj h).symm here
        · rw [Function.update_of_ne same]
      · rw [if_neg tr]

/-- The command of a proxy whose destructor is running is deleted. -/
theorem Inv.remove_running (inv : Inv P pending s)
    (running : ∀ p, s.proxies n = some p → p.id ∈ pending) : Inv P pending (s.remove n) := by
  have still {m : Name} {p : Proxy Ifc Name} (h : (s.remove n).proxies m = some p) :
      s.proxies m = some p := by
    rw [remove_proxies] at h
    split at h
    · cases h
    · exact h
  exact
    { registered := remove_registered inv.registered
      made := fun m p h => by rw [remove_created]; exact inv.made m p (still h)
      distinct := fun m m' p q h h' => inv.distinct m m' p q (still h) (still h')
      null := fun m p h => inv.null m p (still h)
      holds := fun m p h => by
        rw [State.releasesOf, remove_releases]; exact inv.holds m p (still h)
      waits := fun id h => by rw [State.releasesOf, remove_releases]; exact inv.waits id h
      once := by
        intro id i made nonnull out gone
        rw [remove_created] at made
        rw [State.releasesOf, remove_releases]
        refine inv.once id i made nonnull out fun m p h eq => ?_
        by_cases here : m = n
        · subst here
          exact out (eq ▸ running p h)
        · exact gone m p (by rw [remove_proxies, if_neg here]; exact h) eq
      owns := fun id i among => by
        rw [remove_releases] at among
        rw [remove_created]
        exact inv.owns id i among }

/-- The end of a destructor: the reference is released, and the command is deleted
if it is still there. -/
theorem Inv.finish (inv : Inv P (p.id :: pending) s) (fresh : p.id ∉ pending)
    (made : s.created[p.id]? = some p.ifc) (null : p.cls = .null ↔ P.null p.ifc)
    (here : ∀ m q, s.proxies m = some q → (q.id = p.id ↔ m = n)) :
    Inv P pending ((s.nativeRelease p).remove n) := by
  have proxies : (s.nativeRelease p).proxies = s.proxies := by
    unfold State.nativeRelease
    split <;> rfl
  have registry : (s.nativeRelease p).registry = s.registry := by
    unfold State.nativeRelease
    split <;> rfl
  have created : (s.nativeRelease p).created = s.created := by
    unfold State.nativeRelease
    split <;> rfl
  have other (id : Nat) (ne : id ≠ p.id) :
      ((s.nativeRelease p).remove n).releasesOf id = s.releasesOf id := by
    rw [State.releasesOf, remove_releases]
    unfold State.nativeRelease
    split
    · rfl
    · exact List.countP_cons_of_neg (by simp [Ne.symm ne])
  have self (nonnull : P.null p.ifc = false) :
      ((s.nativeRelease p).remove n).releasesOf p.id = 1 := by
    have notNull : p.cls ≠ .null := fun cls => by simp [null.mp cls] at nonnull
    have before := inv.waits p.id (.head _)
    rw [State.releasesOf, remove_releases, State.nativeRelease, if_neg notNull]
    exact (List.countP_cons_of_pos (by simp)).trans (congrArg (· + 1) before)
  have still {m : Name} {q : Proxy Ifc Name}
      (h : ((s.nativeRelease p).remove n).proxies m = some q) :
      m ≠ n ∧ s.proxies m = some q := by
    rw [remove_proxies, proxies] at h
    split at h
    · cases h
    · exact ⟨‹_›, h⟩
  constructor
  · apply remove_registered
    rw [registry, proxies]
    exact inv.registered
  · intro m q h
    rw [remove_created, created]
    exact inv.made m q (still h).2
  · intro m m' q q' h h'
    exact inv.distinct m m' q q' (still h).2 (still h').2
  · intro m q h
    exact inv.null m q (still h).2
  · intro m q h
    obtain ⟨ne, h⟩ := still h
    rw [other q.id fun eq => ne ((here m q h).mp eq)]
    exact inv.holds m q h
  · intro id among
    rw [other id (fun eq => fresh (eq ▸ among))]
    exact inv.waits id (.tail _ among)
  · intro id i made' nonnull out gone
    rw [remove_created, created] at made'
    by_cases same : id = p.id
    · subst same
      cases made.symm.trans made'
      exact self nonnull
    · rw [other id same]
      refine inv.once id i made' nonnull ?_ fun m q h eq => ?_
      · intro among
        cases among with
        | head => exact same rfl
        | tail _ among => exact out among
      · have ne : m ≠ n := fun eq' => same (eq.symm.trans ((here m q h).mpr eq'))
        exact gone m q (by rw [remove_proxies, if_neg ne, proxies]; exact h) eq
  · intro id i among
    rw [remove_releases] at among
    rw [remove_created, created]
    unfold State.nativeRelease at among
    split at among
    · exact inv.owns id i among
    · cases among with
      | head => exact made
      | tail _ among => exact inv.owns id i among

/-! ### Destructors -/

theorem shrinks_remove (n : Name) : Shrinks s (s.remove n) := by
  refine ⟨remove_created n, fun m q h => ⟨q, ?_, .refl q⟩⟩
  rw [remove_proxies] at h
  split at h
  · cases h
  · exact h

/-- The destructor of the proxy finds the one it has to release, and so do those that
are started by that. -/
def Finds : Nat → List Name → State Ifc Name → Name → Prop
  | 0, _, _, _ => True
  | depth + 1, running, s, n =>
    n ∈ running ∨ ∀ p t, s.proxies n = some p → p.held = some t →
      ∃ q, s.proxies t = some q ∧
        (q.nrefs = 1 → Finds depth (n :: running) (s.incr t q (-1)) t)

/-- The end of a destructor that found what it had to release. -/
theorem Inv.finishes (inv : Inv P pending s) (at_ : s.proxies n = some p) (fresh : p.id ∉ pending)
    (inv' : Inv P (p.id :: pending) u) (shrinks : Shrinks s u) :
    Inv P pending ((u.nativeRelease p).remove n) ∧
      Shrinks s ((u.nativeRelease p).remove n) := by
  constructor
  · apply inv'.finish fresh
    · rw [shrinks.1]
      exact inv.made n p at_
    · exact inv.null n p at_
    · intro m q h
      obtain ⟨p', h', same⟩ := shrinks.2 m q h
      constructor
      · intro eq
        exact inv.distinct m n p' p h' at_ (same.1.symm.trans eq)
      · rintro rfl
        cases at_.symm.trans h'
        exact same.1
  · exact shrinks.trans ((shrinks_nativeRelease p).trans (shrinks_remove n))

/-- Where the destructors find what they release, nothing fails, and each of them has
released its reference. -/
theorem destroyWith_spec (depth : Nat) :
    ∀ {running : List Name} {pending : List Nat} {s : State Ifc Name} {n : Name}
      {p : Proxy Ifc Name}, Inv P pending s → s.proxies n = some p → Stack s running pending →
      s.created.length < depth + running.length → Finds depth running s n →
      (destroyWith depth running s n).2 = true ∧ Inv P pending (destroyWith depth running s n).1 ∧
        Shrinks s (destroyWith depth running s n).1 := by
  induction depth with
  | zero =>
    intro running pending s n p inv _ stack enough _
    have := stack.length_le inv
    omega
  | succ depth ih =>
    intro running pending s n p inv at_ stack enough finds
    rw [destroyWith, at_]
    dsimp only
    by_cases among : n ∈ running
    · rw [if_pos among]
      refine ⟨rfl, inv.remove_running fun q h => ?_, shrinks_remove n⟩
      exact stack.mem_pending h among
    · rw [if_neg among]
      have fresh : p.id ∉ pending := fun mem => among (stack.mem_running inv at_ mem)
      unfold destructorBy
      cases held : p.held with
      | none => exact ⟨rfl, inv.finishes at_ fresh (inv.starts at_) (.refl s)⟩
      | some t =>
        obtain ⟨q, there, next⟩ := (finds.resolve_left among) p t at_ held
        have inv' := (inv.starts at_).incr there (-1)
        have shrinks := shrinks_incr there (-1)
        have released : (releaseBy (destroyWith depth (n :: running)) s t).2 = true ∧
            Inv P (p.id :: pending) (releaseBy (destroyWith depth (n :: running)) s t).1 ∧
            Shrinks s (releaseBy (destroyWith depth (n :: running)) s t).1 := by
          unfold releaseBy
          rw [there]
          dsimp only
          by_cases last : q.nrefs = 1
          · rw [if_pos last]
            have nested := ih (p := { q with nrefs := q.nrefs + -1 }) inv'
              (set_proxies_self t _) ((stack.push inv at_ among).incr there (-1))
              (by rw [List.length_cons]; exact (Nat.add_right_comm depth 1 _) ▸ enough)
              (next last)
            exact ⟨nested.1, nested.2.1, shrinks.trans nested.2.2⟩
          · rw [if_neg last]
            exact ⟨rfl, inv', shrinks⟩
        dsimp only
        generalize releaseBy (destroyWith depth (n :: running)) s t = result at released ⊢
        obtain ⟨u, ok⟩ := result
        obtain ⟨rfl, inv', shrinks⟩ := released
        exact ⟨rfl, inv.finishes at_ fresh inv' shrinks⟩

/-- The destructors that `destroy` runs. -/
abbrev FindsAll (s : State Ifc Name) (n : Name) : Prop := Finds (s.created.length + 1) [] s n

theorem Inv.destroy (inv : Inv P [] s) (finds : FindsAll s n) :
    Inv P [] (destroy s n) := by
  unfold ComProxy.destroy
  cases at_ : s.proxies n with
  | none =>
    rw [destroyWith, at_]
    exact inv
  | some p =>
    have empty : Stack s [] [] := ⟨.nil, .nil⟩
    exact (destroyWith_spec _ inv at_ empty (by simp) finds).2.1

end Twapi.ComProxy
