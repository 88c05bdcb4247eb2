import Twapi.Lib.Table
import Twapi.ComProxy.Destructor

/-!
The registry of proxies and the native references they hold, over whole runs.

`reaches_good`: in runs in which proxies are made by `make_interface_proxy` and every
destructor finds what it has to release, the registry has the proxies that are alive
and each reference is released once.
-/

namespace Twapi.ComProxy

open Lib Function

variable {Ifc Name : Type} [DecidableEq Name] [DecidableEq Ifc] {P : Pointers Ifc}
  {s t : State Ifc Name}

/-! ### New proxies and new names -/

variable {n : Name} {i : Ifc}

/-- A proxy is made; with a trace it is registered too. -/
theorem Inv.add {cls : Class} (traced : Bool) (inv : Inv P [] s) (free : s.proxies n = none)
    (null : cls = .null ↔ P.null i) (unregistered : traced → s.registry i = none) :
    Inv P [] { s.add n i cls traced with
      registry := if traced then Function.update s.registry i (some n) else s.registry } := by
  have back {m : Name} {q : Proxy Ifc Name} (h : (s.add n i cls traced).proxies m = some q) :
      (m = n ∧ q = ⟨s.created.length, i, cls, 1, none, traced⟩) ∨
        (m ≠ n ∧ s.proxies m = some q) := by
    by_cases here : m = n
    · subst here
      exact .inl ⟨rfl, (Option.some.inj ((set_proxies_self m _).symm.trans h)).symm⟩
    · exact .inr ⟨here, (set_proxies_ne here _).symm.trans h⟩
  have forth {m : Name} {q : Proxy Ifc Name} (h : s.proxies m = some q) :
      (s.add n i cls traced).proxies m = some q := by
    have ne : m ≠ n := by
      rintro rfl
      cases free.symm.trans h
    exact (set_proxies_ne ne _).trans h
  have self : (s.add n i cls traced).proxies n =
      some ⟨s.created.length, i, cls, 1, none, traced⟩ := set_proxies_self n _
  have older {id : Nat} {j : Ifc} (h : s.created[id]? = some j) :
      id ≠ s.created.length ∧ (s.created ++ [i])[id]? = some j := by
    have bound := (List.getElem?_eq_some_iff.mp h).1
    exact ⟨Nat.ne_of_lt bound, (List.getElem?_append_left bound).trans h⟩
  have none_yet : s.releasesOf s.created.length = 0 := by
    apply List.countP_eq_zero.mpr
    rintro ⟨owner, j⟩ among same
    cases of_decide_eq_true same
    exact (older (inv.owns _ _ among)).1 rfl
  constructor
  · intro j m
    constructor
    · intro reg
      by_cases fresh : traced = true ∧ j = i
      · obtain ⟨rfl, rfl⟩ := fresh
        dsimp only at reg
        rw [if_pos rfl, update_self] at reg
        cases reg
        exact ⟨_, self, rfl, rfl⟩
      · have reg : s.registry j = some m := by
          dsimp only at reg
          split at reg
          · rwa [update_of_ne fun eq => fresh ⟨‹_›, eq⟩] at reg
          · exact reg
        obtain ⟨q, h, rest⟩ := (inv.registered j m).mp reg
        exact ⟨q, forth h, rest⟩
    · rintro ⟨q, h, tr, rfl⟩
      dsimp only
      obtain ⟨rfl, rfl⟩ | ⟨ne, h⟩ := back h
      · rw [if_pos tr, update_self]
      · have reg := (inv.registered q.ifc m).mpr ⟨q, h, tr, rfl⟩
        split
        · have ne' : q.ifc ≠ i := by
            rintro eq
            rw [eq, unregistered ‹_›] at reg
            cases reg
          rwa [update_of_ne ne']
        · exact reg
  · intro m q h
    obtain ⟨rfl, rfl⟩ | ⟨ne, h⟩ := back h
    · exact List.getElem?_concat_length
    · exact (older (inv.made m q h)).2
  · intro m m' q q' h h' eq
    obtain ⟨rfl, rfl⟩ | ⟨-, old⟩ := back h
    · obtain ⟨rfl, rfl⟩ | ⟨-, old'⟩ := back h'
      · rfl
      · exact absurd eq.symm (older (inv.made m' q' old')).1
    · obtain ⟨rfl, rfl⟩ | ⟨-, old'⟩ := back h'
      · exact absurd eq (older (inv.made m q old)).1
      · exact inv.distinct m m' q q' old old' eq
  · intro m q h
    obtain ⟨rfl, rfl⟩ | ⟨ne, h⟩ := back h
    · exact null
    · exact inv.null m q h
  · intro m q h
    obtain ⟨rfl, rfl⟩ | ⟨ne, h⟩ := back h
    · exact none_yet
    · exact inv.holds m q h
  · nofun
  · intro id j made nonnull out gone
    obtain ⟨rfl, rfl⟩ | made := lookup_snoc made
    · exact absurd rfl (gone n _ self)
    · exact inv.once id j made nonnull out fun m q h => gone m q (forth h)
  · intro id j among
    exact (older (inv.owns id j among)).2

omit [DecidableEq Ifc] in
/-- What is at a name after a proxy got another one. -/
theorem proxies_rename {old new m : Name} {p q : Proxy Ifc Name} (apart : old ≠ new) :
    ((s.set old none).set new (some p)).proxies m = some q ↔
      m = new ∧ q = p ∨ m ≠ old ∧ m ≠ new ∧ s.proxies m = some q := by
  by_cases is_new : m = new
  · subst is_new
    rw [set_proxies_self]
    simp [eq_comm]
  · rw [set_proxies_ne is_new]
    by_cases is_old : m = old
    · subst is_old
      rw [set_proxies_self]
      simp [is_new]
    · rw [set_proxies_ne is_old]
      simp [is_new, is_old]

/-- A proxy gets another name, and so has the registry. -/
theorem Inv.rename {old new : Name} {p : Proxy Ifc Name} (inv : Inv P [] s)
    (at_ : s.proxies old = some p) (free : s.proxies new = none) :
    Inv P [] { (s.set old none).set new (some p) with
      registry := if p.traced then Function.update s.registry p.ifc (some new) else s.registry } := by
  have apart : old ≠ new := by
    rintro rfl
    cases free.symm.trans at_
  have self : ((s.set old none).set new (some p)).proxies new = some p :=
    (proxies_rename apart).mpr (.inl ⟨rfl, rfl⟩)
  have not_new {m : Name} {q : Proxy Ifc Name} (h : s.proxies m = some q) : m ≠ new := by
    rintro rfl
    cases free.symm.trans h
  /- Each proxy was somewhere before, and is somewhere now. -/
  have before {m : Name} {q : Proxy Ifc Name}
      (h : ((s.set old none).set new (some p)).proxies m = some q) :
      ∃ m', s.proxies m' = some q := by
    obtain ⟨rfl, rfl⟩ | ⟨-, -, h⟩ := (proxies_rename apart).mp h
    · exact ⟨old, at_⟩
    · exact ⟨m, h⟩
  have after {m : Name} {q : Proxy Ifc Name} (h : s.proxies m = some q) :
      ∃ m', ((s.set old none).set new (some p)).proxies m' = some q := by
    by_cases is_old : m = old
    · subst is_old
      cases at_.symm.trans h
      exact ⟨new, self⟩
    · exact ⟨m, (proxies_rename apart).mpr (.inr ⟨is_old, not_new h, h⟩)⟩
  constructor
  · intro i m
    constructor
    · intro reg
      dsimp only at reg
      by_cases changed : p.traced = true ∧ i = p.ifc
      · obtain ⟨tr, rfl⟩ := changed
        rw [if_pos tr, update_self] at reg
        cases reg
        exact ⟨p, self, tr, rfl⟩
      · have reg : s.registry i = some m := by
          split at reg
          · rwa [update_of_ne fun eq => changed ⟨‹_›, eq⟩] at reg
          · exact reg
        obtain ⟨q, h, tr, rfl⟩ := (inv.registered i m).mp reg
        have is_old : m ≠ old := by
          rintro rfl
          cases at_.symm.trans h
          exact changed ⟨tr, rfl⟩
        exact ⟨q, (proxies_rename apart).mpr (.inr ⟨is_old, not_new h, h⟩), tr, rfl⟩
    · rintro ⟨q, h, tr, rfl⟩
      dsimp only
      obtain ⟨rfl, rfl⟩ | ⟨is_old, is_new, h⟩ := (proxies_rename apart).mp h
      · rw [if_pos tr, update_self]
      · have reg := (inv.registered q.ifc m).mpr ⟨q, h, tr, rfl⟩
        split
        · have ne : q.ifc ≠ p.ifc := by
            intro eq
            have own := (inv.registered p.ifc old).mpr ⟨p, at_, ‹_›, rfl⟩
            exact is_old (Option.some.inj (reg.symm.trans (eq ▸ own)))
          rwa [update_of_ne ne]
        · exact reg
  · intro m q h
    obtain ⟨m', h⟩ := before h
    exact inv.made m' q h
  · intro m m' q q' h h' eq
    obtain ⟨rfl, rfl⟩ | ⟨is_old, -, at₁⟩ := (proxies_rename apart).mp h
    · obtain ⟨rfl, rfl⟩ | ⟨is_old', -, at₂⟩ := (proxies_rename apart).mp h'
      · rfl
      · exact absurd (inv.distinct _ _ _ _ at_ at₂ eq).symm is_old'
    · obtain ⟨rfl, rfl⟩ | ⟨-, -, at₂⟩ := (proxies_rename apart).mp h'
      · exact absurd (inv.distinct _ _ _ _ at₁ at_ eq) is_old
      · exact inv.distinct m m' q q' at₁ at₂ eq
  · intro m q h
    obtain ⟨m', h⟩ := before h
    exact inv.null m' q h
  · intro m q h
    obtain ⟨m', h⟩ := before h
    exact inv.holds m' q h
  · nofun
  · intro id i made nonnull out none_
    refine inv.once id i made nonnull out fun m q h => ?_
    obtain ⟨m', h⟩ := after h
    exact none_ m' q h
  · exact inv.owns

/-! ### Steps -/

theorem Inv.make (inv : Inv P [] s) :
    Inv P [] (makeInterfaceProxy P s i n).1 := by
  unfold makeInterfaceProxy
  cases reg : s.registry i with
  | some proxy =>
    dsimp only
    cases at_ : s.proxies proxy with
    | none => exact inv
    | some p =>
      dsimp only
      split
      · exact inv.incr at_ 1
      · exact (inv.incr at_ 1).release_caller i
  | none =>
    dsimp only
    split
    · rename_i cls cls_eq free
      refine inv.add _ free ?_ fun _ => reg
      unfold Pointers.proxyClass at cls_eq
      split at cls_eq
      · rename_i null
        cases cls_eq
        exact iff_of_true rfl null
      · rename_i nonnull
        refine iff_of_false ?_ nonnull
        rintro rfl
        exact P.cls_ne i cls_eq
    · exact inv

theorem Inv.new (inv : Inv P [] s) : Inv P [] (newProxy P s i n) := by
  unfold newProxy
  split
  · exact inv
  · rename_i nonnull
    split
    · rename_i cls cls_eq free
      refine inv.add false free (iff_of_false ?_ nonnull) nofun
      rintro rfl
      exact P.cls_ne i cls_eq
    · exact inv

theorem Inv.initTypeComp {d : Name} {found : Option (Ifc × Name)} (inv : Inv P [] s) :
    Inv P [] (initTypeComp P s d found) := by
  unfold ComProxy.initTypeComp
  cases at_ : s.proxies d with
  | none => exact inv
  | some p =>
    dsimp only
    split
    · cases found with
      | none => exact inv.alike at_ ⟨rfl, rfl, rfl, rfl⟩
      | some target =>
        have made := inv.make (i := target.1) (n := target.2)
        dsimp only
        generalize makeInterfaceProxy P s target.1 target.2 = result at made
        obtain ⟨u, name⟩ := result
        cases name with
        | none => exact made
        | some t =>
          dsimp only
          cases at' : u.proxies d with
          | none => exact made
          | some q => exact made.alike at' ⟨rfl, rfl, rfl, rfl⟩
    · exact inv

/-- A step whose destructors find what they release. -/
def Step.Clean (s : State Ifc Name) : Step Ifc Name → Prop
  | .delete n | .destroy n => FindsAll s n
  | .release n => ∀ p, s.proxies n = some p → p.nrefs = 1 → FindsAll (s.incr n p (-1)) n
  | _ => True

variable {a : Step Ifc Name}

theorem Inv.step (inv : Inv P [] s) (clean : a.Clean s) :
    Inv P [] (step P s a) := by
  cases a with
  | make i n => exact inv.make
  | new i n => exact inv.new
  | rename old new =>
    unfold ComProxy.step renameProxy
    dsimp only
    split
    · rename_i p at_ free
      exact inv.rename at_ free
    · exact inv
  | delete n | destroy n => exact inv.destroy clean
  | addRef n =>
    unfold ComProxy.step
    dsimp only
    cases at_ : s.proxies n with
    | none => exact inv
    | some p => exact inv.incr at_ 1
  | release n =>
    unfold ComProxy.step releaseBy
    dsimp only
    cases at_ : s.proxies n with
    | none => exact inv
    | some p =>
      dsimp only
      split
      · rename_i last
        exact (inv.incr at_ (-1)).destroy (clean p at_ last)
      · exact inv.incr at_ (-1)
  | initTypeComp d found => exact inv.initTypeComp

/-! ### Runs -/

/-- Where every proxy is made by `make_interface_proxy`, it has a trace. -/
def AllTraced (s : State Ifc Name) : Prop := ∀ n p, s.proxies n = some p → p.traced

omit [DecidableEq Ifc] [DecidableEq Name] in
theorem AllTraced.shrinks (all : AllTraced s) (shrinks : Shrinks s t) : AllTraced t := by
  intro n q h
  obtain ⟨p, h, same⟩ := shrinks.2 n q h
  exact same.2.2.2.trans (all n p h)

theorem AllTraced.destroy (all : AllTraced s) (inv : Inv P [] s) (finds : FindsAll s n) :
    AllTraced (destroy s n) := by
  unfold ComProxy.destroy
  cases at_ : s.proxies n with
  | none =>
    rw [destroyWith, at_]
    exact all
  | some p =>
    have empty : Stack s [] [] := ⟨.nil, .nil⟩
    exact all.shrinks (destroyWith_spec _ inv at_ empty (by simp) finds).2.2

theorem AllTraced.make (all : AllTraced s) :
    AllTraced (makeInterfaceProxy P s i n).1 := by
  unfold makeInterfaceProxy
  cases s.registry i with
  | some proxy =>
    dsimp only
    cases at_ : s.proxies proxy with
    | none => exact all
    | some p =>
      have incr := all.shrinks (shrinks_incr at_ 1)
      dsimp only
      split
      · exact incr
      · exact incr
  | none =>
    dsimp only
    split
    · intro m q h
      by_cases here : m = n
      · subst here
        cases (set_proxies_self m _).symm.trans h
        rfl
      · exact all m q ((set_proxies_ne here _).symm.trans h)
    · exact all

theorem AllTraced.step (all : AllTraced s) (inv : Inv P [] s) (clean : a.Clean s)
    (made : ∀ i n, a ≠ .new i n) : AllTraced (step P s a) := by
  cases a with
  | make i n => exact all.make
  | new i n => exact absurd rfl (made i n)
  | rename old new =>
    unfold ComProxy.step renameProxy
    dsimp only
    split
    · rename_i p at_ free
      intro m q h
      by_cases is_new : m = new
      · subst is_new
        cases (set_proxies_self m _).symm.trans h
        exact all old p at_
      · by_cases is_old : m = old
        · subst is_old
          have gone : ((s.set m none).set new (some p)).proxies m = none := by
            rw [set_proxies_ne is_new, set_proxies_self]
          cases gone.symm.trans h
        · have kept : ((s.set old none).set new (some p)).proxies m = s.proxies m := by
            rw [set_proxies_ne is_new, set_proxies_ne is_old]
          exact all m q (kept.symm.trans h)
    · exact all
  | delete n | destroy n => exact all.destroy inv clean
  | addRef n =>
    unfold ComProxy.step
    dsimp only
    cases at_ : s.proxies n with
    | none => exact all
    | some p => exact all.shrinks (shrinks_incr at_ 1)
  | release n =>
    unfold ComProxy.step releaseBy
    dsimp only
    cases at_ : s.proxies n with
    | none => exact all
    | some p =>
      have incr := all.shrinks (shrinks_incr at_ (-1))
      dsimp only
      split
      · rename_i last
        exact incr.destroy (inv.incr at_ (-1)) (clean p at_ last)
      · exact incr
  | initTypeComp d found =>
    unfold ComProxy.step ComProxy.initTypeComp
    dsimp only
    cases at_ : s.proxies d with
    | none => exact all
    | some p =>
      dsimp only
      split
      · cases found with
        | none => exact all.shrinks (shrinks_alike at_ ⟨rfl, rfl, rfl, rfl⟩)
        | some target =>
          have made := all.make (P := P) (i := target.1) (n := target.2)
          dsimp only
          generalize makeInterfaceProxy P s target.1 target.2 = result at made
          obtain ⟨u, name⟩ := result
          cases name with
          | none => exact made
          | some t =>
            dsimp only
            cases at' : u.proxies d with
            | none => exact made
            | some q => exact made.shrinks (shrinks_alike at' ⟨rfl, rfl, rfl, rfl⟩)
      · exact all

/-- The registry has the proxies that are alive under their names, and no other. Each
proxy was given a reference of its own on its pointer; it has been released once if
the proxy is gone, and not yet if it is alive. -/
structure Good (P : Pointers Ifc) (s : State Ifc Name) : Prop where
  registry : ∀ i n, s.registry i = some n ↔ ∃ p, s.proxies n = some p ∧ p.ifc = i
  distinct : ∀ n m p q, s.proxies n = some p → s.proxies m = some q → p.id = q.id → n = m
  holds : ∀ n p, s.proxies n = some p → s.created[p.id]? = some p.ifc ∧ s.releasesOf p.id = 0
  once : ∀ id i, s.created[id]? = some i → P.null i = false →
    (∀ n p, s.proxies n = some p → p.id ≠ id) → s.releasesOf id = 1
  owns : ∀ id i, (.proxy id, i) ∈ s.releases → s.created[id]? = some i

/-- Proxies are made by `make_interface_proxy`, and a dispatch proxy that is destroyed
finds its ITypeComp proxy. -/
def Step.Meets (s : State Ifc Name) (a : Step Ifc Name) : Prop :=
  (∀ i n, a ≠ .new i n) ∧ a.Clean s

theorem reaches_good (reached : (machine P).Reaches (fun s a => a.Meets s) s) : Good P s := by
  have both : Inv P [] s ∧ AllTraced s := by
    apply reached.invariant
    · rintro s rfl
      exact ⟨.start, nofun⟩
    · rintro s a t ⟨inv, all⟩ ⟨made, clean⟩ taken
      cases taken
      exact ⟨inv.step clean, all.step inv clean made⟩
  obtain ⟨inv, all⟩ := both
  constructor
  · intro i n
    refine (inv.registered i n).trans ⟨?_, ?_⟩
    · rintro ⟨p, h, -, same⟩
      exact ⟨p, h, same⟩
    · rintro ⟨p, h, same⟩
      exact ⟨p, h, all n p h, same⟩
  · exact inv.distinct
  · exact fun n p h => ⟨inv.made n p h, inv.holds n p h⟩
  · exact fun id i made nonnull gone => inv.once id i made nonnull List.not_mem_nil gone
  · exact inv.owns

/-! ### A dispatch proxy and its ITypeComp -/

/-- `1` is an IDispatch, `0` is null, and all others have no class of their own. -/
def somePointers : Pointers Nat where
  null i := i == 0
  cls i := some (if i = 1 then .dispatch else .unknown)
  cls_ne i := by split <;> nofun

/-- A dispatch proxy `10` is made for `1`, and a proxy `20` for its ITypeComp, `2`. -/
def bound : State Nat Nat :=
  step somePointers (step somePointers .start (.make 1 10)) (.initTypeComp 10 (some (2, 20)))

/-- It is released; with it the ITypeComp is. -/
theorem released_good : Good somePointers (step somePointers bound (.release 10)) := by
  have make : (Step.make 1 10).Meets (.start : State Nat Nat) := ⟨nofun, trivial⟩
  have bind : (Step.initTypeComp 10 (some (2, 20))).Meets
      (step somePointers .start (.make 1 10)) := ⟨nofun, trivial⟩
  have finds : (Step.release 10).Meets bound := by
    refine ⟨nofun, fun p at_ _ => .inr fun q t at' held => ?_⟩
    cases at_
    cases at'
    cases held
    refine ⟨_, rfl, fun _ => .inr fun q t at' held => ?_⟩
    cases at'
    cases held
  exact reaches_good (.step (.step (.step (.init rfl) make rfl) bind rfl) finds rfl)

/-- After a rename the ITypeComp is not found, and the reference on `1` stays. -/
theorem renamed_leaks :
    (machine somePointers).Reachable
        (step somePointers (step somePointers bound (.rename 20 21)) (.release 10)) ∧
      ¬ Good somePointers
        (step somePointers (step somePointers bound (.rename 20 21)) (.release 10)) := by
  constructor
  · exact .step (.step (.step (.step (.init rfl) trivial rfl) trivial rfl) trivial rfl) trivial rfl
  · intro good
    have once := good.once 0 1 rfl rfl fun n p at_ eq => by
      have made := (good.holds n p at_).1
      rw [eq] at made
      have reg := (good.registry p.ifc n).mpr ⟨p, at_, rfl⟩
      rw [← Option.some.inj made] at reg
      cases reg
    cases once

end Twapi.ComProxy
