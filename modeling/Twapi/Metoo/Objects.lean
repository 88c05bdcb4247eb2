import Mathlib.Data.List.Basic
import Twapi.Metoo.Hierarchy

/-!
The objects of a state: names and numbers are unique, every object is registered under its
name, and no destructor was run of one that there is, nor twice.
-/

namespace Twapi.Metoo

open Lib Function

variable {Name : Type} [DecidableEq Name]

structure Instances (s : State Name) : Prop where
  numbers : (s.objects.map (·.number)).Nodup
  called : (s.objects.map (·.name)).Nodup
  living : ∀ o ∈ s.objects, s.Live o.class_ns
  registered : ∀ o ∈ s.objects, s.registered o.name = some o.number
  issued : ∀ o ∈ s.objects, o.number ≤ s.next_id
  destructed : s.destructed.Nodup
  destructed_issued : ∀ n ∈ s.destructed, n ≤ s.next_id
  once : ∀ o ∈ s.objects, o.number ∉ s.destructed

namespace State

variable {s : State Name}

theorem mem_of_called {name : Name} {o : Object Name} (found : s.called name = some o) :
    o ∈ s.objects ∧ o.name = name := mem_of_find?_key found

theorem live_congr {t : State Name} (same : t.classes = s.classes) (c : Name) :
    t.Live c ↔ s.Live c := by
  rw [Live, Live, find, find, same]

theorem fail_instances (inv : Instances s) : Instances s.fail := { inv with }

theorem destroyObject_classes (name : Name) : (s.destroyObject name).classes = s.classes := by
  rw [destroyObject]
  split <;> rfl

theorem destroyObject_next_id (name : Name) : (s.destroyObject name).next_id = s.next_id := by
  rw [destroyObject]
  split <;> rfl

/-- No object is left that has the name. -/
theorem destroyObject_uncalled (inv : Instances s) (name : Name) :
    ∀ o ∈ (s.destroyObject name).objects, o.name ≠ name := by
  intro o mem same
  rcases found : s.called name with _ | me
  · rw [destroyObject, found] at mem
    have some : (s.called name).isSome = true := find?_key_isSome.mpr ⟨o, mem, same⟩
    rw [found] at some
    cases some
  · rw [destroyObject, found] at mem
    obtain ⟨memMe, nameMe⟩ := mem_of_called found
    obtain ⟨mem, other⟩ := List.mem_filter.mp mem
    have equal := eq_of_key inv.called mem memMe (same.trans nameMe.symm)
    exact of_decide_eq_true other (congrArg Object.number equal)

theorem destroyObject_instances (inv : Instances s) (name : Name) :
    Instances (s.destroyObject name) := by
  rcases found : s.called name with _ | me
  · rw [destroyObject, found]
    exact fail_instances inv
  obtain ⟨memMe, rfl⟩ := mem_of_called found
  rw [destroyObject, found]
  have sub : (s.objects.filter (·.number ≠ me.number)).Sublist s.objects := List.filter_sublist
  exact
    { numbers := inv.numbers.sublist (sub.map _)
      called := inv.called.sublist (sub.map _)
      living := fun o mem => inv.living o (sub.mem mem)
      registered := by
        intro o mem
        obtain ⟨mem, other⟩ := List.mem_filter.mp mem
        have ne : o.name ≠ me.name := fun same =>
          of_decide_eq_true other (congrArg Object.number (eq_of_key inv.called mem memMe same))
        exact (update_of_ne ne _ _).trans (inv.registered o mem)
      issued := fun o mem => inv.issued o (sub.mem mem)
      destructed := List.nodup_cons.mpr ⟨inv.once me memMe, inv.destructed⟩
      destructed_issued := by
        intro n mem
        rcases List.mem_cons.mp mem with rfl | mem
        · exact inv.issued me memMe
        · exact inv.destructed_issued n mem
      once := by
        intro o mem again
        obtain ⟨mem, other⟩ := List.mem_filter.mp mem
        rcases List.mem_cons.mp again with same | again
        · exact of_decide_eq_true other same
        · exact inv.once o mem again }

/-- A new object has a number and a name that no other has. -/
theorem new_instances (inv : Instances s) {class_ns : Name} (live : s.Live class_ns)
    (objname : Name) (constructed : Bool) : Instances (s.new class_ns objname constructed) := by
  obtain ⟨t, t_eq, kept, inv, unnamed⟩ : ∃ t : State Name,
      t = (if (s.called objname).isSome then s.destroyObject objname else s) ∧
      (t.classes = s.classes ∧ t.next_id = s.next_id) ∧ Instances t ∧
      ∀ o ∈ t.objects, o.name ≠ objname := by
    refine ⟨_, rfl, ?_⟩
    split
    · exact ⟨⟨destroyObject_classes _, destroyObject_next_id _⟩, destroyObject_instances inv _,
        destroyObject_uncalled inv _⟩
    · rename_i free
      exact ⟨⟨rfl, rfl⟩, inv, fun o mem same => free (find?_key_isSome.mpr ⟨o, mem, same⟩)⟩
  have live : t.Live class_ns := (live_congr kept.1 class_ns).mpr live
  have later : ∀ o ∈ t.objects, o.number < s.next_id + 1 := fun o mem =>
    Nat.lt_succ_of_le (kept.2 ▸ inv.issued o mem)
  have registered : ∀ o ∈ t.objects,
      update t.registered objname (some (s.next_id + 1)) o.name = some o.number :=
    fun o mem => (update_of_ne (unnamed o mem) _ _).trans (inv.registered o mem)
  have destructed_issued : ∀ n ∈ t.destructed, n ≤ s.next_id + 1 := fun n mem =>
    Nat.le_succ_of_le (kept.2 ▸ inv.destructed_issued n mem)
  rw [new, ← t_eq]
  cases constructed with
  | false =>
    exact
      { inv with
        registered := registered
        issued := fun o mem => Nat.le_of_lt (later o mem)
        destructed_issued := destructed_issued }
  | true =>
    exact
      { numbers := List.nodup_cons.mpr ⟨fun mem => by
          obtain ⟨o, mem, same⟩ := List.mem_map.mp mem
          exact Nat.ne_of_lt (later o mem) same, inv.numbers⟩
        called := List.nodup_cons.mpr ⟨fun mem => by
          obtain ⟨o, mem, same⟩ := List.mem_map.mp mem
          exact unnamed o mem same, inv.called⟩
        living := by
          intro o mem
          rcases List.mem_cons.mp mem with rfl | mem
          · exact live
          · exact inv.living o mem
        registered := by
          intro o mem
          rcases List.mem_cons.mp mem with rfl | mem
          · exact update_self ..
          · exact registered o mem
        issued := by
          intro o mem
          rcases List.mem_cons.mp mem with rfl | mem
          · exact Nat.le_refl _
          · exact Nat.le_of_lt (later o mem)
        destructed := inv.destructed
        destructed_issued := destructed_issued
        once := by
          intro o mem
          rcases List.mem_cons.mp mem with rfl | mem
          · intro again
            have small := inv.destructed_issued _ again
            rw [kept.2] at small
            exact absurd small (Nat.not_succ_le_self _)
          · exact inv.once o mem }

theorem renameObject_instances (inv : Instances s) (oldname newname : Name) :
    Instances (s.renameObject oldname newname) := by
  rw [renameObject]
  split
  · rename_i me number found registered
    split
    · exact fail_instances inv
    rename_i free
    obtain ⟨memMe, rfl⟩ := mem_of_called found
    cases (inv.registered me memMe).symm.trans registered
    have unnamed : ∀ o ∈ s.objects, o.name ≠ newname := fun o mem same =>
      free (.inl (find?_key_isSome.mpr ⟨o, mem, same⟩))
    let f : Object Name → Object Name := fun o =>
      if o.number = me.number then { o with name := newname } else o
    have cases_f : ∀ o ∈ s.objects, (o = me ∧ f o = { o with name := newname }) ∨
        (o ≠ me ∧ f o = o) := by
      intro o mem
      by_cases same : o.number = me.number
      · exact .inl ⟨eq_of_key inv.numbers mem memMe same, if_pos same⟩
      · exact .inr ⟨fun equal => same (congrArg Object.number equal), if_neg same⟩
    have number_f : ∀ o, (f o).number = o.number := by
      intro o
      simp only [f]
      split <;> rfl
    have class_f : ∀ o, (f o).class_ns = o.class_ns := by
      intro o
      simp only [f]
      split <;> rfl
    exact
      { numbers := by
          have same : (fun o : Object Name => o.number) ∘ f = fun o => o.number := funext number_f
          change ((s.objects.map f).map fun o => o.number).Nodup
          rw [List.map_map, same]
          exact inv.numbers
        called := by
          change ((s.objects.map f).map fun o => o.name).Nodup
          rw [List.map_map]
          refine List.Nodup.map_on (fun o mem o' mem' same => ?_) inv.numbers.of_map
          change (f o).name = (f o').name at same
          rcases cases_f o mem with ⟨is, eq⟩ | ⟨isnt, eq⟩ <;>
            rcases cases_f o' mem' with ⟨is', eq'⟩ | ⟨isnt', eq'⟩
          · exact is.trans is'.symm
          · rw [eq, eq'] at same
            exact absurd same.symm (unnamed o' mem')
          · rw [eq, eq'] at same
            exact absurd same (unnamed o mem)
          · rw [eq, eq'] at same
            exact eq_of_key inv.called mem mem' same
        living := by
          intro o' mem'
          obtain ⟨o, mem, rfl⟩ := List.mem_map.mp mem'
          change s.Live (f o).class_ns
          rw [class_f]
          exact inv.living o mem
        registered := by
          intro o' mem'
          obtain ⟨o, mem, rfl⟩ := List.mem_map.mp mem'
          change update (update s.registered newname (some me.number)) me.name none
            (f o).name = some (f o).number
          rcases cases_f o mem with ⟨rfl, eq⟩ | ⟨isnt, eq⟩
          · rw [eq, update_of_ne (unnamed o mem).symm, update_self]
          · have other : o.name ≠ me.name := fun same => isnt (eq_of_key inv.called mem memMe same)
            rw [eq, update_of_ne other, update_of_ne (unnamed o mem)]
            exact inv.registered o mem
        issued := by
          intro o' mem'
          obtain ⟨o, mem, rfl⟩ := List.mem_map.mp mem'
          exact (number_f o).symm ▸ inv.issued o mem
        destructed := inv.destructed
        destructed_issued := inv.destructed_issued
        once := by
          intro o' mem'
          obtain ⟨o, mem, rfl⟩ := List.mem_map.mp mem'
          exact (number_f o).symm ▸ inv.once o mem }
  · exact fail_instances inv

end State

end Twapi.Metoo
