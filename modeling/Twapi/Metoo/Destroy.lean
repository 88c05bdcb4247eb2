import Twapi.Metoo.Objects

/-!
The destruction of a class.

* `Minus` — a state without some classes and some objects, whose destructors were run.
* `destroyClass_destroys` — a class takes what is below it along, and nothing else.
* `destroyClass_loop` — a class that is its own superclass is never destroyed.
-/

namespace Twapi.Metoo

open Lib List State

variable {Name : Type} [DecidableEq Name]

/-- What is left of a state without the classes of which `X` holds, and the objects with the
numbers of which `Y` does. -/
structure Minus (s : State Name) (X : Name → Prop) (Y : Nat → Prop) (t : State Name) : Prop where
  classes_sub : t.classes.Sublist s.classes
  classes_mem : ∀ k ∈ s.classes, k ∈ t.classes ↔ ¬ X k.name
  objects_sub : t.objects.Sublist s.objects
  objects_mem : ∀ o ∈ s.objects, o ∈ t.objects ↔ ¬ Y o.number
  registered : ∀ o ∈ t.objects, t.registered o.name = some o.number
  next_id : t.next_id = s.next_id
  destructed : t.destructed.Nodup
  destructed_mem : ∀ n, n ∈ t.destructed ↔ n ∈ s.destructed ∨ ∃ o ∈ s.objects, o.number = n ∧ Y n

namespace State

variable {s t : State Name} {X : Name → Prop} {Y : Nat → Prop}

theorem minus_refl (inv : Instances s) : Minus s (fun _ => False) (fun _ => False) s where
  classes_sub := List.Sublist.refl _
  classes_mem _ mem := iff_of_true mem id
  objects_sub := List.Sublist.refl _
  objects_mem _ mem := iff_of_true mem id
  registered := inv.registered
  next_id := rfl
  destructed := inv.destructed
  destructed_mem n := by simp

end State

namespace Minus

variable {s t : State Name} {X : Name → Prop} {Y : Nat → Prop}

omit [DecidableEq Name] in
theorem congr {X' : Name → Prop} {Y' : Nat → Prop}
    (minus : Minus s X Y t) (classes : ∀ x, X x ↔ X' x)
    (objects : ∀ o ∈ s.objects, Y o.number ↔ Y' o.number) : Minus s X' Y' t where
  classes_sub := minus.classes_sub
  classes_mem k mem := (minus.classes_mem k mem).trans (not_congr (classes _))
  objects_sub := minus.objects_sub
  objects_mem o mem := (minus.objects_mem o mem).trans (not_congr (objects o mem))
  registered := minus.registered
  next_id := minus.next_id
  destructed := minus.destructed
  destructed_mem n := by
    rw [minus.destructed_mem]
    refine or_congr Iff.rfl (exists_congr fun o => and_congr_right fun mem => ?_)
    exact and_congr_right fun same => same ▸ objects o mem

omit [DecidableEq Name] in
theorem setOk (minus : Minus s X Y t) (b : Bool) : Minus s X Y { t with ok := b } := { minus with }

/-- A class that is left is found as before. -/
theorem find (forest : Forest s.classes) (minus : Minus s X Y t) {c : Name} (left : ¬ X c) :
    t.find c = s.find c := by
  rcases found : s.find c with _ | k
  · rcases found' : t.find c with _ | k
    · rfl
    · obtain ⟨mem, name⟩ := mem_of_find found'
      have some : (s.find c).isSome = true :=
        find?_key_isSome.mpr ⟨k, minus.classes_sub.mem mem, name⟩
      rw [found] at some
      cases some
  · obtain ⟨mem, rfl⟩ := mem_of_find found
    have names := forest.names.sublist (minus.classes_sub.map _)
    exact find?_key names ((minus.classes_mem k mem).mpr left)

/-- An object that is left is destroyed by its name. -/
theorem destroyObject (inv : Instances s) (minus : Minus s X Y t) {o : Object Name}
    (mem : o ∈ t.objects) :
    (t.destroyObject o.name).ok = true ∧
      Minus s X (fun n => Y n ∨ n = o.number) (t.destroyObject o.name) := by
  have called := inv.called.sublist (minus.objects_sub.map (·.name))
  have found : t.called o.name = some o := find?_key called mem
  have memS := minus.objects_sub.mem mem
  have alive := (minus.objects_mem o memS).mp mem
  rw [State.destroyObject, found]
  refine ⟨rfl, minus.classes_sub, minus.classes_mem, filter_sublist.trans minus.objects_sub,
    fun o' mem' => ?_, fun o' mem' => ?_, minus.next_id, ?_, fun n => ?_⟩
  · rw [mem_filter, minus.objects_mem o' mem', not_or, decide_eq_true_iff]
  · obtain ⟨mem', other⟩ := mem_filter.mp mem'
    have ne : o'.name ≠ o.name := fun same =>
      of_decide_eq_true other (congrArg Object.number (eq_of_key called mem' mem same))
    exact (Function.update_of_ne ne _ _).trans (minus.registered o' mem')
  · refine nodup_cons.mpr ⟨fun again => ?_, minus.destructed⟩
    rcases (minus.destructed_mem _).mp again with before | ⟨_, _, _, gone⟩
    · exact inv.once o memS before
    · exact alive gone
  · rw [mem_cons, minus.destructed_mem]
    constructor
    · rintro (rfl | before | ⟨o', mem', same, gone⟩)
      · exact .inr ⟨o, memS, rfl, .inr rfl⟩
      · exact .inl before
      · exact .inr ⟨o', mem', same, .inl gone⟩
    · rintro (before | ⟨o', mem', same, gone | rfl⟩)
      · exact .inr (.inl before)
      · exact .inr (.inr ⟨o', mem', same, gone⟩)
      · exact .inl rfl

theorem destroyObjects (inv : Instances s) {numbers : List Nat} (minus : Minus s X Y t)
    (nodup : numbers.Nodup) (there : ∀ n ∈ numbers, ∃ o ∈ t.objects, o.number = n) :
    (State.destroyObjects numbers t).ok = true ∧
      Minus s X (fun n => Y n ∨ n ∈ numbers) (State.destroyObjects numbers t) := by
  induction numbers generalizing t Y with
  | nil =>
    refine ⟨rfl, (minus.setOk true).congr (fun _ => Iff.rfl) fun o _ => ?_⟩
    simp
  | cons n numbers ih =>
    obtain ⟨o, mem, rfl⟩ := there n mem_cons_self
    rw [nodup_cons] at nodup
    have distinct : (t.objects.map (·.number)).Nodup :=
      inv.numbers.sublist (minus.objects_sub.map _)
    have found : t.numbered o.number = some o := find?_key distinct mem
    obtain ⟨ok, minus'⟩ := minus.destroyObject inv mem
    have there' : ∀ n ∈ numbers, ∃ o' ∈ (t.destroyObject o.name).objects, o'.number = n := by
      intro n mem'
      obtain ⟨o', memO, rfl⟩ := there n (mem_cons_of_mem _ mem')
      have memS := minus.objects_sub.mem memO
      refine ⟨o', (minus'.objects_mem o' memS).mpr ?_, rfl⟩
      rintro (gone | same)
      · exact (minus.objects_mem o' memS).mp memO gone
      · exact nodup.1 (same ▸ mem')
    obtain ⟨ok', minus''⟩ := ih minus' nodup.2 there'
    rw [destroyObjects, found]
    simp only [ok, if_true]
    refine ⟨ok', minus''.congr (fun _ => Iff.rfl) fun _ _ => ?_⟩
    rw [mem_cons, or_assoc]

theorem remove (minus : Minus s X Y t) (c : Name) :
    Minus s (fun x => X x ∨ x = c) Y (t.remove c) where
  classes_sub := List.filter_sublist.trans minus.classes_sub
  classes_mem k mem := by
    rw [State.remove, mem_filter, minus.classes_mem k mem, not_or, decide_eq_true_iff]
  objects_sub := minus.objects_sub
  objects_mem := minus.objects_mem
  registered := minus.registered
  next_id := minus.next_id
  destructed := minus.destructed
  destructed_mem := minus.destructed_mem

end Minus

/-! ### The recursion -/

/-- The numbers of the objects of a class and its descendants. -/
def Owned (s : State Name) (c : Name) (n : Nat) : Prop :=
  ∃ o ∈ s.objects, o.number = n ∧ s.Below c o.class_ns

/-- A command takes along what is below a class, where all of that is left. -/
def Destroys (s : State Name) (destroy : Name → State Name → State Name) (c : Name) : Prop :=
  ∀ (X : Name → Prop) (Y : Nat → Prop) (t : State Name), Minus s X Y t →
    (∀ x, s.Below c x → ¬ X x) → (∀ n, Owned s c n → ¬ Y n) →
    (destroy c t).ok = true ∧
      Minus s (fun x => X x ∨ s.Below c x) (fun n => Y n ∨ Owned s c n) (destroy c t)

section Recursion

variable {s : State Name} (forest : Forest s.classes) (inv : Instances s)

include forest inv

variable {c : Name}

omit forest in
theorem owned_iff {o : Object Name} (mem : o ∈ s.objects) :
    Owned s c o.number ↔ s.Below c o.class_ns := by
  constructor
  · rintro ⟨o', mem', same, below⟩
    rwa [eq_of_key inv.numbers mem' mem same] at below
  · exact fun below => ⟨o, mem, rfl, below⟩

/-- The subclasses of a class, one after another. -/
theorem each_destroys {destroy : Name → State Name → State Name} (proper : s.parent c ≠ some c)
    {ds : List Name} (nodup : ds.Nodup) (children : ∀ d ∈ ds, s.parent d = some c)
    (destroys : ∀ d ∈ ds, Destroys s destroy d) {X : Name → Prop} {Y : Nat → Prop} {t : State Name}
    (minus : Minus s X Y t) (leftX : ∀ d ∈ ds, ∀ x, s.Below d x → ¬ X x)
    (leftY : ∀ d ∈ ds, ∀ n, Owned s d n → ¬ Y n) :
    (State.each destroy ds t).ok = true ∧
      Minus s (fun x => X x ∨ ∃ d ∈ ds, s.Below d x) (fun n => Y n ∨ ∃ d ∈ ds, Owned s d n)
        (State.each destroy ds t) := by
  induction ds generalizing X Y t with
  | nil =>
    refine ⟨rfl, (minus.setOk true).congr (fun x => ?_) fun o _ => ?_⟩ <;> simp
  | cons d ds ih =>
    rw [nodup_cons] at nodup
    have child := children d mem_cons_self
    obtain ⟨ok, minus'⟩ := destroys d mem_cons_self X Y t minus
      (leftX d mem_cons_self) (leftY d mem_cons_self)
    have apart : ∀ e ∈ ds, ∀ x, s.Below e x → ¬ s.Below d x := by
      intro e mem x
      have ne : e ≠ d := fun same => nodup.1 (same ▸ mem)
      exact below_disjoint forest proper (children e (mem_cons_of_mem _ mem)) child ne
    obtain ⟨ok', minus''⟩ := ih nodup.2
      (fun e mem => children e (mem_cons_of_mem _ mem))
      (fun e mem => destroys e (mem_cons_of_mem _ mem)) minus'
      (by
        rintro e mem x below (before | first)
        · exact leftX e (mem_cons_of_mem _ mem) x below before
        · exact apart e mem x below first)
      (by
        rintro e mem n owned (before | first)
        · exact leftY e (mem_cons_of_mem _ mem) n owned before
        · obtain ⟨o, memO, rfl, below⟩ := owned
          exact apart e mem _ below ((owned_iff inv memO).mp first))
    rw [each]
    simp only [ok, if_true]
    have regroup : ∀ (p : Prop) (q : Name → Prop),
        (p ∨ q d) ∨ (∃ e ∈ ds, q e) ↔ p ∨ ∃ e ∈ d :: ds, q e := by
      intro p q
      simp only [mem_cons, or_and_right, exists_or, exists_eq_left, or_assoc]
    refine ⟨ok', minus''.congr (fun x => ?_) fun o _ => ?_⟩
    · exact regroup (X x) (s.Below · x)
    · exact regroup (Y o.number) (Owned s · o.number)

theorem destroyClass_destroys {fuel : Nat} (live : s.Live c) (proper : s.parent c ≠ some c)
    (enough : s.index c < fuel) :
    Destroys s (State.destroyClass fuel) c := by
  induction fuel generalizing c with
  | zero => exact absurd enough (Nat.not_lt_zero _)
  | succ fuel ih =>
    intro X Y t minus leftX leftY
    obtain ⟨k, found, alive⟩ := live_iff.mp live
    obtain ⟨memK, rfl⟩ := mem_of_find found
    have foundT : t.find k.name = some k :=
      (minus.find forest (leftX _ Relation.ReflTransGen.refl)).trans found
    let numbers := (t.objects.filter (·.class_ns = k.name)).map (·.number)
    have mem_numbers : ∀ o ∈ s.objects, o.number ∈ numbers ↔ o.class_ns = k.name := by
      intro o mem
      constructor
      · intro listed
        obtain ⟨o', mem', same⟩ := mem_map.mp listed
        obtain ⟨mem', class_eq⟩ := mem_filter.mp mem'
        rw [← eq_of_key inv.numbers (minus.objects_sub.mem mem') mem same]
        exact of_decide_eq_true class_eq
      · intro class_eq
        have left : ¬ Y o.number :=
          leftY _ ⟨o, mem, rfl, class_eq ▸ Relation.ReflTransGen.refl⟩
        exact mem_map_of_mem (mem_filter.mpr
          ⟨(minus.objects_mem o mem).mpr left, decide_eq_true class_eq⟩)
    have nodup : numbers.Nodup :=
      inv.numbers.sublist ((filter_sublist.trans minus.objects_sub).map _)
    obtain ⟨ok, minus'⟩ := minus.destroyObjects inv nodup fun n mem => by
      obtain ⟨o, mem, same⟩ := mem_map.mp mem
      exact ⟨o, (mem_filter.mp mem).1, same⟩
    have children : ∀ d ∈ k.subclasses, s.parent d = some k.name := fun d =>
      (mem_subclasses_iff forest memK alive d).mp
    have lower : ∀ d ∈ k.subclasses, s.index d < s.index k.name := by
      intro d mem
      refine index_lt forest (children d mem) fun same => proper ?_
      have own := children d mem
      rwa [← same] at own
    obtain ⟨ok', minus''⟩ := each_destroys forest inv proper (forest.distinct k memK) children
      (fun d mem => ih (parent_live forest (children d mem)).1
        (fun own => by
          have same := Option.some.inj ((children d mem).symm.trans own)
          have less := lower d mem
          rw [same] at less
          exact absurd less (Nat.lt_irrefl _))
        (Nat.lt_of_lt_of_le (lower d mem) (Nat.le_of_lt_succ enough)))
      minus'
      (fun d mem x below => leftX x (below_of_parent (children d mem) below))
      (by
        rintro d mem n ⟨o, memO, rfl, below⟩ (gone | listed)
        · exact leftY _ ⟨o, memO, rfl, below_of_parent (children d mem) below⟩ gone
        · rw [mem_numbers o memO] at listed
          have up := index_le_of_below forest below
          have less := lower d mem
          rw [listed] at up
          omega)
    rw [destroyClass, foundT]
    simp only [alive, if_true]
    rw [if_pos ok, if_pos ok']
    refine ⟨rfl, (minus''.remove k.name).congr (fun x => ?_) fun o mem => ?_⟩
    · constructor
      · rintro ((before | ⟨d, mem, below⟩) | rfl)
        · exact .inl before
        · exact .inr (below_of_parent (children d mem) below)
        · exact .inr Relation.ReflTransGen.refl
      · rintro (before | below)
        · exact .inl (.inl before)
        · rcases below_tail below with rfl | ⟨d, child, below⟩
          · exact .inr rfl
          · exact .inl (.inr ⟨d, (mem_subclasses_iff forest memK alive d).mpr child, below⟩)
    · rw [mem_numbers o mem]
      constructor
      · rintro ((before | same) | ⟨d, memD, owned⟩)
        · exact .inl before
        · exact .inr ((owned_iff inv mem).mpr (same ▸ Relation.ReflTransGen.refl))
        · refine .inr ((owned_iff inv mem).mpr ?_)
          exact below_of_parent (children d memD) ((owned_iff inv mem).mp owned)
      · rintro (before | owned)
        · exact .inl (.inl before)
        · rcases below_tail ((owned_iff inv mem).mp owned) with same | ⟨d, child, below⟩
          · exact .inl (.inr same)
          · refine .inr ⟨d, (mem_subclasses_iff forest memK alive d).mpr child, ?_⟩
            exact (owned_iff inv mem).mpr below

end Recursion

/-! ### A class that is its own superclass -/

/-- The class is recorded as a subclass of itself. -/
def Loop (c : Name) (t : State Name) : Prop :=
  ∃ k, t.find c = some k ∧ k.live = true ∧ c ∈ k.subclasses

namespace State

variable {c : Name}

theorem loop_congr {t u : State Name} (same : u.classes = t.classes) (loop : Loop c t) :
    Loop c u := by
  obtain ⟨k, found, rest⟩ := loop
  refine ⟨k, ?_, rest⟩
  rw [find, same]
  exact found

theorem destroyObjects_classes (numbers : List Nat) (t : State Name) :
    (destroyObjects numbers t).classes = t.classes := by
  induction numbers generalizing t with
  | nil => rfl
  | cons n numbers ih =>
    rw [destroyObjects]
    split
    · rfl
    · dsimp only
      split
      · exact (ih _).trans (destroyObject_classes _)
      · exact destroyObject_classes _

theorem remove_loop {t : State Name} {d : Name} (loop : Loop c t) (other : d ≠ c) :
    Loop c (t.remove d) := by
  obtain ⟨k, found, rest⟩ := loop
  refine ⟨k, ?_, rest⟩
  rw [find, remove, find?_filter]
  rw [find] at found
  rw [← found]
  refine congrArg (find? · t.classes) (funext fun l => ?_)
  by_cases named : l.name = c
  · simp [named, other.symm]
  · simp [named]

theorem each_loop {destroy : Name → State Name → State Name}
    (one : ∀ d t, Loop c t → Loop c (destroy d t) ∧ (d = c → (destroy d t).ok = false))
    (ds : List Name) {t : State Name} (loop : Loop c t) :
    Loop c (each destroy ds t) ∧ (c ∈ ds → (each destroy ds t).ok = false) := by
  induction ds generalizing t with
  | nil => exact ⟨loop, fun mem => absurd mem not_mem_nil⟩
  | cons d ds ih =>
    obtain ⟨loop, fails⟩ := one d t loop
    rw [each]
    split
    · rename_i ok
      obtain ⟨loop, later⟩ := ih loop
      refine ⟨loop, fun mem => ?_⟩
      rcases mem_cons.mp mem with rfl | mem
      · rw [fails rfl] at ok
        cases ok
      · exact later mem
    · rename_i failed
      exact ⟨loop, fun _ => eq_false_of_ne_true failed⟩

/-- The call on the class itself comes before its removal. -/
theorem destroyClass_loop (fuel : Nat) (d : Name) (t : State Name) (loop : Loop c t) :
    Loop c (destroyClass fuel d t) ∧ (d = c → (destroyClass fuel d t).ok = false) := by
  induction fuel generalizing d t with
  | zero => exact ⟨loop_congr rfl loop, fun _ => rfl⟩
  | succ fuel ih =>
    rw [destroyClass]
    split
    · exact ⟨loop_congr rfl loop, fun _ => rfl⟩
    rename_i k found
    split
    · dsimp only
      split
      · obtain ⟨left, fails⟩ := each_loop ih k.subclasses
          (loop_congr (destroyObjects_classes ((t.objects.filter (·.class_ns = d)).map
            (·.number)) t) loop)
        split
        · rename_i ok
          have other : d ≠ c := by
            rintro rfl
            obtain ⟨l, found', -, own⟩ := loop
            cases found.symm.trans found'
            rw [fails own] at ok
            cases ok
          exact ⟨remove_loop left other, fun same => absurd same other⟩
        · rename_i failed
          exact ⟨left, fun _ => eq_false_of_ne_true failed⟩
      · rename_i failed
        exact ⟨loop_congr (destroyObjects_classes _ _) loop,
          fun _ => eq_false_of_ne_true failed⟩
    · exact ⟨loop_congr rfl loop, fun _ => rfl⟩

end State

end Twapi.Metoo
