import Twapi.Metoo.Destroy

/-!
Runs in which no class is destroyed while its superclass lives.

* `Inv` — the classes are a forest, and the objects are as they should be.
* `step_inv` — every such step keeps it.
* `Destroyed` — a class and its descendants are gone, as one wants it.
* `destroyed_iff` — when the next class is destroyed so.
-/

namespace Twapi.Metoo

open Lib State

variable {Name : Type} [DecidableEq Name]

/-- No class is destroyed while its superclass lives. -/
def Label.Clean (s : State Name) : Label Name → Prop
  | .destroyClass class_ns => s.parent class_ns = none
  | _ => True

structure Inv (s : State Name) : Prop where
  forest : Forest s.classes
  instances : Instances s

/-- What is left when whole trees of classes are gone. -/
theorem Minus.inv {s t : State Name} {X : Name → Prop} {Y : Nat → Prop} (inv : Inv s)
    (minus : Minus s X Y t) (live : ∀ x, X x → s.Live x)
    (tree : ∀ d p, s.parent d = some p → (X d ↔ X p))
    (owned : ∀ o ∈ s.objects, X o.class_ns → Y o.number) : Inv t := by
  have forest := inv.forest
  have left : ∀ k ∈ t.classes, k ∈ s.classes ∧ ¬ X k.name := fun k mem =>
    have memS := minus.classes_sub.mem mem
    ⟨memS, (minus.classes_mem k memS).mp mem⟩
  have parent : ∀ k ∈ s.classes, ∀ p, k.super = some p → s.Live p → s.parent k.name = some p :=
    fun k mem p super live =>
      parent_eq_some.mpr ⟨⟨k, find_of_mem forest mem, super⟩, live⟩
  constructor
  · exact
      { names := forest.names.sublist (minus.classes_sub.map _)
        older := forest.older.sublist minus.classes_sub
        supers := by
          intro k mem p super
          obtain ⟨memS, stays⟩ := left k mem
          obtain ⟨l, memL, rfl⟩ := forest.supers k memS p super
          refine ⟨l, (minus.classes_mem l memL).mpr fun gone => stays ?_, rfl⟩
          exact (tree _ _ (parent k memS _ super (live _ gone))).mpr gone
        phantom := fun k mem => forest.phantom k (left k mem).1
        recorded := fun k memK l memL => forest.recorded k (left k memK).1 l (left l memL).1
        entries := by
          intro l mem alive d entry
          obtain ⟨memS, stays⟩ := left l mem
          obtain ⟨k, memK, rfl, super⟩ := forest.entries l memS alive d entry
          refine ⟨k, (minus.classes_mem k memK).mpr fun gone => stays ?_, rfl, super⟩
          exact (tree _ _ (parent k memK _ super (live_of_mem forest memS alive))).mp gone
        distinct := fun l mem => forest.distinct l (left l mem).1 }
  · have instances := inv.instances
    have objects : ∀ o ∈ t.objects, o ∈ s.objects ∧ ¬ Y o.number := fun o mem =>
      have memS := minus.objects_sub.mem mem
      ⟨memS, (minus.objects_mem o memS).mp mem⟩
    exact
      { numbers := instances.numbers.sublist (minus.objects_sub.map _)
        called := instances.called.sublist (minus.objects_sub.map _)
        living := by
          intro o mem
          obtain ⟨memS, stays⟩ := objects o mem
          have kept := minus.find forest fun gone => stays (owned o memS gone)
          have lives := instances.living o memS
          rw [State.Live] at lives ⊢
          rwa [kept]
        registered := minus.registered
        issued := fun o mem => minus.next_id ▸ instances.issued o (objects o mem).1
        destructed := minus.destructed
        destructed_issued := by
          intro n mem
          rw [minus.next_id]
          rcases (minus.destructed_mem n).mp mem with before | ⟨o, memO, rfl, -⟩
          · exact instances.destructed_issued n before
          · exact instances.issued o memO
        once := by
          intro o mem again
          obtain ⟨memS, stays⟩ := objects o mem
          rcases (minus.destructed_mem _).mp again with before | ⟨_, _, _, gone⟩
          · exact instances.once o memS before
          · exact stays gone }

namespace State

variable {s : State Name}

theorem inv_congr {t : State Name} (inv : Inv s) (same : t.classes = s.classes)
    (instances : Instances t) : Inv t := ⟨same ▸ inv.forest, instances⟩

theorem new_classes (class_ns objname : Name) (constructed : Bool) :
    (s.new class_ns objname constructed).classes = s.classes := by
  rw [new]
  dsimp only
  split
  · exact destroyObject_classes _
  · rfl

theorem renameObject_classes (oldname newname : Name) :
    (s.renameObject oldname newname).classes = s.classes := by
  rw [renameObject]
  split
  · split <;> rfl
  · rfl

/-- A definition leaves the classes that live alive. -/
theorem define_live {cname c : Name} {superclass : Option Name} (inv : Inv s) (live : s.Live c) :
    (s.define cname superclass).Live c := by
  rcases define_fails_or s cname superclass with failed | ⟨free, uncalled⟩
  · rw [failed]
    exact live
  · have forest := define_forest inv.forest cname superclass
    obtain ⟨base, shape, -, classes⟩ := define_classes superclass free uncalled
    obtain ⟨k, found, alive⟩ := live_iff.mp live
    obtain ⟨mem, rfl⟩ := mem_of_find found
    have old : k ∈ base := by
      rcases shape with rfl | ⟨sup, -, -, rfl⟩
      · exact mem
      · exact List.mem_append_left _ mem
    have new := live_of_mem forest (k := k.recording superclass cname)
      (classes ▸ List.mem_map_of_mem (List.mem_cons_of_mem _ old))
      ((k.recording_live superclass cname).trans alive)
    rwa [Class.recording_name] at new

theorem define_keeps (cname : Name) (superclass : Option Name) :
    (s.define cname superclass).objects = s.objects ∧
      (s.define cname superclass).registered = s.registered ∧
      (s.define cname superclass).next_id = s.next_id ∧
      (s.define cname superclass).destructed = s.destructed := by
  rw [define]
  split
  · exact ⟨rfl, rfl, rfl, rfl⟩
  · cases superclass with
    | none => exact ⟨rfl, rfl, rfl, rfl⟩
    | some sup =>
      dsimp only
      rw [record]
      split <;> exact ⟨rfl, rfl, rfl, rfl⟩

theorem define_inv (inv : Inv s) (cname : Name) (superclass : Option Name) :
    Inv (s.define cname superclass) := by
  obtain ⟨objects, registered, next_id, destructed⟩ := s.define_keeps cname superclass
  have instances := inv.instances
  exact ⟨define_forest inv.forest cname superclass,
    { numbers := objects ▸ instances.numbers
      called := objects ▸ instances.called
      living := by
        rw [objects]
        exact fun o mem => define_live inv (instances.living o mem)
      registered := by
        rw [objects, registered]
        exact instances.registered
      issued := by
        rw [objects, next_id]
        exact instances.issued
      destructed := destructed ▸ instances.destructed
      destructed_issued := by
        rw [destructed, next_id]
        exact instances.destructed_issued
      once := by
        rw [objects, destructed]
        exact instances.once }⟩

/-- A class goes with what is below it. -/
theorem destroyClass_minus (inv : Inv s) {c : Name} (live : s.Live c)
    (proper : s.parent c ≠ some c) :
    (s.destroyClass s.classes.length c).ok = true ∧
      Minus s (s.Below c) (Owned s c) (s.destroyClass s.classes.length c) := by
  have enough : s.index c < s.classes.length := by
    obtain ⟨k, found, -⟩ := live_iff.mp live
    obtain ⟨mem, name⟩ := mem_of_find found
    exact List.findIdx_lt_length_of_exists ⟨k, mem, decide_eq_true name⟩
  obtain ⟨ok, minus⟩ := destroyClass_destroys inv.forest inv.instances live proper enough _ _ s
    (minus_refl inv.instances) (fun _ _ => id) (fun _ _ => id)
  exact ⟨ok, minus.congr (fun _ => by rw [false_or]) fun _ _ => by rw [false_or]⟩

theorem destroyClass_inv (inv : Inv s) {c : Name} (root : s.parent c = none) :
    Inv (s.destroyClass s.classes.length c) := by
  by_cases live : s.Live c
  · have proper : s.parent c ≠ some c := root ▸ nofun
    refine (destroyClass_minus inv live proper).2.inv inv ?_ ?_
      fun o mem below => ⟨o, mem, rfl, below⟩
    · intro x below
      rcases below_head below with rfl | ⟨p, parent, -⟩
      · exact live
      · exact (parent_live inv.forest parent).1
    · intro d p parent
      constructor
      · intro below
        rcases below_head below with rfl | ⟨q, parent', below⟩
        · cases root.symm.trans parent
        · cases parent.symm.trans parent'
          exact below
      · exact Relation.ReflTransGen.head parent
  · have failed : s.destroyClass s.classes.length c = s.fail := by
      cases s.classes.length with
      | zero => rfl
      | succ fuel =>
        rw [destroyClass]
        split
        · rfl
        · rename_i k found
          exact if_neg fun alive => live (live_iff.mpr ⟨k, found, alive⟩)
    rw [failed]
    exact inv_congr inv rfl (fail_instances inv.instances)

end State

section Runs

variable (auto : Name → Nat → Name)

variable {s t : State Name}

theorem step_inv {label : Label Name} (inv : Inv s) (clean : label.Clean s)
    (stepped : step auto s label = some t) : Inv t := by
  have instances := inv.instances
  cases label with
  | define cname superclass =>
    cases stepped
    exact define_inv inv cname superclass
  | create class_ns objname constructed =>
    rw [step] at stepped
    split at stepped
    · rename_i live
      split at stepped
      · cases stepped
      · cases stepped
        exact inv_congr inv (new_classes _ _ _)
          (new_instances instances live _ _)
    · cases stepped
      exact inv_congr inv rfl (fail_instances instances)
  | rename oldname newname =>
    cases stepped
    exact inv_congr inv (renameObject_classes _ _)
      (renameObject_instances instances _ _)
  | destroyObject objname =>
    cases stepped
    exact inv_congr inv (destroyObject_classes _)
      (destroyObject_instances instances _)
  | destroyClass class_ns =>
    cases stepped
    exact destroyClass_inv inv clean

theorem start_inv : Inv (start : State Name) := by
  constructor <;> constructor <;> simp [start]

theorem reaches_inv (reached : (machine auto).Reaches (fun s l => l.Clean s) s) :
    Inv s := by
  refine reached.invariant ?_ ?_
  · rintro s rfl
    exact start_inv
  · intro s label t inv clean stepped
    exact step_inv auto inv clean stepped

/-! ### Main result -/

/-- The command succeeds. Every object of the class and of its descendants is gone, its
destructor run once, and no class that lives records one of them as a subclass. -/
structure Destroyed (s : State Name) (c : Name) (t : State Name) : Prop where
  ok : t.ok = true
  objects : ∀ o ∈ s.objects, s.Below c o.class_ns →
    (∀ o' ∈ t.objects, o'.number ≠ o.number) ∧ t.destructed.count o.number = 1
  unrecorded : ∀ k ∈ t.classes, k.live = true → ∀ d, s.Below c d → d ∉ k.subclasses

theorem Minus.destroyed {c : Name} (inv : Inv s) (ok : t.ok = true)
    (minus : Minus s (s.Below c) (Owned s c) t) (root : s.parent c = none) : Destroyed s c t where
  ok := ok
  objects o mem below := by
    have owned : Owned s c o.number := ⟨o, mem, rfl, below⟩
    refine ⟨fun o' mem' same => ?_, ?_⟩
    · have memS := minus.objects_sub.mem mem'
      exact (minus.objects_mem o' memS).mp mem' (same ▸ owned)
    · exact List.count_eq_one_of_mem minus.destructed
        ((minus.destructed_mem _).mpr (.inr ⟨o, mem, rfl, owned⟩))
  unrecorded k mem alive d below entry := by
    have memS := minus.classes_sub.mem mem
    have parent := (mem_subclasses_iff inv.forest memS alive d).mp entry
    rcases below_head below with rfl | ⟨p, parent', below⟩
    · cases root.symm.trans parent
    · cases parent.symm.trans parent'
      exact (minus.classes_mem k memS).mp mem below

/-- A superclass that lives keeps the record. -/
theorem Minus.recorded {c p : Name} (inv : Inv s) (minus : Minus s (s.Below c) (Owned s c) t)
    (parent : s.parent c = some p) (other : p ≠ c) :
    ∃ k ∈ t.classes, k.live = true ∧ c ∈ k.subclasses := by
  obtain ⟨k, found, alive⟩ := live_iff.mp (parent_live inv.forest parent).2
  obtain ⟨mem, rfl⟩ := mem_of_find found
  refine ⟨k, (minus.classes_mem k mem).mpr fun below => ?_, alive,
    (mem_subclasses_iff inv.forest mem alive c).mpr parent⟩
  have up := index_lt inv.forest parent other
  have down := index_le_of_below inv.forest below
  omega

end Runs

instance (s : State Name) (label : Label Name) : Decidable (label.Clean s) :=
  match label with
  | .destroyClass class_ns => inferInstanceAs (Decidable (s.parent class_ns = none))
  | .define .. | .create .. | .rename .. | .destroyObject _ => isTrue trivial

/-- What a constructor makes of the outcome of `next`, which it need not call. -/
abbrev Constructor := Except String Unit → Except String Unit

/-- `next` in a constructor, where `ks` are those of the classes above. -/
def next : List Constructor → Except String Unit
  | [] => .error "'next' command has no receiver in the hierarchy for method _m_constructor"
  | k :: ks => k (next ks)

/-- `$objname constructor`, where `ks` are the constructors of the classes from that of the
object on. There need be none. -/
def construct : List Constructor → Except String Unit
  | [] => .ok ()
  | k :: ks => k (next ks)

def State.createObject (s : State Name) (class_ns objname : Name) (ks : List Constructor) :
    Except String Name × State Name :=
  match construct ks with
  | .ok () => (.ok objname, s.new class_ns objname true)
  | .error msg => (.error msg, s.new class_ns objname false)

/-- The registries, the commands and the namespaces are what they were. -/
structure Restored (s t : State Name) : Prop where
  classes : t.classes = s.classes
  objects : t.objects = s.objects
  registered : t.registered = s.registered

/-- No number is registered that was not, and none was given out. -/
def NoNew (s t : State Name) : Prop :=
  t.next_id = s.next_id ∧
    ∀ name n, t.registered name = some n → ∃ name', s.registered name' = some n

namespace NoNew

variable {s t u : State Name}

omit [DecidableEq Name] in
theorem of_eq (next_id : t.next_id = s.next_id) (same : t.registered = s.registered) : NoNew s t :=
  ⟨next_id, fun name _ h => ⟨name, same ▸ h⟩⟩

omit [DecidableEq Name] in
theorem trans (h : NoNew s t) (h' : NoNew t u) : NoNew s u :=
  ⟨h'.1.trans h.1, fun name n hn => let ⟨name', hn'⟩ := h'.2 name n hn; h.2 name' n hn'⟩

theorem destroyObject (s : State Name) (name : Name) : NoNew s (s.destroyObject name) := by
  refine ⟨destroyObject_next_id name, fun x n h => ⟨x, ?_⟩⟩
  rw [State.destroyObject] at h
  split at h
  · exact h
  · by_cases same : x = name
    · simp [same] at h
    · simpa [same] using h

theorem renameObject (s : State Name) (oldname newname : Name) :
    NoNew s (s.renameObject oldname newname) := by
  rw [State.renameObject]
  split
  · rename_i me number called registered
    split
    · exact of_eq rfl rfl
    · refine ⟨rfl, fun x n h => ?_⟩
      by_cases old : x = oldname
      · simp [old] at h
      · by_cases new : x = newname
        · have same : number = n := by
            simp only [new, Function.update_of_ne (new ▸ old), Function.update_self] at h
            exact Option.some.inj h
          exact ⟨oldname, same ▸ registered⟩
        · exact ⟨x, by simpa [old, new] using h⟩
  · exact of_eq rfl rfl

theorem define (s : State Name) (cname : Name) (superclass : Option Name) :
    NoNew s (s.define cname superclass) := by
  rw [State.define]
  split
  · exact of_eq rfl rfl
  · cases superclass with
    | none => exact of_eq rfl rfl
    | some sup =>
      simp only [record]
      split <;> exact of_eq rfl rfl

theorem destroyObjects (numbers : List Nat) (s : State Name) :
    NoNew s (s.destroyObjects numbers) := by
  induction numbers generalizing s with
  | nil => exact of_eq rfl rfl
  | cons number numbers ih =>
    rw [State.destroyObjects]
    split
    · exact of_eq rfl rfl
    · dsimp only
      split
      · exact (destroyObject s _).trans (ih _)
      · exact destroyObject s _

omit [DecidableEq Name] in
theorem each {destroy : Name → State Name → State Name} (h : ∀ c s, NoNew s (destroy c s))
    (cs : List Name) (s : State Name) : NoNew s (State.each destroy cs s) := by
  induction cs generalizing s with
  | nil => exact of_eq rfl rfl
  | cons c cs ih =>
    rw [State.each]
    split
    · exact (h c s).trans (ih _)
    · exact h c s

theorem destroyClass (fuel : Nat) (c : Name) (s : State Name) :
    NoNew s (s.destroyClass fuel c) := by
  induction fuel generalizing c s with
  | zero => exact of_eq rfl rfl
  | succ fuel ih =>
    rw [State.destroyClass]
    split
    · exact of_eq rfl rfl
    · split
      · have objects := destroyObjects ((s.objects.filter (·.class_ns = c)).map (·.number)) s
        dsimp only
        split
        · rename_i k _ _ _
          have classes := objects.trans (each ih k.subclasses _)
          split
          · exact classes.trans (of_eq rfl rfl)
          · exact classes
        · exact objects
      · exact of_eq rfl rfl

end NoNew

/-- The numbers that are registered were given out. -/
theorem registered_le (auto : Name → Nat → Name) {s : State Name}
    (reached : (machine auto).Reachable s) :
    ∀ name n, s.registered name = some n → n ≤ s.next_id := by
  have keep {s t : State Name} (inv : ∀ name n, s.registered name = some n → n ≤ s.next_id)
      (h : NoNew s t) : ∀ name n, t.registered name = some n → n ≤ t.next_id := fun name n hn =>
    let ⟨name', hn'⟩ := h.2 name n hn
    h.1 ▸ inv name' n hn'
  refine reached.invariant (P := fun s => ∀ name n, s.registered name = some n → n ≤ s.next_id)
    ?_ ?_
  · rintro s rfl name n h
    cases h
  · intro s label t inv _ stepped
    cases label with
    | define cname superclass =>
      cases stepped
      exact keep inv (NoNew.define ..)
    | rename oldname newname =>
      cases stepped
      exact keep inv (NoNew.renameObject ..)
    | destroyObject objname =>
      cases stepped
      exact keep inv (NoNew.destroyObject ..)
    | destroyClass class_ns =>
      cases stepped
      exact keep inv (NoNew.destroyClass ..)
    | create class_ns objname constructed =>
      change step auto s (.create class_ns objname constructed) = some t at stepped
      rw [step] at stepped
      split at stepped
      · split at stepped
        · cases stepped
        · cases stepped
          intro name n h
          by_cases same : name = objname.getD (auto class_ns (s.next_id + 1))
          · have : s.next_id + 1 = n := by simpa [new, same] using h
            exact this ▸ Nat.le_refl _
          · refine Nat.le_succ_of_le ?_
            simp only [new, Function.update_of_ne same] at h
            split at h
            · exact (NoNew.destroyObject s _).1 ▸ keep inv (NoNew.destroyObject ..) name n h
            · exact inv name n h
      · cases stepped
        exact keep inv (NoNew.of_eq rfl rfl)

/-- The error is that of the constructor, and the object remains registered, with a number that no
object had before. -/
theorem not_restored_of_error (auto : Name → Nat → Name) {s : State Name}
    (reached : (machine auto).Reachable s) (class_ns objname : Name) {ks : List Constructor}
    {msg : String} (failed : construct ks = .error msg) :
    (s.createObject class_ns objname ks).1 = .error msg ∧
      ¬ Restored s (s.createObject class_ns objname ks).2 := by
  simp only [createObject, failed, true_and]
  intro restored
  have := registered_le auto reached objname (s.next_id + 1) (by
    rw [← restored.registered]
    exact Function.update_self ..)
  omega

/-- The first object of the first class. -/
theorem remains_registered :
    let s : State Nat := start.define 1 none
    (machine (100 * · + ·)).Reachable s ∧
      ¬ Restored s (s.createObject 1 7 [fun _ => .error "no"]).2 := by
  refine ⟨(Machine.Reaches.init rfl).step (a := .define 1 none) trivial rfl, fun h => ?_⟩
  have := congrFun h.registered 7
  exact absurd this (by decide)

/-- The constructor of a superclass fails, which the one of the class calls. -/
theorem not_restored_of_next :
    ∃ s : State Nat, (machine (100 * · + ·)).Reachable s ∧ s.Live 2 ∧
      (s.createObject 2 7 [id, fun _ => .error "no"]).1 = .error "no" ∧
      ¬ Restored s (s.createObject 2 7 [id, fun _ => .error "no"]).2 := by
  obtain ⟨s, reached, live⟩ := Machine.Reaches.exists_of_run (M := machine (100 * · + ·))
    (G := fun _ _ => True) [.define 1 none, .define 2 (some 1)] (fun s => s.Live 2) rfl (by decide)
  exact ⟨s, reached, live, not_restored_of_error _ reached 2 7 rfl⟩

end Twapi.Metoo
