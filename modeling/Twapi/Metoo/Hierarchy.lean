import Mathlib.Logic.Relation
import Twapi.Lib.Lists
import Twapi.Metoo.Model

/-!
The classes of a state as a forest.

* `parent` — the superclass, if it lives; `Below` — a class and its descendants.
* `Forest` — the records of subclasses and the superclasses agree, and no class is older than
  its superclass.
* `Forest.define` — the definition of a class keeps it.
-/

namespace Twapi.Metoo

open Lib List

variable {Name : Type} [DecidableEq Name]

structure Forest (classes : List (Class Name)) : Prop where
  names : (classes.map (·.name)).Nodup
  /-- A superclass is older, or the class itself, or there is no such class. -/
  older : classes.Pairwise fun k l => k.live = true → l.super ≠ some k.name
  supers : ∀ k ∈ classes, ∀ p, k.super = some p → ∃ l ∈ classes, l.name = p
  phantom : ∀ k ∈ classes, k.super.isSome = true → k.live = true
  recorded : ∀ k ∈ classes, ∀ l ∈ classes, k.super = some l.name → k.name ∈ l.subclasses
  entries : ∀ l ∈ classes, l.live = true → ∀ d ∈ l.subclasses,
    ∃ k ∈ classes, k.name = d ∧ k.super = some l.name
  distinct : ∀ l ∈ classes, l.subclasses.Nodup

namespace State

/-- The superclass, if it lives. -/
def parent (s : State Name) (c : Name) : Option Name :=
  ((s.find c).bind (·.super)).filter fun p => s.Live p

/-- A class is below itself. -/
def Below (s : State Name) (c d : Name) : Prop :=
  Relation.ReflTransGen (fun d p => s.parent d = some p) d c

/-- Where a class is in the list. -/
def index (s : State Name) (c : Name) : Nat := s.classes.findIdx (·.name = c)

/-! ### Lookups -/

section Lookups

variable {s : State Name}

theorem mem_of_find {c : Name} {k : Class Name} (found : s.find c = some k) :
    k ∈ s.classes ∧ k.name = c := mem_of_find?_key found

theorem live_iff {c : Name} : s.Live c ↔ ∃ k, s.find c = some k ∧ k.live = true := by
  rw [Live]
  cases s.find c with
  | none => simp
  | some k => simp

theorem parent_eq_some {d p : Name} :
    s.parent d = some p ↔ (∃ k, s.find d = some k ∧ k.super = some p) ∧ s.Live p := by
  rw [parent, Option.filter_eq_some_iff, Option.bind_eq_some_iff, decide_eq_true_iff]

end Lookups

section InForest

variable {s : State Name} (forest : Forest s.classes)

include forest

variable {k : Class Name}

theorem find_of_mem (mem : k ∈ s.classes) : s.find k.name = some k :=
  find?_key forest.names mem

theorem live_of_mem (mem : k ∈ s.classes) (live : k.live = true) :
    s.Live k.name := live_iff.mpr ⟨k, find_of_mem forest mem, live⟩

/-- The records of a class that lives are those of which it is the superclass. -/
theorem mem_subclasses_iff (mem : k ∈ s.classes) (live : k.live = true) (d : Name) :
    d ∈ k.subclasses ↔ s.parent d = some k.name := by
  rw [parent_eq_some]
  constructor
  · intro entry
    obtain ⟨l, mem', rfl, super⟩ := forest.entries k mem live d entry
    exact ⟨⟨l, find_of_mem forest mem', super⟩, live_of_mem forest mem live⟩
  · rintro ⟨⟨l, found, super⟩, -⟩
    obtain ⟨mem', rfl⟩ := mem_of_find found
    exact forest.recorded l mem' k mem super

theorem parent_live {d p : Name} (parent : s.parent d = some p) : s.Live d ∧ s.Live p := by
  obtain ⟨⟨k, found, super⟩, live⟩ := parent_eq_some.mp parent
  have child := forest.phantom k (mem_of_find found).1 (super ▸ rfl)
  exact ⟨live_iff.mpr ⟨k, found, child⟩, live⟩

/-- A superclass that is another one is further on in the list. -/
theorem index_lt {d p : Name} (parent : s.parent d = some p) (other : p ≠ d) :
    s.index d < s.index p := by
  obtain ⟨⟨k, foundK, super⟩, live⟩ := parent_eq_some.mp parent
  obtain ⟨l, foundL, live⟩ := live_iff.mp live
  obtain ⟨memK, nameK⟩ := mem_of_find foundK
  obtain ⟨memL, nameL⟩ := mem_of_find foundL
  have boundD : s.index d < s.classes.length :=
    findIdx_lt_length_of_exists ⟨k, memK, decide_eq_true nameK⟩
  have boundP : s.index p < s.classes.length :=
    findIdx_lt_length_of_exists ⟨l, memL, decide_eq_true nameL⟩
  have atD : s.classes[s.index d].name = d :=
    of_decide_eq_true (findIdx_getElem (p := fun k : Class Name => decide (k.name = d)))
  have atP : s.classes[s.index p].name = p :=
    of_decide_eq_true (findIdx_getElem (p := fun k : Class Name => decide (k.name = p)))
  have isK : s.classes[s.index d] = k :=
    eq_of_key forest.names (getElem_mem boundD) memK (atD.trans nameK.symm)
  have isL : s.classes[s.index p] = l :=
    eq_of_key forest.names (getElem_mem boundP) memL (atP.trans nameL.symm)
  rcases Nat.lt_trichotomy (s.index d) (s.index p) with less | same | more
  · exact less
  · refine absurd ?_ other
    rw [← atP, ← atD]
    simp only [same]
  · have later := pairwise_iff_getElem.mp forest.older _ _ boundP boundD more
    rw [isK, isL] at later
    exact absurd (super.trans (congrArg some nameL.symm)) (later live)

theorem index_le_of_below {c d : Name} (below : s.Below c d) : s.index d ≤ s.index c := by
  induction below with
  | refl => exact Nat.le_refl _
  | tail _ parent ih =>
    rename_i b p _
    by_cases same : p = b
    · rw [same]
      exact ih
    · exact Nat.le_trans ih (Nat.le_of_lt (index_lt forest parent same))

end InForest

/-! ### Below a class -/

variable {s : State Name} {c d b a : Name}

theorem below_head (below : s.Below c d) :
    d = c ∨ ∃ p, s.parent d = some p ∧ s.Below c p := Relation.ReflTransGen.cases_head below

/-- The last step up to a class is from one of its subclasses. -/
theorem below_tail (below : s.Below c d) :
    d = c ∨ ∃ b, s.parent b = some c ∧ s.Below b d := by
  rcases Relation.ReflTransGen.cases_tail below with same | ⟨b, below, parent⟩
  · exact .inl same.symm
  · exact .inr ⟨b, parent, below⟩

theorem below_of_parent (parent : s.parent b = some c) (below : s.Below b d) :
    s.Below c d := Relation.ReflTransGen.tail below parent

theorem below_total (first : s.Below a d) (second : s.Below b d) :
    s.Below b a ∨ s.Below a b := by
  refine Relation.ReflTransGen.total_of_right_unique ?_ first second
  intro d p q hp hq
  exact Option.some.inj (hp.symm.trans hq)

/-- Nothing is below two subclasses of one class. -/
theorem below_disjoint (forest : Forest s.classes) (proper : s.parent c ≠ some c)
    (parentA : s.parent a = some c) (parentB : s.parent b = some c) (ne : a ≠ b)
    (first : s.Below a d) : ¬ s.Below b d := by
  have apart : ∀ {x y : Name}, s.parent x = some c → s.parent y = some c → x ≠ y →
      ¬ s.Below x y := by
    intro x y parentX parentY ne below
    rcases below_head below with same | ⟨p, parent, below⟩
    · exact ne same.symm
    · cases parentY.symm.trans parent
      have other : c ≠ x := fun same => proper (by rw [← same] at parentX; exact parentX)
      have up := index_lt forest parentX other
      have down := index_le_of_below forest below
      omega
  intro second
  rcases below_total first second with below | below
  · exact apart parentB parentA ne.symm below
  · exact apart parentA parentB ne below

end State

/-! ### Definitions -/

/-- The records of one class, with one more. -/
def Class.recording (superclass : Option Name) (cname : Name) (k : Class Name) : Class Name :=
  if superclass = some k.name then { k with subclasses := k.subclasses.insert cname } else k

section Recording

variable (superclass : Option Name) (cname : Name) (k : Class Name)

@[simp] theorem Class.recording_name : (k.recording superclass cname).name = k.name := by
  unfold recording
  split <;> rfl

@[simp] theorem Class.recording_live : (k.recording superclass cname).live = k.live := by
  unfold recording
  split <;> rfl

@[simp] theorem Class.recording_super : (k.recording superclass cname).super = k.super := by
  unfold recording
  split <;> rfl

theorem Class.mem_recording (d : Name) : d ∈ (k.recording superclass cname).subclasses ↔
    d ∈ k.subclasses ∨ superclass = some k.name ∧ d = cname := by
  unfold recording
  split
  · rename_i named
    rw [mem_insert_iff, and_iff_right named, or_comm]
  · rename_i other
    exact ⟨.inl, fun h => h.elim id fun h => absurd h.1 other⟩

theorem Class.nodup_recording (distinct : k.subclasses.Nodup) :
    (k.recording superclass cname).subclasses.Nodup := by
  unfold recording
  split
  · exact distinct.insert
  · exact distinct

end Recording

section Define

variable {classes : List (Class Name)} (forest : Forest classes)

include forest

omit [DecidableEq Name] in
/-- The namespace of a superclass that there is not. -/
theorem Forest.snoc {sup : Name} (fresh : ∀ k ∈ classes, k.name ≠ sup) :
    Forest (classes ++ [⟨sup, false, none, []⟩]) where
  names := by
    rw [map_append]
    refine List.Nodup.append forest.names (nodup_singleton _) fun name mem single => ?_
    obtain ⟨k, mem', named⟩ := mem_map.mp mem
    exact fresh k mem' (named.trans (mem_singleton.mp single))
  older := by
    refine pairwise_append.mpr ⟨forest.older, pairwise_singleton _ _, ?_⟩
    intro k _ l mem _ super
    rw [mem_singleton.mp mem] at super
    cases super
  supers := by
    intro k mem p super
    rcases mem_append.mp mem with old | last
    · obtain ⟨l, mem, name⟩ := forest.supers k old p super
      exact ⟨l, mem_append_left _ mem, name⟩
    · rw [mem_singleton.mp last] at super
      cases super
  phantom := by
    intro k mem super
    rcases mem_append.mp mem with old | last
    · exact forest.phantom k old super
    · rw [mem_singleton.mp last] at super
      cases super
  recorded := by
    intro k memK l memL super
    rcases mem_append.mp memK with oldK | lastK
    · rcases mem_append.mp memL with oldL | lastL
      · exact forest.recorded k oldK l oldL super
      · obtain ⟨l', mem, name⟩ := forest.supers k oldK _ super
        rw [mem_singleton.mp lastL] at name
        exact absurd name (fresh l' mem)
    · rw [mem_singleton.mp lastK] at super
      cases super
  entries := by
    intro l mem live d entry
    rcases mem_append.mp mem with old | last
    · obtain ⟨k, mem, rest⟩ := forest.entries l old live d entry
      exact ⟨k, mem_append_left _ mem, rest⟩
    · rw [mem_singleton.mp last] at live
      cases live
  distinct := by
    intro l mem
    rcases mem_append.mp mem with old | last
    · exact forest.distinct l old
    · rw [mem_singleton.mp last]
      exact nodup_nil

theorem Forest.define {cname : Name} (fresh : ∀ k ∈ classes, k.name ≠ cname)
    (superclass : Option Name)
    (found : ∀ p, superclass = some p → p = cname ∨ ∃ k ∈ classes, k.name = p) :
    Forest ((⟨cname, true, superclass, []⟩ :: classes).map
      (Class.recording superclass cname)) where
  names := by
    rw [map_map]
    have same : (fun k : Class Name => k.name) ∘ .recording superclass cname =
        fun k => k.name := funext fun k => k.recording_name superclass cname
    rw [same, map_cons, nodup_cons]
    refine ⟨fun mem => ?_, forest.names⟩
    obtain ⟨k, mem, name⟩ := mem_map.mp mem
    exact fresh k mem name
  older := by
    rw [pairwise_map]
    simp only [Class.recording_name, Class.recording_live, Class.recording_super]
    refine pairwise_cons.mpr ⟨fun k mem _ super => ?_, forest.older⟩
    obtain ⟨l, mem, name⟩ := forest.supers k mem _ super
    exact fresh l mem name
  supers := by
    intro k' mem' p super
    obtain ⟨k, mem, rfl⟩ := mem_map.mp mem'
    rw [Class.recording_super] at super
    have named : ∃ l ∈ (⟨cname, true, superclass, []⟩ :: classes : List (Class Name)), l.name = p := by
      rcases mem_cons.mp mem with rfl | old
      · rcases found p super with rfl | ⟨l, mem, name⟩
        · exact ⟨_, mem_cons_self, rfl⟩
        · exact ⟨l, mem_cons_of_mem _ mem, name⟩
      · obtain ⟨l, mem, name⟩ := forest.supers k old p super
        exact ⟨l, mem_cons_of_mem _ mem, name⟩
    obtain ⟨l, mem, name⟩ := named
    exact ⟨_, mem_map_of_mem mem, (l.recording_name _ _).trans name⟩
  phantom := by
    intro k' mem' super
    obtain ⟨k, mem, rfl⟩ := mem_map.mp mem'
    rw [Class.recording_super] at super
    rw [Class.recording_live]
    rcases mem_cons.mp mem with rfl | old
    · rfl
    · exact forest.phantom k old super
  recorded := by
    intro k' memK' l' memL' super
    obtain ⟨k, memK, rfl⟩ := mem_map.mp memK'
    obtain ⟨l, memL, rfl⟩ := mem_map.mp memL'
    rw [Class.recording_super, Class.recording_name] at super
    rw [Class.recording_name, Class.mem_recording]
    rcases mem_cons.mp memK with rfl | oldK
    · exact .inr ⟨super, rfl⟩
    · rcases mem_cons.mp memL with rfl | oldL
      · obtain ⟨l', mem, name⟩ := forest.supers k oldK _ super
        exact absurd name (fresh l' mem)
      · exact .inl (forest.recorded k oldK l oldL super)
  entries := by
    intro l' mem' live d entry
    obtain ⟨l, mem, rfl⟩ := mem_map.mp mem'
    rw [Class.recording_live] at live
    rw [Class.recording_name]
    rcases (Class.mem_recording superclass cname l d).mp entry with entry | ⟨super, rfl⟩
    · rcases mem_cons.mp mem with rfl | old
      · cases entry
      · obtain ⟨k, mem, name, super⟩ := forest.entries l old live d entry
        refine ⟨_, mem_map_of_mem (mem_cons_of_mem _ mem), ?_, ?_⟩
        · rw [Class.recording_name, name]
        · rw [Class.recording_super, super]
    · refine ⟨_, mem_map_of_mem mem_cons_self, ?_, ?_⟩
      · rw [Class.recording_name]
      · rw [Class.recording_super, super]
  distinct := by
    intro l' mem'
    obtain ⟨l, mem, rfl⟩ := mem_map.mp mem'
    refine Class.nodup_recording superclass cname l ?_
    rcases mem_cons.mp mem with rfl | old
    · exact nodup_nil
    · exact forest.distinct l old

end Define

namespace State

variable {cname : Name}

variable {superclass : Option Name}

theorem recording_of_ne {k : Class Name} (other : superclass ≠ some k.name) :
    k.recording superclass cname = k := if_neg other

theorem map_recording_of_ne {classes : List (Class Name)}
    (other : ∀ k ∈ classes, superclass ≠ some k.name) :
    classes.map (Class.recording superclass cname) = classes :=
  (map_congr_left fun k mem => recording_of_ne (other k mem)).trans (map_id _)

/-- The classes after a definition that succeeds. -/
theorem define_classes {s : State Name} (superclass : Option Name) (free : s.find cname = none)
    (uncalled : s.called cname = none) :
    ∃ base, (base = s.classes ∨ ∃ sup, (∀ k ∈ s.classes, k.name ≠ sup) ∧ sup ≠ cname ∧
        base = s.classes ++ [⟨sup, false, none, []⟩]) ∧
      (∀ p, superclass = some p → p = cname ∨ ∃ k ∈ base, k.name = p) ∧
      (s.define cname superclass).classes =
        (⟨cname, true, superclass, []⟩ :: base).map (Class.recording superclass cname) := by
  have start : ¬ ((s.find cname).isSome = true ∨ (s.called cname).isSome = true) := by
    rw [free, uncalled]
    simp
  rw [define, if_neg start]
  rcases superclass with _ | sup
  · refine ⟨s.classes, .inl rfl, fun _ none => ?_, (map_recording_of_ne fun _ _ none => ?_).symm⟩
    · cases none
    · cases none
  · by_cases there : (find { s with
        classes := ⟨cname, true, some sup, []⟩ :: s.classes, ok := true } sup).isSome = true
    · refine ⟨s.classes, .inl rfl, fun p same => ?_, ?_⟩
      · obtain ⟨k, mem, name⟩ := find?_key_isSome.mp there
        cases same
        rcases mem_cons.mp mem with rfl | old
        · exact .inl name.symm
        · exact .inr ⟨k, old, name⟩
      · change (record _ sup cname).classes = _
        rw [record, if_pos there]
        refine map_congr_left fun k _ => ?_
        by_cases named : k.name = sup
        · rw [if_pos named, Class.recording, if_pos (congrArg some named.symm)]
        · rw [if_neg named, recording_of_ne fun same => named (Option.some.inj same).symm]
    · have apart : ∀ k ∈ (⟨cname, true, some sup, []⟩ :: s.classes : List (Class Name)),
          k.name ≠ sup := fun k mem name => there (find?_key_isSome.mpr ⟨k, mem, name⟩)
      refine ⟨s.classes ++ [⟨sup, false, none, []⟩], .inr ⟨sup, fun k mem =>
        apart k (mem_cons_of_mem _ mem), (apart _ mem_cons_self).symm, rfl⟩,
        fun p same => ?_, ?_⟩
      · cases same
        exact .inr ⟨_, mem_append_right _ mem_cons_self, rfl⟩
      · change (record _ sup cname).classes = _
        rw [record, if_neg there, ← cons_append, map_append,
          map_recording_of_ne fun k mem same => apart k mem (Option.some.inj same).symm]
        change _ = _ ++ [Class.recording (some sup) cname ⟨sup, false, none, []⟩]
        rw [Class.recording, if_pos rfl]
        rfl

/-- A definition fails, or the names are free. -/
theorem define_fails_or (s : State Name) (cname : Name) (superclass : Option Name) :
    s.define cname superclass = s.fail ∨ s.find cname = none ∧ s.called cname = none := by
  rcases found : s.find cname with _ | k
  · rcases called : s.called cname with _ | o
    · exact .inr ⟨rfl, rfl⟩
    · left
      rw [define, if_pos (.inr (called ▸ rfl))]
  · left
    rw [define, if_pos (.inl (found ▸ rfl))]

theorem define_forest {s : State Name} (forest : Forest s.classes) (cname : Name)
    (superclass : Option Name) : Forest (s.define cname superclass).classes := by
  rcases define_fails_or s cname superclass with failed | ⟨free, uncalled⟩
  · rw [failed]
    exact forest
  · obtain ⟨base, shape, found, classes⟩ := define_classes superclass free uncalled
    have unnamed : ∀ k ∈ s.classes, k.name ≠ cname := fun k mem name => by
      have some := find?_key_isSome.mpr ⟨k, mem, name⟩
      rw [show s.classes.find? (fun b => b.name = cname) = none from free] at some
      cases some
    rw [classes]
    rcases shape with rfl | ⟨sup, fresh, other, rfl⟩
    · exact forest.define unnamed superclass found
    · refine (forest.snoc fresh).define (fun k mem => ?_) superclass found
      rcases mem_append.mp mem with old | last
      · exact unnamed k old
      · rw [mem_singleton.mp last]
        exact other

end State

end Twapi.Metoo
