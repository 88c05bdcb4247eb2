import Twapi.ComServer.Model
import Twapi.Lib.Table

/-!
The life of the objects.

* `Balanced` — an object is freed once it has no references, and not before, and
  it released then what it acquired.
* `Kept` — its count is the number of its references.
* `reaches_balanced` — this holds in every run in which no class factory is freed
  whose `memids` is not null, and no count wraps around.
-/

namespace Twapi.ComServer

open Lib

/-! ### One object -/

/-- Nothing is done to the object after it was freed; it was freed, and released
what it acquired, if there are no references to it. -/
structure Obj.Balanced (refs : Nat) (o : Obj) : Prop where
  clean : Clean o.log
  freed : deletions o.log = if refs = 0 then 1 else 0
  gave : if refs = 0 then o.gave.Perm o.took else o.gave = []

/-- What the constructor acquires. -/
def Obj.Acquired (o : Obj) : Prop :=
  match o.vtbl with
  | .comServer => o.comServerGives.Perm o.took
  | .classFactory => [Resource.tclObj o.cmd, .interpContext].Perm o.took

structure Obj.Kept (refs : Nat) (o : Obj) : Prop where
  count : o.refc = BitVec.ofNat 32 refs
  small : refs ≤ 4294967296
  balanced : o.Balanced refs
  acquired : o.Acquired

namespace Obj

variable {o : Obj} {refs : Nat}

theorem Kept.live (kept : o.Kept refs) (pos : 0 < refs) : deletions o.log = 0 := by
  rw [kept.balanced.freed, if_neg (Nat.pos_iff_ne_zero.mp pos)]

theorem Kept.nothing_given (kept : o.Kept refs) (pos : 0 < refs) : o.gave = [] := by
  have gave := kept.balanced.gave
  rwa [if_neg (Nat.pos_iff_ne_zero.mp pos)] at gave

theorem Kept.touch (kept : o.Kept refs) (pos : 0 < refs) : o.touch.Kept refs where
  count := kept.count
  small := kept.small
  balanced := ⟨.use (kept.live pos) .access,
    (deletions_access o.log).trans kept.balanced.freed, kept.balanced.gave⟩
  acquired := kept.acquired

theorem Kept.addRef (kept : o.Kept refs) (pos : 0 < refs) (room : refs < 4294967296) :
    o.addRef.Kept (refs + 1) where
  count := by
    rw [Obj.addRef, kept.count, BitVec.ofNat_add]
    rfl
  small := room
  balanced := by
    constructor
    · exact .use (kept.live pos) .access
    · rw [if_neg (Nat.succ_ne_zero refs)]
      exact (deletions_access o.log).trans (kept.live pos)
    · rw [if_neg (Nat.succ_ne_zero refs)]
      exact kept.nothing_given pos
  acquired := kept.acquired

theorem Kept.hold (kept : o.Kept refs) : o.hold.Kept refs :=
  ⟨kept.count, kept.small, ⟨kept.balanced.clean, kept.balanced.freed, kept.balanced.gave⟩,
    kept.acquired⟩

theorem Kept.unhold (kept : o.Kept refs) : o.unhold.Kept refs :=
  ⟨kept.count, kept.small, ⟨kept.balanced.clean, kept.balanced.freed, kept.balanced.gave⟩,
    kept.acquired⟩

/-- The count reaches 0 with the last reference. -/
theorem Kept.refc_sub (kept : o.Kept (refs + 1)) : o.refc - 1 = BitVec.ofNat 32 refs := by
  rw [kept.count, BitVec.ofNat_add]
  exact BitVec.add_sub_cancel _ _

theorem Kept.refc_zero_iff (kept : o.Kept (refs + 1)) : o.refc - 1 = 0 ↔ refs = 0 := by
  have small := kept.small
  rw [kept.refc_sub, ← BitVec.toNat_inj, BitVec.toNat_ofNat]
  constructor
  · intro zero
    rwa [Nat.mod_eq_of_lt (by omega)] at zero
  · rintro rfl
    rfl

theorem Kept.releaseWith {gives : List Resource} (kept : o.Kept (refs + 1))
    (fair : refs = 0 → gives.Perm o.took) : (o.releaseWith gives).Kept refs := by
  have pos : 0 < refs + 1 := Nat.succ_pos refs
  have live := kept.live pos
  have small := kept.small
  unfold Obj.releaseWith
  dsimp only
  split
  case isTrue last =>
    have zero := kept.refc_zero_iff.mp last
    subst zero
    refine ⟨last, Nat.zero_le _, ⟨.use ((deletions_access _).trans live) .delete, ?_, ?_⟩,
      kept.acquired⟩
    · rw [if_pos rfl, deletions_delete, deletions_access, live]
    · rw [if_pos rfl]
      simpa only [kept.nothing_given pos, List.nil_append] using fair rfl
  case isFalse more =>
    have some_ : refs ≠ 0 := fun zero => more (kept.refc_zero_iff.mpr zero)
    refine ⟨kept.refc_sub, by omega, ⟨.use live .access, ?_, ?_⟩, kept.acquired⟩
    · rw [if_neg some_, deletions_access, live]
    · rw [if_neg some_]
      exact kept.nothing_given pos

/-- A class factory that is freed has a null `memids`. -/
theorem Kept.release (kept : o.Kept (refs + 1))
    (null : refs = 0 → o.vtbl = .classFactory → o.memids = none) : o.release.Kept refs := by
  have acquired := kept.acquired
  unfold Obj.Acquired at acquired
  unfold Obj.release
  cases vtbl : o.vtbl with
  | comServer =>
    rw [vtbl] at acquired
    apply kept.releaseWith
    intro _
    exact acquired
  | classFactory =>
    rw [vtbl] at acquired
    apply kept.releaseWith
    intro last
    rw [classFactoryGives, null last vtbl]
    exact acquired

@[simp] theorem vtbl_releaseWith (gives : List Resource) : (o.releaseWith gives).vtbl = o.vtbl := by
  unfold releaseWith
  dsimp only
  split <;> rfl

@[simp] theorem held_releaseWith (gives : List Resource) : (o.releaseWith gives).held = o.held := by
  unfold releaseWith
  dsimp only
  split <;> rfl

@[simp] theorem vtbl_release : o.release.vtbl = o.vtbl := by
  unfold release
  split
  · exact vtbl_releaseWith _
  · exact vtbl_releaseWith _

@[simp] theorem held_release : o.release.held = o.held := by
  unfold release
  split
  · exact held_releaseWith _
  · exact held_releaseWith _

end Obj

/-! ### All objects -/

/-- A server that counts for the process. -/
def Obj.serves (o : Obj) : Bool := o.vtbl = .comServer ∧ deletions o.log = 0

namespace Com

variable {s t : Com} {i : Nat}

def servers (s : Com) : Nat := s.objs.countP Obj.serves

structure Kept (s : Com) : Prop where
  obj : ∀ i (o : Obj), s.objs[i]? = some o → Obj.Kept (s.refs i o) o
  process : s.process = s.servers
  frames : ∀ i ∈ s.frames, i < s.objs.length

/-- One object is changed, and the frames of that object. -/
theorem Kept.modify {f : Obj → Obj} {t : Com} (kept : s.Kept) (objs : t.objs = s.objs.modify i f)
    (here : ∀ o, s.objs[i]? = some o → o.Kept (s.refs i o) → (f o).Kept (t.refs i (f o)))
    (others : ∀ j ≠ i, t.frames.count j = s.frames.count j)
    (process : t.process = s.process)
    (serves : ∀ o, s.objs[i]? = some o → o.Kept (s.refs i o) → (f o).serves = o.serves)
    (frames : ∀ j ∈ t.frames, j ∈ s.frames ∨ j = i ∧ i < s.objs.length) : t.Kept := by
  refine ⟨?_, ?_, ?_⟩
  · intro j o found
    rw [objs] at found
    rcases lookup_modify found with ⟨rfl, o, there, rfl⟩ | ⟨other, there⟩
    · exact here o there (kept.obj j o there)
    · have old := kept.obj j o there
      rwa [refs, ← others j other] at old
  · rw [process, kept.process, servers, servers, objs]
    cases there : s.objs[i]? with
    | none => rw [List.modify_eq_self (List.getElem?_eq_none_iff.mp there)]
    | some o =>
      have counted := countP_modify (p := Obj.serves) (f := f) there
      rw [serves o there (kept.obj i o there)] at counted
      congr 1
      omega
  · intro j among
    rw [objs, List.length_modify]
    rcases frames j among with old | ⟨rfl, inside⟩
    · exact kept.frames j old
    · exact inside

theorem refs_pos {o : Obj} (alive : s.alive i) (found : s.objs[i]? = some o) :
    0 < s.refs i o := by
  rw [Com.alive, found] at alive
  exact of_decide_eq_true alive

theorem Kept.modify_access {f : Obj → Obj} (kept : s.Kept)
    (here : ∀ o, s.objs[i]? = some o → o.Kept (s.refs i o) → (f o).Kept (s.refs i (f o)))
    (serves : ∀ o, (f o).serves = o.serves) : (s.modify i f).Kept := by
  apply kept.modify (t := s.modify i f) rfl here
  · intro j _
    rfl
  · rfl
  · intro o _ _
    exact serves o
  · intro j among
    exact .inl among

theorem Kept.touch (kept : s.Kept) (alive : s.alive i) : (s.modify i Obj.touch).Kept := by
  apply kept.modify_access
  · intro o found keptObj
    exact keptObj.touch (refs_pos alive found)
  · intro o
    rw [Obj.serves, Obj.serves, Obj.touch, deletions_access]

/-- There is room for another reference. -/
def Room (s : Com) (i : Nat) : Prop := ∀ o ∈ s.objs[i]?, s.refs i o < 4294967296

theorem Kept.give (kept : s.Kept) (alive : s.alive i) (room : s.Room i) : (s.give i).Kept := by
  apply kept.modify_access
  · intro o found keptObj
    have added := keptObj.addRef (refs_pos alive found) (room o found)
    rw [refs, Nat.add_right_comm] at added
    exact added.hold
  · intro o
    rw [Obj.serves, Obj.serves, Obj.hold, Obj.addRef, deletions_access]

theorem Kept.enter (kept : s.Kept) (alive : s.alive i) {runs : Bool}
    (room : runs = true → s.Room i) : (s.enter i runs).Kept := by
  cases runs with
  | false => exact kept.touch alive
  | true =>
    apply kept.modify (t := s.enter i true) rfl
    · intro o found keptObj
      have added := keptObj.addRef (refs_pos alive found) (room rfl o found)
      have more : (s.enter i true).refs i o.addRef = s.refs i o + 1 := by
        rw [refs, refs, Com.enter, if_pos rfl, List.count_cons_self, Nat.add_assoc]
        rfl
      rwa [more]
    · intro j other
      exact List.count_cons_of_ne (Ne.symm other)
    · rfl
    · intro o _ _
      rw [Obj.serves, Obj.serves, Obj.addRef, deletions_access]
    · intro j among
      rcases List.mem_cons.mp among with rfl | old
      · right
        constructor
        · rfl
        · obtain ⟨o, found, -⟩ := Option.any_eq_true _ _ |>.mp alive
          exact (List.getElem?_eq_some_iff.mp found).1
      · exact .inl old

/-- `Release`, in a state that has one reference to the object less than its count. -/
theorem kept_release
    (obj : ∀ j (o : Obj), s.objs[j]? = some o →
      Obj.Kept (if j = i then s.refs j o + 1 else s.refs j o) o)
    (process : s.process = s.servers) (frames : ∀ j ∈ s.frames, j < s.objs.length)
    (null : ∀ o, s.objs[i]? = some o → s.refs i o = 0 → o.vtbl = .classFactory →
      o.memids = none) : (s.release i).Kept := by
  unfold Com.release
  cases found : s.objs[i]? with
  | none =>
    refine ⟨?_, process, frames⟩
    intro j o there
    have old := obj j o there
    rwa [if_neg] at old
    rintro rfl
    rw [found] at there
    cases there
  | some o =>
    have before : o.Kept (s.refs i o + 1) := by
      have old := obj i o found
      rwa [if_pos rfl] at old
    have after : o.release.Kept (s.refs i o) := before.release (null o found)
    have objs : ∀ j (q : Obj), (s.modify i .release).objs[j]? = some q →
        q.Kept (s.refs j q) := by
      intro j q there
      rcases lookup_modify there with ⟨rfl, p, old, rfl⟩ | ⟨other, old⟩
      · obtain rfl : p = o := Option.some.inj (old.symm.trans found)
        rw [refs, Obj.held_release]
        exact after
      · have same := obj j q old
        rwa [if_neg other] at same
    have counted := countP_modify (p := Obj.serves) (f := Obj.release) found
    have serving : o.serves = decide (o.vtbl = .comServer) := by
      rw [Obj.serves, before.live (Nat.succ_pos _)]
      simp
    have serving' : o.release.serves = decide (o.vtbl = .comServer ∧ s.refs i o ≠ 0) := by
      rw [Obj.serves, Obj.vtbl_release, after.balanced.freed]
      by_cases zero : s.refs i o = 0 <;> simp [zero]
    have framed : ∀ j ∈ s.frames, j < (s.modify i .release).objs.length := by
      intro j among
      rw [Com.modify, List.length_modify]
      exact frames j among
    dsimp only
    rw [serving, serving'] at counted
    split
    case isTrue last =>
      obtain ⟨isServer, refc⟩ := last
      have zero := before.refc_zero_iff.mp refc
      refine ⟨objs, ?_, framed⟩
      simp only [isServer, zero] at counted
      simp only [Com.coReleaseServerProcess, servers, Com.modify, process]
      simp at counted
      omega
    case isFalse more =>
      refine ⟨objs, ?_, framed⟩
      have same : decide (o.vtbl = .comServer ∧ s.refs i o ≠ 0) =
          decide (o.vtbl = .comServer) := by
        rw [decide_eq_decide]
        constructor
        · exact And.left
        · intro isServer
          constructor
          · exact isServer
          · intro zero
            exact more ⟨isServer, before.refc_zero_iff.mpr zero⟩
      rw [same] at counted
      simp only [servers, Com.modify, process]
      omega

/-! ### Steps -/

/-- The object that the step adds a reference to. -/
def adds (s : Com) : Label → Option Nat
  | .queryInterface i riid => if s.objs[i]?.any (·.supports riid) then some i else none
  | .addRef i | .invoke i true | .createInstance i true => some i
  | .done handed => handed
  | _ => none

/-- The object that the step releases. -/
def drops (s : Com) : Label → Option Nat
  | .release i => some i
  | .done _ => s.frames.head?
  | _ => none

/-- No count wraps around, and a class factory that loses its last reference has a
null `memids`. -/
def Proper (s : Com) (a : Label) : Prop :=
  (∀ i ∈ s.adds a, ∀ o ∈ s.objs[i]?, s.refs i o < 4294967296) ∧
    ∀ i ∈ s.drops a, ∀ o ∈ s.objs[i]?,
      s.refs i o = 1 → o.vtbl = .classFactory → o.memids = none

instance (s : Com) (a : Label) : Decidable (s.Proper a) := by
  unfold Proper
  infer_instance

theorem Kept.snoc {o : Obj} (kept : s.Kept) (objs : t.objs = s.objs ++ [o])
    (frames : t.frames = s.frames) (new : o.Kept 1) (held : o.held = 1)
    (process : t.process = s.process + (o.serves.toNat : Nat)) : t.Kept := by
  refine ⟨?_, ?_, ?_⟩
  · intro j q found
    rw [objs] at found
    rw [refs, frames]
    rcases lookup_snoc found with ⟨rfl, rfl⟩ | old
    · have fresh : s.frames.count s.objs.length = 0 := by
        apply List.count_eq_zero.mpr
        intro among
        exact Nat.lt_irrefl _ (kept.frames _ among)
      rwa [held, fresh]
    · exact kept.obj j q old
  · rw [process, kept.process, servers, servers, objs, List.countP_append, List.countP_singleton]
    cases serves : o.serves with
    | false => simp
    | true => simp
  · intro j among
    rw [frames] at among
    rw [objs, List.length_append]
    exact Nat.lt_of_lt_of_le (kept.frames j among) (Nat.le_add_right _ _)

theorem Kept.comServer (kept : s.Kept) (iid : Iid) (memids cmd : Nat) :
    (s.twapiComServerObjCmd iid memids cmd).Kept := by
  apply kept.snoc (t := s.twapiComServerObjCmd iid memids cmd) rfl rfl
  · refine ⟨rfl, by decide, ⟨List.not_mem_nil, rfl, rfl⟩, ?_⟩
    show [Resource.tclObj memids, .tclObj cmd, .serverProcess, .interpContext].Perm
      [.tclObj memids, .interpContext, .tclObj cmd, .serverProcess]
    apply List.Perm.cons
    have moved : ([Resource.tclObj cmd, .serverProcess] ++ [Resource.interpContext]).Perm
        ([Resource.interpContext] ++ [Resource.tclObj cmd, .serverProcess]) := List.perm_append_comm
    exact moved
  · rfl
  · rfl

theorem Kept.classFactory (kept : s.Kept) (clsid : Iid) (cmd : Nat) (memids : Option Nat) :
    (s.twapiClassFactoryObjCmd clsid cmd memids).Kept := by
  apply kept.snoc (t := s.twapiClassFactoryObjCmd clsid cmd memids) rfl rfl
  · refine ⟨rfl, by decide, ⟨List.not_mem_nil, rfl, rfl⟩, ?_⟩
    exact List.Perm.swap ..
  · rfl
  · exact (Int.add_zero _).symm

/-- The reply is nobody's reference. -/
theorem Kept.reply (kept : s.Kept) (reply : Reply) : Kept { s with reply := reply } :=
  ⟨kept.obj, kept.process, kept.frames⟩

/-- The release of a reference that was given out. -/
theorem Kept.release (kept : s.Kept) (held : s.objs[i]?.any (0 < ·.held))
    (null : ∀ o ∈ s.objs[i]?, s.refs i o = 1 → o.vtbl = .classFactory → o.memids = none) :
    ((s.modify i Obj.unhold).release i).Kept := by
  have one : ∀ o, s.objs[i]? = some o → s.refs i o = (s.modify i .unhold).refs i o.unhold + 1 := by
    intro o found
    have pos : 0 < o.held := by
      rw [found] at held
      exact of_decide_eq_true held
    have less : o.unhold.held = o.held - 1 := rfl
    rw [refs, refs, less]
    show o.held + s.frames.count i = o.held - 1 + s.frames.count i + 1
    omega
  apply kept_release
  · intro j q found
    rcases lookup_modify found with ⟨rfl, o, old, rfl⟩ | ⟨other, old⟩
    · rw [if_pos rfl, ← one o old]
      exact (kept.obj j o old).unhold
    · rw [if_neg other]
      exact kept.obj j q old
  · rw [servers]
    cases found : s.objs[i]? with
    | none =>
      rw [found] at held
      cases held
    | some o =>
      have counted := countP_modify (p := Obj.serves) (f := Obj.unhold) found
      have same : o.unhold.serves = o.serves := rfl
      rw [same] at counted
      have process := kept.process
      rw [servers] at process
      simp only [Com.modify]
      omega
  · intro j among
    rw [Com.modify, List.length_modify]
    exact kept.frames j among
  · intro q found zero isFactory
    rcases lookup_modify found with ⟨-, o, old, rfl⟩ | ⟨other, -⟩
    · apply null o old _ isFactory
      rw [one o old, zero]
    · exact absurd rfl other

/-- The release at the end of a call. -/
theorem Kept.leave {frames : List Nat} (kept : s.Kept) (top : s.frames = i :: frames)
    (null : ∀ o ∈ s.objs[i]?, s.refs i o = 1 → o.vtbl = .classFactory → o.memids = none) :
    (Com.release { s with frames := frames } i).Kept := by
  have one : ∀ j (o : Obj), s.refs j o =
      if j = i then Com.refs { s with frames := frames } j o + 1
      else Com.refs { s with frames := frames } j o := by
    intro j o
    rw [refs, refs, top]
    split
    case isTrue same =>
      rw [same, List.count_cons_self, Nat.add_assoc]
    case isFalse other => rw [List.count_cons_of_ne (Ne.symm other)]
  apply kept_release
  · intro j q found
    rw [← one]
    exact kept.obj j q found
  · exact kept.process
  · intro j among
    apply kept.frames
    rw [top]
    exact List.mem_cons_of_mem _ among
  · intro q found zero isFactory
    apply null q found _ isFactory
    rw [one, if_pos rfl, zero]

theorem Kept.step {a : Label} (kept : s.Kept) (proper : s.Proper a) (moves : s.step a = some t) :
    t.Kept := by
  obtain ⟨room, null⟩ := proper
  cases a with
  | comServer iid memids cmd =>
    cases moves
    exact kept.comServer iid memids cmd
  | classFactory clsid cmd memids =>
    cases moves
    exact kept.classFactory clsid cmd memids
  | queryInterface i riid =>
    obtain ⟨alive, moves⟩ := Option.ite_none_right_eq_some.mp moves
    cases moves
    unfold queryInterface
    split
    case isTrue supported => exact (kept.give alive (room i (if_pos supported))).reply _
    case isFalse => exact (kept.touch alive).reply _
  | addRef i =>
    obtain ⟨alive, moves⟩ := Option.ite_none_right_eq_some.mp moves
    cases moves
    exact (kept.give alive (room i rfl)).reply _
  | release i =>
    obtain ⟨held, moves⟩ := Option.ite_none_right_eq_some.mp moves
    cases moves
    exact (kept.release held (null i rfl)).reply _
  | invoke i runs =>
    obtain ⟨⟨alive, -⟩, moves⟩ := Option.ite_none_right_eq_some.mp moves
    cases moves
    apply kept.enter alive
    rintro rfl
    exact room i rfl
  | createInstance i runs =>
    obtain ⟨⟨alive, -⟩, moves⟩ := Option.ite_none_right_eq_some.mp moves
    cases moves
    apply kept.enter alive
    rintro rfl
    exact room i rfl
  | done handed =>
    simp only [Com.step, Com.done] at moves
    split at moves
    case h_1 => cases moves
    case h_2 i frames top =>
      have dropped : ∀ handed, s.drops (.done handed) = some i := by
        intro handed
        rw [drops, top, List.head?_cons]
      split at moves
      case h_1 =>
        cases moves
        exact kept.leave top (null i (dropped _))
      case h_2 j =>
        split at moves
        case isTrue =>
          cases moves
          exact kept.leave top (null i (dropped _))
        case isFalse server =>
          obtain ⟨alive, moves⟩ := Option.ite_none_right_eq_some.mp moves
          cases moves
          apply (kept.give alive (room j rfl)).leave top
          intro o found _ isFactory
          -- The object whose script is done is an automation object.
          exfalso
          apply server
          rcases lookup_modify found with ⟨rfl, q, old, rfl⟩ | ⟨-, old⟩
          · rw [old]
            exact decide_eq_true isFactory
          · rw [old]
            exact decide_eq_true isFactory

/-- Every object has lived as it should, and the process was told of as many
servers as there are. -/
structure Balanced (s : Com) : Prop where
  obj : ∀ i (o : Obj), s.objs[i]? = some o → o.Balanced (s.refs i o)
  process : s.process = s.servers

end Com

/-! ### Runs -/

theorem reaches_kept {s : Com} (h : comMachine.Reaches Com.Proper s) : s.Kept := by
  apply h.invariant
  · rintro s rfl
    refine ⟨?_, rfl, ?_⟩
    · intro i o found
      cases found
    · intro i among
      cases among
  · intro s a t kept proper moves
    exact kept.step proper moves

/-- In every run without a class factory that is freed with a `memids` that is not
null, and without a count that wraps around, each object is freed once its last
reference is released, and not before, and has then released what it acquired. -/
theorem reaches_balanced {s : Com} (h : comMachine.Reaches Com.Proper s) : s.Balanced := by
  have kept := reaches_kept h
  constructor
  · intro i o found
    exact (kept.obj i o found).balanced
  · exact kept.process

/-- An automation object that its script releases, and a class factory. -/
theorem reaches_balanced_reentered :
    ∃ s, comMachine.Reaches Com.Proper s ∧
      (s.objs.length = 2 ∧ s.process = 0 ∧ ∀ o ∈ s.objs, deletions o.log = 1) ∧ s.Balanced := by
  obtain ⟨s, reached, freed⟩ := Machine.Reaches.exists_of_run (M := comMachine) (G := Com.Proper)
    [.comServer (.other 7) 1 2, .classFactory (.other 8) 3 none, .queryInterface 0 .iDispatch,
      .invoke 0 true, .release 0, .createInstance 1 true, .done (some 0), .release 0, .release 1,
      .done none]
    (fun s => s.objs.length = 2 ∧ s.process = 0 ∧ ∀ o ∈ s.objs, deletions o.log = 1) rfl
    (by decide)
  exact ⟨s, reached, freed, reaches_balanced reached⟩

/-- The memory of a class factory reads 9 where `memids` is. -/
theorem factory_releases_garbage :
    ¬ ∀ s, comMachine.Reachable s → s.Balanced := by
  intro always
  obtain ⟨s, reached, obj⟩ := Machine.Reaches.exists_of_run (M := comMachine) (G := fun _ _ => True)
    [.classFactory (.other 8) 3 (some 9), .release 0]
    (fun s => ∃ o ∈ s.objs[0]?, s.refs 0 o = 0 ∧ ¬ o.gave.Perm o.took) rfl (by decide)
  obtain ⟨o, found, zero, unfair⟩ := obj
  have gave := ((always s reached).obj 0 o found).gave
  rw [if_pos zero] at gave
  exact unfair gave

end Twapi.ComServer
