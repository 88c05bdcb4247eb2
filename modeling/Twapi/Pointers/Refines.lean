import Mathlib.Data.List.Induction
import Twapi.Lib.Results
import Twapi.Pointers.Registry

/-!
The table is the registry.

* `Represents` — an entry of the table is a pointer that is registered.
* `step_refines` — an operation on the table has the outcome it has in the registry.
* `Recorded` — the registry is what the history says.
* `registry_refines` — every sequence of operations.
-/

namespace Twapi.Pointers

open Lib Function

/-! ### Reference counts -/

def Kind.nrefs : Kind → Int
  | .plain => -1
  | .counted n => toInt (n + 1)

theorem toInt_of_lt {n : Int} (nonneg : 0 ≤ n) (less : n < 2 ^ 31) : toInt n = n := by
  rw [toInt]
  exact Int.bmod_eq_of_le (by omega) (by omega)

theorem counted_more (n : Nat) : toInt (toInt (n + 1) + 1) = toInt ((n + 1 : Nat) + 1) :=
  Int.bmod_add_bmod

theorem counted_fewer (n : Fin countLimit) : toInt (toInt (n + 1) - 1) = n := by
  have same : toInt (toInt (n + 1) - 1) = toInt (n + 1 - 1) := Int.bmod_sub_bmod
  rw [same, Int.add_sub_cancel]
  exact toInt_of_lt (Int.natCast_nonneg _) (by exact_mod_cast n.isLt)

variable {n : Fin countLimit}

theorem counted_nonneg (less : n + 1 < countLimit) :
    ¬ toInt ((n : Nat) + 1) < 0 := by
  have below : ((n : Nat) : Int) + 1 < 2 ^ 31 := by exact_mod_cast less
  rw [toInt_of_lt (by omega) below]
  omega

/-- A count at the limit looks like that of a plain pointer. -/
theorem counted_neg (most : ¬ n + 1 < countLimit) :
    toInt ((n : Nat) + 1) < 0 := by
  have last : (n : Nat) + 1 = 2 ^ 31 := Nat.le_antisymm n.isLt (Nat.not_lt.mp most)
  have same : ((n : Nat) : Int) + 1 = 2 ^ 31 := by exact_mod_cast last
  rw [same]
  decide

/-! ### One operation -/

def Entry.rep (e : Entry) : TwapiRegisteredPointer := ⟨e.tag, e.kind.nrefs⟩

def Represents (pointers : Table) (m : Registry) : Prop :=
  ∀ p, pointers.lookup p = (m p).map Entry.rep

section Step

variable {pointers : Table} {m : Registry} {p : Nat}

theorem Represents.update {pointers' : Table} {entry : Option Entry}
    (represents : Represents pointers m) (here : pointers'.lookup p = entry.map Entry.rep)
    (elsewhere : ∀ q, q ≠ p → pointers'.lookup q = pointers.lookup q) :
    Represents pointers' (Function.update m p entry) := by
  intro q
  by_cases same : q = p
  · subst same
    rw [here, update_self]
  · rw [elsewhere q same, update_of_ne same]
    exact represents q

theorem Represents.set (represents : Represents pointers m) (p : Nat) (e : Entry) :
    Represents (tclSetHashValue pointers p e.rep) (Function.update m p (some e)) :=
  represents.update (AList.lookup_insert pointers) fun _ other => AList.lookup_insert_ne other

theorem create_new (unused : pointers.lookup p = none) :
    tclCreateHashEntry pointers p = (pointers.insert p default, true) :=
  if_neg (AList.lookup_eq_none.mp unused)

theorem create_old {rP : TwapiRegisteredPointer} (used : pointers.lookup p = some rP) :
    tclCreateHashEntry pointers p = (pointers, false) := by
  refine if_pos (AList.lookup_isSome.mp ?_)
  rw [used]
  rfl

theorem Represents.setNew (represents : Represents pointers m) (p : Nat) (e : Entry) :
    Represents (tclSetHashValue (pointers.insert p default) p e.rep)
      (Function.update m p (some e)) := by
  refine represents.update (AList.lookup_insert _) fun q other => ?_
  exact (AList.lookup_insert_ne other).trans (AList.lookup_insert_ne other)

theorem register_refines (represents : Represents pointers m) (p typetag : Nat) :
    (twapiRegisterPointerTic pointers p typetag).1 = (m.step (.register p typetag)).1 ∧
      Represents (twapiRegisterPointerTic pointers p typetag).2
        (m.step (.register p typetag)).2 := by
  simp only [twapiRegisterPointerTic, Registry.step]
  by_cases null : p = 0
  · rw [if_pos null, if_pos null]
    exact ⟨rfl, represents⟩
  rw [if_neg null, if_neg null]
  have found := represents p
  cases entry : m p with
  | none =>
    rw [entry] at found
    rw [create_new found]
    exact ⟨rfl, represents.setNew p ⟨typetag, .plain⟩⟩
  | some e =>
    rw [entry] at found
    rw [create_old found]
    exact ⟨rfl, represents⟩

variable {typetag tag : Nat}

theorem registerCounted_found {nrefs : Int} (nonnull : p ≠ 0)
    (found : pointers.lookup p = some ⟨tag, nrefs⟩) :
    twapiRegisterCountedPointerTic pointers p typetag =
      if nrefs < 0 then (some .isNotCounted, pointers)
      else if tag ≠ typetag then (some .tagMismatch, pointers)
      else (none, tclSetHashValue pointers p ⟨tag, toInt (nrefs + 1)⟩) := by
  rw [twapiRegisterCountedPointerTic, if_neg nonnull, create_old found]
  simp only [found]
  rfl

theorem registerCounted_refines (represents : Represents pointers m) (p typetag : Nat) :
    (twapiRegisterCountedPointerTic pointers p typetag).1 =
        (m.step (.registerCounted p typetag)).1 ∧
      Represents (twapiRegisterCountedPointerTic pointers p typetag).2
        (m.step (.registerCounted p typetag)).2 := by
  rw [Registry.step]
  by_cases null : p = 0
  · rw [twapiRegisterCountedPointerTic, if_pos null, if_pos null]
    exact ⟨rfl, represents⟩
  rw [if_neg null]
  have found := represents p
  cases entry : m p with
  | none =>
    rw [entry] at found
    have set := represents.setNew p ⟨typetag, .counted ⟨0, by decide⟩⟩
    rw [Entry.rep, Kind.nrefs, toInt_of_lt (by decide) (by decide)] at set
    rw [twapiRegisterCountedPointerTic, if_neg null, create_new found]
    exact ⟨rfl, set⟩
  | some e =>
    rw [entry] at found
    rw [registerCounted_found null found]
    obtain ⟨tag, kind⟩ := e
    cases kind with
    | plain => exact ⟨rfl, represents⟩
    | counted n =>
      simp only [Kind.nrefs, Entry.more]
      by_cases less : n + 1 < countLimit
      · simp only [dif_pos less, counted_nonneg less, if_false]
        by_cases differ : tag ≠ typetag
        · simp only [if_pos differ]
          exact ⟨trivial, represents⟩
        · have set := represents.set p ⟨tag, .counted ⟨n + 1, less⟩⟩
          rw [Entry.rep, Kind.nrefs, ← counted_more] at set
          simp only [if_neg differ]
          exact ⟨trivial, set⟩
      · simp only [dif_neg less, counted_neg less, if_true]
        exact ⟨trivial, represents⟩

theorem unregister_found {nrefs : Int} (nonnull : p ≠ 0)
    (found : pointers.lookup p = some ⟨tag, nrefs⟩) :
    twapiUnregisterPointerTic pointers p typetag =
      if tag ≠ typetag then (some .tagMismatch, pointers)
      else if toInt (nrefs - 1) ≤ 0 then (none, pointers.erase p)
      else (none, tclSetHashValue pointers p ⟨tag, toInt (nrefs - 1)⟩) := by
  rw [twapiUnregisterPointerTic, if_neg nonnull]
  simp only [found]

theorem unregister_refines (represents : Represents pointers m) (p typetag : Nat) :
    (twapiUnregisterPointerTic pointers p typetag).1 = (m.step (.unregister p typetag)).1 ∧
      Represents (twapiUnregisterPointerTic pointers p typetag).2
        (m.step (.unregister p typetag)).2 := by
  rw [Registry.step]
  by_cases null : p = 0
  · rw [twapiUnregisterPointerTic, if_pos null, if_pos null]
    exact ⟨rfl, represents⟩
  rw [if_neg null]
  have found := represents p
  have erased : Represents (pointers.erase p) (update m p none) :=
    represents.update (AList.lookup_erase p pointers) fun q other => AList.lookup_erase_ne other
  cases entry : m p with
  | none =>
    rw [entry] at found
    rw [twapiUnregisterPointerTic, if_neg null]
    simp only [found, Option.map_none]
    exact ⟨trivial, represents⟩
  | some e =>
    rw [entry] at found
    rw [unregister_found null found]
    obtain ⟨tag, kind⟩ := e
    by_cases differ : tag ≠ typetag
    · simp only [if_pos differ]
      exact ⟨trivial, represents⟩
    simp only [if_neg differ]
    cases kind with
    | plain => exact ⟨rfl, erased⟩
    | counted n =>
      simp only [Kind.nrefs, counted_fewer]
      obtain ⟨n, less⟩ := n
      cases n with
      | zero => exact ⟨rfl, erased⟩
      | succ n =>
        have below : ((n : Nat) : Int) + 1 < 2 ^ 31 := by exact_mod_cast less
        have set := represents.set p ⟨tag, .counted ⟨n, Nat.lt_of_succ_lt less⟩⟩
        rw [Entry.rep, Kind.nrefs, toInt_of_lt (by omega) below] at set
        simp only [show ¬ ((n + 1 : Nat) : Int) ≤ 0 by omega, if_false]
        exact ⟨trivial, set⟩

theorem verify_refines (represents : Represents pointers m) (p typetag : Nat) :
    twapiVerifyPointerTic pointers p typetag = (m.step (.verify p typetag)).1 := by
  have found := represents p
  simp only [twapiVerifyPointerTic, Registry.step, found]
  cases m p with
  | none => rfl
  | some e =>
    simp only [Option.map_some]
    by_cases compatible : Compatible e.tag typetag
    · rw [if_pos compatible]
      refine if_neg fun ⟨given, tagged, differ⟩ => ?_
      rcases compatible with null | null | same
      · exact given null
      · exact tagged null
      · exact differ same
    · rw [if_neg compatible]
      rw [Compatible, not_or, not_or] at compatible
      exact if_pos compatible

theorem step_refines (represents : Represents pointers m) (op : Op) :
    (step pointers op).1 = (m.step op).1 ∧ Represents (step pointers op).2 (m.step op).2 := by
  cases op with
  | register p typetag => exact register_refines represents p typetag
  | registerCounted p typetag => exact registerCounted_refines represents p typetag
  | unregister p typetag => exact unregister_refines represents p typetag
  | verify p typetag =>
    refine ⟨verify_refines represents p typetag, ?_⟩
    have same : (m.step (.verify p typetag)).2 = m := by
      rw [Registry.step]
      cases m p <;> rfl
    rwa [same]

/-- An operation that fails leaves the table as it is. -/
theorem step_failed (pointers : Table) (op : Op) :
    (step pointers op).1 = none ∨ (step pointers op).2 = pointers := by
  cases op with
  | verify p typetag => exact .inr rfl
  | register p typetag =>
    rw [step, twapiRegisterPointerTic]
    by_cases null : p = 0
    · exact .inr (by rw [if_pos null])
    rw [if_neg null]
    cases found : pointers.lookup p with
    | none => exact .inl (by rw [create_new found]; rfl)
    | some rP => exact .inr (by rw [create_old found]; rfl)
  | registerCounted p typetag =>
    rw [step]
    by_cases null : p = 0
    · exact .inr (by rw [twapiRegisterCountedPointerTic, if_pos null])
    cases found : pointers.lookup p with
    | none =>
      rw [twapiRegisterCountedPointerTic, if_neg null, create_new found]
      exact .inl rfl
    | some rP =>
      rw [registerCounted_found null found]
      split
      · exact .inr rfl
      · split
        · exact .inr rfl
        · exact .inl rfl
  | unregister p typetag =>
    rw [step]
    by_cases null : p = 0
    · exact .inr (by rw [twapiUnregisterPointerTic, if_pos null])
    cases found : pointers.lookup p with
    | none => exact .inr (by simp only [twapiUnregisterPointerTic, if_neg null, found])
    | some rP =>
      rw [unregister_found null found]
      split
      · exact .inr rfl
      · split <;> exact .inl rfl

end Step

/-! ### Histories -/

def Registry.count (m : Registry) (p : Nat) : Nat :=
  match m p with
  | none => 0
  | some e => e.count

/-- The registry has a pointer as often as it was registered and not unregistered, under the
tag of the last registration. -/
structure Recorded (m : Registry) (history : History) : Prop where
  counts : ∀ p, registrations p history = unregistrations p history + m.count p
  tags : ∀ p e, m p = some e → lastTag p history = some e.tag

section Recorded

variable {m : Registry} {history : History}

theorem Entry.count_pos (e : Entry) : 0 < e.count := by
  obtain ⟨tag, kind⟩ := e
  cases kind with
  | plain => exact Nat.one_pos
  | counted n => exact Nat.succ_pos n

variable {typetag p : Nat}

theorem Entry.more_ok {e e' : Entry} (more : e.more typetag = .ok e') :
    e.tag = typetag ∧ e'.tag = typetag ∧ e'.count = e.count + 1 := by
  obtain ⟨tag, kind⟩ := e
  cases kind with
  | plain => cases more
  | counted n =>
    rw [Entry.more] at more
    by_cases less : n + 1 < countLimit
    · simp only [dif_pos less] at more
      by_cases differ : tag ≠ typetag
      · rw [if_pos differ] at more
        cases more
      · rw [if_neg differ] at more
        cases more
        exact ⟨not_not.mp differ, not_not.mp differ, rfl⟩
    · simp only [dif_neg less] at more
      cases more

theorem Entry.fewer_eq (e : Entry) :
    (e.fewer = none ∧ e.count = 1) ∨
      ∃ e', e.fewer = some e' ∧ e'.tag = e.tag ∧ e.count = e'.count + 1 := by
  obtain ⟨tag, kind⟩ := e
  cases kind with
  | plain => exact .inl ⟨rfl, rfl⟩
  | counted n =>
    obtain ⟨n, less⟩ := n
    cases n with
    | zero => exact .inl ⟨rfl, rfl⟩
    | succ n => exact .inr ⟨_, rfl, rfl, rfl⟩

/-- Another registration. -/
theorem Recorded.registered (recorded : Recorded m history) {op : Op} {e : Entry}
    (registers : ∀ q, registeredAs q (op, none) = if p = q then some typetag else none)
    (keeps : ∀ q, unregisteredAs q (op, none) = none) (tag : e.tag = typetag)
    (count : e.count = m.count p + 1) :
    Recorded (Function.update m p (some e)) ((op, none) :: history) := by
  constructor
  · intro q
    have counts := recorded.counts q
    simp only [registrations, unregistrations, List.countP_cons, registers, keeps] at counts ⊢
    by_cases same : p = q
    · subst same
      simp only [Registry.count, update_self, count, if_true, Option.isSome_some,
        Option.isSome_none] at counts ⊢
      simp only [if_false, Bool.false_eq_true]
      omega
    · simp only [Registry.count, update_of_ne (Ne.symm same), if_neg same,
        Option.isSome_none] at counts ⊢
      simpa using counts
  · intro q e' entry
    rw [lastTag, List.findSome?_cons, registers]
    by_cases same : p = q
    · subst same
      rw [update_self] at entry
      cases entry
      rw [if_pos rfl, tag]
    · rw [update_of_ne (Ne.symm same)] at entry
      rw [if_neg same]
      exact recorded.tags q e' entry

/-- What is not a registration or an unregistration that succeeds. -/
theorem Recorded.idle (recorded : Recorded m history) {done : Op × Option TwapiError}
    (registers : ∀ p, registeredAs p done = none)
    (unregisters : ∀ p, unregisteredAs p done = none) : Recorded m (done :: history) := by
  constructor
  · intro p
    have counts := recorded.counts p
    simpa only [registrations, unregistrations, List.countP_cons, registers, unregisters,
      Option.isSome_none, Bool.false_eq_true, if_false, Nat.add_zero] using counts
  · intro p e entry
    rw [lastTag, List.findSome?_cons, registers]
    exact recorded.tags p e entry

theorem Recorded.failed (recorded : Recorded m history) (op : Op) (error : TwapiError) :
    Recorded m ((op, some error) :: history) := by
  apply recorded.idle
  · intro p
    cases op <;> rfl
  · intro p
    cases op <;> rfl

theorem Recorded.unregistered (recorded : Recorded m history) {e : Entry} (entry : m p = some e) :
    Recorded (Function.update m p e.fewer) ((.unregister p typetag, none) :: history) := by
  have registers : ∀ q, registeredAs q (.unregister p typetag, none) = none := fun _ => rfl
  have unregisters : ∀ q, unregisteredAs q (.unregister p typetag, none) =
      if p = q then some typetag else none := fun _ => rfl
  constructor
  · intro q
    have counts := recorded.counts q
    simp only [registrations, unregistrations, List.countP_cons, registers, unregisters]
      at counts ⊢
    by_cases same : p = q
    · subst same
      simp only [Registry.count, update_self, entry, if_true, Option.isSome_some,
        Option.isSome_none, Bool.false_eq_true, if_false] at counts ⊢
      rcases e.fewer_eq with ⟨fewer, count⟩ | ⟨e', fewer, _, count⟩
      · simp only [fewer]
        omega
      · simp only [fewer]
        omega
    · simp only [Registry.count, update_of_ne (Ne.symm same), if_neg same,
        Option.isSome_none] at counts ⊢
      simpa using counts
  · intro q e' after
    rw [lastTag, List.findSome?_cons, registers]
    by_cases same : p = q
    · subst same
      rw [update_self] at after
      rcases e.fewer_eq with ⟨fewer, _⟩ | ⟨_, fewer, tag, _⟩
      · rw [fewer] at after
        cases after
      · rw [fewer] at after
        cases after
        rw [tag]
        exact recorded.tags p e entry
    · rw [update_of_ne (Ne.symm same)] at after
      exact recorded.tags q e' after

theorem Recorded.step (recorded : Recorded m history) (op : Op) :
    Recorded (m.step op).2 ((op, (m.step op).1) :: history) := by
  cases op with
  | register p typetag =>
    rw [Registry.step]
    by_cases null : p = 0
    · rw [if_pos null]
      exact recorded.failed _ _
    rw [if_neg null]
    cases entry : m p with
    | none =>
      refine recorded.registered (fun _ => rfl) (fun _ => rfl) rfl ?_
      rw [Registry.count, entry]
      rfl
    | some e => exact recorded.failed _ _
  | registerCounted p typetag =>
    rw [Registry.step]
    by_cases null : p = 0
    · rw [if_pos null]
      exact recorded.failed _ _
    rw [if_neg null]
    cases entry : m p with
    | none =>
      refine recorded.registered (fun _ => rfl) (fun _ => rfl) rfl ?_
      rw [Registry.count, entry]
      rfl
    | some e =>
      cases more : e.more typetag with
      | error error =>
        simp only [more]
        exact recorded.failed _ _
      | ok e' =>
        obtain ⟨_, tag, count⟩ := Entry.more_ok more
        simp only [more]
        refine recorded.registered (fun _ => rfl) (fun _ => rfl) tag ?_
        rw [Registry.count, entry]
        exact count
  | unregister p typetag =>
    rw [Registry.step]
    by_cases null : p = 0
    · rw [if_pos null]
      exact recorded.failed _ _
    rw [if_neg null]
    cases entry : m p with
    | none => exact recorded.failed _ _
    | some e =>
      by_cases differ : e.tag ≠ typetag
      · simp only [if_pos differ]
        exact recorded.failed _ _
      · simp only [if_neg differ]
        exact recorded.unregistered entry
  | verify p typetag =>
    have idle : ∀ outcome, Recorded m ((.verify p typetag, outcome) :: history) := by
      intro outcome
      cases outcome with
      | none => exact recorded.idle (fun _ => rfl) (fun _ => rfl)
      | some error => exact recorded.failed _ _
    rw [Registry.step]
    cases m p with
    | none => exact idle _
    | some e => exact idle _

end Recorded

/-! ### Sequences -/

theorem run_refines (ops : List Op) :
    let actual := run step ∅ ops
    let abstract_ := run Registry.step (fun _ => none) ops
    actual.2 = abstract_.2 ∧ Represents actual.1 abstract_.1 ∧
      Recorded abstract_.1 abstract_.2 := by
  induction ops using List.reverseRecOn with
  | nil => exact ⟨rfl, fun _ => rfl, fun _ => rfl, nofun⟩
  | append_singleton ops op ih =>
    obtain ⟨same, represents, recorded⟩ := ih
    obtain ⟨outcome, represents'⟩ := step_refines represents op
    simp only [run_snoc]
    exact ⟨by rw [outcome, same], represents', recorded.step op⟩

/-- The pointer was registered more often than unregistered, the last time under a tag that
is compatible. -/
def Held (history : History) (p typetag : Nat) : Prop :=
  unregistrations p history < registrations p history ∧
    ∃ tag ∈ lastTag p history, Compatible tag typetag

theorem held_iff {m : Registry} {history : History} (recorded : Recorded m history)
    (p typetag : Nat) :
    (m.step (.verify p typetag)).1 = none ↔ Held history p typetag := by
  have counts := recorded.counts p
  rw [Registry.step, Held]
  cases entry : m p with
  | none =>
    rw [Registry.count, entry] at counts
    refine ⟨nofun, fun ⟨more, _⟩ => ?_⟩
    simp only at counts
    omega
  | some e =>
    rw [Registry.count, entry] at counts
    have positive := e.count_pos
    rw [recorded.tags p e entry]
    constructor
    · intro accepted
      refine ⟨by simp only at counts; omega, e.tag, rfl, ?_⟩
      by_contra differ
      simp only [if_neg differ] at accepted
      cases accepted
    · rintro ⟨_, tag, here, compatible⟩
      cases here
      exact if_pos compatible

/-! ### Arguments -/

theorem verifiedOrNull_iff (pointers : Table) (obj : Option OpaqueRep) (name : Option String)
    (verifier pv : Nat) :
    objToVerifiedPointerOrNullTic pointers obj name verifier = .ok pv ↔
      objToOpaque obj name = .ok pv ∧
        (pv ≠ 0 → twapiVerifyPointerTic pointers pv verifier = none) := by
  rw [objToVerifiedPointerOrNullTic]
  constructor
  · intro accepted
    obtain ⟨pv', read, verified⟩ := bind_eq_ok accepted
    by_cases null : pv' = 0
    · rw [if_neg (not_not.mpr null)] at verified
      cases verified
      exact ⟨read, fun nonnull => absurd null nonnull⟩
    · rw [if_pos null] at verified
      cases outcome : twapiVerifyPointerTic pointers pv' verifier with
      | none =>
        rw [outcome] at verified
        cases verified
        exact ⟨read, fun _ => outcome⟩
      | some error =>
        rw [outcome] at verified
        cases verified
  · rintro ⟨read, verified⟩
    rw [read, ok_bind]
    by_cases null : pv = 0
    · exact if_neg (not_not.mpr null)
    · rw [if_pos null, verified null]

theorem verified_iff (pointers : Table) (obj : Option OpaqueRep) (name : Option String)
    (verifier pv : Nat) :
    objToVerifiedPointerTic pointers obj name verifier = .ok pv ↔
      objToOpaque obj name = .ok pv ∧ pv ≠ 0 ∧
        twapiVerifyPointerTic pointers pv verifier = none := by
  rw [objToVerifiedPointerTic]
  constructor
  · intro accepted
    obtain ⟨pv', read, nonnull⟩ := bind_eq_ok accepted
    by_cases null : pv' = 0
    · rw [if_pos null] at nonnull
      cases nonnull
    · rw [if_neg null] at nonnull
      cases nonnull
      obtain ⟨read, verified⟩ := (verifiedOrNull_iff ..).mp read
      exact ⟨read, null, verified null⟩
  · rintro ⟨read, nonnull, verified⟩
    rw [(verifiedOrNull_iff ..).mpr ⟨read, fun _ => verified⟩, ok_bind]
    exact if_neg nonnull

/-- After any operations: the table is the registry, in which a pointer is as often as it was
registered and not unregistered; a verification, also that of an argument, succeeds where the
pointer is held under a compatible tag. -/
theorem registry_refines (ops : List Op) :
    let pointers := (run step ∅ ops).1
    let history := (run step ∅ ops).2
    let m := (run Registry.step (fun _ => none) ops).1
    (history = (run Registry.step (fun _ => none) ops).2 ∧ Represents pointers m ∧
      ∀ p, registrations p history = unregistrations p history + m.count p) ∧
    (∀ p typetag, twapiVerifyPointerTic pointers p typetag = none ↔ Held history p typetag) ∧
    (∀ obj name typetag pv, objToVerifiedPointerTic pointers obj name typetag = .ok pv ↔
      objToOpaque obj name = .ok pv ∧ pv ≠ 0 ∧ Held history pv typetag) ∧
    (∀ p typetag, unregistrations p history < registrations p history →
      (step pointers (.register p typetag)).1 ≠ none) ∧
    (∀ p tag typetag, m p = some ⟨tag, .plain⟩ →
      (step pointers (.registerCounted p typetag)).1 ≠ none) ∧
    ∀ op, (step pointers op).1 ≠ none → (step pointers op).2 = pointers := by
  obtain ⟨same, represents, recorded⟩ := run_refines ops
  rw [← same] at recorded
  intro pointers history m
  have verify : ∀ p typetag, twapiVerifyPointerTic pointers p typetag = none ↔
      Held history p typetag := by
    intro p typetag
    rw [verify_refines represents]
    exact held_iff recorded p typetag
  have counts : ∀ p, registrations p history = unregistrations p history + m.count p :=
    recorded.counts
  refine ⟨⟨same, represents, counts⟩, verify, ?_, ?_, ?_, ?_⟩
  · intro obj name typetag pv
    rw [verified_iff, verify]
  · intro p typetag more
    rw [(step_refines represents _).1, Registry.step]
    have present := counts p
    by_cases null : p = 0
    · rw [if_pos null]
      exact nofun
    · rw [if_neg null]
      cases entry : m p with
      | none =>
        rw [Registry.count, entry] at present
        simp only at present
        omega
      | some e =>
        simp only [show (run Registry.step (fun _ => none) ops).1 p = some e from entry]
        exact nofun
  · intro p tag typetag plain
    rw [(step_refines represents _).1, Registry.step]
    by_cases null : p = 0
    · rw [if_pos null]
      exact nofun
    · rw [if_neg null]
      simp only [show (run Registry.step (fun _ => none) ops).1 p = some ⟨tag, .plain⟩ from plain,
        Entry.more]
      exact nofun
  · exact fun op failed => (step_failed pointers op).resolve_left failed

/-- A null tag is a wildcard in a verification, not in an unregistration. -/
example :
    let pointers := (run step ∅ [.registerCounted 16 7, .registerCounted 16 7]).1
    twapiVerifyPointerTic pointers 16 0 = none ∧
      (step pointers (.unregister 16 0)).1 = some .tagMismatch ∧
      (step pointers (.register 16 7)).1 = some .alreadyExists := by
  decide

end Twapi.Pointers
