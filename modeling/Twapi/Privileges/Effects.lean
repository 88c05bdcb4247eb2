import Twapi.Privileges.Model

/-!
What the parts of `eval_with_privileges` do.

* `adjust_undoes` — the previous attributes undo an adjustment.
* `mapPrivilegeToLuid_fst`, `mapLuidToPrivilege_fst` — the caches make no difference.
* `luid_of_priv` — what is reported of a privilege stands for it again.
* `mapEach_privs_vars` — what reporting leaves in the error variables.
-/

namespace Twapi.Privileges

open List

variable {L N : Type} {S : System L N}

/-! ### Adjusting the token -/

section Adjust

variable [DecidableEq L] {held enabled : L → Bool} {attr : Bool}

theorem adjust_cons_modifies {l : L} (change : (held l && enabled l != attr) = true)
    (items : List (L × Bool)) :
    adjust held enabled ((l, attr) :: items) =
      ((adjust held (Function.update enabled l attr) items).1,
        (l, enabled l) :: (adjust held (Function.update enabled l attr) items).2) := by
  rw [adjust, if_pos change]

theorem adjust_cons_passes {l : L} (change : ¬ (held l && enabled l != attr) = true)
    (items : List (L × Bool)) :
    adjust held enabled ((l, attr) :: items) = adjust held enabled items := by
  rw [adjust, if_neg change]

theorem adjust_enabled (ls : List L) (l : L) :
    (adjust held enabled (ls.map fun l => (l, attr))).1 l =
      if l ∈ ls ∧ held l then attr else enabled l := by
  induction ls generalizing enabled with
  | nil => simp [adjust]
  | cons k ls ih =>
    by_cases change : (held k && enabled k != attr) = true
    · simp only [map_cons, adjust_cons_modifies change, ih]
      by_cases same : l = k
      · subst same
        have kHeld : held l = true := (Bool.and_eq_true _ _ ▸ change).1
        simp [kHeld]
      · simp [same]
    · simp only [map_cons, adjust_cons_passes change, ih]
      by_cases same : l = k
      · subst same
        cases kHeld : held l with
        | false => simp
        | true =>
          have already : enabled l = attr := by simpa [kHeld] using change
          simp [already]
      · simp [same]

theorem mem_adjust (ls : List L) (l : L) (b : Bool) :
    (l, b) ∈ (adjust held enabled (ls.map fun l => (l, attr))).2 ↔
      l ∈ ls ∧ held l ∧ enabled l = !attr ∧ b = !attr := by
  induction ls generalizing enabled with
  | nil => simp [adjust]
  | cons k ls ih =>
    by_cases change : (held k && enabled k != attr) = true
    · have kHeld : held k = true := (Bool.and_eq_true _ _ ▸ change).1
      have was : enabled k = !attr := by
        have := (Bool.and_eq_true _ _ ▸ change).2
        cases attr <;> simpa using this
      simp only [map_cons, adjust_cons_modifies change, mem_cons, ih, Prod.mk.injEq]
      by_cases same : l = k
      · subst same
        simp [kHeld, was]
      · simp [same]
    · simp only [map_cons, adjust_cons_passes change, ih, mem_cons]
      constructor
      · rintro ⟨mem, rest⟩
        exact ⟨.inr mem, rest⟩
      · rintro ⟨rfl | mem, rest⟩
        · exact absurd (by simp [rest.1, rest.2.1]) change
        · exact ⟨mem, rest⟩

/-- The privileges that an adjustment modifies. -/
def modified (held enabled : L → Bool) (attr : Bool) (ls : List L) : List L :=
  (adjust held enabled (ls.map fun l => (l, attr))).2.map Prod.fst

theorem mem_modified {ls : List L} {l : L} :
    l ∈ modified held enabled attr ls ↔ l ∈ ls ∧ held l ∧ enabled l = !attr := by
  simp [modified, mem_adjust]

/-- What an adjustment reports is the modified privileges, each with the other attribute. -/
theorem adjust_previous (ls : List L) :
    (adjust held enabled (ls.map fun l => (l, attr))).2 =
      (modified held enabled attr ls).map fun l => (l, !attr) := by
  rw [modified, map_map]
  calc (adjust held enabled (ls.map fun l => (l, attr))).2
      = (adjust held enabled (ls.map fun l => (l, attr))).2.map id := (map_id _).symm
    _ = _ := map_congr_left fun item mem => by
        obtain ⟨-, -, -, same⟩ := (mem_adjust ls item.1 item.2).mp mem
        exact Prod.ext rfl same

/-- The previous attributes undo an adjustment. -/
theorem adjust_undoes (ls : List L) :
    (adjust held (adjust held enabled (ls.map fun l => (l, attr))).1
      ((modified held enabled attr ls).map fun l => (l, !attr))).1 = enabled := by
  funext l
  simp only [adjust_enabled, mem_modified]
  by_cases change : (l ∈ ls ∧ held l = true ∧ enabled l = !attr) ∧ held l = true
  · exact (if_pos change).trans change.1.2.2.symm
  · rw [if_neg change]
    by_cases given : l ∈ ls ∧ held l = true
    · rw [if_pos given]
      have already : enabled l ≠ !attr := fun was => change ⟨⟨given.1, given.2, was⟩, given.2⟩
      revert already
      cases enabled l <;> cases attr <;> simp
    · rw [if_neg given]

theorem modified_nodup (ls : List L) : (modified held enabled attr ls).Nodup := by
  induction ls generalizing enabled with
  | nil => exact nodup_nil
  | cons k ls ih =>
    by_cases change : (held k && enabled k != attr) = true
    · have split : modified held enabled attr (k :: ls) =
          k :: modified held (Function.update enabled k attr) attr ls := by
        simp only [modified, map_cons, adjust_cons_modifies change]
      rw [split]
      refine nodup_cons.mpr ⟨fun again => ?_, ih⟩
      have was := (mem_modified.mp again).2.2
      rw [Function.update_self] at was
      cases attr <;> cases was
    · have same : modified held enabled attr (k :: ls) = modified held enabled attr ls := by
        simp only [modified, map_cons, adjust_cons_passes change]
      exact same ▸ ih

/-- Distinct privileges of the token that all have the other attribute are all modified. -/
theorem modified_of_all {ls : List L} (distinct : ls.Nodup)
    (other : ∀ l ∈ ls, held l ∧ enabled l = !attr) : modified held enabled attr ls = ls := by
  induction ls generalizing enabled with
  | nil => rfl
  | cons k ls ih =>
    obtain ⟨fresh, distinct⟩ := nodup_cons.mp distinct
    obtain ⟨kHeld, kOther⟩ := other k mem_cons_self
    have change : (held k && enabled k != attr) = true := by
      rw [kHeld, kOther]
      cases attr <;> rfl
    have rest : modified held (Function.update enabled k attr) attr ls = ls := ih distinct (by
      intro l mem
      have apart : l ≠ k := fun same => fresh (same ▸ mem)
      rw [Function.update_of_ne apart]
      exact other l (mem_cons_of_mem k mem))
    simp only [modified, map_cons, adjust_cons_modifies change] at rest ⊢
    rw [rest]

end Adjust

/-! ### Names and LUIDs -/

/-- The LUID that a privilege stands for. -/
def System.luid (S : System L N) : Priv L N → Except TclError L
  | .name n | .prefixedName n => (S.lookupPrivilegeValue n).mapError S.systemError
  | .luid l | .prefixedLuid l => .ok l

/-- How a LUID is reported. -/
def System.priv (S : System L N) (l : L) : Except TclError (Priv L N) :=
  match S.lookupPrivilegeName l with
  | .ok n => .ok (.name n)
  | .error code =>
    if code = ERROR_NO_SUCH_PRIVILEGE then .ok (.prefixedLuid l) else .error (S.systemError code)

/-- The lookup of the name does not fail other than by finding none. -/
def System.Reportable (S : System L N) (l : L) : Prop :=
  ∀ code, S.lookupPrivilegeName l = .error code → code = ERROR_NO_SUCH_PRIVILEGE

def System.Nameless (S : System L N) (l : L) : Prop :=
  S.lookupPrivilegeName l = .error ERROR_NO_SUCH_PRIVILEGE

instance (l : L) : Decidable (S.Nameless l) :=
  match lookup : S.lookupPrivilegeName l with
  | .ok n => .isFalse fun nameless => by cases lookup.symm.trans nameless
  | .error code =>
    if same : code = ERROR_NO_SUCH_PRIVILEGE then .isTrue (lookup.trans (congrArg _ same))
    else .isFalse fun nameless => same (Except.error.inj (lookup.symm.trans nameless))

variable {ls : List L}

/-- What is reported of privileges stands for them. -/
theorem luid_of_priv {ps : List (Priv L N)} (reported : ls.mapM S.priv = .ok ps) :
    ps.mapM S.luid = .ok ls := by
  induction ls generalizing ps with
  | nil =>
    cases reported
    rfl
  | cons l ls ih =>
    rw [mapM_cons] at reported
    cases head : S.priv l with
    | error e =>
      rw [head] at reported
      cases reported
    | ok p =>
      cases tail : ls.mapM S.priv with
      | error e =>
        rw [head, tail] at reported
        cases reported
      | ok qs =>
        rw [head, tail] at reported
        cases reported
        have stands : S.luid p = .ok l := by
          unfold System.priv at head
          split at head
          · rename_i n named
            cases head
            simp [System.luid, S.value_of_name named, Except.mapError]
          · split at head
            · cases head
              rfl
            · cases head
        rw [mapM_cons, stands, ih tail]
        rfl

theorem priv_of_reportable {l : L} (reportable : S.Reportable l) : ∃ p, S.priv l = .ok p := by
  unfold System.priv
  split
  · exact ⟨_, rfl⟩
  · rename_i code lookup
    exact ⟨_, if_pos (reportable code lookup)⟩

theorem privs_of_reportable (reportable : ∀ l ∈ ls, S.Reportable l) :
    ∃ ps, ls.mapM S.priv = .ok ps := by
  induction ls with
  | nil => exact ⟨[], rfl⟩
  | cons l ls ih =>
    obtain ⟨p, head⟩ := priv_of_reportable (reportable l mem_cons_self)
    obtain ⟨ps, tail⟩ := ih fun k mem => reportable k (mem_cons_of_mem l mem)
    exact ⟨p :: ps, by rw [mapM_cons, head, tail]; rfl⟩

theorem not_privs_of_unreportable {l : L} (mem : l ∈ ls) (unreportable : ¬ S.Reportable l)
    (ps : List (Priv L N)) : ls.mapM S.priv ≠ .ok ps := by
  intro reported
  induction ls generalizing ps with
  | nil => cases mem
  | cons k ls ih =>
    rw [mapM_cons] at reported
    cases head : S.priv k with
    | error e =>
      rw [head] at reported
      cases reported
    | ok p =>
      cases tail : ls.mapM S.priv with
      | error e =>
        rw [head, tail] at reported
        cases reported
      | ok qs =>
        rcases mem_cons.mp mem with rfl | mem
        · refine unreportable fun code lookup => ?_
          by_contra other
          simp [System.priv, lookup, other] at head
        · exact ih mem qs tail

theorem mapEach_fst {α β : Type} {f : World S → α → Except TclError β × World S}
    {g : α → Except TclError β} (pointwise : ∀ w a, (f w a).1 = g a) (w : World S)
    (as : List α) : (mapEach f w as).1 = as.mapM g := by
  induction as generalizing w with
  | nil => rfl
  | cons a as ih =>
    have head := pointwise w a
    rw [mapM_cons, ← head]
    rcases run : f w a with ⟨_ | b, v⟩
    · simp only [mapEach, run]
      rfl
    · rw [← ih v]
      rcases rest : mapEach f v as with ⟨_ | bs, u⟩ <;> simp only [mapEach, run, rest] <;> rfl

theorem mapEach_keeps {α β γ : Type} {f : World S → α → Except TclError β × World S}
    (φ : World S → γ) (keeps : ∀ w a, φ (f w a).2 = φ w) (w : World S) (as : List α) :
    φ (mapEach f w as).2 = φ w := by
  induction as generalizing w with
  | nil => rfl
  | cons a as ih =>
    have head := keeps w a
    rcases run : f w a with ⟨_ | b, v⟩
    · simpa only [mapEach, run] using head
    · have tail := ih v
      rw [run] at head
      rcases rest : mapEach f v as with ⟨_ | bs, u⟩ <;> rw [rest] at tail <;>
        simp only [mapEach, run, rest] <;> exact tail.trans head

section PrivilegeToLuid

variable [DecidableEq N]

theorem lookUpLuid_fst (w : World S) (n : N) :
    (lookUpLuid w n).1 = (S.lookupPrivilegeValue n).mapError S.systemError := by
  unfold lookUpLuid
  split <;> rename_i h <;> simp only [h] <;> rfl

/-- The cache says what the lookup would say. -/
theorem mapPrivilegeToLuid_fst (w : World S) (p : Priv L N) :
    (mapPrivilegeToLuid w p).1 = S.luid p := by
  cases p with
  | name n =>
    cases cached : w.privilegeToLuid n with
    | some l => simp [mapPrivilegeToLuid, cached, System.luid, w.privilege_looked_up cached,
        Except.mapError]
    | none => simp [mapPrivilegeToLuid, cached, System.luid, lookUpLuid_fst]
  | prefixedName n => exact lookUpLuid_fst w n
  | luid l => rfl
  | prefixedLuid l => rfl

theorem lookUpLuid_enabled (w : World S) (n : N) : (lookUpLuid w n).2.enabled = w.enabled := by
  unfold lookUpLuid
  split <;> rfl

theorem lookUpLuid_vars (w : World S) (n : N) : (lookUpLuid w n).2.vars = w.vars := by
  unfold lookUpLuid
  split <;> rfl

theorem mapPrivilegeToLuid_enabled (w : World S) (p : Priv L N) :
    (mapPrivilegeToLuid w p).2.enabled = w.enabled := by
  cases p with
  | name n =>
    cases cached : w.privilegeToLuid n with
    | some l => simp [mapPrivilegeToLuid, cached]
    | none => simp [mapPrivilegeToLuid, cached, lookUpLuid_enabled]
  | prefixedName n => exact lookUpLuid_enabled w n
  | luid l => rfl
  | prefixedLuid l => rfl

theorem mapPrivilegeToLuid_vars (w : World S) (p : Priv L N) :
    (mapPrivilegeToLuid w p).2.vars = w.vars := by
  cases p with
  | name n =>
    cases cached : w.privilegeToLuid n with
    | some l => simp [mapPrivilegeToLuid, cached]
    | none => simp [mapPrivilegeToLuid, cached, lookUpLuid_vars]
  | prefixedName n => exact lookUpLuid_vars w n
  | luid l => rfl
  | prefixedLuid l => rfl

end PrivilegeToLuid

section LuidToPrivilege

variable [DecidableEq L]

theorem mapLuidToPrivilege_fst (w : World S) (l : L) :
    (mapLuidToPrivilege w l).1 = S.priv l := by
  cases cached : w.luidToPrivilege l with
  | some n => simp [mapLuidToPrivilege, cached, System.priv, w.luid_looked_up cached]
  | none =>
    simp only [mapLuidToPrivilege, cached, System.priv]
    split <;> rename_i h <;> simp only [h]
    split <;> rfl

theorem mapLuidToPrivilege_enabled (w : World S) (l : L) :
    (mapLuidToPrivilege w l).2.enabled = w.enabled := by
  cases cached : w.luidToPrivilege l with
  | some n => simp [mapLuidToPrivilege, cached]
  | none =>
    simp only [mapLuidToPrivilege, cached]
    split
    · rfl
    · split <;> rfl

/-- A privilege without a name leaves the error of its lookup, even though the
command succeeds. It is never in the cache. -/
theorem mapLuidToPrivilege_vars {w : World S} {l : L} (reportable : S.Reportable l) :
    (mapLuidToPrivilege w l).2.vars =
      if S.Nameless l then (S.systemError ERROR_NO_SUCH_PRIVILEGE).vars else w.vars := by
  cases cached : w.luidToPrivilege l with
  | some n =>
    have named := w.luid_looked_up cached
    simp [mapLuidToPrivilege, cached, System.Nameless, named]
  | none =>
    simp only [mapLuidToPrivilege, cached]
    split
    · rename_i n named
      simp [System.Nameless, named, World.cacheName]
    · rename_i code lookup
      obtain rfl := reportable code lookup
      simp [System.Nameless, lookup, World.caught]

theorem mapEach_privs_vars {ls : List L} {w : World S} (reportable : ∀ l ∈ ls, S.Reportable l) :
    (mapEach mapLuidToPrivilege w ls).2.vars =
      if ∃ l ∈ ls, S.Nameless l then (S.systemError ERROR_NO_SUCH_PRIVILEGE).vars else w.vars := by
  induction ls generalizing w with
  | nil => simp [mapEach]
  | cons l ls ih =>
    have head := mapLuidToPrivilege_vars (w := w) (reportable l mem_cons_self)
    obtain ⟨p, isPriv⟩ := priv_of_reportable (reportable l mem_cons_self)
    have first := mapLuidToPrivilege_fst w l
    rcases run : mapLuidToPrivilege w l with ⟨r, v⟩
    rw [run] at head first
    obtain rfl : r = .ok p := first.trans isPriv
    have tail := ih (w := v) fun k mem => reportable k (mem_cons_of_mem l mem)
    have step : (mapEach mapLuidToPrivilege w (l :: ls)).2 =
        (mapEach mapLuidToPrivilege v ls).2 := by
      rcases rest : mapEach mapLuidToPrivilege v ls with ⟨_ | bs, u⟩ <;>
        simp only [mapEach, run, rest]
    rw [step, tail, head]
    by_cases later : ∃ k ∈ ls, S.Nameless k
    · rw [if_pos later, if_pos (later.imp fun k h => ⟨mem_cons_of_mem l h.1, h.2⟩)]
    · rw [if_neg later]
      by_cases here : S.Nameless l
      · rw [if_pos here, if_pos ⟨l, mem_cons_self, here⟩]
      · rw [if_neg here, if_neg]
        rintro ⟨k, mem, nameless⟩
        rcases mem_cons.mp mem with rfl | mem
        · exact here nameless
        · exact later ⟨k, mem, nameless⟩

end LuidToPrivilege

end Twapi.Privileges
