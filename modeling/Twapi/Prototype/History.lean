import Mathlib.Data.List.Induction
import Twapi.Prototype.Cache

/-!
What `@Prototype` gives after a history of lookups and definitions, compared with what
it gives after the definitions alone.

* `fresh` — the first of an lcid, `0` and `1033` at which there is an entry in the
  cache, or the type information knows the member.
* `Agree` — the entries that are in one cache only were written by lookups, and are
  what a lookup would give with the other.
* `lookup_faithful` — the two give the same where no definition comes too late for
  what an earlier lookup has cached, and where proxies of one interface know the same.
-/

namespace Twapi.Prototype

open Function

variable {Proxy Guid Name Kind α : Type} {I : Interfaces Proxy Guid Name Kind α}
  {c d : Cache Guid Name Kind α}

/-! ### One lookup -/

/-- What there is at one lcid. -/
def here (I : Interfaces Proxy Guid Name Kind α) (c : Cache Guid Name Kind α) (p : Proxy)
    (guid : Guid) (name : Name) (invkind : Kind) (lcid : Nat) : Option (Option (Proto Kind α)) :=
  match c ⟨guid, name, lcid, invkind⟩ with
  | some proto => some proto
  | none => (I.proto p name lcid invkind).map some

def fresh (I : Interfaces Proxy Guid Name Kind α) (c : Cache Guid Name Kind α) (p : Proxy)
    (guid : Guid) (name : Name) (invkind : Kind) (lcid : Nat) : Option (Proto Kind α) :=
  ((here I c p guid name invkind lcid).or
    ((here I c p guid name invkind 0).or (here I c p guid name invkind 1033))).join

variable {p : Proxy} {guid : Guid} {name : Name} {invkind : Kind} {lcid : Nat}

variable {proto v : Option (Proto Kind α)} {l m : Nat}

theorem here_of_cached (cached : c ⟨guid, name, lcid, invkind⟩ = some proto) :
    here I c p guid name invkind lcid = some proto := by
  unfold here
  rw [cached]

theorem here_of_missing (missing : c ⟨guid, name, lcid, invkind⟩ = none) :
    here I c p guid name invkind lcid = (I.proto p name lcid invkind).map some := by
  unfold here
  rw [missing]

/-- An lcid that has nothing is missing, and the type information does not know it. -/
theorem missing_of_here (nothing : here I c p guid name invkind lcid = none) :
    c ⟨guid, name, lcid, invkind⟩ = none ∧ I.proto p name lcid invkind = none := by
  cases at_lcid : c ⟨guid, name, lcid, invkind⟩ with
  | some w =>
    rw [here_of_cached at_lcid] at nothing
    cases nothing
  | none =>
    rw [here_of_missing at_lcid] at nothing
    exact ⟨rfl, Option.map_eq_none_iff.mp nothing⟩

theorem fresh_of_here (found : here I c p guid name invkind lcid = some proto) :
    fresh I c p guid name invkind lcid = proto := by
  rw [fresh, found]
  rfl

/-- Where there is nothing at an lcid, the next one decides. -/
theorem fresh_of_missing (nothing : here I c p guid name invkind lcid = none) :
    fresh I c p guid name invkind lcid = fresh I c p guid name invkind (fallback lcid) := by
  unfold fresh fallback
  by_cases zero : lcid = 0
  · subst zero
    rw [nothing, if_pos rfl]
    cases here I c p guid name invkind 1033 <;> rfl
  · rw [nothing, if_neg zero]
    cases here I c p guid name invkind 0 <;> rfl

/-- There is nothing where `0` and `1033` have nothing. -/
theorem fresh_eq_none (mem : lcid = 0 ∨ lcid = 1033)
    (nothing : here I c p guid name invkind lcid = none)
    (nothing' : here I c p guid name invkind (fallback lcid) = none) :
    fresh I c p guid name invkind lcid = none := by
  obtain rfl | rfl := mem
  · have at_1033 : here I c p guid name invkind 1033 = none := nothing'
    rw [fresh, nothing, at_1033]
    rfl
  · have at_0 : here I c p guid name invkind 0 = none := nothing'
    rw [fresh, nothing, at_0]
    rfl

/-- What a lookup may write: at an lcid that was missing, what a lookup there gives. -/
def Writes (I : Interfaces Proxy Guid Name Kind α) (p : Proxy) (guid : Guid) (name : Name)
    (invkind : Kind) (c c' : Cache Guid Name Kind α) : Prop :=
  ∀ key, c' key = c key ∨ ∃ lcid, key = ⟨guid, name, lcid, invkind⟩ ∧ c key = none ∧
    c' key = some (fresh I c p guid name invkind lcid)

theorem Writes.refl : Writes I p guid name invkind c c := fun _ => .inl rfl

theorem key_ne (other : m ≠ l) :
    (⟨guid, name, m, invkind⟩ : Key Guid Name Kind) ≠ ⟨guid, name, l, invkind⟩ :=
  fun same => other (congrArg Key.lcid same)

variable [DecidableEq Guid] [DecidableEq Name] [DecidableEq Kind]

theorem Writes.update (missing : c ⟨guid, name, lcid, invkind⟩ = none)
    (value : v = fresh I c p guid name invkind lcid) :
    Writes I p guid name invkind c (Function.update c ⟨guid, name, lcid, invkind⟩ (some v)) := by
  intro key
  by_cases same : key = ⟨guid, name, lcid, invkind⟩
  · subst same
    rw [update_self, value]
    exact .inr ⟨lcid, rfl, missing, rfl⟩
  · rw [update_of_ne same]
    exact .inl rfl

/-- A lookup at an lcid that is in the cache. -/
theorem prototypeWith_cached (has : I.guid p = some guid)
    (cached : c ⟨guid, name, lcid, invkind⟩ = some proto) (depth : Nat) :
    prototypeWith I p name invkind (depth + 1) lcid c = (.ok proto, c) := by
  rw [prototypeWith, has]
  dsimp only
  rw [cached]

/-- A lookup at an lcid that is not in the cache, and that the type information knows. -/
theorem prototypeWith_bound {proto : Proto Kind α} (has : I.guid p = some guid)
    (works : I.fails p = false) (missing : c ⟨guid, name, lcid, invkind⟩ = none)
    (known : I.proto p name lcid invkind = some proto) (depth : Nat) :
    prototypeWith I p name invkind (depth + 1) lcid c =
      (.ok (some proto), Function.update c ⟨guid, name, lcid, invkind⟩ (some (some proto))) := by
  rw [prototypeWith, has]
  dsimp only
  rw [missing, works, known]
  rfl

/-- A lookup that goes on to the next lcid. -/
theorem prototypeWith_missing (has : I.guid p = some guid) (works : I.fails p = false)
    (missing : c ⟨guid, name, lcid, invkind⟩ = none) (unknown : I.proto p name lcid invkind = none)
    (depth : Nat) {c' : Cache Guid Name Kind α}
    (next : prototypeWith I p name invkind depth (fallback lcid)
      (Function.update c ⟨guid, name, lcid, invkind⟩ (some none)) = (.ok v, c')) :
    prototypeWith I p name invkind (depth + 1) lcid c =
      (.ok v, Function.update c' ⟨guid, name, lcid, invkind⟩ (some v)) := by
  rw [prototypeWith, has]
  dsimp only
  rw [missing, works, unknown]
  dsimp only
  rw [if_neg Bool.false_ne_true, next]
  rfl

/-- A lookup at an lcid that has something. -/
theorem prototypeWith_here (has : I.guid p = some guid) (works : I.fails p = false)
    (found : here I c p guid name invkind lcid = some v) (depth : Nat) :
    ∃ c', prototypeWith I p name invkind (depth + 1) lcid c =
      (.ok (fresh I c p guid name invkind lcid), c') ∧ Writes I p guid name invkind c c' := by
  rw [fresh_of_here found]
  cases at_lcid : c ⟨guid, name, lcid, invkind⟩ with
  | some w =>
    obtain rfl : w = v := Option.some.inj ((here_of_cached at_lcid).symm.trans found)
    exact ⟨c, prototypeWith_cached has at_lcid depth, .refl⟩
  | none =>
    obtain ⟨q, known, rfl⟩ :=
      Option.map_eq_some_iff.mp ((here_of_missing at_lcid).symm.trans found)
    exact ⟨_, prototypeWith_bound has works at_lcid known depth,
      .update at_lcid (fresh_of_here found).symm⟩

/-- Two entries are written, one of them twice. -/
theorem Writes.update₂ {l o : Nat} {v x : Option (Proto Kind α)}
    (missing : c ⟨guid, name, l, invkind⟩ = none) (missing' : c ⟨guid, name, o, invkind⟩ = none)
    (value : v = fresh I c p guid name invkind l) (value' : v = fresh I c p guid name invkind o) :
    Writes I p guid name invkind c
      (Function.update (Function.update (Function.update c ⟨guid, name, l, invkind⟩ (some x))
        ⟨guid, name, o, invkind⟩ (some v)) ⟨guid, name, l, invkind⟩ (some v)) := by
  intro key
  by_cases at_l : key = ⟨guid, name, l, invkind⟩
  · subst at_l
    rw [update_self, value]
    exact .inr ⟨l, rfl, missing, rfl⟩
  · rw [update_of_ne at_l]
    by_cases at_o : key = ⟨guid, name, o, invkind⟩
    · subst at_o
      rw [update_self, value']
      exact .inr ⟨o, rfl, missing', rfl⟩
    · rw [update_of_ne at_o, update_of_ne at_l]
      exact .inl rfl

/-- The lookups that `0` and `1033` start at each other end there. -/
theorem prototypeWith_spec_of_mem (name : Name) (invkind : Kind) (has : I.guid p = some guid)
    (works : I.fails p = false) (depth : Nat) (c : Cache Guid Name Kind α) (mem : l = 0 ∨ l = 1033) :
    ∃ c', prototypeWith I p name invkind (depth + 3) l c =
      (.ok (fresh I c p guid name invkind l), c') ∧ Writes I p guid name invkind c c' := by
  have other : fallback l ≠ l := by
    obtain rfl | rfl := mem <;> decide
  have back : fallback (fallback l) = l := by
    obtain rfl | rfl := mem <;> rfl
  cases here_l : here I c p guid name invkind l with
  | some v => exact prototypeWith_here has works here_l (depth + 2)
  | none =>
    obtain ⟨at_l, known⟩ := missing_of_here here_l
    have next := fresh_of_missing here_l
    cases at_o : c ⟨guid, name, fallback l, invkind⟩ with
    | some v =>
      have value := next.trans (fresh_of_here (here_of_cached at_o))
      have cached := (update_of_ne (key_ne other) (some none) c).trans at_o
      rw [value, prototypeWith_missing has works at_l known _
        (prototypeWith_cached has cached (depth + 1)), update_idem]
      exact ⟨_, rfl, .update at_l value.symm⟩
    | none =>
      have here_o := here_of_missing (I := I) (p := p) at_o
      have missing := (update_of_ne (key_ne other) (some none) c).trans at_o
      cases known' : I.proto p name (fallback l) invkind with
      | some q =>
        rw [known'] at here_o
        have value := next.trans (fresh_of_here here_o)
        rw [value, prototypeWith_missing has works at_l known _
          (prototypeWith_bound has works missing known' (depth + 1))]
        exact ⟨_, rfl, .update₂ at_l at_o value.symm (fresh_of_here here_o).symm⟩
      | none =>
        rw [known'] at here_o
        have value := fresh_eq_none mem here_l here_o
        have again : update (update c ⟨guid, name, l, invkind⟩ (some none))
            ⟨guid, name, fallback l, invkind⟩ (some none)
            ⟨guid, name, fallback (fallback l), invkind⟩ = some none := by
          rw [back, update_of_ne (key_ne (Ne.symm other)), update_self]
        have inner := prototypeWith_missing has works missing known' (depth + 1)
          (prototypeWith_cached has again depth)
        rw [value, prototypeWith_missing has works at_l known _ inner,
          update_idem]
        exact ⟨_, rfl, .update₂ at_l at_o value.symm (value.symm.trans next)⟩

/-- Another lcid has no part in what there is at the rest. -/
theorem here_update (other : m ≠ l) (x : Option (Option (Proto Kind α))) :
    here I (Function.update c ⟨guid, name, l, invkind⟩ x) p guid name invkind m =
      here I c p guid name invkind m := by
  unfold here
  rw [update_of_ne (key_ne other)]

theorem fresh_update (outside : ¬ (l = 0 ∨ l = 1033)) (other : m ≠ l)
    (x : Option (Option (Proto Kind α))) :
    fresh I (Function.update c ⟨guid, name, l, invkind⟩ x) p guid name invkind m =
      fresh I c p guid name invkind m := by
  unfold fresh
  rw [here_update other, here_update fun h => outside (.inl h.symm),
    here_update fun h => outside (.inr h.symm)]

theorem prototype_spec (name : Name) (invkind : Kind) (has : I.guid p = some guid) (works : I.fails p = false)
    (c : Cache Guid Name Kind α) (l : Nat) :
    ∃ c', prototype I p name l invkind c = (.ok (fresh I c p guid name invkind l), c') ∧
      Writes I p guid name invkind c c' := by
  by_cases mem : l = 0 ∨ l = 1033
  · exact prototypeWith_spec_of_mem name invkind has works 1 c mem
  · have nonzero : l ≠ 0 := fun h => mem (.inl h)
    unfold prototype
    cases here_l : here I c p guid name invkind l with
    | some v => exact prototypeWith_here has works here_l 3
    | none =>
      obtain ⟨at_l, known⟩ := missing_of_here here_l
      have next : fresh I c p guid name invkind l = fresh I c p guid name invkind 0 :=
        (fresh_of_missing here_l).trans (by rw [fallback, if_neg nonzero])
      obtain ⟨c₂, ran, writes⟩ := prototypeWith_spec_of_mem name invkind has works 0
        (update c ⟨guid, name, l, invkind⟩ (some none)) (.inl (rfl : 0 = 0))
      rw [fresh_update mem nonzero.symm, ← next] at ran
      rw [prototypeWith_missing has works at_l known 3 (by rwa [fallback, if_neg nonzero])]
      refine ⟨_, rfl, fun key => ?_⟩
      by_cases at_key : key = ⟨guid, name, l, invkind⟩
      · subst at_key
        rw [update_self]
        exact .inr ⟨l, rfl, at_l, rfl⟩
      · rw [update_of_ne at_key]
        obtain same | ⟨m, rfl, missing, wrote⟩ := writes key
        · exact .inl (same.trans (update_of_ne at_key _ c))
        · have other : m ≠ l := fun h => at_key (h ▸ rfl)
          rw [update_of_ne at_key] at missing
          rw [fresh_update mem other] at wrote
          exact .inr ⟨m, rfl, missing, wrote⟩

/-! ### Two caches -/

/-- `c` has the definitions, as `d` has. What else is in it is what a lookup with `d`
gives. -/
structure Agree (I : Interfaces Proxy Guid Name Kind α) (c d : Cache Guid Name Kind α) :
    Prop where
  defined : ∀ key v, d key = some v → c key = some v
  source : ∀ key v, d key = some v → ∃ q, v = some q ∧ q.lcid = key.lcid
  looked : ∀ key v, c key = some v → d key = none → ∀ p, I.guid p = some key.guid →
    I.fails p = false ∧ v = fresh I d p key.guid key.name key.invkind key.lcid

/-- Proxies of one interface know the same. -/
def Uniform (I : Interfaces Proxy Guid Name Kind α) : Prop :=
  ∀ p q guid, I.guid p = some guid → I.guid q = some guid →
    I.fails p = I.fails q ∧ I.bind p = I.bind q

omit [DecidableEq Guid] [DecidableEq Name] [DecidableEq Kind] in
theorem Uniform.fresh {q : Proxy} (uniform : Uniform I) (has : I.guid p = some guid)
    (has' : I.guid q = some guid) :
    fresh I c p guid name invkind lcid = fresh I c q guid name invkind lcid := by
  have same : I.proto p = I.proto q := by
    unfold Interfaces.proto
    rw [(uniform p q guid has has').2]
  unfold Prototype.fresh here
  rw [same]

namespace Agree

omit [DecidableEq Guid] [DecidableEq Name] [DecidableEq Kind] in
theorem start : Agree I (fun _ => none) (fun _ => none) := ⟨nofun, nofun, nofun⟩

omit [DecidableEq Guid] [DecidableEq Name] [DecidableEq Kind] in
/-- At an lcid the caches have the same, or the first has what the second leads to. -/
theorem here_eq (name : Name) (invkind : Kind) (agree : Agree I c d) (has : I.guid p = some guid) (lcid : Nat) :
    here I c p guid name invkind lcid = here I d p guid name invkind lcid ∨
      here I c p guid name invkind lcid = some (fresh I d p guid name invkind lcid) := by
  cases at_d : d ⟨guid, name, lcid, invkind⟩ with
  | some v =>
    left
    rw [here_of_cached at_d, here_of_cached (agree.defined _ _ at_d)]
  | none =>
    cases at_c : c ⟨guid, name, lcid, invkind⟩ with
    | none =>
      left
      rw [here_of_missing at_c, here_of_missing at_d]
    | some v =>
      right
      rw [here_of_cached at_c, (agree.looked _ v at_c at_d p has).2]

omit [DecidableEq Guid] [DecidableEq Name] [DecidableEq Kind] in
theorem fresh_eq (agree : Agree I c d) (has : I.guid p = some guid) (lcid : Nat) :
    fresh I c p guid name invkind lcid = fresh I d p guid name invkind lcid := by
  have at_l := agree.here_eq name invkind has lcid
  have at_0 := agree.here_eq name invkind has 0
  have at_1033 := agree.here_eq name invkind has 1033
  unfold Prototype.fresh at *
  generalize here I c p guid name invkind lcid = x at *
  generalize here I c p guid name invkind 0 = y at *
  generalize here I c p guid name invkind 1033 = z at *
  generalize here I d p guid name invkind lcid = x' at *
  generalize here I d p guid name invkind 0 = y' at *
  generalize here I d p guid name invkind 1033 = z' at *
  -- The first of the three where there is something decides, with either cache.
  obtain rfl | rfl := at_l
  · cases x with
    | some v => rfl
    | none =>
      obtain rfl | rfl := at_0
      · cases y with
        | some v => rfl
        | none =>
          obtain rfl | rfl := at_1033
          · rfl
          · cases z' <;> rfl
      · cases y' <;> rfl
  · rfl

/-- A lookup gives the same with both. -/
theorem prototype_eq (agree : Agree I c d) (name : Name) (lcid : Nat) (invkind : Kind) (p : Proxy) :
    (prototype I p name lcid invkind c).1 = (prototype I p name lcid invkind d).1 := by
  cases has : I.guid p with
  | none =>
    unfold prototype
    rw [prototypeWith, prototypeWith, has]
  | some guid =>
    cases works : I.fails p with
    | false =>
      obtain ⟨c', ran, -⟩ := prototype_spec name invkind has works c lcid
      obtain ⟨d', ran', -⟩ := prototype_spec name invkind has works d lcid
      rw [ran, ran', agree.fresh_eq has]
    | true =>
      unfold prototype
      cases at_d : d ⟨guid, name, lcid, invkind⟩ with
      | some v =>
        rw [prototypeWith_cached has at_d, prototypeWith_cached has (agree.defined _ _ at_d)]
      | none =>
        have at_c : c ⟨guid, name, lcid, invkind⟩ = none := by
          cases at_c : c ⟨guid, name, lcid, invkind⟩ with
          | none => rfl
          | some v => cases works.symm.trans (agree.looked _ v at_c at_d p has).1
        rw [prototypeWith, prototypeWith, has]
        dsimp only
        rw [at_c, at_d, works]
        rfl

/-- A lookup writes what later lookups would find. -/
theorem lookup (agree : Agree I c d) (uniform : Uniform I) (name : Name) (lcid : Nat)
    (invkind : Kind) (p : Proxy) : Agree I (prototype I p name lcid invkind c).2 d := by
  cases has : I.guid p with
  | none =>
    unfold prototype
    rw [prototypeWith, has]
    exact agree
  | some guid =>
    cases works : I.fails p with
    | false =>
      obtain ⟨c', ran, writes⟩ :=
        prototype_spec name invkind has works c lcid
      rw [ran]
      refine ⟨fun key v at_d => ?_, agree.source, fun key v at_c at_d q has' => ?_⟩
      · obtain same | ⟨m, -, missing, -⟩ := writes key
        · exact same.trans (agree.defined key v at_d)
        · cases missing.symm.trans (agree.defined key v at_d)
      · obtain same | ⟨m, rfl, -, wrote⟩ := writes key
        · exact agree.looked key v (same.symm.trans at_c) at_d q has'
        · have value : v = Prototype.fresh I c p guid name invkind m :=
            Option.some.inj (at_c.symm.trans wrote)
          refine ⟨((uniform q p guid has' has).1).trans works, ?_⟩
          rw [value, agree.fresh_eq has]
          exact uniform.fresh has has'
    | true =>
      unfold prototype
      cases at_c : c ⟨guid, name, lcid, invkind⟩ with
      | some v =>
        rw [prototypeWith_cached has at_c]
        exact agree
      | none =>
        rw [prototypeWith, has]
        dsimp only
        rw [at_c, works]
        exact agree

end Agree

/-! ### Definitions -/

/-- What a list of definitions has for a member: the last one counts. -/
def lastRest (defs : List (Def Name Kind α)) (name : Name) (invkind : Kind) : Option α :=
  (defs.reverse.find? fun d => d.name = name ∧ d.invkind = invkind).map Def.rest

theorem definePrototypes_eq (guid : Guid) (lcid : Nat) (defs : List (Def Name Kind α))
    (c : Cache Guid Name Kind α) (key : Key Guid Name Kind) :
    definePrototypes guid lcid defs c key =
      if key.guid = guid ∧ key.lcid = lcid then
        match lastRest defs key.name key.invkind with
        | some rest => some (some ⟨lcid, key.invkind, rest⟩)
        | none => c key
      else c key := by
  induction defs using List.reverseRecOn with
  | nil => exact (ite_self _).symm
  | append_singleton defs d ih =>
    have last : lastRest (defs ++ [d]) key.name key.invkind =
        if d.name = key.name ∧ d.invkind = key.invkind then some d.rest
        else lastRest defs key.name key.invkind := by
      unfold lastRest
      rw [List.reverse_append, List.reverse_singleton, List.singleton_append, List.find?_cons]
      by_cases same : d.name = key.name ∧ d.invkind = key.invkind
      · rw [if_pos same, decide_eq_true same]
        rfl
      · rw [if_neg same, decide_eq_false same]
    have step : definePrototypes guid lcid (defs ++ [d]) c =
        update (definePrototypes guid lcid defs c) ⟨guid, d.name, lcid, d.invkind⟩
          (some (some ⟨lcid, d.invkind, d.rest⟩)) := by
      unfold definePrototypes
      rw [List.foldl_append]
      rfl
    rw [step, last]
    by_cases at_ : key = ⟨guid, d.name, lcid, d.invkind⟩
    · subst at_
      rw [update_self, if_pos ⟨rfl, rfl⟩, if_pos ⟨rfl, rfl⟩]
    · rw [update_of_ne at_, ih]
      by_cases place : key.guid = guid ∧ key.lcid = lcid
      · have other : ¬ (d.name = key.name ∧ d.invkind = key.invkind) := by
          rintro ⟨name, kind⟩
          apply at_
          obtain ⟨g, n, l, k⟩ := key
          obtain ⟨rfl, rfl⟩ := place
          cases name
          cases kind
          rfl
        rw [if_pos place, if_pos place, if_neg other]
      · rw [if_neg place, if_neg place]

/-- A definition comes in time: at `0` or `1033` it is seen from other lcids, so what
the cache has there must be the same, or come before it. -/
def Timely (c : Cache Guid Name Kind α) (guid : Guid) (lcid : Nat) (defs : List (Def Name Kind α)) :
    Prop :=
  (lcid = 0 ∨ lcid = 1033) → ∀ name invkind rest, lastRest defs name invkind = some rest →
    ∀ m v, m ≠ lcid → c ⟨guid, name, m, invkind⟩ = some v →
      v = some ⟨lcid, invkind, rest⟩ ∨
        ∃ q, v = some q ∧ (q.lcid = m ∨ lcid = 1033 ∧ q.lcid = 0)

variable {q : Proto Kind α}

omit [DecidableEq Guid] [DecidableEq Name] [DecidableEq Kind] in
/-- The lcid of a prototype that a lookup gives is where it was found. -/
theorem fresh_lcid (source : ∀ key v, d key = some v →
      ∃ q, v = some q ∧ q.lcid = key.lcid)
    (found : here I d p guid name invkind lcid = some (some q)) : q.lcid = lcid := by
  unfold here at found
  cases at_d : d ⟨guid, name, lcid, invkind⟩ with
  | some v =>
    rw [at_d] at found
    cases found
    obtain ⟨q', same, lcid_eq⟩ := source _ _ at_d
    cases same
    exact lcid_eq
  | none =>
    rw [at_d] at found
    unfold Interfaces.proto at found
    cases known : I.bind p name lcid invkind with
    | none =>
      rw [known] at found
      cases found
    | some rest =>
      rw [known] at found
      cases found
      rfl

omit [DecidableEq Guid] [DecidableEq Name] [DecidableEq Kind] in
theorem fresh_found (source : ∀ key v, d key = some v →
      ∃ q, v = some q ∧ q.lcid = key.lcid) (found : fresh I d p guid name invkind lcid = some q) :
    here I d p guid name invkind lcid = some (some q) ∧ q.lcid = lcid ∨
      here I d p guid name invkind lcid = none ∧
        (here I d p guid name invkind 0 = some (some q) ∧ q.lcid = 0 ∨
          here I d p guid name invkind 0 = none ∧
            here I d p guid name invkind 1033 = some (some q) ∧ q.lcid = 1033) := by
  unfold fresh at found
  cases at_l : here I d p guid name invkind lcid with
  | some v =>
    rw [at_l] at found
    cases (found : v = some q)
    exact .inl ⟨rfl, fresh_lcid source at_l⟩
  | none =>
    rw [at_l] at found
    refine .inr ⟨rfl, ?_⟩
    cases at_0 : here I d p guid name invkind 0 with
    | some v =>
      rw [at_0] at found
      cases (found : v = some q)
      exact .inl ⟨rfl, fresh_lcid source at_0⟩
    | none =>
      rw [at_0] at found
      cases at_1033 : here I d p guid name invkind 1033 with
      | some v =>
        rw [at_1033] at found
        cases (found : v = some q)
        exact .inr ⟨rfl, rfl, fresh_lcid source at_1033⟩
      | none =>
        rw [at_1033] at found
        cases found

/-- A definition changes what there is at its own lcid. -/
theorem here_define (g : Guid) (l : Nat) (defs : List (Def Name Kind α)) :
    here I (definePrototypes g l defs d) p guid name invkind lcid =
      if guid = g ∧ lcid = l then
        match lastRest defs name invkind with
        | some rest => some (some ⟨l, invkind, rest⟩)
        | none => here I d p guid name invkind lcid
      else here I d p guid name invkind lcid := by
  unfold here
  rw [definePrototypes_eq]
  by_cases place : guid = g ∧ lcid = l
  · rw [if_pos place, if_pos place]
    dsimp only
    cases lastRest defs name invkind <;> rfl
  · rw [if_neg place, if_neg place]

/-- What a lookup gave before a definition that comes in time, it gives after it. -/
theorem fresh_define (source : ∀ key v, d key = some v → ∃ q, v = some q ∧ q.lcid = key.lcid)
    {g : Guid} {defs : List (Def Name Kind α)} (timely : Timely c g l defs)
    (cached : c ⟨guid, name, lcid, invkind⟩ = some (fresh I d p guid name invkind lcid))
    (elsewhere : definePrototypes g l defs d ⟨guid, name, lcid, invkind⟩ = none) :
    fresh I (definePrototypes g l defs d) p guid name invkind lcid =
      fresh I d p guid name invkind lcid := by
  by_cases of_guid : guid = g
  swap
  · unfold fresh
    rw [here_define, here_define, here_define, if_neg fun h => of_guid h.1,
      if_neg fun h => of_guid h.1, if_neg fun h => of_guid h.1]
  subst of_guid
  cases last : lastRest defs name invkind with
  | none =>
    unfold fresh
    simp only [here_define, last, ite_self]
  | some rest =>
    have other : lcid ≠ l := by
      rintro rfl
      rw [definePrototypes_eq, if_pos ⟨rfl, rfl⟩] at elsewhere
      dsimp only at elsewhere
      rw [last] at elsewhere
      cases elsewhere
    have at_l : here I (definePrototypes guid l defs d) p guid name invkind l =
        some (some ⟨l, invkind, rest⟩) := by
      rw [here_define, if_pos ⟨rfl, rfl⟩, last]
    have rest_ {m : Nat} (ne : m ≠ l) : here I (definePrototypes guid l defs d) p guid name invkind m =
        here I d p guid name invkind m := by
      rw [here_define, if_neg fun h => ne h.2]
    by_cases seen : l = 0 ∨ l = 1033
    swap
    · unfold fresh
      rw [rest_ other, rest_ fun h => seen (.inl h.symm), rest_ fun h => seen (.inr h.symm)]
    · have at_lcid := rest_ other
      obtain value | ⟨q, value, lcid_eq⟩ := timely seen name invkind rest last lcid _ other cached
      · obtain ⟨-, same⟩ | ⟨nothing, ⟨-, rfl⟩ | ⟨at_0, -, rfl⟩⟩ := fresh_found source value
        · exact absurd same.symm other
        · rw [value, fresh, at_lcid, nothing, at_l]
          rfl
        · rw [value, fresh, at_lcid, nothing, rest_ (by decide), at_0, at_l]
          rfl
      · obtain ⟨found, same⟩ | ⟨nothing, ⟨found, same⟩ | ⟨at_0, found, same⟩⟩ :=
          fresh_found source value
        · rw [value, fresh_of_here (at_lcid.trans found)]
        · obtain rfl | ⟨rfl, -⟩ := lcid_eq
          · rw [same, found] at nothing
            cases nothing
          · rw [value, fresh, at_lcid, nothing, rest_ (by decide), found]
            rfl
        · obtain rfl | ⟨-, zero⟩ := lcid_eq
          · rw [same, found] at nothing
            cases nothing
          · cases zero.symm.trans same

theorem Agree.define (agree : Agree I c d) (guid : Guid) (lcid : Nat)
    (defs : List (Def Name Kind α)) (timely : Timely c guid lcid defs) :
    Agree I (definePrototypes guid lcid defs c) (definePrototypes guid lcid defs d) := by
  constructor
  · intro key v at_d
    rw [definePrototypes_eq] at at_d ⊢
    by_cases place : key.guid = guid ∧ key.lcid = lcid
    · rw [if_pos place] at at_d ⊢
      cases last : lastRest defs key.name key.invkind with
      | some rest =>
        rw [last] at at_d
        exact at_d
      | none =>
        rw [last] at at_d
        exact agree.defined key v at_d
    · rw [if_neg place] at at_d ⊢
      exact agree.defined key v at_d
  · intro key v at_d
    rw [definePrototypes_eq] at at_d
    by_cases place : key.guid = guid ∧ key.lcid = lcid
    · rw [if_pos place] at at_d
      cases last : lastRest defs key.name key.invkind with
      | some rest =>
        rw [last] at at_d
        cases at_d
        exact ⟨_, rfl, place.2.symm⟩
      | none =>
        rw [last] at at_d
        exact agree.source key v at_d
    · rw [if_neg place] at at_d
      exact agree.source key v at_d
  · intro key v at_c at_d p has
    have before : c key = some v ∧ d key = none := by
      have at_d' := at_d
      rw [definePrototypes_eq] at at_c at_d'
      by_cases place : key.guid = guid ∧ key.lcid = lcid
      · rw [if_pos place] at at_c at_d'
        cases last : lastRest defs key.name key.invkind with
        | some rest =>
          rw [last] at at_d'
          cases at_d'
        | none =>
          rw [last] at at_c at_d'
          exact ⟨at_c, at_d'⟩
      · rw [if_neg place] at at_c at_d'
        exact ⟨at_c, at_d'⟩
    obtain ⟨works, value⟩ := agree.looked key v before.1 before.2 p has
    refine ⟨works, value.trans (fresh_define agree.source timely ?_ at_d).symm⟩
    rw [← value]
    exact before.1

/-! ### Histories -/

/-- Every definition of a history comes in time. -/
def AllTimely (I : Interfaces Proxy Guid Name Kind α) (c : Cache Guid Name Kind α) :
    List (Op Proxy Guid Name Kind α) → Prop
  | [] => True
  | .lookup p name lcid invkind :: ops => AllTimely I (prototype I p name lcid invkind c).2 ops
  | .define guid lcid defs :: ops =>
    Timely c guid lcid defs ∧ AllTimely I (definePrototypes guid lcid defs c) ops

theorem Agree.run (uniform : Uniform I) (ops : List (Op Proxy Guid Name Kind α)) :
    ∀ {c d : Cache Guid Name Kind α}, Agree I c d → AllTimely I c ops →
      Agree I (ops.foldl (Op.run I) c) ((ops.filter Op.isDefine).foldl (Op.run I) d) := by
  induction ops with
  | nil =>
    intro c d agree _
    exact agree
  | cons op ops ih =>
    intro c d agree timely
    cases op with
    | lookup p name lcid invkind => exact ih (agree.lookup uniform name lcid invkind p) timely
    | define guid lcid defs => exact ih (agree.define guid lcid defs timely.1) timely.2

/-- Proxies without type information, of an interface that is known. -/
def untyped : Interfaces Unit Unit Unit Unit Nat :=
  ⟨fun _ => some (), fun _ => false, fun _ _ _ _ => none⟩

end Twapi.Prototype
