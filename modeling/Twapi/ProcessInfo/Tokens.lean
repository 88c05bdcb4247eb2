import Twapi.ProcessInfo.Fields

/-!
The user and the token options of `get_multiple_process_info`.

* `tokenInfoHelper_get` — the helper returns every option that it is given.
* `tokenStep_ok`, `tokenStep_error` — a turn of the loop over the processes.
* `Grown.tokenStage` — the loop adds the last fields, or the command fails.
-/

namespace Twapi.ProcessInfo

section Loops

variable {o : Options} {e : Environment} {targets : List Target}

/-! ### The user and token values of one process -/

theorem withUser_opt (token : Token) (result : TokenRecord) (k : TokenOpt) :
    withUser token result (.opt k) = result (.opt k) := by
  cases got : result .usersid <;> simp [withUser, got]

variable {t : Target} {st : LoopState} {args : List TokenKey} {k : TokenOpt} {token : Token}
  {result : TokenRecord} {wts : Wts} {forUser : Bool}

theorem withGroups_other (groups : k ≠ .groups) (groupsids : k ≠ .groupsids) :
    withGroups token args result (.opt k) = result (.opt k) := by
  cases got : result (.opt .groupsids) with
  | none => simp [withGroups, got]
  | some ids =>
    by_cases names : .opt .groups ∈ args <;>
      by_cases sids : .opt .groupsids ∈ args <;>
      simp [withGroups, got, names, sids, groups, groupsids]

theorem withGroups_asked (got : result (.opt .groupsids) = some (token.info .groupsids))
    (isGroups : k = .groups ∨ k = .groupsids) (here : .opt k ∈ args) :
    withGroups token args result (.opt k) = some (token.info k) := by
  simp only [withGroups, got]
  rcases isGroups with rfl | rfl
  · by_cases ids : .opt .groupsids ∈ args <;> simp [here, ids]
  · by_cases names : .opt .groups ∈ args <;> simp [here, names, got]

theorem withIntegrity_other (integrity : k ≠ .integrity) :
    withIntegrity token args result (.opt k) = result (.opt k) := by
  unfold withIntegrity
  split <;> simp [integrity]

theorem getTokenInfo_opt (passed : .opt k ∈ args) :
    getTokenInfo token args (.opt k) = some (token.info k) := by
  simp only [getTokenInfo, if_pos passed]

/-- Every option that is asked for is in what the helper returns. -/
theorem tokenInfoHelper_get (asked : .opt k ∈ args) :
    tokenInfoHelper token args (.opt k) = some (token.info k) := by
  unfold tokenInfoHelper
  by_cases integrity : k = .integrity
  · subst integrity
    simp [withIntegrity, asked]
  rw [withIntegrity_other integrity]
  by_cases isGroups : k = .groups ∨ k = .groupsids
  · have either : .opt .groups ∈ args ∨ .opt .groupsids ∈ args := by
      rcases isGroups with rfl | rfl
      · exact .inl asked
      · exact .inr asked
    refine withGroups_asked ?_ isGroups asked
    rw [withUser_opt, getTokenInfo_opt]
    simp [passedOn, either]
  · push Not at isGroups
    rw [withGroups_other isGroups.1 isGroups.2, withUser_opt, getTokenInfo_opt]
    simp [passedOn, asked, integrity, isGroups]

theorem wtsAfter_of_not_asked (none : .logonsession ∉ o.tokenFields) :
    wtsAfter o wts t = wts := by
  unfold wtsAfter
  split
  · rw [if_neg none]
  · rfl

/-- The user that a token query leaves behind. -/
def userAfter (o : Options) (t : Target) (user : Option Value) : Option Value :=
  match t.token with
  | .denied => if isSystemPid t.pid then some system else user
  | .noSuch => some (if isSystemPid t.pid then system else o.noexist)
  | _ => user

/-- The arguments of a token query. -/
def requestedOf (o : Options) (forUser : Bool) : List TokenKey :=
  if forUser then o.tokenFields.map TokenKey.opt ++ [.user] else o.tokenFields.map TokenKey.opt

theorem opt_mem_requestedOf :
    .opt k ∈ requestedOf o forUser ↔ k ∈ o.tokenFields := by
  cases forUser <;> simp [requestedOf]

theorem user_mem_requestedOf : .user ∈ requestedOf o forUser ↔ forUser = true := by
  cases forUser <;> simp [requestedOf]

theorem requestedOf_eq_nil :
    requestedOf o forUser = [] ↔ o.tokenFields = [] ∧ forUser = false := by
  cases forUser <;> simp [requestedOf]

theorem deniedSession_get (wts : Wts) (t : Target) {record : TokenRecord}
    (got : record (.opt k) = some o.noaccess) :
    deniedSession wts t record (.opt k) =
      if k = .logonsession then some (((wts.sid t.pid).bind sessionOf).getD o.noaccess)
      else some o.noaccess := by
  by_cases isSession : k = .logonsession
  · subst isSession
    cases session : (wts.sid t.pid).bind sessionOf <;> simp [deniedSession, session, got]
  · cases session : (wts.sid t.pid).bind sessionOf <;> simp [deniedSession, session, got, isSession]

theorem askToken_ok (forUser : Bool) (wts : Wts) (user : Option Value)
    (fine : o.tokenFields ≠ [] ∨ forUser = true → ¬ t.token.Fails) :
    ∃ record, askToken o t (requestedOf o forUser) wts user =
        .ok (record, if forUser then userAfter o t user else user, wtsAfter o wts t) ∧
      ∀ k ∈ o.tokenFields, (record (.opt k) = tokenValue o t wts k) ∧ (record (.opt k)).isSome := by
  by_cases nothing : requestedOf o forUser = []
  · obtain ⟨noFields, rfl⟩ := requestedOf_eq_nil.mp nothing
    refine ⟨fun _ => none, ?_, by simp [noFields]⟩
    rw [askToken, if_pos nothing, wtsAfter_of_not_asked (by simp [noFields])]
    rfl
  · have asked : o.tokenFields ≠ [] ∨ forUser = true := by
      by_contra neither
      push Not at neither
      exact nothing (requestedOf_eq_nil.mpr ⟨neither.1, by simpa using neither.2⟩)
    cases answer : t.token with
    | value token =>
      refine ⟨tokenInfoHelper token (requestedOf o forUser), ?_, fun k mem => ?_⟩
      · simp only [askToken, if_neg nothing, answer, userAfter, wtsAfter, ite_self]
      · rw [tokenInfoHelper_get (opt_mem_requestedOf.mpr mem)]
        simp [tokenValue, answer]
    | denied =>
      have denied : ∀ k ∈ o.tokenFields, (fun key : TokenKey =>
          if key ∈ requestedOf o forUser then some o.noaccess else none) (.opt k) =
            some o.noaccess :=
        fun k mem => if_pos (opt_mem_requestedOf.mpr mem)
      by_cases session : .logonsession ∈ o.tokenFields
      · refine ⟨deniedSession (wtsAfter o wts t) t fun key =>
          if key ∈ requestedOf o forUser then some o.noaccess else none, ?_, fun k mem => ?_⟩
        · cases forUser <;> simp [askToken, if_neg nothing, answer, userAfter, wtsAfter,
            user_mem_requestedOf, opt_mem_requestedOf, session]
        · rw [deniedSession_get _ _ (denied k mem)]
          by_cases isSession : k = .logonsession <;> simp [tokenValue, answer, isSession]
      · refine ⟨fun key => if key ∈ requestedOf o forUser then some o.noaccess else none, ?_,
          fun k mem => ?_⟩
        · cases forUser <;> simp [askToken, if_neg nothing, answer, userAfter, wtsAfter,
            user_mem_requestedOf, opt_mem_requestedOf, session]
        · have other : k ≠ .logonsession := fun same => session (same ▸ mem)
          rw [denied k mem]
          simp [tokenValue, answer, other]
    | noSuch =>
      refine ⟨fun key => if key ∈ requestedOf o forUser ∧ key ≠ .user then some o.noexist
        else none, ?_, fun k mem => ?_⟩
      · simp only [askToken, if_neg nothing, answer, userAfter, wtsAfter, user_mem_requestedOf]
      · simp [tokenValue, answer, opt_mem_requestedOf, mem]
    | fails code => exact absurd ⟨code, answer⟩ (fine asked)

theorem askToken_error (forUser : Bool) (wts : Wts) (user : Option Value)
    (asked : o.tokenFields ≠ [] ∨ forUser = true) (fails : t.token.Fails) :
    ∃ x, askToken o t (requestedOf o forUser) wts user = .error x := by
  obtain ⟨code, answer⟩ := fails
  have something : requestedOf o forUser ≠ [] := by
    intro nothing
    obtain ⟨noFields, notUser⟩ := requestedOf_eq_nil.mp nothing
    rcases asked with fields | user
    · exact fields noFields
    · cases notUser.symm.trans user
  exact ⟨.system code, by simp only [askToken, if_neg something, answer]⟩

/-- The cache holds what the lookup answers. -/
def CacheAgrees (e : Environment) (sidcache : Sid → Option Value) : Prop :=
  ∀ sid user, sidcache sid = some user → e.lookupAccountSid sid = .ok user

theorem userOfSession_none (none : st.wtssids.sid t.pid = none) :
    userOfSession e st t = .ok (.none, st.sidcache) := by
  simp only [userOfSession, none]

theorem userOfSession_ok {sid : Sid} (agrees : CacheAgrees e st.sidcache)
    (listed : st.wtssids.sid t.pid = some sid)
    (known : sid = "" ∨ ∃ user, e.lookupAccountSid sid = .ok user) :
    ∃ user sidcache, userOfSession e st t = .ok (some user, sidcache) ∧ CacheAgrees e sidcache ∧
      userValue o e t st.wtssids = some user := by
  by_cases empty : sid = ""
  · refine ⟨system, st.sidcache, ?_, agrees, ?_⟩
    · simp only [userOfSession, listed, if_pos empty]
    · simp only [userValue, listed, if_pos empty]
  · obtain ⟨user, lookup⟩ := known.resolve_left empty
    have value : userValue o e t st.wtssids = some user := by
      simp only [userValue, listed, if_neg empty, lookup]
      rfl
    cases cached : st.sidcache sid with
    | some other =>
      obtain rfl : other = user := Except.ok.inj ((agrees sid other cached).symm.trans lookup)
      exact ⟨other, st.sidcache, by simp only [userOfSession, listed, if_neg empty, cached],
        agrees, value⟩
    | none =>
      refine ⟨user, Function.update st.sidcache sid (some user), ?_, ?_, value⟩
      · simp only [userOfSession, listed, if_neg empty, cached, lookup]
      · intro key found held
        by_cases same : key = sid
        · subst same
          rw [Function.update_self] at held
          exact Option.some.inj held ▸ lookup
        · rw [Function.update_of_ne same] at held
          exact agrees key found held

theorem userOfSession_error {sid : Sid} (agrees : CacheAgrees e st.sidcache)
    (listed : st.wtssids.sid t.pid = some sid)
    (unknown : ¬ (sid = "" ∨ ∃ user, e.lookupAccountSid sid = .ok user)) :
    ∃ x, userOfSession e st t = .error x := by
  push Not at unknown
  obtain ⟨named, unknown⟩ := unknown
  cases lookup : e.lookupAccountSid sid with
  | ok user => exact absurd lookup (unknown user)
  | error code =>
    cases cached : st.sidcache sid with
    | some user => exact absurd (agrees sid user cached) (unknown user)
    | none =>
      exact ⟨.system code, by simp only [userOfSession, listed, if_neg named, cached, lookup]⟩

/-- The fields of the last loop. -/
def tokenGroup (o : Options) : List Field :=
  (if o.asksUser then [.user] else []) ++ o.tokenFields.map .token

def valuesOf (o : Options) (e : Environment) (targets : List Target) (t : Target) (wts : Wts)
    (fs : List Field) : List Value :=
  fs.map fun f => (value o e targets t wts f).getD o.noexist

/-- What a turn of the last loop adds to the records. -/
def turned (o : Options) (e : Environment) (targets : List Target) (t : Target) (wts : Wts)
    (fs : List Field) (records : Records) : Records :=
  (valuesOf o e targets t wts fs).foldl (fun records v => dictLappend records t.key v) records

theorem addTokenValues_eq {record : TokenRecord} (ks : List TokenOpt)
    (values : ∀ k ∈ ks, record (.opt k) = tokenValue o t wts k ∧ (record (.opt k)).isSome)
    (records : Records) :
    addTokenValues t record ks records = turned o e targets t wts (ks.map .token) records := by
  induction ks generalizing records with
  | nil => rfl
  | cons k ks ih =>
    obtain ⟨belongs, isSome⟩ := values k List.mem_cons_self
    obtain ⟨v, is⟩ := Option.isSome_iff_exists.mp isSome
    have value : value o e targets t wts (.token k) = some v := belongs.symm.trans is
    have rest := ih (fun j mem => values j (List.mem_cons_of_mem k mem))
      (dictLappend records t.key v)
    simpa [addTokenValues, turned, valuesOf, is, value] using rest

theorem turned_tokenGroup {user : Value} (asksUser : o.asksUser = true)
    (isUser : userValue o e t wts = some user) (records : Records) :
    turned o e targets t wts (tokenGroup o) records =
      turned o e targets t wts (o.tokenFields.map .token) (dictLappend records t.key user) := by
  have first : value o e targets t wts .user = some user := isUser
  simp [turned, valuesOf, tokenGroup, asksUser, first]

/-- Every token field has a value in what is left of the last turn. -/
def LastFine (o : Options) (last : Option TokenRecord) : Prop :=
  ∃ record, last = some record ∧ ∀ k ∈ o.tokenFields, (record (.opt k)).isSome

variable (targets) in
theorem tokenStep_ok (agrees : CacheAgrees e st.sidcache) (meets : TokenMeets o e t st.wtssids) :
    ∃ next, tokenStep o e st t = .ok next ∧ next.wtssids = wtsAfter o st.wtssids t ∧
      CacheAgrees e next.sidcache ∧ LastFine o next.last ∧
      next.records = turned o e targets t st.wtssids (tokenGroup o) st.records := by
  cases asksUser : o.asksUser with
  | false =>
    obtain ⟨record, run, values⟩ := askToken_ok (o := o) (t := t) false st.wtssids none
      (fun asked => meets.token (by simpa using asked))
    have group : tokenGroup o = o.tokenFields.map .token := by
      rw [tokenGroup, asksUser]
      rfl
    refine ⟨⟨wtsAfter o st.wtssids t, st.sidcache,
      addTokenValues t record o.tokenFields st.records, some record⟩, ?_, rfl, agrees,
      ⟨record, rfl, fun k mem => (values k mem).2⟩, ?_⟩
    · simp only [tokenStep, asksUser]
      change (askToken o t (requestedOf o false) st.wtssids none >>= _) = _
      rw [run]
      rfl
    · rw [group]
      exact addTokenValues_eq o.tokenFields values st.records
  | true =>
    have user := meets.user asksUser
    unfold UserMeets at user
    cases sessions : st.wtssids.sid t.pid with
    | some sid =>
      rw [sessions] at user
      obtain ⟨name, sidcache, ask, agrees', isUser⟩ := userOfSession_ok agrees sessions user
      obtain ⟨record, run, values⟩ := askToken_ok (o := o) (t := t) false st.wtssids (some name)
        (fun asked => meets.token (by simpa using asked))
      refine ⟨⟨wtsAfter o st.wtssids t, sidcache,
        addTokenValues t record o.tokenFields (dictLappend st.records t.key name),
        some record⟩, ?_, rfl, agrees', ⟨record, rfl, fun k mem => (values k mem).2⟩, ?_⟩
      · simp only [tokenStep, asksUser, if_true, ask]
        change (askToken o t (requestedOf o false) st.wtssids (some name) >>= _) = _
        rw [run]
        rfl
      · rw [turned_tokenGroup asksUser isUser]
        exact addTokenValues_eq o.tokenFields values (dictLappend st.records t.key name)
    | none =>
      rw [sessions] at user
      have notFails : ¬ t.token.Fails := by
        rintro ⟨code, fails⟩
        rcases user with noSuch | ⟨denied, -⟩
        · cases fails.symm.trans noSuch
        · cases fails.symm.trans denied
      obtain ⟨record, run, values⟩ := askToken_ok (o := o) (t := t) true st.wtssids none
        (fun _ => notFails)
      obtain ⟨name, after, isUser⟩ : ∃ name, userAfter o t none = some name ∧
          userValue o e t st.wtssids = some name := by
        rcases user with noSuch | ⟨denied, isSystem⟩
        · simp [userAfter, userValue, sessions, noSuch]
        · simp [userAfter, userValue, sessions, denied, isSystem]
      refine ⟨⟨wtsAfter o st.wtssids t, st.sidcache,
        addTokenValues t record o.tokenFields (dictLappend st.records t.key name),
        some record⟩, ?_, rfl, agrees, ⟨record, rfl, fun k mem => (values k mem).2⟩, ?_⟩
      · simp only [tokenStep, asksUser, if_true, userOfSession_none sessions]
        change (askToken o t (requestedOf o true) st.wtssids none >>= _) = _
        rw [run, if_pos rfl, after]
        rfl
      · rw [turned_tokenGroup asksUser isUser]
        exact addTokenValues_eq o.tokenFields values (dictLappend st.records t.key name)

/-- Nothing but a process that is not there gives a user, or one of the system's
two that cannot be accessed. -/
theorem userAfter_of_not_meets (sessions : wts.sid t.pid = none) (fine : ¬ t.token.Fails)
    (unknown : ¬ UserMeets e t wts) : userAfter o t none = none := by
  simp only [UserMeets, sessions] at unknown
  push Not at unknown
  obtain ⟨found, other⟩ := unknown
  cases answer : t.token with
  | value token => simp only [userAfter, answer]
  | denied =>
    have ordinary : isSystemPid t.pid = false := by simpa using other answer
    simp only [userAfter, answer, ordinary]
    rfl
  | noSuch => exact absurd answer found
  | fails code => exact absurd ⟨code, answer⟩ fine

/-- A turn fails if the user cannot be told or a query fails. -/
theorem tokenStep_error (agrees : CacheAgrees e st.sidcache) (fails : ¬ TokenMeets o e t st.wtssids) :
    ∃ x, tokenStep o e st t = .error x := by
  cases asksUser : o.asksUser with
  | false =>
    have bad : ¬ (o.tokenFields ≠ [] → ¬ t.token.Fails) :=
      fun fine => fails ⟨fun asks => absurd (asksUser.symm.trans asks) Bool.false_ne_true, fine⟩
    push Not at bad
    obtain ⟨x, run⟩ := askToken_error (o := o) (t := t) false st.wtssids none (.inl bad.1) bad.2
    refine ⟨x, ?_⟩
    simp only [tokenStep, asksUser]
    change (askToken o t (requestedOf o false) st.wtssids none >>= _) = _
    rw [run]
    rfl
  | true =>
    cases sessions : st.wtssids.sid t.pid with
    | some sid =>
      by_cases known : sid = "" ∨ ∃ user, e.lookupAccountSid sid = .ok user
      · obtain ⟨name, sidcache, ask, -, -⟩ := userOfSession_ok (o := o) agrees sessions known
        have bad : ¬ (o.tokenFields ≠ [] → ¬ t.token.Fails) := by
          refine fun fine => fails ⟨fun _ => ?_, fine⟩
          rw [UserMeets, sessions]
          exact known
        push Not at bad
        obtain ⟨x, run⟩ := askToken_error (o := o) (t := t) false st.wtssids (some name)
          (.inl bad.1) bad.2
        refine ⟨x, ?_⟩
        simp only [tokenStep, asksUser, if_true, ask]
        change (askToken o t (requestedOf o false) st.wtssids (some name) >>= _) = _
        rw [run]
        rfl
      · obtain ⟨x, ask⟩ := userOfSession_error agrees sessions known
        refine ⟨x, ?_⟩
        simp only [tokenStep, asksUser, if_true, ask]
        rfl
    | none =>
      by_cases query : t.token.Fails
      · obtain ⟨x, run⟩ := askToken_error (o := o) (t := t) true st.wtssids none (.inr rfl) query
        refine ⟨x, ?_⟩
        simp only [tokenStep, asksUser, if_true, userOfSession_none sessions]
        change (askToken o t (requestedOf o true) st.wtssids none >>= _) = _
        rw [run]
        rfl
      · have unknown : ¬ UserMeets e t st.wtssids :=
          fun user => fails ⟨fun _ => user, fun _ => query⟩
        obtain ⟨record, run, -⟩ := askToken_ok (o := o) (t := t) true st.wtssids none
          (fun _ => query)
        refine ⟨.unset "user", ?_⟩
        simp only [tokenStep, asksUser, if_true, userOfSession_none sessions]
        change (askToken o t (requestedOf o true) st.wtssids none >>= _) = _
        rw [run, if_pos rfl, userAfter_of_not_meets sessions query unknown]
        rfl

/-! ### The last loop -/

theorem tokenLoop_ok (ts : List Target) (agrees : CacheAgrees e st.sidcache)
    (meets : ∀ s ∈ contexts o st.wtssids ts, TokenMeets o e s.1 s.2) :
    ∃ final, ts.foldlM (tokenStep o e) st = .ok final ∧
      final.records = appendEach st.records (added o e targets st.wtssids ts (tokenGroup o)) ∧
      (ts ≠ [] ∨ LastFine o st.last → LastFine o final.last) ∧
      (ts = [] → final.last = st.last) := by
  induction ts generalizing st with
  | nil => exact ⟨st, rfl, rfl, fun h => h.resolve_left (by simp), fun _ => rfl⟩
  | cons t ts ih =>
    obtain ⟨next, step, wts, agrees', fine, records⟩ :=
      tokenStep_ok targets agrees (meets (t, st.wtssids) List.mem_cons_self)
    obtain ⟨final, run, grown, last, -⟩ := ih agrees' (by
      rw [wts]
      exact fun s mem => meets s (List.mem_cons_of_mem _ mem))
    refine ⟨final, ?_, ?_, fun _ => last (.inr fine), by simp⟩
    · rw [List.foldlM_cons, step]
      exact run
    · rw [grown, records, wts]
      rfl

theorem tokenLoop_error (ts : List Target) (agrees : CacheAgrees e st.sidcache)
    (fails : ¬ ∀ s ∈ contexts o st.wtssids ts, TokenMeets o e s.1 s.2) :
    ∃ x, ts.foldlM (tokenStep o e) st = .error x := by
  induction ts generalizing st with
  | nil => exact absurd (by simp [contexts]) fails
  | cons t ts ih =>
    by_cases here : TokenMeets o e t st.wtssids
    · obtain ⟨next, step, wts, agrees', -, -⟩ := tokenStep_ok [] agrees here
      obtain ⟨x, run⟩ := ih agrees' (by
        rw [wts]
        refine fun all => fails fun s mem => ?_
        rcases List.mem_cons.mp mem with rfl | mem
        · exact here
        · exact all s mem)
      exact ⟨x, by rw [List.foldlM_cons, step]; exact run⟩
    · obtain ⟨x, step⟩ := tokenStep_error agrees here
      exact ⟨x, by rw [List.foldlM_cons, step]; rfl⟩

theorem addTokenFields_ok {last : Option TokenRecord} (fine : LastFine o last)
    (ks : List TokenOpt) (sub : ∀ k ∈ ks, k ∈ o.tokenFields) (fields : List Field) :
    addTokenFields last ks fields = .ok (fields ++ ks.map .token) := by
  obtain ⟨record, rfl, values⟩ := fine
  induction ks generalizing fields with
  | nil => simp [addTokenFields, pure, Except.pure]
  | cons k ks ih =>
    have rest := ih (fun j mem => sub j (List.mem_cons_of_mem k mem)) (fields ++ [.token k])
    rw [List.append_assoc] at rest
    simp only [addTokenFields, List.foldlM_cons, values k (sub k List.mem_cons_self), if_true]
    exact rest

theorem tokenGroup_of_not_asked (none : ¬ (o.asksUser || o.tokenFields ≠ []) = true) :
    o.tokenFields = [] ∧ o.asksUser = false ∧ tokenGroup o = [] := by
  have noFields : o.tokenFields = [] := by
    by_contra fields
    exact none (by simp [fields])
  have noUser : o.asksUser = false := by
    by_contra user
    exact none (by simp [user])
  exact ⟨noFields, noUser, by simp [tokenGroup, noFields, noUser]⟩

/-- The last loop adds its fields, or the command fails: for want of a user or a
query, or because no process is there to tell the names of the fields. -/
theorem Grown.tokenStage {table : Table} {groups : List (List Field)}
    (grown : Grown o e targets table groups) :
    (∃ x, ProcessInfo.tokenStage o e targets (firstWts o e) table = .error x) ∧
        ¬ ((∀ s ∈ contexts o (firstWts o e) targets, TokenMeets o e s.1 s.2) ∧
          (o.tokenFields ≠ [] → targets ≠ [])) ∨
    (∃ next, ProcessInfo.tokenStage o e targets (firstWts o e) table = .ok next ∧
        Grown o e targets next (groups ++ [tokenGroup o])) ∧
      (∀ s ∈ contexts o (firstWts o e) targets, TokenMeets o e s.1 s.2) ∧
        (o.tokenFields ≠ [] → targets ≠ []) := by
  by_cases asked : (o.asksUser || o.tokenFields ≠ []) = true
  · have agrees : CacheAgrees e (LoopState.mk (firstWts o e) (fun _ => none) table.records
      none).sidcache := fun sid user found => by cases found
    by_cases meets : ∀ s ∈ contexts o (firstWts o e) targets, TokenMeets o e s.1 s.2
    · obtain ⟨final, run, records, last, untouched⟩ := tokenLoop_ok targets agrees meets
      by_cases some : o.tokenFields ≠ [] → targets ≠ []
      · have fields : addTokenFields final.last o.tokenFields
            (if o.asksUser then table.fields ++ [.user] else table.fields) =
            .ok (table.fields ++ tokenGroup o) := by
          have start : (if o.asksUser then table.fields ++ [.user] else table.fields) =
              table.fields ++ if o.asksUser then [Field.user] else [] := by
            cases o.asksUser <;> simp
          rw [start, tokenGroup, ← List.append_assoc]
          by_cases noFields : o.tokenFields = []
          · rw [noFields]
            simp [addTokenFields, pure, Except.pure]
          · exact addTokenFields_ok (last (.inl (some noFields))) o.tokenFields
              (fun k mem => mem) _
        refine .inr ⟨⟨_, ?_, grown.add (tokenGroup o)⟩, meets, some⟩
        rw [← records]
        simp only [ProcessInfo.tokenStage, if_pos asked, run]
        change (addTokenFields final.last o.tokenFields
          (if o.asksUser then table.fields ++ [.user] else table.fields) >>= _) = _
        rw [fields]
        rfl
      · refine .inl ⟨⟨.unset "token_records", ?_⟩, fun both => some both.2⟩
        push Not at some
        obtain ⟨fields, rfl⟩ := some
        have unset : addTokenFields final.last o.tokenFields
            (if o.asksUser then table.fields ++ [.user] else table.fields) =
            .error (.unset "token_records") := by
          rw [untouched rfl]
          cases names : o.tokenFields with
          | nil => exact absurd names fields
          | cons k ks => rfl
        simp only [ProcessInfo.tokenStage, if_pos asked, run]
        change (addTokenFields final.last o.tokenFields
          (if o.asksUser then table.fields ++ [.user] else table.fields) >>= _) = _
        rw [unset]
        rfl
    · obtain ⟨x, run⟩ := tokenLoop_error targets agrees meets
      refine .inl ⟨⟨x, ?_⟩, fun both => meets both.1⟩
      simp only [ProcessInfo.tokenStage, if_pos asked, run]
      rfl
  · obtain ⟨noFields, noUser, group⟩ := tokenGroup_of_not_asked asked
    refine .inr ⟨⟨table, ?_, ?_⟩, fun s _ => ⟨by simp [noUser], by simp [noFields]⟩,
      by simp [noFields]⟩
    · simp only [ProcessInfo.tokenStage, if_neg asked]
      rfl
    · have same := grown.add []
      rw [added_nil, List.append_nil] at same
      exact group ▸ same

end Loops

end Twapi.ProcessInfo
