import Mathlib.Data.List.Basic
import Twapi.ProcessInfo.Records

/-!
What belongs to the fields of `get_multiple_process_info`, and the loops of one query.

* `value` — what belongs to a field of a process.
* `WellFormed`, `Meets` — the property, and when it holds.
* `Grown` — the fields and records after some of the loops.
* `Grown.pass`, `Grown.query` — a loop adds one field, or the command fails.
-/

namespace Twapi.ProcessInfo

/-! ### What belongs to a field -/

def Answer.Fails {α : Type} (a : Answer α) : Prop := ∃ code, a = .fails code

section Values

variable (o : Options) (e : Environment) (targets : List Target)

def elapsed (p : Process) : Value :=
  if p.createtime ≠ 0 then .int ((e.now - p.createtime) / 10000000) else .int e.systemUptime

def answerValue : Answer Value → Option Value
  | .value v => some v
  | .denied => some o.noaccess
  | .noSuch => some o.noexist
  | .fails _ => none

/-- The sessions after a process: they are enumerated again for the logon session
of one that cannot be accessed. -/
def wtsAfter (wts : Wts) (t : Target) : Wts :=
  match t.token with
  | .denied =>
    if .logonsession ∈ o.tokenFields then if wts.isSome then wts else t.wts else wts
  | _ => wts

def tokenValue (t : Target) (wts : Wts) (k : TokenOpt) : Option Value :=
  match t.token with
  | .value token => some (token.info k)
  | .denied =>
    if k = .logonsession then
      some ((((wtsAfter o wts t).sid t.pid).bind sessionOf).getD o.noaccess)
    else some o.noaccess
  | .noSuch => some o.noexist
  | .fails _ => none

def userValue (t : Target) (wts : Wts) : Option Value :=
  match wts.sid t.pid with
  | some sid => if sid = "" then some system else (e.lookupAccountSid sid).toOption
  | none =>
    match t.token with
    | .value token => some token.user
    | .denied => some (if isSystemPid t.pid then system else o.noaccess)
    | .noSuch => some (if isSystemPid t.pid then system else o.noexist)
    | .fails _ => none

/-- The value of a field for a process, given the sessions known when it is come
to, unless a query for it fails in another way. -/
def value (t : Target) (wts : Wts) : Field → Option Value
  | .base b => some (baseValue o e targets t b)
  | .pid => some t.key
  | .elapsedtime => some (((foundProcess e targets t).map (elapsed e)).getD o.noexist)
  | .tids => some (((foundProcess e targets t).map fun p => .ints p.tids).getD o.noexist)
  | .path => answerValue o t.path
  | .priorityclass => answerValue o t.priorityclass
  | .commandline => answerValue o t.commandline
  | .user => userValue o e t wts
  | .token k => tokenValue o t wts k

/-- The processes of the list with the sessions known when each is come to. -/
def contexts : Wts → List Target → List (Target × Wts)
  | _, [] => []
  | wts, t :: ts => (t, wts) :: contexts (wtsAfter o wts t) ts

def firstWts : Wts := if o.asksUser then e.wts else none

/-- One record for each process id in order, with a value for each field, that
belongs to it. -/
def WellFormed (result : Except Failure (List Field × List (List Value))) : Prop :=
  ∃ fields records, result = .ok (fields, records) ∧
    List.Forall₂ (fun (s : Target × Wts) record =>
      List.Forall₂ (fun f v => value o e targets s.1 s.2 f = some v) fields record)
      (contexts o (firstWts o e) targets) records

/-- The sessions tell the user, or the token query finds no process, or access is
denied and the process is one of the system's two. -/
def UserMeets (t : Target) (wts : Wts) : Prop :=
  match wts.sid t.pid with
  | some sid => sid = "" ∨ ∃ user, e.lookupAccountSid sid = .ok user
  | none => t.token = .noSuch ∨ t.token = .denied ∧ isSystemPid t.pid

structure TokenMeets (t : Target) (wts : Wts) : Prop where
  user : o.asksUser → UserMeets e t wts
  token : o.tokenFields ≠ [] → ¬ t.token.Fails

/-- No process id is there twice, the list is not empty where token options are
asked for, the user can be told of each process, and no query fails but for
access that is denied or a process that is not there. -/
structure Meets : Prop where
  distinct : (targets.map Target.pid).Nodup
  nonempty : o.tokenFields ≠ [] → targets ≠ []
  path : o.all || o.path → ∀ t ∈ targets, ¬ t.path.Fails
  priorityclass : o.all || o.priorityclass → ∀ t ∈ targets, ¬ t.priorityclass.Fails
  commandline : o.all || o.commandline → ∀ t ∈ targets, ¬ t.commandline.Fails
  token : ∀ s ∈ contexts o (firstWts o e) targets, TokenMeets o e s.1 s.2

/-! ### The shape of a result -/

/-- The fields after the base fields, by the loop that adds them. -/
def laterFields : List (List Field) :=
  [[.pid], if o.asksElapsed then [.elapsedtime] else [], if o.asksTids then [.tids] else [],
   if o.all || o.path then [.path] else [],
   if o.all || o.priorityclass then [.priorityclass] else [],
   if o.all || o.commandline then [.commandline] else [],
   (if o.asksUser then [.user] else []) ++ o.tokenFields.map .token]

/-- What a loop adds to the records. -/
def added (wts : Wts) (ts : List Target) (fs : List Field) : List (Value × List Value) :=
  (contexts o wts ts).map fun s =>
    (s.1.key, fs.map fun f => (value o e targets s.1 s.2 f).getD o.noexist)

/-- The record of a process with the values of the loops `groups`. -/
def recordWith (groups : List (List Field)) (t : Target) : List Value :=
  o.baseFields.map (baseValue o e targets t) ++
    groups.flatMap fun fs => valuesFor t.key (added o e targets (firstWts o e) targets fs)

structure Grown (table : Table) (groups : List (List Field)) : Prop where
  fields : table.fields = o.baseFields.map .base ++ groups.flatten
  records : ∀ t ∈ targets, table.records t.key = some (recordWith o e targets groups t)

end Values

section Loops

variable {o : Options} {e : Environment} {targets : List Target}

theorem contexts_fst (wts : Wts) (ts : List Target) :
    (contexts o wts ts).map Prod.fst = ts := by
  induction ts generalizing wts with
  | nil => rfl
  | cons t ts ih => rw [contexts, List.map_cons, ih]

variable {groups : List (List Field)} {table : Table} {v : Target → Value} {f : Field}

/-- A loop that adds the values of the fields `fs`. -/
theorem Grown.add (grown : Grown o e targets table groups) (fs : List Field) :
    Grown o e targets
      ⟨table.fields ++ fs,
        appendEach table.records (added o e targets (firstWts o e) targets fs)⟩
      (groups ++ [fs]) where
  fields := by simp [grown.fields]
  records t mem := (appendEach_get _ (grown.records t mem)).trans (by simp [recordWith])

theorem added_of_context_free (wts : Wts) (ts : List Target)
    (belongs : ∀ t ∈ ts, ∀ wts, value o e targets t wts f = some (v t)) :
    added o e targets wts ts [f] = ts.map fun t => (t.key, [v t]) := by
  induction ts generalizing wts with
  | nil => rfl
  | cons t ts ih =>
    rw [added, contexts, List.map_cons, List.map_cons]
    refine congrArg₂ _ ?_ (ih _ fun s mem => belongs s (List.mem_cons_of_mem t mem))
    simp [belongs t List.mem_cons_self]

theorem foldlM_lappend_ok {f : Target → Except Failure Value} (ts : List Target)
    (ok : ∀ t ∈ ts, f t = .ok (v t)) (records : Records) :
    ts.foldlM (fun records t => do
      let v ← f t
      pure (dictLappend records t.key v)) records =
      .ok (appendEach records (ts.map fun t => (t.key, [v t]))) := by
  induction ts generalizing records with
  | nil => rfl
  | cons t ts ih =>
    rw [List.foldlM_cons, ok t List.mem_cons_self]
    exact ih (fun s mem => ok s (List.mem_cons_of_mem t mem)) (dictLappend records t.key (v t))

theorem foldlM_lappend_error {f : Target → Except Failure Value} (ts : List Target)
    (fails : ∃ t ∈ ts, ∃ x, f t = .error x) (records : Records) :
    ∃ x, ts.foldlM (fun records t => do
      let v ← f t
      pure (dictLappend records t.key v)) records = .error x := by
  induction ts generalizing records with
  | nil => simp at fails
  | cons t ts ih =>
    rw [List.foldlM_cons]
    cases run : f t with
    | error x => exact ⟨x, rfl⟩
    | ok v =>
      obtain ⟨s, mem, x, fails⟩ := fails
      rcases List.mem_cons.mp mem with rfl | mem
      · cases run.symm.trans fails
      · exact ih ⟨s, mem, x, fails⟩ _

theorem added_nil (wts : Wts) (ts : List Target) (records : Records) :
    appendEach records (added o e targets wts ts []) = records := by
  rw [appendEach, added, List.foldl_map]
  exact List.foldl_fixed _

theorem Grown.pass {query : Target → Except Failure Value} (grown : Grown o e targets table groups)
    (asked : Bool) (ok : asked → ∀ t ∈ targets, query t = .ok (v t))
    (belongs : asked → ∀ t ∈ targets, ∀ wts, value o e targets t wts f = some (v t)) :
    ∃ next, ProcessInfo.pass targets asked f query table = .ok next ∧
      Grown o e targets next (groups ++ [if asked then [f] else []]) := by
  cases asked with
  | false =>
    refine ⟨table, rfl, ?_⟩
    have same := grown.add []
    rw [added_nil, List.append_nil] at same
    exact same
  | true =>
    refine ⟨_, ?_, grown.add [f]⟩
    rw [added_of_context_free (v := v) _ _ (belongs rfl)]
    simp only [ProcessInfo.pass, if_true, foldlM_lappend_ok targets (ok rfl)]
    rfl

theorem pass_error {query : Target → Except Failure Value}
    (fails : ∃ t ∈ targets, ∃ x, query t = .error x) :
    ∃ x, pass targets true f query table = .error x := by
  obtain ⟨x, run⟩ := foldlM_lappend_error targets fails table.records
  exact ⟨x, by simp only [pass, if_true, run]; rfl⟩

/-! ### The loops of one query -/

variable {raw : Dict (List (ProcessField × Value))}

theorem elapsedtimeOf_eq {t : Target} (get : raw t.key = (foundProcess e targets t).map fun p =>
      (processFields (o.baseFlags ||| 1)).zip ((processFields (o.baseFlags ||| 1)).map p.value))
    (asked : o.asksElapsed) :
    elapsedtimeOf o e raw t =
      .ok (((foundProcess e targets t).map (elapsed e)).getD o.noexist) := by
  cases found : foundProcess e targets t with
  | none => simp only [elapsedtimeOf, get, found]; rfl
  | some p =>
    simp only [elapsedtimeOf, get, found, Option.map_some,
      klGet_zip p.value (createtime_mem asked)]
    by_cases started : p.createtime = 0 <;>
      simp [elapsed, Process.value, started, bind, Except.bind, pure, Except.pure]

theorem tidsOf_eq {t : Target} (get : raw t.key = (foundProcess e targets t).map fun p =>
      (processFields (o.baseFlags ||| 1)).zip ((processFields (o.baseFlags ||| 1)).map p.value))
    (asked : o.asksTids) :
    tidsOf o raw t =
      .ok (((foundProcess e targets t).map fun p => Value.ints p.tids).getD o.noexist) := by
  cases found : foundProcess e targets t with
  | none => simp only [tidsOf, get, found]; rfl
  | some p =>
    simp only [tidsOf, get, found, Option.map_some, klGet_zip p.value (threads_mem asked)]
    rfl

theorem answered_ok {a : Answer Value} (fine : ¬ a.Fails) :
    ∃ v, answered o a = .ok v ∧ answerValue o a = some v := by
  cases a with
  | value v => exact ⟨v, rfl, rfl⟩
  | denied => exact ⟨o.noaccess, rfl, rfl⟩
  | noSuch => exact ⟨o.noexist, rfl, rfl⟩
  | fails code => exact absurd ⟨code, rfl⟩ fine

theorem answered_error {a : Answer Value} (fails : a.Fails) : ∃ x, answered o a = .error x := by
  obtain ⟨code, rfl⟩ := fails
  exact ⟨.system code, rfl⟩

/-- A loop whose query may fail, for one of the fields that have an answer of
their own. -/
theorem Grown.query (grown : Grown o e targets table groups) (asked : Bool)
    (answer : Target → Answer Value)
    (belongs : ∀ t wts, value o e targets t wts f = answerValue o (answer t)) :
    (∃ x, ProcessInfo.pass targets asked f (fun t => answered o (answer t)) table = .error x) ∧
        ¬ (asked → ∀ t ∈ targets, ¬ (answer t).Fails) ∨
    (∃ next, ProcessInfo.pass targets asked f (fun t => answered o (answer t)) table = .ok next ∧
        Grown o e targets next (groups ++ [if asked then [f] else []])) ∧
      (asked → ∀ t ∈ targets, ¬ (answer t).Fails) := by
  by_cases fine : asked → ∀ t ∈ targets, ¬ (answer t).Fails
  · have ok : asked → ∀ t ∈ targets, answered o (answer t) =
        .ok ((answerValue o (answer t)).getD o.noexist) ∧
        answerValue o (answer t) = some ((answerValue o (answer t)).getD o.noexist) := by
      intro asks t mem
      obtain ⟨v, run, belongs⟩ := answered_ok (o := o) (fine asks t mem)
      rw [run, belongs]
      exact ⟨rfl, rfl⟩
    exact .inr ⟨grown.pass asked (fun asks t mem => (ok asks t mem).1)
      (fun asks t mem wts => (belongs t wts).trans (ok asks t mem).2), fine⟩
  · refine .inl ⟨?_, fine⟩
    push Not at fine
    obtain ⟨rfl, t, mem, fails⟩ := fine
    obtain ⟨x, error⟩ := answered_error (o := o) fails
    exact pass_error ⟨t, mem, x, error⟩

end Loops

end Twapi.ProcessInfo
