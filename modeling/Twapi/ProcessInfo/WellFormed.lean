import Mathlib.Data.List.Nodup
import Twapi.ProcessInfo.Tokens

/-!
When the result of `get_multiple_process_info` is a well-formed record array.

* `getMultipleProcessInfo_spec` — the command fails, or returns what its loops add.
* `recordWith_length`, `recordWith_of_nodup` — the shape of a record.
* `wellFormed_iff` — the result of the whole command.
-/

namespace Twapi.ProcessInfo

open List

section Loops

variable {o : Options} {e : Environment} {targets : List Target}

/-! ### The whole command -/

/-- Where only base options are asked for, the stages that are left out would do nothing. -/
theorem asks_of_done (done : o.done = true) :
    o.asksElapsed = false ∧ o.asksTids = false ∧ (o.all || o.path) = false ∧
      (o.all || o.priorityclass) = false ∧ (o.all || o.commandline) = false ∧
      ¬ (o.asksUser || o.tokenFields ≠ []) = true := by
  simp only [Options.done, Bool.not_eq_true', Bool.or_eq_false_iff] at done
  obtain ⟨⟨⟨⟨⟨⟨⟨all, user⟩, elapsedtime⟩, tids⟩, path⟩, commandline⟩, priorityclass⟩, token⟩ := done
  have noFields : o.tokenFields = [] := by
    rw [Options.tokenFields, filter_eq_nil_iff]
    intro k mem
    have unasked : ¬ o.token k = true := any_eq_false.mp token k mem
    simpa [all] using unasked
  simp [Options.asksElapsed, Options.asksTids, Options.asksUser, all, user, elapsedtime, tids,
    path, commandline, priorityclass, noFields]

/-- The stages after the base options, in their order. -/
def stages (o : Options) (e : Environment) (targets : List Target)
    (raw : Dict (List (ProcessField × Value))) (table : Table) : Except Failure Table := do
  let table ← pass targets o.asksElapsed .elapsedtime (elapsedtimeOf o e raw) table
  let table ← pass targets o.asksTids .tids (tidsOf o raw) table
  let table ← pass targets (o.all || o.path) .path (fun t => answered o t.path) table
  let table ← pass targets (o.all || o.priorityclass) .priorityclass
    (fun t => answered o t.priorityclass) table
  let table ← pass targets (o.all || o.commandline) .commandline
    (fun t => answered o t.commandline) table
  tokenStage o e targets (firstWts o e) table

variable {s : Target × Wts} {data : BaseData} {t : Target}

theorem getMultipleProcessInfo_eq (based : baseData o e targets = .ok data) :
    getMultipleProcessInfo o e targets =
      (stages o e targets data.raw
        ⟨o.baseFields.map .base ++ [.pid], baseStage o targets data.records⟩ >>=
        returnData targets) := by
  have bind_pure : ∀ table : Table, (pure table : Except Failure Table) >>= returnData targets =
      returnData targets table := fun table => rfl
  by_cases done : o.done = true
  · obtain ⟨noElapsed, noTids, noPath, noPriority, noCommand, noToken⟩ := asks_of_done done
    have stay : ∀ table, stages o e targets data.raw table = .ok table := by
      intro table
      simp only [stages, noElapsed, noTids, noPath, noPriority, noCommand, pass, tokenStage,
        if_neg noToken]
      rfl
    rw [stay, getMultipleProcessInfo, based]
    simp only [done, if_true]
    rfl
  · have notDone : o.done = false := by simpa using done
    rw [getMultipleProcessInfo, based]
    simp only [notDone, stages, bind_assoc]
    rfl

/-- What the stages need of the queries. -/
structure QueriesMeet (o : Options) (e : Environment) (targets : List Target) : Prop where
  path : o.all || o.path → ∀ t ∈ targets, ¬ t.path.Fails
  priorityclass : o.all || o.priorityclass → ∀ t ∈ targets, ¬ t.priorityclass.Fails
  commandline : o.all || o.commandline → ∀ t ∈ targets, ¬ t.commandline.Fails
  token : ∀ s ∈ contexts o (firstWts o e) targets, TokenMeets o e s.1 s.2
  nonempty : o.tokenFields ≠ [] → targets ≠ []

theorem base_grown (records : ∀ t : Target,
    (data.records t.key).getD (noexistValues o) = o.baseFields.map (baseValue o e targets t)) :
    Grown o e targets
      ⟨o.baseFields.map .base ++ [.pid], baseStage o targets data.records⟩ [[.pid]] where
  fields := by simp
  records t mem := by
    have pids : added o e targets (firstWts o e) targets [.pid] =
        targets.map fun s => (s.key, [s.key]) :=
      added_of_context_free _ _ fun s _ wts => rfl
    refine (baseStage_get mem).trans ?_
    rw [records t, recordWith, flatMap_singleton, pids]

theorem stages_spec {table : Table} (raw : o.asksElapsed ∨ o.asksTids → ∀ t : Target,
      data.raw t.key = (foundProcess e targets t).map fun p =>
        (processFields (o.baseFlags ||| 1)).zip ((processFields (o.baseFlags ||| 1)).map p.value))
    (base : Grown o e targets table [[.pid]]) :
    (∃ x, stages o e targets data.raw table = .error x) ∧ ¬ QueriesMeet o e targets ∨
    (∃ next, stages o e targets data.raw table = .ok next ∧
      Grown o e targets next (laterFields o)) ∧ QueriesMeet o e targets := by
  obtain ⟨table1, run1, grown1⟩ := base.pass o.asksElapsed (f := .elapsedtime)
    (fun asked t _ => elapsedtimeOf_eq (raw (.inl asked) t) asked) (fun _ t _ wts => rfl)
  obtain ⟨table2, run2, grown2⟩ := grown1.pass o.asksTids (f := .tids)
    (fun asked t _ => tidsOf_eq (raw (.inr asked) t) asked) (fun _ t _ wts => rfl)
  rcases grown2.query (o.all || o.path) Target.path (f := .path)
    (fun t wts => rfl) with ⟨⟨x, run3⟩, fails⟩ | ⟨⟨table3, run3, grown3⟩, path⟩
  · exact .inl ⟨⟨x, by simp only [stages, run1, run2, run3, bind, Except.bind]⟩,
      fun meets => fails meets.path⟩
  rcases grown3.query (o.all || o.priorityclass) Target.priorityclass
    (f := .priorityclass) (fun t wts => rfl) with
    ⟨⟨x, run4⟩, fails⟩ | ⟨⟨table4, run4, grown4⟩, priorityclass⟩
  · exact .inl ⟨⟨x, by simp only [stages, run1, run2, run3, run4, bind, Except.bind]⟩,
      fun meets => fails meets.priorityclass⟩
  rcases grown4.query (o.all || o.commandline) Target.commandline
    (f := .commandline) (fun t wts => rfl) with
    ⟨⟨x, run5⟩, fails⟩ | ⟨⟨table5, run5, grown5⟩, commandline⟩
  · exact .inl ⟨⟨x, by simp only [stages, run1, run2, run3, run4, run5, bind, Except.bind]⟩,
      fun meets => fails meets.commandline⟩
  rcases grown5.tokenStage with ⟨⟨x, run6⟩, fails⟩ | ⟨⟨table6, run6, grown6⟩, token, nonempty⟩
  · exact .inl ⟨⟨x, by simp only [stages, run1, run2, run3, run4, run5, run6, bind, Except.bind]⟩,
      fun meets => fails ⟨meets.token, meets.nonempty⟩⟩
  · exact .inr ⟨⟨table6,
      by simp only [stages, run1, run2, run3, run4, run5, run6, bind, Except.bind], grown6⟩,
      path, priorityclass, commandline, token, nonempty⟩

variable {groups : List (List Field)} {wts : Wts}

theorem returnData_eq {table : Table} (grown : Grown o e targets table groups) :
    returnData targets table =
      .ok (o.baseFields.map .base ++ groups.flatten,
        targets.map (recordWith o e targets groups)) := by
  have all : ∀ ts : List Target, (∀ t ∈ ts, t ∈ targets) →
      ts.mapM (fun t => dictGet table.records t.key) =
        .ok (ts.map (recordWith o e targets groups)) := by
    intro ts sub
    induction ts with
    | nil => rfl
    | cons t ts ih =>
      have head := grown.records t (sub t mem_cons_self)
      have tail := ih fun s mem => sub s (mem_cons_of_mem t mem)
      rw [mapM_cons, tail, dictGet, head]
      rfl
  rw [returnData, all targets fun t mem => mem, ← grown.fields]
  rfl

/-- The command fails, or it returns the fields and records of all its stages. -/
theorem getMultipleProcessInfo_spec (o : Options) (e : Environment) (targets : List Target) :
    (∃ x, getMultipleProcessInfo o e targets = .error x) ∧ ¬ QueriesMeet o e targets ∨
    getMultipleProcessInfo o e targets =
        .ok (o.baseFields.map .base ++ (laterFields o).flatten,
          targets.map (recordWith o e targets (laterFields o))) ∧ QueriesMeet o e targets := by
  obtain ⟨data, based, records, raw⟩ := baseData_spec o e targets
  rw [getMultipleProcessInfo_eq based]
  rcases stages_spec raw (base_grown records) with ⟨⟨x, run⟩, fails⟩ | ⟨⟨table, run, grown⟩, meets⟩
  · exact .inl ⟨⟨x, by rw [run]; rfl⟩, fails⟩
  · exact .inr ⟨by rw [run]; exact returnData_eq grown, meets⟩

/-! ### The shape of a record -/

theorem valuesFor_length (key : Value) (fs : List Field) :
    (valuesFor key (added o e targets (firstWts o e) targets fs)).length =
      (targets.filter fun t => t.key = key).length * fs.length := by
  have general : ∀ (ts : List Target) (wts : Wts),
      (valuesFor key (added o e targets wts ts fs)).length =
        (ts.filter fun t => t.key = key).length * fs.length := by
    intro ts
    induction ts with
    | nil => intro wts; simp [added, contexts, valuesFor]
    | cons t ts ih =>
      intro wts
      have rest := ih (wtsAfter o wts t)
      simp only [added, valuesFor] at rest
      by_cases same : t.key = key
      · simp [added, contexts, valuesFor, same, rest, Nat.add_mul, Nat.add_comm]
      · simp [added, contexts, valuesFor, same, rest]
  exact general targets (firstWts o e)

theorem recordWith_length (groups : List (List Field)) (t : Target) :
    (recordWith o e targets groups t).length =
      o.baseFields.length +
        (targets.filter fun s => s.key = t.key).length * groups.flatten.length := by
  rw [recordWith, length_append, length_map]
  induction groups with
  | nil => simp
  | cons fs groups ih =>
    simp only [flatMap_cons, flatten_cons, length_append, valuesFor_length,
      Nat.mul_add] at ih ⊢
    omega

theorem key_eq_iff {s t : Target} : s.key = t.key ↔ s.pid = t.pid := by
  simp [Target.key]

theorem repeated_of_not_nodup (again : ¬ (targets.map Target.pid).Nodup) :
    ∃ t ∈ targets, 2 ≤ (targets.filter fun s => s.key = t.key).length := by
  rw [nodup_iff_count_le_one] at again
  push Not at again
  obtain ⟨pid, more⟩ := again
  have twice : 2 ≤ (targets.map Target.pid).count pid := by omega
  obtain ⟨t, mem, rfl⟩ := mem_map.mp (count_pos_iff.mp (Nat.zero_lt_of_lt twice))
  refine ⟨t, mem, ?_⟩
  rw [count_eq_length_filter, filter_map, length_map] at twice
  have same : (targets.filter fun s => s.key = t.key) =
      targets.filter ((fun pid => pid == t.pid) ∘ Target.pid) :=
    filter_congr fun s _ => by rw [Bool.eq_iff_iff]; simp [Target.key]
  rw [same]
  exact twice

theorem filter_key {l : List (Target × Wts)} (distinct : (l.map fun s => s.1.pid).Nodup)
    (mem : s ∈ l) : (l.filter fun r => r.1.key = s.1.key) = [s] := by
  induction l with
  | nil => cases mem
  | cons r l ih =>
    rw [map_cons, nodup_cons] at distinct
    obtain ⟨fresh, distinct⟩ := distinct
    rcases mem_cons.mp mem with rfl | mem
    · rw [filter_cons_of_pos (by simp), filter_eq_nil_iff.mpr]
      intro q qMem
      simp only [decide_eq_true_eq, key_eq_iff]
      exact fun same => fresh (mem_map.mpr ⟨q, qMem, same⟩)
    · rw [filter_cons_of_neg, ih distinct mem]
      simp only [decide_eq_true_eq, key_eq_iff]
      exact fun same => fresh (mem_map.mpr ⟨s, mem, same.symm⟩)

/-- With a process id only once, its record is the values of its fields. -/
theorem recordWith_of_nodup (distinct : (targets.map Target.pid).Nodup)
    (mem : s ∈ contexts o (firstWts o e) targets) (groups : List (List Field)) :
    recordWith o e targets groups s.1 =
      valuesOf o e targets s.1 s.2 (o.baseFields.map Field.base ++ groups.flatten) := by
  have once : ∀ fs, valuesFor s.1.key (added o e targets (firstWts o e) targets fs) =
      valuesOf o e targets s.1 s.2 fs := by
    intro fs
    have pids : ((contexts o (firstWts o e) targets).map fun r => r.1.pid).Nodup := by
      have split : ((contexts o (firstWts o e) targets).map fun r => r.1.pid) =
          ((contexts o (firstWts o e) targets).map Prod.fst).map Target.pid := by
        rw [map_map]
        rfl
      rw [split, contexts_fst]
      exact distinct
    have filtered := filter_key pids mem
    rw [valuesFor, added, filter_map,
      show ((fun item : Value × List Value => decide (item.1 = s.1.key)) ∘
        fun r : Target × Wts => (r.1.key, fs.map fun f =>
          (value o e targets r.1 r.2 f).getD o.noexist)) = fun r => decide (r.1.key = s.1.key)
        from rfl, filtered]
    simp [valuesOf]
  simp only [recordWith, once, valuesOf, map_append, map_map, map_flatten]
  rw [flatMap_def]
  rfl

theorem forall₂_valuesOf {fs : List Field} (known : ∀ f ∈ fs, (value o e targets t wts f).isSome) :
    List.Forall₂ (fun f v => value o e targets t wts f = some v) fs
      (valuesOf o e targets t wts fs) := by
  rw [valuesOf, forall₂_map_right_iff, forall₂_same]
  intro f mem
  obtain ⟨v, is⟩ := Option.isSome_iff_exists.mp (known f mem)
  rw [is, Option.getD_some]

theorem answerValue_isSome {a : Answer Value} (fine : ¬ a.Fails) : (answerValue o a).isSome := by
  obtain ⟨v, -, belongs⟩ := answered_ok (o := o) fine
  rw [belongs, Option.isSome_some]

theorem userValue_isSome (meets : UserMeets e t wts) :
    (userValue o e t wts).isSome := by
  unfold UserMeets at meets
  unfold userValue
  cases sessions : wts.sid t.pid with
  | none =>
    rw [sessions] at meets
    rcases meets with noSuch | ⟨denied, -⟩
    · simp [noSuch]
    · simp [denied]
  | some sid =>
    rw [sessions] at meets
    by_cases empty : sid = ""
    · simp [empty]
    · obtain ⟨user, lookup⟩ := meets.resolve_left empty
      simp only [if_neg empty, lookup]
      rfl

theorem tokenValue_isSome {k : TokenOpt} (fine : ¬ t.token.Fails) :
    (tokenValue o t wts k).isSome := by
  unfold tokenValue
  cases answer : t.token with
  | value token => rfl
  | denied => by_cases session : k = .logonsession <;> simp [session]
  | noSuch => rfl
  | fails code => exact absurd ⟨code, answer⟩ fine

/-- Every field that is asked for has a value, if the queries are as they should be. -/
theorem known_of_queries (queries : QueriesMeet o e targets)
    (mem : s ∈ contexts o (firstWts o e) targets) {f : Field}
    (asked : f ∈ o.baseFields.map Field.base ++ (laterFields o).flatten) :
    (value o e targets s.1 s.2 f).isSome := by
  have target : s.1 ∈ targets := by
    rw [← contexts_fst (o := o) (firstWts o e) targets]
    exact mem_map_of_mem mem
  cases f with
  | base b => rfl
  | pid => rfl
  | elapsedtime => rfl
  | tids => rfl
  | path =>
    exact answerValue_isSome (queries.path (by simpa [laterFields] using asked) s.1 target)
  | priorityclass =>
    exact answerValue_isSome
      (queries.priorityclass (by simpa [laterFields] using asked) s.1 target)
  | commandline =>
    exact answerValue_isSome (queries.commandline (by simpa [laterFields] using asked) s.1 target)
  | user =>
    exact userValue_isSome ((queries.token s mem).user (by simpa [laterFields] using asked))
  | token k =>
    have isField : k ∈ o.tokenFields := by simpa [laterFields] using asked
    exact tokenValue_isSome ((queries.token s mem).token (ne_nil_of_mem isField))

theorem rows_iff {fields : List Field} :
    List.Forall₂ (fun (s : Target × Wts) record =>
        List.Forall₂ (fun f v => value o e targets s.1 s.2 f = some v) fields record)
        (contexts o (firstWts o e) targets) (targets.map (recordWith o e targets groups)) ↔
      ∀ s ∈ contexts o (firstWts o e) targets,
        List.Forall₂ (fun f v => value o e targets s.1 s.2 f = some v) fields
          (recordWith o e targets groups s.1) := by
  have rows : targets.map (recordWith o e targets groups) =
      (contexts o (firstWts o e) targets).map fun s => recordWith o e targets groups s.1 := by
    conv_lhs => rw [← contexts_fst (o := o) (firstWts o e) targets]
    rw [map_map, contexts_fst]
    rfl
  rw [rows, forall₂_map_right_iff, forall₂_same]

end Loops

/-- `-user` alone. -/
def userOnly : Options where
  all := false
  base _ := false
  elapsedtime := false
  tids := false
  path := false
  priorityclass := false
  commandline := false
  user := true
  token _ := false
  noexist := .text "(no such process)"
  noaccess := .text "(unknown)"

/-- A process whose token can be read, and which the sessions do not list. -/
def unlisted : Target where
  pid := 1234
  path := .noSuch
  priorityclass := .noSuch
  commandline := .noSuch
  token := .value ⟨.text "EXAMPLE\\user", .text "S-1-5-21-1", fun _ => .text ""⟩
  wts := none

def noSessions : Environment where
  processes := []
  now := 0
  systemUptime := 0
  wts := none
  lookupAccountSid _ := .error 1332

end Twapi.ProcessInfo
