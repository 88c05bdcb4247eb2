import Twapi.ProcessInfo.Model

/-!
The records of `get_multiple_process_info` and their base values.

* `appendEach_get` — what the loops that append leave in a record.
* `getdict_getProcessList` — a record array of processes as a dictionary.
* `baseData_spec`, `baseStage_get` — the records the other options start from.
-/

namespace Twapi.ProcessInfo

open List

/-! ### Appending to records -/

/-- Values are appended to the records of the given keys, one after the other. -/
def appendEach (records : Records) (items : List (Value × List Value)) : Records :=
  items.foldl (fun records item => item.2.foldl (fun records v => dictLappend records item.1 v)
    records) records

/-- The values for one key. -/
def valuesFor (key : Value) (items : List (Value × List Value)) : List Value :=
  (items.filter fun item => item.1 = key).flatMap Prod.snd

variable {fields : List ProcessField} {records : Records}

theorem dictLappend_get {key k v : Value} {record : List Value} (has : records key = some record) :
    dictLappend records k v key = some (record ++ if k = key then [v] else []) := by
  by_cases same : k = key
  · subst same
    simp [dictLappend, Dict.set, has]
  · simp [dictLappend, Dict.set, Function.update_of_ne (Ne.symm same), has, same]

theorem foldl_dictLappend_get {key k : Value} (vs : List Value) {record : List Value}
    (has : records key = some record) :
    vs.foldl (fun records v => dictLappend records k v) records key =
      some (record ++ if k = key then vs else []) := by
  induction vs generalizing records record with
  | nil => simpa using has
  | cons v vs ih =>
    rw [foldl_cons, ih (dictLappend_get has)]
    by_cases same : k = key <;> simp [same]

theorem appendEach_get {key : Value} (items : List (Value × List Value)) {record : List Value}
    (has : records key = some record) :
    appendEach records items key = some (record ++ valuesFor key items) := by
  induction items generalizing records record with
  | nil => simpa [appendEach, valuesFor] using has
  | cons item items ih =>
    have step := ih (foldl_dictLappend_get (k := item.1) item.2 has)
    rw [appendEach] at step ⊢
    rw [foldl_cons, step, append_assoc]
    by_cases same : item.1 = key <;> simp [valuesFor, same]

/-! ### Record arrays -/

theorem cell_map {f : ProcessField} (g : ProcessField → Value) (mem : f ∈ fields) :
    cell fields (fields.map g) f = .ok (g f) := by
  have bound := idxOf_lt_length_iff.mpr mem
  simp [cell, getElem?_map, getElem?_eq_getElem bound]

theorem sliced_map {fields names : List ProcessField} (g : ProcessField → Value)
    (sub : ∀ f ∈ names, f ∈ fields) : sliced names fields (fields.map g) = .ok (names.map g) := by
  induction names with
  | nil => rfl
  | cons f names ih =>
    have head := cell_map g (sub f mem_cons_self)
    have tail := ih fun k mem => sub k (mem_cons_of_mem f mem)
    rw [sliced] at tail ⊢
    rw [mapM_cons, head, tail]
    rfl

theorem klGet_zip {f : ProcessField} (g : ProcessField → Value) (mem : f ∈ fields) :
    klGet (fields.zip (fields.map g)) f = .ok (g f) := by
  have found : (fields.zip (fields.map g)).lookup f = some (g f) := by
    induction fields with
    | nil => cases mem
    | cons k fields ih =>
      by_cases same : f = k
      · subst same
        simp
      · have rest := ih ((mem_cons.mp mem).resolve_left same)
        have apart : (f == k) = false := by simpa using same
        simpa [lookup_cons, apart] using rest
  rw [klGet, found]

/-- The process whose record a dictionary holds under a key. -/
def processAt (processes : List Process) (key : Value) : Option Process :=
  (processes.filter fun p => .int p.pid = key).getLast?

theorem foldlM_getdict {α : Type} {form : List ProcessField → List Value → Except Failure α}
    {g : Process → α} (pid : .pid ∈ fields)
    (formed : ∀ p : Process, form fields (fields.map p.value) = .ok (g p))
    (processes : List Process) (start : Dict α) :
    ∃ d : Dict α,
      (processes.map fun p => fields.map p.value).foldlM (fun d record => do
        let key ← cell fields record .pid
        let a ← form fields record
        pure (d.set key a)) start = .ok d ∧
      ∀ key, d key = ((processAt processes key).map g).or (start key) := by
  induction processes generalizing start with
  | nil => exact ⟨start, rfl, fun key => rfl⟩
  | cons p processes ih =>
    obtain ⟨d, run, get⟩ := ih (start.set (.int p.pid) (g p))
    refine ⟨d, ?_, fun key => ?_⟩
    · rw [map_cons, foldlM_cons, cell_map p.value pid, formed p]
      exact run
    · rw [get key, processAt, processAt]
      by_cases same : .int p.pid = key
      · subst same
        rw [filter_cons_of_pos (by simp), getLast?_cons]
        cases (processes.filter fun q => Value.int q.pid = .int p.pid).getLast? <;>
          simp [Dict.set]
      · rw [filter_cons_of_neg (by simpa using same), Dict.set,
          Function.update_of_ne (Ne.symm same)]

/-- The process that `Twapi_GetProcessList` reports under a key. -/
theorem getdict_getProcessList {α : Type}
    (form : List ProcessField → List Value → Except Failure α) (flags : Nat) {g : Process → α}
    (formed : ∀ p : Process,
      form (processFields flags) ((processFields flags).map p.value) = .ok (g p))
    (pidarg : Pid) (processes : List Process) :
    ∃ d : Dict α, getdict form (getProcessList pidarg flags processes) = .ok d ∧
      ∀ key, d key = (processAt (listed pidarg processes) key).map g := by
  have pid : .pid ∈ processFields flags := by simp [processFields]
  cases found : listed pidarg processes with
  | nil => exact ⟨.empty, by rw [getProcessList, found]; rfl, fun key => rfl⟩
  | cons p rest =>
    obtain ⟨d, run, get⟩ := foldlM_getdict pid formed (p :: rest) .empty
    refine ⟨d, ?_, fun key => (get key).trans (Option.or_none)⟩
    rw [getProcessList, found]
    exact run

/-! ### Flags -/

theorem testBit_foldl_or {flags : List Nat} {i : Nat} (start : Nat) :
    (flags.foldl (· ||| ·) start).testBit i ↔ start.testBit i ∨ ∃ f ∈ flags, f.testBit i := by
  induction flags generalizing start with
  | nil => simp
  | cons f flags ih => simp [ih, Nat.testBit_or, or_assoc]

/-- The bit that a base option sets. -/
def BaseOpt.bit : BaseOpt → Nat
  | .basepriority | .parent | .tssession => 0
  | .name => 1
  | .createtime | .usertime | .privilegedtime | .handlecount | .threadcount => 2
  | .pagefaults | .pagefilebytes | .pagefilebytespeak | .poolnonpagedbytes
  | .poolnonpagedbytespeak | .poolpagedbytes | .poolpagedbytespeak | .virtualbytes
  | .virtualbytespeak | .workingset | .workingsetpeak => 3
  | .ioreadops | .iowriteops | .iootherops | .ioreadbytes | .iowritebytes | .iootherbytes => 4

theorem BaseOpt.flag_testBit (b : BaseOpt) : b.flag.testBit b.bit := by
  cases b <;> rfl

/-- The C code returns every field that the flags ask for. -/
theorem base_mem_processFields {b : BaseOpt} {flags : Nat} (set : flags.testBit b.bit) :
    .base b ∈ processFields flags := by
  cases b <;> simp only [BaseOpt.bit] at set <;> simp [processFields, set]

section Command

variable {o : Options} {e : Environment} {targets : List Target}

theorem baseFlags_testBit {i : Nat} :
    o.baseFlags.testBit i ↔ (∃ b ∈ o.baseFields, b.flag.testBit i) ∨
      (o.asksElapsed ∧ (4).testBit i) ∨ (o.asksTids ∧ (32).testBit i) := by
  rw [Options.baseFlags, testBit_foldl_or]
  cases o.asksElapsed <;> cases o.asksTids <;> simp [or_and_right, exists_or]

theorem baseField_mem {b : BaseOpt} (asked : b ∈ o.baseFields) :
    .base b ∈ processFields (o.baseFlags ||| 1) := by
  refine base_mem_processFields ?_
  rw [Nat.testBit_or, Iff.mpr baseFlags_testBit (.inl ⟨b, asked, b.flag_testBit⟩), Bool.true_or]

theorem createtime_mem (asked : o.asksElapsed = true) :
    .base .createtime ∈ processFields (o.baseFlags ||| 1) := by
  refine base_mem_processFields ?_
  have set : o.baseFlags.testBit 2 := Iff.mpr baseFlags_testBit (.inr (.inl ⟨asked, rfl⟩))
  rw [Nat.testBit_or, BaseOpt.bit, set, Bool.true_or]

theorem threads_mem (asked : o.asksTids = true) :
    .threads ∈ processFields (o.baseFlags ||| 1) := by
  have set : o.baseFlags.testBit 5 := Iff.mpr baseFlags_testBit (.inr (.inr ⟨asked, rfl⟩))
  simp [processFields, Nat.testBit_or, set]

/-- Without flags nothing of `Twapi_GetProcessList` is asked for. -/
theorem nothing_of_baseFlags (none : o.baseFlags = 0) :
    o.baseFields = [] ∧ o.asksElapsed = false ∧ o.asksTids = false := by
  have clear : ∀ i, ¬ o.baseFlags.testBit i := by simp [none]
  refine ⟨eq_nil_iff_forall_not_mem.mpr fun b mem => ?_, ?_, ?_⟩
  · exact clear b.bit (Iff.mpr baseFlags_testBit (.inl ⟨b, mem, b.flag_testBit⟩))
  · by_contra asked
    exact clear 2 (Iff.mpr baseFlags_testBit (.inr (.inl ⟨by simpa using asked, rfl⟩)))
  · by_contra asked
    exact clear 5 (Iff.mpr baseFlags_testBit (.inr (.inr ⟨by simpa using asked, rfl⟩)))

/-! ### The records that the other options start from -/

/-- The process that the base values of a target come from. -/
def foundProcess (e : Environment) (targets : List Target) (t : Target) : Option Process :=
  processAt (listed (pidarg targets) e.processes) t.key

def baseValue (o : Options) (e : Environment) (targets : List Target) (t : Target) (b : BaseOpt) :
    Value :=
  match foundProcess e targets t with
  | some p => p.value (.base b)
  | none => o.noexist

/-- `basenoexistvals` -/
def noexistValues (o : Options) : List Value := o.baseFields.map fun _ => o.noexist

theorem baseData_spec (o : Options) (e : Environment) (targets : List Target) :
    ∃ data, baseData o e targets = .ok data ∧
      (∀ t : Target, (data.records t.key).getD (noexistValues o) =
        o.baseFields.map (baseValue o e targets t)) ∧
      (o.asksElapsed ∨ o.asksTids → ∀ t : Target,
        data.raw t.key = (foundProcess e targets t).map fun p =>
          (processFields (o.baseFlags ||| 1)).zip
            ((processFields (o.baseFlags ||| 1)).map p.value)) := by
  by_cases none : o.baseFlags = 0
  · obtain ⟨noFields, noElapsed, noTids⟩ := nothing_of_baseFlags none
    refine ⟨⟨.empty, .empty⟩, by rw [baseData, if_pos none], fun t => ?_, ?_⟩
    · simp [noexistValues, noFields, Dict.empty]
    · simp [noElapsed, noTids]
  · obtain ⟨raw, rawRun, rawGet⟩ := getdict_getProcessList twined (o.baseFlags ||| 1)
      (fun p => rfl) (pidarg targets) e.processes
    obtain ⟨records, recordsRun, recordsGet⟩ := getdict_getProcessList
      (sliced (o.baseFields.map .base)) (o.baseFlags ||| 1)
      (fun p => sliced_map p.value (by simpa using fun b mem => baseField_mem mem))
      (pidarg targets) e.processes
    refine ⟨⟨if o.all || o.elapsedtime || o.tids then raw else .empty,
      if o.baseFields = [] then .empty else records⟩, ?_, fun t => ?_, fun asked t => ?_⟩
    · rw [baseData, if_neg none]
      dsimp only
      rw [rawRun, recordsRun]
      split <;> split <;> rfl
    · by_cases noFields : o.baseFields = []
      · simp [noFields, noexistValues, Dict.empty]
      · simp only [if_neg noFields, recordsGet]
        rw [show processAt (listed (pidarg targets) e.processes) t.key =
          foundProcess e targets t from rfl]
        cases found : foundProcess e targets t with
        | none =>
          have values : baseValue o e targets t = fun _ => o.noexist := by
            funext b
            simp only [baseValue, found]
          rw [values]
          rfl
        | some p =>
          have values : baseValue o e targets t = fun b => p.value (.base b) := by
            funext b
            simp only [baseValue, found]
          rw [values, Option.map_some, Option.getD_some, map_map]
          rfl
    · have reads : (o.all || o.elapsedtime || o.tids) = true := by
        rcases asked with asked | asked <;> simp only [Options.asksElapsed, Options.asksTids,
          Bool.or_eq_true] at asked <;> rcases asked with asked | asked <;> simp [asked]
      simp only [if_pos reads]
      exact rawGet t.key

/-- One turn of the first loop. -/
theorem baseStage_cons (s : Target) (ts : List Target) (records : Records) :
    ∃ next : Records, baseStage o (s :: ts) records = baseStage o ts next ∧
      next s.key = some ((records s.key).getD (noexistValues o) ++ [s.key]) ∧
      ∀ key, key ≠ s.key → next key = records key := by
  cases has : records s.key with
  | some record =>
    refine ⟨dictLappend records s.key s.key, ?_, ?_, fun key other => ?_⟩
    · simp only [baseStage, foldl_cons, has]
    · simpa using dictLappend_get (k := s.key) (v := s.key) has
    · simp [dictLappend, Dict.set, Function.update_of_ne other]
  | none =>
    refine ⟨dictLappend (records.set s.key (noexistValues o)) s.key s.key, ?_, ?_,
      fun key other => ?_⟩
    · simp only [baseStage, foldl_cons, has, noexistValues]
    · simp [dictLappend, Dict.set]
    · simp [dictLappend, Dict.set, Function.update_of_ne other]

theorem baseStage_get_or (key : Value) (ts : List Target) (records : Records) :
    baseStage o ts records key =
      if key ∈ ts.map Target.key then
        some ((records key).getD (noexistValues o) ++
          valuesFor key (ts.map fun s => (s.key, [s.key])))
      else records key := by
  induction ts generalizing records with
  | nil => rfl
  | cons s ts ih =>
    obtain ⟨next, turn, here, elsewhere⟩ := baseStage_cons (o := o) s ts records
    rw [turn, ih]
    by_cases same : key = s.key
    · subst same
      by_cases again : s.key ∈ ts.map Target.key
      · rw [if_pos again, if_pos (by simp), here]
        simp [valuesFor]
      · have none : valuesFor s.key (ts.map fun s => (s.key, [s.key])) = [] := by
          rw [valuesFor, filter_eq_nil_iff.mpr, flatMap_nil]
          rintro item mem
          obtain ⟨t, tMem, rfl⟩ := mem_map.mp mem
          simp only [decide_eq_true_eq]
          exact fun eq => again (mem_map.mpr ⟨t, tMem, eq⟩)
        rw [if_neg again, if_pos (by simp), here]
        simp only [valuesFor] at none
        simp [valuesFor, none]
    · have drop : valuesFor key ((s :: ts).map fun s => (s.key, [s.key])) =
          valuesFor key (ts.map fun s => (s.key, [s.key])) := by
        simp [valuesFor, Ne.symm same]
      rw [elsewhere key same, drop]
      simp only [map_cons, mem_cons, same, false_or]

/-- Each record starts with its base values, and then has the process id once
for every time it is in the list. -/
theorem baseStage_get {records : Records} {t : Target} (mem : t ∈ targets) :
    baseStage o targets records t.key =
      some ((records t.key).getD (noexistValues o) ++
        valuesFor t.key (targets.map fun s => (s.key, [s.key]))) := by
  rw [baseStage_get_or, if_pos (mem_map_of_mem mem)]

end Command

end Twapi.ProcessInfo
