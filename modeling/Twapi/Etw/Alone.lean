import Twapi.Etw.Format

/-!
A record depends on its event alone, or not, in every run of
`_etw_format_mof_events`.

* `allDefs` — the definitions that WMI has, `Defined` the events that have one.
* `alone` — the record of an event when nothing was formatted before it.
* `Cached` — what the cache holds after some events were formatted: for a GUID
  the definitions of WMI, nothing, or the empty entry that an event without a
  definition has left.
* `formatEvent_alone_iff` — one event: its record is `alone` unless such an entry
  is in the way.
* `format_alone_iff` — runs.
-/

namespace Twapi.Etw

open List Function

section Alone

variable {Guid : Type}

/-! ### Names of classes -/

/-- No class in the cache is without a name. -/
def Named (versions : Option Versions) : Prop :=
  ∀ below ∈ versions, ∀ version, ∀ classdef ∈ below version, classdef.classname ≠ ""

variable {event : MofEvent Guid} {defs : EventDefs Guid} {events : List (MofEvent Guid)}
  {bufdesc : BufDesc} {classdef : ClassDef}

theorem MofClass.classname_parse {cls : MofClass Guid} (parsed : cls.parse = some classdef) :
    classdef.classname = cls.classname := by
  unfold MofClass.parse at parsed
  split at parsed
  · cases parsed
  · cases parsed
    rfl

/-! ### Definitions -/

theorem definition_congr {defs defs' : EventDefs Guid} (same : defs event.guid = defs' event.guid) :
    definition defs event = definition defs' event := by
  unfold definition definitionIn
  rw [same]

theorem definition_of_none (absent : defs event.guid = none) : definition defs event = none := by
  unfold definition definitionIn
  rw [absent]
  rfl

theorem definition_of_empty (empty : defs event.guid = some .empty) :
    definition defs event = none := by
  unfold definition definitionIn
  rw [empty]
  rfl

theorem classname_of_definitionIn {version : String} {mof : EventType}
    (named : Named (defs event.guid))
    (found : definitionIn defs event version = some (classdef, mof)) : classdef.classname ≠ "" := by
  simp only [definitionIn, Option.bind_eq_bind, Option.bind_eq_some_iff, Option.pure_def,
    Option.some.injEq, Prod.mk.injEq] at found
  obtain ⟨below, inGuid, classdef', inVersion, mof', -, rfl, -⟩ := found
  exact named below inGuid version classdef' inVersion

theorem classname_of_definition {mof : EventType} (named : Named (defs event.guid))
    (found : definition defs event = some (classdef, mof)) : classdef.classname ≠ "" := by
  rcases Option.or_eq_some_iff.mp (Option.orElse_eq_or.symm.trans found) with exact_ | ⟨-, unversioned⟩
  · exact classname_of_definitionIn named exact_
  · exact classname_of_definitionIn named unversioned

/-! ### Loading, for each GUID apart -/

/-- What loading a class does below its GUID. -/
def loadBelow (versions : Option Versions) (cls : MofClass Guid) : Option Versions :=
  match cls.parse with
  | none => versions
  | some classdef => some (Versions.put versions cls.version classdef)

variable {versions : Option Versions}

theorem Named.loadBelow (named : Named versions) (cls : MofClass Guid) :
    Named (loadBelow versions cls) := by
  unfold Etw.loadBelow
  cases parsed : cls.parse with
  | none => exact named
  | some loaded =>
    rintro below ⟨⟩ version classdef found
    by_cases same : version = cls.version
    · rw [same, Versions.put, update_self] at found
      cases found
      rw [MofClass.classname_parse parsed]
      exact cls.named
    · rw [Versions.put, update_of_ne same] at found
      cases versions with
      | none => cases found
      | some below => exact named below rfl version classdef found

theorem named_foldl (classes : List (MofClass Guid)) (named : Named versions) :
    Named (classes.foldl loadBelow versions) := by
  induction classes generalizing versions with
  | nil => exact named
  | cons cls classes ih => exact ih (named.loadBelow cls)

theorem mem_missing {guid : Guid} :
    guid ∈ missing defs events ↔ (∃ event ∈ events, event.guid = guid) ∧ defs guid = none := by
  simp only [missing, mem_filter, mem_map, Option.isNone_iff_eq_none]

variable [DecidableEq Guid]

theorem loadMofEventClassObj_apply (defs : EventDefs Guid) (cls : MofClass Guid) (guid : Guid) :
    loadMofEventClassObj defs cls guid =
      if cls.guid = guid then loadBelow (defs guid) cls else defs guid := by
  unfold loadMofEventClassObj loadBelow
  cases cls.parse with
  | none => exact (ite_self _).symm
  | some classdef =>
    by_cases same : cls.guid = guid
    · subst same
      simp only [update_self, if_true]
    · rw [if_neg same]
      exact update_of_ne (Ne.symm same) _ _

theorem foldl_load_apply (classes : List (MofClass Guid)) (defs : EventDefs Guid) (guid : Guid) :
    classes.foldl loadMofEventClassObj defs guid =
      (classes.filter fun cls => cls.guid = guid).foldl loadBelow (defs guid) := by
  induction classes generalizing defs with
  | nil => rfl
  | cons cls classes ih =>
    rw [foldl_cons, ih, loadMofEventClassObj_apply]
    by_cases same : cls.guid = guid
    · rw [if_pos same, filter_cons_of_pos (by simpa using same), foldl_cons]
    · rw [if_neg same, filter_cons_of_neg (by simpa using same)]

/-- The definitions of all classes. -/
def allDefs (wmi : List (MofClass Guid)) : EventDefs Guid := loadMofEventClasses wmi [] noDefs

theorem allDefs_apply (wmi : List (MofClass Guid)) (guid : Guid) :
    allDefs wmi guid = (wmi.filter fun cls => cls.guid = guid).foldl loadBelow none :=
  foldl_load_apply wmi noDefs guid

/-- What is missing is loaded, and the rest is as it was. -/
theorem loadMissing_apply (wmi : List (MofClass Guid)) (defs : EventDefs Guid)
    (events : List (MofEvent Guid)) (guid : Guid) :
    loadMissing wmi defs events guid =
      if guid ∈ missing defs events then allDefs wmi guid else defs guid := by
  unfold loadMissing
  split
  case isTrue nothing => rw [nothing, if_neg not_mem_nil]
  case isFalse some_ =>
    rw [loadMofEventClasses, if_neg some_, foldl_load_apply, filter_filter]
    by_cases among : guid ∈ missing defs events
    · rw [if_pos among, allDefs_apply, (mem_missing.mp among).2]
      congr 1
      apply filter_congr
      intro cls _
      by_cases same : cls.guid = guid
      · simp only [same, among, decide_true, Bool.and_self]
      · simp only [same, decide_false, Bool.false_and]
    · rw [if_neg among]
      have none_ : (wmi.filter fun cls =>
          decide (cls.guid = guid) && decide (cls.guid ∈ missing defs events)) = [] := by
        apply filter_eq_nil_iff.mpr
        intro cls _ both
        obtain ⟨same, wanted⟩ : cls.guid = guid ∧ cls.guid ∈ missing defs events := by
          simpa using both
        exact among (same ▸ wanted)
      rw [none_, foldl_nil]

theorem named_allDefs (wmi : List (MofClass Guid)) (guid : Guid) : Named (allDefs wmi guid) := by
  rw [allDefs_apply]
  apply named_foldl
  intro below absent
  cases absent

/-! ### One event -/

variable (T : Base.Tcl) (h : Host) (W : Conversions) (wmi : List (MofClass Guid))

/-- WMI has a definition of the event. -/
def Defined (event : MofEvent Guid) : Bool := (definition (allDefs wmi) event).isSome

/-- The record of an event that is formatted first of all. -/
def alone (bufdesc : BufDesc) (event : MofEvent Guid) : Except String (FormattedEvent Guid) :=
  (formatEvent T h W bufdesc event (loadMissing wmi noDefs [event])).1

/-- The record of an event, given its definition. -/
def formatWith (bufdesc : BufDesc) (event : MofEvent Guid) :
    Option (ClassDef × EventType) → Except String (FormattedEvent Guid)
  | some (classdef, mof) => formatDefined T h W bufdesc event classdef mof
  | none =>
    .ok (recordOf bufdesc event "" (toString event.type)
      [("_mofdata", .bytes event.data.bytes)])

/-- No class name is found for an event without a definition. -/
theorem formatUndefined_fst (bufdesc : BufDesc) (event : MofEvent Guid) (defs : EventDefs Guid) :
    Except.ok (formatUndefined bufdesc event defs).1 = formatWith T h W bufdesc event none := by
  unfold formatUndefined formatWith classnameIn
  simp only [update_self]
  rfl

theorem formatEvent_fst (bufdesc : BufDesc) (event : MofEvent Guid) (defs : EventDefs Guid) :
    (formatEvent T h W bufdesc event defs).1 =
      formatWith T h W bufdesc event (definition defs event) := by
  unfold formatEvent
  cases definition defs event with
  | none => exact formatUndefined_fst T h W bufdesc event defs
  | some found => rfl

theorem formatEvent_snd_of_some (found : (definition defs event).isSome) :
    (formatEvent T h W bufdesc event defs).2 = defs := by
  unfold formatEvent
  cases known : definition defs event with
  | none => rw [known] at found; cases found
  | some found => rfl

theorem formatEvent_snd_of_none (undefined : definition defs event = none) :
    (formatEvent T h W bufdesc event defs).2 =
      Function.update defs event.guid (some .empty) := by
  unfold formatEvent
  rw [undefined]
  rfl

theorem alone_eq (bufdesc : BufDesc) (event : MofEvent Guid) :
    alone T h W wmi bufdesc event =
      formatWith T h W bufdesc event (definition (allDefs wmi) event) := by
  have loaded : loadMissing wmi noDefs [event] event.guid = allDefs wmi event.guid := by
    rw [loadMissing_apply, if_pos (mem_missing.mpr ⟨⟨event, mem_singleton_self _, rfl⟩, rfl⟩)]
  rw [alone, formatEvent_fst, definition_congr loaded]

/-- With its definition an event is formatted as a member of a class, and a class
has a name. -/
theorem formatWith_ne (defined : Defined wmi event) :
    formatWith T h W bufdesc event none ≠
      formatWith T h W bufdesc event (definition (allDefs wmi) event) := by
  obtain ⟨⟨classdef, mof⟩, found⟩ := Option.isSome_iff_exists.mp defined
  have named := classname_of_definition (named_allDefs wmi event.guid) found
  rw [found]
  intro same
  simp only [formatWith, formatDefined] at same
  split at same
  case h_1 => cases same
  case h_2 =>
    apply named
    exact (congrArg FormattedEvent.providername (Except.ok.inj same)).symm

/-! ### The cache -/

/-- One of the events has the GUID and no definition. -/
def Spoilt (before : List (MofEvent Guid)) (guid : Guid) : Prop :=
  ∃ event ∈ before, event.guid = guid ∧ Defined wmi event = false

/-- The cache after some events. -/
def Cached (before : List (MofEvent Guid)) (defs : EventDefs Guid) : Prop :=
  ∀ guid, Spoilt wmi before guid ∧ defs guid = some .empty ∨
    ¬ Spoilt wmi before guid ∧ (defs guid = none ∨ defs guid = allDefs wmi guid)

/-- What of some events is to be had from WMI is there. -/
def Loaded (events : List (MofEvent Guid)) (defs : EventDefs Guid) : Prop :=
  ∀ event ∈ events, defs event.guid = none → allDefs wmi event.guid = none

variable {wmi}

theorem cached_nil : Cached wmi [] (noDefs : EventDefs Guid) := by
  intro guid
  right
  constructor
  · rintro ⟨event, among, -⟩
    cases among
  · exact .inl rfl

theorem Cached.loadMissing {before events : List (MofEvent Guid)} (cached : Cached wmi before defs) :
    Cached wmi before (loadMissing wmi defs events) := by
  intro guid
  rw [loadMissing_apply]
  split
  case isTrue among =>
    rcases cached guid with ⟨-, empty⟩ | ⟨clean, -⟩
    · rw [(mem_missing.mp among).2] at empty
      cases empty
    · exact .inr ⟨clean, .inr rfl⟩
  case isFalse => exact cached guid

theorem loaded_loadMissing (events : List (MofEvent Guid)) (defs : EventDefs Guid) :
    Loaded wmi events (loadMissing wmi defs events) := by
  intro event among absent
  rw [loadMissing_apply] at absent
  split at absent
  case isTrue => exact absent
  case isFalse there => exact absurd (mem_missing.mpr ⟨⟨event, among, rfl⟩, absent⟩) there

/-- Where nothing is in the way, the definition found is the one WMI has. -/
theorem Cached.definition_eq {before : List (MofEvent Guid)} (cached : Cached wmi before defs)
    (loaded : Loaded wmi [event] defs) (clean : ¬ Spoilt wmi before event.guid) :
    definition defs event = definition (allDefs wmi) event := by
  rcases cached event.guid with ⟨spoilt, -⟩ | ⟨-, absent | whole⟩
  · exact absurd spoilt clean
  · rw [definition_of_none absent,
      definition_of_none (loaded event (mem_singleton_self _) absent)]
  · exact definition_congr whole

theorem Cached.definition_none {before : List (MofEvent Guid)} (cached : Cached wmi before defs)
    (spoilt : Spoilt wmi before event.guid) : definition defs event = none := by
  rcases cached event.guid with ⟨-, empty⟩ | ⟨clean, -⟩
  · exact definition_of_empty empty
  · exact absurd spoilt clean

theorem formatEvent_alone_iff (bufdesc : BufDesc) {before : List (MofEvent Guid)}
    (cached : Cached wmi before defs) (loaded : Loaded wmi [event] defs) :
    (formatEvent T h W bufdesc event defs).1 = alone T h W wmi bufdesc event ↔
      (Spoilt wmi before event.guid → Defined wmi event = false) := by
  rw [formatEvent_fst, alone_eq]
  by_cases spoilt : Spoilt wmi before event.guid
  · rw [cached.definition_none spoilt]
    constructor
    · intro same _
      by_contra defined
      exact formatWith_ne T h W wmi (Bool.eq_true_of_not_eq_false defined) same
    · intro undefined
      rw [Option.isSome_eq_false_iff.mp (undefined spoilt) |> Option.isNone_iff_eq_none.mp]
  · rw [cached.definition_eq loaded spoilt]
    constructor
    · intro _ there
      exact absurd there spoilt
    · intro _
      rfl

theorem spoilt_snoc {before : List (MofEvent Guid)} {guid : Guid} :
    Spoilt wmi (before ++ [event]) guid ↔
      Spoilt wmi before guid ∨ event.guid = guid ∧ Defined wmi event = false := by
  simp only [Spoilt, mem_append, mem_singleton, or_and_right, exists_or, exists_eq_left]

theorem Cached.formatEvent (bufdesc : BufDesc) {before : List (MofEvent Guid)}
    (cached : Cached wmi before defs) (loaded : Loaded wmi [event] defs) :
    Cached wmi (before ++ [event]) (formatEvent T h W bufdesc event defs).2 := by
  intro guid
  rw [spoilt_snoc]
  cases found : definition defs event with
  | some known =>
    rw [formatEvent_snd_of_some T h W (by rw [found]; rfl)]
    have clean : ¬ Spoilt wmi before event.guid := by
      intro spoilt
      rw [cached.definition_none spoilt] at found
      cases found
    have defined : Defined wmi event = true := by
      rw [Defined, ← cached.definition_eq loaded clean, found]
      rfl
    simpa only [defined, Bool.true_eq_false, and_false, or_false] using cached guid
  | none =>
    rw [formatEvent_snd_of_none T h W found]
    by_cases same : event.guid = guid
    · subst same
      left
      constructor
      · by_cases spoilt : Spoilt wmi before event.guid
        · exact .inl spoilt
        · right
          constructor
          · rfl
          · rw [Defined, ← cached.definition_eq loaded spoilt, found]
            rfl
      · exact update_self _ _ _
    · rw [update_of_ne (Ne.symm same)]
      simpa only [same, false_and, or_false] using cached guid

theorem Loaded.formatEvent (loaded : Loaded wmi events defs) :
    Loaded wmi events (formatEvent T h W bufdesc event defs).2 := by
  intro later among absent
  apply loaded later among
  cases found : definition defs event with
  | some known => rwa [formatEvent_snd_of_some T h W (by rw [found]; rfl)] at absent
  | none =>
    rw [formatEvent_snd_of_none T h W found] at absent
    by_cases same : later.guid = event.guid
    · rw [same, update_self] at absent
      cases absent
    · rwa [update_of_ne same] at absent

/-! ### Runs -/

variable (wmi)

/-- The first event does not spoil the second. -/
def Harmless (event later : MofEvent Guid) : Prop :=
  event.guid = later.guid → Defined wmi later = true → Defined wmi event = true

/-- The events of a call up to the first that cannot be parsed. -/
def reached (bufdesc : BufDesc) : List (MofEvent Guid) → List (MofEvent Guid)
  | [] => []
  | event :: events =>
    match alone T h W wmi bufdesc event with
    | .error _ => [event]
    | .ok _ => event :: reached bufdesc events

def visitedEvents (calls : List (Call Guid)) : List (MofEvent Guid) :=
  calls.flatMap fun call => reached T h W wmi call.1 call.2

/-- Every record is the one of its event alone. -/
def Faithful (formatted : List (Formatted Guid)) : Prop :=
  ∀ f ∈ formatted, f.record = alone T h W wmi f.bufdesc f.event

variable {wmi}

theorem spoilt_iff {before : List (MofEvent Guid)} :
    (Spoilt wmi before event.guid → Defined wmi event = false) ↔
      ∀ earlier ∈ before, Harmless wmi earlier event := by
  constructor
  · intro undefined earlier among same defined
    by_contra spoils
    have := undefined ⟨earlier, among, same, Bool.eq_false_of_not_eq_true spoils⟩
    rw [defined] at this
    cases this
  · rintro harmless ⟨earlier, among, same, undefined⟩
    apply Bool.eq_false_of_not_eq_true
    intro defined
    rw [harmless earlier among same defined] at undefined
    cases undefined

theorem reached_cons (bufdesc : BufDesc) (event : MofEvent Guid) (events : List (MofEvent Guid)) :
    ∃ rest, reached T h W wmi bufdesc (event :: events) = event :: rest := by
  unfold reached
  split
  · exact ⟨[], rfl⟩
  · exact ⟨_, rfl⟩

theorem formatLoop_cons (bufdesc : BufDesc) (event : MofEvent Guid)
    (events : List (MofEvent Guid)) (defs : EventDefs Guid) :
    ∃ rest, (formatLoop T h W bufdesc (event :: events) defs).1 =
      ⟨bufdesc, event, (formatEvent T h W bufdesc event defs).1⟩ :: rest := by
  rw [formatLoop]
  cases (formatEvent T h W bufdesc event defs).1 with
  | error message => exact ⟨[], rfl⟩
  | ok record => exact ⟨_, rfl⟩

theorem faithful_cons {f : Formatted Guid} {rest : List (Formatted Guid)} :
    Faithful T h W wmi (f :: rest) ↔
      f.record = alone T h W wmi f.bufdesc f.event ∧ Faithful T h W wmi rest :=
  forall_mem_cons

theorem faithful_nil : Faithful T h W wmi ([] : List (Formatted Guid)) := by
  intro f among
  cases among

/-- By induction on the events that are left, with the ones before them: the cache
is `Cached`, as long as all records were faithful. -/
theorem formatLoop_faithful_iff (bufdesc : BufDesc) :
    ∀ {before : List (MofEvent Guid)} {defs : EventDefs Guid}, Cached wmi before defs →
      Loaded wmi events defs → before.Pairwise (Harmless wmi) →
      let formatted := formatLoop T h W bufdesc events defs
      let after := before ++ reached T h W wmi bufdesc events
      (Faithful T h W wmi formatted.1 ↔ after.Pairwise (Harmless wmi)) ∧
        (after.Pairwise (Harmless wmi) → Cached wmi after formatted.2) := by
  induction events with
  | nil =>
    intro before defs cached _ harmless
    rw [reached, append_nil]
    constructor
    · constructor
      · intro _
        exact harmless
      · intro _ f among
        cases among
    · intro _
      exact cached
  | cons event events ih =>
    intro before defs cached loaded harmless formatted after
    have here : Loaded wmi [event] defs := by
      intro only among
      exact loaded only (mem_cons.mpr (.inl (mem_singleton.mp among)))
    have later : Loaded wmi events (formatEvent T h W bufdesc event defs).2 := by
      apply Loaded.formatEvent
      intro other among
      exact loaded other (mem_cons_of_mem _ among)
    have next := cached.formatEvent T h W bufdesc here
    have step := formatEvent_alone_iff T h W bufdesc cached here
    rw [spoilt_iff] at step
    by_cases fits : ∀ earlier ∈ before, Harmless wmi earlier event
    case neg =>
      -- The record is wrong already, and so is the order.
      have spoils : ¬ after.Pairwise (Harmless wmi) := by
        intro ordered
        have starts : ∃ rest, reached T h W wmi bufdesc (event :: events) = event :: rest :=
          reached_cons T h W bufdesc event events
        obtain ⟨rest, starts⟩ := starts
        rw [show after = before ++ (event :: rest) from congrArg _ starts] at ordered
        apply fits
        intro earlier among
        exact (pairwise_append.mp ordered).2.2 earlier among event mem_cons_self
      constructor
      · constructor
        · intro faithful
          obtain ⟨rest, starts⟩ := formatLoop_cons T h W bufdesc event events defs
          rw [show formatted.1 = _ from starts, faithful_cons] at faithful
          exact absurd (step.mp faithful.1) fits
        · intro ordered
          exact absurd ordered spoils
      · intro ordered
        exact absurd ordered spoils
    case pos =>
      have same := step.mpr fits
      have grown : (before ++ [event]).Pairwise (Harmless wmi) := by
        apply pairwise_append.mpr
        refine ⟨harmless, pairwise_singleton _ _, ?_⟩
        intro earlier among only isEvent
        rw [mem_singleton.mp isEvent]
        exact fits earlier among
      cases record : alone T h W wmi bufdesc event with
      | error message =>
        have stops : after = before ++ [event] := by
          simp only [after, reached, record]
        have formatted_eq : formatted =
            ([⟨bufdesc, event, .error message⟩], (formatEvent T h W bufdesc event defs).2) := by
          simp only [formatted, formatLoop, same, record]
        rw [formatted_eq, stops, faithful_cons]
        constructor
        · constructor
          · intro _
            exact grown
          · intro _
            exact ⟨record.symm, faithful_nil T h W⟩
        · intro _
          exact next
      | ok record' =>
        have goes : after = before ++ [event] ++ reached T h W wmi bufdesc events := by
          simp only [after, reached, record, append_assoc, singleton_append]
        have formatted_eq : formatted =
            let rest := formatLoop T h W bufdesc events (formatEvent T h W bufdesc event defs).2
            (⟨bufdesc, event, .ok record'⟩ :: rest.1, rest.2) := by
          simp only [formatted, formatLoop, same, record]
        obtain ⟨faithful_iff, cachedAfter⟩ := ih next later grown
        rw [formatted_eq, goes, faithful_cons]
        constructor
        · rw [← faithful_iff]
          constructor
          · exact And.right
          · intro rest
            exact ⟨record.symm, rest⟩
        · exact cachedAfter

theorem formatCalls_faithful_iff (calls : List (Call Guid)) :
    ∀ {before : List (MofEvent Guid)} {defs : EventDefs Guid}, Cached wmi before defs →
      before.Pairwise (Harmless wmi) →
      (Faithful T h W wmi (formatCalls T h W wmi calls defs) ↔
        (before ++ visitedEvents T h W wmi calls).Pairwise (Harmless wmi)) := by
  induction calls with
  | nil =>
    intro before defs _ harmless
    rw [visitedEvents, flatMap_nil, append_nil]
    constructor
    · intro _
      exact harmless
    · intro _
      exact faithful_nil T h W
  | cons call calls ih =>
    intro before defs cached harmless
    have ⟨faithful_iff, cachedAfter⟩ := formatLoop_faithful_iff T h W call.1
      cached.loadMissing (loaded_loadMissing call.2 defs) harmless
    have split_ : Faithful T h W wmi (formatCalls T h W wmi (call :: calls) defs) ↔
        Faithful T h W wmi (formatMofEvents T h W wmi call.1 call.2 defs).1 ∧
          Faithful T h W wmi
            (formatCalls T h W wmi calls (formatMofEvents T h W wmi call.1 call.2 defs).2) :=
      forall_mem_append
    rw [split_, visitedEvents, flatMap_cons, ← append_assoc]
    constructor
    · rintro ⟨first, rest⟩
      have ordered := faithful_iff.mp first
      exact (ih (cachedAfter ordered) ordered).mp rest
    · intro ordered
      have prefix_ := (pairwise_append.mp ordered).1
      exact ⟨faithful_iff.mpr prefix_, (ih (cachedAfter prefix_) prefix_).mpr ordered⟩

/-- The records of all calls are those of the events alone, exactly where no event
without a definition goes before one that has one and the same GUID. -/
theorem format_alone_iff (wmi : List (MofClass Guid)) (calls : List (Call Guid)) :
    (∀ f ∈ formatCalls T h W wmi calls noDefs, f.record = alone T h W wmi f.bufdesc f.event) ↔
      (visitedEvents T h W wmi calls).Pairwise (Harmless wmi) := by
  have cached : Cached wmi [] (noDefs : EventDefs Guid) := cached_nil
  have iff_ := formatCalls_faithful_iff T h W calls cached .nil
  rwa [nil_append] at iff_

/-- One class, with one event type; an event of another type goes before one of
this type. -/
theorem unknown_event_spoils :
    ¬ ∀ (T : Base.Tcl) (h : Host) (W : Conversions) (wmi : List (MofClass Nat))
      (calls : List (Call Nat)), ∀ f ∈ formatCalls T h W wmi calls noDefs,
        f.record = alone T h W wmi f.bufdesc f.event := by
  intro faithful
  let T : Base.Tcl :=
    ⟨fun _ => some [], fun s => if s = "8" then some 8 else none, id, id⟩
  let W : Conversions := ⟨fun _ => "", fun _ => none, fun _ => "", fun _ => none⟩
  let wmi : List (MofClass Nat) :=
    [⟨7, "2", "Process", by decide, [("1", ⟨"Start", ""⟩)]⟩]
  let event (type : Nat) : MofEvent Nat :=
    ⟨7, 2, type, 0, 0, 4, 4, 0, 0, 0, ⟨[], by decide, fun _ => 0⟩⟩
  let bufdesc : BufDesc := ⟨1, 0, "8"⟩
  have wrong : ¬ ∀ f ∈ formatCalls T .x64 W wmi [(bufdesc, [event 9, event 1])] noDefs,
      f.record = alone T .x64 W wmi f.bufdesc f.event := by
    decide
  exact wrong (faithful T .x64 W wmi [(bufdesc, [event 9, event 1])])

end Alone

end Twapi.Etw
