import Twapi.EventText.Texts

/-!
The text of an event does not depend on the events before it, as long as what was put
into the caches for those is what would be looked up for it.

* `yields_eventlogFormatMessage`, `yields_eventlogFormatCategory`,
  `yields_decodeEvent` — with caches that are right, the commands return the texts.
* `run_independent_of_agree` — the whole of a sequence of commands.
-/

namespace Twapi.EventText

open Lib (Memo Yields Ends)

section Commands

variable {R : Resources} {D : Step → Prop}

/-! ### Writing to the caches -/

theorem yields_incr {name : String} (isCounter : name ∈ counters) :
    Yields (Holds R D) (incr name) (.ok ()) := by
  refine .inspect fun w holds => ?_
  rcases found : w.messages name with _ | n | e
  · exact .modify fun t ht => ht.setCounter isCounter _
  · exact .modify fun t ht => ht.setCounter isCounter _
  · exact absurd found (holds.counter name isCounter e)

variable {langid width : Int} {rec : Record} {source s : String} {pf : Option (List String)}
  {o : DecodeOptions} {e : Entry} {w : World} {ds : List Step} {d : Step} {ev : Event}

/-- A source is written to if it stays right with what is added to what it had. -/
theorem yields_setEntry (plain : source ∉ counters) {change : Entry → Entry}
    (fits : ∀ e, EntryFits R D source e → EntryFits R D source (change e)) :
    Yields (Holds R D) (setEntry source change) (.ok ()) := by
  refine .inspect fun w holds => ?_
  rcases found : w.messages source with _ | n | e
  · exact .modify fun t ht => ht.setEntry plain (fits _ (holds.entry source))
  · exact absurd found (holds.source source plain n)
  · exact .modify fun t ht => ht.setEntry plain (fits _ (holds.entry source))

theorem EntryFits.setRegkey (fits : EntryFits R D source e) :
    EntryFits R D source (e.setRegkey (R.findRegkey source)) where
  regkey _ kept := (Option.some.inj kept).symm
  param := fits.param
  message := fits.message
  category := fits.category

theorem EntryFits.setParamstring (fits : EntryFits R D source e) {paramid s : String}
    (found : paramLookup R source langid paramid = some s) :
    EntryFits R D source (e.setParamstring (langid, paramid) s) where
  regkey := fits.regkey
  param l p t kept := by
    by_cases same : (l, p) = (langid, paramid)
    · obtain ⟨rfl, rfl⟩ := Prod.mk.inj same
      simp only [Entry.setParamstring, Function.update_self] at kept
      rw [found, kept]
    · simp only [Entry.setParamstring, Function.update_of_ne same] at kept
      exact fits.param l p t kept
  message := fits.message
  category := fits.category

theorem EntryFits.setFmtstring (fits : EntryFits R D rec.source e)
    (found : fmtLookup R rec width langid = some s)
    (agree : ∀ d, D d → Agree R (.message rec width langid) d) :
    EntryFits R D rec.source (e.setFmtstring (langid, rec.eventid) s) where
  regkey := fits.regkey
  param := fits.param
  message rec' width' langid' mem source t kept := by
    by_cases same : (langid', rec'.eventid) = (langid, rec.eventid)
    · obtain ⟨lang, eventid⟩ := Prod.mk.inj same
      rw [same] at kept
      simp only [Entry.setFmtstring, Function.update_self] at kept
      rw [← Option.some.inj kept]
      exact agree _ mem source.symm lang.symm eventid.symm s found
    · simp only [Entry.setFmtstring, Function.update_of_ne same] at kept
      exact fits.message rec' width' langid' mem source t kept
  category := fits.category

theorem EntryFits.setCategory (fits : EntryFits R D rec.source e)
    (agree : ∀ d, D d → Agree R (.category rec width langid) d) :
    EntryFits R D rec.source
      (e.setCategory (langid, rec.category) (categoryLookup R rec width langid)) where
  regkey := fits.regkey
  param := fits.param
  message := fits.message
  category rec' width' langid' mem source t kept := by
    by_cases same : (langid', rec'.category) = (langid, rec.category)
    · obtain ⟨lang, category⟩ := Prod.mk.inj same
      rw [same] at kept
      simp only [Entry.setCategory, Function.update_self] at kept
      rw [← Option.some.inj kept]
      exact (agree _ mem source.symm lang.symm category.symm).symm
    · simp only [Entry.setCategory, Function.update_of_ne same] at kept
      exact fits.category rec' width' langid' mem source t kept

/-! ### The event log -/

theorem yields_regkeyOf (plain : source ∉ counters) :
    Yields (Holds R D) (regkeyOf R source) (.ok (R.findRegkey source)) := by
  refine .inspect fun w holds => ?_
  cases kept : (w.entry source).regkey with
  | some regkey =>
    have right := (holds.entry source).regkey regkey kept
    subst right
    exact (yields_incr (by decide)).next (.pure _)
  | none =>
    refine (yields_setEntry plain fun e fits => fits.setRegkey).next ?_
    exact (yields_incr (by decide)).next (.pure _)

theorem yields_fmtstringOf (plain : rec.source ∉ counters) (mem : D (.message rec width langid))
    (agree : ∀ d, D d → Agree R (.message rec width langid) d) :
    Yields (Holds R D) (fmtstringOf R rec width langid) (.ok (fmtLookup R rec width langid)) := by
  refine .inspect fun w holds => ?_
  cases kept : (w.entry rec.source).fmtstring (langid, rec.eventid) with
  | some fmtstring =>
    have right := (holds.entry rec.source).message rec width langid mem rfl fmtstring kept
    rw [right]
    exact (yields_incr (by decide)).next (.pure _)
  | none =>
    refine (yields_incr (by decide)).next ?_
    refine (yields_regkeyOf plain).next ?_
    cases path : R.registryGet (R.findRegkey rec.source) "EventMessageFile" with
    | none =>
      have absent : fmtLookup R rec width langid = none := by
        simp only [fmtLookup, fileLookup, path]
      rw [absent]
      exact .pure _
    | some path' =>
      have lookup : fmtLookup R rec width langid = (files path').findSome? fun dll =>
          R.formatModule (R.expand dll) (toString rec.eventid) (some width) langid := by
        simp only [fmtLookup, fileLookup, path]
      dsimp only
      rw [← lookup]
      cases found : fmtLookup R rec width langid with
      | none => exact .pure _
      | some fmtstring =>
        refine (yields_setEntry plain fun e fits => fits.setFmtstring found agree).next ?_
        exact .pure _

theorem yields_paramfilesOf (plain : source ∉ counters) :
    Yields (Holds R D) (paramfilesOf R source) (.ok (paramfiles R source)) := by
  refine (yields_regkeyOf plain).next ?_
  cases path : R.registryGet (R.findRegkey source) "ParameterMessageFile" with
  | none => simpa only [paramfiles, path] using Yields.pure _
  | some path' => simpa only [paramfiles, path] using Yields.pure _

theorem yields_paramfilesOnce (plain : source ∉ counters)
    (listed : ∀ fs ∈ pf, fs = paramfiles R source) :
    Yields (Holds R D) (paramfilesOnce R source pf) (.ok (paramfiles R source)) := by
  cases pf with
  | none => exact yields_paramfilesOf plain
  | some fs =>
    rw [← listed fs rfl]
    exact .pure fs

/-- What `replacement` comes to: the text, and the parameter files if they are listed. -/
def Replaced (R : Resources) (rec : Record) (langid : Int) (found : List Char)
    (r : Except String (String × Option (List String))) : Prop :=
  match r with
  | .ok (repl, pf) =>
    replText R rec langid found = .ok repl ∧ ∀ fs ∈ pf, fs = paramfiles R rec.source
  | .error e => replText R rec langid found = .error e

/-- Formatting the string of a placeholder. -/
theorem ends_formatted {found : List Char} {paramstring : String}
    (lookup : paramLookup R rec.source langid (paramidOf found) = some paramstring)
    (listed : ∀ fs ∈ pf, fs = paramfiles R rec.source) :
    Ends (Holds R D)
      (do
        let repl ← Memo.of (R.formatString paramstring rec.params none)
        return (repl, pf) : Cmd (String × Option (List String)))
      (Replaced R rec langid found) := by
  refine Ends.bind (Yields.of _) (fun repl text => ?_) (fun e text => ?_)
  · refine (Yields.pure (repl, pf)).ends ⟨?_, listed⟩
    simp only [replText, lookup, ← text]
  · simp only [Replaced, replText, lookup, ← text]

theorem ends_replacement (plain : rec.source ∉ counters) (langid : Int)
    (listed : ∀ fs ∈ pf, fs = paramfiles R rec.source) (found : List Char) :
    Ends (Holds R D) (replacement R rec langid pf found) (Replaced R rec langid found) := by
  refine .inspect fun w holds => ?_
  cases kept : (w.entry rec.source).paramstring (langid, paramidOf found) with
  | some paramstring =>
    have lookup := (holds.entry rec.source).param langid (paramidOf found) paramstring kept
    refine .bind (yields_incr (by decide)) (fun _ _ => ?_) (fun _ same => by cases same)
    exact ends_formatted lookup listed
  | none =>
    refine .bind (yields_incr (by decide)) (fun _ _ => ?_) (fun _ same => by cases same)
    refine .bind (yields_paramfilesOnce plain listed) (fun fs same => ?_) (fun _ same => by cases same)
    have right := Except.ok.inj same
    subst right
    have self : ∀ fs ∈ some (paramfiles R rec.source), fs = paramfiles R rec.source :=
      fun _ mem => (Option.some.inj mem).symm
    cases text : (paramfiles R rec.source).findSome? fun paramfile =>
        R.formatModule paramfile (paramidOf found) none langid with
    | none =>
      refine (Yields.pure _).ends ⟨?_, self⟩
      simp only [replText, paramLookup, text, Option.map_none]
    | some text' =>
      have lookup : paramLookup R rec.source langid (paramidOf found) =
          some (trimNewlines text') := by
        simp only [paramLookup, text, Option.map_some]
      refine .bind (yields_setEntry plain fun e fits => fits.setParamstring lookup)
        (fun _ _ => ?_) (fun _ same => by cases same)
      exact ends_formatted lookup self

theorem yields_replaceAll (plain : rec.source ∉ counters) (langid : Int)
    (pieces : List (List Char × List Char)) (listed : ∀ fs ∈ pf, fs = paramfiles R rec.source)
    (msg2 : String) :
    Yields (Holds R D) (replaceAll R rec langid pieces pf msg2)
      (replacedText R rec langid pieces msg2) := by
  induction pieces generalizing pf msg2 with
  | nil => exact .pure msg2
  | cons piece pieces ih =>
    obtain ⟨before, found⟩ := piece
    refine Ends.bind (ends_replacement plain langid listed found) ?_ ?_
    · rintro ⟨repl, pf'⟩ ⟨text, listed'⟩
      rw [replacedText, text]
      exact ih listed' _
    · intro e text
      have thrown : replText R rec langid found = .error e := text
      rw [replacedText, thrown]
      rfl

theorem yields_eventlogFormatMessage (plain : rec.source ∉ counters)
    (mem : D (.message rec width langid)) (agree : ∀ d, D d → Agree R (.message rec width langid) d) :
    Yields (Holds R D) (eventlogFormatMessage R rec width langid)
      (messageText R rec width langid) := by
  refine (yields_fmtstringOf plain mem agree).next ?_
  cases found : fmtLookup R rec width langid with
  | none =>
    simp only [messageText, found]
    exact (yields_incr (by decide)).next (.of _)
  | some fmtstring =>
    simp only [messageText, found]
    refine (Yields.of _).bind fun msg _ => ?_
    by_cases none : (split R msg.toList [] 0).pieces = []
    · simp only [if_pos none]
      exact .pure msg
    · simp only [if_neg none]
      refine (yields_replaceAll plain langid _ (fun _ isNone => by cases isNone) "").bind ?_
      exact fun msg2 _ => .pure _

theorem yields_categoryStringOf (plain : rec.source ∉ counters)
    (mem : D (.category rec width langid))
    (agree : ∀ d, D d → Agree R (.category rec width langid) d) :
    Yields (Holds R D) (categoryStringOf R rec width langid)
      (.ok (categoryLookup R rec width langid)) := by
  refine .inspect fun w holds => ?_
  cases kept : (w.entry rec.source).category (langid, rec.category) with
  | some fmtstring =>
    have right := (holds.entry rec.source).category rec width langid mem rfl fmtstring kept
    rw [right]
    exact (yields_incr (by decide)).next (.pure _)
  | none =>
    refine (yields_incr (by decide)).next ?_
    refine (yields_regkeyOf plain).next ?_
    refine (yields_setEntry plain fun e fits => fits.setCategory agree).next ?_
    exact .pure _

theorem yields_eventlogFormatCategory (plain : rec.source ∉ counters)
    (mem : D (.category rec width langid))
    (agree : ∀ d, D d → Agree R (.category rec width langid) d) :
    Yields (Holds R D) (eventlogFormatCategory R rec width langid)
      (categoryText R rec width langid) := by
  by_cases zero : rec.category = 0
  · simp only [eventlogFormatCategory, categoryText, if_pos zero]
    exact .pure _
  · simp only [eventlogFormatCategory, categoryText, if_neg zero]
    exact (yields_categoryStringOf plain mem agree).next (.of _)

/-! ### Events of the newer kind -/

theorem yields_publisherOf (mem : D (.event o ev)) (agree : ∀ d, D d → Agree R (.event o ev) d) :
    Yields (Holds R D) (publisherOf R o ev) (.ok (metadata R o ev)) := by
  refine .inspect fun w holds => ?_
  cases kept : w.publisherHandles (ev.publisher, o.session, o.lcid) with
  | some hpub =>
    have right := holds.handle o ev mem hpub kept
    rw [right]
    exact .pure hpub
  | none =>
    refine (Yields.modify fun t ht => ht.setHandle ?_).next (Yields.pure _)
    intro o' ev' mem' same
    obtain ⟨publisher, rest⟩ := Prod.mk.inj same
    obtain ⟨session, lcid⟩ := Prod.mk.inj rest
    exact ((agree _ mem' publisher.symm).1 session.symm lcid.symm).symm

theorem yields_nameOf (mem : D (.event o ev)) (agree : ∀ d, D d → Agree R (.event o ev) d)
    {n : NameOpt} (asked : o.names n) :
    Yields (Holds R D) (nameOf R o (metadata R o ev) ev n) (nameText R o ev n) := by
  refine .inspect fun w holds => ?_
  cases kept : w.names n (ev.publisher, n.number ev) with
  | some name =>
    rw [holds.name o ev mem n asked name kept]
    exact .pure name
  | none =>
    have keeps : ∀ name, keptName R o ev n = some name →
        ∀ o' ev', D (.event o' ev') → o'.names n →
          (ev'.publisher, n.number ev') = (ev.publisher, n.number ev) →
            nameText R o' ev' n = .ok name := by
      intro name keptName o' ev' mem' asked' same
      obtain ⟨publisher, number⟩ := Prod.mk.inj same
      exact (agree _ mem' publisher.symm).2 n asked asked' number.symm name keptName
    cases ign : ignored o ev n with
    | some ignorestring =>
      obtain ⟨zero, given⟩ : n.number ev = 0 ∧ o.ignorestring = some ignorestring := by
        simpa [ignored] using ign
      simp only [zero, given, nameText, ign]
      exact .pure ignorestring
    | none =>
      have named : nameText R o ev n = uncached R o (metadata R o ev) ev n.callflag := by
        simp only [nameText, ign]
      rw [named, uncached]
      dsimp only
      split
      · next ignorestring given zero => simp [ignored, given, zero] at ign
      · cases text : R.evtFormatMessage (metadata R o ev) ev o.values n.callflag with
        | ok name =>
          have kept : keptName R o ev n = some name := by
            simp only [keptName, ign, text, Except.toOption]
          refine (Yields.modify fun t ht => ht.setName ?_).next (Yields.pure name)
          exact fun o' ev' mem' => keeps name kept o' ev' mem'
        | error e =>
          cases o.ignorestring with
          | none => exact .throw e
          | some ignorestring => exact .pure ignorestring

theorem yields_decodeEvent (mem : D (.event o ev)) (agree : ∀ d, D d → Agree R (.event o ev) d) :
    Yields (Holds R D) (decodeEvent R o ev) (eventText R o ev) := by
  refine (yields_publisherOf mem agree).next ?_
  refine .bind (.each fun n asked => ?_) fun names _ => ?_
  · exact yields_nameOf mem agree (List.mem_filter.mp asked).2
  · refine .bind (.each fun r _ => ?_) fun rest _ => .pure _
    exact .of r

/-! ### Sequences of commands -/

def Call.steps : Call → List Step
  | .formatMessage rec width langid => [.message rec width langid]
  | .formatCategory rec width langid => [.category rec width langid]
  | .decodeEvents o events => events.map (.event o)

/-- What a command returns, without caches. -/
def Call.text (R : Resources) : Call → Reply
  | .formatMessage rec width langid => .text (messageText R rec width langid)
  | .formatCategory rec width langid => .text (categoryText R rec width langid)
  | .decodeEvents o events => .events (events.mapM (eventText R o))

/-- The steps to come agree, and the caches are right for them. -/
structure Ready (R : Resources) (ds : List Step) (w : World) : Prop where
  plain : ∀ d ∈ ds, d.Plain
  agree : ds.Pairwise (Agree R)
  holds : Holds R (· ∈ ds) w

theorem Ready.tail (ready : Ready R (d :: ds) w) :
    Ready R ds w where
  plain e mem := ready.plain e (List.mem_cons_of_mem d mem)
  agree := ready.agree.of_cons
  holds := ready.holds.mono fun _ mem => List.mem_cons_of_mem d mem

theorem Ready.head (ready : Ready R (d :: ds) w) :
    ∀ e ∈ d :: ds, Agree R d e := by
  intro e mem
  rcases List.mem_cons.mp mem with rfl | later
  · exact agree_self R _
  · exact List.rel_of_pairwise_cons ready.agree later

/-- The first of the steps to come leaves the caches right for the others. -/
theorem yields_of_ready {α : Type} {p : Cmd α} {r : Except String α}
    (spec : d.Plain → (∀ e ∈ d :: ds, Agree R d e) → Yields (Holds R (· ∈ d :: ds)) p r) :
    Yields (Ready R (d :: ds)) p r := by
  intro w ready
  obtain ⟨result, keeps⟩ := spec (ready.plain d List.mem_cons_self) ready.head w ready.holds
  exact ⟨result, ready.plain, ready.agree, keeps⟩

/-- One command of a sequence. -/
theorem run_call {c : Call} {later : List Step} (ready : Ready R (c.steps ++ later) w) :
    (c.run R w).1 = c.text R ∧ Ready R later (c.run R w).2 := by
  cases c with
  | formatMessage rec width langid =>
    have spec : Yields (Ready R (.message rec width langid :: later))
        (eventlogFormatMessage R rec width langid) (messageText R rec width langid) :=
      yields_of_ready fun plain agree =>
        yields_eventlogFormatMessage plain List.mem_cons_self agree
    obtain ⟨result, keeps⟩ := spec w ready
    exact ⟨congrArg Reply.text result, keeps.tail⟩
  | formatCategory rec width langid =>
    have spec : Yields (Ready R (.category rec width langid :: later))
        (eventlogFormatCategory R rec width langid) (categoryText R rec width langid) :=
      yields_of_ready fun plain agree =>
        yields_eventlogFormatCategory plain List.mem_cons_self agree
    obtain ⟨result, keeps⟩ := spec w ready
    exact ⟨congrArg Reply.text result, keeps.tail⟩
  | decodeEvents o events =>
    obtain ⟨result, keeps⟩ := Lib.each_of_remaining
      (I := fun evs => Ready R (evs.map (.event o) ++ later)) (f := decodeEvent R o)
      (fun ev evs => yields_of_ready fun _ agree =>
        yields_decodeEvent List.mem_cons_self agree)
      (fun ev evs t ready => ready.tail) events w ready
    exact ⟨congrArg Reply.events result, keeps⟩

/-- A sequence of commands returns the texts, when the steps agree. -/
theorem run_eq_map_text {calls : List Call} (ready : Ready R (calls.flatMap Call.steps) w) :
    run R calls w = calls.map (Call.text R) := by
  induction calls generalizing w with
  | nil => rfl
  | cons c cs ih =>
    obtain ⟨result, keeps⟩ := run_call ready
    rw [run, List.map_cons, result, ih keeps]

theorem ready_init_singleton (plain : d.Plain) : Ready R [d] .init where
  plain _ mem := List.mem_singleton.mp mem ▸ plain
  agree := List.pairwise_singleton _ _
  holds := holds_init

/-- A command returns the texts as well when nothing was formatted before. -/
theorem alone_eq_text {c : Call} (plain : ∀ d ∈ c.steps, d.Plain) : c.alone R = c.text R := by
  cases c with
  | formatMessage rec width langid =>
    exact (run_call (c := .formatMessage rec width langid)
      (ready_init_singleton (plain _ List.mem_cons_self))).1
  | formatCategory rec width langid =>
    exact (run_call (c := .formatCategory rec width langid)
      (ready_init_singleton (plain _ List.mem_cons_self))).1
  | decodeEvents o events =>
    have one : ∀ ev, (decodeEvent R o ev .init).1 = eventText R o ev := by
      intro ev
      have ready : Ready R [.event o ev] .init := ready_init_singleton trivial
      exact (yields_decodeEvent List.mem_cons_self ready.head .init ready.holds).1
    simp only [Call.alone, Call.text, one]

end Commands

/-! ### Two languages -/

/-- A machine whose publishers name their levels in the language of the handle. -/
def twoLanguages : Resources where
  findRegkey source := source
  registryGet _ _ := none
  expand path := path
  formatModule _ _ _ _ := none
  formatString fmt _ _ := .ok fmt
  isDigit := Char.isDigit
  openPublisher _ _ _ lcid := some lcid.toNat
  evtFormatMessage hpub _ _ _ := .ok (if hpub = some 1031 then "Fehler" else "Error")
  decodeUserdata _ := .error "no user data"

/-- `-levelname -lcid $lcid` -/
def levelnameIn (lcid : Int) : DecodeOptions where
  values := "NULL"
  session := "NULL"
  logfile := ""
  lcid := lcid
  ignorestring := none
  names n := n = .levelname
  keywords := false
  xml := false
  message := false

def diskError : Event := ⟨[], "disk", 2, 0, 0, 1⟩

end Twapi.EventText
