import Twapi.EventText.Model
import Twapi.Lib.Table

/-!
What the commands that format events make of the resources alone, and when the
caches say the same.

* `fmtLookup`, `messageText`, `eventText` and the others — the texts, without caches.
* `Agree` — a later step may use what an earlier one put into the caches.
* `Holds` — what is in the caches is right for the steps to come.
* `Holds.setEntry`, `Holds.setHandle`, `Holds.setName` — a cache that is written to.
-/

namespace Twapi.EventText

open Lib (Memo Yields Ends)

section Texts

variable (R : Resources)

/-! ### Texts without caches -/

/-- The first of the files in a value of the registry that has the message. -/
def fileLookup (rec : Record) (value : String) (messageid : Int) (width langid : Int) :
    Option String :=
  match R.registryGet (R.findRegkey rec.source) value with
  | none => none
  | some path => (files path).findSome? fun dll =>
    R.formatModule (R.expand dll) (toString messageid) (some width) langid

def fmtLookup (rec : Record) (width langid : Int) : Option String :=
  fileLookup R rec "EventMessageFile" rec.eventid width langid

def categoryLookup (rec : Record) (width langid : Int) : String :=
  (fileLookup R rec "CategoryMessageFile" rec.category width langid).getD
    ("Category " ++ toString rec.category)

def paramfiles (source : String) : List String :=
  match R.registryGet (R.findRegkey source) "ParameterMessageFile" with
  | none => []
  | some path => (files path).map R.expand

def paramLookup (source : String) (langid : Int) (paramid : String) : Option String :=
  ((paramfiles R source).findSome? fun paramfile =>
    R.formatModule paramfile paramid none langid).map trimNewlines

def replText (rec : Record) (langid : Int) (found : List Char) : Except String String :=
  match paramLookup R rec.source langid (paramidOf found) with
  | none => .ok (String.ofList found)
  | some paramstring => R.formatString paramstring rec.params none

def replacedText (rec : Record) (langid : Int) :
    (pieces : List (List Char × List Char)) → (msg2 : String) → Except String String
  | [], msg2 => .ok msg2
  | (before, found) :: pieces, msg2 => do
      let repl ← replText R rec langid found
      replacedText rec langid pieces (msg2 ++ String.ofList before ++ repl)

def messageText (rec : Record) (width langid : Int) : Except String String :=
  match fmtLookup R rec width langid with
  | none => R.formatString (notFoundMessage rec) rec.params (some width)
  | some fmtstring => do
      let msg ← R.formatString fmtstring rec.params none
      let parts := split R msg.toList [] 0
      if parts.pieces = [] then return msg
      else do
        let msg2 ← replacedText R rec langid parts.pieces ""
        return msg2 ++ String.ofList parts.tail

def categoryText (rec : Record) (width langid : Int) : Except String String :=
  if rec.category = 0 then .ok ""
  else R.formatString (categoryLookup R rec width langid) rec.params none

def metadata (o : DecodeOptions) (ev : Event) : Option Metadata :=
  R.openPublisher o.session ev.publisher o.logfile o.lcid

/-- Whether `-ignorestring` stands for the name without a lookup. -/
def ignored (o : DecodeOptions) (ev : Event) (n : NameOpt) : Option String :=
  if n.number ev = 0 then o.ignorestring else none

def nameText (o : DecodeOptions) (ev : Event) (n : NameOpt) : Except String String :=
  match ignored o ev n with
  | some ignorestring => .ok ignorestring
  | none => uncached R o (metadata R o ev) ev n.callflag

/-- The name that a step puts into the cache, if it is not there. -/
def keptName (o : DecodeOptions) (ev : Event) (n : NameOpt) : Option String :=
  match ignored o ev n with
  | some _ => none
  | none => (R.evtFormatMessage (metadata R o ev) ev o.values n.callflag).toOption

def DecodeOptions.nameOpts (o : DecodeOptions) : List NameOpt :=
  [.levelname, .taskname, .opcodename].filter fun n => o.names n

def eventText (o : DecodeOptions) (ev : Event) : Except String (List String) := do
  let names ← o.nameOpts.mapM (nameText R o ev)
  let rest ← (((if o.keywords then [uncached R o (metadata R o ev) ev 5] else []) ++
      (if o.xml then [uncached R o (metadata R o ev) ev 9] else []) ++
      (if o.message then [messageOf R o (metadata R o ev) ev] else [])) :
        List (Except String String)).mapM id
  return ev.system ++ names ++ rest

/-! ### Steps -/

/-- What formats one event. -/
inductive Step where
  | message (rec : Record) (width langid : Int)
  | category (rec : Record) (width langid : Int)
  | event (o : DecodeOptions) (ev : Event)

/-- The source is not named like a counter of the cache. -/
def Step.Plain : Step → Prop
  | .message rec _ _ | .category rec _ _ => rec.source ∉ counters
  | .event _ _ => True

/-- What the first step may put into the caches is what the second would look up:
the widths, the files and the languages that are not in the keys make no difference
between them. -/
def Agree : Step → Step → Prop
  | .message rec width langid, .message rec' width' langid' =>
    rec.source = rec'.source → langid = langid' → rec.eventid = rec'.eventid →
      ∀ s, fmtLookup R rec width langid = some s → fmtLookup R rec' width' langid' = some s
  | .category rec width langid, .category rec' width' langid' =>
    rec.source = rec'.source → langid = langid' → rec.category = rec'.category →
      categoryLookup R rec width langid = categoryLookup R rec' width' langid'
  | .event o ev, .event o' ev' =>
    ev.publisher = ev'.publisher →
      (o.session = o'.session → o.lcid = o'.lcid → metadata R o ev = metadata R o' ev') ∧
      ∀ n, o.names n → o'.names n → n.number ev = n.number ev' →
        ∀ s, keptName R o ev n = some s → nameText R o' ev' n = .ok s
  | _, _ => True

/-- A name that is kept is the name that is returned. -/
theorem nameText_of_keptName {o : DecodeOptions} {ev : Event} {n : NameOpt} {s : String}
    (kept : keptName R o ev n = some s) : nameText R o ev n = .ok s := by
  unfold keptName at kept
  unfold nameText
  cases ign : ignored o ev n with
  | some ignorestring => simp [ign] at kept
  | none =>
    cases text : R.evtFormatMessage (metadata R o ev) ev o.values n.callflag with
    | error e => simp [ign, text, Except.toOption] at kept
    | ok name =>
      have same : name = s := by simpa [ign, text, Except.toOption] using kept
      simp only [uncached, text, same]

/-- A step may use what it put into the caches itself. -/
theorem agree_self (d : Step) : Agree R d d := by
  cases d with
  | message rec width langid => exact fun _ _ _ s found => found
  | category rec width langid => exact fun _ _ _ => rfl
  | event o ev => exact fun _ => ⟨fun _ _ => rfl, fun n _ _ _ s => nameText_of_keptName R⟩

end Texts

/-! ### Caches that are right for some steps -/

/-- What is kept for a source is right for the steps in `D`. -/
structure EntryFits (R : Resources) (D : Step → Prop) (source : String) (e : Entry) : Prop where
  regkey : ∀ k, e.regkey = some k → k = R.findRegkey source
  param : ∀ langid paramid s, e.paramstring (langid, paramid) = some s →
    paramLookup R source langid paramid = some s
  message : ∀ rec width langid, D (.message rec width langid) → rec.source = source →
    ∀ s, e.fmtstring (langid, rec.eventid) = some s → fmtLookup R rec width langid = some s
  category : ∀ rec width langid, D (.category rec width langid) → rec.source = source →
    ∀ s, e.category (langid, rec.category) = some s → categoryLookup R rec width langid = s

structure Holds (R : Resources) (D : Step → Prop) (w : World) : Prop where
  counter : ∀ name ∈ counters, ∀ e, w.messages name ≠ some (.entry e)
  source : ∀ name, name ∉ counters → ∀ n, w.messages name ≠ some (.counter n)
  entry : ∀ source, EntryFits R D source (w.entry source)
  handle : ∀ o ev, D (.event o ev) → ∀ h,
    w.publisherHandles (ev.publisher, o.session, o.lcid) = some h → metadata R o ev = h
  name : ∀ o ev, D (.event o ev) → ∀ n, o.names n → ∀ s,
    w.names n (ev.publisher, n.number ev) = some s → nameText R o ev n = .ok s

section Caches

variable {R : Resources} {D : Step → Prop} {w : World}

theorem entryFits_empty (source : String) : EntryFits R D source .empty := by
  constructor <;> simp [Entry.empty]

theorem holds_init : Holds R D .init where
  counter _ _ _ held := by cases held
  source _ _ _ held := by cases held
  entry source := entryFits_empty source
  handle _ _ _ _ held := by cases held
  name _ _ _ _ _ _ held := by cases held

/-- What is right for some steps is right for fewer. -/
theorem Holds.mono {D' : Step → Prop} (holds : Holds R D w) (fewer : ∀ d, D' d → D d) :
    Holds R D' w where
  counter := holds.counter
  source := holds.source
  entry source :=
    { regkey := (holds.entry source).regkey
      param := (holds.entry source).param
      message := fun rec width langid mem =>
        (holds.entry source).message rec width langid (fewer _ mem)
      category := fun rec width langid mem =>
        (holds.entry source).category rec width langid (fewer _ mem) }
  handle o ev mem := holds.handle o ev (fewer _ mem)
  name o ev mem := holds.name o ev (fewer _ mem)

theorem messages_setMessage_of_ne {name key : String} (other : name ≠ key) (node : Node) :
    (w.setMessage key node).messages name = w.messages name :=
  Function.update_of_ne other _ _

theorem publisherHandles_setHandle_of_ne {k key : String × String × Int} (other : k ≠ key)
    (hpub : Option Metadata) :
    (w.setHandle key hpub).publisherHandles k = w.publisherHandles k :=
  Function.update_of_ne other _ _

theorem publisherHandles_setHandle (key : String × String × Int) (hpub : Option Metadata) :
    (w.setHandle key hpub).publisherHandles key = some hpub :=
  Function.update_self _ _ _

theorem names_setName (m n : NameOpt) (k key : String × Int) (s : String) :
    (w.setName n key s).names m k = if m = n ∧ k = key then some s else w.names m k :=
  Lib.update_update_apply w.names n m key k (some s)

theorem entry_setMessage (source key : String) (node : Node) :
    (w.setMessage key node).entry source =
      if source = key then (match node with | .entry e => e | .counter _ => .empty)
      else w.entry source := by
  by_cases same : source = key
  · subst same
    cases node <;> simp [World.setMessage, World.entry]
  · simp [World.setMessage, World.entry, same]

theorem Holds.setEntry (holds : Holds R D w) {source : String} (plain : source ∉ counters)
    {e : Entry} (fits : EntryFits R D source e) : Holds R D (w.setMessage source (.entry e)) where
  counter name isCounter e' := by
    have other : name ≠ source := fun same => plain (same ▸ isCounter)
    rw [messages_setMessage_of_ne other]
    exact holds.counter name isCounter e'
  source name isSource n := by
    by_cases same : name = source
    · subst same
      simp [World.setMessage]
    · rw [messages_setMessage_of_ne same]
      exact holds.source name isSource n
  entry s := by
    rw [entry_setMessage]
    by_cases same : s = source
    · subst same
      rw [if_pos rfl]
      exact fits
    · rw [if_neg same]
      exact holds.entry s
  handle := holds.handle
  name := holds.name

theorem Holds.setCounter (holds : Holds R D w) {key : String} (isCounter : key ∈ counters)
    (n : Nat) : Holds R D (w.setMessage key (.counter n)) where
  counter name mem e := by
    by_cases same : name = key
    · subst same
      simp [World.setMessage]
    · rw [messages_setMessage_of_ne same]
      exact holds.counter name mem e
  source name isSource m := by
    have other : name ≠ key := fun same => isSource (same ▸ isCounter)
    rw [messages_setMessage_of_ne other]
    exact holds.source name isSource m
  entry s := by
    rw [entry_setMessage]
    by_cases same : s = key
    · rw [if_pos same]
      exact entryFits_empty s
    · rw [if_neg same]
      exact holds.entry s
  handle := holds.handle
  name := holds.name

theorem Holds.setHandle (holds : Holds R D w) {key : String × String × Int}
    {hpub : Option Metadata}
    (fits : ∀ o ev, D (.event o ev) → (ev.publisher, o.session, o.lcid) = key →
      metadata R o ev = hpub) : Holds R D (w.setHandle key hpub) where
  counter := holds.counter
  source := holds.source
  entry := holds.entry
  handle o ev mem h found := by
    by_cases same : (ev.publisher, o.session, o.lcid) = key
    · rw [same, publisherHandles_setHandle] at found
      exact (fits o ev mem same).trans (Option.some.inj found)
    · rw [publisherHandles_setHandle_of_ne same] at found
      exact holds.handle o ev mem h found
  name := holds.name

theorem Holds.setName (holds : Holds R D w) {n : NameOpt} {key : String × Int} {s : String}
    (fits : ∀ o ev, D (.event o ev) → o.names n → (ev.publisher, n.number ev) = key →
      nameText R o ev n = .ok s) : Holds R D (w.setName n key s) where
  counter := holds.counter
  source := holds.source
  entry := holds.entry
  handle := holds.handle
  name o ev mem m asked t found := by
    rw [names_setName] at found
    by_cases same : m = n ∧ (ev.publisher, m.number ev) = key
    · obtain ⟨rfl, sameKey⟩ := same
      rw [if_pos ⟨rfl, sameKey⟩] at found
      rw [fits o ev mem asked sameKey, Option.some.inj found]
    · rw [if_neg same] at found
      exact holds.name o ev mem m asked t found

end Caches

end Twapi.EventText
