import Mathlib.Logic.Function.Basic
import Twapi.Lib.Memo

/-!
The commands that format events, with their caches: `eventlog_format_message` and
`eventlog_format_category` of `tcl/eventlog.tcl`, `evt_decode_events` of `tcl/evt.tcl`.

* `Resources` — the registry, the message files, and what Windows makes of them.
* `World` — the caches: `_eventlog_message_cache`, and the dictionaries of `_evt`.
* `run` — a sequence of commands.
-/

namespace Twapi.EventText

open Lib (Memo)
open Lib.Memo (throw of modify inspect each)

/-! ### Resources -/

/-- The metadata of a publisher, in one language and from one file. -/
abbrev Metadata := Nat

/-- An event of the newer kind. -/
structure Event where
  /-- The system fields, of which those below are read again. -/
  system : List String
  publisher : String
  level : Int
  task : Int
  opcode : Int
  /-- The rest of the event. -/
  handle : Nat
deriving DecidableEq

structure Resources where
  findRegkey : String → String
  registryGet : (regkey value : String) → Option String
  expand : String → String
  /-- `format_message -module`; `none` where it fails. -/
  formatModule : (dll messageid : String) → (width : Option Int) → (langid : Int) → Option String
  /-- `format_message -fmtstring` -/
  formatString : (fmt : String) → (params : List String) → (width : Option Int) →
    Except String String
  /-- `\d` of Tcl's regular expressions. -/
  isDigit : Char → Bool
  openPublisher : (session publisher logfile : String) → (lcid : Int) → Option Metadata
  evtFormatMessage : Option Metadata → Event → (values : String) → (flag : Nat) →
    Except String String
  decodeUserdata : Event → Except String String

/-! ### Caches -/

/-- What `_eventlog_message_cache` holds for a source. The format strings are kept
by language and number. -/
structure Entry where
  regkey : Option String
  fmtstring : Int × Int → Option String
  paramstring : Int × String → Option String
  category : Int × Int → Option String

def Entry.empty : Entry := ⟨none, fun _ => none, fun _ => none, fun _ => none⟩

def Entry.setRegkey (regkey : String) (e : Entry) : Entry := { e with regkey := some regkey }

def Entry.setFmtstring (key : Int × Int) (s : String) (e : Entry) : Entry :=
  { e with fmtstring := Function.update e.fmtstring key (some s) }

def Entry.setParamstring (key : Int × String) (s : String) (e : Entry) : Entry :=
  { e with paramstring := Function.update e.paramstring key (some s) }

def Entry.setCategory (key : Int × Int) (s : String) (e : Entry) : Entry :=
  { e with category := Function.update e.category key (some s) }

/-- A value of `_eventlog_message_cache`, where the counters stand beside the sources. -/
inductive Node where
  | counter (n : Nat)
  | entry (e : Entry)

/-- The cached names, `_evt(-levelname)` and so on. -/
inductive NameOpt where
  | levelname
  | taskname
  | opcodename
deriving DecidableEq

structure World where
  messages : String → Option Node
  /-- By publisher, session and language; `some none` is a `NULL` that was kept. -/
  publisherHandles : String × String × Int → Option (Option Metadata)
  /-- By publisher and number. -/
  names : NameOpt → String × Int → Option String

/-- The caches of an interpreter in which nothing was formatted. -/
def World.init : World := ⟨fun _ => none, fun _ => none, fun _ _ => none⟩

abbrev Cmd (α : Type) := Memo World String α

/-- What `dict exists` and `dict get` find under a source. -/
def World.entry (w : World) (source : String) : Entry :=
  match w.messages source with
  | some (.entry e) => e
  | _ => .empty

def World.setMessage (key : String) (node : Node) (w : World) : World :=
  { w with messages := Function.update w.messages key (some node) }

def World.setHandle (key : String × String × Int) (hpub : Option Metadata) (w : World) : World :=
  { w with publisherHandles := Function.update w.publisherHandles key (some hpub) }

def World.setName (n : NameOpt) (key : String × Int) (name : String) (w : World) : World :=
  { w with names := Function.update w.names n (Function.update (w.names n) key (some name)) }

/-- `dict set _eventlog_message_cache $source ...` -/
def setEntry (source : String) (change : Entry → Entry) : Cmd Unit :=
  inspect fun w =>
    match w.messages source with
    | some (.counter _) => throw "missing value to go with key"
    | _ => modify (World.setMessage source (.entry (change (w.entry source))))

/-- `dict incr _eventlog_message_cache $name` -/
def incr (name : String) : Cmd Unit :=
  inspect fun w =>
    match w.messages name with
    | some (.entry _) => throw "expected integer"
    | some (.counter n) => modify (World.setMessage name (.counter (n + 1)))
    | none => modify (World.setMessage name (.counter 1))

/-- The keys of the counters. -/
def counters : List String :=
  ["__fmtstring_hits", "__fmtstring_misses", "__regkey_hits", "__regkey_misses", "__notfound",
   "__paramstring_hits", "__paramstring_misses", "__category_hits", "__category_misses"]

/-! ### The event log -/

/-- The fields of an event record that are read. -/
structure Record where
  source : String
  eventid : Int
  category : Int
  params : List String
deriving DecidableEq

/-- Parts of a message: the text before each placeholder with the placeholder, and
the text after the last. -/
structure Parts where
  pieces : List (List Char × List Char)
  tail : List Char
deriving DecidableEq

section Commands

variable (R : Resources)

/-- A placeholder at the start of a text, which is matched by `%?%\d+`. -/
def placeholder : List Char → Option (List Char)
  | '%' :: '%' :: cs =>
    match cs.takeWhile R.isDigit with
    | [] => none
    | ds => some ('%' :: '%' :: ds)
  | '%' :: cs =>
    match cs.takeWhile R.isDigit with
    | [] => none
    | ds => some ('%' :: ds)
  | _ => none

/-- The placeholders from left to right. `skip` is what is left of the last one. -/
def split : (text before : List Char) → (skip : Nat) → Parts
  | [], before, _ => ⟨[], before⟩
  | _ :: cs, before, skip + 1 => split cs before skip
  | c :: cs, before, 0 =>
    match placeholder R (c :: cs) with
    | some found =>
      let rest := split cs [] (found.length - 1)
      ⟨(before, found) :: rest.pieces, rest.tail⟩
    | none => split cs (before ++ [c]) 0

/-- `string trimleft $repl %` -/
def paramidOf (found : List Char) : String := String.ofList (found.dropWhile (· = '%'))

/-- `string trimright $s \r\n` -/
def trimNewlines (s : String) : String :=
  String.ofList (s.toList.reverse.dropWhile fun c => c = '\r' || c = '\n').reverse

def files (path : String) : List String := path.splitOn ";"

def regkeyOf (source : String) : Cmd String :=
  inspect fun w =>
    match (w.entry source).regkey with
    | some regkey => do
        incr "__regkey_hits"
        return regkey
    | none => do
        let regkey := R.findRegkey source
        setEntry source (Entry.setRegkey regkey)
        incr "__regkey_misses"
        return regkey

/-- The format string of the message files, if the event is in one of them. -/
def fmtstringOf (rec : Record) (width langid : Int) : Cmd (Option String) :=
  inspect fun w =>
    match (w.entry rec.source).fmtstring (langid, rec.eventid) with
    | some fmtstring => do
        incr "__fmtstring_hits"
        return some fmtstring
    | none => do
        incr "__fmtstring_misses"
        let regkey ← regkeyOf R rec.source
        match R.registryGet regkey "EventMessageFile" with
        | none => return none
        | some path =>
          match (files path).findSome? fun dll =>
            R.formatModule (R.expand dll) (toString rec.eventid) (some width) langid with
          | none => return none
          | some fmtstring => do
              -- The string has the line breaks of `width`, which is not in the key.
              setEntry rec.source (Entry.setFmtstring (langid, rec.eventid) fmtstring)
              return some fmtstring

/-- The message where no format string is found. -/
def notFoundMessage (rec : Record) : String :=
  "The message file or event definition for event id " ++ toString rec.eventid ++
  " from source " ++ rec.source ++
  " was not found. The following information was part of the event: " ++
  ", ".intercalate ((List.range rec.params.length).map fun i => "%" ++ toString (i + 1))

/-- The parameter files of a source. -/
def paramfilesOf (source : String) : Cmd (List String) := do
  let regkey ← regkeyOf R source
  match R.registryGet regkey "ParameterMessageFile" with
  | none => return []
  | some path => return (files path).map R.expand

/-- They are listed at the first placeholder that needs them. -/
def paramfilesOnce (source : String) : Option (List String) → Cmd (List String)
  | some paramfiles => pure paramfiles
  | none => paramfilesOf R source

/-- What is put for a placeholder, with the parameter files once they are listed. -/
def replacement (rec : Record) (langid : Int) (paramfiles : Option (List String))
    (found : List Char) : Cmd (String × Option (List String)) :=
  inspect fun w =>
    match (w.entry rec.source).paramstring (langid, paramidOf found) with
    | some paramstring => do
        incr "__paramstring_hits"
        let repl ← of (R.formatString paramstring rec.params none)
        return (repl, paramfiles)
    | none => do
        incr "__paramstring_misses"
        let paramfiles ← paramfilesOnce R rec.source paramfiles
        match paramfiles.findSome? fun paramfile =>
          R.formatModule paramfile (paramidOf found) none langid with
        | none => return (String.ofList found, some paramfiles)
        | some text => do
            let paramstring := trimNewlines text
            setEntry rec.source (Entry.setParamstring (langid, paramidOf found) paramstring)
            let repl ← of (R.formatString paramstring rec.params none)
            return (repl, some paramfiles)

/-- The loop over the placeholders. -/
def replaceAll (rec : Record) (langid : Int) :
    (pieces : List (List Char × List Char)) → (paramfiles : Option (List String)) →
    (msg2 : String) → Cmd String
  | [], _, msg2 => pure msg2
  | (before, found) :: pieces, paramfiles, msg2 => do
      let (repl, paramfiles) ← replacement R rec langid paramfiles found
      replaceAll rec langid pieces paramfiles (msg2 ++ String.ofList before ++ repl)

def eventlogFormatMessage (rec : Record) (width langid : Int) : Cmd String := do
  match ← fmtstringOf R rec width langid with
  | none => do
      incr "__notfound"
      of (R.formatString (notFoundMessage rec) rec.params (some width))
  | some fmtstring => do
      let msg ← of (R.formatString fmtstring rec.params none)
      let parts := split R msg.toList [] 0
      if parts.pieces = [] then return msg
      else do
        let msg2 ← replaceAll R rec langid parts.pieces none ""
        return msg2 ++ String.ofList parts.tail

/-- The format string of the category files. -/
def categoryStringOf (rec : Record) (width langid : Int) : Cmd String :=
  inspect fun w =>
    match (w.entry rec.source).category (langid, rec.category) with
    | some fmtstring => do
        incr "__category_hits"
        return fmtstring
    | none => do
        incr "__category_misses"
        let regkey ← regkeyOf R rec.source
        let found :=
          match R.registryGet regkey "CategoryMessageFile" with
          | none => none
          | some path => (files path).findSome? fun dll =>
            R.formatModule (R.expand dll) (toString rec.category) (some width) langid
        -- Where nothing is found, the number is kept as the string.
        let fmtstring := found.getD ("Category " ++ toString rec.category)
        setEntry rec.source (Entry.setCategory (langid, rec.category) fmtstring)
        return fmtstring

def eventlogFormatCategory (rec : Record) (width langid : Int) : Cmd String :=
  if rec.category = 0 then return ""
  else do
    let fmtstring ← categoryStringOf R rec width langid
    of (R.formatString fmtstring rec.params none)

/-! ### Events of the newer kind -/

structure DecodeOptions where
  values : String
  session : String
  logfile : String
  lcid : Int
  ignorestring : Option String
  names : NameOpt → Bool
  keywords : Bool
  xml : Bool
  message : Bool

def NameOpt.number (n : NameOpt) (ev : Event) : Int :=
  match n with
  | .levelname => ev.level
  | .taskname => ev.task
  | .opcodename => ev.opcode

def NameOpt.callflag : NameOpt → Nat
  | .levelname => 2
  | .taskname => 3
  | .opcodename => 4

variable (o : DecodeOptions)

/-- The handle of an event's publisher. The file it was opened for is not in the key. -/
def publisherOf (ev : Event) : Cmd (Option Metadata) :=
  inspect fun w =>
    match w.publisherHandles (ev.publisher, o.session, o.lcid) with
    | some hpub => return hpub
    | none => do
        let hpub := R.openPublisher o.session ev.publisher o.logfile o.lcid
        modify (World.setHandle (ev.publisher, o.session, o.lcid) hpub)
        return hpub

/-- A name, which is kept for the publisher and the number alone. -/
def nameOf (hpub : Option Metadata) (ev : Event) (n : NameOpt) : Cmd String :=
  inspect fun w =>
    match w.names n (ev.publisher, n.number ev) with
    | some name => return name
    | none =>
      match o.ignorestring, n.number ev with
      | some ignorestring, 0 => return ignorestring
      | _, _ =>
        match R.evtFormatMessage hpub ev o.values n.callflag, o.ignorestring with
        | .ok name, _ => do
            modify (World.setName n (ev.publisher, n.number ev) name)
            return name
        | .error _, some ignorestring => return ignorestring
        | .error e, none => throw e

/-- `-keywords` and `-xml`, which are not kept. -/
def uncached (hpub : Option Metadata) (ev : Event) (callflag : Nat) : Except String String :=
  match R.evtFormatMessage hpub ev o.values callflag, o.ignorestring with
  | .ok text, _ => .ok text
  | .error _, some ignorestring => .ok ignorestring
  | .error e, none => .error e

def messageOf (hpub : Option Metadata) (ev : Event) : Except String String :=
  match R.evtFormatMessage hpub ev o.values 1, R.decodeUserdata ev, o.ignorestring with
  | .ok message, _, _ => .ok message
  | .error _, .ok userdata, _ =>
    .ok ("Message for event could not be found. Event contained user data: " ++ userdata)
  | .error _, .error _, some ignorestring => .ok ignorestring
  | .error _, .error message, none => .error message

/-- The fields after the system fields, in their order. -/
def decodeEvent (ev : Event) : Cmd (List String) := do
  let hpub ← publisherOf R o ev
  let names ← each (nameOf R o hpub ev)
    ([.levelname, .taskname, .opcodename].filter fun n => o.names n)
  let rest ← each (fun r => of r)
    ((if o.keywords then [uncached R o hpub ev 5] else []) ++
      (if o.xml then [uncached R o hpub ev 9] else []) ++
      (if o.message then [messageOf R o hpub ev] else []))
  return ev.system ++ names ++ rest

/-! ### Sequences of commands -/

inductive Call where
  | formatMessage (rec : Record) (width langid : Int)
  | formatCategory (rec : Record) (width langid : Int)
  | decodeEvents (o : DecodeOptions) (events : List Event)

/-- What a command returns. -/
inductive Reply where
  | text (r : Except String String)
  | events (r : Except String (List (List String)))

def Call.run (c : Call) (w : World) : Reply × World :=
  match c with
  | .formatMessage rec width langid =>
    let r := eventlogFormatMessage R rec width langid w
    (.text r.1, r.2)
  | .formatCategory rec width langid =>
    let r := eventlogFormatCategory R rec width langid w
    (.text r.1, r.2)
  | .decodeEvents o events =>
    let r := each (decodeEvent R o) events w
    (.events r.1, r.2)

def run : List Call → World → List Reply
  | [], _ => []
  | c :: cs, w =>
    let r := c.run R w
    r.1 :: run cs r.2

/-- What a command returns if nothing was formatted before, neither an event of
its own list. -/
def Call.alone (c : Call) : Reply :=
  match c with
  | .formatMessage .. | .formatCategory .. => (c.run R .init).1
  | .decodeEvents o events => .events (events.mapM fun ev => (decodeEvent R o ev .init).1)

end Commands

end Twapi.EventText
