import Mathlib.Logic.Function.Basic
import Mathlib.Tactic.Common

/-!
`get_multiple_process_info` of `tcl/process.tcl`, with `_get_wts_pids` and
`_token_info_helper`, and what it uses of `Twapi_GetProcessList`.

* `Environment`, `Target` — what Windows answers: once for the command, and for
  each process id of the list.
* `baseStage`, `pass`, `tokenStage` — the stages that add values to the records.
-/

namespace Twapi.ProcessInfo

abbrev Pid := Int

abbrev Sid := String

/-- The options that `Twapi_GetProcessList` answers, `base_opts`. -/
inductive BaseOpt where
  | basepriority | parent | tssession | name
  | createtime | usertime | privilegedtime | handlecount | threadcount
  | pagefaults | pagefilebytes | pagefilebytespeak | poolnonpagedbytes | poolnonpagedbytespeak
  | poolpagedbytes | poolpagedbytespeak | virtualbytes | virtualbytespeak
  | workingset | workingsetpeak
  | ioreadops | iowriteops | iootherops | ioreadbytes | iowritebytes | iootherbytes
deriving DecidableEq

def BaseOpt.flag : BaseOpt → Nat
  | .basepriority | .parent | .tssession => 1
  | .name => 2
  | .createtime | .usertime | .privilegedtime | .handlecount | .threadcount => 4
  | .pagefaults | .pagefilebytes | .pagefilebytespeak | .poolnonpagedbytes
  | .poolnonpagedbytespeak | .poolpagedbytes | .poolpagedbytespeak | .virtualbytes
  | .virtualbytespeak | .workingset | .workingsetpeak => 8
  | .ioreadops | .iowriteops | .iootherops | .ioreadbytes | .iowritebytes | .iootherbytes => 16

def baseOpts : List BaseOpt :=
  [.basepriority, .parent, .tssession, .name,
   .createtime, .usertime, .privilegedtime, .handlecount, .threadcount,
   .pagefaults, .pagefilebytes, .pagefilebytespeak, .poolnonpagedbytes, .poolnonpagedbytespeak,
   .poolpagedbytes, .poolpagedbytespeak, .virtualbytes, .virtualbytespeak,
   .workingset, .workingsetpeak,
   .ioreadops, .iowriteops, .iootherops, .ioreadbytes, .iowritebytes, .iootherbytes]

/-- `token_opts` -/
inductive TokenOpt where
  | disabledprivileges | elevation | enabledprivileges | groupattrs | groups | groupsids
  | integrity | integritylabel | logonsession | primarygroup | primarygroupsid
  | privileges | restrictedgroupattrs | restrictedgroups | virtualized
deriving DecidableEq

def tokenOpts : List TokenOpt :=
  [.disabledprivileges, .elevation, .enabledprivileges, .groupattrs, .groups, .groupsids,
   .integrity, .integritylabel, .logonsession, .primarygroup, .primarygroupsid,
   .privileges, .restrictedgroupattrs, .restrictedgroups, .virtualized]

/-- A field of the result. -/
inductive Field where
  | base (b : BaseOpt)
  | pid
  | elapsedtime
  | tids
  | path
  | priorityclass
  | commandline
  | user
  | token (k : TokenOpt)
deriving DecidableEq

inductive Value where
  | text (s : String)
  | int (n : Int)
  | ints (ns : List Int)
  /-- The record array of a process's threads, of which only the ids are read. -/
  | threads (tids : List Int)
deriving DecidableEq

structure Options where
  all : Bool
  base : BaseOpt → Bool
  elapsedtime : Bool
  tids : Bool
  path : Bool
  priorityclass : Bool
  commandline : Bool
  user : Bool
  token : TokenOpt → Bool
  noexist : Value
  noaccess : Value

inductive Failure where
  /-- The variable is read and was not set. -/
  | unset (name : String)
  | missing
  | system (code : Nat)
deriving DecidableEq

/-! ### What Windows answers -/

structure Process where
  pid : Pid
  createtime : Int
  tids : List Int
  counters : BaseOpt → Value

/-- What a process token holds, with the names of its accounts. -/
structure Token where
  user : Value
  usersid : Value
  info : TokenOpt → Value

/-- A query fails with `TWAPI_WIN32 5`, with `TWAPI_WIN32 87`, or otherwise. -/
inductive Answer (α : Type) where
  | value (a : α)
  | denied
  | noSuch
  | fails (code : Nat)

/-- The array that `_get_wts_pids` fills, if the enumeration succeeds. -/
abbrev Wts := Option (Pid → Option Sid)

/-- One process id of the list, with what the queries about it come to. -/
structure Target where
  pid : Pid
  path : Answer Value
  priorityclass : Answer Value
  commandline : Answer Value
  token : Answer Token
  /-- Should the sessions be enumerated again. -/
  wts : Wts

structure Environment where
  processes : List Process
  now : Int
  systemUptime : Int
  wts : Wts
  lookupAccountSid : Sid → Except Nat Value

/-! ### `Twapi_GetProcessList` -/

inductive ProcessField where
  | pid
  | base (b : BaseOpt)
  | threads
deriving DecidableEq

def Process.value (p : Process) : ProcessField → Value
  | .pid => .int p.pid
  | .base .createtime => .int p.createtime
  | .base b => p.counters b
  | .threads => .threads p.tids

/-- The fields for the flags, in the order of the C code. -/
def processFields (flags : Nat) : List ProcessField :=
  [.pid] ++
  (if flags.testBit 0 then [.base .parent, .base .tssession, .base .basepriority]
    else ([] : List ProcessField)) ++
  (if flags.testBit 1 then [.base .name] else ([] : List ProcessField)) ++
  (if flags.testBit 2 then [.base .handlecount, .base .threadcount, .base .createtime,
    .base .usertime, .base .privilegedtime] else ([] : List ProcessField)) ++
  (if flags.testBit 3 then [.base .virtualbytespeak, .base .virtualbytes, .base .pagefaults,
    .base .workingsetpeak, .base .workingset, .base .poolpagedbytespeak, .base .poolpagedbytes,
    .base .poolnonpagedbytespeak, .base .poolnonpagedbytes, .base .pagefilebytes,
    .base .pagefilebytespeak] else ([] : List ProcessField)) ++
  (if flags.testBit 4 then [.base .ioreadops, .base .iowriteops, .base .iootherops,
    .base .ioreadbytes, .base .iowritebytes, .base .iootherbytes] else ([] : List ProcessField)) ++
  (if flags.testBit 5 then [.threads] else ([] : List ProcessField))

abbrev RecordArray := List ProcessField × List (List Value)

/-- All processes, or the one asked for. -/
def listed (pidarg : Pid) (processes : List Process) : List Process :=
  if pidarg = -1 then processes else (processes.find? fun p => p.pid = pidarg).toList

/-- `Twapi_GetProcessList`, which returns an empty list where no process is found. -/
def getProcessList (pidarg : Pid) (flags : Nat) (processes : List Process) : Option RecordArray :=
  match listed pidarg processes with
  | [] => none
  | found => some (processFields flags, found.map fun p => (processFields flags).map p.value)

/-! ### Record arrays and dictionaries -/

abbrev Dict (α : Type) := Value → Option α

def Dict.empty {α : Type} : Dict α := fun _ => none

def Dict.set {α : Type} (d : Dict α) (key : Value) (a : α) : Dict α :=
  Function.update d key (some a)

abbrev Records := Dict (List Value)

def dictLappend (records : Records) (key v : Value) : Records :=
  records.set key ((records key).getD [] ++ [v])

def cell (fields : List ProcessField) (record : List Value) (f : ProcessField) :
    Except Failure Value :=
  match record[fields.idxOf f]? with
  | some v => .ok v
  | none => .error .missing

/-- `recordarray getdict -key "-pid"`, with what is made of a record. -/
def getdict {α : Type} (form : List ProcessField → List Value → Except Failure α) :
    Option RecordArray → Except Failure (Dict α)
  | none => .ok .empty
  | some (fields, records) =>
    records.foldlM (fun d record => do
      let key ← cell fields record .pid
      let a ← form fields record
      pure (d.set key a)) .empty

/-- `-slice` -/
def sliced (names : List ProcessField) (fields : List ProcessField) (record : List Value) :
    Except Failure (List Value) :=
  names.mapM (cell fields record)

/-- `-format dict` -/
def twined (fields : List ProcessField) (record : List Value) :
    Except Failure (List (ProcessField × Value)) :=
  .ok (fields.zip record)

/-- `kl_get` -/
def klGet (pairs : List (ProcessField × Value)) (f : ProcessField) : Except Failure Value :=
  match pairs.lookup f with
  | some v => .ok v
  | none => .error .missing

/-! ### Base options -/

section Command

variable (o : Options) (e : Environment) (targets : List Target)

def Target.key (t : Target) : Value := .int t.pid

/-- `basefields` -/
def Options.baseFields : List BaseOpt := baseOpts.filter fun b => o.base b || o.all

def Options.asksElapsed : Bool := o.elapsedtime || o.all
def Options.asksTids : Bool := o.tids || o.all
def Options.asksUser : Bool := o.all || o.user

/-- `requested_token_opts` -/
def Options.tokenFields : List TokenOpt := tokenOpts.filter fun k => o.all || o.token k

def Options.baseFlags : Nat :=
  (o.baseFields.map BaseOpt.flag ++ (if o.asksElapsed then [4] else []) ++
    (if o.asksTids then [32] else [])).foldl (· ||| ·) 0

/-- What is kept of `Twapi_GetProcessList`: `baserawdata` and `records`. -/
structure BaseData where
  raw : Dict (List (ProcessField × Value))
  records : Records

def pidarg : Pid :=
  match targets with
  | [t] => t.pid
  | _ => -1

def baseData : Except Failure BaseData :=
  if o.baseFlags = 0 then .ok ⟨.empty, .empty⟩
  else do
    let data := getProcessList (pidarg targets) (o.baseFlags ||| 1) e.processes
    let raw ← if o.all || o.elapsedtime || o.tids then getdict twined data else pure .empty
    let records ←
      if o.baseFields = [] then pure .empty
      else getdict (sliced (o.baseFields.map .base)) data
    pure ⟨raw, records⟩

/-- The records with the values of the base options, then with the process id. -/
def baseStage (records : Records) : Records :=
  targets.foldl (fun records t =>
    let records :=
      match records t.key with
      | some _ => records
      | none => records.set t.key (o.baseFields.map fun _ => o.noexist)
    dictLappend records t.key t.key) records

/-! ### The options after them -/

structure Table where
  fields : List Field
  records : Records

/-- One `foreach` over the processes, which adds a field if it is asked for. -/
def pass (asked : Bool) (f : Field) (value : Target → Except Failure Value) (table : Table) :
    Except Failure Table :=
  if asked then do
    let records ← targets.foldlM (fun records t => do
      let v ← value t
      pure (dictLappend records t.key v)) table.records
    pure ⟨table.fields ++ [f], records⟩
  else pure table

def elapsedtimeOf (raw : Dict (List (ProcessField × Value))) (t : Target) :
    Except Failure Value :=
  match raw t.key with
  | some process => do
      match ← klGet process (.base .createtime) with
      | .int elapsed =>
        if elapsed ≠ 0 then pure (.int ((e.now - elapsed) / 10000000))
        else pure (.int e.systemUptime)
      | _ => throw .missing
  | none => pure o.noexist

def tidsOf (raw : Dict (List (ProcessField × Value))) (t : Target) : Except Failure Value :=
  match raw t.key with
  | some process => do
      match ← klGet process .threads with
      | .threads tids => pure (.ints tids)
      | _ => throw .missing
  | none => pure o.noexist

/-- `get_process_path`, `get_process_commandline`, and the `trap` around
`get_priority_class`. -/
def answered (a : Answer Value) : Except Failure Value :=
  match a with
  | .value v => .ok v
  | .denied => .ok o.noaccess
  | .noSuch => .ok o.noexist
  | .fails code => .error (.system code)

/-! ### Token options -/

/-- A key of `token_records`, or of what `get_token_info` returns. -/
inductive TokenKey where
  | opt (k : TokenOpt)
  | user
  | usersid
deriving DecidableEq

abbrev TokenRecord := TokenKey → Option Value

/-- `get_token_info`: a value for every option that it is given. -/
def getTokenInfo (token : Token) (args : List TokenKey) : TokenRecord := fun key =>
  if key ∈ args then
    match key with
    | .opt k => some (token.info k)
    | .usersid => some token.usersid
    | .user => none
  else none

/-- The arguments that `_token_info_helper` passes on: what it does not take from
its own options, and the identifiers it makes names from. -/
def passedOn (args : List TokenKey) : List TokenKey :=
  args.filter (· ∉ [.opt .integrity, .user, .opt .groups, .opt .groupsids]) ++
  (if .user ∈ args then [.usersid] else []) ++
  (if .opt .groups ∈ args ∨ .opt .groupsids ∈ args then [.opt .groupsids] else [])

def withUser (token : Token) (result : TokenRecord) : TokenRecord :=
  match result .usersid with
  | some _ => Function.update (Function.update result .user (some token.user)) .usersid none
  | none => result

def withGroups (token : Token) (args : List TokenKey) (result : TokenRecord) : TokenRecord :=
  match result (.opt .groupsids) with
  | some _ =>
    let named :=
      if .opt .groups ∈ args then
        Function.update result (.opt .groups) (some (token.info .groups))
      else result
    if .opt .groupsids ∈ args then named else Function.update named (.opt .groupsids) none
  | none => result

def withIntegrity (token : Token) (args : List TokenKey) (result : TokenRecord) : TokenRecord :=
  if .opt .integrity ∈ args then
    Function.update result (.opt .integrity) (some (token.info .integrity))
  else result

/-- `_token_info_helper` -/
def tokenInfoHelper (token : Token) (args : List TokenKey) : TokenRecord :=
  withIntegrity token args
    (withGroups token args (withUser token (getTokenInfo token (passedOn args))))

/-- `is_idle_pid` or `is_system_pid` -/
def isSystemPid (pid : Pid) : Bool := pid = 0 || pid = 4

def system : Value := .text "SYSTEM"

/-- The logon sessions of the accounts whose processes cannot be accessed. -/
def sessionOf : Sid → Option Value
  | "S-1-5-18" => some (.text "00000000-000003e7")
  | "S-1-5-19" => some (.text "00000000-000003e5")
  | "S-1-5-20" => some (.text "00000000-000003e4")
  | _ => none

def Wts.sid (wts : Wts) (pid : Pid) : Option Sid := wts.bind fun sids => sids pid

/-- What the loop keeps from one process to the next. -/
structure LoopState where
  wtssids : Wts
  sidcache : Sid → Option Value
  records : Records
  /-- `token_records`, once it is set. -/
  last : Option TokenRecord

/-- The user, if the sessions tell, and `sidcache`. -/
def userOfSession (st : LoopState) (t : Target) :
    Except Failure (Option Value × (Sid → Option Value)) :=
  match st.wtssids.sid t.pid with
  | none => .ok (none, st.sidcache)
  | some sid =>
    if sid = "" then .ok (some system, st.sidcache)
    else
      match st.sidcache sid with
      | some user => .ok (some user, st.sidcache)
      | none =>
        match e.lookupAccountSid sid with
        | .ok user => .ok (some user, Function.update st.sidcache sid (some user))
        | .error code => .error (.system code)

/-- The logon session of a process that cannot be accessed. -/
def deniedSession (wtssids : Wts) (t : Target) (record : TokenRecord) : TokenRecord :=
  match (wtssids.sid t.pid).bind sessionOf with
  | some session => Function.update record (.opt .logonsession) (some session)
  | none => record

/-- The `trap` around `_token_info_helper`: the values, the user, and the sessions. -/
def askToken (t : Target) (requested : List TokenKey) (wtssids : Wts) (user : Option Value) :
    Except Failure (TokenRecord × Option Value × Wts) :=
  if requested = [] then .ok (fun _ => none, user, wtssids)
  else
    match t.token with
    | .value token => .ok (tokenInfoHelper token requested, user, wtssids)
    | .denied =>
      let record : TokenRecord := fun key => if key ∈ requested then some o.noaccess else none
      let user := if .user ∈ requested && isSystemPid t.pid then some system else user
      if .opt .logonsession ∈ requested then
        let wtssids := if wtssids.isSome then wtssids else t.wts
        .ok (deniedSession wtssids t record, user, wtssids)
      else .ok (record, user, wtssids)
    | .noSuch =>
      -- Here alone the user is put where the records are made from.
      .ok (fun key => if key ∈ requested ∧ key ≠ .user then some o.noexist else none,
        if .user ∈ requested then some (if isSystemPid t.pid then system else o.noexist)
        else user, wtssids)
    | .fails code => .error (.system code)

/-- The values of the token options that there are. -/
def addTokenValues (t : Target) (record : TokenRecord) (ks : List TokenOpt) (records : Records) :
    Records :=
  ks.foldl (fun records k =>
    match record (.opt k) with
    | some v => dictLappend records t.key v
    | none => records) records

def tokenStep (st : LoopState) (t : Target) : Except Failure LoopState := do
  let (user, sidcache) ← if o.asksUser then userOfSession e st t else pure (none, st.sidcache)
  let requested := o.tokenFields.map TokenKey.opt
  let requested := if o.asksUser && user.isNone then requested ++ [.user] else requested
  let (record, user, wtssids) ← askToken o t requested st.wtssids user
  let records ←
    if o.asksUser then
      match user with
      | some user => pure (dictLappend st.records t.key user)
      | none => throw (.unset "user")
    else pure st.records
  pure ⟨wtssids, sidcache, addTokenValues t record o.tokenFields records, some record⟩

/-- The names are added for the values of the process that came last. -/
def addTokenFields (last : Option TokenRecord) (ks : List TokenOpt) (fields : List Field) :
    Except Failure (List Field) :=
  ks.foldlM (fun fields k =>
    match last with
    | none => throw (.unset "token_records")
    | some record =>
      if (record (.opt k)).isSome then pure (fields ++ [.token k]) else pure fields) fields

def tokenStage (wtssids : Wts) (table : Table) : Except Failure Table :=
  if o.asksUser || o.tokenFields ≠ [] then do
    let st ← targets.foldlM (tokenStep o e) ⟨wtssids, fun _ => none, table.records, none⟩
    let fields := if o.asksUser then table.fields ++ [.user] else table.fields
    let fields ← addTokenFields st.last o.tokenFields fields
    pure ⟨fields, st.records⟩
  else pure table

/-- Whether the base options are all that is asked for. -/
def Options.done : Bool :=
  !(o.all || o.user || o.elapsedtime || o.tids || o.path || o.commandline || o.priorityclass ||
    tokenOpts.any o.token)

/-- `dict get` -/
def dictGet (records : Records) (key : Value) : Except Failure (List Value) :=
  match records key with
  | some record => .ok record
  | none => .error .missing

def returnData (table : Table) : Except Failure (List Field × List (List Value)) := do
  let records ← targets.mapM fun t => dictGet table.records t.key
  pure (table.fields, records)

def getMultipleProcessInfo : Except Failure (List Field × List (List Value)) := do
  let wtssids := if o.asksUser then e.wts else none
  let data ← baseData o e targets
  let table : Table := ⟨o.baseFields.map .base ++ [.pid], baseStage o targets data.records⟩
  if o.done then returnData targets table
  else do
    let table ← pass targets o.asksElapsed .elapsedtime (elapsedtimeOf o e data.raw) table
    let table ← pass targets o.asksTids .tids (tidsOf o data.raw) table
    let table ← pass targets (o.all || o.path) .path (fun t => answered o t.path) table
    let table ← pass targets (o.all || o.priorityclass) .priorityclass
      (fun t => answered o t.priorityclass) table
    let table ← pass targets (o.all || o.commandline) .commandline
      (fun t => answered o t.commandline) table
    let table ← tokenStage o e targets wtssids table
    returnData targets table

end Command

end Twapi.ProcessInfo
