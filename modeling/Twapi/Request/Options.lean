import Twapi.Cert.Oids
import Twapi.Request.KeyUsage

/-!
The options of certificate requests, `tcl/crypto.tcl`: `_cert_create_parse_options` and
the functions that make extensions.

* `Options` — as they are given; `certCreateParseOptions` makes the extensions.
* `Ask` — what options ask for. `asks_of_options` says of which extension each is made.
-/

namespace Twapi.Request

open CryptObject

/-- The numbers that `string is integer` accepts. What has two periods is no number. -/
structure Numbers extends Tcl where
  asInteger : String → Option Int
  asInteger_ofDWORD : ∀ n : DWORD, asInteger (Obj.ofDWORD n).text = some n.toNat
  asDWORD_oid : ∀ s : String, 2 ≤ s.toList.count '.' → asDWORD s = none

/-- `string is boolean`, which an empty string is, too. -/
def Numbers.isBoolean (T : Numbers) (s : String) : Bool := s = "" || (T.asBoolean s).isSome

/-! ### Lists -/

def listOf (o : Obj) : Except Fault (List Obj) :=
  match o.elements with
  | none => .error (.badValue o.text)
  | some xs => .ok xs

/-- `lindex`, and a variable of `lassign`: empty where there is no such element. -/
def nth (xs : List Obj) (i : Nat) : Obj := xs.getD i (.atom "")

/-- The words of an option as arguments: a value, and a flag that may be left out. -/
def criticalArgs (option default : Obj) : Except Fault (Obj × Obj) :=
  match option.elements with
  | none => .error (.badValue option.text)
  | some [value] => .ok (value, default)
  | some [value, critical] => .ok (value, critical)
  | some _ => .error .badArgCount

/-! ### Extensions -/

def makeBasicConstraintsExt (T : Numbers) (basicconstraints critical : Obj) : Except Fault Obj :=
  match listOf basicconstraints with
  | .error fault => .error fault
  | .ok xs =>
    if T.isBoolean (nth xs 0).text && T.isBoolean (nth xs 1).text &&
        ((T.asInteger (nth xs 2).text).any fun n => 0 ≤ n) then
      .ok (.list [.atom "2.5.29.19", critical, .list [nth xs 0, nth xs 1, nth xs 2]])
    else .error (.message "Invalid basicconstraints value")

def makeKeyusageExt (keyusage critical : Obj) : Except Fault Obj :=
  match listOf keyusage with
  | .error fault => .error fault
  | .ok usages =>
    match keyusageBytes (usages.map Obj.text) (0, 0) with
    | some (byte1, byte2) =>
      .ok (.list [.atom "2.5.29.15", critical, .list [.ofBytes [byte1, byte2], .ofDWORD 7]])
    | none => .error (.message ("Invalid key usage value \"" ++ keyusage.text ++ "\""))

def makeEnhkeyusageExt (enhkeyusage critical : Obj) : Except Fault Obj :=
  match listOf enhkeyusage with
  | .error fault => .error fault
  | .ok names =>
    match Cert.getEnhkeyUsageOids (names.map Obj.text) with
    | .ok oids => .ok (.list [.atom "2.5.29.37", critical, .list (oids.map .atom)])
    | .error name => .error (.message ("Invalid Enhanced Key Usage OID \"" ++ name ++ "\""))

def altTypes : List (String × DWORD) :=
  [("other", 1), ("email", 2), ("dns", 3), ("directory", 5), ("url", 7), ("ip", 8),
   ("registered", 9)]

def altEntry (pair : Obj) : Except Fault Obj :=
  match listOf pair with
  | .error fault => .error fault
  | .ok xs =>
    match altTypes.lookup (nth xs 0).text with
    | some choice => .ok (.list [.ofDWORD choice, nth xs 1])
    | none => .error (.message ("key \"" ++ (nth xs 0).text ++ "\" not known in dictionary"))

def makeAltnamesExt (T : Numbers) (altnames critical issuer : Obj) : Except Fault Obj :=
  match listOf altnames with
  | .error fault => .error fault
  | .ok pairs =>
    match parseList altEntry pairs with
    | .error fault => .error fault
    | .ok names =>
      match T.asBoolean issuer.text with
      | none => .error (.badValue issuer.text)
      | some issuer =>
        .ok (.list [.atom (if issuer then "2.5.29.18" else "2.5.29.17"), critical, .list names])

/-! ### Options -/

/-- `capathlen` is -1 if it is not given, and `purpose` is empty. -/
structure Options where
  altnames : Option Obj
  enhkeyusage : Option Obj
  keyusage : Option Obj
  basicconstraints : Option Obj
  purpose : Obj
  capathlen : String

def one : Obj := .ofDWORD 1

def zero : Obj := .ofDWORD 0

def badConstraintsOption : Fault :=
  .message "Option -basicconstraints cannot be specified if \"ca\" is included in the -purpose option"

/-- The value of `basicconstraints` for a purpose and the number that `capathlen` is. -/
def Options.constraints (opts : Options) (purpose : List String) (capathlen : Int) :
    Except Fault Obj :=
  if "ca" ∈ purpose then
    match opts.basicconstraints with
    | some _ => .error badConstraintsOption
    | none =>
      if capathlen < 0 then .ok (.list [.list [one, zero, zero], one])
      else .ok (.list [.list [one, one, .atom opts.capathlen], one])
  else .ok (opts.basicconstraints.getD (.list [.list [zero, zero, zero], one]))

def extraKeyusage (purpose : List String) : List String :=
  (if "ca" ∈ purpose then ["key_cert_sign", "crl_sign"] else []) ++
    if "server" ∈ purpose ∨ "client" ∈ purpose then
      ["digital_signature", "key_encipherment", "key_agreement"]
    else []

def extraEnhkeyusage (purpose : List String) : List String :=
  (if "server" ∈ purpose then ["oid_pkix_kp_server_auth"] else []) ++
    if "client" ∈ purpose then ["oid_pkix_kp_client_auth"] else []

/-- The extra names go to the end of the first element of the option. -/
def withExtra (option : Option Obj) (extra : List String) : Except Fault (Option Obj) :=
  if extra = [] then .ok option
  else
    match option with
    | none => .ok (some (.list [.list (extra.map .atom), one]))
    | some option =>
      match listOf option with
      | .error fault => .error fault
      | .ok [] => .ok (some (.list [.list (extra.map .atom)]))
      | .ok (value :: rest) =>
        match listOf value with
        | .error fault => .error fault
        | .ok names => .ok (some (.list (.list (names ++ extra.map .atom) :: rest)))

/-- An extension, if there is such an option. -/
def extensionOf (option : Option Obj) (make : Obj → Except Fault Obj) : Except Fault (List Obj) :=
  match option with
  | none => .ok []
  | some option => (make option).map ([·])

def basicConstraintsArgs (T : Numbers) (option : Obj) : Except Fault Obj := do
  let args ← criticalArgs option one
  makeBasicConstraintsExt T args.1 args.2

def keyusageArgs (option : Obj) : Except Fault Obj := do
  let args ← criticalArgs option zero
  makeKeyusageExt args.1 args.2

def enhkeyusageArgs (option : Obj) : Except Fault Obj := do
  let args ← criticalArgs option zero
  makeEnhkeyusageExt args.1 args.2

/-- A third argument says that the names are those of the issuer. -/
def altnamesArgs (T : Numbers) (option : Obj) : Except Fault Obj :=
  match option.elements with
  | none => .error (.badValue option.text)
  | some [altnames] => makeAltnamesExt T altnames zero zero
  | some [altnames, critical] => makeAltnamesExt T altnames critical zero
  | some [altnames, critical, issuer] => makeAltnamesExt T altnames critical issuer
  | some _ => .error .badArgCount

/-- `_cert_create_parse_options`: the extensions. -/
def certCreateParseOptions (T : Numbers) (opts : Options) : Except Fault (List Obj) :=
  match T.asInteger opts.capathlen with
  | none => .error (.badValue opts.capathlen)
  | some capathlen => do
      let words ← listOf opts.purpose
      let purpose := words.map Obj.text
      let constraints ← opts.constraints purpose capathlen
      let basic ← basicConstraintsArgs T constraints
      let keyusage ← withExtra opts.keyusage (extraKeyusage purpose)
      let usage ← extensionOf keyusage keyusageArgs
      let enhkeyusage ← withExtra opts.enhkeyusage (extraEnhkeyusage purpose)
      let enhanced ← extensionOf enhkeyusage enhkeyusageArgs
      let alt ← extensionOf opts.altnames (altnamesArgs T)
      pure (basic :: (usage ++ (enhanced ++ alt)))

/-! ### What is asked for -/

inductive Asked where
  | basicConstraints (value : Obj)
  | keyUsage (names : List String)
  | enhkeyUsage (names : List String)
  | altNames (issuer : Bool) (pairs : List Obj)

structure Ask where
  what : Asked
  critical : Obj

/-- The elements of a value that is a list. -/
def parts (o : Obj) : List Obj := o.elements.getD []

def names (o : Obj) : List String := (parts o).map Obj.text

/-- An option whose value is a list of names, and a purpose that has more of them. -/
def askNames (what : List String → Asked) (option : Option Obj) (extra : List String) : List Ask :=
  match option with
  | none => if extra = [] then [] else [⟨what extra, one⟩]
  | some option => [⟨what (names (nth (parts option) 0) ++ extra), (parts option).getD 1 zero⟩]

def Options.askConstraints (T : Numbers) (opts : Options) : Ask :=
  if "ca" ∈ names opts.purpose then
    if (T.asInteger opts.capathlen).any fun n => n < 0 then
      ⟨.basicConstraints (.list [one, zero, zero]), one⟩
    else ⟨.basicConstraints (.list [one, one, .atom opts.capathlen]), one⟩
  else
    match opts.basicconstraints with
    | none => ⟨.basicConstraints (.list [zero, zero, zero]), one⟩
    | some option => ⟨.basicConstraints (nth (parts option) 0), (parts option).getD 1 one⟩

def Options.askAltnames (T : Numbers) (opts : Options) : List Ask :=
  match opts.altnames with
  | none => []
  | some option =>
    [⟨.altNames (T.asBoolean ((parts option).getD 2 zero).text = some true)
        (parts (nth (parts option) 0)),
      (parts option).getD 1 zero⟩]

def Options.asks (T : Numbers) (opts : Options) : List Ask :=
  opts.askConstraints T ::
    (askNames .keyUsage opts.keyusage (extraKeyusage (names opts.purpose)) ++
      (askNames .enhkeyUsage opts.enhkeyusage (extraEnhkeyusage (names opts.purpose)) ++
        opts.askAltnames T))

/-- The extension is one that is made of what is asked for. -/
def Ask.Makes (ask : Ask) (ext : Obj) : Prop :=
  match ask.what with
  | .basicConstraints value =>
    ext = .list [.atom "2.5.29.19", ask.critical,
      .list [nth (parts value) 0, nth (parts value) 1, nth (parts value) 2]]
  | .keyUsage names =>
    ∃ byte1 byte2, keyusageBytes names (0, 0) = some (byte1, byte2) ∧
      ext = .list [.atom "2.5.29.15", ask.critical, .list [.ofBytes [byte1, byte2], .ofDWORD 7]]
  | .enhkeyUsage names =>
    ∃ oids, Cert.getEnhkeyUsageOids names = .ok oids ∧
      ext = .list [.atom "2.5.29.37", ask.critical, .list (oids.map .atom)]
  | .altNames issuer pairs =>
    ∃ entries, parseList altEntry pairs = .ok entries ∧
      ext = .list [.atom (if issuer then "2.5.29.18" else "2.5.29.17"), ask.critical, .list entries]

/-! ### The options that extensions are made of -/

theorem of_bind_ok {α β : Type} {x : Except Fault α} {f : α → Except Fault β} {b : β}
    (ok : x >>= f = .ok b) : ∃ a, x = .ok a ∧ f a = .ok b := by
  cases x with
  | error fault => cases ok
  | ok a => exact ⟨a, rfl, ok⟩

theorem parts_of_listOf {o : Obj} {xs : List Obj} (ok : listOf o = .ok xs) : parts o = xs := by
  unfold listOf at ok
  unfold parts
  split at ok
  · cases ok
  · rename_i list
    cases ok
    rw [list]
    rfl

theorem names_atoms (xs : List String) : (xs.map Obj.atom).map Obj.text = xs := by
  rw [List.map_map]
  exact List.map_id xs

theorem criticalArgs_ok {option default : Obj} {args : Obj × Obj}
    (ok : criticalArgs option default = .ok args) :
    args = (nth (parts option) 0, (parts option).getD 1 default) := by
  unfold criticalArgs at ok
  unfold parts
  split at ok
  · cases ok
  · rename_i list
    cases ok
    rw [list]
    rfl
  · rename_i list
    cases ok
    rw [list]
    rfl
  · cases ok

variable {T : Numbers} {exts : List Obj}

theorem makes_constraints {value critical ext : Obj}
    (made : makeBasicConstraintsExt T value critical = .ok ext) :
    Ask.Makes ⟨.basicConstraints value, critical⟩ ext := by
  unfold makeBasicConstraintsExt at made
  cases list : listOf value with
  | error fault =>
    rw [list] at made
    cases made
  | ok xs =>
    rw [list] at made
    dsimp only at made
    split at made
    · cases made
      have known := parts_of_listOf list
      subst known
      rfl
    · cases made

theorem makes_keyusage {value critical ext : Obj} (made : makeKeyusageExt value critical = .ok ext) :
    Ask.Makes ⟨.keyUsage (names value), critical⟩ ext := by
  unfold makeKeyusageExt at made
  cases list : listOf value with
  | error fault =>
    rw [list] at made
    cases made
  | ok usages =>
    rw [list] at made
    dsimp only at made
    split at made
    · rename_i byte1 byte2 bytes
      cases made
      rw [names, parts_of_listOf list]
      exact ⟨byte1, byte2, bytes, rfl⟩
    · cases made

theorem makes_enhkeyusage {value critical ext : Obj}
    (made : makeEnhkeyusageExt value critical = .ok ext) :
    Ask.Makes ⟨.enhkeyUsage (names value), critical⟩ ext := by
  unfold makeEnhkeyusageExt at made
  cases list : listOf value with
  | error fault =>
    rw [list] at made
    cases made
  | ok xs =>
    rw [list] at made
    dsimp only at made
    split at made
    · rename_i oids known
      cases made
      rw [names, parts_of_listOf list]
      exact ⟨oids, known, rfl⟩
    · cases made

theorem makes_altnames {value critical issuer ext : Obj}
    (made : makeAltnamesExt T value critical issuer = .ok ext) :
    Ask.Makes ⟨.altNames (T.asBoolean issuer.text = some true) (parts value), critical⟩ ext := by
  unfold makeAltnamesExt at made
  cases list : listOf value with
  | error fault =>
    rw [list] at made
    cases made
  | ok pairs =>
    rw [list] at made
    dsimp only at made
    cases entries : parseList altEntry pairs with
    | error fault =>
      rw [entries] at made
      cases made
    | ok entries' =>
      rw [entries] at made
      dsimp only at made
      split at made
      · cases made
      · rename_i flag known
        cases made
        rw [parts_of_listOf list, known]
        refine ⟨entries', entries, ?_⟩
        cases flag <;> rfl

theorem makes_of_extra {what : List String → Asked} {make : Obj → Obj → Except Fault Obj}
    (makes : ∀ {value critical ext}, make value critical = .ok ext →
      Ask.Makes ⟨what (names value), critical⟩ ext) {option option' : Option Obj}
    {extra : List String} (with_ : withExtra option extra = .ok option')
    (made : extensionOf option' (fun o => do
      let args ← criticalArgs o zero
      make args.1 args.2) = .ok exts) :
    List.Forall₂ Ask.Makes (askNames what option extra) exts := by
  -- The one extension of an option, for a value with the names that are asked for.
  have single {o : Obj} (value : Obj) {critical : Obj} (isValue : names (nth (parts o) 0) = names value)
      (isCritical : (parts o).getD 1 zero = critical)
      (made : extensionOf (some o) (fun o => do
        let args ← criticalArgs o zero
        make args.1 args.2) = .ok exts) :
      List.Forall₂ Ask.Makes [⟨what (names value), critical⟩] exts := by
    obtain ⟨ext, one_, rfl⟩ := map_ok made
    obtain ⟨args, split_, made⟩ := of_bind_ok one_
    rw [criticalArgs_ok split_] at made
    rw [← isValue, ← isCritical]
    exact .cons (makes made) .nil
  unfold withExtra at with_
  unfold askNames
  by_cases none_ : extra = []
  · rw [if_pos none_] at with_
    cases with_
    subst none_
    cases option with
    | none =>
      cases made
      exact .nil
    | some o =>
      dsimp only
      rw [List.append_nil]
      exact single _ rfl rfl made
  · rw [if_neg none_] at with_
    cases option with
    | none =>
      cases with_
      dsimp only
      rw [if_neg none_]
      have names_ : names (.list (extra.map .atom)) = extra := names_atoms extra
      have made := single (.list (extra.map .atom)) rfl rfl made
      rwa [names_] at made
    | some o =>
      dsimp only at with_ ⊢
      split at with_
      · cases with_
      · rename_i list
        cases with_
        have value : names (nth (parts o) 0) ++ extra = names (.list (extra.map .atom)) := by
          rw [parts_of_listOf list]
          exact (names_atoms extra).symm
        have critical : (parts o).getD 1 zero = zero := by
          rw [parts_of_listOf list]
          rfl
        rw [value, critical]
        exact single _ rfl rfl made
      · rename_i first rest list
        split at with_
        · cases with_
        · rename_i given inner
          cases with_
          have value : names (nth (parts o) 0) ++ extra =
              names (.list (given ++ extra.map .atom)) := by
            have all : names (.list (given ++ extra.map .atom)) =
                (given ++ extra.map Obj.atom).map Obj.text := rfl
            have own : names first = given.map Obj.text := by rw [names, parts_of_listOf inner]
            rw [parts_of_listOf list, all, List.map_append, names_atoms, ← own]
            rfl
          have critical : (parts o).getD 1 zero =
              (parts (.list (.list (given ++ extra.map .atom) :: rest))).getD 1 zero := by
            rw [parts_of_listOf list]
            rfl
          rw [value, critical]
          exact single _ rfl rfl made

theorem makes_askConstraints {opts : Options} {capathlen : Int} {option ext : Obj}
    (number : T.asInteger opts.capathlen = some capathlen)
    (given : opts.constraints (names opts.purpose) capathlen = .ok option)
    (made : basicConstraintsArgs T option = .ok ext) : Ask.Makes (opts.askConstraints T) ext := by
  obtain ⟨args, split_, made⟩ := of_bind_ok made
  rw [criticalArgs_ok split_] at made
  have makes := makes_constraints made
  unfold Options.constraints at given
  unfold Options.askConstraints
  by_cases ca : "ca" ∈ names opts.purpose
  · rw [if_pos ca] at given ⊢
    cases none_ : opts.basicconstraints with
    | some o =>
      rw [none_] at given
      cases given
    | none =>
      rw [none_] at given
      rw [number, Option.any_some]
      dsimp only at given
      by_cases negative : capathlen < 0
      · rw [if_pos negative] at given
        cases given
        rw [if_pos (decide_eq_true negative)]
        exact makes
      · rw [if_neg negative] at given
        cases given
        rw [if_neg fun is => negative (of_decide_eq_true is)]
        exact makes
  · rw [if_neg ca] at given ⊢
    cases some_ : opts.basicconstraints with
    | none =>
      rw [some_] at given
      cases given
      exact makes
    | some o =>
      rw [some_] at given
      cases given
      exact makes

theorem makes_askAltnames {opts : Options}
    (made : extensionOf opts.altnames (altnamesArgs T) = .ok exts) :
    List.Forall₂ Ask.Makes (opts.askAltnames T) exts := by
  unfold Options.askAltnames
  cases some_ : opts.altnames with
  | none =>
    rw [some_] at made
    cases made
    exact .nil
  | some o =>
    rw [some_] at made
    obtain ⟨ext, isExt, rfl⟩ := map_ok made
    refine .cons ?_ .nil
    unfold parts
    unfold altnamesArgs at isExt
    split at isExt
    · cases isExt
    · rename_i list
      rw [list]
      exact makes_altnames isExt
    · rename_i list
      rw [list]
      exact makes_altnames isExt
    · rename_i list
      rw [list]
      exact makes_altnames isExt
    · cases isExt

theorem asks_of_options {opts : Options} (made : certCreateParseOptions T opts = .ok exts) :
    List.Forall₂ Ask.Makes (opts.asks T) exts := by
  unfold certCreateParseOptions at made
  cases number : T.asInteger opts.capathlen with
  | none =>
    rw [number] at made
    cases made
  | some capathlen =>
    rw [number] at made
    obtain ⟨words, list, made⟩ := of_bind_ok made
    obtain ⟨constraints, given, made⟩ := of_bind_ok made
    obtain ⟨basic, isBasic, made⟩ := of_bind_ok made
    obtain ⟨keyusage, extra, made⟩ := of_bind_ok made
    obtain ⟨usage, isUsage, made⟩ := of_bind_ok made
    obtain ⟨enhkeyusage, extra', made⟩ := of_bind_ok made
    obtain ⟨enhanced, isEnhanced, made⟩ := of_bind_ok made
    obtain ⟨alt, isAlt, made⟩ := of_bind_ok made
    cases made
    have purpose : words.map Obj.text = names opts.purpose := by
      rw [names, parts_of_listOf list]
    rw [purpose] at given extra extra'
    unfold Options.asks
    refine .cons ?_ (List.rel_append (makes_of_extra makes_keyusage extra isUsage)
      (List.rel_append (makes_of_extra makes_enhkeyusage extra' isEnhanced) ?_))
    · exact makes_askConstraints number given isBasic
    · exact makes_askAltnames isAlt

end Twapi.Request
