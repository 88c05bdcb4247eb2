import Twapi.Handles.Model

/-!
The balance of the registry: as many references are registered as the script owns.

* `Proper` — what a command keeps; `Proper.append` puts commands together.
* `Balanced` — of a sequence of commands.
* `balanced_iff` says which sequences are balanced.
-/

namespace Twapi.Handles

open Lib (Traced Entry)
open Lib.Traced Multiset

/-! ### What is asked of a command -/

/-- The references that the script owns. -/
def references (es : List Event) : List (Entry Handle) :=
  es.filterMap fun
    | .hands h => some (.acquire h)
    | .frees h => some (.release h)
    | _ => none

/-- What was unregistered, and then freed. -/
def releases (es : List Event) : List (Entry Handle) :=
  es.filterMap fun
    | .unregisters h => some (.acquire h)
    | .frees h => some (.release h)
    | _ => none

/-- What a command registered and neither returned nor unregistered. -/
def undelivered (open_ : Multiset Handle) (es : List Event) : Multiset Handle :=
  es.foldl (fun open_ e =>
    match e with
    | .registers h => h ::ₘ open_
    | .unregisters h => open_.erase h
    | .returns h => open_.erase h
    | _ => open_) open_

/-- Where as many references are owned as are registered, it stays so: every handle that
is freed was unregistered, once for each time, and what is registered is returned. -/
structure Proper (r : Registry) (es : List Event) : Prop where
  balanced : Entry.after (references es) r = some (registryAfter r es)
  released : Entry.Settled (releases es)
  delivered : undelivered 0 es = 0

/-- Before and after each command the registry has the references that the script owns;
handles are freed and delivered as they should be. -/
def Balanced (registry owned : Registry) : List (List Event) → Prop
  | [] => registry = owned
  | es :: later =>
    registry = owned ∧ Entry.Settled (releases es) ∧ undelivered 0 es = 0 ∧
      ∃ owned', Entry.after (references es) owned = some owned' ∧
        Balanced (registryAfter registry es) owned' later

/-- The property of a certificate is a provider of which there is no reference, or one
that is not returned. -/
def Property.strays : Property → Bool
  | .keyContext (some (_, capi)) own => capi || own
  | .keyProvHandle (some _) own => !own
  | _ => false

/-- The command registers a provider that it does not return, or of which the script owns
no reference. -/
def Call.strays (r : Registry) : Call → Bool
  | .certGetCertificateContextProperty cert args cooked property _ =>
    (verified r .cert cert).isSome && args && cooked && property.strays
  | .cryptAcquireCertificatePrivateKey cert args (some (_, own)) =>
    (verified r .cert cert).isSome && args && !own
  | _ => false

/-- No command of the sequence does. -/
def NoneStrays : Registry → List Call → Prop
  | _, [] => True
  | r, call :: calls =>
    call.strays r = false ∧ NoneStrays (registryAfter r (call.run r).events) calls

/-! ### Proper commands -/

section Rules

variable {r : Registry} {es es' : List Event} {h : Handle}

theorem references_append : references (es ++ es') = references es ++ references es' :=
  List.filterMap_append

theorem releases_append : releases (es ++ es') = releases es ++ releases es' :=
  List.filterMap_append

theorem registryAfter_append : registryAfter r (es ++ es') = registryAfter (registryAfter r es) es' :=
  List.foldl_append

theorem Proper.nil : Proper r [] := ⟨rfl, rfl, rfl⟩

theorem Proper.append (first : Proper r es) (second : Proper (registryAfter r es) es') :
    Proper r (es ++ es') where
  balanced := by
    rw [references_append, Entry.after_append, first.balanced, Option.bind_some, second.balanced,
      registryAfter_append]
  released := by
    have settled := first.released
    unfold Entry.Settled at settled ⊢
    rw [releases_append, Entry.after_append, settled]
    exact second.released
  delivered := by
    have delivered := first.delivered
    unfold undelivered at delivered ⊢
    rw [List.foldl_append, delivered]
    exact second.delivered

theorem Proper.hand (r : Registry) (h : Handle) : Proper r (Handles.hand h).events := by
  refine ⟨rfl, rfl, ?_⟩
  exact erase_cons_head h 0

/-- What is unregistered was registered, and is freed. -/
theorem Proper.free (among : h ∈ r) : Proper r [.unregisters h, .frees h] := by
  refine ⟨if_pos among, ?_, rfl⟩
  have own : h ∈ h ::ₘ (0 : Multiset Handle) := mem_cons_self h 0
  unfold Entry.Settled
  have events : releases [.unregisters h, .frees h] = [.acquire h, .release h] := rfl
  rw [events, Entry.after, Entry.after, if_pos own, Entry.after, erase_cons_head]

theorem proper_acquiring (args : Bool) (tag : Tag) (answer : Option Address) :
    Proper r (acquiring args tag answer).events := by
  unfold acquiring
  cases args with
  | false => exact .nil
  | true =>
    cases answer with
    | none => exact .nil
    | some address => exact .hand r _

theorem proper_releasing (args : Bool) (tag : Tag) (arg : Arg) (freed : Bool) :
    Proper r (releasing r args tag arg freed).events := by
  cases arg with
  | bad => exact .nil
  | null => exact .nil
  | pointer address =>
    cases args with
    | false => exact .nil
    | true =>
      by_cases among : ⟨tag, address⟩ ∈ r
      · have free : (releasing r true tag (.pointer address) freed).events =
            [.unregisters ⟨tag, address⟩, .frees ⟨tag, address⟩] := by
          simp [releasing, unregister, among]
        rw [free]
        exact .free among
      · have none : (releasing r true tag (.pointer address) freed).events = [] := by
          simp [releasing, unregister, among]
        rw [none]
        exact .nil

theorem proper_found (answer : Option Address) (atEnd : Bool) :
    Proper r (found answer atEnd).events := by
  cases answer with
  | none => exact .nil
  | some address => exact .hand r _

variable {previous : Option Handle}

/-- The previous context is unregistered and freed before another one is found. -/
theorem proper_consume (among : ∀ h, previous = some h → h ∈ r) (next : Traced Event Bool)
    (proper : ∀ r, Proper r next.events) :
    (unregisterContext r previous).result = true ∧
      Proper r ((unregisterContext r previous).events ++
        ((freeContext previous).events ++ next.events)) := by
  cases previous with
  | none => exact ⟨rfl, proper r⟩
  | some h =>
    have registered := among h rfl
    have events : (unregister r h).events = [.unregisters h] := by simp [unregister, registered]
    have result : (unregister r h).result = true := by simp [unregister, registered]
    refine ⟨result, ?_⟩
    rw [unregisterContext, events, ← List.append_assoc]
    exact .append (.free registered) (proper _)

theorem among_of_verifiedOrNull {tag : Tag} {arg : Arg}
    (is : verifiedOrNull r tag arg = some previous) : ∀ h, previous = some h → h ∈ r := by
  rintro h rfl
  cases arg with
  | bad => cases is
  | null => cases is
  | pointer address =>
    by_cases among : ⟨tag, address⟩ ∈ r
    · have same : some (some _) = some (some h) := (if_pos among).symm.trans is
      cases same
      exact among
    · cases (if_neg among).symm.trans is

theorem proper_enumNext (previous : Option Handle) (answer : Option Address) (atEnd : Bool) :
    Proper r (enumNext r previous answer atEnd).events := by
  by_cases among : ∀ h, previous = some h → h ∈ r
  · obtain ⟨result, proper⟩ := proper_consume among (found answer atEnd) fun _ => proper_found answer atEnd
    have events : (enumNext r previous answer atEnd).events =
        (unregisterContext r previous).events ++
          ((freeContext previous).events ++ (found answer atEnd).events) := by
      simp [enumNext, result]
    rw [events]
    exact proper
  · obtain ⟨h, not⟩ := not_forall.mp among
    obtain ⟨rfl, missing⟩ := Classical.not_imp.mp not
    have none : (enumNext r (some h) answer atEnd).events = [] := by
      simp [enumNext, unregisterContext, unregister, missing]
    rw [none]
    exact .nil

theorem proper_certEnumCertificatesInStore (store cert : Arg) (args : Bool)
    (answer : Option Address) (atEnd : Bool) :
    Proper r (certEnumCertificatesInStore r store cert args answer atEnd).events := by
  unfold certEnumCertificatesInStore
  split
  · cases cert with
    | bad => exact .nil
    | null => exact proper_enumNext none answer atEnd
    | pointer address => exact proper_enumNext (some ⟨.cert, address⟩) answer atEnd
  · exact .nil

theorem proper_certFindCertificateInStore (store : Arg) (numbers : Bool) (find : Find) (cert : Arg)
    (extra : Bool) (answer : Option Address) (atEnd : Bool) :
    Proper r (certFindCertificateInStore r store numbers find cert extra answer atEnd).events := by
  unfold certFindCertificateInStore
  split
  · cases is : verifiedOrNull r .cert cert with
    | none => exact .nil
    | some previous =>
      have among := among_of_verifiedOrNull is
      cases extra with
      | true =>
        obtain ⟨result, proper⟩ := proper_consume among (pure false) fun _ => .nil
        simpa [result] using proper
      | false =>
        cases parses : find.parses r with
        | false =>
          obtain ⟨result, proper⟩ := proper_consume among (pure false) fun _ => .nil
          simpa [parses] using proper
        | true =>
          obtain ⟨result, proper⟩ :=
            proper_consume among (found answer atEnd) fun _ => proper_found answer atEnd
          simpa [parses, result] using proper
  · exact .nil

theorem proper_certGetIssuerCertificateFromStore (store cert issuer : Arg) (args : Bool)
    (answer : Option Address) (atEnd : Bool) :
    Proper r (certGetIssuerCertificateFromStore r store cert issuer args answer atEnd).events := by
  unfold certGetIssuerCertificateFromStore
  split
  · cases is : verifiedOrNull r .cert issuer with
    | none => exact .nil
    | some previous =>
      have among := among_of_verifiedOrNull is
      cases args with
      | false =>
        obtain ⟨result, proper⟩ := proper_consume among (pure false) fun _ => .nil
        simpa [result] using proper
      | true =>
        obtain ⟨result, proper⟩ :=
          proper_consume among (found answer atEnd) fun _ => proper_found answer atEnd
        simpa [result] using proper
  · exact .nil

theorem proper_handAll (elements : List Address) : Proper r (handAll elements).events := by
  induction elements generalizing r with
  | nil => exact .nil
  | cons address rest ih => exact .append (.hand r _) ih

theorem proper_certChainSimpleChain (chain : Arg) (args : Bool) (elements : List Address) :
    Proper r (certChainSimpleChain r chain args elements).events := by
  unfold certChainSimpleChain
  split
  · simpa using proper_handAll elements
  · exact .nil

theorem registryAfter_enrol (handles : List Handle) (r : Registry) :
    registryAfter r (enrol handles).events = ↑handles + r := by
  induction handles generalizing r with
  | nil => exact (Multiset.zero_add r).symm
  | cons h rest ih =>
    have step : registryAfter r (enrol (h :: rest)).events =
        registryAfter (h ::ₘ r) (enrol rest).events := rfl
    rw [step, ih, ← cons_coe, add_cons, cons_add]

theorem enrol_events (handles : List Handle) :
    references (enrol handles).events = [] ∧ releases (enrol handles).events = [] ∧
      undelivered 0 (enrol handles).events = 0 := by
  induction handles with
  | nil => exact ⟨rfl, rfl, rfl⟩
  | cons h rest ih =>
    refine ⟨ih.1, ih.2.1, ?_⟩
    have step : undelivered 0 (enrol (h :: rest)).events =
        undelivered ((h ::ₘ 0).erase h) (enrol rest).events := rfl
    rw [step, erase_cons_head]
    exact ih.2.2

theorem handed_events (handles : List Handle) :
    references (handles.map .hands) = handles.map .acquire ∧ releases (handles.map .hands) = [] ∧
      undelivered 0 (handles.map .hands) = 0 ∧ registryAfter r (handles.map .hands) = r := by
  induction handles with
  | nil => exact ⟨rfl, rfl, rfl, rfl⟩
  | cons h rest ih =>
    refine ⟨?_, ih.2.1, ih.2.2.1, ih.2.2.2⟩
    exact congrArg (List.cons (.acquire h)) ih.1

/-- Handles that are handed out together are registered and returned one by one. -/
theorem proper_enrol (handles : List Handle) :
    Proper r (handles.map .hands ++ (enrol handles).events) := by
  obtain ⟨handed, unreleased, delivered, same⟩ := handed_events (r := r) handles
  obtain ⟨none_handed, none_released, enrolled⟩ := enrol_events handles
  refine ⟨?_, ?_, ?_⟩
  · rw [references_append, handed, none_handed, List.append_nil, Entry.after_acquires,
      registryAfter_append, same, registryAfter_enrol]
  · rw [releases_append, unreleased, none_released]
    rfl
  · unfold undelivered at delivered enrolled ⊢
    rw [List.foldl_append, delivered]
    exact enrolled

theorem proper_cryptQueryObject (args typesOnly : Bool) (answer : Option Query) :
    Proper r (cryptQueryObject args typesOnly answer).events := by
  unfold cryptQueryObject
  split
  · cases answer with
    | none => exact .nil
    | some query =>
      cases typesOnly with
      | true => exact .nil
      | false => simpa using proper_enrol query.handles
  · exact .nil

theorem cons_ne (r : Registry) (h : Handle) : h ::ₘ r ≠ r :=
  (ne_of_lt (lt_cons_self r h)).symm

theorem proper_lend_iff (own : Bool) (h : Handle) : Proper r (lend own h).events ↔ own = true := by
  cases own with
  | true => exact iff_of_true (.hand r h) rfl
  | false =>
    refine iff_of_false (fun proper => ?_) nofun
    have more : some r = some (h ::ₘ r) := proper.balanced
    injection more with same
    exact cons_ne r h same.symm

/-- The context of a key is registered where it is one of a provider, and not returned. -/
theorem proper_keyContext_iff (address : Address) (capi own raw : Bool) :
    Proper r (show Traced Event Bool from do
        tellAll (if own then [.hands ⟨.prov, address⟩] else [])
        tellAll (if capi then [.registers ⟨.prov, address⟩] else [])
        pure raw).events ↔
      (capi || own) = false := by
  cases capi with
  | true =>
    refine iff_of_false (fun proper => ?_) nofun
    have left : (⟨.prov, address⟩ ::ₘ 0 : Multiset Handle) = 0 := by
      cases own with
      | true => exact proper.delivered
      | false => exact proper.delivered
    exact cons_ne_zero left
  | false =>
    cases own with
    | true =>
      refine iff_of_false (fun proper => ?_) nofun
      have more : some (⟨.prov, address⟩ ::ₘ r) = some r := proper.balanced
      injection more with same
      exact cons_ne r _ same
    | false => exact iff_of_true .nil rfl

theorem proper_certGetCertificateContextProperty_iff (cert : Arg) (args cooked : Bool)
    (property : Property) (raw : Bool) :
    Proper r (certGetCertificateContextProperty r cert args cooked property raw).events ↔
      ((verified r .cert cert).isSome && args && cooked && property.strays) = false := by
  unfold certGetCertificateContextProperty
  cases is : (verified r .cert cert).isSome && args with
  | false => exact iff_of_true .nil rfl
  | true =>
    cases cooked with
    | false => exact iff_of_true .nil rfl
    | true =>
      cases property with
      | other cookedOk => exact iff_of_true .nil rfl
      | keyProvHandle answer own =>
        cases answer with
        | none => exact iff_of_true .nil rfl
        | some address =>
          refine (proper_lend_iff own ⟨.prov, address⟩).trans ?_
          cases own with
          | true => exact iff_of_true rfl rfl
          | false => exact iff_of_false nofun nofun
      | keyContext answer own =>
        cases answer with
        | none => exact iff_of_true .nil rfl
        | some pair =>
          obtain ⟨address, capi⟩ := pair
          exact proper_keyContext_iff address capi own raw

end Rules

/-! ### Sequences -/

section Sequences

variable {r : Registry}

theorem proper_cryptAcquireCertificatePrivateKey_iff (cert : Arg) (args : Bool)
    (answer : Option (Address × Bool)) :
    Proper r (cryptAcquireCertificatePrivateKey r cert args answer).events ↔
      (Call.cryptAcquireCertificatePrivateKey cert args answer).strays r = false := by
  unfold cryptAcquireCertificatePrivateKey
  cases answer with
  | none =>
    refine iff_of_true ?_ rfl
    split
    · exact .nil
    · exact .nil
  | some pair =>
    obtain ⟨address, own⟩ := pair
    change _ ↔ ((verified r .cert cert).isSome && args && !own) = false
    cases is : (verified r .cert cert).isSome && args with
    | false => exact iff_of_true .nil rfl
    | true =>
      refine (proper_lend_iff own ⟨.prov, address⟩).trans ?_
      cases own with
      | true => exact iff_of_true rfl rfl
      | false => exact iff_of_false nofun nofun

/-- A command is as it should be if and only if it does not register a provider that it
does not return, or that there is no reference of. -/
theorem proper_run_iff (call : Call) : Proper r (call.run r).events ↔ call.strays r = false := by
  cases call with
  | certOpenSystemStore args answer => exact iff_of_true (proper_acquiring ..) rfl
  | certOpenStore args answer deleted =>
    refine iff_of_true ?_ rfl
    cases args with
    | false => exact proper_acquiring ..
    | true =>
      cases answer with
      | none => exact .nil
      | some address => exact proper_acquiring ..
  | pfxImportCertStore args answer => exact iff_of_true (proper_acquiring ..) rfl
  | certStoreDuplicate store answer => exact iff_of_true (proper_acquiring ..) rfl
  | certCreateCertificateContext args answer => exact iff_of_true (proper_acquiring ..) rfl
  | certDuplicate cert answer => exact iff_of_true (proper_acquiring ..) rfl
  | certAddCertificateContextToStore store cert args answer =>
    exact iff_of_true (proper_acquiring ..) rfl
  | certAddEncodedCertificateToStore store args answer => exact iff_of_true (proper_acquiring ..) rfl
  | certCreateSelfSignCertificate prov args answer => exact iff_of_true (proper_acquiring ..) rfl
  | certGetCertificateChain cert store args answer => exact iff_of_true (proper_acquiring ..) rfl
  | cryptGenKey prov args answer => exact iff_of_true (proper_acquiring ..) rfl
  | cryptGetUserKey prov args answer => exact iff_of_true (proper_acquiring ..) rfl
  | cryptDeriveKey prov hash args answer => exact iff_of_true (proper_acquiring ..) rfl
  | cryptImportKey prov key args answer => exact iff_of_true (proper_acquiring ..) rfl
  | cryptImportPublicKeyInfoEx prov args answer => exact iff_of_true (proper_acquiring ..) rfl
  | cryptCreateHash prov key args answer => exact iff_of_true (proper_acquiring ..) rfl
  | capiHashDup hash answer => exact iff_of_true (proper_acquiring ..) rfl
  | cryptAcquireContext args deleteKeyset answer =>
    refine iff_of_true ?_ rfl
    simp only [Call.run, cryptAcquireContext]
    split
    · exact .nil
    · exact proper_acquiring ..
  | certRelease cert freed => exact iff_of_true (proper_releasing ..) rfl
  | certCloseStore store args freed => exact iff_of_true (proper_releasing ..) rfl
  | certChainRelease chain => exact iff_of_true (proper_releasing ..) rfl
  | capiKeyFree key freed => exact iff_of_true (proper_releasing ..) rfl
  | capiHashFree hash freed => exact iff_of_true (proper_releasing ..) rfl
  | cryptReleaseContext prov args freed => exact iff_of_true (proper_releasing ..) rfl
  | certDeleteFromStore cert deleted => exact iff_of_true (proper_releasing ..) rfl
  | certEnumCertificatesInStore store cert args answer atEnd =>
    exact iff_of_true (proper_certEnumCertificatesInStore ..) rfl
  | certFindCertificateInStore store numbers find cert extra answer atEnd =>
    exact iff_of_true (proper_certFindCertificateInStore ..) rfl
  | certGetIssuerCertificateFromStore store cert issuer args answer atEnd =>
    exact iff_of_true (proper_certGetIssuerCertificateFromStore ..) rfl
  | certGetCertificateContextProperty cert args cooked property raw =>
    exact proper_certGetCertificateContextProperty_iff ..
  | cryptAcquireCertificatePrivateKey cert args answer =>
    exact proper_cryptAcquireCertificatePrivateKey_iff ..
  | certChainSimpleChain chain args elements =>
    exact iff_of_true (proper_certChainSimpleChain ..) rfl
  | cryptQueryObject args typesOnly answer => exact iff_of_true (proper_cryptQueryObject ..) rfl
  | inspect ok => exact iff_of_true .nil rfl

theorem Balanced.registry_eq {registry owned : Registry} {ess : List (List Event)}
    (balanced : Balanced registry owned ess) : registry = owned := by
  cases ess with
  | nil => exact balanced
  | cons es later => exact balanced.1

theorem balanced_cons_iff {es : List Event} {later : List (List Event)} :
    Balanced r r (es :: later) ↔
      Proper r es ∧ Balanced (registryAfter r es) (registryAfter r es) later := by
  constructor
  · rintro ⟨-, released, delivered, owned, after, balanced⟩
    have same := balanced.registry_eq
    subst same
    exact ⟨⟨after, released, delivered⟩, balanced⟩
  · rintro ⟨proper, balanced⟩
    exact ⟨rfl, proper.released, proper.delivered, _, proper.balanced, balanced⟩

theorem balanced_from_iff (calls : List Call) (r : Registry) :
    Balanced r r (trace r calls) ↔ NoneStrays r calls := by
  induction calls generalizing r with
  | nil => exact iff_of_true rfl trivial
  | cons call calls ih => rw [trace, balanced_cons_iff, proper_run_iff, ih, NoneStrays]

/-- In a sequence of commands the registry keeps the references that the script owns if
and only if no command registers a provider that it does not return, or that there is no
reference of. -/
theorem balanced_iff (calls : List Call) : Balanced 0 0 (trace 0 calls) ↔ NoneStrays 0 calls :=
  balanced_from_iff calls 0

/-- The key context of a certificate: its provider is registered, and bytes are returned. -/
theorem keyContext_unbalanced :
    ¬ Balanced 0 0 (trace 0 [.certCreateCertificateContext true (some 1),
      .certGetCertificateContextProperty (.pointer 1) true true (.keyContext (some (2, true)) false)
        true]) := by
  rintro ⟨-, -, -, owned, -, -, -, delivered, -⟩
  revert delivered
  decide

end Sequences

end Twapi.Handles
