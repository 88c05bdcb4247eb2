import Twapi.Lib.Ledger
import Twapi.Lib.Traced

/-!
Iteration over the certificates of a store: `cert_store_iterate` and
`cert_store_find_certificate` of `tcl/crypto.tcl`, and `Twapi_CertFindCertificateInStoreObjCmd`
of `crypto/crypto.c`.

* `CertFindCertificateInStore` is a parameter; `Enumerates` says that it gives the certificates
  of a list one after the other. It frees the one that it starts from.
* `Term` is what the conversions make of the search term, and `Body` what an evaluation of the
  body does. It leaves the contexts and the variable alone.
* Events are the evaluations, and the contexts that are got and freed.
* `storeIterate_proper_iff` — the iterations that evaluate the body for each certificate and free
  each context once.
-/

namespace Twapi.Cert.Iterate

open Lib
open Lib.Traced

/-- A `PCCERT_CONTEXT` -/
abbrev Context := Nat

/-! ### `Twapi_CertFindCertificateInStoreObjCmd` -/

structure Term where
  certHandle : Option Context
  isCertInfo : Bool
  isPublicKeyInfo : Bool
  isDword : Bool
  /-- For `_cert_prop_id`. -/
  isPropId : Bool
deriving DecidableEq

inductive Found where
  | found (cert : Context)
  | notFound
  | failed (winerr : Nat)
deriving DecidableEq

abbrev Find := (findtype : Nat) → Term → Option Context → Found

/-- Whether the store is open, and the contexts that are registered, as often as they are. -/
structure State where
  storeOpen : Bool
  registered : List Context
deriving DecidableEq

inductive Event where
  | evaluated (cert : Context)
  | entry (e : Entry Context)
deriving DecidableEq

def certFindAny : Nat := 0
def certFindSha1Hash : Nat := 1 <<< 16
def certFindIssuerName : Nat := 2 <<< 16 ||| 4
def certFindSubjectName : Nat := 2 <<< 16 ||| 7
def certFindMd5Hash : Nat := 4 <<< 16
def certFindProperty : Nat := 5 <<< 16
def certFindPublicKey : Nat := 6 <<< 16
def certFindIssuerStr : Nat := 8 <<< 16 ||| 4
def certFindSubjectStr : Nat := 8 <<< 16 ||| 7
def certFindKeySpec : Nat := 9 <<< 16
def certFindSubjectCert : Nat := 11 <<< 16
def certFindExisting : Nat := 13 <<< 16
def certFindSignatureHash : Nat := 14 <<< 16
def certFindKeyIdentifier : Nat := 15 <<< 16
def certFindPubkeyMd5Hash : Nat := 18 <<< 16

/-- The `switch`: whether there is a `pv` to search for. -/
def searchable (registered : List Context) (findtype : Nat) (t : Term) : Bool :=
  if findtype = certFindAny then true
  else if findtype = certFindExisting then t.certHandle.any fun c => c ∈ registered
  else if findtype = certFindSubjectCert then t.isCertInfo
  else if findtype ∈ [certFindKeyIdentifier, certFindMd5Hash, certFindPubkeyMd5Hash,
      certFindSha1Hash, certFindSignatureHash, certFindIssuerName, certFindSubjectName] then true
  else if findtype ∈ [certFindIssuerStr, certFindSubjectStr] then true
  else if findtype ∈ [certFindProperty, certFindKeySpec] then t.isDword
  else if findtype = certFindPublicKey then t.isPublicKeyInfo
  else false

def acquired (c : Context) : Traced Event Unit := tell (.entry (.acquire c))

def released (cs : List Context) : Traced Event Unit :=
  tellAll (cs.map fun c => .entry (.release c))

abbrev Result := Except Unit (Option Context)

def findCertificateInStoreObjCmd (find : Find) (findtype : Nat) (t : Term)
    (certP : Option Context) (s : State) : Traced Event (State × Result) :=
  -- The store is the first argument, `certP` the last: without a store it is still null.
  if !s.storeOpen then return (s, .error ())
  else if !certP.all (fun c => c ∈ s.registered) then return (s, .error ())
  else do
    let left := certP.elim s.registered s.registered.erase
    released certP.toList
    if searchable s.registered findtype t then
      match find findtype t certP with
      | .found cert => do
          acquired cert
          return ({ s with registered := cert :: left }, .ok (some cert))
      | .notFound => return ({ s with registered := left }, .ok none)
      | .failed _ => return ({ s with registered := left }, .error ())
    else return ({ s with registered := left }, .error ())

/-! ### `twapi::cert_store_find_certificate` -/

def termTypes : List (String × Nat) :=
  [("any", certFindAny), ("existing", certFindExisting), ("key_identifier", certFindKeyIdentifier),
    ("md5_hash", certFindMd5Hash), ("subject_public_key_md5_hash", certFindPubkeyMd5Hash),
    ("sha1_hash", certFindSha1Hash), ("signature_hash", certFindSignatureHash),
    ("issuer_name", certFindIssuerName), ("subject_name", certFindSubjectName),
    ("issuer_substring", certFindIssuerStr), ("subject_substring", certFindSubjectStr),
    ("property", certFindProperty), ("public_key", certFindPublicKey)]

/-- The type and the term that are searched for; the id of a property is an integer. -/
def resolve (type : String) (t : Term) : Option (Nat × Term) :=
  if type = "property" ∧ !t.isPropId then none
  else
    (termTypes.lookup type).map fun findtype =>
      (findtype, if type = "property" then { t with isDword := true } else t)

def certStoreFindCertificate (find : Find) (type : String) (t : Term) (hcert : Option Context)
    (s : State) : Traced Event (State × Result) :=
  match resolve type t with
  | none => return (s, .error ())
  | some (findtype, term) => findCertificateInStoreObjCmd find findtype term hcert s

def certRelease (cert : Context) (s : State) : Traced Event (State × Bool) :=
  if cert ∈ s.registered then do
    released [cert]
    return ({ s with registered := s.registered.erase cert }, true)
  else return (s, false)

/-! ### `twapi::cert_store_iterate` -/

inductive Code where
  | ok
  | error
  | «return»
  | «break»
  | «continue»
  | other (n : Int)
deriving DecidableEq

structure Body where
  /-- It closes the store. -/
  closes : Bool
  code : Code
deriving DecidableEq

def Body.goesOn (b : Body) : Bool := b.code = .ok || b.code = .«continue»

inductive Outcome where
  | empty
  | error
  | passed (code : Code)
  | endless
deriving DecidableEq

/-- The end of the iteration, with a context in the variable. -/
def leave (cert : Context) (s : State) (outcome : Outcome) : Traced Event (State × Outcome) := do
  let (s, ok) ← certRelease cert s
  return (s, if ok then outcome else .error)

variable (find : Find) (type : String) (t : Term) (body : Nat → Body)

/-- From the evaluation with number `n` on. -/
def loop : (fuel n : Nat) → Option Context → State → Traced Event (State × Outcome)
  | 0, _, _, s => return (s, .endless)
  | fuel + 1, n, cert, s => do
      let (s, result) ← certStoreFindCertificate find type t cert s
      match result with
      | .error _ => return (s, .error)
      | .ok none => return (s, .empty)
      | .ok (some cert) => do
          tell (.evaluated cert)
          let s := if (body n).closes then { s with storeOpen := false } else s
          match (body n).code with
          | .ok | .«continue» => loop fuel (n + 1) (some cert) s
          | .«break» => leave cert s .empty
          | code => leave cert s (.passed code)

def certStoreIterate (fuel : Nat) (s : State) : Traced Event (State × Outcome) :=
  loop find type t body fuel 0 none s

/-! ### What is asked for -/

/-- From a certificate, or from none, the search gives those of the list. -/
def Enumerates (search : Option Context → Found) : Option Context → List Context → Prop
  | prev, [] => ∀ cert, search prev ≠ .found cert
  | prev, cert :: certs => search prev = .found cert ∧ Enumerates search (some cert) certs

/-- The certificates up to the one that ends the iteration. -/
def visited : Nat → List Context → List Context
  | _, [] => []
  | n, cert :: certs => cert :: if (body n).goesOn then visited (n + 1) certs else []

def Event.evaluation : Event → Option Context
  | .evaluated cert => some cert
  | .entry _ => none

def Event.toEntry : Event → Option (Entry Context)
  | .evaluated _ => none
  | .entry e => some e

structure Proper (certs : List Context) (x : Traced Event (State × Outcome)) : Prop where
  evaluated : x.events.filterMap Event.evaluation = visited body 0 certs
  released : Entry.Settled (x.events.filterMap Event.toEntry)

/-- No evaluation that goes on closes the store. -/
def Keeps (certs : List Context) : Prop :=
  ∀ n < (visited body 0 certs).length, (body n).goesOn → (body n).closes = false

/-- The certificates to iterate over: none where the search cannot be made. -/
def matching (s : State) (certs : List Context) : List Context :=
  if s.storeOpen ∧ (resolve type t).any (fun r => searchable s.registered r.1 r.2) then certs
  else []

/-! ### One search -/

variable {find type t body}

theorem searchable_cons {registered : List Context} {findtype : Nat} {t : Term} (c : Context)
    (able : searchable registered findtype t = true) :
    searchable (c :: registered) findtype t = true := by
  unfold searchable at able ⊢
  split_ifs at able ⊢ <;> try exact able
  cases handle : t.certHandle with
  | none =>
    rw [handle] at able
    cases able
  | some cert =>
    rw [handle] at able
    exact decide_eq_true (List.mem_cons_of_mem _ (of_decide_eq_true able))

/-- The context that the search starts from is freed, whatever it finds. -/
theorem find_open {findtype : Nat} {term : Term} {prev : Option Context} {R : List Context}
    (able : searchable R findtype term = true) :
    findCertificateInStoreObjCmd find findtype term prev ⟨true, prev.toList ++ R⟩ = do
      released prev.toList
      match find findtype term prev with
      | .found cert => do
          acquired cert
          return (⟨true, cert :: R⟩, .ok (some cert))
      | .notFound => return (⟨true, R⟩, .ok none)
      | .failed _ => return (⟨true, R⟩, .error ()) := by
  have able' : searchable (prev.toList ++ R) findtype term = true := by
    cases prev with
    | none => exact able
    | some c => exact searchable_cons c able
  have left : prev.elim (prev.toList ++ R) (prev.toList ++ R).erase = R := by
    cases prev with
    | none => rfl
    | some c => exact List.erase_cons_head c R
  have known : prev.all (fun c => decide (c ∈ prev.toList ++ R)) = true := by
    cases prev with
    | none => rfl
    | some c => simp
  simp only [findCertificateInStoreObjCmd, Bool.not_true, Bool.false_eq_true, if_false, known,
    able', if_true, left]

/-! ### The whole iteration -/

/-- The context that is never freed: that of an evaluation which goes on without the store. -/
def leaked (body : Nat → Body) : Nat → List Context → Option Context
  | _, [] => none
  | n, cert :: certs =>
    if (body n).goesOn then if (body n).closes then some cert else leaked body (n + 1) certs
    else none

/-- The certificates that the body is evaluated for. -/
def reached (body : Nat → Body) : Nat → List Context → List Context
  | _, [] => []
  | n, cert :: certs =>
    cert :: if (body n).goesOn ∧ (body n).closes = false then reached body (n + 1) certs else []

theorem visited_cons (n : Nat) (cert : Context) (certs : List Context) :
    visited body n (cert :: certs) =
      cert :: if (body n).goesOn then visited body (n + 1) certs else [] := rfl

theorem leaked_cons (n : Nat) (cert : Context) (certs : List Context) :
    leaked body n (cert :: certs) =
      if (body n).goesOn then if (body n).closes then some cert else leaked body (n + 1) certs
      else none := rfl

@[simp] theorem evaluation_released (cs : List Context) :
    (released cs).events.filterMap Event.evaluation = [] := by
  rw [released, events_tellAll, List.filterMap_map]
  exact List.filterMap_eq_nil_iff.mpr fun _ _ => rfl

@[simp] theorem toEntry_released (cs : List Context) :
    (released cs).events.filterMap Event.toEntry = cs.map .release := by
  rw [released, events_tellAll, List.filterMap_map]
  exact List.filterMap_eq_map ▸ rfl

/-- The end of the iteration frees the context of the variable. -/
theorem leave_events (cert : Context) (o : Bool) (R : List Context) (outcome : Outcome) :
    (leave cert ⟨o, cert :: R⟩ outcome).events = (released [cert]).events := by
  simp [leave, certRelease]

section Loop

variable {findtype : Nat} {term : Term} {R : List Context}

theorem loop_closed (resolved : resolve type t = some (findtype, term)) (fuel n : Nat)
    (prev : Option Context) : (loop find type t body fuel n prev ⟨false, R⟩).events = [] := by
  cases fuel with
  | zero => rfl
  | succ fuel =>
    rw [loop, certStoreFindCertificate, resolved]
    rfl

/-- What follows an evaluation: the events up to the end, where the context `cert` is held. -/
def afterBody (find : Find) (type : String) (t : Term) (body : Nat → Body) (R : List Context)
    (fuel n : Nat) (cert : Context) : List Event :=
  if (body n).goesOn then
    if (body n).closes then []
    else (loop find type t body fuel (n + 1) (some cert) ⟨true, cert :: R⟩).events
  else (released [cert]).events

theorem loop_found (resolved : resolve type t = some (findtype, term))
    (able : searchable R findtype term = true) {prev : Option Context} {cert : Context}
    (found : find findtype term prev = .found cert) (fuel n : Nat) :
    (loop find type t body (fuel + 1) n prev ⟨true, prev.toList ++ R⟩).events =
      (released prev.toList).events ++
        .entry (.acquire cert) :: .evaluated cert :: afterBody find type t body R fuel n cert := by
  rw [loop, certStoreFindCertificate, resolved]
  simp only [find_open able, found, events_bind, result_bind, acquired, events_tell, afterBody]
  cases closes : (body n).closes <;> cases code : (body n).code <;>
    simp [Body.goesOn, code, leave_events, loop_closed resolved]

theorem loop_none (resolved : resolve type t = some (findtype, term))
    (able : searchable R findtype term = true) {prev : Option Context}
    (none : ∀ cert, find findtype term prev ≠ .found cert) (fuel n : Nat) :
    (loop find type t body (fuel + 1) n prev ⟨true, prev.toList ++ R⟩).events =
      (released prev.toList).events := by
  rw [loop, certStoreFindCertificate, resolved]
  simp only [find_open able, events_bind, result_bind]
  cases answer : find findtype term prev with
  | found cert => exact absurd answer (none cert)
  | notFound => simp
  | failed winerr => simp

theorem loop_spec (resolved : resolve type t = some (findtype, term))
    (able : searchable R findtype term = true) {certs : List Context}
    {fuel n : Nat} {prev : Option Context} (enough : certs.length < fuel)
    (enumerates : Enumerates (find findtype term) prev certs) :
    ((loop find type t body fuel n prev ⟨true, prev.toList ++ R⟩).events.filterMap
        Event.evaluation = reached body n certs) ∧
      Entry.after ((loop find type t body fuel n prev ⟨true, prev.toList ++ R⟩).events.filterMap
        Event.toEntry) ↑prev.toList = some ↑(leaked body n certs).toList := by
  induction certs generalizing fuel n prev with
  | nil =>
    obtain ⟨fuel, rfl⟩ : ∃ k, fuel = k + 1 := Nat.exists_eq_add_of_le' enough
    rw [loop_none resolved able enumerates, evaluation_released, toEntry_released]
    exact ⟨rfl, Entry.after_releases_all prev.toList⟩
  | cons cert certs ih =>
    obtain ⟨found, enumerates⟩ := enumerates
    obtain ⟨fuel, rfl⟩ : ∃ k, fuel = k + 1 :=
      Nat.exists_eq_add_of_le' (Nat.zero_lt_of_lt enough)
    have later := @ih fuel (n + 1) (some cert) (by simpa using enough) enumerates
    have rest : (afterBody find type t body R fuel n cert).filterMap Event.evaluation =
          (if (body n).goesOn ∧ (body n).closes = false then reached body (n + 1) certs
            else []) ∧
        Entry.after ((afterBody find type t body R fuel n cert).filterMap Event.toEntry) {cert} =
          some ↑(leaked body n (cert :: certs)).toList := by
      rw [afterBody, leaked_cons]
      cases goes : (body n).goesOn with
      | false => simp [Entry.after]
      | true =>
        cases closes : (body n).closes with
        | true => simp [Entry.after]
        | false => simpa [goes, closes] using later
    rw [loop_found resolved able found, List.filterMap_append, List.filterMap_append,
      evaluation_released, toEntry_released, Entry.after_append, Entry.after_releases_all]
    exact ⟨congrArg (cert :: ·) rest.1, rest.2⟩

end Loop

theorem leaked_eq_none_iff (n : Nat) (certs : List Context) :
    leaked body n certs = none ↔ ∀ m < (visited body n certs).length,
      (body (n + m)).goesOn → (body (n + m)).closes = false := by
  induction certs generalizing n with
  | nil => exact iff_of_true rfl fun _ short => nomatch short
  | cons cert certs ih =>
    rw [leaked_cons, visited_cons]
    cases goes : (body n).goesOn with
    | false =>
      refine ⟨fun _ m short going => ?_, fun _ => rfl⟩
      have first : m = 0 := by simpa using short
      rw [first, Nat.add_zero, goes] at going
      cases going
    | true =>
      cases closes : (body n).closes with
      | true =>
        refine ⟨fun none => (nomatch none), fun kept => ?_⟩
        have first := kept 0 (Nat.succ_pos _) goes
        rw [Nat.add_zero, closes] at first
        cases first
      | false =>
        simp only [if_true, Bool.false_eq_true, if_false, ih, List.length_cons]
        constructor
        · intro kept m short going
          cases m with
          | zero => exact closes
          | succ m =>
            rw [← Nat.add_assoc, Nat.add_right_comm] at going ⊢
            exact kept m (Nat.lt_of_succ_lt_succ short) going
        · intro kept m short going
          rw [Nat.add_right_comm] at going ⊢
          exact kept (m + 1) (Nat.succ_lt_succ short) going

/-- Where no context leaks, the body is evaluated for all of them. -/
theorem reached_eq_visited {n : Nat} {certs : List Context} (kept : leaked body n certs = none) :
    reached body n certs = visited body n certs := by
  induction certs generalizing n with
  | nil => rfl
  | cons cert certs ih =>
    rw [leaked_cons] at kept
    rw [visited_cons, reached]
    cases goes : (body n).goesOn with
    | false => simp
    | true =>
      rw [goes] at kept
      cases closes : (body n).closes with
      | true =>
        rw [closes] at kept
        cases kept
      | false =>
        rw [closes] at kept
        simp [ih kept]

/-- Where the search cannot be made, the first one fails, with no context in it. -/
theorem iterate_unable {s : State}
    (unable : ¬ (s.storeOpen ∧ (resolve type t).any fun r => searchable s.registered r.1 r.2))
    (fuel : Nat) : (certStoreIterate find type t body fuel s).events = [] := by
  cases fuel with
  | zero => rfl
  | succ fuel =>
    obtain ⟨storeOpen, R⟩ := s
    rw [certStoreIterate, loop, certStoreFindCertificate]
    cases resolved : resolve type t with
    | none => rfl
    | some r =>
      cases storeOpen with
      | false => rfl
      | true =>
        have refused : searchable R r.1 r.2 = false := by simpa [resolved] using unable
        simp [findCertificateInStoreObjCmd, refused, released]

/-- **`cert_store_iterate`**: the body is evaluated for each certificate up to the one that ends
the iteration, with each context freed once, exactly where no evaluation that another search
follows closes the store. -/
theorem storeIterate_proper_iff {s : State} {certs : List Context} {fuel : Nat}
    (enumerates : ∀ r, resolve type t = some r → Enumerates (find r.1 r.2) none certs)
    (enough : certs.length < fuel) :
    Proper body (matching type t s certs) (certStoreIterate find type t body fuel s) ↔
      Keeps body (matching type t s certs) := by
  have keeps_iff (l : List Context) : leaked body 0 l = none ↔ Keeps body l := by
    have all := @leaked_eq_none_iff body 0 l
    simp only [Nat.zero_add] at all
    exact all
  unfold matching
  split
  · rename_i able
    obtain ⟨storeOpen, R⟩ := s
    obtain ⟨isOpen, able⟩ := able
    cases (show storeOpen = true from isOpen)
    cases resolved : resolve type t with
    | none =>
      rw [resolved] at able
      cases able
    | some r =>
      obtain ⟨findtype, term⟩ := r
      rw [resolved] at able
      obtain ⟨evaluated, held⟩ := @loop_spec find type t body findtype term R resolved able certs
        fuel 0 none enough (enumerates _ resolved)
      rw [← keeps_iff]
      constructor
      · intro proper
        have settled : some _ = some _ := held.symm.trans proper.released
        cases kept : leaked body 0 certs with
        | none => rfl
        | some c =>
          rw [kept] at settled
          cases congrArg Multiset.card (Option.some.inj settled)
      · intro kept
        rw [kept] at held
        exact ⟨evaluated.trans (reached_eq_visited kept), held⟩
  · rename_i unable
    have none := @iterate_unable find type t body s unable fuel
    refine ⟨fun _ n short => absurd short (Nat.not_lt_zero n), fun _ => ?_⟩
    exact ⟨by rw [none]; rfl, by rw [none]; rfl⟩

/-! ### A store with two certificates -/

/-- They are found one after the other. -/
def findTwo : Find := fun _ _ prev =>
  match prev with
  | none => .found 1
  | some 1 => .found 2
  | some _ => .notFound

/-- A search for any certificate. -/
def anyTerm : Term := ⟨none, false, false, false, false⟩

def closingAt (k : Nat) : Nat → Body := fun n => ⟨n = k, .ok⟩

theorem enumerates_findTwo (r : Nat × Term) : Enumerates (findTwo r.1 r.2) none [1, 2] :=
  ⟨rfl, rfl, fun _ same => (nomatch same)⟩

theorem storeIterate_proper_iff_two :
    Proper (closingAt 7) (matching "any" anyTerm ⟨true, []⟩ [1, 2])
        (certStoreIterate findTwo "any" anyTerm (closingAt 7) 3 ⟨true, []⟩) ↔
      Keeps (closingAt 7) (matching "any" anyTerm ⟨true, []⟩ [1, 2]) :=
  storeIterate_proper_iff (fun r _ => enumerates_findTwo r) (by decide)

/-- Where the body closes the store for the first of them, its context is never freed. -/
theorem closed_store_leaks : ¬ ∀ (find : Find) (type : String) (t : Term) (body : Nat → Body)
    (s : State) (certs : List Context),
    (∀ r, resolve type t = some r → Enumerates (find r.1 r.2) none certs) →
    Proper body (matching type t s certs)
      (certStoreIterate find type t body (certs.length + 1) s) := by
  intro proper
  have freed := (proper findTwo "any" anyTerm (closingAt 0) ⟨true, []⟩ [1, 2]
    fun r _ => enumerates_findTwo r).released
  have leaks : (certStoreIterate findTwo "any" anyTerm (closingAt 0) 3 ⟨true, []⟩).events =
      [.entry (.acquire 1), .evaluated 1] := by decide
  rw [show ([1, 2] : List Context).length + 1 = 3 from rfl, leaks] at freed
  exact absurd freed (by decide)

end Twapi.Cert.Iterate
