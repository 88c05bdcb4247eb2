import Twapi.Resolve.Model

/-!
What a lookup is answered with `-async`, against what it returns without.

* `Agrees` — where the lookup returns a result, the script is told of success and of
  that result.
* `Meets` — the outcomes for which it does, `agrees_iff`.
-/

namespace Twapi.Resolve

section Answers

variable (P : Platform) (R : Resolver)

/-- The event that a lookup is submitted as. -/
def Lookup.event {w : Nat} (id : BitVec w) : Lookup → TwapiHostnameEvent w
  | .hostname name _ => resolveHostnameAsync id (P.toLower name) 0 (hostnameFlags P)
  | .address addr => resolveAddressAsync id addr 0

/-- Its entry in the table of scripts, if it comes to that. -/
def Lookup.entry (script : String) : Lookup → Option Scripts
  | .hostname name ipversion =>
    (ipversionToAf P ipversion).map fun af => .hostname af (P.toLower name) script
  | .address addr => if addr = anyAddress then none else some (.address addr script)

/-- The same lookup without `-async`. -/
def Lookup.sync : Lookup → Except Error Result
  | .hostname name ipversion => (resolveHostname P R name ipversion).map .addresses
  | .address addr => (resolveAddress P R addr).map .hostname

def Agrees (lookup : Lookup) (inv : Invocation) : Prop :=
  ∀ result, lookup.sync P R = .ok result → inv.status = .success ∧ inv.result = result

/-- The status of a lookup of a name. -/
def hostnameStatus (name : String) : Nat :=
  (R.getaddrinfo (P.toLower name) "0" ⟨0, 0, 0, hostnameFlags P⟩).1

/-- An address is found to have a name. -/
def Named (addr : Option SockAddr) (name : String) : Prop :=
  ∃ ss, addr = some ss ∧ (R.getnameinfo ss niNumericserv).1 = 0 ∧
    (R.getnameinfo ss niNumericserv).2 = name

/-- The name that the script is told. -/
def toldName (addr name : String) : String := if P.lstrcmpA addr name ≠ 0 then name else ""

/-- A name is compared with the address like a string. If the address is a pair, it is an
address as a whole, of the same name. -/
def AddressMeets (addr : String) : Prop :=
  match addressPair P addr with
  | none => ∀ name, Named R (twapiStringToSockaddr R addr 0) name →
      name = "" ∨ (name = addr ↔ P.lstrcmpA addr name = 0)
  | some (family, s) => ∀ name, Named R (twapiStringToSockaddr R s family) name →
      ∃ whole, Named R (twapiStringToSockaddr R addr 0) whole ∧
        toldName P addr whole = if name = addr then "" else name

def Meets : Lookup → Prop
  | .hostname name _ => hostnameStatus P R name ≠ 11002 ∧ hostnameStatus P R name ≠ 11003
  | .address addr => addr = anyAddress ∨ AddressMeets P R addr

end Answers

section Agree

variable {P : Platform} {R : Resolver} {w : Nat}

/-! ### Names -/

variable {name ipversion script addr : String} {id : BitVec w}

variable {af : Nat}

theorem sync_found (version : ipversionToAf P ipversion = some af)
    (found : hostnameStatus P R name = 0) :
    (Lookup.hostname name ipversion).sync P R =
      .ok (.addresses (ofVersion af (twapiCollectAddrInfo 0
        (R.getaddrinfo (P.toLower name) "0" ⟨0, 0, 0, hostnameFlags P⟩).2))) := by
  unfold hostnameStatus at found
  simp only [Lookup.sync, resolveHostname, version, getAddrInfo, found]
  rfl

theorem sync_failed (version : ipversionToAf P ipversion = some af)
    (failed : hostnameStatus P R name ≠ 0) :
    (Lookup.hostname name ipversion).sync P R =
      if hostnameStatus P R name ∈ noSuchHost then .ok (.addresses [])
      else .error (.win32 (hostnameStatus P R name)) := by
  unfold hostnameStatus at failed ⊢
  simp only [Lookup.sync, resolveHostname, version, getAddrInfo, if_pos failed]
  split_ifs <;> rfl

theorem agrees_hostname (version : ipversionToAf P ipversion = some af) :
    Agrees P R (.hostname name ipversion)
        (resolveHandler (handler P R ((Lookup.hostname name ipversion).event P id))
          (.hostname af (P.toLower name) script)) ↔
      Meets P R (.hostname name ipversion) := by
  have status : (handler P R ((Lookup.hostname name ipversion).event P id)).status =
      hostnameStatus P R name := rfl
  by_cases found : hostnameStatus P R name = 0
  · have meets : Meets P R (.hostname name ipversion) := by simp [Meets, found]
    refine iff_of_true (fun result same => ?_) meets
    rw [sync_found version found] at same
    have told := Except.ok.inj same
    have list : (handler P R ((Lookup.hostname name ipversion).event P id)).addrinfolist =
        (R.getaddrinfo (P.toLower name) "0" ⟨0, 0, 0, hostnameFlags P⟩).2 := if_pos found
    simp only [resolveHandler, status, found, if_true, list]
    exact ⟨trivial, told⟩
  · simp only [Agrees, sync_failed version found, resolveHandler, status, if_neg found, Meets]
    by_cases none : hostnameStatus P R name ∈ noSuchHost
    · simp only [if_pos none]
      have four : hostnameStatus P R name = 11001 ∨ hostnameStatus P R name = 11002 ∨
          hostnameStatus P R name = 11003 ∨ hostnameStatus P R name = 11004 := by
        simpa [noSuchHost] using none
      rcases four with code | code | code | code <;> simp [code]
    · simp only [if_neg none]
      have other : hostnameStatus P R name ≠ 11002 ∧ hostnameStatus P R name ≠ 11003 := by
        constructor
        · intro code
          exact none (by simp [code, noSuchHost])
        · intro code
          exact none (by simp [code, noSuchHost])
      exact iff_of_true (fun result same => by cases same) other

/-! ### Addresses -/

/-- An address that is not a pair is read the same way in both. -/
theorem objToSockaddr_of_plain (plain : addressPair P addr = none) :
    objToSockaddr P R addr = twapiStringToSockaddr R addr 0 := by
  have inet : twapiStringToSockaddr R addr afInet =
      (R.stringToAddress addr afInet).map (.mk afInet) := if_pos (by decide)
  have inet6 : twapiStringToSockaddr R addr afInet6 =
      (R.stringToAddress addr afInet6).map (.mk afInet6) := if_pos (by decide)
  simp only [objToSockaddr, plain, inet, inet6]
  rw [twapiStringToSockaddr, if_neg (by decide)]
  cases R.stringToAddress addr afInet <;> rfl

theorem objToSockaddr_of_pair {addr s : String} {family : Nat}
    (pair : addressPair P addr = some (family, s)) :
    objToSockaddr P R addr = twapiStringToSockaddr R s family := by
  simp only [objToSockaddr, pair]

/-- The lookup without `-async` returns the name that the address is found to have. -/
theorem sync_address (other : addr ≠ anyAddress) (result : Result) :
    (Lookup.address addr).sync P R = .ok result ↔
      ∃ name, Named R (objToSockaddr P R addr) name ∧
        result = .hostname (if name = addr then "" else name) := by
  simp only [Lookup.sync, resolveAddress, if_neg other, getNameInfo]
  cases read : objToSockaddr P R addr with
  | none =>
    refine iff_of_false (fun same => by cases same) ?_
    rintro ⟨name, ⟨ss, absent, -⟩, -⟩
    cases absent
  | some ss =>
    dsimp only
    by_cases zero : (R.getnameinfo ss niNumericserv).1 = 0
    · rw [if_neg (not_not_intro zero)]
      constructor
      · intro same
        exact ⟨_, ⟨ss, rfl, zero, rfl⟩, (Except.ok.inj same).symm⟩
      · rintro ⟨name, ⟨ss', same, -, rfl⟩, rfl⟩
        cases Option.some.inj same
        rfl
    · rw [if_pos zero]
      refine iff_of_false (fun same => by cases same) ?_
      rintro ⟨name, ⟨ss', same, zero', -⟩, -⟩
      cases Option.some.inj same
      exact zero zero'

/-- The script is told of success exactly where the address has a name as a whole. -/
theorem told_address (result : Result) :
    ((resolveHandler (handler P R ((Lookup.address addr).event P id))
          (.address addr script)).status = .success ∧
        (resolveHandler (handler P R ((Lookup.address addr).event P id))
          (.address addr script)).result = result) ↔
      ∃ name, Named R (twapiStringToSockaddr R addr 0) name ∧
        result = .hostname (toldName P addr name) := by
  have runs : handler P R ((Lookup.address addr).event P id) =
      twapiAddressHandler P R (resolveAddressAsync id addr 0) := rfl
  have whole : twapiStringToSockaddr R (resolveAddressAsync id addr 0).name
      (resolveAddressAsync id addr 0).family = twapiStringToSockaddr R addr 0 := rfl
  rw [runs, twapiAddressHandler, whole]
  cases read : twapiStringToSockaddr R addr 0 with
  | none =>
    refine iff_of_false (fun told => by cases told.1) ?_
    rintro ⟨name, ⟨ss, absent, -⟩, -⟩
    cases absent
  | some ss =>
    dsimp only
    by_cases zero : (R.getnameinfo ss niNumericserv).1 = 0
    · rw [if_neg (not_not_intro zero)]
      have name : (if P.lstrcmpA addr (R.getnameinfo ss niNumericserv).2 ≠ 0 then
            some (R.getnameinfo ss niNumericserv).2 else none).getD "" =
          toldName P addr (R.getnameinfo ss niNumericserv).2 := by
        unfold toldName
        split_ifs <;> rfl
      constructor
      · rintro ⟨-, same⟩
        exact ⟨_, ⟨ss, rfl, zero, rfl⟩, same.symm.trans (congrArg Result.hostname name)⟩
      · rintro ⟨_, ⟨ss', same, -, rfl⟩, rfl⟩
        cases Option.some.inj same
        exact ⟨rfl, congrArg Result.hostname name⟩
    · rw [if_pos zero]
      have failed : resolveHandler
            { resolveAddressAsync id addr 0 with status := (R.getnameinfo ss niNumericserv).1 }
            (.address addr script) =
          ⟨script, addr, .fail, .code (R.getnameinfo ss niNumericserv).1⟩ := if_neg zero
      rw [failed]
      refine iff_of_false (fun told => by cases told.1) ?_
      rintro ⟨name, ⟨ss', same, zero', -⟩, -⟩
      cases Option.some.inj same
      exact zero zero'

/-- An address has one name. -/
theorem Named.unique {addr : Option SockAddr} {name name' : String} (named : Named R addr name)
    (named' : Named R addr name') : name = name' := by
  obtain ⟨ss, rfl, -, rfl⟩ := named
  obtain ⟨ss', same, -, rfl⟩ := named'
  rw [Option.some.inj same]

theorem agrees_address (other : addr ≠ anyAddress) :
    Agrees P R (.address addr)
        (resolveHandler (handler P R ((Lookup.address addr).event P id))
          (.address addr script)) ↔
      Meets P R (.address addr) := by
  simp only [Agrees, told_address, sync_address other, Meets, other, false_or]
  cases pair : addressPair P addr with
  | none =>
    simp only [AddressMeets, pair, objToSockaddr_of_plain pair]
    constructor
    · intro agrees name named
      obtain ⟨name', named', same⟩ := agrees _ ⟨name, named, rfl⟩
      rw [← named.unique named'] at same
      have texts := Result.hostname.inj same
      unfold toldName at texts
      split_ifs at texts with isAddr differs
      · exact .inl texts.symm
      · exact .inr (iff_of_true isAddr (not_not.mp differs))
      · exact .inr (iff_of_false isAddr (by assumption))
      · exact .inl texts
    · rintro meets result ⟨name, named, rfl⟩
      refine ⟨name, named, congrArg Result.hostname ?_⟩
      unfold toldName
      rcases meets name named with rfl | same
      · split_ifs <;> rfl
      · by_cases isAddr : name = addr
        · rw [if_pos isAddr, if_neg (not_not_intro (same.mp isAddr))]
        · rw [if_neg isAddr, if_pos fun zero => isAddr (same.mpr zero)]
  | some familyAddr =>
    obtain ⟨family, s⟩ := familyAddr
    simp only [AddressMeets, pair, objToSockaddr_of_pair pair]
    constructor
    · intro agrees name named
      obtain ⟨whole, named', same⟩ := agrees _ ⟨name, named, rfl⟩
      exact ⟨whole, named', (Result.hostname.inj same).symm⟩
    · rintro meets result ⟨name, named, rfl⟩
      obtain ⟨whole, named', same⟩ := meets name named
      exact ⟨whole, named', congrArg Result.hostname same.symm⟩

/-- The answer that a worker's outcome leads to. -/
theorem agrees_iff {lookup : Lookup} {entry : Scripts} (found : lookup.entry P script = some entry) :
    Agrees P R lookup (resolveHandler (handler P R (lookup.event P id)) entry) ↔
      Meets P R lookup := by
  cases lookup with
  | hostname name ipversion =>
    obtain ⟨af, version, rfl⟩ := Option.map_eq_some_iff.mp found
    exact agrees_hostname version
  | address addr =>
    by_cases any : addr = anyAddress
    · simp [Lookup.entry, any] at found
    · have same : .address addr script = entry := by
        simpa only [Lookup.entry, if_neg any, Option.some.injEq] using found
      subst same
      exact agrees_address any

/-- The address that is not looked up. -/
theorem agrees_anyAddress (script : String) :
    Agrees P R (.address anyAddress)
      ⟨script, anyAddress, .success, .hostname anyAddress⟩ := by
  intro result same
  have returned : (Lookup.address anyAddress).sync P R = .ok (.hostname anyAddress) := rfl
  rw [returned] at same
  exact ⟨rfl, Except.ok.inj same⟩

end Agree

end Twapi.Resolve
