import Twapi.Cert.Verify

/-!
When `cert_verify` is faithful to its options.
-/

namespace Twapi.Cert

open Lib (Traced Entry)
open Lib.Traced List

/-! ### What is asked, and what is reported -/

def Event.entry : Event → Option (Entry Context)
  | .context entry => some entry
  | .policy _ _ => none

def ledger (events : List Event) : List (Entry Context) := events.filterMap Event.entry

def Event.call : Event → Option (DWORD × Option DWORD)
  | .policy flags answer => some (flags, answer)
  | .context _ => none

/-- The flags of the last call of the policy, and its answer. -/
def lastCall (events : List Event) : Option (DWORD × Option DWORD) :=
  (events.filterMap Event.call).getLast?

/-- What `-isa` asks for. -/
def askedIsa (isa : Option String) : DWORD :=
  if isa = some "ca" then 0x80000000 else if isa = some "endentity" then 0x40000000 else 0

def askedIgnores (policy : String) (ignoreerrors : List String) : DWORD :=
  (ignoreerrors.filterMap (ignoreFlag policy)).foldl (· ||| ·) 0

/-- The flags that the options ask for. -/
def Options.asked (policy : String) (o : Options) : DWORD :=
  askedIsa o.isa ||| (if o.enabletestroot = some true then 0x00010000 else 0) |||
    askedIgnores policy o.ignoreerrors

/-- The chain is not known to be revoked, nor unknown to be so. -/
def Unrevoked (bits : DWORD) : Prop := bits &&& 4 = 0 ∧ bits &&& 0x01000000 = 0 ∧ bits &&& 0x40 = 0

/-- The chain is single, its only error is that its root is not trusted, and the last
certificate of it has the thumbprint of a root that the caller trusts. -/
def Rooted (api : Api) (chainh : Handle) (trustedroots : List Handle) : Prop :=
  api.simpleChainCount chainh = .ok 1 ∧ ∃ raw root thumbprint,
    api.simpleChain chainh 0 = .ok raw ∧ raw.trustErrors = 0x20 ∧ raw.chain.getLast? = some root ∧
      certThumbprint api root.hcert = .ok thumbprint ∧
        ∃ trusted ∈ trustedroots, certThumbprint api trusted = .ok thumbprint

/-- The flags of the options, or those with the flag for an unknown authority, where the
root is one that the caller trusts. -/
def Permitted (api : Api) (chainh : Handle) (trustedroots : List Handle) (asked flags : DWORD) :
    Prop :=
  flags = asked ∨ flags = asked ||| 0x10 ∧ Rooted api chainh trustedroots

/-- Why a chain is accepted. -/
def Justified (api : Api) (chainh : Handle) (trustedroots : List Handle) (asked : DWORD)
    (events : List Event) : Prop :=
  ∃ bits flags, api.chainError chainh = .ok bits ∧ Unrevoked bits ∧
    lastCall events = some (flags, some 0) ∧ Permitted api chainh trustedroots asked flags

structure Faithful (api : Api) (policy : String) (o : Options)
    (x : Traced Event (Except Thrown String)) : Prop where
  justified : x.result = .ok "ok" → ∃ chainh, .context (.acquire (.chain chainh)) ∈ x.events ∧
    Justified api chainh (o.trustedroots.getD []) (o.asked policy) x.events
  settled : Entry.Settled (ledger x.events)

/-- The option for the test root is given as false, and the others are accepted. -/
def Options.Slips (policy : String) (o : Options) : Prop :=
  policy = "microsoftroot" ∧ o.enabletestroot = some false ∧
    (∀ ignore ∈ o.ignoreerrors, (ignoreFlag policy ignore).isSome) ∧
      ∃ hcert request, ((o.taken 7).chainArgs policy).request hcert = .ok request

/-! ### Bit masks -/

variable {name policy : String} {bits : DWORD} {ignoreerrors : List String} {o : Options}
  {policyId : Nat}

theorem symbol_among {map : List (String × DWORD)} :
    .symbol name ∈ makeSymbolicBitmask map bits ↔
      ∃ val, (name, val) ∈ map ∧ bits &&& val ≠ 0 := by
  have rest : .symbol name ∉
      if bits &&& ~~~symbolBits map bits ≠ 0 then
        [BitSymbol.unknown (bits &&& ~~~symbolBits map bits)] else [] := by
    split
    · nofun
    · nofun
  unfold makeSymbolicBitmask
  rw [mem_append, or_iff_left rest]
  simp

/-- A symbol that stands once in the table is listed where its bits are set. -/
theorem symbol_among_iff (val : DWORD)
    (once : ∀ entry ∈ trustErrors, entry.1 = name ↔ entry = (name, val))
    (listed : (name, val) ∈ trustErrors) :
    .symbol name ∈ mapTrustError bits ↔ bits &&& val ≠ 0 := by
  rw [mapTrustError, symbol_among]
  constructor
  · rintro ⟨val', among, set⟩
    have same := (once _ among).mp rfl
    rw [(Prod.mk.inj same).2] at set
    exact set
  · intro set
    exact ⟨val, listed, set⟩

theorem unrevoked_of_unlisted (revoked : .symbol "revoked" ∉ mapTrustError bits)
    (offline : .symbol "revocationoffline" ∉ mapTrustError bits)
    (unknown : .symbol "revocationunknown" ∉ mapTrustError bits) : Unrevoked bits := by
  rw [symbol_among_iff 4 (by decide) (by decide), not_not] at revoked
  rw [symbol_among_iff 0x01000000 (by decide) (by decide), not_not] at offline
  rw [symbol_among_iff 0x40 (by decide) (by decide), not_not] at unknown
  exact ⟨revoked, offline, unknown⟩

/-- Bits of which one bit is all there is. -/
theorem eq_of_only {i : Nat} (set : bits &&& BitVec.twoPow 32 i ≠ 0)
    (only : bits &&& ~~~BitVec.twoPow 32 i = 0) : bits = BitVec.twoPow 32 i := by
  calc bits = bits &&& (BitVec.twoPow 32 i ||| ~~~BitVec.twoPow 32 i) := by
        rw [BitVec.or_not_self, BitVec.and_allOnes]
    _ = bits &&& BitVec.twoPow 32 i := by
        rw [BitVec.and_or_distrib_left, only]
        exact BitVec.or_zero
    _ = BitVec.twoPow 32 i := by
        rw [BitVec.and_twoPow] at set ⊢
        split at set
        · rename_i bit
          rw [if_pos bit]
        · exact absurd rfl set

theorem untrusted_of_only (only : mapTrustError bits = [.symbol "untrustedroot"]) :
    bits = 0x20 := by
  unfold mapTrustError makeSymbolicBitmask at only
  have known : bits &&& ~~~symbolBits trustErrors bits = 0 := by
    by_contra left
    rw [if_pos left] at only
    have last := congrArg getLast? only
    simp at last
  rw [if_neg (not_not.mpr known), append_nil, map_eq_singleton_iff] at only
  obtain ⟨entry, filtered, named⟩ := only
  have among : entry ∈ trustErrors.filter fun entry => bits &&& entry.2 ≠ 0 := by
    rw [filtered]
    exact mem_singleton_self entry
  rw [mem_filter] at among
  obtain ⟨listed, set⟩ := among
  have same : entry = ("untrustedroot", 0x20) := by
    have each : ∀ entry ∈ trustErrors, entry.1 = "untrustedroot" → entry = ("untrustedroot", 0x20) := by
      decide
    exact each entry listed (BitSymbol.symbol.inj named)
  subst same
  unfold symbolBits at known
  rw [filtered] at known
  have bit : (0x20 : DWORD) = BitVec.twoPow 32 5 := by decide
  rw [bit]
  refine eq_of_only ?_ known
  rw [← bit]
  exact of_decide_eq_true set

theorem mapCertVerifyError_eq_ok {err : DWORD} (ok : mapCertVerifyError err = "ok") : err = 0 := by
  unfold mapCertVerifyError at ok
  cases found : certVerifyErrors.lookup err with
  | none =>
    rw [found, Option.getD_none] at ok
    have chars := congrArg String.toList ok
    simp [formatDWORD] at chars
  | some name =>
    rw [found, Option.getD_some] at ok
    have each : ∀ entry ∈ certVerifyErrors, entry.2 = "ok" → entry.1 = 0 := by decide
    exact each (err, name) (Lib.mem_of_lookup found) ok

/-! ### Contexts -/

@[simp] theorem ledger_append (es later : List Event) :
    ledger (es ++ later) = ledger es ++ ledger later := List.filterMap_append

@[simp] theorem ledger_contexts (entries : List (Entry Context)) :
    ledger (entries.map .context) = entries := by
  unfold ledger
  rw [filterMap_map]
  exact filterMap_some

/-- The certificates of the chain that is in the variable. -/
def certs (simpleChain : Option SimpleChain) : List Context :=
  (simpleChain.elim [] SimpleChain.chain).map fun e => .cert e.hcert

section Trapped

variable (api : Api) (policyId : Nat) (chainh : Handle) (flags : DWORD) (params : PolicyParams)

theorem ledger_verifyChainPolicy (attempt : Nat) :
    ledger (verifyChainPolicy api attempt policyId chainh flags params).events = [] := by
  unfold verifyChainPolicy
  split
  · rfl
  · rfl

theorem ledger_recheck (trustedroots : List Handle) (status : DWORD) (chain : SimpleChain) :
    ledger (recheck api policyId chainh flags params trustedroots status chain).events = [] ∧
      (recheck api policyId chainh flags params trustedroots status chain).result.simpleChain =
        some chain := by
  unfold recheck
  cases rootTrusted api chain trustedroots with
  | error thrown => exact ⟨rfl, rfl⟩
  | ok trusted =>
    cases trusted with
    | false => exact ⟨rfl, rfl⟩
    | true =>
      simp only [events_bind, result_bind, ledger_append, ledger_verifyChainPolicy]
      cases (verifyChainPolicy api 1 policyId chainh (flags ||| 0x10) params).result with
      | error thrown => exact ⟨rfl, rfl⟩
      | ok status => exact ⟨rfl, rfl⟩

theorem ledger_verifyAgain (trustedroots : List Handle) (status : DWORD) :
    ledger (verifyAgain api policyId chainh flags params trustedroots status).events =
      (certs (verifyAgain api policyId chainh flags params trustedroots status).result.simpleChain).map
        .acquire := by
  unfold verifyAgain certChainSimpleChain
  cases api.simpleChain chainh 0 with
  | error message => rfl
  | ok raw =>
    obtain ⟨quiet, left⟩ :=
      ledger_recheck api policyId chainh flags params trustedroots status raw.cook
    simp only [result_bind, events_bind, result_pure, events_pure, events_tellAll, append_nil,
      ledger_append, ledger_contexts, quiet, left]
    simp only [certs, RawSimpleChain.cook, Option.elim_some, map_map]
    rfl

theorem ledger_verifyPolicy (trustedroots : Option (List Handle)) :
    ledger (verifyPolicy api policyId chainh flags params trustedroots).events =
      (certs (verifyPolicy api policyId chainh flags params trustedroots).result.simpleChain).map
        .acquire := by
  unfold verifyPolicy
  simp only [events_bind, result_bind, ledger_append, ledger_verifyChainPolicy, nil_append]
  cases (verifyChainPolicy api 0 policyId chainh flags params).result with
  | error thrown => rfl
  | ok status =>
    dsimp only
    by_cases again : status = 0x800b0109 ∧ trustedroots.getD [] ≠ []
    · rw [if_pos again]
      cases api.simpleChainCount chainh with
      | error message => rfl
      | ok count =>
        dsimp only
        by_cases single : count = 1
        · rw [if_pos single]
          exact ledger_verifyAgain api policyId chainh flags params (trustedroots.getD []) status
        · rw [if_neg single]
          rfl
    · rw [if_neg again]
      rfl

/-- The script acquires the certificates of the chain that it leaves in the variable. -/
theorem ledger_trapped (trustedroots : Option (List Handle)) :
    ledger (trapped api policyId chainh flags params trustedroots).events =
      (certs (trapped api policyId chainh flags params trustedroots).result.simpleChain).map
        .acquire := by
  unfold trapped
  cases api.chainError chainh with
  | error message => rfl
  | ok bits =>
    dsimp only
    split
    · rfl
    · split
      · rfl
      · split
        · rfl
        · exact ledger_verifyPolicy api policyId chainh flags params trustedroots

end Trapped

theorem ledger_releaseAll (chainh : Handle) (simpleChain : Option SimpleChain) :
    ledger (releaseAll chainh simpleChain).events =
      (certs simpleChain).map .release ++ [.release (.chain chainh)] := by
  unfold releaseAll certs
  rw [events_bind, events_tellAll, events_tell, ledger_append, ledger_contexts, map_map]
  rfl

/-- The certificates are released and then the chain, which was acquired before them. -/
theorem settled_around (chainh : Handle) (held : List Context) :
    Entry.Settled (ledger [.context (.acquire (.chain chainh))] ++
      (held.map .acquire ++ (held.map .release ++ [.release (.chain chainh)]))) := by
  unfold Entry.Settled
  rw [Entry.after_append]
  change Entry.after _ (Context.chain chainh ::ₘ 0) = some 0
  rw [Entry.after_append, Entry.after_acquires]
  change Entry.after _ _ = some 0
  rw [Entry.after_append, Entry.after_releases]
  change Entry.after [.release (Context.chain chainh)] (Context.chain chainh ::ₘ 0) = some 0
  simp [Entry.after]

theorem certVerify_settled (api : Api) (hcert : Handle) (policy : String) (o : Options) :
    Entry.Settled (ledger (certVerify api hcert policy o).events) := by
  unfold certVerify
  cases policyIds.lookup policy with
  | none => rfl
  | some policyId =>
    dsimp only
    cases (o.taken policyId).verifyFlags policy with
    | error thrown => rfl
    | ok flags =>
      dsimp only
      cases certChainBuild api hcert ((o.taken policyId).chainArgs policy) with
      | error thrown => rfl
      | ok chainh =>
        simp only [events_bind, events_tell, events_pure, append_nil, ledger_append,
          ledger_trapped, ledger_releaseAll]
        exact settled_around chainh (certs _)

/-! ### Acceptance -/

/-- What is no call of the policy changes nothing about the last one. -/
theorem lastCall_append {es later : List Event} (quiet : later.filterMap Event.call = []) :
    lastCall (es ++ later) = lastCall es := by
  unfold lastCall
  rw [filterMap_append, quiet, append_nil]

theorem lastCall_policy (es : List Event) (flags : DWORD) (answer : Option DWORD) :
    lastCall (es ++ [.policy flags answer]) = some (flags, answer) := by
  unfold lastCall
  rw [filterMap_append]
  exact getLast?_concat

theorem calls_contexts (entries : List (Entry Context)) :
    (entries.map Event.context).filterMap Event.call = [] := by
  rw [filterMap_map]
  exact filterMap_eq_nil_iff.mpr fun _ _ => rfl

variable {trustedroots : List Handle} {request : ChainRequest}

theorem matchesRoot_true {api : Api} {thumbprint : String}
    (found : matchesRoot api thumbprint trustedroots = .ok true) :
    ∃ trusted ∈ trustedroots, certThumbprint api trusted = .ok thumbprint := by
  induction trustedroots with
  | nil => cases found
  | cons trusted rest ih =>
    unfold matchesRoot at found
    cases print : certThumbprint api trusted with
    | error thrown =>
      rw [print] at found
      cases found
    | ok other =>
      rw [print] at found
      dsimp only at found
      by_cases same : thumbprint = other
      · subst same
        exact ⟨trusted, mem_cons_self, print⟩
      · rw [if_neg same] at found
        obtain ⟨trusted', among, matched⟩ := ih found
        exact ⟨trusted', mem_cons_of_mem trusted among, matched⟩

theorem rooted_of_rootTrusted {api : Api} {chainh : Handle} {raw : RawSimpleChain}
    (single : api.simpleChainCount chainh = .ok 1) (got : api.simpleChain chainh 0 = .ok raw)
    (trusted : rootTrusted api raw.cook trustedroots = .ok true) :
    Rooted api chainh trustedroots := by
  unfold rootTrusted at trusted
  by_cases only : raw.cook.trustErrors = [.symbol "untrustedroot"]
  · rw [if_pos only] at trusted
    have last : raw.cook.chain.getLast? = raw.chain.getLast?.map RawElement.cook :=
      getLast?_map
    rw [last] at trusted
    cases root : raw.chain.getLast? with
    | none =>
      rw [root] at trusted
      cases trusted
    | some root' =>
      rw [root] at trusted
      dsimp only [Option.map_some] at trusted
      cases print : certThumbprint api root'.cook.hcert with
      | error thrown =>
        rw [print] at trusted
        cases trusted
      | ok thumbprint =>
        rw [print] at trusted
        exact ⟨single, raw, root', thumbprint, got, untrusted_of_only only, root, print,
          matchesRoot_true trusted⟩
  · rw [if_neg only] at trusted
    cases trusted

theorem calls_releaseAll (chainh : Handle) (simpleChain : Option SimpleChain) :
    ((releaseAll chainh simpleChain).events ++ []).filterMap Event.call = [] := by
  unfold releaseAll
  rw [append_nil, events_bind, events_tellAll, events_tell, filterMap_append,
    calls_contexts]
  rfl

section Acceptance

variable {api : Api} {policyId : Nat} {chainh : Handle} {flags : DWORD} {params : PolicyParams}

variable {status : DWORD}

theorem call_of_verifyChainPolicy {attempt : Nat}
    (answered : (verifyChainPolicy api attempt policyId chainh flags params).result = .ok status) :
    (verifyChainPolicy api attempt policyId chainh flags params).events =
      [.policy flags (some status)] := by
  unfold verifyChainPolicy at answered ⊢
  cases answer : api.verifyChainPolicy attempt policyId chainh flags params with
  | error message =>
    rw [answer] at answered
    cases answered
  | ok other =>
    rw [answer] at answered
    cases answered
    rfl

/-- An accepting status is 0. -/
theorem accepted_zero
    (ok : (Except.ok (mapCertVerifyError status) : Except Thrown String) = .ok "ok") : status = 0 :=
  mapCertVerifyError_eq_ok (Except.ok.inj ok)

theorem recheck_accepts {trustedroots : List Handle} {raw : RawSimpleChain} {es : List Event}
    (single : api.simpleChainCount chainh = .ok 1) (got : api.simpleChain chainh 0 = .ok raw)
    (last : lastCall es = some (flags, some status))
    (ok : (recheck api policyId chainh flags params trustedroots status raw.cook).result.result =
      .ok "ok") :
    ∃ used, lastCall
        (es ++ (recheck api policyId chainh flags params trustedroots status raw.cook).events) =
      some (used, some 0) ∧ Permitted api chainh trustedroots flags used := by
  unfold recheck at ok ⊢
  cases trusted : rootTrusted api raw.cook trustedroots with
  | error thrown =>
    rw [trusted] at ok
    cases ok
  | ok answer =>
    rw [trusted] at ok
    cases answer with
    | false =>
      have zero := accepted_zero ok
      subst zero
      refine ⟨flags, ?_, .inl rfl⟩
      exact (lastCall_append rfl).trans last
    | true =>
      dsimp only at ok ⊢
      simp only [result_bind, events_bind] at ok ⊢
      cases answered : (verifyChainPolicy api 1 policyId chainh (flags ||| 0x10) params).result with
      | error thrown =>
        rw [answered] at ok
        cases ok
      | ok again =>
        rw [answered] at ok
        have zero := accepted_zero ok
        subst zero
        refine ⟨flags ||| 0x10, ?_, .inr ⟨rfl, rooted_of_rootTrusted single got trusted⟩⟩
        rw [call_of_verifyChainPolicy answered]
        exact lastCall_policy es _ _

theorem verifyAgain_accepts {trustedroots : List Handle} {es : List Event}
    (single : api.simpleChainCount chainh = .ok 1) (last : lastCall es = some (flags, some status))
    (ok : (verifyAgain api policyId chainh flags params trustedroots status).result.result =
      .ok "ok") :
    ∃ used, lastCall
        (es ++ (verifyAgain api policyId chainh flags params trustedroots status).events) =
      some (used, some 0) ∧ Permitted api chainh trustedroots flags used := by
  unfold verifyAgain certChainSimpleChain at ok ⊢
  cases got : api.simpleChain chainh 0 with
  | error message =>
    rw [got] at ok
    cases ok
  | ok raw =>
    rw [got] at ok
    simp only [result_bind, events_bind, result_pure, events_pure, events_tellAll,
      append_nil] at ok ⊢
    rw [← append_assoc]
    refine recheck_accepts single got ?_ ok
    exact (lastCall_append (calls_contexts _)).trans last

variable {trustedroots : Option (List Handle)}

theorem verifyPolicy_accepts
    (ok : (verifyPolicy api policyId chainh flags params trustedroots).result.result = .ok "ok") :
    ∃ used, lastCall (verifyPolicy api policyId chainh flags params trustedroots).events =
      some (used, some 0) ∧ Permitted api chainh (trustedroots.getD []) flags used := by
  unfold verifyPolicy at ok ⊢
  simp only [result_bind, events_bind] at ok ⊢
  cases answered : (verifyChainPolicy api 0 policyId chainh flags params).result with
  | error thrown =>
    rw [answered] at ok
    cases ok
  | ok status =>
    rw [answered] at ok
    rw [call_of_verifyChainPolicy answered]
    have last : lastCall [.policy flags (some status)] = some (flags, some status) := rfl
    have plain : ∀ x : Ending, x.result = .ok (mapCertVerifyError status) → x.result = .ok "ok" →
        ∃ used, lastCall ([.policy flags (some status)] ++ []) = some (used, some 0) ∧
          Permitted api chainh (trustedroots.getD []) flags used := by
      intro x mapped accepted
      have zero := accepted_zero (mapped.symm.trans accepted)
      subst zero
      exact ⟨flags, rfl, .inl rfl⟩
    dsimp only at ok ⊢
    by_cases again : status = 0x800b0109 ∧ trustedroots.getD [] ≠ []
    · rw [if_pos again] at ok ⊢
      cases counted : api.simpleChainCount chainh with
      | error message =>
        rw [counted] at ok
        cases ok
      | ok count =>
        rw [counted] at ok
        dsimp only at ok ⊢
        by_cases single : count = 1
        · rw [if_pos single] at ok ⊢
          subst single
          exact verifyAgain_accepts counted last ok
        · rw [if_neg single] at ok ⊢
          exact plain _ rfl ok
    · rw [if_neg again] at ok ⊢
      exact plain _ rfl ok

/-- `ok` is returned for chains without revocation errors that the policy accepted. -/
theorem trapped_justified
    (ok : (trapped api policyId chainh flags params trustedroots).result.result = .ok "ok") :
    Justified api chainh (trustedroots.getD []) flags
      (trapped api policyId chainh flags params trustedroots).events := by
  unfold trapped at ok ⊢
  cases bits : api.chainError chainh with
  | error message =>
    rw [bits] at ok
    cases ok
  | ok bits' =>
    rw [bits] at ok
    dsimp only at ok ⊢
    by_cases revoked : .symbol "revoked" ∈ mapTrustError bits'
    · rw [if_pos revoked] at ok
      exact absurd ok (by decide)
    · rw [if_neg revoked] at ok ⊢
      by_cases offline : .symbol "revocationoffline" ∈ mapTrustError bits'
      · rw [if_pos offline] at ok
        exact absurd ok (by decide)
      · rw [if_neg offline] at ok ⊢
        by_cases unknown : .symbol "revocationunknown" ∈ mapTrustError bits'
        · rw [if_pos unknown] at ok
          exact absurd ok (by decide)
        · rw [if_neg unknown] at ok ⊢
          obtain ⟨used, last, permitted⟩ := verifyPolicy_accepts ok
          exact ⟨bits', used, bits, unrevoked_of_unlisted revoked offline unknown, last, permitted⟩

end Acceptance

/-! ### Flags -/

theorem askedIgnores_cons {policy ignore : String} {rest : List String} {flag : DWORD}
    (known : ignoreFlag policy ignore = some flag) :
    askedIgnores policy (ignore :: rest) = flag ||| askedIgnores policy rest := by
  unfold askedIgnores
  rw [filterMap_cons_some known, foldl_cons, BitVec.or_comm 0 flag]
  exact foldl_assoc

theorem ignoreFlags_ok {start flags : DWORD}
    (ok : ignoreFlags policy ignoreerrors start = .ok flags) :
    (∀ ignore ∈ ignoreerrors, (ignoreFlag policy ignore).isSome) ∧
      flags = start ||| askedIgnores policy ignoreerrors := by
  induction ignoreerrors generalizing start with
  | nil =>
    cases ok
    exact ⟨nofun, BitVec.or_zero.symm⟩
  | cons ignore rest ih =>
    unfold ignoreFlags at ok
    cases known : ignoreFlag policy ignore with
    | none =>
      rw [known] at ok
      cases ok
    | some flag =>
      rw [known] at ok
      obtain ⟨others, value⟩ := ih ok
      refine ⟨forall_mem_cons.mpr ⟨by rw [known]; rfl, others⟩, ?_⟩
      rw [value, askedIgnores_cons known, BitVec.or_assoc]

theorem ignoreFlags_of_known {start : DWORD}
    (known : ∀ ignore ∈ ignoreerrors, (ignoreFlag policy ignore).isSome) :
    ignoreFlags policy ignoreerrors start = .ok (start ||| askedIgnores policy ignoreerrors) := by
  induction ignoreerrors generalizing start with
  | nil => exact congrArg Except.ok BitVec.or_zero.symm
  | cons ignore rest ih =>
    obtain ⟨first, others⟩ := forall_mem_cons.mp known
    obtain ⟨flag, found⟩ := Option.isSome_iff_exists.mp first
    unfold ignoreFlags
    rw [found, askedIgnores_cons found, ← BitVec.or_assoc]
    exact ih others

theorem isaFlags_ok {isa : Option String} {flags : DWORD} (ok : isaFlags isa = .ok flags) :
    flags = askedIsa isa := by
  unfold isaFlags at ok
  cases isa with
  | none =>
    cases ok
    rfl
  | some isa =>
    dsimp only at ok
    by_cases ca : isa = "ca"
    · rw [if_pos ca] at ok
      cases ok
      subst ca
      rfl
    · rw [if_neg ca] at ok
      by_cases endentity : isa = "endentity"
      · rw [if_pos endentity] at ok
        cases ok
        subst endentity
        rfl
      · rw [if_neg endentity] at ok
        cases ok

/-- No ignored error is one of bit 16, which is for the test root. -/
theorem askedIgnores_bit :
    (askedIgnores policy ignoreerrors).getLsbD 16 = false := by
  have each : ∀ entry ∈ ignoreOptions policy, entry.2.getLsbD 16 = false := by
    unfold ignoreOptions
    split
    · nofun
    · decide
  induction ignoreerrors with
  | nil => exact BitVec.getLsbD_zero
  | cons ignore rest ih =>
    cases known : ignoreFlag policy ignore with
    | none =>
      unfold askedIgnores at ih ⊢
      rw [filterMap_cons_none known]
      exact ih
    | some flag =>
      rw [askedIgnores_cons known, BitVec.getLsbD_or, ih,
        each (ignore, flag) (Lib.mem_of_lookup known)]
      rfl

/-! ### Options that are taken -/

theorem leftover_of_request {args : ChainOptions} {hcert : Handle}
    (ok : args.request hcert = .ok request) : args.leftover = [] := by
  unfold ChainOptions.request at ok
  split at ok
  · cases ok
  · by_contra left
    rw [if_pos left] at ok
    cases ok

/-- Where no words are left, the options are those of the policy. -/
theorem taken_of_leftover (none_left : (o.taken policyId).args.leftover = []) :
    (o.taken policyId).isa = o.isa ∧ (o.taken policyId).enabletestroot = o.enabletestroot ∧
      (o.enabletestroot.isSome → policyId = 7) := by
  have parts : (leftWords (policyId = 5 ∨ policyId = 6)
      (o.isa.toList.flatMap fun isa => ["-isa", isa]) = []) ∧
      leftWords (policyId = 7) (o.enabletestroot.toList.map fun _ => "-enabletestroot") = [] := by
    simp only [Options.taken, append_eq_nil_iff] at none_left
    exact ⟨none_left.1.2, none_left.2⟩
  obtain ⟨isas, roots⟩ := parts
  refine ⟨?_, ?_, ?_⟩
  · cases given : o.isa with
    | none => simp [Options.taken, given]
    | some isa =>
      by_cases takes : policyId = 5 ∨ policyId = 6
      · simp [Options.taken, given, takes]
      · simp [leftWords, given, takes] at isas
  · cases given : o.enabletestroot with
    | none => simp [Options.taken, given]
    | some enable =>
      by_cases takes : policyId = 7
      · simp [Options.taken, given, takes]
      · simp [leftWords, given, takes] at roots
  · intro given
    by_contra other
    obtain ⟨enable, some_enable⟩ := Option.isSome_iff_exists.mp given
    simp [leftWords, some_enable, other] at roots

/-! ### When the flags are those that are asked for -/

/-- Where the option for the test root is not given as false. -/
theorem verifyFlags_asked {flags : DWORD} (none_left : (o.taken policyId).args.leftover = [])
    (given : o.enabletestroot ≠ some false) (ok : (o.taken policyId).verifyFlags policy = .ok flags) :
    flags = o.asked policy := by
  obtain ⟨isa, testroot, -⟩ := taken_of_leftover none_left
  unfold Options.verifyFlags at ok
  rw [isa, testroot] at ok
  cases isas : isaFlags o.isa with
  | error thrown =>
    rw [isas] at ok
    cases ok
  | ok isaBits =>
    rw [isas] at ok
    obtain ⟨-, value⟩ := ignoreFlags_ok ok
    rw [value, isaFlags_ok isas]
    unfold Options.asked
    have same : (if o.enabletestroot.isSome then askedIsa o.isa ||| 0x00010000 else askedIsa o.isa) =
        askedIsa o.isa ||| (if o.enabletestroot = some true then 0x00010000 else 0) := by
      cases enable : o.enabletestroot with
      | none => exact BitVec.or_zero.symm
      | some value =>
        cases value with
        | true => rfl
        | false => exact absurd enable given
    rw [same]
    rfl

theorem certVerify_faithful (holds : ¬ o.Slips policy) (api : Api) (hcert : Handle) :
    Faithful api policy o (certVerify api hcert policy o) := by
  refine ⟨?_, certVerify_settled api hcert policy o⟩
  intro ok
  unfold certVerify at ok ⊢
  cases known : policyIds.lookup policy with
  | none =>
    rw [known] at ok
    cases ok
  | some policyId =>
    rw [known] at ok
    dsimp only at ok ⊢
    cases verified : (o.taken policyId).verifyFlags policy with
    | error thrown =>
      rw [verified] at ok
      cases ok
    | ok flags =>
      rw [verified] at ok
      dsimp only at ok ⊢
      unfold certChainBuild at ok ⊢
      cases asked : ((o.taken policyId).chainArgs policy).request hcert with
      | error thrown =>
        rw [asked] at ok
        cases ok
      | ok request =>
        rw [asked] at ok
        dsimp only at ok ⊢
        cases built : ofApi (api.getCertificateChain request) with
        | error thrown =>
          rw [built] at ok
          cases ok
        | ok chainh =>
          rw [built] at ok
          have chained : ((o.taken policyId).chainArgs policy).leftover = [] :=
            leftover_of_request asked
          have none_left : (o.taken policyId).args.leftover = [] := chained
          have given : o.enabletestroot ≠ some false := by
            intro disabled
            obtain ⟨-, -, takes⟩ := taken_of_leftover none_left
            have seven := takes (by rw [disabled]; rfl)
            subst seven
            refine holds ⟨?_, disabled, ?_, hcert, request, asked⟩
            · have each : ∀ entry ∈ policyIds, entry.2 = 7 → entry.1 = "microsoftroot" := by
                decide
              exact each (policy, 7) (Lib.mem_of_lookup known) rfl
            · unfold Options.verifyFlags at verified
              split at verified
              · cases verified
              · exact (ignoreFlags_ok verified).1
          have justified := trapped_justified ok
          rw [verifyFlags_asked none_left given verified] at justified ⊢
          obtain ⟨bits, used, status, unrevoked, last, permitted⟩ := justified
          refine ⟨chainh, mem_cons_self, bits, used, status, unrevoked, ?_, permitted⟩
          exact (lastCall_append (calls_releaseAll chainh _)).trans last

/-! ### When they are not -/

/-- A system where every chain can be built and is accepted. -/
def accepting : Api where
  getCertificateChain _ := .ok 1
  chainError _ := .ok 0
  verifyChainPolicy _ _ _ _ _ := .ok 0
  simpleChainCount _ := .ok 1
  simpleChain _ _ := .error ""
  sha1Hash _ := .error ""

theorem certVerify_accepting {flags : DWORD} {hcert : Handle}
    (known : policyIds.lookup policy = some policyId)
    (verified : (o.taken policyId).verifyFlags policy = .ok flags)
    (asked : ((o.taken policyId).chainArgs policy).request hcert = .ok request) :
    certVerify accepting hcert policy o =
      ⟨.ok "ok", [.context (.acquire (.chain 1)), .policy flags (some 0),
        .context (.release (.chain 1))]⟩ := by
  unfold certVerify certChainBuild
  rw [known]
  dsimp only
  rw [verified]
  dsimp only
  rw [asked]
  rfl

/-- The flag for the test root is set though the option is false. -/
theorem slip_flags (slips : o.Slips policy) :
    ∃ flags, (o.taken 7).verifyFlags policy = .ok flags ∧ flags.getLsbD 16 = true ∧
      (o.asked policy).getLsbD 16 = false := by
  obtain ⟨-, disabled, known, hcert, request, asked⟩ := slips
  have chained : ((o.taken 7).chainArgs policy).leftover = [] := leftover_of_request asked
  have none_left : (o.taken 7).args.leftover = [] := chained
  obtain ⟨isa, testroot, -⟩ := taken_of_leftover none_left
  have no_isa : o.isa = none := by
    rw [← isa]
    unfold Options.taken
    cases o.isa with
    | none => rfl
    | some value => rfl
  refine ⟨0x00010000 ||| askedIgnores policy o.ignoreerrors, ?_, ?_, ?_⟩
  · unfold Options.verifyFlags
    rw [isa, testroot, no_isa, disabled]
    exact ignoreFlags_of_known known
  · rw [BitVec.getLsbD_or, askedIgnores_bit]
    decide
  · unfold Options.asked
    rw [BitVec.getLsbD_or, askedIgnores_bit, no_isa, disabled]
    decide

theorem certVerify_faithful_iff (policy : String) (o : Options) :
    (∀ api hcert, Faithful api policy o (certVerify api hcert policy o)) ↔ ¬ o.Slips policy := by
  constructor
  · intro faithful slips
    obtain ⟨flags, verified, bit, unasked⟩ := slip_flags slips
    obtain ⟨microsoftroot, -, -, hcert, request, asked⟩ := slips
    have known : policyIds.lookup policy = some 7 := by
      rw [microsoftroot]
      decide
    have run := certVerify_accepting known verified asked
    obtain ⟨chainh, -, bits, used, -, -, last, permitted⟩ :=
      (faithful accepting hcert).justified (by rw [run])
    rw [run] at last
    cases last
    obtain same | ⟨same, -⟩ := permitted
    · rw [same, unasked] at bit
      cases bit
    · rw [same, BitVec.getLsbD_or, unasked] at bit
      exact absurd bit (by decide)
  · intro holds api hcert
    exact certVerify_faithful holds api hcert

/-! ### The test root -/

def plainArgs : ChainOptions :=
  ⟨false, false, false, "user", none, false, "all", false, "", false, none, none, []⟩

/-- A chain is verified with the flag for the test root, which the options decline. -/
theorem test_root_enabled :
    ¬ Faithful accepting "microsoftroot" ⟨[], none, none, none, none, some false, plainArgs⟩
      (certVerify accepting 1 "microsoftroot"
        ⟨[], none, none, none, none, some false, plainArgs⟩) := by
  intro faithful
  obtain ⟨chainh, -, bits, used, -, -, last, permitted⟩ := faithful.justified (by decide)
  have flags : used = 0x00010000 := by
    have run : lastCall (certVerify accepting 1 "microsoftroot"
        ⟨[], none, none, none, none, some false, plainArgs⟩).events = some (0x00010000, some 0) := by
      decide
    rw [run] at last
    cases last
    rfl
  subst flags
  obtain same | ⟨same, -⟩ := permitted
  · exact absurd same (by decide)
  · exact absurd same (by decide)

end Twapi.Cert
