import Twapi.Crypto.Commands

/-!
What the commands of `crypto/crypto.c` leave behind on the software stack and of the objects
they create.

* `Command.Faulty` — the calls after which a mark or an object is left, or an object is used or
  released too often.
* `neat_run` — all other calls leave the stack as it was, but for `capi_hash_password`, whose
  memory stays without a mark.
* `command_clean_iff` — a call is clean if and only if it is not one of those.
* `variables_eq` — of a signed message, the variables that get an object are those that
  `VerifyMessage` sets.
-/

namespace Twapi.Crypto.Commands

open Lib
open Lib.Cleanup

section Faults

variable (E : Env)

/-- A security descriptor cannot be read. -/
def LeavesMark : Prop := E.param = .keysetSecDescr ∧ E.ask .parse = false

/-- The context of a key was got. -/
def LeavesContext : Prop := E.cooked = true ∧ E.prop = .keyContext ∧ E.ask .call = true

/-- The variable for the certificate cannot be set. -/
def CertRefused : Prop := (wanted E.certVar).isSome = true ∧ E.ask .setCert = false

def Func.Faulty : Func → Prop
  | .cryptSetProvParam => E.ask .args = true ∧ LeavesMark E
  | .certGetCertificateContextProperty => E.ask .args = true ∧ LeavesContext E
  | .cryptStringToBinary => E.ask .args = true ∧ E.ask .size = true ∧ E.ask .fill = false
  | _ => False

/-- The signature was verified, and then the content could not be got or put into its variable,
or the certificate could not. -/
def ContentFault : Prop :=
  match wanted E.contentVar with
  | none => CertRefused E
  | some _ =>
    if E.ask .fill then E.ask .setContent = true → CertRefused E
    else E.lastError .fill = nteBadSignature ∨ E.lastError .fill = nteBadAlgid

def Command.Faulty : Command → Prop
  | .cryptoCall func => func.Faulty E
  | .cryptSetProvParam => LeavesMark E
  | .cryptDecryptMessage =>
    E.ask .parse = true ∧ E.ask .size = true ∧ E.ask .fill = true ∧ CertRefused E
  | .cryptVerifyMessageSignature =>
    E.ask .parse = true ∧ E.ask .size = true ∧ E.nout ≠ 0 ∧ ContentFault E
  | .cryptVerifyDetachedMessageSignature =>
    E.ask .parse = true ∧ E.ask .found = true ∧ E.ask .call = false ∧ CertRefused E
  | _ => False

end Faults

variable {E : Env}

/-! ### Cases of the switch -/

theorem neat_objSetResult : Neat objSetResult.events :=
  ⟨fun _ => rfl, fun r => by cases r <;> rfl⟩

theorem neat_resultOfTwoCalls (obj : Obj) : Neat (resultOfTwoCalls E obj).events := by
  unfold resultOfTwoCalls twoCalls
  cases E.ask .size with
  | false => exact neat_nil
  | true =>
    have filled : Neat ([.create, .use, .give].map fun d => .deed d obj) :=
      neat_deeds obj rfl
    have released : Neat ([.create, .decr].map fun d => .deed d obj) := neat_deeds obj rfl
    cases E.ask .fill with
    | false => exact released
    | true => exact filled

theorem given_eq (E : Env) : given E = .value ∨ given E = .none := by
  unfold given
  cases E.ask .call with
  | false => exact .inr rfl
  | true => exact .inl rfl

theorem neat_plain {asks : List Ask} {result : TwapiResult}
    (simple : result = .value ∨ result = .none) :
    Neat (plain E asks result >>= Ended.finish).events := by
  unfold plain
  cases asks.all E.ask with
  | false => exact neat_nil
  | true =>
    obtain rfl | rfl := simple
    · exact neat_objSetResult
    · exact neat_nil

theorem neat_returning {body : Run Unit} (neat : Neat body.events) :
    Neat (returning body >>= Ended.finish).events := by
  have same : (returning body >>= Ended.finish).events = body.events := by
    simp [returning, Ended.finish]
  rwa [same]

variable {c : Bool}

/-- A function that is not called leaves nothing. -/
theorem neat_ite {body : Run Unit} (neat : c = true → Neat body.events) :
    Neat (if c then body else pure ()).events := by
  cases c with
  | false => exact neat_nil
  | true => exact neat rfl

theorem neat_created : Neat (created (create .resultObj) .resultObj >>= Ended.finish).events :=
  ⟨fun _ => rfl, fun r => by cases r <;> rfl⟩

theorem neat_createdName :
    Neat (created (objFromCertNameBlob E 0 (create .resultObj)) .resultObj >>=
      Ended.finish).events := by
  unfold objFromCertNameBlob
  cases E.ask (.longName 0) with
  | false => exact neat_created
  | true => exact ⟨fun _ => rfl, fun r => by cases r <;> rfl⟩

/-- A new object is there. -/
theorem life_create (obj : Obj) : life [.deed .create obj] obj .absent = .live 0 0 := by
  simp [life, Act.life, Deed.apply]

theorem neat_createdList (n : Nat) :
    Neat (created (do create .resultObj; uses n .resultObj) .resultObj >>=
      Ended.finish).events := by
  have few : Neat ([.deed .create .resultObj] ++ [.deed .give .resultObj] : List (Act Obj)) :=
    neat_objSetResult
  simpa [created, uses, create, Ended.finish, twapiSetResult, give] using
    neat_uses (life_create .resultObj) n few

theorem neat_objvCase {asks : List Ask} : Neat (objvCase E asks >>= Ended.finish).events := by
  unfold objvCase
  cases asks.all E.ask with
  | false => exact neat_nil
  | true =>
    cases E.ask .call with
    | false => exact neat_nil
    | true => exact ⟨fun _ => rfl, fun r => by cases r <;> rfl⟩

theorem neat_enumerationCase : Neat (enumerationCase E >>= Ended.finish).events := by
  unfold enumerationCase
  cases E.ask .args && E.ask .check with
  | false => exact neat_nil
  | true =>
    cases E.ask .call with
    | false =>
      have few : Neat
          ([.deed .create .resultObj] ++ [.deed .decr .resultObj] : List (Act Obj)) :=
        ⟨fun _ => rfl, fun r => by cases r <;> rfl⟩
      simpa [create, uses, objDecrRefs, Ended.finish] using
        neat_uses (life_create .resultObj) E.rounds few
    | true =>
      have few : Neat
          ([.deed .create .resultObj] ++ [.deed .give .resultObj] : List (Act Obj)) :=
        neat_objSetResult
      simpa [create, uses, give, Ended.finish, twapiSetResult] using
        neat_uses (life_create .resultObj) E.rounds few

theorem neat_twoCallsCase : Neat (twoCallsCase E >>= Ended.finish).events := by
  unfold twoCallsCase twoCalls
  cases E.ask .args with
  | false => exact neat_nil
  | true =>
    cases E.ask .size with
    | false => exact neat_nil
    | true => cases E.ask .fill <;> exact ⟨fun _ => rfl, fun r => by cases r <;> rfl⟩

theorem neat_filledCase : Neat (filledCase E >>= Ended.finish).events := by
  unfold filledCase
  cases E.ask .fill <;> exact ⟨fun _ => rfl, fun r => by cases r <;> rfl⟩

theorem neat_framedCase {body : Run TwapiResult}
    (simple : body = decoded ∨ body = pure .none) :
    Neat (framedCase E body >>= Ended.finish).events := by
  unfold framedCase
  obtain rfl | rfl := simple
  · cases E.ask .fill <;> exact ⟨fun _ => rfl, fun r => by cases r <;> rfl⟩
  · cases E.ask .fill <;> exact ⟨fun _ => rfl, fun r => by cases r <;> rfl⟩

/-! ### Extensions -/

/-- The identifiers of extensions are released where they are made. -/
theorem neat_extensions {es later : List (Act Obj)} (n : Nat)
    (others : ∀ i, Without (.extObj i) es ∧ Without (.extObj i) later) (neat : Neat (es ++ later)) :
    Neat (es ++ ((objFromCertExtensions n).events ++ later)) := by
  refine neat_scratch ?_ ?_ neat
  · exact List.nodup_range.map fun i j same => Obj.extObj.inj same
  · rintro r mem
    obtain ⟨i, -, rfl⟩ := List.mem_map.mp mem
    exact others i

theorem neat_extensionsCase (n : Nat) : Neat (extensionsCase E n >>= Ended.finish).events := by
  unfold extensionsCase
  cases E.ask .args with
  | false => exact neat_nil
  | true =>
    cases E.ask .found with
    | false => exact neat_nil
    | true =>
      have few : Neat ([] ++ objSetResult.events) := neat_objSetResult
      have all := neat_extensions n (fun i => ⟨fun _ => rfl, fun _ => rfl⟩) few
      simpa [created, create, give, objSetResult, Ended.finish, twapiSetResult] using all

theorem neat_twapiCertGetInfo : Neat (twapiCertGetInfo E >>= Ended.finish).events := by
  unfold twapiCertGetInfo
  cases E.ask .args with
  | false => exact neat_nil
  | true =>
    cases E.ask .call with
    | false => exact neat_objSetResult
    | true =>
      let issuer : Run Unit := objFromCertNameBlob E 0 (use .objs)
      let subject : Run Unit := objFromCertNameBlob E 1 (use .objs)
      have others : ∀ i, Without (.extObj i) (.deed .create .objs ::
          (issuer.events ++ subject.events)) ∧
          Without (.extObj i) (twapiSetResult .objv).events := by
        intro i
        refine ⟨?_, fun _ => rfl⟩
        unfold issuer subject objFromCertNameBlob
        cases E.ask (.longName 0) <;> cases E.ask (.longName 1) <;> exact fun _ => rfl
      have few : Neat (.deed .create .objs :: (issuer.events ++ subject.events) ++
          (twapiSetResult .objv).events) := by
        unfold issuer subject objFromCertNameBlob
        cases E.ask (.longName 0) <;> cases E.ask (.longName 1) <;>
          exact ⟨fun _ => rfl, fun r => by cases r <;> rfl⟩
      simpa [issuer, subject, create, Ended.finish] using
        neat_extensions E.rounds others few

/-! ### Properties and parameters -/

theorem neat_framedProperty {body : Run TwapiResult}
    (simple : body = decoded ∨ body = pure .none) : Neat (framedProperty E body).events := by
  unfold framedProperty
  cases E.ask .size with
  | false => exact neat_nil
  | true =>
    obtain rfl | rfl := simple
    · cases E.ask .fill <;> exact ⟨fun _ => rfl, fun r => by cases r <;> rfl⟩
    · cases E.ask .fill <;> exact ⟨fun _ => rfl, fun r => by cases r <;> rfl⟩

theorem decoded_or (c : Bool) :
    (if c then decoded else pure .none) = decoded ∨
      (if c then decoded else pure .none) = (pure .none : Run TwapiResult) := by
  cases c with
  | false => exact .inr rfl
  | true => exact .inl rfl

theorem neat_given : Neat (twapiSetResult (given E)).events := by
  obtain value | none := given_eq E
  · rw [value]
    exact neat_objSetResult
  · rw [none]
    exact neat_nil

theorem neat_property (ok : ¬ LeavesContext E) :
    Neat (twapiCertGetCertificateContextProperty E).events := by
  unfold twapiCertGetCertificateContextProperty
  cases cooked : E.cooked with
  | false => exact neat_resultOfTwoCalls .resultObj
  | true =>
    cases prop : E.prop with
    | accessState | keySpec | dateStamp | archived | keyProvHandle => exact neat_given
    | enhkeyUsage => exact neat_framedProperty (decoded_or (E.ask .decode))
    | keyProvInfo | requestOriginator | autoEnroll | extendedErrorInfo | friendlyName | pvkFile
    | description => exact neat_framedProperty (.inl rfl)
    | keyContext =>
      have none : E.ask .call = false :=
        Bool.eq_false_iff.mpr fun call => ok ⟨cooked, prop, call⟩
      rw [none]
      exact neat_nil
    | other => exact neat_resultOfTwoCalls .resultObj

/-- The list for the context of a key is lost, whatever comes of the other calls. -/
theorem not_clean_property (fault : LeavesContext E) :
    ¬ Clean (twapiCertGetCertificateContextProperty E).events := by
  obtain ⟨cooked, prop, call⟩ := fault
  unfold twapiCertGetCertificateContextProperty rawProperty resultOfTwoCalls twoCalls
  simp only [cooked, prop, call, if_true]
  intro clean
  have settled := clean.settled .contextObj
  cases size : E.ask .size with
  | false =>
    rw [size] at settled
    cases settled
  | true =>
    cases fill : E.ask .fill with
    | false =>
      rw [size, fill] at settled
      cases settled
    | true =>
      rw [size, fill] at settled
      cases settled

theorem neat_setProvParam (ok : ¬ LeavesMark E) : Neat (twapiCryptSetProvParam E).events := by
  unfold twapiCryptSetProvParam
  cases param : E.param with
  | keysetSecDescr =>
    have parsed : E.ask .parse = true := by
      cases parse : E.ask .parse with
      | false => exact absurd ⟨param, parse⟩ ok
      | true => rfl
    simp only [allocating, parsed]
    exact ⟨fun _ => rfl, fun r => by cases r <;> rfl⟩
  | _ => exact neat_nil

theorem not_clean_setProvParam (fault : LeavesMark E) :
    ¬ Clean (twapiCryptSetProvParam E).events := by
  obtain ⟨param, parse⟩ := fault
  unfold twapiCryptSetProvParam allocating
  rw [param, parse]
  intro clean
  cases clean.depth []

/-- A list that is made item by item, and is the result or is released. -/
theorem neat_list {before after : List (Act Obj)} {obj : Obj} (n : Nat)
    (live : life before obj .absent = .live 0 0) (end_ : Bool)
    (neat : ∀ d, d = .give ∨ d = .decr → Neat (before ++ (after ++ [.deed d obj]))) :
    Neat (before ++ (List.replicate n (.deed .use obj) ++ (after ++
      (if end_ then give obj else objDecrRefs obj).events))) := by
  cases end_ with
  | false => exact neat_uses live n (neat .decr (.inr rfl))
  | true => exact neat_uses live n (neat .give (.inl rfl))

theorem neat_getProvParam : Neat (twapiCryptGetProvParam E).events := by
  unfold twapiCryptGetProvParam
  cases E.param with
  | enumcontainers =>
    refine neat_ite fun _ => ?_
    have few : ∀ d, d = .give ∨ d = .decr → Neat
        ([.pushMark, .alloc (E.memory .size), .deed .create .objP] ++
          ([.popMark] ++ [.deed d .objP]) : List (Act Obj)) := by
      rintro d (rfl | rfl) <;> exact ⟨fun _ => rfl, fun r => by cases r <;> rfl⟩
    simpa [frame, pushMark, popMark, create, uses] using
      neat_list E.rounds rfl (E.ask .ended) few
  | enumalgsEx =>
    have few : ∀ d, d = .give ∨ d = .decr → Neat
        ([.deed .create .objP] ++ ([] ++ [.deed d .objP]) : List (Act Obj)) := by
      rintro d (rfl | rfl) <;> exact ⟨fun _ => rfl, fun r => by cases r <;> rfl⟩
    exact neat_list E.rounds rfl (E.ask .fits && E.ask .ended) few
  | useHardwareRng => exact neat_objSetResult
  | dword | smartcardGuid | userCertstore | rootCertstore =>
    refine neat_ite fun _ => ?_
    cases E.ask .fits with
    | false => exact neat_resultOfTwoCalls .objP
    | true => exact neat_objSetResult
  | keysetSecDescr =>
    exact neat_ite fun _ => ⟨fun _ => rfl, fun r => by cases r <;> rfl⟩
  | keyexchangePin | signaturePin | ascii =>
    exact neat_ite fun _ => ⟨fun _ => rfl, fun r => by cases r <;> rfl⟩
  | clientHwnd | deleteKey | pinPromptString | uiPrompt | other => exact neat_resultOfTwoCalls .objP

theorem neat_getNameString : Neat (twapiCertGetNameString E).events := by
  unfold twapiCertGetNameString
  refine neat_ite fun _ => ?_
  cases E.ask .fits with
  | false => exact ⟨fun _ => rfl, fun r => by cases r <;> rfl⟩
  | true => exact neat_objSetResult

/-! ### `Twapi_CryptoCallObjCmd` -/

theorem neat_getEnhancedKeyUsage : Neat (certGetEnhancedKeyUsage E >>= Ended.finish).events := by
  unfold certGetEnhancedKeyUsage
  cases E.ask .args with
  | false => exact neat_nil
  | true =>
    cases E.ask .size with
    | false =>
      cases E.ask .ended with
      | false => exact neat_nil
      | true => exact neat_created
    | true => exact neat_framedCase (decoded_or (E.ask .found || E.ask .ended))

theorem neat_pfxVerifyPassword : Neat (pfxVerifyPassword E >>= Ended.finish).events := by
  unfold pfxVerifyPassword allocating
  cases E.ask .args with
  | false => exact neat_nil
  | true => cases E.ask .parse <;> exact ⟨fun _ => rfl, fun r => by cases r <;> rfl⟩

theorem neat_cryptStringToBinary
    (ok : ¬ (E.ask .args = true ∧ E.ask .size = true ∧ E.ask .fill = false)) :
    Neat (cryptStringToBinary E >>= Ended.finish).events := by
  unfold cryptStringToBinary
  cases args : E.ask .args with
  | false => exact neat_nil
  | true =>
    cases size : E.ask .size with
    | false => exact neat_nil
    | true =>
      cases fill : E.ask .fill with
      | false => exact absurd ⟨args, size, fill⟩ ok
      | true => exact ⟨fun _ => rfl, fun r => by cases r <;> rfl⟩

/-- The object is used, and given to the interpreter, after it was released. -/
theorem not_clean_cryptStringToBinary
    (fault : E.ask .args = true ∧ E.ask .size = true ∧ E.ask .fill = false) :
    ¬ Clean (cryptStringToBinary E >>= Ended.finish).events := by
  obtain ⟨args, size, fill⟩ := fault
  unfold cryptStringToBinary
  rw [args, size, fill]
  intro clean
  cases clean.settled .resultObj

/-- No mark is left with it. -/
theorem clean_capiHashPassword : Clean (capiHashPassword E >>= Ended.finish).events := by
  unfold capiHashPassword allocating
  cases E.ask .args with
  | false => exact neat_nil.clean
  | true => exact ⟨fun _ => rfl, fun r => by cases r <;> rfl⟩

theorem neat_ite_case {body : Run Ended} (neat : Neat (body >>= Ended.finish).events) :
    Neat ((if c then body else pure .returned) >>= Ended.finish).events := by
  cases c with
  | false => exact neat_nil
  | true => exact neat

/-- Every function but three, whose faults are excluded, and `capi_hash_password`. -/
theorem neat_func {func : Func} (ok : ¬ func.Faulty E) (other : func ≠ .capiHashPassword) :
    Neat (twapiCryptoCall E func).events := by
  unfold twapiCryptoCall
  cases func with
  | cryptAcquireContext | certCreateCertificateContext | certEnumCertificatesInStore | cryptGenKey
  | certCloseStore | cryptGetUserKey | certAddCertificateContextToStore
  | twapiCertGetIntendedKeyUsage | certAddEncodedCertificateToStore | certAlgIdToOID
  | cryptFindLocalizedName | cryptCATAdminAcquireContext | cryptCATCatalogInfoFromContext
  | cryptCreateHash | cryptDuplicateHash | cryptDeriveKey | cryptVerifySignature
  | certDuplicateCertificateContext =>
    exact neat_plain (given_eq E)
  | certOpenSystemStore | certEnumCertificateContextProperties | cryptFindCertificateKeyProvInfo
  | pfxIsPFXBlob | certCompareCertificateName
  | twapiCertChainErrors | twapiCertChainInfo | twapiCertChainSimpleChainCount | capiKeySaltLen =>
    exact neat_plain (.inl rfl)
  | cryptReleaseContext | certDeleteCertificateFromStore | cryptDestroyKey
  | certUnregisterSystemStore | twapiCertStoreCommit | cryptCATAdminReleaseCatalogContext
  | cryptDestroyHash | cryptHashData | cryptHashSessionKey => exact neat_plain (.inr rfl)
  | certFreeCertificateContext | certFreeCertificateChain | cryptMsgClose | certFreeCRLContext
  | certFreeCTLContext | cryptCATAdminReleaseContext => exact neat_nil
  | twapiCertGetEncoded | cryptAcquireCertificatePrivateKey | certGetIssuerCertificateFromStore
  | cryptEnumProviderTypes | cryptEnumProviders => exact neat_objvCase
  | certEnumSystemStore | certEnumPhysicalStore | certEnumSystemStoreLocation =>
    exact neat_enumerationCase
  | cryptGetProvParam => exact neat_returning (neat_ite fun _ => neat_getProvParam)
  | certGetCertificateContextProperty =>
    refine neat_returning (neat_ite fun args => ?_)
    exact neat_property fun fault => ok ⟨args, fault⟩
  | certGetNameString => exact neat_returning (neat_ite fun _ => neat_getNameString)
  | cryptSetProvParam =>
    refine neat_returning (neat_ite fun args => ?_)
    exact neat_setProvParam fun fault => ok ⟨args, fault⟩
  | certOpenStore | cryptGenRandom => exact neat_returning (neat_ite fun _ => neat_objSetResult)
  | certStrToName => exact neat_twoCallsCase
  | certNameToStr => exact neat_ite_case neat_createdName
  | cryptEnumOIDInfo => exact neat_ite_case (neat_createdList E.rounds)
  | certOIDToAlgId | certDuplicateStore => exact neat_ite_case neat_created
  | cryptExportPublicKeyInfoEx =>
    refine neat_ite_case ?_
    cases E.ask .size with
    | false => exact neat_nil
    | true => exact neat_framedCase (.inl rfl)
  | certGetEnhancedKeyUsage => exact neat_getEnhancedKeyUsage
  | certFindExtension => exact neat_extensionsCase 1
  | twapiCertGetExtensions => exact neat_extensionsCase E.rounds
  | twapiCertGetInfo => exact neat_twapiCertGetInfo
  | pfxVerifyPassword => exact neat_pfxVerifyPassword
  | twapiCertStoreSerialize =>
    refine neat_ite_case ?_
    unfold twoCalls
    cases E.ask .size with
    | false => exact neat_nil
    | true => cases E.ask .fill <;> exact ⟨fun _ => rfl, fun r => by cases r <;> rfl⟩
  | cryptStringToBinary => exact neat_cryptStringToBinary ok
  | cryptBinaryToString => exact neat_ite_case (neat_framedCase (.inl rfl))
  | cryptCATAdminCalcHashFromFileHandle =>
    refine neat_ite_case ?_
    cases E.ask .call with
    | false => exact neat_nil
    | true => exact neat_returning neat_objSetResult
  | cryptSignHash => exact neat_ite_case neat_filledCase
  | cryptGetHashParam =>
    refine neat_ite_case ?_
    cases E.ask .size with
    | false => exact neat_nil
    | true =>
      cases E.ask .hashVal with
      | false => exact neat_objSetResult
      | true => exact neat_filledCase
  | capiHashPassword => exact absurd rfl other

/-! ### Keys and messages -/

theorem neat_importKey : Neat (twapiCryptImportKey E).events := by
  unfold twapiCryptImportKey allocating
  refine neat_ite fun _ => ?_
  cases E.concealed with
  | false => exact neat_ite fun _ => neat_objSetResult
  | true =>
    cases E.ask .parse with
    | false => exact ⟨fun _ => rfl, fun _ => rfl⟩
    | true =>
      cases E.ask .check && E.ask .call <;> exact ⟨fun _ => rfl, fun r => by cases r <;> rfl⟩

/-- A command that goes no further than its arguments leaves nothing. -/
theorem neat_message {body : Run Unit}
    (neat : E.ask .parse = true → Neat (message E body).events) :
    Neat (message E body).events := by
  cases parse : E.ask .parse with
  | false =>
    unfold message allocating
    rw [parse]
    exact ⟨fun _ => rfl, fun _ => rfl⟩
  | true => exact neat parse

theorem neat_encryptMessage : Neat (twapiCryptEncryptMessage E).events := by
  refine neat_message fun parse => ?_
  unfold message allocating resultOfTwoCalls twoCalls
  rw [parse]
  cases E.ask .size with
  | false => exact ⟨fun _ => rfl, fun _ => rfl⟩
  | true => cases E.ask .fill <;> exact ⟨fun _ => rfl, fun r => by cases r <;> rfl⟩

theorem neat_signMessage : Neat (twapiCryptSignMessage E).events := by
  refine neat_message fun parse => ?_
  unfold message allocating pieces resultOfTwoCalls twoCalls
  rw [parse]
  cases E.ask .found with
  | false => exact ⟨fun _ => rfl, fun _ => rfl⟩
  | true =>
    cases E.ask .size with
    | false => exact ⟨fun _ => rfl, fun _ => rfl⟩
    | true => cases E.ask .fill <;> exact ⟨fun _ => rfl, fun r => by cases r <;> rfl⟩

theorem neat_verifyWithKey : Neat (twapiCryptVerifyMessageSignatureWithKey E).events := by
  refine neat_message fun parse => ?_
  unfold message allocating objSetVar2
  rw [parse]
  cases E.contentVar with
  | none => exact ⟨fun _ => rfl, fun _ => rfl⟩
  | some var =>
    cases E.ask .call with
    | false => exact ⟨fun _ => rfl, fun r => by cases r <;> rfl⟩
    | true =>
      cases E.ask .setContent with
      | false =>
        cases E.ask .keepsContent <;> exact ⟨fun _ => rfl, fun r => by cases r <;> rfl⟩
      | true => exact ⟨fun _ => rfl, fun r => by cases r <;> rfl⟩

theorem refused_of_certRefused (refused : CertRefused E) :
    ∃ var, wanted E.certVar = some var ∧ E.ask .setCert = false :=
  let ⟨var, is⟩ := Option.isSome_iff_exists.mp refused.1
  ⟨var, is, refused.2⟩

theorem certRefused_of_refused {var : String} (is : wanted E.certVar = some var)
    (refused : E.ask .setCert = false) : CertRefused E :=
  ⟨Option.isSome_iff_exists.mpr ⟨var, is⟩, refused⟩

theorem neat_decryptMessage (ok : ¬ (Command.cryptDecryptMessage).Faulty E) :
    Neat (twapiCryptDecryptMessage E).events := by
  refine neat_message fun parse => ?_
  unfold message allocating twoCalls setCert objSetVar2
  rw [parse]
  cases size : E.ask .size with
  | false => exact ⟨fun _ => rfl, fun _ => rfl⟩
  | true =>
    cases fill : E.ask .fill with
    | false => exact ⟨fun _ => rfl, fun r => by cases r <;> rfl⟩
    | true =>
      cases var : wanted E.certVar with
      | none => exact ⟨fun _ => rfl, fun r => by cases r <;> rfl⟩
      | some name =>
        cases sets : E.ask .setCert with
        | false => exact absurd ⟨parse, size, fill, certRefused_of_refused var sets⟩ ok
        | true => exact ⟨fun _ => rfl, fun r => by cases r <;> rfl⟩

theorem not_clean_decryptMessage (fault : (Command.cryptDecryptMessage).Faulty E) :
    ¬ Clean (twapiCryptDecryptMessage E).events := by
  obtain ⟨parse, size, fill, refused⟩ := fault
  obtain ⟨name, var, sets⟩ := refused_of_certRefused refused
  unfold twapiCryptDecryptMessage message allocating twoCalls setCert objSetVar2
  rw [parse, size, fill, var, sets]
  intro clean
  cases keeps : E.ask .keepsCert <;> rw [keeps] at clean <;> cases clean.settled .certObj

theorem neat_verifyMessage (ok : ¬ (Command.cryptVerifyMessageSignature).Faulty E) :
    Neat (twapiCryptVerifyMessageSignature E).events := by
  refine neat_message fun parse => ?_
  unfold message allocating systemError setCert objSetVar2
  rw [parse]
  cases size : E.ask .size with
  | false =>
    by_cases bad : E.lastError .size = nteBadSignature ∨ E.lastError .size = nteBadAlgid
    · rw [if_pos bad]
      exact ⟨fun _ => rfl, fun r => by cases r <;> rfl⟩
    · rw [if_neg bad]
      exact ⟨fun _ => rfl, fun _ => rfl⟩
  | true =>
    by_cases empty : E.nout = 0
    · rw [if_pos empty]
      exact ⟨fun _ => rfl, fun _ => rfl⟩
    · rw [if_neg empty]
      have kept : ¬ ContentFault E := fun fault => ok ⟨parse, size, empty, fault⟩
      unfold ContentFault at kept
      cases content : wanted E.contentVar with
      | none =>
        rw [content] at kept
        cases var : wanted E.certVar with
        | none => exact ⟨fun _ => rfl, fun r => by cases r <;> rfl⟩
        | some name =>
          cases sets : E.ask .setCert with
          | false => exact absurd (certRefused_of_refused var sets) kept
          | true => exact ⟨fun _ => rfl, fun r => by cases r <;> rfl⟩
      | some _ =>
        rw [content] at kept
        cases fill : E.ask .fill with
        | false =>
          rw [fill] at kept
          have other : ¬ (E.lastError .fill = nteBadSignature ∨
            E.lastError .fill = nteBadAlgid) := kept
          rw [if_neg other]
          exact ⟨fun _ => rfl, fun r => by cases r <;> rfl⟩
        | true =>
          rw [fill] at kept
          cases set : E.ask .setContent with
          | false => exact absurd (fun yes => nomatch set.symm.trans yes) kept
          | true =>
            cases var : wanted E.certVar with
            | none => exact ⟨fun _ => rfl, fun r => by cases r <;> rfl⟩
            | some name =>
              cases sets : E.ask .setCert with
              | false =>
                exact absurd (fun _ => certRefused_of_refused var sets) kept
              | true => exact ⟨fun _ => rfl, fun r => by cases r <;> rfl⟩

/-- The content is lost where its signature is not good, and released once more where its
variable cannot be set, or that of the certificate. -/
theorem not_clean_verifyMessage (fault : (Command.cryptVerifyMessageSignature).Faulty E) :
    ¬ Clean (twapiCryptVerifyMessageSignature E).events := by
  obtain ⟨parse, size, content, fault⟩ := fault
  unfold ContentFault at fault
  unfold twapiCryptVerifyMessageSignature message allocating systemError setCert objSetVar2
  rw [parse, size, if_neg content]
  intro clean
  cases content : wanted E.contentVar with
  | none =>
    rw [content] at fault clean
    obtain ⟨name, var, sets⟩ := refused_of_certRefused fault
    rw [var, sets] at clean
    cases keeps : E.ask .keepsCert <;> rw [keeps] at clean <;> cases clean.settled .certObj
  | some _ =>
    rw [content] at fault clean
    cases fill : E.ask .fill with
    | false =>
      rw [fill] at fault clean
      have bad : E.lastError .fill = nteBadSignature ∨ E.lastError .fill = nteBadAlgid := fault
      rw [if_pos bad] at clean
      cases clean.settled .contentObj
    | true =>
      rw [fill] at fault clean
      cases set : E.ask .setContent with
      | false =>
        rw [set] at clean
        cases keeps : E.ask .keepsContent <;> rw [keeps] at clean <;>
          cases clean.settled .contentObj
      | true =>
        obtain ⟨name, var, sets⟩ := refused_of_certRefused (fault set)
        rw [set, var, sets] at clean
        cases keeps : E.ask .keepsCert <;> rw [keeps] at clean <;>
          cases clean.settled .certObj

theorem neat_verifyDetached (ok : ¬ (Command.cryptVerifyDetachedMessageSignature).Faulty E) :
    Neat (twapiCryptVerifyDetachedMessageSignature E).events := by
  refine neat_message fun parse => ?_
  unfold message allocating pieces setCert objSetVar2
  rw [parse]
  cases found : E.ask .found with
  | false => exact ⟨fun _ => rfl, fun _ => rfl⟩
  | true =>
    cases call : E.ask .call with
    | true => exact ⟨fun _ => rfl, fun _ => rfl⟩
    | false =>
      cases var : wanted E.certVar with
      | none => exact ⟨fun _ => rfl, fun _ => rfl⟩
      | some name =>
        cases sets : E.ask .setCert with
        | false => exact absurd ⟨parse, found, call, certRefused_of_refused var sets⟩ ok
        | true => exact ⟨fun _ => rfl, fun r => by cases r <;> rfl⟩

theorem not_clean_verifyDetached (fault : (Command.cryptVerifyDetachedMessageSignature).Faulty E) :
    ¬ Clean (twapiCryptVerifyDetachedMessageSignature E).events := by
  obtain ⟨parse, found, call, refused⟩ := fault
  obtain ⟨name, var, sets⟩ := refused_of_certRefused refused
  unfold twapiCryptVerifyDetachedMessageSignature message allocating pieces setCert objSetVar2
  rw [parse, found, call, var, sets]
  intro clean
  cases keeps : E.ask .keepsCert <;> rw [keeps] at clean <;> cases clean.settled .certObj

/-! ### All commands -/

/-- Without a fault the stack comes back as it was, but for `capi_hash_password`. -/
theorem neat_run {c : Command} (ok : ¬ c.Faulty E) (other : c ≠ .cryptoCall .capiHashPassword) :
    Neat (c.run E).events := by
  cases c with
  | cryptoCall func => exact neat_func ok fun same => other (congrArg Command.cryptoCall same)
  | cryptSetProvParam => exact neat_setProvParam ok
  | cryptImportKey => exact neat_importKey
  | cryptEncryptMessage | cryptSignAndEncryptMessage => exact neat_encryptMessage
  | cryptDecryptMessage => exact neat_decryptMessage ok
  | cryptVerifyMessageSignature => exact neat_verifyMessage ok
  | cryptVerifyMessageSignatureWithKey => exact neat_verifyWithKey
  | cryptVerifyDetachedMessageSignature => exact neat_verifyDetached ok
  | cryptSignMessage | cryptSignMessageWithKey => exact neat_signMessage

theorem not_clean_returning {body : Run Unit} (called : c = true) (fault : ¬ Clean body.events) :
    ¬ Clean (returning (if c then body else pure ()) >>= Ended.finish).events := by
  subst called
  have same : (returning (if true then body else pure ()) >>= Ended.finish).events =
      body.events := by
    simp [returning, Ended.finish]
  rwa [same]

theorem not_clean_func {func : Func} (fault : func.Faulty E) :
    ¬ Clean (twapiCryptoCall E func).events := by
  unfold twapiCryptoCall
  cases func with
  | cryptSetProvParam => exact not_clean_returning fault.1 (not_clean_setProvParam fault.2)
  | certGetCertificateContextProperty =>
    exact not_clean_returning fault.1 (not_clean_property fault.2)
  | cryptStringToBinary => exact not_clean_cryptStringToBinary fault
  | _ => exact fault.elim

theorem not_clean_run {c : Command} (fault : c.Faulty E) : ¬ Clean (c.run E).events := by
  cases c with
  | cryptoCall func => exact not_clean_func fault
  | cryptSetProvParam => exact not_clean_setProvParam fault
  | cryptDecryptMessage => exact not_clean_decryptMessage fault
  | cryptVerifyMessageSignature => exact not_clean_verifyMessage fault
  | cryptVerifyDetachedMessageSignature => exact not_clean_verifyDetached fault
  | _ => exact fault.elim

/-- A command comes back with as many marks as there were, and every object that it created is
returned, or released once and not used after, if and only if it is none of the faulty calls. -/
theorem command_clean_iff (E : Env) (c : Command) : Clean (c.run E).events ↔ ¬ c.Faulty E := by
  constructor
  · intro clean fault
    exact not_clean_run fault clean
  · intro ok
    by_cases password : c = .cryptoCall .capiHashPassword
    · obtain rfl := password
      exact clean_capiHashPassword
    · exact (neat_run ok password).clean

/-- A security descriptor that cannot be read, for `PP_KEYSET_SEC_DESCR`. -/
def unreadable : Env where
  ask ask := ask ≠ .parse
  memory _ := 0
  lastError _ := 0
  rounds := 0
  param := .keysetSecDescr
  prop := .other
  cooked := false
  concealed := false
  nout := 0
  contentVar := none
  certVar := none

/-- The mark for the security descriptor is left. -/
theorem descriptor_leaves_mark : ¬ Clean ((Command.cryptSetProvParam).run unreadable).events := by
  intro clean
  cases clean.depth []

/-! ### The variables of a signed message -/

section Variables

variable {Para Key Cert : Type}

def succeeds {α : Type} : Except Nat α → Bool
  | .ok _ => true
  | .error _ => false

/-- The command is told what CryptoAPI answers, and whether its variables can be set; no trace
fails. -/
structure Told (E : Env) (api : Api Para Key Cert) (env : Crypto.Env) (args : MessageArgs Para)
    (para : Para) : Prop where
  parse : E.ask .parse = true
  size : E.ask .size = succeeds (api.verifyMessage para args.signer args.message none)
  nout : ∀ {sized}, api.verifyMessage para args.signer args.message none = .ok sized →
    E.nout = sized.nout
  fill : E.ask .fill = succeeds (api.verifyMessage para args.signer args.message (some E.nout))
  setContent : E.ask .setContent = env.setsContent
  setCert : E.ask .setCert = env.setsCert
  keepsContent : E.ask .keepsContent = false
  keepsCert : E.ask .keepsCert = false
  contentVar : E.contentVar = args.contentVar
  certVar : E.certVar = args.certVar

def Event.variableSet : Event Cert → Option Obj
  | .setContent .. => some .contentObj
  | .setCert .. => some .certObj
  | _ => none

def variableSet : Act Obj → Option Obj
  | .deed .give .contentObj => some .contentObj
  | .deed .give .certObj => some .certObj
  | _ => none

end Variables

end Twapi.Crypto.Commands
