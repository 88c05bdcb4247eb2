import Mathlib.Data.List.Dedup
import Twapi.Lib.Table

/-!
Object identifiers of enhanced key usages, `tcl/crypto.tcl`: `_get_enhkey_usage_oids`
and `_cert_decode_enhkey`.
-/

namespace Twapi.Cert

/-- The identifiers whose names match `oid_pkix_kp_*`. -/
def oidPkixKp : List (String × String) :=
  [("oid_pkix_kp_server_auth", "1.3.6.1.5.5.7.3.1"),
   ("oid_pkix_kp_client_auth", "1.3.6.1.5.5.7.3.2"),
   ("oid_pkix_kp_code_signing", "1.3.6.1.5.5.7.3.3"),
   ("oid_pkix_kp_email_protection", "1.3.6.1.5.5.7.3.4"),
   ("oid_pkix_kp_ipsec_end_system", "1.3.6.1.5.5.7.3.5"),
   ("oid_pkix_kp_ipsec_tunnel", "1.3.6.1.5.5.7.3.6"),
   ("oid_pkix_kp_ipsec_user", "1.3.6.1.5.5.7.3.7"),
   ("oid_pkix_kp_timestamp_signing", "1.3.6.1.5.5.7.3.8"),
   ("oid_pkix_kp_ocsp_signing", "1.3.6.1.5.5.7.3.9")]

/-- `^\d([\d\.]*\d)?$` -/
def looksLikeOid (name : String) : Bool :=
  match name.toList with
  | [] => false
  | c :: cs => c.isDigit && (cs.getLastD c).isDigit && cs.all fun d => d.isDigit || d == '.'

def enhkeyUsageOid (name : String) : Option String :=
  match oidPkixKp.lookup name with
  | some oid => some oid
  | none =>
    match oidPkixKp.lookup ("oid_pkix_kp_" ++ name) with
    | some oid => some oid
    | none => if looksLikeOid name then some name else none

/-- The names of an array, which are without duplicates; their order is not specified.
The error is the name that is no identifier. -/
def getEnhkeyUsageOids (names : List String) : Except String (List String) :=
  match names.find? fun name => (enhkeyUsageOid name).isNone with
  | some name => .error name
  | none => .ok (names.filterMap enhkeyUsageOid).dedup

/-- The symbol of an identifier, without `oid_pkix_kp_`. -/
def certDecodeEnhkey (vals : List String) : List String :=
  vals.map fun val =>
    match (oidPkixKp.map Prod.swap).lookup val with
    | some name => (name.drop 12).toString
    | none => val

/-! ### Identifiers and their names -/

/-- The name of an identifier, without its beginning, stands for it, too. -/
theorem enhkeyUsageOid_symbol : ∀ entry ∈ oidPkixKp,
    enhkeyUsageOid (entry.1.drop 12).toString = some entry.2 := by decide

theorem name_not_oid : ∀ entry ∈ oidPkixKp, looksLikeOid entry.1 = false ∧
    looksLikeOid (String.ofList (entry.1.toList.drop 12)) = false := by decide

theorem enhkeyUsageOid_of_looksLike {oid : String} (looks : looksLikeOid oid = true) :
    enhkeyUsageOid oid = some oid := by
  unfold enhkeyUsageOid
  cases whole : oidPkixKp.lookup oid with
  | some other =>
    have not_oid := (name_not_oid _ (Lib.mem_of_lookup whole)).1
    rw [looks] at not_oid
    cases not_oid
  | none =>
    cases symbol : oidPkixKp.lookup ("oid_pkix_kp_" ++ oid) with
    | some other =>
      have not_oid := (name_not_oid _ (Lib.mem_of_lookup symbol)).2
      have beginning : ("oid_pkix_kp_" ++ oid).toList.drop 12 = oid.toList := by
        rw [String.toList_append]
        rfl
      dsimp only at not_oid
      rw [beginning, String.ofList_toList, looks] at not_oid
      cases not_oid
    | none => exact if_pos looks

/-- What a name stands for is one of those with a name, or looks like an identifier. -/
theorem enhkeyUsageOid_cases {name oid : String} (stands : enhkeyUsageOid name = some oid) :
    (∃ symbol, (symbol, oid) ∈ oidPkixKp) ∨ looksLikeOid oid = true := by
  unfold enhkeyUsageOid at stands
  split at stands
  · rename_i whole
    cases stands
    exact .inl ⟨name, Lib.mem_of_lookup whole⟩
  · split at stands
    · rename_i symbol
      cases stands
      exact .inl ⟨_, Lib.mem_of_lookup symbol⟩
    · split at stands
      · rename_i looks
        cases stands
        exact .inr looks
      · cases stands

/-- Names that are decoded stand for the identifiers that they were decoded from. -/
theorem enhkeyUsageOid_certDecodeEnhkey {oids : List String}
    (stand : ∀ oid ∈ oids, ∃ name, enhkeyUsageOid name = some oid) :
    (certDecodeEnhkey oids).filterMap enhkeyUsageOid = oids := by
  induction oids with
  | nil => rfl
  | cons oid oids ih =>
    have rest := ih fun other among => stand other (List.mem_cons_of_mem _ among)
    unfold certDecodeEnhkey at rest ⊢
    rw [List.map_cons]
    obtain ⟨name, stands⟩ := stand oid List.mem_cons_self
    cases symbol : (oidPkixKp.map Prod.swap).lookup oid with
    | some known =>
      obtain ⟨entry, listed, swapped⟩ := List.mem_map.mp (Lib.mem_of_lookup symbol)
      cases swapped
      rw [List.filterMap_cons_some (enhkeyUsageOid_symbol entry listed), rest]
    | none =>
      have looks : looksLikeOid oid = true := by
        obtain ⟨known, listed⟩ | looks := enhkeyUsageOid_cases stands
        · have found := List.lookup_eq_none_iff.mp symbol (oid, known)
            (List.mem_map.mpr ⟨(known, oid), listed, rfl⟩)
          exact absurd found (by simp)
        · exact looks
      rw [List.filterMap_cons_some (enhkeyUsageOid_of_looksLike looks), rest]

theorem mem_getEnhkeyUsageOids {names oids : List String} (known : getEnhkeyUsageOids names = .ok oids)
    (oid : String) : oid ∈ oids ↔ oid ∈ names.filterMap enhkeyUsageOid := by
  unfold getEnhkeyUsageOids at known
  split at known
  · cases known
  · cases known
    exact List.mem_dedup

end Twapi.Cert
