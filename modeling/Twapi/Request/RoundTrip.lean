import Twapi.CryptObject.RoundTrip
import Twapi.Lib.Results
import Twapi.Request.Options

/-!
Certificate requests, `tcl/crypto.tcl`: `cert_request_create` and `cert_request_parse`.

* `certRequestCreate` — up to the signed request, which is not in PEM.
* `certRequestParse` — of that.
* `Ask.Reported` — what is reported for what was asked for; `Ask.Kept` says when it is
  the same.
* `request_reported_iff` puts these together, for the options of a request.
-/

namespace Twapi.Request

open CryptObject Lib.Traced List Obj
open Lib (Traced ok_bind)

/-- The name functions, the public key of the container, and
`CryptSignAndEncodeCertificate`. -/
structure RequestApi extends Api where
  nameToBlob : String → Except Nat Bytes
  blobToName : Bytes → String
  publicKey : Except Nat (AlgorithmId × BitBlob)
  sign : Struct → Except Nat Bytes

/-- A request that is signed is decoded to what was signed. -/
def Signs (api : RequestApi) : Prop :=
  ∀ u, u.IsFor (.number 4) → ∃ enc, api.sign u = .ok enc ∧ api.decode (.number 4) enc = .ok u

/-! ### `cert_request_create` -/

def oidRsaCertExtensions : String := "1.2.840.113549.1.9.14"

def badRequest : Fault := .message "Invalid CERT_REQUEST_INFO structure"

section Create

variable (api : RequestApi) (T : Numbers) (junk : String → Obj → Junk)

/-- `ParseCERT_REQUEST_INFO` -/
def parseRequestInfo (unused : DWORD) (o : Obj) : Traced Call (Except Fault Struct) :=
  match o.elements with
  | some [version, subject, pubkey, attributes] =>
    match T.asDWORD version.text with
    | none => pure (.error badRequest)
    | some version =>
      match parsePublicKeyInfo T.toTcl unused pubkey with
      | .error _ => pure (.error badRequest)
      | .ok (alg, key) => do
          match ← parseAttributes (encodeObject api.toEncoder T.toTcl junk) attributes with
          | .error _ => pure (.error badRequest)
          | .ok attributes =>
            pure (.ok (.request version subject.toBytes alg key attributes))
  | _ => pure (.error badRequest)

def requestInfo (exts : List Obj) (alg : AlgorithmId) (key : BitBlob) (subject : Bytes) : Obj :=
  .list [zero, .ofBytes subject, .list [alg.obj, key.obj],
    if exts = [] then .atom ""
    else .list [.list [.atom oidRsaCertExtensions, .list [.list exts]]]]

/-- `cert_request_create`, for DER. -/
def certRequestCreate (unused : DWORD) (subject : String) (opts : Options) :
    Traced Call (Except Fault Bytes) :=
  match certCreateParseOptions T opts with
  | .error fault => pure (.error fault)
  | .ok exts =>
    match api.publicKey with
    | .error code => pure (.error (.system code))
    | .ok (alg, key) =>
      match api.nameToBlob subject with
      | .error code => pure (.error (.system code))
      | .ok blob => do
          match ← parseRequestInfo api T junk unused (requestInfo exts alg key blob) with
          | .error fault => pure (.error fault)
          | .ok u =>
            match api.sign u with
            | .error code => pure (.error (.system code))
            | .ok enc => pure (.ok enc)

end Create

/-! ### `cert_request_parse` -/

def altNameOf (code : String) : String :=
  match [("1", "other"), ("2", "email"), ("3", "dns"), ("5", "directory"), ("7", "url"), ("8", "ip"),
    ("9", "registered")].lookup code with
  | some name => name
  | none => code

def decodeAltName (o : Obj) : Except Fault Obj :=
  (listOf o).map fun xs => .list [.atom (altNameOf (nth xs 0).text), nth xs 1]

/-- `_cert_decode_extension` -/
def certDecodeExtension (oid : String) (val : Obj) : Except Fault Obj :=
  if oid = "2.5.29.15" then
    match certDecodeKeyusage val.toBytes with
    | some usages => .ok usages
    | none => .error (.message "can't use empty string as operand of \"&\"")
  else if oid = "2.5.29.37" then
    (listOf val).map fun vals => .list ((Cert.certDecodeEnhkey (vals.map Obj.text)).map .atom)
  else if oid = "2.5.29.17" ∨ oid = "2.5.29.18" then
    match listOf val with
    | .error fault => .error fault
    | .ok elems => (parseList decodeAltName elems).map .list
  else .ok val

def oidName (oid : String) : String :=
  match [("2.5.29.15", "-keyusage"), ("2.5.29.17", "-altnames"), ("2.5.29.19", "-basicconstraints"),
    ("2.5.29.37", "-enhkeyusage")].lookup oid with
  | some name => name
  | none => oid

/-- A key of the dictionary of extensions, the value and the flag. -/
structure Entry where
  key : String
  value : Obj
  critical : Obj

def entryOf (ext : Obj) : Except Fault Entry :=
  match listOf ext with
  | .error fault => .error fault
  | .ok xs =>
    (certDecodeExtension (nth xs 0).text (nth xs 2)).map fun value =>
      ⟨oidName (nth xs 0).text, value, nth xs 1⟩

structure Parsed where
  version : Obj
  pubkey : Obj
  attributes : Obj
  subject : String
  extensions : Option (List Entry)

/-- The extensions of the last attribute that has them. -/
def requestExtensions : List Obj → Except Fault (Option (List Entry))
  | [] => .ok none
  | attr :: attrs => do
      let xs ← listOf attr
      if (nth xs 0).text = oidRsaCertExtensions then
        let values ← listOf (nth xs 1)
        let exts ← listOf (nth values 0)
        let entries ← parseList entryOf exts
        let later ← requestExtensions attrs
        pure (some (later.getD entries))
      else requestExtensions attrs

/-- `cert_request_parse`, of DER -/
def certRequestParse (api : RequestApi) (T : Numbers) (req : Bytes) : Except Fault Parsed :=
  match decodeObject api.toApi T.toTcl "4" req with
  | .error code => .error (.system code)
  | .ok o => do
      let xs ← listOf o
      let attrs ← listOf (nth xs 3)
      let extensions ← requestExtensions attrs
      pure ⟨nth xs 0, nth xs 2, nth xs 3, api.blobToName (nth xs 1).toBytes, extensions⟩

/-! ### What is reported -/

def SameFlag (T : Numbers) (flag flag' : Obj) : Prop :=
  ∃ b, T.asBoolean flag.text = some b ∧ T.asBoolean flag'.text = some b

/-- A kind of name, and the name, or the two parts of one. -/
def altReading (pair : Obj) : Option (String × List String) :=
  let type := (nth (parts pair) 0).text
  let name := nth (parts pair) 1
  if type = "other" then
    match name.elements with
    | some [oid, value] => some (type, [oid.text, value.text])
    | _ => none
  else some (type, [name.text])

def Asked.key : Asked → String
  | .basicConstraints _ => "-basicconstraints"
  | .keyUsage _ => "-keyusage"
  | .enhkeyUsage _ => "-enhkeyusage"
  | .altNames issuer _ => if issuer then "2.5.29.18" else "-altnames"

/-- Usages are the same as sets, enhanced ones as sets of identifiers. -/
def Asked.Same (T : Numbers) (asked : Asked) (value : Obj) : Prop :=
  match asked with
  | .basicConstraints given =>
    ∃ m, Kind.read T.toTcl .basicConstraints2
        (.list [nth (parts given) 0, nth (parts given) 1, nth (parts given) 2]) = some m ∧
      Kind.read T.toTcl .basicConstraints2 value = some m
  | .keyUsage given =>
    ∃ usages, value = .list usages ∧ ∀ u, u ∈ usages.map Obj.text ↔ u ∈ given
  | .enhkeyUsage given =>
    ∃ usages, value = .list usages ∧ ∀ oid,
      oid ∈ (usages.map Obj.text).filterMap Cert.enhkeyUsageOid ↔
        oid ∈ given.filterMap Cert.enhkeyUsageOid
  | .altNames _ pairs =>
    ∃ reported m, value = .list reported ∧ readList altReading pairs = some m ∧
      readList altReading reported = some m

def Ask.Reported (T : Numbers) (ask : Ask) (entry : Entry) : Prop :=
  entry.key = ask.what.key ∧ ask.what.Same T entry.value ∧ SameFlag T ask.critical entry.critical

/-- The name is one of its kind, and all of it is. -/
def AltKept (pair : Obj) : Prop :=
  let type := (nth (parts pair) 0).text
  let name := nth (parts pair) 1
  if type = "other" then ∃ oid value, name.elements = some [oid, value] ∧ IsBytes value
  else if type ∈ ["email", "dns", "url"] then NulFree name
  else if type ∈ ["directory", "ip"] then IsBytes name
  else True

def Asked.Kept (T : Numbers) : Asked → Prop
  | .basicConstraints value =>
    (T.asBoolean (nth (parts value) 0).text).isSome ∧
      (T.asBoolean (nth (parts value) 1).text).isSome ∧
        (T.asDWORD (nth (parts value) 2).text).isSome
  | .keyUsage names =>
    ∀ byte1 byte2, keyusageBytes names (0, 0) = some (byte1, byte2) → byte1 ∉ quotedBytes
  | .enhkeyUsage _ => True
  | .altNames _ pairs => ∀ pair ∈ pairs, AltKept pair

def Ask.Kept (T : Numbers) (ask : Ask) : Prop :=
  (T.asBoolean ask.critical.text).isSome ∧ ask.what.Kept T

/-- What is reported of a request. -/
def Reports (api : RequestApi) (T : Numbers) (subject : String) (opts : Options) (parsed : Parsed) :
    Prop :=
  (∃ blob, api.nameToBlob subject = .ok blob ∧ parsed.subject = api.blobToName blob) ∧
    (∃ alg key, api.publicKey = .ok (alg, key) ∧ parsed.pubkey = .list [alg.obj, key.obj]) ∧
      ∃ entries, parsed.extensions = some entries ∧
        List.Forall₂ (Ask.Reported T) (opts.asks T) entries

/-! ### Extensions that are made -/

section Made

variable {api : RequestApi} {T : Numbers}

variable {oid type : String} {kind : Kind}

theorem kind_of_oid (dots : 2 ≤ oid.toList.count '.') (listed : namedKinds.lookup oid = some kind) :
    (oidArg T.toTcl oid).kind = some kind := by
  unfold oidArg
  rw [T.asDWORD_oid oid dots]
  exact listed

/-- An extension of the kinds that hold no others. -/
theorem parseExtension_leaf (inverse : Inverse api.toApi) (junk : String → Obj → Junk)
    (is : (oidArg T.toTcl oid).kind = some kind) (leaf : kind ≠ .extensions)
    (noBlob : kind ≠ .publicKeyBlob) {critical value : Obj} {flag : Bool} {u : Struct}
    (isFlag : T.asBoolean critical.text = some flag)
    (parsed : kind.parse T.toTcl (junk oid value).unused value = .ok u) :
    ∃ ext, (parseExtension api.toEncoder T.toTcl junk (.list [.atom oid, critical, value])).result =
        .ok ext ∧
      Extension.obj api.toApi T.toTcl ext =
        .list [.atom oid, .ofBool flag, u.obj (decodeValue api.toApi T.toTcl)] := by
  obtain ⟨enc, encoded, decoded⟩ := round_leaf junk inverse is leaf noBlob parsed
  refine ⟨⟨oid, flag, enc⟩, ?_, ?_⟩
  · have text : (atom oid).text = oid := rfl
    rw [parseExtension.eq_def]
    simp only [isFlag, result_bind, text, encoded]
    rfl
  · rw [Extension.obj, decodeValue, decoded]

theorem parseExtension_fault (junk : String → Obj → Junk)
    (is : (oidArg T.toTcl oid).kind = some kind) (leaf : kind ≠ .extensions) {critical value : Obj}
    {fault : Fault} (failed : kind.parse T.toTcl (junk oid value).unused value = .error fault) :
    ∃ fault, (parseExtension api.toEncoder T.toTcl junk (.list [.atom oid, critical, value])).result =
      .error fault := by
  have text : (atom oid).text = oid := rfl
  rw [parseExtension.eq_def]
  dsimp only
  split
  · exact ⟨_, rfl⟩
  · rw [result_bind, text, encodeObject_leaf is leaf, failed]
    exact ⟨fault, rfl⟩

theorem parseExtension_noFlag (junk : String → Obj → Junk) {oid critical value : Obj}
    (noFlag : T.asBoolean critical.text = none) :
    ∃ fault, (parseExtension api.toEncoder T.toTcl junk (.list [oid, critical, value])).result =
      .error fault := by
  rw [parseExtension.eq_def]
  dsimp only
  rw [noFlag]
  exact ⟨_, rfl⟩

/-- What comes of an extension that is made of what is asked for. -/
def Comes (api : RequestApi) (T : Numbers) (junk : String → Obj → Junk) (ask : Ask) (ext : Obj) :
    Prop :=
  ((∃ fault, (parseExtension api.toEncoder T.toTcl junk ext).result = .error fault) ∧
      ¬ ask.Kept T) ∨
    ∃ e entry, (parseExtension api.toEncoder T.toTcl junk ext).result = .ok e ∧
      entryOf (Extension.obj api.toApi T.toTcl e) = .ok entry ∧
        (ask.Reported T entry ↔ ask.Kept T)

/-- Where a kind of extension is parsed, what is left is to compare the values. -/
theorem comes_of_leaf (ask : Ask) (inverse : Inverse api.toApi) (junk : String → Obj → Junk)
    (is : (oidArg T.toTcl oid).kind = some kind) (leaf : kind ≠ .extensions)
    (noBlob : kind ≠ .publicKeyBlob) {value : Obj} (key : oidName oid = ask.what.key)
    (fails : ∀ fault, kind.parse T.toTcl (junk oid value).unused value = .error fault →
      ¬ ask.what.Kept T) (same : ∀ u, kind.parse T.toTcl (junk oid value).unused value = .ok u →
      ∃ v, certDecodeExtension oid (u.obj (decodeValue api.toApi T.toTcl)) = .ok v ∧
        (ask.what.Same T v ↔ ask.what.Kept T)) :
    Comes api T junk ask (.list [.atom oid, ask.critical, value]) := by
  cases isFlag : T.asBoolean ask.critical.text with
  | none =>
    refine .inl ⟨parseExtension_noFlag junk isFlag, fun kept => ?_⟩
    have flag := kept.1
    rw [isFlag] at flag
    cases flag
  | some flag =>
    cases parsed : kind.parse T.toTcl (junk oid value).unused value with
    | error fault =>
      exact .inl ⟨parseExtension_fault junk is leaf parsed,
        fun kept => fails fault parsed kept.2⟩
    | ok u =>
      obtain ⟨ext, result, obj⟩ := parseExtension_leaf inverse junk is leaf noBlob isFlag parsed
      obtain ⟨v, decoded, iff_⟩ := same u parsed
      refine .inr ⟨ext, ⟨oidName oid, v, .ofBool flag⟩, result, ?_, ?_⟩
      · rw [obj, entryOf]
        have text : (atom oid).text = oid := rfl
        simp only [listOf, elements, nth, getD_cons_zero, getD_cons_succ, text,
          decoded]
        rfl
      · constructor
        · rintro ⟨-, same, -⟩
          exact ⟨by rw [isFlag]; rfl, iff_.mp same⟩
        · rintro ⟨-, kept⟩
          exact ⟨key, iff_.mpr kept, flag, isFlag, T.asBoolean_ofBool flag⟩

theorem comes_constraints (inverse : Inverse api.toApi) (junk : String → Obj → Junk)
    (value critical : Obj) :
    Comes api T junk ⟨.basicConstraints value, critical⟩ (.list [.atom "2.5.29.19", critical,
      .list [nth (parts value) 0, nth (parts value) 1, nth (parts value) 2]]) := by
  have is : (oidArg T.toTcl "2.5.29.19").kind = some .basicConstraints2 :=
    kind_of_oid (by decide) (by decide)
  have key : oidName "2.5.29.19" = "-basicconstraints" := by decide
  refine comes_of_leaf ⟨.basicConstraints value, critical⟩ inverse junk is (by rintro ⟨⟩) (by rintro ⟨⟩) key ?_ ?_
  · rintro fault failed ⟨isCa, isValid, isLen⟩
    obtain ⟨ca, isCa⟩ := Option.isSome_iff_exists.mp isCa
    obtain ⟨valid, isValid⟩ := Option.isSome_iff_exists.mp isValid
    obtain ⟨len, isLen⟩ := Option.isSome_iff_exists.mp isLen
    simp only [Kind.parse, parseBasicConstraints, elements, isCa, isValid, isLen] at failed
    cases failed
  · intro u parsed
    simp only [Kind.parse, parseBasicConstraints, elements] at parsed
    split at parsed
    · rename_i ca valid len isCa isValid isLen
      cases parsed
      refine ⟨_, rfl, iff_of_true ⟨.basicConstraints ca valid len, ?_, ?_⟩ ⟨?_, ?_, ?_⟩⟩
      · simp only [Kind.read, elements, isCa, isValid, isLen]
      · simp only [Kind.read, Struct.obj, elements, T.asBoolean_ofBool, T.asDWORD_ofDWORD]
      · rw [isCa]
        rfl
      · rw [isValid]
        rfl
      · rw [isLen]
        rfl
    · cases parsed

theorem comes_keyusage (inverse : Inverse api.toApi) (junk : String → Obj → Junk)
    {given : List String} (critical : Obj) {byte1 byte2 : UInt8}
    (made : keyusageBytes given (0, 0) = some (byte1, byte2)) :
    Comes api T junk ⟨.keyUsage given, critical⟩ (.list [.atom "2.5.29.15", critical,
      .list [.ofBytes [byte1, byte2], .ofDWORD 7]]) := by
  have is : (oidArg T.toTcl "2.5.29.15").kind = some .keyUsage := kind_of_oid (by decide) (by decide)
  have parses (unused : DWORD) : Kind.keyUsage.parse T.toTcl unused
      (.list [.ofBytes [byte1, byte2], .ofDWORD 7]) = .ok (.bits ⟨[byte1, byte2], 7⟩) := by
    simp only [Kind.parse, parseBitBlob, elements, T.asDWORD_ofDWORD, toBytes_ofBytes]
    rfl
  have key : oidName "2.5.29.15" = "-keyusage" := by decide
  refine comes_of_leaf ⟨.keyUsage given, critical⟩ inverse junk is (by rintro ⟨⟩) (by rintro ⟨⟩) key ?_ ?_
  · intro fault failed
    rw [parses] at failed
    cases failed
  · intro u parsed
    rw [parses] at parsed
    cases parsed
    obtain ⟨usages, decoded⟩ := certDecodeKeyusage_obj byte1 [byte2] 7
    have given_iff (u : String) : u ∈ usagesOf byte1 byte2 ↔ u ∈ given := by
      have added := mem_usagesOf_keyusageBytes made u
      rw [usagesOf_zero] at added
      simpa using added
    have intended : certDecodeKeyusage (intendedKeyUsage [byte1, byte2]) =
        some (.list ((usagesOf byte1 byte2).map .atom)) := rfl
    have legible := sameUsages_iff ⟨[byte1, byte2], 7⟩
    rw [decoded, intended, made_legible_iff made] at legible
    refine ⟨.list usages, ?_, ?_⟩
    · rw [Struct.obj, certDecodeExtension, if_pos rfl, decoded]
    · constructor
      · rintro ⟨usages', equal, same⟩ byte1' byte2' made'
        cases equal
        rw [made] at made'
        cases made'
        refine legible.mp ⟨usages, _, rfl, rfl, fun u => ?_⟩
        rw [names_atoms, same, given_iff]
      · intro kept
        obtain ⟨xs, ys, first, second, same⟩ := legible.mpr (kept byte1 byte2 made)
        cases first
        cases second
        refine ⟨usages, rfl, fun u => ?_⟩
        rw [same, names_atoms, given_iff]

theorem comes_enhkeyusage (inverse : Inverse api.toApi) (junk : String → Obj → Junk)
    {given oids : List String} (critical : Obj) (known : Cert.getEnhkeyUsageOids given = .ok oids) :
    Comes api T junk ⟨.enhkeyUsage given, critical⟩
      (.list [.atom "2.5.29.37", critical, .list (oids.map .atom)]) := by
  have is : (oidArg T.toTcl "2.5.29.37").kind = some .enhancedKeyUsage :=
    kind_of_oid (by decide) (by decide)
  have parses (unused : DWORD) : Kind.enhancedKeyUsage.parse T.toTcl unused
      (.list (oids.map .atom)) = .ok (.usages oids) := by
    simp only [Kind.parse, parseEnhkeyUsage, elements, names_atoms]
    rfl
  have key : oidName "2.5.29.37" = "-enhkeyusage" := by decide
  refine comes_of_leaf ⟨.enhkeyUsage given, critical⟩ inverse junk is (by rintro ⟨⟩) (by rintro ⟨⟩) key ?_ ?_
  · intro fault failed
    rw [parses] at failed
    cases failed
  · intro u parsed
    rw [parses] at parsed
    cases parsed
    refine ⟨.list ((Cert.certDecodeEnhkey oids).map .atom), ?_, iff_of_true ?_ trivial⟩
    · rw [Struct.obj, certDecodeExtension, if_neg (by decide), if_pos rfl, listOf, elements]
      simp only [Except.map, names_atoms]
    · refine ⟨_, rfl, fun oid => ?_⟩
      have stand : ∀ oid ∈ oids, ∃ name, Cert.enhkeyUsageOid name = some oid := by
        intro oid among
        obtain ⟨name, -, stands⟩ :=
          mem_filterMap.mp ((Cert.mem_getEnhkeyUsageOids known oid).mp among)
        exact ⟨name, stands⟩
      rw [names_atoms, Cert.enhkeyUsageOid_certDecodeEnhkey stand]
      exact Cert.mem_getEnhkeyUsageOids known oid

/-! ### Alternative names -/

/-- What comes of an entry that is made of a pair. -/
def NameComes (T : Numbers) (pair entry : Obj) : Prop :=
  ((∃ fault, parseAltName T.toTcl entry = .error fault) ∧ ¬ AltKept pair) ∨
    ∃ name d m m', parseAltName T.toTcl entry = .ok name ∧ decodeAltName name.obj = .ok d ∧
      altReading pair = some m ∧ altReading d = some m' ∧ (m' = m ↔ AltKept pair)

theorem nameComes_string (alt : String → AltName) {pair name : Obj} {choice : DWORD}
    (is : (nth (parts pair) 0).text = type) (isName : nth (parts pair) 1 = name)
    (string : type ∈ ["email", "dns", "url"]) (code : altNameOf (Obj.ofDWORD choice).text = type)
    (parses : parseAltName T.toTcl (.list [.ofDWORD choice, name]) = .ok (alt (cstr name.text)))
    (obj : ∀ s, (alt s).obj = .list [.ofDWORD choice, .atom s]) :
    NameComes T pair (.list [.ofDWORD choice, name]) := by
  have plain : type ≠ "other" := by
    rintro rfl
    exact absurd string (by decide)
  refine .inr ⟨_, .list [.atom type, .atom (cstr name.text)], (type, [name.text]),
    (type, [cstr name.text]), parses, ?_, ?_, ?_, ?_⟩
  · rw [obj, decodeAltName, ← code]
    rfl
  · unfold altReading
    rw [is, isName]
    exact if_neg plain
  · exact if_neg plain
  · unfold AltKept
    rw [is, isName, if_neg plain, if_pos string, Prod.mk.injEq, cons.injEq, cstr_eq_iff]
    simp only [true_and, and_true]
    exact Iff.rfl

theorem nameComes_bytes (alt : Bytes → AltName) {pair name : Obj} {choice : DWORD}
    (is : (nth (parts pair) 0).text = type) (isName : nth (parts pair) 1 = name)
    (bytes : type ∈ ["directory", "ip"]) (code : altNameOf (Obj.ofDWORD choice).text = type)
    (parses : parseAltName T.toTcl (.list [.ofDWORD choice, name]) = .ok (alt name.toBytes))
    (obj : ∀ b, (alt b).obj = .list [.ofDWORD choice, .ofBytes b]) :
    NameComes T pair (.list [.ofDWORD choice, name]) := by
  have plain : type ≠ "other" := by
    rintro rfl
    exact absurd bytes (by decide)
  have no_string : type ∉ ["email", "dns", "url"] := by
    intro string
    revert bytes
    simp only [mem_cons, not_mem_nil, or_false] at string
    obtain rfl | rfl | rfl := string <;> decide
  refine .inr ⟨_, .list [.atom type, .ofBytes name.toBytes], (type, [name.text]),
    (type, [(ofBytes name.toBytes).text]), parses, ?_, ?_, ?_, ?_⟩
  · rw [obj, decodeAltName, ← code]
    rfl
  · unfold altReading
    rw [is, isName]
    exact if_neg plain
  · exact if_neg plain
  · unfold AltKept
    rw [is, isName, if_neg plain, if_neg no_string, if_pos bytes, Prod.mk.injEq, cons.injEq,
      text_ofBytes_iff]
    simp only [true_and, and_true]

theorem nameComes_registered {pair name : Obj} (is : (nth (parts pair) 0).text = "registered")
    (isName : nth (parts pair) 1 = name) : NameComes T pair (.list [.ofDWORD 9, name]) := by
  have plain : "registered" ≠ "other" := by decide
  have no_string : "registered" ∉ ["email", "dns", "url"] := by decide
  have no_bytes : "registered" ∉ ["directory", "ip"] := by decide
  refine .inr ⟨.registeredId name.text, .list [.atom "registered", .atom name.text],
    ("registered", [name.text]), ("registered", [name.text]), ?_, ?_, ?_, ?_, iff_of_true rfl ?_⟩
  · simp only [parseAltName, elements, T.asDWORD_ofDWORD]
    rfl
  · rfl
  · unfold altReading
    rw [is, isName]
    exact if_neg plain
  · rfl
  · unfold AltKept
    rw [is, if_neg plain, if_neg no_string, if_neg no_bytes]
    trivial

theorem nameComes_other {pair name : Obj} (is : (nth (parts pair) 0).text = "other")
    (isName : nth (parts pair) 1 = name) : NameComes T pair (.list [.ofDWORD 1, name]) := by
  have kept : AltKept pair ↔ ∃ oid value, name.elements = some [oid, value] ∧ IsBytes value := by
    unfold AltKept
    rw [is, isName]
    exact Iff.rfl
  have parses : parseAltName T.toTcl (.list [.ofDWORD 1, name]) =
      match name.elements with
      | some [oid, value] => .ok (.otherName oid.text value.toBytes)
      | _ => .error (badName (.list [.ofDWORD 1, name])) := by
    simp only [parseAltName, elements, T.asDWORD_ofDWORD]
    rfl
  by_cases two : ∃ oid value, name.elements = some [oid, value]
  · obtain ⟨oid, value, two⟩ := two
    rw [two] at parses
    refine .inr ⟨.otherName oid.text value.toBytes,
      .list [.atom "other", .list [.atom oid.text, .ofBytes value.toBytes]],
      ("other", [oid.text, value.text]), ("other", [oid.text, (ofBytes value.toBytes).text]),
      parses, rfl, ?_, rfl, ?_⟩
    · unfold altReading
      rw [is, isName, if_pos rfl, two]
    · rw [kept, Prod.mk.injEq, cons.injEq, cons.injEq, text_ofBytes_iff, two]
      constructor
      · rintro ⟨-, -, bytes, -⟩
        exact ⟨oid, value, rfl, bytes⟩
      · rintro ⟨oid', value', equal, bytes⟩
        cases equal
        exact ⟨rfl, rfl, bytes, rfl⟩
  · refine .inl ⟨⟨badName (.list [.ofDWORD 1, name]), ?_⟩, ?_⟩
    · rw [parses]
      split
      · rename_i oid value pair
        exact absurd ⟨oid, value, pair⟩ two
      · rfl
    · rw [kept]
      rintro ⟨oid, value, pair, -⟩
      exact two ⟨oid, value, pair⟩

theorem nameComes_of_entry {pair entry : Obj} (made : altEntry pair = .ok entry) :
    NameComes T pair entry := by
  unfold altEntry at made
  cases list : listOf pair with
  | error fault =>
    rw [list] at made
    cases made
  | ok xs =>
    rw [list] at made
    dsimp only at made
    have known := parts_of_listOf list
    cases found : altTypes.lookup (nth xs 0).text with
    | none =>
      rw [found] at made
      cases made
    | some choice =>
      rw [found] at made
      cases made
      have among := Lib.mem_of_lookup found
      have isName : nth (parts pair) 1 = nth xs 1 := by rw [known]
      rw [← known] at among
      simp only [altTypes, mem_cons, Prod.mk.injEq, not_mem_nil, or_false] at among
      obtain ⟨is, rfl⟩ | ⟨is, rfl⟩ | ⟨is, rfl⟩ | ⟨is, rfl⟩ | ⟨is, rfl⟩ | ⟨is, rfl⟩ | ⟨is, rfl⟩ :=
        among
      · exact nameComes_other is isName
      · refine nameComes_string .rfc822 is isName (by decide) (by decide) ?_ fun _ => rfl
        simp only [parseAltName, elements, T.asDWORD_ofDWORD]
        rfl
      · refine nameComes_string .dns is isName (by decide) (by decide) ?_ fun _ => rfl
        simp only [parseAltName, elements, T.asDWORD_ofDWORD]
        rfl
      · refine nameComes_bytes .directory is isName (by decide) (by decide) ?_ fun _ => rfl
        simp only [parseAltName, elements, T.asDWORD_ofDWORD]
        rfl
      · refine nameComes_string .url is isName (by decide) (by decide) ?_ fun _ => rfl
        simp only [parseAltName, elements, T.asDWORD_ofDWORD]
        rfl
      · refine nameComes_bytes .ipAddress is isName (by decide) (by decide) ?_ fun _ => rfl
        simp only [parseAltName, elements, T.asDWORD_ofDWORD]
        rfl
      · exact nameComes_registered is isName

/-- All names of the list, one after the other. -/
theorem namesCome {pairs entries : List Obj} (made : parseList altEntry pairs = .ok entries) :
    ((∃ fault, parseList (parseAltName T.toTcl) entries = .error fault) ∧
        ¬ ∀ pair ∈ pairs, AltKept pair) ∨
      ∃ names ds ms ms', parseList (parseAltName T.toTcl) entries = .ok names ∧
        parseList decodeAltName (names.map AltName.obj) = .ok ds ∧
          readList altReading pairs = some ms ∧ readList altReading ds = some ms' ∧
            (ms' = ms ↔ ∀ pair ∈ pairs, AltKept pair) := by
  induction pairs generalizing entries with
  | nil =>
    cases made
    exact .inr ⟨[], [], [], [], rfl, rfl, rfl, rfl, iff_of_true rfl nofun⟩
  | cons pair pairs ih =>
    unfold parseList at made
    cases first : altEntry pair with
    | error fault =>
      rw [first] at made
      cases made
    | ok entry =>
      rw [first] at made
      dsimp only at made
      cases others : parseList altEntry pairs with
      | error fault =>
        rw [others] at made
        cases made
      | ok rest =>
        rw [others] at made
        cases made
        rw [forall_mem_cons]
        obtain ⟨⟨fault, fails⟩, notKept⟩ | ⟨name, d, m, m', parses, decoded, reads, reads', iff_⟩ :=
          nameComes_of_entry (T := T) first
        · refine .inl ⟨⟨fault, ?_⟩, fun kept => notKept kept.1⟩
          rw [parseList, fails]
        · obtain ⟨⟨fault, fails⟩, notKept⟩ | ⟨names, ds, ms, ms', parse, decode, read, read', all⟩ :=
            ih others
          · refine .inl ⟨⟨fault, ?_⟩, fun kept => notKept kept.2⟩
            rw [parseList, parses]
            dsimp only
            rw [fails]
          · refine .inr ⟨name :: names, d :: ds, m :: ms, m' :: ms', ?_, ?_, ?_, ?_, ?_⟩
            · rw [parseList, parses]
              dsimp only
              rw [parse]
            · rw [map_cons, parseList, decoded]
              dsimp only
              rw [decode]
            · rw [readList, reads, read]
            · rw [readList, reads', read']
            · rw [cons.injEq, iff_, all]

theorem comes_altnames (inverse : Inverse api.toApi) (junk : String → Obj → Junk) (issuer : Bool)
    {pairs entries : List Obj} (critical : Obj) (made : parseList altEntry pairs = .ok entries) :
    Comes api T junk ⟨.altNames issuer pairs, critical⟩
      (.list [.atom (if issuer then "2.5.29.18" else "2.5.29.17"), critical, .list entries]) := by
  have is : (oidArg T.toTcl (if issuer then "2.5.29.18" else "2.5.29.17")).kind =
      some .alternateName := by
    cases issuer with
    | true => exact kind_of_oid (by decide) (by decide)
    | false => exact kind_of_oid (by decide) (by decide)
  have names : oidName "2.5.29.18" = "2.5.29.18" ∧ oidName "2.5.29.17" = "-altnames" := by decide
  have key : oidName (if issuer then "2.5.29.18" else "2.5.29.17") =
      (Asked.altNames issuer pairs).key := by
    cases issuer with
    | true => exact names.1
    | false => exact names.2
  have decodes (names : List AltName) (v : Obj) :
      certDecodeExtension (if issuer then "2.5.29.18" else "2.5.29.17")
          (.list (names.map AltName.obj)) =
        (parseList decodeAltName (names.map AltName.obj)).map .list := by
    cases issuer with
    | true => rfl
    | false => rfl
  have parse (unused : DWORD) : Kind.alternateName.parse T.toTcl unused (.list entries) =
      (parseList (parseAltName T.toTcl) entries).map .names := rfl
  refine comes_of_leaf ⟨.altNames issuer pairs, critical⟩ inverse junk is (by rintro ⟨⟩) (by rintro ⟨⟩) key ?_ ?_
  · intro fault failed
    obtain ⟨-, notKept⟩ | ⟨names, ds, ms, ms', parses, -⟩ := namesCome (T := T) made
    · exact notKept
    · rw [parse, parses] at failed
      cases failed
  · intro u parsed
    obtain ⟨⟨fault, fails⟩, -⟩ | ⟨names, ds, ms, ms', parses, decoded, reads, reads', iff_⟩ :=
      namesCome (T := T) made
    · rw [parse, fails] at parsed
      cases parsed
    · rw [parse, parses] at parsed
      cases parsed
      refine ⟨.list ds, ?_, ?_⟩
      · rw [Struct.obj, decodes names (.list ds), decoded]
        rfl
      · constructor
        · rintro ⟨reported, m, equal, first, second⟩
          cases equal
          rw [reads] at first
          rw [reads'] at second
          cases first
          cases second
          exact iff_.mp rfl
        · intro kept
          exact ⟨ds, ms, rfl, reads, by rw [reads', iff_.mpr kept]⟩

theorem comes_of_makes (inverse : Inverse api.toApi) (junk : String → Obj → Junk) {ask : Ask}
    {ext : Obj} (makes : ask.Makes ext) : Comes api T junk ask ext := by
  obtain ⟨what, critical⟩ := ask
  cases what with
  | basicConstraints value =>
    cases makes
    exact comes_constraints inverse junk value critical
  | keyUsage names =>
    obtain ⟨byte1, byte2, made, rfl⟩ := makes
    exact comes_keyusage inverse junk critical made
  | enhkeyUsage names =>
    obtain ⟨oids, known, rfl⟩ := makes
    exact comes_enhkeyusage inverse junk critical known
  | altNames issuer pairs =>
    obtain ⟨entries, made, rfl⟩ := makes
    exact comes_altnames inverse junk issuer critical made

/-- All extensions, one after the other. -/
theorem extensions_come (inverse : Inverse api.toApi) (junk : String → Obj → Junk) {asks : List Ask}
    {exts : List Obj} (makes : List.Forall₂ Ask.Makes asks exts) :
    ((∃ fault, (parseExtensions api.toEncoder T.toTcl junk exts).result = .error fault) ∧
        ¬ ∀ ask ∈ asks, ask.Kept T) ∨
      ∃ es entries, (parseExtensions api.toEncoder T.toTcl junk exts).result = .ok es ∧
        parseList entryOf (es.map (Extension.obj api.toApi T.toTcl)) = .ok entries ∧
          (List.Forall₂ (Ask.Reported T) asks entries ↔ ∀ ask ∈ asks, ask.Kept T) := by
  induction makes with
  | nil =>
    refine .inr ⟨[], [], ?_, rfl, iff_of_true .nil nofun⟩
    rw [parseExtensions.eq_def]
    rfl
  | cons first _ ih =>
    rename_i ask ext asks exts
    rw [forall_mem_cons, parseExtensions.eq_def]
    dsimp only
    obtain ⟨⟨fault, fails⟩, notKept⟩ | ⟨e, entry, parses, decoded, iff_⟩ :=
      comes_of_makes inverse junk first
    · refine .inl ⟨⟨fault, ?_⟩, fun kept => notKept kept.1⟩
      rw [andThen, result_bind, fails]
      rfl
    · obtain ⟨⟨fault, fails⟩, notKept⟩ | ⟨es, entries, parse, decode, all⟩ := ih
      · refine .inl ⟨⟨fault, ?_⟩, fun kept => notKept kept.2⟩
        rw [andThen, result_bind, parses]
        dsimp only
        rw [result_bind, fails]
        rfl
      · refine .inr ⟨e :: es, entry :: entries, ?_, ?_, ?_⟩
        · exact andThen_ok_iff.mpr ⟨e, es, parses, parse, rfl⟩
        · rw [map_cons, parseList, decoded]
          dsimp only
          rw [decode]
        · rw [forall₂_cons, iff_, all]

end Made

/-! ### Requests that are created and parsed -/

section Requests

variable {api : RequestApi} {T : Numbers}

variable {alg alg' : AlgorithmId} {key key' : BitBlob} {unused : DWORD} {subject : String}
  {exts : List Obj}

/-- The public key of a request is the one of the container, where it can be parsed. -/
theorem parsePublicKeyInfo_obj
    (parsed : parsePublicKeyInfo T.toTcl unused (.list [alg.obj, key.obj]) = .ok (alg', key')) :
    alg'.obj = alg.obj ∧ key'.obj = key.obj := by
  have algorithm : parseAlgorithmId alg.obj = .ok ⟨some (alg.oid.getD ""), alg.parameters⟩ := by
    rw [AlgorithmId.obj, parseAlgorithmId, elements]
    dsimp only
    rw [toBytes_ofBytes]
    rfl
  rw [parsePublicKeyInfo, elements] at parsed
  dsimp only at parsed
  rw [algorithm] at parsed
  dsimp only at parsed
  split at parsed
  · cases parsed
  · rename_i key'' isKey
    cases parsed
    refine ⟨rfl, ?_⟩
    unfold BitBlob.obj at isKey
    by_cases empty : key.data = []
    · rw [if_pos empty] at isKey
      simp only [parseBitBlob, elements, T.asDWORD_ofDWORD] at isKey
      cases isKey
      unfold BitBlob.obj
      rw [if_pos empty]
      rfl
    · rw [if_neg empty] at isKey
      simp only [parseBitBlob, elements, T.asDWORD_ofDWORD, toBytes_ofBytes] at isKey
      split_ifs at isKey
      cases isKey
      rfl

/-- What was on the stack does not matter for a public key that is given with its
number of unused bits. -/
theorem parsePublicKeyInfo_unused (unused unused' : DWORD) (alg : AlgorithmId) (key : BitBlob) :
    parsePublicKeyInfo T.toTcl unused (.list [alg.obj, key.obj]) =
      parsePublicKeyInfo T.toTcl unused' (.list [alg.obj, key.obj]) := by
  have same : parseBitBlob T.toTcl unused key.obj = parseBitBlob T.toTcl unused' key.obj := by
    unfold BitBlob.obj
    split <;> rfl
  rw [parsePublicKeyInfo, parsePublicKeyInfo, elements]
  dsimp only
  rw [same]

/-- The extensions that the request has: those that are parsed, or what memory held. -/
def sentExtensions (api : RequestApi) (T : Numbers) (junk : String → Obj → Junk) (exts : List Obj) :
    List Extension :=
  (parseExtensions api.toEncoder T.toTcl junk exts).result.toOption.getD
    (junk oidRsaCertExtensions (.list exts)).exts

theorem oidArg_four : oidArg T.toTcl "4" = .number 4 := by
  have four : T.asDWORD "4" = some 4 := T.asDWORD_ofDWORD 4
  unfold oidArg
  rw [four]
  rfl

/-- The structure of a request with extensions, and the value that it is decoded to. -/
theorem parseRequestInfo_ok (inverse : Inverse api.toApi) (junk : String → Obj → Junk)
    (some_ : exts ≠ []) (blob : Bytes)
    (parsed : parsePublicKeyInfo T.toTcl unused (.list [alg.obj, key.obj]) = .ok (alg', key')) :
    ∃ enc, decodeObject api.toApi T.toTcl oidRsaCertExtensions enc = .ok (.list
          ((sentExtensions api T junk exts).map (Extension.obj api.toApi T.toTcl))) ∧
      (parseRequestInfo api T junk unused (requestInfo exts alg key blob)).result =
        .ok (.request 0 blob alg' key' [⟨oidRsaCertExtensions, [enc]⟩]) := by
  have is : (oidArg T.toTcl oidRsaCertExtensions).kind = some .extensions :=
    kind_of_oid (by decide) (by decide)
  obtain ⟨enc, encoded, decoded⟩ := round_extensions junk inverse is exts
  refine ⟨enc, decoded, ?_⟩
  have number : T.asDWORD zero.text = some 0 := T.asDWORD_ofDWORD 0
  have text : (atom oidRsaCertExtensions).text = oidRsaCertExtensions := rfl
  have values : (forEach (encodeObject api.toEncoder T.toTcl junk oidRsaCertExtensions)
      [.list exts]).result = .ok [enc] := by
    refine andThen_ok_iff.mpr ⟨enc, [], encoded, ?_, rfl⟩
    rfl
  have single : (parseAttribute (encodeObject api.toEncoder T.toTcl junk)
      (.list [.atom oidRsaCertExtensions, .list [.list exts]])).result =
        .ok ⟨oidRsaCertExtensions, [enc]⟩ := by
    simp only [parseAttribute, elements, result_bind, text, values]
    rfl
  have attributes : (parseAttributes (encodeObject api.toEncoder T.toTcl junk)
      (.list [.list [.atom oidRsaCertExtensions, .list [.list exts]]])).result =
        .ok [⟨oidRsaCertExtensions, [enc]⟩] := by
    refine andThen_ok_iff.mpr ⟨_, [], single, ?_, rfl⟩
    rfl
  rw [requestInfo, if_neg some_]
  simp only [parseRequestInfo, elements, number, parsed, result_bind, attributes,
    toBytes_ofBytes]
  rfl

theorem listOf_list (xs : List Obj) : listOf (.list xs) = .ok xs := rfl

/-- What is parsed of a request whose structure is known. -/
theorem certRequestParse_ok {blob enc req : Bytes} {es : List Extension}
    (sameAlg : alg'.obj = alg.obj) (sameKey : key'.obj = key.obj)
    (decoded : api.decode (.number 4) req =
      .ok (.request 0 blob alg' key' [⟨oidRsaCertExtensions, [enc]⟩]))
    (decodedExts : decodeObject api.toApi T.toTcl oidRsaCertExtensions enc =
      .ok (.list (es.map (Extension.obj api.toApi T.toTcl)))) :
    ∃ attributes, certRequestParse api T req =
      (parseList entryOf (es.map (Extension.obj api.toApi T.toTcl))).map fun entries =>
        ⟨zero, .list [alg.obj, key.obj], attributes, api.blobToName blob, some entries⟩ := by
  have isRequest : decodeObject api.toApi T.toTcl "4" req = .ok (.list [zero, .ofBytes blob,
      .list [alg.obj, key.obj], .list [.list [.atom oidRsaCertExtensions,
        .list [.list (es.map (Extension.obj api.toApi T.toTcl))]]]]) := by
    have number : (oidArg T.toTcl "4").interpreted := by
      rw [oidArg_four]
      rfl
    rw [decodeObject_of_decode api.toApi T.toTcl number (by rw [oidArg_four]; exact decoded)]
    have value : decodeValue api.toApi T.toTcl oidRsaCertExtensions enc =
        .list (es.map (Extension.obj api.toApi T.toTcl)) := by rw [decodeValue, decodedExts]
    rw [Struct.obj, sameAlg, sameKey]
    simp only [map_cons, map_nil, value]
    rfl
  have entries : requestExtensions [.list [.atom oidRsaCertExtensions,
      .list [.list (es.map (Extension.obj api.toApi T.toTcl))]]] =
        (parseList entryOf (es.map (Extension.obj api.toApi T.toTcl))).map some := by
    have same : (nth [.atom oidRsaCertExtensions,
        .list [.list (es.map (Extension.obj api.toApi T.toTcl))]] 0).text = oidRsaCertExtensions := rfl
    rw [requestExtensions, listOf_list, ok_bind, if_pos same]
    simp only [nth, getD_cons_zero, getD_cons_succ, listOf_list, ok_bind]
    cases parseList entryOf (es.map (Extension.obj api.toApi T.toTcl)) with
    | error fault => rfl
    | ok entries => rfl
  refine ⟨.list [.list [.atom oidRsaCertExtensions,
    .list [.list (es.map (Extension.obj api.toApi T.toTcl))]]], ?_⟩
  rw [certRequestParse, isRequest]
  dsimp only
  rw [listOf_list, ok_bind]
  simp only [nth, getD_cons_zero, getD_cons_succ, listOf_list, ok_bind, entries,
    toBytes_ofBytes]
  cases parseList entryOf (es.map (Extension.obj api.toApi T.toTcl)) with
  | error fault => rfl
  | ok entries => rfl

theorem extensions_ne_nil {opts : Options} (made : certCreateParseOptions T opts = .ok exts) :
    exts ≠ [] := by
  rintro rfl
  have none := asks_of_options made
  cases none

/-- A request that is created from its parts, and what is parsed of it. -/
theorem request_created (inverse : Inverse api.toApi) (signs : Signs api)
    (junk : String → Obj → Junk) {opts : Options} {blob : Bytes}
    (made : certCreateParseOptions T opts = .ok exts) (isKey : api.publicKey = .ok (alg, key))
    (isName : api.nameToBlob subject = .ok blob)
    (parsed : parsePublicKeyInfo T.toTcl unused (.list [alg.obj, key.obj]) = .ok (alg', key')) :
    ∃ enc attributes, (certRequestCreate api T junk unused subject opts).result = .ok enc ∧
      certRequestParse api T enc = (parseList entryOf ((sentExtensions api T junk exts).map
        (Extension.obj api.toApi T.toTcl))).map fun entries =>
          ⟨zero, .list [alg.obj, key.obj], attributes, api.blobToName blob, some entries⟩ := by
  obtain ⟨sameAlg, sameKey⟩ := parsePublicKeyInfo_obj parsed
  obtain ⟨enc, decoded, info⟩ := parseRequestInfo_ok inverse junk (extensions_ne_nil made) blob parsed
  obtain ⟨req, signed, opened⟩ :=
    signs (.request 0 blob alg' key' [⟨oidRsaCertExtensions, [enc]⟩]) rfl
  obtain ⟨attributes, parses⟩ := certRequestParse_ok (T := T) sameAlg sameKey opened decoded
  refine ⟨req, attributes, ?_, parses⟩
  unfold certRequestCreate
  rw [made, isKey, isName]
  dsimp only
  rw [result_bind, info]
  dsimp only
  rw [signed]
  rfl

/-- What requests that are accepted are made of, whatever memory held. -/
theorem accepted_iff (inverse : Inverse api.toApi) (signs : Signs api) {opts : Options}
    (accepted : ∃ unused junk enc,
      (certRequestCreate api T junk unused subject opts).result = .ok enc) :
    ∃ exts alg key blob, certCreateParseOptions T opts = .ok exts ∧
      api.publicKey = .ok (alg, key) ∧ api.nameToBlob subject = .ok blob ∧
        ∀ unused junk, ∃ enc attributes,
          (certRequestCreate api T junk unused subject opts).result = .ok enc ∧
            certRequestParse api T enc =
              (parseList entryOf ((sentExtensions api T junk exts).map
                (Extension.obj api.toApi T.toTcl))).map fun entries =>
                  ⟨zero, .list [alg.obj, key.obj], attributes, api.blobToName blob, some entries⟩ := by
  obtain ⟨unused, junk, enc, created⟩ := accepted
  unfold certRequestCreate at created
  cases made : certCreateParseOptions T opts with
  | error fault =>
    rw [made] at created
    cases created
  | ok exts =>
    rw [made] at created
    dsimp only at created
    cases isKey : api.publicKey with
    | error code =>
      rw [isKey] at created
      cases created
    | ok pair =>
      obtain ⟨alg, key⟩ := pair
      rw [isKey] at created
      dsimp only at created
      cases isName : api.nameToBlob subject with
      | error code =>
        rw [isName] at created
        cases created
      | ok blob =>
        rw [isName] at created
        dsimp only at created
        refine ⟨exts, alg, key, blob, rfl, rfl, rfl, fun unused' junk' => ?_⟩
        cases parsed : parsePublicKeyInfo T.toTcl unused (.list [alg.obj, key.obj]) with
        | error fault =>
          have number : T.asDWORD zero.text = some 0 := T.asDWORD_ofDWORD 0
          rw [requestInfo, if_neg (extensions_ne_nil made)] at created
          simp only [parseRequestInfo, elements, number, parsed, result_bind,
            result_pure] at created
          cases created
        | ok info =>
          obtain ⟨alg', key'⟩ := info
          rw [parsePublicKeyInfo_unused unused unused'] at parsed
          exact request_created inverse signs junk' made isKey isName parsed

/-- All is kept that is reported of a request where memory held no extensions. -/
theorem kept_of_reports (inverse : Inverse api.toApi) (signs : Signs api) {opts : Options}
    {enc : Bytes} {parsed : Parsed}
    (created : (certRequestCreate api T noJunk unused subject opts).result = .ok enc)
    (isParsed : certRequestParse api T enc = .ok parsed)
    (reports : Reports api T subject opts parsed) :
    ∀ ask ∈ opts.asks T, ask.Kept T := by
  obtain ⟨exts, alg, key, blob, made, -, -, creates⟩ :=
    accepted_iff inverse signs ⟨unused, noJunk, enc, created⟩
  obtain ⟨-, -, entries, isEntries, reported⟩ := reports
  obtain ⟨enc', attributes, created', parses⟩ := creates unused noJunk
  rw [created] at created'
  cases created'
  rw [parses] at isParsed
  obtain ⟨entries', isEntries', rfl⟩ := map_ok isParsed
  cases isEntries
  unfold sentExtensions at isEntries'
  obtain ⟨⟨fault, fails⟩, -⟩ | ⟨es, entries', parse, decode, iff_⟩ :=
    extensions_come inverse noJunk (asks_of_options made)
  · -- The request has no extensions, but basic constraints are always asked for.
    rw [fails] at isEntries'
    cases isEntries'
    cases reported
  · rw [parse] at isEntries'
    have same := decode.symm.trans isEntries'
    cases same
    exact iff_.mp reported

/-- What a request was created with is what is parsed of it, whatever memory held, if and
only if all of it is kept; and the usages of a bit string are those of its bits if and only
if it can be read from the string of its value. -/
theorem request_reported_iff (inverse : Inverse api.toApi) (signs : Signs api) (subject : String)
    (opts : Options)
    (accepted : ∃ unused junk enc,
      (certRequestCreate api T junk unused subject opts).result = .ok enc) :
    ((∀ unused junk enc, (certRequestCreate api T junk unused subject opts).result = .ok enc →
        ∃ parsed, certRequestParse api T enc = .ok parsed ∧ Reports api T subject opts parsed) ↔
      ∀ ask ∈ opts.asks T, ask.Kept T) ∧
    ∀ blob : BitBlob,
      SameUsages (certDecodeKeyusage blob.obj.toBytes) (certDecodeKeyusage (intendedKeyUsage blob.data)) ↔
        Legible blob.data := by
  refine ⟨?_, sameUsages_iff⟩
  obtain ⟨exts, alg, key, blob, made, isKey, isName, creates⟩ := accepted_iff inverse signs accepted
  constructor
  · intro reports
    obtain ⟨enc, attributes, created, parses⟩ := creates 0 noJunk
    obtain ⟨parsed, isParsed, reported⟩ := reports 0 noJunk enc created
    exact kept_of_reports inverse signs created isParsed reported
  · intro kept unused junk enc created
    obtain ⟨enc', attributes, created', parses⟩ := creates unused junk
    rw [created] at created'
    cases created'
    obtain ⟨-, notKept⟩ | ⟨es, entries, parse, decode, iff_⟩ :=
      extensions_come inverse junk (asks_of_options made)
    · exact absurd kept notKept
    · unfold sentExtensions at parses
      rw [parse] at parses
      refine ⟨_, parses.trans (congrArg _ decode), ⟨blob, isName, rfl⟩, ⟨alg, key, isKey, rfl⟩,
        entries, rfl, iff_.mpr kept⟩

end Requests

/-! ### Two requests -/

/-- Numbers in decimal, and -1. -/
def decimalNumbers : Numbers where
  toTcl := decimal
  asInteger s :=
    if s = "-1" then some (-1)
    else if s.toList.all Char.isDigit && !s.toList.isEmpty then some (Nat.ofDigitChars 10 s.toList 0)
    else none
  asInteger_ofDWORD n := by
    have digits : (Obj.ofDWORD n).text.toList = Nat.toDigits 10 n.toNat := by
      simp [Obj.ofDWORD, Obj.text]
    have all : (Nat.toDigits 10 n.toNat).all Char.isDigit = true :=
      List.all_eq_true.mpr fun _ => Nat.isDigit_of_mem_toDigits (by decide) (by decide)
    have plain : (Obj.ofDWORD n).text ≠ "-1" := by
      intro minus
      rw [minus] at digits
      rw [← digits] at all
      revert all
      decide
    rw [if_neg plain, digits, all]
    simp
  asDWORD_oid s dots := by
    have dot : '.' ∈ s.toList := List.count_pos_iff.mp (by omega)
    refine if_neg fun number => ?_
    have digit := List.all_eq_true.mp ((Bool.and_eq_true _ _).mp number).1 _ dot
    revert digit
    decide

/-- Requests that are not signed, with a key of one bit string. -/
def unaryRequests : RequestApi where
  toApi := unaryApi
  nameToBlob name := .ok (name.toList.map byteOf)
  blobToName blob := String.ofList (blob.map charOf)
  publicKey := .ok (⟨some "1.2.840.113549.1.1.1", []⟩, ⟨[1], 0⟩)
  sign u := .ok u.enc

theorem signs_unaryRequests : Signs unaryRequests := fun u _ => ⟨u.enc, rfl, ofDer_enc u⟩

/-- A request for one key usage. -/
def usageOptions (usage : String) : Options where
  altnames := none
  enhkeyusage := none
  keyusage := some (.list [.list [.atom usage]])
  basicconstraints := none
  purpose := .list []
  capathlen := "-1"

theorem usage_created (usage : String) {exts : List Obj}
    (made : certCreateParseOptions decimalNumbers (usageOptions usage) = .ok exts) :
    ∃ enc, (certRequestCreate unaryRequests decimalNumbers noJunk 0 "CN=a" (usageOptions usage)).result =
      .ok enc := by
  have isKey : parsePublicKeyInfo decimalNumbers.toTcl 0 (.list [AlgorithmId.obj
      ⟨some "1.2.840.113549.1.1.1", []⟩, BitBlob.obj ⟨[1], 0⟩]) =
        .ok (⟨some "1.2.840.113549.1.1.1", []⟩, ⟨[1], 0⟩) := rfl
  obtain ⟨enc, -, created, -⟩ :=
    request_created unaryApi_inverse signs_unaryRequests noJunk made rfl rfl isKey
  exact ⟨enc, created⟩

/-- The byte of digital signatures is no character that lists quote. -/
theorem reported_digital_signature :
    ∃ enc, (certRequestCreate unaryRequests decimalNumbers noJunk 0 "CN=a"
        (usageOptions "digital_signature")).result = .ok enc ∧
      ∃ parsed, certRequestParse unaryRequests decimalNumbers enc = .ok parsed ∧
        Reports unaryRequests decimalNumbers "CN=a" (usageOptions "digital_signature") parsed := by
  obtain ⟨enc, created⟩ := usage_created "digital_signature" rfl
  refine ⟨enc, created, (request_reported_iff unaryApi_inverse signs_unaryRequests "CN=a" _
    ⟨0, noJunk, enc, created⟩).1.mpr ?_ 0 noJunk enc created⟩
  intro ask among
  obtain rfl | rfl := mem_pair.mp among
  · exact ⟨rfl, rfl, rfl, rfl⟩
  · refine ⟨rfl, fun byte1 byte2 made => ?_⟩
    cases made
    decide

/-- The byte of key encipherment is a space: the list is taken for its opening brace. -/
theorem key_encipherment_misreported :
    ∃ enc, (certRequestCreate unaryRequests decimalNumbers noJunk 0 "CN=a"
        (usageOptions "key_encipherment")).result = .ok enc ∧
      ¬ ∃ parsed, certRequestParse unaryRequests decimalNumbers enc = .ok parsed ∧
        Reports unaryRequests decimalNumbers "CN=a" (usageOptions "key_encipherment") parsed := by
  obtain ⟨enc, created⟩ := usage_created "key_encipherment" rfl
  refine ⟨enc, created, ?_⟩
  rintro ⟨parsed, isParsed, reports⟩
  have kept := kept_of_reports unaryApi_inverse signs_unaryRequests created isParsed reports
  obtain ⟨-, usage⟩ := kept ⟨.keyUsage ["key_encipherment"], zero⟩ (by exact mem_pair.mpr (.inr rfl))
  exact absurd (usage 0x20 0 rfl) (by decide)

end Twapi.Request
