import Twapi.CryptObject.Encode

/-!
When values are encoded exactly.
-/

namespace Twapi.CryptObject

open Lib (Traced Depart)
open Lib.Traced

/-! ### Equations -/

section Equations

variable {api : Encoder} {T : Tcl} {junk : String → Obj → Junk} {oid : String} {o : Obj}

variable {kind : Kind}

theorem encodeObject_leaf (is : (oidArg T oid).kind = some kind) (leaf : kind ≠ .extensions) :
    encodeObject api T junk oid o =
      match kind.parse T (junk oid o).unused o with
      | .error fault => pure (.error fault)
      | .ok u =>
        submit api (oidArg T oid) u
          (if kind = .publicKeyBlob then .keyBlob (junk oid o).union else u) := by
  rw [encodeObject.eq_def, is]
  cases kind with
  | extensions => exact absurd rfl leaf
  | _ => rfl

theorem encodeExactly_leaf (is : (oidArg T oid).kind = some kind) (leaf : kind ≠ .extensions) :
    encodeExactly api T oid o =
      match kind.parse T 0 o with
      | .error fault => pure (.error fault)
      | .ok u => submit api (oidArg T oid) u u := by
  rw [encodeExactly.eq_def, is]
  cases kind with
  | extensions => exact absurd rfl leaf
  | _ => rfl

theorem sound_leaf (is : (oidArg T oid).kind = some kind) (leaf : kind ≠ .extensions)
    (noBlob : kind ≠ .publicKeyBlob) :
    Sound api T oid o ↔ ¬ kind.LeavesUnset o := by
  rw [Sound.eq_def, is]
  cases kind with
  | extensions => exact absurd rfl leaf
  | publicKeyBlob => exact absurd rfl noBlob
  | _ => exact Iff.rfl

end Equations

/-! ### Fields that are not set -/

variable {T : Tcl} {o : Obj} {kind : Kind}

theorem parseBitBlob_unset (set : o.elements ≠ some []) (junk : DWORD) :
    parseBitBlob T junk o = parseBitBlob T 0 o := by
  unfold parseBitBlob
  split
  · rename_i empty
    exact absurd empty set
  · rfl
  · rfl

/-- Nothing that was not set is in the structure. -/
theorem parse_of_set (set : ¬ kind.LeavesUnset o) (junk : DWORD) :
    kind.parse T junk o = kind.parse T 0 o := by
  cases kind with
  | keyUsage =>
    have bits : o.elements ≠ some [] := by
      intro empty
      unfold Kind.LeavesUnset at set
      rw [empty] at set
      exact set trivial
    exact congrArg (Except.map Struct.bits) (parseBitBlob_unset bits junk)
  | publicKeyInfo =>
    refine congrArg (Except.map _) ?_
    unfold parsePublicKeyInfo
    split
    · rename_i alg key two
      cases parsed : parseAlgorithmId alg with
      | error fault => rfl
      | ok a =>
        have bits : key.elements ≠ some [] := by
          intro empty
          unfold Kind.LeavesUnset at set
          rw [two] at set
          exact set ⟨⟨a, parsed⟩, empty⟩
        dsimp only
        rw [parseBitBlob_unset bits junk]
    · rfl
  | _ => rfl

/-- The value can be parsed all the same. -/
theorem parses_of_unset (unset : kind.LeavesUnset o) (junk : DWORD) :
    ∃ u, kind.parse T junk o = .ok u := by
  unfold Kind.LeavesUnset at unset
  split at unset
  · rename_i empty
    exact ⟨.bits ⟨[], junk⟩, by simp [Kind.parse, parseBitBlob, empty, Except.map]⟩
  · rename_i alg key two
    obtain ⟨⟨a, parsed⟩, empty⟩ := unset
    exact ⟨.publicKey a ⟨[], junk⟩,
      by simp [Kind.parse, parsePublicKeyInfo, two, parsed, parseBitBlob, empty, Except.map]⟩
  · exact unset.elim

/-- What was not set is in the structure. -/
theorem parse_of_unset (unset : kind.LeavesUnset o) :
    ∃ u u', kind.parse T 0 o = .ok u ∧ kind.parse T 1 o = .ok u' ∧ u' ≠ u := by
  unfold Kind.LeavesUnset at unset
  split at unset
  · rename_i empty
    refine ⟨.bits ⟨[], 0⟩, .bits ⟨[], 1⟩, ?_, ?_, by decide⟩
    · simp [Kind.parse, parseBitBlob, empty, Except.map]
    · simp [Kind.parse, parseBitBlob, empty, Except.map]
  · rename_i alg key two
    obtain ⟨⟨a, parsed⟩, empty⟩ := unset
    refine ⟨.publicKey a ⟨[], 0⟩, .publicKey a ⟨[], 1⟩, ?_, ?_, ?_⟩
    · simp [Kind.parse, parsePublicKeyInfo, two, parsed, parseBitBlob, empty, Except.map]
    · simp [Kind.parse, parsePublicKeyInfo, two, parsed, parseBitBlob, empty, Except.map]
    · intro same
      injection same with _ keys
      exact absurd (BitBlob.mk.inj keys).2 (by decide)
  · exact unset.elim

/-! ### Sound values -/

section OfSound

variable {api : Encoder} {T : Tcl}

/-- A turn that ends well. -/
theorem andThen_ok {α : Type} {x : Traced Call (Except Fault α)}
    {xs : Traced Call (Except Fault (List α))} {a : α} (ok : x.result = .ok a) :
    andThen x xs = ⟨xs.result.map (a :: ·), x.events ++ xs.events⟩ := by
  unfold andThen
  rw [bind_of_result ok]
  simp only [result_bind, result_pure, events_bind, events_pure, List.append_nil]

/-- A structure that fits into the first buffer is passed once. -/
theorem submit_of_fits {arg : OidArg} {passed : Struct}
    (fits : ∀ enc, api.encode arg passed = .ok enc → enc.length ≤ api.alloc 1000)
    (retry other : Struct) : submit api arg passed retry = submit api arg passed other := by
  unfold submit
  cases encoded : api.encode arg passed with
  | error code => rfl
  | ok enc => simp only [if_pos (fits enc encoded)]

theorem encodeObject_of_sound_leaf {junk : String → Obj → Junk} {oid : String} {o : Obj}
    {kind : Kind} (is : (oidArg T oid).kind = some kind) (leaf : kind ≠ .extensions)
    (sound : Sound api T oid o) : encodeObject api T junk oid o = encodeExactly api T oid o := by
  rw [encodeObject_leaf is leaf, encodeExactly_leaf is leaf]
  by_cases blob : kind = .publicKeyBlob
  · subst blob
    rw [Sound.eq_def, is] at sound
    simp only [Kind.parse]
    cases parsed : parseKeyBlob o with
    | error fault => rfl
    | ok bytes =>
      exact submit_of_fits (fun enc encoded => sound bytes enc parsed encoded) _ _
  · rw [parse_of_set ((sound_leaf is leaf blob).mp sound)]
    simp only [if_neg blob]

variable (junk : String → Obj → Junk)

mutual

theorem encodeObject_of_sound (oid : String) (o : Obj) (sound : Sound api T oid o) :
    encodeObject api T junk oid o = encodeExactly api T oid o := by
  match is : (oidArg T oid).kind with
  | none =>
    rw [encodeObject.eq_def, encodeExactly.eq_def, is]
  | some .extensions =>
    rw [encodeObject.eq_def, encodeExactly.eq_def, is]
    rw [Sound.eq_def, is] at sound
    match o with
    | .atom s =>
      have empty : s = "" := sound
      simp only [if_pos empty]
      rfl
    | .list exts =>
      obtain ⟨same, parsed, exact⟩ := parseExtensions_of_sound exts sound
      simp only [same]
      rw [bind_of_result exact, bind_of_result exact]
      rfl
  | some .keyUsage => exact encodeObject_of_sound_leaf is nofun sound
  | some .enhancedKeyUsage => exact encodeObject_of_sound_leaf is nofun sound
  | some .alternateName => exact encodeObject_of_sound_leaf is nofun sound
  | some .basicConstraints2 => exact encodeObject_of_sound_leaf is nofun sound
  | some .authorityKeyId2 => exact encodeObject_of_sound_leaf is nofun sound
  | some .algorithmIdentifier => exact encodeObject_of_sound_leaf is nofun sound
  | some .unicodeAnyString => exact encodeObject_of_sound_leaf is nofun sound
  | some .publicKeyInfo => exact encodeObject_of_sound_leaf is nofun sound
  | some .publicKeyBlob => exact encodeObject_of_sound_leaf is nofun sound
  | some .subjectKeyIdentifier => exact encodeObject_of_sound_leaf is nofun sound
termination_by structural o

theorem parseExtensions_of_sound (os : List Obj) (sound : SoundExtensions api T os) :
    parseExtensions api T junk os = exactExtensions api T os ∧
      ∃ exts, (exactExtensions api T os).result = .ok exts := by
  match os with
  | [] => exact ⟨rfl, [], rfl⟩
  | o :: os =>
    obtain ⟨first, others⟩ := sound
    obtain ⟨same, ext, parsed⟩ := parseExtension_of_sound o first
    obtain ⟨sames, exts, parseds⟩ := parseExtensions_of_sound os others
    rw [parseExtensions.eq_def, exactExtensions.eq_def]
    dsimp only
    rw [same, sames]
    exact ⟨rfl, ext :: exts, by rw [andThen_ok parsed, parseds]; rfl⟩
termination_by structural os

theorem parseExtension_of_sound (o : Obj) (sound : SoundExtension api T o) :
    parseExtension api T junk o = exactExtension api T o ∧
      ∃ ext, (exactExtension api T o).result = .ok ext := by
  match o with
  | .list [oid, critical, value] =>
    obtain ⟨isBool, sound', enc, encoded⟩ := sound
    have same := encodeObject_of_sound oid.text value sound'
    obtain ⟨isCritical, known⟩ := Option.isSome_iff_exists.mp isBool
    rw [parseExtension.eq_def, exactExtension.eq_def]
    simp only [known, same]
    refine ⟨trivial, ⟨oid.text, isCritical, enc⟩, ?_⟩
    rw [bind_of_result encoded]
    rfl
  | .list [oid, critical] =>
    obtain ⟨isCritical, known⟩ := Option.isSome_iff_exists.mp sound
    rw [parseExtension.eq_def, exactExtension.eq_def]
    simp only [known]
    exact ⟨trivial, ⟨oid.text, isCritical, []⟩, rfl⟩
  | .list [] => exact sound.elim
  | .list [_] => exact sound.elim
  | .list (_ :: _ :: _ :: _ :: _) => exact sound.elim
  | .atom s => exact sound.elim
termination_by structural o

end

end OfSound

/-! ### Values that are not sound -/

/-- The calls of `x` depart from those of `y`, or go on where `y` has failed. -/
def Strays {α : Type} (x y : Traced Call (Except Fault α)) : Prop :=
  Depart x.events y.events ∨
    (∃ fault, y.result = .error fault) ∧ ∃ call more, x.events = y.events ++ call :: more

/-- Both fail after the same calls. -/
def FailAlike {α : Type} (x y : Traced Call (Except Fault α)) : Prop :=
  (∃ fault, x.result = .error fault) ∧ (∃ fault, y.result = .error fault) ∧ x.events = y.events

section Strays

variable {α β : Type} {x y : Traced Call (Except Fault α)}

theorem Strays.ne (strays : Strays x y) : x ≠ y := by
  intro same
  subst same
  obtain departs | ⟨-, call, more, longer⟩ := strays
  · exact departs.ne rfl
  · have lengths := congrArg List.length longer
    rw [List.length_append, List.length_cons] at lengths
    omega

variable {f g : Except Fault α → Traced Call (Except Fault β)}

/-- What follows makes no difference, where `y` ends with an error. -/
theorem Strays.bind (strays : Strays x y)
    (stops : ∀ fault, ∃ fault', g (.error fault) = pure (.error fault')) :
    Strays (x >>= f) (y >>= g) := by
  obtain departs | ⟨⟨fault, failed⟩, call, more, longer⟩ := strays
  · exact .inl (departs.append _ _)
  · obtain ⟨fault', stopped⟩ := stops fault
    refine .inr ⟨⟨fault', ?_⟩, call, more ++ (f x.result).events, ?_⟩
    · rw [result_bind, failed, stopped]
      rfl
    · rw [events_bind, events_bind, longer, failed, stopped, events_pure, List.append_nil,
        List.append_assoc, List.cons_append]

/-- A call that follows is one where `y` has failed. -/
theorem FailAlike.strays (alike : FailAlike x y)
    (goes : ∀ r, ∃ call more, (f r).events = call :: more)
    (stops : ∀ fault, g (.error fault) = pure (.error fault)) :
    Strays (x >>= f) (y >>= g) := by
  obtain ⟨-, ⟨fault, failed⟩, same⟩ := alike
  obtain ⟨call, more, calls⟩ := goes x.result
  refine .inr ⟨⟨fault, ?_⟩, call, more, ?_⟩
  · rw [result_bind, failed, stops]
    rfl
  · rw [events_bind, events_bind, same, calls, failed, stops, events_pure, List.append_nil]

theorem FailAlike.bind (alike : FailAlike x y)
    (stop : ∀ fault, f (.error fault) = pure (.error fault))
    (stops : ∀ fault, g (.error fault) = pure (.error fault)) :
    FailAlike (x >>= f) (y >>= g) := by
  obtain ⟨⟨fault, failed⟩, ⟨fault', failed'⟩, same⟩ := alike
  refine ⟨⟨fault, ?_⟩, ⟨fault', ?_⟩, ?_⟩
  · rw [result_bind, failed, stop]
    rfl
  · rw [result_bind, failed', stops]
    rfl
  · rw [events_bind, events_bind, same, failed, failed', stop, stops]
    rfl

/-- In one turn of a loop. -/
theorem Strays.andThen_left {xs ys : Traced Call (Except Fault (List α))} (strays : Strays x y) :
    Strays (andThen x xs) (andThen y ys) := strays.bind fun fault => ⟨fault, rfl⟩

variable {xs ys : Traced Call (Except Fault (List β))} {z : Traced Call (Except Fault β)}

/-- In the turns that follow one that is the same. -/
theorem Strays.andThen_right {b : β} (strays : Strays xs ys) (ok : z.result = .ok b) :
    Strays (andThen z xs) (andThen z ys) := by
  rw [andThen_ok ok, andThen_ok ok]
  obtain departs | ⟨⟨fault, failed⟩, call, more, longer⟩ := strays
  · exact .inl (departs.prepend _)
  · refine .inr ⟨⟨fault, by rw [failed]; rfl⟩, call, more, ?_⟩
    rw [longer, List.append_assoc]

theorem FailAlike.andThen_right {b : β} (alike : FailAlike xs ys) (ok : z.result = .ok b) :
    FailAlike (andThen z xs) (andThen z ys) := by
  rw [andThen_ok ok, andThen_ok ok]
  obtain ⟨⟨fault, failed⟩, ⟨fault', failed'⟩, same⟩ := alike
  exact ⟨⟨fault, by rw [failed]; rfl⟩, ⟨fault', by rw [failed']; rfl⟩, by rw [same]⟩

end Strays

section Unsound

variable {api : Encoder} {T : Tcl}

theorem submit_head (api : Encoder) (arg : OidArg) (passed retry : Struct) :
    ∃ again more, (submit api arg passed retry).events = ⟨arg, passed, again⟩ :: more := by
  unfold submit
  split
  · exact ⟨none, [], rfl⟩
  · split
    · exact ⟨none, [], rfl⟩
    · exact ⟨some retry, _, rfl⟩

theorem submit_again {arg : OidArg} {passed : Struct} {enc : Bytes}
    (encoded : api.encode arg passed = .ok enc) (large : ¬ enc.length ≤ api.alloc 1000)
    (retry : Struct) : ∃ more, (submit api arg passed retry).events =
      ⟨arg, passed, some retry⟩ :: more := by
  unfold submit
  rw [encoded]
  simp only [if_neg large]
  exact ⟨_, rfl⟩

theorem strays_of_unsound_leaf {oid : String} {o : Obj} {kind : Kind}
    (is : (oidArg T oid).kind = some kind) (leaf : kind ≠ .extensions)
    (unsound : ¬ Sound api T oid o) :
    ∃ junk, Strays (encodeObject api T junk oid o) (encodeExactly api T oid o) := by
  by_cases blob : kind = .publicKeyBlob
  · subst blob
    rw [Sound.eq_def, is] at unsound
    push Not at unsound
    obtain ⟨bytes, enc, parsed, encoded, large⟩ := unsound
    refine ⟨fun _ _ => ⟨0, [], 0 :: bytes⟩, .inl ?_⟩
    rw [encodeObject_leaf is leaf, encodeExactly_leaf is leaf]
    simp only [Kind.parse, parsed, Except.map, ↓reduceIte]
    obtain ⟨more, calls⟩ := submit_again encoded (not_le.mpr large) (.keyBlob (0 :: bytes))
    obtain ⟨others, exact⟩ := submit_again encoded (not_le.mpr large) (.keyBlob bytes)
    rw [calls, exact]
    refine Depart.heads fun same => ?_
    have blobs := Struct.keyBlob.inj (Option.some.inj (Call.mk.inj same).2.2)
    exact absurd (congrArg List.length blobs) (by simp)
  · rw [sound_leaf is leaf blob, not_not] at unsound
    obtain ⟨u, u', parsed, junked, differ⟩ := parse_of_unset (T := T) unsound
    refine ⟨fun _ _ => ⟨1, [], []⟩, .inl ?_⟩
    rw [encodeObject_leaf is leaf, encodeExactly_leaf is leaf]
    simp only [parsed, junked, if_neg blob]
    obtain ⟨again, more, calls⟩ := submit_head api (oidArg T oid) u' u'
    obtain ⟨again', others, exact⟩ := submit_head api (oidArg T oid) u u
    rw [calls, exact]
    exact Depart.heads fun same => differ (Call.mk.inj same).2.1

mutual

theorem strays_of_unsound (oid : String) (o : Obj) (unsound : ¬ Sound api T oid o) :
    ∃ junk, Strays (encodeObject api T junk oid o) (encodeExactly api T oid o) := by
  match is : (oidArg T oid).kind with
  | none =>
    rw [Sound.eq_def, is] at unsound
    exact absurd trivial unsound
  | some .extensions =>
    rw [Sound.eq_def, is] at unsound
    -- The call that follows is made whether the extensions were parsed or not.
    have goes : ∀ (junk : String → Obj → Junk) (r : Except Fault (List Extension)),
        ∃ call more, (submit api (oidArg T oid) (.extensions (r.toOption.getD (junk oid o).exts))
          (.extensions (r.toOption.getD (junk oid o).exts))).events = call :: more := by
      intro junk r
      obtain ⟨again, more, calls⟩ := submit_head api (oidArg T oid)
        (.extensions (r.toOption.getD (junk oid o).exts))
        (.extensions (r.toOption.getD (junk oid o).exts))
      exact ⟨_, more, calls⟩
    match o with
    | .atom s =>
      have noList : s ≠ "" := unsound
      refine ⟨fun _ _ => ⟨0, [], []⟩, ?_⟩
      rw [encodeObject.eq_def, encodeExactly.eq_def, is]
      refine FailAlike.strays ?_ (goes fun _ _ => ⟨0, [], []⟩) fun fault => rfl
      simp only [if_neg noList]
      exact ⟨⟨_, rfl⟩, ⟨_, rfl⟩, rfl⟩
    | .list exts =>
      obtain ⟨junk, strays | alike⟩ := parseExtensions_of_unsound exts unsound
      · refine ⟨junk, ?_⟩
        rw [encodeObject.eq_def, encodeExactly.eq_def, is]
        exact strays.bind fun fault => ⟨fault, rfl⟩
      · refine ⟨junk, ?_⟩
        rw [encodeObject.eq_def, encodeExactly.eq_def, is]
        exact alike.strays (goes junk) fun fault => rfl
  | some .keyUsage => exact strays_of_unsound_leaf is nofun unsound
  | some .enhancedKeyUsage => exact strays_of_unsound_leaf is nofun unsound
  | some .alternateName => exact strays_of_unsound_leaf is nofun unsound
  | some .basicConstraints2 => exact strays_of_unsound_leaf is nofun unsound
  | some .authorityKeyId2 => exact strays_of_unsound_leaf is nofun unsound
  | some .algorithmIdentifier => exact strays_of_unsound_leaf is nofun unsound
  | some .unicodeAnyString => exact strays_of_unsound_leaf is nofun unsound
  | some .publicKeyInfo => exact strays_of_unsound_leaf is nofun unsound
  | some .publicKeyBlob => exact strays_of_unsound_leaf is nofun unsound
  | some .subjectKeyIdentifier => exact strays_of_unsound_leaf is nofun unsound
termination_by structural o

theorem parseExtensions_of_unsound (os : List Obj) (unsound : ¬ SoundExtensions api T os) :
    ∃ junk, Strays (parseExtensions api T junk os) (exactExtensions api T os) ∨
      FailAlike (parseExtensions api T junk os) (exactExtensions api T os) := by
  match os with
  | [] => exact absurd trivial unsound
  | o :: os =>
    by_cases first : SoundExtension api T o
    · have others : ¬ SoundExtensions api T os := fun sound => unsound ⟨first, sound⟩
      obtain ⟨junk, diverge⟩ := parseExtensions_of_unsound os others
      obtain ⟨same, ext, parsed⟩ := parseExtension_of_sound junk o first
      refine ⟨junk, ?_⟩
      rw [parseExtensions.eq_def, exactExtensions.eq_def]
      dsimp only
      rw [same]
      obtain strays | alike := diverge
      · exact .inl (strays.andThen_right parsed)
      · exact .inr (alike.andThen_right parsed)
    · obtain ⟨junk, strays | alike⟩ := parseExtension_of_unsound o first
      · refine ⟨junk, .inl ?_⟩
        rw [parseExtensions.eq_def, exactExtensions.eq_def]
        exact strays.andThen_left
      · refine ⟨junk, .inr ?_⟩
        rw [parseExtensions.eq_def, exactExtensions.eq_def]
        exact alike.bind (fun fault => rfl) fun fault => rfl
termination_by structural os

theorem parseExtension_of_unsound (o : Obj) (unsound : ¬ SoundExtension api T o) :
    ∃ junk, Strays (parseExtension api T junk o) (exactExtension api T o) ∨
      FailAlike (parseExtension api T junk o) (exactExtension api T o) := by
  match o with
  | .list [oid, critical, value] =>
    cases known : T.asBoolean critical.text with
    | none =>
      refine ⟨fun _ _ => ⟨0, [], []⟩, .inr ?_⟩
      rw [parseExtension.eq_def, exactExtension.eq_def]
      simp only [known]
      exact ⟨⟨_, rfl⟩, ⟨_, rfl⟩, rfl⟩
    | some isCritical =>
      by_cases sound : Sound api T oid.text value
      · have same := encodeObject_of_sound (fun _ _ => ⟨0, [], []⟩) oid.text value sound
        refine ⟨fun _ _ => ⟨0, [], []⟩, .inr ?_⟩
        cases encoded : (encodeExactly api T oid.text value).result with
        | ok enc =>
          exact absurd ⟨by rw [known]; rfl, sound, enc, encoded⟩ unsound
        | error fault =>
          rw [parseExtension.eq_def, exactExtension.eq_def]
          simp only [known, same]
          rw [bind_of_result encoded]
          exact ⟨⟨_, rfl⟩, ⟨_, rfl⟩, rfl⟩
      · obtain ⟨junk, strays⟩ := strays_of_unsound oid.text value sound
        refine ⟨junk, .inl ?_⟩
        rw [parseExtension.eq_def, exactExtension.eq_def]
        simp only [known]
        exact strays.bind fun fault => ⟨fault, rfl⟩
  | .list [oid, critical] =>
    cases known : T.asBoolean critical.text with
    | none =>
      refine ⟨fun _ _ => ⟨0, [], []⟩, .inr ?_⟩
      rw [parseExtension.eq_def, exactExtension.eq_def]
      simp only [known]
      exact ⟨⟨_, rfl⟩, ⟨_, rfl⟩, rfl⟩
    | some isCritical =>
      have sound : (T.asBoolean critical.text).isSome := by
        rw [known]
        rfl
      exact absurd sound unsound
  | .list [] => exact ⟨fun _ _ => ⟨0, [], []⟩, .inr ⟨⟨_, rfl⟩, ⟨_, rfl⟩, rfl⟩⟩
  | .list [_] => exact ⟨fun _ _ => ⟨0, [], []⟩, .inr ⟨⟨_, rfl⟩, ⟨_, rfl⟩, rfl⟩⟩
  | .list (_ :: _ :: _ :: _ :: _) =>
    exact ⟨fun _ _ => ⟨0, [], []⟩, .inr ⟨⟨_, rfl⟩, ⟨_, rfl⟩, rfl⟩⟩
  | .atom s =>
    refine ⟨fun _ _ => ⟨0, [], []⟩, .inr ?_⟩
    rw [parseExtension.eq_def, exactExtension.eq_def]
    dsimp only
    split
    · exact ⟨⟨_, rfl⟩, ⟨_, rfl⟩, rfl⟩
    · exact ⟨⟨_, rfl⟩, ⟨_, rfl⟩, rfl⟩
termination_by structural o

end

end Unsound

theorem encodeObject_exact_iff (api : Encoder) (T : Tcl) (oid : String) (o : Obj) :
    (∀ junk, encodeObject api T junk oid o = encodeExactly api T oid o) ↔ Sound api T oid o := by
  constructor
  · intro exact
    by_contra unsound
    obtain ⟨junk, strays⟩ := strays_of_unsound oid o unsound
    exact strays.ne (exact junk)
  · intro sound junk
    exact encodeObject_of_sound junk oid o sound

/-! ### Loops over values -/

section Loops

variable {α : Type} {f : (String → Obj → Junk) → Obj → Traced Call (Except Fault α)}
  {exact : Obj → Traced Call (Except Fault α)} {sound : Obj → Prop}

theorem forEach_of_sound (same : ∀ junk o, sound o → f junk o = exact o)
    (junk : String → Obj → Junk) {os : List Obj} (until_error : SoundUntil exact sound os) :
    forEach (f junk) os = forEach exact os := by
  induction os with
  | nil => rfl
  | cons o os ih =>
    obtain ⟨first, others⟩ := until_error
    unfold forEach
    rw [same junk o first]
    cases turn : (exact o).result with
    | error fault =>
      unfold andThen
      rw [bind_of_result turn, bind_of_result turn]
    | ok a => rw [ih (others ⟨a, turn⟩)]

theorem forEach_of_unsound (same : ∀ junk o, sound o → f junk o = exact o)
    (strays : ∀ o, ¬ sound o → ∃ junk, Strays (f junk o) (exact o)) {os : List Obj}
    (unsound : ¬ SoundUntil exact sound os) :
    ∃ junk, Strays (forEach (f junk) os) (forEach exact os) := by
  induction os with
  | nil => exact absurd trivial unsound
  | cons o os ih =>
    by_cases first : sound o
    · have others : ¬ ((∃ a, (exact o).result = .ok a) → SoundUntil exact sound os) :=
        fun others => unsound ⟨first, others⟩
      push Not at others
      obtain ⟨⟨a, turn⟩, later⟩ := others
      obtain ⟨junk, stray⟩ := ih later
      refine ⟨junk, ?_⟩
      unfold forEach
      rw [same junk o first]
      exact stray.andThen_right turn
    · obtain ⟨junk, stray⟩ := strays o first
      exact ⟨junk, stray.andThen_left⟩

end Loops

section Attributes

variable {api : Encoder} {T : Tcl}

theorem parseAttribute_of_sound (junk : String → Obj → Junk) (o : Obj)
    (sound : SoundAttribute api T o) :
    parseAttribute (encodeObject api T junk) o = parseAttribute (encodeExactly api T) o := by
  unfold SoundAttribute at sound
  unfold parseAttribute
  split
  · rename_i oid values two
    rw [two] at sound
    dsimp only at sound
    split
    · rfl
    · rename_i vs list
      rw [list] at sound
      rw [forEach_of_sound (fun junk o => encodeObject_of_sound junk oid.text o) junk sound]
  · rfl

theorem parseAttribute_of_unsound (o : Obj) (unsound : ¬ SoundAttribute api T o) :
    ∃ junk, Strays (parseAttribute (encodeObject api T junk) o)
      (parseAttribute (encodeExactly api T) o) := by
  unfold SoundAttribute at unsound
  unfold parseAttribute
  split at unsound
  · rename_i oid values two
    split at unsound
    · exact absurd trivial unsound
    · rename_i vs list
      obtain ⟨junk, strays⟩ :=
        forEach_of_unsound (f := fun junk => encodeObject api T junk oid.text)
          (fun junk o => encodeObject_of_sound junk oid.text o) (strays_of_unsound oid.text) unsound
      -- The fault of a value becomes that of the attribute.
      exact ⟨junk, strays.bind fun _ => ⟨badAttribute, rfl⟩⟩
  · exact absurd trivial unsound

theorem parseAttributes_exact_iff (o : Obj) :
    (∀ junk, parseAttributes (encodeObject api T junk) o = parseAttributes (encodeExactly api T) o) ↔
      SoundAttributes api T o := by
  unfold parseAttributes SoundAttributes
  cases o.elements with
  | none => exact iff_of_true (fun _ => rfl) trivial
  | some attributes =>
    constructor
    · intro exact
      by_contra unsound
      obtain ⟨junk, strays⟩ :=
        forEach_of_unsound (f := fun junk => parseAttribute (encodeObject api T junk))
          parseAttribute_of_sound parseAttribute_of_unsound unsound
      exact strays.ne (exact junk)
    · intro sound junk
      exact forEach_of_sound (f := fun junk => parseAttribute (encodeObject api T junk))
        parseAttribute_of_sound junk sound

end Attributes

/-! ### What exact encoding is -/

section Exactly

variable {api : Encoder} {T : Tcl}

/-- A call is repeated with the structure of the first. -/
def Call.Repeats (call : Call) : Prop := ∀ again ∈ call.again, again = call.passed

end Exactly

/-! ### The two functions -/

theorem encodes_exactly_iff (api : Encoder) (T : Tcl) :
    (∀ oid o, (∀ junk, encodeObject api T junk oid o = encodeExactly api T oid o) ↔
      Sound api T oid o) ∧
    ∀ o, (∀ junk, parseAttributes (encodeObject api T junk) o =
        parseAttributes (encodeExactly api T) o) ↔ SoundAttributes api T o :=
  ⟨encodeObject_exact_iff api T, parseAttributes_exact_iff⟩

/-- An encoder to which everything is one byte. -/
def byteEncoder : Encoder := ⟨fun _ _ => .ok [0], fun n => n, fun _ => le_rfl⟩

/-- Basic constraints that are none: the extensions that are passed to the encoder were
never set. -/
theorem bad_extension_encoded :
    ¬ ∀ junk, encodeObject byteEncoder decimal junk "1.2.840.113549.1.9.14"
        (.list [.list [.atom "2.5.29.19", .atom "1", .atom "true"]]) =
      encodeExactly byteEncoder decimal "1.2.840.113549.1.9.14"
        (.list [.list [.atom "2.5.29.19", .atom "1", .atom "true"]]) := by
  intro exact
  have events := congrArg Traced.events (exact fun _ _ => ⟨0, [], []⟩)
  exact absurd (congrArg List.length events) (by decide)

end Twapi.CryptObject
