import Mathlib.Data.List.Count
import Mathlib.Logic.Function.Basic
import Mathlib.Tactic.SplitIfs
import Twapi.Lib.Machine

/-!
The libraries loaded for foreign functions, `ffi_load` and `ffi_unload` of `base.tcl`.

* `_ffi_paths` has the handle of each path, and `_ffi_handles` the path and the number of
  references of each handle. What the loader answers is of the environment.
* `State.refs` — the references that callers have and have not given up.
* `Faithful` — both tables are of those references. It holds as long as the loader answers no
  path with the handle of another one, which `ffi_load` does not look for.
-/

namespace Twapi.Base.Ffi

open Lib

structure Entry where
  path : String
  nRefs : Int
deriving DecidableEq

/-- `_ffi_paths` and `_ffi_handles` -/
structure Tables where
  paths : String → Option String
  handles : String → Option Entry

/-- The messages of `ffi_load` about its own tables, those of `load_library`, and that of
`ffi_unload`. -/
inductive Error where
  | internal (text : String)
  | loader (text : String)
  | unknown (text : String)
deriving DecidableEq

/-- `answer` is what `load_library` gives, if it is called. -/
def ffiLoad (s : Tables) (path : String) (answer : Except String String) :
    Except Error String × Tables :=
  match s.paths path with
  | some h =>
    match s.handles h with
    | none =>
      (.error (.internal ("Internal error: Handle " ++ h ++ " not found in FFI table.")), s)
    | some e =>
      if e.path ≠ path then
        (.error (.internal ("Internal error: Handle " ++ h ++ " not assigned to " ++ path)), s)
      else
        (.ok h, { s with handles := Function.update s.handles h (some ⟨e.path, e.nRefs + 1⟩) })
  | none =>
    match answer with
    | .error text => (.error (.loader text), s)
    | .ok h =>
      (.ok h, ⟨Function.update s.paths path (some h),
        Function.update s.handles h (some ⟨path, 1⟩)⟩)

/-- What `dict with` would write back of an entry that is unset is dropped. -/
def ffiUnload (s : Tables) (h : String) : Except Error Unit × Tables :=
  match s.handles h with
  | none => (.error (.unknown ("FFI handle " ++ h ++ " does not exist.")), s)
  | some e =>
    if e.nRefs - 1 ≤ 0 then
      (.ok (), ⟨Function.update s.paths e.path none, Function.update s.handles h none⟩)
    else (.ok (), { s with handles := Function.update s.handles h (some ⟨e.path, e.nRefs - 1⟩) })

structure State where
  tables : Tables
  refs : List (String × String)

inductive Label where
  | load (path : String) (answer : Except String String)
  | unload (h : String)

def step (s : State) : Label → Option State
  | .load path answer =>
    match ffiLoad s.tables path answer with
    | (.ok h, tables) => some ⟨tables, (path, h) :: s.refs⟩
    | (.error _, tables) => some ⟨tables, s.refs⟩
  | .unload h =>
    match ffiUnload s.tables h with
    | (.ok _, tables) => some ⟨tables, s.refs.eraseP (·.2 = h)⟩
    | (.error _, tables) => some ⟨tables, s.refs⟩

def machine : Machine State Label := ⟨fun s => s = ⟨⟨fun _ => none, fun _ => none⟩, []⟩, step⟩

/-- No call fails within, and a path is loaded and a handle usable for as long as there are
references to it that are not given up. -/
structure Faithful (s : State) : Prop where
  internal : ∀ path answer text, (ffiLoad s.tables path answer).1 ≠ .error (.internal text)
  path : ∀ path, (s.tables.paths path).isSome ↔ ∃ h, (path, h) ∈ s.refs
  usable : ∀ h, (s.tables.handles h).isSome ↔ ∃ path, (path, h) ∈ s.refs

/-- The loader answers a path that is not loaded with a handle that no other path has. -/
def Fresh (s : State) : Label → Prop
  | .load path (.ok h) => s.tables.paths path = none → s.tables.handles h = none
  | _ => True

instance (s : State) : ∀ a, Decidable (Fresh s a)
  | .load _ (.ok _) => inferInstanceAs (Decidable (_ → _))
  | .load _ (.error _) => isTrue trivial
  | .unload _ => isTrue trivial

/-- The tables are inverse to each other, and count the references. -/
structure Matches (s : State) : Prop where
  paths : ∀ path h, s.tables.paths path = some h ↔ (path, h) ∈ s.refs
  counted : ∀ path h, (path, h) ∈ s.refs →
    s.tables.handles h = some ⟨path, s.refs.count (path, h)⟩
  owned : ∀ h e, s.tables.handles h = some e → (e.path, h) ∈ s.refs

namespace Matches

variable {s : State}

theorem faithful (hs : Matches s) : Faithful s where
  internal := by
    intro path answer text
    unfold ffiLoad
    split
    · rename_i h hpath
      rw [hs.counted path h ((hs.paths path h).mp hpath)]
      simp
    · split <;> simp
  path := by
    intro path
    simp only [Option.isSome_iff_exists, hs.paths]
  usable := by
    intro h
    rw [Option.isSome_iff_exists]
    exact ⟨fun ⟨e, he⟩ => ⟨e.path, hs.owned h e he⟩,
      fun ⟨path, hmem⟩ => ⟨_, hs.counted path h hmem⟩⟩

theorem again (hs : Matches s) {path h : String} (hmem : (path, h) ∈ s.refs) :
    Matches ⟨⟨s.tables.paths, Function.update s.tables.handles h
      (some ⟨path, s.refs.count (path, h) + 1⟩)⟩, (path, h) :: s.refs⟩ where
  paths := by
    intro q k
    simp only [List.mem_cons, hs.paths]
    grind
  counted := by
    intro q k hk
    have hin : (q, k) ∈ s.refs := by grind
    have hq := hs.counted q k hin
    by_cases hkh : k = h
    · subst hkh
      obtain rfl : q = path := by
        have := hs.counted path k hmem
        grind
      simp
    · simp [hkh, hq, Ne.symm hkh]
  owned := by
    intro k e he
    by_cases hkh : k = h
    · subst hkh
      obtain rfl : _ = e := by simpa using he
      simp
    · exact List.mem_cons_of_mem _ (hs.owned k e (by simpa [hkh] using he))

theorem first (hs : Matches s) {path h : String} (hpath : s.tables.paths path = none)
    (hfresh : s.tables.handles h = none) :
    Matches ⟨⟨Function.update s.tables.paths path (some h),
      Function.update s.tables.handles h (some ⟨path, 1⟩)⟩, (path, h) :: s.refs⟩ where
  paths := by
    intro q k
    by_cases hq : q = path
    · subst hq
      have hnot : (q, k) ∉ s.refs := fun hk => by simp [(hs.paths q k).mpr hk] at hpath
      simp [hnot, eq_comm]
    · simp [hq, hs.paths]
  counted := by
    intro q k hk
    by_cases hkh : k = h
    · subst hkh
      have hnot : ∀ q, (q, k) ∉ s.refs := fun q hq => by simp [hs.counted q k hq] at hfresh
      obtain rfl : q = path := by simpa [hnot] using hk
      simp [List.count_eq_zero_of_not_mem (hnot q)]
    · have hin : (q, k) ∈ s.refs := by simpa [hkh] using hk
      simp [hkh, hs.counted q k hin, Ne.symm hkh]
  owned := by
    intro k e he
    by_cases hkh : k = h
    · subst hkh
      obtain rfl : _ = e := by simpa using he
      simp
    · exact List.mem_cons_of_mem _ (hs.owned k e (by simpa [hkh] using he))

/-- The paths of the references to a handle are the same. -/
theorem path_eq (hs : Matches s) {path q h : String} (hmem : (path, h) ∈ s.refs)
    (hq : (q, h) ∈ s.refs) : q = path := by
  have := (hs.counted q h hq).symm.trans (hs.counted path h hmem)
  grind

/-- The reference that is given up is one of the path of the handle. -/
theorem eraseP_eq (hs : Matches s) {path h : String} (hmem : (path, h) ∈ s.refs) :
    s.refs.eraseP (·.2 = h) = s.refs.erase (path, h) := by
  obtain ⟨⟨q, k⟩, pre, post, hpre, hk, hrefs, herase⟩ :=
    List.exists_of_eraseP (p := fun r => decide (r.2 = h)) hmem (by simp)
  obtain rfl : k = h := by simpa using hk
  obtain rfl : q = path := hs.path_eq hmem (by simp [hrefs])
  have hnot : (q, k) ∉ pre := fun h => hpre _ h (by simp)
  rw [herase, hrefs, List.erase_append_right _ hnot, List.erase_cons_head]

theorem last (hs : Matches s) {path h : String} (hone : s.refs.count (path, h) = 1) :
    Matches ⟨⟨Function.update s.tables.paths path none, Function.update s.tables.handles h none⟩,
      s.refs.erase (path, h)⟩ := by
  have hmem : (path, h) ∈ s.refs := List.count_pos_iff.mp (by omega)
  have hgone (q k : String) :
      (q, k) ∈ s.refs.erase (path, h) ↔ (q, k) ∈ s.refs ∧ q ≠ path ∧ k ≠ h := by
    constructor
    · intro hk
      have hne : (q, k) ≠ (path, h) := by
        rintro heq
        rw [heq, ← List.count_pos_iff, List.count_erase_self] at hk
        omega
      have hin := List.mem_of_mem_erase hk
      refine ⟨hin, ?_, ?_⟩
      · rintro rfl
        have := ((hs.paths q k).mpr hin).symm.trans ((hs.paths q h).mpr hmem)
        grind
      · rintro rfl
        exact hne (by rw [hs.path_eq hmem hin])
    · rintro ⟨hin, hq, -⟩
      exact (List.mem_erase_of_ne (by grind)).mpr hin
  refine ⟨fun q k => ?_, fun q k hk => ?_, fun k e he => ?_⟩
  · rw [hgone]
    by_cases hq : q = path
    · simp [hq]
    · have : (q, k) ∈ s.refs → k ≠ h := fun hin heq => hq (hs.path_eq hmem (heq ▸ hin))
      simp only [Function.update_of_ne hq, hs.paths]
      grind
  · obtain ⟨hin, hq, hkh⟩ := (hgone q k).mp hk
    simp [hkh, hs.counted q k hin, List.count_erase_of_ne]
  · have hkh : k ≠ h := by
      rintro rfl
      simp at he
    have hin := hs.owned k e (by simpa [hkh] using he)
    refine (hgone _ _).mpr ⟨hin, fun hq => hkh ?_, hkh⟩
    have := ((hs.paths e.path k).mpr hin).symm.trans ((hs.paths e.path h).mpr (hq ▸ hmem))
    grind

theorem more (hs : Matches s) {path h : String} (hmore : 1 < s.refs.count (path, h)) :
    Matches ⟨⟨s.tables.paths, Function.update s.tables.handles h
      (some ⟨path, s.refs.count (path, h) - 1⟩)⟩, s.refs.erase (path, h)⟩ := by
  have hmem : (path, h) ∈ s.refs := List.count_pos_iff.mp (by omega)
  have hsame (q k : String) : (q, k) ∈ s.refs.erase (path, h) ↔ (q, k) ∈ s.refs := by
    rw [← List.count_pos_iff, ← List.count_pos_iff, List.count_erase]
    grind
  refine ⟨fun q k => by simp only [hsame, hs.paths], fun q k hk => ?_, fun k e he => ?_⟩
  · have hin := (hsame q k).mp hk
    by_cases hkh : k = h
    · subst hkh
      obtain rfl := hs.path_eq hmem hin
      simp
      omega
    · simp [hkh, hs.counted q k hin, List.count_erase_of_ne]
  · rw [hsame]
    by_cases hkh : k = h
    · subst hkh
      obtain rfl : _ = e := by simpa using he
      exact hmem
    · exact hs.owned k e (by simpa [hkh] using he)

theorem load (hs : Matches s) {path : String} {answer : Except String String} {t : State}
    (hfresh : Fresh s (.load path answer)) (h : step s (.load path answer) = some t) :
    Matches t := by
  simp only [step, ffiLoad] at h
  cases hpath : s.tables.paths path with
  | some k =>
    have hmem := (hs.paths path k).mp hpath
    simp only [hpath, hs.counted path k hmem] at h
    obtain rfl : _ = t := by simpa using h
    exact hs.again hmem
  | none =>
    cases answer with
    | error text =>
      obtain rfl : _ = t := by simpa [hpath] using h
      exact hs
    | ok k =>
      obtain rfl : _ = t := by simpa [hpath] using h
      exact hs.first hpath (hfresh hpath)

theorem unload (hs : Matches s) {h : String} {t : State} (hstep : step s (.unload h) = some t) :
    Matches t := by
  simp only [step, ffiUnload] at hstep
  cases hh : s.tables.handles h with
  | none =>
    obtain rfl : _ = t := by simpa [hh] using hstep
    exact hs
  | some e =>
    obtain ⟨path, n⟩ := e
    have hmem : (path, h) ∈ s.refs := hs.owned h _ hh
    obtain rfl : n = s.refs.count (path, h) := by
      have := hh.symm.trans (hs.counted path h hmem)
      grind
    have hpos := List.count_pos_iff.mpr hmem
    simp only [hh] at hstep
    split_ifs at hstep with hlast <;> obtain rfl := Option.some.inj hstep <;>
      rw [hs.eraseP_eq hmem]
    · exact hs.last (by omega)
    · exact hs.more (by omega)

end Matches

/-- As long as the loader answers with fresh handles, both tables stay faithful. -/
theorem faithful_of_fresh {s : State} (hs : machine.Reaches Fresh s) : Faithful s := by
  have hmatches : Matches s := hs.invariant
    (fun s (h : s = _) => by subst h; exact ⟨by simp, by simp, by simp⟩)
    fun s a t h hfresh hstep => by
      cases a with
      | load path answer => exact h.load hfresh hstep
      | unload k => exact h.unload hstep
  exact hmatches.faithful

/-- Two paths of one library: its handle is gone after one of two loads is given up, and the
path of the other load cannot be loaded again. -/
theorem not_faithful_of_alias :
    ∃ s, machine.Reachable s ∧ ("b.dll", "1") ∈ s.refs ∧ s.tables.handles "1" = none ∧
      ∃ text, (ffiLoad s.tables "b.dll" (.ok "1")).1 = .error (.internal text) := by
  obtain ⟨s, hs, hrefs, hgone, hfail⟩ := Machine.Reaches.exists_of_run (M := machine)
    (G := fun _ _ => True) [.load "b.dll" (.ok "1"), .load "a.dll" (.ok "1"), .unload "1"]
    (fun s => ("b.dll", "1") ∈ s.refs ∧ s.tables.handles "1" = none ∧
      (ffiLoad s.tables "b.dll" (.ok "1")).1 = .error (.internal
        "Internal error: Handle 1 not found in FFI table.")) rfl (by decide)
  exact ⟨s, hs, hrefs, hgone, _, hfail⟩

/-- Two loads of one path, of which one is given up. -/
theorem faithful_of_two_loads :
    ∃ s, machine.Reaches Fresh s ∧ s.refs = [("a.dll", "1")] ∧ Faithful s := by
  obtain ⟨s, hs, hrefs⟩ := Machine.Reaches.exists_of_run (M := machine) (G := Fresh)
    [.load "a.dll" (.ok "1"), .load "a.dll" (.ok "1"), .unload "1"]
    (fun s => s.refs = [("a.dll", "1")]) rfl (by decide)
  exact ⟨s, hs, hrefs, faithful_of_fresh hs⟩

end Twapi.Base.Ffi
