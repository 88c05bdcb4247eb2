import Twapi.Lib.Bytes
import Twapi.Lib.Memory
import Twapi.Base.StringMatch

/-!
The notifications of a directory monitor, `TwapiDirectoryMonitorCallbackFn` of
`storage/dirmonitor.c`.

* `patternMatch`, `patternMatched` — the patterns of a monitor and their signs.
* `collect` — the loop over the records of a buffer; `callbackFn` — what the handler is called
  with, if it is called.
* `Chain` — a well-formed chain of records; `Accepts` — what the patterns say of a path.
* `callbackFn_spec` — nothing outside the completed bytes is read, and of a well-formed chain
  the records with accepted paths are reported in order.

A buffer is the bytes that were completed, `InternalHigh` of them, and a pointer is its place in
the buffer. Reading outside it has the outcome `none`.
-/

namespace Twapi.DirMonitor.Notify

open Lib Option

/-- What Tcl does with a name, in either configuration: the object that is made of one, and
whether `Tcl_UniCharCaseMatch` finds that the object's characters match a pattern. -/
structure Tcl (Path : Type) where
  objFromWinCharsN : List UInt16 → Path
  uniCharCaseMatch : Path → List UInt16 → Bool

variable {Path : Type} (tcl : Tcl Path)

/-! ### Patterns -/

/-- `TwapiDirectoryMonitorPatternMatch`: 0 if no match, 1 if inclusion match, -1 if exclusion
match. -/
def patternMatch (path : Path) : (pattern : List UInt16) → Int
  | 0x2D :: pattern => if tcl.uniCharCaseMatch path pattern then -1 else 0
  | 0x2B :: pattern => if tcl.uniCharCaseMatch path pattern then 1 else 0
  | pattern => if tcl.uniCharCaseMatch path pattern then 1 else 0

/-- The loop over the patterns: no more of them are checked after a match. -/
def patternLoop (path : Path) : (patterns : List (List UInt16)) → Bool
  | [] => false
  | pattern :: patterns =>
    let matched := patternMatch tcl path pattern
    if matched = 0 then patternLoop path patterns else decide (0 < matched)

def patternMatched (patterns : List (List UInt16)) (path : Path) : Bool :=
  if patterns.length = 0 then true else patternLoop tcl path patterns

/-! ### Records -/

/-- The `n` bytes at `p`. -/
def readBytes (buf : List UInt8) (p n : Nat) : Option (List UInt8) :=
  if p + n ≤ buf.length then some ((buf.drop p).take n) else none

def readDword (buf : List UInt8) (p : Nat) : Option Nat := (readBytes buf p 4).map ofBytes

/-- An element of the list of changes. -/
inductive Word (Path : Type) where
  | literal (text : String)
  | long (n : Nat)
  | path (p : Path)
deriving DecidableEq

/-- The switch on `Action`. -/
def actionName : Nat → String
  | 1 => "added"
  | 2 => "removed"
  | 3 => "modified"
  | 4 => "renameold"
  | 5 => "renamenew"
  | _ => "unknown"

/-- `changesObj` and `notify`. -/
structure Changes (Path : Type) where
  changesObj : List (Word Path)
  notify : Bool
deriving DecidableEq

/-- A name is put on the list if it matched. -/
def Changes.add (changes : Changes Path) (matched : Bool) (action : Nat) (path : Path) :
    Changes Path :=
  if matched then
    { changesObj := changes.changesObj ++ [.literal (actionName action), .path path]
      notify := true }
  else changes

/-- The loop over the records, with `fniP` at `p`. -/
def collect (patterns : List (List UInt16)) (buf : List UInt8) (p : Nat)
    (changes : Changes Path) : Option (Changes Path) :=
  -- `endP` less the offset of `FileName` is behind `fniP`
  if p + 12 < buf.length then
    match readDword buf (p + 8) with
    | none => none
    | some fileNameLength =>
      if fileNameLength = 0 ∨ fileNameLength % 2 = 1 then some changes
      else if buf.length < p + 12 + fileNameLength then some changes
      else
        match readBytes buf (p + 12) fileNameLength, readDword buf (p + 4), readDword buf p with
        | some fileName, some action, some nextEntryOffset =>
          let path := tcl.objFromWinCharsN (units fileName)
          let changes := changes.add (patternMatched tcl patterns path) action path
          if nextEntryOffset = 0 then some changes
          else collect patterns buf (p + nextEntryOffset) changes
        | _, _, _ => none
  else some changes
termination_by buf.length - p

/-- How the handler of the notifications is called. -/
structure Script (Path : Type) where
  handler : String
  directoryHandle : Nat
  changes : List (Word Path)
deriving DecidableEq

/-- `TwapiDirectoryMonitorCallbackFn` while there is an interpreter: the script that is
evaluated, if one is. -/
def callbackFn (patterns : List (List UInt16)) (directoryHandle winerr : Nat)
    (buf : List UInt8) : Option (Option (Script Path)) :=
  let changes :=
    if winerr ≠ 0 then some { changesObj := [.literal "error", .long winerr], notify := true }
    else collect tcl patterns buf 0 { changesObj := [], notify := false }
  changes.map fun changes =>
    if changes.notify then
      some ⟨"twapi::_filesystem_monitor_handler", directoryHandle, changes.changesObj⟩
    else none

/-! ### What is reported -/

/-- A pattern without its sign. -/
def body : List UInt16 → List UInt16
  | 0x2D :: pattern | 0x2B :: pattern | pattern => pattern

/-- A pattern excludes what it matches if it starts with a minus. -/
def Excludes (pattern : List UInt16) : Prop := pattern.head? = some 0x2D

/-- A path is accepted where there are no patterns; else the first pattern that matches it
decides, and it is not accepted if none does. -/
def Accepts (patterns : List (List UInt16)) (path : Path) : Prop :=
  patterns = [] ∨ ∃ before pattern after, patterns = before ++ pattern :: after ∧
    (∀ earlier ∈ before, tcl.uniCharCaseMatch path (body earlier) = false) ∧
    tcl.uniCharCaseMatch path (body pattern) = true ∧ ¬ Excludes pattern

/-- A record of the buffer. -/
structure Notification where
  nextEntryOffset : Nat
  action : Nat
  fileName : List UInt8

/-- The record at `p`, if there is a well-formed one: it is in the buffer with its name, which
is of one or more whole units. -/
def recordAt (buf : List UInt8) (p : Nat) : Option Notification :=
  match readDword buf p, readDword buf (p + 4), readDword buf (p + 8) with
  | some nextEntryOffset, some action, some fileNameLength =>
    if fileNameLength ≠ 0 ∧ fileNameLength % 2 = 0 then
      (readBytes buf (p + 12) fileNameLength).map (⟨nextEntryOffset, action, ·⟩)
    else none
  | _, _, _ => none

/-- The records of a chain, in the order of the buffer. A buffer that was not written has none. -/
def Chain (buf : List UInt8) (records : List Notification) : Prop :=
  (buf = [] ∧ records = []) ∨ ∃ ps q,
    Walk (fun p => (recordAt buf p).map (·.nextEntryOffset)) 0 ps q ∧
      ps.map (recordAt buf) = records.map some

/-- The path of a record. -/
def Notification.path (r : Notification) : Path := tcl.objFromWinCharsN (units r.fileName)

/-- What is put on the list of changes for a record. -/
def Notification.report (r : Notification) : List (Word Path) :=
  [.literal (actionName r.action), .path (r.path tcl)]

/-! ### The patterns decide as they should -/

theorem patternMatch_eq (path : Path) (pattern : List UInt16) : patternMatch tcl path pattern =
    if tcl.uniCharCaseMatch path (body pattern) then
      if pattern.head? = some 0x2D then -1 else 1
    else 0 := by
  cases pattern with
  | nil => simp [patternMatch, body]
  | cons c pattern =>
    by_cases minus : c = 0x2D
    · subst minus
      simp [patternMatch, body]
    · by_cases plus : c = 0x2B
      · subst plus
        simp [patternMatch, body]
      · simp [patternMatch, body, minus, plus]

variable {patterns : List (List UInt16)} {buf : List UInt8} {changes : Changes Path}

/-- The loop finds the first pattern that matches, if there is one. -/
theorem patternLoop_iff {path : Path} :
    patternLoop tcl path patterns = true ↔
      ∃ before pattern after, patterns = before ++ pattern :: after ∧
        (∀ earlier ∈ before, tcl.uniCharCaseMatch path (body earlier) = false) ∧
        tcl.uniCharCaseMatch path (body pattern) = true ∧ ¬ Excludes pattern := by
  induction patterns with
  | nil => simp [patternLoop]
  | cons first patterns ih =>
    cases matched : tcl.uniCharCaseMatch path (body first) with
    | true =>
      have decided : patternLoop tcl path (first :: patterns) = true ↔ ¬ Excludes first := by
        rw [patternLoop, patternMatch_eq, matched, Excludes]
        by_cases minus : first.head? = some 0x2D <;> simp [minus]
      rw [decided]
      constructor
      · intro includes
        exact ⟨[], first, patterns, rfl, by simp, matched, includes⟩
      · rintro ⟨before, pattern, after, split, earlier, -, includes⟩
        cases before with
        | nil =>
          cases split
          exact includes
        | cons other before =>
          cases split
          cases matched.symm.trans (earlier first List.mem_cons_self)
    | false =>
      have passed :
          patternLoop tcl path (first :: patterns) = patternLoop tcl path patterns := by
        rw [patternLoop, patternMatch_eq, matched]
        rfl
      rw [passed, ih]
      constructor
      · rintro ⟨before, pattern, after, rfl, earlier, rest⟩
        exact ⟨first :: before, pattern, after, rfl,
          List.forall_mem_cons.mpr ⟨matched, earlier⟩, rest⟩
      · rintro ⟨before, pattern, after, split, earlier, hit, includes⟩
        cases before with
        | nil =>
          cases split
          cases matched.symm.trans hit
        | cons other before =>
          cases split
          exact ⟨before, pattern, after, rfl, (List.forall_mem_cons.mp earlier).2, hit,
            includes⟩

theorem patternMatched_iff {path : Path} :
    patternMatched tcl patterns path = true ↔ Accepts tcl patterns path := by
  rw [patternMatched, Accepts]
  by_cases none : patterns = []
  · simp [none]
  · rw [if_neg (fun zero => none (List.length_eq_zero_iff.mp zero)), patternLoop_iff]
    exact (or_iff_right none).symm

instance (patterns : List (List UInt16)) (path : Path) : Decidable (Accepts tcl patterns path) :=
  decidable_of_iff _ (patternMatched_iff tcl)

/-! ### The loop -/

theorem exists_readBytes {p n : Nat} (inside : p + n ≤ buf.length) :
    ∃ bytes, readBytes buf p n = some bytes := ⟨_, if_pos inside⟩

theorem exists_readDword {p : Nat} (inside : p + 4 ≤ buf.length) :
    ∃ n, readDword buf p = some n := by
  obtain ⟨bytes, read⟩ := exists_readBytes inside
  exact ⟨_, by rw [readDword, read, map_some]⟩

/-- Whatever is in the buffer, the loop reads inside it. -/
theorem collect_inside (patterns : List (List UInt16)) (buf : List UInt8) (p : Nat)
    (changes : Changes Path) : collect tcl patterns buf p changes ≠ none := by
  fun_induction collect tcl patterns buf p changes with
  | case1 p changes header outside =>
    obtain ⟨n, read⟩ : ∃ n, readDword buf (p + 8) = some n := exists_readDword (by omega)
    exact fun _ => some_ne_none n (read.symm.trans outside)
  | case2 | case3 | case4 | case7 => exact some_ne_none _
  | case5 => assumption
  | case6 p changes header fileNameLength _ _ fits unread =>
    obtain ⟨fileName, name⟩ : ∃ fileName, readBytes buf (p + 12) fileNameLength = some fileName :=
      exists_readBytes (by omega)
    obtain ⟨action, second⟩ : ∃ n, readDword buf (p + 4) = some n := exists_readDword (by omega)
    obtain ⟨next, first⟩ : ∃ n, readDword buf p = some n := exists_readDword (by omega)
    exact (unread fileName action next name second first).elim

/-- What it takes for a record to be well-formed is what the loop checks. -/
theorem collect_record {p : Nat} {r : Notification} (record : recordAt buf p = some r) :
    collect tcl patterns buf p changes =
      let changes := changes.add (patternMatched tcl patterns (r.path tcl)) r.action (r.path tcl)
      if r.nextEntryOffset = 0 then some changes
      else collect tcl patterns buf (p + r.nextEntryOffset) changes := by
  unfold recordAt at record
  split at record
  next next action fileNameLength first second third =>
    split at record
    next whole =>
      obtain ⟨fileName, name, rfl⟩ := map_eq_some_iff.mp record
      have fits : p + 12 + fileNameLength ≤ buf.length := by
        rw [readBytes] at name
        split at name
        next fits => exact fits
        next => cases name
      have header : p + 12 < buf.length := by omega
      have proper : ¬ (fileNameLength = 0 ∨ fileNameLength % 2 = 1) := by omega
      rw [collect, if_pos header, third]
      simp only [if_neg proper, if_neg (Nat.not_lt.mpr fits), name, second, first]
      rfl
    next => cases record
  next => cases record

/-- The changes once the records are gone through. -/
def Changes.addAll (patterns : List (List UInt16)) (changes : Changes Path)
    (records : List Notification) : Changes Path :=
  records.foldl (fun changes r =>
    changes.add (patternMatched tcl patterns (r.path tcl)) r.action (r.path tcl)) changes

variable {records : List Notification}

theorem collect_of_walk {p q : Nat} {ps : List Nat}
    (walk : Walk (fun p => (recordAt buf p).map (·.nextEntryOffset)) p ps q)
    (read : ps.map (recordAt buf) = records.map some) :
    collect tcl patterns buf p changes = some (changes.addAll tcl patterns records) := by
  induction walk generalizing records changes with
  | last zero =>
    obtain ⟨r, record, last⟩ := map_eq_some_iff.mp zero
    obtain ⟨r', none, rfl, here, end_⟩ := List.map_eq_cons_iff.mp read.symm
    obtain rfl := List.map_eq_nil_iff.mp end_
    obtain rfl := some.inj (here.trans record)
    rw [collect_record tcl record, if_pos last]
    rfl
  | next linked nonzero _ ih =>
    obtain ⟨r, record, rfl⟩ := map_eq_some_iff.mp linked
    obtain ⟨r', records, rfl, here, behind⟩ := List.map_eq_cons_iff.mp read.symm
    obtain rfl := some.inj (here.trans record)
    rw [collect_record tcl record, if_neg nonzero]
    exact ih behind.symm

/-- The records of a chain that are to be reported. -/
def reported (patterns : List (List UInt16)) (records : List Notification) : List Notification :=
  records.filter fun r => Accepts tcl patterns (r.path tcl)

theorem addAll_eq (patterns : List (List UInt16)) (changes : Changes Path)
    (records : List Notification) : changes.addAll tcl patterns records =
      { changesObj :=
          changes.changesObj ++ (reported tcl patterns records).flatMap (·.report tcl)
        notify := changes.notify || !(reported tcl patterns records).isEmpty } := by
  induction records generalizing changes with
  | nil => simp [Changes.addAll, reported]
  | cons r records ih =>
    rw [Changes.addAll, List.foldl_cons]
    refine (ih _).trans ?_
    by_cases accepted : Accepts tcl patterns (r.path tcl)
    · rw [(patternMatched_iff tcl).mpr accepted]
      simp [Changes.add, reported, accepted, Notification.report]
    · rw [Bool.eq_false_iff.mpr (mt (patternMatched_iff tcl).mp accepted)]
      simp [Changes.add, reported, accepted]

/-! ### The callback -/

/-- The script for what is to be reported; without a record it is not evaluated. -/
def notification (directoryHandle : Nat) (records : List Notification) : Option (Script Path) :=
  if records = [] then none
  else some ⟨"twapi::_filesystem_monitor_handler", directoryHandle,
    records.flatMap (·.report tcl)⟩

/-- What the callback does with a buffer, under all patterns. -/
structure Handled (patterns : List (List UInt16)) (directoryHandle : Nat)
    (buf : List UInt8) (records : List Notification) : Prop where
  /-- Of any buffer, and whether or not there was an error, only completed bytes are read. -/
  inside (winerr : Nat) (any : List UInt8) :
    callbackFn tcl patterns directoryHandle winerr any ≠ none
  /-- The records with accepted paths are reported, in order, and no others. -/
  reports : callbackFn tcl patterns directoryHandle 0 buf =
    some (notification tcl directoryHandle (reported tcl patterns records))

theorem callbackFn_inside (patterns : List (List UInt16)) (directoryHandle winerr : Nat)
    (buf : List UInt8) : callbackFn tcl patterns directoryHandle winerr buf ≠ none := by
  rw [callbackFn]
  split
  · exact some_ne_none _
  · rw [ne_eq, map_eq_none_iff]
    exact collect_inside tcl patterns buf 0 _

theorem collect_of_chain (chain : Chain buf records) :
    collect tcl patterns buf 0 changes = some (changes.addAll tcl patterns records) := by
  rcases chain with ⟨rfl, rfl⟩ | ⟨ps, q, walk, read⟩
  · have empty : ¬ 0 + 12 < ([] : List UInt8).length := Nat.not_lt_zero _
    rw [collect, if_neg empty]
    rfl
  · exact collect_of_walk tcl walk read

/-- The callback ends, reads only completed bytes, and reports of a well-formed chain exactly
the records whose paths the patterns accept, in the order of the buffer. -/
theorem callbackFn_spec (patterns : List (List UInt16)) (directoryHandle : Nat)
    (buf : List UInt8) (records : List Notification) (chain : Chain buf records) :
    Handled tcl patterns directoryHandle buf records where
  inside := callbackFn_inside tcl patterns directoryHandle
  reports := by
    rw [callbackFn, if_neg (fun error => error rfl), collect_of_chain tcl chain, map_some,
      addAll_eq, notification]
    cases reported tcl patterns records with
    | nil => rfl
    | cons r records => rfl

/-! A buffer with `b` added and `c` removed, under the patterns `-c` and `*`. -/

def twoRecords : List UInt8 :=
  [16, 0, 0, 0, 1, 0, 0, 0, 2, 0, 0, 0, 98, 0, 0, 0] ++
    [0, 0, 0, 0, 2, 0, 0, 0, 2, 0, 0, 0, 99, 0]

/-- Tcl on 16-bit characters. -/
def wideTcl : Tcl (List UInt16) where
  objFromWinCharsN := id
  uniCharCaseMatch path pattern :=
    Base.stringCaseMatch Char.toLower (pattern.map fun c => Char.ofNat c.toNat)
      (path.map fun c => Char.ofNat c.toNat)

theorem chain_twoRecords : Chain twoRecords [⟨16, 1, [98, 0]⟩, ⟨0, 2, [99, 0]⟩] :=
  .inr ⟨[0, 16], 16, .next (n := 16) (by rfl) (by decide) (.last (by rfl)), by rfl⟩

theorem callbackFn_spec_twoRecords :
    Handled wideTcl [[0x2D, 99], [42]] 5 twoRecords [⟨16, 1, [98, 0]⟩, ⟨0, 2, [99, 0]⟩] :=
  callbackFn_spec wideTcl [[0x2D, 99], [42]] 5 twoRecords _ chain_twoRecords

end Twapi.DirMonitor.Notify
