import Twapi.Etw.Bounds

/-!
One property of an event, `TwapiTdhPropertyValue` of `etw/etw.c`, with
`TwapiMapTDHProperty`, `TwapiValidateSID` and the strings of limited length.

* The bytes of the property are in a frame of the memory of the interpreter, which is not
  made for more than `INT_MAX` bytes: `EventData.fits`, and `MemLifoPushFrame` as
  `pushFrame`.
* `property_value_inside` — only bytes of the property are read, whatever its types say.

`IsValidSid` and `ConvertSidToStringSidA` read as many bytes as the SID has by
`GetSidLengthRequired`.
-/

namespace Twapi.Etw.Tdh

open Lib (Traced ofBytes signedOf units)
open Lib.Traced (all_bind all_pure all_ite)

/-! ### Types -/

/-- `TDH_INTYPE_..`. -/
inductive InType where
  | null
  | unicodestring
  | ansistring
  | int8
  | uint8
  | int16
  | uint16
  | int32
  | uint32
  | int64
  | uint64
  | float
  | double
  | boolean
  | binary
  | guid
  | pointer
  | hexint32
  | hexint64
  | filetime
  | systemtime
  | countedstring
  | reversedcountedstring
  | countedansistring
  | reversedcountedansistring
  | nonnullterminatedstring
  | unicodechar
  | ansichar
  | nonnullterminatedansistring
  | sizet
  | hexdump
  | wbemsid
  | sid
  | other (type : Nat)
deriving DecidableEq

/-- `TDH_OUTTYPE_..`, where it is looked at. -/
inductive OutType where
  | string
  | datetime
  | hexint8
  | hexint16
  | hexint32
  | hexint64
  | hresult
  | win32error
  | ntstatus
  | ipv4
  | ipv6
  | port
  | other
deriving DecidableEq

structure SystemTime where
  wYear : Nat
  wMonth : Nat
  wDayOfWeek : Nat
  wDay : Nat
  wHour : Nat
  wMinute : Nat
  wSecond : Nat
  wMilliseconds : Nat
deriving DecidableEq

def SystemTime.ofBytes (bytes : List UInt8) : SystemTime :=
  let word i := ((units bytes).getD i 0).toNat
  ⟨word 0, word 1, word 2, word 3, word 4, word 5, word 6, word 7⟩

/-- Lists of numbers and of texts besides the objects. -/
inductive Value where
  | empty
  | obj (o : Obj)
  | numbers (ns : List Nat)
  | names (texts : List (List UInt16))
deriving DecidableEq

/-- The type is one that is not supported, or the property is too short for it or has another
size; the SID is truncated or invalid; or a call of the system fails. -/
inductive Error where
  | unsupported (type : InType)
  | size (type : InType)
  | sid
  | system
deriving DecidableEq

/-- What Win32 makes of a SID and of a `FILETIME` as well. -/
structure Api extends Conversions where
  isValidSid : List UInt8 → Bool
  fileTimeToSystemTime : List UInt8 → Option SystemTime

/-! ### `TwapiMapTDHProperty` -/

/-- `EVENTMAP_INFO_FLAG_..`, where they are looked at; the value map of WBEM may have flags, and
`NO_MAP` goes by the index. -/
inductive MapFlag where
  | manifestValuemap
  | wbemValuemap
  | wbemValuemapNoMap
  | wbemValuemapFlag
  | manifestBitmap
  | wbemBitmap
  | wbemBitmapNoMap
  | other
deriving DecidableEq

/-- `ulongs` is whether the map is for numbers; an entry has its `Value` and its text. -/
structure EventMapInfo where
  flag : MapFlag
  ulongs : Bool
  entries : List (Nat × List UInt16)
deriving DecidableEq

/-- The texts of the masks that have a bit in `val`, each bit for the first of them. -/
def matching : List (Nat × List UInt16) → Nat → List (List UInt16)
  | [], _ => []
  | (bitmask, text) :: entries, val =>
    if bitmask &&& val ≠ 0 then text :: matching entries (val - (val &&& bitmask))
    else matching entries val

def twapiMapTDHProperty (emi : EventMapInfo) (val : Nat) : Value :=
  let number : Value := .obj (.int val)
  if ¬ emi.ulongs then number
  else
    match emi.flag with
    | .manifestValuemap | .wbemValuemap =>
      match emi.entries.lookup val with
      | some text => .obj (.wchars text)
      | none => number
    | .wbemValuemapNoMap =>
      match emi.entries[val]? with
      | some (_, text) => .obj (.wchars text)
      | none => number
    | .wbemValuemapFlag =>
      .names ((emi.entries.filter fun e => e.1 &&& val = e.1).map Prod.snd)
    | .manifestBitmap => .names (matching emi.entries val)
    | .wbemBitmap =>
      .names (matching ((emi.entries.filter fun e => e.1 ≤ 31).map fun e => (2 ^ e.1, e.2)) val)
    | .wbemBitmapNoMap =>
      .names (matching ((emi.entries.take 32).mapIdx fun i e => (2 ^ i, e.2)) val)
    | .other => number

/-! ### `TwapiTdhPropertyValue` -/

/-- Of the flags of `EventHeader` those for its width, and the width of the log
(`gETWContext.pointer_size`). -/
structure EventRecord where
  header32 : Bool
  header64 : Bool
  logPointerSize : UInt32
deriving DecidableEq

/-- `TwapiCalcPointerSize` -/
def EventRecord.pointerSize (evr : EventRecord) : UInt32 :=
  if evr.header32 then 4 else if evr.header64 then 8 else evr.logPointerSize

/-- The union: a string with what remains for it and its length, the others by name. -/
inductive Union where
  | string (cur : Cursor) (len : Nat)
  | i64 (i : Int)
  | dbl (o : Obj)
  | stime (time : SystemTime)
  | bin (cur : Cursor)
deriving DecidableEq

/-- What the first switch ends with. -/
inductive Extracted where
  | value (v : Value)
  | error (e : Error)
  | format (u : Union)
deriving DecidableEq

/-- The length `-1`, for a string that may be terminated. -/
def untilNull : Nat := 4294967295

section Property

variable (h : Host) (W : Api) (d : EventData)

/-- All bytes of the property. -/
def whole : Cursor := ⟨0, d.bytes.length⟩

/-- What follows the first `n` bytes. -/
def behind (n : Nat) : Cursor := ⟨n, (d.bytes.length : Int) - n⟩

/-- `EXTRACT`, and what follows. -/
def extracting (t : InType) (size : Nat) (f : List UInt8 → Extracted) : Traced Event Extracted := do
  if d.bytes.length < size then pure (.error (.size t))
  else
    let bytes ← read d (whole d) 0 size
    pure (f bytes)

/-- A value of four or eight bytes. -/
def pointerSized (t : InType) (four eight : List UInt8 → Obj) : Traced Event Extracted := do
  if d.bytes.length = 4 then
    let bytes ← read d (whole d) 0 4
    pure (.value (.obj (four bytes)))
  else if d.bytes.length = 8 then
    let bytes ← read d (whole d) 0 8
    pure (.value (.obj (eight bytes)))
  else pure (.error (.size t))

def countedString (t : InType) (reverse : Bool) : Traced Event Extracted :=
  extracting d t 2 fun bytes => .format (.string (behind d 2) (count reverse bytes))

def hexdump (t : InType) : Traced Event Extracted := do
  if d.bytes.length < 4 then pure (.error (.size t))
  else
    let dw := ofBytes (← read d (whole d) 0 4)
    let remain := d.bytes.length - 4
    let bytes ← read d (behind d 4) 0 (if remain < dw then remain else dw)
    pure (.value (.obj (.bytes bytes)))

/-- `TwapiValidateSID` and `ObjFromSID`. -/
def validSid (cur : Cursor) : Traced Event Extracted := do
  if cur.remain < 12 then pure (.error .sid)
  else
    let required := sidLength (ofBytes (← read d cur 1 1))
    if cur.remain < required then pure (.error .sid)
    else
      let bytes ← read d cur 0 required
      if ¬ W.isValidSid bytes then pure (.error .sid)
      else
        let bytes ← read d cur 0 required
        match W.stringFromSid bytes with
        | none => pure (.error .system)
        | some s => pure (.value (.obj (.string s)))

/-- A SID behind its `TOKEN_USER`, which is two pointers long. -/
def wbemSid (evr : EventRecord) (t : InType) : Traced Event Extracted :=
  let dw := (evr.pointerSize * 2).toNat
  if d.bytes.length < h.size (dw + 12) then pure (.error (.size t))
  else validSid W d ⟨dw, ((d.bytes.length : Int) - dw) % 4294967296⟩

/-- The first switch. -/
def extract (evr : EventRecord) (t : InType) : Traced Event Extracted :=
  let signed64 := fun bytes => Extracted.format (.i64 (signedOf bytes))
  let unsigned64 := fun bytes => Extracted.format (.i64 (ofBytes bytes))
  match t with
  | .null => pure (.value .empty)
  | .unicodestring | .ansistring => pure (.format (.string (whole d) untilNull))
  | .int8 => extracting d t 1 signed64
  | .uint8 => extracting d t 1 unsigned64
  | .int16 => extracting d t 2 signed64
  | .uint16 => extracting d t 2 unsigned64
  | .int32 => extracting d t 4 signed64
  | .uint32 => extracting d t 4 unsigned64
  | .int64 | .uint64 => extracting d t 8 signed64
  | .float => extracting d t 4 fun bytes => .format (.dbl (.float (ofBytes bytes)))
  | .double => extracting d t 8 fun bytes => .format (.dbl (.double (ofBytes bytes)))
  | .boolean => extracting d t 4 fun bytes => .value (.obj (.bool (ofBytes bytes ≠ 0)))
  | .binary => pure (.format (.bin (whole d)))
  | .guid => extracting d t 16 fun bytes => .value (.obj (.string (W.stringFromGUID bytes)))
  | .pointer | .hexint32 | .hexint64 => pointerSized d t (hexadecimal 8) (hexadecimal 16)
  | .filetime =>
    extracting d t 8 fun bytes =>
      match W.fileTimeToSystemTime bytes with
      | none => .value (.obj (.int (signedOf bytes)))
      | some time => .format (.stime time)
  | .systemtime => extracting d t 16 fun bytes => .format (.stime (.ofBytes bytes))
  | .countedstring | .countedansistring => countedString d t false
  | .reversedcountedstring | .reversedcountedansistring => countedString d t true
  | .nonnullterminatedstring => pure (.format (.string (whole d) (d.bytes.length / 2)))
  | .unicodechar | .ansichar => pure (.format (.string (whole d) 1))
  | .nonnullterminatedansistring => pure (.format (.string (whole d) d.bytes.length))
  | .sizet => pointerSized d t unsigned unsigned
  | .hexdump => hexdump d t
  | .wbemsid => wbemSid h W d evr t
  | .sid => validSid W d (whole d)
  | .other _ => pure (.error (.unsupported t))

/-- `%*.*d` -/
def padded (digits n : Nat) : String :=
  String.ofList ((Nat.toDigits 10 n).leftpad digits '0')

def SystemTime.text (t : SystemTime) : String :=
  padded 4 t.wYear ++ "-" ++ padded 2 t.wMonth ++ "-" ++ padded 2 t.wDay ++ "T" ++
    padded 2 t.wHour ++ ":" ++ padded 2 t.wMinute ++ ":" ++ padded 2 t.wSecond ++ "." ++
    padded 3 t.wMilliseconds ++ "Z"

/-- `ObjFromSYSTEMTIME` -/
def SystemTime.fields (t : SystemTime) : List Nat :=
  [t.wYear, t.wMonth, t.wDay, t.wHour, t.wMinute, t.wSecond, t.wMilliseconds, t.wDayOfWeek]

/-- The types of strings of 16-bit units; the others are of bytes. -/
def InType.isWide : InType → Bool
  | .unicodestring | .countedstring | .reversedcountedstring | .nonnullterminatedstring
  | .unicodechar => true
  | _ => false

def formatWide (cur : Cursor) (len : Nat) : Traced Event Value := do
  if len = untilNull then
    let (o, _) ← objFromWinCharsLimited d cur (cur.remain.toNat / 2)
    pure (.obj o)
  else
    let remain := cur.remain.toNat / 2
    let len := if remain < len then remain else len
    let bytes ← read d cur 0 (2 * len)
    pure (.obj (.wchars (units bytes)))

def formatChars (cur : Cursor) (len : Nat) : Traced Event Value := do
  if len = untilNull then
    let (o, _) ← objFromStringLimited d cur cur.remain.toNat
    pure (.obj o)
  else
    let remain := cur.remain.toNat
    let bytes ← read d cur 0 (if remain < len then remain else len)
    pure (.obj (.chars bytes))

def formatString (t : InType) (cur : Cursor) (len : Nat) : Traced Event Value :=
  if t.isWide then formatWide d cur len else formatChars d cur len

/-- The low bytes of a number. -/
def low (width : Nat) (i : Int) : Nat := (i % 256 ^ width).toNat

/-- An integer by its output type. -/
def formatInt (t : InType) (o : OutType) (emi : Option EventMapInfo) (i : Int) : Value :=
  match o with
  | .hexint8 => .obj (.string (hex 2 (low 1 i)))
  | .hexint16 => .obj (.string (hex 4 (low 2 i)))
  | .hresult | .win32error | .ntstatus | .hexint32 => .obj (.string (hex 8 (low 4 i)))
  | .hexint64 => .obj (.string (hex 16 (low 8 i)))
  | .ipv4 => .obj (.string (W.inetNtoa (low 4 i)))
  | .port => .obj (.int (low 2 i % 256 * 256 + low 2 i / 256 : Nat))
  | _ =>
    match emi with
    | some emi =>
      if i < 4294967295 ∧ 0 ≤ i then twapiMapTDHProperty emi i.toNat
      else if t = .uint64 then .obj (.int (low 8 i)) else .obj (.int i)
    | none => if t = .uint64 then .obj (.int (low 8 i)) else .obj (.int i)

def formatBinary (t : InType) (o : OutType) (cur : Cursor) :
    Traced Event (Except Error Value) := do
  if o = .ipv6 then
    if cur.remain ≠ 16 then pure (.error (.size t))
    else
      match W.stringFromIPv6 (← read d cur 0 16) with
      | none => pure (.error .system)
      | some s => pure (.ok (.obj (.string s)))
  else
    let bytes ← read d cur 0 cur.remain.toNat
    pure (.ok (.obj (.bytes bytes)))

/-- The second switch; its cases are told apart by what the first one has stored. -/
def format (t : InType) (o : OutType) (emi : Option EventMapInfo) :
    Union → Traced Event (Except Error Value)
  | .stime time =>
    pure (.ok (if o = .datetime then .obj (.string time.text) else .numbers time.fields))
  | .string cur len => do
      let v ← formatString d t cur len
      pure (.ok v)
  | .i64 i => pure (.ok (formatInt W t o emi i))
  | .dbl obj => pure (.ok (.obj obj))
  | .bin cur => formatBinary W d t o cur

def twapiTdhPropertyValue (evr : EventRecord) (t : InType) (o : OutType)
    (emi : Option EventMapInfo) : Traced Event (Except Error Value) := do
  match ← extract h W d evr t with
  | .value v => pure (.ok v)
  | .error e => pure (.error e)
  | .format u => format W d t o emi u

end Property

/-- `MemLifoPushFrame`, with the bytes of the property in the frame; `none` is the panic. -/
def pushFrame (bytes : List UInt8) (beyond : Int → UInt8) : Option EventData :=
  if fits : bytes.length < 2147483648 then some ⟨bytes, fits, beyond⟩ else none

/-! ### What is read -/

section

variable {h : Host} {W : Api} {d : EventData} {t : InType}

theorem inside_whole : Inside d (whole d) :=
  ⟨Int.le_refl _, Int.zero_add _, Int.natCast_nonneg _⟩

theorem inside_behind {n : Nat} (enough : n ≤ d.bytes.length) : Inside d (behind d n) := by
  refine ⟨Int.natCast_nonneg _, ?_, ?_⟩
  · simp [behind]
  · simp only [behind]
    omega

/-- What a string or binary data is taken from. -/
def Extracted.Within (d : EventData) : Extracted → Prop
  | .format (.string cur _) => Inside d cur
  | .format (.bin cur) => Inside d cur
  | _ => True

/-- A case of the first switch that reads in the property. -/
structure Sound (d : EventData) (x : Traced Event Extracted) : Prop where
  events : x.All (Event.Safe d)
  within : x.result.Within d

theorem sound_pure {x : Extracted} (within : x.Within d) : Sound d (pure x) :=
  ⟨all_pure _, within⟩

theorem sound_bind {α : Type} {x : Traced Event α} {f : α → Traced Event Extracted}
    (first : x.All (Event.Safe d)) (rest : Sound d (f x.result)) : Sound d (x >>= f) :=
  ⟨(all_bind x f).mpr ⟨first, rest.events⟩, rest.within⟩

theorem extracting_sound {size : Nat} {f : List UInt8 → Extracted}
    (within : size ≤ d.bytes.length → ∀ bytes, (f bytes).Within d) :
    Sound d (extracting d t size f) := by
  unfold extracting
  split
  · exact sound_pure trivial
  · rename_i enough
    refine sound_bind ?_ (sound_pure (within (Nat.le_of_not_lt enough) _))
    refine (read_safe_iff inside_whole).mpr ?_
    simp only [whole]
    omega

theorem pointerSized_sound {four eight : List UInt8 → Obj} :
    Sound d (pointerSized d t four eight) := by
  unfold pointerSized
  split
  · rename_i size
    refine sound_bind ((read_safe_iff inside_whole).mpr ?_) (sound_pure trivial)
    simp only [whole]
    omega
  · split
    · rename_i size
      refine sound_bind ((read_safe_iff inside_whole).mpr ?_) (sound_pure trivial)
      simp only [whole]
      omega
    · exact sound_pure trivial

theorem hexdump_sound : Sound d (hexdump d t) := by
  unfold hexdump
  split
  · exact sound_pure trivial
  · rename_i enough
    refine sound_bind ((read_safe_iff inside_whole).mpr ?_) ?_
    · simp only [whole]
      omega
    · refine sound_bind ((read_safe_iff (inside_behind (by omega))).mpr ?_) (sound_pure trivial)
      simp only [behind]
      split <;> omega

variable {evr : EventRecord} {cur : Cursor}

theorem validSid_sound (inside : Inside d cur) : Sound d (validSid W d cur) := by
  unfold validSid
  split
  · exact sound_pure trivial
  · rename_i header
    refine sound_bind ((read_safe_iff inside).mpr (by omega)) ?_
    dsimp only
    split
    · exact sound_pure trivial
    · rename_i room
      have safe (required : Nat) (le : (required : Int) ≤ cur.remain) :
          (read d cur 0 required).All (Event.Safe d) := (read_safe_iff inside).mpr (by omega)
      refine sound_bind (safe _ (by omega)) ?_
      split
      · exact sound_pure trivial
      · refine sound_bind (safe _ (by omega)) ?_
        split
        · exact sound_pure trivial
        · exact sound_pure trivial

/-- The sum with `sizeof(SID)` does not wrap: a `size_t` has 64 bits, or a pointer has the size
that pointers have. -/
theorem size_tokenUser (pointers : h = .x64 ∨ evr.pointerSize = 4 ∨ evr.pointerSize = 8) :
    h.size ((evr.pointerSize * 2).toNat + 12) = (evr.pointerSize * 2).toNat + 12 := by
  have small := (evr.pointerSize * 2).toNat_lt
  rcases pointers with rfl | four | eight
  · simp only [Host.size, Host.bits]
    omega
  · rw [four]
    cases h <;> rfl
  · rw [eight]
    cases h <;> rfl

theorem wbemSid_sound (pointers : h = .x64 ∨ evr.pointerSize = 4 ∨ evr.pointerSize = 8) :
    Sound d (wbemSid h W d evr t) := by
  unfold wbemSid
  dsimp only
  rw [size_tokenUser pointers]
  split
  · exact sound_pure trivial
  · rename_i room
    have fits := d.fits
    generalize (evr.pointerSize * 2).toNat = dw at room
    have remain : ((d.bytes.length : Int) - dw) % 4294967296 = d.bytes.length - dw := by omega
    rw [remain]
    exact validSid_sound (inside_behind (by omega))

theorem extract_sound (pointers : h = .x64 ∨ evr.pointerSize = 4 ∨ evr.pointerSize = 8) :
    Sound d (extract h W d evr t) := by
  cases t with
  | null | other => exact sound_pure trivial
  | unicodestring | ansistring | nonnullterminatedstring | unicodechar | ansichar
  | nonnullterminatedansistring | binary => exact sound_pure inside_whole
  | int8 | uint8 | int16 | uint16 | int32 | uint32 | int64 | uint64 | float | double | boolean
  | guid | systemtime => exact extracting_sound fun _ _ => trivial
  | filetime =>
    refine extracting_sound fun _ bytes => ?_
    cases W.fileTimeToSystemTime bytes <;> trivial
  | pointer | hexint32 | hexint64 | sizet => exact pointerSized_sound
  | countedstring | countedansistring | reversedcountedstring | reversedcountedansistring =>
    exact extracting_sound fun two _ => inside_behind two
  | hexdump => exact hexdump_sound
  | wbemsid => exact wbemSid_sound pointers
  | sid => exact validSid_sound inside_whole

/-! The second switch -/

theorem formatWide_safe (inside : Inside d cur) (len : Nat) :
    (formatWide d cur len).All (Event.Safe d) := by
  have left := inside.left
  unfold formatWide
  split
  · refine (all_bind _ _).mpr ⟨objFromWinCharsLimited_safe inside (by omega), all_pure _⟩
  · refine (all_bind _ _).mpr ⟨(read_safe_iff inside).mpr ?_, all_pure _⟩
    split <;> omega

theorem formatChars_safe (inside : Inside d cur) (len : Nat) :
    (formatChars d cur len).All (Event.Safe d) := by
  have left := inside.left
  unfold formatChars
  split
  · exact (all_bind _ _).mpr ⟨objFromStringLimited_safe inside (by omega), all_pure _⟩
  · refine (all_bind _ _).mpr ⟨(read_safe_iff inside).mpr ?_, all_pure _⟩
    split <;> omega

theorem formatBinary_safe (inside : Inside d cur) (o : OutType) :
    (formatBinary W d t o cur).All (Event.Safe d) := by
  have left := inside.left
  have safe (count : Nat) (le : (count : Int) ≤ cur.remain) :
      (read d cur 0 count).All (Event.Safe d) := (read_safe_iff inside).mpr (by omega)
  unfold formatBinary
  split
  · split
    · exact all_pure _
    · refine (all_bind _ _).mpr ⟨safe 16 (by omega), ?_⟩
      split <;> exact all_pure _
  · exact (all_bind _ _).mpr ⟨safe _ (by omega), all_pure _⟩

theorem format_safe {u : Union} (within : (Extracted.format u).Within d) (o : OutType)
    (emi : Option EventMapInfo) : (format W d t o emi u).All (Event.Safe d) := by
  cases u with
  | stime | i64 | dbl => exact all_pure _
  | string cur len =>
    have text : (formatString d t cur len).All (Event.Safe d) :=
      all_ite (formatWide_safe within len) (formatChars_safe within len)
    exact (all_bind _ _).mpr ⟨text, all_pure _⟩
  | bin cur => exact formatBinary_safe within o

theorem value_safe (pointers : h = .x64 ∨ evr.pointerSize = 4 ∨ evr.pointerSize = 8) (o : OutType)
    (emi : Option EventMapInfo) :
    (twapiTdhPropertyValue h W d evr t o emi).All (Event.Safe d) := by
  obtain ⟨events, within⟩ := extract_sound (W := W) (d := d) (t := t) pointers
  refine (all_bind _ _).mpr ⟨events, ?_⟩
  cases extracted : (extract h W d evr t).result with
  | value v => exact all_pure _
  | error e => exact all_pure _
  | format u =>
    rw [extracted] at within
    exact format_safe within o emi

end

/-- What Win32 makes of values, where none is asked for. -/
def noApi : Api :=
  ⟨⟨fun _ => "", fun _ => none, fun _ => "", fun _ => none⟩, fun _ => false, fun _ => none⟩

/-- A counted string of which the count is too large. -/
def tooLong : EventData := ⟨[9, 0, 65, 0], by decide, fun _ => 0⟩

end Twapi.Etw.Tdh
