import Twapi.Lib.Bytes

/-!
Passwords on the software stack: `base/tclobjs.c` and the commands that decrypt them there,
of `service/scm.c` and `security/security.c`.

* `objDecryptPasswordSWS` — the blocks that hold a password.
* `Command.run` — what the stack holds above the mark when a command returns.
* `wiped_iff` says when nothing is left of a password, and that then the same is left of
  every other one of its length.
-/

namespace Twapi.Password

open List

abbrev Bytes := List UInt8

/-- The stack, whose new blocks hold what they held before, and `RtlDecryptMemory`, which
decrypts in place and need not be there. -/
structure Machine where
  stale : Nat → Bytes
  available : Bool
  decryptMemory : Bytes → Bool × Bytes
  length_stale : ∀ n, (stale n).length = n
  length_decryptMemory : ∀ enc, (decryptMemory enc).2.length = enc.length

/-- A block of the stack; the first `secret` bytes were filled from the password. -/
structure Block where
  bytes : Bytes
  secret : Nat
deriving DecidableEq

/-! ### Decryption -/

/-- What comes of a decryption: nothing, a block that is left on the stack, or the text. -/
inductive Attempt where
  | refused
  | failed (bytes : Bytes)
  | done (bytes : Bytes) (nchars : Nat)

/-- The bytes of a string, `ObjToByteArray`. -/
def bytesOf (obj : List UInt16) : Bytes := obj.map fun unit => UInt8.ofNat unit.toNat

def terminate (nchars : Nat) (bytes : Bytes) : Bytes :=
  bytes.take (2 * nchars) ++ ([0, 0] ++ bytes.drop (2 * nchars + 2))

/-- Blocks of eight bytes are decrypted; the last byte is the length of the padding. -/
def objDecryptWinCharsSWS (m : Machine) (obj : List UInt16) : Attempt :=
  let enc := bytesOf obj
  if m.available = false ∨ enc.length = 0 ∨ enc.length % 8 ≠ 0 then .refused
  else
    let out := m.decryptMemory enc
    let dec := out.2 ++ (m.stale (enc.length + 2)).drop enc.length
    if out.1 = false then .failed dec
    else
      let pad := (out.2.getLastD 0).toNat
      if pad = 0 ∨ 8 < pad then .failed dec
      else .done (terminate ((enc.length - pad) / 2) dec) ((enc.length - pad) / 2)

/-- The blocks of attempts that failed, and the one of the password. -/
structure Decrypted where
  left : List Block
  block : Block
  nchars : Nat

/-- What is not encrypted is taken for the password. -/
def objDecryptPasswordSWS (m : Machine) (obj : List UInt16) : Decrypted :=
  match objDecryptWinCharsSWS m obj with
  | .done bytes nchars => ⟨[], ⟨bytes, 2 * nchars⟩, nchars⟩
  | .failed bytes =>
    ⟨[⟨bytes, obj.length⟩], ⟨Lib.wide obj ++ [0, 0], 2 * obj.length⟩, obj.length⟩
  | .refused => ⟨[], ⟨Lib.wide obj ++ [0, 0], 2 * obj.length⟩, obj.length⟩

/-- `SecureZeroMemory` -/
def secureZeroMemory (block : Block) (n : Nat) : Block :=
  { block with bytes := List.replicate n 0 ++ block.bytes.drop n }

/-! ### Commands -/

/-- The blocks above the mark, and whether these are handed back. -/
structure Run where
  blocks : List Block
  popped : Bool
  ok : Bool

/-- What the tag of a service is: a number, the empty string or another one. -/
inductive Tag where
  | number
  | empty
  | other
deriving DecidableEq

/-- The dependencies of a service, in a block of their own if they are given. -/
def dependencyBlocks (dependencies : Option Bytes) : List Block :=
  match dependencies with
  | none => []
  | some bytes => [⟨bytes, 0⟩]

/-- The password is decrypted, the call is made, and as many bytes as the password has
characters are wiped. -/
def withPassword (m : Machine) (password : List UInt16) (before : List Block) (success : Bool) : Run :=
  let p := objDecryptPasswordSWS m password
  ⟨before ++ (p.left ++ [secureZeroMemory p.block p.nchars]), true, success⟩

/-- The outcomes of what a command calls; dependencies that are no list are `none`. -/
structure Service where
  args : Bool
  tag : Tag
  dependencies : Option (Option Bytes)
  success : Bool

def changeServiceConfig (m : Machine) (password : List UInt16) (s : Service) : Run :=
  if s.args = false then ⟨[], true, false⟩
  else
    match s.tag, s.dependencies with
    | .other, _ => ⟨[], true, false⟩
    | _, none => ⟨[], true, false⟩
    | _, some dependencies => withPassword m password (dependencyBlocks dependencies) s.success

/-- Where the tag is neither a number nor empty, the mark is not popped. -/
def createService (m : Machine) (password : List UInt16) (s : Service) : Run :=
  if s.args = false then ⟨[], true, false⟩
  else
    match s.tag, s.dependencies with
    | .other, _ => ⟨[], false, false⟩
    | _, none => ⟨[], true, false⟩
    | _, some dependencies => withPassword m password (dependencyBlocks dependencies) s.success

def logonUser (m : Machine) (password : List UInt16) (args success : Bool) : Run :=
  if args = false then ⟨[], true, false⟩ else withPassword m password [] success

inductive Command where
  | changeServiceConfig (s : Service)
  | createService (s : Service)
  | logonUser (args success : Bool)

def Command.run (m : Machine) (password : List UInt16) : Command → Run
  | .changeServiceConfig s => Password.changeServiceConfig m password s
  | .createService s => Password.createService m password s
  | .logonUser args success => Password.logonUser m password args success

/-! ### What is asked of a command -/

def Block.Wiped (block : Block) : Prop := ∀ b ∈ block.bytes.take block.secret, b = 0

/-- Nothing is left of the password, and the stack is popped. -/
def Run.Wiped (run : Run) : Prop := run.popped = true ∧ ∀ block ∈ run.blocks, block.Wiped

/-- The password as it is decrypted. -/
def textOf (m : Machine) (obj : List UInt16) : List UInt16 :=
  match objDecryptWinCharsSWS m obj with
  | .done bytes nchars => Lib.units (bytes.take (2 * nchars))
  | _ => obj

/-- Two password objects that differ in the password only: both are encrypted, with the
same padding, or none is. -/
def DifferInPassword (m : Machine) (obj obj' : List UInt16) : Prop :=
  match objDecryptWinCharsSWS m obj, objDecryptWinCharsSWS m obj' with
  | .done bytes nchars, .done bytes' nchars' =>
    nchars = nchars' ∧ bytes.drop (2 * nchars) = bytes'.drop (2 * nchars)
  | .done .., _ => False
  | _, .done .. => False
  | _, _ => obj.length = obj'.length

/-- Of the bytes of the password, those of its second half are zero. -/
def SecondHalfZero (text : List UInt16) : Prop := ∀ b ∈ (Lib.wide text).drop text.length, b = 0

/-- If the decryption was tried and failed, it left nothing but zeros. -/
def FailsClean (m : Machine) (obj : List UInt16) : Prop :=
  match objDecryptWinCharsSWS m obj with
  | .failed bytes => ∀ b ∈ bytes.take obj.length, b = 0
  | _ => True

/-- The command gets as far as the password. -/
def Service.decrypts (s : Service) : Bool := s.args && s.tag ≠ .other && s.dependencies.isSome

def Command.decrypts : Command → Bool
  | .changeServiceConfig s => s.decrypts
  | .createService s => s.decrypts
  | .logonUser args _ => args

/-- A service is created with a tag that is one. -/
def Command.pops : Command → Bool
  | .createService s => !s.args || s.tag ≠ .other
  | _ => true

/-! ### Blocks -/

section Results

variable {m : Machine} {obj obj' : List UInt16}

theorem take_wiped (bytes : Bytes) (n : Nat) :
    (List.replicate n (0 : UInt8) ++ bytes.drop n).take (2 * n) =
      List.replicate n 0 ++ (bytes.take (2 * n)).drop n := by
  rw [take_append, length_replicate, drop_take, take_of_length_le]
  rw [length_replicate]
  omega

theorem wiped_secureZeroMemory_iff (bytes : Bytes) (n : Nat) :
    (secureZeroMemory ⟨bytes, 2 * n⟩ n).Wiped ↔ ∀ b ∈ (bytes.take (2 * n)).drop n, b = 0 := by
  unfold secureZeroMemory Block.Wiped
  rw [take_wiped]
  constructor
  · intro zero b among
    exact zero b (mem_append_right _ among)
  · intro zero b among
    obtain first | second := mem_append.mp among
    · exact eq_of_mem_replicate first
    · exact zero b second

/-- What a decryption leaves in its block, whether or not there is a text. -/
def decrypted (m : Machine) (obj : List UInt16) : Bytes :=
  (m.decryptMemory (bytesOf obj)).2 ++ (m.stale (obj.length + 2)).drop obj.length

theorem length_bytesOf (obj : List UInt16) : (bytesOf obj).length = obj.length := List.length_map ..

theorem length_decrypted : (decrypted m obj).length = obj.length + 2 := by
  rw [decrypted, length_append, m.length_decryptMemory, length_drop, m.length_stale,
    length_bytesOf]
  omega

theorem drop_decrypted : (decrypted m obj).drop obj.length = (m.stale (obj.length + 2)).drop obj.length := by
  have length := m.length_decryptMemory (bytesOf obj)
  rw [length_bytesOf] at length
  rw [decrypted, drop_append_of_le_length length.ge, drop_eq_nil_of_le length.le,
    nil_append]

/-- The cases of a decryption. -/
theorem attempt_cases (m : Machine) (obj : List UInt16) :
    objDecryptWinCharsSWS m obj = .refused ∧
        (m.available = false ∨ obj.length = 0 ∨ obj.length % 8 ≠ 0) ∨
      ¬ (m.available = false ∨ obj.length = 0 ∨ obj.length % 8 ≠ 0) ∧
        (objDecryptWinCharsSWS m obj = .failed (decrypted m obj) ∨
          ∃ n, 2 * n ≤ obj.length ∧
            objDecryptWinCharsSWS m obj = .done (terminate n (decrypted m obj)) n) := by
  unfold objDecryptWinCharsSWS
  dsimp only
  rw [length_bytesOf]
  by_cases refused : m.available = false ∨ obj.length = 0 ∨ obj.length % 8 ≠ 0
  · rw [if_pos refused]
    exact .inl ⟨rfl, refused⟩
  · rw [if_neg refused]
    refine .inr ⟨refused, ?_⟩
    split
    · exact .inl rfl
    · split
      · exact .inl rfl
      · exact .inr ⟨_, by omega, rfl⟩

variable {n : Nat}

theorem take_terminate {bytes : Bytes} (long : 2 * n ≤ bytes.length) :
    (terminate n bytes).take (2 * n) = bytes.take (2 * n) := by
  rw [terminate, take_append_of_le_length (by rw [length_take]; omega), take_take,
    Nat.min_self]

/-- The text is what the block of the password holds. -/
theorem textOf_spec (m : Machine) (obj : List UInt16) :
    (objDecryptPasswordSWS m obj).block.secret = 2 * (objDecryptPasswordSWS m obj).nchars ∧
      (textOf m obj).length = (objDecryptPasswordSWS m obj).nchars ∧
        (objDecryptPasswordSWS m obj).block.bytes.take (2 * (objDecryptPasswordSWS m obj).nchars) =
          Lib.wide (textOf m obj) := by
  have plain : (Lib.wide obj ++ [0, 0]).take (2 * obj.length) = Lib.wide obj := by
    rw [← Lib.length_wide, take_left]
  unfold textOf objDecryptPasswordSWS
  obtain ⟨is, -⟩ | ⟨-, is | ⟨n, short, is⟩⟩ := attempt_cases m obj
  · rw [is]
    exact ⟨rfl, rfl, plain⟩
  · rw [is]
    exact ⟨rfl, rfl, plain⟩
  · rw [is]
    have length : (decrypted m obj).length = obj.length + 2 := length_decrypted
    have taken : (terminate n (decrypted m obj)).take (2 * n) = (decrypted m obj).take (2 * n) :=
      take_terminate (by omega)
    have size : ((decrypted m obj).take (2 * n)).length = 2 * n := by
      rw [length_take]
      omega
    dsimp only
    rw [taken]
    refine ⟨rfl, ?_, ?_⟩
    · rw [Lib.length_units, size]
      omega
    · rw [Lib.wide_units]
      omega

/-! ### Commands that wipe the password -/

/-- The block of the password is wiped where the second half of it is zero. -/
theorem wiped_block_iff (m : Machine) (obj : List UInt16) :
    (secureZeroMemory (objDecryptPasswordSWS m obj).block (objDecryptPasswordSWS m obj).nchars).Wiped ↔
      SecondHalfZero (textOf m obj) := by
  obtain ⟨secret, length, text⟩ := textOf_spec m obj
  have wiped := wiped_secureZeroMemory_iff (objDecryptPasswordSWS m obj).block.bytes
    (objDecryptPasswordSWS m obj).nchars
  rw [← secret] at wiped
  refine wiped.trans ?_
  rw [SecondHalfZero, secret, text, length]

theorem wiped_left_iff (m : Machine) (obj : List UInt16) :
    (∀ block ∈ (objDecryptPasswordSWS m obj).left, block.Wiped) ↔ FailsClean m obj := by
  unfold objDecryptPasswordSWS FailsClean
  cases objDecryptWinCharsSWS m obj with
  | refused => exact iff_of_true nofun trivial
  | done bytes nchars => exact iff_of_true nofun trivial
  | failed bytes => exact forall_mem_singleton

theorem wiped_dependencies (dependencies : Option Bytes) :
    ∀ block ∈ dependencyBlocks dependencies, block.Wiped := by
  cases dependencies with
  | none => exact nofun
  | some bytes =>
    intro block among b within
    cases mem_singleton.mp among
    cases within

theorem wiped_withPassword (m : Machine) (obj : List UInt16) (before : List Block) (success : Bool) :
    (withPassword m obj before success).Wiped ↔
      (∀ block ∈ before, block.Wiped) ∧ (∀ block ∈ (objDecryptPasswordSWS m obj).left, block.Wiped) ∧
        (secureZeroMemory (objDecryptPasswordSWS m obj).block
          (objDecryptPasswordSWS m obj).nchars).Wiped := by
  unfold withPassword Run.Wiped
  dsimp only
  rw [forall_mem_append, forall_mem_append, forall_mem_singleton]
  exact and_iff_right rfl

theorem wiped_withPassword_iff (m : Machine) (obj : List UInt16) (dependencies : Option Bytes)
    (success : Bool) :
    (withPassword m obj (dependencyBlocks dependencies) success).Wiped ↔
      SecondHalfZero (textOf m obj) ∧ FailsClean m obj := by
  rw [wiped_withPassword, wiped_block_iff, wiped_left_iff,
    and_iff_right (wiped_dependencies dependencies)]
  exact and_comm

theorem wiped_early (ok : Bool) : (⟨[], true, ok⟩ : Run).Wiped := ⟨rfl, nofun⟩

theorem wiped_service_iff (m : Machine) (obj : List UInt16) (s : Service) :
    (changeServiceConfig m obj s).Wiped ↔
      (s.decrypts = true → SecondHalfZero (textOf m obj) ∧ FailsClean m obj) := by
  obtain ⟨args, tag, dependencies, success⟩ := s
  cases args with
  | false => exact iff_of_true (wiped_early false) nofun
  | true =>
    cases dependencies with
    | none =>
      cases tag with
      | number => exact iff_of_true (wiped_early false) nofun
      | empty => exact iff_of_true (wiped_early false) nofun
      | other => exact iff_of_true (wiped_early false) nofun
    | some dependencies =>
      cases tag with
      | number =>
        refine (wiped_withPassword_iff m obj dependencies success).trans ?_
        exact ⟨fun both _ => both, fun both => both rfl⟩
      | empty =>
        refine (wiped_withPassword_iff m obj dependencies success).trans ?_
        exact ⟨fun both _ => both, fun both => both rfl⟩
      | other => exact iff_of_true (wiped_early false) nofun

/-- The two commands for services differ in what they do with a tag that is none. -/
theorem createService_eq (m : Machine) (obj : List UInt16) (s : Service) :
    createService m obj s =
      if s.args = true ∧ s.tag = .other then ⟨[], false, false⟩ else changeServiceConfig m obj s := by
  obtain ⟨args, tag, dependencies, success⟩ := s
  cases args with
  | false => rfl
  | true =>
    cases tag with
    | other => rfl
    | number => cases dependencies <;> rfl
    | empty => cases dependencies <;> rfl

theorem wiped_run_iff (m : Machine) (obj : List UInt16) (command : Command) :
    (command.run m obj).Wiped ↔
      command.pops = true ∧
        (command.decrypts = true → SecondHalfZero (textOf m obj) ∧ FailsClean m obj) := by
  cases command with
  | changeServiceConfig s => exact (wiped_service_iff m obj s).trans (and_iff_right rfl).symm
  | logonUser args success =>
    cases args with
    | false => exact iff_of_true (wiped_early false) ⟨rfl, nofun⟩
    | true =>
      refine (wiped_withPassword_iff m obj none success).trans ?_
      exact ⟨fun both => ⟨rfl, fun _ => both⟩, fun both => both.2 rfl⟩
  | createService s =>
    change (createService m obj s).Wiped ↔ (!s.args || decide (s.tag ≠ .other)) = true ∧ _
    rw [createService_eq]
    by_cases leaves : s.args = true ∧ s.tag = .other
    · rw [if_pos leaves, leaves.1, leaves.2]
      refine iff_of_false (fun wiped => ?_) (fun pops => ?_)
      · cases wiped.1
      · cases pops.1
    · rw [if_neg leaves]
      have pops : (!s.args || decide (s.tag ≠ .other)) = true := by
        by_cases args : s.args = true
        · simpa [args] using leaves
        · simp [args]
      rw [pops]
      exact (wiped_service_iff m obj s).trans (and_iff_right rfl).symm

/-! ### Two passwords -/

/-- A block whose first bytes are zero is given by the others. -/
theorem eq_of_zero {bytes bytes' : Bytes} (zero : ∀ b ∈ bytes.take n, b = 0)
    (zero' : ∀ b ∈ bytes'.take n, b = 0) (length : bytes.length = bytes'.length)
    (rest : bytes.drop n = bytes'.drop n) : bytes = bytes' := by
  have first : bytes.take n = bytes'.take n := by
    rw [eq_replicate_of_mem zero, eq_replicate_of_mem zero', length_take,
      length_take, length]
  rw [← take_append_drop n bytes, first, rest, take_append_drop]

theorem length_terminate {bytes : Bytes} (long : 2 * n + 2 ≤ bytes.length) :
    (terminate n bytes).length = bytes.length := by
  rw [terminate, length_append, length_append, length_take, length_drop]
  simp only [length_cons, length_nil]
  omega

theorem drop_secureZeroMemory {bytes : Bytes} {n k : Nat} (below : n ≤ k) :
    (List.replicate n (0 : UInt8) ++ bytes.drop n).drop k = bytes.drop k := by
  rw [drop_append, drop_of_length_le (by rw [length_replicate]; exact below),
    length_replicate, nil_append, drop_drop]
  congr 1
  omega

/-- The blocks of two passwords of one length are the same if both are wiped. -/
theorem block_eq {bytes bytes' : Bytes} (length : bytes.length = bytes'.length)
    (rest : bytes.drop (2 * n) = bytes'.drop (2 * n))
    (wiped : (secureZeroMemory ⟨bytes, 2 * n⟩ n).Wiped)
    (wiped' : (secureZeroMemory ⟨bytes', 2 * n⟩ n).Wiped) :
    secureZeroMemory ⟨bytes, 2 * n⟩ n = secureZeroMemory ⟨bytes', 2 * n⟩ n := by
  unfold secureZeroMemory at wiped wiped' ⊢
  refine congrArg (Block.mk · (2 * n)) (eq_of_zero wiped wiped' ?_ ?_)
  · rw [length_append, length_append, length_drop, length_drop, length]
  · dsimp only
    rw [drop_secureZeroMemory (by omega), drop_secureZeroMemory (by omega), rest]

/-- The block of a password that is not encrypted. -/
theorem plain_eq (same : obj.length = obj'.length)
    (wiped : (secureZeroMemory ⟨Lib.wide obj ++ [0, 0], 2 * obj.length⟩ obj.length).Wiped)
    (wiped' : (secureZeroMemory ⟨Lib.wide obj' ++ [0, 0], 2 * obj'.length⟩ obj'.length).Wiped) :
    secureZeroMemory ⟨Lib.wide obj ++ [0, 0], 2 * obj.length⟩ obj.length =
      secureZeroMemory ⟨Lib.wide obj' ++ [0, 0], 2 * obj'.length⟩ obj'.length := by
  rw [← same] at wiped' ⊢
  have rest (text : List UInt16) (length : text.length = obj.length) :
      (Lib.wide text ++ [0, 0]).drop (2 * obj.length) = [0, 0] := by
    rw [← length, ← Lib.length_wide, drop_left]
  refine block_eq ?_ ((rest obj rfl).trans (rest obj' same.symm).symm) wiped wiped'
  rw [length_append, length_append, Lib.length_wide, Lib.length_wide, same]

/-- What the stack holds of passwords that differ in nothing else. -/
theorem same_of_wiped (differ : DifferInPassword m obj obj') {before : List Block} {success : Bool}
    (wiped : (withPassword m obj before success).Wiped)
    (wiped' : (withPassword m obj' before success).Wiped) :
    withPassword m obj before success = withPassword m obj' before success := by
  obtain ⟨-, left, last⟩ := (wiped_withPassword ..).mp wiped
  obtain ⟨-, left', last'⟩ := (wiped_withPassword ..).mp wiped'
  unfold withPassword
  unfold DifferInPassword at differ
  unfold objDecryptPasswordSWS at left left' last last' ⊢
  obtain ⟨is, refused⟩ | ⟨tried, is | ⟨n, short, is⟩⟩ := attempt_cases m obj
  · obtain ⟨is', -⟩ | ⟨tried', is' | ⟨n', -, is'⟩⟩ := attempt_cases m obj'
    · rw [is, is'] at differ
      rw [is] at last ⊢
      rw [is'] at last' ⊢
      dsimp only at differ last last' ⊢
      rw [plain_eq differ last last']
    · rw [is, is'] at differ
      exact absurd (differ ▸ refused) tried'
    · rw [is, is'] at differ
      exact differ.elim
  · obtain ⟨is', refused'⟩ | ⟨-, is' | ⟨n', -, is'⟩⟩ := attempt_cases m obj'
    · rw [is, is'] at differ
      exact absurd (differ ▸ refused') tried
    · rw [is, is'] at differ
      rw [is] at left last ⊢
      rw [is'] at left' last' ⊢
      dsimp only at differ left left' last last' ⊢
      have first : decrypted m obj = decrypted m obj' := by
        refine eq_of_zero (left _ (mem_singleton_self _)) ?_ ?_ ?_
        · rw [differ]
          exact left' _ (mem_singleton_self _)
        · rw [length_decrypted, length_decrypted, differ]
        · rw [drop_decrypted, differ, drop_decrypted]
      rw [plain_eq differ last last', first, differ]
    · rw [is, is'] at differ
      exact differ.elim
  · obtain ⟨is', -⟩ | ⟨-, is' | ⟨n', short', is'⟩⟩ := attempt_cases m obj'
    · rw [is, is'] at differ
      exact differ.elim
    · rw [is, is'] at differ
      exact differ.elim
    · rw [is, is'] at differ
      obtain ⟨rfl, rest⟩ := differ
      rw [is] at last ⊢
      rw [is'] at last' ⊢
      dsimp only at last last' ⊢
      have length : (terminate n (decrypted m obj)).length = obj.length + 2 := by
        rw [length_terminate, length_decrypted]
        rw [length_decrypted]
        omega
      have length' : (terminate n (decrypted m obj')).length = obj'.length + 2 := by
        rw [length_terminate, length_decrypted]
        rw [length_decrypted]
        omega
      have same : (terminate n (decrypted m obj)).length = (terminate n (decrypted m obj')).length := by
        have rests := congrArg List.length rest
        rw [length_drop, length_drop] at rests
        omega
      rw [block_eq same rest last last']

theorem same_of_service_wiped (differ : DifferInPassword m obj obj') {s : Service}
    (wiped : (changeServiceConfig m obj s).Wiped) (wiped' : (changeServiceConfig m obj' s).Wiped) :
    changeServiceConfig m obj s = changeServiceConfig m obj' s := by
  obtain ⟨args, tag, dependencies, success⟩ := s
  cases args with
  | false => rfl
  | true =>
    cases dependencies with
    | none => cases tag <;> rfl
    | some dependencies =>
      cases tag with
      | other => rfl
      | number => exact same_of_wiped differ wiped wiped'
      | empty => exact same_of_wiped differ wiped wiped'

theorem same_of_run_wiped (differ : DifferInPassword m obj obj') (command : Command)
    (wiped : (command.run m obj).Wiped) (wiped' : (command.run m obj').Wiped) :
    command.run m obj = command.run m obj' := by
  cases command with
  | changeServiceConfig s => exact same_of_service_wiped differ wiped wiped'
  | logonUser args success =>
    cases args with
    | false => rfl
    | true => exact same_of_wiped differ wiped wiped'
  | createService s =>
    change (createService m obj s).Wiped at wiped
    change (createService m obj' s).Wiped at wiped'
    change createService m obj s = createService m obj' s
    rw [createService_eq] at wiped wiped' ⊢
    rw [createService_eq]
    by_cases leaves : s.args = true ∧ s.tag = .other
    · rw [if_pos leaves, if_pos leaves]
    · rw [if_neg leaves] at wiped wiped'
      rw [if_neg leaves, if_neg leaves]
      exact same_of_service_wiped differ wiped wiped'

/-- Nothing is left of a password if and only if the second half of it is zero, a
decryption that fails leaves nothing and the tag of a service that is created is one. Of
two passwords of which nothing is left the same is left. -/
theorem wiped_iff (m : Machine) (command : Command) (obj obj' : List UInt16) :
    ((command.run m obj).Wiped ↔
      command.pops = true ∧
        (command.decrypts = true → SecondHalfZero (textOf m obj) ∧ FailsClean m obj)) ∧
    (DifferInPassword m obj obj' → (command.run m obj).Wiped → (command.run m obj').Wiped →
      command.run m obj = command.run m obj') :=
  ⟨wiped_run_iff m obj command, fun differ wiped wiped' => same_of_run_wiped differ command wiped wiped'⟩

theorem length_zeros (n : Nat) : (List.replicate n (0 : UInt8)).length = n :=
  List.length_replicate

/-- No function to decrypt with, and a stack that holds zeros. -/
def plainMachine : Machine where
  stale n := List.replicate n 0
  available := false
  decryptMemory enc := (false, enc)
  length_stale := length_zeros
  length_decryptMemory _ := rfl

/-- Of "ab" the second letter is left, which "ac" differs in. -/
theorem logonUser_leaves_password :
    ¬ ((Command.logonUser true true).run plainMachine [0x61, 0x62]).Wiped ∧
      (Command.logonUser true true).run plainMachine [0x61, 0x62] ≠
        (Command.logonUser true true).run plainMachine [0x61, 0x63] := by
  constructor
  · rintro ⟨-, wiped⟩
    have zero := wiped _ (mem_singleton_self _) 0x62 (by decide)
    revert zero
    decide
  · intro same
    have blocks := congrArg Run.blocks same
    revert blocks
    decide

end Results

end Twapi.Password
