import TwinpassGateway.Ipc.BioSocket
import TwinpassGateway.Util.StringParts

/-!
`mgt_command` of `mgt_client.c`: one `write` for the command and one for its NUL, and a reply that is read byte by byte into
a buffer that grows.
-/

namespace TwinpassGateway.Util

open Foundation

open Ipc (Attempt)

/-! ### The growing buffer -/

/-- What `realloc` answers, then always with memory, and what new memory holds. -/
structure Allocator where
  answers : List Bool
  fresh : Nat → U8

/-- `realloc`. No object has 2^31 bytes. -/
def Allocator.realloc (m : Allocator) (s : Option Block) (size : Nat) : Option Block × Allocator :=
  (if size < 2 ^ 31 ∧ m.answers.headD true = true then
    some ⟨size, ⟨(List.range size).map fun i => (s.elim [] fun b => b.array.bytes).getD i (m.fresh i), by simp⟩⟩
  else none, { m with answers := m.answers.tail })

def minStrLen : Nat := 16

/-- The new size that `str_putc` asks for, or 0. -/
def newLen (s : Option Block) (len : Nat) : Option Nat :=
  if len = 0 then some minStrLen
  else
    match s with
    | none => some 0
    | some b => (b.array.strlen 0).map fun n => if n + 1 ≥ len then len * 2 else 0

/-- `memcpy(*s + strlen(*s), &c, 1)`. -/
def appendChar (b : Block) (c : U8) : Option Block := do
  let n ← b.array.strlen 0
  let array ← b.array.memcpy n [c] 1
  some ⟨b.size, array⟩

/-- `str_putc`: the buffer, its length and the allocator after it; `none` when something lies outside a block. -/
def strPutc (m : Allocator) (s : Option Block) (len : Nat) (c : U8) : Option (Option Block × Nat × Allocator) := do
  let new ← newLen s len
  if new = 0 then
    let b ← s
    let b ← appendChar b c
    some (some b, len, m)
  else
    match m.realloc s new with
    | (none, m) => some (s, len, m)
    | (some b, m) =>
      let array ← b.array.store len (List.replicate (new - len) 0#8)
      let b ← appendChar ⟨b.size, array⟩ c
      some (some b, new, m)

/-! ### The exchange -/

/-- What the system calls of an exchange do, and the reply. -/
structure Peer where
  opens : Bool
  writes : Nat → Attempt
  reads : Nat → Attempt
  reply : List U8

/-- The bytes that a single call of `write` transfers. -/
def written (a : Attempt) (data : List U8) : List U8 :=
  match a with
  | .moved n => data.take n
  | _ => []

/-- Whether a call of `read` for one byte returns 1 while there are bytes. -/
def gives : Attempt → Bool
  | .moved n => 0 < n
  | _ => false

/-- A loop over `mgt_read` when it has ended. The trace has the buffer after each byte. -/
structure Collected where
  s : Option Block
  calls : Nat
  wire : List U8
  allocator : Allocator
  trace : List (Option Block)

def collect (reads : Nat → Attempt) : List U8 → Nat → Option Block → Nat → Allocator → Option Collected
  | [], k, s, _, m => some ⟨s, k + 1, [], m, []⟩
  | c :: wire, k, s, len, m =>
    if gives (reads k) = false then some ⟨s, k + 1, c :: wire, m, []⟩
    else if c = 0#8 then some ⟨s, k + 1, wire, m, []⟩
    else do
      let (s, len, m) ← strPutc m s len c
      let rest ← collect reads wire (k + 1) s len m
      some { rest with trace := s :: rest.trace }

def isDigit (c : U8) : Bool := 0x30#8 ≤ c ∧ c ≤ 0x39#8

def digitsValue (s : List U8) : Int := s.foldl (fun n c => 10 * n + (c.toNat - 0x30)) 0

/-- `atoi`, which saturates. -/
def atoi (s : List U8) : Int :=
  match s.dropWhile isspace with
  | 0x2D#8 :: s => max (-2 ^ 31) (-digitsValue (s.takeWhile isDigit))
  | 0x2B#8 :: s => min (2 ^ 31 - 1) (digitsValue (s.takeWhile isDigit))
  | s => min (2 ^ 31 - 1) (digitsValue (s.takeWhile isDigit))

def codeOf : Option Block → Option Int
  | none => some (-1)
  | some b => (b.array.strlen 0).map fun _ => atoi b.text

structure Reply where
  rc : Int
  result : Option Block
  sent : List U8
  trace : List (Option Block)

def mgtCommand (peer : Peer) (m : Allocator) (cmd : Option CString) (result : Option Block) : Option Reply :=
  match cmd with
  | none => some ⟨-1, result, [], []⟩
  | some cmd =>
    if cmd.chars = [] ∨ peer.opens = false then some ⟨-1, result, [], []⟩
    else do
      let sent := written (peer.writes 0) cmd.chars ++ written (peer.writes 1) [0#8]
      let text ← collect peer.reads peer.reply 0 result 0 m
      let code ← collect peer.reads text.wire text.calls none 0 text.allocator
      let rc ← codeOf code.s
      some ⟨rc, text.s, sent, text.trace ++ code.trace⟩

example : atoi [0x20#8, 0x2D#8, 0x31#8, 0x32#8, 0x78#8] = -12 := by decide

/-! ### What is expected -/

/-- What the calls of `read` deliver of a text: its bytes up to a NUL or to a call that gives none, and what is left. -/
def deliver (reads : Nat → Attempt) : List U8 → Nat → List U8 × Nat × List U8
  | [], k => ([], k + 1, [])
  | c :: wire, k =>
    if gives (reads k) = false then ([], k + 1, c :: wire)
    else if c = 0#8 then ([], k + 1, wire)
    else
      let (bytes, left) := deliver reads wire (k + 1)
      (c :: bytes, left)

def nextSize (len : Nat) : Nat := if len = 0 then minStrLen else len * 2

/-- Whether there is memory for a character behind `n` others in a buffer of `len` bytes, and the length and the answers
after it. -/
def keepChar (answers : List Bool) (len n : Nat) : Bool × Nat × List Bool :=
  if len ≠ 0 ∧ n + 1 < len then (true, len, answers)
  else if nextSize len < 2 ^ 31 ∧ answers.headD true = true then (true, nextSize len, answers.tail)
  else (false, len, answers.tail)

def kept : List Bool → Nat → Nat → List U8 → List U8 × List Bool
  | answers, _, _, [] => ([], answers)
  | answers, len, n, c :: rest =>
    let (found, len, answers) := keepChar answers len n
    let (chars, left) := kept answers len (if found then n + 1 else n) rest
    (if found then c :: chars else chars, left)

def textOf (s : Option Block) : List U8 := s.elim [] Block.text

/-- The call accesses nothing outside its blocks, has a NUL in the buffer after each byte, and when it reports a code other
than -1, then the command was sent, the result is the first string of the reply and the code is the number in the second. -/
def Exchanges (peer : Peer) (m : Allocator) (cmd : Option CString) (result : Option HeapString) : Prop :=
  ∃ reply, mgtCommand peer m cmd (result.map HeapString.toBlock) = some reply ∧ (∀ b, some b ∈ reply.trace → 0#8 ∈ b.array.bytes) ∧
    (reply.rc ≠ -1 → ∃ command first second rest, cmd = some command ∧ reply.sent = command.chars ++ [0#8] ∧
      peer.reply = first ++ 0#8 :: (second ++ 0#8 :: rest) ∧ 0#8 ∉ first ∧ 0#8 ∉ second ∧
      textOf reply.result = first ∧ reply.rc = atoi second)

def textKept (peer : Peer) (m : Allocator) : List U8 := (kept m.answers 0 0 (deliver peer.reads peer.reply 0).1).1

def codeKept (peer : Peer) (m : Allocator) : List U8 :=
  let text := deliver peer.reads peer.reply 0
  (kept (kept m.answers 0 0 text.1).2 0 0 (deliver peer.reads text.2.2 text.2.1).1).1

/-- There is no exchange, or nothing of a code arrives, or the number -1. -/
def NoCode (peer : Peer) (m : Allocator) (cmd : Option CString) : Prop :=
  (∀ command, cmd = some command → command.chars = []) ∨ peer.opens = false ∨ codeKept peer m = [] ∨
    atoi (codeKept peer m) = -1

/-- Both writes take everything. Of the reply's two strings each character of the first is delivered and kept (or it is the
result already, and none is), and those that are delivered and kept of the second denote its number. -/
def Undisturbed (peer : Peer) (m : Allocator) (cmd : Option CString) (result : Option HeapString) : Prop :=
  ∃ command first second rest, cmd = some command ∧
    (∃ n, peer.writes 0 = .moved n ∧ command.chars.length ≤ n) ∧ (∃ n, peer.writes 1 = .moved n ∧ 1 ≤ n) ∧
    peer.reply = first ++ 0#8 :: (second ++ 0#8 :: rest) ∧ 0#8 ∉ first ∧ 0#8 ∉ second ∧
    (if textKept peer m = [] then textOf (result.map HeapString.toBlock) else textKept peer m) = first ∧
    atoi (codeKept peer m) = atoi second

/-! ### The buffer -/

/-- A buffer that has taken some characters, none before its first allocation. -/
inductive Holds (start : Option Block) : Option Block → Nat → List U8 → Prop
  | untouched : Holds start start 0 []
  | grown (b : Block) (chars : List U8) (some' : chars ≠ []) (clean : 0#8 ∉ chars) (short : chars.length < b.size)
      (bytes : b.array.bytes = chars ++ List.replicate (b.size - chars.length) 0#8) :
      Holds start (some b) b.size chars

section Buffer

variable {m : Allocator} {start s : Option Block} {len : Nat} {chars : List U8} {c : U8}

theorem Holds.clean (holds : Holds start s len chars) : 0#8 ∉ chars := by
  cases holds with
  | untouched => exact List.not_mem_nil
  | grown _ _ _ clean => exact clean

theorem Holds.text (holds : Holds start s len chars) : textOf s = if chars = [] then textOf start else chars := by
  cases holds with
  | untouched => rw [if_pos rfl]
  | grown b _ some' clean short bytes =>
    rw [if_neg some']
    obtain ⟨k, more⟩ : ∃ k, b.size - chars.length = k + 1 := ⟨b.size - chars.length - 1, by omega⟩
    rw [more, List.replicate_succ] at bytes
    exact CharArray.text_front bytes clean

theorem Holds.code (holds : Holds none s len chars) : codeOf s = some (if chars = [] then -1 else atoi chars) := by
  have whole := holds.text
  cases holds with
  | untouched => rfl
  | grown b _ some' clean short bytes =>
    rw [if_neg some'] at whole ⊢
    obtain ⟨k, more⟩ : ∃ k, b.size - chars.length = k + 1 := ⟨b.size - chars.length - 1, by omega⟩
    rw [more, List.replicate_succ] at bytes
    rw [codeOf, CharArray.strlen_front bytes clean, Option.map_some, show b.text = chars from whole]

theorem Holds.ended (holds : Holds start s len chars) (old : ∀ b, start = some b → 0#8 ∈ b.array.bytes) :
    ∀ b, s = some b → 0#8 ∈ b.array.bytes := by
  cases holds with
  | untouched => exact old
  | grown b _ some' clean short bytes =>
    rintro _ ⟨⟩
    rw [bytes]
    exact List.mem_append_right _ (List.mem_replicate.mpr ⟨by omega, rfl⟩)

theorem appendChar_eq (b : Block) (clean : 0#8 ∉ chars) (short : chars.length + 1 < b.size)
    (bytes : b.array.bytes = chars ++ List.replicate (b.size - chars.length) 0#8) (c : U8) :
    ∃ array : CharArray b.size, appendChar b c = some ⟨b.size, array⟩ ∧
      array.bytes = (chars ++ [c]) ++ List.replicate (b.size - (chars ++ [c]).length) 0#8 := by
  obtain ⟨k, more⟩ : ∃ k, b.size - chars.length = k + 1 := ⟨b.size - chars.length - 1, by omega⟩
  rw [more, List.replicate_succ] at bytes
  have end_ : b.array.strlen 0 = some chars.length := CharArray.strlen_front bytes clean
  obtain ⟨array, stored, after⟩ := b.array.store_eq chars.length [c] (by rw [List.length_singleton]; omega)
  refine ⟨array, ?_, ?_⟩
  · have copied : b.array.memcpy chars.length [c] 1 = some array := (if_pos (Nat.le_refl 1)).trans stored
    unfold appendChar
    rw [end_]
    dsimp only [Option.bind_eq_bind, Option.bind_some]
    rw [copied]
    rfl
  · have behind : b.size - (chars ++ [c]).length = k := by
      rw [List.length_append, List.length_singleton]
      omega
    rw [after, bytes, behind, List.take_left, List.length_singleton, ← List.drop_drop, List.drop_left]
    rfl

theorem newLen_eq (holds : Holds start s len chars) :
    newLen s len = some (if len ≠ 0 ∧ chars.length + 1 < len then 0 else nextSize len) := by
  unfold newLen nextSize
  cases holds with
  | untouched => rfl
  | grown b _ some' clean short bytes =>
    obtain ⟨k, more⟩ : ∃ k, b.size - chars.length = k + 1 := ⟨b.size - chars.length - 1, by omega⟩
    rw [more, List.replicate_succ] at bytes
    have end_ : b.array.strlen 0 = some chars.length := CharArray.strlen_front bytes clean
    have there : b.size ≠ 0 := by omega
    dsimp only
    rw [if_neg there, end_, Option.map_some]
    by_cases room : chars.length + 1 < b.size
    · rw [if_neg (Nat.not_le.mpr room), if_pos ⟨there, room⟩]
    · rw [if_pos (Nat.le_of_not_lt room), if_neg fun ⟨_, more⟩ => room more, if_neg there]

theorem strPutc_room (holds : Holds start s len chars) (there : len ≠ 0) (room : chars.length + 1 < len) (m : Allocator)
    (visible : c ≠ 0#8) :
    ∃ s', strPutc m s len c = some (s', len, m) ∧ Holds start s' len (chars ++ [c]) := by
  have new := newLen_eq holds
  rw [if_pos ⟨there, room⟩] at new
  cases holds with
  | untouched => exact absurd rfl there
  | grown b _ some' clean short bytes =>
    obtain ⟨array, appended, after⟩ := appendChar_eq b clean room bytes c
    refine ⟨some ⟨b.size, array⟩, ?_, .grown ⟨b.size, array⟩ _ (by simp) ?_ ?_ after⟩
    · unfold strPutc
      rw [new]
      dsimp only [Option.bind_eq_bind, Option.bind_some]
      rw [if_pos rfl, appended]
      rfl
    · simp only [List.mem_append, List.mem_singleton, not_or]
      exact ⟨clean, visible.symm⟩
    · rw [List.length_append, List.length_singleton]
      exact room

theorem cleared_eq (holds : Holds start s len chars) {size : Nat} (grows : len < size) (fresh : Nat → U8) :
    ∃ array : CharArray size,
      CharArray.store ⟨(List.range size).map fun i => (s.elim [] fun b => b.array.bytes).getD i (fresh i), by simp⟩ len
          (List.replicate (size - len) 0#8) = some array ∧
        array.bytes = chars ++ List.replicate (size - chars.length) 0#8 := by
  obtain ⟨array, stored, after⟩ := CharArray.store_eq
    (⟨(List.range size).map fun i => (s.elim [] fun b => b.array.bytes).getD i (fresh i), by simp⟩ : CharArray size) len
    (List.replicate (size - len) 0#8) (by rw [List.length_replicate]; omega)
  refine ⟨array, stored, ?_⟩
  rw [after, List.length_replicate, show len + (size - len) = size by omega, List.drop_eq_nil_of_le (by simp),
    List.append_nil]
  cases holds with
  | untouched => rfl
  | grown b _ some' clean short bytes =>
    have front : ((List.range size).map fun i => b.array.bytes.getD i (fresh i)).take b.size = b.array.bytes := by
      have length := b.array.length_eq
      apply List.ext_getElem
      · simp only [List.length_take, List.length_map, List.length_range, length]
        omega
      · intro i low high
        simp only [List.getElem_take, List.getElem_map, List.getElem_range, List.getD_eq_getElem?_getD,
          List.getElem?_eq_getElem high, Option.getD_some]
    show ((List.range size).map fun i => b.array.bytes.getD i (fresh i)).take b.size ++ _ = _
    rw [front, bytes, List.append_assoc, List.replicate_append_replicate]
    congr 2
    omega

theorem nextSize_grows (holds : Holds start s len chars) : chars.length + 1 < nextSize len ∧ len < nextSize len := by
  unfold nextSize
  cases holds with
  | untouched => decide
  | grown b _ some' clean short bytes =>
    have positive := List.length_pos_iff.mpr some'
    rw [if_neg (by omega)]
    omega

theorem strPutc_grows (holds : Holds start s len chars) (full : ¬ (len ≠ 0 ∧ chars.length + 1 < len))
    (granted : nextSize len < 2 ^ 31 ∧ m.answers.headD true = true) (visible : c ≠ 0#8) :
    ∃ s', strPutc m s len c = some (s', nextSize len, { m with answers := m.answers.tail }) ∧
      Holds start s' (nextSize len) (chars ++ [c]) := by
  have new := newLen_eq holds
  rw [if_neg full] at new
  obtain ⟨room, grows⟩ := nextSize_grows holds
  obtain ⟨array, stored, bytes⟩ := cleared_eq holds grows m.fresh
  have clean := holds.clean
  obtain ⟨array', appended, after⟩ := appendChar_eq ⟨nextSize len, array⟩ clean room bytes c
  refine ⟨some ⟨nextSize len, array'⟩, ?_, .grown ⟨nextSize len, array'⟩ _ (by simp) ?_ ?_ after⟩
  · unfold strPutc Allocator.realloc
    rw [new]
    dsimp only [Option.bind_eq_bind, Option.bind_some]
    rw [if_neg (by omega), if_pos granted]
    dsimp only
    rw [stored]
    dsimp only [Option.bind_some]
    rw [appended]
    rfl
  · simp only [List.mem_append, List.mem_singleton, not_or]
    exact ⟨clean, visible.symm⟩
  · rw [List.length_append, List.length_singleton]
    exact room

theorem strPutc_drops (holds : Holds start s len chars) (full : ¬ (len ≠ 0 ∧ chars.length + 1 < len))
    (refused : ¬ (nextSize len < 2 ^ 31 ∧ m.answers.headD true = true)) (c : U8) :
    strPutc m s len c = some (s, len, { m with answers := m.answers.tail }) := by
  have new := newLen_eq holds
  rw [if_neg full] at new
  obtain ⟨_, grows⟩ := nextSize_grows holds
  unfold strPutc Allocator.realloc
  rw [new]
  dsimp only [Option.bind_eq_bind, Option.bind_some]
  rw [if_neg (by omega), if_neg refused]

theorem strPutc_eq (holds : Holds start s len chars) (m : Allocator) (visible : c ≠ 0#8) :
    ∃ s', strPutc m s len c =
        some (s', (keepChar m.answers len chars.length).2.1, { m with answers := (keepChar m.answers len chars.length).2.2 }) ∧
      Holds start s' (keepChar m.answers len chars.length).2.1
        (chars ++ if (keepChar m.answers len chars.length).1 then [c] else []) := by
  unfold keepChar
  by_cases room : len ≠ 0 ∧ chars.length + 1 < len
  · rw [if_pos room]
    exact strPutc_room holds room.1 room.2 m visible
  · rw [if_neg room]
    by_cases granted : nextSize len < 2 ^ 31 ∧ m.answers.headD true = true
    · rw [if_pos granted]
      exact strPutc_grows holds room granted visible
    · rw [if_neg granted]
      refine ⟨s, strPutc_drops holds room granted c, ?_⟩
      rw [show (if (false, len, m.answers.tail).1 = true then [c] else []) = [] from rfl, List.append_nil]
      exact holds

theorem collect_put {reads : Nat → Attempt} {wire : List U8} {k len' : Nat} {s' : Option Block} {m' : Allocator}
    {rest : Collected} (heard : ¬ gives (reads k) = false) (visible : c ≠ 0#8)
    (put : strPutc m s len c = some (s', len', m')) (collected : collect reads wire (k + 1) s' len' m' = some rest) :
    collect reads (c :: wire) k s len m = some { rest with trace := s' :: rest.trace } := by
  rw [collect, if_neg heard, if_neg visible, put]
  dsimp only [Option.bind_eq_bind, Option.bind_some]
  rw [collected]
  rfl

theorem kept_cons (answers : List Bool) (len n : Nat) (c : U8) (rest : List U8) :
    kept answers len n (c :: rest) =
      (if (keepChar answers len n).1 then
          c :: (kept (keepChar answers len n).2.2 (keepChar answers len n).2.1
            (if (keepChar answers len n).1 then n + 1 else n) rest).1
        else (kept (keepChar answers len n).2.2 (keepChar answers len n).2.1
          (if (keepChar answers len n).1 then n + 1 else n) rest).1,
        (kept (keepChar answers len n).2.2 (keepChar answers len n).2.1
          (if (keepChar answers len n).1 then n + 1 else n) rest).2) := rfl

/-- A loop keeps what is delivered, as far as there is memory. -/
theorem collect_eq (reads : Nat → Attempt) (wire : List U8) (k : Nat) (m : Allocator) (holds : Holds start s len chars) :
    ∃ s' len' trace, collect reads wire k s len m =
        some ⟨s', (deliver reads wire k).2.1, (deliver reads wire k).2.2,
          { m with answers := (kept m.answers len chars.length (deliver reads wire k).1).2 }, trace⟩ ∧
      Holds start s' len' (chars ++ (kept m.answers len chars.length (deliver reads wire k).1).1) ∧
      ∀ t ∈ trace, ∃ len chars, Holds start t len chars := by
  induction wire generalizing k s len m chars with
  | nil =>
    refine ⟨s, len, [], rfl, ?_, nofun⟩
    simpa [deliver, kept] using holds
  | cons c wire ih =>
    by_cases silent : gives (reads k) = false
    · refine ⟨s, len, [], ?_, ?_, nofun⟩
      · simp only [collect, deliver, if_pos silent, kept]
      · simpa [deliver, silent, kept] using holds
    · by_cases nul : c = 0#8
      · refine ⟨s, len, [], ?_, ?_, nofun⟩
        · simp only [collect, deliver, if_neg silent, if_pos nul, kept]
        · simpa [deliver, silent, nul, kept] using holds
      · have delivered : deliver reads (c :: wire) k =
            (c :: (deliver reads wire (k + 1)).1, (deliver reads wire (k + 1)).2) := by
          rw [deliver, if_neg silent, if_neg nul]
        obtain ⟨s', put, holds'⟩ := strPutc_eq holds m nul
        obtain ⟨s'', len'', trace, collected, held, each⟩ :=
          ih (k + 1) { m with answers := (keepChar m.answers len chars.length).2.2 } holds'
        rw [delivered, kept_cons]
        cases found : (keepChar m.answers len chars.length).1 with
        | true =>
          rw [found, if_pos rfl, List.length_append, List.length_singleton] at collected held
          refine ⟨s'', len'', s' :: trace, collect_put silent nul put collected, ?_, ?_⟩
          · rwa [List.append_assoc] at held
          · exact List.forall_mem_cons.mpr ⟨⟨_, _, holds'⟩, each⟩
        | false =>
          rw [found, if_neg (by decide), List.append_nil] at collected held
          refine ⟨s'', len'', s' :: trace, collect_put silent nul put collected, held, ?_⟩
          exact List.forall_mem_cons.mpr ⟨⟨_, _, holds'⟩, each⟩

end Buffer

/-! ### The call -/

section Command

variable {peer : Peer} {m : Allocator} {command : CString} {result : Option HeapString}

def code (peer : Peer) (m : Allocator) : Int := if codeKept peer m = [] then -1 else atoi (codeKept peer m)

theorem mgtCommand_eq (m : Allocator) (result : Option HeapString) (visible : command.chars ≠ [])
    (opens : peer.opens = true) :
    ∃ result' trace, mgtCommand peer m (some command) (result.map HeapString.toBlock) =
        some ⟨code peer m, result', written (peer.writes 0) command.chars ++ written (peer.writes 1) [0#8], trace⟩ ∧
      textOf result' =
        (if textKept peer m = [] then textOf (result.map HeapString.toBlock) else textKept peer m) ∧
      ∀ b, some b ∈ trace → 0#8 ∈ b.array.bytes := by
  have old : ∀ b, result.map HeapString.toBlock = some b → 0#8 ∈ b.array.bytes := by
    intro b there
    obtain ⟨h, _, rfl⟩ := Option.map_eq_some_iff.mp there
    exact h.ended
  have begun : Holds (result.map HeapString.toBlock) (result.map HeapString.toBlock) 0 [] := .untouched
  have begun' : Holds none none 0 [] := .untouched
  obtain ⟨text, len, trace, collected, held, each⟩ := collect_eq peer.reads peer.reply 0 m begun
  obtain ⟨number, len', trace', collected', held', each'⟩ :=
    collect_eq peer.reads (deliver peer.reads peer.reply 0).2.2 (deliver peer.reads peer.reply 0).2.1
      { m with answers := (kept m.answers 0 0 (deliver peer.reads peer.reply 0).1).2 } begun'
  have read : codeOf number = some (code peer m) := held'.code
  refine ⟨text, trace ++ trace', ?_, ?_, ?_⟩
  · unfold mgtCommand
    dsimp only
    rw [if_neg fun h => h.elim visible fun closed => nomatch opens.symm.trans closed]
    rw [collected]
    dsimp only [Option.bind_eq_bind, Option.bind_some, List.length_nil]
    rw [collected']
    dsimp only [Option.bind_some]
    rw [read]
    rfl
  · rw [List.nil_append] at held
    exact held.text
  · intro b member
    obtain here | here := List.mem_append.mp member
    · obtain ⟨len, chars, holds⟩ := each _ here
      exact holds.ended old b rfl
    · obtain ⟨len, chars, holds⟩ := each' _ here
      exact holds.ended nofun b rfl

theorem written_length (a : Attempt) (data : List U8) : (written a data).length ≤ data.length := by
  cases a with
  | moved n => exact List.length_take_le' n data
  | again | failed => exact Nat.zero_le _

theorem written_all (a : Attempt) {data : List U8} (some' : data ≠ []) :
    written a data = data ↔ ∃ n, a = .moved n ∧ data.length ≤ n := by
  cases a with
  | moved n =>
    constructor
    · intro all
      exact ⟨n, rfl, (List.take_eq_self_iff data).mp all⟩
    · rintro ⟨_, ⟨⟩, enough⟩
      exact List.take_of_length_le enough
  | again | failed => exact iff_of_false (fun none => some' none.symm) fun ⟨_, same, _⟩ => nomatch same

/-- A short write of the command is not made up by the one of its NUL. -/
theorem sent_all_iff (a b : Attempt) (visible : command.chars ≠ []) :
    written a command.chars ++ written b [0#8] = command.chars ++ [0#8] ↔
      (∃ n, a = .moved n ∧ command.chars.length ≤ n) ∧ ∃ n, b = .moved n ∧ 1 ≤ n := by
  rw [← written_all a visible]
  have nul := written_all b (List.cons_ne_nil 0#8 [])
  rw [List.length_singleton] at nul
  rw [← nul]
  constructor
  · intro all
    have first := written_length a command.chars
    have second := written_length b [0#8]
    have total := congrArg List.length all
    rw [List.length_append, List.length_append] at total
    exact List.append_inj all (by omega)
  · rintro ⟨first, second⟩
    rw [first, second]

end Command

theorem exchanges_iff (peer : Peer) (m : Allocator) (cmd : Option CString) (result : Option HeapString) :
    Exchanges peer m cmd result ↔ NoCode peer m cmd ∨ Undisturbed peer m cmd result := by
  have idle (none_ : mgtCommand peer m cmd (result.map HeapString.toBlock) =
      some ⟨-1, result.map HeapString.toBlock, [], []⟩) : Exchanges peer m cmd result :=
    ⟨_, none_, nofun, fun reported => absurd rfl reported⟩
  cases cmd with
  | none => exact iff_of_true (idle rfl) (Or.inl (Or.inl nofun))
  | some command =>
    by_cases nothing : command.chars = []
    · refine iff_of_true (idle ?_) (Or.inl (Or.inl fun _ same => Option.some.inj same ▸ nothing))
      exact if_pos (Or.inl nothing)
    · cases opens : peer.opens with
      | false => exact iff_of_true (idle (if_pos (Or.inr opens))) (Or.inl (Or.inr (Or.inl opens)))
      | true =>
        obtain ⟨result', trace, returned, text, ended⟩ := mgtCommand_eq m result nothing opens
        by_cases reported : code peer m = -1
        · refine iff_of_true ⟨_, returned, ended, fun other => absurd reported other⟩ (Or.inl (Or.inr (Or.inr ?_)))
          unfold code at reported
          split at reported
          · rename_i none_
            exact Or.inl none_
          · exact Or.inr reported
        · have some' : codeKept peer m ≠ [] := fun none_ => reported (if_pos none_)
          have number : code peer m = atoi (codeKept peer m) := if_neg some'
          constructor
          · rintro ⟨reply, returned', _, complete⟩
            obtain rfl := Option.some.inj (returned.symm.trans returned')
            obtain ⟨_, first, second, rest, ⟨⟩, sent, whole, clean, clean', result'_eq, rc⟩ := complete reported
            obtain ⟨wrote, wrote'⟩ := (sent_all_iff _ _ nothing).mp sent
            exact Or.inr ⟨command, first, second, rest, rfl, wrote, wrote', whole, clean, clean',
              text.symm.trans result'_eq, number.symm.trans rc⟩
          · rintro ((empty | closed | none_ | minus) | ⟨_, first, second, rest, ⟨⟩, wrote, wrote', whole, clean, clean', text',
              rc⟩)
            · exact absurd (empty command rfl) nothing
            · exact nomatch opens.symm.trans closed
            · exact absurd none_ some'
            · exact absurd (number.trans minus) reported
            · exact ⟨_, returned, ended, fun _ => ⟨command, first, second, rest, rfl,
                (sent_all_iff _ _ nothing).mpr ⟨wrote, wrote'⟩, whole, clean, clean', text.trans text', number.trans rc⟩⟩

/-- The text `1` and the code `0`, and an interrupt at the first read. -/
def interrupted : Peer where
  opens := true
  writes _ := .moved 8
  reads k := if k = 0 then .again else .moved 1
  reply := [0x31#8, 0#8, 0x30#8, 0#8]

def plenty : Allocator := ⟨[], fun _ => 0#8⟩

/-- The text is taken for the code. -/
theorem text_reported : ¬ Exchanges interrupted plenty (some ⟨[0x78#8], by decide⟩) none := by
  rintro ⟨reply, returned, _, complete⟩
  have run : (mgtCommand interrupted plenty (some ⟨[0x78#8], by decide⟩) none).map
      (fun reply => (reply.rc, textOf reply.result)) = some (1, []) := by decide
  rw [show (none : Option HeapString).map HeapString.toBlock = none from rfl] at returned
  rw [returned] at run
  obtain ⟨rc, text⟩ := Prod.mk.inj (Option.some.inj run)
  obtain ⟨_, first, second, rest, _, _, whole, _, _, found, _⟩ := complete (by rw [rc]; decide)
  rw [← found, text] at whole
  exact nomatch whole

end TwinpassGateway.Util
