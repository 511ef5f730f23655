import Mathlib.Tactic
import TwinpassGateway.Foundation.Word

/-!
The loops of `bio_socket.c` that write or read exactly `count` bytes, whatever the single calls transfer.
-/

namespace TwinpassGateway.Ipc

open Foundation

inductive Attempt where
  /-- At most so many bytes are transferred. -/
  | moved (n : Nat)
  /-- `EINTR` or `EAGAIN`. -/
  | again
  | failed
  deriving DecidableEq

/-- An open connection, with what its next system calls do and what the peer sends on it. -/
structure Conn where
  writes : List Attempt
  reads : List Attempt
  /-- Whether the next `malloc_l` finds memory. -/
  mallocs : List Bool
  wire : List U8
  /-- The bytes written so far. -/
  sent : List U8 := []

/-- The loop of `bio_write` with `total` bytes written: its result, the calls that are left and the total, or
`none` while the loop goes on. -/
def writeLoop (count : Nat) : List Attempt → Nat → Option (Int × List Attempt × Nat)
  | [], total => if total < count then none else some (0, [], total)
  | a :: rest, total =>
    if total < count then
      match a with
      | .again => writeLoop count rest total
      | .failed => some (-1, rest, total)
      | .moved n =>
        let rc := min n (count - total)
        if rc = 0 then some (-1, rest, total) else writeLoop count rest (total + rc)
    else some (0, a :: rest, total)

def bioWrite (c : Conn) (buf : List U8) : Option (Int × Conn) :=
  (writeLoop buf.length c.writes 0).map fun (rc, writes, total) =>
    (rc, { c with writes, sent := c.sent ++ buf.take total })

/-- The loop of `bio_read`; a call transfers nothing at the end of the stream. -/
def readLoop (count available : Nat) : List Attempt → Nat → Option (Int × List Attempt × Nat)
  | [], total => if total ≠ count then none else some (0, [], total)
  | a :: rest, total =>
    if total ≠ count then
      match a with
      | .again => readLoop count available rest total
      | .failed => some (-1, rest, total)
      | .moved n =>
        let rc := min n (min (count - total) (available - total))
        if rc = 0 then some (-1, rest, total) else readLoop count available rest (total + rc)
    else some (0, a :: rest, total)

/-- `bio_read`: its result, the bytes it has stored and the connection. -/
def bioRead (c : Conn) (count : Nat) : Option (Int × List U8 × Conn) :=
  (readLoop count c.wire.length c.reads 0).map fun (rc, reads, total) =>
    (rc, c.wire.take total, { c with reads, wire := c.wire.drop total })

/-! ### What a loop has done when it returns -/

theorem writeLoop_result {count : Nat} {attempts left : List Attempt} {start total : Nat} {rc : Int}
    (within : start ≤ count) (returned : writeLoop count attempts start = some (rc, left, total)) :
    (rc = 0 ∧ total = count) ∨ (rc = -1 ∧ total < count) := by
  induction attempts generalizing start with
  | nil =>
    unfold writeLoop at returned
    split at returned
    · cases returned
    · cases returned
      exact Or.inl ⟨rfl, by omega⟩
  | cons a rest ih =>
    unfold writeLoop at returned
    split at returned
    · rename_i more
      cases a with
      | again => exact ih within returned
      | failed =>
        cases returned
        exact Or.inr ⟨rfl, more⟩
      | moved n =>
        dsimp only at returned
        split at returned
        · cases returned
          exact Or.inr ⟨rfl, more⟩
        · exact ih (by omega) returned
    · cases returned
      exact Or.inl ⟨rfl, by omega⟩

theorem bioWrite_result {c c' : Conn} {buf : List U8} {rc : Int} (returned : bioWrite c buf = some (rc, c')) :
    (rc = 0 ∧ c'.sent = c.sent ++ buf) ∨ (rc = -1 ∧ ∃ n, n < buf.length ∧ c'.sent = c.sent ++ buf.take n) := by
  obtain ⟨⟨rc', left, total⟩, looped, same⟩ := Option.map_eq_some_iff.mp returned
  cases same
  obtain ⟨ok, all⟩ | ⟨failed, part⟩ := writeLoop_result (Nat.zero_le _) looped
  · refine Or.inl ⟨ok, ?_⟩
    show c.sent ++ buf.take total = _
    rw [all, List.take_length]
  · exact Or.inr ⟨failed, total, part, rfl⟩

theorem bioRead_sent {c c' : Conn} {count : Nat} {rc : Int} {data : List U8}
    (returned : bioRead c count = some (rc, data, c')) : c'.sent = c.sent := by
  obtain ⟨_, _, same⟩ := Option.map_eq_some_iff.mp returned
  cases same
  rfl

/-! ### Calls that make progress -/

/-- The calls never fail, and at least `n` of them transfer something. -/
structure Steady (attempts : List Attempt) (n : Nat) : Prop where
  fine : ∀ a ∈ attempts, a = .again ∨ ∃ k, 0 < k ∧ a = .moved k
  enough : n ≤ (attempts.filter (· ≠ .again)).length

theorem Steady.mono {attempts : List Attempt} {m n : Nat} (steady : Steady attempts n) (less : m ≤ n) :
    Steady attempts m := ⟨steady.fine, less.trans steady.enough⟩

theorem Steady.again {rest : List Attempt} {n : Nat} (steady : Steady (.again :: rest) n) : Steady rest n := by
  refine ⟨fun a member => steady.fine a (List.mem_cons_of_mem _ member), ?_⟩
  simpa using steady.enough

theorem Steady.moved {rest : List Attempt} {k n : Nat} (steady : Steady (.moved k :: rest) (n + 1)) :
    0 < k ∧ Steady rest n := by
  obtain again | ⟨j, positive, same⟩ := steady.fine _ List.mem_cons_self
  · cases again
  · cases same
    refine ⟨positive, fun a member => steady.fine a (List.mem_cons_of_mem _ member), ?_⟩
    simpa using steady.enough

theorem readLoop_steady {count available : Nat} {attempts : List Attempt} {n total : Nat} (within : total ≤ count)
    (there : count ≤ available) (steady : Steady attempts (n + (count - total))) :
    ∃ left, readLoop count available attempts total = some (0, left, count) ∧ Steady left n := by
  induction attempts generalizing total with
  | nil =>
    have none := steady.enough
    simp only [List.filter_nil, List.length_nil] at none
    have all : total = count := by omega
    exact ⟨[], by rw [readLoop, if_neg (by omega), all], steady.mono (by omega)⟩
  | cons a rest ih =>
    unfold readLoop
    split
    · rename_i more
      cases a with
      | again => exact ih within steady.again
      | failed =>
        obtain again | ⟨k, _, same⟩ := steady.fine _ List.mem_cons_self
        · cases again
        · cases same
      | moved k =>
        obtain ⟨positive, rest⟩ := (steady.mono (m := n + (count - total - 1) + 1) (by omega)).moved
        dsimp only
        rw [if_neg (by omega)]
        exact ih (by omega) (rest.mono (by omega))
    · rename_i done
      have all : total = count := not_ne_iff.mp done
      exact ⟨a :: rest, by rw [all], steady.mono (by omega)⟩

/-- A write is a read of a stream that has all the bytes. -/
theorem writeLoop_eq_readLoop {count total : Nat} (attempts : List Attempt) (within : total ≤ count) :
    writeLoop count attempts total = readLoop count count attempts total := by
  induction attempts generalizing total with
  | nil =>
    have more : total < count ↔ total ≠ count := by omega
    simp only [writeLoop, readLoop, more]
  | cons a rest ih =>
    have more : total < count ↔ total ≠ count := by omega
    simp only [writeLoop, readLoop, more, Nat.min_self]
    cases a with
    | again => simp only [ih within]
    | failed => rfl
    | moved n => simp only [ih (show total + min n (count - total) ≤ count by omega)]

theorem writeLoop_steady {count : Nat} {attempts : List Attempt} {n total : Nat} (within : total ≤ count)
    (steady : Steady attempts (n + (count - total))) :
    ∃ left, writeLoop count attempts total = some (0, left, count) ∧ Steady left n := by
  rw [writeLoop_eq_readLoop attempts within]
  exact readLoop_steady within (Nat.le_refl count) steady

theorem bioWrite_steady {c : Conn} (buf : List U8) {n : Nat} (steady : Steady c.writes (n + buf.length)) :
    ∃ writes, bioWrite c buf = some (0, { c with writes, sent := c.sent ++ buf }) ∧ Steady writes n := by
  obtain ⟨left, looped, rest⟩ := writeLoop_steady (Nat.zero_le buf.length) (by simpa using steady)
  refine ⟨left, ?_, rest⟩
  rw [bioWrite, looped]
  simp only [Option.map_some, List.take_length]

theorem bioRead_steady {c : Conn} {data more : List U8} {n : Nat} (steady : Steady c.reads (n + data.length))
    (there : c.wire = data ++ more) :
    ∃ reads, bioRead c data.length = some (0, data, { c with reads, wire := more }) ∧ Steady reads n := by
  have available : data.length ≤ c.wire.length := by rw [there, List.length_append]; omega
  obtain ⟨left, looped, rest⟩ := readLoop_steady (Nat.zero_le data.length) available (by simpa using steady)
  refine ⟨left, ?_, rest⟩
  rw [bioRead, looped]
  simp only [Option.map_some, there, List.take_left, List.drop_left]

end TwinpassGateway.Ipc
