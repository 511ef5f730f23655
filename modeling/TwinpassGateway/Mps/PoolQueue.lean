import Mathlib.Data.List.TakeWhile
import TwinpassGateway.Foundation.BoundedFifo
import TwinpassGateway.Mps.BufferPool

/-!
A queue of a buffer pool as a FIFO: topped up by the whole loop of `mps_topup_q_list`, filled at the
tail and emptied at the head. `alloc k` is what the allocator answers to the loop's `k`-th request.
-/

namespace TwinpassGateway.Mps

open Foundation

/-- The loop of `mps_topup_q_list`; `maxcount` turns are always enough. -/
def topupLoop : Nat → (Nat → U32) → Nat → Nat → MpsBuffHead → Nat × MpsBuffHead
  | 0, _, count, _, q => (count, q)
  | turns + 1, alloc, count, wpos, q =>
    if count < q.maxcount then
      let mpsBuf := alloc 0
      if mpsBuf = 0 then (count, { q with wpos })
      else
        let q := mpsSetQItem q mpsBuf
        let wpos := mpsNextQPos wpos q.maxcount
        topupLoop turns (fun k => alloc (k + 1)) (count + 1) wpos { q with wpos }
    else (count, q)

def mpsTopupQList (q : MpsBuffHead) (alloc : Nat → U32) : Nat × MpsBuffHead :=
  let orgCount := mpsGetQCount q
  let (count, q) := topupLoop q.maxcount alloc orgCount q.wpos q
  (count - orgCount, q)

/-! ### The queue it stands for -/

/-- What up to `n` requests are granted before the first that fails. -/
def granted (alloc : Nat → U32) (n : Nat) : List U32 := ((List.range n).map alloc).takeWhile (· ≠ 0)

inductive PoolCall where
  | topup (alloc : Nat → U32)
  | tail (buf : U32)
  | head

inductive PoolReply where
  | count (n : Nat)
  | status (ret : Int)
  | buffer (buf : U32)
  deriving DecidableEq

def MpsBuffHead.call (q : MpsBuffHead) : PoolCall → MpsBuffHead × PoolReply
  | .topup alloc =>
    let (n, q) := mpsTopupQList q alloc
    (q, .count n)
  | .tail buf =>
    let (ret, q') := mpsQueueTail buf (some q)
    (q'.getD q, .status ret)
  | .head =>
    let (buf, q') := mpsDequeueHead (some q)
    (q'.getD q, .buffer buf)

/-- The calls on a FIFO that holds at most `max` buffers. -/
def poolFifo (max : Nat) (stored : List U32) : PoolCall → List U32 × PoolReply
  | .topup alloc =>
    let new := granted alloc (max - stored.length)
    (stored ++ new, .count new.length)
  | .tail buf => if stored.length < max then (stored ++ [buf], .status 0) else (stored, .status (-12))
  | .head =>
    match stored with
    | [] => ([], .buffer 0)
    | buf :: rest => (rest, .buffer buf)

theorem granted_zero (alloc : Nat → U32) : granted alloc 0 = [] := rfl

theorem granted_succ (alloc : Nat → U32) (n : Nat) :
    granted alloc (n + 1) = if alloc 0 = 0 then [] else alloc 0 :: granted (fun k => alloc (k + 1)) n := by
  rw [granted, List.range_succ_eq_map, List.map_cons, List.map_map, List.takeWhile_cons]
  by_cases none : alloc 0 = 0
  · simp [none]
  · simp [granted, Function.comp_def]

theorem granted_all {alloc : Nat → U32} {n : Nat} (succeed : ∀ k < n, alloc k ≠ 0) :
    granted alloc n = (List.range n).map alloc := by
  apply List.takeWhile_eq_self_iff.mpr
  intro buf member
  obtain ⟨k, below, rfl⟩ := List.mem_map.mp member
  exact decide_eq_true (succeed k (List.mem_range.mp below))

/-! ### The ring stands for it -/

/-- The positions are slots, and the slots from the read position on hold `stored`. -/
structure MpsBuffHead.Stores (q : MpsBuffHead) (max : Nat) (stored : List U32) : Prop where
  size : q.maxcount = max
  read : q.rpos ≤ max
  write : q.wpos ≤ max
  stored : Ring.items q.circularBuf max q.rpos q.wpos = stored

variable {q : MpsBuffHead} {max : Nat} {stored : List U32}

theorem stores_count (stores : q.Stores max stored) : mpsGetQCount q = stored.length := by
  obtain ⟨rfl, read, write, rfl⟩ := stores
  exact Ring.items_length.symm

theorem stores_length_le (stores : q.Stores max stored) : stored.length ≤ max := by
  rw [← stores_count stores]
  obtain ⟨rfl, read, write, -⟩ := stores
  exact Ring.count_le read write

theorem stores_full (stores : q.Stores max stored) : mpsIsQFull q = true ↔ stored.length = max := by
  rw [← stores_count stores]
  obtain ⟨rfl, read, write, -⟩ := stores
  exact decide_eq_true_iff.trans (Ring.full_iff read write)

theorem stores_push (stores : q.Stores max stored) (room : stored.length < max) (buf : U32) :
    { mpsSetQItem q buf with wpos := mpsNextQPos q.wpos q.maxcount }.Stores max (stored ++ [buf]) := by
  have notFull := (stores_full stores).not.mpr (Nat.ne_of_lt room)
  obtain ⟨rfl, read, write, rfl⟩ := stores
  have spare : Ring.next q.maxcount q.wpos ≠ q.rpos := fun same => notFull (decide_eq_true same)
  exact ⟨rfl, read, Ring.next_le write, Ring.items_push_update read write spare buf⟩

theorem topupLoop_stores {turns : Nat} (alloc : Nat → U32) (stores : q.Stores max stored)
    (enough : max - stored.length ≤ turns) :
    (topupLoop turns alloc stored.length q.wpos q).1 = stored.length + (granted alloc (max - stored.length)).length ∧
      (topupLoop turns alloc stored.length q.wpos q).2.Stores max
        (stored ++ granted alloc (max - stored.length)) := by
  induction turns generalizing alloc stored q with
  | zero =>
    rw [Nat.le_zero.mp enough, granted_zero, List.append_nil]
    exact ⟨rfl, stores⟩
  | succ turns ih =>
    have size := stores.size
    rw [topupLoop]
    by_cases room : stored.length < q.maxcount
    · obtain ⟨left, more⟩ : ∃ left, max - stored.length = left + 1 := ⟨max - stored.length - 1, by omega⟩
      rw [if_pos room, more, granted_succ]
      by_cases failed : alloc 0 = 0
      · simp only [if_pos failed, List.append_nil]
        exact ⟨rfl, stores⟩
      · simp only [if_neg failed]
        have grown : (stored ++ [alloc 0]).length = stored.length + 1 := by
          rw [List.length_append, List.length_singleton]
        have rest : max - (stored ++ [alloc 0]).length = left := by omega
        have pushed := stores_push stores (size ▸ room) (alloc 0)
        obtain ⟨counted, stores'⟩ := ih (fun k => alloc (k + 1)) pushed (by omega)
        rw [rest, grown] at counted stores'
        rw [List.append_assoc] at stores'
        refine ⟨counted.trans ?_, stores'⟩
        rw [List.length_cons]
        omega
    · have none : max - stored.length = 0 := by omega
      rw [if_neg room, none, granted_zero, List.append_nil]
      exact ⟨rfl, stores⟩

theorem topup_stores (stores : q.Stores max stored) (alloc : Nat → U32) :
    (mpsTopupQList q alloc).1 = (granted alloc (max - stored.length)).length ∧
      (mpsTopupQList q alloc).2.Stores max (stored ++ granted alloc (max - stored.length)) := by
  have size := stores.size
  obtain ⟨counted, stores'⟩ := topupLoop_stores alloc stores (show max - stored.length ≤ q.maxcount by omega)
  rw [mpsTopupQList, stores_count stores]
  refine ⟨?_, stores'⟩
  show (topupLoop q.maxcount alloc stored.length q.wpos q).1 - stored.length = _
  rw [counted]
  omega

theorem tail_room (stores : q.Stores max stored) (room : stored.length < max) (buf : U32) :
    ∃ q', mpsQueueTail buf (some q) = (0, some q') ∧ q'.Stores max (stored ++ [buf]) := by
  have notFull := (stores_full stores).not.mpr (Nat.ne_of_lt room)
  exact ⟨_, if_neg notFull, stores_push stores room buf⟩

theorem tail_full (stores : q.Stores max stored) (full : stored.length = max) (buf : U32) :
    mpsQueueTail buf (some q) = (-12, some q) := if_pos ((stores_full stores).mpr full)

theorem head_nil (stores : q.Stores max []) : mpsDequeueHead (some q) = (0, some q) := by
  have none := stores_count stores
  obtain ⟨rfl, read, write, -⟩ := stores
  apply if_pos
  apply decide_eq_true
  by_contra filled
  exact Nat.ne_of_gt (Ring.count_pos read write filled) none

theorem head_cons {buf : U32} (stores : q.Stores max (buf :: stored)) :
    ∃ q', mpsDequeueHead (some q) = (buf, some q') ∧ q'.Stores max stored := by
  have filled := stores_count stores
  obtain ⟨rfl, read, write, items⟩ := stores
  have apart : q.rpos ≠ q.wpos := by
    intro same
    have none : mpsGetQCount q = 0 := by rw [mpsGetQCount, same, if_pos (Nat.le_refl _), Nat.sub_self]
    rw [none] at filled
    cases filled
  have cut : Ring.items q.circularBuf _ _ _ = _ :: _ := Ring.items_pop read write apart
  rw [items, List.cons_eq_cons] at cut
  obtain ⟨first, rest⟩ := cut
  have taken : mpsDequeueHead (some q) = (q.circularBuf q.rpos, some { q with
      circularBuf := Function.update q.circularBuf q.rpos 0xEEEEEEEE#32
      rpos := mpsNextQPos q.rpos q.maxcount }) := if_neg fun empty => apart (of_decide_eq_true empty)
  subst first
  refine ⟨_, taken, rfl, Ring.next_le read, write, ?_⟩
  rw [rest]
  exact Ring.items_update_read read write _

/-! ### Runs -/

theorem call_refines (max : Nat) (q : MpsBuffHead) (stored : List U32) (c : PoolCall) (stores : q.Stores max stored) :
    (q.call c).2 = (poolFifo max stored c).2 ∧ (q.call c).1.Stores max (poolFifo max stored c).1 := by
  cases c with
  | topup alloc =>
    obtain ⟨counted, stores'⟩ := topup_stores stores alloc
    exact ⟨congrArg PoolReply.count counted, stores'⟩
  | tail buf =>
    rcases (stores_length_le stores).lt_or_eq with room | full
    · obtain ⟨q', entered, stores'⟩ := tail_room stores room buf
      rw [MpsBuffHead.call, entered, poolFifo, if_pos room]
      exact ⟨rfl, stores'⟩
    · rw [MpsBuffHead.call, tail_full stores full, poolFifo, if_neg (by omega)]
      exact ⟨rfl, stores⟩
  | head =>
    cases stored with
    | nil =>
      rw [MpsBuffHead.call, head_nil stores]
      exact ⟨rfl, stores⟩
    | cons buf rest =>
      obtain ⟨q', taken, stores'⟩ := head_cons stores
      rw [MpsBuffHead.call, taken]
      exact ⟨rfl, stores'⟩

def MpsBuffHead.buffers (q : MpsBuffHead) : List U32 := Ring.items q.circularBuf q.maxcount q.rpos q.wpos

/-- From any positions, the calls answer as a FIFO of `maxcount` buffers does, the macro counts what it holds, and a
top-up keeps the buffers there are in front, in order, and fills the queue if no allocation fails. -/
theorem pool_queue_refines_fifo (q : MpsBuffHead) (read : q.rpos ≤ q.maxcount) (write : q.wpos ≤ q.maxcount)
    (calls : List PoolCall) :
    let later := last MpsBuffHead.call q calls
    let fifo := last (poolFifo q.maxcount) q.buffers calls
    answers MpsBuffHead.call q calls = answers (poolFifo q.maxcount) q.buffers calls ∧ later.buffers = fifo ∧
      mpsGetQCount later = fifo.length ∧ fifo.length ≤ q.maxcount ∧
      ∀ alloc, (mpsTopupQList later alloc).2.buffers = fifo ++ granted alloc (q.maxcount - fifo.length) ∧
        ((∀ k < q.maxcount - fifo.length, alloc k ≠ 0) →
          (mpsTopupQList later alloc).2.buffers.length = q.maxcount) := by
  have start : q.Stores q.maxcount q.buffers := ⟨rfl, read, write, rfl⟩
  obtain ⟨same, stores⟩ := refines (call_refines q.maxcount) start calls
  intro later fifo
  have held : ∀ {p : MpsBuffHead} {stored : List U32}, p.Stores q.maxcount stored → p.buffers = stored := by
    intro p stored stores
    rw [MpsBuffHead.buffers, stores.size, stores.stored]
  refine ⟨same, held stores, stores_count stores, stores_length_le stores, fun alloc => ?_⟩
  have topped := held (topup_stores stores alloc).2
  refine ⟨topped, fun succeed => ?_⟩
  have most : fifo.length ≤ q.maxcount := stores_length_le stores
  rw [topped, List.length_append, granted_all succeed, List.length_map, List.length_range]
  exact Nat.add_sub_cancel' most

/-- A ring of three slots for two buffers, rotated, whose top-up runs out of memory after one buffer. -/
theorem pool_queue_refines_fifo_rotated :
    let q : MpsBuffHead := { circularBuf := fun _ => 7, maxcount := 2, rpos := 2, wpos := 2 }
    let calls := [.topup fun k => if k = 0 then 5 else 0, .tail 6, .tail 8, .head, .head, .head]
    let later := last MpsBuffHead.call q calls
    let fifo := last (poolFifo q.maxcount) q.buffers calls
    answers MpsBuffHead.call q calls = answers (poolFifo q.maxcount) q.buffers calls ∧ later.buffers = fifo ∧
      mpsGetQCount later = fifo.length ∧ fifo.length ≤ q.maxcount ∧
      ∀ alloc, (mpsTopupQList later alloc).2.buffers = fifo ++ granted alloc (q.maxcount - fifo.length) ∧
        ((∀ k < q.maxcount - fifo.length, alloc k ≠ 0) →
          (mpsTopupQList later alloc).2.buffers.length = q.maxcount) :=
  pool_queue_refines_fifo _ (by decide) (by decide) _

end TwinpassGateway.Mps
