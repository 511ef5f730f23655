import TwinpassGateway.Foundation.BoundedFifo
import TwinpassGateway.Foundation.Ring
import TwinpassGateway.Foundation.Word

/-!
The rings of received messages: `MPS_DATAMSG_LIST` with its macros and the three functions on it in
`mps_tpe_device.c`. A slot is a pointer, and `none` is the null pointer.
-/

namespace TwinpassGateway.Mps

open Foundation

def maxMpsDatamsgQlen : Nat := 1024

/-- `MPS_DATAMSG_LIST`, with `maxMpsDatamsgQlen + 1` slots. -/
structure MpsDatamsgList (α : Type*) where
  circularBuf : Nat → Option α
  rpos : Nat
  wpos : Nat

variable {α : Type*}

def mpsDatamsgNextQPos (pos : Nat) : Nat := if pos < maxMpsDatamsgQlen then pos + 1 else 0

def mpsDatamsgSetQItem (q : MpsDatamsgList α) (node : α) : MpsDatamsgList α :=
  { q with circularBuf := Function.update q.circularBuf q.wpos (some node) }

def mpsDatamsgGetQItem (q : MpsDatamsgList α) : Option α := q.circularBuf q.rpos

def mpsDatamsgIsQFull (q : MpsDatamsgList α) : Bool := mpsDatamsgNextQPos q.wpos = q.rpos

def mpsDatamsgIsQEmpty (q : MpsDatamsgList α) : Bool := q.rpos = q.wpos

def mpsDatamsgGetQCount (q : MpsDatamsgList α) : Nat :=
  if q.rpos ≤ q.wpos then u32 (q.wpos + 2 ^ 32 - q.rpos) else u32 (q.wpos + 1 + maxMpsDatamsgQlen + 2 ^ 32 - q.rpos)

/-- The loop stops before the last slot, which keeps what it held. -/
def mpsDatamsgQueueInit (q : MpsDatamsgList α) : MpsDatamsgList α :=
  { circularBuf := fun i => if i < maxMpsDatamsgQlen then none else q.circularBuf i, rpos := 0, wpos := 0 }

/-- The result, the queue, and the message whose data buffer the call has released. -/
def mpsDatamsgEnqueueTail (buf : α) : Option (MpsDatamsgList α) → Int × Option (MpsDatamsgList α) × Option α
  | none => (-22, none, none)
  | some q =>
    if mpsDatamsgIsQFull q then (-12, some q, some buf)
    else
      let q := mpsDatamsgSetQItem q buf
      (0, some { q with wpos := mpsDatamsgNextQPos q.wpos }, none)

def mpsDatamsgDequeueHead : Option (MpsDatamsgList α) → Option α × Option (MpsDatamsgList α)
  | none => (none, none)
  | some q =>
    if mpsDatamsgIsQEmpty q then (none, some q)
    else (mpsDatamsgGetQItem q, some { q with rpos := mpsDatamsgNextQPos q.rpos })

/-! ### The queue in the ring -/

/-- The positions are slots, and the slots from the read position on hold `items`. -/
structure MpsDatamsgList.Holds (q : MpsDatamsgList α) (items : List α) : Prop where
  read : q.rpos ≤ maxMpsDatamsgQlen
  write : q.wpos ≤ maxMpsDatamsgQlen
  items : Ring.items q.circularBuf maxMpsDatamsgQlen q.rpos q.wpos = items.map some

variable {q : MpsDatamsgList α} {items : List α}

theorem init_holds (q : MpsDatamsgList α) : (mpsDatamsgQueueInit q).Holds [] :=
  ⟨Nat.zero_le _, Nat.zero_le _, Ring.items_self⟩

theorem holds_count (holds : q.Holds items) : Ring.count maxMpsDatamsgQlen q.rpos q.wpos = items.length := by
  have size : (Ring.items q.circularBuf _ _ _).length = Ring.count maxMpsDatamsgQlen q.rpos q.wpos := Ring.items_length
  rw [← size, holds.items, List.length_map]

theorem getQCount_eq (holds : q.Holds items) : mpsDatamsgGetQCount q = items.length := by
  have read := holds.read
  have write := holds.write
  rw [← holds_count holds]
  unfold mpsDatamsgGetQCount Ring.count maxMpsDatamsgQlen u32 at *
  split <;> omega

theorem isQFull_iff (holds : q.Holds items) : mpsDatamsgIsQFull q = true ↔ items.length = maxMpsDatamsgQlen := by
  rw [← holds_count holds, ← Ring.full_iff holds.read holds.write]
  exact decide_eq_true_iff

theorem isQEmpty_iff (holds : q.Holds items) : mpsDatamsgIsQEmpty q = true ↔ items = [] := by
  rw [← List.length_eq_zero_iff, ← holds_count holds]
  refine decide_eq_true_iff.trans ⟨fun same => ?_, fun none => ?_⟩
  · rw [same, Ring.count_self]
  · by_contra filled
    have some := Ring.count_pos holds.read holds.write filled
    omega

theorem length_le_qlen (holds : q.Holds items) : items.length ≤ maxMpsDatamsgQlen := by
  rw [← holds_count holds]
  exact Ring.count_le holds.read holds.write

theorem enqueue_full (holds : q.Holds items) (full : items.length = maxMpsDatamsgQlen) (buf : α) :
    mpsDatamsgEnqueueTail buf (some q) = (-12, some q, some buf) :=
  if_pos ((isQFull_iff holds).mpr full)

theorem enqueue_room (holds : q.Holds items) (room : items.length < maxMpsDatamsgQlen) (buf : α) :
    ∃ q', mpsDatamsgEnqueueTail buf (some q) = (0, some q', none) ∧ q'.Holds (items ++ [buf]) := by
  have free : ¬ mpsDatamsgIsQFull q = true := by
    rw [isQFull_iff holds]
    omega
  have spare : Ring.next maxMpsDatamsgQlen q.wpos ≠ q.rpos := fun same => free (decide_eq_true same)
  refine ⟨_, if_neg free, holds.read, Ring.next_le holds.write, ?_⟩
  rw [List.map_append, ← holds.items]
  exact Ring.items_push_update holds.read holds.write spare (some buf)

theorem dequeue_nil (holds : q.Holds []) : mpsDatamsgDequeueHead (some q) = (none, some q) :=
  if_pos ((isQEmpty_iff holds).mpr rfl)

theorem dequeue_cons {buf : α} (holds : q.Holds (buf :: items)) :
    ∃ q', mpsDatamsgDequeueHead (some q) = (some buf, some q') ∧ q'.Holds items := by
  have filled : ¬ mpsDatamsgIsQEmpty q = true := by
    rw [isQEmpty_iff holds]
    exact List.cons_ne_nil _ _
  have apart : q.rpos ≠ q.wpos := fun same => filled (decide_eq_true same)
  have cut : Ring.items q.circularBuf _ _ _ = _ :: _ := Ring.items_pop holds.read holds.write apart
  rw [holds.items, List.map_cons, List.cons_eq_cons] at cut
  obtain ⟨first, rest⟩ := cut
  refine ⟨{ q with rpos := mpsDatamsgNextQPos q.rpos }, ?_, Ring.next_le holds.read, holds.write, rest.symm⟩
  rw [first]
  exact if_neg filled

/-! ### Runs -/

open BoundedFifo in
/-- A call on a ring that exists, with its answer read off what it returns. -/
def MpsDatamsgList.call (q : MpsDatamsgList α) : Call α → MpsDatamsgList α × Answer α
  | .push buf =>
    let (ret, q', _) := mpsDatamsgEnqueueTail buf (some q)
    (q'.getD q, if ret = 0 then .taken else .refused)
  | .pop =>
    match mpsDatamsgDequeueHead (some q) with
    | (none, q') => (q'.getD q, .nothing)
    | (some buf, q') => (q'.getD q, .got buf)

theorem call_simulates (q : MpsDatamsgList α) (items : List α) (call : BoundedFifo.Call α) (holds : q.Holds items) :
    (q.call call).2 = (BoundedFifo.step maxMpsDatamsgQlen items call).2 ∧
      (q.call call).1.Holds (BoundedFifo.step maxMpsDatamsgQlen items call).1 := by
  cases call with
  | push buf =>
    rcases (length_le_qlen holds).lt_or_eq with room | full
    · obtain ⟨q', entered, holds'⟩ := enqueue_room holds room buf
      rw [MpsDatamsgList.call, entered, BoundedFifo.step, if_pos room]
      exact ⟨rfl, holds'⟩
    · rw [MpsDatamsgList.call, enqueue_full holds full, BoundedFifo.step, if_neg (by omega)]
      exact ⟨rfl, holds⟩
  | pop =>
    cases items with
    | nil =>
      rw [MpsDatamsgList.call, dequeue_nil holds]
      exact ⟨rfl, holds⟩
    | cons buf items =>
      obtain ⟨q', taken, holds'⟩ := dequeue_cons holds
      rw [MpsDatamsgList.call, taken]
      exact ⟨rfl, holds'⟩

/-- After any calls on an initialised ring it has answered as a queue of `maxMpsDatamsgQlen` elements does, every
element accepted has come out once and in order or is still queued, the macro counts those, and a further enqueue
is refused exactly at that number, without a change. -/
theorem datamsg_queue_refines_fifo (q : MpsDatamsgList α) (calls : List (BoundedFifo.Call α)) :
    let ring := last MpsDatamsgList.call (mpsDatamsgQueueInit q) calls
    let fifo := last (BoundedFifo.step maxMpsDatamsgQlen) [] calls
    let replies := answers MpsDatamsgList.call (mpsDatamsgQueueInit q) calls
    replies = answers (BoundedFifo.step maxMpsDatamsgQlen) [] calls ∧
      BoundedFifo.accepted calls replies = BoundedFifo.delivered replies ++ fifo ∧
      mpsDatamsgGetQCount ring = fifo.length ∧ fifo.length ≤ maxMpsDatamsgQlen ∧
      ∀ buf, ((mpsDatamsgEnqueueTail buf (some ring)).1 ≠ 0 ↔ fifo.length = maxMpsDatamsgQlen) ∧
        ((mpsDatamsgEnqueueTail buf (some ring)).1 ≠ 0 → (mpsDatamsgEnqueueTail buf (some ring)).2.1 = some ring) := by
  obtain ⟨same, holds⟩ := refines call_simulates (init_holds q) calls
  intro ring fifo replies
  have order := BoundedFifo.accepted_delivered maxMpsDatamsgQlen [] calls
  rw [List.nil_append, ← same] at order
  refine ⟨same, order, getQCount_eq holds, length_le_qlen holds, fun buf => ?_⟩
  rcases (length_le_qlen holds).lt_or_eq with room | full
  · obtain ⟨q', entered, -⟩ := enqueue_room holds room buf
    rw [entered]
    refine ⟨⟨fun refused => absurd rfl refused, fun full => ?_⟩, fun refused => absurd rfl refused⟩
    exact absurd full (Nat.ne_of_lt room)
  · rw [enqueue_full holds full]
    exact ⟨⟨fun _ => full, fun _ => show (-12 : Int) ≠ 0 by decide⟩, fun _ => rfl⟩

end TwinpassGateway.Mps
