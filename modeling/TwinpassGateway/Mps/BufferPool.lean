import TwinpassGateway.Foundation.Ring
import TwinpassGateway.Foundation.Run
import TwinpassGateway.Mps.Fifo

/-!
The buffer pools shared by the two CPUs: the queues of `mps_tpe_buffer.c`, their use by CPU1
(allocate, free) and their upkeep by CPU0 (top up, release). A call on CPU1 is one step; the loops on
CPU0 take one step per turn, so that calls on CPU1 fall between the turns. A buffer is its address,
and 0 is the null pointer.
-/

namespace TwinpassGateway.Mps

open Foundation

/-- The queues a pool of a service sequence number points to. -/
inductive QueueId where
  | allocQ (seq i : Nat)
  | freeQ (seq i : Nat)
  | defaultFreeList (seq : Nat)
  | mallocBufAllocList (seq : Nat)
  | mallocBufFreeList (seq : Nat)
  deriving DecidableEq

/-- The queues that CPU0 fills and CPU1 empties; it is the other way round for the rest. -/
def QueueId.isPool : QueueId → Bool
  | .allocQ _ _ | .mallocBufAllocList _ => true
  | _ => false

/-- `MPS_BUFF_HEAD`, with the slots behind `circular_buf`. -/
structure MpsBuffHead where
  circularBuf : Nat → U32
  maxcount : Nat
  rpos : Nat
  wpos : Nat

def mpsNextQPos (pos max : Nat) : Nat := if pos < max then pos + 1 else 0

def mpsGetQCount (q : MpsBuffHead) : Nat :=
  if q.rpos ≤ q.wpos then q.wpos - q.rpos else q.wpos + 1 + q.maxcount - q.rpos

/-- `MPS_IS_Q_FULL` of a queue that exists. -/
def mpsIsQFull (q : MpsBuffHead) : Bool := mpsNextQPos q.wpos q.maxcount = q.rpos

/-- `MPS_IS_Q_EMPTY` of a queue that exists. -/
def mpsIsQEmpty (q : MpsBuffHead) : Bool := q.rpos = q.wpos

def mpsSetQItem (q : MpsBuffHead) (buf : U32) : MpsBuffHead :=
  { q with circularBuf := Function.update q.circularBuf q.wpos buf }

def mpsQueueTail (buf : U32) : Option MpsBuffHead → Int × Option MpsBuffHead
  | none => (-22, none)
  | some q =>
    if mpsIsQFull q then (-12, some q)
    else
      let q := mpsSetQItem q buf
      (0, some { q with wpos := mpsNextQPos q.wpos q.maxcount })

def mpsDequeueHead : Option MpsBuffHead → U32 × Option MpsBuffHead
  | none => (0, none)
  | some q =>
    if mpsIsQEmpty q then (0, some q)
    else
      (q.circularBuf q.rpos,
        some
          { q with
            circularBuf := Function.update q.circularBuf q.rpos 0xEEEEEEEE#32
            rpos := mpsNextQPos q.rpos q.maxcount })

/-- `MPS_BUFF_POOL_HEAD`, with the sizes of its `buff_array`. -/
structure MpsBuffPoolHead where
  sizesCount : Nat
  freeHitCount : Nat
  allocHitCount : Nat
  size : Nat → Nat

structure TopupLoop where
  queue : QueueId
  count : Nat
  wpos : Nat

structure ReleaseLoop where
  queue : QueueId
  rpos : Nat
  wpos : Nat

/-- A call on CPU0 that has passed the lock, and how far it is. -/
inductive Cpu0Job where
  | topup (seq i : Nat) (loop : Option TopupLoop)
  | release (seq i : Nat) (loop : Option ReleaseLoop)

structure MpsBuffers where
  /-- `mps_buff_pool_array`. -/
  pool : Nat → Option MpsBuffPoolHead
  queue : QueueId → Option MpsBuffHead
  /-- `mps_list_book_keep_x`. -/
  mpsListBookKeep : Int
  inside : List Cpu0Job
  /-- Calls that the lock has refused and that have not counted it up again. -/
  refused : Nat
  held : List U32
  supplied : List U32
  returned : List U32

/-! ### CPU1 -/

def cpu1RamPhyaddrBegin : U32 := 0x03400000#32

def cpu1RamPhyaddrEnd : U32 := 0x04000000#32

def ifxMpsIsMpsBuffer (buf : U32) : Bool :=
  let phyaddr := buf &&& 0x1fffffff#32
  phyaddr < cpu1RamPhyaddrBegin || phyaddr > cpu1RamPhyaddrEnd

/-- `mps_get_buf_size_entry`: always entry 0, whose size it fills in when it is still missing. -/
def mpsGetBufSizeEntry (p : MpsBuffPoolHead) (size : Nat) : MpsBuffPoolHead :=
  if size ≠ 0 ∧ p.size 0 = 0 then { p with size := Function.update p.size 0 size } else p

namespace MpsBuffers

def setPool (s : MpsBuffers) (seq : Nat) (p : MpsBuffPoolHead) : MpsBuffers :=
  { s with pool := Function.update s.pool seq (some p) }

def setQueue (s : MpsBuffers) (q : QueueId) (h : Option MpsBuffHead) : MpsBuffers :=
  { s with queue := Function.update s.queue q h }

end MpsBuffers

def ifxMpsFastAllocMpsBuf (s : MpsBuffers) (cpuId : MpsCpuId) (size seq : Nat) : U32 × MpsBuffers :=
  if cpuId = .cpu0 then (0, s)
  else
    match s.pool seq with
    | none => (0, s)
    | some p =>
      let s := s.setPool seq (mpsGetBufSizeEntry p size)
      let (buf, q) := mpsDequeueHead (s.queue (.allocQ seq 0))
      (buf, s.setQueue (.allocQ seq 0) q)

def ifxMpsFastFreeMpsBuf (s : MpsBuffers) (cpuId : MpsCpuId) (buf : U32) (truesize seq : Nat) : Int × MpsBuffers :=
  if buf = 0 then (-22, s)
  else if cpuId = .cpu0 then (-1, s)
  else if ifxMpsIsMpsBuffer buf = false then (0, { s with returned := s.returned ++ [buf] })
  else
    match s.pool seq with
    | none => (-12, s)
    | some p =>
      let s := s.setPool seq (mpsGetBufSizeEntry p truesize)
      let id : QueueId := if (s.queue (.freeQ seq 0)).isSome then .freeQ seq 0 else .defaultFreeList seq
      let (ret, q) := mpsQueueTail buf (s.queue id)
      (if ret < 0 then -1 else 0, s.setQueue id q)

def ifxMpsFastAllocMallocBuf (s : MpsBuffers) (cpuId : MpsCpuId) (seq : Nat) : U32 × MpsBuffers :=
  if cpuId = .cpu0 then (0, s)
  else
    match s.pool seq with
    | none => (0, s)
    | some _ =>
      let (buf, q) := mpsDequeueHead (s.queue (.mallocBufAllocList seq))
      (buf, s.setQueue (.mallocBufAllocList seq) q)

def ifxMpsFastFreeMallocBuf (s : MpsBuffers) (cpuId : MpsCpuId) (buf : U32) (seq : Nat) : Int × MpsBuffers :=
  if buf = 0 then (-22, s)
  else if cpuId = .cpu0 then (-1, s)
  else
    match s.pool seq with
    | none => (-12, s)
    | some _ =>
      let (ret, q) := mpsQueueTail buf (s.queue (.mallocBufFreeList seq))
      (if ret < 0 then -1 else 0, s.setQueue (.mallocBufFreeList seq) q)

/-! ### CPU0 -/

def mpsBookKeepingThresh : Nat := 0

/-- The tests before the lists are touched: `some true` when the lock was taken, `some false` when it
was refused, `none` when the call returns at once. -/
def bookKeeping (s : MpsBuffers) (hitCount : Nat) : Option Bool :=
  if u32 (hitCount + 1) > mpsBookKeepingThresh then some (s.mpsListBookKeep - 1 = 0) else none

/-- `atomic_dec_and_test` with its two continuations. -/
def MpsBuffers.locked (s : MpsBuffers) (job : Cpu0Job) (taken : Bool) : MpsBuffers :=
  let s := { s with mpsListBookKeep := s.mpsListBookKeep - 1 }
  if taken then { s with inside := s.inside ++ [job] } else { s with refused := s.refused + 1 }

/-- `ifx_cpu0_topup_q_lists` up to its loop. -/
def ifxCpu0TopupQLists (s : MpsBuffers) (cpuId : MpsCpuId) (seq : Nat) : MpsBuffers :=
  if cpuId = .cpu1 then s
  else
    match s.pool seq with
    | none => s
    | some p =>
      match bookKeeping s p.allocHitCount with
      | none => s.setPool seq { p with allocHitCount := u32 (p.allocHitCount + 1) }
      | some taken => (s.setPool seq { p with allocHitCount := 0 }).locked (.topup seq 0 none) taken

/-- `ifx_cpu0_release_q_lists` up to its loop. -/
def ifxCpu0ReleaseQLists (s : MpsBuffers) (cpuId : MpsCpuId) (seq : Nat) : MpsBuffers :=
  if cpuId = .cpu1 then s
  else
    match s.pool seq with
    | none => s
    | some p =>
      match bookKeeping s p.freeHitCount with
      | none => s.setPool seq { p with freeHitCount := u32 (p.freeHitCount + 1) }
      | some taken => (s.setPool seq { p with freeHitCount := 0 }).locked (.release seq 0 none) taken

def MpsBuffers.sizesCount (s : MpsBuffers) (seq : Nat) : Nat := ((s.pool seq).map (·.sizesCount)).getD 0

/-- The free lists in the order in which `ifx_cpu0_release_q_lists` goes through them. -/
def releaseQueue (sizesCount seq i : Nat) : Option QueueId :=
  if i < sizesCount then some (.freeQ seq i)
  else if i = sizesCount then some (.defaultFreeList seq)
  else if i = sizesCount + 1 then some (.mallocBufFreeList seq)
  else none

/-- One turn of a top-up: start on an entry, add one buffer, or go on to the next entry. `mpsBuf` is
what `alloc_fn` answers if it is asked. The result is the job that remains. -/
def topupStep (s : MpsBuffers) (seq i : Nat) (loop : Option TopupLoop) (mpsBuf : U32) :
    MpsBuffers × Option Cpu0Job :=
  match loop with
  | none =>
    if i < s.sizesCount seq then
      match s.queue (.allocQ seq i) with
      | none => (s, some (.topup seq i none)) -- `alloc_q->maxcount` through a null pointer: the call gets no further
      | some q =>
        if q.maxcount = 0 then (s, some (.topup seq (i + 1) none))
        else (s, some (.topup seq i (some { queue := .allocQ seq i, count := mpsGetQCount q, wpos := q.wpos })))
    else ({ s with mpsListBookKeep := s.mpsListBookKeep + 1 }, none)
  | some l =>
    match s.queue l.queue with
    | none => (s, some (.topup seq (i + 1) none))
    | some q =>
      if l.count < q.maxcount then
        if mpsBuf = 0 then (s.setQueue l.queue (some { q with wpos := l.wpos }), some (.topup seq (i + 1) none))
        else
          let wpos := mpsNextQPos l.wpos q.maxcount
          ({ s.setQueue l.queue (some { mpsSetQItem q mpsBuf with wpos }) with supplied := s.supplied ++ [mpsBuf] },
            some (.topup seq i (some { l with count := l.count + 1, wpos })))
      else (s, some (.topup seq (i + 1) none))

/-- One turn of a release: start on a list, free one buffer, or store the read position and go on. -/
def releaseStep (s : MpsBuffers) (seq i : Nat) (loop : Option ReleaseLoop) : MpsBuffers × Option Cpu0Job :=
  match loop with
  | none =>
    match releaseQueue (s.sizesCount seq) seq i with
    | none => ({ s with mpsListBookKeep := s.mpsListBookKeep + 1 }, none)
    | some id =>
      match s.queue id with
      | none => (s, some (.release seq (i + 1) none))
      | some q => (s, some (.release seq i (some { queue := id, rpos := q.rpos, wpos := q.wpos })))
  | some l =>
    match s.queue l.queue with
    | none => (s, some (.release seq (i + 1) none))
    | some q =>
      if l.rpos ≠ l.wpos then
        ({ s with returned := s.returned ++ [q.circularBuf l.rpos] },
          some (.release seq i (some { l with rpos := mpsNextQPos l.rpos q.maxcount })))
      else (s.setQueue l.queue (some { q with rpos := l.rpos }), some (.release seq (i + 1) none))

def jobStep (s : MpsBuffers) (mpsBuf : U32) : Cpu0Job → MpsBuffers × Option Cpu0Job
  | .topup seq i loop => topupStep s seq i loop mpsBuf
  | .release seq i loop => releaseStep s seq i loop

/-! ### Runs -/

inductive PoolEvent where
  | enterTopup (cpuId : MpsCpuId) (seq : Nat)
  | enterRelease (cpuId : MpsCpuId) (seq : Nat)
  /-- The next turn of the `k`-th call inside, with the allocator's answer. -/
  | turn (k : Nat) (mpsBuf : U32)
  /-- A refused call counts the lock up again. -/
  | retreat
  | allocMps (cpuId : MpsCpuId) (size seq : Nat)
  | freeMps (cpuId : MpsCpuId) (buf : U32) (truesize seq : Nat)
  | allocMalloc (cpuId : MpsCpuId) (seq : Nat)
  | freeMalloc (cpuId : MpsCpuId) (buf : U32) (seq : Nat)

namespace MpsBuffers

def hold (s : MpsBuffers) (buf : U32) : MpsBuffers :=
  if buf = 0 then s else { s with held := s.held ++ [buf] }

/-- A buffer is still held by its caller when the free returned a negative value. -/
def letGo (s : MpsBuffers) (ret : Int) (buf : U32) : MpsBuffers :=
  if ret < 0 then s else { s with held := s.held.erase buf }

def step (s : MpsBuffers) : PoolEvent → MpsBuffers
  | .enterTopup cpuId seq => ifxCpu0TopupQLists s cpuId seq
  | .enterRelease cpuId seq => ifxCpu0ReleaseQLists s cpuId seq
  | .turn k mpsBuf =>
    match s.inside[k]? with
    | none => s
    | some job =>
      let (t, rest) := jobStep s mpsBuf job
      { t with inside := s.inside.take k ++ rest.toList ++ s.inside.drop (k + 1) }
  | .retreat =>
    if s.refused = 0 then s
    else { s with refused := s.refused - 1, mpsListBookKeep := s.mpsListBookKeep + 1 }
  | .allocMps cpuId size seq =>
    let (buf, s) := ifxMpsFastAllocMpsBuf s cpuId size seq
    s.hold buf
  | .freeMps cpuId buf truesize seq =>
    let (ret, s) := ifxMpsFastFreeMpsBuf s cpuId buf truesize seq
    s.letGo ret buf
  | .allocMalloc cpuId seq =>
    let (buf, s) := ifxMpsFastAllocMallocBuf s cpuId seq
    s.hold buf
  | .freeMalloc cpuId buf seq =>
    let (ret, s) := ifxMpsFastFreeMallocBuf s cpuId buf seq
    s.letGo ret buf

/-- The allocator never hands out a buffer that is still outstanding, and callers free what they
hold (or nothing). -/
def Admissible (s : MpsBuffers) : PoolEvent → Prop
  | .turn _ mpsBuf => mpsBuf = 0 ∨ s.supplied.count mpsBuf = s.returned.count mpsBuf
  | .freeMps _ buf _ _ | .freeMalloc _ buf _ => buf = 0 ∨ buf ∈ s.held
  | _ => True

end MpsBuffers

end TwinpassGateway.Mps
