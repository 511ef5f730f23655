import TwinpassGateway.Foundation.Areas
import TwinpassGateway.Mps.BufferPool

/-!
The operations of CPU1 that give a packet more room in a buffer of the pool: `ifx_mps_pskb_expand_head`,
`ifx_mps_skb_realloc_headroom` and `ifx_mps_skb_copy_expand` of `mps_tpe_linux.c`, with what they use of `skbuff.h` and
`skbuff.c`.
-/

namespace TwinpassGateway.Mps

open Foundation

/-- `struct sk_buff`, as far as these functions read or write it. The bytes of its fragments are `paged`, laid end to
end. -/
structure SkBuff where
  head : U32
  data : U32
  tail : U32
  end_ : U32
  h : U32
  nh : U32
  mac : U32
  len : U32
  dataLen : U32
  truesize : U32
  cloned : Bool
  paged : Nat → U8

/-- The packets by the address of their `sk_buff`, and the buffers the two CPUs share. -/
structure Skbs where
  buffers : MpsBuffers
  skb : U32 → SkBuff
  mem : AreaMem 32 U8

inductive Fault where
  /-- `BUG()`, and `skb_over_panic`. -/
  | bug
  /-- A `memcpy` beyond the data area it started in. -/
  | overrun
  deriving DecidableEq

def mpsSkbReserve (b : SkBuff) (len : U32) : SkBuff := { b with data := b.data + len, tail := b.tail + len }

def skbPut (b : SkBuff) (len : U32) : Except Fault SkBuff :=
  if b.dataLen ≠ 0 then .error .bug
  else
    let b := { b with tail := b.tail + len, len := b.len + len }
    if b.tail > b.end_ then .error .bug else .ok b

def copySkbHeader (new old : SkBuff) : SkBuff :=
  let offset := new.data - old.data
  { new with h := old.h + offset, nh := old.nh + offset, mac := old.mac + offset }

def memcpy (mem : AreaMem 32 U8) (dst : U32) (src : U32 → U8) (n : Int) : Except Fault (AreaMem 32 U8) :=
  match mem.blit dst src (BitVec.ofInt 32 n).toNat with
  | none => .error .overrun
  | some mem => .ok mem

/-- The first part of `mps_skb_copy_bits` and of `skb_copy_bits`, with the number of bytes it copies. A refusal is
`-EFAULT`, to which every caller says `BUG()`. -/
def copyLinear (mem : AreaMem 32 U8) (skb : SkBuff) (offset : Int) (dst : U32) (len : Int) :
    Except Fault (AreaMem 32 U8 × Int) :=
  let start := (skb.len - skb.dataLen).toInt
  if offset > skb.len.toInt - len then .error .bug
  else
    let copy := start - offset
    if copy > 0 then
      let copy := if copy > len then len else copy
      (memcpy mem dst (fun k => mem.byte (skb.data + BitVec.ofInt 32 offset + k)) copy).map (·, copy)
    else .ok (mem, 0)

def mpsSkbCopyBits (mem : AreaMem 32 U8) (skb : SkBuff) (offset : Int) (dst : U32) (len : Int) :
    Except Fault (AreaMem 32 U8) :=
  match copyLinear mem skb offset dst len with
  | .error f => .error f
  | .ok (mem, copy) => if len - copy = 0 then .ok mem else .error .bug

/-- The function of the kernel, which goes on with the fragments. -/
def skbCopyBits (mem : AreaMem 32 U8) (skb : SkBuff) (offset : Int) (dst : U32) (len : Int) :
    Except Fault (AreaMem 32 U8) :=
  match copyLinear mem skb offset dst len with
  | .error f => .error f
  | .ok (mem, copied) =>
    let start := (skb.len - skb.dataLen).toInt
    let len := len - copied
    let offset := offset + copied
    if len = 0 then .ok mem
    else
      let copy := start + skb.dataLen.toInt - offset
      if copy > 0 then
        let copy := if copy > len then len else copy
        match memcpy mem (dst + BitVec.ofInt 32 copied)
            (fun k => skb.paged (offset - start + k.toInt).toNat) copy with
        | .error f => .error f
        | .ok mem => if len - copy = 0 then .ok mem else .error .bug
      else .error .bug

namespace Skbs

def setSkb (s : Skbs) (p : U32) (b : SkBuff) : Skbs := { s with skb := Function.update s.skb p b }

/-- `ifx_mps_fast_alloc_mps_buf` in CPU1's build, where alone the packets are MPS buffers; CPU0 gets none. -/
def fastAlloc (s : Skbs) (size : U32) (seq : Nat) : U32 × Skbs :=
  let (n, buffers) := ifxMpsFastAllocMpsBuf s.buffers .cpu1 size.toNat seq
  (n, { s with buffers })

/-- `ifx_mps_fast_free_mps_buf` in CPU1's build. A buffer that is handed back takes its data along. -/
def fastFree (s : Skbs) (n : U32) (seq : Nat) : Skbs :=
  let (ret, buffers) := ifxMpsFastFreeMpsBuf s.buffers .cpu1 n (s.skb n).truesize.toNat seq
  { s with buffers, mem := if ret = 0 then s.mem.release (s.skb n).head else s.mem }

end Skbs

/-- What the three functions have in common: `room` bytes in front, the copy made by `copyBits` of `before` bytes in
front of the data and of the data, and the header. -/
def skbFill (copyBits : AreaMem 32 U8 → SkBuff → Int → U32 → Int → Except Fault (AreaMem 32 U8)) (s : Skbs)
    (skb n room before : U32) : Except Fault Skbs :=
  let old := s.skb skb
  match skbPut (mpsSkbReserve (s.skb n) room) old.len with
  | .error f => .error f
  | .ok new =>
    match copyBits s.mem old (-before.toInt) new.head (before + old.len).toInt with
    | .error f => .error f
    | .ok mem => .ok { s.setSkb n (copySkbHeader new old) with mem }

/-- The functions of the kernel that take over when the packet is not an MPS buffer. -/
structure KernelSkb where
  pskbExpandHead : Skbs → U32 → U32 → U32 → Except Fault (Int × Skbs)
  skbReallocHeadroom : Skbs → U32 → U32 → Except Fault (U32 × Skbs)
  skbCopyExpand : Skbs → U32 → U32 → U32 → Except Fault (U32 × Skbs)

def ifxMpsPskbExpandHead (kernel : KernelSkb) (s : Skbs) (skb nhead ntail : U32) (seq : Nat) :
    Except Fault (Int × Skbs) :=
  let old := s.skb skb
  let size := nhead + (old.end_ - old.head) + ntail
  let headerlen := old.data - old.head
  if ifxMpsIsMpsBuffer skb = false then kernel.pskbExpandHead s skb nhead ntail
  else
    let (n, s) := s.fastAlloc size seq
    if n = 0 then .ok (-12, s)
    else
      match skbFill mpsSkbCopyBits s skb n nhead headerlen with
      | .error f => .error f
      | .ok s =>
        let new := s.skb n
        let s := s.setSkb n { new with cloned := true, head := old.head }
        let s := s.setSkb skb { old with cloned := true, head := new.head }
        .ok (0, s.fastFree n seq)

def ifxMpsSkbReallocHeadroom (kernel : KernelSkb) (s : Skbs) (skb headroom : U32) (seq : Nat) :
    Except Fault (U32 × Skbs) :=
  let old := s.skb skb
  let delta := headroom - (old.data - old.head)
  let headerlen := old.data - old.head
  if ifxMpsIsMpsBuffer skb = false then kernel.skbReallocHeadroom s skb headroom
  else
    let size := (if delta.toInt > 0 then delta else 0) + (old.end_ - old.head)
    let (n, s) := s.fastAlloc size seq
    if n = 0 then .ok (0, s)
    else
      let room := if delta ≠ 0 then headroom else old.data - old.head
      match skbFill mpsSkbCopyBits s skb n room headerlen with
      | .error f => .error f
      | .ok s => .ok (n, s)

def ifxMpsSkbCopyExpand (kernel : KernelSkb) (s : Skbs) (skb newheadroom newtailroom : U32) (seq : Nat) :
    Except Fault (U32 × Skbs) :=
  let old := s.skb skb
  if ifxMpsIsMpsBuffer skb = false then kernel.skbCopyExpand s skb newheadroom newtailroom
  else
    let (n, s) := s.fastAlloc (newheadroom + newtailroom + old.end_ - old.head + old.dataLen) seq
    if n = 0 then .ok (0, s)
    else
      match skbFill skbCopyBits s skb n newheadroom newheadroom with
      | .error f => .error f
      | .ok s => .ok (n, s)

/-! ### What the calls promise -/

namespace SkBuff

structure WellFormed (mem : AreaMem 32 U8) (b : SkBuff) : Prop where
  data : b.head.toNat ≤ b.data.toNat
  tail : b.data.toNat ≤ b.tail.toNat
  stop : b.tail.toNat ≤ b.end_.toNat
  area : ∃ a ∈ mem.areas, a.Spans b.head.toNat b.end_.toNat
  len : b.len.toNat = b.tail.toNat - b.data.toNat + b.dataLen.toNat

def headroom (b : SkBuff) : Int := b.data.toNat - b.head.toNat

def tailroom (b : SkBuff) : Int := b.end_.toNat - b.tail.toNat

/-- The byte at distance `k` from `data`; before `tail` it is in the data area or in front of it. -/
def byteAt (mem : AreaMem 32 U8) (b : SkBuff) (k : Int) : U8 :=
  let start := (b.len - b.dataLen).toInt
  if k < start then mem.byte (b.data + BitVec.ofInt 32 k) else b.paged (k - start).toNat

def payload (mem : AreaMem 32 U8) (b : SkBuff) : List U8 := (List.range b.len.toNat).map fun i : Nat => b.byteAt mem i

/-- After `room` more bytes in front, `len` bytes of data fit, and `tail` bytes behind them. -/
structure Fits (b : SkBuff) (room : Int) (len : Nat) (tail : Int) : Prop where
  low : b.head.toNat ≤ b.data.toNat + room
  high : b.data.toNat + room + len ≤ b.end_.toNat
  behind : b.data.toNat + room + len + tail ≤ b.end_.toNat

/-- The byte that a copy to `n->head`, which starts `before` bytes in front of the data of `old`, puts at `p`. -/
def landed (mem : AreaMem 32 U8) (old n : SkBuff) (before : Int) (p : U32) : U8 :=
  let k : Int := (p - n.head).toNat
  if k < before + old.len.toNat then old.byteAt mem (k - before) else mem.byte p

/-- The copy leaves the bytes of `old` where the data of `n` will begin, `room` bytes further on than now. -/
def Carries (mem : AreaMem 32 U8) (old n : SkBuff) (room before : U32) : Prop :=
  ∀ i < old.len.toNat, landed mem old n before.toInt (n.data + room + BitVec.ofNat 32 i) = old.byteAt mem i

end SkBuff

inductive HeadroomCall where
  | pskbExpandHead (nhead ntail : U32)
  | skbReallocHeadroom (headroom : U32)
  | skbCopyExpand (newheadroom newtailroom : U32)

namespace HeadroomCall

def headroom : HeadroomCall → Int
  | pskbExpandHead nhead _ => nhead.toInt
  | skbReallocHeadroom headroom => headroom.toNat
  | skbCopyExpand newheadroom _ => newheadroom.toInt

def tailroom : HeadroomCall → Int
  | pskbExpandHead _ ntail => ntail.toInt
  | skbReallocHeadroom _ => 0
  | skbCopyExpand _ newtailroom => newtailroom.toInt

/-- The call for the packet at `skb`: the packet it gives, none when it fails. -/
def run (kernel : KernelSkb) (s : Skbs) (skb : U32) (seq : Nat) : HeadroomCall → Except Fault (Option U32 × Skbs)
  | pskbExpandHead nhead ntail =>
    (ifxMpsPskbExpandHead kernel s skb nhead ntail seq).map fun (ret, s) => (if ret = 0 then some skb else none, s)
  | skbReallocHeadroom headroom =>
    (ifxMpsSkbReallocHeadroom kernel s skb headroom seq).map fun (n, s) => (if n = 0 then none else some n, s)
  | skbCopyExpand newheadroom newtailroom =>
    (ifxMpsSkbCopyExpand kernel s skb newheadroom newtailroom seq).map fun (n, s) => (if n = 0 then none else some n, s)

/-- The call has failed and left the packet alone, or gives a packet with the room and with the same payload. -/
def Kept (c : HeadroomCall) (s : Skbs) (skb : U32) : Except Fault (Option U32 × Skbs) → Prop
  | .error _ => False
  | .ok (none, s') => s'.skb skb = s.skb skb ∧ s'.mem = s.mem
  | .ok (some r, s') =>
    (s'.skb r).WellFormed s'.mem ∧ c.headroom ≤ (s'.skb r).headroom ∧ c.tailroom ≤ (s'.skb r).tailroom ∧
      (s'.skb r).payload s'.mem = (s.skb skb).payload s.mem

def Suits (mem : AreaMem 32 U8) (old n : SkBuff) : HeadroomCall → Prop
  | pskbExpandHead _ _ => False
  | skbReallocHeadroom headroom =>
    old.dataLen = 0 ∧ n.Fits headroom.toNat old.len.toNat 0 ∧
      mem.Inside n.head.toNat ((old.data - old.head).toNat + old.len.toNat) ∧
      SkBuff.Carries mem old n headroom (old.data - old.head)
  | skbCopyExpand newheadroom newtailroom =>
    n.Fits newheadroom.toInt old.len.toNat newtailroom.toInt ∧ 0 ≤ newheadroom.toInt + old.len.toNat ∧
      SkBuff.Carries mem old n newheadroom newheadroom

end HeadroomCall

/-- The buffer that the pool of a sequence number hands out next. -/
def MpsBuffers.poolBuffer (s : MpsBuffers) (seq : Nat) : U32 :=
  match s.pool seq with
  | none => 0
  | some _ => (mpsDequeueHead (s.queue (.allocQ seq 0))).1

/-- A buffer of the pool is an empty packet of its own. -/
structure Skbs.PoolBuffer (s : Skbs) (skb n : U32) : Prop where
  other : n ≠ skb
  formed : (s.skb n).WellFormed s.mem
  empty : (s.skb n).len = 0#32 ∧ (s.skb n).dataLen = 0#32
  apart : ∀ a ∈ s.mem.areas, a.Spans (s.skb n).head.toNat (s.skb n).end_.toNat →
    ¬ a.Spans (s.skb skb).head.toNat (s.skb skb).end_.toNat

/-! ### Layout -/

section Layout

variable {mem : AreaMem 32 U8} {b : SkBuff}

theorem SkBuff.WellFormed.span (formed : b.WellFormed mem) : b.end_.toNat < b.head.toNat + 2 ^ 31 := by
  obtain ⟨a, member, low, high⟩ := formed.area
  have short := mem.short a member
  unfold Area.stop at high
  omega

theorem toInt_of_small {x : U32} (small : x.toNat < 2 ^ 31) : x.toInt = x.toNat := by
  rw [BitVec.toInt_eq_toNat_cond, if_pos (by omega)]

theorem toNat_ofInt_of_small {x : Int} (low : 0 ≤ x) (high : x < 2 ^ 32) : ((BitVec.ofInt 32 x).toNat : Int) = x := by
  rw [BitVec.toNat_ofInt]
  omega

theorem toNat_add_of_fits {a r : U32} {x : Int} (hx : x % 2 ^ 32 = r.toNat) (low : 0 ≤ a.toNat + x)
    (high : a.toNat + x < 2 ^ 32) : ((a + r).toNat : Int) = a.toNat + x := by
  rw [BitVec.toNat_add]
  omega

theorem toInt_emod (x : U32) : x.toInt % 2 ^ 32 = x.toNat := by
  rw [BitVec.toInt_eq_toNat_cond]
  have := x.isLt
  split <;> omega

theorem toNat_emod (x : U32) : (x.toNat : Int) % 2 ^ 32 = x.toNat := by
  have := x.isLt
  omega

theorem SkBuff.WellFormed.start (formed : b.WellFormed mem) :
    (b.len - b.dataLen).toInt = b.tail.toNat - b.data.toNat := by
  have span := formed.span
  have len := formed.len
  have data := formed.data
  have tail := formed.tail
  have stop := formed.stop
  have linear : (b.len - b.dataLen).toNat = b.tail.toNat - b.data.toNat := by
    rw [BitVec.toNat_sub_of_le (BitVec.le_def.mpr (by omega))]
    omega
  rw [toInt_of_small (by omega), linear]
  omega

end Layout

/-! ### The copy -/

section Copy

variable {mem mem' : AreaMem 32 U8} {b : SkBuff} {dst : U32} {src : U32 → U8} {n x : Int}

theorem memcpy_eq (low : 0 ≤ n) (high : n < 2 ^ 32) (inside : mem.Inside dst.toNat n.toNat) :
    memcpy mem dst src n = .ok (mem.overlay dst src n.toNat) := by
  have count : (BitVec.ofInt 32 n).toNat = n.toNat := by
    have := toNat_ofInt_of_small low high
    omega
  unfold memcpy
  rw [count, AreaMem.blit_some inside]

theorem memcpy_inside (done : memcpy mem dst src n = .ok mem') :
    mem.Inside dst.toNat (BitVec.ofInt 32 n).toNat ∧ mem'.areas = mem.areas := by
  unfold memcpy at done
  split at done
  · cases done
  · next written =>
    cases done
    exact ⟨AreaMem.blit_inside written, AreaMem.blit_areas written⟩

theorem memcpy_count {copy count : Int} (done : (memcpy mem dst src n).map (·, copy) = .ok (mem', count)) :
    memcpy mem dst src n = .ok mem' ∧ copy = count := by
  cases written : memcpy mem dst src n with
  | error f =>
    rw [written] at done
    cases done
  | ok mem₁ =>
    rw [written] at done
    cases done
    exact ⟨rfl, rfl⟩

/-- A copy that starts `x` bytes in front of the data and ends with it takes what is in the data area. -/
theorem copyLinear_front (formed : b.WellFormed mem) (small : b.len.toNat < 2 ^ 31)
    (front : b.data.toNat < b.tail.toNat + x) :
    copyLinear mem b (-x) dst (x + b.len.toNat) =
      (memcpy mem dst (fun k => mem.byte (b.data + BitVec.ofInt 32 (-x) + k)) (b.tail.toNat - b.data.toNat + x)).map
        (·, b.tail.toNat - b.data.toNat + x) := by
  have len := formed.len
  have tail := formed.tail
  unfold copyLinear
  rw [formed.start, toInt_of_small small, if_neg (by omega)]
  simp only [sub_neg_eq_add]
  rw [if_pos (by omega), if_neg (by omega)]

theorem copyLinear_behind (formed : b.WellFormed mem) (small : b.len.toNat < 2 ^ 31)
    (behind : b.tail.toNat + x ≤ b.data.toNat) :
    copyLinear mem b (-x) dst (x + b.len.toNat) = .ok (mem, 0) := by
  unfold copyLinear
  rw [formed.start, toInt_of_small small, if_neg (by omega)]
  simp only [sub_neg_eq_add]
  rw [if_neg (by omega)]

theorem byteAt_front (formed : b.WellFormed mem) {k : Int} (early : k < b.tail.toNat - b.data.toNat) :
    b.byteAt mem k = mem.byte (b.data + BitVec.ofInt 32 k) := by
  unfold SkBuff.byteAt
  rw [formed.start, if_pos early]

theorem byteAt_paged (formed : b.WellFormed mem) {k : Int} (late : b.tail.toNat - b.data.toNat ≤ k) :
    b.byteAt mem k = b.paged (k - (b.tail.toNat - b.data.toNat)).toNat := by
  unfold SkBuff.byteAt
  rw [formed.start, if_neg (by omega)]

/-- The memory after a copy of `b` to `dst`, with `x` bytes in front of it. -/
def SkBuff.copyTo (mem : AreaMem 32 U8) (b : SkBuff) (dst : U32) (x : Int) : AreaMem 32 U8 :=
  mem.overlay dst (fun k => b.byteAt mem (k.toNat - x)) (x + b.len.toNat).toNat

theorem add_ofInt_shift (a k : U32) (x : Int) : a + BitVec.ofInt 32 (-x) + k = a + BitVec.ofInt 32 (k.toNat - x) := by
  rw [Int.sub_eq_add_neg, BitVec.ofInt_add, BitVec.ofInt_natCast, BitVec.ofNat_toNat, BitVec.setWidth_eq,
    BitVec.add_assoc, BitVec.add_comm k]

/-- What is in the data area comes first, then the fragments. -/
theorem skbCopyBits_front (formed : b.WellFormed mem) (small : b.len.toNat < 2 ^ 31)
    (front : b.data.toNat < b.tail.toNat + x) (inside : mem.Inside dst.toNat (x + b.len.toNat).toNat) :
    skbCopyBits mem b (-x) dst (x + b.len.toNat) = .ok (b.copyTo mem dst x) := by
  have bound := AreaMem.inside_bound inside
  have len := formed.len
  have tail := formed.tail
  have pages : b.dataLen.toInt = b.dataLen.toNat := toInt_of_small (by omega)
  obtain ⟨n, count⟩ : ∃ n : Nat, b.tail.toNat - b.data.toNat + x = (n : Int) :=
    ⟨_, (Int.toNat_of_nonneg (by omega)).symm⟩
  have first : mem.Inside dst.toNat n := inside.part (Nat.le_refl _) (by omega)
  have linear : ∀ k : U32, k.toNat < n →
      mem.byte (b.data + BitVec.ofInt 32 (-x) + k) = b.byteAt mem (k.toNat - x) := by
    intro k within
    rw [byteAt_front formed (by omega), add_ofInt_shift]
  unfold skbCopyBits SkBuff.copyTo
  rw [copyLinear_front formed small front, count, memcpy_eq (by omega) (by omega) first]
  simp only [Except.map, Int.toNat_natCast, formed.start]
  by_cases done : x + b.len.toNat - n = 0
  · have all : (x + b.len.toNat).toNat = n := by omega
    rw [if_pos done, all, AreaMem.overlay_congr linear]
  · have rest : b.tail.toNat - b.data.toNat + b.dataLen.toInt - (-x + n) = b.dataLen.toNat := by omega
    have whole : (x + b.len.toNat).toNat = n + b.dataLen.toNat := by omega
    have next : (dst + BitVec.ofNat 32 n).toNat = dst.toNat + n := by
      rw [BitVec.toNat_add, BitVec.toNat_ofNat]
      omega
    have second : (mem.overlay dst (fun k => mem.byte (b.data + BitVec.ofInt 32 (-x) + k)) n).Inside
        (dst + BitVec.ofNat 32 n).toNat ((b.dataLen.toNat : Int)).toNat := by
      rw [next]
      exact inside.part (by omega) (by omega)
    rw [if_neg done, rest, if_pos (by omega), if_neg (by omega), BitVec.ofInt_natCast,
      memcpy_eq (by omega) (by omega) second]
    simp only [Int.toNat_natCast]
    rw [if_pos (by omega), whole, AreaMem.overlay_overlay (by omega) linear]
    intro k within
    have place : (k + BitVec.ofNat 32 n).toNat = k.toNat + n := by
      rw [BitVec.toNat_add, BitVec.toNat_ofNat]
      omega
    rw [byteAt_paged formed (by omega), place, toInt_of_small (by omega)]
    congr 2
    omega

/-- The function of the kernel copies the whole packet, with `x` bytes in front of it. -/
theorem skbCopyBits_eq (formed : b.WellFormed mem) (small : b.len.toNat < 2 ^ 31) (low : 0 ≤ x + b.len.toNat)
    (inside : mem.Inside dst.toNat (x + b.len.toNat).toNat) :
    skbCopyBits mem b (-x) dst (x + b.len.toNat) = .ok (b.copyTo mem dst x) := by
  by_cases front : b.data.toNat < b.tail.toNat + x
  · exact skbCopyBits_front formed small front inside
  · -- nothing of the data area is left, so the fragments are all there is
    have short := AreaMem.inside_short inside
    have len := formed.len
    have tail := formed.tail
    have pages : b.dataLen.toInt = b.dataLen.toNat := toInt_of_small (by omega)
    unfold skbCopyBits SkBuff.copyTo
    rw [copyLinear_behind formed small (by omega)]
    simp only [formed.start, sub_zero, add_zero]
    by_cases none : x + b.len.toNat = 0
    · rw [if_pos none, none]
      rfl
    · have rest : b.tail.toNat - b.data.toNat + b.dataLen.toInt - -x = x + b.len.toNat := by omega
      have here : dst + BitVec.ofInt 32 0 = dst := BitVec.add_zero dst
      rw [if_neg none, rest, if_pos (by omega), if_neg (by omega), here, memcpy_eq low (by omega) inside]
      simp only [Int.sub_self, if_true]
      rw [AreaMem.overlay_congr]
      intro k within
      rw [byteAt_paged formed (by omega), toInt_of_small (by omega)]
      congr 2
      omega

theorem skbCopyBits_negative (formed : b.WellFormed mem) (small : b.len.toNat < 2 ^ 31)
    (negative : x + b.len.toNat < 0) : skbCopyBits mem b (-x) dst (x + b.len.toNat) = .error .bug := by
  have len := formed.len
  have tail := formed.tail
  have pages : b.dataLen.toInt = b.dataLen.toNat := toInt_of_small (by omega)
  unfold skbCopyBits
  rw [copyLinear_behind formed small (by omega)]
  simp only [formed.start, sub_zero, add_zero]
  rw [if_neg (by omega), if_neg (by omega)]

/-- The function of the driver does the same for a packet without fragments. -/
theorem mpsSkbCopyBits_eq (formed : b.WellFormed mem) (small : b.len.toNat < 2 ^ 31) (linear : b.dataLen = 0)
    (low : 0 ≤ x) (inside : mem.Inside dst.toNat (x + b.len.toNat).toNat) :
    mpsSkbCopyBits mem b (-x) dst (x + b.len.toNat) = .ok (b.copyTo mem dst x) := by
  have bound := AreaMem.inside_bound inside
  have len := formed.len
  have tail := formed.tail
  have pages : b.dataLen.toNat = 0 := by rw [linear]; rfl
  unfold mpsSkbCopyBits SkBuff.copyTo
  by_cases front : b.data.toNat < b.tail.toNat + x
  · have all : b.tail.toNat - b.data.toNat + x = x + b.len.toNat := by omega
    rw [copyLinear_front formed small front, all, memcpy_eq (by omega) (by omega) inside]
    simp only [Except.map, Int.sub_self, if_true]
    rw [AreaMem.overlay_congr]
    intro k within
    rw [byteAt_front formed (by omega), add_ofInt_shift]
  · have none : x + b.len.toNat = 0 := by omega
    rw [copyLinear_behind formed small (by omega), none]
    rfl

/-- It comes to its end only for such packets, and when there is room for all it copies. -/
theorem mpsSkbCopyBits_ok {before : U32} (formed : b.WellFormed mem) (small : b.len.toNat < 2 ^ 31)
    (front : before.toNat + (b.tail.toNat - b.data.toNat) < 2 ^ 31) (here : mem.Inside dst.toNat 0)
    (done : mpsSkbCopyBits mem b (-before.toInt) dst (before + b.len).toInt = .ok mem') :
    b.dataLen = 0 ∧ mem.Inside dst.toNat (before.toNat + b.len.toNat) := by
  have len := formed.len
  have tail := formed.tail
  have total : (before + b.len).toNat = before.toNat + b.len.toNat := by
    rw [BitVec.toNat_add]
    omega
  have signed := BitVec.toInt_eq_toNat_cond (before + b.len)
  have start : before.toInt = before.toNat := toInt_of_small (by omega)
  rw [total] at signed
  suffices h : mem.Inside dst.toNat (before.toNat + b.len.toNat) ∧ (b.dataLen.toNat = 0) from
    ⟨BitVec.eq_of_toNat_eq h.2, h.1⟩
  unfold mpsSkbCopyBits copyLinear at done
  rw [formed.start, toInt_of_small small, start, if_neg (by split at signed <;> omega)] at done
  simp only [sub_neg_eq_add] at done
  split at done
  · cases done
  · next mem₁ copy copied =>
    split at done
    · next finished =>
      split at copied
      · obtain ⟨written, count⟩ := memcpy_count copied
        have whole := Int.eq_of_sub_eq_zero finished
        rw [count, ← whole] at written
        have inside := (memcpy_inside written).1
        rw [BitVec.ofInt_toInt, total] at inside
        have short := AreaMem.inside_short inside
        refine ⟨inside, ?_⟩
        split at count <;> split at signed <;> omega
      · cases copied
        have empty : before.toNat + b.len.toNat = 0 := by split at signed <;> omega
        rw [empty]
        exact ⟨here, by omega⟩
    · cases done

end Copy

/-! ### The new packet -/

section Fill

variable {mem mem' : AreaMem 32 U8} {b old n : SkBuff} {room before len : U32} {x t : Int}

theorem toInt_add_of_small {a b : U32} (low : -2 ^ 31 ≤ a.toInt + b.toNat) (high : a.toInt + b.toNat < 2 ^ 31) :
    (a + b).toInt = a.toInt + b.toNat := by
  rw [BitVec.toInt_eq_toNat_cond] at low high ⊢
  rw [BitVec.toInt_eq_toNat_cond, BitVec.toNat_add]
  have := a.isLt
  have := b.isLt
  split at low <;> split <;> omega

def SkBuff.filled (b : SkBuff) (room len : U32) : SkBuff :=
  { b with data := b.data + room, tail := b.tail + room + len, len := b.len + len }

theorem skbPut_ok (done : skbPut (mpsSkbReserve n room) len = .ok b) : b = n.filled room len := by
  unfold skbPut at done
  split at done
  · cases done
  · dsimp only at done
    split at done
    · cases done
    · cases done
      rfl

theorem skbPut_eq (linear : n.dataLen = 0) (fits : (n.filled room len).tail.toNat ≤ n.end_.toNat) :
    skbPut (mpsSkbReserve n room) len = .ok (n.filled room len) := by
  have whole : ¬ (mpsSkbReserve n room).dataLen ≠ 0 := not_not_intro linear
  unfold skbPut
  rw [if_neg whole]
  exact if_neg (Nat.not_lt.mpr fits)

theorem formed_header (areas : mem'.areas = mem.areas) (formed : b.WellFormed mem) :
    (copySkbHeader b old).WellFormed mem' := by
  refine ⟨formed.data, formed.tail, formed.stop, ?_, formed.len⟩
  rw [areas]
  exact formed.area

/-- A packet with the room that was asked for shows that the buffer had it. -/
theorem fits_of_formed (pool : n.WellFormed mem) (empty : n.len = 0#32 ∧ n.dataLen = 0#32)
    (word : x % 2 ^ 32 = room.toNat) (least : -2 ^ 31 ≤ x) (most : x < 2 ^ 32) (formed : (copySkbHeader (n.filled room len) old).WellFormed mem')
    (front : x ≤ (copySkbHeader (n.filled room len) old).headroom)
    (behind : t ≤ (copySkbHeader (n.filled room len) old).tailroom) : n.Fits x len.toNat t := by
  have span := pool.span
  have low := pool.data
  have flat := pool.len
  have tail := pool.tail
  have stop := pool.stop
  have data' : (n.data + room).toNat = (n.data.toNat + room.toNat) % 2 ^ 32 := BitVec.toNat_add ..
  have low' : n.head.toNat ≤ (n.data + room).toNat := formed.data
  have tail' : (n.data + room).toNat ≤ (n.tail + room + len).toNat := formed.tail
  have stop' : (n.tail + room + len).toNat ≤ n.end_.toNat := formed.stop
  have len' : (n.len + len).toNat = (n.tail + room + len).toNat - (n.data + room).toNat + n.dataLen.toNat := formed.len
  have front' : x ≤ (n.data + room).toNat - n.head.toNat := front
  have behind' : t ≤ n.end_.toNat - (n.tail + room + len).toNat := behind
  have nothing : n.len.toNat = 0 := by rw [empty.1]; rfl
  have linear : n.dataLen.toNat = 0 := by rw [empty.2]; rfl
  rw [BitVec.toNat_add] at len'
  have := len.isLt
  constructor <;> omega

/-- Conversely, a buffer with room enough becomes such a packet. -/
theorem formed_of_fits (pool : n.WellFormed mem) (empty : n.len = 0#32 ∧ n.dataLen = 0#32)
    (word : x % 2 ^ 32 = room.toNat) (fits : n.Fits x len.toNat t) :
    (n.filled room len).WellFormed mem ∧ x ≤ (n.filled room len).headroom ∧ t ≤ (n.filled room len).tailroom := by
  have low := pool.data
  have flat := pool.len
  have tail := pool.tail
  have stop := pool.stop
  have bound := n.end_.isLt
  obtain ⟨fitsLow, fitsHigh, fitsBehind⟩ := fits
  have nothing : n.len.toNat = 0 := by rw [empty.1]; rfl
  have linear : n.dataLen.toNat = 0 := by rw [empty.2]; rfl
  have data' : ((n.data + room).toNat : Int) = n.data.toNat + x :=
    toNat_add_of_fits word (by omega) (by omega)
  have tail' : ((n.tail + room + len).toNat : Int) = n.data.toNat + x + len.toNat := by
    have start : ((n.tail + room).toNat : Int) = n.tail.toNat + x := toNat_add_of_fits word (by omega) (by omega)
    rw [toNat_add_of_fits (toNat_emod len) (by omega) (by omega), start]
    omega
  refine ⟨⟨?_, ?_, ?_, pool.area, ?_⟩, ?_, ?_⟩
  · show n.head.toNat ≤ (n.data + room).toNat
    omega
  · show (n.data + room).toNat ≤ (n.tail + room + len).toNat
    omega
  · show (n.tail + room + len).toNat ≤ n.end_.toNat
    omega
  · show (n.len + len).toNat = (n.tail + room + len).toNat - (n.data + room).toNat + n.dataLen.toNat
    rw [empty.1, BitVec.zero_add]
    omega
  · show x ≤ (n.data + room).toNat - n.head.toNat
    omega
  · show t ≤ n.end_.toNat - (n.tail + room + len).toNat
    omega

theorem SkBuff.Fits.small {count : Nat} (fits : n.Fits x count t) (formed : n.WellFormed mem) : count < 2 ^ 31 := by
  have span := formed.span
  have low := fits.low
  have high := fits.high
  omega

theorem payload_iff_carries (empty : n.len = 0#32 ∧ n.dataLen = 0#32) (small : old.len.toNat < 2 ^ 31)
    (low : 0 ≤ before.toInt + old.len.toNat) :
    (copySkbHeader (n.filled room old.len) old).payload (old.copyTo mem n.head before.toInt) = old.payload mem ↔
      SkBuff.Carries mem old n room before := by
  have len : n.len + old.len = old.len := by rw [empty.1, BitVec.zero_add]
  have all : (n.len + old.len - n.dataLen).toInt = old.len.toNat := by
    rw [len, empty.2, BitVec.sub_zero, toInt_of_small small]
  unfold SkBuff.payload SkBuff.Carries
  show List.map _ (List.range (n.len + old.len).toNat) = _ ↔ _
  rw [len, List.map_inj_left]
  refine forall_congr' fun i => ?_
  rw [List.mem_range]
  refine imp_congr_right fun within => ?_
  have here : (copySkbHeader (n.filled room old.len) old).byteAt (old.copyTo mem n.head before.toInt) i =
      SkBuff.landed mem old n before.toInt (n.data + room + BitVec.ofNat 32 i) := by
    have first : (copySkbHeader (n.filled room old.len) old).byteAt (old.copyTo mem n.head before.toInt) i =
        (old.copyTo mem n.head before.toInt).byte (n.data + room + BitVec.ofNat 32 i) := by
      show (if (i : Int) < (n.len + old.len - n.dataLen).toInt then _ else _) = _
      rw [all, if_pos (by omega), BitVec.ofInt_natCast]
      rfl
    rw [first]
    dsimp only [SkBuff.copyTo, AreaMem.overlay, SkBuff.landed]
    by_cases copied : ((n.data + room + BitVec.ofNat 32 i - n.head).toNat : Int) < before.toInt + old.len.toNat
    · rw [if_pos copied, if_pos (by omega)]
    · rw [if_neg copied, if_neg (by omega)]
  rw [here]

end Fill

/-! ### The calls -/

section Calls

variable {copyBits : AreaMem 32 U8 → SkBuff → Int → U32 → Int → Except Fault (AreaMem 32 U8)} {s s' : Skbs}
  {skb n room before : U32} {seq : Nat} {x t : Int} {kernel : KernelSkb}

theorem skbFill_ok (done : skbFill copyBits s skb n room before = .ok s') :
    ∃ mem, copyBits s.mem (s.skb skb) (-before.toInt) (s.skb n).head (before + (s.skb skb).len).toInt = .ok mem ∧
      s' = { s.setSkb n (copySkbHeader ((s.skb n).filled room (s.skb skb).len) (s.skb skb)) with mem } := by
  unfold skbFill at done
  dsimp only at done
  split at done
  · cases done
  · next new put =>
    obtain rfl := skbPut_ok put
    split at done
    · cases done
    · next mem copied =>
      cases done
      exact ⟨mem, copied, rfl⟩

theorem skbFill_eq {mem : AreaMem 32 U8}
    (put : skbPut (mpsSkbReserve (s.skb n) room) (s.skb skb).len = .ok ((s.skb n).filled room (s.skb skb).len))
    (copied : copyBits s.mem (s.skb skb) (-before.toInt) (s.skb n).head (before + (s.skb skb).len).toInt = .ok mem) :
    skbFill copyBits s skb n room before =
      .ok { s.setSkb n (copySkbHeader ((s.skb n).filled room (s.skb skb).len) (s.skb skb)) with mem } := by
  unfold skbFill
  dsimp only
  rw [put]
  dsimp only
  have copied' : copyBits s.mem (s.skb skb) (-before.toInt) ((s.skb n).filled room (s.skb skb).len).head
      (before + (s.skb skb).len).toInt = .ok mem := copied
  rw [copied']

/-- The copy comes to its end exactly when `P`, and then puts the bytes where `copyTo` says. -/
def CopiesWhen (copyBits : AreaMem 32 U8 → SkBuff → Int → U32 → Int → Except Fault (AreaMem 32 U8)) (s : Skbs)
    (skb n before : U32) (P : Prop) : Prop :=
  let copy := copyBits s.mem (s.skb skb) (-before.toInt) (s.skb n).head (before + (s.skb skb).len).toInt
  (∀ mem, copy = .ok mem → P) ∧
    (P → 0 ≤ before.toInt + (s.skb skb).len.toNat ∧
      copy = .ok ((s.skb skb).copyTo s.mem (s.skb n).head before.toInt))

/-- A call that makes a new packet keeps the old one's bytes when there is room, the copy comes to its end, and it
carries them to the right place. -/
theorem fill_kept_iff {P : Prop} (c : HeadroomCall) (buffers : MpsBuffers) (pool : s.PoolBuffer skb n)
    (word : c.headroom % 2 ^ 32 = room.toNat) (least : -2 ^ 31 ≤ c.headroom) (most : c.headroom < 2 ^ 32)
    (copied : (s.skb n).Fits c.headroom (s.skb skb).len.toNat c.tailroom → CopiesWhen copyBits s skb n before P) :
    c.Kept s skb ((skbFill copyBits { s with buffers } skb n room before).map fun s => (some n, s)) ↔
      (s.skb n).Fits c.headroom (s.skb skb).len.toNat c.tailroom ∧ P ∧
        SkBuff.Carries s.mem (s.skb skb) (s.skb n) room before := by
  constructor
  · intro kept
    cases filled : skbFill copyBits { s with buffers } skb n room before with
    | error f =>
      rw [filled] at kept
      exact kept.elim
    | ok s' =>
      obtain ⟨mem, copy, rfl⟩ := skbFill_ok filled
      rw [filled] at kept
      obtain ⟨formed, front, behind, same⟩ := kept
      simp only [Skbs.setSkb, Function.update_self] at formed front behind same
      have fits := fits_of_formed pool.formed pool.empty word least most formed front behind
      have complete := (copied fits).1 mem copy
      obtain ⟨low, eq⟩ := (copied fits).2 complete
      obtain rfl := Except.ok.inj (copy.symm.trans eq)
      exact ⟨fits, complete, (payload_iff_carries pool.empty (fits.small pool.formed) low).mp same⟩
  · intro ⟨fits, complete, carries⟩
    obtain ⟨low, eq⟩ := (copied fits).2 complete
    obtain ⟨formed, front, behind⟩ := formed_of_fits pool.formed pool.empty word fits
    have put := skbPut_eq pool.empty.2 formed.stop
    have filled : skbFill copyBits { s with buffers } skb n room before = _ := skbFill_eq put eq
    rw [filled]
    show SkBuff.WellFormed _ _ ∧ _ ∧ _ ∧ _
    simp only [Skbs.setSkb, Function.update_self]
    have areas : ((s.skb skb).copyTo s.mem (s.skb n).head before.toInt).areas = s.mem.areas := rfl
    have same := (payload_iff_carries pool.empty (fits.small pool.formed) low).mpr carries
    exact ⟨formed_header areas formed, front, behind, same⟩

theorem fastAlloc_eq (s : Skbs) (size : U32) (seq : Nat) :
    ∃ buffers, s.fastAlloc size seq = (s.buffers.poolBuffer seq, { s with buffers }) := by
  unfold Skbs.fastAlloc ifxMpsFastAllocMpsBuf MpsBuffers.poolBuffer
  rw [if_neg (by decide)]
  cases s.buffers.pool seq with
  | none => exact ⟨_, rfl⟩
  | some p => exact ⟨_, rfl⟩

theorem copyLinear_areas {mem mem' : AreaMem 32 U8} {b : SkBuff} {offset len count : Int} {dst : U32}
    (done : copyLinear mem b offset dst len = .ok (mem', count)) : mem'.areas = mem.areas := by
  unfold copyLinear at done
  dsimp only at done
  split at done
  · cases done
  · split at done
    · exact (memcpy_inside (memcpy_count done).1).2
    · cases done
      rfl

theorem mpsSkbCopyBits_areas {mem mem' : AreaMem 32 U8} {b : SkBuff} {offset len : Int} {dst : U32}
    (done : mpsSkbCopyBits mem b offset dst len = .ok mem') : mem'.areas = mem.areas := by
  unfold mpsSkbCopyBits at done
  split at done
  · cases done
  · next mem₁ copy copied =>
    split at done
    · cases done
      exact copyLinear_areas copied
    · cases done

/-- The three pointers of the packet and its `end` stay in its old data area, which is not that of the new `head`. -/
theorem swapped_not_formed (pool : s.PoolBuffer skb n) (formed : (s.skb skb).WellFormed s.mem) {mem : AreaMem 32 U8}
    (areas : mem.areas ⊆ s.mem.areas) :
    ¬ ({ s.skb skb with cloned := true, head := (s.skb n).head } : SkBuff).WellFormed mem := by
  intro ⟨data, tail, stop, ⟨a, member, low, high⟩, _⟩
  obtain ⟨own, ownMember, ownSpans⟩ := formed.area
  obtain ⟨new, newMember, newSpans⟩ := pool.formed.area
  have inner := pool.formed.data.trans (pool.formed.tail.trans pool.formed.stop)
  dsimp only at data tail stop low high
  have isNew : a = new := AreaMem.area_unique (areas member) newMember
    ⟨low, by omega⟩ (newSpans.mono (Nat.le_refl _) inner)
  have outer := formed.data.trans (formed.tail.trans formed.stop)
  have isOwn : a = own := AreaMem.area_unique (areas member) ownMember
    ⟨by omega, high⟩ (ownSpans.mono outer (Nat.le_refl _))
  exact pool.apart new newMember newSpans (isNew ▸ isOwn ▸ ownSpans)

theorem fastFree_areas (s : Skbs) (n : U32) (seq : Nat) : (s.fastFree n seq).mem.areas ⊆ s.mem.areas := by
  unfold Skbs.fastFree
  dsimp only
  split
  · exact AreaMem.areas_release
  · exact List.Subset.refl _

theorem fastFree_skb (s : Skbs) (n : U32) (seq : Nat) : (s.fastFree n seq).skb = s.skb := rfl

theorem expandHead_not_kept (mps : ifxMpsIsMpsBuffer skb = true) (formed : (s.skb skb).WellFormed s.mem)
    (handed : s.buffers.poolBuffer seq = n) (nonzero : n ≠ 0) (pool : s.PoolBuffer skb n) (nhead ntail : U32) :
    ¬ (HeadroomCall.pskbExpandHead nhead ntail).Kept s skb
      ((HeadroomCall.pskbExpandHead nhead ntail).run kernel s skb seq) := by
  intro kept
  unfold HeadroomCall.run ifxMpsPskbExpandHead at kept
  dsimp only at kept
  obtain ⟨buffers, given⟩ := fastAlloc_eq s (nhead + ((s.skb skb).end_ - (s.skb skb).head) + ntail) seq
  rw [if_neg (by simp [mps]), given, handed] at kept
  dsimp only at kept
  rw [if_neg nonzero] at kept
  cases filled : skbFill mpsSkbCopyBits { s with buffers } skb n nhead ((s.skb skb).data - (s.skb skb).head) with
  | error f =>
    rw [filled] at kept
    exact kept
  | ok s' =>
    obtain ⟨mem, copied, rfl⟩ := skbFill_ok filled
    rw [filled] at kept
    have formed' := kept.1
    rw [fastFree_skb] at formed'
    simp only [Skbs.setSkb, Function.update_self] at formed'
    refine swapped_not_formed pool formed ?_ formed'
    have areas : mem.areas = s.mem.areas := mpsSkbCopyBits_areas copied
    rw [← areas]
    exact fastFree_areas _ n seq

theorem room_eq (headroom had : U32) : (if headroom - had ≠ 0 then headroom else had) = headroom := by
  split
  · rfl
  · next same =>
    have sum := BitVec.sub_add_cancel headroom had
    rw [not_not.mp same] at sum
    exact (BitVec.zero_add had).symm.trans sum

theorem result_map (o : Except Fault Skbs) (nonzero : n ≠ 0) :
    (match o with | .error f => .error f | .ok s => .ok (n, s) : Except Fault (U32 × Skbs)).map
      (fun (n, s) => (if n = 0 then none else some n, s)) = o.map fun s => (some n, s) := by
  cases o with
  | error f => rfl
  | ok s =>
    show Except.ok (if n = 0 then none else some n, s) = _
    rw [if_neg nonzero]
    rfl

theorem mps_copies_when (formed : (s.skb skb).WellFormed s.mem) (pool : s.PoolBuffer skb n)
    (fits : (s.skb n).Fits x (s.skb skb).len.toNat t)
    (front : before.toNat + ((s.skb skb).tail.toNat - (s.skb skb).data.toNat) < 2 ^ 31) :
    CopiesWhen mpsSkbCopyBits s skb n before ((s.skb skb).dataLen = 0 ∧
      s.mem.Inside (s.skb n).head.toNat (before.toNat + (s.skb skb).len.toNat)) := by
  have small := fits.small pool.formed
  have signed : before.toInt = before.toNat := toInt_of_small (by omega)
  obtain ⟨a, member, spans⟩ := pool.formed.area
  have inner := pool.formed.data.trans (pool.formed.tail.trans pool.formed.stop)
  refine ⟨fun mem done => ?_, fun ⟨linear, inside⟩ => ⟨by omega, ?_⟩⟩
  · exact mpsSkbCopyBits_ok formed small front ⟨a, member, spans.mono (Nat.le_refl _) inner⟩ done
  · have short := AreaMem.inside_short inside
    rw [toInt_add_of_small (by omega) (by omega)]
    apply mpsSkbCopyBits_eq formed small linear (by omega)
    have count : (before.toInt + (s.skb skb).len.toNat).toNat = before.toNat + (s.skb skb).len.toNat := by omega
    rw [count]
    exact inside

theorem kernel_copies_when (formed : (s.skb skb).WellFormed s.mem) (pool : s.PoolBuffer skb n)
    (fits : (s.skb n).Fits room.toInt (s.skb skb).len.toNat t) :
    CopiesWhen skbCopyBits s skb n room (0 ≤ room.toInt + (s.skb skb).len.toNat) := by
  have small := fits.small pool.formed
  have span := pool.formed.span
  have begin := pool.formed.data
  obtain ⟨low, high, -⟩ := fits
  obtain ⟨a, member, spans⟩ := pool.formed.area
  have least := BitVec.le_toInt room
  unfold CopiesWhen
  rw [toInt_add_of_small (by omega) (by omega)]
  refine ⟨fun mem done => ?_, fun whole => ⟨whole, ?_⟩⟩
  · by_contra negative
    rw [skbCopyBits_negative formed small (by omega)] at done
    cases done
  · apply skbCopyBits_eq formed small whole
    exact ⟨a, member, spans.mono (Nat.le_refl _) (by omega)⟩

theorem reallocHeadroom_kept_iff (mps : ifxMpsIsMpsBuffer skb = true) (formed : (s.skb skb).WellFormed s.mem)
    (handed : s.buffers.poolBuffer seq = n) (nonzero : n ≠ 0) (pool : s.PoolBuffer skb n) (headroom : U32) :
    (HeadroomCall.skbReallocHeadroom headroom).Kept s skb
        ((HeadroomCall.skbReallocHeadroom headroom).run kernel s skb seq) ↔
      (HeadroomCall.skbReallocHeadroom headroom).Suits s.mem (s.skb skb) (s.skb n) := by
  unfold HeadroomCall.run ifxMpsSkbReallocHeadroom
  dsimp only
  generalize size : (if (headroom - ((s.skb skb).data - (s.skb skb).head)).toInt > 0 then
    headroom - ((s.skb skb).data - (s.skb skb).head) else 0) + ((s.skb skb).end_ - (s.skb skb).head) = bytes
  obtain ⟨buffers, given⟩ := fastAlloc_eq s bytes seq
  rw [if_neg (by simp [mps]), given, handed]
  dsimp only
  rw [if_neg nonzero, room_eq, result_map _ nonzero]
  have span := formed.span
  have low := formed.data
  have tail := formed.tail
  have stop := formed.stop
  have headerlen : ((s.skb skb).data - (s.skb skb).head).toNat = (s.skb skb).data.toNat - (s.skb skb).head.toNat :=
    BitVec.toNat_sub_of_le (BitVec.le_def.mpr low)
  have front : ((s.skb skb).data - (s.skb skb).head).toNat + ((s.skb skb).tail.toNat - (s.skb skb).data.toNat) <
      2 ^ 31 := by
    omega
  have filled := fill_kept_iff (.skbReallocHeadroom headroom) buffers pool (toNat_emod headroom)
    (by show _ ≤ (headroom.toNat : Int); omega) (Int.ofNat_lt.mpr headroom.isLt)
    fun fits => mps_copies_when formed pool fits front
  refine filled.trans ⟨?_, ?_⟩
  · intro ⟨fits, ⟨linear, inside⟩, carries⟩
    exact ⟨linear, fits, inside, carries⟩
  · intro ⟨linear, fits, inside, carries⟩
    exact ⟨fits, ⟨linear, inside⟩, carries⟩

theorem copyExpand_kept_iff (mps : ifxMpsIsMpsBuffer skb = true) (formed : (s.skb skb).WellFormed s.mem)
    (handed : s.buffers.poolBuffer seq = n) (nonzero : n ≠ 0) (pool : s.PoolBuffer skb n)
    (newheadroom newtailroom : U32) :
    (HeadroomCall.skbCopyExpand newheadroom newtailroom).Kept s skb
        ((HeadroomCall.skbCopyExpand newheadroom newtailroom).run kernel s skb seq) ↔
      (HeadroomCall.skbCopyExpand newheadroom newtailroom).Suits s.mem (s.skb skb) (s.skb n) := by
  unfold HeadroomCall.run ifxMpsSkbCopyExpand
  dsimp only
  generalize size : newheadroom + newtailroom + (s.skb skb).end_ - (s.skb skb).head + (s.skb skb).dataLen = bytes
  obtain ⟨buffers, given⟩ := fastAlloc_eq s bytes seq
  rw [if_neg (by simp [mps]), given, handed]
  dsimp only
  rw [if_neg nonzero, result_map _ nonzero]
  have range := BitVec.toInt_lt (x := newheadroom)
  have filled := fill_kept_iff (.skbCopyExpand newheadroom newtailroom) buffers pool (toInt_emod newheadroom)
    (BitVec.le_toInt newheadroom) (by show newheadroom.toInt < _; omega) (kernel_copies_when formed pool)
  exact filled

end Calls

/-! ### When a call keeps a packet -/

/-- With no buffer to be had, every call fails and leaves the packet alone. -/
theorem no_buffer_kept {s : Skbs} {skb : U32} {seq : Nat} (kernel : KernelSkb) (mps : ifxMpsIsMpsBuffer skb = true)
    (empty : s.buffers.poolBuffer seq = 0) (c : HeadroomCall) : c.Kept s skb (c.run kernel s skb seq) := by
  have mps' : ¬ ifxMpsIsMpsBuffer skb = false := by simp [mps]
  cases c with
  | pskbExpandHead nhead ntail =>
    obtain ⟨buffers, given⟩ := fastAlloc_eq s (nhead + ((s.skb skb).end_ - (s.skb skb).head) + ntail) seq
    unfold HeadroomCall.run ifxMpsPskbExpandHead
    dsimp only
    rw [if_neg mps', given, empty]
    exact ⟨rfl, rfl⟩
  | skbReallocHeadroom headroom =>
    unfold HeadroomCall.run ifxMpsSkbReallocHeadroom
    dsimp only
    generalize (if (headroom - ((s.skb skb).data - (s.skb skb).head)).toInt > 0 then
      headroom - ((s.skb skb).data - (s.skb skb).head) else 0) + ((s.skb skb).end_ - (s.skb skb).head) = bytes
    obtain ⟨buffers, given⟩ := fastAlloc_eq s bytes seq
    rw [if_neg mps', given, empty]
    exact ⟨rfl, rfl⟩
  | skbCopyExpand newheadroom newtailroom =>
    obtain ⟨buffers, given⟩ := fastAlloc_eq s
      (newheadroom + newtailroom + (s.skb skb).end_ - (s.skb skb).head + (s.skb skb).dataLen) seq
    unfold HeadroomCall.run ifxMpsSkbCopyExpand
    dsimp only
    rw [if_neg mps', given, empty]
    exact ⟨rfl, rfl⟩

theorem headroom_kept_iff (kernel : KernelSkb) (s : Skbs) (skb : U32) (seq : Nat) (c : HeadroomCall)
    (mps : ifxMpsIsMpsBuffer skb = true) (formed : (s.skb skb).WellFormed s.mem)
    (ready : s.buffers.poolBuffer seq ≠ 0 → s.PoolBuffer skb (s.buffers.poolBuffer seq)) :
    c.Kept s skb (c.run kernel s skb seq) ↔
      s.buffers.poolBuffer seq = 0 ∨ c.Suits s.mem (s.skb skb) (s.skb (s.buffers.poolBuffer seq)) := by
  by_cases empty : s.buffers.poolBuffer seq = 0
  · exact iff_of_true (no_buffer_kept kernel mps empty c) (Or.inl empty)
  · have pool := ready empty
    rw [or_iff_right empty]
    cases c with
    | pskbExpandHead nhead ntail =>
      exact iff_of_false (expandHead_not_kept mps formed rfl empty pool nhead ntail) not_false
    | skbReallocHeadroom headroom => exact reallocHeadroom_kept_iff mps formed rfl empty pool headroom
    | skbCopyExpand newheadroom newtailroom =>
      exact copyExpand_kept_iff mps formed rfl empty pool newheadroom newtailroom

/-- The bytes come to the right place when the copy starts as far in front of them as the room is. -/
theorem carries_of_aligned {mem : AreaMem 32 U8} {old n : SkBuff} {room before : U32}
    (aligned : n.data + room = n.head + before) (small : before.toNat + old.len.toNat < 2 ^ 31) :
    SkBuff.Carries mem old n room before := by
  intro i within
  have place : n.data + room + BitVec.ofNat 32 i - n.head = before + BitVec.ofNat 32 i := by
    rw [aligned]
    bv_omega
  have distance : (before + BitVec.ofNat 32 i).toNat = before.toNat + i := by
    rw [BitVec.toNat_add, BitVec.toNat_ofNat]
    omega
  dsimp only [SkBuff.landed]
  rw [place, distance, toInt_of_small (by omega), if_pos (by omega)]
  congr 1
  omega

/-- Four bytes behind 16 bytes of headroom at 0x100, and at 0x200 a buffer as `dev_alloc_skb` leaves it. -/
def fourBytes : Skbs where
  buffers :=
    { pool := fun seq => if seq = 10 then some ⟨1, 0, 0, fun _ => 64⟩ else none
      queue := fun q => if q = .allocQ 10 0 then some ⟨fun _ => 0x200#32, 4, 0, 1⟩ else none
      mpsListBookKeep := 1, inside := [], refused := 0, held := [], supplied := [], returned := [] }
  skb := fun p =>
    if p = 0x100#32 then
      { head := 0x1000#32, data := 0x1010#32, tail := 0x1014#32, end_ := 0x1040#32, h := 0x1010#32, nh := 0x1010#32,
        mac := 0x1010#32, len := 4#32, dataLen := 0#32, truesize := 0x100#32, cloned := false, paged := fun _ => 0#8 }
    else
      { head := 0x2000#32, data := 0x2010#32, tail := 0x2010#32, end_ := 0x2100#32, h := 0#32, nh := 0#32,
        mac := 0#32, len := 0#32, dataLen := 0#32, truesize := 0x200#32, cloned := false, paged := fun _ => 0#8 }
  mem :=
    { byte := fun a => if 0x1010#32 ≤ a ∧ a < 0x1014#32 then (a - 0x100f#32).setWidth 8 else 0#8
      areas := [⟨0x1000#32, 0x40⟩, ⟨0x2000#32, 0x100⟩]
      short := by decide
      bounded := by decide
      apart := by decide }

def fullKernel : KernelSkb :=
  ⟨fun s _ _ _ => .ok (-12, s), fun s _ _ => .ok (0, s), fun s _ _ _ => .ok (0, s)⟩

theorem fourBytes_formed : (fourBytes.skb 0x100#32).WellFormed fourBytes.mem := by
  exact ⟨by decide, by decide, by decide, ⟨⟨0x1000#32, 0x40⟩, by decide, by decide⟩, by decide⟩

theorem fourBytes_pool : fourBytes.PoolBuffer 0x100#32 0x200#32 := by
  have formed : (fourBytes.skb 0x200#32).WellFormed fourBytes.mem :=
    ⟨by decide, by decide, by decide, ⟨⟨0x2000#32, 0x100⟩, by decide, by decide⟩, by decide⟩
  exact ⟨by decide, formed, by decide, by decide⟩

/-- No headroom is asked for, and the 16 bytes of the buffer are those of the packet. -/
theorem fourBytes_realloc_kept : (HeadroomCall.skbReallocHeadroom 0#32).Kept fourBytes 0x100#32
    ((HeadroomCall.skbReallocHeadroom 0#32).run fullKernel fourBytes 0x100#32 10) := by
  have suits : (HeadroomCall.skbReallocHeadroom 0#32).Suits fourBytes.mem (fourBytes.skb 0x100#32)
      (fourBytes.skb 0x200#32) := by
    refine ⟨by decide, ⟨by decide, by decide, by decide⟩, by decide, carries_of_aligned ?_ ?_⟩ <;> decide
  exact (headroom_kept_iff fullKernel fourBytes 0x100#32 10 (.skbReallocHeadroom 0#32) (by decide) fourBytes_formed
    fun _ => fourBytes_pool).mpr (Or.inr suits)

/-- Each of the three calls breaks the packet: only its `head` moves, or the bytes end up too far in front. -/
theorem fourBytes_broken :
    ¬ (HeadroomCall.pskbExpandHead 0#32 0#32).Kept fourBytes 0x100#32
      ((HeadroomCall.pskbExpandHead 0#32 0#32).run fullKernel fourBytes 0x100#32 10) ∧
    ¬ (HeadroomCall.skbReallocHeadroom 32#32).Kept fourBytes 0x100#32
      ((HeadroomCall.skbReallocHeadroom 32#32).run fullKernel fourBytes 0x100#32 10) ∧
    ¬ (HeadroomCall.skbCopyExpand 32#32 0#32).Kept fourBytes 0x100#32
      ((HeadroomCall.skbCopyExpand 32#32 0#32).run fullKernel fourBytes 0x100#32 10) := by
  have handed : fourBytes.buffers.poolBuffer 10 = 0x200#32 := rfl
  refine ⟨?_, ?_, ?_⟩
  · exact expandHead_not_kept (by decide) fourBytes_formed handed (by decide) fourBytes_pool 0#32 0#32
  · rw [reallocHeadroom_kept_iff (by decide) fourBytes_formed handed (by decide) fourBytes_pool]
    intro ⟨_, _, _, carries⟩
    exact absurd (carries 0 (by decide)) (by decide)
  · rw [copyExpand_kept_iff (by decide) fourBytes_formed handed (by decide) fourBytes_pool]
    intro ⟨_, _, carries⟩
    exact absurd (carries 0 (by decide)) (by decide)

end TwinpassGateway.Mps
