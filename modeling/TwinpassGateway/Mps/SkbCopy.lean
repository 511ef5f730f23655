import TwinpassGateway.Mps.Headroom

/-!
`ifx_mps_skb_copy` of `mps_tpe_linux.c`: the copy of a packet, its headroom included, in a buffer of the pool.
-/

namespace TwinpassGateway.Mps

open Foundation

/-- The function of the kernel takes over when the packet is not an MPS buffer. -/
def ifxMpsSkbCopy (skbCopy : Skbs → U32 → Except Fault (U32 × Skbs)) (s : Skbs) (skb : U32) (seq : Nat) :
    Except Fault (U32 × Skbs) :=
  let old := s.skb skb
  let headerlen := old.data - old.head
  if ifxMpsIsMpsBuffer skb = false then skbCopy s skb
  else
    let (n, s) := s.fastAlloc (old.end_ - old.head + old.dataLen) seq
    if n = 0 then .ok (0, s)
    else
      match skbFill mpsSkbCopyBits s skb n headerlen headerlen with
      | .error f => .error f
      | .ok s => .ok (n, s)

/-- The packet at `n` is a faithful copy of the one at `skb`, which is as it was before the call. -/
structure Skbs.Copied (s : Skbs) (skb : U32) (s' : Skbs) (n : U32) : Prop where
  other : n ≠ skb
  apart : ∀ a ∈ s'.mem.areas, a.Spans (s'.skb n).head.toNat (s'.skb n).end_.toNat →
    ¬ a.Spans (s.skb skb).head.toNat (s.skb skb).end_.toNat
  formed : (s'.skb n).WellFormed s'.mem
  headroom : (s'.skb n).headroom = (s.skb skb).headroom
  front : ∀ k, -(s.skb skb).headroom ≤ k → k < 0 → (s'.skb n).byteAt s'.mem k = (s.skb skb).byteAt s.mem k
  len : (s'.skb n).len = (s.skb skb).len
  payload : (s'.skb n).payload s'.mem = (s.skb skb).payload s.mem
  mac : (s'.skb n).mac - (s'.skb n).data = (s.skb skb).mac - (s.skb skb).data
  nh : (s'.skb n).nh - (s'.skb n).data = (s.skb skb).nh - (s.skb skb).data
  h : (s'.skb n).h - (s'.skb n).data = (s.skb skb).h - (s.skb skb).data
  original : s'.skb skb = s.skb skb
  bytes : ∀ a : U32, (s.skb skb).head.toNat ≤ a.toNat → a.toNat < (s.skb skb).end_.toNat →
    s'.mem.byte a = s.mem.byte a

section Copy

variable {s : Skbs} {skb n : U32} {seq : Nat} {mem : AreaMem 32 U8} {old new : SkBuff}

theorem headerlen_toNat (formed : old.WellFormed mem) :
    (old.data - old.head).toNat = old.data.toNat - old.head.toNat :=
  BitVec.toNat_sub_of_le (BitVec.le_def.mpr formed.data)

theorem headerlen_headroom (formed : old.WellFormed mem) : ((old.data - old.head).toNat : Int) = old.headroom := by
  have low := formed.data
  rw [headerlen_toNat formed]
  unfold SkBuff.headroom
  omega

def Skbs.copied (s : Skbs) (buffers : MpsBuffers) (skb n : U32) : Skbs :=
  let old := s.skb skb
  { ({ s with buffers } : Skbs).setSkb n
      (copySkbHeader ((s.skb n).filled (old.data - old.head) old.len) old) with
    mem := old.copyTo s.mem (s.skb n).head (old.data - old.head).toInt }

theorem copied_skb (s : Skbs) (buffers : MpsBuffers) (skb n : U32) : (s.copied buffers skb n).skb n =
    copySkbHeader ((s.skb n).filled ((s.skb skb).data - (s.skb skb).head) (s.skb skb).len) (s.skb skb) :=
  Function.update_self _ _ _

theorem copied_other (pool : s.PoolBuffer skb n) (buffers : MpsBuffers) :
    (s.copied buffers skb n).skb skb = s.skb skb :=
  Function.update_of_ne pool.other.symm _ _

/-- The bytes that are copied stay inside the area of the buffer. -/
theorem copied_inside (pool : s.PoolBuffer skb n) (fits : (s.skb n).Fits (s.skb skb).headroom (s.skb skb).len.toNat 0) :
    ∃ a ∈ s.mem.areas, a.Spans (s.skb n).head.toNat (s.skb n).end_.toNat ∧
      (s.skb n).head.toNat + ((s.skb skb).headroom + (s.skb skb).len.toNat).toNat ≤ (s.skb n).end_.toNat := by
  obtain ⟨a, member, spans⟩ := pool.formed.area
  have inner := pool.formed.data.trans (pool.formed.tail.trans pool.formed.stop)
  have low := pool.formed.data
  have high := fits.high
  exact ⟨a, member, spans, by omega⟩

theorem skbCopy_eq (skbCopy : Skbs → U32 → Except Fault (U32 × Skbs)) (mps : ifxMpsIsMpsBuffer skb = true)
    (formed : (s.skb skb).WellFormed s.mem) (linear : (s.skb skb).dataLen = 0#32)
    (handed : s.buffers.poolBuffer seq = n) (nonzero : n ≠ 0) (pool : s.PoolBuffer skb n)
    (fits : (s.skb n).Fits (s.skb skb).headroom (s.skb skb).len.toNat 0) :
    ∃ buffers, ifxMpsSkbCopy skbCopy s skb seq = .ok (n, s.copied buffers skb n) := by
  obtain ⟨buffers, given⟩ := fastAlloc_eq s ((s.skb skb).end_ - (s.skb skb).head + (s.skb skb).dataLen) seq
  have room := headerlen_headroom formed
  have span := formed.span
  have low := formed.data
  have tail := formed.tail
  have stop := formed.stop
  have front : ((s.skb skb).data - (s.skb skb).head).toNat + ((s.skb skb).tail.toNat - (s.skb skb).data.toNat) <
      2 ^ 31 := by
    rw [headerlen_toNat formed]
    omega
  obtain ⟨a, member, spans, inside⟩ := copied_inside pool fits
  have complete : s.mem.Inside (s.skb n).head.toNat
      (((s.skb skb).data - (s.skb skb).head).toNat + (s.skb skb).len.toNat) :=
    ⟨a, member, spans.mono (Nat.le_refl _) (by omega)⟩
  have copies := (mps_copies_when formed pool fits front).2 ⟨linear, complete⟩
  have word : (s.skb skb).headroom % 2 ^ 32 = ((s.skb skb).data - (s.skb skb).head).toNat := by
    rw [← room]
    exact toNat_emod _
  have put := skbPut_eq pool.empty.2 (formed_of_fits pool.formed pool.empty word fits).1.stop
  have filled : skbFill mpsSkbCopyBits { s with buffers } skb n ((s.skb skb).data - (s.skb skb).head)
      ((s.skb skb).data - (s.skb skb).head) = .ok (s.copied buffers skb n) := skbFill_eq put copies.2
  refine ⟨buffers, ?_⟩
  unfold ifxMpsSkbCopy
  dsimp only
  rw [if_neg (by simp [mps]), given, handed]
  dsimp only
  rw [if_neg nonzero, filled]

theorem copied_bytes (formed : (s.skb skb).WellFormed s.mem) (pool : s.PoolBuffer skb n)
    (fits : (s.skb n).Fits (s.skb skb).headroom (s.skb skb).len.toNat 0) (buffers : MpsBuffers) (a : U32)
    (low : (s.skb skb).head.toNat ≤ a.toNat) (high : a.toNat < (s.skb skb).end_.toNat) :
    (s.copied buffers skb n).mem.byte a = s.mem.byte a := by
  obtain ⟨own, ownMember, ownSpans⟩ := formed.area
  obtain ⟨new, newMember, newSpans, inside⟩ := copied_inside pool fits
  have room := headerlen_headroom formed
  have begin := formed.data
  have span := formed.span
  have tail := formed.tail
  have stop := formed.stop
  have signed : ((s.skb skb).data - (s.skb skb).head).toInt = (s.skb skb).headroom := by
    rw [← room]
    apply toInt_of_small
    rw [headerlen_toNat formed]
    omega
  refine if_neg fun within => ?_
  rw [signed] at within
  have place : a.toNat = (s.skb n).head.toNat + (a - (s.skb n).head).toNat := by
    have bound := (s.skb n).end_.isLt
    have sum : a = (s.skb n).head + (a - (s.skb n).head) := by bv_omega
    have sumNat := congrArg BitVec.toNat sum
    rw [BitVec.toNat_add, Nat.mod_eq_of_lt (by omega)] at sumNat
    exact sumNat
  have same : own = new := AreaMem.area_unique ownMember newMember
    (ownSpans.mono low (by omega)) (newSpans.mono (by omega) (by omega))
  exact pool.apart new newMember newSpans (same ▸ ownSpans)

theorem header_offset (new old : SkBuff) :
    (copySkbHeader new old).h - new.data = old.h - old.data ∧
      (copySkbHeader new old).nh - new.data = old.nh - old.data ∧
      (copySkbHeader new old).mac - new.data = old.mac - old.data := by
  have shift : ∀ x : U32, x + (new.data - old.data) - new.data = x - old.data := fun x => by bv_omega
  exact ⟨shift _, shift _, shift _⟩

/-- With no headroom of the buffer itself, the bytes in front of the data come out where they were. -/
theorem copied_front (formed : (s.skb skb).WellFormed s.mem) (pool : s.PoolBuffer skb n)
    (fits : (s.skb n).Fits (s.skb skb).headroom (s.skb skb).len.toNat 0) (flush : (s.skb n).data = (s.skb n).head)
    (buffers : MpsBuffers) {k : Int} (low : -(s.skb skb).headroom ≤ k) (early : k < 0) :
    ((s.copied buffers skb n).skb n).byteAt (s.copied buffers skb n).mem k = (s.skb skb).byteAt s.mem k := by
  have room := headerlen_headroom formed
  have small := fits.small pool.formed
  have begin := formed.data
  have span := formed.span
  have tail := formed.tail
  have stop := formed.stop
  have short : ((s.skb skb).data - (s.skb skb).head).toNat < 2 ^ 31 := by
    rw [headerlen_toNat formed]
    omega
  have start : 0 ≤ ((s.skb n).len + (s.skb skb).len - (s.skb n).dataLen).toInt := by
    rw [pool.empty.1, pool.empty.2, BitVec.zero_add, BitVec.sub_zero, toInt_of_small small]
    omega
  have here : ((s.copied buffers skb n).skb n).byteAt (s.copied buffers skb n).mem k =
      (s.copied buffers skb n).mem.byte
        ((s.skb n).data + ((s.skb skb).data - (s.skb skb).head) + BitVec.ofInt 32 k) := by
    rw [copied_skb]
    exact if_pos (lt_of_lt_of_le early start)
  have place : ((s.skb n).data + ((s.skb skb).data - (s.skb skb).head) + BitVec.ofInt 32 k - (s.skb n).head).toNat =
      (s.skb skb).headroom + k := by
    have cancel : ∀ a d x : U32, a + d + x - a = d + x := fun a d x => by bv_omega
    rw [flush, cancel, toNat_add_of_fits (x := k) (by rw [BitVec.toNat_ofInt]; omega) (by omega) (by omega), room]
  have inside : ((s.skb n).data + ((s.skb skb).data - (s.skb skb).head) + BitVec.ofInt 32 k - (s.skb n).head).toNat <
      (((s.skb skb).data - (s.skb skb).head).toInt + (s.skb skb).len.toNat).toNat := by
    rw [toInt_of_small short]
    omega
  rw [here]
  refine (if_pos inside).trans ?_
  rw [place, toInt_of_small short, room]
  congr 1
  omega

theorem copied_headroom (formed : (s.skb skb).WellFormed s.mem)
    (fits : (s.skb n).Fits (s.skb skb).headroom (s.skb skb).len.toNat 0) (buffers : MpsBuffers) :
    ((s.copied buffers skb n).skb n).headroom = (s.skb n).headroom + (s.skb skb).headroom := by
  have room := headerlen_headroom formed
  have bound := (s.skb n).end_.isLt
  have low := fits.low
  have high := fits.high
  have word : (s.skb skb).headroom % 2 ^ 32 = ((s.skb skb).data - (s.skb skb).head).toNat := by
    rw [← room]
    exact toNat_emod _
  have data : (((s.skb n).data + ((s.skb skb).data - (s.skb skb).head)).toNat : Int) =
      (s.skb n).data.toNat + (s.skb skb).headroom := toNat_add_of_fits word (by omega) (by omega)
  have here : ((s.copied buffers skb n).skb n).headroom =
      (((s.skb n).data + ((s.skb skb).data - (s.skb skb).head)).toNat : Int) - (s.skb n).head.toNat := by
    rw [copied_skb]
    rfl
  rw [here, data]
  unfold SkBuff.headroom
  omega

/-- The room is reserved behind the `data` of the buffer, so its own headroom comes on top. -/
theorem flush_of_copied {skbCopy : Skbs → U32 → Except Fault (U32 × Skbs)} {s' : Skbs} {r : U32}
    (mps : ifxMpsIsMpsBuffer skb = true) (formed : (s.skb skb).WellFormed s.mem)
    (linear : (s.skb skb).dataLen = 0#32) (handed : s.buffers.poolBuffer seq = n) (nonzero : n ≠ 0)
    (pool : s.PoolBuffer skb n) (fits : (s.skb n).Fits (s.skb skb).headroom (s.skb skb).len.toNat 0)
    (done : ifxMpsSkbCopy skbCopy s skb seq = .ok (r, s')) (copied : s.Copied skb s' r) :
    (s.skb n).data = (s.skb n).head := by
  obtain ⟨buffers, result⟩ := skbCopy_eq skbCopy mps formed linear handed nonzero pool fits
  obtain ⟨rfl, rfl⟩ := Prod.mk.inj (Except.ok.inj (result.symm.trans done))
  have same := copied.headroom
  rw [copied_headroom formed fits buffers] at same
  apply BitVec.eq_of_toNat_eq
  unfold SkBuff.headroom at same
  omega

theorem copied_of_flush (formed : (s.skb skb).WellFormed s.mem) (pool : s.PoolBuffer skb n)
    (fits : (s.skb n).Fits (s.skb skb).headroom (s.skb skb).len.toNat 0) (flush : (s.skb n).data = (s.skb n).head)
    (buffers : MpsBuffers) : s.Copied skb (s.copied buffers skb n) n := by
  have small := fits.small pool.formed
  have begin := formed.data
  have span := formed.span
  have tail := formed.tail
  have stop := formed.stop
  have len := formed.len
  have headerlen := headerlen_toNat formed
  have word : (s.skb skb).headroom % 2 ^ 32 = ((s.skb skb).data - (s.skb skb).head).toNat := by
    rw [← headerlen_headroom formed]
    exact toNat_emod _
  obtain ⟨a, member, spans, inside⟩ := copied_inside pool fits
  have short := s.mem.short a member
  have low := spans.1
  have high := spans.2
  unfold Area.stop at high
  have room := headerlen_headroom formed
  have payload : (copySkbHeader ((s.skb n).filled ((s.skb skb).data - (s.skb skb).head) (s.skb skb).len)
      (s.skb skb)).payload (s.copied buffers skb n).mem = (s.skb skb).payload s.mem := by
    refine (payload_iff_carries pool.empty small ?_).mpr (carries_of_aligned (by rw [flush]) (by omega))
    rw [toInt_of_small (by omega)]
    omega
  have areas : (s.copied buffers skb n).mem.areas = s.mem.areas := rfl
  have stays : (copySkbHeader ((s.skb n).filled ((s.skb skb).data - (s.skb skb).head) (s.skb skb).len)
      (s.skb skb)).WellFormed (s.copied buffers skb n).mem :=
    formed_header areas (formed_of_fits pool.formed pool.empty word fits).1
  obtain ⟨h, nh, mac⟩ :=
    header_offset ((s.skb n).filled ((s.skb skb).data - (s.skb skb).head) (s.skb skb).len) (s.skb skb)
  have skb' := copied_skb s buffers skb n
  exact
    { other := pool.other
      apart := by rw [skb']; exact pool.apart
      formed := by rw [skb']; exact stays
      headroom := by
        rw [copied_headroom formed fits buffers]
        unfold SkBuff.headroom
        rw [flush]
        omega
      front := fun k low early => copied_front formed pool fits flush buffers low early
      len := by
        rw [skb']
        show (s.skb n).len + _ = _
        rw [pool.empty.1, BitVec.zero_add]
      payload := by rw [skb']; exact payload
      mac := by rw [skb']; exact mac
      nh := by rw [skb']; exact nh
      h := by rw [skb']; exact h
      original := copied_other pool buffers
      bytes := fun a low high => copied_bytes formed pool fits buffers a low high }

end Copy

/-- The copy is faithful exactly when the buffer of the pool has no headroom of its own: the bytes go to its `head`,
but the packet begins behind its `data`. -/
theorem skb_copied_iff (skbCopy : Skbs → U32 → Except Fault (U32 × Skbs)) (s : Skbs) (skb n : U32) (seq : Nat)
    (mps : ifxMpsIsMpsBuffer skb = true) (formed : (s.skb skb).WellFormed s.mem)
    (linear : (s.skb skb).dataLen = 0#32) (handed : s.buffers.poolBuffer seq = n) (nonzero : n ≠ 0)
    (pool : s.PoolBuffer skb n) (fits : (s.skb n).Fits (s.skb skb).headroom (s.skb skb).len.toNat 0) :
    (∃ r s', ifxMpsSkbCopy skbCopy s skb seq = .ok (r, s') ∧ s.Copied skb s' r) ↔
      (s.skb n).data = (s.skb n).head := by
  constructor
  · intro ⟨r, s', done, copied⟩
    exact flush_of_copied mps formed linear handed nonzero pool fits done copied
  · intro flush
    obtain ⟨buffers, done⟩ := skbCopy_eq skbCopy mps formed linear handed nonzero pool fits
    exact ⟨n, _, done, copied_of_flush formed pool fits flush buffers⟩

/-- The four bytes, with a buffer whose data would begin at its `head`. -/
def flushBytes : Skbs :=
  fourBytes.setSkb 0x200#32 { fourBytes.skb 0x200#32 with data := 0x2000#32, tail := 0x2000#32 }

theorem flushBytes_copied : ∃ r s', ifxMpsSkbCopy (fun s _ => .ok (0, s)) flushBytes 0x100#32 10 = .ok (r, s') ∧
    flushBytes.Copied 0x100#32 s' r := by
  have formed : (flushBytes.skb 0x100#32).WellFormed flushBytes.mem :=
    ⟨by decide, by decide, by decide, ⟨⟨0x1000#32, 0x40⟩, by decide, by decide⟩, by decide⟩
  have pool : flushBytes.PoolBuffer 0x100#32 0x200#32 := by
    refine ⟨by decide, ⟨?_, ?_, ?_, ⟨⟨0x2000#32, 0x100⟩, ?_, ?_⟩, ?_⟩, ?_, ?_⟩ <;> decide
  exact (skb_copied_iff (fun s _ => .ok (0, s)) flushBytes 0x100#32 0x200#32 10 (by decide) formed (by decide) rfl
    (by decide) pool ⟨by decide, by decide, by decide⟩).mpr rfl

/-- In the buffer as `dev_alloc_skb` leaves it, the copy has 32 bytes of headroom instead of 16. -/
theorem fourBytes_not_copied : ¬ ∃ r s',
    ifxMpsSkbCopy (fun s _ => .ok (0, s)) fourBytes 0x100#32 10 = .ok (r, s') ∧ fourBytes.Copied 0x100#32 s' r := by
  intro ⟨r, s', done, copied⟩
  have handed : fourBytes.buffers.poolBuffer 10 = 0x200#32 := rfl
  have flush := flush_of_copied (by decide) fourBytes_formed (by decide) handed (by decide) fourBytes_pool
    ⟨by decide, by decide, by decide⟩ done copied
  exact absurd flush (by decide)

end TwinpassGateway.Mps
