import TwinpassGateway.Eth.LoopDetect
import TwinpassGateway.Foundation.Word

/-!
The receive handler of `danube_ppa_eth_d2.c`, `dma_rx_int_handler`: the flag header in front of a packet and the CRC behind
it are cut off, and the packet goes to the fast path, to the stack or away.
-/

namespace TwinpassGateway.Eth

open Foundation

/-- The fields of a linear `sk_buff` that the handler writes. -/
structure RxSkb where
  data : U32
  tail : U32
  end_ : U32
  len : U32
  mac : U32 := 0

inductive Handed where
  | eth1Xmit (s : RxSkb) (ch : U32)
  | netifRx (s : RxSkb)
  | freed

/-- What `dma_device_read` returns, the second word of the packet, and what the handler finds in its calls. -/
structure RxCall where
  skb : U32
  buf : U32
  end_ : U32
  len : BitVec 16
  /-- `dma_buffer_alloc` gave the engine the data of the packet. -/
  inside : buf ≤ end_
  headerVal : U32
  /-- `netif_running`, by the number of the interface. -/
  running : U32 → Bool
  /-- The source address is that of the interface. -/
  looped : Bool
  /-- What `atu_lookup_mac` finds, if it returns 0. -/
  lookup : Option (BitVec 16)

def ethTypeTrans (s : RxSkb) : RxSkb :=
  let s := { s with mac := s.data }
  if 14 > s.len then s else { s with len := s.len - 14, data := s.data + 14 }

namespace RxCall

def byteoff (c : RxCall) : U32 := c.headerVal &&& ((1 <<< 5) - 1)

def tooLarge (c : RxCall) : Prop := c.len.setWidth 32 > c.end_ - c.buf

def trimmed (c : RxCall) : RxSkb :=
  let len := c.len.setWidth 32 - (8 + c.byteoff + 4)
  let data := c.buf + (8 + c.byteoff)
  { data := data, tail := data + len, end_ := c.end_, len := len }

def fastPath (c : RxCall) : Prop := c.headerVal &&& (1 <<< 21 ||| 1 <<< 19 ||| 0xFF000000) = 0x02200000

def srcItf (c : RxCall) : U32 := c.headerVal >>> 23 &&& 0x01

instance (c : RxCall) : Decidable c.tooLarge := inferInstanceAs (Decidable (_ > _))

instance (c : RxCall) : Decidable c.fastPath := inferInstanceAs (Decidable (_ = _))

end RxCall

def getPort (itf : U32) : Nat := if itf = 0 then 0 else 1

def dmaRxIntHandler (c : RxCall) (g : LoopGuard) : List Handed × LoopGuard :=
  if c.skb < 0x80000000 then ([], g)
  else if c.tooLarge then ([.freed], g)
  else if c.fastPath then ([.eth1Xmit c.trimmed (c.headerVal >>> 16 &&& 0x07)], g)
  else if c.running c.srcItf then
    let s := ethTypeTrans c.trimmed
    if getPort c.srcItf = 0 ∧ c.looped then
      let (dropped, g) := loopCheck g c.lookup
      if dropped then ([.freed], g) else ([.netifRx s], g)
    else ([.netifRx s], g)
  else ([.freed], g)

/-! ### What is to hold -/

/-- The packet is in its buffer and as long as what was received between the flag header and the CRC; the stack gets it
behind its Ethernet header. -/
def Handed.WellFormed (received : Int) : Handed → Prop
  | .eth1Xmit s _ => s.data ≤ s.tail ∧ s.tail ≤ s.end_ ∧ (s.len.toNat : Int) = received
  | .netifRx s => s.data ≤ s.tail ∧ s.tail ≤ s.end_ ∧ (s.len.toNat : Int) + (s.data - s.mac).toNat = received
  | .freed => True

/-- A packet that was obtained is handed on or freed once, and well formed if it is handed on. -/
structure RxCall.Disposed (c : RxCall) (handed : List Handed) : Prop where
  once : handed.length = if c.skb < 0x80000000 then 0 else 1
  formed : ∀ h ∈ handed, h.WellFormed (c.len.toNat - (8 + c.byteoff.toNat + 4))

/-- The packet is neither missing nor too large, and its interface is up and not in a known loop. -/
def RxCall.PassedOn (c : RxCall) (g : LoopGuard) : Prop :=
  ¬ c.skb < 0x80000000 ∧ ¬ c.tooLarge ∧
    (c.fastPath ∨ (c.running c.srcItf ∧ ¬ (c.srcItf = 0 ∧ c.looped ∧ g.state ≠ .noLoop)))

/-! ### The lengths -/

variable {c : RxCall} {g : LoopGuard}

theorem byteoff_lt (c : RxCall) : c.byteoff.toNat < 32 := by
  have small : c.byteoff.toNat ≤ 31 := Nat.and_le_right
  omega

def RxCall.LongEnough (c : RxCall) : Prop := 12 + c.byteoff.toNat ≤ c.len.toNat

theorem toNat_len (c : RxCall) : (c.len.setWidth 32).toNat = c.len.toNat := by
  have small := c.len.isLt
  rw [BitVec.toNat_setWidth]
  omega

theorem trimmed_spec (fits : ¬ c.tooLarge) (long : c.LongEnough) :
    c.trimmed.data.toNat = c.buf.toNat + 8 + c.byteoff.toNat ∧
      c.trimmed.len.toNat = c.len.toNat - 12 - c.byteoff.toNat ∧
      c.trimmed.tail.toNat = c.trimmed.data.toNat + c.trimmed.len.toNat ∧ c.trimmed.tail ≤ c.trimmed.end_ := by
  have off := byteoff_lt c
  have len := toNat_len c
  have inside := c.inside
  unfold RxCall.tooLarge at fits
  unfold RxCall.LongEnough at long
  unfold RxCall.trimmed
  dsimp only
  generalize c.len.setWidth 32 = l at *
  generalize c.byteoff = o at *
  bv_omega

theorem trimmed_formed (fits : ¬ c.tooLarge) (long : c.LongEnough) :
    c.trimmed.data ≤ c.trimmed.tail ∧ c.trimmed.tail ≤ c.trimmed.end_ ∧
      (c.trimmed.len.toNat : Int) = c.len.toNat - (8 + c.byteoff.toNat + 4) := by
  obtain ⟨-, len, tail, inside⟩ := trimmed_spec fits long
  unfold RxCall.LongEnough at long
  refine ⟨BitVec.le_def.mpr (by omega), inside, by omega⟩

/-- `eth_type_trans` takes the Ethernet header off, if the packet has one. -/
theorem ethTypeTrans_formed {s : RxSkb} {received : Int} (order : s.data ≤ s.tail) (inside : s.tail ≤ s.end_)
    (tail : s.tail.toNat = s.data.toNat + s.len.toNat) (len : (s.len.toNat : Int) = received) :
    (Handed.netifRx (ethTypeTrans s)).WellFormed received := by
  unfold Handed.WellFormed ethTypeTrans
  dsimp only
  split
  · rw [BitVec.sub_self]
    exact ⟨order, inside, by rw [len]; exact add_zero _⟩
  · rename_i header
    dsimp only
    have bound := s.tail.isLt
    refine ⟨?_, inside, ?_⟩
    · bv_omega
    · have pulled : s.data + 14 - s.data = 14 := by bv_omega
      have rest : (s.len - 14).toNat = s.len.toNat - 14 := by bv_omega
      have long : 14 ≤ s.len.toNat := by bv_omega
      rw [pulled, rest, ← len]
      have fourteen : (14 : U32).toNat = 14 := rfl
      omega

/-- No packet is as long as a negative length. -/
theorem short_not_formed {h : Handed} (short : ¬ c.LongEnough) (handed : h ≠ .freed) :
    ¬ h.WellFormed (c.len.toNat - (8 + c.byteoff.toNat + 4)) := by
  unfold RxCall.LongEnough at short
  unfold Handed.WellFormed
  cases h with
  | eth1Xmit s ch =>
    rintro ⟨-, -, len⟩
    omega
  | netifRx s =>
    rintro ⟨-, -, len⟩
    omega
  | freed => exact absurd rfl handed

/-! ### The handler -/

theorem loopCheck_drops (g : LoopGuard) (lookup : Option (BitVec 16)) :
    (loopCheck g lookup).1 = true ↔ g.state ≠ .noLoop := by
  unfold loopCheck
  cases g.state with
  | noLoop =>
    refine iff_of_false ?_ (fun known => known rfl)
    cases lookup with
    | none => exact Bool.false_ne_true
    | some data =>
      dsimp only
      split_ifs <;> exact not_false
  | port p => exact iff_of_true rfl nofun
  | ports p q => exact iff_of_true rfl nofun

theorem getPort_zero {itf : U32} : getPort itf = 0 ↔ itf = 0 := by
  unfold getPort
  split
  · rename_i zero
    exact iff_of_true rfl zero
  · rename_i other
    exact iff_of_false (by decide) other

/-- Where a packet ends up. -/
theorem handler_cases (c : RxCall) (g : LoopGuard) :
    (c.skb < 0x80000000 ∧ (dmaRxIntHandler c g).1 = []) ∨
      (¬ c.skb < 0x80000000 ∧ ¬ c.PassedOn g ∧ (dmaRxIntHandler c g).1 = [.freed]) ∨
      (c.PassedOn g ∧ ((∃ ch, (dmaRxIntHandler c g).1 = [.eth1Xmit c.trimmed ch]) ∨
        (dmaRxIntHandler c g).1 = [.netifRx (ethTypeTrans c.trimmed)])) := by
  unfold dmaRxIntHandler RxCall.PassedOn
  split
  · rename_i missing
    exact .inl ⟨missing, rfl⟩
  rename_i present
  right
  split
  · rename_i large
    exact .inl ⟨present, fun passed => passed.2.1 large, rfl⟩
  rename_i fits
  split
  · rename_i fast
    exact .inr ⟨⟨present, fits, .inl fast⟩, .inl ⟨_, rfl⟩⟩
  rename_i slow
  split
  · rename_i running
    dsimp only
    split
    · rename_i lan
      obtain ⟨lan, looped⟩ := lan
      have drops := loopCheck_drops g c.lookup
      revert drops
      generalize loopCheck g c.lookup = checked
      intro drops
      split
      · rename_i drop
        refine .inl ⟨present, ?_, rfl⟩
        rintro ⟨-, -, fast | ⟨-, passes⟩⟩
        · exact slow fast
        · exact passes ⟨getPort_zero.mp lan, looped, drops.mp drop⟩
      · rename_i keep
        exact .inr ⟨⟨present, fits, .inr ⟨running, fun known => keep (drops.mpr known.2.2)⟩⟩, .inr rfl⟩
    · rename_i other
      refine .inr ⟨⟨present, fits, .inr ⟨running, fun known => other ⟨getPort_zero.mpr known.1, known.2.1⟩⟩⟩, .inr rfl⟩
  · rename_i down
    refine .inl ⟨present, ?_, rfl⟩
    rintro ⟨-, -, fast | ⟨running, -⟩⟩
    · exact slow fast
    · exact down running

/-- A packet is disposed of as it should be if and only if it is not passed on or is long enough for what is cut off. -/
theorem rx_disposed_iff (c : RxCall) (g : LoopGuard) :
    c.Disposed (dmaRxIntHandler c g).1 ↔ (c.PassedOn g → c.LongEnough) := by
  obtain ⟨missing, handed⟩ | ⟨present, stays, handed⟩ | ⟨passed, handed⟩ := handler_cases c g
  · rw [handed]
    refine iff_of_true ⟨?_, nofun⟩ (fun passed => absurd missing passed.1)
    rw [if_pos missing]
    rfl
  · rw [handed]
    refine iff_of_true ⟨?_, ?_⟩ (fun passed => absurd passed stays)
    · rw [if_neg present]
      rfl
    · intro h member
      rw [List.mem_singleton.mp member]
      exact trivial
  · have single (h : Handed) (is_handed : (dmaRxIntHandler c g).1 = [h]) (kept : h ≠ .freed)
        (formed : c.LongEnough → h.WellFormed (c.len.toNat - (8 + c.byteoff.toNat + 4))) :
        c.Disposed (dmaRxIntHandler c g).1 ↔ (c.PassedOn g → c.LongEnough) := by
      rw [is_handed]
      constructor
      · intro disposed _
        by_contra short
        exact short_not_formed short kept (disposed.formed h (List.mem_singleton_self h))
      · intro long
        refine ⟨(if_neg passed.1).symm, fun h' member => ?_⟩
        rw [List.mem_singleton.mp member]
        exact formed (long passed)
    obtain ⟨ch, fast⟩ | stack := handed
    · exact single _ fast nofun (trimmed_formed passed.2.1)
    · refine single _ stack nofun fun long => ?_
      obtain ⟨order, inside, len⟩ := trimmed_formed passed.2.1 long
      exact ethTypeTrans_formed order inside (trimmed_spec passed.2.1 long).2.2.1 len

def headerOnly : RxCall where
  skb := 0x80001000
  buf := 0x80002000
  end_ := 0x80002700
  len := 8
  inside := by decide
  headerVal := 0x02200000
  running := fun _ => true
  looped := false
  lookup := none

theorem headerOnly_negative :
    ∃ s ch, dmaRxIntHandler headerOnly { regs := fun _ _ => 0 } = ([.eth1Xmit s ch], { regs := fun _ _ => 0 }) ∧
      s.len = 0xFFFFFFFC ∧ s.tail < s.data ∧
      ¬ headerOnly.Disposed (dmaRxIntHandler headerOnly { regs := fun _ _ => 0 }).1 := by
  refine ⟨headerOnly.trimmed, 0, rfl, by decide, by decide, fun disposed => ?_⟩
  have formed := disposed.formed (.eth1Xmit headerOnly.trimmed 0) (List.mem_singleton_self _)
  exact absurd formed.1 (by decide)

end TwinpassGateway.Eth
