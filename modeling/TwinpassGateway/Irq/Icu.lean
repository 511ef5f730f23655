import TwinpassGateway.Foundation.Word
import TwinpassGateway.Foundation.LowestBit

/-!
The interrupt control unit of `interrupt.c`: five modules of 32 interrupts, their masks, and the dispatchers of their
cascades.
-/

namespace TwinpassGateway.Irq

open Foundation

def ls1bit32 (x : U32) : Int :=
  let b : Int := 31
  let s : Nat := if x <<< 16 = 0 then 0 else 16
  let b := b - s
  let x := x <<< s
  let s : Nat := if x <<< 8 = 0 then 0 else 8
  let b := b - s
  let x := x <<< s
  let s : Nat := if x <<< 4 = 0 then 0 else 4
  let b := b - s
  let x := x <<< s
  let s : Nat := if x <<< 2 = 0 then 0 else 2
  let b := b - s
  let x := x <<< s
  let s : Nat := if x <<< 1 = 0 then 0 else 1
  b - s

/-- The registers of the modules, and `DANUBE_EBU_PCC_ISTAT`. -/
structure Icu where
  isr : Fin 5 → U32
  ier : Fin 5 → U32
  ebuPccIstat : U32 := 0

namespace Icu

/-- `DANUBE_ICU_IMn_IOSR`: the status behind the mask. -/
def iosr (s : Icu) (n : Fin 5) : U32 := s.isr n &&& s.ier n

/-- `*DANUBE_ICU_IMn_IER = word`. -/
def setIer (s : Icu) (n : Fin 5) (word : U32) : Icu := { s with ier := Function.update s.ier n word }

/-- `*DANUBE_ICU_IMn_ISR = word`, which clears the bits that are set in the word. -/
def ackIsr (s : Icu) (n : Fin 5) (word : U32) : Icu := { s with isr := Function.update s.isr n (s.isr n &&& ~~~word) }

def icuIr (value : U32) : U32 := (1 : U32) <<< value

/-- The module of an interrupt and what is left of its number, by the comparisons with `INT_NUM_IMn_IRL0` and
`INT_NUM_IMn_IRL31`. -/
def moduleOf (irqNr : U32) : Option (Fin 5 × U32) :=
  if irqNr ≤ 31 ∧ irqNr ≥ 0 then some (0, irqNr)
  else if irqNr ≤ 32 + 31 ∧ irqNr ≥ 32 then some (1, irqNr - 32)
  else if irqNr ≤ 64 + 31 ∧ irqNr ≥ 64 then some (2, irqNr - 64)
  else if irqNr ≤ 96 + 31 ∧ irqNr ≥ 96 then some (3, irqNr - 96)
  else if irqNr ≤ 128 + 31 ∧ irqNr ≥ 128 then some (4, irqNr - 128)
  else none

def disableDanubeIrq (s : Icu) (irqNr : U32) : Icu :=
  match moduleOf irqNr with
  | none => s
  | some (n, value) => s.setIer n (s.ier n &&& ~~~icuIr value)

def maskAndAckDanubeIrq (s : Icu) (irqNr : U32) : Icu :=
  match moduleOf irqNr with
  | none => s
  | some (n, value) => (s.setIer n (s.ier n &&& ~~~icuIr value)).ackIsr n (icuIr value)

def enableDanubeIrq (s : Icu) (irqNr : U32) : Icu :=
  match moduleOf irqNr with
  | none => s
  | some (n, value) => s.setIer n (s.ier n ||| icuIr value)

/-- What `danube_hw0_irqdispatch` does before `do_IRQ`; the interrupt of the EBU is another one on each CPU. -/
def clearEbu (core1 : Bool) (s : Icu) (irq : U32) : Icu :=
  if irq = (if core1 then 26 else 22) then { s with ebuPccIstat := s.ebuPccIstat ||| 0x10 } else s

/-- `danube_hw0_irqdispatch` up to `do_IRQ`, with the interrupt that is handed to it. -/
def danubeHw0Irqdispatch (core1 : Bool) (s : Icu) : Option U32 × Icu :=
  if s.iosr 0 = 0 then (none, s)
  else
    let irq := BitVec.ofInt 32 (ls1bit32 (s.iosr 0))
    (some irq, clearEbu core1 s irq)

/-- The dispatchers of the other modules, which differ in what they add. -/
def irqdispatchOf (n : Fin 5) (base : Int) (s : Icu) : Option U32 × Icu :=
  if s.iosr n = 0 then (none, s) else (some (BitVec.ofInt 32 (ls1bit32 (s.iosr n) + base)), s)

def danubeHw1Irqdispatch : Icu → Option U32 × Icu := irqdispatchOf 1 32

def danubeHw2Irqdispatch : Icu → Option U32 × Icu := irqdispatchOf 2 64

def danubeHw3Irqdispatch : Icu → Option U32 × Icu := irqdispatchOf 3 96

def danubeHw4Irqdispatch : Icu → Option U32 × Icu := irqdispatchOf 4 128

def irqdispatch (core1 : Bool) (s : Icu) : Fin 5 → Option U32 × Icu
  | 0 => danubeHw0Irqdispatch core1 s
  | 1 => danubeHw1Irqdispatch s
  | 2 => danubeHw2Irqdispatch s
  | 3 => danubeHw3Irqdispatch s
  | 4 => danubeHw4Irqdispatch s

end Icu

/-! ### The search -/

theorem ls1bit32_eq {x : U32} (nonzero : x ≠ 0) : ls1bit32 x = x.ctz.toNat := by
  have below := ctz_toNat_lt nonzero
  unfold ls1bit32
  dsimp only
  -- the five widths, each with what it leaves above the bit that is looked for
  generalize def16 : (if x <<< 16 = 0 then 0 else 16 : Nat) = s16
  obtain ⟨nonzero, shift16, step16⟩ := halving nonzero 16 def16.symm
  generalize def8 : (if x <<< s16 <<< 8 = 0 then 0 else 8 : Nat) = s8
  obtain ⟨nonzero, shift8, step8⟩ := halving nonzero 8 def8.symm
  generalize def4 : (if x <<< s16 <<< s8 <<< 4 = 0 then 0 else 4 : Nat) = s4
  obtain ⟨nonzero, shift4, step4⟩ := halving nonzero 4 def4.symm
  generalize def2 : (if x <<< s16 <<< s8 <<< s4 <<< 2 = 0 then 0 else 2 : Nat) = s2
  obtain ⟨nonzero, shift2, step2⟩ := halving nonzero 2 def2.symm
  generalize def1 : (if x <<< s16 <<< s8 <<< s4 <<< s2 <<< 1 = 0 then 0 else 1 : Nat) = s1
  obtain ⟨-, -, step1⟩ := halving nonzero 1 def1.symm
  rw [shift2, shift4, shift8, shift16] at step1
  rw [shift4, shift8, shift16] at step2
  rw [shift8, shift16] at step4
  rw [shift16] at step8
  split at step16 <;> split at step8 <;> split at step4 <;> split at step2 <;> split at step1 <;> omega

def IsLeastBit (x : U32) (k : Fin 32) : Prop := x.getLsbD k = true ∧ ∀ i < k, x.getLsbD i = false

theorem ls1bit32_least {x : U32} (nonzero : x ≠ 0) : ∃ k : Fin 32, ls1bit32 x = k.val ∧ IsLeastBit x k := by
  refine ⟨⟨x.ctz.toNat, ctz_toNat_lt nonzero⟩, ls1bit32_eq nonzero, BitVec.getLsbD_true_ctz_of_ne_zero nonzero, ?_⟩
  intro i below
  exact BitVec.getLsbD_false_of_lt_ctz below

/-! ### Masks -/

namespace Icu

theorem moduleOf_cases (irqNr : U32) :
    (moduleOf irqNr = none ∧ 160 ≤ irqNr.toNat) ∨
      ∃ n value, moduleOf irqNr = some (n, value) ∧ value.toNat < 32 ∧ irqNr.toNat = 32 * n.val + value.toNat := by
  unfold moduleOf
  split
  · refine .inr ⟨0, irqNr, rfl, by bv_omega, ?_⟩
    show irqNr.toNat = 32 * 0 + _
    bv_omega
  split
  · refine .inr ⟨1, irqNr - 32, rfl, by bv_omega, ?_⟩
    show irqNr.toNat = 32 * 1 + _
    bv_omega
  split
  · refine .inr ⟨2, irqNr - 64, rfl, by bv_omega, ?_⟩
    show irqNr.toNat = 32 * 2 + _
    bv_omega
  split
  · refine .inr ⟨3, irqNr - 96, rfl, by bv_omega, ?_⟩
    show irqNr.toNat = 32 * 3 + _
    bv_omega
  split
  · refine .inr ⟨4, irqNr - 128, rfl, by bv_omega, ?_⟩
    show irqNr.toNat = 32 * 4 + _
    bv_omega
  · exact .inl ⟨rfl, by bv_omega⟩

theorem icuIr_bit (value : U32) (i : Fin 32) : (icuIr value).getLsbD i = decide (i.val = value.toNat) := by
  rw [icuIr, BitVec.shiftLeft_eq']
  exact one_shiftLeft_bit value.toNat i.isLt

/-- Interrupt `irqNr` has `value` in the registers of its module, and all others have what they had. -/
def SetsBit (irqNr : U32) (value : Bool) (regs regs' : Fin 5 → U32) : Prop :=
  ∀ n (i : Fin 32), (regs' n).getLsbD i = if irqNr.toNat = 32 * n.val + i.val then value else (regs n).getLsbD i

theorem setsBit_none {irqNr : U32} (absent : 160 ≤ irqNr.toNat) (value : Bool) (regs : Fin 5 → U32) :
    SetsBit irqNr value regs regs := by
  intro n i
  rw [if_neg (by omega)]

theorem setsBit_update {irqNr value word : U32} {n : Fin 5} {bit : Bool} {regs : Fin 5 → U32}
    (number : irqNr.toNat = 32 * n.val + value.toNat) (small : value.toNat < 32)
    (changed : ∀ i : Fin 32, word.getLsbD i = if i.val = value.toNat then bit else (regs n).getLsbD i) :
    SetsBit irqNr bit regs (Function.update regs n word) := by
  intro m i
  by_cases own : m = n
  · subst own
    rw [Function.update_self, changed]
    by_cases same : i.val = value.toNat
    · rw [if_pos same, if_pos (by omega)]
    · rw [if_neg same, if_neg (by omega)]
  · have other : irqNr.toNat ≠ 32 * m.val + i.val := by
      intro h
      exact own (Fin.ext (by omega))
    rw [Function.update_of_ne own, if_neg other]

theorem or_icuIr (value word : U32) (i : Fin 32) :
    (word ||| icuIr value).getLsbD i = if i.val = value.toNat then true else word.getLsbD i := by
  rw [BitVec.getLsbD_or, icuIr_bit]
  by_cases same : i.val = value.toNat <;> simp [same]

theorem and_not_icuIr (value word : U32) (i : Fin 32) :
    (word &&& ~~~icuIr value).getLsbD i = if i.val = value.toNat then false else word.getLsbD i := by
  rw [BitVec.getLsbD_and, BitVec.getLsbD_not, icuIr_bit]
  by_cases same : i.val = value.toNat <;> simp [same]

variable (s : Icu) (irqNr : U32)

theorem enable_sets : SetsBit irqNr true s.ier (s.enableDanubeIrq irqNr).ier ∧ (s.enableDanubeIrq irqNr).isr = s.isr ∧
    (s.enableDanubeIrq irqNr).ebuPccIstat = s.ebuPccIstat := by
  unfold enableDanubeIrq
  obtain ⟨absent, large⟩ | ⟨n, value, found, small, number⟩ := moduleOf_cases irqNr
  · rw [absent]
    exact ⟨setsBit_none large true s.ier, rfl, rfl⟩
  · rw [found]
    exact ⟨setsBit_update number small (or_icuIr value (s.ier n)), rfl, rfl⟩

theorem disable_clears : SetsBit irqNr false s.ier (s.disableDanubeIrq irqNr).ier ∧
    (s.disableDanubeIrq irqNr).isr = s.isr ∧ (s.disableDanubeIrq irqNr).ebuPccIstat = s.ebuPccIstat := by
  unfold disableDanubeIrq
  obtain ⟨absent, large⟩ | ⟨n, value, found, small, number⟩ := moduleOf_cases irqNr
  · rw [absent]
    exact ⟨setsBit_none large false s.ier, rfl, rfl⟩
  · rw [found]
    exact ⟨setsBit_update number small (and_not_icuIr value (s.ier n)), rfl, rfl⟩

theorem maskAndAck_clears : SetsBit irqNr false s.ier (s.maskAndAckDanubeIrq irqNr).ier ∧
    SetsBit irqNr false s.isr (s.maskAndAckDanubeIrq irqNr).isr ∧
      (s.maskAndAckDanubeIrq irqNr).ebuPccIstat = s.ebuPccIstat := by
  unfold maskAndAckDanubeIrq
  obtain ⟨absent, large⟩ | ⟨n, value, found, small, number⟩ := moduleOf_cases irqNr
  · rw [absent]
    exact ⟨setsBit_none large false s.ier, setsBit_none large false s.isr, rfl⟩
  · rw [found]
    exact ⟨setsBit_update number small (and_not_icuIr value (s.ier n)),
      setsBit_update number small (and_not_icuIr value (s.isr n)), rfl⟩

/-! ### Dispatch -/

theorem irqdispatch_none (core1 : Bool) {n : Fin 5} (quiet : s.iosr n = 0) : s.irqdispatch core1 n = (none, s) := by
  fin_cases n
  · exact if_pos quiet
  all_goals exact if_pos quiet

theorem irqdispatchOf_some {n : Fin 5} {k : Fin 32} (pending : s.iosr n ≠ 0) (index : ls1bit32 (s.iosr n) = k.val)
    (base : Nat) : irqdispatchOf n base s = (some (BitVec.ofNat 32 (base + k.val)), s) := by
  rw [irqdispatchOf, if_neg pending, index, ← Nat.cast_add, BitVec.ofInt_natCast, Nat.add_comm]

theorem clearEbu_frame (core1 : Bool) (irq : U32) :
    (clearEbu core1 s irq).ier = s.ier ∧ (clearEbu core1 s irq).isr = s.isr := by
  unfold clearEbu
  by_cases ebu : irq = (if core1 then 26 else 22)
  · rw [if_pos ebu]
    exact ⟨rfl, rfl⟩
  · rw [if_neg ebu]
    exact ⟨rfl, rfl⟩

theorem irqdispatch_other (core1 : Bool) {n : Fin 5} (other : n ≠ 0) :
    s.irqdispatch core1 n = irqdispatchOf n (32 * n.val : Nat) s := by
  fin_cases n
  · exact absurd rfl other
  all_goals rfl

theorem irqdispatch_some (core1 : Bool) {n : Fin 5} (pending : s.iosr n ≠ 0) :
    ∃ k : Fin 32, IsLeastBit (s.iosr n) k ∧
      (s.irqdispatch core1 n).1 = some (BitVec.ofNat 32 (32 * n.val + k.val)) ∧
        (s.irqdispatch core1 n).2.ier = s.ier ∧ (s.irqdispatch core1 n).2.isr = s.isr := by
  obtain ⟨k, index, least⟩ := ls1bit32_least pending
  refine ⟨k, least, ?_⟩
  by_cases first : n = 0
  · subst first
    have irq : BitVec.ofInt 32 (ls1bit32 (s.iosr 0)) = BitVec.ofNat 32 (32 * (0 : Fin 5).val + k.val) := by
      rw [index, BitVec.ofInt_natCast, Fin.val_zero, Nat.mul_zero, Nat.zero_add]
    have called : s.irqdispatch core1 0 = (some (BitVec.ofInt 32 (ls1bit32 (s.iosr 0))),
        clearEbu core1 s (BitVec.ofInt 32 (ls1bit32 (s.iosr 0)))) := if_neg pending
    rw [called, irq]
    exact ⟨rfl, clearEbu_frame s core1 _⟩
  · rw [irqdispatch_other s core1 first, irqdispatchOf_some s pending index]
    exact ⟨rfl, rfl, rfl⟩

end Icu

/-- The search finds the least bit, the dispatchers hand on the interrupt of that bit, and the three mask operations
change the bit of their interrupt only. -/
theorem icu_dispatch_and_masks :
    (∀ x : U32, x ≠ 0 → ∃ k : Fin 32, ls1bit32 x = k.val ∧ IsLeastBit x k) ∧
      (∀ (core1 : Bool) (s : Icu) (n : Fin 5), s.iosr n ≠ 0 → ∃ k : Fin 32, IsLeastBit (s.iosr n) k ∧
        (s.irqdispatch core1 n).1 = some (BitVec.ofNat 32 (32 * n.val + k.val))) ∧
      ∀ (s : Icu) (irqNr : U32),
        (Icu.SetsBit irqNr true s.ier (s.enableDanubeIrq irqNr).ier ∧ (s.enableDanubeIrq irqNr).isr = s.isr) ∧
        (Icu.SetsBit irqNr false s.ier (s.disableDanubeIrq irqNr).ier ∧ (s.disableDanubeIrq irqNr).isr = s.isr) ∧
        Icu.SetsBit irqNr false s.ier (s.maskAndAckDanubeIrq irqNr).ier ∧
          Icu.SetsBit irqNr false s.isr (s.maskAndAckDanubeIrq irqNr).isr := by
  refine ⟨fun x nonzero => ls1bit32_least nonzero, ?_, ?_⟩
  · intro core1 s n pending
    obtain ⟨k, least, picked, -⟩ := s.irqdispatch_some core1 pending
    exact ⟨k, least, picked⟩
  · intro s irqNr
    obtain ⟨enabled, status, -⟩ := s.enable_sets irqNr
    obtain ⟨disabled, status', -⟩ := s.disable_clears irqNr
    obtain ⟨masked, acked, -⟩ := s.maskAndAck_clears irqNr
    exact ⟨⟨enabled, status⟩, ⟨disabled, status'⟩, masked, acked⟩

/-- Of the bits 2 and 3 bit 2 is found, and in the second module it is interrupt 34. -/
theorem icu_dispatch_example :
    (∃ k : Fin 32, ls1bit32 12 = k.val ∧ IsLeastBit 12 k) ∧
      ∃ k : Fin 32, IsLeastBit (Icu.iosr ⟨fun _ => 12, fun _ => 6, 0⟩ 1) k ∧
        (Icu.irqdispatch false ⟨fun _ => 12, fun _ => 6, 0⟩ 1).1 = some (BitVec.ofNat 32 (32 * 1 + k.val)) :=
  ⟨icu_dispatch_and_masks.1 12 (by decide), icu_dispatch_and_masks.2.1 false ⟨fun _ => 12, fun _ => 6, 0⟩ 1 (by decide)⟩

/-! ### Runs

`do_IRQ` acknowledges the interrupt before its handlers, and its end enables it again unless it has been disabled. -/

namespace Icu

variable (s : Icu)

def serve (core1 : Bool) (n : Fin 5) : Option U32 × Icu :=
  match s.irqdispatch core1 n with
  | (none, s) => (none, s)
  | (some irq, s) => (some irq, (s.maskAndAckDanubeIrq irq).enableDanubeIrq irq)

def serveAll (core1 : Bool) (n : Fin 5) : Nat → Icu → List U32 × Icu
  | 0, s => ([], s)
  | fuel + 1, s =>
    match s.serve core1 n with
    | (none, s) => ([], s)
    | (some irq, s) =>
      let (irqs, s) := serveAll core1 n fuel s
      (irq :: irqs, s)

variable {s} {n : Fin 5}

theorem iosr_bit (m : Fin 5) (i : Fin 32) : (s.iosr m).getLsbD i = ((s.isr m).getLsbD i && (s.ier m).getLsbD i) :=
  BitVec.getLsbD_and ..

theorem serve_step (core1 : Bool) (pending : s.iosr n ≠ 0) :
    ∃ k : Fin 32, ∃ t, s.serve core1 n = (some (BitVec.ofNat 32 (32 * n.val + k.val)), t) ∧
      setBits (s.iosr n) = k :: setBits (t.iosr n) ∧ t.ier = s.ier ∧ ∀ m ≠ n, t.isr m = s.isr m := by
  obtain ⟨k, least, picked, ier, isr⟩ := s.irqdispatch_some core1 pending
  rcases called : s.irqdispatch core1 n with ⟨irq, d⟩
  rw [called] at picked ier isr
  dsimp only at picked ier isr
  subst picked
  obtain ⟨masked, acked, -⟩ := d.maskAndAck_clears (BitVec.ofNat 32 (32 * n.val + k.val))
  obtain ⟨enabled, status, -⟩ :=
    (d.maskAndAckDanubeIrq (BitVec.ofNat 32 (32 * n.val + k.val))).enable_sets (BitVec.ofNat 32 (32 * n.val + k.val))
  have number : (BitVec.ofNat 32 (32 * n.val + k.val)).toNat = 32 * n.val + k.val := by
    rw [BitVec.toNat_ofNat]
    exact Nat.mod_eq_of_lt (by omega)
  simp only [SetsBit, number, ier, isr] at masked acked enabled
  have hit (m : Fin 5) (i : Fin 32) : 32 * n.val + k.val = 32 * m.val + i.val ↔ m = n ∧ i = k := by
    rw [Fin.ext_iff, Fin.ext_iff]
    omega
  have served := (iosr_bit n k).symm.trans least.1
  rw [Bool.and_eq_true] at served
  have mask : ((d.maskAndAckDanubeIrq (BitVec.ofNat 32 (32 * n.val + k.val))).enableDanubeIrq
      (BitVec.ofNat 32 (32 * n.val + k.val))).ier = s.ier := by
    funext m
    apply BitVec.eq_of_getLsbD_eq
    intro i below
    rw [enabled m ⟨i, below⟩, masked m ⟨i, below⟩]
    by_cases own : 32 * n.val + k.val = 32 * m.val + i
    · obtain ⟨rfl, rfl⟩ := (hit m ⟨i, below⟩).mp own
      rw [if_pos own]
      exact served.2.symm
    · rw [if_neg own, if_neg own]
  refine ⟨k, _, by rw [serve, called], ?_, mask, ?_⟩
  · apply setBits_cons least.1 least.2
    intro i
    rw [iosr_bit, iosr_bit, mask, status, acked]
    by_cases same : i = k
    · rw [if_pos ((hit n i).mpr ⟨rfl, same⟩)]
      simp [same]
    · rw [if_neg fun own => same ((hit n i).mp own).2]
      simp [same]
  · intro m other
    apply BitVec.eq_of_getLsbD_eq
    intro i below
    rw [status, acked m ⟨i, below⟩, if_neg fun own => other ((hit m ⟨i, below⟩).mp own).1]

/-- The interrupts of a module that are pending and enabled are served once each, in the order of their bits, and the
masks and the other modules are left as they were. -/
theorem serveAll_in_order (core1 : Bool) (n : Fin 5) {fuel : Nat} {s : Icu} (enough : (setBits (s.iosr n)).length ≤ fuel) :
    (serveAll core1 n fuel s).1 = (setBits (s.iosr n)).map (fun k => BitVec.ofNat 32 (32 * n.val + k.val)) ∧
      (serveAll core1 n fuel s).2.iosr n = 0 ∧ (serveAll core1 n fuel s).2.ier = s.ier ∧
        ∀ m ≠ n, (serveAll core1 n fuel s).2.isr m = s.isr m := by
  induction fuel generalizing s with
  | zero =>
    have none := List.length_eq_zero_iff.mp (Nat.le_zero.mp enough)
    rw [none]
    exact ⟨rfl, setBits_eq_nil.mp none, rfl, fun _ _ => rfl⟩
  | succ fuel ih =>
    by_cases quiet : s.iosr n = 0
    · have idle : s.serve core1 n = (none, s) := by rw [serve, s.irqdispatch_none core1 quiet]
      rw [serveAll, idle, setBits_eq_nil.mpr quiet]
      exact ⟨rfl, quiet, rfl, fun _ _ => rfl⟩
    · obtain ⟨k, t, served, bits, mask, others⟩ := serve_step core1 quiet
      rw [bits, List.length_cons] at enough
      obtain ⟨irqs, empty, mask', others'⟩ := ih (s := t) (by omega)
      rw [serveAll, served, bits, List.map_cons, ← irqs]
      exact ⟨rfl, empty, mask'.trans mask, fun m other => (others' m other).trans (others m other)⟩

end Icu

end TwinpassGateway.Irq
