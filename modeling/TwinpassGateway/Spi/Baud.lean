import TwinpassGateway.Foundation.Word
import Mathlib.Tactic

/-!
`ifx_ssc_set_baud` of the SSC driver (`westell_spi_mdio.c`): the reload value of the baud-rate timer for a requested
rate, set while the device is disabled.
-/

namespace TwinpassGateway.Spi

open Foundation

structure SscRegs where
  clc : U32
  state : U32
  br : U32
  deriving DecidableEq

def isEnabled : U32 := 0x00000001#32

def isMaster : U32 := 0x00000002#32

namespace SscRegs

/-- `IFX_SSC_WHBSTATE_CLR_ENABLE`, written to `WHBSTATE`. -/
def clrEnable (r : SscRegs) : SscRegs := { r with state := r.state &&& ~~~isEnabled }

def setEnable (r : SscRegs) : SscRegs := { r with state := r.state ||| isEnabled }

def Enabled (r : SscRegs) : Prop := r.state &&& isEnabled ≠ 0

def Master (r : SscRegs) : Prop := r.state &&& isMaster ≠ 0

instance (r : SscRegs) : Decidable r.Enabled := inferInstanceAs (Decidable (_ ≠ _))

instance (r : SscRegs) : Decidable r.Master := inferInstanceAs (Decidable (_ ≠ _))

end SscRegs

/-- A division by zero does not return. -/
def divide (a b : U32) : Option U32 := if b = 0 then none else some (a / b)

/-- `ifx_ssc_get_kernel_clk`, with what `danube_get_fpi_hz` returns. -/
def ifxSscGetKernelClk (fpiHz : U32) (r : SscRegs) : Option U32 :=
  let rmc := (r.clc &&& 0x0000FF00#32) >>> 8
  if rmc = 0 then some 0 else divide fpiHz rmc

/-- `ifx_ssc_set_baud`: what it returns and the registers, if it returns. -/
def ifxSscSetBaud (fpiHz : U32) (r : SscRegs) (baud : U32) : Option (Int × SscRegs) := do
  let clock ← ifxSscGetKernelClk fpiHz r
  if clock = 0 then some (-22, r)
  else
    let enabled := r.Enabled
    let r := r.clrEnable
    let br : U32 ← if baud = 0 then some 0 else (divide ((clock >>> 1) + baud / 2) baud).map (· - 1#32)
    if br > 0xffff ∨ br = 0 ∧ ¬ r.Master then some (-22, r)
    else
      let r := { r with br }
      some (0, if enabled then r.setEnable else r)

/-! ### What is expected -/

/-- The module clock as a number, zero when the divider is off. -/
def moduleClock (fpiHz : U32) (r : SscRegs) : Nat := fpiHz.toNat / ((r.clc &&& 0x0000FF00#32) >>> 8).toNat

/-- The request divided into half the clock gives the divisor `br + 1`, up to rounding. -/
def Rounded (clock baud br : Nat) : Prop := |(clock : Int) - 2 * (br + 1) * baud| ≤ baud

/-- The rounded quotient of half the clock and the request. -/
def divisor (clock baud : Nat) : Nat := (clock / 2 + baud / 2) / baud

/-- The computation of the reload value stays in the range of machine words. -/
def InRange (clock baud : Nat) : Prop := clock ≠ 0 → baud ≠ 0 → clock / 2 + baud / 2 < 2 ^ 32 ∧ 1 ≤ divisor clock baud

/-- The call returns, its computation does not wrap, and it has either set a reload value for the request or changed
nothing. -/
def AtomicBaud (fpiHz : U32) (r : SscRegs) (baud : U32) : Prop :=
  ∃ ret r', ifxSscSetBaud fpiHz r baud = some (ret, r') ∧ InRange (moduleClock fpiHz r) baud.toNat ∧
    (ret = 0 ∧ Rounded (moduleClock fpiHz r) baud.toNat r'.br.toNat ∧ r'.state = r.state ∨
      ret < 0 ∧ r'.br = r.br ∧ r'.state = r.state)

/-- The device takes the request: the divisor is that of a reload value, and a slave does not get the value 0. -/
def Legal (fpiHz : U32) (r : SscRegs) (baud : U32) : Prop :=
  let n := divisor (moduleClock fpiHz r) baud.toNat
  1 ≤ n ∧ n ≤ 0x10000 ∧ (n = 1 → r.Master)

/-! ### The registers -/

section Registers

variable {fpiHz : U32} {r : SscRegs} {baud : U32}

theorem isEnabled_bit (i : Nat) : isEnabled.getLsbD i = decide (i = 0) := by
  unfold isEnabled
  rw [BitVec.getLsbD_ofNat]
  cases i with
  | zero => rfl
  | succ i => simp [Nat.testBit_succ]

theorem enabled_iff : r.Enabled ↔ r.state.getLsbD 0 = true := by
  unfold SscRegs.Enabled
  constructor
  · intro set
    by_contra clear
    refine set (BitVec.eq_of_getLsbD_eq fun i _ => ?_)
    rw [BitVec.getLsbD_and, isEnabled_bit]
    by_cases first : i = 0
    · subst first
      rw [Bool.not_eq_true] at clear
      rw [clear]
      rfl
    · simp [first]
  · intro set clear
    have bit := congrArg (BitVec.getLsbD · 0) clear
    simp only [BitVec.getLsbD_and, isEnabled_bit, set] at bit
    simp at bit

theorem clrEnable_state : r.clrEnable.state = r.state ↔ ¬ r.Enabled := by
  rw [enabled_iff]
  constructor
  · intro same set
    have bit := congrArg (BitVec.getLsbD · 0) same
    simp only [SscRegs.clrEnable, BitVec.getLsbD_and, BitVec.getLsbD_not, isEnabled_bit, set] at bit
    simp at bit
  · intro clear
    refine BitVec.eq_of_getLsbD_eq fun i below => ?_
    simp only [SscRegs.clrEnable, BitVec.getLsbD_and, BitVec.getLsbD_not, isEnabled_bit]
    by_cases first : i = 0
    · subst first
      rw [Bool.not_eq_true] at clear
      rw [clear]
      rfl
    · simp [first, below]

theorem enable_again (set : r.Enabled) : (r.state &&& ~~~isEnabled) ||| isEnabled = r.state := by
  rw [enabled_iff] at set
  refine BitVec.eq_of_getLsbD_eq fun i below => ?_
  rw [BitVec.getLsbD_or, BitVec.getLsbD_and, BitVec.getLsbD_not, isEnabled_bit]
  by_cases first : i = 0
  · subst first
    simp [set]
  · simp [first, below]

theorem clrEnable_master : r.clrEnable.Master ↔ r.Master := by
  have same : r.state &&& ~~~isEnabled &&& isMaster = r.state &&& isMaster := by
    rw [BitVec.and_assoc]
    rfl
  unfold SscRegs.Master SscRegs.clrEnable
  rw [same]

theorem clock_eq (fpiHz : U32) (r : SscRegs) :
    ifxSscGetKernelClk fpiHz r = some (BitVec.ofNat 32 (moduleClock fpiHz r)) := by
  unfold ifxSscGetKernelClk moduleClock
  dsimp only
  by_cases off : (r.clc &&& 0x0000FF00#32) >>> 8 = 0
  · rw [if_pos off, off]
    show _ = some (BitVec.ofNat 32 (fpiHz.toNat / 0))
    rw [Nat.div_zero]
    rfl
  · rw [if_neg off, divide, if_neg off, ← BitVec.toNat_udiv, BitVec.ofNat_toNat, BitVec.setWidth_eq]

theorem clock_lt (fpiHz : U32) (r : SscRegs) : moduleClock fpiHz r < 2 ^ 32 :=
  (Nat.div_le_self _ _).trans_lt fpiHz.isLt

end Registers

/-! ### When a call is atomic -/

section Call

variable {fpiHz : U32} {r : SscRegs} {baud : U32}

/-- The reload value that is computed: for the divisor zero it wraps. -/
theorem reload_eq {clock : Nat} (small : clock < 2 ^ 32) (baud : U32) :
    (((BitVec.ofNat 32 clock >>> 1) + baud / 2#32) / baud - 1#32).toNat =
      (2 ^ 32 - 1 + divisor clock baud.toNat) % 2 ^ 32 := by
  have half : (BitVec.ofNat 32 clock >>> 1).toNat = clock / 2 := by
    rw [BitVec.toNat_ushiftRight, BitVec.toNat_ofNat, Nat.mod_eq_of_lt small, Nat.shiftRight_eq_div_pow, Nat.pow_one]
  have baudHalf : (baud / 2#32).toNat = baud.toNat / 2 := BitVec.toNat_udiv
  have bound := baud.isLt
  have sum : (clock / 2 + baud.toNat / 2) % 2 ^ 32 = clock / 2 + baud.toNat / 2 := Nat.mod_eq_of_lt (by omega)
  rw [BitVec.toNat_sub, BitVec.toNat_udiv, BitVec.toNat_add, half, baudHalf, sum]
  rfl

theorem divisor_zero (clock : Nat) : divisor clock 0 = 0 := Nat.div_zero _

theorem divisor_lt {clock baud : Nat} (small : clock < 2 ^ 32) (below : baud < 2 ^ 32) : divisor clock baud < 2 ^ 32 :=
  (Nat.div_le_self _ _).trans_lt (by omega)

/-- The divisor is the nearest to half the clock divided by the request. -/
theorem rounded_of_divisor {clock baud : Nat} (least : 1 ≤ divisor clock baud) :
    Rounded clock baud (divisor clock baud - 1) := by
  have positive : 0 < baud := by
    rcases Nat.eq_zero_or_pos baud with rfl | positive
    · rw [divisor_zero] at least
      omega
    · exact positive
  have low : divisor clock baud * baud ≤ clock / 2 + baud / 2 := Nat.div_mul_le_self _ _
  have high : clock / 2 + baud / 2 < (divisor clock baud + 1) * baud :=
    Nat.lt_mul_of_div_lt (Nat.lt_succ_self _) positive
  rw [Nat.add_mul, Nat.one_mul] at high
  have product : 2 * (((divisor clock baud - 1 : Nat) : Int) + 1) * (baud : Int) =
      2 * ((divisor clock baud * baud : Nat) : Int) := by
    rw [Nat.cast_sub least, Nat.cast_mul]
    ring
  unfold Rounded
  rw [product, abs_le]
  omega

theorem restored (r : SscRegs) (br : U32) : (if r.Enabled then ({ r.clrEnable with br } : SscRegs).setEnable
    else { r.clrEnable with br }) = { r with br } := by
  by_cases set : r.Enabled
  · rw [if_pos set]
    exact congrArg (fun state => ({ clc := r.clc, state, br } : SscRegs)) (enable_again set)
  · rw [if_neg set]
    exact congrArg (fun state => ({ clc := r.clc, state, br } : SscRegs)) (clrEnable_state.mpr set)

theorem setBaud_eq (baud : U32) (on : moduleClock fpiHz r ≠ 0) :
    ifxSscSetBaud fpiHz r baud =
      let br : U32 := if baud = 0 then 0#32
        else ((BitVec.ofNat 32 (moduleClock fpiHz r) >>> 1) + baud / 2#32) / baud - 1#32
      if br > 0xffff#32 ∨ br = 0 ∧ ¬ r.Master then some (-22, r.clrEnable)
      else some (0, { r with br }) := by
  have clock : BitVec.ofNat 32 (moduleClock fpiHz r) ≠ 0 := by
    intro zero
    have value := congrArg BitVec.toNat zero
    rw [BitVec.toNat_ofNat, Nat.mod_eq_of_lt (clock_lt fpiHz r)] at value
    exact on value
  unfold ifxSscSetBaud
  rw [clock_eq]
  show (if _ = 0 then _ else _) = _
  rw [if_neg clock]
  by_cases none : baud = 0
  · simp only [if_pos none, clrEnable_master, restored]
    rfl
  · simp only [if_neg none, divide, clrEnable_master, restored]
    rfl

theorem inRange_iff (on : moduleClock fpiHz r ≠ 0) :
    InRange (moduleClock fpiHz r) baud.toNat ↔ baud = 0 ∨ 1 ≤ divisor (moduleClock fpiHz r) baud.toNat := by
  have clock := clock_lt fpiHz r
  have below := baud.isLt
  have zero : baud = 0 ↔ baud.toNat = 0 := BitVec.toNat_inj.symm
  rw [zero]
  unfold InRange
  constructor
  · intro inside
    by_cases none : baud.toNat = 0
    · exact Or.inl none
    · exact Or.inr (inside on none).2
  · rintro (none | least) _ some
    · exact absurd none some
    · exact ⟨by omega, least⟩

theorem atomic_off (off : moduleClock fpiHz r = 0) : AtomicBaud fpiHz r baud := by
  refine ⟨-22, r, ?_, fun on => absurd off on, Or.inr ⟨by decide, rfl, rfl⟩⟩
  unfold ifxSscSetBaud
  rw [clock_eq, off]
  rfl

/-- A refusal leaves the device disabled. -/
theorem atomic_refused (refused : ifxSscSetBaud fpiHz r baud = some (-22, r.clrEnable)) :
    AtomicBaud fpiHz r baud ↔ ¬ r.Enabled ∧ InRange (moduleClock fpiHz r) baud.toNat := by
  constructor
  · intro ⟨ret, r', done, inside, outcome⟩
    obtain ⟨rfl, rfl⟩ := Prod.mk.inj (Option.some.inj (refused.symm.trans done))
    rcases outcome with ⟨success, _⟩ | ⟨_, _, state⟩
    · exact absurd success (by decide)
    · exact ⟨clrEnable_state.mp state, inside⟩
  · intro ⟨disabled, inside⟩
    exact ⟨-22, r.clrEnable, refused, inside, Or.inr ⟨by decide, rfl, clrEnable_state.mpr disabled⟩⟩

theorem atomic_accepted {br : U32} (accepted : ifxSscSetBaud fpiHz r baud = some (0, { r with br })) :
    AtomicBaud fpiHz r baud ↔
      Rounded (moduleClock fpiHz r) baud.toNat br.toNat ∧ InRange (moduleClock fpiHz r) baud.toNat := by
  constructor
  · intro ⟨ret, r', done, inside, outcome⟩
    obtain ⟨rfl, rfl⟩ := Prod.mk.inj (Option.some.inj (accepted.symm.trans done))
    rcases outcome with ⟨_, rounded, _⟩ | ⟨failure, _⟩
    · exact ⟨rounded, inside⟩
    · exact absurd failure (by decide)
  · intro ⟨rounded, inside⟩
    exact ⟨0, _, accepted, inside, Or.inl ⟨rfl, rounded, rfl⟩⟩

theorem atomic_zero (on : moduleClock fpiHz r ≠ 0) : AtomicBaud fpiHz r 0 ↔ ¬ r.Enabled ∧ ¬ r.Master := by
  have inside : InRange (moduleClock fpiHz r) (0 : U32).toNat := (inRange_iff on).mpr (Or.inl rfl)
  have call : ifxSscSetBaud fpiHz r 0 =
      if (0#32 : U32) > 0xffff#32 ∨ (0#32 : U32) = 0 ∧ ¬ r.Master then some (-22, r.clrEnable)
      else some (0, { r with br := 0#32 }) := setBaud_eq 0#32 on
  by_cases master : r.Master
  · rw [if_neg (by simp [master])] at call
    rw [atomic_accepted call]
    refine iff_of_false (fun both => on ?_) fun both => both.2 master
    obtain ⟨rounded, _⟩ := both
    unfold Rounded at rounded
    have difference : (moduleClock fpiHz r : Int) - 2 * (((0#32).toNat : Int) + 1) * ((0 : U32).toNat : Int) =
        moduleClock fpiHz r := by
      simp
    rw [difference] at rounded
    have size : (moduleClock fpiHz r : Int) ≤ 0 := (abs_le.mp rounded).2
    omega
  · rw [if_pos (Or.inr ⟨rfl, master⟩)] at call
    rw [atomic_refused call, and_iff_left inside]
    exact (and_iff_left master).symm

theorem atomic_nonzero (on : moduleClock fpiHz r ≠ 0) (some : baud ≠ 0) : AtomicBaud fpiHz r baud ↔
    Legal fpiHz r baud ∨ ¬ r.Enabled ∧ 1 ≤ divisor (moduleClock fpiHz r) baud.toNat := by
  have call := setBaud_eq baud on
  have reload := reload_eq (clock_lt fpiHz r) baud
  have bound := divisor_lt (clock_lt fpiHz r) baud.isLt
  have inside := (inRange_iff on).trans (or_iff_right some)
  dsimp only at call
  rw [if_neg some] at call
  generalize ((BitVec.ofNat 32 (moduleClock fpiHz r) >>> 1) + baud / 2#32) / baud - 1#32 = br at call reload
  have large : br > 0xffff#32 ↔ 0xffff < br.toNat := BitVec.lt_def
  have fastest : br = 0 ↔ br.toNat = 0 := BitVec.toNat_inj.symm
  by_cases refuse : br > 0xffff#32 ∨ br = 0 ∧ ¬ r.Master
  · have illegal : ¬ Legal fpiHz r baud := by
      intro ⟨least, most, master⟩
      rcases refuse with above | ⟨zero, slave⟩
      · rw [large] at above
        omega
      · rw [fastest] at zero
        exact slave (master (by omega))
    rw [if_pos refuse] at call
    rw [atomic_refused call, inside]
    exact (or_iff_right illegal).symm
  · obtain ⟨within, master⟩ := not_or.mp refuse
    rw [large] at within
    rw [fastest] at master
    have least : 1 ≤ divisor (moduleClock fpiHz r) baud.toNat := by omega
    have value : br.toNat = divisor (moduleClock fpiHz r) baud.toNat - 1 := by omega
    rw [if_neg refuse] at call
    rw [atomic_accepted call, value, inside]
    refine iff_of_true ⟨rounded_of_divisor least, least⟩ (Or.inl ⟨least, by omega, fun one => ?_⟩)
    by_contra slave
    exact master ⟨by omega, slave⟩

/-- Setting a rate is atomic exactly when the clock is off, or the device takes the request, or the device was disabled
and the request is neither so high that it rounds to the divisor 0, nor a 0 that is taken for the fastest rate. -/
theorem setBaud_atomic_iff (fpiHz : U32) (r : SscRegs) (baud : U32) :
    AtomicBaud fpiHz r baud ↔
      moduleClock fpiHz r = 0 ∨ Legal fpiHz r baud ∨
        ¬ r.Enabled ∧ if baud = 0 then ¬ r.Master else 1 ≤ divisor (moduleClock fpiHz r) baud.toNat := by
  by_cases off : moduleClock fpiHz r = 0
  · exact iff_of_true (atomic_off off) (Or.inl off)
  rw [or_iff_right off]
  by_cases zero : baud = 0
  · subst zero
    have illegal : ¬ Legal fpiHz r 0 := by
      intro ⟨least, _⟩
      have none : divisor (moduleClock fpiHz r) (0 : U32).toNat = 0 := divisor_zero _
      omega
    rw [or_iff_right illegal, if_pos rfl]
    exact atomic_zero off
  · rw [if_neg zero]
    exact atomic_nonzero off zero

/-- A request of 400 MHz at 100 MHz disables the device and fails. -/
theorem illegalRate_not_atomic :
    ¬ AtomicBaud 100000000#32 { clc := 0x100#32, state := 3#32, br := 49#32 } 400000000#32 := by
  have call : ifxSscSetBaud 100000000#32 { clc := 0x100#32, state := 3#32, br := 49#32 } 400000000#32 =
      some (-22, { clc := 0x100#32, state := 2#32, br := 49#32 }) := by decide
  intro ⟨ret, r', done, _, outcome⟩
  obtain ⟨rfl, rfl⟩ := Prod.mk.inj (Option.some.inj (call.symm.trans done))
  rcases outcome with ⟨success, _⟩ | ⟨_, _, state⟩
  · exact absurd success (by decide)
  · exact absurd state (by decide)

end Call

end TwinpassGateway.Spi
