import TwinpassGateway.Foundation.Word
import TwinpassGateway.Eth.LoopDetect

/-!
Reads and writes of PHY registers through `ETOP_MDIO_ACC`, poll by poll: `mdio_read` and `mdio_write`, and
`ppe_bit_mask_reg`, which changes one bit of a register.
-/

namespace TwinpassGateway.Eth

open Foundation

structure MdioInterface where
  regs : Mdio
  /-- What the access register reads below its busy flag, poll by poll, while the last command is under way. -/
  busy : List (BitVec 31) := []
  /-- What it reads after that. -/
  word : BitVec 31 := 0
  commands : List U32 := []
  /-- The busy polls of the commands to come, and the upper bits of what is read after them. -/
  answers : Nat → List (BitVec 31) × BitVec 15 := fun _ => ([], 0)

def mdioBusy : U32 := 0x80000000

namespace MdioInterface

/-- The polls of `while ( (value = *ETOP_MDIO_ACC) & 0x80000000 );` with a `value` of `w` bits: what it has at the
end, and the busy polls that are left. -/
def polls (w : Nat) (word : BitVec 31) : List (BitVec 31) → BitVec w × List (BitVec 31)
  | [] => (word.setWidth w, [])
  | b :: rest =>
    let value : BitVec w := (mdioBusy ||| b.setWidth 32).setWidth w
    -- the flag is looked for in `value`
    if value.setWidth 32 &&& mdioBusy ≠ 0 then polls w word rest else (value, rest)

def readWhileBusy (w : Nat) (m : MdioInterface) : BitVec w × MdioInterface :=
  ((polls w m.word m.busy).1, { m with busy := (polls w m.word m.busy).2 })

/-- `while ( *ETOP_MDIO_ACC & 0x80000000 );` -/
def wait (m : MdioInterface) : MdioInterface := (m.readWhileBusy 32).2

def phyOf (command : U32) : Nat := ((command >>> 21) &&& 0x1f).toNat

def regOf (command : U32) : Nat := ((command >>> 16) &&& 0x1f).toNat

def order (m : MdioInterface) (command : U32) : MdioInterface :=
  let (busy, upper) := m.answers m.commands.length
  let regs := if command &&& 0x40000000 ≠ 0 then m.regs
    else Eth.mdioWrite m.regs (phyOf command) (regOf command) (command.setWidth 16)
  { m with regs, busy, word := upper ++ Eth.mdioRead regs (phyOf command) (regOf command),
           commands := m.commands ++ [command] }

def mdioRead (m : MdioInterface) (phy reg : BitVec 16) : BitVec 16 × MdioInterface :=
  let m := m.wait
  let m := m.order (0xC0000000 ||| phy.setWidth 32 <<< 21 ||| reg.setWidth 32 <<< 16)
  let (val, m) := m.readWhileBusy 32
  ((val &&& 0xffff).setWidth 16, m)

def mdioWrite (m : MdioInterface) (phy reg val : BitVec 16) : MdioInterface :=
  let m := m.wait
  m.order (0x80000000 ||| phy.setWidth 32 <<< 21 ||| reg.setWidth 32 <<< 16 ||| val.setWidth 32)

def ppeBitMaskReg (m : MdioInterface) (addr reg : U32) (bit : Int) (stateOn : Bool) : Int × MdioInterface :=
  if bit < 0 ∨ bit > 16 then (1, m)
  else
    let m := m.wait
    let m := m.order (0xC0000000 ||| (addr &&& 0x1f) <<< 21 ||| (reg &&& 0x1f) <<< 16)
    -- `value` is an `unsigned short`
    let (value, m) := m.readWhileBusy 16
    let valueMask : BitVec 16 := ((1 : U32) <<< bit.toNat).setWidth 16
    let value := if stateOn then value ||| valueMask else value &&& ~~~valueMask
    let m := m.wait
    (0, m.order (0x80000000 ||| (addr &&& 0x1f) <<< 21 ||| (reg &&& 0x1f) <<< 16 ||| value.setWidth 32))

/-! ### The polls -/

variable (m : MdioInterface)

theorem mdioBusy_eq : mdioBusy = BitVec.twoPow 32 31 := rfl

theorem busy_flag (b : BitVec 31) : (mdioBusy ||| b.setWidth 32) &&& mdioBusy ≠ 0 := by
  intro clear
  have flag := congrArg (·.getLsbD 31) clear
  simp [mdioBusy] at flag

theorem polls_wide (word : BitVec 31) (busy : List (BitVec 31)) : polls 32 word busy = (word.setWidth 32, []) := by
  induction busy with
  | nil => rfl
  | cons b rest ih =>
    rw [polls, BitVec.setWidth_eq, BitVec.setWidth_eq, if_pos (busy_flag b)]
    exact ih

/-- A variable of 16 bits has no room for the flag, so the first poll is the last. -/
theorem polls_narrow (word : BitVec 31) (busy : List (BitVec 31)) :
    (polls 16 word busy).1 = (busy.head?.getD word).setWidth 16 := by
  cases busy with
  | nil => rfl
  | cons b rest =>
    have lost (value : BitVec 16) : value.setWidth 32 &&& mdioBusy = 0 := by
      apply BitVec.eq_of_getLsbD_eq
      intro i _
      rw [BitVec.getLsbD_and, BitVec.getLsbD_setWidth, mdioBusy_eq, BitVec.getLsbD_twoPow]
      by_cases flag : 31 = i
      · simp [← flag]
      · simp [flag]
    simp only [polls, lost, ne_eq, not_true_eq_false, if_false, List.head?_cons, Option.getD_some]
    apply BitVec.eq_of_getLsbD_eq
    intro i below
    simp [mdioBusy_eq, below]
    omega

theorem wait_eq : m.wait = { m with busy := [] } := by
  rw [wait, readWhileBusy, polls_wide]

/-! ### The commands -/

def mdioOp (read : Bool) : U32 := if read then 0xC0000000 else 0x80000000

def mdioCommandWord (read : Bool) (addr reg : U32) (value : BitVec 16) : U32 :=
  mdioOp read ||| (addr &&& 0x1f) <<< 21 ||| (reg &&& 0x1f) <<< 16 ||| value.setWidth 32

variable (read : Bool) (addr reg : U32) (value : BitVec 16)

theorem phyOf_command : phyOf (mdioCommandWord read addr reg value) = (addr &&& 0x1f).toNat := by
  unfold phyOf mdioCommandWord mdioOp
  congr 1
  apply BitVec.eq_of_getLsbD_eq
  intro i below
  cases read <;> interval_cases i <;> simp

theorem regOf_command : regOf (mdioCommandWord read addr reg value) = (reg &&& 0x1f).toNat := by
  unfold regOf mdioCommandWord mdioOp
  congr 1
  apply BitVec.eq_of_getLsbD_eq
  intro i below
  cases read <;> interval_cases i <;> simp

theorem value_command : (mdioCommandWord read addr reg value).setWidth 16 = value := by
  unfold mdioCommandWord mdioOp
  apply BitVec.eq_of_getLsbD_eq
  intro i below
  cases read <;> interval_cases i <;> simp

theorem read_command : (mdioCommandWord read addr reg value &&& 0x40000000 ≠ 0) ↔ read = true := by
  have bit : mdioCommandWord read addr reg value &&& 0x40000000 = if read then 0x40000000 else 0 := by
    unfold mdioCommandWord mdioOp
    apply BitVec.eq_of_getLsbD_eq
    intro i below
    cases read <;> interval_cases i <;> simp
  rw [bit]
  cases read <;> decide

variable (m : MdioInterface)

theorem order_read :
    m.order (mdioCommandWord true addr reg 0) =
      { m with
        busy := (m.answers m.commands.length).1
        word := (m.answers m.commands.length).2 ++ Eth.mdioRead m.regs (addr &&& 0x1f).toNat (reg &&& 0x1f).toNat
        commands := m.commands ++ [mdioCommandWord true addr reg 0] } := by
  simp only [order, phyOf_command, regOf_command]
  rw [if_pos ((read_command true addr reg 0).mpr rfl)]

theorem order_write_regs :
    (m.order (mdioCommandWord false addr reg value)).regs =
      Eth.mdioWrite m.regs (addr &&& 0x1f).toNat (reg &&& 0x1f).toNat value := by
  simp only [order, phyOf_command, regOf_command, value_command]
  rw [if_neg fun flag => Bool.noConfusion ((read_command false addr reg value).mp flag)]

theorem append_low (upper : BitVec 15) (low : BitVec 16) : (upper ++ low).setWidth 16 = low := by
  apply BitVec.eq_of_getLsbD_eq
  intro i below
  rw [BitVec.getLsbD_setWidth, BitVec.getLsbD_append]
  simp [below]

/-! ### `mdio_read` and `mdio_write` -/

theorem mask_small {x : U32} (small : x.toNat < 32) : x &&& 0x1f = x := by
  apply BitVec.eq_of_toNat_eq
  rw [BitVec.toNat_and]
  exact Nat.and_two_pow_sub_one_of_lt_two_pow (n := 5) small

theorem mask_wide {x : BitVec 16} (small : x.toNat < 32) : x.setWidth 32 &&& 0x1f = x.setWidth 32 :=
  mask_small (by rw [BitVec.toNat_setWidth_of_le (by omega)]; exact small)

variable {phy reg : BitVec 16}

/-- Whatever the polls, `mdio_read` returns the register. -/
theorem mdioRead_eq (phy_small : phy.toNat < 32) (reg_small : reg.toNat < 32) :
    (m.mdioRead phy reg).1 = Eth.mdioRead m.regs phy.toNat reg.toNat := by
  have command : (0xC0000000 ||| phy.setWidth 32 <<< 21 ||| reg.setWidth 32 <<< 16 : U32) =
      mdioCommandWord true (phy.setWidth 32) (reg.setWidth 32) 0 := by
    rw [mdioCommandWord, mask_wide phy_small, mask_wide reg_small]
    simp [mdioOp]
  have masked (word : BitVec 31) : ((word.setWidth 32 : U32) &&& 0xffff).setWidth 16 = word.setWidth 16 := by
    apply BitVec.eq_of_getLsbD_eq
    intro i below
    interval_cases i <;> simp
  simp only [mdioRead, wait_eq, command, order_read, readWhileBusy, polls_wide, masked, append_low, mask_wide phy_small,
    mask_wide reg_small]
  rw [BitVec.toNat_setWidth_of_le (by omega), BitVec.toNat_setWidth_of_le (by omega)]

theorem mdioWrite_eq (phy_small : phy.toNat < 32) (reg_small : reg.toNat < 32) (val : BitVec 16) :
    (m.mdioWrite phy reg val).regs = Eth.mdioWrite m.regs phy.toNat reg.toNat val := by
  have command : (0x80000000 ||| phy.setWidth 32 <<< 21 ||| reg.setWidth 32 <<< 16 ||| val.setWidth 32 : U32) =
      mdioCommandWord false (phy.setWidth 32) (reg.setWidth 32) val := by
    rw [mdioCommandWord, mask_wide phy_small, mask_wide reg_small]
    rfl
  simp only [mdioWrite, wait_eq, command, order_write_regs, mask_wide phy_small, mask_wide reg_small]
  rw [BitVec.toNat_setWidth_of_le (by omega), BitVec.toNat_setWidth_of_le (by omega)]

/-! ### `ppe_bit_mask_reg` -/

def BitChanged (bit : Fin 16) (stateOn : Bool) (old new : BitVec 16) : Prop :=
  ∀ i : Fin 16, new.getLsbD i = if i = bit then stateOn else old.getLsbD i

/-- The call writes the register back with the bit changed, and reports success. -/
def WritesBack (addr reg : U32) (bit : Fin 16) (stateOn : Bool) : Prop :=
  (m.ppeBitMaskReg addr reg bit.val stateOn).1 = 0 ∧
    ∃ new, BitChanged bit stateOn (Eth.mdioRead m.regs (addr &&& 0x1f).toNat (reg &&& 0x1f).toNat) new ∧
      (m.ppeBitMaskReg addr reg bit.val stateOn).2.regs =
        Eth.mdioWrite m.regs (addr &&& 0x1f).toNat (reg &&& 0x1f).toNat new

/-- The interface is not busy at the first poll after the read command, or what is read then already has the other
bits of the register. -/
def FirstPollTells (addr reg : U32) (bit : Fin 16) : Prop :=
  ∀ word ∈ (m.answers m.commands.length).1.head?, ∀ i : Fin 16, i ≠ bit →
    word.getLsbD i = (Eth.mdioRead m.regs (addr &&& 0x1f).toNat (reg &&& 0x1f).toNat).getLsbD i

def masked (bit : Fin 16) (stateOn : Bool) (value : BitVec 16) : BitVec 16 :=
  let valueMask : BitVec 16 := ((1 : U32) <<< (bit.val : Int).toNat).setWidth 16
  if stateOn then value ||| valueMask else value &&& ~~~valueMask

theorem masked_changes (bit : Fin 16) (stateOn : Bool) (value : BitVec 16) :
    BitChanged bit stateOn value (masked bit stateOn value) := by
  intro i
  have mask : (((1 : U32) <<< (bit.val : Int).toNat).setWidth 16).getLsbD i.val = decide (i = bit) := by
    revert i bit
    decide
  unfold masked
  cases stateOn with
  | true =>
    by_cases same : i = bit <;> simp only [if_true, BitVec.getLsbD_or, mask, same] <;> simp
  | false =>
    by_cases same : i = bit <;>
      simp only [Bool.false_eq_true, if_false, BitVec.getLsbD_and, BitVec.getLsbD_not, mask, same] <;> simp

/-- What the call takes for the register: the first poll after the read command. -/
def firstPoll (addr reg : U32) : BitVec 16 :=
  match (m.answers m.commands.length).1.head? with
  | none => Eth.mdioRead m.regs (addr &&& 0x1f).toNat (reg &&& 0x1f).toNat
  | some word => word.setWidth 16

theorem ppeBitMaskReg_eq (addr reg : U32) (bit : Fin 16) (stateOn : Bool) :
    (m.ppeBitMaskReg addr reg bit.val stateOn).1 = 0 ∧
      (m.ppeBitMaskReg addr reg bit.val stateOn).2.regs =
        Eth.mdioWrite m.regs (addr &&& 0x1f).toNat (reg &&& 0x1f).toNat
          (masked bit stateOn (m.firstPoll addr reg)) := by
  have allowed : ¬((bit.val : Int) < 0 ∨ (bit.val : Int) > 16) := by omega
  have command : (0xC0000000 ||| (addr &&& 0x1f) <<< 21 ||| (reg &&& 0x1f) <<< 16 : U32) =
      mdioCommandWord true addr reg 0 := by
    simp [mdioCommandWord, mdioOp]
  have read : (polls 16 ((m.answers m.commands.length).2 ++
      Eth.mdioRead m.regs (addr &&& 0x1f).toNat (reg &&& 0x1f).toNat) (m.answers m.commands.length).1).1 =
        m.firstPoll addr reg := by
    rw [polls_narrow, firstPoll]
    cases (m.answers m.commands.length).1.head? with
    | none => exact append_low _ _
    | some word => rfl
  simp only [ppeBitMaskReg, if_neg allowed, wait_eq, command, order_read, readWhileBusy, read, true_and]
  exact order_write_regs addr reg (masked bit stateOn (m.firstPoll addr reg)) _

theorem mdioWrite_injective {r : Mdio} {p q : Nat} {x y : BitVec 16} (same : Eth.mdioWrite r p q x = Eth.mdioWrite r p q y) :
    x = y := by
  have here := congrFun (congrFun same p) q
  simpa [Eth.mdioWrite] using here

/-- The register gets its old value with the bit changed exactly when the first poll tells that value. -/
theorem ppeBitMaskReg_writes_back_iff (addr reg : U32) (bit : Fin 16) (stateOn : Bool) :
    m.WritesBack addr reg bit stateOn ↔ m.FirstPollTells addr reg bit := by
  obtain ⟨success, regs⟩ := m.ppeBitMaskReg_eq addr reg bit stateOn
  have changed := masked_changes bit stateOn (m.firstPoll addr reg)
  constructor
  · rintro ⟨-, new, kept, written⟩ word busy i other
    have same := mdioWrite_injective (regs.symm.trans written)
    have bits := (changed i).symm.trans ((congrArg (·.getLsbD i.val) same).trans (kept i))
    have polled : m.firstPoll addr reg = word.setWidth 16 := by rw [firstPoll, Option.mem_def.mp busy]
    simpa [other, polled] using bits
  · intro tells
    refine ⟨success, _, fun i => (changed i).trans ?_, regs⟩
    by_cases same : i = bit
    · rw [if_pos same, if_pos same]
    · rw [if_neg same, if_neg same, firstPoll]
      cases polled : (m.answers m.commands.length).1.head? with
      | none => rfl
      | some word =>
        rw [← tells word polled i same, BitVec.getLsbD_setWidth]
        simp

end MdioInterface

def busyOnce : MdioInterface where
  regs := fun _ _ => 0x1234
  answers := fun _ => ([0], 0)

theorem bit_update_loses_register : ¬ busyOnce.WritesBack 8 4 0 true := by
  rintro ⟨-, new, kept, written⟩
  have value : (busyOnce.ppeBitMaskReg 8 4 0 true).2.regs 8 4 = 0x0001 := by decide
  have same : new = 0x0001 := by
    rw [← value]
    exact (congrFun (congrFun written 8) 4).symm
  subst same
  exact absurd (kept 2) (by decide)

end TwinpassGateway.Eth
