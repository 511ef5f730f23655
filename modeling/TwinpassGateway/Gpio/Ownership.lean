import TwinpassGateway.Foundation.Run
import TwinpassGateway.Foundation.LowestBit
import TwinpassGateway.Gpio.Port

/-!
The ownership of the pins over runs of the port driver: what a call may do, and for which calls that is all it does.
-/

namespace TwinpassGateway.Gpio

open Foundation

inductive PortFunction where
  | setOpenDrain
  | clearOpenDrain
  | setPudsel
  | clearPudsel
  | setPuden
  | clearPuden
  | setStoff
  | clearStoff
  | setDirOut
  | setDirIn
  | setOutput
  | clearOutput
  | toggleOutput
  | setAltsel0
  | clearAltsel0
  | setAltsel1
  | clearAltsel1
  deriving DecidableEq

namespace PortFunction

def operation : PortFunction → Operation
  | setOpenDrain => danubePortSetOpenDrain
  | clearOpenDrain => danubePortClearOpenDrain
  | setPudsel => danubePortSetPudsel
  | clearPudsel => danubePortClearPudsel
  | setPuden => danubePortSetPuden
  | clearPuden => danubePortClearPuden
  | setStoff => danubePortSetStoff
  | clearStoff => danubePortClearStoff
  | setDirOut => danubePortSetDirOut
  | setDirIn => danubePortSetDirIn
  | setOutput => danubePortSetOutput
  | clearOutput => danubePortClearOutput
  | toggleOutput => danubePortToggleOutput
  | setAltsel0 => danubePortSetAltsel0
  | clearAltsel0 => danubePortClearAltsel0
  | setAltsel1 => danubePortSetAltsel1
  | clearAltsel1 => danubePortClearAltsel1

def reg : PortFunction → Nat
  | setOpenDrain | clearOpenDrain => odReg
  | setPudsel | clearPudsel => pudselReg
  | setPuden | clearPuden => pudenReg
  | setStoff | clearStoff => stoffReg
  | setDirOut | setDirIn => dirReg
  | setOutput | clearOutput | toggleOutput => outReg
  | setAltsel0 | clearAltsel0 => altsel0Reg
  | setAltsel1 | clearAltsel1 => altsel1Reg

def bit : PortFunction → Bool → Bool
  | setOpenDrain | setPudsel | setPuden | setStoff | setDirOut | setOutput | setAltsel0 | setAltsel1 => fun _ => true
  | clearOpenDrain | clearPudsel | clearPuden | clearStoff | setDirIn | clearOutput | clearAltsel0 | clearAltsel1 =>
    fun _ => false
  | toggleOutput => fun b => !b

end PortFunction

/-- A module by a number that is not 0. -/
abbrev ModuleId := { m : Int // m ≠ 0 }

inductive PortCall where
  | reserve (port pin : Int) (moduleId : ModuleId)
  | free (port pin : Int) (moduleId : ModuleId)
  | operate (f : PortFunction) (port pin : Int) (moduleId : ModuleId)
  | getInput (port pin : Int) (moduleId : ModuleId)
  | ioctl (c : IoctlCall)

namespace PortCall

def run (s : Ports) : PortCall → Option (Int × Ports)
  | reserve port pin m => danubePortReservePin port pin m s
  | free port pin m => danubePortFreePin port pin m s
  | operate f port pin m => f.operation port pin m s
  | getInput port pin m => danubePortGetInput port pin m s
  | ioctl c => (danubePortIoctl c s).map fun (ret, s, _) => (ret, s)

end PortCall

/-- The state after a call; where an access leaves its table it is not known, and the state stays. -/
def Ports.next (s : Ports) (c : PortCall) : Ports := ((c.run s).map (·.2)).getD s

/-! ### What a call may do -/

def regAddr (port : Int) (reg : Nat) : Nat := danubeGpio + 0x30 * port.toNat + reg

/-- The pin's bit of one register is changed by `new`, and nothing else is. -/
def OnlyBit (port pin : Int) (reg : Nat) (new : Bool → Bool) (s t : Ports) : Prop :=
  t.usage = s.usage ∧ ∀ addr (i : Fin 32), (t.regs addr).getLsbD i =
    if addr = regAddr port reg ∧ (i.val : Int) = pin then new ((s.regs addr).getLsbD i) else (s.regs addr).getLsbD i

def Rejected (s : Ports) (r : Option (Int × Ports)) : Prop := ∃ ret, ret < 0 ∧ r = some (ret, s)

def Owned (s : Ports) (port pin m : Int) : Prop := Pin port pin ∧ s.usage port pin = m

instance (s : Ports) (port pin m : Int) : Decidable (Owned s port pin m) := inferInstanceAs (Decidable (_ ∧ _))

/-- The accesses of a call are inside the tables, it is rejected unless the pin is its module's (or free, for a
reservation), it changes no more than it is for, and an ioctl leaves every pin to its owner. -/
def Proper (s : Ports) : PortCall → Option (Int × Ports) → Prop
  | .reserve port pin m, r => if Owned s port pin 0 then r = some (ok, s.setUsage port pin m) else Rejected s r
  | .free port pin m, r => if Owned s port pin m then r = some (ok, s.setUsage port pin 0) else Rejected s r
  | .operate f port pin m, r =>
    if Owned s port pin m then ∃ t, r = some (ok, t) ∧ OnlyBit port pin f.reg f.bit s t else Rejected s r
  | .getInput port pin m, r =>
    if Owned s port pin m then r = some (if (s.regs (regAddr port inReg)).getLsbD pin.toNat then 1 else 0, s)
    else Rejected s r
  | .ioctl c, r => Rejected s r ∨ Owned s c.parm.port c.parm.pin 0 ∧ ∃ ret t, r = some (ret, t) ∧ t.usage = s.usage ∧
      (t = s ∨ ∃ f : PortFunction, OnlyBit c.parm.port c.parm.pin f.reg f.bit s t)

/-! ### When it is all -/

/-- One past the last port or the last pin, which the tests let through. -/
def OnePast (port pin : Int) : Prop := (0 ≤ port ∧ port ≤ 2) ∧ (0 ≤ pin ∧ pin ≤ 16) ∧ (port = 2 ∨ pin = 16)

instance (port pin : Int) : Decidable (OnePast port pin) := inferInstanceAs (Decidable (_ ∧ _))

/-- The ioctl gets as far as a pin. -/
def IoctlCall.Reaches (c : IoctlCall) : Prop :=
  iocType c.cmd = danubePortIocMagic ∧ (iocDir c.cmd &&& iocWrite ≠ 0 → c.readable = true) ∧
    (iocDir c.cmd &&& iocRead ≠ 0 → c.writable = true) ∧ c.semFree = true ∧
      (c.cmd = danubePortIocinput ∨ (iocOperation c.cmd).isSome)

/-- No number is one past its end, and no input is asked of a pin that a module has reserved under the number of the
port driver. -/
def InTables (s : Ports) : PortCall → Prop
  | .reserve port pin _ | .free port pin _ | .operate _ port pin _ | .getInput port pin _ => ¬ OnePast port pin
  | .ioctl c => c.Reaches → ¬ OnePast c.parm.port c.parm.pin ∧
      (c.cmd = danubePortIocinput → ¬ Owned s c.parm.port c.parm.pin portModuleId)

variable {s : Ports} {port pin m : Int}

theorem pin_cases (port pin : Int) :
    (badPin port pin = true ∧ ¬ Pin port pin ∧ ¬ OnePast port pin) ∨
      (badPin port pin = false ∧ Pin port pin ∧ ¬ OnePast port pin) ∨
        (badPin port pin = false ∧ ¬ Pin port pin ∧ OnePast port pin) := by
  unfold badPin Pin OnePast maxPorts pinsPerPort
  simp only [Bool.or_eq_true, Bool.or_eq_false_iff, decide_eq_true_eq, decide_eq_false_iff_not]
  omega

theorem portBase_eq (valid : Pin port pin) : portBase port = some (danubeGpio + 0x30 * port.toNat) := by
  obtain ⟨⟨low, high⟩, -⟩ := valid
  unfold maxPorts at high
  have two : port = 0 ∨ port = 1 := by omega
  obtain rfl | rfl := two <;> rfl

/-! ### The calls -/

/-- An operation behind the two tests, whose result is good when it is the owner's. -/
theorem proper_iff {r : Option (Int × Ports)} {k : Int → Option (Int × Ports)} (x : Int) {Good : Option (Int × Ports) → Prop}
    (tested : r = if badPin port pin then some (eInval, s) else (s.pinUsage port pin).bind k)
    (acts : Pin port pin → if s.usage port pin = x then Good (k (s.usage port pin)) else Rejected s (k (s.usage port pin))) :
    (if Owned s port pin x then Good r else Rejected s r) ↔ ¬ OnePast port pin := by
  obtain ⟨bad, invalid, short⟩ | ⟨good, valid, short⟩ | ⟨good, invalid, past⟩ := pin_cases port pin
  · rw [if_neg fun owned => invalid owned.1, tested, if_pos bad]
    exact ⟨fun _ => short, fun _ => ⟨eInval, by decide, rfl⟩⟩
  · rw [good, if_neg Bool.false_ne_true, Ports.pinUsage, if_pos valid] at tested
    rw [tested]
    have reached := acts valid
    refine ⟨fun _ => short, fun _ => ?_⟩
    by_cases owner : s.usage port pin = x
    · rw [if_pos owner] at reached
      rw [if_pos ⟨valid, owner⟩]
      exact reached
    · rw [if_neg owner] at reached
      rw [if_neg fun owned => owner owned.2]
      exact reached
  · rw [good, if_neg Bool.false_ne_true, Ports.pinUsage, if_neg invalid] at tested
    rw [if_neg fun owned => invalid owned.1, tested]
    refine ⟨?_, fun short => absurd past short⟩
    rintro ⟨ret, -, none⟩
    cases none

theorem busy_rejected (s : Ports) : Rejected s (some (eBusy, s)) := ⟨eBusy, by decide, rfl⟩

theorem reserve_proper (s : Ports) (port pin : Int) (m : Int) :
    (if Owned s port pin 0 then danubePortReservePin port pin m s = some (ok, s.setUsage port pin m)
      else Rejected s (danubePortReservePin port pin m s)) ↔ ¬ OnePast port pin := by
  apply @proper_iff s port pin _ (fun user => some (if user = 0 then (ok, s.setUsage port pin m) else (eBusy, s))) 0
    (· = some (ok, s.setUsage port pin m)) (by rw [danubePortReservePin, Option.map_eq_bind]; rfl)
  intro _
  split
  · rfl
  · exact busy_rejected s

theorem free_proper (s : Ports) (port pin : Int) (m : Int) :
    (if Owned s port pin m then danubePortFreePin port pin m s = some (ok, s.setUsage port pin 0)
      else Rejected s (danubePortFreePin port pin m s)) ↔ ¬ OnePast port pin := by
  apply @proper_iff s port pin _ (fun user => some (if user ≠ m then (eBusy, s) else (ok, s.setUsage port pin 0))) m
    (· = some (ok, s.setUsage port pin 0)) (by rw [danubePortFreePin, Option.map_eq_bind]; rfl)
  intro _
  by_cases owner : s.usage port pin = m
  · rw [if_pos owner, if_neg (not_not.mpr owner)]
  · rw [if_neg owner, if_pos owner]
    exact busy_rejected s

/-- A function of the family, by what it does to the bits of its register. -/
theorem operation_eq (f : PortFunction) : ∃ change, f.operation = pinOp f.reg change ∧
    ∀ (value : U32) (n : Nat) (i : Fin 32), (change value (1#32 <<< n)).getLsbD i =
      if i.val = n then f.bit (value.getLsbD i) else value.getLsbD i := by
  have set (value : U32) (n : Nat) (i : Fin 32) : (setBit value (1#32 <<< n)).getLsbD i =
      if i.val = n then true else value.getLsbD i := by
    rw [setBit, BitVec.getLsbD_or, one_shiftLeft_bit n i.isLt]
    by_cases same : i.val = n <;> simp [same]
  have clear (value : U32) (n : Nat) (i : Fin 32) : (clearBit value (1#32 <<< n)).getLsbD i =
      if i.val = n then false else value.getLsbD i := by
    rw [clearBit, BitVec.getLsbD_and, BitVec.getLsbD_not, one_shiftLeft_bit n i.isLt]
    by_cases same : i.val = n <;> simp [same]
  have toggle (value : U32) (n : Nat) (i : Fin 32) : (toggleBit value (1#32 <<< n)).getLsbD i =
      if i.val = n then !value.getLsbD i else value.getLsbD i := by
    rw [toggleBit, BitVec.getLsbD_xor, one_shiftLeft_bit n i.isLt]
    by_cases same : i.val = n <;> simp [same]
  cases f with
  | toggleOutput => exact ⟨toggleBit, rfl, toggle⟩
  | setOpenDrain | setPudsel | setPuden | setStoff | setDirOut | setOutput | setAltsel0 | setAltsel1 =>
    exact ⟨setBit, rfl, set⟩
  | clearOpenDrain | clearPudsel | clearPuden | clearStoff | setDirIn | clearOutput | clearAltsel0 | clearAltsel1 =>
    exact ⟨clearBit, rfl, clear⟩

theorem operate_proper (s : Ports) (f : PortFunction) (port pin : Int) (m : Int) :
    (if Owned s port pin m then ∃ t, f.operation port pin m s = some (ok, t) ∧ OnlyBit port pin f.reg f.bit s t
      else Rejected s (f.operation port pin m s)) ↔ ¬ OnePast port pin := by
  obtain ⟨change, shape, bits⟩ := operation_eq f
  rw [shape]
  apply @proper_iff s port pin _ _ m (fun r => ∃ t, r = some (ok, t) ∧ OnlyBit port pin f.reg f.bit s t) rfl
  intro valid
  by_cases owner : s.usage port pin = m
  · rw [if_pos owner, if_neg (not_not.mpr owner), portBase_eq valid]
    refine ⟨_, rfl, rfl, fun addr i => ?_⟩
    have low : 0 ≤ pin := valid.2.1
    have number : i.val = pin.toNat ↔ (i.val : Int) = pin := by omega
    dsimp only
    by_cases here : addr = regAddr port f.reg
    · subst here
      rw [regAddr, Function.update_self, bits]
      by_cases own : i.val = pin.toNat
      · rw [if_pos own, if_pos ⟨rfl, number.mp own⟩]
      · rw [if_neg own, if_neg fun h => own (number.mpr h.2)]
    · rw [if_neg fun h => here h.1]
      exact congrArg (fun w : U32 => w.getLsbD i.val) (Function.update_of_ne here _ _)
  · rw [if_neg owner, if_pos owner]
    exact busy_rejected s

theorem getInput_proper (s : Ports) (port pin : Int) (m : Int) :
    (if Owned s port pin m then
        danubePortGetInput port pin m s = some (if (s.regs (regAddr port inReg)).getLsbD pin.toNat then 1 else 0, s)
      else Rejected s (danubePortGetInput port pin m s)) ↔ ¬ OnePast port pin := by
  apply @proper_iff s port pin _ _ m
    (· = some (if (s.regs (regAddr port inReg)).getLsbD pin.toNat then 1 else 0, s)) rfl
  intro valid
  by_cases owner : s.usage port pin = m
  · rw [if_pos owner, if_neg (not_not.mpr owner), portBase_eq valid]
    have below : pin.toNat < 32 := by
      obtain ⟨-, low, high⟩ := valid
      unfold pinsPerPort at high
      omega
    have read : s.regs (regAddr port inReg) &&& (1#32 <<< pin.toNat) = 0 ↔
        (s.regs (regAddr port inReg)).getLsbD pin.toNat = false := and_one_shiftLeft_eq_zero below
    show some ((if s.regs (regAddr port inReg) &&& (1#32 <<< pin.toNat) = 0 then 0 else 1 : Int), s) = _
    cases bit : (s.regs (regAddr port inReg)).getLsbD pin.toNat with
    | false => rw [if_pos (read.mpr bit), if_neg Bool.false_ne_true]
    | true => rw [if_neg fun clear => Bool.noConfusion (bit.symm.trans (read.mp clear)), if_pos rfl]
  · rw [if_neg owner, if_pos owner]
    exact busy_rejected s

/-! ### The ioctl -/

theorem setUsage_self (s : Ports) (port pin m : Int) : (s.setUsage port pin m).usage port pin = m := by
  simp [Ports.setUsage]

theorem setUsage_back (s : Ports) {port pin : Int} (free : s.usage port pin = 0) (m : Int) :
    (s.setUsage port pin m).setUsage port pin 0 = s := by
  obtain ⟨usage, regs⟩ := s
  dsimp only at free
  simp [Ports.setUsage, ← free]

theorem reserve_bad (bad : badPin port pin = true) : danubePortReservePin port pin m s = some (eInval, s) := if_pos bad

theorem free_bad (bad : badPin port pin = true) : danubePortFreePin port pin m s = some (eInval, s) := if_pos bad

theorem reserve_past (good : badPin port pin = false) (invalid : ¬ Pin port pin) :
    danubePortReservePin port pin m s = none := by
  rw [danubePortReservePin, good, if_neg Bool.false_ne_true, Ports.pinUsage, if_neg invalid]
  rfl

theorem reserve_valid (good : badPin port pin = false) (valid : Pin port pin) :
    danubePortReservePin port pin m s =
      some (if s.usage port pin = 0 then (ok, s.setUsage port pin m) else (eBusy, s)) := by
  rw [danubePortReservePin, good, if_neg Bool.false_ne_true, Ports.pinUsage, if_pos valid]
  rfl

theorem free_valid (good : badPin port pin = false) (valid : Pin port pin) :
    danubePortFreePin port pin m s =
      some (if s.usage port pin ≠ m then (eBusy, s) else (ok, s.setUsage port pin 0)) := by
  rw [danubePortFreePin, good, if_neg Bool.false_ne_true, Ports.pinUsage, if_pos valid]
  rfl

theorem ifOk_ok (s : Ports) (next : Ports → Option (Int × Ports)) : ifOk (ok, s) next = next s := rfl

theorem ifOk_busy (s : Ports) (next : Ports → Option (Int × Ports)) : ifOk (eBusy, s) next = some (eBusy, s) := rfl

/-- A pin that is reserved for one operation and freed again. -/
theorem iocCall_cases (s : Ports) (port pin : Int) (f : PortFunction) :
    (OnePast port pin ∧ portIocCall port pin f.operation s = none) ∨
      ¬ OnePast port pin ∧ (Rejected s (portIocCall port pin f.operation s) ∨ Owned s port pin 0 ∧
        ∃ t, portIocCall port pin f.operation s = some (ok, t) ∧ OnlyBit port pin f.reg f.bit s t) := by
  obtain ⟨bad, invalid, short⟩ | ⟨good, valid, short⟩ | ⟨good, invalid, past⟩ := pin_cases port pin
  · refine .inr ⟨short, .inl ⟨eInval, by decide, ?_⟩⟩
    rw [portIocCall, reserve_bad bad]
    rfl
  · refine .inr ⟨short, ?_⟩
    by_cases free : s.usage port pin = 0
    · have owned : Owned (s.setUsage port pin portModuleId) port pin portModuleId := ⟨valid, setUsage_self ..⟩
      have acted := (operate_proper (s.setUsage port pin portModuleId) f port pin portModuleId).mpr short
      rw [if_pos owned] at acted
      obtain ⟨t, done, usage, bits⟩ := acted
      have mine : t.usage port pin = portModuleId := by rw [usage, setUsage_self]
      have back : (t.setUsage port pin 0).usage = s.usage := by
        show Function.update t.usage port (Function.update (t.usage port) pin 0) = s.usage
        rw [usage]
        exact congrArg Ports.usage (setUsage_back s free portModuleId)
      refine .inr ⟨⟨valid, free⟩, t.setUsage port pin 0, ?_, back, bits⟩
      rw [portIocCall, reserve_valid good valid, if_pos free, Option.bind_some, ifOk_ok, done, Option.bind_some,
        ifOk_ok, free_valid good valid, if_neg (not_not.mpr mine)]
    · refine .inl ⟨eBusy, by decide, ?_⟩
      rw [portIocCall, reserve_valid good valid, if_neg free, Option.bind_some, ifOk_busy, Option.bind_some, ifOk_busy]
  · refine .inl ⟨past, ?_⟩
    rw [portIocCall, reserve_past good invalid]
    rfl

/-- The input of a pin: nothing is left of the reservation, but the one of a module with the driver's number goes. -/
theorem iocInput_cases (s : Ports) (parm : IoctlParm) :
    (OnePast parm.port parm.pin ∧ portIocInput parm s = none) ∨
      (Owned s parm.port parm.pin portModuleId ∧
        portIocInput parm s = some (ok, s.setUsage parm.port parm.pin 0, parm)) ∨
      ¬ OnePast parm.port parm.pin ∧ ¬ Owned s parm.port parm.pin portModuleId ∧
        ∃ ret value, portIocInput parm s = some (ret, s, value) ∧ (ret < 0 ∨ Owned s parm.port parm.pin 0) := by
  obtain ⟨bad, invalid, short⟩ | ⟨good, valid, short⟩ | ⟨good, invalid, past⟩ := pin_cases parm.port parm.pin
  · refine .inr (.inr ⟨short, fun owned => invalid owned.1, eInval, parm, ?_, .inl (by decide)⟩)
    rw [portIocInput, reserve_bad bad, Option.bind_some, free_bad bad]
    rfl
  · by_cases free : s.usage parm.port parm.pin = 0
    · have owned : Owned (s.setUsage parm.port parm.pin portModuleId) parm.port parm.pin portModuleId :=
        ⟨valid, setUsage_self ..⟩
      have read := (getInput_proper (s.setUsage parm.port parm.pin portModuleId) parm.port parm.pin portModuleId).mpr short
      rw [if_pos owned] at read
      refine .inr (.inr ⟨short, fun clash => ?_, ok, { parm with
        value := if ((s.setUsage parm.port parm.pin portModuleId).regs (regAddr parm.port inReg)).getLsbD parm.pin.toNat
          then 1 else 0 }, ?_, .inr ⟨valid, free⟩⟩)
      · have zero := clash.2
        rw [free] at zero
        exact absurd zero (by decide)
      · rw [portIocInput, reserve_valid good valid, if_pos free, Option.bind_some]
        show Option.bind (Option.map _ (danubePortGetInput _ _ _ (s.setUsage _ _ _))) _ = _
        rw [read, Option.map_some, Option.bind_some]
        show Option.map _ (danubePortFreePin _ _ _ (s.setUsage _ _ _)) = _
        rw [free_valid good valid, if_neg (not_not.mpr owned.2), Option.map_some, setUsage_back s free]
    · -- the reservation fails, and the pin is freed all the same
      have tried : portIocInput parm s =
          (danubePortFreePin parm.port parm.pin portModuleId s).map fun r => (r.1, r.2, parm) := by
        rw [portIocInput, reserve_valid good valid, if_neg free]
        rfl
      by_cases mine : s.usage parm.port parm.pin = portModuleId
      · refine .inr (.inl ⟨⟨valid, mine⟩, ?_⟩)
        rw [tried, free_valid good valid, if_neg (not_not.mpr mine)]
        rfl
      · refine .inr (.inr ⟨short, fun owned => mine owned.2, eBusy, parm, ?_, .inl (by decide)⟩)
        rw [tried, free_valid good valid, if_pos mine]
        rfl
  · refine .inl ⟨past, ?_⟩
    rw [portIocInput, reserve_past good invalid]
    rfl

theorem iocOperation_functions {cmd : U32} {clear set : Operation} (found : iocOperation cmd = some (clear, set)) :
    ∃ f g : PortFunction, clear = f.operation ∧ set = g.operation := by
  unfold iocOperation at found
  split at found
  · cases found; exact ⟨.clearOpenDrain, .setOpenDrain, rfl, rfl⟩
  split at found
  · cases found; exact ⟨.clearPudsel, .setPudsel, rfl, rfl⟩
  split at found
  · cases found; exact ⟨.clearPuden, .setPuden, rfl, rfl⟩
  split at found
  · cases found; exact ⟨.clearStoff, .setStoff, rfl, rfl⟩
  split at found
  · cases found; exact ⟨.setDirIn, .setDirOut, rfl, rfl⟩
  split at found
  · cases found; exact ⟨.clearOutput, .setOutput, rfl, rfl⟩
  split at found
  · cases found; exact ⟨.clearAltsel0, .setAltsel0, rfl, rfl⟩
  split at found
  · cases found; exact ⟨.clearAltsel1, .setAltsel1, rfl, rfl⟩
  · cases found

/-- What the ioctl does once it has got as far as the command. -/
theorem ioctl_cases (c : IoctlCall) (s : Ports) :
    (¬ c.Reaches ∧ ∃ ret, ret < 0 ∧ danubePortIoctl c s = some (ret, s, none)) ∨
      c.Reaches ∧ (c.cmd = danubePortIocinput ∧
          danubePortIoctl c s = (portIocInput c.parm s).map (fun (ret, s, parm) => (ret, s, some parm)) ∨
        c.cmd ≠ danubePortIocinput ∧ ∃ f : PortFunction, danubePortIoctl c s =
          (portIocCall c.parm.port c.parm.pin f.operation s).map fun (ret, s) => (ret, s, none)) := by
  unfold danubePortIoctl
  split
  case isTrue other => exact .inl ⟨fun reached => other reached.1, eInval, by decide, rfl⟩
  case isFalse own =>
  split
  case isTrue unreadable =>
    refine .inl ⟨fun reached => ?_, eFault, by decide, rfl⟩
    exact Bool.false_ne_true (unreadable.2.symm.trans (reached.2.1 unreadable.1))
  case isFalse readable =>
  split
  case isTrue unwritable =>
    refine .inl ⟨fun reached => ?_, eFault, by decide, rfl⟩
    exact Bool.false_ne_true (unwritable.2.symm.trans (reached.2.2.1 unwritable.1))
  case isFalse writable =>
  split
  case isTrue taken =>
    exact .inl ⟨fun reached => Bool.false_ne_true (taken.symm.trans reached.2.2.2.1), eBusy, by decide, rfl⟩
  case isFalse sem =>
  have reaches (known : c.cmd = danubePortIocinput ∨ (iocOperation c.cmd).isSome) : c.Reaches := by
    refine ⟨not_not.mp own, fun dir => ?_, fun dir => ?_, eq_true_of_ne_false sem, known⟩
    · exact eq_true_of_ne_false fun unreadable => readable ⟨dir, unreadable⟩
    · exact eq_true_of_ne_false fun unwritable => writable ⟨dir, unwritable⟩
  split
  case isTrue input => exact .inr ⟨reaches (.inl input), .inl ⟨input, rfl⟩⟩
  case isFalse other =>
  cases found : iocOperation c.cmd with
  | none =>
    refine .inl ⟨?_, eInval, by decide, rfl⟩
    rintro ⟨-, -, -, -, input | known⟩
    · exact other input
    · rw [found] at known
      cases known
  | some pair =>
    obtain ⟨clear, set⟩ := pair
    obtain ⟨f, g, rfl, rfl⟩ := iocOperation_functions found
    refine .inr ⟨reaches (.inr (by rw [found]; rfl)), .inr ⟨other, if c.parm.value = 0 then f else g, ?_⟩⟩
    rw [apply_ite PortFunction.operation]

theorem ioctl_proper (s : Ports) (c : IoctlCall) :
    Proper s (.ioctl c) (PortCall.run s (.ioctl c)) ↔ InTables s (.ioctl c) := by
  rw [PortCall.run]
  obtain ⟨away, ret, error, same⟩ | ⟨reached, ⟨input, read⟩ | ⟨other, f, acted⟩⟩ := ioctl_cases c s
  · rw [same]
    exact ⟨fun _ reached => absurd reached away, fun _ => .inl ⟨ret, error, rfl⟩⟩
  · rw [read]
    obtain ⟨past, out⟩ | ⟨owned, freed⟩ | ⟨short, others, ret, value, kept, result⟩ := iocInput_cases s c.parm
    · rw [out]
      refine ⟨?_, fun inside => absurd past (inside reached).1⟩
      rintro (⟨ret, -, none⟩ | ⟨-, ret, t, none, -⟩) <;> cases none
    · rw [freed]
      refine ⟨?_, fun inside => absurd owned ((inside reached).2 input)⟩
      rintro (⟨ret, error, done⟩ | ⟨free, -⟩)
      · have code : ok = ret := congrArg Prod.fst (Option.some.inj done)
        rw [← code] at error
        exact absurd error (by decide)
      · have both := free.2.symm.trans owned.2
        exact absurd both (by decide)
    · rw [kept]
      refine ⟨fun _ _ => ⟨short, fun _ => others⟩, fun _ => ?_⟩
      obtain error | free := result
      · exact .inl ⟨ret, error, rfl⟩
      · exact .inr ⟨free, ret, s, rfl, rfl, .inl rfl⟩
  · rw [acted]
    obtain ⟨past, out⟩ | ⟨short, ⟨ret, error, done⟩ | ⟨free, t, done, bits⟩⟩ :=
      iocCall_cases s c.parm.port c.parm.pin f
    · rw [out]
      refine ⟨?_, fun inside => absurd past (inside reached).1⟩
      rintro (⟨ret, -, none⟩ | ⟨-, ret, t, none, -⟩) <;> cases none
    · rw [done]
      exact ⟨fun _ _ => ⟨short, fun input => absurd input other⟩, fun _ => .inl ⟨ret, error, rfl⟩⟩
    · rw [done]
      refine ⟨fun _ _ => ⟨short, fun input => absurd input other⟩, fun _ => ?_⟩
      exact .inr ⟨free, ok, t, rfl, bits.1, .inr ⟨f, bits⟩⟩

theorem call_proper (s : Ports) (c : PortCall) : Proper s c (c.run s) ↔ InTables s c := by
  cases c with
  | reserve port pin m => exact reserve_proper s port pin m
  | free port pin m => exact free_proper s port pin m
  | operate f port pin m => exact operate_proper s f port pin m
  | getInput port pin m => exact getInput_proper s port pin m
  | ioctl c => exact ioctl_proper s c

/-- In a run from any map, every call does what it may and no more just when every call is inside the tables and no
input is read of a pin that the driver's own number holds. -/
theorem pins_stay_with_owner_iff (s : Ports) (calls : List PortCall) :
    Guarded Ports.next (fun s c => Proper s c (c.run s)) s calls ↔ Guarded Ports.next InTables s calls := by
  refine @guarded_congr Ports PortCall Ports.next _ _ (fun _ => True) ?_ (fun _ _ _ _ => trivial) s trivial calls
  exact fun s c _ => call_proper s c

/-- Port 2 does not exist and is not refused, and the input of a pin of module 255 takes the pin from it. -/
theorem reserve_leaves_tables :
    ¬ Guarded Ports.next (fun s c => Proper s c (c.run s)) ⟨fun _ _ => 0, fun _ => 0⟩
        [.reserve 2 0 ⟨1, by decide⟩] ∧
      ¬ Guarded Ports.next (fun s c => Proper s c (c.run s)) ⟨fun _ _ => 0, fun _ => 0⟩
        [.reserve 0 3 ⟨255, by decide⟩, .ioctl ⟨danubePortIocinput, true, true, ⟨0, 3, 0⟩, true⟩] := by
  constructor
  · rintro ⟨reserved, -⟩
    exact (call_proper _ _).mp reserved (by decide)
  · rintro ⟨-, input, -⟩
    have reached : IoctlCall.Reaches ⟨danubePortIocinput, true, true, ⟨0, 3, 0⟩, true⟩ := by
      exact ⟨rfl, fun _ => rfl, fun _ => rfl, rfl, .inl rfl⟩
    exact ((call_proper _ _).mp input reached).2 rfl (by decide)

end TwinpassGateway.Gpio
