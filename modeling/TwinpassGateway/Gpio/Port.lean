import TwinpassGateway.Foundation.Word
import Mathlib.Data.BitVec
import Mathlib.Tactic

/-!
The port driver of `port.c`: who has reserved which pin, the operations on the pins, and the ioctl that reserves a pin
for one operation. A result of `none` is an access outside a table.
-/

namespace TwinpassGateway.Gpio

open Foundation

def maxPorts : Int := 2

def pinsPerPort : Int := 16

def danubeGpio : Nat := 0xBE100B00

def outReg : Nat := 0x10
def inReg : Nat := 0x14
def dirReg : Nat := 0x18
def altsel0Reg : Nat := 0x1C
def altsel1Reg : Nat := 0x20
def odReg : Nat := 0x24
def stoffReg : Nat := 0x28
def pudselReg : Nat := 0x2C
def pudenReg : Nat := 0x30

def portModuleId : Int := 0xff

def ok : Int := 0

def eFault : Int := -14

def eBusy : Int := -16

def eInval : Int := -22

structure Ports where
  /-- `danube_port_pin_usage`, 0 for a pin that is free. -/
  usage : Int → Int → Int
  /-- The registers by their addresses. -/
  regs : Nat → U32

def Pin (port pin : Int) : Prop := (0 ≤ port ∧ port < maxPorts) ∧ 0 ≤ pin ∧ pin < pinsPerPort

instance (port pin : Int) : Decidable (Pin port pin) := inferInstanceAs (Decidable (_ ∧ _))

namespace Ports

/-- `danube_port_pin_usage[port][pin]`. -/
def pinUsage (s : Ports) (port pin : Int) : Option Int := if Pin port pin then some (s.usage port pin) else none

def setUsage (s : Ports) (port pin moduleId : Int) : Ports :=
  { s with usage := Function.update s.usage port (Function.update (s.usage port) pin moduleId) }

end Ports

/-- `danube_port_bases[port]`. -/
def portBase (port : Int) : Option Nat :=
  if port = 0 then some danubeGpio else if port = 1 then some (danubeGpio + 0x30) else none

/-- The two tests before each access, as all operations make them. -/
def badPin (port pin : Int) : Bool := (port < 0 || pin < 0) || (port > maxPorts || pin > pinsPerPort)

def danubePortReservePin (port pin moduleId : Int) (s : Ports) : Option (Int × Ports) :=
  if badPin port pin then some (eInval, s)
  else
    (s.pinUsage port pin).map fun user =>
      if user = 0 then (ok, s.setUsage port pin moduleId) else (eBusy, s)

def danubePortFreePin (port pin moduleId : Int) (s : Ports) : Option (Int × Ports) :=
  if badPin port pin then some (eInval, s)
  else
    (s.pinUsage port pin).map fun user =>
      if user ≠ moduleId then (eBusy, s) else (ok, s.setUsage port pin 0)

/-- What the operations on a register share: with the value of the register and `1 << pin`, its new value. -/
def pinOp (reg : Nat) (change : U32 → U32 → U32) (port pin moduleId : Int) (s : Ports) : Option (Int × Ports) :=
  if badPin port pin then some (eInval, s)
  else
    (s.pinUsage port pin).bind fun user =>
      if user ≠ moduleId then some (eBusy, s)
      else
        (portBase port).map fun base =>
          let bit : U32 := 1#32 <<< pin.toNat
          (ok, { s with regs := Function.update s.regs (base + reg) (change (s.regs (base + reg)) bit) })

def setBit (value bit : U32) : U32 := value ||| bit

def clearBit (value bit : U32) : U32 := value &&& ~~~bit

def toggleBit (value bit : U32) : U32 := value ^^^ bit

abbrev Operation := Int → Int → Int → Ports → Option (Int × Ports)

def danubePortSetOpenDrain : Operation := pinOp odReg setBit
def danubePortClearOpenDrain : Operation := pinOp odReg clearBit
def danubePortSetPudsel : Operation := pinOp pudselReg setBit
def danubePortClearPudsel : Operation := pinOp pudselReg clearBit
def danubePortSetPuden : Operation := pinOp pudenReg setBit
def danubePortClearPuden : Operation := pinOp pudenReg clearBit
def danubePortSetStoff : Operation := pinOp stoffReg setBit
def danubePortClearStoff : Operation := pinOp stoffReg clearBit
def danubePortSetDirOut : Operation := pinOp dirReg setBit
def danubePortSetDirIn : Operation := pinOp dirReg clearBit
def danubePortSetOutput : Operation := pinOp outReg setBit
def danubePortClearOutput : Operation := pinOp outReg clearBit
def danubePortToggleOutput : Operation := pinOp outReg toggleBit
def danubePortSetAltsel0 : Operation := pinOp altsel0Reg setBit
def danubePortClearAltsel0 : Operation := pinOp altsel0Reg clearBit
def danubePortSetAltsel1 : Operation := pinOp altsel1Reg setBit
def danubePortClearAltsel1 : Operation := pinOp altsel1Reg clearBit

def danubePortGetInput (port pin moduleId : Int) (s : Ports) : Option (Int × Ports) :=
  if badPin port pin then some (eInval, s)
  else
    (s.pinUsage port pin).bind fun user =>
      if user ≠ moduleId then some (eBusy, s)
      else (portBase port).map fun base => (if s.regs (base + inReg) &&& (1#32 <<< pin.toNat) = 0 then 0 else 1, s)

/-! ### The ioctl -/

structure IoctlParm where
  port : Int
  pin : Int
  value : Int

/-- `_IOC`, `_IOC_TYPE` and `_IOC_DIR`. -/
def ioc (dir type nr size : U32) : U32 := (dir <<< 29) ||| (type <<< 8) ||| nr ||| (size <<< 16)

def iocType (cmd : U32) : U32 := (cmd >>> 8) &&& 0xff

def iocDir (cmd : U32) : U32 := (cmd >>> 29) &&& 7

def iocRead : U32 := 2

def iocWrite : U32 := 4

def danubePortIocMagic : U32 := 0xbf

def iow (nr : U32) : U32 := ioc iocWrite danubePortIocMagic nr 12

def danubePortIocinput : U32 := ioc (iocRead ||| iocWrite) danubePortIocMagic 6 12

/-- The commands that set or clear a bit: the operation for `value == 0`, and the other one. -/
def iocOperation (cmd : U32) : Option (Operation × Operation) :=
  if cmd = iow 0 then some (danubePortClearOpenDrain, danubePortSetOpenDrain)
  else if cmd = iow 1 then some (danubePortClearPudsel, danubePortSetPudsel)
  else if cmd = iow 2 then some (danubePortClearPuden, danubePortSetPuden)
  else if cmd = iow 3 then some (danubePortClearStoff, danubePortSetStoff)
  else if cmd = iow 4 then some (danubePortSetDirIn, danubePortSetDirOut)
  else if cmd = iow 5 then some (danubePortClearOutput, danubePortSetOutput)
  else if cmd = iow 7 then some (danubePortClearAltsel0, danubePortSetAltsel0)
  else if cmd = iow 8 then some (danubePortClearAltsel1, danubePortSetAltsel1)
  else none

/-- `if (ret == 0) ret = next;` -/
def ifOk (r : Int × Ports) (next : Ports → Option (Int × Ports)) : Option (Int × Ports) :=
  if r.1 = 0 then next r.2 else some r

def portIocCall (port pin : Int) (func : Operation) (s : Ports) : Option (Int × Ports) :=
  (danubePortReservePin port pin portModuleId s).bind fun r =>
    (ifOk r (func port pin portModuleId)).bind fun r => ifOk r (danubePortFreePin port pin portModuleId)

def portIocInput (parm : IoctlParm) (s : Ports) : Option (Int × Ports × IoctlParm) :=
  (danubePortReservePin parm.port parm.pin portModuleId s).bind fun r =>
    let value := if r.1 = 0 then (danubePortGetInput parm.port parm.pin portModuleId r.2).map (·.1) else some parm.value
    value.bind fun value =>
      -- the pin is freed also when it has not been reserved
      (danubePortFreePin parm.port parm.pin portModuleId r.2).map fun r => (r.1, r.2, { parm with value })

/-- What a call of the ioctl meets: whether the argument may be read and written, what is copied from it, and whether
`port_sem` is free. -/
structure IoctlCall where
  cmd : U32
  readable : Bool
  writable : Bool
  parm : IoctlParm
  semFree : Bool

/-- `danube_port_ioctl`; the parameters are those that are copied back. -/
def danubePortIoctl (c : IoctlCall) (s : Ports) : Option (Int × Ports × Option IoctlParm) :=
  if iocType c.cmd ≠ danubePortIocMagic then some (eInval, s, none)
  else if iocDir c.cmd &&& iocWrite ≠ 0 ∧ c.readable = false then some (eFault, s, none)
  else if iocDir c.cmd &&& iocRead ≠ 0 ∧ c.writable = false then some (eFault, s, none)
  else if c.semFree = false then some (eBusy, s, none)
  else if c.cmd = danubePortIocinput then
    (portIocInput c.parm s).map fun (ret, s, parm) => (ret, s, some parm)
  else
    match iocOperation c.cmd with
    | none => some (eInval, s, none)
    | some (clear, set) =>
      (portIocCall c.parm.port c.parm.pin (if c.parm.value = 0 then clear else set) s).map fun (ret, s) => (ret, s, none)

end TwinpassGateway.Gpio
