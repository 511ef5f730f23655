import TwinpassGateway.Foundation.Run
import TwinpassGateway.Foundation.Word

/-!
The setters and getters of the ADM6996 switch driver `admmod.c`, over registers that are plain storage.
-/

namespace TwinpassGateway.Switch

open Foundation

abbrev Regs := Nat → BitVec 16

def ifxSwRead (r : Regs) (addr : Nat) : U32 := (r addr).setWidth 32

def ifxSwWrite (r : Regs) (addr : Nat) (dat : U32) : Regs := Function.update r addr (dat.setWidth 16)

def admSwSysctl1 : Nat := 0xB

def admSwIgmpctl : Nat := 0xC

def admSwVlanMode : Nat := 0x11

def admSwQueueConf1 : Nat := 0x25

def admSwBndwthCtlEna : Nat := 0x33

/-- `ifx_sw_conf[port]`. -/
def ifxSwConf (port : Nat) : Nat := [0x1, 0x3, 0x5, 0x7, 0x8, 0x9].getD port 0

/-- `BIT_n`, the text `1<<n`. -/
def bit (n : Nat) : U32 := 1#32 <<< n

/-- `~BIT_n` is `~1<<n`: the complement is taken before the shift. -/
def complBit (n : Nat) : U32 := (~~~1#32) <<< n

/-! ### One bit -/

def setBit (addr n : Nat) (r : Regs) (b : Nat) : Regs :=
  if b ≠ 0 then ifxSwWrite r addr (ifxSwRead r addr ||| bit n)
  else ifxSwWrite r addr (ifxSwRead r addr &&& complBit n)

def getBit (addr n : Nat) (r : Regs) : Nat := if ifxSwRead r addr &&& bit n ≠ 0 then 1 else 0

def ifxSwSetIgmp : Regs → Nat → Regs := setBit admSwIgmpctl 1

def ifxSwGetIgmp : Regs → Nat := getBit admSwIgmpctl 1

def ifxSwSetVlanmode : Regs → Nat → Regs := setBit admSwVlanMode 5

def ifxSwGetVlanmode : Regs → Nat := getBit admSwVlanMode 5

def ifxSwSetIgmpProxy : Regs → Nat → Regs := setBit admSwIgmpctl 0

def ifxSwGetIgmpProxy : Regs → Nat := getBit admSwIgmpctl 0

/-! ### The other settings -/

def ifxSwSetAdditionalSnoopCtr (r : Regs) (b : Nat) : Regs :=
  if b ≠ 0 then ifxSwWrite r admSwSysctl1 (ifxSwRead r admSwSysctl1 &&& 0xCFFF#32 ||| 0x1000#32)
  else ifxSwWrite r admSwSysctl1 (ifxSwRead r admSwSysctl1 &&& 0xC000#32)

def ifxSwGetAdditionalSnoopCtr (r : Regs) : Nat := ((ifxSwRead r admSwSysctl1 &&& 0x3000#32) >>> 12).toNat

/-- `ifx_sw_set_cpu_port`: the result and the registers. -/
def ifxSwSetCpuPort (r : Regs) (port : Int) : Int × Regs :=
  if port < 0 ∨ port > 6 then (-1, r)
  else (0, ifxSwWrite r admSwVlanMode (0 ||| BitVec.ofInt 32 port <<< 13))

def ifxSwGetCpuPort (r : Regs) : Nat := ((ifxSwRead r admSwVlanMode &&& 0xE000#32) >>> 13).toNat

def ifxSwSetQosControl (r : Regs) (qos : Nat) : Regs :=
  ifxSwWrite r admSwBndwthCtlEna ((ifxSwRead r admSwBndwthCtlEna &&& complBit 12) ||| BitVec.ofNat 32 qos <<< 12)

def ifxSwGetQosControl : Regs → Nat := getBit admSwBndwthCtlEna 12

/-- The bit of a port and direction in the bandwidth control register. -/
def bndctlBit (port txrx : Nat) : U32 :=
  if port < 3 then (1#32 <<< (port * 2)) <<< txrx
  else if txrx ≠ 0 then (1#32 <<< 9) <<< (port - 3)
  else (1#32 <<< 6) <<< (port - 3)

def ifxSwEnaBndctl (r : Regs) (port txrx : Nat) : Regs :=
  ifxSwWrite r admSwBndwthCtlEna (ifxSwRead r admSwBndwthCtlEna ||| bndctlBit port txrx ||| bit 12)

def ifxSwDisBndctl (r : Regs) (port txrx : Nat) : Regs :=
  ifxSwWrite r admSwBndwthCtlEna (ifxSwRead r admSwBndwthCtlEna &&& ~~~ bndctlBit port txrx)

def ifxSwChkBndctl (r : Regs) (port txrx : Nat) : Nat :=
  let val := ifxSwRead r admSwBndwthCtlEna
  if port < 3 then ((val >>> (port * 2)) >>> txrx &&& 1#32).toNat
  else if txrx ≠ 0 then ((val >>> 9) >>> (port - 3) &&& 1#32).toNat
  else ((val >>> 6) >>> (port - 3) &&& 1#32).toNat

def ifxSwSetq (r : Regs) (port qno : Nat) : Regs :=
  ifxSwWrite r (ifxSwConf port) ((ifxSwRead r (ifxSwConf port) &&& ~~~(0x3#32 <<< 8)) ||| BitVec.ofNat 32 qno <<< 8)

def ifxSwGetq (r : Regs) (port : Nat) : Nat := (ifxSwRead r (ifxSwConf port) >>> 8 &&& 0x3#32).toNat

def ifxSwSetQueueWeight (r : Regs) (qno weight : Nat) : Regs :=
  if qno = 0 then r
  else
    let addr := admSwQueueConf1 + qno - 1
    ifxSwWrite r addr ((ifxSwRead r addr &&& ~~~(0xF#32 <<< 12)) ||| BitVec.ofNat 32 weight <<< 12)

def ifxSwGetQueueWeight (r : Regs) (qno : Nat) : Nat :=
  if qno = 0 then 0 else (ifxSwRead r (admSwQueueConf1 + qno - 1) >>> 12 &&& 0xF#32).toNat

def ifxSwEnaFc (r : Regs) (port : Nat) : Regs :=
  ifxSwWrite r (ifxSwConf port) (ifxSwRead r (ifxSwConf port) ||| bit 0)

def ifxSwDisFc (r : Regs) (port : Nat) : Regs :=
  ifxSwWrite r (ifxSwConf port) (ifxSwRead r (ifxSwConf port) &&& complBit 0)

/-! ### Calls with arguments in range -/

inductive Setting where
  | igmp
  | igmpProxy
  | additionalSnoop
  | vlanmode
  | cpuPort
  | qosControl
  | bndctl (port : Fin 6) (txrx : Fin 2)
  | fc (port : Fin 6)
  | queue (port : Fin 6)
  | queueWeight (qno : Fin 4)
  deriving DecidableEq

/-- What the getter of a setting returns; flow control has none, and its bit is read. -/
def get (r : Regs) : Setting → Nat
  | .igmp => ifxSwGetIgmp r
  | .igmpProxy => ifxSwGetIgmpProxy r
  | .additionalSnoop => ifxSwGetAdditionalSnoopCtr r
  | .vlanmode => ifxSwGetVlanmode r
  | .cpuPort => ifxSwGetCpuPort r
  | .qosControl => ifxSwGetQosControl r
  | .bndctl port txrx => ifxSwChkBndctl r port txrx
  | .fc port => (ifxSwRead r (ifxSwConf port) &&& 1#32).toNat
  | .queue port => ifxSwGetq r port
  | .queueWeight qno => ifxSwGetQueueWeight r qno

inductive Setter where
  | igmp (b : Fin 2)
  | igmpProxy (b : Fin 2)
  | additionalSnoop (b : Fin 2)
  | vlanmode (b : Fin 2)
  | cpuPort (port : Fin 7)
  | qosControl (qos : Fin 2)
  | enaBndctl (port : Fin 6) (txrx : Fin 2)
  | disBndctl (port : Fin 6) (txrx : Fin 2)
  | enaFc (port : Fin 6)
  | disFc (port : Fin 6)
  | queue (port : Fin 6) (qno : Fin 4)
  | queueWeight (qno : Fin 4) (weight : Fin 16)
  deriving DecidableEq

def apply (r : Regs) : Setter → Regs
  | .igmp b => ifxSwSetIgmp r b
  | .igmpProxy b => ifxSwSetIgmpProxy r b
  | .additionalSnoop b => ifxSwSetAdditionalSnoopCtr r b
  | .vlanmode b => ifxSwSetVlanmode r b
  | .cpuPort port => (ifxSwSetCpuPort r port.val).2
  | .qosControl qos => ifxSwSetQosControl r qos
  | .enaBndctl port txrx => ifxSwEnaBndctl r port txrx
  | .disBndctl port txrx => ifxSwDisBndctl r port txrx
  | .enaFc port => ifxSwEnaFc r port
  | .disFc port => ifxSwDisFc r port
  | .queue port qno => ifxSwSetq r port qno
  | .queueWeight qno weight => ifxSwSetQueueWeight r qno weight

/-! ### What the settings are for -/

def Setter.value : Setter → Setting → Option Nat
  | .igmp b, .igmp => some b
  | .igmpProxy b, .igmpProxy => some b
  | .additionalSnoop b, .additionalSnoop => some b
  | .vlanmode b, .vlanmode => some b
  | .cpuPort port, .cpuPort => some port
  | .qosControl qos, .qosControl => some qos
  | .enaBndctl port txrx, .bndctl port' txrx' => if port = port' ∧ txrx = txrx' then some 1 else none
  | .enaBndctl _ _, .qosControl => some 1
  | .disBndctl port txrx, .bndctl port' txrx' => if port = port' ∧ txrx = txrx' then some 0 else none
  | .enaFc port, .fc port' => if port = port' then some 1 else none
  | .disFc port, .fc port' => if port = port' then some 0 else none
  | .queue port qno, .queue port' => if port = port' then some qno else none
  | .queueWeight qno weight, .queueWeight qno' => if qno = qno' then some weight else none
  | _, _ => none

/-- The settings as independent values: a call changes those it names and no others. -/
def assign (v : Setting → Nat) (c : Setter) : Setting → Nat := fun s => (c.value s).getD (v s)

end TwinpassGateway.Switch
