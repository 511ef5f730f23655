import TwinpassGateway.Foundation.Lifetime
import TwinpassGateway.Wireless.IoctlSend
import TwinpassGateway.Wireless.IoctlTables

/-!
The ioctl handlers of `mps0_wifi.c`, as what they return and what they do to the buffers they allocate. What the
kernel and the other CPU answer along the way are inputs. Statements in a row that use the same buffer are recorded
as one use of it.
-/

namespace TwinpassGateway.Wireless

open Foundation

def e2big : Int := 7

def enomem : Int := 12

def efault : Int := 14

def enodev : Int := 19

def einval : Int := 22

def eopnotsupp : Int := 122

def siocsifmtu : Nat := 0x8922

def siocethtool : Nat := 0x8946

def siocgiwpriv : Nat := 0x8B0D

def siocgiwstats : Nat := 0x8B0F

def siocgathstats : Nat := siocdevprivate

def siocgathdiag : Nat := siocdevprivate + 1

def siocgathphyerr : Nat := siocdevprivate + 2

def siocg80211stats : Nat := siocdevprivate + 2

def ieee80211IoctlGetkey : Nat := siocdevprivate + 3

def ieee80211IoctlStaStats : Nat := siocdevprivate + 5

def sioc80211ifcreate : Nat := siocdevprivate + 7

def sioc80211ifdestroy : Nat := siocdevprivate + 8

def ieee80211IoctlScanResults : Nat := siocdevprivate + 9

/-- `ifreq`, which is also the `iwreq`: the first word of its union is `ifr_mtu`, `ifr_data` and
`u.data.pointer`. -/
structure Ifreq where
  word : Nat
  length : Nat

def Ifreq.pointer (ifr : Ifreq) : Nat := ifr.word

def Ifreq.mtu (ifr : Ifreq) : Int := if ifr.word < 2 ^ 31 then ifr.word else ifr.word - 2 ^ 32

structure Outcomes where
  /-- `kmalloc` finds memory for the request. -/
  ioreq : Bool
  /-- `kmalloc` finds memory for the data of the request. -/
  data : Bool
  copyFromUser : Bool
  copyToUser : Bool
  ioctlSend : Int
  /-- How many bytes of `extra` `ioctl_send` itself copies to the user. -/
  copiedBack : Nat

structure Device where
  present : Bool
  /-- `vnet_get_stats` and `vnet_get_wireless_stats` know the device. -/
  known : Bool
  /-- `cpu0_dev_num`. -/
  devNum : Int
  allocNetdev : Bool
  registerNetdevice : Bool

/-- The buffers of a handler, named after the pointers to them. -/
inductive Buffer where
  | ioreq
  | extra
  | ifrData
  deriving DecidableEq

structure Handled (β : Type) where
  ret : Int
  ops : List (MemOp β)

def doing {β : Type} (ops : List (MemOp β)) (rest : Handled β) : Handled β := ⟨rest.ret, ops ++ rest.ops⟩

/-! ### What the statements do to buffers -/

def ioreqUse : MemOp Buffer := .touch (some .ioreq)

/-- `n` bytes behind a pointer are read or written. A failed `copy_from_user` writes them too. -/
def bytesUse (p : Option Buffer) (n : Nat) : List (MemOp Buffer) := if n = 0 then [] else [.touch p]

def kfreeIoreq : List (MemOp Buffer) := [.release (some .ioreq)]

/-- `kfree(ioreq->extra)` and `kfree(ioreq->ifr.ifr_data)` read the request. -/
def kfreeData (p : Option Buffer) : List (MemOp Buffer) := [ioreqUse, .release p]

def isSet (cmd : Int) : Bool := cmd % 2 == 0

def isGet (cmd : Int) : Bool := cmd % 2 == 1

/-! ### `vnet_ioctl` -/

/-- The statistics are copied to the user from where `vnet_get_stats` left them. -/
def statsReturned (device : Device) (o : Outcomes) : Int :=
  if device.known && !o.copyToUser then -efault else 0

/-- The commands whose data travel in a buffer of their own. -/
def vnetIoctlData (o : Outcomes) (sent : Handled Buffer) : Handled Buffer :=
  if o.data = false then ⟨-enomem, [ioreqUse] ++ kfreeIoreq⟩
  else
    doing [.alloc .ifrData, ioreqUse, .touch (some .ifrData)] <|
    if o.copyFromUser = false then ⟨-efault, kfreeData (some .ifrData) ++ kfreeIoreq⟩ else sent

def vnetIoctlSent (o : Outcomes) : Handled Buffer :=
  doing [ioreqUse] ⟨o.ioctlSend, kfreeData (some .ifrData) ++ kfreeIoreq⟩

/-- The new device itself stays in `cpu0_device_tbl`. -/
def vnetIoctlCreated (device : Device) (o : Outcomes) : Handled Buffer :=
  doing [ioreqUse, .touch (some .ifrData), ioreqUse] <|
  if device.allocNetdev = false then ⟨-enodev, kfreeData (some .ifrData) ++ kfreeIoreq⟩
  else if device.registerNetdevice = false then ⟨-enodev, kfreeData (some .ifrData) ++ kfreeIoreq⟩
  else ⟨o.ioctlSend, kfreeData (some .ifrData) ++ kfreeIoreq⟩

def vnetIoctl (cmd : Int) (device : Device) (o : Outcomes) : Handled Buffer :=
  if o.ioreq = false then ⟨-enomem, []⟩
  else
    doing [.alloc .ioreq, ioreqUse] <|
    if cmd = siocgiwstats then ⟨statsReturned device o, kfreeIoreq⟩
    else if cmd = siocgathstats then ⟨statsReturned device o, kfreeIoreq⟩
    else if cmd = siocgathdiag then vnetIoctlData o (vnetIoctlSent o)
    else if cmd = siocgathphyerr then vnetIoctlData o (vnetIoctlSent o)
    else if cmd = siocethtool then vnetIoctlData o (vnetIoctlSent o)
    else if cmd = sioc80211ifcreate then
      if 4 ≤ device.devNum then ⟨-efault, kfreeIoreq⟩ else vnetIoctlData o (vnetIoctlCreated device o)
    else ⟨-eopnotsupp, kfreeIoreq⟩

/-! ### `vnet_ioctl_private_call` -/

def privateDescription (cmd : Int) : Option IwPrivArgs := ieee80211PrivArgs.find? fun d => (d.cmd : Int) = cmd

/-- `extra_size`: 0 when the arguments fit in the request. -/
def privateExtraSize (descr : IwPrivArgs) (cmd : Int) : Nat :=
  if isSet cmd then
    let offset := if descr.name = "" then 4 else 0
    let size := getPrivSize descr.setArgs
    if descr.setArgs &&& iwPrivSizeFixed ≠ 0 ∧ size + offset ≤ ifnamsiz then 0 else size
  else
    let size := getPrivSize descr.getArgs
    if descr.getArgs &&& iwPrivSizeFixed ≠ 0 ∧ size ≤ ifnamsiz then 0 else size

/-- The error for what user space gave, if any. -/
def privateRefusal (descr : IwPrivArgs) (ifr : Ifreq) (cmd : Int) : Option Int :=
  if isSet cmd then
    if ifr.pointer = 0 ∧ ifr.length ≠ 0 then some (-efault)
    else if descr.setArgs &&& iwPrivSizeMask < ifr.length then some (-e2big)
    else none
  else if ifr.pointer = 0 then some (-efault)
  else none

def vnetIoctlPrivateCall (ifr : Ifreq) (cmd : Int) (o : Outcomes) : Handled Buffer :=
  if o.ioreq = false then ⟨-enomem, []⟩
  else
    doing [.alloc .ioreq, ioreqUse] <|
    match privateDescription cmd with
    | none => ⟨-einval, []⟩
    | some descr =>
      let extraSize := privateExtraSize descr cmd
      if extraSize = 0 then
        doing [ioreqUse] ⟨o.ioctlSend, if o.ioctlSend = 0 then [ioreqUse] else []⟩
      else
        match privateRefusal descr ifr cmd with
        | some error => ⟨error, kfreeIoreq⟩
        | none =>
          if o.data = false then ⟨-enomem, [ioreqUse] ++ kfreeIoreq⟩
          else
            doing [.alloc .extra, ioreqUse] <|
            let fromUser := isSet cmd && ifr.length != 0
            doing (if fromUser then bytesUse (some .extra) extraSize else []) <|
            if fromUser && !o.copyFromUser then ⟨-efault, kfreeData (some .extra) ++ kfreeIoreq⟩
            else
              doing ([ioreqUse] ++ bytesUse (some .extra) extraSize ++ [ioreqUse]) <|
              let cleanup := kfreeIoreq ++ kfreeData (some .extra)
              if o.ioctlSend = 0 ∧ isGet cmd then
                doing ([ioreqUse] ++ bytesUse (some .extra) extraSize) <|
                if o.copyToUser = false then ⟨-efault, kfreeData (some .extra) ++ kfreeIoreq ++ cleanup⟩
                else ⟨0, cleanup⟩
              else ⟨o.ioctlSend, cleanup⟩

/-! ### `vnet_ioctl_standard_call` -/

/-- `standard_ioctl[cmd - SIOCIWFIRST]`; `beyond` is what lies around the table. -/
def standardDescription (beyond : Int → IwIoctlDescription) (cmd : Int) : IwIoctlDescription :=
  let index := cmd - siociwfirst
  if 0 ≤ index then standardIoctl.getD index.toNat (beyond index) else beyond index

def standardRefusal (descr : IwIoctlDescription) (ifr : Ifreq) (cmd : Int) : Option Int :=
  if isSet cmd then
    if ifr.pointer = 0 ∧ ifr.length ≠ 0 then some (-efault)
    else if descr.maxTokens < ifr.length then some (-e2big)
    else if ifr.length < descr.minTokens then some (-einval)
    else none
  else if ifr.pointer = 0 then some (-efault)
  else none

def vnetIoctlStandardCall (beyond : Int → IwIoctlDescription) (ifr : Ifreq) (cmd : Int) (o : Outcomes) :
    Handled Buffer :=
  if o.ioreq = false then ⟨-enomem, []⟩
  else
    let descr := standardDescription beyond cmd
    doing [.alloc .ioreq, ioreqUse] <|
    if descr.headerType ≠ iwHeaderTypePoint then
      doing [ioreqUse] ⟨0, (if o.ioctlSend = 0 then [ioreqUse] else []) ++ kfreeIoreq⟩
    else
      match standardRefusal descr ifr cmd with
      | some error => ⟨error, kfreeIoreq⟩
      | none =>
        let userSize := if isSet cmd then 0 else ifr.length
        if o.data = false then ⟨-enomem, [ioreqUse] ++ kfreeIoreq⟩
        else
          doing [.alloc .extra, ioreqUse] <|
          let fromUser := isSet cmd && ifr.length != 0
          doing (if fromUser then bytesUse (some .extra) (ifr.length * descr.tokenSize) else []) <|
          if fromUser && !o.copyFromUser then ⟨-efault, kfreeData (some .extra) ++ kfreeIoreq⟩
          else
            doing ([ioreqUse] ++ bytesUse (some .extra) (descr.maxTokens * descr.tokenSize) ++ [ioreqUse]) <|
            let cleanup := kfreeData (some .extra) ++ kfreeIoreq
            if o.ioctlSend = 0 ∧ isGet cmd then
              if userSize < ifr.length then ⟨-e2big, cleanup⟩
              else
                doing ([ioreqUse] ++ bytesUse (some .extra) (ifr.length * descr.tokenSize)) <|
                if o.copyToUser = false then ⟨0, cleanup ++ cleanup⟩ else ⟨0, cleanup⟩
            else ⟨0, cleanup⟩

/-! ### `vnet_ieee80211_ioctl` -/

/-- The commands whose data `ioctl_send` copies to the user. The result of `kmalloc` is not looked at. -/
def vnetIeee80211Pointer (ifr : Ifreq) (cmd : Int) (o : Outcomes) : Handled Buffer :=
  let extra : Option Buffer := if o.data then some .extra else none
  doing ((if o.data then [.alloc .extra] else []) ++ [ioreqUse] ++ bytesUse extra ifr.length) <|
  if o.copyFromUser = false then ⟨-efault, kfreeData extra ++ kfreeIoreq⟩
  else
    doing ([ioreqUse] ++ bytesUse extra ifr.length ++ [ioreqUse] ++ bytesUse extra o.copiedBack) <|
    -- the size in the answer is returned to the user
    doing (if cmd = ieee80211IoctlStaInfo then [ioreqUse] else []) ⟨0, kfreeData extra ++ kfreeIoreq⟩

/-- The cases of `vnet_ieee80211_ioctl`, up to the commands it hands on. -/
inductive Ieee80211Case where
  | setMtu
  | wirelessStats
  | stats
  | destroy
  | byPointer
  | notImplemented
  | privateList
  | standardCall
  | privateCall
  deriving DecidableEq

def ieee80211Case (cmd : Int) : Ieee80211Case :=
  if cmd = siocsifmtu then .setMtu
  else if cmd = siocgiwstats then .wirelessStats
  else if cmd = siocgathstats then .stats
  else if cmd = sioc80211ifdestroy then .destroy
  else if cmd = ieee80211IoctlStaInfo ∨ cmd = ieee80211IoctlGetwpaie then .byPointer
  else if cmd = siocg80211stats ∨ cmd = ieee80211IoctlStaStats ∨ cmd = ieee80211IoctlGetkey ∨
      cmd = ieee80211IoctlScanResults then .notImplemented
  else if cmd = siocgiwpriv then .privateList
  else if cmd < siociwfirstpriv then .standardCall
  else .privateCall

/-- A handler that this one calls while it holds its own request. -/
def Handled.called (r : Handled Buffer) : Handled (Buffer ⊕ Buffer) := ⟨r.ret, r.ops.map (MemOp.map .inr)⟩

def Handled.own (r : Handled Buffer) : Handled (Buffer ⊕ Buffer) := ⟨r.ret, r.ops.map (MemOp.map .inl)⟩

/-- The buffers on the left are its own, those on the right of the handler it calls. -/
def vnetIeee80211Ioctl (beyond : Int → IwIoctlDescription) (ifr : Ifreq) (cmd : Int) (device : Device)
    (o callee : Outcomes) : Handled (Buffer ⊕ Buffer) :=
  if o.ioreq = false then ⟨-enomem, []⟩
  else
    doing [.alloc (.inl .ioreq), .touch (some (.inl .ioreq))] <|
    match ieee80211Case cmd with
    | .setMtu =>
      Handled.own <|
      if ifr.mtu < 0 then ⟨-einval, []⟩
      else if device.present = false then ⟨-enodev, []⟩
      else
        doing [ioreqUse] <|
        if o.copyFromUser = false then ⟨-efault, []⟩ else ⟨o.ioctlSend, [ioreqUse]⟩
    | .wirelessStats => Handled.own ⟨statsReturned device o, kfreeIoreq⟩
    | .stats => Handled.own ⟨statsReturned device o, []⟩
    | .destroy => Handled.own ⟨o.ioctlSend, [ioreqUse] ++ kfreeIoreq⟩
    | .byPointer => Handled.own (vnetIeee80211Pointer ifr cmd o)
    | .notImplemented => Handled.own ⟨0, []⟩
    | .privateList =>
      Handled.own <|
      if ieee80211PrivArgs.length = 0 then ⟨-eopnotsupp, kfreeIoreq⟩
      else if ifr.pointer = 0 then ⟨-efault, kfreeIoreq⟩
      else if o.copyToUser = false then ⟨-efault, kfreeIoreq⟩
      else ⟨0, kfreeIoreq⟩
    | .standardCall =>
      let r := (vnetIoctlStandardCall beyond ifr cmd callee).called
      ⟨r.ret, r.ops ++ [.release (some (.inl .ioreq))]⟩
    | .privateCall =>
      let r := (vnetIoctlPrivateCall ifr cmd callee).called
      ⟨r.ret, r.ops ++ [.release (some (.inl .ioreq))]⟩

end TwinpassGateway.Wireless
