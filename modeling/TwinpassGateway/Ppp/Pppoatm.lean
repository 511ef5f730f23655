import Mathlib.Logic.Function.Basic
import TwinpassGateway.Foundation.Word

/-!
The PPP backend of `be_pppoa.c`: the circuits that are set up for PPP over ATM, and the output of packets on them.
-/

namespace TwinpassGateway.Ppp

open Foundation

inductive Encaps where
  | autodetect
  | vc
  | llc
  | vcHdlc
  deriving DecidableEq

def Encaps.ofCode : Int → Option Encaps
  | 0 => some autodetect
  | 1 => some vc
  | 2 => some llc
  | 3 => some vcHdlc
  | _ => none

def scCompProt : U32 := 1#32

def pppllc : List U8 := [0xFE#8, 0xFE#8, 0x03#8, 0xCF#8, 0xC0#8, 0x21#8]

def llcLen : Nat := 4

def hdlc : List U8 := [0xFF#8, 0x03#8]

/-! ### Packets -/

/-- A `struct sk_buff`: the data begins behind the headroom of the buffer at `head`. -/
structure Skb where
  head : Nat
  room : List U8
  bytes : List U8
  truesize : U32
  vcc : Option Nat

def Skb.pull (skb : Skb) : Skb :=
  match skb.bytes with
  | [] => skb
  | b :: rest => { skb with room := skb.room ++ [b], bytes := rest }

/-- `skb_push`, which panics when there is no room. -/
def Skb.push (skb : Skb) (n : Nat) : Option Skb :=
  if skb.room.length < n then none
  else
    some { skb with
      room := skb.room.take (skb.room.length - n)
      bytes := skb.room.drop (skb.room.length - n) ++ skb.bytes }

/-- `SKB_DATA_ALIGN` with lines of 32 bytes. -/
def skbDataAlign (n : Nat) : Nat := (n + 31) / 32 * 32

/-- What a call of the output function meets: where a new buffer lies and what it holds, the account of the socket,
and whether the device refuses the packet. -/
structure Line where
  buffer : Option Nat
  fresh : Nat → U8
  wmemAlloc : U32
  sndbuf : U32
  refuses : Bool

/-- `skb_realloc_headroom` of a packet that has less headroom. -/
def skbReallocHeadroom (line : Line) (skb : Skb) (headroom : Nat) : Option Skb :=
  line.buffer.map fun head =>
    { skb with head, room := (List.range (skbDataAlign (headroom - skb.room.length))).map line.fresh ++ skb.room }

/-- `atm_may_send`; `ATM_PDU_OVHD` is 0. -/
def atmMaySend (line : Line) (size : U32) : Bool := size + line.wmemAlloc + 0#32 < line.sndbuf

/-! ### Output -/

/-- `struct pppoatm_vcc`. The functions of a circuit are this backend's or others. -/
inductive Handler where
  | pppoatm
  | device (function : Nat)
  deriving DecidableEq

structure Pvcc where
  atmvcc : Nat
  oldPush : Handler
  oldPop : Handler
  encaps : Encaps
  flags : U32
  pppSc : Option Nat

inductive Output where
  /-- The packet has gone to the device, which takes it (`PPP_PACKET_SENT`) or not (`PPP_PACKET_DROPPED`). -/
  | handed (skb : Skb) (wmemAlloc : U32) (refused : Bool)
  /-- `PPP_PACKET_DROPPED` of a packet that is freed here. -/
  | dropped
  /-- `PPP_RETRY_LATER`, and the packet that the caller has then. -/
  | retryLater (skb : Skb)
  | panicked

def handOver (line : Line) (skb : Skb) : Output := .handed skb (line.wmemAlloc + skb.truesize) line.refuses

def nospace (pvcc : Pvcc) (skb : Skb) : Output :=
  if pvcc.flags &&& scCompProt ≠ 0#32 ∧ 0 < skb.room.length ∧ skb.room.getLast? = some 0#8 then
    match skb.push 1 with
    | none => .panicked
    | some skb => .retryLater skb
  else .retryLater skb

def copyHeader (line : Line) (skb : Skb) (header : List U8) : Output :=
  match skb.push header.length with
  | none => .panicked
  | some skb => handOver line { skb with bytes := header ++ skb.bytes.drop header.length }

def outputHeader (line : Line) (pvcc : Pvcc) (skb : Skb) (header : List U8) : Output :=
  if skb.room.length < header.length then
    match skbReallocHeadroom line skb header.length with
    | none => .dropped
    | some n => if atmMaySend line n.truesize then copyHeader line n header else nospace pvcc skb
  else if atmMaySend line skb.truesize then copyHeader line skb header
  else nospace pvcc skb

/-- `rg_pppoa_output`. The first byte of an empty packet is read and has no effect. -/
def rgPppoaOutput (useHdlc : Bool) (pvcc : Pvcc) (skb : Skb) (line : Line) : Output :=
  let skb := { skb with vcc := some pvcc.atmvcc }
  let skb := if skb.bytes.head? = some 0#8 ∧ pvcc.flags &&& scCompProt ≠ 0#32 then skb.pull else skb
  match pvcc.encaps with
  | .llc => outputHeader line pvcc skb (pppllc.take llcLen)
  | .vc =>
    if useHdlc then outputHeader line pvcc skb hdlc
    else if atmMaySend line skb.truesize then handOver line skb
    else nospace pvcc skb
  | .autodetect => .dropped
  | .vcHdlc => handOver line skb

/-! ### Circuits -/

structure Vcc where
  userBack : Option Nat
  push : Handler
  pop : Handler

/-- `use_hdlc`, the circuits, and the structures that are allocated. With `oops` the kernel has met a bad pointer. -/
structure Backend where
  useHdlc : Bool
  vccs : Nat → Vcc
  pvccs : Nat → Option Pvcc
  oops : Bool

namespace Backend

/-- `atmvcc_to_pvcc`, and the structure when the pointer is good. -/
def pvccOf (d : Backend) (v : Nat) : Option (Nat × Pvcc) :=
  (d.vccs v).userBack.bind fun a => (d.pvccs a).map fun p => (a, p)

/-- `pppoatm_assign_vcc` with what `copy_from_user` and `kmalloc` give; memory in use is not given again. -/
def assignVcc (d : Backend) (v : Nat) (be : Option Int) (room : Option Nat) : Backend × Int :=
  match be with
  | none => (d, -14)
  | some code =>
    match Encaps.ofCode code with
    | none => (d, -22)
    | some e =>
      match room.filter fun a => (d.pvccs a).isNone with
      | none => (d, -12)
      | some a =>
        ({ d with
            useHdlc := e = .vcHdlc
            pvccs := Function.update d.pvccs a (some {
              atmvcc := v
              oldPush := (d.vccs v).push
              oldPop := (d.vccs v).pop
              encaps := if e = .vcHdlc then .vc else e
              flags := 0#32
              pppSc := none })
            vccs := Function.update d.vccs v ⟨some a, .pppoatm, .pppoatm⟩ }, 0)

/-- `rg_pppoa_attach` with what `ppp_be_attach_cb` returns. -/
def attach (d : Backend) (v : Nat) (sc : Option Nat) : Backend × Int :=
  match d.pvccOf v with
  | none => ({ d with oops := true }, 0)
  | some (a, p) =>
    ({ d with pvccs := Function.update d.pvccs a (some { p with pppSc := sc }) }, if sc.isSome then 0 else -14)

def detach (d : Backend) (v : Nat) : Backend × Int :=
  match d.pvccOf v with
  | none => ({ d with oops := true }, 0)
  | some (a, p) => ({ d with pvccs := Function.update d.pvccs a (some { p with pppSc := none }) }, 0)

inductive Request where
  | setBackend (backend : Option Int) (capable : Bool) (be : Option Int) (room : Option Nat)
  | attach (named : Bool) (sc : Option Nat)
  | detach
  | other
  deriving DecidableEq

def atmBackendPpp : Int := 1

def ioctl (d : Backend) (v : Nat) (request : Request) : Backend × Int :=
  match request with
  | .setBackend none _ _ _ => (d, -14)
  | .setBackend (some b) capable be room =>
    if b ≠ atmBackendPpp then (d, -515)
    else if capable = false then (d, -1)
    else d.assignVcc v be room
  | .attach named sc =>
    if (d.vccs v).push ≠ .pppoatm then (d, -515)
    else if named = false then (d, -14)
    else d.attach v sc
  | .detach => if (d.vccs v).push ≠ .pppoatm then (d, -515) else d.detach v
  | .other => (d, -515)

def unassignVcc (d : Backend) (v : Nat) : Backend :=
  match d.pvccOf v with
  | none => { d with oops := true }
  | some (a, p) =>
    { d with
      vccs := Function.update d.vccs v ⟨none, p.oldPush, p.oldPop⟩
      pvccs := Function.update d.pvccs a none }

/-- A circuit is closed: its `push` is called with `NULL`, and then the one it had before, which after a second
`ATM_SETBACKEND` is `pppoatm_push` again. -/
def close (d : Backend) (v : Nat) : Backend :=
  if (d.vccs v).push ≠ .pppoatm then d
  else
    let d := d.unassignVcc v
    if (d.vccs v).push ≠ .pppoatm then d else d.unassignVcc v

end Backend

/-- An operation. The output function is called with the structure that the attachment passed on. -/
inductive Op where
  | ioctl (v : Nat) (request : Backend.Request)
  | close (v : Nat)
  | output (o : Nat) (skb : Skb) (line : Line)

def Backend.step (d : Backend) (op : Op) : Backend :=
  if d.oops then d
  else
    match op with
    | .ioctl v request => (d.ioctl v request).1
    | .close v => d.close v
    | .output o _ _ => if (d.pvccs o).isNone then { d with oops := true } else d

end TwinpassGateway.Ppp
