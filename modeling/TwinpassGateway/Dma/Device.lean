import TwinpassGateway.Foundation.Tally
import TwinpassGateway.Foundation.Word

/-!
The DMA devices of `dma-core.c`: descriptor rings, and the buffers that go through them.
-/

namespace TwinpassGateway.Dma

open Foundation

/-! ### Descriptors -/

/-- A descriptor, with the entry of the channel's `opt` array that belongs to it. -/
structure Slot where
  status : U32 := 0
  dataPointer : Nat := 0
  opt : Nat := 0

def dmaOwn : U32 := 0x80000000#32

def dmaDescSopSet : U32 := 0x20000000#32

def dmaDescEopSet : U32 := 0x10000000#32

/-- `status.field.OWN`: the hardware has the descriptor. -/
def Slot.own (x : Slot) : Bool := x.status.getLsbD 31

def Slot.c (x : Slot) : Bool := x.status.getLsbD 30

def Slot.dataLength (x : Slot) : Nat := (x.status.extractLsb' 0 16).toNat

/-- `OWN == CPU_OWN && C`. -/
def Slot.complete (x : Slot) : Bool := !x.own && x.c

/-- The descriptors whose buffers `dma_device_unregister` releases. -/
def Slot.busy (x : Slot) : Bool := x.complete || (x.own && decide (0 < x.dataLength))

def Slot.clear (x : Slot) : Slot := { x with status := 0, dataPointer := 0 }

def cphysaddr (a : Nat) : Nat := a % 2 ^ 29

def va (p : Nat) : Nat := (p + 0x80000000) % 2 ^ 32

/-- The physical address of the buffer that `buffer_free` and the reader of a receive channel get. -/
def vaPhys (p : Nat) : Nat := cphysaddr (va p)

def txStatus (byteOffset len : Nat) : U32 :=
  dmaOwn ||| dmaDescSopSet ||| dmaDescEopSet ||| (BitVec.ofNat 32 byteOffset <<< 23) ||| BitVec.ofNat 32 len

/-- The bit fields as `dma_device_register` fills them, where `byte_offset` has two bits. -/
def registerStatus (byteOffset packetSize : Nat) : U32 :=
  dmaOwn ||| (BitVec.ofNat 2 byteOffset).setWidth 32 <<< 23 ||| (BitVec.ofNat 16 packetSize).setWidth 32

def readStatus (byteOffset packetSize : Nat) : U32 :=
  dmaOwn ||| (BitVec.ofNat 32 byteOffset <<< 23) ||| BitVec.ofNat 32 packetSize

/-- What the hardware writes when it is done with a descriptor; for a receive descriptor also the length. -/
def Slot.done (x : Slot) (received : Option (BitVec 16)) : Slot :=
  let kept := x.status &&& 0x7FFFFFFF#32
  let status := match received with
    | none => kept
    | some len => (kept &&& 0xFFFF0000#32) ||| len.setWidth 32
  { x with status := status ||| 0x40000000#32 }

/-! ### Channels -/

abbrev Buffer := Nat × Nat

/-- `dma_channel_info`; the length of the ring is `desc_len`. -/
structure Chan where
  control : Bool
  ring : List Slot
  currDesc : Nat := 0
  prevDesc : Nat := 0
  packetSize : Nat
  /-- For a receive channel: it was registered after the last time it was unregistered. -/
  live : Bool := false

def Chan.slot (ch : Chan) (i : Nat) : Slot := ch.ring.getD i {}

def Chan.setSlot (ch : Chan) (i : Nat) (x : Slot) : Chan := { ch with ring := ch.ring.set i x }

def Chan.advance (ch : Chan) : Chan :=
  { ch with currDesc := if ch.currDesc + 1 = ch.ring.length then 0 else ch.currDesc + 1 }

/-- The buffer of a descriptor as `buffer_free` gets it, if the descriptor has one. -/
def Slot.item (address : Nat → Nat) (x : Slot) : Multiset Buffer :=
  if x.busy then {(address x.dataPointer, x.opt)} else 0

/-- One turn of the loop of `dma_device_write` over the descriptors the hardware is done with. -/
def Chan.reclaimOne (ch : Chan) : Chan :=
  { ch with
    ring := ch.ring.set ch.prevDesc (ch.slot ch.prevDesc).clear
    prevDesc := (ch.prevDesc + 1) % ch.ring.length }

def Chan.reclaim : Nat → Chan → Chan × Multiset Buffer
  | 0, ch => (ch, 0)
  | turns + 1, ch =>
    let x := ch.slot ch.prevDesc
    if x.complete then
      let (ch, freed) := Chan.reclaim turns ch.reclaimOne
      (ch, {(va x.dataPointer, x.opt)} + freed)
    else (ch, 0)

def Chan.full (ch : Chan) : Bool := (ch.slot ch.currDesc).own || (ch.slot ch.currDesc).c

/-! ### Operations -/

/-- What one call of `buffer_alloc` returns: a null pointer is zero. -/
structure Alloc where
  buffer : Nat
  byteOffset : Nat
  opt : Nat

structure Device where
  tx : List Chan
  rx : List Chan
  currentTxChan : Nat := 0
  currentRxChan : Nat := 0
  txBurstLen : Nat
  /-- Buffers from `buffer_alloc`, by physical address. -/
  allocated : Multiset Buffer := 0
  /-- Buffers given to the reader, by physical address. -/
  handed : Multiset Buffer := 0
  /-- Receive buffers given to `buffer_free`, by physical address. -/
  rxReleased : Multiset Buffer := 0
  /-- What `dma_device_write` has accepted. -/
  written : Multiset Buffer := 0
  /-- Transmit buffers given to `buffer_free`. -/
  txReleased : Multiset Buffer := 0

/-- The descriptor loop for one receive channel, which ends at the first null pointer. -/
def fillRing (packetSize : Nat) (alloc : Nat → Alloc) : Nat → List Slot → List Slot × Multiset Buffer
  | _, [] => ([], 0)
  | j, x :: rest =>
    let r := alloc j
    if r.buffer = 0 then ({ x with opt := r.opt } :: rest, 0)
    else
      let (rest, got) := fillRing packetSize alloc (j + 1) rest
      ({ status := registerStatus r.byteOffset packetSize, dataPointer := cphysaddr r.buffer, opt := r.opt } :: rest,
        {(cphysaddr r.buffer, r.opt)} + got)

def Chan.registerTx (ch : Chan) : Chan := if ch.control then { ch with ring := ch.ring.map Slot.clear } else ch

def Chan.registerRx (alloc : Nat → Alloc) (ch : Chan) : Chan × Multiset Buffer :=
  if ch.control then
    let (ring, got) := fillRing ch.packetSize alloc 0 ch.ring
    ({ ch with ring, live := true }, got)
  else (ch, 0)

def dmaDeviceRegister (dev : Device) (alloc : Nat → Nat → Alloc) : Device :=
  let filled := dev.rx.zipIdx.map fun p => p.1.registerRx (alloc p.2)
  { dev with
    tx := dev.tx.map Chan.registerTx
    rx := filled.map Prod.fst
    allocated := dev.allocated + tally Prod.snd filled }

def Chan.unregisterTx (ch : Chan) : Chan × Multiset Buffer :=
  if ch.control then
    ({ ch with currDesc := 0, prevDesc := 0, control := false, ring := ch.ring.map Slot.clear },
      tally (Slot.item va) ch.ring)
  else (ch, 0)

/-- Receive channels are unregistered whether they are on or not, and their descriptors stay as they are. -/
def Chan.unregisterRx (ch : Chan) : Chan × Multiset Buffer :=
  ({ ch with currDesc := 0, prevDesc := 0, control := false, live := false }, tally (Slot.item vaPhys) ch.ring)

def dmaDeviceUnregister (dev : Device) : Device :=
  { dev with
    tx := dev.tx.map fun ch => ch.unregisterTx.1
    txReleased := dev.txReleased + tally (fun ch => ch.unregisterTx.2) dev.tx
    rx := dev.rx.map fun ch => ch.unregisterRx.1
    rxReleased := dev.rxReleased + tally (fun ch => ch.unregisterRx.2) dev.rx }

/-- `dma_device_read`: length, data pointer and `opt`, all zero when there is nothing or no new buffer. -/
def dmaDeviceRead (dev : Device) (r : Alloc) : (Nat × Nat × Nat) × Device :=
  match dev.rx[dev.currentRxChan]? with
  | none => ((0, 0, 0), dev)
  | some ch =>
    let x := ch.slot ch.currDesc
    if !x.complete then ((0, 0, 0), dev)
    else if r.buffer = 0 then ((0, 0, 0), { dev with rx := dev.rx.set dev.currentRxChan ch.advance })
    else
      let y : Slot :=
        { status := readStatus r.byteOffset ch.packetSize, dataPointer := cphysaddr r.buffer, opt := r.opt }
      ((x.dataLength, va x.dataPointer, x.opt),
        { dev with
          rx := dev.rx.set dev.currentRxChan (ch.setSlot ch.currDesc y).advance
          handed := dev.handed + {(vaPhys x.dataPointer, x.opt)}
          allocated := dev.allocated + {(cphysaddr r.buffer, r.opt)} })

/-- `dma_device_write`: the length, or zero when the ring is full. -/
def dmaDeviceWrite (dev : Device) (dataptr len opt : Nat) : Nat × Device :=
  match dev.tx[dev.currentTxChan]? with
  | none => (0, dev)
  | some ch =>
    let (ch, freed) := ch.reclaim ch.ring.length
    if ch.full then
      (0, { dev with tx := dev.tx.set dev.currentTxChan ch, txReleased := dev.txReleased + freed })
    else
      let byteOffset := cphysaddr dataptr % (dev.txBurstLen * 4)
      let y : Slot := { status := txStatus byteOffset len, dataPointer := cphysaddr dataptr - byteOffset, opt }
      (len,
        { dev with
          tx := dev.tx.set dev.currentTxChan (ch.setSlot ch.currDesc y).advance
          txReleased := dev.txReleased + freed
          written := dev.written + {(dataptr, opt)} })

/-! ### Steps -/

inductive Event where
  /-- A peripheral driver switches a channel on or off. -/
  | control (transmit : Bool) (i : Nat) (on : Bool)
  /-- It chooses the channel for the next call, as the interrupt handlers do. -/
  | select (transmit : Bool) (i : Nat)
  | register (alloc : Nat → Nat → Alloc)
  | unregister
  | read (r : Alloc)
  | write (dataptr len opt : Nat)
  /-- The hardware is done with a descriptor it has; `len` is what it has received. -/
  | complete (transmit : Bool) (i j len : Nat)

def Chan.complete (ch : Chan) (j : Nat) (received : Option (BitVec 16)) : Chan :=
  match ch.ring[j]? with
  | none => ch
  | some x => if x.own then ch.setSlot j (x.done received) else ch

def Device.step (dev : Device) : Event → Device
  | .control true i on => { dev with tx := dev.tx.modify i fun ch => { ch with control := on } }
  | .control false i on => { dev with rx := dev.rx.modify i fun ch => { ch with control := on } }
  | .select true i => { dev with currentTxChan := i }
  | .select false i => { dev with currentRxChan := i }
  | .register alloc => dmaDeviceRegister dev alloc
  | .unregister => dmaDeviceUnregister dev
  | .read r => (dmaDeviceRead dev r).2
  | .write dataptr len opt => (dmaDeviceWrite dev dataptr len opt).2
  | .complete true i j _ => { dev with tx := dev.tx.modify i fun ch => ch.complete j none }
  | .complete false i j len => { dev with rx := dev.rx.modify i fun ch => ch.complete j (some (BitVec.ofNat 16 len)) }

/-! ### The account -/

def Chan.rxItems (ch : Chan) : Multiset Buffer := if ch.live then tally (Slot.item vaPhys) ch.ring else 0

def Device.txOutstanding (dev : Device) : Multiset Buffer := tally (fun ch => tally (Slot.item va) ch.ring) dev.tx

def Device.rxOutstanding (dev : Device) : Multiset Buffer := tally Chan.rxItems dev.rx

/-- The descriptors that a registration fills are free of buffers, and those it does not reach are not left over
from an earlier registration. -/
def FillOk (live : Bool) (packetSize : Nat) (alloc : Nat → Alloc) : Nat → List Slot → Prop
  | _, [] => True
  | j, x :: rest =>
    if (alloc j).buffer = 0 then x.busy = false ∧ ∀ y ∈ rest, y.busy = true → live = true
    else (live = true → x.busy = false) ∧ packetSize % 2 ^ 16 ≠ 0 ∧ FillOk live packetSize alloc (j + 1) rest

instance decidableFillOk (live : Bool) (packetSize : Nat) (alloc : Nat → Alloc) :
    ∀ j ring, Decidable (FillOk live packetSize alloc j ring)
  | _, [] => instDecidableTrue
  | j, x :: rest =>
    have := decidableFillOk live packetSize alloc (j + 1) rest
    inferInstanceAs (Decidable (if (alloc j).buffer = 0 then x.busy = false ∧ ∀ y ∈ rest, y.busy = true → live = true
      else (live = true → x.busy = false) ∧ packetSize % 2 ^ 16 ≠ 0 ∧ FillOk live packetSize alloc (j + 1) rest))

def Chan.Empty (ch : Chan) : Prop := ∀ x ∈ ch.ring, x.busy = false

instance (ch : Chan) : Decidable ch.Empty := inferInstanceAs (Decidable (∀ x ∈ ch.ring, x.busy = false))

/-- The write is refused, or the pointer is a cached address on a burst boundary and the length is not a multiple of
2^16. -/
def Device.WriteOk (dev : Device) (dataptr len : Nat) : Prop :=
  ∀ ch ∈ dev.tx[dev.currentTxChan]?, (ch.reclaim ch.ring.length).1.full = true ∨
    (dataptr / 2 ^ 29 = 4 ∧ cphysaddr dataptr % (dev.txBurstLen * 4) = 0 ∧ len % 2 ^ 16 ≠ 0)

instance (dev : Device) (dataptr len : Nat) : Decidable (dev.WriteOk dataptr len) :=
  inferInstanceAs (Decidable (∀ ch ∈ dev.tx[dev.currentTxChan]?, (ch.reclaim ch.ring.length).1.full = true ∨
    (dataptr / 2 ^ 29 = 4 ∧ cphysaddr dataptr % (dev.txBurstLen * 4) = 0 ∧ len % 2 ^ 16 ≠ 0)))

/-- Nothing has been received, or there is no new buffer, or the channel is registered. -/
def Device.ReadOk (dev : Device) (r : Alloc) : Prop :=
  ∀ ch ∈ dev.rx[dev.currentRxChan]?,
    (ch.slot ch.currDesc).complete = false ∨ r.buffer = 0 ∨ (ch.live = true ∧ ch.packetSize % 2 ^ 16 ≠ 0)

def Device.Orderly (dev : Device) : Event → Prop
  | .register alloc => (∀ ch ∈ dev.tx, ch.control = true → ch.Empty) ∧
      ∀ p ∈ dev.rx.zipIdx, p.1.control = true → FillOk p.1.live p.1.packetSize (alloc p.2) 0 p.1.ring
  | .unregister => (∀ ch ∈ dev.tx, ch.control = false → ch.Empty) ∧ ∀ ch ∈ dev.rx, ch.live = false → ch.Empty
  | .read r => dev.ReadOk r
  | .write dataptr len _ => dev.WriteOk dataptr len
  | _ => True

instance (dev : Device) : ∀ e, Decidable (dev.Orderly e)
  | .register alloc => inferInstanceAs (Decidable ((∀ ch ∈ dev.tx, ch.control = true → ch.Empty) ∧
      ∀ p ∈ dev.rx.zipIdx, p.1.control = true → FillOk p.1.live p.1.packetSize (alloc p.2) 0 p.1.ring))
  | .unregister => inferInstanceAs (Decidable ((∀ ch ∈ dev.tx, ch.control = false → ch.Empty) ∧
      ∀ ch ∈ dev.rx, ch.live = false → ch.Empty))
  | .read r => inferInstanceAs (Decidable (∀ ch ∈ dev.rx[dev.currentRxChan]?,
      (ch.slot ch.currDesc).complete = false ∨ r.buffer = 0 ∨ (ch.live = true ∧ ch.packetSize % 2 ^ 16 ≠ 0)))
  | .write dataptr len _ => inferInstanceAs (Decidable (dev.WriteOk dataptr len))
  | .control .. => instDecidableTrue
  | .select .. => instDecidableTrue
  | .complete .. => instDecidableTrue

end TwinpassGateway.Dma
