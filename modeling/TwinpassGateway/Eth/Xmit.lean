import Mathlib.Logic.Function.Basic
import Mathlib.Tactic
import TwinpassGateway.Foundation.Word

/-!
`eth1_xmit` of `danube_ppa_eth_d2.c`, one statement at a time, over the descriptor ring of a channel
and the mailbox registers of its flow control.
-/

namespace TwinpassGateway.Eth

open Foundation

/-! ### The ring of a channel -/

/-- A packet buffer: one of those `init_local_variables` allocates, or the packet of a call. -/
inductive Skb
  | preallocated (i : Nat)
  | packet (k : Nat)
  deriving DecidableEq, Repr

def eth1TxDescNum : Nat := 32

/-- `eth_dev_tx_ch` with the two words of the descriptors at `base`. The hardware goes through the
ring from `hw` on. The last three fields observe: `given` has the slots whose packet the hardware has
not released yet. -/
structure TxCh where
  own : Nat → Bool := fun _ => false
  dataptr : Nat → Skb := .preallocated
  allocPos : Nat := 0
  skbPointers : Nat → Skb := .preallocated
  inFastPath : Bool := false
  lock : Nat := 1
  hw : Nat := 0
  given : List (Nat × Skb) := []
  accepted : List Skb := []
  freed : List Skb := []

def TxCh.grant (c : TxCh) (p : Nat) (k : Skb) : TxCh :=
  { c with given := (p, k) :: c.given, accepted := k :: c.accepted }

def TxCh.devKfreeSkbAny (c : TxCh) (k : Skb) : TxCh := { c with freed := k :: c.freed }

/-- The hardware is done with the descriptor it is at; it waits there until it owns it. -/
def TxCh.complete (c : TxCh) : TxCh :=
  if c.own c.hw then
    { c with
      own := Function.update c.own c.hw false
      hw := (c.hw + 1) % eth1TxDescNum
      given := c.given.filter fun g => g.1 ≠ c.hw }
  else c

/-! ### The mailbox -/

inductive LineCall
  | enableIrq
  | disableIrq
  deriving DecidableEq, Repr

/-- The mailbox registers, the driver's copy of the mask, the interrupt line (`depth` is the count of
its disables, `calls` has the latest call first; `request_irq` has enabled it) and the device queue. -/
structure Mailbox where
  isr : U32 := 0
  ier : U32 := 1
  eth1DevTxIrq : U32 := 1
  dmaCh2TxNotRun : U32 := 1
  depth : Nat := 0
  calls : List LineCall := [.enableIrq]
  stopped : Bool := false

def Mailbox.isrc (m : Mailbox) (bits : U32) : Mailbox := { m with isr := m.isr &&& ~~~bits }

def Mailbox.enableIrq (m : Mailbox) : Mailbox :=
  { m with depth := m.depth - 1, calls := .enableIrq :: m.calls }

def Mailbox.disableIrq (m : Mailbox) : Mailbox :=
  { m with depth := m.depth + 1, calls := .disableIrq :: m.calls }

def swapOut (ch : Nat) : U32 := 1#32 <<< (ch + 16)

/-- `((1 << ETH1_TX_TOTAL_CHANNEL_USED) - 1) << 16` -/
def allTxIrq : U32 := 0xF0000#32

def Mailbox.lineOn (m : Mailbox) : Mailbox := if m.eth1DevTxIrq = 0 then m.enableIrq else m

def Mailbox.arm (m : Mailbox) (bit : U32) : Mailbox := { m with eth1DevTxIrq := m.eth1DevTxIrq ||| bit }

def Mailbox.stopIfAll (m : Mailbox) : Mailbox := if m.eth1DevTxIrq = allTxIrq then { m with stopped := true } else m

def Mailbox.writeIer (m : Mailbox) : Mailbox := { m with ier := m.eth1DevTxIrq }

def Mailbox.ringFull (m : Mailbox) (bit : U32) : Mailbox := ((((m.isrc bit).lineOn).arm bit).stopIfAll).writeIer

/-! ### The call -/

/-- The statement that a call of `eth1_xmit` comes to next, with the locals it still needs: its packet
`k`, whether it has taken the semaphore, `desc_pos` (`none` for -1) and `f_full`. -/
inductive Xmit
  | needLock (k : Skb)
  | down (k : Skb)
  | load (k : Skb) (locked : Bool)
  | test (k : Skb) (locked : Bool) (p : Nat)
  | next (k : Skb) (locked : Bool) (p : Nat)
  | wrap (k : Skb) (locked : Bool) (p : Nat)
  | peek (k : Skb) (locked : Bool) (p : Nat)
  | room (k : Skb) (locked : Bool) (p : Nat)
  | refuse (k : Skb) (locked : Bool)
  | up (k : Skb) (locked : Bool) (pos : Option Nat) (full : Bool)
  | ifFull (k : Skb) (pos : Option Nat) (full : Bool)
  | clear (k : Skb) (pos : Option Nat)
  | lineOn (k : Skb) (pos : Option Nat)
  | arm (k : Skb) (pos : Option Nat)
  | stop (k : Skb) (pos : Option Nat)
  | unmask (k : Skb) (pos : Option Nat)
  | ifDrop (k : Skb) (pos : Option Nat)
  | drop (k : Skb)
  | kfree (k : Skb) (p : Nat)
  | store (k : Skb) (p : Nat)
  | word1 (k : Skb) (p : Nat)
  | word0 (k : Skb) (p : Nat)
  | done
  deriving DecidableEq

/-- One statement of `eth1_xmit` (with `eth1_alloc_tx_desc` in it) on channel `ch`, outside an
interrupt. From `clear` to `unmask` interrupts are off. -/
def Xmit.stmt (ch : Nat) (c : TxCh) (m : Mailbox) : Xmit → Xmit × TxCh × Mailbox
  | .needLock k => (if c.inFastPath then .load k false else .down k, c, m)
  | .down k => if c.lock = 0 then (.down k, c, m) else (.load k true, { c with lock := c.lock - 1 }, m)
  | .load k locked => (.test k locked c.allocPos, c, m)
  | .test k locked p => if c.own p then (.refuse k locked, c, m) else (.next k locked p, c.grant p k, m)
  | .next k locked p =>
    (if c.allocPos + 1 = eth1TxDescNum then .wrap k locked p else .peek k locked p,
      { c with allocPos := c.allocPos + 1 }, m)
  | .wrap k locked p => (.peek k locked p, { c with allocPos := 0 }, m)
  | .peek k locked p => (if c.own c.allocPos then .up k locked (some p) true else .room k locked p, c, m)
  | .room k locked p => (.up k locked (some p) false, c, m)
  | .refuse k locked => (.up k locked none true, c, m)
  | .up k locked pos full => (.ifFull k pos full, if locked then { c with lock := c.lock + 1 } else c, m)
  | .ifFull k pos full => (if full then .clear k pos else .ifDrop k pos, c, m)
  | .clear k pos => (.lineOn k pos, c, m.isrc (swapOut ch))
  | .lineOn k pos => (.arm k pos, c, m.lineOn)
  | .arm k pos => (.stop k pos, c, m.arm (swapOut ch))
  | .stop k pos => (.unmask k pos, c, m.stopIfAll)
  | .unmask k pos => (.ifDrop k pos, c, m.writeIer)
  | .ifDrop k none => (.drop k, c, m)
  | .ifDrop k (some p) => (.kfree k p, c, m)
  | .drop k => (.done, c.devKfreeSkbAny k, m)
  | .kfree k p => (.store k p, c.devKfreeSkbAny (c.skbPointers p), m)
  | .store k p => (.word1 k p, { c with skbPointers := Function.update c.skbPointers p k }, m)
  | .word1 k p => (.word0 k p, { c with dataptr := Function.update c.dataptr p k }, m)
  | .word0 _ p => (.done, { c with own := Function.update c.own p true }, m)
  | .done => (.done, c, m)

def Xmit.run (ch : Nat) : Nat → Xmit × TxCh × Mailbox → Xmit × TxCh × Mailbox
  | 0, s => s
  | n + 1, (x, c, m) => Xmit.run ch n (x.stmt ch c m)

/-- A whole call, which is at its end after at most 19 statements. -/
def eth1Xmit (ch : Nat) (k : Skb) (c : TxCh) (m : Mailbox) : Xmit × TxCh × Mailbox :=
  Xmit.run ch 19 (.needLock k, c, m)

/-! ### Whole calls on the fast path -/

def TxCh.following (c : TxCh) : Nat := if c.allocPos + 1 = eth1TxDescNum then 0 else c.allocPos + 1

def TxCh.send (c : TxCh) (k : Skb) : TxCh :=
  { c with
    own := Function.update c.own c.allocPos true
    dataptr := Function.update c.dataptr c.allocPos k
    allocPos := c.following
    skbPointers := Function.update c.skbPointers c.allocPos k
    given := (c.allocPos, k) :: c.given
    accepted := k :: c.accepted
    freed := c.skbPointers c.allocPos :: c.freed }

variable (ch : Nat) {c : TxCh} {m : Mailbox} {k : Skb}

theorem eth1Xmit_full (fast : c.inFastPath = true) (full : c.own c.allocPos = true) :
    eth1Xmit ch k c m = (.done, c.devKfreeSkbAny k, m.ringFull (swapOut ch)) := by
  simp [eth1Xmit, Xmit.run, Xmit.stmt, fast, full, Mailbox.ringFull]

theorem eth1Xmit_sent (fast : c.inFastPath = true) (free : c.own c.allocPos = false) :
    eth1Xmit ch k c m =
      (.done, c.send k, if c.own c.following then m.ringFull (swapOut ch) else m) := by
  by_cases last : c.allocPos + 1 = eth1TxDescNum
  · by_cases full : c.own 0
    · simp [eth1Xmit, Xmit.run, Xmit.stmt, fast, free, last, full, TxCh.following, TxCh.send, TxCh.grant,
        TxCh.devKfreeSkbAny, Mailbox.ringFull]
    · simp [eth1Xmit, Xmit.run, Xmit.stmt, fast, free, last, full, TxCh.following, TxCh.send, TxCh.grant,
        TxCh.devKfreeSkbAny]
  · by_cases full : c.own (c.allocPos + 1)
    · simp [eth1Xmit, Xmit.run, Xmit.stmt, fast, free, last, full, TxCh.following, TxCh.send, TxCh.grant,
        TxCh.devKfreeSkbAny, Mailbox.ringFull]
    · simp [eth1Xmit, Xmit.run, Xmit.stmt, fast, free, last, full, TxCh.following, TxCh.send, TxCh.grant,
        TxCh.devKfreeSkbAny]

end TwinpassGateway.Eth
