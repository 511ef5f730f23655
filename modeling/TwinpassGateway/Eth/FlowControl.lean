import TwinpassGateway.Eth.Xmit
import TwinpassGateway.Foundation.Run

/-!
Flow control of the eth1 device: calls of `eth1_xmit`, the mailbox interrupt and the transmit timeout,
one after another, with the hardware completing descriptors between any two statements.
-/

namespace TwinpassGateway.Eth

open Foundation

/-! ### The interrupt handler and the timeout -/

def Mailbox.startCh2 (m : Mailbox) : Mailbox :=
  { m with
    dmaCh2TxNotRun := 0
    eth1DevTxIrq := m.eth1DevTxIrq &&& allTxIrq
    ier := m.eth1DevTxIrq &&& allTxIrq }

/-- `eth1_dev_tx_irq ^= tx_irq`, the mask, and `netif_wake_queue`. -/
def Mailbox.wake (m : Mailbox) (txIrq : U32) : Mailbox :=
  { m with eth1DevTxIrq := m.eth1DevTxIrq ^^^ txIrq, ier := m.eth1DevTxIrq ^^^ txIrq, stopped := false }

def Mailbox.lineOff (m : Mailbox) : Mailbox := if m.eth1DevTxIrq = 0 then m.disableIrq else m

/-- `*MBOX_IGU1_IER = eth1_dev_tx_irq = 0` -/
def Mailbox.maskAll (m : Mailbox) : Mailbox := { m with eth1DevTxIrq := 0, ier := 0 }

/-- The call under way, and the statement it comes to next. `caller` is the channel whose
`in_fast_path` the caller has set. -/
inductive Call
  | idle
  | xmit (caller : Fin 4) (x : Xmit)
  | irqRead
  | irqAck (txIrq : U32)
  | irqCh2 (txIrq : U32)
  | irqWake (txIrq : U32)
  | irqOff
  | timeoutMask
  | timeoutWake

/-- `ch2Desc` is the word at `DMA_TX_CH2_DESC_BASE`. -/
structure Driver where
  tx : Fin 4 → TxCh := fun _ => {}
  box : Mailbox := {}
  ch2Desc : U32 := 0
  call : Call := .idle

/-- With `ENABLE_D2` the packets for channel 1 go to channel 0. The source defines it as 1. -/
def txChannel (enableD2 : Bool) (ch : Fin 4) : Fin 4 := if enableD2 && ch == 1 then 0 else ch

def Used (enableD2 : Bool) (ch : Fin 4) : Prop := ∃ ch', txChannel enableD2 ch' = ch

/-- One statement of the call under way. The handler runs with interrupts off, and the statements of
its blocks that do not look at the hardware are taken together. -/
def Driver.proceed (d2 : Bool) (s : Driver) : Driver :=
  match s.call with
  | .idle => s
  | .xmit caller .done =>
    { s with tx := Function.update s.tx caller { s.tx caller with inFastPath := false }, call := .idle }
  | .xmit caller x =>
    let ch := txChannel d2 caller
    let (x, tx, box) := x.stmt ch (s.tx ch) s.box
    { s with tx := Function.update s.tx ch tx, box := box, call := .xmit caller x }
  | .irqRead => { s with call := .irqAck (s.box.isr &&& s.box.eth1DevTxIrq) }
  | .irqAck txIrq => { s with box := s.box.isrc txIrq, call := .irqCh2 txIrq }
  | .irqCh2 txIrq =>
    if s.box.dmaCh2TxNotRun ≠ 0 ∧ txIrq &&& s.box.dmaCh2TxNotRun ≠ 0 ∧ s.ch2Desc &&& 0x80000000#32 ≠ 0 then
      { s with box := s.box.startCh2, call := .irqWake (txIrq &&& allTxIrq) }
    else { s with call := .irqWake txIrq }
  | .irqWake txIrq => { s with box := if txIrq = 0 then s.box else s.box.wake txIrq, call := .irqOff }
  | .irqOff => { s with box := s.box.lineOff, call := .idle }
  | .timeoutMask => { s with box := s.box.maskAll, call := .timeoutWake }
  | .timeoutWake => { s with box := { s.box with stopped := false }, call := .idle }

/-- `timeout` is a turn of `dev_watchdog`, `raise` any other interrupt bit that the firmware sets, `ch2` what it stores
in the descriptor. -/
inductive Input
  | xmit (ch : Fin 4) (fast : Bool) (k : Skb)
  | interrupt
  | timeout
  | stmt
  | complete (ch : Fin 4)
  | raise (bits : U32)
  | ch2 (word : U32)

/-- A call starts when the one before it has returned. The handler runs only while the line is enabled, and the
watchdog calls `eth1_tx_timeout` only on a stopped queue. -/
def Driver.step (d2 : Bool) (s : Driver) : Input → Driver
  | .xmit ch fast k =>
    match s.call with
    | .idle =>
      { s with
        tx := Function.update s.tx ch { s.tx ch with inFastPath := fast }
        call := .xmit ch (.needLock k) }
    | _ => s
  | .interrupt =>
    match s.call with
    | .idle => if s.box.depth = 0 then { s with call := .irqRead } else s
    | _ => s
  | .timeout =>
    match s.call with
    | .idle => if s.box.stopped then { s with call := .timeoutMask } else s
    | _ => s
  | .stmt => s.proceed d2
  | .complete ch =>
    if (s.tx ch).own (s.tx ch).hw then
      { s with
        tx := Function.update s.tx ch (s.tx ch).complete
        box := { s.box with isr := s.box.isr ||| swapOut ch } }
    else s
  | .raise bits => { s with box := { s.box with isr := s.box.isr ||| bits } }
  | .ch2 word => { s with ch2Desc := word }

/-! ### What the flow control is for -/

def Mailbox.Armed (m : Mailbox) (ch : Fin 4) : Prop := m.eth1DevTxIrq.getLsbD (ch + 16) = true

def Mailbox.Enabled (m : Mailbox) (ch : Fin 4) : Prop := m.ier.getLsbD (ch + 16) = true

def Mailbox.Pending (m : Mailbox) (ch : Fin 4) : Prop := m.isr.getLsbD (ch + 16) = true

def TxCh.Busy (c : TxCh) : Prop := ∃ p, p < eth1TxDescNum ∧ c.own p = true

/-- A stopped queue will be woken: every used channel has its interrupt enabled, and it is pending or
there is a descriptor whose completion will raise it. -/
def Driver.WillWake (d2 : Bool) (s : Driver) : Prop :=
  s.box.stopped = true → ∀ ch, Used d2 ch → s.box.Enabled ch ∧ (s.box.Pending ch ∨ (s.tx ch).Busy)

/-- Between calls a stopped queue will be woken, and the calls on the interrupt line alternate. -/
structure Driver.Live (d2 : Bool) (s : Driver) : Prop where
  wake : s.call = .idle → s.WillWake d2
  line : s.box.calls.IsChain (· ≠ ·)

instance TxCh.decidableBusy (c : TxCh) : Decidable c.Busy := inferInstanceAs (Decidable (∃ p, p < eth1TxDescNum ∧ c.own p = true))

/-- The watchdog finds the queue running, and without `ENABLE_D2` a call that drops its packet finds a
descriptor with the hardware still when it clears the interrupt bit. -/
def Driver.Clear (d2 : Bool) (s : Driver) : Input → Prop
  | .timeout =>
    match s.call with
    | .idle => s.box.stopped = false
    | _ => True
  | .stmt =>
    match s.call with
    | .xmit caller (.clear _ none) => d2 = true ∨ (s.tx (txChannel d2 caller)).Busy
    | _ => True
  | _ => True

instance Driver.decidableClear (d2 : Bool) (s : Driver) (e : Input) : Decidable (s.Clear d2 e) := by
  unfold Driver.Clear
  split
  · split <;> infer_instance
  · split <;> infer_instance
  · infer_instance

end TwinpassGateway.Eth
