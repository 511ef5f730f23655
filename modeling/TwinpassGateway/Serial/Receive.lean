import TwinpassGateway.Foundation.Run
import TwinpassGateway.Foundation.Segment
import TwinpassGateway.Foundation.Word

/-!
The receiver of `ifx_asc.c`: the receive interrupt, which fills one half of the flip buffer of the tty, and the task that
hands the other half to the line discipline (`flush_to_ldisc` in `tty_io.c`), into which the interrupt may break. The task
names the other half in `buf_num` before it turns interrupts off and moves the pointers there.
-/

namespace TwinpassGateway.Serial

open Foundation

/-! ### Characters -/

def ASCSTATE_PE : U32 := 0x00010000#32

def ASCSTATE_FE : U32 := 0x00020000#32

def ASCSTATE_ROE : U32 := 0x00080000#32

def ASCSTATE_ANY : U32 := ASCSTATE_PE ||| ASCSTATE_FE ||| ASCSTATE_ROE

def ASCMCON_PAL : U32 := 0x00010000#32

def ASCMCON_FEN : U32 := 0x00020000#32

def ASCMCON_ROEN : U32 := 0x00080000#32

def UART_DUMMY_UER_RX : U32 := 1#32

/-- `TTY_NORMAL`, `TTY_PARITY`, `TTY_FRAME` and `TTY_OVERRUN`. -/
inductive Flag where
  | normal
  | parity
  | frame
  | overrun
  deriving DecidableEq

structure Masks where
  readStatus : U32
  ignoreStatus : U32

/-- The masks that `ifx_asc_change_speed` sets, from `CREAD`, `INPCK`, `IGNPAR` and `IGNBRK`. -/
def changeSpeed (cread inpck ignpar ignbrk : Bool) : Masks where
  readStatus := ASCMCON_ROEN ||| (if inpck then ASCMCON_FEN ||| ASCMCON_PAL else 0#32)
  ignoreStatus :=
    (if ignpar then ASCMCON_FEN ||| ASCMCON_PAL else 0#32) ||| (if ignbrk && ignpar then ASCMCON_ROEN else 0#32) |||
      (if cread then 0#32 else UART_DUMMY_UER_RX)

structure Verdict where
  flag : Flag
  kept : Bool
  overrun : Bool
  deriving DecidableEq

def Masks.verdict (m : Masks) (state : U32) : Verdict :=
  let rsr := state &&& ASCSTATE_ANY ||| UART_DUMMY_UER_RX
  let masked := if rsr &&& ASCSTATE_ANY ≠ 0#32 then rsr &&& m.readStatus else rsr
  { flag := if masked &&& ASCSTATE_PE ≠ 0#32 then .parity else if masked &&& ASCSTATE_FE ≠ 0#32 then .frame else .normal
    kept := masked &&& m.ignoreStatus = 0#32
    overrun := masked &&& ASCSTATE_ROE ≠ 0#32 }

def errorBits (parity frame overrun : Bool) : U32 :=
  (if parity then ASCSTATE_PE else 0#32) ||| (if frame then ASCSTATE_FE else 0#32) |||
    (if overrun then ASCSTATE_ROE else 0#32)

theorem and_ASCSTATE_ANY (state : U32) :
    state &&& ASCSTATE_ANY = errorBits (state.getLsbD 16) (state.getLsbD 17) (state.getLsbD 19) := by
  have bit (i : Nat) : state &&& BitVec.twoPow 32 i = if state.getLsbD i then BitVec.twoPow 32 i else 0#32 :=
    BitVec.and_twoPow state i
  rw [show ASCSTATE_ANY = BitVec.twoPow 32 16 ||| BitVec.twoPow 32 17 ||| BitVec.twoPow 32 19 by decide,
    BitVec.and_or_distrib_left, BitVec.and_or_distrib_left, bit, bit, bit]
  rfl

/-- What the settings of the terminal make of a character. An error takes `UART_DUMMY_UER_RX` away, so that a character
with one is kept without `CREAD`, too. -/
theorem changeSpeed_verdict (cread inpck ignpar ignbrk : Bool) (state : U32) :
    (changeSpeed cread inpck ignpar ignbrk).verdict state =
      { flag := if inpck && state.getLsbD 16 then .parity else if inpck && state.getLsbD 17 then .frame else .normal
        kept :=
          if state &&& ASCSTATE_ANY = 0#32 then cread
          else !ignpar || !(inpck && (state.getLsbD 16 || state.getLsbD 17)) && !(ignbrk && state.getLsbD 19)
        overrun := state.getLsbD 19 } := by
  unfold Masks.verdict
  rw [and_ASCSTATE_ANY state]
  generalize state.getLsbD 16 = parity
  generalize state.getLsbD 17 = frame
  generalize state.getLsbD 19 = overrun
  revert cread inpck ignpar ignbrk parity frame overrun
  decide

structure Counts where
  rx : Nat := 0
  parity : Nat := 0
  frame : Nat := 0
  overrun : Nat := 0

def Counts.count (c : Counts) (state : U32) : Counts where
  rx := c.rx + 1
  parity := if state &&& ASCSTATE_PE ≠ 0#32 then c.parity + 1 else c.parity
  frame :=
    if state &&& ASCSTATE_PE ≠ 0#32 then c.frame else if state &&& ASCSTATE_FE ≠ 0#32 then c.frame + 1 else c.frame
  overrun := if state &&& ASCSTATE_ROE ≠ 0#32 then c.overrun + 1 else c.overrun

/-! ### The flip buffer -/

structure Item where
  ch : U8
  flag : Flag
  deriving DecidableEq

def TTY_FLIPBUF_SIZE : Nat := 512

def half (bufNum : Bool) : Nat := if bufNum then TTY_FLIPBUF_SIZE else 0

/-- Where `flush_to_ldisc` is, when `tq_timer` has begun it. -/
inductive Job where
  /-- It has changed `buf_num`, which was `bufNum`, and interrupts are still on. -/
  | flipping (bufNum : Bool)
  /-- It is in `receive_buf`, with `cp` and the number of characters that are left. -/
  | handing (cp count : Nat)
  deriving DecidableEq

def Job.leaving (buf : Nat → Item) : Job → List Item
  | .flipping _ => []
  | .handing cp count => region buf cp count

/-- A port and its tty. `char_buf_ptr` and `flag_buf_ptr` have the same place, `ptr`. -/
structure Receiver where
  /-- The FIFO of the device, each character with the state that is read behind it. -/
  fifo : List (U8 × U32) := []
  buf : Nat → Item
  ptr : Nat := 0
  count : Nat := 0
  bufNum : Bool := false
  /-- `TTY_DONT_FLIP`. -/
  dontFlip : Bool := false
  lowLatency : Bool
  /-- `flip.tqueue` is on `tq_timer`. -/
  queued : Bool := false
  job : Option Job := none
  /-- The interrupt is in its loop, with `fifocnt`. -/
  rx : Option Nat := none
  /-- Its variable `ch`. -/
  ch : U8 := 0#8
  /-- `port->icount`, and the counters of the driver itself. -/
  icount : Counts := {}
  counts : Counts := {}
  /-- The character that was read last. -/
  lastRead : U8 := 0#8
  /-- What the line discipline has been given. -/
  received : List Item := []
  /-- The characters that are not to be ignored and the marks of overruns that have been stored. -/
  accepted : List Item := []

namespace Receiver

/-- The exchange of the halves in `flush_to_ldisc`. -/
def exchange (s : Receiver) : Receiver := { s with bufNum := !s.bufNum, ptr := half (!s.bufNum), count := 0 }

/-- `flush_to_ldisc` in an interrupt: the characters are handed on before the interrupt ends. -/
def flushToLdisc (s : Receiver) : Receiver :=
  if s.dontFlip then { s with queued := true }
  else { s.exchange with received := s.received ++ region s.buf (half s.bufNum) s.count }

def ttyFlipBufferPush (s : Receiver) : Receiver := if s.lowLatency then s.flushToLdisc else { s with queued := true }

def store (s : Receiver) (ch : U8) (flag : Flag) : Receiver :=
  { s with
    buf := Function.update s.buf s.ptr ⟨ch, flag⟩
    ptr := s.ptr + 1
    count := s.count + 1
    accepted := s.accepted ++ [⟨ch, flag⟩] }

/-- A character that is ignored is written, too, but the next one takes its place. -/
def ignore (s : Receiver) (ch : U8) (flag : Flag) : Receiver :=
  { s with buf := Function.update s.buf s.ptr ⟨ch, flag⟩ }

def put (s : Receiver) (ch : U8) (v : Verdict) : Receiver := if v.kept then s.store ch v.flag else s.ignore ch v.flag

/-- An overrun is told after the character, unless that has filled the half. -/
def markOverrun (s : Receiver) (v : Verdict) : Receiver :=
  if v.overrun ∧ s.count < TTY_FLIPBUF_SIZE then s.store 0#8 .overrun else s

def take (m : Masks) (s : Receiver) (ch : U8) (state : U32) : Receiver :=
  let s := { s with icount := s.icount.count state, counts := s.counts.count state }
  (s.put ch (m.verdict state)).markOverrun (m.verdict state)

/-- `if (tty->flip.count >= TTY_FLIPBUF_SIZE) tty->flip.tqueue.routine((void *)tty);` -/
def makeRoom (s : Receiver) : Receiver := if TTY_FLIPBUF_SIZE ≤ s.count then s.flushToLdisc else s

/-- The interrupt returns with a character that it has read and has no room for. -/
def drop (m : Masks) (s : Receiver) (ch : U8) (state : U32) : Receiver :=
  { s with
    rx := none
    accepted := if (m.verdict state).kept then s.accepted ++ [⟨ch, (m.verdict state).flag⟩] else s.accepted }

def iteration (m : Masks) (s : Receiver) (ch : U8) (state : U32) : Receiver :=
  let s := { s with ch, lastRead := ch }.makeRoom
  if TTY_FLIPBUF_SIZE ≤ s.count then s.drop m ch state else s.take m ch state

end Receiver

inductive RxEvent where
  /-- A character arrives at the device. -/
  | arrive (ch : U8) (state : U32)
  /-- The receive interrupt begins. -/
  | rxInt
  /-- It goes on with the next character, or comes to its end. -/
  | rxStep
  /-- `tq_timer` is run. -/
  | timer
  /-- The task exchanges the pointers, with interrupts off. -/
  | exchange
  /-- The line discipline takes the next character from the task, or the task comes to its end. -/
  | receiveChar
  /-- `TTY_DONT_FLIP` is set or cleared. -/
  | setDontFlip (dontFlip : Bool)

namespace Receiver

/-- Nothing but the device goes on beside the interrupt. -/
def step (m : Masks) (s : Receiver) : RxEvent → Receiver
  | .arrive ch state => { s with fifo := s.fifo ++ [(ch, state)] }
  | .rxInt => if s.rx.isSome then s else { s with rx := some (s.fifo.length % 64), ch := 0#8 }
  | .rxStep =>
    match s.rx, s.fifo with
    | some 0, _ => { (if s.ch ≠ 0#8 then s.ttyFlipBufferPush else s) with rx := none }
    | some (k + 1), (ch, state) :: rest => { s with rx := some k, fifo := rest }.iteration m ch state
    | _, _ => s
  | .timer =>
    if s.rx.isSome ∨ s.queued = false ∨ s.job.isSome ∨ s.dontFlip then s
    else { s with queued := false, bufNum := !s.bufNum, job := some (.flipping s.bufNum) }
  | .exchange =>
    match s.rx, s.job with
    | none, some (.flipping bufNum) =>
      { s with ptr := half (!bufNum), count := 0, job := some (.handing (half bufNum) s.count) }
    | _, _ => s
  | .receiveChar =>
    match s.rx, s.job with
    | none, some (.handing _ 0) => { s with job := none }
    | none, some (.handing cp (n + 1)) =>
      { s with received := s.received ++ [s.buf cp], job := some (.handing (cp + 1) n) }
    | _, _ => s
  | .setDontFlip dontFlip => if s.rx.isSome ∨ s.job.isSome then s else { s with dontFlip }

def filling (s : Receiver) : Bool :=
  match s.job with
  | some (.flipping bufNum) => bufNum
  | _ => s.bufNum

def pending (s : Receiver) : List Item := region s.buf (half s.filling) s.count

def leaving (s : Receiver) : List Item := s.job.elim [] fun job => job.leaving s.buf

/-- The task is between its two changes, or has characters left. -/
def busy (s : Receiver) : Bool :=
  match s.job with
  | none => false
  | some (.flipping _) => true
  | some (.handing _ count) => count ≠ 0

/-- The half that the task hands on, or is about to, is not the one that `buf_num` names. -/
def Apart (s : Receiver) : Prop :=
  match s.job with
  | some (.flipping bufNum) => bufNum ≠ s.bufNum
  | some (.handing cp (_ + 1)) => cp < half s.bufNum ∨ half s.bufNum + TTY_FLIPBUF_SIZE ≤ cp
  | _ => True

/-- A port that has been opened, before anything arrives. -/
def opened (buf : Nat → Item) (lowLatency : Bool) : Receiver := { buf, lowLatency }

/-- Everything that was accepted has been handed on once and in order, or is on its way in this order, and the task and
the interrupt have a half each. -/
structure Conserved (s : Receiver) : Prop where
  custody : s.received ++ s.leaving ++ s.pending = s.accepted
  apart : s.Apart

/-- The interrupt does not read a character it has no room for, and does not exchange the halves while the task is not
done with the other one. -/
def Allowed (m : Masks) (s : Receiver) : RxEvent → Prop
  | .rxStep =>
    match s.rx, s.fifo with
    | some 0, _ => s.ch ≠ 0#8 → s.lowLatency → s.dontFlip = false → s.busy = false
    | some (_ + 1), (_, state) :: _ =>
      TTY_FLIPBUF_SIZE ≤ s.count → if s.dontFlip then (m.verdict state).kept = false else s.busy = false
    | _, _ => True
  | _ => True

instance (m : Masks) (s : Receiver) : ∀ e, Decidable (s.Allowed m e)
  | .rxStep => by
    unfold Allowed
    dsimp only
    split <;> infer_instance
  | .arrive .. | .rxInt | .timer | .exchange | .receiveChar | .setDontFlip _ => instDecidableTrue

/-- The interrupt and the task have come to their ends, and no task is queued. -/
def Rest (s : Receiver) : Prop := s.rx = none ∧ s.job = none ∧ s.queued = false

instance (s : Receiver) : Decidable s.Rest := inferInstanceAs (Decidable (_ ∧ _ ∧ _))

end Receiver

end TwinpassGateway.Serial
