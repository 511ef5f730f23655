import TwinpassGateway.Spi.Receive

/-!
The sessions of `westell_spi_mdio.c`: `ssc_session`, which sends a preamble and a command and may read a reply, with the
transmit interrupt between any two of its statements.
-/

namespace TwinpassGateway.Spi

open Foundation

/-- The four bytes of `local_tx_buf` and of `local_rx_buf` that a session uses. -/
structure LocalBufs where
  tx : ByteBuffer 32
  rx : ByteBuffer 32
  nonnull : tx.start ≠ 0
  txSize : tx.size = 4
  rxSize : rx.size = 4

def preamble : U32 := 0xffffffff#32

/-! ### The two halves of `tx_int` -/

/-- How much there is to write, when the free entries have been counted. -/
def txFill (p : TxPort) (fifoSpace : Int) : Int :=
  let fill := (p.txbufEnd - p.txbufPtr).toInt
  if fill > fifoSpace * 4 then fifoSpace * 4 else fill

def txWrite (mem : U32 → U8) (p : TxPort) (fifoSpace fill : Int) : List TxEntry × TxPort :=
  let (entries, ptr, sent) := txAccesses mem fifoSpace fill p.txbufPtr
  (entries, txComplete { p with txbufPtr := ptr, txBytes := p.txBytes + sent })

theorem txInt_eq (mem : U32 → U8) (p : TxPort) (r : TxReading) :
    txInt mem p r = if r.fifoSpace = 0 then ([], p) else txWrite mem p r.fifoSpace (txFill p r.fifoSpace) := rfl

/-! ### Sessions -/

/-- What a statement reads: whether `STATE` says busy or `RXCNT` has something to do, and the registers of the FIFOs. -/
structure Surroundings where
  busy : Bool
  tx : TxReading
  rx : RxReading

inductive SscAt where
  /-- No session is under way. -/
  | returned
  /-- The loop over `STATE` and `RXCNT`. -/
  | awaitIdle (busycount : Nat)
  /-- The loop over `txbuf`. -/
  | awaitBuffer (busycount : Nat)
  /-- `ifx_ssc_rxtx_mode_set` with `IFX_SSC_MODE_TX`. -/
  | setTx (tmp : Nat)
  | putPreamble
  | writePreamble
  /-- `ifx_ssc_rxtx_mode_set` with `IFX_SSC_MODE_RXTX`. -/
  | setRxtx (tmp : Nat)
  | putCommand
  | writeCommand
  | kread
  /-- The head of the loop of `ifx_ssc_read_helper_poll`. -/
  | poll
  /-- `tx_int` in this loop, up to its count of what is to be written, and from there on. -/
  | look
  | write (fifoSpace fill : Int)
  /-- `rx_int` in this loop. -/
  | receive
  deriving DecidableEq

/-- A session that has returned, with the words that `ifx_ssc_kwrite` took from it. -/
structure SscSession where
  command : U32
  handed : List U32
  ret : Int

structure Ssc where
  txMem : U32 → U8
  tx : TxPort
  rx : RxPort
  place : SscAt := .returned
  command : U32 := 0#32
  /-- The entries that the receive FIFO is going to have, in a session that reads. -/
  reply : Option (Nat → RxEntry) := none
  /-- The words that `ifx_ssc_kwrite` took from this session. -/
  handed : List U32 := []
  wire : List TxEntry := []
  sessions : List SscSession := []

namespace Ssc

def finish (s : Ssc) (ret : Int) : Ssc :=
  { s with place := .returned, handed := [], sessions := s.sessions ++ [⟨s.command, s.handed, ret⟩] }

def setMode (s : Ssc) (mode : Mode) : Ssc :=
  { s with tx := { s.tx with modeRxTx := mode }, rx := { s.rx with modeRxTx := mode } }

def awaitMode (s : Ssc) (mode : Mode) (tmp : Nat) (busy : Bool) (again : Nat → SscAt) (next : SscAt) : Ssc :=
  if s.tx.modeRxTx = mode then { s with place := next }
  else if busy then if tmp + 1 = 20 then s.finish (-16) else { s with place := again (tmp + 1) }
  else { s.setMode mode with place := next }

/-- `ifx_ssc_kwrite` for the word in `local_tx_buf`. -/
def kwrite (b : LocalBufs) (s : Ssc) (r : TxReading) : Int × Ssc :=
  let (ret, entries, tx) := ifxSscKwrite s.txMem s.tx b.tx.start 4#32 r
  (ret, { s with
    tx
    wire := s.wire ++ entries
    handed := if ret < 0 then s.handed else s.handed ++ [load32 s.txMem b.tx.start] })

def put (b : LocalBufs) (s : Ssc) (word : U32) (next : SscAt) : Ssc :=
  { s with txMem := storeBytes s.txMem b.tx.start (bytes32 word), place := next }

def next (b : LocalBufs) (s : Ssc) (e : Surroundings) : Ssc :=
  match s.place with
  | .returned => s
  | .awaitIdle busycount =>
    if e.busy then if busycount + 1 = 10 then s.finish (-16) else { s with place := .awaitIdle (busycount + 1) }
    else { s with place := .awaitBuffer busycount }
  | .awaitBuffer busycount =>
    if s.tx.txbuf ≠ 0 ∧ busycount < 10 then { s with place := .awaitBuffer (busycount + 1) }
    else if busycount = 10 then s.finish (-16)
    else { s with place := .setTx 0 }
  | .setTx tmp => s.awaitMode .tx tmp e.busy .setTx .putPreamble
  | .putPreamble => s.put b preamble .writePreamble
  | .writePreamble => { (s.kwrite b e.tx).2 with place := if s.reply.isSome then .setRxtx 0 else .putCommand }
  | .setRxtx tmp => s.awaitMode .rxtx tmp e.busy .setRxtx .putCommand
  | .putCommand => s.put b s.command .writeCommand
  | .writeCommand =>
    let (ret, s) := s.kwrite b e.tx
    if s.reply.isSome ∧ ret = 4 then { s with place := .kread } else s.finish ret
  | .kread =>
    if s.tx.modeRxTx = .tx then s.finish (-14) else { s with rx := s.rx.startRead b.rx, place := .poll }
  | .poll =>
    if s.rx.rxbufPtr < s.rx.rxbufEnd then
      if s.tx.txbufPtr < s.tx.txbufEnd then { s with tx := { s.tx with txirq := true }, place := .look }
      else { s with place := .receive }
    else { s with rx := { s.rx with rxirq := false } }.finish (s.rx.rxbufPtr - b.rx.start).toInt
  | .look =>
    if e.tx.fifoSpace = 0 then { s with place := .receive }
    else { s with place := .write e.tx.fifoSpace (txFill s.tx e.tx.fifoSpace) }
  | .write fifoSpace fill =>
    let (entries, tx) := txWrite s.txMem s.tx fifoSpace fill
    { s with tx, wire := s.wire ++ entries, place := .receive }
  | .receive => { s with rx := rxInt (s.reply.getD fun _ => ⟨0#32, 0⟩) s.rx e.rx, place := .poll }

end Ssc

inductive SscEvent where
  /-- A session begins: `ifx_ssc_tx`, or `ifx_ssc_rx` with what comes in. -/
  | call (command : U32) (reply : Option (Nat → RxEntry))
  | next (e : Surroundings)
  | txInterrupt (r : TxReading)

namespace Ssc

def step (b : LocalBufs) (s : Ssc) : SscEvent → Ssc
  | .call command reply => if s.place = .returned then { s with command, reply, place := .awaitIdle 0 } else s
  | .next e => s.next b e
  | .txInterrupt r =>
    if s.tx.txirq then { s with tx := (txInt s.txMem s.tx r).2, wire := s.wire ++ (txInt s.txMem s.tx r).1 } else s

/-! ### What is expected -/

def pending (b : LocalBufs) (s : Ssc) : List TxEntry :=
  if s.tx.txbuf = 0 then [] else [.word (load32 s.txMem b.tx.start)]

def words (s : Ssc) : List U32 := s.sessions.flatMap SscSession.handed ++ s.handed

end Ssc

/-- A session that reports success has handed on its preamble and its command, any other one its preamble at most. -/
def SscSession.Told (session : SscSession) : Prop :=
  session.ret = 4 ∧ session.handed = [preamble, session.command] ∨ session.ret = -16 ∧ session.handed <+: [preamble]

namespace Ssc

/-- What has been taken goes out once, in order and as it was when it was taken. -/
structure Conserved (b : LocalBufs) (s : Ssc) : Prop where
  custody : s.wire ++ s.pending b = s.words.map .word
  told : ∀ session ∈ s.sessions, session.Told
  begun : s.handed <+: [preamble, s.command]

/-- The command is not copied over a preamble that has not been sent, and no interrupt sends the command between the
halves of the session's own `tx_int`. -/
def Allowed (s : Ssc) : SscEvent → Prop
  | .next _ =>
    match s.place with
    | .putCommand => s.tx.txbuf ≠ 0 → s.command = preamble
    | .write _ fill => 0 < fill → s.tx.txbuf ≠ 0
    | _ => True
  | _ => True

instance (s : Ssc) : ∀ e, Decidable (s.Allowed e)
  | .next _ => by
    unfold Allowed
    dsimp only
    split <;> infer_instance
  | .call .. | .txInterrupt _ => instDecidableTrue

def opened (txMem : U32 → U8) (rx : RxPort) : Ssc where
  txMem := txMem
  tx := ⟨.rxtx, 0#32, 0#32, 0#32, 0#32, false⟩
  rx := { rx with modeRxTx := .rxtx }

end Ssc

end TwinpassGateway.Spi
