import TwinpassGateway.Foundation.ByteRange
import TwinpassGateway.Foundation.Run

/-!
The transmit half of the SSC driver (`westell_spi_mdio.c`): `tx_int`, and its start by `ifx_ssc_kwrite` and
`ifx_ssc_write_helper`.
-/

namespace TwinpassGateway.Spi

open Foundation

inductive Mode where
  | rxtx
  | rx
  | tx
  | off
  deriving DecidableEq

/-- What a write to the transmit register puts into the FIFO: one entry of 32, 16 or 8 bits. -/
inductive TxEntry where
  | word (v : U32)
  | half (v : BitVec 16)
  | byte (v : U8)
  deriving DecidableEq

/-- The bytes of an entry in the order they are sent, the most significant first. -/
def TxEntry.bytes : TxEntry → List U8
  | word v => bytes32 v
  | half v => bytes16 v
  | byte v => [v]

/-- The registers `ID` and `FSTAT` at the time of a call. -/
structure TxReading where
  id : U32
  fstat : U32

/-- The size of the FIFO without the words that wait in it. -/
def TxReading.fifoSpace (r : TxReading) : Int :=
  ((r.id &&& 0x3F000000#32) >>> 24).toNat - ((r.fstat &&& 0x3F00#32) >>> 8).toNat

/-- `struct ifx_ssc_port`, as far as transmission goes. -/
structure TxPort where
  modeRxTx : Mode
  txbuf : U32
  txbufEnd : U32
  txbufPtr : U32
  txBytes : U32
  txirq : Bool
  deriving DecidableEq

def txWords (mem : U32 → U8) : Nat → U32 → List TxEntry × U32
  | 0, ptr => ([], ptr)
  | n + 1, ptr =>
    let (entries, ptr') := txWords mem n (ptr + 4#32)
    (.word (load32 mem ptr) :: entries, ptr')

/-- The trailing accesses of 16 and 8 bits, with the bytes they add to the statistics. -/
def txTail (mem : U32 → U8) (fifoSpace fill : Int) (ptr : U32) : List TxEntry × U32 × U32 :=
  let (half, ptr, sent, fifoSpace, fill) :=
    if fifoSpace > 0 ∧ fill > 1 then ([.half (load16 mem ptr)], ptr + 2#32, 2#32, fifoSpace - 1, fill - 2)
    else ([], ptr, 0#32, fifoSpace, fill)
  if fifoSpace > 0 ∧ fill > 0 then (half ++ [.byte (mem ptr)], ptr + 1#32, sent + 1#32) else (half, ptr, sent)

/-- The accesses of one call. For an `int`, `& 0x3` is the remainder. -/
def txAccesses (mem : U32 → U8) (fifoSpace fill : Int) (ptr : U32) : List TxEntry × U32 × U32 :=
  let (words, ptr) := txWords mem (fill.tdiv 4).toNat ptr
  let fifoSpace := fifoSpace - fill.tdiv 4
  let (tail, ptr, sent) := txTail mem fifoSpace (fill % 4) ptr
  (words ++ tail, ptr, BitVec.ofInt 32 (fill - fill % 4) + sent)

def txComplete (p : TxPort) : TxPort :=
  if p.txbufPtr ≥ p.txbufEnd then { p with txirq := false, txbuf := 0 } else p

/-- `tx_int`: the entries it writes, and the port. -/
def txInt (mem : U32 → U8) (p : TxPort) (r : TxReading) : List TxEntry × TxPort :=
  if r.fifoSpace = 0 then ([], p)
  else
    let fill := (p.txbufEnd - p.txbufPtr).toInt
    let fill := if fill > r.fifoSpace * 4 then r.fifoSpace * 4 else fill
    let (entries, ptr, sent) := txAccesses mem r.fifoSpace fill p.txbufPtr
    (entries, txComplete { p with txbufPtr := ptr, txBytes := p.txBytes + sent })

/-- `ifx_ssc_write_helper`: what it returns, the entries written, and the port. -/
def ifxSscWriteHelper (mem : U32 → U8) (p : TxPort) (len : U32) (r : TxReading) : Int × List TxEntry × TxPort :=
  if p.modeRxTx = .rx then (-14, [], p)
  else
    let p := { p with txbufPtr := p.txbuf, txbufEnd := len + p.txbuf }
    if p.modeRxTx = .tx then
      let (entries, p) := txInt mem p r
      (len.toInt, entries, if p.txbufPtr < p.txbufEnd then { p with txirq := true } else p)
    else (len.toInt, [], p)

def ifxSscKwrite (mem : U32 → U8) (p : TxPort) (kbuf len : U32) (r : TxReading) : Int × List TxEntry × TxPort :=
  if len = 0 then (0, [], p)
  else if p.txbuf ≠ 0 then (-16, [], p)
  else
    let (ret, entries, p) := ifxSscWriteHelper mem { p with txbuf := kbuf } len r
    (ret, entries, if ret < 0 then { p with txbuf := 0 } else p)

def txRun (mem : U32 → U8) (p : TxPort) : List TxReading → List (List TxEntry)
  | [] => []
  | r :: rest => (txInt mem p r).1 :: txRun mem (txInt mem p r).2 rest

def afterReadings (mem : U32 → U8) (p : TxPort) (readings : List TxReading) : TxPort :=
  exec (fun p r => (txInt mem p r).2) p readings

def sentBytes (entries : List TxEntry) : List U8 := entries.flatMap TxEntry.bytes

/-! ### One call -/

section Call

variable {mem : U32 → U8} {b : ByteBuffer 32} {p : TxPort} {k : Nat}

theorem txWords_eq (mem : U32 → U8) (n : Nat) (ptr : U32) :
    sentBytes (txWords mem n ptr).1 = loadBytes mem ptr (4 * n) ∧ (txWords mem n ptr).1.length = n ∧
      (txWords mem n ptr).2 = ptr + BitVec.ofNat 32 (4 * n) := by
  induction n generalizing ptr with
  | zero => exact ⟨rfl, rfl, (BitVec.add_zero ptr).symm⟩
  | succ n ih =>
    obtain ⟨bytes, count, pointer⟩ := ih (ptr + 4#32)
    have whole : 4 * (n + 1) = 4 + 4 * n := by omega
    rw [txWords, whole]
    refine ⟨?_, congrArg (· + 1) count, ?_⟩
    · rw [loadBytes_add, ← bytes32_load32]
      exact congrArg (bytes32 (load32 mem ptr) ++ ·) bytes
    · rw [pointer, BitVec.add_assoc, BitVec.ofNat_add]

/-- The tail sends up to three bytes more, in at most as many entries as are free. -/
theorem txTail_sends (mem : U32 → U8) {space fill : Nat} (ptr : U32) (short : fill < 4) (free : 0 < fill → 0 < space) :
    ∃ sent ≤ fill, sentBytes (txTail mem space fill ptr).1 = loadBytes mem ptr sent ∧
      (txTail mem space fill ptr).1.length ≤ space ∧
      (txTail mem space fill ptr).2.1 = ptr + BitVec.ofNat 32 sent ∧ (0 < fill → 0 < sent) := by
  unfold txTail
  by_cases two : 1 < fill
  · have first : (space : Int) > 0 ∧ (fill : Int) > 1 := by omega
    rw [if_pos first]
    dsimp only
    by_cases third : (space : Int) - 1 > 0 ∧ (fill : Int) - 2 > 0
    · rw [if_pos third]
      refine ⟨3, by omega, ?_, ?_, ?_, fun _ => by omega⟩
      · rw [show 3 = 2 + 1 from rfl, loadBytes_add, loadBytes_one, ← bytes16_load16]
        rfl
      · show 2 ≤ space
        omega
      · exact BitVec.add_assoc ptr 2#32 1#32
    · rw [if_neg third]
      refine ⟨2, by omega, ?_, ?_, rfl, fun _ => by omega⟩
      · rw [← bytes16_load16]
        rfl
      · show 1 ≤ space
        omega
  · have first : ¬((space : Int) > 0 ∧ (fill : Int) > 1) := by omega
    rw [if_neg first]
    dsimp only
    by_cases one : (space : Int) > 0 ∧ (fill : Int) > 0
    · rw [if_pos one]
      refine ⟨1, by omega, ?_, ?_, rfl, fun _ => by omega⟩
      · rw [loadBytes_one]
        rfl
      · show 1 ≤ space
        omega
    · rw [if_neg one]
      exact ⟨0, Nat.zero_le _, rfl, Nat.zero_le _, (BitVec.add_zero ptr).symm, fun more => by omega⟩

/-- The buffer is being sent, and its first `k` bytes have been. -/
structure Sending (b : ByteBuffer 32) (p : TxPort) (k : Nat) : Prop where
  inside : k ≤ b.size
  here : p.txbufPtr = b.start + BitVec.ofNat 32 k
  stop : p.txbufEnd = b.stop

/-- The port says that it is done when all has been sent, and only then. -/
def Reported (b : ByteBuffer 32) (p : TxPort) (k : Nat) : Prop := p.txbuf = 0 ↔ k = b.size

theorem txComplete_at {p q : TxPort} {k' : Nat} (reported : Reported b p k) (later : k ≤ k') (inside : k' ≤ b.size)
    (same : q.txbuf = p.txbuf) (here : q.txbufPtr = b.start + BitVec.ofNat 32 k') (stop : q.txbufEnd = b.stop) :
    Sending b (txComplete q) k' ∧ Reported b (txComplete q) k' := by
  have finished : q.txbufPtr ≥ q.txbufEnd ↔ k' = b.size := by
    rw [here, stop]
    exact ByteBuffer.stop_le_iff inside
  unfold txComplete
  unfold Reported at reported ⊢
  by_cases whole : k' = b.size
  · rw [if_pos (finished.mpr whole)]
    exact ⟨⟨inside, here, stop⟩, iff_of_true rfl whole⟩
  · rw [if_neg (mt finished.mp whole), same, reported]
    exact ⟨⟨inside, here, stop⟩, iff_of_false (by omega) whole⟩

/-- The accesses send as many bytes as they may, but for the last one or two when the free entries run out. -/
theorem txAccesses_sends (mem : U32 → U8) {space fill : Nat} (ptr : U32) (room : fill ≤ space * 4) :
    ∃ sent ≤ fill, sentBytes (txAccesses mem space fill ptr).1 = loadBytes mem ptr sent ∧
      (txAccesses mem space fill ptr).1.length ≤ space ∧
      (txAccesses mem space fill ptr).2.1 = ptr + BitVec.ofNat 32 sent ∧ (0 < fill → 0 < sent) := by
  obtain ⟨bytes, count, pointer⟩ := txWords_eq mem (fill / 4) ptr
  have words : (fill : Int).tdiv 4 = (fill / 4 : Nat) := Int.tdiv_eq_ediv_of_nonneg (Int.natCast_nonneg fill)
  have rest : (space : Int) - (fill / 4 : Nat) = ((space - fill / 4 : Nat) : Int) := by omega
  have odd : (fill : Int) % 4 = (fill % 4 : Nat) := rfl
  obtain ⟨sent, most, tailBytes, tailCount, tailPointer, more⟩ :=
    txTail_sends mem (txWords mem (fill / 4) ptr).2 (by omega : fill % 4 < 4)
      (by omega : 0 < fill % 4 → 0 < space - fill / 4)
  unfold txAccesses
  rw [words, rest, odd, Int.toNat_natCast]
  refine ⟨4 * (fill / 4) + sent, by omega, ?_, ?_, ?_, fun some => by omega⟩
  · rw [loadBytes_add, ← bytes, ← pointer, ← tailBytes]
    exact List.flatMap_append
  · refine List.length_append.trans_le ?_
    rw [count]
    omega
  · show (txTail mem _ _ _).2.1 = _
    rw [tailPointer, pointer, BitVec.ofNat_add, BitVec.add_assoc]

/-- When the FIFO reports more words than it has room for, there is no access. -/
theorem txAccesses_negative (mem : U32 → U8) {space : Int} (ptr : U32) (negative : space < 0) :
    txAccesses mem space (space * 4) ptr = ([], ptr, BitVec.ofInt 32 (space * 4)) := by
  have words : (space * 4).tdiv 4 = space := Int.mul_tdiv_cancel _ (by decide)
  have none : space.toNat = 0 := by omega
  unfold txAccesses
  rw [words, none, Int.sub_self, Int.mul_emod_left, Int.sub_zero]
  show (_, _, _ + 0#32) = _
  rw [BitVec.add_zero]
  rfl

/-- A call goes on where the last one stopped. -/
theorem txInt_sends (sending : Sending b p k) (reported : Reported b p k) (r : TxReading) :
    ∃ k', k ≤ k' ∧ Sending b (txInt mem p r).2 k' ∧ Reported b (txInt mem p r).2 k' ∧
      sentBytes (txInt mem p r).1 = loadBytes mem (b.start + BitVec.ofNat 32 k) (k' - k) ∧
      (txInt mem p r).1.length ≤ r.fifoSpace.toNat ∧ (0 < r.fifoSpace → k < b.size → k < k') := by
  obtain ⟨inside, here, stop⟩ := sending
  have left : (p.txbufEnd - p.txbufPtr).toInt = b.size - k := by rw [stop, here, ByteBuffer.toInt_left inside]
  unfold txInt
  by_cases full : r.fifoSpace = 0
  · rw [if_pos full]
    exact ⟨k, Nat.le_refl k, ⟨inside, here, stop⟩, reported, by rw [Nat.sub_self]; rfl, Nat.zero_le _, by omega⟩
  rw [if_neg full, left]
  dsimp only
  by_cases negative : r.fifoSpace < 0
  · rw [if_pos (by omega), txAccesses_negative mem _ negative]
    obtain ⟨sending', reported'⟩ := txComplete_at (q := { p with txBytes := p.txBytes + BitVec.ofInt 32 _ }) reported
      (Nat.le_refl k) inside rfl here stop
    exact ⟨k, Nat.le_refl k, sending', reported', by rw [Nat.sub_self]; rfl, Nat.zero_le _, by omega⟩
  · obtain ⟨space, free⟩ : ∃ n : Nat, r.fifoSpace = n := ⟨_, (Int.toNat_of_nonneg (by omega)).symm⟩
    obtain ⟨fill, filled, low, high, some⟩ : ∃ fill : Nat,
        (if (b.size : Int) - k > r.fifoSpace * 4 then r.fifoSpace * 4 else (b.size : Int) - k) = fill ∧
          fill ≤ space * 4 ∧ fill ≤ b.size - k ∧ (0 < r.fifoSpace → k < b.size → 0 < fill) := by
      split
      · exact ⟨space * 4, by omega, by omega, by omega, by omega⟩
      · exact ⟨b.size - k, by omega, by omega, by omega, by omega⟩
    obtain ⟨sent, most, bytes, count, pointer, more⟩ := txAccesses_sends mem p.txbufPtr low
    rw [filled, free]
    have there : (txAccesses mem space fill p.txbufPtr).2.1 = b.start + BitVec.ofNat 32 (k + sent) := by
      rw [pointer, here, BitVec.ofNat_add, BitVec.add_assoc]
    obtain ⟨sending', reported'⟩ := txComplete_at
      (q := { p with txbufPtr := _, txBytes := p.txBytes + (txAccesses mem space fill p.txbufPtr).2.2 }) reported
      (Nat.le_add_right k sent) (by omega) rfl there stop
    refine ⟨k + sent, Nat.le_add_right k sent, sending', reported', ?_, count, fun space unfinished => ?_⟩
    · rw [Nat.add_sub_cancel_left, ← here]
      exact bytes
    · have := more (some (by omega) unfinished)
      omega

end Call

/-! ### Runs -/

section Run

variable {mem : U32 → U8} {b : ByteBuffer 32} {p : TxPort} {k : Nat}

theorem txRun_sends (sending : Sending b p k) (reported : Reported b p k) (readings : List TxReading) :
    ∃ k', k ≤ k' ∧ Sending b (afterReadings mem p readings) k' ∧ Reported b (afterReadings mem p readings) k' ∧
      sentBytes (txRun mem p readings).flatten = loadBytes mem (b.start + BitVec.ofNat 32 k) (k' - k) ∧
      List.Forall₂ (fun r entries => entries.length ≤ r.fifoSpace.toNat) readings (txRun mem p readings) ∧
      min b.size (k + readings.countP fun r => 0 < r.fifoSpace) ≤ k' := by
  induction readings generalizing p k with
  | nil => exact ⟨k, Nat.le_refl k, sending, reported, by rw [Nat.sub_self]; rfl, .nil, Nat.min_le_right _ _⟩
  | cons r rest ih =>
    obtain ⟨k₁, le₁, sending₁, reported₁, bytes₁, count₁, more₁⟩ := txInt_sends sending reported r
    obtain ⟨k₂, le₂, sending₂, reported₂, bytes₂, count₂, more₂⟩ := ih sending₁ reported₁
    refine ⟨k₂, le₁.trans le₂, sending₂, reported₂, ?_, .cons count₁ count₂, ?_⟩
    · have parts : k₂ - k = (k₁ - k) + (k₂ - k₁) := by omega
      have place : b.start + BitVec.ofNat 32 k + BitVec.ofNat 32 (k₁ - k) = b.start + BitVec.ofNat 32 k₁ := by
        rw [BitVec.add_assoc, ← BitVec.ofNat_add, Nat.add_sub_cancel' le₁]
      rw [parts, loadBytes_add, place, ← bytes₁, ← bytes₂]
      exact List.flatMap_append
    · have inside := sending₁.inside
      rw [List.countP_cons]
      split
      · next free =>
        have := more₁ (of_decide_eq_true free)
        omega
      · omega

theorem size_toInt (b : ByteBuffer 32) : (BitVec.ofNat 32 b.size).toInt = b.size := by
  have short := b.short
  have sizeNat : (BitVec.ofNat 32 b.size).toNat = b.size := by
    rw [BitVec.toNat_ofNat, Nat.mod_eq_of_lt (by omega)]
  rw [BitVec.toInt_eq_toNat_of_lt (by omega), sizeNat]

/-- In transmit mode the helper sends at once what there is room for, else it leaves that to the calls to come. -/
theorem writeHelper_sends (buffer : p.txbuf = b.start) (nonnull : b.start ≠ 0) (nonempty : b.size ≠ 0)
    (mode : p.modeRxTx ≠ .rx) (r : TxReading) :
    ∃ k entries start,
      ifxSscWriteHelper mem p (BitVec.ofNat 32 b.size) r = ((b.size : Int), entries, start) ∧
      Sending b start k ∧ Reported b start k ∧ sentBytes entries = loadBytes mem b.start k ∧
      entries.length ≤ r.fifoSpace.toNat := by
  have sending : Sending b { p with txbufPtr := p.txbuf, txbufEnd := BitVec.ofNat 32 b.size + p.txbuf } 0 := by
    refine ⟨Nat.zero_le _, buffer.trans (BitVec.add_zero _).symm, ?_⟩
    rw [buffer]
    exact BitVec.add_comm _ _
  have reported : Reported b { p with txbufPtr := p.txbuf, txbufEnd := BitVec.ofNat 32 b.size + p.txbuf } 0 :=
    iff_of_false (buffer ▸ nonnull) nonempty.symm
  unfold ifxSscWriteHelper
  rw [if_neg mode, size_toInt]
  dsimp only
  by_cases direct : p.modeRxTx = .tx
  · obtain ⟨k, -, sending', reported', bytes, count, -⟩ := txInt_sends sending reported r
    rw [if_pos direct]
    refine ⟨k, _, _, rfl, ?_, ?_, ?_, count⟩
    · split
      · exact ⟨sending'.inside, sending'.here, sending'.stop⟩
      · exact sending'
    · split
      · exact reported'
      · exact reported'
    · rw [bytes, BitVec.add_zero, Nat.sub_zero]
  · rw [if_neg direct]
    exact ⟨0, _, _, rfl, sending, reported, rfl, Nat.zero_le _⟩

theorem kwrite_sends (idle : p.txbuf = 0) (nonnull : b.start ≠ 0) (nonempty : b.size ≠ 0) (mode : p.modeRxTx ≠ .rx)
    (r : TxReading) :
    ∃ k entries start,
      ifxSscKwrite mem p b.start (BitVec.ofNat 32 b.size) r = ((b.size : Int), entries, start) ∧
      Sending b start k ∧ Reported b start k ∧ sentBytes entries = loadBytes mem b.start k ∧
      entries.length ≤ r.fifoSpace.toNat := by
  have len : BitVec.ofNat 32 b.size ≠ 0 := by
    intro none
    have size := size_toInt b
    rw [none] at size
    exact nonempty (Int.ofNat_inj.mp size.symm)
  have kept : ¬ ((b.size : Int) < 0) := by omega
  obtain ⟨k, entries, start, done, sends⟩ :=
    writeHelper_sends (p := { p with txbuf := b.start }) rfl nonnull nonempty mode r
  refine ⟨k, entries, start, ?_, sends⟩
  unfold ifxSscKwrite
  rw [if_neg len, if_neg (not_not_intro idle), done]
  dsimp only
  rw [if_neg kept]

end Run

/-- A buffer that is accepted for transmission is sent from its first byte on, each byte once, through no more entries
than are free, and the port says that it is done exactly when all of it has been sent. Enough calls that find a free
entry finish it. -/
theorem transmit_conserved (mem : U32 → U8) (b : ByteBuffer 32) (p : TxPort) (first : TxReading)
    (readings : List TxReading) (idle : p.txbuf = 0) (nonnull : b.start ≠ 0) (nonempty : b.size ≠ 0)
    (mode : p.modeRxTx ≠ .rx) :
    ∃ entries start, ifxSscKwrite mem p b.start (BitVec.ofNat 32 b.size) first = ((b.size : Int), entries, start) ∧
      entries.length ≤ first.fifoSpace.toNat ∧
      List.Forall₂ (fun r entries => entries.length ≤ r.fifoSpace.toNat) readings (txRun mem start readings) ∧
      sentBytes (entries ++ (txRun mem start readings).flatten) <+: b.contents mem ∧
      ((afterReadings mem start readings).txbuf = 0 ↔
        sentBytes (entries ++ (txRun mem start readings).flatten) = b.contents mem) ∧
      (b.size ≤ (readings.countP fun r => 0 < r.fifoSpace) → (afterReadings mem start readings).txbuf = 0) := by
  obtain ⟨k, entries, start, done, sending, reported, bytes, count⟩ :=
    kwrite_sends idle nonnull nonempty mode first
  obtain ⟨k', later, sending', reported', bytes', counts, more⟩ := txRun_sends sending reported readings
  have sent : sentBytes (entries ++ (txRun mem start readings).flatten) = loadBytes mem b.start k' := by
    have parts : k' = k + (k' - k) := by omega
    rw [parts, loadBytes_add, ← bytes, ← bytes']
    exact List.flatMap_append
  refine ⟨entries, start, done, count, counts, ?_, ?_, fun enough => reported'.mpr ?_⟩
  · rw [sent, ← loadBytes_take mem b.start b.size sending'.inside]
    exact List.take_prefix _ _
  · rw [sent]
    refine reported'.trans ?_
    constructor
    · intro whole
      rw [whole]
      rfl
    · intro same
      have lengths := congrArg List.length same
      rw [loadBytes_length] at lengths
      exact lengths.trans (loadBytes_length _ _ _)
  · have inside := sending'.inside
    omega

def sevenBytes : ByteBuffer 32 := ⟨0x80000001#32, 7, by decide, by decide⟩

def idleTx : TxPort := ⟨.tx, 0#32, 0#32, 0#32, 0#32, false⟩

theorem sevenBytes_sent : ∃ entries start,
    ifxSscKwrite (fun a => a.setWidth 8) idleTx 0x80000001#32 7#32 ⟨0x08000000#32, 0x0700#32⟩ = (7, entries, start) ∧
      sentBytes (entries ++
        (txRun (fun a => a.setWidth 8) start (List.replicate 7 ⟨0x08000000#32, 0x0700#32⟩)).flatten) =
          sevenBytes.contents (fun a => a.setWidth 8) := by
  obtain ⟨entries, start, done, -, -, -, finished, enough⟩ := transmit_conserved (fun a => a.setWidth 8) sevenBytes
    idleTx ⟨0x08000000#32, 0x0700#32⟩ (List.replicate 7 ⟨0x08000000#32, 0x0700#32⟩) rfl (by decide) (by decide)
    (by decide)
  exact ⟨entries, start, done, finished.mp (enough (by decide))⟩

end TwinpassGateway.Spi
