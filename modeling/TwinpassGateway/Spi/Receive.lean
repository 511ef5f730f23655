import TwinpassGateway.Foundation.Word
import TwinpassGateway.Spi.Transmit

/-!
The receive half of the SSC driver (`westell_spi_mdio.c`): `rx_int`, against the stream of bytes that the entries of the
receive FIFO carry.
-/

namespace TwinpassGateway.Spi

open Foundation

/-- An entry of the receive FIFO: what the receive register gives for it, and how many bytes of that the field `RXBV` of
`STATE` calls valid. -/
structure RxEntry where
  rb : U32
  valid : Fin 5

/-- The low `n` bytes of a word, the most significant first. -/
def lowBytes (rb : U32) (n : Nat) : List U8 := (List.range n).map fun i => (rb >>> (8 * (n - i - 1))).setWidth 8

def RxEntry.bytes (e : RxEntry) : List U8 := lowBytes e.rb e.valid

/-- What an interrupt meets: the register `FSTAT`, how many entries of the stream have arrived when it reads `STATE`, and
the register `RXCNT`. -/
structure RxReading where
  fstat : U32
  arrived : Nat
  rxcnt : U32

/-- `struct ifx_ssc_port`, as far as reception goes, with the memory and the number of entries read from the FIFO. -/
structure RxPort where
  mem : U32 → U8
  rxbufPtr : U32
  rxbufEnd : U32
  rxBytes : U32
  modeRxTx : Mode
  rxirq : Bool
  woken : Bool
  rxreq : List U32
  read : Nat

def RxPort.store (p : RxPort) (bytes : List U8) : RxPort :=
  { p with
    mem := storeBytes p.mem p.rxbufPtr bytes
    rxbufPtr := p.rxbufPtr + BitVec.ofNat 32 bytes.length
    rxBytes := p.rxBytes + BitVec.ofNat 32 bytes.length
    read := p.read + 1 }

/-- The transfer with 32 bits per entry: the fill level and the free bytes that are left after it. -/
def rxWords (stream : Nat → RxEntry) : Nat → Int → RxPort → Nat × Int × RxPort
  | 0, bytesInBuf, p => (0, bytesInBuf, p)
  | level + 1, bytesInBuf, p =>
    if bytesInBuf ≥ 4 then rxWords stream level (bytesInBuf - 4) (p.store (bytes32 (stream p.read).rb))
    else (level + 1, bytesInBuf, p)

/-- The loop over `STATE.RXBV`, which leaves the fill level as it is. Each turn fills at least one byte. -/
def rxRest (stream : Nat → RxEntry) (arrived : Nat) : Nat → Int → RxPort → RxPort
  | 0, _, p => p
  | turns + 1, bytesInBuf, p =>
    if bytesInBuf > 0 then
      let rxValidCnt : Nat := if p.read < arrived then (stream p.read).valid else 0
      if rxValidCnt = 0 then p
      else
        let rxValidCnt := if (rxValidCnt : Int) > bytesInBuf then bytesInBuf.toNat else rxValidCnt
        rxRest stream arrived turns (bytesInBuf - rxValidCnt) (p.store (lowBytes (stream p.read).rb rxValidCnt))
    else p

/-- The check for the end of the transfer, and the next request in receive mode. -/
def rxComplete (p : RxPort) (rxcnt : U32) : RxPort :=
  if p.rxbufPtr ≥ p.rxbufEnd then { p with rxirq := false, woken := true }
  else if p.modeRxTx = .rx ∧ rxcnt = 0 then
    let left := (p.rxbufEnd - p.rxbufPtr).toInt
    { p with rxreq := p.rxreq ++ [if left < 32768 then BitVec.ofInt 32 left else 32768#32] }
  else p

def rxInt (stream : Nat → RxEntry) (p : RxPort) (r : RxReading) : RxPort :=
  let fifoFillLev := (r.fstat &&& 0x3F#32).toNat
  let bytesInBuf := (p.rxbufEnd - p.rxbufPtr).toInt
  let (fifoFillLev, bytesInBuf, p) := rxWords stream fifoFillLev bytesInBuf p
  let p := if fifoFillLev > 0 then rxRest stream r.arrived bytesInBuf.toNat bytesInBuf p else p
  rxComplete p r.rxcnt

def afterInterrupts (stream : Nat → RxEntry) (p : RxPort) (readings : List RxReading) : RxPort :=
  exec (rxInt stream) p readings

/-- How `ifx_ssc_read_helper` sets up the pointers for a buffer, before anything of the stream has been read. -/
def RxPort.startRead (p : RxPort) (b : ByteBuffer 32) : RxPort :=
  { p with rxbufPtr := b.start, rxbufEnd := b.start + BitVec.ofNat 32 b.size, read := 0 }

/-! ### What is expected -/

def received (stream : Nat → RxEntry) : Nat → List U8
  | 0 => []
  | n + 1 => received stream n ++ (stream n).bytes

/-- The buffer holds the first bytes of the stream, nothing else has been written, and the count is right. -/
structure Conserved (stream : Nat → RxEntry) (b : ByteBuffer 32) (before after : RxPort) : Prop where
  inside : (after.rxbufPtr - b.start).toNat ≤ b.size
  stored : loadBytes after.mem b.start (after.rxbufPtr - b.start).toNat = (received stream after.read).take b.size
  frame : ∀ a, b.size ≤ (a - b.start).toNat → after.mem a = before.mem a
  counted : after.rxBytes = before.rxBytes + (after.rxbufPtr - b.start)

def carried (valid : Nat → Fin 5) : Nat → Nat
  | 0 => 0
  | n + 1 => carried valid n + valid n

theorem carried_mono (valid : Nat → Fin 5) : Monotone (carried valid) :=
  monotone_nat_of_le_succ fun n => Nat.le_add_right (carried valid n) (valid n)

/-- Every entry that can be reached is full while four bytes are free, and from then on carries no more than are free. -/
def Aligned (valid : Nat → Fin 5) (size : Nat) : Prop :=
  ∀ n, (∀ i < n, valid i ≠ 0) → carried valid n < size →
    if carried valid n + 4 ≤ size then valid n = 4 else carried valid n + valid n ≤ size

/-! ### Reception -/

section Reception

variable {stream : Nat → RxEntry} {b : ByteBuffer 32} {p₀ p : RxPort} {k : Nat}

@[simp] theorem lowBytes_length (rb : U32) (n : Nat) : (lowBytes rb n).length = n := by simp [lowBytes]

theorem lowBytes_four (rb : U32) : lowBytes rb 4 = bytes32 rb := by
  have shifted : ∀ s, (rb >>> s).setWidth 8 = rb.extractLsb' s 8 := fun s => rfl
  simp only [lowBytes, shifted]
  rfl

theorem received_length (stream : Nat → RxEntry) (n : Nat) :
    (received stream n).length = carried (fun i => (stream i).valid) n := by
  induction n with
  | zero => rfl
  | succ n ih =>
    rw [received, List.length_append, ih, carried]
    exact congrArg (_ + ·) (lowBytes_length _ _)

/-- The first `k` bytes of the buffer are those of the entries read so far. -/
structure Receiving (stream : Nat → RxEntry) (b : ByteBuffer 32) (p₀ p : RxPort) (k : Nat) : Prop where
  inside : k ≤ b.size
  here : p.rxbufPtr = b.start + BitVec.ofNat 32 k
  stop : p.rxbufEnd = b.stop
  stored : loadBytes p.mem b.start k = received stream p.read
  frame : ∀ a, b.size ≤ (a - b.start).toNat → p.mem a = p₀.mem a
  counted : p.rxBytes = p₀.rxBytes + BitVec.ofNat 32 k
  passed : ∀ i < p.read, (stream i).valid ≠ 0

theorem Receiving.count (receiving : Receiving stream b p₀ p k) : k = carried (fun i => (stream i).valid) p.read := by
  rw [← received_length, ← receiving.stored, loadBytes_length]

theorem startRead_receiving (stream : Nat → RxEntry) (b : ByteBuffer 32) (p : RxPort) :
    Receiving stream b p (p.startRead b) 0 :=
  ⟨Nat.zero_le _, (BitVec.add_zero _).symm, rfl, rfl, fun _ _ => rfl, (BitVec.add_zero _).symm, nofun⟩

theorem store_receiving (receiving : Receiving stream b p₀ p k) (carries : (stream p.read).valid ≠ 0)
    (room : k + (stream p.read).valid ≤ b.size) :
    Receiving stream b p₀ (p.store (stream p.read).bytes) (k + (stream p.read).valid) := by
  have short := b.short
  have length : (stream p.read).bytes.length = (stream p.read).valid := lowBytes_length _ _
  obtain ⟨inside, here, stop, stored, frame, counted, passed⟩ := receiving
  refine ⟨room, ?_, stop, ?_, fun a outside => ?_, ?_, fun i below => ?_⟩
  · show p.rxbufPtr + _ = _
    rw [here, length, BitVec.add_assoc, BitVec.ofNat_add]
  · show loadBytes (storeBytes p.mem p.rxbufPtr _) _ _ = received stream (p.read + 1)
    rw [here, received, ← stored, ← length]
    exact loadBytes_store (by omega)
  · show storeBytes p.mem p.rxbufPtr _ a = _
    rw [here, storeBytes_outside, frame a outside]
    rw [length]
    bv_omega
  · show p.rxBytes + _ = _
    rw [counted, length, BitVec.add_assoc, BitVec.ofNat_add]
  · rcases Nat.lt_succ_iff_lt_or_eq.mp below with earlier | rfl
    · exact passed i earlier
    · exact carries

/-- What the next entry carries, as far as it can be read at all. -/
theorem Receiving.next (receiving : Receiving stream b p₀ p k) (aligned : Aligned (fun i => (stream i).valid) b.size)
    (free : k < b.size) :
    if k + 4 ≤ b.size then (stream p.read).valid = 4 else k + (stream p.read).valid ≤ b.size := by
  have count := receiving.count
  have here := aligned p.read receiving.passed (count ▸ free)
  rw [← count] at here
  exact here

theorem rxWords_receiving (aligned : Aligned (fun i => (stream i).valid) b.size)
    (receiving : Receiving stream b p₀ p k) (level : Nat) :
    ∃ k', Receiving stream b p₀ (rxWords stream level (b.size - k) p).2.2 k' ∧
      (rxWords stream level (b.size - k) p).2.1 = b.size - k' ∧
      (0 < (rxWords stream level (b.size - k) p).1 → b.size < k' + 4) := by
  induction level generalizing p k with
  | zero => exact ⟨k, receiving, rfl, fun more => absurd more (Nat.lt_irrefl 0)⟩
  | succ level ih =>
    unfold rxWords
    by_cases room : (b.size : Int) - k ≥ 4
    · rw [if_pos room]
      have full := receiving.next aligned (by omega)
      rw [if_pos (by omega)] at full
      have four : ((stream p.read).valid : Nat) = 4 := congrArg Fin.val full
      have whole : bytes32 (stream p.read).rb = (stream p.read).bytes := by
        rw [RxEntry.bytes, four, lowBytes_four]
      have stored := store_receiving receiving (by rw [full]; decide) (by omega)
      have left : (b.size : Int) - k - 4 = b.size - (k + (stream p.read).valid : Nat) := by omega
      rw [whole, left]
      exact ih stored
    · rw [if_neg room]
      exact ⟨k, receiving, rfl, fun _ => by omega⟩

theorem rxRest_receiving (aligned : Aligned (fun i => (stream i).valid) b.size)
    (receiving : Receiving stream b p₀ p k) (tail : b.size < k + 4) (arrived turns : Nat) :
    ∃ k', Receiving stream b p₀ (rxRest stream arrived turns (b.size - k) p) k' := by
  induction turns generalizing p k with
  | zero => exact ⟨k, receiving⟩
  | succ turns ih =>
    unfold rxRest
    by_cases room : (b.size : Int) - k > 0
    · rw [if_pos room]
      by_cases here : p.read < arrived
      · rw [if_pos here]
        by_cases none : ((stream p.read).valid : Nat) = 0
        · rw [if_pos none]
          exact ⟨k, receiving⟩
        · have fits := receiving.next aligned (by omega)
          rw [if_neg (by omega)] at fits
          have stored := store_receiving receiving (fun zero => none (congrArg Fin.val zero)) fits
          have left : (b.size : Int) - k - ((stream p.read).valid : Nat) = b.size - (k + (stream p.read).valid : Nat) := by
            omega
          rw [if_neg none]
          dsimp only
          rw [if_neg (by omega), left]
          exact ih stored (by omega)
      · rw [if_neg here]
        exact ⟨k, receiving⟩
    · rw [if_neg room]
      exact ⟨k, receiving⟩

theorem rxComplete_receiving (receiving : Receiving stream b p₀ p k) (rxcnt : U32) :
    Receiving stream b p₀ (rxComplete p rxcnt) k := by
  obtain ⟨inside, here, stop, stored, frame, counted, passed⟩ := receiving
  unfold rxComplete
  split
  · exact ⟨inside, here, stop, stored, frame, counted, passed⟩
  · split
    · exact ⟨inside, here, stop, stored, frame, counted, passed⟩
    · exact ⟨inside, here, stop, stored, frame, counted, passed⟩

theorem rxInt_receiving (aligned : Aligned (fun i => (stream i).valid) b.size)
    (receiving : Receiving stream b p₀ p k) (r : RxReading) : ∃ k', Receiving stream b p₀ (rxInt stream p r) k' := by
  have left : (p.rxbufEnd - p.rxbufPtr).toInt = b.size - k := by
    rw [receiving.stop, receiving.here, ByteBuffer.toInt_left receiving.inside]
  unfold rxInt
  rw [left]
  dsimp only
  obtain ⟨k₁, receiving₁, left₁, tail⟩ := rxWords_receiving aligned receiving (r.fstat &&& 0x3F#32).toNat
  split
  · next more =>
    rw [left₁]
    obtain ⟨k₂, receiving₂⟩ := rxRest_receiving aligned receiving₁ (tail more) r.arrived ((b.size : Int) - k₁).toNat
    exact ⟨k₂, rxComplete_receiving receiving₂ r.rxcnt⟩
  · exact ⟨k₁, rxComplete_receiving receiving₁ r.rxcnt⟩

theorem Receiving.conserved (receiving : Receiving stream b p₀ p k) : Conserved stream b p₀ p := by
  have bounded := b.bounded
  have distance : p.rxbufPtr - b.start = BitVec.ofNat 32 k := by
    rw [receiving.here]
    bv_omega
  have inside := receiving.inside
  have distanceNat : (p.rxbufPtr - b.start).toNat = k := by
    rw [distance, BitVec.toNat_ofNat, Nat.mod_eq_of_lt (by omega)]
  refine ⟨?_, ?_, receiving.frame, ?_⟩
  · rw [distanceNat]
    exact inside
  · have short : (received stream p.read).length ≤ b.size := by
      rw [← receiving.stored, loadBytes_length]
      exact inside
    rw [distanceNat, List.take_of_length_le short]
    exact receiving.stored
  · rw [distance]
    exact receiving.counted

end Reception

/-! ### One entry at a time -/

section Single

variable {stream : Nat → RxEntry} {b : ByteBuffer 32} {p₀ p : RxPort} {k n : Nat} {valid : Nat → Fin 5}

def single (n : Nat) : RxReading := ⟨1#32, n + 1, 1#32⟩

theorem rxRest_stop {arrived : Nat} (none : arrived ≤ p.read) (turns : Nat) (bytesInBuf : Int) :
    rxRest stream arrived turns bytesInBuf p = p := by
  cases turns with
  | zero => rfl
  | succ turns =>
    unfold rxRest
    rw [if_neg (Nat.not_lt.mpr none)]
    exact ite_self p

theorem single_word (room : (p.rxbufEnd - p.rxbufPtr).toInt ≥ 4) :
    rxInt stream p (single p.read) = rxComplete (p.store (bytes32 (stream p.read).rb)) 1#32 := by
  have words : rxWords stream 1 (p.rxbufEnd - p.rxbufPtr).toInt p =
      (0, (p.rxbufEnd - p.rxbufPtr).toInt - 4, p.store (bytes32 (stream p.read).rb)) := if_pos room
  have one : ((single p.read).fstat &&& 0x3F#32).toNat = 1 := by
    show (1#32 &&& 0x3F#32).toNat = 1
    decide
  unfold rxInt
  rw [one]
  dsimp only
  rw [words]
  rfl

theorem single_rest (tail : (p.rxbufEnd - p.rxbufPtr).toInt < 4) (room : (p.rxbufEnd - p.rxbufPtr).toInt > 0)
    (carries : ((stream p.read).valid : Nat) ≠ 0) :
    rxInt stream p (single p.read) = rxComplete (p.store (lowBytes (stream p.read).rb
      (min ((stream p.read).valid : Nat) (p.rxbufEnd - p.rxbufPtr).toInt.toNat))) 1#32 := by
  have words : rxWords stream 1 (p.rxbufEnd - p.rxbufPtr).toInt p = (1, (p.rxbufEnd - p.rxbufPtr).toInt, p) :=
    if_neg (Int.not_le.mpr tail)
  have one : ((single p.read).fstat &&& 0x3F#32).toNat = 1 := by
    show (1#32 &&& 0x3F#32).toNat = 1
    decide
  have arrived : (single p.read).arrived = p.read + 1 := rfl
  have pending : (single p.read).rxcnt = 1#32 := rfl
  unfold rxInt
  rw [one, arrived, pending]
  dsimp only
  rw [words]
  dsimp only
  generalize (p.rxbufEnd - p.rxbufPtr).toInt = left at tail room
  obtain ⟨turns, turn⟩ : ∃ turns, left.toNat = turns + 1 := ⟨left.toNat - 1, by omega⟩
  have least : (if ((stream p.read).valid : Int) > left then left.toNat else ((stream p.read).valid : Nat)) =
      min ((stream p.read).valid : Nat) left.toNat := by
    split <;> omega
  rw [if_pos Nat.one_pos, turn, rxRest, if_pos room, if_pos (Nat.lt_succ_self _)]
  dsimp only
  rw [if_neg carries, least, ← turn]
  generalize stored : p.store (lowBytes (stream p.read).rb (min ((stream p.read).valid : Nat) left.toNat)) = q
  have read : q.read = p.read + 1 := stored ▸ rfl
  rw [rxRest_stop (Nat.le_of_eq read.symm)]

theorem rxComplete_keeps (p : RxPort) (rxcnt : U32) : (rxComplete p rxcnt).mem = p.mem ∧
    (rxComplete p rxcnt).rxbufPtr = p.rxbufPtr ∧ (rxComplete p rxcnt).read = p.read := by
  unfold rxComplete
  split
  · exact ⟨rfl, rfl, rfl⟩
  · split
    · exact ⟨rfl, rfl, rfl⟩
    · exact ⟨rfl, rfl, rfl⟩

theorem single_receiving (receiving : Receiving stream b p₀ p k) (free : k < b.size)
    (carries : (stream p.read).valid ≠ 0)
    (fits : if k + 4 ≤ b.size then (stream p.read).valid = 4 else k + (stream p.read).valid ≤ b.size) :
    Receiving stream b p₀ (rxInt stream p (single p.read)) (k + (stream p.read).valid) ∧
      (rxInt stream p (single p.read)).read = p.read + 1 := by
  have left : (p.rxbufEnd - p.rxbufPtr).toInt = b.size - k := by
    rw [receiving.stop, receiving.here, ByteBuffer.toInt_left receiving.inside]
  have some : ((stream p.read).valid : Nat) ≠ 0 := fun zero => carries (Fin.ext zero)
  have entry : rxInt stream p (single p.read) = rxComplete (p.store (stream p.read).bytes) 1#32 := by
    by_cases room : k + 4 ≤ b.size
    · rw [if_pos room] at fits
      have four : ((stream p.read).valid : Nat) = 4 := congrArg Fin.val fits
      rw [single_word (by omega), RxEntry.bytes, four, lowBytes_four]
    · rw [if_neg room] at fits
      rw [single_rest (by omega) (by omega) some, left, min_eq_left (by omega)]
      rfl
  rw [entry]
  have room : k + (stream p.read).valid ≤ b.size := by
    split at fits
    · have four : ((stream p.read).valid : Nat) = 4 := congrArg Fin.val fits
      omega
    · exact fits
  exact ⟨rxComplete_receiving (store_receiving receiving carries room) 1#32, (rxComplete_keeps _ _).2.2⟩

def marked (valid : Nat → Fin 5) (n : Nat) : RxEntry := ⟨0x01020304#32, valid n⟩

/-- Of a word that is cut short, the last bytes are not the first. -/
theorem lowBytes_cut : ∀ v : Fin 5, ∀ l : Fin 4, 0 < l.val → l.val < v.val →
    lowBytes 0x01020304#32 l ≠ (lowBytes 0x01020304#32 v).take l := by
  decide

/-- What the buffer holds after one more entry, of which `bytes` have been stored. -/
theorem stored_of_conserved (receiving : Receiving stream b p₀ p k) {bytes : List U8}
    (room : k + bytes.length ≤ b.size) (conserved : Conserved stream b p₀ (rxComplete (p.store bytes) 1#32)) :
    received stream p.read ++ bytes = (received stream p.read ++ (stream p.read).bytes).take b.size := by
  have bounded := b.bounded
  obtain ⟨mem, ptr, read⟩ := rxComplete_keeps (p.store bytes) 1#32
  have place : (rxComplete (p.store bytes) 1#32).rxbufPtr = b.start + BitVec.ofNat 32 (k + bytes.length) := by
    rw [ptr, BitVec.ofNat_add, ← BitVec.add_assoc, ← receiving.here]
    rfl
  have distance : ((rxComplete (p.store bytes) 1#32).rxbufPtr - b.start).toNat = k + bytes.length := by
    have here := ByteBuffer.toNat_at room
    rw [place, BitVec.toNat_sub_of_le (BitVec.le_def.mpr (by omega)), here, Nat.add_sub_cancel_left]
  have loaded : loadBytes (p.store bytes).mem b.start (k + bytes.length) = received stream p.read ++ bytes := by
    rw [← receiving.stored]
    show loadBytes (storeBytes p.mem p.rxbufPtr bytes) _ _ = _
    rw [receiving.here]
    exact loadBytes_store (by omega)
  have stored := conserved.stored
  rw [distance, mem, read, loaded] at stored
  exact stored

theorem fits_of_conserved (receiving : Receiving (marked valid) b p₀ p k) (free : k < b.size)
    (conserved : Conserved (marked valid) b p₀ (rxInt (marked valid) p (single p.read))) :
    if k + 4 ≤ b.size then valid p.read = 4 else k + valid p.read ≤ b.size := by
  have left : (p.rxbufEnd - p.rxbufPtr).toInt = b.size - k := by
    rw [receiving.stop, receiving.here, ByteBuffer.toInt_left receiving.inside]
  have before : (received (marked valid) p.read).length = k := by
    rw [← receiving.stored, loadBytes_length]
  by_cases room : k + 4 ≤ b.size
  · rw [if_pos room]
    rw [single_word (by omega)] at conserved
    have whole : k + (bytes32 (marked valid p.read).rb).length ≤ b.size := room
    have lengths := congrArg List.length (stored_of_conserved receiving whole conserved)
    rw [List.length_append, List.length_take, List.length_append, before, bytes32_length, RxEntry.bytes,
      lowBytes_length] at lengths
    have few := (valid p.read).isLt
    apply Fin.ext
    show ((marked valid p.read).valid : Nat) = 4
    have same : (marked valid p.read).valid = valid p.read := rfl
    rw [same] at lengths ⊢
    omega
  · rw [if_neg room]
    by_contra cut
    have carries : ((marked valid p.read).valid : Nat) ≠ 0 := fun zero => cut (by
      have same : ((valid p.read : Fin 5) : Nat) = 0 := zero
      omega)
    have least : min ((marked valid p.read).valid : Nat) (p.rxbufEnd - p.rxbufPtr).toInt.toNat = b.size - k := by
      have same : (marked valid p.read).valid = valid p.read := rfl
      rw [same]
      omega
    rw [single_rest (by omega) (by omega) carries, least] at conserved
    have stored := stored_of_conserved receiving (by rw [lowBytes_length]; omega) conserved
    rw [List.take_append, before, List.take_of_length_le (by omega)] at stored
    exact lowBytes_cut (valid p.read) ⟨b.size - k, by omega⟩ (Nat.sub_pos_of_lt free)
      (by show b.size - k < _; omega) (List.append_cancel_left stored)

/-- While no entry breaks the rule, a run that reads entry after entry gets to each of them. -/
theorem reached (p₀ : RxPort) (passed : ∀ i < n, valid i ≠ 0)
    (fits : ∀ m < n, carried valid m < b.size ∧
      if carried valid m + 4 ≤ b.size then valid m = 4 else carried valid m + valid m ≤ b.size) :
    Receiving (marked valid) b p₀ (afterInterrupts (marked valid) (p₀.startRead b) ((List.range n).map single))
        (carried valid n) ∧
      (afterInterrupts (marked valid) (p₀.startRead b) ((List.range n).map single)).read = n := by
  induction n with
  | zero => exact ⟨startRead_receiving _ b p₀, rfl⟩
  | succ n ih =>
    obtain ⟨receiving, read⟩ := ih (fun i below => passed i (by omega)) fun m below => fits m (by omega)
    obtain ⟨free, fit⟩ := fits n (Nat.lt_succ_self n)
    have last : afterInterrupts (marked valid) (p₀.startRead b) ((List.range (n + 1)).map single) =
        rxInt (marked valid) (afterInterrupts (marked valid) (p₀.startRead b) ((List.range n).map single)) (single n) := by
      unfold afterInterrupts
      rw [List.range_succ, List.map_append, exec_append]
      rfl
    rw [last]
    generalize afterInterrupts (marked valid) (p₀.startRead b) ((List.range n).map single) = q at receiving read
    subst read
    exact single_receiving receiving free (passed _ (Nat.lt_succ_self _)) fit

end Single

theorem conserved_of_aligned {valid : Nat → Fin 5} {b : ByteBuffer 32} (aligned : Aligned valid b.size) (p : RxPort)
    (rb : Nat → U32) (readings : List RxReading) :
    Conserved (fun n => ⟨rb n, valid n⟩) b p
      (afterInterrupts (fun n => ⟨rb n, valid n⟩) (p.startRead b) readings) := by
  have step : ∀ q r, (∃ k, Receiving (fun n => ⟨rb n, valid n⟩) b p q k) → True →
      ∃ k, Receiving (fun n => ⟨rb n, valid n⟩) b p (rxInt (fun n => ⟨rb n, valid n⟩) q r) k := by
    intro q r receiving _
    obtain ⟨k, receiving⟩ := receiving
    exact rxInt_receiving aligned receiving r
  have last : ∃ k, Receiving (fun n => ⟨rb n, valid n⟩) b p
      (afterInterrupts (fun n => ⟨rb n, valid n⟩) (p.startRead b) readings) k :=
    exec_invariant step ⟨0, startRead_receiving _ b p⟩ fun _ _ => trivial
  obtain ⟨k, receiving⟩ := last
  exact receiving.conserved

theorem aligned_of_conserved {valid : Nat → Fin 5} {b : ByteBuffer 32} {p : RxPort}
    (conserved : ∀ readings, Conserved (marked valid) b p (afterInterrupts (marked valid) (p.startRead b) readings)) :
    Aligned valid b.size := by
  intro n
  induction n using Nat.strong_induction_on with
  | _ n ih =>
    intro passed free
    have fits : ∀ m < n, carried valid m < b.size ∧
        if carried valid m + 4 ≤ b.size then valid m = 4 else carried valid m + valid m ≤ b.size := by
      intro m below
      have room := (carried_mono valid (Nat.le_of_lt below)).trans_lt free
      exact ⟨room, ih m below (fun i earlier => passed i (earlier.trans below)) room⟩
    obtain ⟨receiving, read⟩ := reached p passed fits
    have more := conserved ((List.range n).map single ++ [single n])
    unfold afterInterrupts at more receiving read
    rw [exec_append] at more
    generalize exec (rxInt (marked valid)) (p.startRead b) ((List.range n).map single) = q at receiving read more
    subst read
    exact fits_of_conserved receiving free more

/-- Whatever the entries hold and however the interrupts come, the bytes stored are the first bytes of the stream, exactly
when no entry is partly filled while four bytes are free, and none carries more than the last bytes that are free. -/
theorem receive_conserved_iff (valid : Nat → Fin 5) (b : ByteBuffer 32) (p : RxPort) :
    (∀ (rb : Nat → U32) (readings : List RxReading), Conserved (fun n => ⟨rb n, valid n⟩) b p
      (afterInterrupts (fun n => ⟨rb n, valid n⟩) (p.startRead b) readings)) ↔ Aligned valid b.size :=
  ⟨fun conserved => aligned_of_conserved (conserved fun _ => 0x01020304#32),
    fun aligned => conserved_of_aligned aligned p⟩

/-- A full entry meets a buffer with two bytes left, which gets its last two bytes. -/
theorem fullEntry_not_conserved : ∃ (b : ByteBuffer 32) (p : RxPort), ¬ Conserved (fun _ => ⟨0x01020304#32, 4⟩) b p
    (afterInterrupts (fun _ => ⟨0x01020304#32, 4⟩) (p.startRead b) [⟨1#32, 1, 0#32⟩]) := by
  refine ⟨⟨0x80000000#32, 2, by decide, by decide⟩, ⟨fun _ => 0#8, 0#32, 0#32, 0#32, .rxtx, true, false, [], 0⟩, ?_⟩
  intro conserved
  exact absurd conserved.stored (by decide)

end TwinpassGateway.Spi
