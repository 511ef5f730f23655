import TwinpassGateway.Spi.Session

/-!
What the sessions put on the wire, over all runs of sessions and transmit interrupts.
-/

namespace TwinpassGateway.Spi

open Foundation

variable {b : LocalBufs} {mem : U32 → U8} {p : TxPort}

/-! ### One word -/

def TxPort.Idle (p : TxPort) : Prop := p.txbuf = 0 ∧ p.txbufPtr = p.txbufEnd

def TxPort.Loaded (b : LocalBufs) (p : TxPort) : Prop :=
  p.txbuf = b.tx.start ∧ p.txbufPtr = b.tx.start ∧ p.txbufEnd = b.tx.start + 4#32

def TxPort.pending (b : LocalBufs) (mem : U32 → U8) (p : TxPort) : List TxEntry :=
  if p.txbuf = 0 then [] else [.word (load32 mem b.tx.start)]

theorem pending_idle (idle : p.Idle) : p.pending b mem = [] := if_pos idle.1

theorem pending_loaded (mem : U32 → U8) (loaded : p.Loaded b) : p.pending b mem = [.word (load32 mem b.tx.start)] := by
  apply if_neg
  rw [loaded.1]
  exact b.nonnull

theorem stop_not_before (b : LocalBufs) : ¬ b.tx.start + 4#32 ≤ b.tx.start := by
  have bounded := b.tx.bounded
  rw [b.txSize] at bounded
  bv_omega

theorem txComplete_idle (finished : p.txbufPtr = p.txbufEnd) : (txComplete p).Idle := by
  unfold txComplete
  rw [if_pos (BitVec.le_of_eq finished.symm)]
  exact ⟨rfl, finished⟩

theorem txComplete_loaded (loaded : p.Loaded b) : (txComplete p).Loaded b := by
  obtain ⟨buffer, here, stop⟩ := loaded
  unfold txComplete
  rw [if_neg]
  · exact ⟨buffer, here, stop⟩
  · rw [here, stop]
    exact stop_not_before b

theorem txComplete_mode (p : TxPort) : (txComplete p).modeRxTx = p.modeRxTx := by
  unfold txComplete
  split
  · rfl
  · rfl

theorem txTail_nothing (mem : U32 → U8) (fifoSpace : Int) (ptr : U32) : txTail mem fifoSpace 0 ptr = ([], ptr, 0#32) := by
  unfold txTail
  rw [if_neg fun tail => absurd tail.2 (by decide)]
  exact if_neg fun tail => absurd tail.2 (by decide)

theorem txAccesses_word (mem : U32 → U8) (fifoSpace : Int) (ptr : U32) :
    txAccesses mem fifoSpace 4 ptr = ([.word (load32 mem ptr)], ptr + 4#32, 4#32) := by
  unfold txAccesses
  rw [show Int.tdiv 4 4 = 1 from rfl, show (4 : Int) % 4 = 0 from rfl]
  dsimp only
  rw [txTail_nothing]
  rfl

theorem txAccesses_nothing (mem : U32 → U8) (fifoSpace : Int) (ptr : U32) :
    txAccesses mem fifoSpace 0 ptr = ([], ptr, 0#32) := by
  unfold txAccesses
  rw [show Int.tdiv 0 4 = 0 from rfl, show (0 : Int) % 4 = 0 from rfl]
  dsimp only
  rw [txTail_nothing]
  rfl

theorem txWrite_word (mem : U32 → U8) (loaded : p.Loaded b) (fifoSpace : Int) :
    (txWrite mem p fifoSpace 4).1 = [.word (load32 mem b.tx.start)] ∧ (txWrite mem p fifoSpace 4).2.Idle := by
  obtain ⟨buffer, here, stop⟩ := loaded
  unfold txWrite
  rw [txAccesses_word, here]
  constructor
  · rfl
  · apply txComplete_idle
    exact stop.symm

/-- What may stand between the two halves of `tx_int`: a word and room for it, nothing, or a count below zero. -/
def Counted (fifoSpace fill : Int) : Prop := fill = 4 ∨ fill = 0 ∨ fifoSpace < 0 ∧ fill = fifoSpace * 4

theorem txWrite_nothing (mem : U32 → U8) {fifoSpace fill : Int} (counted : Counted fifoSpace fill) (none : ¬ 0 < fill) :
    ∃ sent, txWrite mem p fifoSpace fill = ([], txComplete { p with txBytes := p.txBytes + sent }) := by
  rcases counted with rfl | rfl | ⟨negative, rfl⟩
  · exact absurd (by decide) none
  · refine ⟨0#32, ?_⟩
    unfold txWrite
    rw [txAccesses_nothing]
  · refine ⟨BitVec.ofInt 32 (fifoSpace * 4), ?_⟩
    unfold txWrite
    rw [txAccesses_negative mem _ negative]

theorem txFill_idle (idle : p.Idle) (fifoSpace : Int) : Counted fifoSpace (txFill p fifoSpace) ∧ ¬ 0 < txFill p fifoSpace := by
  have left : (p.txbufEnd - p.txbufPtr).toInt = 0 := by
    rw [idle.2, BitVec.sub_self]
    rfl
  unfold txFill
  rw [left]
  dsimp only
  split
  · exact ⟨.inr (.inr ⟨by omega, rfl⟩), by omega⟩
  · exact ⟨.inr (.inl rfl), by decide⟩

theorem txFill_loaded (loaded : p.Loaded b) {fifoSpace : Int} (some : fifoSpace ≠ 0) :
    Counted fifoSpace (txFill p fifoSpace) ∧ (0 < txFill p fifoSpace ↔ 0 < fifoSpace) := by
  have left : (p.txbufEnd - p.txbufPtr).toInt = 4 := by
    rw [loaded.2.2, loaded.2.1, BitVec.add_comm, BitVec.add_sub_cancel]
    rfl
  unfold txFill
  rw [left]
  dsimp only
  split
  · exact ⟨.inr (.inr ⟨by omega, rfl⟩), by omega⟩
  · exact ⟨.inl rfl, by omega⟩

def TxPort.Settled (b : LocalBufs) (p : TxPort) : Prop := p.Idle ∨ p.Loaded b

theorem settled_idle (settled : p.Settled b) (sent : p.txbuf = 0) : p.Idle := by
  rcases settled with idle | loaded
  · exact idle
  · exact absurd (loaded.1.symm.trans sent) b.nonnull

theorem settled_loaded (settled : p.Settled b) (waits : p.txbuf ≠ 0) : p.Loaded b := by
  rcases settled with idle | loaded
  · exact absurd idle.1 waits
  · exact loaded

structure Sends (b : LocalBufs) (mem : U32 → U8) (p : TxPort) (result : List TxEntry × TxPort) : Prop where
  custody : result.1 ++ result.2.pending b mem = p.pending b mem
  settled : result.2.Settled b
  mode : result.2.modeRxTx = p.modeRxTx

theorem sends_nothing (settled : p.Settled b) (sent : U32) :
    Sends b mem p ([], txComplete { p with txBytes := p.txBytes + sent }) := by
  rcases settled with idle | loaded
  · have after : (txComplete { p with txBytes := p.txBytes + sent }).Idle := txComplete_idle idle.2
    constructor
    · rw [pending_idle after, pending_idle idle]
      rfl
    · exact .inl after
    · exact txComplete_mode _
  · have after : (txComplete { p with txBytes := p.txBytes + sent }).Loaded b := txComplete_loaded loaded
    constructor
    · rw [pending_loaded _ after, pending_loaded _ loaded]
      rfl
    · exact .inr after
    · exact txComplete_mode _

theorem txWrite_sends (mem : U32 → U8) {fifoSpace fill : Int} (settled : p.Settled b) (counted : Counted fifoSpace fill)
    (waits : 0 < fill → p.txbuf ≠ 0) : Sends b mem p (txWrite mem p fifoSpace fill) := by
  by_cases some : 0 < fill
  · have loaded := settled_loaded settled (waits some)
    have whole : fill = 4 := by
      rcases counted with whole | none | ⟨negative, below⟩
      · exact whole
      · omega
      · omega
    rw [whole]
    obtain ⟨word, idle⟩ := txWrite_word mem loaded fifoSpace
    constructor
    · rw [word, pending_idle idle, pending_loaded _ loaded]
      rfl
    · exact .inl idle
    · exact txComplete_mode _
  · obtain ⟨sent, nothing⟩ := txWrite_nothing mem (p := p) counted some
    rw [nothing]
    exact sends_nothing settled sent

theorem txInt_word (mem : U32 → U8) (settled : p.Settled b) (r : TxReading) : Sends b mem p (txInt mem p r) := by
  rw [txInt_eq]
  by_cases full : r.fifoSpace = 0
  · rw [if_pos full]
    exact ⟨rfl, settled, rfl⟩
  · rw [if_neg full]
    rcases settled with idle | loaded
    · obtain ⟨counted, none⟩ := txFill_idle idle r.fifoSpace
      exact txWrite_sends _ (.inl idle) counted fun some => absurd some none
    · obtain ⟨counted, _⟩ := txFill_loaded loaded full
      apply txWrite_sends _ (.inr loaded) counted
      intro _
      rw [loaded.1]
      exact b.nonnull

theorem kwrite_busy (waits : p.txbuf ≠ 0) (r : TxReading) : ifxSscKwrite mem p b.tx.start 4#32 r = (-16, [], p) := by
  unfold ifxSscKwrite
  rw [if_neg (by decide), if_pos waits]

/-- A port that has nothing to send takes the word in `local_tx_buf`. -/
theorem kwrite_takes (mem : U32 → U8) (idle : p.Idle) (mode : p.modeRxTx ≠ .rx) (r : TxReading) :
    ∃ entries q, ifxSscKwrite mem p b.tx.start 4#32 r = (4, entries, q) ∧
      entries ++ q.pending b mem = [.word (load32 mem b.tx.start)] ∧ q.Settled b ∧ q.modeRxTx = p.modeRxTx := by
  have loaded : ({ p with txbuf := b.tx.start, txbufPtr := b.tx.start, txbufEnd := 4#32 + b.tx.start } : TxPort).Loaded b :=
    ⟨rfl, rfl, BitVec.add_comm _ _⟩
  have waiting := pending_loaded mem loaded
  have sends := txInt_word mem (.inr loaded) r
  obtain ⟨custody, settled, same⟩ := sends
  rw [waiting] at custody
  have accepted : ¬ (4#32 : U32).toInt < 0 := by decide
  unfold ifxSscKwrite ifxSscWriteHelper
  rw [if_neg (by decide), if_neg (not_not_intro idle.1), if_neg mode]
  by_cases direct : p.modeRxTx = .tx
  · rw [if_pos direct]
    dsimp only
    rw [if_neg accepted]
    split
    · exact ⟨_, _, rfl, custody, settled, same⟩
    · exact ⟨_, _, rfl, custody, settled, same⟩
  · rw [if_neg direct]
    exact ⟨_, _, rfl, waiting, .inr loaded, rfl⟩

/-! ### The reply -/

section Reply

variable (stream : Nat → RxEntry) {p : RxPort} {k : Nat}

structure Filling (b : LocalBufs) (p : RxPort) (k : Nat) : Prop where
  inside : k ≤ b.rx.size
  here : p.rxbufPtr = b.rx.start + BitVec.ofNat 32 k
  stop : p.rxbufEnd = b.rx.stop

theorem Filling.store (filling : Filling b p k) (bytes : List U8) (room : k + bytes.length ≤ b.rx.size) :
    Filling b (p.store bytes) (k + bytes.length) := by
  constructor
  · exact room
  · show p.rxbufPtr + _ = _
    rw [filling.here, BitVec.add_assoc, BitVec.ofNat_add]
  · exact filling.stop

theorem rxWords_filling (filling : Filling b p k) (level : Nat) :
    ∃ k', Filling b (rxWords stream level (b.rx.size - k) p).2.2 k' ∧
      (rxWords stream level (b.rx.size - k) p).2.1 = b.rx.size - k' := by
  induction level generalizing p k with
  | zero => exact ⟨k, filling, rfl⟩
  | succ level ih =>
    unfold rxWords
    split
    · rename_i room
      have stored := filling.store (bytes32 (stream p.read).rb) (by rw [bytes32_length]; omega)
      rw [bytes32_length] at stored
      rw [show (b.rx.size : Int) - k - 4 = b.rx.size - (k + 4 : Nat) by omega]
      exact ih stored
    · exact ⟨k, filling, rfl⟩

theorem rxRest_filling (filling : Filling b p k) (arrived turns : Nat) :
    ∃ k', Filling b (rxRest stream arrived turns (b.rx.size - k) p) k' := by
  induction turns generalizing p k with
  | zero => exact ⟨k, filling⟩
  | succ turns ih =>
    unfold rxRest
    split
    · rename_i free
      dsimp only
      generalize (if p.read < arrived then ((stream p.read).valid : Nat) else 0) = valid
      split
      · exact ⟨k, filling⟩
      · generalize cut : (if (valid : Int) > (b.rx.size : Int) - k then ((b.rx.size : Int) - k).toNat else valid) = count
        have room : k + count ≤ b.rx.size := by
          split at cut
          · omega
          · omega
        have stored := filling.store (lowBytes (stream p.read).rb count) (by rw [lowBytes_length]; exact room)
        rw [lowBytes_length] at stored
        rw [show (b.rx.size : Int) - k - count = b.rx.size - (k + count : Nat) by omega]
        exact ih stored
    · exact ⟨k, filling⟩

theorem rxInt_filling (filling : Filling b p k) (r : RxReading) : ∃ k', Filling b (rxInt stream p r) k' := by
  have left : (p.rxbufEnd - p.rxbufPtr).toInt = b.rx.size - k := by
    rw [filling.stop, filling.here, ByteBuffer.toInt_left filling.inside]
  have complete {p : RxPort} {k : Nat} (filling : Filling b p k) : Filling b (rxComplete p r.rxcnt) k := by
    unfold rxComplete
    split
    · exact ⟨filling.inside, filling.here, filling.stop⟩
    · split
      · exact ⟨filling.inside, filling.here, filling.stop⟩
      · exact filling
  unfold rxInt
  rw [left]
  dsimp only
  obtain ⟨k₁, filling₁, left₁⟩ := rxWords_filling stream filling (r.fstat &&& 0x3F#32).toNat
  split
  · rw [left₁]
    obtain ⟨k₂, filling₂⟩ := rxRest_filling stream filling₁ r.arrived ((b.rx.size : Int) - k₁).toNat
    exact ⟨k₂, complete filling₂⟩
  · exact ⟨k₁, complete filling₁⟩

end Reply

/-! ### Runs -/

namespace Ssc

variable {s : Ssc}

structure Carried (b : LocalBufs) (s : Ssc) : Prop where
  custody : s.wire ++ s.tx.pending b s.txMem = s.words.map .word
  told : ∀ session ∈ s.sessions, session.Told
  settled : s.tx.Settled b

/-- The session sends only, or is ready to read. -/
def ModeSet (s : Ssc) : Prop := s.tx.modeRxTx = if s.reply.isSome then .rxtx else .tx

def Progress (b : LocalBufs) (s : Ssc) : Prop :=
  match s.place with
  | .returned => s.handed = []
  | .awaitIdle busycount => s.handed = [] ∧ busycount < 10
  | .awaitBuffer busycount => s.handed = [] ∧ busycount ≤ 10
  | .setTx _ => s.handed = [] ∧ s.tx.txbuf = 0
  | .putPreamble => s.handed = [] ∧ s.tx.txbuf = 0 ∧ s.tx.modeRxTx = .tx
  | .writePreamble =>
    s.handed = [] ∧ s.tx.txbuf = 0 ∧ s.tx.modeRxTx = .tx ∧ load32 s.txMem b.tx.start = preamble
  | .setRxtx _ => s.handed = [preamble] ∧ s.reply.isSome
  | .putCommand => s.handed = [preamble] ∧ s.ModeSet
  | .writeCommand => s.handed = [preamble] ∧ s.ModeSet ∧ load32 s.txMem b.tx.start = s.command
  | .kread => s.handed = [preamble, s.command] ∧ s.tx.modeRxTx = .rxtx
  | .poll | .look | .receive => s.handed = [preamble, s.command] ∧ ∃ k, Filling b s.rx k
  | .write fifoSpace fill =>
    s.handed = [preamble, s.command] ∧ (∃ k, Filling b s.rx k) ∧ Counted fifoSpace fill

structure Sound (b : LocalBufs) (s : Ssc) : Prop extends Carried b s where
  progress : s.Progress b

theorem Progress.begun (progress : s.Progress b) : s.handed <+: [preamble, s.command] := by
  have one : [preamble] <+: [preamble, s.command] := List.prefix_append [preamble] [s.command]
  have all : [preamble, s.command] <+: [preamble, s.command] := List.prefix_refl _
  unfold Progress at progress
  split at progress
  · exact progress ▸ List.nil_prefix
  · exact progress.1 ▸ List.nil_prefix
  · exact progress.1 ▸ List.nil_prefix
  · exact progress.1 ▸ List.nil_prefix
  · exact progress.1 ▸ List.nil_prefix
  · exact progress.1 ▸ List.nil_prefix
  · exact progress.1 ▸ one
  · exact progress.1 ▸ one
  · exact progress.1 ▸ one
  · exact progress.1 ▸ all
  · exact progress.1 ▸ all
  · exact progress.1 ▸ all
  · exact progress.1 ▸ all
  · exact progress.1 ▸ all

theorem Sound.conserved (sound : Sound b s) : Conserved b s :=
  ⟨sound.custody, sound.told, sound.progress.begun⟩

theorem finish_words (s : Ssc) (ret : Int) : (s.finish ret).words = s.words := by
  unfold words finish
  rw [List.flatMap_append, List.append_nil]
  exact congrArg (_ ++ ·) (List.append_nil _)

theorem Carried.finish (carried : Carried b s) {ret : Int} (told : SscSession.Told ⟨s.command, s.handed, ret⟩) :
    Sound b (s.finish ret) := by
  constructor
  · constructor
    · rw [finish_words]
      exact carried.custody
    · intro session member
      rcases List.mem_append.mp member with earlier | last
      · exact carried.told session earlier
      · rw [List.mem_singleton.mp last]
        exact told
    · exact carried.settled
  · rfl

/-- The statement moves on and changes nothing that goes to the wire. -/
theorem Carried.move {place : SscAt} (carried : Carried b s) (rx : RxPort)
    (progress : Progress b { s with place, rx }) : Sound b { s with place, rx } :=
  ⟨⟨carried.custody, carried.told, carried.settled⟩, progress⟩

theorem told_refused {command : U32} {handed : List U32} (few : handed <+: [preamble]) :
    SscSession.Told ⟨command, handed, -16⟩ := .inr ⟨rfl, few⟩

/-- A reading of `ifx_ssc_rxtx_mode_set` ends the session, goes on waiting or sets the mode. -/
theorem Carried.awaitMode (carried : Carried b s) (few : s.handed <+: [preamble]) {mode : Mode} {tmp : Nat} {busy : Bool}
    {again : Nat → SscAt} {next : SscAt} (waits : Progress b { s with place := again (tmp + 1) })
    (set : ∀ rx, Progress b { s with tx := { s.tx with modeRxTx := mode }, rx, place := next }) :
    Sound b (s.awaitMode mode tmp busy again next) := by
  unfold Ssc.awaitMode
  split
  · rename_i already
    have same : { s.tx with modeRxTx := mode } = s.tx := by rw [← already]
    have known := set s.rx
    rw [same] at known
    exact carried.move _ known
  · split
    · split
      · exact carried.finish (told_refused few)
      · exact carried.move _ waits
    · exact ⟨⟨carried.custody, carried.told, carried.settled⟩, set _⟩

theorem load32_put (mem : U32 → U8) (start word : U32) : load32 (storeBytes mem start (bytes32 word)) start = word := by
  have small : 0 + (bytes32 word).length ≤ 2 ^ 32 := by
    rw [bytes32_length]
    decide
  have stored : loadBytes (storeBytes mem (start + BitVec.ofNat 32 0) (bytes32 word)) start (0 + (bytes32 word).length) =
      loadBytes mem start 0 ++ bytes32 word := loadBytes_store small
  rw [BitVec.add_zero, loadBytes_zero, List.nil_append, bytes32_length] at stored
  unfold load32
  rw [show 4 = 0 + 4 from rfl, stored, be32_bytes32]

theorem words_taken (s : Ssc) (word : U32) :
    ({ s with handed := s.handed ++ [word] } : Ssc).words.map TxEntry.word = s.words.map .word ++ [.word word] := by
  show (s.sessions.flatMap SscSession.handed ++ (s.handed ++ [word])).map TxEntry.word = _
  rw [← List.append_assoc, List.map_append]
  rfl

theorem Carried.kwrite (carried : Carried b s) (sent : s.tx.txbuf = 0) (mode : s.tx.modeRxTx ≠ .rx) (r : TxReading) :
    ∃ entries q, s.kwrite b r = (4, { s with
        tx := q, wire := s.wire ++ entries, handed := s.handed ++ [load32 s.txMem b.tx.start] }) ∧
      Carried b { s with tx := q, wire := s.wire ++ entries, handed := s.handed ++ [load32 s.txMem b.tx.start] } ∧
      q.modeRxTx = s.tx.modeRxTx := by
  have idle := settled_idle carried.settled sent
  obtain ⟨entries, q, taken, custody, settled, same⟩ := kwrite_takes s.txMem idle mode r
  refine ⟨entries, q, ?_, ⟨?_, carried.told, settled⟩, same⟩
  · unfold Ssc.kwrite
    rw [taken]
    rfl
  · have before := carried.custody
    rw [pending_idle idle, List.append_nil] at before
    show s.wire ++ entries ++ q.pending b s.txMem = _
    rw [List.append_assoc, custody, before]
    exact (words_taken s _).symm

theorem kwrite_refused (waits : s.tx.txbuf ≠ 0) (r : TxReading) : s.kwrite b r = (-16, s) := by
  unfold Ssc.kwrite
  rw [kwrite_busy waits]
  dsimp only
  rw [List.append_nil, if_pos (by decide)]

theorem mode_not_rx (set : s.ModeSet) : s.tx.modeRxTx ≠ .rx := by
  unfold ModeSet at set
  rw [set]
  split
  · decide
  · decide

/-- The last word that was taken waits, if any does. -/
theorem Carried.waiting (carried : Carried b s) {words : List U32} {word : U32} (last : s.words = words ++ [word])
    (waits : s.tx.txbuf ≠ 0) : s.wire = words.map .word ∧ load32 s.txMem b.tx.start = word := by
  have custody := carried.custody
  rw [pending_loaded _ (settled_loaded carried.settled waits), last, List.map_append] at custody
  obtain ⟨earlier, same⟩ := List.append_inj' custody rfl
  exact ⟨earlier, TxEntry.word.inj (List.singleton_inj.mp same)⟩

theorem words_handed (s : Ssc) (handed : List U32) {word : U32} (known : s.handed = handed ++ [word]) :
    s.words = s.sessions.flatMap SscSession.handed ++ handed ++ [word] := by
  unfold words
  rw [known, List.append_assoc]

/-- The command is put where the preamble was. -/
theorem Carried.put (carried : Carried b s) (word : U32) {next : SscAt}
    (kept : s.tx.txbuf ≠ 0 → load32 s.txMem b.tx.start = word) (progress : Progress b (s.put b word next)) :
    Sound b (s.put b word next) := by
  refine ⟨⟨?_, carried.told, carried.settled⟩, progress⟩
  have same : s.tx.pending b (storeBytes s.txMem b.tx.start (bytes32 word)) = s.tx.pending b s.txMem := by
    rcases carried.settled with idle | loaded
    · rw [pending_idle idle, pending_idle idle]
    · have waits : s.tx.txbuf ≠ 0 := by
        rw [loaded.1]
        exact b.nonnull
      rw [pending_loaded _ loaded, pending_loaded _ loaded, load32_put, kept waits]
  show s.wire ++ s.tx.pending b (storeBytes s.txMem b.tx.start (bytes32 word)) = s.words.map .word
  rw [same]
  exact carried.custody

/-- A sent port takes the preamble. -/
theorem Carried.writePreamble (carried : Carried b s) (handed : s.handed = []) (sent : s.tx.txbuf = 0)
    (mode : s.tx.modeRxTx = .tx) (word : load32 s.txMem b.tx.start = preamble) (r : TxReading) :
    Sound b { (s.kwrite b r).2 with place := if s.reply.isSome then .setRxtx 0 else .putCommand } := by
  obtain ⟨entries, q, taken, after, same⟩ := carried.kwrite sent (by rw [mode]; decide) r
  rw [taken]
  rw [handed, word] at after ⊢
  split
  · rename_i reads
    exact after.move s.rx ⟨rfl, reads⟩
  · rename_i only
    apply after.move s.rx
    refine ⟨rfl, ?_⟩
    show q.modeRxTx = if s.reply.isSome then .rxtx else .tx
    rw [if_neg only, same, mode]

/-- The command is taken when the preamble has been sent, and refused when it has not. -/
theorem Carried.writeCommand (carried : Carried b s) (handed : s.handed = [preamble]) (mode : s.ModeSet)
    (word : load32 s.txMem b.tx.start = s.command) (r : TxReading) :
    Sound b (if s.reply.isSome ∧ (s.kwrite b r).1 = 4 then { (s.kwrite b r).2 with place := .kread }
      else (s.kwrite b r).2.finish (s.kwrite b r).1) := by
  by_cases sent : s.tx.txbuf = 0
  · obtain ⟨entries, q, taken, after, same⟩ := carried.kwrite sent (mode_not_rx mode) r
    rw [taken]
    rw [handed, word] at after ⊢
    split
    · rename_i reads
      apply after.move s.rx
      refine ⟨rfl, ?_⟩
      show q.modeRxTx = .rxtx
      rw [same]
      exact mode.trans (if_pos reads.1)
    · exact after.finish (.inl ⟨rfl, rfl⟩)
  · have other : (-16 : Int) ≠ 4 := by decide
    rw [kwrite_refused sent, if_neg fun reads => other reads.2]
    exact carried.finish (told_refused (handed ▸ List.prefix_refl _))

theorem reply_filled {k : Nat} (filling : Filling b s.rx k) (filled : ¬ s.rx.rxbufPtr < s.rx.rxbufEnd) :
    (s.rx.rxbufPtr - b.rx.start).toInt = 4 := by
  have whole : k = b.rx.size := by
    apply (ByteBuffer.stop_le_iff filling.inside).mp
    rw [← filling.stop, ← filling.here]
    exact BitVec.not_lt.mp filled
  rw [filling.here, whole, b.rxSize, BitVec.add_comm, BitVec.add_sub_cancel]
  rfl

theorem Sound.next (sound : Sound b s) (e : Surroundings) (allowed : s.Allowed (.next e)) : Sound b (s.next b e) := by
  have carried := sound.toCarried
  have progress := sound.progress
  unfold Progress at progress
  unfold Allowed at allowed
  unfold Ssc.next
  cases place : s.place with
  | returned => exact sound
  | awaitIdle busycount =>
    rw [place] at progress
    obtain ⟨handed, few⟩ := progress
    dsimp only
    split
    · split
      · exact carried.finish (told_refused (handed ▸ List.nil_prefix))
      · exact carried.move s.rx ⟨handed, by omega⟩
    · exact carried.move s.rx ⟨handed, by omega⟩
  | awaitBuffer busycount =>
    rw [place] at progress
    obtain ⟨handed, few⟩ := progress
    dsimp only
    split
    · rename_i waits
      exact carried.move s.rx ⟨handed, waits.2⟩
    · rename_i looked
      split
      · exact carried.finish (told_refused (handed ▸ List.nil_prefix))
      · rename_i early
        apply carried.move s.rx
        refine ⟨handed, ?_⟩
        by_contra waits
        exact looked ⟨waits, by omega⟩
  | setTx tmp =>
    rw [place] at progress
    obtain ⟨handed, sent⟩ := progress
    exact carried.awaitMode (handed ▸ List.nil_prefix) ⟨handed, sent⟩ fun _ => ⟨handed, sent, rfl⟩
  | putPreamble =>
    rw [place] at progress
    obtain ⟨handed, sent, mode⟩ := progress
    apply carried.put
    · exact fun waits => absurd sent waits
    · exact ⟨handed, sent, mode, load32_put _ _ _⟩
  | writePreamble =>
    rw [place] at progress
    obtain ⟨handed, sent, mode, word⟩ := progress
    exact carried.writePreamble handed sent mode word e.tx
  | setRxtx tmp =>
    rw [place] at progress
    obtain ⟨handed, reads⟩ := progress
    apply carried.awaitMode (handed ▸ List.prefix_refl _)
    · exact ⟨handed, reads⟩
    · exact fun _ => ⟨handed, (if_pos reads).symm⟩
  | putCommand =>
    rw [place] at progress allowed
    obtain ⟨handed, mode⟩ := progress
    apply carried.put
    · intro waits
      rw [allowed waits]
      exact (carried.waiting (words_handed s [] handed) waits).2
    · exact ⟨handed, mode, load32_put _ _ _⟩
  | writeCommand =>
    rw [place] at progress
    obtain ⟨handed, mode, word⟩ := progress
    exact carried.writeCommand handed mode word e.tx
  | kread =>
    rw [place] at progress
    obtain ⟨handed, mode⟩ := progress
    dsimp only
    rw [if_neg (by rw [mode]; decide)]
    exact carried.move _ ⟨handed, 0, ⟨Nat.zero_le _, (BitVec.add_zero _).symm, rfl⟩⟩
  | poll =>
    rw [place] at progress
    obtain ⟨handed, k, filling⟩ := progress
    dsimp only
    split
    · split
      · exact ⟨⟨carried.custody, carried.told, carried.settled⟩, handed, k, filling⟩
      · exact carried.move s.rx ⟨handed, k, filling⟩
    · rename_i filled
      rw [reply_filled filling filled]
      apply Carried.finish
      · exact ⟨carried.custody, carried.told, carried.settled⟩
      · exact .inl ⟨rfl, handed⟩
  | look =>
    rw [place] at progress
    obtain ⟨handed, filling⟩ := progress
    dsimp only
    split
    · exact carried.move s.rx ⟨handed, filling⟩
    · rename_i free
      apply carried.move s.rx
      refine ⟨handed, filling, ?_⟩
      rcases carried.settled with idle | loaded
      · exact (txFill_idle idle _).1
      · exact (txFill_loaded loaded free).1
  | write fifoSpace fill =>
    rw [place] at progress allowed
    obtain ⟨handed, filling, counted⟩ := progress
    obtain ⟨custody, settled, _⟩ := txWrite_sends s.txMem carried.settled counted allowed
    refine ⟨⟨?_, carried.told, settled⟩, handed, filling⟩
    show s.wire ++ (txWrite s.txMem s.tx fifoSpace fill).1 ++ (txWrite s.txMem s.tx fifoSpace fill).2.pending b s.txMem = _
    rw [List.append_assoc, custody]
    exact carried.custody
  | receive =>
    rw [place] at progress
    obtain ⟨handed, k, filling⟩ := progress
    exact carried.move _ ⟨handed, rxInt_filling _ filling e.rx⟩

theorem sent_txInt (settled : s.tx.Settled b) (sent : s.tx.txbuf = 0) (r : TxReading) :
    (txInt s.txMem s.tx r).2.txbuf = 0 := by
  have custody := (txInt_word s.txMem settled r).custody
  rw [pending_idle (settled_idle settled sent)] at custody
  by_contra waits
  have none := (List.append_eq_nil_iff.mp custody).2
  unfold TxPort.pending at none
  rw [if_neg waits] at none
  cases none

theorem Sound.txInterrupt (sound : Sound b s) (r : TxReading) :
    Sound b { s with tx := (txInt s.txMem s.tx r).2, wire := s.wire ++ (txInt s.txMem s.tx r).1 } := by
  obtain ⟨custody, settled, mode⟩ := txInt_word s.txMem sound.settled r
  have sent := sent_txInt (r := r) sound.settled
  have progress := sound.progress
  refine ⟨⟨?_, sound.told, settled⟩, ?_⟩
  · show s.wire ++ (txInt s.txMem s.tx r).1 ++ (txInt s.txMem s.tx r).2.pending b s.txMem = s.words.map .word
    rw [List.append_assoc, custody]
    exact sound.custody
  · unfold Progress ModeSet at progress ⊢
    dsimp only
    rw [mode]
    cases place : s.place with
    | setTx tmp =>
      rw [place] at progress
      exact ⟨progress.1, sent progress.2⟩
    | putPreamble =>
      rw [place] at progress
      exact ⟨progress.1, sent progress.2.1, progress.2.2⟩
    | writePreamble =>
      rw [place] at progress
      exact ⟨progress.1, sent progress.2.1, progress.2.2⟩
    | _ =>
      rw [place] at progress
      exact progress

theorem Sound.step (sound : Sound b s) (e : SscEvent) (allowed : s.Allowed e) : Sound b (s.step b e) := by
  cases e with
  | call command reply =>
    unfold Ssc.step
    dsimp only
    split
    · rename_i place
      have progress := sound.progress
      unfold Progress at progress
      rw [place] at progress
      exact ⟨⟨sound.custody, sound.told, sound.settled⟩, progress, by decide⟩
    · exact sound
  | next e => exact sound.next e allowed
  | txInterrupt r =>
    unfold Ssc.step
    dsimp only
    split
    · exact sound.txInterrupt r
    · exact sound

/-! ### What goes wrong otherwise -/

/-- The command takes the place of the preamble that waits. -/
theorem Sound.put_spoils (sound : Sound b s) (place : s.place = .putCommand) (waits : s.tx.txbuf ≠ 0)
    (other : s.command ≠ preamble) {next : SscAt} : ¬ Conserved b (s.put b s.command next) := by
  intro conserved
  have progress := sound.progress
  unfold Progress at progress
  rw [place] at progress
  have earlier := (sound.waiting (words_handed s [] progress.1) waits).1
  have given : s.words.map TxEntry.word = s.wire ++ [.word preamble] := by
    rw [words_handed s [] progress.1, List.map_append, earlier]
    rfl
  have custody : s.wire ++ (if s.tx.txbuf = 0 then [] else
      [.word (load32 (storeBytes s.txMem b.tx.start (bytes32 s.command)) b.tx.start)]) = s.words.map .word :=
    conserved.custody
  rw [if_neg waits, load32_put, given] at custody
  have last := List.append_cancel_left custody
  exact other (TxEntry.word.inj (List.singleton_inj.mp last))

/-- A word is sent that nobody gave. -/
theorem Sound.write_spoils (sound : Sound b s) {fifoSpace fill : Int} (counted : Counted fifoSpace fill) (some : 0 < fill)
    (sent : s.tx.txbuf = 0) (place : SscAt) : ¬ Conserved b { s with
      tx := (txWrite s.txMem s.tx fifoSpace fill).2
      wire := s.wire ++ (txWrite s.txMem s.tx fifoSpace fill).1
      place } := by
  intro conserved
  have whole : fill = 4 := by
    rcases counted with whole | none | ⟨negative, below⟩
    · exact whole
    · omega
    · omega
  have entries : (txWrite s.txMem s.tx fifoSpace 4).1 = [.word (load32 s.txMem s.tx.txbufPtr)] := by
    unfold txWrite
    rw [txAccesses_word]
  have before := sound.custody
  rw [pending_idle (settled_idle sound.settled sent), List.append_nil] at before
  have custody := congrArg List.length conserved.custody
  have words : s.words.length = s.wire.length := by rw [before, List.length_map]
  rw [whole] at custody
  simp only [entries, List.length_append, List.length_map, List.length_singleton] at custody
  have total : s.wire.length + 1 + _ = s.words.length := custody
  omega

theorem Sound.step_spoils (sound : Sound b s) (e : SscEvent) (forbidden : ¬ s.Allowed e) : ¬ Conserved b (s.step b e) := by
  cases e with
  | next e =>
    have progress := sound.progress
    unfold Progress at progress
    unfold Allowed at forbidden
    show ¬ Conserved b (s.next b e)
    unfold Ssc.next
    cases place : s.place with
    | putCommand =>
      rw [place] at forbidden
      obtain ⟨waits, other⟩ := Classical.not_imp.mp forbidden
      exact sound.put_spoils place waits other
    | write fifoSpace fill =>
      rw [place] at forbidden progress
      obtain ⟨some, sent⟩ := Classical.not_imp.mp forbidden
      exact sound.write_spoils progress.2.2 some (not_not.mp sent) .receive
    | _ =>
      rw [place] at forbidden
      exact absurd trivial forbidden
  | _ => exact absurd trivial forbidden

theorem opened_sound (b : LocalBufs) (txMem : U32 → U8) (rx : RxPort) : Sound b (opened txMem rx) :=
  ⟨⟨rfl, fun _ none => absurd none List.not_mem_nil, .inl ⟨rfl, rfl⟩⟩, rfl⟩

/-- Over any run of sessions and transmit interrupts, what `ifx_ssc_kwrite` took goes over the wire once, in order and
unchanged, exactly when no command is copied over a preamble that waits and no interrupt sends a command between the
halves of the session's own `tx_int`. -/
theorem sessions_framed_iff (b : LocalBufs) (txMem : U32 → U8) (rx : RxPort) (events : List SscEvent) :
    (∀ before after, events = before ++ after → Conserved b (exec (step b) (opened txMem rx) before)) ↔
      Guarded (step b) Allowed (opened txMem rx) events := by
  apply always_iff_guarded
  · exact fun s e (sound : Sound b s) allowed => sound.step e allowed
  · exact fun s sound => sound.conserved
  · exact fun s e sound forbidden => sound.step_spoils e forbidden
  · exact opened_sound b txMem rx

end Ssc

end TwinpassGateway.Spi
