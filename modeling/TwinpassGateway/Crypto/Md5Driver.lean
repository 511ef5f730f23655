import TwinpassGateway.Crypto.Md5
import TwinpassGateway.Crypto.Sha1Contexts
import TwinpassGateway.Foundation.Hmac

/-!
MD5 on the hash engine of the DEU: `ifxdeu-md5.c`, built without DMA for the big-endian core.
-/

namespace TwinpassGateway.Crypto

open Foundation

structure Md5Ctx where
  block : List U8
  byteCount : Nat

/-- `cpu_to_le32`: how a word lies in memory afterwards. -/
def cpuToLe32 (n : Nat) : List U8 := leBytes32 (BitVec.ofNat 32 n)

def Digest.md5 (d : Digest) : Md5State := ⟨d.d1, d.d2, d.d3, d.d4⟩

/-- `md5_transform`: the engine is given the words of the block in little-endian order. -/
def md5Transform (h : DeuHash) (block : List U8) : DeuHash :=
  if h.sm && h.algo then
    let r := md5Compress h.digest.md5 (block.take 64)
    { h with
      digest := { h.digest with d1 := r.a, d2 := r.b, d3 := r.c, d4 := r.d }
      fed := h.fed.map (· ++ [block.take 64]) }
  else h

/-- `INIT` loads the start value; the fifth word is not used. -/
def md5Init (h : DeuHash) (mctx : Md5Ctx) : DeuHash × Md5Ctx :=
  let digest := ⟨md5Iv.a, md5Iv.b, md5Iv.c, md5Iv.d, h.digest.d5⟩
  ({ sm := true, algo := true, digest, fed := some [] }, { mctx with byteCount := 0 })

/-- The loop of `md5_update`; `len / 64` turns are always enough. -/
def md5Loop : Nat → DeuHash → List U8 → List U8 → DeuHash × List U8 × List U8
  | 0, h, block, data => (h, block, data)
  | turns + 1, h, block, data =>
    if data.length ≥ 64 then
      let block := memcpyTo block 0 (data.take 64)
      md5Loop turns (md5Transform h block) block (data.drop 64)
    else (h, block, data)

def md5Update (h : DeuHash) (mctx : Md5Ctx) (data : List U8) : DeuHash × Md5Ctx :=
  let len := data.length
  let avail := 64 - mctx.byteCount % 64
  let byteCount := (mctx.byteCount + len) % 2 ^ 64
  if avail > len then (h, { block := memcpyTo mctx.block (64 - avail) data, byteCount })
  else
    let block := memcpyTo mctx.block (64 - avail) (data.take avail)
    let (h, block, data) := md5Loop (len / 64) (md5Transform h block) block (data.drop avail)
    (h, { block := memcpyTo block 0 data, byteCount })

def md5FinalFeed (h : DeuHash) (mctx : Md5Ctx) : DeuHash :=
  let offset := mctx.byteCount % 64
  let block := memcpyTo mctx.block offset [0x80#8]
  let padding : Int := 56 - (offset + 1)
  let (h, block, p, padding) :=
    if padding < 0 then
      let block := memcpyTo block (offset + 1) (List.replicate (padding + 8).toNat 0)
      (md5Transform h block, block, 0, 56)
    else (h, block, offset + 1, padding)
  let block := memcpyTo block p (List.replicate padding.toNat 0)
  let block := memcpyTo block 56 (cpuToLe32 (mctx.byteCount <<< 3))
  let block := memcpyTo block 60 (cpuToLe32 (mctx.byteCount >>> 29))
  md5Transform h block

def Md5Ctx.zero : Md5Ctx := { block := List.replicate 64 0, byteCount := 0 }

def md5Final (h : DeuHash) (mctx : Md5Ctx) : List U8 × DeuHash × Md5Ctx :=
  let h := md5FinalFeed h mctx
  (h.digest.md5.bytes, { h with sm := false, fed := none }, .zero)

variable {h : DeuHash} {mctx : Md5Ctx} {message data : List U8} {bs before : List (List U8)}

/-! ### The engine -/

/-- An engine in MD5 mode that was fed the blocks `bs` since its initialisation. -/
structure DeuHash.Md5Fed (h : DeuHash) (bs : List (List U8)) : Prop where
  sm : h.sm = true
  algo : h.algo = true
  fed : h.fed = some bs
  digest : h.digest.md5 = bs.foldl md5Compress md5Iv

theorem md5Init_fed (h : DeuHash) (mctx : Md5Ctx) : (md5Init h mctx).1.Md5Fed [] := ⟨rfl, rfl, rfl, rfl⟩

theorem md5Transform_fed (block : List U8) (fed : h.Md5Fed before) :
    (md5Transform h block).Md5Fed (before ++ [block.take 64]) := by
  obtain ⟨sm, algo, fed, digest⟩ := fed
  have started : (h.sm && h.algo) = true := by rw [sm, algo]; rfl
  rw [md5Transform, if_pos started]
  refine ⟨sm, algo, by rw [fed]; rfl, ?_⟩
  rw [List.foldl_append, ← digest]
  rfl

theorem md5Transforms_fed (fed : h.Md5Fed before) (whole : ∀ block ∈ bs, block.take 64 = block) :
    (bs.foldl md5Transform h).Md5Fed (before ++ bs) := by
  induction bs generalizing h before with
  | nil => simpa using fed
  | cons block rest ih =>
    obtain ⟨first, later⟩ := List.forall_mem_cons.mp whole
    have next := md5Transform_fed block fed
    rw [first] at next
    rw [List.foldl_cons, List.append_cons]
    exact ih next later

/-! ### The context -/

/-- A block that is written from its start: `xs` so far. -/
def Written (block xs : List U8) : Prop := block.length = 64 ∧ block.take xs.length = xs

theorem Written.append {block xs : List U8} (written : Written block xs) (src : List U8) (room : xs.length + src.length ≤ 64) :
    Written (memcpyTo block xs.length src) (xs ++ src) := by
  obtain ⟨full, sofar⟩ := written
  refine ⟨(memcpyTo_length (by omega)).trans full, ?_⟩
  rw [List.length_append, memcpyTo_prefix (by omega), sofar]

theorem Written.all {block xs : List U8} (written : Written block xs) (size : xs.length = 64) : block = xs := by
  obtain ⟨full, sofar⟩ := written
  rwa [List.take_of_length_le (by omega)] at sofar

/-- Two words behind 56 bytes complete a block. -/
theorem Written.close {block xs low high : List U8} (written : Written block xs) (size : xs.length = 56)
    (lowSize : low.length = 4) (highSize : high.length = 4) :
    memcpyTo (memcpyTo block 56 low) 60 high = xs ++ low ++ high := by
  have first := written.append low (by omega)
  have size' : (xs ++ low).length = 60 := by rw [List.length_append, size, lowSize]
  have second := first.append high (by omega)
  rw [size, size'] at second
  exact second.all (by rw [List.length_append, size', highSize])

theorem Written.nil {block : List U8} (full : block.length = 64) : Written block [] := ⟨full, rfl⟩

/-- What a context says about the data it was passed. -/
structure Md5Ctx.Holds (mctx : Md5Ctx) (message : List U8) : Prop where
  byteCount : mctx.byteCount = message.length % 2 ^ 64
  written : Written mctx.block (remainder 64 message)

theorem md5Init_holds (h : DeuHash) (full : mctx.block.length = 64) : (md5Init h mctx).2.Holds [] :=
  ⟨rfl, full, rfl⟩

theorem md5Loop_blocks {turns : Nat} {block : List U8} (full : block.length = 64)
    (enough : data.length < 64 * (turns + 1)) :
    (md5Loop turns h block data).1 = (blocks 64 data).foldl md5Transform h ∧
      (md5Loop turns h block data).2.1.length = 64 ∧ (md5Loop turns h block data).2.2 = remainder 64 data := by
  have stop : data.length < 64 → (h, block, data).1 = (blocks 64 data).foldl md5Transform h ∧
      (h, block, data).2.1.length = 64 ∧ (h, block, data).2.2 = remainder 64 data := by
    intro short
    obtain ⟨noBlocks, all⟩ := blocks_short short
    rw [noBlocks, all]
    exact ⟨rfl, full, rfl⟩
  induction turns generalizing h block data with
  | zero => exact stop (by omega)
  | succ turns ih =>
    rw [md5Loop]
    split
    · rename_i long
      have filled : (data.take 64).length = 64 := by rw [List.length_take]; omega
      have copied : memcpyTo block 0 (data.take 64) = data.take 64 := by
        rw [memcpyTo_full (by omega), List.take_zero, List.nil_append]
      obtain ⟨first, rest⟩ := blocks_long (by omega) long
      rw [copied, first, rest, List.foldl_cons]
      refine ih filled (by rw [List.length_drop]; omega) fun short => ?_
      obtain ⟨noBlocks, all⟩ := blocks_short short
      rw [noBlocks, all]
      exact ⟨rfl, filled, rfl⟩
    · exact stop (by omega)

theorem md5Update_full (full : mctx.block.length = 64) : (md5Update h mctx data).2.block.length = 64 := by
  have below : mctx.byteCount % 64 < 64 := Nat.mod_lt _ (by omega)
  simp only [md5Update]
  split
  · exact (memcpyTo_length (by omega)).trans full
  · have first : (memcpyTo mctx.block (64 - (64 - mctx.byteCount % 64)) (data.take (64 - mctx.byteCount % 64))).length =
        64 := (memcpyTo_length (by rw [List.length_take]; omega)).trans full
    generalize memcpyTo mctx.block (64 - (64 - mctx.byteCount % 64)) (data.take (64 - mctx.byteCount % 64)) = block
      at first ⊢
    have enough : (data.drop (64 - mctx.byteCount % 64)).length < 64 * (data.length / 64 + 1) := by
      rw [List.length_drop]
      omega
    obtain ⟨-, size, left⟩ := md5Loop_blocks (h := md5Transform h block) first enough
    have short : (remainder 64 (data.drop (64 - mctx.byteCount % 64))).length < 64 := by
      rw [remainder_length]
      exact Nat.mod_lt _ (by omega)
    have room : 0 + (remainder 64 (data.drop (64 - mctx.byteCount % 64))).length ≤
        (md5Loop (data.length / 64) (md5Transform h block) block
          (data.drop (64 - mctx.byteCount % 64))).2.1.length := by
      rw [size]
      omega
    rw [left]
    exact (memcpyTo_length room).trans size

/-- A chunk of any length feeds the engine with the blocks it completes. -/
theorem md5Update_holds (holds : mctx.Holds message) :
    (md5Update h mctx data).1 = (blocks 64 (remainder 64 message ++ data)).foldl md5Transform h ∧
      (md5Update h mctx data).2.Holds (message ++ data) := by
  obtain ⟨byteCount, written⟩ := holds
  have total : (mctx.byteCount + data.length) % 2 ^ 64 = (message ++ data).length % 2 ^ 64 := by
    rw [byteCount, List.length_append]
    omega
  have behind := remainder_length 64 message
  have place : mctx.byteCount % 64 = (remainder 64 message).length := by rw [byteCount, behind]; omega
  have below : (remainder 64 message).length < 64 := behind ▸ Nat.mod_lt _ (by omega)
  have kept : remainder 64 (message ++ data) = remainder 64 (remainder 64 message ++ data) :=
    (blocks_append (by omega)).2
  have start : 64 - (64 - (remainder 64 message).length) = (remainder 64 message).length := by omega
  simp only [md5Update, place, start]
  generalize remainder 64 message = tail at *
  split
  · -- the chunk only fills the context's block further
    have short : (tail ++ data).length < 64 := by rw [List.length_append]; omega
    obtain ⟨noBlocks, all⟩ := blocks_short short
    rw [noBlocks]
    refine ⟨rfl, total, ?_⟩
    rw [kept, all]
    exact written.append _ (by omega)
  · -- the chunk completes the context's block; the loop then fills it with whole blocks of the chunk
    have filled : (data.take (64 - tail.length)).length = 64 - tail.length := by rw [List.length_take]; omega
    have long : 64 ≤ (tail ++ data).length := by rw [List.length_append]; omega
    obtain ⟨first, rest⟩ := blocks_long (by omega) long
    have head : (tail ++ data).take 64 = tail ++ data.take (64 - tail.length) := by
      rw [List.take_append, List.take_of_length_le (by omega)]
    have past : (tail ++ data).drop 64 = data.drop (64 - tail.length) := by
      rw [List.drop_append, List.drop_eq_nil_of_le (by omega), List.nil_append]
    have whole : (tail ++ data.take (64 - tail.length)).length = 64 := by rw [List.length_append]; omega
    have block := (written.append (data.take (64 - tail.length)) (by omega)).all whole
    rw [block]
    have enough : (data.drop (64 - tail.length)).length < 64 * (data.length / 64 + 1) := by
      rw [List.length_drop]
      omega
    obtain ⟨fed, size, left⟩ := md5Loop_blocks (h := md5Transform h (tail ++ data.take (64 - tail.length))) whole enough
    rw [first, head, past, List.foldl_cons]
    refine ⟨fed, total, ?_⟩
    rw [kept, rest, past, left]
    have short : (remainder 64 (data.drop (64 - tail.length))).length < 64 := by
      rw [remainder_length]
      exact Nat.mod_lt _ (by omega)
    exact (Written.nil size).append _ (by rw [List.length_nil]; omega)

/-! ### The digest -/

theorem cpuToLe32_size (n : Nat) : (cpuToLe32 n).length = 4 := rfl

/-- The two words at the end of the last block are the length in bits, its low word first. -/
theorem cpuToLe32_bits (n : Nat) :
    cpuToLe32 ((n % 2 ^ 64) <<< 3) ++ cpuToLe32 ((n % 2 ^ 64) >>> 29) = leBytes64 (8 * n % 2 ^ 64) := by
  have low : ∀ m i, (BitVec.ofNat 32 m).extractLsb' i 8 = BitVec.ofNat 8 (m % 2 ^ 32 / 2 ^ i) := by
    intro m i
    apply BitVec.eq_of_toNat_eq
    rw [BitVec.extractLsb'_toNat, BitVec.toNat_ofNat, BitVec.toNat_ofNat, Nat.shiftRight_eq_div_pow]
  have same : ∀ x y, x % 2 ^ 8 = y % 2 ^ 8 → BitVec.ofNat 8 x = BitVec.ofNat 8 y := by
    intro x y equal
    apply BitVec.eq_of_toNat_eq
    rwa [BitVec.toNat_ofNat, BitVec.toNat_ofNat]
  have eight : ∀ m, leBytes64 m = [0, 8, 16, 24, 32, 40, 48, 56].map fun i => BitVec.ofNat 8 (m / 2 ^ i) := by
    intro m
    simp [leBytes64, List.range_succ, Nat.shiftRight_eq_div_pow]
  simp only [cpuToLe32, leBytes32, bytes32, low, eight, Nat.shiftRight_eq_div_pow, Nat.shiftLeft_eq, List.reverse_cons,
    List.reverse_nil, List.nil_append, List.cons_append, List.map_cons, List.map_nil, List.cons_eq_cons, and_true]
  refine ⟨same _ _ ?_, same _ _ ?_, same _ _ ?_, same _ _ ?_, same _ _ ?_, same _ _ ?_, same _ _ ?_, same _ _ ?_⟩
  all_goals simp only [Nat.reducePow]; omega

theorem md5FinalFeed_blocks (holds : mctx.Holds message) :
    md5FinalFeed h mctx =
      (blocks 64 (remainder 64 message ++ (0x80#8 :: List.replicate ((119 - message.length % 64) % 64) 0) ++
        leBytes64 (8 * message.length % 2 ^ 64))).foldl md5Transform h := by
  obtain ⟨byteCount, written⟩ := holds
  have behind := remainder_length 64 message
  have place : mctx.byteCount % 64 = (remainder 64 message).length := by rw [byteCount, behind]; omega
  have below : (remainder 64 message).length < 64 := behind ▸ Nat.mod_lt _ (by omega)
  have bits := cpuToLe32_bits message.length
  rw [← byteCount] at bits
  rw [← bits, ← behind]
  generalize remainder 64 message = tail at *
  unfold md5FinalFeed
  simp only [place]
  have lowSize := cpuToLe32_size (mctx.byteCount <<< 3)
  have highSize := cpuToLe32_size (mctx.byteCount >>> 29)
  clear bits byteCount
  generalize cpuToLe32 (mctx.byteCount <<< 3) = low at *
  generalize cpuToLe32 (mctx.byteCount >>> 29) = high at *
  have marked : Written (memcpyTo mctx.block tail.length [0x80#8]) (tail ++ [0x80#8]) :=
    written.append _ (by rw [List.length_singleton]; omega)
  have place' : (tail ++ [0x80#8]).length = tail.length + 1 := by rw [List.length_append, List.length_singleton]
  by_cases spills : (56 - (tail.length + 1) : Int) < 0
  · -- the length does not fit behind the mark: zeros up to the end of the block, and a second block
    have zeros : (56 - (tail.length + 1) + 8 : Int).toNat = 63 - tail.length := by omega
    have more : (119 - tail.length) % 64 = 63 - tail.length + 56 := by omega
    simp only [if_pos spills, zeros, more, ← List.replicate_append_replicate]
    have filled := marked.append (List.replicate (63 - tail.length) 0)
      (by rw [place', List.length_replicate]; omega)
    have whole : (tail ++ [0x80#8] ++ List.replicate (63 - tail.length) (0 : U8)).length = 64 := by
      rw [List.length_append, place', List.length_replicate]
      omega
    have second := ((Written.nil whole).append (List.replicate 56 0) (by simp)).close (by simp) lowSize highSize
    have parts : tail ++ 0x80#8 :: (List.replicate (63 - tail.length) 0 ++ List.replicate 56 0) ++ (low ++ high) =
        (tail ++ [0x80#8] ++ List.replicate (63 - tail.length) 0) ++ (List.replicate 56 0 ++ low ++ high) := by
      simp
    rw [place'] at filled
    rw [filled.all whole, parts, blocks_cons (by omega) whole, blocks_single (by omega) (by simp [lowSize, highSize])]
    exact congrArg _ second
  · -- mark, zeros and length complete the block
    have zeros : (56 - (tail.length + 1) : Int).toNat = 55 - tail.length := by omega
    have more : (119 - tail.length) % 64 = 55 - tail.length := by omega
    simp only [if_neg spills, zeros, more]
    have filled := marked.append (List.replicate (55 - tail.length) 0)
      (by rw [place', List.length_replicate]; omega)
    have size : (tail ++ [0x80#8] ++ List.replicate (55 - tail.length) (0 : U8)).length = 56 := by
      rw [List.length_append, place', List.length_replicate]
      omega
    have parts : tail ++ 0x80#8 :: List.replicate (55 - tail.length) 0 ++ (low ++ high) =
        tail ++ [0x80#8] ++ List.replicate (55 - tail.length) 0 ++ low ++ high := by
      simp
    have whole : (tail ++ [0x80#8] ++ List.replicate (55 - tail.length) 0 ++ low ++ high).length = 64 := by
      rw [List.length_append, List.length_append, size, lowSize, highSize]
    rw [place'] at filled
    rw [filled.close size lowSize highSize, parts, blocks_single (by omega) whole]
    rfl

theorem md5Final_digest (holds : mctx.Holds message) (fed : h.Md5Fed (blocks 64 message)) :
    (md5FinalFeed h mctx).Md5Fed (blocks 64 (md5Pad message)) ∧ (md5Final h mctx).1 = md5 message := by
  have padded : (md5FinalFeed h mctx).Md5Fed (blocks 64 (md5Pad message)) := by
    have cut : ∀ tail, blocks 64 (message ++ tail) = blocks 64 message ++ blocks 64 (remainder 64 message ++ tail) :=
      fun tail => (blocks_append (by omega)).1
    rw [md5FinalFeed_blocks holds, md5Pad, List.append_assoc, List.append_assoc, cut]
    exact md5Transforms_fed fed fun block member => take_of_mem_takeBlocks member
  exact ⟨padded, congrArg Md5State.bytes padded.digest⟩

theorem md5Update_fed (holds : mctx.Holds message) (fed : h.Md5Fed (blocks 64 message)) :
    (md5Update h mctx data).1.Md5Fed (blocks 64 (message ++ data)) := by
  have cut : blocks 64 (message ++ data) = blocks 64 message ++ blocks 64 (remainder 64 message ++ data) :=
    (blocks_append (by omega)).1
  rw [(md5Update_holds holds).1, cut]
  exact md5Transforms_fed fed fun block member => take_of_mem_takeBlocks member

theorem md5Updates_fed (chunks : List (List U8)) (holds : mctx.Holds message) (fed : h.Md5Fed (blocks 64 message)) :
    (chunks.foldl (fun s data => md5Update s.1 s.2 data) (h, mctx)).2.Holds (message ++ chunks.flatten) ∧
      (chunks.foldl (fun s data => md5Update s.1 s.2 data) (h, mctx)).1.Md5Fed
        (blocks 64 (message ++ chunks.flatten)) := by
  induction chunks generalizing h mctx message with
  | nil =>
    rw [List.flatten_nil, List.append_nil]
    exact ⟨holds, fed⟩
  | cons data rest ih =>
    rw [List.foldl_cons, List.flatten_cons, ← List.append_assoc]
    exact ih (md5Update_holds holds).2 (md5Update_fed holds fed)

/-! ### As a hash function -/

def md5Driver : Hasher where
  State := DeuHash × { mctx : Md5Ctx // mctx.block.length = 64 }
  init s := ((md5Init s.1 s.2.1).1, ⟨(md5Init s.1 s.2.1).2, s.2.2⟩)
  update s data := ((md5Update s.1 s.2.1 data).1, ⟨(md5Update s.1 s.2.1 data).2, md5Update_full s.2.2⟩)
  final s := ((md5Final s.1 s.2.1).1, (md5Final s.1 s.2.1).2.1, ⟨.zero, rfl⟩)
theorem md5Driver_computes : md5Driver.Computes md5 fun _ => True := by
  intro s pieces _
  have same : ∀ (pieces : List (List U8)) (t : md5Driver.State) (h : DeuHash) (mctx : Md5Ctx), t.1 = h → t.2.1 = mctx →
      (md5Driver.final (pieces.foldl md5Driver.update t)).1 =
        (md5Final (pieces.foldl (fun s data => md5Update s.1 s.2 data) (h, mctx)).1
          (pieces.foldl (fun s data => md5Update s.1 s.2 data) (h, mctx)).2).1 := by
    intro pieces
    induction pieces with
    | nil =>
      rintro t _ _ rfl rfl
      rfl
    | cons piece rest ih =>
      rintro t _ _ rfl rfl
      exact ih _ _ _ rfl rfl
  obtain ⟨holds, fed⟩ := md5Updates_fed pieces (md5Init_holds s.1 s.2.2) (md5Init_fed s.1 s.2.1)
  rw [same pieces _ _ _ rfl rfl]
  exact (md5Final_digest holds fed).2

end TwinpassGateway.Crypto
