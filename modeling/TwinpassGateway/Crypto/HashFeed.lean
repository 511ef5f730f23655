import TwinpassGateway.Crypto.Md5Driver

/-!
Which blocks the two hash drivers feed to the engine, however a message is split into chunks.
-/

namespace TwinpassGateway.Crypto

open Foundation

variable {h : DeuHash} {sctx : Sha1HwCtx} {message data : List U8} {chunks : List (List U8)}

/-! ### Sessions -/

def sha1Chunks (s : DeuHash × Sha1HwCtx) (chunks : List (List U8)) : DeuHash × Sha1HwCtx :=
  chunks.foldl (fun s data => sha1Update s.1 s.2 data) s

/-- The engine after `sha1_init`, an update for each chunk, and `sha1_final` up to reading the digest. -/
def sha1Session (h : DeuHash) (chunks : List (List U8)) : DeuHash :=
  let s := sha1Chunks (sha1Init h) chunks
  sha1FinalFeed s.1 s.2

/-- The same for MD5; `mctx` is what the context's memory holds before. -/
def md5Session (h : DeuHash) (mctx : Md5Ctx) (chunks : List (List U8)) : DeuHash :=
  let s := chunks.foldl (fun s data => md5Update s.1 s.2 data) (md5Init h mctx)
  md5FinalFeed s.1 s.2

theorem md5Session_fed (h : DeuHash) {mctx : Md5Ctx} (full : mctx.block.length = 64) (chunks : List (List U8)) :
    (md5Session h mctx chunks).fed = some (blocks 64 (md5Pad chunks.flatten)) := by
  obtain ⟨holds, fed⟩ := md5Updates_fed chunks (md5Init_holds h full) (md5Init_fed h mctx)
  exact (md5Final_digest holds fed).1.fed

/-! ### What SHA-1 counts -/

/-- No chunk wraps the `u32` that says where it ends, counted from the block it starts in. -/
def EndsInWord : Nat → List (List U8) → Prop
  | _, [] => True
  | n, data :: rest => n % 64 + data.length < 2 ^ 32 ∧ EndsInWord (n + data.length) rest

/-- `len << 3` loses the carries out of a word, and the lost carries do not make up a multiple of 2^64. -/
def carriesLost (chunks : List (List U8)) : Nat := (chunks.map fun data => data.length / 2 ^ 29).sum

theorem small_endsInWord (small : ∀ data ∈ chunks, data.length < 2 ^ 29) (n : Nat) : EndsInWord n chunks := by
  induction chunks generalizing n with
  | nil => trivial
  | cons data rest ih =>
    obtain ⟨first, later⟩ := List.forall_mem_cons.mp small
    exact ⟨by omega, ih later _⟩

theorem small_carriesLost (small : ∀ data ∈ chunks, data.length < 2 ^ 29) : carriesLost chunks = 0 := by
  apply List.sum_eq_zero
  intro carry member
  obtain ⟨data, among, rfl⟩ := List.mem_map.mp member
  exact Nat.div_eq_of_lt (small data among)

theorem sha1Chunks_count (s : DeuHash × Sha1HwCtx) (chunks : List (List U8)) :
    ((sha1Chunks s chunks).2.count + 2 ^ 32 * carriesLost chunks) % 2 ^ 64 =
      (s.2.count + 8 * chunks.flatten.length) % 2 ^ 64 := by
  induction chunks generalizing s with
  | nil => rfl
  | cons data rest ih =>
    have later := ih (sha1Update s.1 s.2 data)
    have counted := sha1Update_count s.1 s.2 data
    have carry : u32 (data.length * 8) + 2 ^ 32 * (data.length / 2 ^ 29) = 8 * data.length := by
      rw [u32]
      omega
    have lost : carriesLost (data :: rest) = data.length / 2 ^ 29 + carriesLost rest := rfl
    rw [List.flatten_cons, List.length_append, lost]
    show ((sha1Chunks (sha1Update s.1 s.2 data) rest).2.count + _) % _ = _
    rw [counted] at later
    omega

theorem sha1Chunks_fed {s : DeuHash × Sha1HwCtx} (running : s.1.Running) (buffers : s.2.Buffers message)
    (fed : s.1.fed = some (blocks 64 message)) (ends : EndsInWord message.length chunks) :
    (sha1Chunks s chunks).1.Running ∧ (sha1Chunks s chunks).2.Buffers (message ++ chunks.flatten) ∧
      (sha1Chunks s chunks).1.fed = some (blocks 64 (message ++ chunks.flatten)) := by
  induction chunks generalizing s message with
  | nil =>
    rw [List.flatten_nil, List.append_nil]
    exact ⟨running, buffers, fed⟩
  | cons data rest ih =>
    obtain ⟨fits, later⟩ := ends
    rw [List.flatten_cons, ← List.append_assoc]
    refine ih (sha1Update_runs running buffers fits) (sha1Update_buffers buffers fits).2
      (sha1Update_feeds running buffers fits fed) ?_
    rw [List.length_append]
    exact later

/-! ### How many blocks -/

/-- A started engine that was fed `k` blocks. -/
def DeuHash.FedBlocks (h : DeuHash) (k : Nat) : Prop :=
  h.sm = true ∧ h.algo = false ∧ ∃ bs, h.fed = some bs ∧ bs.length = k

theorem sha1Transforms_fedBlocks {k : Nat} (fed : h.FedBlocks k) (bs : List (List U8)) :
    (bs.foldl sha1Transform h).FedBlocks (k + bs.length) := by
  induction bs generalizing h k with
  | nil => exact fed
  | cons block rest ih =>
    obtain ⟨sm, algo, before, fed, size⟩ := fed
    have started : (h.sm && !h.algo) = true := by rw [sm, algo]; rfl
    have next : (sha1Transform h block).FedBlocks (k + 1) := by
      rw [sha1Transform, if_pos started]
      refine ⟨sm, algo, before ++ [block.take 64], ?_, ?_⟩
      · rw [fed]
        rfl
      · rw [List.length_append, size, List.length_singleton]
    rw [List.foldl_cons, List.length_cons, Nat.add_comm rest.length, ← Nat.add_assoc]
    exact ih next

/-- Whatever its buffer holds, a chunk feeds as many blocks as the `u32` says that ends it. -/
theorem sha1Update_fedBlocks {k : Nat} (fed : h.FedBlocks k) (sctx : Sha1HwCtx) (short : data.length < 2 ^ 32) :
    (sha1Update h sctx data).1.FedBlocks (k + u32 (sctx.count / 8 % 64 + data.length) / 64) := by
  have below : sctx.count / 8 % 64 < 64 := Nat.mod_lt _ (by omega)
  simp only [sha1Update]
  generalize sctx.count / 8 % 64 = j at *
  split
  · have fits : j + data.length < 2 ^ 32 := by
      unfold u32 at *
      omega
    generalize memcpyTo sctx.buffer j (data.take (64 - j)) = buffer
    have first := sha1Transforms_fedBlocks fed [buffer]
    have loop := (transformLoop_blocks (h := sha1Transform h buffer) fits data.length (64 - j) (by omega)
      (by unfold u32 at *; omega) (by omega)).1
    have all := sha1Transforms_fedBlocks first (blocks 64 (data.drop (64 - j)))
    have total : k + [buffer].length + (blocks 64 (data.drop (64 - j))).length = k + u32 (j + data.length) / 64 := by
      rw [blocks_eq_takeBlocks, takeBlocks_length, List.length_drop, List.length_singleton, u32_eq fits]
      rw [u32_eq fits] at *
      omega
    rw [total] at all
    show (transformLoop data data.length (sha1Transform h buffer) (64 - j)).1.FedBlocks _
    rw [loop]
    exact all
  · have none : u32 (j + data.length) / 64 = 0 := by omega
    rw [none]
    exact fed

theorem sha1Update_place (h : DeuHash) {n : Nat} (place : sctx.count / 8 % 64 = n % 64) (data : List U8) :
    (sha1Update h sctx data).2.count / 8 % 64 = (n + data.length) % 64 := by
  rw [sha1Update_count, u32]
  omega

/-- Chunks never feed more blocks than they complete, and fewer once the word that ends one has wrapped. -/
theorem sha1Chunks_fedBlocks {s : DeuHash × Sha1HwCtx} {k n : Nat} (fed : s.1.FedBlocks k)
    (place : s.2.count / 8 % 64 = n % 64) (short : ∀ data ∈ chunks, data.length < 2 ^ 32) :
    (sha1Chunks s chunks).2.count / 8 % 64 = (n + chunks.flatten.length) % 64 ∧
      ∃ k', (sha1Chunks s chunks).1.FedBlocks k' ∧ k' + n / 64 ≤ k + (n + chunks.flatten.length) / 64 ∧
        (k' + n / 64 = k + (n + chunks.flatten.length) / 64 → EndsInWord n chunks) := by
  induction chunks generalizing s k n with
  | nil => exact ⟨place, k, fed, Nat.le_refl _, fun _ => trivial⟩
  | cons data rest ih =>
    obtain ⟨first, later⟩ := List.forall_mem_cons.mp short
    have next := sha1Update_fedBlocks fed s.2 first
    rw [place] at next
    obtain ⟨place', k', fed', most, all⟩ := ih next (sha1Update_place s.1 place data) later
    rw [List.flatten_cons, List.length_append, ← Nat.add_assoc]
    refine ⟨place', k', fed', ?_, ?_⟩
    · have wraps : u32 (n % 64 + data.length) ≤ n % 64 + data.length := Nat.mod_le _ _
      omega
    · intro complete
      by_cases fits : n % 64 + data.length < 2 ^ 32
      · rw [u32_eq fits] at all
        exact ⟨fits, all (by omega)⟩
      · have wraps : u32 (n % 64 + data.length) < 2 ^ 32 := Nat.mod_lt _ (by omega)
        unfold u32 at *
        omega

theorem sha1FinalFeed_fedBlocks {k n : Nat} (fed : h.FedBlocks k) (place : sctx.count / 8 % 64 = n % 64) :
    (sha1FinalFeed h sctx).FedBlocks (k + (n % 64 + ((119 - n % 64) % 64 + 9)) / 64) := by
  have below : n % 64 < 64 := Nat.mod_lt _ (by omega)
  simp only [sha1FinalFeed, place]
  generalize size : (if n % 64 < 56 then 56 - n % 64 else 64 + 56 - n % 64) = padlen
  have most : padlen = (119 - n % 64) % 64 + 1 := by
    rw [← size]
    split <;> omega
  have pad : (padding.take padlen).length = padlen := by
    rw [List.length_take, padding, List.length_cons, List.length_replicate]
    omega
  have bits : (bytes64 sctx.count).length = 8 := by simp [bytes64]
  have first := sha1Update_fedBlocks fed sctx (show (padding.take padlen).length < 2 ^ 32 by omega)
  have place' := sha1Update_place h place (padding.take padlen)
  have second := sha1Update_fedBlocks first (sha1Update h sctx (padding.take padlen)).2
    (show (bytes64 sctx.count).length < 2 ^ 32 by omega)
  rw [place, place', pad, bits, u32_eq (by omega), u32_eq (by omega)] at second
  have total : k + (n % 64 + padlen) / 64 + ((n + padlen) % 64 + 8) / 64 =
      k + (n % 64 + ((119 - n % 64) % 64 + 9)) / 64 := by
    omega
  rw [total] at second
  exact second

/-! ### Exactly when -/

theorem sha1Init_fedBlocks (h : DeuHash) : (sha1Init h).1.FedBlocks 0 := ⟨rfl, rfl, [], rfl, rfl⟩

theorem sha1Init_count (h : DeuHash) : (sha1Init h).2.count = 0 := rfl

theorem sha1Init_place (h : DeuHash) : (sha1Init h).2.count / 8 % 64 = 0 % 64 := by rw [sha1Init_count]

theorem sha1Pad_length (message : List U8) :
    (sha1Pad message).length = message.length + ((119 - message.length % 64) % 64 + 9) := by
  simp [sha1Pad, bytes64, Nat.add_assoc]

theorem sha1Pad_whole (message : List U8) : 64 ∣ (sha1Pad message).length := by
  rw [sha1Pad_length]
  omega

theorem session_endsInWord (h : DeuHash) (short : ∀ data ∈ chunks, data.length < 2 ^ 32)
    (fed : (sha1Session h chunks).fed = some (blocks 64 (sha1Pad chunks.flatten))) : EndsInWord 0 chunks := by
  obtain ⟨place, k, some, most, all⟩ := sha1Chunks_fedBlocks (sha1Init_fedBlocks h) (sha1Init_place h) short
  obtain ⟨-, -, bs, fed', size⟩ := sha1FinalFeed_fedBlocks some place
  have same : bs = blocks 64 (sha1Pad chunks.flatten) := Option.some.inj (fed'.symm.trans fed)
  rw [same, blocks_eq_takeBlocks, takeBlocks_length, sha1Pad_length] at size
  apply all
  omega

theorem bytes64_injective {m n : Nat} (same : bytes64 m = bytes64 n) : m % 2 ^ 64 = n % 2 ^ 64 := by
  have eight : ∀ k, bytes64 k = [56, 48, 40, 32, 24, 16, 8, 0].map fun i => BitVec.ofNat 8 (k / 2 ^ i) := by
    intro k
    simp [bytes64, List.range_succ, Nat.shiftRight_eq_div_pow]
  have digit {p : Nat} (low : m % p = n % p) (byte : BitVec.ofNat 8 (m / p) = BitVec.ofNat 8 (n / p)) :
      m % (p * 256) = n % (p * 256) := by
    have equal : m / p % 256 = n / p % 256 := congrArg BitVec.toNat byte
    rw [Nat.mod_mul, Nat.mod_mul, low, equal]
  rw [eight, eight] at same
  simp only [List.map_cons, List.map_nil, List.cons_eq_cons, and_true] at same
  obtain ⟨b7, b6, b5, b4, b3, b2, b1, b0⟩ := same
  have d1 : m % 2 ^ 8 = n % 2 ^ 8 := digit (Nat.mod_one m |>.trans (Nat.mod_one n).symm) b0
  have d2 : m % 2 ^ 16 = n % 2 ^ 16 := digit d1 b1
  have d3 : m % 2 ^ 24 = n % 2 ^ 24 := digit d2 b2
  have d4 : m % 2 ^ 32 = n % 2 ^ 32 := digit d3 b3
  have d5 : m % 2 ^ 40 = n % 2 ^ 40 := digit d4 b4
  have d6 : m % 2 ^ 48 = n % 2 ^ 48 := digit d5 b5
  have d7 : m % 2 ^ 56 = n % 2 ^ 56 := digit d6 b6
  exact digit d7 b7

theorem sha1Session_fed_iff (h : DeuHash) (short : ∀ data ∈ chunks, data.length < 2 ^ 32) :
    (sha1Session h chunks).fed = some (blocks 64 (sha1Pad chunks.flatten)) ↔
      EndsInWord 0 chunks ∧ carriesLost chunks % 2 ^ 32 = 0 := by
  have counted := sha1Chunks_count (sha1Init h) chunks
  rw [sha1Init_count, Nat.zero_add] at counted
  have below : (sha1Chunks (sha1Init h) chunks).2.count < 2 ^ 64 := by
    cases chunks using List.reverseRecOn with
    | nil => exact Nat.two_pow_pos 64
    | append_singleton before data =>
      rw [sha1Chunks, List.foldl_append, List.foldl_cons, List.foldl_nil, sha1Update_count]
      exact Nat.mod_lt _ (by omega)
  -- what is fed if every chunk ends in a word: the padded message, but for the length that was counted
  have ended : EndsInWord 0 chunks → (sha1Session h chunks).fed =
      some (blocks 64 (chunks.flatten ++ (0x80#8 :: List.replicate ((119 - chunks.flatten.length % 64) % 64) 0) ++
        bytes64 (sha1Chunks (sha1Init h) chunks).2.count)) := by
    intro ends
    obtain ⟨running, buffers, fed⟩ := sha1Chunks_fed (sha1Init_running h) zero_holds.buffers rfl ends
    exact (sha1FinalFeed_fed running buffers fed).2
  constructor
  · intro fed
    have ends := session_endsInWord h short fed
    refine ⟨ends, ?_⟩
    rw [ended ends] at fed
    have lists := eq_of_blocks_eq (by omega) ?_ (sha1Pad_whole chunks.flatten) (Option.some.inj fed)
    · have tails := List.append_cancel_left lists
      have bits := bytes64_injective tails
      omega
    · have size := sha1Pad_whole chunks.flatten
      simpa [sha1Pad, bytes64] using size
  · rintro ⟨ends, lost⟩
    have bits : (sha1Chunks (sha1Init h) chunks).2.count = 8 * chunks.flatten.length % 2 ^ 64 := by omega
    rw [ended ends, bits, sha1Pad]

/-- The case of chunks that are short enough for the bits of each to be counted in a word. -/
theorem small_chunks_fed (h : DeuHash) (small : ∀ data ∈ chunks, data.length < 2 ^ 29) :
    (sha1Session h chunks).fed = some (blocks 64 (sha1Pad chunks.flatten)) := by
  have short : ∀ data ∈ chunks, data.length < 2 ^ 32 := fun data among => (small data among).trans (by omega)
  apply (sha1Session_fed_iff h short).mpr
  rw [small_carriesLost small]
  exact ⟨small_endsInWord small 0, rfl⟩

/-- MD5 is fed the padded message however it is split. SHA-1 is exactly where no chunk wraps the word that ends
it and the carries lost in counting bits cancel, as they do where every chunk is shorter than 2^29 bytes. -/
theorem fed_blocks_iff (h : DeuHash) (mctx : Md5Ctx) (chunks : List (List U8)) (full : mctx.block.length = 64)
    (short : ∀ data ∈ chunks, data.length < 2 ^ 32) :
    (md5Session h mctx chunks).fed = some (blocks 64 (md5Pad chunks.flatten)) ∧
      ((sha1Session h chunks).fed = some (blocks 64 (sha1Pad chunks.flatten)) ↔
        EndsInWord 0 chunks ∧ carriesLost chunks % 2 ^ 32 = 0) :=
  ⟨md5Session_fed h full chunks, sha1Session_fed_iff h short⟩

/-- An empty chunk, one that ends inside a block, and one of several blocks. -/
theorem fed_blocks_three_chunks :
    (md5Session stopped .zero [[], List.replicate 55 0x61#8, List.replicate 200 0x62#8]).fed =
        some (blocks 64 (md5Pad [[], List.replicate 55 0x61#8, List.replicate 200 0x62#8].flatten)) ∧
      ((sha1Session stopped [[], List.replicate 55 0x61#8, List.replicate 200 0x62#8]).fed =
          some (blocks 64 (sha1Pad [[], List.replicate 55 0x61#8, List.replicate 200 0x62#8].flatten)) ↔
        EndsInWord 0 [[], List.replicate 55 0x61#8, List.replicate 200 0x62#8] ∧
          carriesLost [[], List.replicate 55 0x61#8, List.replicate 200 0x62#8] % 2 ^ 32 = 0) :=
  fed_blocks_iff stopped .zero _ rfl
    (by simp only [List.forall_mem_cons, List.length_replicate, List.length_nil]; simp)

/-- `2 ^ 29` zero bytes, whose length in bits is a multiple of `2 ^ 32`. -/
def longChunk : List U8 := List.replicate (2 ^ 29) 0

theorem longChunk_length : longChunk.length = 2 ^ 29 := List.length_replicate

/-- In one chunk they leave a last block that says zero. -/
theorem fed_blocks_long_chunk :
    (sha1Session stopped [longChunk]).fed ≠ some (blocks 64 (sha1Pad [longChunk].flatten)) := by
  intro fed
  have short : ∀ data ∈ [longChunk], data.length < 2 ^ 32 := by
    rw [List.forall_mem_singleton, longChunk_length]
    omega
  obtain ⟨-, lost⟩ := (sha1Session_fed_iff stopped short).mp fed
  rw [carriesLost, List.map_singleton, List.sum_singleton, longChunk_length] at lost
  omega

end TwinpassGateway.Crypto
