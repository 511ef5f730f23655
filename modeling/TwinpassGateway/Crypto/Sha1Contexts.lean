import TwinpassGateway.Crypto.Sha1

/-!
When the contexts that share the hash engine keep out of each other's way.
-/

namespace TwinpassGateway.Crypto

open Foundation

variable {h : DeuHash} {sctx : Sha1HwCtx} {message data : List U8} {bs : List (List U8)}

/-! ### One context -/

/-- What a context says about the data it was passed: its length, and the bytes behind the last block. -/
structure Sha1HwCtx.Holds (sctx : Sha1HwCtx) (message : List U8) : Prop where
  count : sctx.count = 8 * message.length % 2 ^ 64
  full : sctx.buffer.length = 64
  tail : sctx.buffer.take (message.length % 64) = remainder 64 message

theorem zero_holds : Sha1HwCtx.zero.Holds [] := ⟨rfl, rfl, rfl⟩

theorem sha1Transform_take (h : DeuHash) (block : List U8) :
    sha1Transform h (block.take 64) = sha1Transform h block := by
  simp [sha1Transform, List.take_take]

/-- The loop starts behind the `64 - j` bytes that complete the context's block, and `j + len` does not wrap. -/
theorem transformLoop_blocks {j : Nat} (fits : j + data.length < 2 ^ 32) (turns i : Nat)
    (aligned : (i + j) % 64 = 0) (within : i ≤ data.length) (enough : data.length ≤ i + turns) :
    (transformLoop data turns h i).1 = (blocks 64 (data.drop i)).foldl sha1Transform h ∧
      data.drop (transformLoop data turns h i).2 = remainder 64 (data.drop i) := by
  have stop : (data.drop i).length < 64 → (h, i).1 = (blocks 64 (data.drop i)).foldl sha1Transform h ∧
      data.drop (h, i).2 = remainder 64 (data.drop i) := by
    intro short
    obtain ⟨noBlocks, all⟩ := blocks_short short
    rw [noBlocks, all]
    exact ⟨rfl, rfl⟩
  induction turns generalizing h i with
  | zero => exact stop (by rw [List.length_drop]; omega)
  | succ turns ih =>
    rw [transformLoop, u32_eq (by omega)]
    split
    · have long : 64 ≤ (data.drop i).length := by rw [List.length_drop]; omega
      obtain ⟨first, rest⟩ := blocks_long (by omega) long
      rw [first, rest, List.drop_drop, List.foldl_cons, sha1Transform_take]
      refine ih _ (by omega) (by omega) (by omega) fun short => ?_
      obtain ⟨noBlocks, all⟩ := blocks_short short
      rw [noBlocks, all]
      exact ⟨rfl, rfl⟩
    · exact stop (by rw [List.length_drop]; omega)

theorem memcpyTo_length {buffer src : List U8} {off : Nat} (room : off + src.length ≤ buffer.length) :
    (memcpyTo buffer off src).length = buffer.length := by
  simp only [memcpyTo, List.length_append, List.length_take, List.length_drop]
  omega

theorem memcpyTo_prefix {buffer src : List U8} {off : Nat} (room : off ≤ buffer.length) :
    (memcpyTo buffer off src).take (off + src.length) = buffer.take off ++ src := by
  have size : (buffer.take off ++ src).length = off + src.length := by simp [room]
  rw [memcpyTo, ← size, List.take_left]

theorem memcpyTo_start {buffer src : List U8} : (memcpyTo buffer 0 src).take src.length = src := by
  have copied : (memcpyTo buffer 0 src).take (0 + src.length) = buffer.take 0 ++ src :=
    memcpyTo_prefix (Nat.zero_le _)
  simpa using copied

theorem memcpyTo_full {buffer src : List U8} {off : Nat} (full : off + src.length = buffer.length) :
    memcpyTo buffer off src = buffer.take off ++ src := by
  rw [memcpyTo, List.drop_eq_nil_of_le (Nat.le_of_eq full.symm), List.append_nil]

/-- The part of `Holds` that placing the next chunk needs: not the whole length, only where it ends in a block. -/
structure Sha1HwCtx.Buffers (sctx : Sha1HwCtx) (message : List U8) : Prop where
  place : sctx.count / 8 % 64 = message.length % 64
  full : sctx.buffer.length = 64
  tail : sctx.buffer.take (message.length % 64) = remainder 64 message

theorem Sha1HwCtx.Holds.buffers (holds : sctx.Holds message) : sctx.Buffers message := by
  obtain ⟨count, full, tail⟩ := holds
  refine ⟨?_, full, tail⟩
  rw [count]
  omega

theorem sha1Update_count (h : DeuHash) (sctx : Sha1HwCtx) (data : List U8) :
    (sha1Update h sctx data).2.count = (sctx.count + u32 (data.length * 8)) % 2 ^ 64 := by
  rw [sha1Update]
  split <;> rfl

theorem buffers_of_tail {count : Nat} {buffer tail : List U8} (place : count / 8 % 64 = message.length % 64)
    (full : buffer.length = 64) (left : remainder 64 message = tail) (copied : buffer.take tail.length = tail) :
    Sha1HwCtx.Buffers { count, buffer } message := by
  refine ⟨place, full, ?_⟩
  rw [← remainder_length, left]
  exact copied

/-- A chunk feeds the engine with the blocks it completes, and the context keeps what is left over. -/
theorem sha1Update_buffers (buffers : sctx.Buffers message) (fits : message.length % 64 + data.length < 2 ^ 32) :
    (sha1Update h sctx data).1 = (blocks 64 (remainder 64 message ++ data)).foldl sha1Transform h ∧
      (sha1Update h sctx data).2.Buffers (message ++ data) := by
  obtain ⟨place, full, tail⟩ := buffers
  have total : (sctx.count + u32 (data.length * 8)) % 2 ^ 64 / 8 % 64 = (message ++ data).length % 64 := by
    rw [List.length_append, u32]
    omega
  have behind := remainder_length 64 message
  have below : message.length % 64 < 64 := Nat.mod_lt _ (by omega)
  have kept : remainder 64 (message ++ data) = remainder 64 (remainder 64 message ++ data) :=
    (blocks_append (by omega)).2
  simp only [sha1Update, place]
  generalize message.length % 64 = j at *
  rw [u32_eq fits]
  split
  · -- the chunk completes the context's block, and the loop takes whole blocks from the chunk itself
    have filled : (data.take (64 - j)).length = 64 - j := by rw [List.length_take]; omega
    have long : 64 ≤ (remainder 64 message ++ data).length := by rw [List.length_append]; omega
    obtain ⟨first, rest⟩ := blocks_long (by omega) long
    have head : (remainder 64 message ++ data).take 64 = memcpyTo sctx.buffer j (data.take (64 - j)) := by
      rw [memcpyTo_full (by omega), tail, List.take_append, List.take_of_length_le (by omega), behind]
    have past : (remainder 64 message ++ data).drop 64 = data.drop (64 - j) := by
      rw [List.drop_append, List.drop_eq_nil_of_le (by omega), behind, List.nil_append]
    have block : (memcpyTo sctx.buffer j (data.take (64 - j))).length = 64 := by
      rw [memcpyTo_length (by omega), full]
    obtain ⟨fed, left⟩ := transformLoop_blocks fits data.length (64 - j)
      (h := sha1Transform h (memcpyTo sctx.buffer j (data.take (64 - j)))) (by omega) (by omega) (by omega)
    rw [first, head, past, List.foldl_cons]
    refine ⟨fed, buffers_of_tail total ?_ (kept.trans (rest.trans (past ▸ left.symm))) ?_⟩
    · have short : (remainder 64 (data.drop (64 - j))).length < 64 := by
        rw [remainder_length]
        exact Nat.mod_lt _ (by omega)
      rw [left, memcpyTo_length (by omega), block]
    · exact memcpyTo_start
  · -- the chunk only fills the context's buffer further
    have short : (remainder 64 message ++ data).length < 64 := by rw [List.length_append]; omega
    obtain ⟨noBlocks, all⟩ := blocks_short short
    rw [noBlocks]
    refine ⟨rfl, buffers_of_tail total ?_ (kept.trans all) ?_⟩
    · rw [memcpyTo_length (by omega), full]
    · rw [List.length_append, behind, memcpyTo_prefix (by omega), tail]

theorem small_fits (message : List U8) (small : data.length < 2 ^ 29) :
    message.length % 64 + data.length < 2 ^ 32 := by
  have below : message.length % 64 < 64 := Nat.mod_lt _ (by omega)
  omega

/-- The length in bits is kept too where it is a `u32`. -/
theorem sha1Update_holds (holds : sctx.Holds message) (small : data.length < 2 ^ 29) :
    (sha1Update h sctx data).1 = (blocks 64 (remainder 64 message ++ data)).foldl sha1Transform h ∧
      (sha1Update h sctx data).2.Holds (message ++ data) := by
  obtain ⟨fed, -, full, tail⟩ := sha1Update_buffers (h := h) holds.buffers (small_fits message small)
  refine ⟨fed, ?_, full, tail⟩
  rw [sha1Update_count, holds.count, u32_eq (by omega), List.length_append]
  omega

/-! ### The engine -/

/-- A started engine that was fed since its initialisation holds the state SHA-1 has after those blocks. -/
def DeuHash.Running (h : DeuHash) : Prop :=
  ∀ bs, h.fed = some bs → h.sm = true ∧ h.algo = false ∧ h.digest = bs.foldl compress sha1Iv

theorem sha1Transform_running {block : List U8} (running : h.Running) : (sha1Transform h block).Running := by
  intro bs fed
  rw [sha1Transform] at fed ⊢
  split at fed
  · obtain ⟨bs', before, rfl⟩ := Option.map_eq_some_iff.mp fed
    obtain ⟨mode, algo, digest⟩ := running bs' before
    simp [mode, algo, digest]
  · rename_i stopped
    rw [if_neg stopped]
    exact running bs fed

theorem transforms_running (running : h.Running) (bs : List (List U8)) : (bs.foldl sha1Transform h).Running := by
  induction bs generalizing h with
  | nil => exact running
  | cons block rest ih => exact ih (sha1Transform_running running)

theorem transforms_fed {before : List (List U8)} (running : h.Running) (fed : h.fed = some before)
    (whole : ∀ block ∈ bs, block.take 64 = block) : (bs.foldl sha1Transform h).fed = some (before ++ bs) := by
  induction bs generalizing h before with
  | nil => simpa using fed
  | cons block rest ih =>
    obtain ⟨mode, algo, -⟩ := running before fed
    have next : (sha1Transform h block).fed = some (before ++ [block]) := by
      simp [sha1Transform, mode, algo, fed, whole block List.mem_cons_self]
    rw [List.foldl_cons, ih (sha1Transform_running running) next fun b member => whole b (List.mem_cons_of_mem _ member),
      List.append_assoc, List.singleton_append]

theorem sha1Init_running (h : DeuHash) : (sha1Init h).1.Running := by
  rintro bs ⟨⟩
  exact ⟨rfl, rfl, rfl⟩

theorem sha1Update_adds {before : List (List U8)} (running : h.Running) (buffers : sctx.Buffers message)
    (fits : message.length % 64 + data.length < 2 ^ 32) (fed : h.fed = some before) :
    (sha1Update h sctx data).1.fed = some (before ++ blocks 64 (remainder 64 message ++ data)) := by
  have whole : ∀ block ∈ blocks 64 (remainder 64 message ++ data), block.take 64 = block :=
    fun _ member => take_of_mem_takeBlocks member
  rw [(sha1Update_buffers buffers fits).1, transforms_fed running fed whole]

theorem sha1Update_feeds (running : h.Running) (buffers : sctx.Buffers message)
    (fits : message.length % 64 + data.length < 2 ^ 32) (fed : h.fed = some (blocks 64 message)) :
    (sha1Update h sctx data).1.fed = some (blocks 64 (message ++ data)) := by
  have cut : blocks 64 (message ++ data) = blocks 64 message ++ blocks 64 (remainder 64 message ++ data) :=
    (blocks_append (by omega)).1
  rw [sha1Update_adds running buffers fits fed, cut]

theorem sha1Update_runs (running : h.Running) (buffers : sctx.Buffers message)
    (fits : message.length % 64 + data.length < 2 ^ 32) : (sha1Update h sctx data).1.Running := by
  rw [(sha1Update_buffers buffers fits).1]
  exact transforms_running running _

theorem sha1Update_running (running : h.Running) (holds : sctx.Holds message) (small : data.length < 2 ^ 29) :
    (sha1Update h sctx data).1.Running :=
  sha1Update_runs running holds.buffers (small_fits message small)

theorem sha1Update_fed (running : h.Running) (holds : sctx.Holds message) (small : data.length < 2 ^ 29)
    (fed : h.fed = some (blocks 64 message)) : (sha1Update h sctx data).1.fed = some (blocks 64 (message ++ data)) :=
  sha1Update_feeds running holds.buffers (small_fits message small) fed

/-! ### The digest -/

theorem padding_take {n : Nat} (some : 0 < n) (short : n ≤ 64) :
    padding.take n = 0x80#8 :: List.replicate (n - 1) 0 := by
  obtain ⟨k, rfl⟩ := Nat.exists_eq_succ_of_ne_zero (Nat.ne_of_gt some)
  rw [padding, List.take_succ_cons, List.take_replicate]
  congr 2
  omega

def sha1FinalFeed (h : DeuHash) (sctx : Sha1HwCtx) : DeuHash :=
  let index := (sctx.count / 8) % 64
  let padlen := if index < 56 then 56 - index else (64 + 56) - index
  let (h, later) := sha1Update h sctx (padding.take padlen)
  (sha1Update h later (bytes64 sctx.count)).1

theorem sha1Final_eq (h : DeuHash) (sctx : Sha1HwCtx) :
    sha1Final h sctx =
      ((sha1FinalFeed h sctx).digest.bytes, { sha1FinalFeed h sctx with sm := false, fed := none }, .zero) := rfl

/-- The last blocks say the length that the context has counted. -/
theorem sha1FinalFeed_fed (running : h.Running) (buffers : sctx.Buffers message)
    (fed : h.fed = some (blocks 64 message)) :
    (sha1FinalFeed h sctx).Running ∧ (sha1FinalFeed h sctx).fed =
      some (blocks 64 (message ++ (0x80#8 :: List.replicate ((119 - message.length % 64) % 64) 0) ++
        bytes64 sctx.count)) := by
  have below : message.length % 64 < 64 := Nat.mod_lt _ (by omega)
  simp only [sha1FinalFeed, buffers.place]
  generalize padded : padding.take (if message.length % 64 < 56 then 56 - message.length % 64
    else 64 + 56 - message.length % 64) = pad
  have zeros : pad = 0x80#8 :: List.replicate ((119 - message.length % 64) % 64) 0 := by
    rw [← padded, padding_take (by split <;> omega) (by split <;> omega)]
    congr 2
    split <;> omega
  have small : pad.length < 2 ^ 29 := by
    rw [zeros, List.length_cons, List.length_replicate]
    omega
  have bits : (bytes64 sctx.count).length < 2 ^ 29 := by simp [bytes64]
  have buffers' := (sha1Update_buffers (h := h) buffers (small_fits message small)).2
  have running' := sha1Update_runs running buffers (small_fits message small)
  have fed' := sha1Update_feeds running buffers (small_fits message small) fed
  rw [← zeros]
  exact ⟨sha1Update_runs running' buffers' (small_fits _ bits),
    sha1Update_feeds running' buffers' (small_fits _ bits) fed'⟩

theorem sha1Final_digest (running : h.Running) (holds : sctx.Holds message)
    (fed : h.fed = some (blocks 64 message)) : (sha1Final h sctx).1 = sha1 message := by
  obtain ⟨running', fed'⟩ := sha1FinalFeed_fed running holds.buffers fed
  obtain ⟨-, -, digest⟩ := running' _ fed'
  rw [sha1Final_eq]
  show (sha1FinalFeed h sctx).digest.bytes = _
  rw [digest, holds.count, sha1, sha1Pad]

/-! ### All contexts -/

/-- What every undisturbed call keeps: the engine has the last blocks of a context whose calls alone have fed it. -/
structure Sha1Deu.Ready (s : Sha1Deu) (u : Sha1Use) : Prop where
  running : ∀ feeders, u.feeders = some feeders → s.hash.Running
  fed : ∀ feeders, u.feeders = some feeders → ∃ bs, s.hash.fed = some bs ∧ bs.length = feeders.length ∧
    ∀ c, (∀ feeder ∈ feeders, feeder = c) → bs <:+ blocks 64 (s.message c)
  length : ∀ c, u.length c = (s.message c).length
  holds : ∀ c, (s.ctx c).Holds (s.message c)
  digests : ∀ p ∈ s.digests, p.2 = sha1 p.1

theorem holds_update {ctx : Nat → Sha1HwCtx} {messages : Nat → List U8} (others : ∀ c, (ctx c).Holds (messages c))
    (c : Nat) (holds : sctx.Holds message) (c' : Nat) :
    (Function.update ctx c sctx c').Holds (Function.update messages c message c') := by
  by_cases same : c' = c
  · subst same
    rwa [Function.update_self, Function.update_self]
  · rw [Function.update_of_ne same, Function.update_of_ne same]
    exact others c'

theorem length_update {lengths : Nat → Nat} {messages : Nat → List U8} (others : ∀ c, lengths c = (messages c).length)
    (c : Nat) (message : List U8) (c' : Nat) :
    Function.update lengths c message.length c' = (Function.update messages c message c').length := by
  by_cases same : c' = c
  · subst same
    rw [Function.update_self, Function.update_self]
  · rw [Function.update_of_ne same, Function.update_of_ne same]
    exact others c'

theorem blocks_length (n : Nat) (xs : List U8) : (blocks n xs).length = xs.length / n := by
  rw [blocks_eq_takeBlocks, takeBlocks_length]

theorem suffix_longer {feeders : List Nat} {messages : Nat → List U8} {c : Nat}
    (fed : ∀ c', (∀ feeder ∈ feeders, feeder = c') → bs <:+ blocks 64 (messages c')) (data : List U8) (c' : Nat)
    (alone : ∀ feeder ∈ feeders ++ List.replicate ((remainder 64 (messages c) ++ data).length / 64) c, feeder = c') :
    bs ++ blocks 64 (remainder 64 (messages c) ++ data) <:+
      blocks 64 (Function.update messages c (messages c ++ data) c') := by
  obtain ⟨earlier, whole⟩ := fed c' fun feeder member => alone feeder (List.mem_append_left _ member)
  by_cases same : c' = c
  · subst same
    have longer : blocks 64 (messages c' ++ data) =
        blocks 64 (messages c') ++ blocks 64 (remainder 64 (messages c') ++ data) := (blocks_append (by omega)).1
    rw [Function.update_self, longer, ← whole]
    exact ⟨earlier, (List.append_assoc _ _ _).symm⟩
  · -- another context may only have filled its own buffer
    have none : blocks 64 (remainder 64 (messages c) ++ data) = [] := by
      rw [← List.length_eq_zero_iff, blocks_length]
      by_contra some
      have member : c ∈ List.replicate ((remainder 64 (messages c) ++ data).length / 64) c :=
        List.mem_replicate.mpr ⟨some, rfl⟩
      exact same (alone c (List.mem_append_right _ member)).symm
    rw [none, List.append_nil, Function.update_of_ne same, ← whole]
    exact List.suffix_append earlier bs

theorem ready_update {s : Sha1Deu} {u : Sha1Use} (ready : s.Ready u) (c : Nat) (small : data.length < 2 ^ 29) :
    (s.step (.update c data)).Ready (u.step (.update c data)) := by
  obtain ⟨running, fed, length, holds, digests⟩ := ready
  have fits := small_fits (s.message c) small
  have count : (u.length c % 64 + data.length) / 64 = (remainder 64 (s.message c) ++ data).length / 64 := by
    rw [List.length_append, remainder_length, length c]
  constructor
  · intro feeders known
    obtain ⟨before, earlier, rfl⟩ := Option.map_eq_some_iff.mp known
    exact sha1Update_running (running before earlier) (holds c) small
  · intro feeders known
    obtain ⟨before, earlier, rfl⟩ := Option.map_eq_some_iff.mp known
    obtain ⟨bs, now, size, alone⟩ := fed before earlier
    refine ⟨_, sha1Update_adds (running before earlier) (holds c).buffers fits now, ?_, ?_⟩
    · rw [List.length_append, List.length_append, List.length_replicate, blocks_length, size, count]
    · rw [count]
      exact suffix_longer alone data
  · have longer := length_update length c (s.message c ++ data)
    rwa [List.length_append, ← length c] at longer
  · exact holds_update holds c (sha1Update_holds (holds c) small).2
  · exact digests

theorem ready_final {s : Sha1Deu} {u : Sha1Use} (ready : s.Ready u) (c : Nat)
    (alone : u.feeders = some (List.replicate (u.length c / 64) c)) :
    (s.step (.final c)).Ready (u.step (.final c)) := by
  obtain ⟨running, fed, length, holds, digests⟩ := ready
  obtain ⟨bs, now, size, own⟩ := fed _ alone
  have whole : bs = blocks 64 (s.message c) := by
    apply (own c fun feeder member => List.eq_of_mem_replicate member).eq_of_length
    rw [size, List.length_replicate, blocks_length, length c]
  constructor
  · intro feeders none
    cases none
  · intro feeders none
    cases none
  · exact length_update length c []
  · exact holds_update holds c zero_holds
  · intro p member
    rcases List.mem_append.mp member with before | last
    · exact digests p before
    · rw [List.mem_singleton.mp last]
      exact sha1Final_digest (running _ alone) (holds c) (whole ▸ now)

theorem step_ready {s : Sha1Deu} {u : Sha1Use} (call : Sha1Call) (ready : s.Ready u) (undisturbed : u.Undisturbed call) :
    (s.step call).Ready (u.step call) := by
  cases call with
  | init c =>
    constructor
    · exact fun _ _ => sha1Init_running s.hash
    · intro feeders known
      cases known
      exact ⟨[], rfl, rfl, fun c' _ => List.nil_suffix⟩
    · exact length_update ready.length c []
    · exact holds_update ready.holds c zero_holds
    · exact ready.digests
  | update c data => exact ready_update ready c undisturbed
  | final c => exact ready_final ready c undisturbed

theorem unused_ready (hash : DeuHash) : Sha1Deu.Ready { hash } {} := by
  constructor
  · intro feeders none
    cases none
  · intro feeders none
    cases none
  · exact fun _ => rfl
  · exact fun _ => zero_holds
  · exact fun p none => absurd none List.not_mem_nil

/-- In every run of calls in which each `sha1_final` comes before any other context has reset, stopped or fed the
engine, and no chunk is longer than its length in bits can say, every digest is the SHA-1 of the data passed to its
context. -/
theorem undisturbed_digests (hash : DeuHash) {calls : List Sha1Call}
    (undisturbed : Guarded Sha1Use.step Sha1Use.Undisturbed {} calls) :
    ∀ p ∈ (exec Sha1Deu.step { hash } calls).digests, p.2 = sha1 p.1 :=
  (guarded_simulation (fun _ _ call ready allowed => step_ready call ready allowed) (unused_ready hash) undisturbed).digests

def stopped : DeuHash := { sm := false, algo := false, digest := sha1Iv }

/-- Two contexts that are both open: the first one is used further while the second one is filling its buffer. -/
theorem undisturbed_digests_two_contexts :
    List.Forall (fun p => p.2 = sha1 p.1) (exec Sha1Deu.step { hash := stopped }
      [.init 1, .init 0, .update 0 (List.replicate 60 0x61#8), .update 1 [0x62#8], .update 0 (List.replicate 10 0x63#8),
        .update 1 [0x64#8], .final 0, .init 1, .update 1 (List.replicate 70 0x62#8), .final 1]).digests :=
  List.forall_iff_forall_mem.mpr (undisturbed_digests stopped (by decide +kernel))

/-- The initialisation of a second context throws away the block that the first one has fed. -/
theorem init_disturbs :
    ∃ p ∈ (exec Sha1Deu.step { hash := stopped }
      [.init 0, .update 0 (List.replicate 64 0), .init 1, .final 0]).digests, p.2 ≠ sha1 p.1 := by
  decide +kernel

/-! ### One context at a time -/

def session (c : Nat) (chunks : List (List U8)) : List Sha1Call :=
  .init c :: chunks.map (.update c) ++ [.final c]

theorem updates_undisturbed {u : Sha1Use} {c : Nat} {chunks : List (List U8)}
    (small : ∀ data ∈ chunks, data.length < 2 ^ 29) (alone : u.feeders = some (List.replicate (u.length c / 64) c)) :
    Guarded Sha1Use.step Sha1Use.Undisturbed u (chunks.map (.update c) ++ [.final c]) := by
  induction chunks generalizing u with
  | nil => exact ⟨alone, trivial⟩
  | cons data rest ih =>
    refine ⟨small data List.mem_cons_self, ih (fun d member => small d (List.mem_cons_of_mem _ member)) ?_⟩
    show u.feeders.map _ = some (List.replicate (Function.update u.length c _ c / 64) c)
    rw [alone, Option.map_some, List.replicate_append_replicate, Function.update_self]
    congr 2
    omega

/-- Contexts that are used one behind the other do not disturb each other. -/
theorem sessions_undisturbed {u : Sha1Use} {sessions : List (Nat × List (List U8))}
    (small : ∀ p ∈ sessions, ∀ data ∈ p.2, data.length < 2 ^ 29) :
    Guarded Sha1Use.step Sha1Use.Undisturbed u (sessions.flatMap fun p => session p.1 p.2) := by
  induction sessions generalizing u with
  | nil => trivial
  | cons p rest ih =>
    rw [List.flatMap_cons, guarded_append]
    have started : (u.step (.init p.1)).feeders =
        some (List.replicate ((u.step (.init p.1)).length p.1 / 64) p.1) := by
      show some [] = some (List.replicate (Function.update u.length p.1 0 p.1 / 64) p.1)
      rw [Function.update_self]
      rfl
    exact ⟨⟨trivial, updates_undisturbed (small p List.mem_cons_self) started⟩,
      ih fun q member => small q (List.mem_cons_of_mem _ member)⟩

end TwinpassGateway.Crypto
