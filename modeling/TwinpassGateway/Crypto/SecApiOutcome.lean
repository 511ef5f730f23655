import TwinpassGateway.Crypto.SecApi

/-!
What a cipher call of `sec_api.c` leaves in the caller's buffer.
-/

namespace TwinpassGateway.Crypto

open Foundation

variable {rev14 : Bool}

/-! ### Words and blocks -/

theorem word_take {p : List U8} {n i : Nat} (within : 4 * i + 4 ≤ n) : word (p.take n) i = word p i := by
  have same : ∀ k, k < 4 → ((p.take n).drop (4 * i)).getD k 0 = (p.drop (4 * i)).getD k 0 := by
    intro k below
    simp only [List.getD_eq_getElem?_getD, List.getElem?_drop, List.getElem?_take]
    rw [if_pos (by omega)]
  rw [word, word, be32, be32, same 0 (by omega), same 1 (by omega), same 2 (by omega), same 3 (by omega)]

theorem word_drop (p : List U8) (n i : Nat) : word (p.drop (4 * n)) i = word p (n + i) := by
  rw [word, word, List.drop_drop, Nat.mul_add]

theorem flatMap_length {β : Type*} (bytes : β → List U8) {n : Nat} (size : ∀ x, (bytes x).length = n) (xs : List β) :
    (xs.flatMap bytes).length = n * xs.length := by
  induction xs with
  | nil => rfl
  | cons x rest ih => rw [List.flatMap_cons, List.length_append, size, ih, List.length_cons, Nat.mul_succ, Nat.add_comm]

theorem range_getD {n : Nat} {stored : List U8} (stack : Nat → U8) (full : stored.length = n) :
    (List.range n).map (fun k => stored.getD k (stack k)) = stored := by
  subst full
  apply List.ext_getElem?
  intro k
  rw [List.getElem?_map]
  by_cases below : k < stored.length
  · rw [List.getElem?_range below]
    simp [below]
  · rw [List.getElem?_eq_none (by simpa using below), List.getElem?_eq_none (by omega), Option.map_none]

/-! ### DES -/

variable {crypt : DesCrypt} {E D : BitVec 3 → List Pair → Pair → Pair}

theorem des_start (chains : DesChains crypt rev14 E D) {des : DesT} (on : des.sm = true) (auto : des.dau = false)
    (mode : des.o = 1) (data : Pair) :
    { des with input := ⟨endianSwap rev14 data.hr, endianSwap rev14 data.lr⟩ }.start crypt =
      { des with
        input := ⟨endianSwap rev14 data.hr, endianSwap rev14 data.lr⟩
        out := (cbcStep Pair.xor (E des.m des.keys) (D des.m des.keys) des.eD des.iv data).1
        iv := (cbcStep Pair.xor (E des.m des.keys) (D des.m des.keys) des.eD des.iv data).2 } := by
  have computed := chains des.m des.eD des.keys des.iv data
  rw [← computed, ← mode]
  simp only [DesT.start, DesT.keys, on, auto, if_true, Bool.false_eq_true, if_false]

theorem desLoop_stored (chains : DesChains crypt rev14 E D) (des : DesT) (on : des.sm = true) (auto : des.dau = false)
    (mode : des.o = 1) (inArg : List U8) (turns i : Nat) :
    (desLoop crypt rev14 inArg turns i des).1 =
      (cbc Pair.xor (E des.m des.keys) (D des.m des.keys) des.eD des.iv
        ((takeBlocks 8 turns (inArg.drop (4 * i))).map (pairAt · 0))).flatMap Pair.bytes := by
  induction turns generalizing i des with
  | zero => rfl
  | succ turns ih =>
    have data : pairAt ((inArg.drop (4 * i)).take 8) 0 = ⟨word inArg i, word inArg (i + 1)⟩ := by
      rw [pairAt, word_take (by omega), word_take (by omega), word_drop, word_drop, Nat.add_zero]
    have rest : (inArg.drop (4 * i)).drop 8 = inArg.drop (4 * (i + 2)) := by rw [List.drop_drop]; congr 1
    have started := des_start chains on auto mode ⟨word inArg i, word inArg (i + 1)⟩
    unfold desLoop
    dsimp only at started ⊢
    rw [takeBlocks, List.map_cons, data, rest, cbc, List.flatMap_cons, started]
    refine congrArg (List.append _) ?_
    exact ih _ (by exact on) (by exact auto) (by exact mode) (i + 2)

theorem desTwinpass_stored (chains : DesChains crypt rev14 E D) {regs : DesT} (on : regs.sm = true)
    (auto : regs.dau = false) {inBuf : List U8} (aligned : 8 ∣ inBuf.length) (beyond iv : List U8) (encrypt : Int) :
    (desIncaip1Cbc crypt rev14 regs (inBuf ++ beyond) (pairAt iv 0).bytes inBuf.length encrypt).1 =
      desCbc (E regs.m regs.keys) (D regs.m regs.keys) (encrypt == 0) iv inBuf := by
  obtain ⟨k, length⟩ := aligned
  have turns : (inBuf.length / 4 + 1) / 2 = inBuf.length / 8 := by omega
  have vector : pairAt (pairAt iv 0).bytes 0 = pairAt iv 0 := by
    show Pair.mk (be32 (bytes32 (word iv 0))) (be32 (bytes32 (word iv 1))) = _
    rw [be32_bytes32, be32_bytes32]
    rfl
  have looped := desLoop_stored chains { regs with eD := encrypt == 0, o := 1, iv := pairAt iv 0 } on auto rfl
    (inBuf ++ beyond) (inBuf.length / 8) 0
  rw [Nat.mul_zero, List.drop_zero, takeBlocks_append (by omega)] at looped
  rw [desIncaip1Cbc, desIncaip1, if_pos (show 1 < cryptoTfmModeCbc by decide), turns, vector, desCbc, blocks_eq_takeBlocks]
  exact looped

theorem desTwinpass_outcome_iff (chains : DesChains crypt rev14 E D) {s left : Deu DesT} {flags : U32}
    {setKey : Deu DesT → KeySet DesT} (accepts : setKey s = ⟨0, flags, left⟩) (on : left.regs.sm = true)
    (auto : left.regs.dau = false) (inBuf beyond : List U8) (stack : Nat → U8) (iv : List U8) (encrypt : Int) :
    Outcome 8 (desCbc (E left.regs.m left.regs.keys) (D left.regs.m left.regs.keys) (encrypt == 0) iv inBuf) inBuf
        (desTwinpassCbcEncrypt setKey crypt rev14 s inBuf beyond stack iv encrypt).1
        (desTwinpassCbcEncrypt setKey crypt rev14 s inBuf beyond stack iv encrypt).2.1 ↔
      8 ∣ inBuf.length := by
  have rc : (desTwinpassCbcEncrypt setKey crypt rev14 s inBuf beyond stack iv encrypt).1 = inBuf.length := by
    show (if (setKey s).ret ≠ 0 then (-1 : Int) else inBuf.length) = _
    rw [accepts]
    rfl
  rw [Outcome, rc]
  constructor
  · rintro ⟨-, success⟩
    exact (success (by omega)).1
  · intro aligned
    refine ⟨fun failed => by omega, fun _ => ⟨aligned, ?_⟩⟩
    have stored := desTwinpass_stored chains on auto aligned beyond iv encrypt
    have full : (desIncaip1Cbc crypt rev14 left.regs (inBuf ++ beyond) (pairAt iv 0).bytes inBuf.length
        encrypt).1.length = inBuf.length := by
      rw [stored, desCbc, flatMap_length Pair.bytes (n := 8) (fun _ => rfl), cbc_length, List.length_map,
        blocks_eq_takeBlocks, takeBlocks_length]
      omega
    unfold desTwinpassCbcEncrypt
    rw [accepts]
    exact (range_getD stack full).trans stored

theorem bytesAt_length (p : List U8) (n : Nat) : (bytesAt p n).length = n := by simp [bytesAt]

theorem des3EdeSetkey_accepts {key : List U8} (s : Deu DesT) (length : key.length = 24) (flags : U32) :
    des3EdeSetkey s key flags =
      ⟨0, flags, { s with regs := { s.regs with
        m := 4, sm := true, ars := true, k1 := pairAt key 0, k2 := pairAt key 2, k3 := pairAt key 4 } }⟩ := by
  unfold des3EdeSetkey
  simp only [length]
  rfl

theorem des1_outcome_iff (chains : DesChains crypt rev14 E D) {s : Deu DesT} (auto : s.regs.dau = false)
    (keyE inBuf beyond : List U8) (stack : Nat → U8) (iv : List U8) (encrypt : Int) :
    Outcome 8
        (desCbc (E 0 [pairAt (bytesAt keyE 8) 0]) (D 0 [pairAt (bytesAt keyE 8) 0]) (encrypt == 0) iv inBuf) inBuf
        (des1TwinpassCbcEncrypt crypt rev14 s keyE inBuf beyond stack iv encrypt).1
        (des1TwinpassCbcEncrypt crypt rev14 s keyE inBuf beyond stack iv encrypt).2.1 ↔
      8 ∣ inBuf.length := by
  have accepted : DesAccepts (bytesAt keyE 8) 0 := ⟨bytesAt_length keyE 8, Or.inl (by decide)⟩
  have set : desSetkey s (bytesAt keyE 8) 0 = _ := setkey_accepts accepted
  exact desTwinpass_outcome_iff chains set rfl auto inBuf beyond stack iv encrypt

theorem des3_outcome_iff (chains : DesChains crypt rev14 E D) {s : Deu DesT} (auto : s.regs.dau = false)
    (keyE inBuf beyond : List U8) (stack : Nat → U8) (iv : List U8) (encrypt : Int) :
    Outcome 8
        (desCbc (E 4 [pairAt (bytesAt keyE 24) 0, pairAt (bytesAt keyE 24) 2, pairAt (bytesAt keyE 24) 4])
          (D 4 [pairAt (bytesAt keyE 24) 0, pairAt (bytesAt keyE 24) 2, pairAt (bytesAt keyE 24) 4])
          (encrypt == 0) iv inBuf)
        inBuf (des3TwinpassCbcEncrypt crypt rev14 s keyE inBuf beyond stack iv encrypt).1
        (des3TwinpassCbcEncrypt crypt rev14 s keyE inBuf beyond stack iv encrypt).2.1 ↔
      8 ∣ inBuf.length := by
  have set := des3EdeSetkey_accepts s (bytesAt_length keyE 24) 0
  exact desTwinpass_outcome_iff chains set rfl auto inBuf beyond stack iv encrypt

/-! ### AES -/

section Aes

variable {crypt : Crypt} {E D : List U32 → Quad → Quad} {aes : AesT} {encrypt : Int}

/-- The engine answers: encryption does not wait for the prepared key. -/
def Ready (encrypt : Int) (aes : AesT) : Prop := encrypt ≠ 0 ∨ aes.kv = true

instance (encrypt : Int) (aes : AesT) : Decidable (Ready encrypt aes) := instDecidableOr

theorem aes_block (chains : AesChains crypt rev14 E D) (on : aes.sm = true) (auto : aes.dau = false)
    (ready : Ready encrypt aes) (pIn : List U8) (ivArg : Option (List U8)) {v : Quad}
    (vector : (ivArg.map quad).getD aes.iv = v) :
    ∃ next,
      aesIfxdeuCbc crypt rev14 aes pIn ivArg 16 encrypt =
        some ((cbcStep Quad.xor (E (aes.keyFor aes.k)) (D (aes.keyFor aes.k)) (encrypt == 0) v (quad pIn)).1.bytes, next) ∧
      next.iv = (cbcStep Quad.xor (E (aes.keyFor aes.k)) (D (aes.keyFor aes.k)) (encrypt == 0) v (quad pIn)).2 ∧
      next.sm = true ∧ next.dau = false ∧ next.kv = aes.kv ∧ next.keyFor next.k = aes.keyFor aes.k := by
  have computed := chains (encrypt == 0) (aes.keyFor aes.k) v (quad pIn)
  have waits : ¬ (encrypt = 0 ∧ aes.kv = false) := by
    rintro ⟨decrypt, unset⟩
    obtain encrypts | set := ready
    · exact encrypts decrypt
    · exact absurd (unset.symm.trans set) (by decide)
  rw [← computed]
  subst vector
  unfold aesIfxdeuCbc aesIfxdeu aesPrepare
  dsimp only
  rw [if_neg waits]
  cases ivArg with
  | none =>
    rw [if_neg (by simp [auto])]
    simp only [Option.map_some, startLengths, List.mem_cons, true_or, if_true, AesT.input, AesT.start, on, auto]
    exact ⟨_, rfl, rfl, rfl, rfl, rfl, rfl⟩
  | some iv =>
    rw [if_pos (by simp [cryptoTfmModeCbc])]
    simp only [Option.map_some, startLengths, List.mem_cons, true_or, if_true, AesT.input, AesT.start, on, auto]
    exact ⟨_, rfl, rfl, rfl, rfl, rfl, rfl⟩

theorem aesLoop_stored (chains : AesChains crypt rev14 E D) (on : aes.sm = true) (auto : aes.dau = false)
    (iv : List U8) (turns : Nat) (ready : turns ≠ 0 → Ready encrypt aes) (blockNo : Nat) (pIn : List U8) :
    ∃ left, aesLoop crypt rev14 iv encrypt turns blockNo aes pIn =
      some ((cbc Quad.xor (E (aes.keyFor aes.k)) (D (aes.keyFor aes.k)) (encrypt == 0)
        (if blockNo = 0 then quad iv else aes.iv) ((takeBlocks 16 turns pIn).map quad)).flatMap Quad.bytes, left) := by
  induction turns generalizing blockNo aes pIn with
  | zero => exact ⟨aes, rfl⟩
  | succ turns ih =>
    have vector : ((if blockNo ≠ 0 then none else some iv).map quad).getD aes.iv =
        if blockNo = 0 then quad iv else aes.iv := by
      by_cases first : blockNo = 0
      · rw [if_neg (not_not.mpr first), if_pos first]
        rfl
      · rw [if_pos first, if_neg first]
        rfl
    have data : quad (pIn.take 16) = quad pIn := by
      rw [quad, word_take (by omega), word_take (by omega), word_take (by omega), word_take (by omega), quad]
    obtain ⟨next, block, chained, on', auto', kv, key⟩ := aes_block chains on auto (ready (Nat.succ_ne_zero _)) pIn _ vector
    have ready' : Ready encrypt next := by rw [Ready, kv]; exact ready (Nat.succ_ne_zero _)
    obtain ⟨left, rest⟩ := ih on' auto' (fun _ => ready') (blockNo + 1) (pIn.drop 16)
    rw [if_neg (Nat.succ_ne_zero _), chained, key] at rest
    refine ⟨left, ?_⟩
    unfold aesLoop
    rw [block, Option.bind_some]
    dsimp only
    rw [rest, takeBlocks, List.map_cons, data, cbc, List.flatMap_cons]
    rfl

theorem aesLoop_stuck (unready : ¬ Ready encrypt aes) (iv : List U8) (turns : Nat) (pIn : List U8) :
    aesLoop crypt rev14 iv encrypt (turns + 1) 0 aes pIn = none := by
  have waits : encrypt = 0 ∧ aes.kv = false := by
    rw [Ready, not_or, not_not, Bool.not_eq_true] at unready
    exact unready
  unfold aesLoop aesIfxdeuCbc aesIfxdeu aesPrepare
  dsimp only
  rw [if_pos waits]
  rfl

/-- What is copied over the buffer: the transform of the complete blocks, and zeros behind it. -/
def aesImage (E D : List U32 → Quad → Quad) (key : List U32) (encrypt : Int) (iv text : List U8) : List U8 :=
  aesCbc (E key) (D key) (encrypt == 0) iv text ++ List.replicate (text.length % 16) 0

theorem aesCbc_length (E D : Quad → Quad) (decrypt : Bool) (iv text : List U8) :
    (aesCbc E D decrypt iv text).length = 16 * (text.length / 16) := by
  rw [aesCbc, flatMap_length Quad.bytes (n := 16) (fun _ => rfl), cbc_length, List.length_map, blocks_eq_takeBlocks,
    takeBlocks_length]

theorem aesImage_aligned (E D : List U32 → Quad → Quad) (key : List U32) (iv : List U8) {text : List U8}
    (aligned : 16 ∣ text.length) : aesImage E D key encrypt iv text = aesCbc (E key) (D key) (encrypt == 0) iv text := by
  rw [aesImage, Nat.mod_eq_zero_of_dvd aligned, List.replicate_zero, List.append_nil]

theorem aesTwinpass_returns (chains : AesChains crypt rev14 E D) {s after : Deu AesRegs} {ctx : List U8} {ret : Int}
    {flags : U32} (set : aesSetKeyLocked s ctx 0 = ⟨ret, flags, after⟩) (on : after.regs.aes.sm = true)
    (auto : after.regs.aes.dau = false) {inBuf : List U8} (ready : 16 ≤ inBuf.length → Ready encrypt after.regs.aes)
    (iv : List U8) :
    ∃ left, aesTwinpassCbcEncrypt crypt rev14 s ctx inBuf iv encrypt =
      some (if ret ≠ 0 then (-1 : Int) else inBuf.length,
        aesImage E D (after.regs.aes.keyFor after.regs.aes.k) encrypt iv inBuf, left) := by
  obtain ⟨left, looped⟩ := aesLoop_stored chains on auto iv (inBuf.length / 16) (fun some => ready (by omega)) 0 inBuf
  generalize after.regs.aes.keyFor after.regs.aes.k = key at looped ⊢
  have stored : (cbc Quad.xor (E key) (D key) (encrypt == 0) (quad iv)
      ((takeBlocks 16 (inBuf.length / 16) inBuf).map quad)).flatMap Quad.bytes =
        aesCbc (E key) (D key) (encrypt == 0) iv inBuf := rfl
  have tail : inBuf.length - (aesCbc (E key) (D key) (encrypt == 0) iv inBuf).length = inBuf.length % 16 := by
    rw [aesCbc_length]
    omega
  rw [if_pos rfl, stored] at looped
  refine ⟨{ after with regs := { after.regs with aes := left } }, ?_⟩
  unfold aesTwinpassCbcEncrypt
  rw [set]
  dsimp only
  rw [looped, Option.map_some, tail]
  rfl

theorem aesSetKey_control (aes : AesT) {ctx : List U8} (length : ctx.length ∈ [16, 24, 32]) :
    (aesSetKey aes ctx 0).2.2.kv = true ∧ (aesSetKey aes ctx 0).2.2.dau = aes.dau := by
  have right : ¬ (ctx.length ≠ 16 ∧ ctx.length ≠ 24 ∧ ctx.length ≠ 32) := by
    simp at length
    omega
  unfold aesSetKey
  dsimp only
  rw [if_neg right]
  split
  · exact ⟨rfl, rfl⟩
  · split <;> exact ⟨rfl, rfl⟩

theorem aes_set_outcome_iff (chains : AesChains crypt rev14 E D) {s : Deu AesRegs} (auto : s.regs.aes.dau = false)
    {ctx : List U8} (length : ctx.length ∈ [16, 24, 32]) (inBuf iv : List U8) (encrypt : Int) :
    ∃ rc after left, aesTwinpassCbcEncrypt crypt rev14 s ctx inBuf iv encrypt = some (rc, after, left) ∧
      (Outcome 16 (aesCbc (E (keyWords ctx)) (D (keyWords ctx)) (encrypt == 0) iv inBuf) inBuf rc after ↔
        16 ∣ inBuf.length) := by
  have ok : (aesSetKey s.regs.aes ctx 0).1 = 0 := aesSetKey_accepts length 0
  obtain ⟨on, key⟩ := setKey_ok ok
  obtain ⟨kv, dau⟩ := aesSetKey_control s.regs.aes length
  have set : aesSetKeyLocked s ctx 0 =
      ⟨0, (aesSetKey s.regs.aes ctx 0).2.1, { s with regs := ⟨(aesSetKey s.regs.aes ctx 0).2.2, true⟩ }⟩ := by
    unfold aesSetKeyLocked
    dsimp only
    rw [if_neg (not_not.mpr ok)]
  obtain ⟨left, returned⟩ := aesTwinpass_returns chains set on (dau.trans auto) (fun _ => Or.inr kv) iv
  refine ⟨_, _, left, returned, ?_⟩
  rw [if_neg (not_not.mpr rfl), setKey_field, key]
  constructor
  · rintro ⟨-, success⟩
    exact (success (by omega)).1
  · intro aligned
    exact ⟨fun failed => by omega, fun _ => ⟨aligned, aesImage_aligned E D _ iv aligned⟩⟩

/-- The engine waits for ever for `KV`, or the copy over the buffer happens to change nothing. -/
def AesUnmoved (E D : List U32 → Quad → Quad) (aes : AesT) (ctx : List U8) (encrypt : Int) (iv text : List U8) : Prop :=
  (16 ≤ text.length ∧ ¬ Ready encrypt aes) ∨
    aesImage E D (aes.keyFor (keyLenField ctx.length)) encrypt iv text = text

theorem aes_unset_outcome_iff (chains : AesChains crypt rev14 E D) {s : Deu AesRegs} (auto : s.regs.aes.dau = false)
    {ctx : List U8} (length : ctx.length ∉ [16, 24, 32]) (transform inBuf iv : List U8) (encrypt : Int) :
    (∀ rc after left, aesTwinpassCbcEncrypt crypt rev14 s ctx inBuf iv encrypt = some (rc, after, left) →
        Outcome 16 transform inBuf rc after) ↔
      AesUnmoved E D s.regs.aes ctx encrypt iv inBuf := by
  have set : aesSetKeyLocked s ctx 0 =
      ⟨einval, 0 ||| cryptoTfmResBadKeyLen,
        { s with regs := ⟨{ s.regs.aes with sm := true, k := keyLenField ctx.length }, true⟩, irq := false }⟩ := by
    unfold aesSetKeyLocked
    rw [aesSetKey_rejects length 0]
    rfl
  by_cases stuck : 16 ≤ inBuf.length ∧ ¬ Ready encrypt s.regs.aes
  · obtain ⟨turns, count⟩ : ∃ turns, inBuf.length / 16 = turns + 1 := ⟨inBuf.length / 16 - 1, by omega⟩
    have never : aesTwinpassCbcEncrypt crypt rev14 s ctx inBuf iv encrypt = none := by
      unfold aesTwinpassCbcEncrypt
      rw [set]
      dsimp only
      rw [count]
      exact congrArg (Option.map _) (aesLoop_stuck (by exact stuck.2) iv turns inBuf)
    refine iff_of_true ?_ (Or.inl stuck)
    intro rc after left returned
    rw [never] at returned
    cases returned
  · have ready : 16 ≤ inBuf.length → Ready encrypt s.regs.aes := fun long => by
      by_contra waits
      exact stuck ⟨long, waits⟩
    obtain ⟨left, returned⟩ := aesTwinpass_returns chains set rfl auto ready iv
    rw [returned, if_pos (show einval ≠ 0 by decide)]
    constructor
    · intro lawful
      exact Or.inr ((lawful _ _ _ rfl).1 (by omega))
    · rintro (waits | same)
      · exact absurd waits stuck
      · rintro rc after left' ⟨⟩
        exact ⟨fun _ => same, fun success => absurd success (by omega)⟩

theorem aes_outcome_iff (chains : AesChains crypt rev14 E D) {s : Deu AesRegs} (auto : s.regs.aes.dau = false)
    (ctx inBuf iv : List U8) (encrypt : Int) :
    (∀ rc after left, aesTwinpassCbcEncrypt crypt rev14 s ctx inBuf iv encrypt = some (rc, after, left) →
        Outcome 16 (aesCbc (E (keyWords ctx)) (D (keyWords ctx)) (encrypt == 0) iv inBuf) inBuf rc after) ↔
      (ctx.length ∈ [16, 24, 32] ∧ 16 ∣ inBuf.length) ∨
        (ctx.length ∉ [16, 24, 32] ∧ AesUnmoved E D s.regs.aes ctx encrypt iv inBuf) := by
  by_cases length : ctx.length ∈ [16, 24, 32]
  · obtain ⟨rc, after, left, returned, outcome⟩ := aes_set_outcome_iff chains auto length inBuf iv encrypt
    rw [returned]
    constructor
    · intro lawful
      exact Or.inl ⟨length, outcome.mp (lawful _ _ _ rfl)⟩
    · rintro (⟨-, aligned⟩ | ⟨short, -⟩)
      · rintro rc' after' left' ⟨⟩
        exact outcome.mpr aligned
      · exact absurd length short
  · have outcome := aes_unset_outcome_iff chains auto length
      (aesCbc (E (keyWords ctx)) (D (keyWords ctx)) (encrypt == 0) iv inBuf) inBuf iv encrypt
    rw [outcome]
    constructor
    · exact fun unmoved => Or.inr ⟨length, unmoved⟩
    · rintro (⟨right, -⟩ | ⟨-, unmoved⟩)
      · exact absurd right length
      · exact unmoved

end Aes

/-! ### All calls -/

/-- With engines that chain their block operations, whatever these are. -/
theorem cipher_calls_outcome {desCrypt : DesCrypt} {E D : BitVec 3 → List Pair → Pair → Pair}
    (desChains : DesChains desCrypt rev14 E D) {crypt : Crypt} {E' D' : List U32 → Quad → Quad}
    (aesChains : AesChains crypt rev14 E' D') {des : Deu DesT} (desAuto : des.regs.dau = false) {aes : Deu AesRegs}
    (aesAuto : aes.regs.aes.dau = false) (keyE ctx inBuf beyond : List U8) (stack : Nat → U8) (iv : List U8)
    (encrypt : Int) :
    (Outcome 8
          (desCbc (E 0 [pairAt (bytesAt keyE 8) 0]) (D 0 [pairAt (bytesAt keyE 8) 0]) (encrypt == 0) iv inBuf) inBuf
          (des1TwinpassCbcEncrypt desCrypt rev14 des keyE inBuf beyond stack iv encrypt).1
          (des1TwinpassCbcEncrypt desCrypt rev14 des keyE inBuf beyond stack iv encrypt).2.1 ↔
        8 ∣ inBuf.length) ∧
      (Outcome 8
          (desCbc (E 4 [pairAt (bytesAt keyE 24) 0, pairAt (bytesAt keyE 24) 2, pairAt (bytesAt keyE 24) 4])
            (D 4 [pairAt (bytesAt keyE 24) 0, pairAt (bytesAt keyE 24) 2, pairAt (bytesAt keyE 24) 4])
            (encrypt == 0) iv inBuf)
          inBuf (des3TwinpassCbcEncrypt desCrypt rev14 des keyE inBuf beyond stack iv encrypt).1
          (des3TwinpassCbcEncrypt desCrypt rev14 des keyE inBuf beyond stack iv encrypt).2.1 ↔
        8 ∣ inBuf.length) ∧
      ((∀ rc after left, aesTwinpassCbcEncrypt crypt rev14 aes ctx inBuf iv encrypt = some (rc, after, left) →
          Outcome 16 (aesCbc (E' (keyWords ctx)) (D' (keyWords ctx)) (encrypt == 0) iv inBuf) inBuf rc after) ↔
        (ctx.length ∈ [16, 24, 32] ∧ 16 ∣ inBuf.length) ∨
          (ctx.length ∉ [16, 24, 32] ∧ AesUnmoved E' D' aes.regs.aes ctx encrypt iv inBuf)) ∧
      (ctx.length ∈ [16, 24, 32] → ∃ result, aesTwinpassCbcEncrypt crypt rev14 aes ctx inBuf iv encrypt = some result) := by
  refine ⟨des1_outcome_iff desChains desAuto keyE inBuf beyond stack iv encrypt,
    des3_outcome_iff desChains desAuto keyE inBuf beyond stack iv encrypt,
    aes_outcome_iff aesChains aesAuto ctx inBuf iv encrypt, fun length => ?_⟩
  obtain ⟨rc, after, left, returned, -⟩ := aes_set_outcome_iff aesChains aesAuto length inBuf iv encrypt
  exact ⟨_, returned⟩

/-- An engine that chains a block operation, on a chip that does not swap. -/
def chainedDes (E D : BitVec 3 → List Pair → Pair → Pair) : DesCrypt := fun m _ decrypt keys iv data =>
  cbcStep Pair.xor (E m keys) (D m keys) decrypt iv data

def chainedAes (E D : List U32 → Quad → Quad) : Crypt := fun _ decrypt key iv data =>
  cbcStep Quad.xor (E key) (D key) decrypt iv data

/-- DES of one block under the key 133457799BBCDFF1, also as 3DES with that key three times. -/
def knownDes (_ : BitVec 3) (_ : List Pair) (block : Pair) : Pair :=
  if block = ⟨0x01234567#32, 0x89ABCDEF#32⟩ then ⟨0x85E81354#32, 0x0F0AB405#32⟩ else block

def knownDesInverse (_ : BitVec 3) (_ : List Pair) (block : Pair) : Pair :=
  if block = ⟨0x85E81354#32, 0x0F0AB405#32⟩ then ⟨0x01234567#32, 0x89ABCDEF#32⟩ else block

def knownKey : List U8 :=
  [0x13345779#32, 0x9BBCDFF1#32, 0x13345779#32, 0x9BBCDFF1#32, 0x13345779#32, 0x9BBCDFF1#32].flatMap bytes32

/-- Two blocks that are encrypted to the same block under a zero initialisation vector. -/
def knownText : List U8 := [0x01234567#32, 0x89ABCDEF#32, 0x84CB5633#32, 0x86A179EA#32].flatMap bytes32

def aesEncryptQuad (key : List U32) (block : Quad) : Quad := quad (encryptBlock key block.bytes)

def aesDecryptQuad (key : List U32) (block : Quad) : Quad := quad (decryptBlock key block.bytes)

def idleDes : Deu DesT := ⟨resetDes, [], true⟩

def idleAes : Deu AesRegs := ⟨⟨resetAes, false⟩, [], true⟩

theorem cipher_calls_outcome_known :
    Outcome 8
        (desCbc (knownDes 0 [pairAt (bytesAt knownKey 8) 0]) (knownDesInverse 0 [pairAt (bytesAt knownKey 8) 0])
          ((1 : Int) == 0) (List.replicate 8 0) knownText)
        knownText
        (des1TwinpassCbcEncrypt (chainedDes knownDes knownDesInverse) false idleDes knownKey knownText []
          (fun _ => 0) (List.replicate 8 0) 1).1
        (des1TwinpassCbcEncrypt (chainedDes knownDes knownDesInverse) false idleDes knownKey knownText []
          (fun _ => 0) (List.replicate 8 0) 1).2.1 ∧
      ∃ result, aesTwinpassCbcEncrypt (chainedAes aesEncryptQuad aesDecryptQuad) false idleAes (knownKey.take 16) knownText
        (List.replicate 8 0) 1 = some result := by
  have desChains : DesChains (chainedDes knownDes knownDesInverse) false knownDes knownDesInverse :=
    fun _ _ _ _ _ => rfl
  have aesChains : AesChains (chainedAes aesEncryptQuad aesDecryptQuad) false aesEncryptQuad aesDecryptQuad :=
    fun _ _ _ _ => rfl
  have desAuto : idleDes.regs.dau = false := rfl
  have aesAuto : idleAes.regs.aes.dau = false := rfl
  have all := cipher_calls_outcome desChains aesChains desAuto aesAuto knownKey (knownKey.take 16) knownText []
    (fun _ => 0) (List.replicate 8 0) 1
  exact ⟨all.1.mpr (by decide), all.2.2.2 (by decide)⟩

/-- Twelve bytes are a success for DES, and a context without a key loses its buffer. -/
theorem failed_calls_overwrite :
    ¬ Outcome 8
        (desCbc (knownDes 0 [pairAt (bytesAt knownKey 8) 0]) (knownDesInverse 0 [pairAt (bytesAt knownKey 8) 0])
          ((1 : Int) == 0) (List.replicate 8 0) (knownText.take 12))
        (knownText.take 12)
        (des1TwinpassCbcEncrypt (chainedDes knownDes knownDesInverse) false idleDes knownKey (knownText.take 12) []
          (fun _ => 0) (List.replicate 8 0) 1).1
        (des1TwinpassCbcEncrypt (chainedDes knownDes knownDesInverse) false idleDes knownKey (knownText.take 12) []
          (fun _ => 0) (List.replicate 8 0) 1).2.1 ∧
      ∃ after left, aesTwinpassCbcEncrypt (chainedAes aesEncryptQuad aesDecryptQuad) false idleAes [] knownText
        (List.replicate 16 0) 1 = some (-1, after, left) ∧ after ≠ knownText := by
  constructor
  · rintro ⟨-, success⟩
    have aligned := (success (by decide)).1
    revert aligned
    decide
  · refine ⟨_, _, rfl, ?_⟩
    decide +kernel

end TwinpassGateway.Crypto
