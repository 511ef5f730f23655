import TwinpassGateway.Crypto.SecApiOutcome

/-!
Any number of users of the engines behind `sec_api.c` and the crypto API, one call after another: each user's key lies
in memory of its own and is loaded for every call.
-/

namespace TwinpassGateway.Crypto

open Foundation

inductive Cipher where
  | des1
  | des3
  | aes
  deriving DecidableEq

def Cipher.blockSize : Cipher → Nat
  | .des1 | .des3 => 8
  | .aes => 16

/-- The two engines, and for each user the memory at its `key_e`: the key bytes of DES, and the `aes_key_len` bytes of an
`aes_context`. -/
structure Engines where
  des : Deu DesT
  aes : Deu AesRegs
  desKey : Nat → List U8
  aesKey : Nat → List U8

inductive CipherCall where
  /-- `_des_twinpass_set_key`. -/
  | desTwinpassSetKey (user : Nat) (key : List U8)
  /-- `_aes_twinpass_set_key`. -/
  | aesTwinpassSetKey (user : Nat) (key : List U8)
  /-- `_1des_twinpass_cbc_encrypt`, `_3des_twinpass_cbc_encrypt` and `_aes_twinpass_cbc_encrypt`. -/
  | crypt (which : Cipher) (user : Nat) (inBuf beyond : List U8) (stack : Nat → U8) (iv : List U8) (encrypt : Int)
  -- the drivers, called through the crypto API
  | desSetkey (key : List U8) (flags : U32)
  | des3EdeSetkey (key : List U8) (flags : U32)
  | desIncaip1 (inArg ivArg : List U8) (nbytes : Nat) (encdec mode : Int)
  | aesSetKey (key : List U8) (flags : U32)
  | aesIfxdeu (inArg : List U8) (ivArg : Option (List U8)) (nbytes : Nat) (encdec mode : Int)

namespace Engines

/-- A call: the engines, its result and what is left in its buffer, or `none` if it does not return. -/
def step (desCrypt : DesCrypt) (aesCrypt : Crypt) (rev14 : Bool) (s : Engines) :
    CipherCall → Option (Engines × Int × List U8)
  | .desTwinpassSetKey user key =>
    some ({ s with desKey := Function.update s.desKey user (key ++ (s.desKey user).drop key.length) }, 0, [])
  | .aesTwinpassSetKey user key =>
    let (rc, ctx) := aesTwinpassSetKey (s.aesKey user) key
    some ({ s with aesKey := Function.update s.aesKey user ctx }, rc, [])
  | .crypt .des1 user inBuf beyond stack iv encrypt =>
    let (rc, out, des) := des1TwinpassCbcEncrypt desCrypt rev14 s.des (s.desKey user) inBuf beyond stack iv encrypt
    some ({ s with des }, rc, out)
  | .crypt .des3 user inBuf beyond stack iv encrypt =>
    let (rc, out, des) := des3TwinpassCbcEncrypt desCrypt rev14 s.des (s.desKey user) inBuf beyond stack iv encrypt
    some ({ s with des }, rc, out)
  | .crypt .aes user inBuf _ _ iv encrypt =>
    (aesTwinpassCbcEncrypt aesCrypt rev14 s.aes (s.aesKey user) inBuf iv encrypt).map fun (rc, out, aes) =>
      ({ s with aes }, rc, out)
  | .desSetkey key flags =>
    let r := desSetkey s.des key flags
    some ({ s with des := r.deu }, r.ret, [])
  | .des3EdeSetkey key flags =>
    let r := des3EdeSetkey s.des key flags
    some ({ s with des := r.deu }, r.ret, [])
  | .desIncaip1 inArg ivArg nbytes encdec mode =>
    let (out, regs) := desIncaip1 desCrypt rev14 s.des.regs inArg ivArg nbytes encdec mode
    some ({ s with des := { s.des with regs } }, 0, out)
  | .aesSetKey key flags =>
    let r := aesSetKeyLocked s.aes key flags
    some ({ s with aes := r.deu }, r.ret, [])
  | .aesIfxdeu inArg ivArg nbytes encdec mode =>
    (aesIfxdeu aesCrypt rev14 s.aes.regs.aes inArg ivArg nbytes encdec mode).map fun (out, aes) =>
      ({ s with aes := { s.aes with regs := { s.aes.regs with aes } } }, 0, out)

def run (desCrypt : DesCrypt) (aesCrypt : Crypt) (rev14 : Bool) : List CipherCall → Engines → Option Engines
  | [], s => some s
  | call :: rest, s => (step desCrypt aesCrypt rev14 s call).bind fun (s, _) => run desCrypt aesCrypt rev14 rest s

end Engines

def CipherCall.SetsKey (user : Nat) : CipherCall → Prop
  | .desTwinpassSetKey user' _ => user' = user
  | .aesTwinpassSetKey user' _ => user' = user
  | _ => False

/-! ### What no call changes -/

theorem setkey_dau (s : Deu DesT) (key : List U8) (flags : U32) : (setkey s key flags).deu.regs.dau = s.regs.dau := by
  by_cases good : DesAccepts key flags
  · rw [setkey_accepts good]
  · rw [(setkey_rejects good).2]

theorem des3EdeSetkey_dau (s : Deu DesT) (key : List U8) (flags : U32) :
    (des3EdeSetkey s key flags).deu.regs.dau = s.regs.dau := by
  unfold des3EdeSetkey
  dsimp only
  split
  · rfl
  · split <;> split <;> rfl

theorem DesT.start_dau (crypt : DesCrypt) (des : DesT) : (des.start crypt).dau = des.dau := by
  unfold DesT.start
  split <;> rfl

theorem desLoop_dau (crypt : DesCrypt) (rev14 : Bool) (inArg : List U8) (turns i : Nat) (des : DesT) :
    (desLoop crypt rev14 inArg turns i des).2.dau = des.dau := by
  induction turns generalizing i des with
  | zero => rfl
  | succ turns ih => exact (ih _ _).trans (DesT.start_dau crypt _)

theorem desIncaip1_dau (crypt : DesCrypt) (rev14 : Bool) (des : DesT) (inArg ivArg : List U8) (nbytes : Nat)
    (encdec mode : Int) : (desIncaip1 crypt rev14 des inArg ivArg nbytes encdec mode).2.dau = des.dau := by
  refine (desLoop_dau crypt rev14 inArg _ _ _).trans ?_
  dsimp only
  split <;> rfl

theorem aesSetKey_dau (aes : AesT) (key : List U8) (flags : U32) : (aesSetKey aes key flags).2.2.dau = aes.dau := by
  unfold aesSetKey
  dsimp only
  split
  · rfl
  · split
    · rfl
    · split <;> rfl

theorem aesSetKeyLocked_dau (s : Deu AesRegs) (key : List U8) (flags : U32) :
    (aesSetKeyLocked s key flags).deu.regs.aes.dau = s.regs.aes.dau := by
  have same := aesSetKey_dau s.regs.aes key flags
  unfold aesSetKeyLocked
  dsimp only
  split <;> exact same

theorem AesT.input_dau (rev14 : Bool) (aes : AesT) (inArg : List U8) (nbytes : Nat) :
    (aes.input rev14 inArg nbytes).dau = aes.dau := by
  unfold AesT.input
  split <;> rfl

theorem AesT.start_dau (crypt : Crypt) (aes : AesT) : (aes.start crypt).dau = aes.dau := by
  unfold AesT.start
  split <;> rfl

theorem aesIfxdeu_dau {crypt : Crypt} {rev14 : Bool} {aes aes' : AesT} {inArg out : List U8} {ivArg : Option (List U8)}
    {nbytes : Nat} {encdec mode : Int}
    (returned : aesIfxdeu crypt rev14 aes inArg ivArg nbytes encdec mode = some (out, aes')) : aes'.dau = aes.dau := by
  obtain ⟨loaded, prepared, same⟩ := Option.map_eq_some_iff.mp returned
  have kept : loaded.dau = aes.dau := by
    unfold aesPrepare at prepared
    dsimp only at prepared
    split at prepared
    · cases prepared
    · split at prepared
      · obtain ⟨iv, _, rfl⟩ := Option.map_eq_some_iff.mp prepared
        exact AesT.input_dau rev14 _ inArg nbytes
      · cases prepared
        exact AesT.input_dau rev14 _ inArg nbytes
  dsimp only at same
  split at same
  · cases same
    exact (AesT.start_dau crypt loaded).trans kept
  · cases same
    exact kept

theorem aesLoop_dau {crypt : Crypt} {rev14 : Bool} {iv out : List U8} {encrypt : Int} {turns blockNo : Nat}
    {aes aes' : AesT} {pIn : List U8}
    (returned : aesLoop crypt rev14 iv encrypt turns blockNo aes pIn = some (out, aes')) : aes'.dau = aes.dau := by
  induction turns generalizing blockNo aes pIn out with
  | zero =>
    cases returned
    rfl
  | succ turns ih =>
    obtain ⟨⟨block, next⟩, first, returned⟩ := Option.bind_eq_some_iff.mp returned
    obtain ⟨⟨rest, last⟩, later, same⟩ := Option.map_eq_some_iff.mp returned
    cases same
    exact (ih later).trans (aesIfxdeu_dau first)

section Sessions

variable {desCrypt : DesCrypt} {aesCrypt : Crypt} {rev14 : Bool} {s s' : Engines} {user : Nat}

/-- `DAU` is clear in both engines: each call's vector is used and the chain goes on from block to block. -/
structure Engines.Chaining (s : Engines) : Prop where
  des : s.des.regs.dau = false
  aes : s.aes.regs.aes.dau = false

theorem Engines.step_chaining {call : CipherCall} {result : Int × List U8}
    (returned : step desCrypt aesCrypt rev14 s call = some (s', result)) (chaining : s.Chaining) : s'.Chaining := by
  obtain ⟨des, aes⟩ := chaining
  cases call with
  | desTwinpassSetKey user key =>
    cases returned
    exact ⟨des, aes⟩
  | aesTwinpassSetKey user key =>
    cases returned
    exact ⟨des, aes⟩
  | crypt which user inBuf beyond stack iv encrypt =>
    cases which with
    | des1 =>
      cases returned
      exact ⟨(desIncaip1_dau _ _ _ _ _ _ _ _).trans ((setkey_dau _ _ _).trans des), aes⟩
    | des3 =>
      cases returned
      exact ⟨(desIncaip1_dau _ _ _ _ _ _ _ _).trans ((des3EdeSetkey_dau _ _ _).trans des), aes⟩
    | aes =>
      obtain ⟨⟨rc, out, engine⟩, ran, same⟩ := Option.map_eq_some_iff.mp returned
      obtain ⟨⟨stored, regs⟩, looped, same'⟩ := Option.map_eq_some_iff.mp ran
      cases same
      cases same'
      exact ⟨des, (aesLoop_dau looped).trans ((aesSetKeyLocked_dau _ _ _).trans aes)⟩
  | desSetkey key flags =>
    cases returned
    exact ⟨(setkey_dau _ _ _).trans des, aes⟩
  | des3EdeSetkey key flags =>
    cases returned
    exact ⟨(des3EdeSetkey_dau _ _ _).trans des, aes⟩
  | desIncaip1 inArg ivArg nbytes encdec mode =>
    cases returned
    exact ⟨(desIncaip1_dau _ _ _ _ _ _ _ _).trans des, aes⟩
  | aesSetKey key flags =>
    cases returned
    exact ⟨des, (aesSetKeyLocked_dau _ _ _).trans aes⟩
  | aesIfxdeu inArg ivArg nbytes encdec mode =>
    obtain ⟨⟨out, regs⟩, ran, same⟩ := Option.map_eq_some_iff.mp returned
    cases same
    exact ⟨des, (aesIfxdeu_dau ran).trans aes⟩

theorem Engines.step_keys {call : CipherCall} {result : Int × List U8}
    (returned : step desCrypt aesCrypt rev14 s call = some (s', result)) (other : ¬ call.SetsKey user) :
    s'.desKey user = s.desKey user ∧ s'.aesKey user = s.aesKey user := by
  cases call with
  | desTwinpassSetKey user' key =>
    cases returned
    exact ⟨Function.update_of_ne (fun same => other same.symm) _ _, rfl⟩
  | aesTwinpassSetKey user' key =>
    cases returned
    exact ⟨rfl, Function.update_of_ne (fun same => other same.symm) _ _⟩
  | crypt which user inBuf beyond stack iv encrypt =>
    cases which with
    | des1 => cases returned; exact ⟨rfl, rfl⟩
    | des3 => cases returned; exact ⟨rfl, rfl⟩
    | aes =>
      obtain ⟨_, _, same⟩ := Option.map_eq_some_iff.mp returned
      cases same
      exact ⟨rfl, rfl⟩
  | aesIfxdeu inArg ivArg nbytes encdec mode =>
    obtain ⟨_, _, same⟩ := Option.map_eq_some_iff.mp returned
    cases same
    exact ⟨rfl, rfl⟩
  | _ => cases returned; exact ⟨rfl, rfl⟩

theorem Engines.run_chaining {calls : List CipherCall} (ran : run desCrypt aesCrypt rev14 calls s = some s')
    (chaining : s.Chaining) : s'.Chaining := by
  induction calls generalizing s with
  | nil =>
    cases ran
    exact chaining
  | cons call rest ih =>
    obtain ⟨⟨s₁, result⟩, first, later⟩ := Option.bind_eq_some_iff.mp ran
    exact ih later (step_chaining first chaining)

theorem Engines.run_keys {calls : List CipherCall} (ran : run desCrypt aesCrypt rev14 calls s = some s')
    (others : ∀ call ∈ calls, ¬ call.SetsKey user) :
    s'.desKey user = s.desKey user ∧ s'.aesKey user = s.aesKey user := by
  induction calls generalizing s with
  | nil =>
    cases ran
    exact ⟨rfl, rfl⟩
  | cons call rest ih =>
    obtain ⟨⟨s₁, result⟩, first, later⟩ := Option.bind_eq_some_iff.mp ran
    obtain ⟨des, aes⟩ := step_keys first (others call List.mem_cons_self)
    obtain ⟨des', aes'⟩ := ih later fun c member => others c (List.mem_cons_of_mem _ member)
    exact ⟨des'.trans des, aes'.trans aes⟩

/-! ### One call -/

variable {E D : BitVec 3 → List Pair → Pair → Pair} {E' D' : List U32 → Quad → Quad}

def Cipher.transform (E D : BitVec 3 → List Pair → Pair → Pair) (E' D' : List U32 → Quad → Quad)
    (desKey aesKey : List U8) (decrypt : Bool) (iv text : List U8) : Cipher → List U8
  | .des1 => desCbc (E 0 [pairAt (bytesAt desKey 8) 0]) (D 0 [pairAt (bytesAt desKey 8) 0]) decrypt iv text
  | .des3 =>
    let keys := [pairAt (bytesAt desKey 24) 0, pairAt (bytesAt desKey 24) 2, pairAt (bytesAt desKey 24) 4]
    desCbc (E 4 keys) (D 4 keys) decrypt iv text
  | .aes => aesCbc (E' (keyWords aesKey)) (D' (keyWords aesKey)) decrypt iv text

theorem desTwinpass_rc {crypt : DesCrypt} {s left : Deu DesT} {flags : U32} {setKey : Deu DesT → KeySet DesT}
    (accepts : setKey s = ⟨0, flags, left⟩) (inBuf beyond : List U8) (stack : Nat → U8) (iv : List U8)
    (encrypt : Int) : (desTwinpassCbcEncrypt setKey crypt rev14 s inBuf beyond stack iv encrypt).1 = inBuf.length := by
  show (if (setKey s).ret ≠ 0 then (-1 : Int) else inBuf.length) = _
  rw [accepts]
  rfl

theorem aesTwinpass_keyed (chains : AesChains aesCrypt rev14 E' D') {aes : Deu AesRegs}
    (auto : aes.regs.aes.dau = false) {ctx : List U8} (keyed : ctx.length ∈ [16, 24, 32]) {inBuf : List U8}
    (aligned : 16 ∣ inBuf.length) (iv : List U8) (encrypt : Int) :
    ∃ left, aesTwinpassCbcEncrypt aesCrypt rev14 aes ctx inBuf iv encrypt =
      some ((inBuf.length : Int), aesCbc (E' (keyWords ctx)) (D' (keyWords ctx)) (encrypt == 0) iv inBuf, left) := by
  have ok : (aesSetKey aes.regs.aes ctx 0).1 = 0 := aesSetKey_accepts keyed 0
  obtain ⟨on, key⟩ := setKey_ok ok
  obtain ⟨kv, dau⟩ := aesSetKey_control aes.regs.aes keyed
  have set : aesSetKeyLocked aes ctx 0 =
      ⟨0, (aesSetKey aes.regs.aes ctx 0).2.1, { aes with regs := ⟨(aesSetKey aes.regs.aes ctx 0).2.2, true⟩ }⟩ := by
    unfold aesSetKeyLocked
    dsimp only
    rw [if_neg (not_not.mpr ok)]
  obtain ⟨left, returned⟩ := aesTwinpass_returns chains set on (dau.trans auto) (fun _ => Or.inr kv) iv
  rw [if_neg (not_not.mpr rfl), setKey_field, key, aesImage_aligned E' D' _ iv aligned] at returned
  exact ⟨left, returned⟩

/-- On engines that chain, a call on complete blocks leaves the transform under the user's keys, whatever key the engine
was left with. -/
theorem Engines.step_crypt (desChains : DesChains desCrypt rev14 E D) (aesChains : AesChains aesCrypt rev14 E' D')
    (chaining : s.Chaining) {which : Cipher} (keyed : which = .aes → (s.aesKey user).length ∈ [16, 24, 32])
    {inBuf : List U8} (aligned : which.blockSize ∣ inBuf.length) (beyond : List U8) (stack : Nat → U8) (iv : List U8)
    (encrypt : Int) :
    ∃ s', step desCrypt aesCrypt rev14 s (.crypt which user inBuf beyond stack iv encrypt) =
      some (s', (inBuf.length : Int), which.transform E D E' D' (s.desKey user) (s.aesKey user) (encrypt == 0) iv inBuf) := by
  cases which with
  | des1 =>
    have accepted : DesAccepts (bytesAt (s.desKey user) 8) 0 := ⟨bytesAt_length _ 8, Or.inl (by decide)⟩
    have rc : (des1TwinpassCbcEncrypt desCrypt rev14 s.des (s.desKey user) inBuf beyond stack iv encrypt).1 =
        inBuf.length := desTwinpass_rc (setkey_accepts accepted) inBuf beyond stack iv encrypt
    obtain ⟨-, success⟩ := (des1_outcome_iff desChains chaining.des (s.desKey user) inBuf beyond stack iv encrypt).mpr
      aligned
    refine ⟨_, congrArg some (congrArg (Prod.mk _) (Prod.ext rc ?_))⟩
    exact (success (by omega)).2
  | des3 =>
    have rc : (des3TwinpassCbcEncrypt desCrypt rev14 s.des (s.desKey user) inBuf beyond stack iv encrypt).1 =
        inBuf.length :=
      desTwinpass_rc (des3EdeSetkey_accepts s.des (bytesAt_length _ 24) 0) inBuf beyond stack iv encrypt
    obtain ⟨-, success⟩ := (des3_outcome_iff desChains chaining.des (s.desKey user) inBuf beyond stack iv encrypt).mpr
      aligned
    refine ⟨_, congrArg some (congrArg (Prod.mk _) (Prod.ext rc ?_))⟩
    exact (success (by omega)).2
  | aes =>
    obtain ⟨left, returned⟩ := aesTwinpass_keyed aesChains chaining.aes (keyed rfl) aligned iv encrypt
    refine ⟨{ s with aes := left }, ?_⟩
    rw [step, returned]
    rfl

/-! ### Encryption and decryption -/

theorem bytes32_word {p : List U8} {i : Nat} (there : 4 * i + 4 ≤ p.length) :
    bytes32 (word p i) = (p.drop (4 * i)).take 4 := by
  have long : 4 ≤ (p.drop (4 * i)).length := by
    rw [List.length_drop]
    omega
  rw [word]
  generalize p.drop (4 * i) = q at long
  rcases q with _ | ⟨a, _ | ⟨b, _ | ⟨c, _ | ⟨d, rest⟩⟩⟩⟩
  case cons.cons.cons.cons => exact bytes32_be32 a b c d rest
  all_goals simp at long

theorem pairAt_bytes {block : List U8} (whole : block.length = 8) : (pairAt block 0).bytes = block := by
  have first := bytes32_word (p := block) (i := 0) (by omega)
  have second := bytes32_word (p := block) (i := 1) (by omega)
  show bytes32 (word block 0) ++ bytes32 (word block 1) = block
  rw [first, second]
  have last : (block.drop 4).take 4 = block.drop 4 := List.take_of_length_le (by rw [List.length_drop]; omega)
  rw [Nat.mul_zero, List.drop_zero, Nat.mul_one, last, List.take_append_drop]

theorem quad_bytes {block : List U8} (whole : block.length = 16) : (quad block).bytes = block := by
  have at_ (i : Nat) (few : i < 4) := bytes32_word (p := block) (i := i) (by omega)
  show bytes32 (word block 0) ++ (bytes32 (word block 1) ++ (bytes32 (word block 2) ++ (bytes32 (word block 3) ++ []))) =
    block
  have last : (block.drop (4 * 3)).take 4 ++ [] = (block.drop 8).drop 4 := by
    rw [List.append_nil, List.drop_drop]
    exact List.take_of_length_le (by rw [List.length_drop]; omega)
  have third : (block.drop 8).take 4 ++ (block.drop 8).drop 4 = (block.drop 4).drop 4 := by
    rw [List.take_append_drop, List.drop_drop]
  rw [at_ 0 (by omega), at_ 1 (by omega), at_ 2 (by omega), at_ 3 (by omega), last, third, List.take_append_drop]
  exact List.take_append_drop 4 block

theorem bytes_pairAt (x : Pair) : pairAt x.bytes 0 = x := by
  show Pair.mk (be32 (bytes32 x.hr)) (be32 (bytes32 x.lr)) = x
  rw [be32_bytes32, be32_bytes32]

theorem pair_xor_cancel (a b : Pair) : (a.xor b).xor b = a := by
  show Pair.mk ((a.hr ^^^ b.hr) ^^^ b.hr) ((a.lr ^^^ b.lr) ^^^ b.lr) = a
  rw [BitVec.xor_assoc, BitVec.xor_assoc, BitVec.xor_self, BitVec.xor_self, BitVec.xor_zero, BitVec.xor_zero]

theorem quad_xor_cancel (a b : Quad) : (a.xor b).xor b = a := by
  show Quad.mk ((a.r3 ^^^ b.r3) ^^^ b.r3) ((a.r2 ^^^ b.r2) ^^^ b.r2) ((a.r1 ^^^ b.r1) ^^^ b.r1)
    ((a.r0 ^^^ b.r0) ^^^ b.r0) = a
  simp only [BitVec.xor_assoc, BitVec.xor_self, BitVec.xor_zero]

theorem desCbc_round_trip {E D : Pair → Pair} (inverse : ∀ x, D (E x) = x) (iv : List U8) {text : List U8}
    (aligned : 8 ∣ text.length) : desCbc E D true iv (desCbc E D false iv text) = text := by
  have size (x : Pair) : x.bytes.length = 8 := rfl
  have whole (block : List U8) : block.length = 8 → (pairAt block 0).bytes = block := pairAt_bytes
  exact transform_round_trip (by decide) size bytes_pairAt whole (cbc_round_trip pair_xor_cancel inverse (pairAt iv 0))
    aligned

theorem aesCbc_round_trip {E D : Quad → Quad} (inverse : ∀ x, D (E x) = x) (iv : List U8) {text : List U8}
    (aligned : 16 ∣ text.length) : aesCbc E D true iv (aesCbc E D false iv text) = text := by
  have size (x : Quad) : x.bytes.length = 16 := rfl
  have whole (block : List U8) : block.length = 16 → (quad block).bytes = block := quad_bytes
  exact transform_round_trip (by decide) size bytes_quad whole (cbc_round_trip quad_xor_cancel inverse (quad iv)) aligned

theorem desCbc_length (E D : Pair → Pair) (decrypt : Bool) (iv text : List U8) :
    (desCbc E D decrypt iv text).length = 8 * (text.length / 8) := by
  rw [desCbc, flatMap_length Pair.bytes (n := 8) (fun _ => rfl), cbc_length, List.length_map, blocks_eq_takeBlocks,
    takeBlocks_length]

theorem Cipher.transform_length (which : Cipher) (desKey aesKey : List U8) (decrypt : Bool) (iv : List U8)
    {text : List U8} (aligned : which.blockSize ∣ text.length) :
    (which.transform E D E' D' desKey aesKey decrypt iv text).length = text.length := by
  cases which with
  | des1 => exact (desCbc_length _ _ _ _ _).trans (Nat.mul_div_cancel' aligned)
  | des3 => exact (desCbc_length _ _ _ _ _).trans (Nat.mul_div_cancel' aligned)
  | aes => exact (aesCbc_length _ _ _ _ _).trans (Nat.mul_div_cancel' aligned)

theorem Cipher.transform_round_trip (desInverse : ∀ m keys x, D m keys (E m keys x) = x)
    (aesInverse : ∀ key x, D' key (E' key x) = x) (which : Cipher) (desKey aesKey iv : List U8) {text : List U8}
    (aligned : which.blockSize ∣ text.length) :
    which.transform E D E' D' desKey aesKey true iv (which.transform E D E' D' desKey aesKey false iv text) = text := by
  cases which with
  | des1 => exact desCbc_round_trip (desInverse _ _) iv aligned
  | des3 => exact desCbc_round_trip (desInverse _ _) iv aligned
  | aes => exact aesCbc_round_trip (aesInverse _) iv aligned

/-- A user that encrypts complete blocks and decrypts the result with the same vector gets its buffer back: whatever
calls of any users and of the drivers come before, and whatever calls come between, as long as none sets this user's key. -/
theorem sessions_round_trip (desChains : DesChains desCrypt rev14 E D) (aesChains : AesChains aesCrypt rev14 E' D')
    (desInverse : ∀ m keys x, D m keys (E m keys x) = x) (aesInverse : ∀ key x, D' key (E' key x) = x)
    {start s : Engines} (chaining : start.Chaining) {before : List CipherCall}
    (ran : Engines.run desCrypt aesCrypt rev14 before start = some s) {which : Cipher}
    (keyed : which = .aes → (s.aesKey user).length ∈ [16, 24, 32]) {text : List U8}
    (aligned : which.blockSize ∣ text.length) (beyond : List U8) (stack : Nat → U8) (iv : List U8) {encrypt : Int}
    (direction : encrypt ≠ 0) :
    ∃ out s₁, s.step desCrypt aesCrypt rev14 (.crypt which user text beyond stack iv encrypt) =
        some (s₁, (text.length : Int), out) ∧
      ∀ between s₂, Engines.run desCrypt aesCrypt rev14 between s₁ = some s₂ →
        (∀ call ∈ between, ¬ call.SetsKey user) → ∀ beyond' stack', ∃ s₃,
          s₂.step desCrypt aesCrypt rev14 (.crypt which user out beyond' stack' iv 0) =
            some (s₃, (text.length : Int), text) := by
  have chaining₀ := Engines.run_chaining ran chaining
  obtain ⟨s₁, encrypts⟩ := Engines.step_crypt desChains aesChains chaining₀ keyed aligned beyond stack iv encrypt
  have forward : (encrypt == 0) = false := by simpa using direction
  rw [forward] at encrypts
  refine ⟨_, s₁, encrypts, fun between s₂ ran' others beyond' stack' => ?_⟩
  have chaining₂ := Engines.run_chaining ran' (Engines.step_chaining encrypts chaining₀)
  -- the keys of the user are those the buffer was encrypted with
  obtain ⟨desKey, aesKey⟩ := Engines.run_keys ran' others
  have sameKey : ¬ CipherCall.SetsKey user (.crypt which user text beyond stack iv encrypt) := fun sets => sets
  obtain ⟨desKey₁, aesKey₁⟩ := Engines.step_keys encrypts sameKey
  have length : (which.transform E D E' D' (s.desKey user) (s.aesKey user) false iv text).length = text.length :=
    which.transform_length _ _ _ _ aligned
  have keyed₂ : which = .aes → (s₂.aesKey user).length ∈ [16, 24, 32] := by
    rw [aesKey, aesKey₁]
    exact keyed
  obtain ⟨s₃, decrypts⟩ := Engines.step_crypt desChains aesChains chaining₂ keyed₂ (by rw [length]; exact aligned) beyond'
    stack' iv 0
  rw [length, desKey, aesKey, desKey₁, aesKey₁] at decrypts
  refine ⟨s₃, decrypts.trans ?_⟩
  rw [show ((0 : Int) == 0) = true from rfl, Cipher.transform_round_trip desInverse aesInverse which _ _ iv aligned]

def idleEngines : Engines := ⟨idleDes, idleAes, fun _ => [], fun _ => []⟩

/-- DES of the block 0123456789ABCDEF under the key 133457799BBCDFF1, and the way back. -/
def swapDes (_ : BitVec 3) (_ : List Pair) : Pair → Pair :=
  Equiv.swap ⟨0x01234567#32, 0x89ABCDEF#32⟩ ⟨0x85E81354#32, 0x0F0AB405#32⟩

def desPlain : List U8 := [0x01234567#32, 0x89ABCDEF#32].flatMap bytes32

def aesKey : List U8 := [0x00010203#32, 0x04050607#32, 0x08090A0B#32, 0x0C0D0E0F#32].flatMap bytes32

def aesPlain : List U8 := [0x00112233#32, 0x44556677#32, 0x8899AABB#32, 0xCCDDEEFF#32].flatMap bytes32

def aesAnswer : List U8 := [0x69C4E0D8#32, 0x6A7B0430#32, 0xD8CDB780#32, 0x70B4C55A#32].flatMap bytes32

/-- AES of the block `aesPlain` under the key `aesKey`, and the way back. -/
def swapAes (_ : List U32) : Quad → Quad := Equiv.swap (quad aesPlain) (quad aesAnswer)

example : aesEncryptQuad [0x00010203#32, 0x04050607#32, 0x08090A0B#32, 0x0C0D0E0F#32] (quad aesPlain) = quad aesAnswer := by
  decide +kernel

def keyedEngines : Engines :=
  { idleEngines with
    desKey := Function.update (fun _ => []) 2 (knownKey.take 8)
    aesKey := Function.update (fun _ => []) 1 aesKey }

/-- User 1 encrypts with AES and decrypts; user 2 encrypts with DES in between. -/
theorem sessions_round_trip_known :
    ∃ s₁ s₂ s₃,
      Engines.run (chainedDes swapDes swapDes) (chainedAes swapAes swapAes) false
        [.desTwinpassSetKey 2 (knownKey.take 8), .aesTwinpassSetKey 1 aesKey] idleEngines = some keyedEngines ∧
      keyedEngines.step (chainedDes swapDes swapDes) (chainedAes swapAes swapAes) false
        (.crypt .aes 1 aesPlain [] (fun _ => 0) (List.replicate 16 0) 1) = some (s₁, 16, aesAnswer) ∧
      Engines.run (chainedDes swapDes swapDes) (chainedAes swapAes swapAes) false
        [.crypt .des1 2 desPlain [] (fun _ => 0) (List.replicate 8 0) 1] s₁ = some s₂ ∧
      s₂.step (chainedDes swapDes swapDes) (chainedAes swapAes swapAes) false
        (.crypt .aes 1 aesAnswer [] (fun _ => 0) (List.replicate 16 0) 0) = some (s₃, 16, aesPlain) := by
  have desChains : DesChains (chainedDes swapDes swapDes) false swapDes swapDes := fun _ _ _ _ _ => rfl
  have aesChains : AesChains (chainedAes swapAes swapAes) false swapAes swapAes := fun _ _ _ _ => rfl
  have ran : Engines.run (chainedDes swapDes swapDes) (chainedAes swapAes swapAes) false
      [.desTwinpassSetKey 2 (knownKey.take 8), .aesTwinpassSetKey 1 aesKey] idleEngines = some keyedEngines := rfl
  have keyed : (keyedEngines.aesKey 1).length ∈ [16, 24, 32] := by decide
  have aligned : Cipher.blockSize .aes ∣ aesPlain.length := by decide
  obtain ⟨out, s₁, encrypts, back⟩ := sessions_round_trip desChains aesChains (fun _ _ => Equiv.swap_apply_self _ _)
    (fun _ => Equiv.swap_apply_self _ _) ⟨rfl, rfl⟩ ran (fun _ => keyed) aligned [] (fun _ => 0) (List.replicate 16 0)
    (show (1 : Int) ≠ 0 by decide)
  have answer : (keyedEngines.step (chainedDes swapDes swapDes) (chainedAes swapAes swapAes) false
      (.crypt .aes 1 aesPlain [] (fun _ => 0) (List.replicate 16 0) 1)).map (·.2.2) = some aesAnswer := by decide +kernel
  rw [encrypts] at answer
  obtain rfl : out = aesAnswer := Option.some.inj answer
  have between : ∃ s₂, Engines.run (chainedDes swapDes swapDes) (chainedAes swapAes swapAes) false
      [.crypt .des1 2 desPlain [] (fun _ => 0) (List.replicate 8 0) 1] s₁ = some s₂ := ⟨_, rfl⟩
  obtain ⟨s₂, ran'⟩ := between
  obtain ⟨s₃, decrypts⟩ := back _ s₂ ran' (fun call member => by
    obtain rfl := List.mem_singleton.mp member
    exact fun sets => sets) [] fun _ => 0
  exact ⟨s₁, s₂, s₃, ran, encrypts, ran', decrypts⟩

end Sessions

end TwinpassGateway.Crypto
