import TwinpassGateway.Crypto.Aes

/-!
When the contexts that share the AES engine get results under their own keys.
-/

namespace TwinpassGateway.Crypto

open Foundation

variable {crypt : Crypt} {rev14 : Bool} {aes loaded : AesT} {inArg key : List U8} {ivArg : Option (List U8)}
  {nbytes : Nat} {encdec mode : Int}

/-! ### What the driver leaves alone -/

structure SameKey (before after : AesT) : Prop where
  sm : after.sm = before.sm
  k : after.k = before.k
  kv : after.kv = before.kv
  high : after.kHigh = before.kHigh
  low : after.kLow = before.kLow

theorem SameKey.trans {a b c : AesT} (first : SameKey a b) (second : SameKey b c) : SameKey a c :=
  ⟨second.sm.trans first.sm, second.k.trans first.k, second.kv.trans first.kv, second.high.trans first.high,
    second.low.trans first.low⟩

theorem SameKey.keyFor {a b : AesT} (same : SameKey a b) (k : BitVec 2) : b.keyFor k = a.keyFor k := by
  rw [AesT.keyFor, AesT.keyFor, same.high, same.low]

theorem input_sameKey {before : AesT} (same : SameKey before aes) :
    SameKey before (aes.input rev14 inArg nbytes) := by
  have input : SameKey aes (aes.input rev14 inArg nbytes) := by
    unfold AesT.input
    dsimp only
    split <;> exact ⟨rfl, rfl, rfl, rfl, rfl⟩
  exact same.trans input

theorem start_sameKey (crypt : Crypt) (aes : AesT) : SameKey aes (aes.start crypt) := by
  rw [AesT.start]
  split <;> exact ⟨rfl, rfl, rfl, rfl, rfl⟩

theorem prepare_sameKey (prepared : aesPrepare rev14 aes inArg ivArg nbytes encdec mode = some loaded) :
    SameKey aes loaded := by
  unfold aesPrepare at prepared
  dsimp only at prepared
  split at prepared
  · cases prepared
  split at prepared
  · obtain ⟨iv, -, rfl⟩ := Option.map_eq_some_iff.mp prepared
    exact input_sameKey ⟨rfl, rfl, rfl, rfl, rfl⟩
  · cases prepared
    exact input_sameKey ⟨rfl, rfl, rfl, rfl, rfl⟩

theorem input_eq (rev14 : Bool) (aes : AesT) (inArg : List U8) (nbytes : Nat) :
    aes.input rev14 inArg nbytes = { aes with id := (aes.input rev14 inArg nbytes).id } := by
  unfold AesT.input
  dsimp only
  split <;> rfl

theorem input_id {job : AesJob} (starts : job.nbytes ∈ startLengths) (clear : aes.id.ClearBeside job.nbytes) :
    (aes.input rev14 job.inArg job.nbytes).id = job.data rev14 := by
  obtain ⟨inArg, ivArg, nbytes, encdec, mode⟩ := job
  have lengths : nbytes = 16 ∨ nbytes = 8 ∨ nbytes = 4 ∨ nbytes = 2 ∨ nbytes = 1 := by
    simpa [startLengths] using starts
  unfold AesT.input AesJob.data
  rcases lengths with rfl | rfl | rfl | rfl | rfl
  · rfl
  · obtain ⟨r3, r2⟩ := clear
    dsimp only
    rw [r3, r2]
    rfl
  all_goals
    obtain ⟨r3, r2, r1⟩ := clear
    dsimp only
    rw [r3, r2, r1]
    rfl

/-- What the driver has put into the registers when the engine is about to start. -/
structure Prepared (rev14 : Bool) (aes : AesT) (job : AesJob) (loaded : AesT) : Prop where
  same : SameKey aes loaded
  o : loaded.o = job.o
  eD : loaded.eD = job.decrypt
  dau : loaded.dau = aes.dau
  id : loaded.id = (aes.input rev14 job.inArg job.nbytes).id
  iv : loaded.iv = job.passed.getD aes.iv

theorem prepare_prepared {job : AesJob}
    (found : aesPrepare rev14 aes job.inArg job.ivArg job.nbytes job.encdec job.mode = some loaded) :
    Prepared rev14 aes job loaded := by
  have same := prepare_sameKey found
  have id (a : AesT) (equal : a.id = aes.id) :
      (a.input rev14 job.inArg job.nbytes).id = (aes.input rev14 job.inArg job.nbytes).id := by
    unfold AesT.input
    dsimp only
    split <;> simp only [equal]
  unfold aesPrepare at found
  dsimp only at found
  split at found
  · cases found
  split at found
  · rename_i vector
    obtain ⟨iv, given, rfl⟩ := Option.map_eq_some_iff.mp found
    have passed : job.passed = some (quad iv) := by
      unfold AesJob.passed
      rw [if_pos vector.1, given]
      rfl
    rw [input_eq] at same ⊢
    exact ⟨same, rfl, rfl, rfl, id _ rfl, by rw [passed]; rfl⟩
  · rename_i novector
    have passed : job.passed = none := by
      unfold AesJob.passed
      split
      · rename_i mode
        cases given : job.ivArg with
        | none => rfl
        | some iv => exact absurd ⟨mode, .inr (by rw [given]; rfl)⟩ novector
      · rfl
    cases found
    rw [input_eq] at same ⊢
    exact ⟨same, rfl, rfl, rfl, id _ rfl, by rw [passed]; rfl⟩

/-! ### The key that is set -/

/-- A call sets the field `K` before it looks at the length, and it has no vector. -/
theorem setKey_registers (aes : AesT) (inKey : List U8) (flags : U32) :
    (aesSetKey aes inKey flags).2.2.k = keyLenField inKey.length ∧ (aesSetKey aes inKey flags).2.2.iv = aes.iv := by
  unfold aesSetKey
  dsimp only
  split
  · exact ⟨rfl, rfl⟩
  · split
    · exact ⟨rfl, rfl⟩
    · split <;> exact ⟨rfl, rfl⟩

theorem setKey_field (aes : AesT) (inKey : List U8) (flags : U32) :
    (aesSetKey aes inKey flags).2.2.k = keyLenField inKey.length := (setKey_registers aes inKey flags).1

theorem setKey_ok {flags : U32} (ok : (aesSetKey aes key flags).1 = 0) :
    (aesSetKey aes key flags).2.2.sm = true ∧
      (aesSetKey aes key flags).2.2.keyFor (keyLenField key.length) = keyWords key := by
  unfold aesSetKey at ok ⊢
  dsimp only at ok ⊢
  split at ok
  · cases ok
  rename_i good
  rw [if_neg good]
  have lengths : key.length = 16 ∨ key.length = 24 ∨ key.length = 32 := by tauto
  rcases lengths with size | size | size
  all_goals
    rw [keyWords, size]
    exact ⟨rfl, rfl⟩

theorem setKey_failed {flags : U32} (failed : (aesSetKey aes key flags).1 ≠ 0) :
    (aesSetKey aes key flags).2.2.kHigh = aes.kHigh ∧ (aesSetKey aes key flags).2.2.kLow = aes.kLow ∧
      (aesSetKey aes key flags).2.2.sm = true := by
  unfold aesSetKey at failed ⊢
  dsimp only at failed ⊢
  split at failed
  · rename_i bad
    rw [if_pos bad]
    exact ⟨rfl, rfl, rfl⟩
  · exact absurd rfl failed

/-! ### Runs -/

/-- The ECB mode neither reads nor changes the vector. -/
structure EcbPlain (crypt : Crypt) : Prop where
  reads : ∀ decrypt key iv iv' data, (crypt 0 decrypt key iv data).1 = (crypt 0 decrypt key iv' data).1
  keeps : ∀ decrypt key iv data, (crypt 0 decrypt key iv data).2 = iv

/-- The registers hold the key that was last set, the field `K` is that of the last call, and the vector is that of
the context that has used it last. -/
structure AesDeu.Ready (crypt : Crypt) (rev14 : Bool) (s : AesDeu) : Prop where
  held : ∀ key ∈ s.lastKey, s.aes.sm = true ∧ s.aes.keyFor (keyLenField key.length) = keyWords key ∧
    s.aes.k = keyLenField s.lastLen
  vector : ∀ c, s.vectorOf = some c → ∀ vector ∈ (s.own c).vector, s.aes.iv = vector
  results : ∀ r ∈ s.results, ∀ key ∈ r.own.key, r.Under crypt rev14 key

theorem step_setKey {s : AesDeu} {c : Nat} {inKey : List U8} {flags : U32} (ready : s.Ready crypt rev14) :
    (s.step crypt rev14 (.setKey c inKey flags)).Ready crypt rev14 := by
  obtain ⟨held, vector, results⟩ := ready
  obtain ⟨field, iv⟩ := setKey_registers s.aes inKey flags
  simp only [AesDeu.step]
  split
  · rename_i ok
    obtain ⟨started, stored⟩ := setKey_ok ok
    refine ⟨?_, ?_, results⟩
    · rintro key ⟨⟩
      exact ⟨started, stored, field⟩
    · intro c' last v known
      have same : (Function.update s.own c { s.own c with key := some inKey } c').vector = (s.own c').vector := by
        by_cases own : c' = c
        · rw [own, Function.update_self]
        · rw [Function.update_of_ne own]
      exact iv.trans (vector c' last v (same ▸ known))
  · rename_i failed
    obtain ⟨high, low, started⟩ := setKey_failed failed
    refine ⟨?_, ?_, results⟩
    · intro key last
      refine ⟨started, ?_, field⟩
      rw [AesT.keyFor, high, low]
      exact (held key last).2.1
    · exact fun c' last v known => iv.trans (vector c' last v known)

/-- Where the vector registers come from. -/
theorem loaded_vector {s : AesDeu} {c : Nat} {job : AesJob} {vector : Quad} (ready : s.Ready crypt rev14)
    (prepared : Prepared rev14 s.aes job loaded) (from_own : job.passed ≠ none ∨ s.vectorOf = some c)
    (known : job.passed.or (s.own c).vector = some vector) : loaded.iv = vector := by
  rw [prepared.iv]
  cases passed : job.passed with
  | some given =>
    rw [passed] at known
    exact Option.some.inj known
  | none =>
    rw [passed] at known
    exact ready.vector c (from_own.resolve_left (absurd passed)) vector known

/-- Of an operation that finds everything in place the engine gets what the context's own engine would get. -/
theorem start_computes {s : AesDeu} {c : Nat} {job : AesJob} {key : List U8} (ready : s.Ready crypt rev14)
    (prepared : Prepared rev14 s.aes job loaded) (own : (s.own c).key = some key) (place : s.InPlace (.crypt c job)) :
    loaded.start crypt = { loaded with
      od := (crypt job.o job.decrypt (keyWords key) loaded.iv (job.data rev14)).1
      iv := if s.aes.dau then loaded.iv else (crypt job.o job.decrypt (keyWords key) loaded.iv (job.data rev14)).2 } := by
  obtain ⟨starts, last, sameField, clear, -⟩ := place key own
  obtain ⟨started, stored, field⟩ := ready.held key last
  have on : loaded.sm = true := prepared.same.sm.trans started
  have engineKey : loaded.keyFor loaded.k = keyWords key := by
    rw [prepared.same.keyFor, prepared.same.k, field, sameField, stored]
  rw [AesT.start, if_pos on, engineKey, prepared.o, prepared.eD, prepared.dau, prepared.id, input_id starts clear]

theorem under_own {s : AesDeu} {c : Nat} {job : AesJob} {key : List U8} (plain : EcbPlain crypt)
    (ready : s.Ready crypt rev14) (prepared : Prepared rev14 s.aes job loaded) (own : (s.own c).key = some key)
    (place : s.InPlace (.crypt c job)) :
    (crypt job.o job.decrypt (keyWords key) loaded.iv (job.data rev14)).1 =
      ((s.own c).compute crypt rev14 key job).1 := by
  obtain ⟨-, -, -, -, vector⟩ := place key own
  unfold AesOwn.compute
  by_cases ecb : job.o = 0
  · rw [ecb]
    exact plain.reads _ _ _ _ _
  · have from_own : job.passed ≠ none ∨ s.vectorOf = some c := (vector.resolve_left ecb).imp_right And.left
    have known : job.passed.or (s.own c).vector ≠ none := by
      rcases vector.resolve_left ecb with passed | ⟨-, chained⟩
      · exact fun none => passed (Option.or_eq_none_iff.mp none).1
      · exact fun none => chained (Option.or_eq_none_iff.mp none).2
    obtain ⟨v, some_vector⟩ := Option.ne_none_iff_exists'.mp known
    rw [loaded_vector ready prepared from_own some_vector, some_vector]
    rfl

/-- The vector afterwards. -/
theorem next_vector {s : AesDeu} {c : Nat} {job : AesJob} {v : Quad} (ready : s.Ready crypt rev14)
    (prepared : Prepared rev14 s.aes job loaded) (place : s.InPlace (.crypt c job))
    (from_own : job.passed ≠ none ∨ s.vectorOf = some c) (known : ((s.own c).next crypt rev14 s.aes.dau job).vector = some v) :
    (if job.nbytes ∈ startLengths then loaded.start crypt else loaded).iv = v := by
  obtain ⟨key, own, known⟩ := Option.bind_eq_some_iff.mp known
  obtain ⟨before, some_vector, rfl⟩ := Option.map_eq_some_iff.mp known
  rw [if_pos (place key own).1, start_computes ready prepared own place]
  unfold AesOwn.compute
  rw [loaded_vector ready prepared from_own some_vector, some_vector]
  rfl

/-- An operation in ECB mode leaves the vector to whoever has it. -/
theorem ecb_vector {job : AesJob} {aes : AesT} (plain : EcbPlain crypt) (prepared : Prepared rev14 aes job loaded)
    (ecb : job.o = 0 ∧ job.passed = none) :
    (if job.nbytes ∈ startLengths then loaded.start crypt else loaded).iv = aes.iv := by
  have same : loaded.iv = aes.iv := by
    rw [prepared.iv, ecb.2]
    rfl
  split
  · rw [AesT.start]
    split
    · rw [prepared.o, ecb.1]
      dsimp only
      split
      · exact same
      · exact (plain.keeps _ _ _ _).trans same
    · exact same
  · exact same

/-- The vector is that of the context whose operation was the last one on it, be it this operation or one before. -/
theorem last_vector {s : AesDeu} {c c' : Nat} {job : AesJob} {v : Quad} (plain : EcbPlain crypt)
    (ready : s.Ready crypt rev14) (prepared : Prepared rev14 s.aes job loaded) (place : s.InPlace (.crypt c job))
    (last : (if job.o = 0 ∧ job.passed = none then s.vectorOf else some c) = some c')
    (known : (Function.update s.own c ((s.own c).next crypt rev14 s.aes.dau job) c').vector = some v) :
    (if job.nbytes ∈ startLengths then loaded.start crypt else loaded).iv = v := by
  by_cases own : c' = c
  · rw [own] at last known
    rw [Function.update_self] at known
    apply next_vector ready prepared place _ known
    by_cases passed : job.passed = none
    · right
      by_cases ecb : job.o = 0
      · rwa [if_pos ⟨ecb, passed⟩] at last
      · obtain ⟨key, own, -⟩ := Option.bind_eq_some_iff.mp known
        exact ((place key own).2.2.2.2.resolve_left ecb).resolve_left (absurd passed) |>.1
    · exact .inl passed
  · rw [Function.update_of_ne own] at known
    have ecb : job.o = 0 ∧ job.passed = none := by
      by_contra touched
      rw [if_neg touched] at last
      exact own (Option.some.inj last).symm
    rw [if_pos ecb] at last
    exact (ecb_vector plain prepared ecb).trans (ready.vector c' last v known)

theorem step_crypt {s : AesDeu} {c : Nat} {job : AesJob} (plain : EcbPlain crypt) (ready : s.Ready crypt rev14)
    (place : s.InPlace (.crypt c job)) : (s.step crypt rev14 (.crypt c job)).Ready crypt rev14 := by
  simp only [AesDeu.step, aesIfxdeu]
  cases found : aesPrepare rev14 s.aes job.inArg job.ivArg job.nbytes job.encdec job.mode with
  | none => exact ready
  | some loaded =>
    simp only [Option.map_some]
    have prepared := prepare_prepared found
    have after : SameKey s.aes (if job.nbytes ∈ startLengths then loaded.start crypt else loaded) := by
      split
      · exact prepared.same.trans (start_sameKey crypt loaded)
      · exact prepared.same
    refine ⟨?_, ?_, ?_⟩
    · intro key last
      obtain ⟨started, stored, field⟩ := ready.held key last
      exact ⟨after.sm.trans started, (after.keyFor _).trans stored, after.k.trans field⟩
    · exact fun c' last v known => last_vector plain ready prepared place last known
    · intro r member key own
      rcases List.mem_append.mp member with before | now
      · exact ready.results r before key own
      · rw [List.mem_singleton.mp now] at own ⊢
        unfold AesResult.Under
        rw [if_pos (place key own).1, start_computes ready prepared own place, ← under_own plain ready prepared own place]

/-- In every run whose data operations all find their key, their data and their vector in place, every result is the
one that an engine of the operation's own context would give, from the key last set on it and its own operations. -/
theorem key_in_place_results (plain : EcbPlain crypt) {start : AesT} {calls : List AesCall}
    (place : Guarded (AesDeu.step crypt rev14) AesDeu.InPlace { aes := start } calls) :
    ∀ r ∈ (exec (AesDeu.step crypt rev14) { aes := start } calls).results, ∀ key ∈ r.own.key, r.Under crypt rev14 key := by
  have first : AesDeu.Ready crypt rev14 { aes := start } := by
    constructor
    · exact fun _ none => by cases none
    · exact fun _ none => by cases none
    · exact fun _ none => absurd none List.not_mem_nil
  refine (guarded_invariant ?_ first place).results
  intro s call ready allowed
  cases call with
  | setKey c inKey flags => exact step_setKey ready
  | crypt c job => exact step_crypt plain ready allowed

def resetAes : AesT :=
  let zero : Quad := ⟨0, 0, 0, 0⟩
  { sm := false, k := 0, eD := false, o := 0, kv := false, dau := false, id := zero, kHigh := zero, kLow := zero
    iv := zero, od := zero }

instance (id : Quad) : ∀ nbytes, Decidable (id.ClearBeside nbytes) := fun nbytes => by
  unfold Quad.ClearBeside
  split <;> infer_instance

instance (s : AesDeu) : ∀ call, Decidable (s.InPlace call)
  | .setKey .. => instDecidableTrue
  | .crypt c job => inferInstanceAs (Decidable (∀ key ∈ (s.own c).key,
      job.nbytes ∈ startLengths ∧ s.lastKey = some key ∧ keyLenField s.lastLen = keyLenField key.length ∧
        s.aes.id.ClearBeside job.nbytes ∧
        (job.o = 0 ∨ job.passed ≠ none ∨ s.vectorOf = some c ∧ (s.own c).vector ≠ none)))

instance (crypt : Crypt) (rev14 : Bool) (r : AesResult) (key : List U8) : Decidable (r.Under crypt rev14 key) :=
  inferInstanceAs (Decidable (r.out = _))

theorem bytes_quad (x : Quad) : quad x.bytes = x := by
  show Quad.mk (be32 (bytes32 x.r3)) (be32 (bytes32 x.r2)) (be32 (bytes32 x.r1)) (be32 (bytes32 x.r0)) = x
  simp only [be32_bytes32]

theorem aesCrypt_ecbPlain : EcbPlain aesCrypt := by
  constructor
  · intro decrypt key iv iv' data
    cases decrypt
    · rfl
    · rfl
  · intro decrypt key iv data
    cases decrypt
    · exact bytes_quad iv
    · exact bytes_quad iv

/-- Two contexts that set their keys again before their operations, as `_aes_twinpass_cbc_encrypt` does. The second one
chains its blocks with no vector passed, while the first one encrypts in ECB mode in between. -/
theorem key_in_place_results_set_again :
    List.Forall (fun r => ∀ key ∈ r.own.key, r.Under aesCrypt false key)
      (exec (AesDeu.step aesCrypt false) { aes := resetAes }
        [.setKey 0 (List.replicate 16 1) 0, .setKey 1 (List.replicate 32 2) 0,
          .crypt 1 ⟨List.replicate 16 7, some (List.replicate 16 9), 16, 0, 2⟩, .setKey 0 (List.replicate 16 1) 0,
          .crypt 0 ⟨List.replicate 16 7, none, 16, 1, 1⟩, .setKey 1 (List.replicate 32 2) 0,
          .crypt 1 ⟨List.replicate 16 8, none, 16, 0, 2⟩]).results :=
  List.forall_iff_forall_mem.mpr (key_in_place_results aesCrypt_ecbPlain (by decide +kernel))

/-- The second context's key replaces that of the first, which then encrypts under it. -/
theorem second_key_used :
    ∃ r ∈ (exec (AesDeu.step aesCrypt false) { aes := resetAes }
      [.setKey 0 (List.replicate 16 1) 0, .setKey 1 (List.replicate 16 2) 0,
        .crypt 0 ⟨List.replicate 16 7, none, 16, 1, 1⟩]).results,
      ∃ key ∈ r.own.key, ¬ r.Under aesCrypt false key := by
  decide +kernel

end TwinpassGateway.Crypto
