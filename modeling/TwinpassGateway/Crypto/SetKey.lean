import TwinpassGateway.Crypto.AesContexts
import TwinpassGateway.Crypto.Des

/-!
What the set-key operations of the DES and AES drivers leave behind, with the interrupts they disable.
-/

namespace TwinpassGateway.Crypto

open Foundation

structure AesRegs where
  aes : AesT
  ars : Bool

def aesSetKeyLocked (s : Deu AesRegs) (inKey : List U8) (flags : U32) : KeySet AesRegs :=
  let flag := s.irq
  let (ret, flags, aes) := aesSetKey s.regs.aes inKey flags
  let s := { s with regs := { aes, ars := true }, irq := false }
  -- the return for a wrong length does not go through `local_irq_restore`
  if ret ≠ 0 then ⟨ret, flags, s⟩ else ⟨0, flags, { s with irq := flag }⟩

/-- An error has changed nothing, and interrupts are as they were on entry. -/
def KeySet.Kept {R : Type} (before : Deu R) (r : KeySet R) : Prop :=
  (r.ret ≠ 0 → r.deu = before) ∧ r.deu.irq = before.irq

/-! ### Weak keys -/

def weakParities : List U32 :=
  [0x11111111#32, 0x13131212#32, 0x14141515#32, 0x16161616#32, 0x31312121#32, 0x33332222#32, 0x34342525#32,
   0x36362626#32, 0x41415151#32, 0x43435252#32, 0x44445555#32, 0x46465656#32, 0x61616161#32, 0x63636262#32,
   0x64646565#32, 0x66666666#32]

theorem weakTree_of_mem : ∀ n ∈ weakParities, (n - (0x88888888#32 >>> 3)) &&& 0x88888888#32 = 0 ∧ weakTree n = true := by
  intro n member
  simp only [weakParities, List.mem_cons, List.not_mem_nil, or_false] at member
  rcases member with rfl | rfl | rfl | rfl | rfl | rfl | rfl | rfl | rfl | rfl | rfl | rfl | rfl | rfl | rfl | rfl <;>
    exact ⟨by simp, by simp [weakTree]⟩

theorem mem_of_weakTree {n : U32} (weak : weakTree n = true) : n ∈ weakParities := by
  unfold weakTree at weak
  repeat' split at weak
  all_goals
    rw [Bool.or_eq_true, beq_iff_eq, beq_iff_eq] at weak
    obtain rfl | rfl := weak <;> decide

theorem weakTree_iff (n : U32) :
    ((n - (0x88888888#32 >>> 3)) &&& 0x88888888#32 = 0 ∧ weakTree n = true) ↔ n ∈ weakParities :=
  ⟨fun weak => mem_of_weakTree weak.2, weakTree_of_mem n⟩

def DesAccepts (key : List U8) (flags : U32) : Prop :=
  key.length = 8 ∧ (flags &&& cryptoTfmReqWeakKey = 0 ∨ keyParity key ∉ weakParities)

instance (key : List U8) (flags : U32) : Decidable (DesAccepts key flags) := instDecidableAnd

/-! ### Each operation -/

theorem setkey_rejects {s : Deu DesT} {key : List U8} {flags : U32} (bad : ¬ DesAccepts key flags) :
    (setkey s key flags).ret = einval ∧
      (setkey s key flags).deu = { s with regs := { s.regs with m := 0, sm := true, ars := true } } := by
  unfold setkey
  dsimp only
  by_cases length : key.length = 8
  · have weak : flags &&& cryptoTfmReqWeakKey ≠ 0 ∧ keyParity key ∈ weakParities := by
      rw [DesAccepts, not_and_or, not_or, not_not] at bad
      exact bad.resolve_left fun short => short length
    rw [if_neg (by omega), if_pos ⟨weak.1, (weakTree_iff _).mpr weak.2⟩]
    exact ⟨rfl, rfl⟩
  · rw [if_pos length]
    exact ⟨rfl, rfl⟩

theorem setkey_accepts {s : Deu DesT} {key : List U8} {flags : U32} (good : DesAccepts key flags) :
    setkey s key flags =
      ⟨0, flags, { s with regs := { s.regs with m := 0, sm := true, ars := true, k1 := pairAt key 0 } }⟩ := by
  obtain ⟨length, strong⟩ := good
  unfold setkey
  dsimp only
  rw [if_neg (by omega), if_neg]
  · rfl
  · rintro ⟨asked, weak⟩
    obtain unasked | strong := strong
    · exact asked unasked
    · exact strong ((weakTree_iff _).mp weak)

theorem desSetkey_kept_iff (s : Deu DesT) (key : List U8) (flags : U32) :
    (desSetkey s key flags).Kept s ↔
      DesAccepts key flags ∨ (s.regs.m = 0 ∧ s.regs.sm = true ∧ s.regs.ars = true) := by
  show (setkey s key flags).Kept s ↔ _
  by_cases good : DesAccepts key flags
  · rw [setkey_accepts good]
    exact iff_of_true ⟨fun failed => absurd rfl failed, rfl⟩ (Or.inl good)
  · obtain ⟨ret, left⟩ := setkey_rejects (s := s) good
    rw [KeySet.Kept, ret, left]
    constructor
    · rintro ⟨same, -⟩
      have regs := congrArg Deu.regs (same (by decide))
      exact Or.inr ⟨(congrArg DesT.m regs).symm, (congrArg DesT.sm regs).symm, (congrArg DesT.ars regs).symm⟩
    · rintro (accepted | ⟨m, sm, ars⟩)
      · exact absurd accepted good
      · refine ⟨fun _ => ?_, rfl⟩
        obtain ⟨⟨⟩, ctx, irq⟩ := s
        dsimp only at m sm ars
        subst m sm ars
        rfl

theorem des3EdeSetkey_kept_iff (s : Deu DesT) (key : List U8) (flags : U32) :
    (des3EdeSetkey s key flags).Kept s ↔ key.length ∈ [8, 16, 24] ∨ s.irq = false := by
  unfold des3EdeSetkey
  dsimp only
  split
  · rename_i wrong
    constructor
    · rintro ⟨-, irq⟩
      exact Or.inr irq.symm
    · rintro (length | disabled)
      · simp at length
        omega
      · refine ⟨fun _ => ?_, disabled.symm⟩
        obtain ⟨regs, ctx, irq⟩ := s
        dsimp only at disabled
        subst disabled
        rfl
  · rename_i right
    refine iff_of_true ⟨fun failed => absurd rfl failed, rfl⟩ (Or.inl ?_)
    simp
    omega

theorem aesSetKey_accepts {aes : AesT} {inKey : List U8} (length : inKey.length ∈ [16, 24, 32]) (flags : U32) :
    (aesSetKey aes inKey flags).1 = 0 := by
  unfold aesSetKey
  dsimp only
  rw [if_neg]
  simp at length
  omega

theorem aesSetKey_rejects {aes : AesT} {inKey : List U8} (length : inKey.length ∉ [16, 24, 32]) (flags : U32) :
    aesSetKey aes inKey flags =
      (einval, flags ||| cryptoTfmResBadKeyLen, { aes with sm := true, k := keyLenField inKey.length }) := by
  unfold aesSetKey
  dsimp only
  rw [if_pos]
  simp at length
  omega

theorem aesSetKeyLocked_kept_iff (s : Deu AesRegs) (inKey : List U8) (flags : U32) :
    (aesSetKeyLocked s inKey flags).Kept s ↔
      inKey.length ∈ [16, 24, 32] ∨
        (s.irq = false ∧ s.regs.aes.sm = true ∧ s.regs.ars = true ∧ s.regs.aes.k = keyLenField inKey.length) := by
  by_cases length : inKey.length ∈ [16, 24, 32]
  · have ok : (aesSetKey s.regs.aes inKey flags).1 = 0 := aesSetKey_accepts length flags
    unfold aesSetKeyLocked
    dsimp only
    rw [if_neg (not_not.mpr ok)]
    exact iff_of_true ⟨fun failed => absurd rfl failed, rfl⟩ (Or.inl length)
  · unfold aesSetKeyLocked
    rw [aesSetKey_rejects length flags]
    constructor
    · rintro ⟨same, -⟩
      have kept := same (show einval ≠ 0 by decide)
      have regs := congrArg Deu.regs kept
      have aes := congrArg AesRegs.aes regs
      exact Or.inr ⟨(congrArg Deu.irq kept).symm, (congrArg AesT.sm aes).symm, (congrArg AesRegs.ars regs).symm,
        (congrArg AesT.k aes).symm⟩
    · rintro (right | ⟨irq, sm, ars, k⟩)
      · exact absurd right length
      · obtain ⟨⟨⟨⟩, _⟩, ctx, _⟩ := s
        dsimp only at irq sm ars k
        subst irq sm ars k
        exact ⟨fun _ => rfl, rfl⟩

/-! ### All three -/

theorem set_key_kept_iff (des : Deu DesT) (aes : Deu AesRegs) (key : List U8) (flags : U32) :
    ((desSetkey des key flags).Kept des ↔
        DesAccepts key flags ∨ (des.regs.m = 0 ∧ des.regs.sm = true ∧ des.regs.ars = true)) ∧
      ((des3EdeSetkey des key flags).Kept des ↔ key.length ∈ [8, 16, 24] ∨ des.irq = false) ∧
        ((aesSetKeyLocked aes key flags).Kept aes ↔
          key.length ∈ [16, 24, 32] ∨
            (aes.irq = false ∧ aes.regs.aes.sm = true ∧ aes.regs.ars = true ∧
              aes.regs.aes.k = keyLenField key.length)) :=
  ⟨desSetkey_kept_iff des key flags, des3EdeSetkey_kept_iff des key flags, aesSetKeyLocked_kept_iff aes key flags⟩

def resetDes : DesT where
  m := 0
  sm := false
  ars := false
  eD := false
  o := 0
  dau := false
  input := ⟨0, 0⟩
  k1 := ⟨0, 0⟩
  k2 := ⟨0, 0⟩
  k3 := ⟨0, 0⟩
  iv := ⟨0, 0⟩
  out := ⟨0, 0⟩

/-- A weak key changes the control register, and a wrong length leaves interrupts disabled. -/
theorem rejected_keys_leave_traces :
    ¬ (desSetkey ⟨resetDes, [], true⟩ (List.replicate 8 1#8) cryptoTfmReqWeakKey).Kept ⟨resetDes, [], true⟩ ∧
      ¬ (des3EdeSetkey ⟨resetDes, [], true⟩ (List.replicate 7 1#8) 0).Kept ⟨resetDes, [], true⟩ ∧
        ¬ (aesSetKeyLocked ⟨⟨resetAes, false⟩, [], true⟩ (List.replicate 7 1#8) 0).Kept ⟨⟨resetAes, false⟩, [], true⟩ := by
  refine ⟨?_, ?_, ?_⟩
  · rintro ⟨same, -⟩
    exact absurd (congrArg (fun s => s.regs.sm) (same (by decide))) (by decide)
  · rintro ⟨-, irq⟩
    exact absurd irq (by decide)
  · rintro ⟨-, irq⟩
    exact absurd irq (by decide)

end TwinpassGateway.Crypto
