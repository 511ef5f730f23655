import Mathlib.Data.BitVec
import Mathlib.Data.List.Basic
import Mathlib.Tactic
import TwinpassGateway.Foundation.Word

/-!
Runs of consecutive addresses in a byte memory: reading them, writing them, and the words they hold.
-/

namespace TwinpassGateway.Foundation

variable {w : Nat} {β : Type*}

def loadBytes (mem : BitVec w → β) (p : BitVec w) (n : Nat) : List β :=
  (List.range n).map fun i => mem (p + BitVec.ofNat w i)

def storeBytes (mem : BitVec w → β) (p : BitVec w) (bytes : List β) : BitVec w → β :=
  fun a => bytes.getD (a - p).toNat (mem a)

def load32 (mem : BitVec w → U8) (p : BitVec w) : U32 := be32 (loadBytes mem p 4)

def load16 (mem : BitVec w → U8) (p : BitVec w) : BitVec 16 := mem p ++ mem (p + 1#w)

def bytes16 (v : BitVec 16) : List U8 := [v.extractLsb' 8 8, v.extractLsb' 0 8]

variable {mem mem' : BitVec w → β} {p a : BitVec w} {m n : Nat} {bytes : List β}

@[simp] theorem loadBytes_length (mem : BitVec w → β) (p : BitVec w) (n : Nat) : (loadBytes mem p n).length = n := by
  simp [loadBytes]

@[simp] theorem loadBytes_zero (mem : BitVec w → β) (p : BitVec w) : loadBytes mem p 0 = [] := rfl

theorem loadBytes_add (mem : BitVec w → β) (p : BitVec w) (m n : Nat) :
    loadBytes mem p (m + n) = loadBytes mem p m ++ loadBytes mem (p + BitVec.ofNat w m) n := by
  unfold loadBytes
  rw [List.range_add, List.map_append, List.map_map]
  congr 1
  apply List.map_congr_left
  intro i _
  rw [Function.comp_apply, BitVec.ofNat_add, BitVec.add_assoc]

theorem loadBytes_one (mem : BitVec w → β) (p : BitVec w) : loadBytes mem p 1 = [mem p] := by
  show [mem (p + BitVec.ofNat w 0)] = _
  rw [BitVec.add_zero]

theorem loadBytes_take (mem : BitVec w → β) (p : BitVec w) (n : Nat) (fits : m ≤ n) :
    (loadBytes mem p n).take m = loadBytes mem p m := by
  obtain ⟨k, rfl⟩ := Nat.exists_eq_add_of_le fits
  rw [loadBytes_add]
  exact List.take_left' (loadBytes_length mem p m)

theorem loadBytes_congr (same : ∀ i < n, mem (p + BitVec.ofNat w i) = mem' (p + BitVec.ofNat w i)) :
    loadBytes mem p n = loadBytes mem' p n :=
  List.map_congr_left fun i member => same i (List.mem_range.mp member)

theorem storeBytes_outside (outside : bytes.length ≤ (a - p).toNat) : storeBytes mem p bytes a = mem a := by
  unfold storeBytes
  rw [List.getD_eq_getElem?_getD, List.getElem?_eq_none outside]
  rfl

theorem storeBytes_inside (inside : (a - p).toNat < bytes.length) :
    storeBytes mem p bytes a = bytes[(a - p).toNat] := by
  unfold storeBytes
  rw [List.getD_eq_getElem?_getD, List.getElem?_eq_getElem inside]
  rfl

/-- An address in front of `p + n`, seen from there, lies at the end of the address space. -/
theorem toNat_behind {i : Nat} (before : i < n) (small : n < 2 ^ w) :
    (p + BitVec.ofNat w i - (p + BitVec.ofNat w n)).toNat = 2 ^ w - n + i := by
  have cancel : p + BitVec.ofNat w i - (p + BitVec.ofNat w n) = BitVec.ofNat w i - BitVec.ofNat w n := by ring
  have iNat : (BitVec.ofNat w i).toNat = i := by rw [BitVec.toNat_ofNat, Nat.mod_eq_of_lt (by omega)]
  have nNat : (BitVec.ofNat w n).toNat = n := by rw [BitVec.toNat_ofNat, Nat.mod_eq_of_lt small]
  rw [cancel, BitVec.toNat_sub, iNat, nNat, Nat.mod_eq_of_lt (by omega)]

theorem loadBytes_store (small : n + bytes.length ≤ 2 ^ w) :
    loadBytes (storeBytes mem (p + BitVec.ofNat w n) bytes) p (n + bytes.length) = loadBytes mem p n ++ bytes := by
  rw [loadBytes_add]
  congr 1
  · apply loadBytes_congr
    intro i before
    apply storeBytes_outside
    by_cases none : bytes.length = 0
    · omega
    · rw [toNat_behind before (by omega)]
      omega
  · apply List.ext_getElem (loadBytes_length _ _ _)
    intro i _ below
    have place : p + BitVec.ofNat w n + BitVec.ofNat w i - (p + BitVec.ofNat w n) = BitVec.ofNat w i := by ring
    have distance : (p + BitVec.ofNat w n + BitVec.ofNat w i - (p + BitVec.ofNat w n)).toNat = i := by
      rw [place, BitVec.toNat_ofNat, Nat.mod_eq_of_lt (by omega)]
    simp only [loadBytes, List.getElem_map, List.getElem_range]
    rw [storeBytes_inside (by omega)]
    simp only [distance]

/-! ### Buffers -/

/-- A buffer in the memory: shorter than half the address space, and with an end that is an address. -/
structure ByteBuffer (w : Nat) where
  start : BitVec w
  size : Nat
  short : size < 2 ^ (w - 1)
  bounded : start.toNat + size < 2 ^ w

namespace ByteBuffer

variable {b : ByteBuffer w} {k : Nat}

def stop (b : ByteBuffer w) : BitVec w := b.start + BitVec.ofNat w b.size

def contents (b : ByteBuffer w) (mem : BitVec w → β) : List β := loadBytes mem b.start b.size

theorem toNat_at (inside : k ≤ b.size) : (b.start + BitVec.ofNat w k).toNat = b.start.toNat + k := by
  have bounded := b.bounded
  have kNat : (BitVec.ofNat w k).toNat = k := by rw [BitVec.toNat_ofNat, Nat.mod_eq_of_lt (by omega)]
  rw [BitVec.toNat_add, kNat, Nat.mod_eq_of_lt (by omega)]

theorem toInt_left (inside : k ≤ b.size) : (b.stop - (b.start + BitVec.ofNat w k)).toInt = b.size - k := by
  have short := b.short
  have later := toNat_at (b := b) (Nat.le_refl b.size)
  have here := toNat_at inside
  have left : (b.stop - (b.start + BitVec.ofNat w k)).toNat = b.size - k := by
    unfold stop
    rw [BitVec.toNat_sub_of_le (BitVec.le_def.mpr (by omega)), later, here]
    omega
  have half : 2 * 2 ^ (w - 1) ≤ 2 ^ w ∨ w = 0 := by
    cases w with
    | zero => exact Or.inr rfl
    | succ w => exact Or.inl (by rw [Nat.add_sub_cancel, Nat.pow_succ]; omega)
  rw [BitVec.toInt_eq_toNat_of_lt, left, Nat.cast_sub inside]
  rw [left]
  rcases half with half | rfl
  · omega
  · have : b.size < 1 := short
    show 2 * (b.size - k) < 1
    omega

theorem stop_le_iff (inside : k ≤ b.size) : b.stop ≤ b.start + BitVec.ofNat w k ↔ k = b.size := by
  rw [BitVec.le_def, toNat_at inside, stop, toNat_at (Nat.le_refl _)]
  omega

end ByteBuffer

/-! ### Big-endian words -/

theorem bytes32_append (a b c d : U8) : bytes32 (a ++ b ++ c ++ d) = [a, b, c, d] := by
  unfold bytes32
  congr
  all_goals
    apply BitVec.eq_of_getLsbD_eq
    intro i below
    simp only [BitVec.getLsbD_extractLsb', BitVec.getLsbD_append]
    grind

theorem bytes32_load32 (mem : BitVec w → U8) (p : BitVec w) : bytes32 (load32 mem p) = loadBytes mem p 4 :=
  bytes32_append _ _ _ _

theorem bytes16_append (a b : U8) : bytes16 (a ++ b) = [a, b] := by
  unfold bytes16
  congr
  all_goals
    apply BitVec.eq_of_getLsbD_eq
    intro i below
    simp only [BitVec.getLsbD_extractLsb', BitVec.getLsbD_append]
    grind

theorem bytes16_load16 (mem : BitVec w → U8) (p : BitVec w) : bytes16 (load16 mem p) = loadBytes mem p 2 := by
  have first : p + BitVec.ofNat w 0 = p := BitVec.add_zero p
  show bytes16 (mem p ++ mem (p + 1#w)) = [mem (p + BitVec.ofNat w 0), mem (p + 1#w)]
  rw [bytes16_append, first]

end TwinpassGateway.Foundation
