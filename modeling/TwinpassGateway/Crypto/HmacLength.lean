import Mathlib.Data.List.GetD
import TwinpassGateway.Crypto.Hmac
import TwinpassGateway.Crypto.Md5Driver

/-!
How much of the caller's memory the two `hmac_hash` entry points write, on the drivers they call.
`hash` is the memory from the caller's buffer on.
-/

namespace TwinpassGateway.Crypto

open Foundation

theorem memcpyTo_front (buffer src : List U8) : memcpyTo buffer 0 src = src ++ buffer.drop src.length := by
  rw [memcpyTo, List.take_zero, List.nil_append, Nat.zero_add]

/-! ### SHA-1 -/

def sha1Mac (s s' : sha1Driver.State) (stack stack' key text : List U8) : List U8 :=
  (hmacPasses sha1Driver 64 20 s' (sha1TwinpassHmacSetKey sha1Driver s stack key).2.1 stack' text).1

theorem sha1Mac_length (s s' : sha1Driver.State) (stack stack' key text : List U8) :
    (sha1Mac s s' stack stack' key text).length = 20 := rfl

theorem sha1Hash_writes (s s' : sha1Driver.State) (stack stack' key text hash : List U8) {hashlen : Nat}
    (within : hashlen ≤ 20) :
    (sha1TwinpassHmacHash sha1Driver s' (sha1TwinpassHmacSetKey sha1Driver s stack key).2.1 stack' text hash
        hashlen).2.1 =
      (sha1Mac s s' stack stack' key text).take hashlen ++ hash.drop hashlen := by
  have size := sha1Mac_length s s' stack stack' key text
  have filled : ((sha1Mac s s' stack stack' key text).take hashlen).length = hashlen := by
    rw [List.length_take]
    omega
  unfold sha1TwinpassHmacHash
  dsimp only
  rw [← sha1Mac]
  by_cases whole : hashlen = 20
  · rw [if_pos whole, memcpyTo_front, List.take_of_length_le (by omega), size, whole]
  · rw [if_neg whole]
    show memcpyTo hash 0 ((memcpyTo stack' 0 _).take hashlen) = _
    rw [memcpyTo_start_take (by omega), memcpyTo_front, filled]

/-! ### MD5 -/

theorem md5Hash_writes (m m' : md5Driver.State) (stack stack' key text hash : List U8) (hashlen : Nat) :
    (md5TwinpassHmacHash md5Driver m' (md5TwinpassHmacSetKey md5Driver m stack key).2.1 stack' text hash
        hashlen).2.1 =
      hmac md5 64 key text ++ hash.drop 16 := by
  have mac := passes_hmac md5Driver_computes md5_length (show 16 ≤ 64 by decide) m m' stack stack' key text trivial
    trivial fun _ _ => trivial
  calc (md5TwinpassHmacHash md5Driver m' (md5TwinpassHmacSetKey md5Driver m stack key).2.1 stack' text hash
        hashlen).2.1
      = memcpyTo hash 0 (hmac md5 64 key text) := congrArg (memcpyTo hash 0) mac
    _ = hmac md5 64 key text ++ hash.drop 16 := memcpyTo_front _ _

/-- Sixteen bytes written are more than the `hashlen` asked for, and the memory behind may hold anything. -/
theorem overwrites_iff {mac : List U8} {hashlen : Nat} (size : mac.length = 16) (within : hashlen ≤ 16) :
    (∀ hash : List U8, 16 ≤ hash.length → mac ++ hash.drop 16 = mac.take hashlen ++ hash.drop hashlen) ↔
      hashlen = 16 := by
  constructor
  · intro kept
    by_contra less
    -- a memory that differs from the last byte of the value
    have room : 16 ≤ (List.replicate 16 (mac.getD 15 0 + 1)).length := by rw [List.length_replicate]
    have equal := congrArg (fun bytes => bytes.getD 15 0) (kept (List.replicate 16 (mac.getD 15 0 + 1)) room)
    have short : (mac.take hashlen).length = hashlen := by
      rw [List.length_take]
      omega
    have left : (mac ++ (List.replicate 16 (mac.getD 15 0 + 1)).drop 16).getD 15 0 = mac.getD 15 0 :=
      List.getD_append _ _ _ _ (by omega)
    have right : (mac.take hashlen ++ (List.replicate 16 (mac.getD 15 0 + 1)).drop hashlen).getD 15 0 =
        mac.getD 15 0 + 1 := by
      rw [List.getD_append_right _ _ _ _ (by omega), short, List.drop_replicate]
      exact List.getD_replicate _ (by omega)
    have changed : mac.getD 15 0 = mac.getD 15 0 + 1 := left.symm.trans (equal.trans right)
    have numbers := congrArg BitVec.toNat changed
    rw [BitVec.toNat_add] at numbers
    have one : (1 : U8).toNat = 1 := rfl
    omega
  · rintro rfl hash -
    rw [List.take_of_length_le (Nat.le_of_eq size)]

/-- Up to the size of a digest, SHA-1 writes the first `hashlen` bytes of its value and nothing behind them, while
MD5 does so only where `hashlen` is that size. Below 2^29 bytes of key and text the SHA-1 value is the HMAC. -/
theorem hmac_hash_length (m m' : md5Driver.State) (s s' : sha1Driver.State) (stack stack' key text : List U8)
    {hashlen : Nat} (within : hashlen ≤ 20) :
    (hashlen ≤ 16 →
      ((∀ hash : List U8, 16 ≤ hash.length →
          (md5TwinpassHmacHash md5Driver m' (md5TwinpassHmacSetKey md5Driver m stack key).2.1 stack' text hash
              hashlen).2.1 =
            (hmac md5 64 key text).take hashlen ++ hash.drop hashlen) ↔
        hashlen = 16)) ∧
      (∀ hash : List U8,
        (sha1TwinpassHmacHash sha1Driver s' (sha1TwinpassHmacSetKey sha1Driver s stack key).2.1 stack' text hash
            hashlen).2.1 =
          (sha1Mac s s' stack stack' key text).take hashlen ++ hash.drop hashlen) ∧
      (key.length < 2 ^ 29 → text.length < 2 ^ 29 → sha1Mac s s' stack stack' key text = hmac sha1 64 key text) := by
  refine ⟨fun fits => ?_, fun hash => sha1Hash_writes s s' stack stack' key text hash within,
    sha1_driver_hmac s s' stack stack'⟩
  simp only [md5Hash_writes]
  exact overwrites_iff (md5_length _) fits

theorem zero_length : Md5Ctx.zero.block.length = 64 := rfl

def idleMd5 : md5Driver.State := (stopped, ⟨.zero, zero_length⟩)

def idleSha1 : sha1Driver.State := (stopped, .zero)

/-- Twelve bytes, as IPsec asks for. -/
theorem hmac_hash_length_twelve :
    (12 ≤ 16 →
      ((∀ hash : List U8, 16 ≤ hash.length →
          (md5TwinpassHmacHash md5Driver idleMd5 (md5TwinpassHmacSetKey md5Driver idleMd5 [] [0x6B#8]).2.1 [] [0x48#8]
              hash 12).2.1 =
            (hmac md5 64 [0x6B#8] [0x48#8]).take 12 ++ hash.drop 12) ↔
        12 = 16)) ∧
      (∀ hash : List U8,
        (sha1TwinpassHmacHash sha1Driver idleSha1 (sha1TwinpassHmacSetKey sha1Driver idleSha1 [] [0x6B#8]).2.1 []
            [0x48#8] hash 12).2.1 =
          (sha1Mac idleSha1 idleSha1 [] [] [0x6B#8] [0x48#8]).take 12 ++ hash.drop 12) ∧
      ([0x6B#8].length < 2 ^ 29 → [0x48#8].length < 2 ^ 29 →
        sha1Mac idleSha1 idleSha1 [] [] [0x6B#8] [0x48#8] = hmac sha1 64 [0x6B#8] [0x48#8]) :=
  hmac_hash_length idleMd5 idleMd5 idleSha1 idleSha1 [] [] [0x6B#8] [0x48#8] (by decide)

/-- The four bytes behind a buffer of twelve, zero before the call. -/
theorem md5Hash_overwrites :
    (md5TwinpassHmacHash md5Driver idleMd5 (md5TwinpassHmacSetKey md5Driver idleMd5 [] [0x6B#8]).2.1 [] [0x48#8]
        (List.replicate 16 0) 12).2.1.drop 12 ≠ List.replicate 4 0 := by
  rw [md5Hash_writes]
  decide +kernel

end TwinpassGateway.Crypto
