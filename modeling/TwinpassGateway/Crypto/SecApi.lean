import TwinpassGateway.Crypto.SetKey
import TwinpassGateway.Foundation.Blocks
import TwinpassGateway.Foundation.Cbc

/-!
The cipher calls of `sec_api.c`. A buffer that is the input is also the output.
-/

namespace TwinpassGateway.Crypto

open Foundation

/-! ### The calls -/

def bytesAt (p : List U8) (n : Nat) : List U8 := (List.range n).map fun i => p.getD i 0

/-- The part that `_1des_twinpass_cbc_encrypt` and `_3des_twinpass_cbc_encrypt` share. `beyond` is what can be read
behind the buffer, and `stack` what `out` holds at first. -/
def desTwinpassCbcEncrypt (setKey : Deu DesT → KeySet DesT) (crypt : DesCrypt) (rev14 : Bool) (s : Deu DesT)
    (inBuf beyond : List U8) (stack : Nat → U8) (iv : List U8) (encrypt : Int) : Int × List U8 × Deu DesT :=
  let ilen := inBuf.length
  let ivBuf := (pairAt iv 0).bytes
  let r := setKey s
  let (stored, regs) := desIncaip1Cbc crypt rev14 r.deu.regs (inBuf ++ beyond) ivBuf ilen encrypt
  let out := (List.range ilen).map fun k => stored.getD k (stack k)
  (if r.ret ≠ 0 then -1 else ilen, out, { r.deu with regs })

def des1TwinpassCbcEncrypt (crypt : DesCrypt) (rev14 : Bool) (s : Deu DesT) (keyE inBuf beyond : List U8)
    (stack : Nat → U8) (iv : List U8) (encrypt : Int) : Int × List U8 × Deu DesT :=
  desTwinpassCbcEncrypt (fun s => desSetkey s (bytesAt keyE 8) 0) crypt rev14 s inBuf beyond stack iv encrypt

def des3TwinpassCbcEncrypt (crypt : DesCrypt) (rev14 : Bool) (s : Deu DesT) (keyE inBuf beyond : List U8)
    (stack : Nat → U8) (iv : List U8) (encrypt : Int) : Int × List U8 × Deu DesT :=
  desTwinpassCbcEncrypt (fun s => des3EdeSetkey s (bytesAt keyE 24) 0) crypt rev14 s inBuf beyond stack iv encrypt

def aesIfxdeuCbc (crypt : Crypt) (rev14 : Bool) (aes : AesT) (src : List U8) (iv : Option (List U8)) (nbytes : Nat)
    (encdec : Int) : Option (List U8 × AesT) :=
  aesIfxdeu crypt rev14 aes src iv nbytes encdec cryptoTfmModeCbc

/-- The loop over the blocks: what it stores, or `none` if the engine never answers. -/
def aesLoop (crypt : Crypt) (rev14 : Bool) (iv : List U8) (encrypt : Int) :
    Nat → Nat → AesT → List U8 → Option (List U8 × AesT)
  | 0, _, aes, _ => some ([], aes)
  | turns + 1, blockNo, aes, pIn =>
    (aesIfxdeuCbc crypt rev14 aes pIn (if blockNo ≠ 0 then none else some iv) 16 encrypt).bind fun (out, aes) =>
      (aesLoop crypt rev14 iv encrypt turns (blockNo + 1) aes (pIn.drop 16)).map fun (rest, aes) => (out ++ rest, aes)

/-- `_aes_twinpass_set_key`: the result, and the key bytes of the context if they change. -/
def aesTwinpassSetKey (ctx key : List U8) : Int × List U8 :=
  if key.length ≠ 32 ∧ key.length ≠ 24 ∧ key.length ≠ 16 then (-1, ctx) else (0, key)

/-- `_aes_twinpass_cbc_encrypt`, with the `aes_key_len` bytes at `aes_key` of the context. -/
def aesTwinpassCbcEncrypt (crypt : Crypt) (rev14 : Bool) (s : Deu AesRegs) (ctx inBuf iv : List U8) (encrypt : Int) :
    Option (Int × List U8 × Deu AesRegs) :=
  let ilen := inBuf.length
  let r := aesSetKeyLocked s ctx 0
  (aesLoop crypt rev14 iv encrypt (ilen / 16) 0 r.deu.regs.aes inBuf).map fun (stored, aes) =>
    let out := stored ++ List.replicate (ilen - stored.length) 0
    (if r.ret ≠ 0 then -1 else ilen, out, { r.deu with regs := { r.deu.regs with aes } })

/-! ### What the engines compute -/

def Pair.xor (a b : Pair) : Pair := ⟨a.hr ^^^ b.hr, a.lr ^^^ b.lr⟩

def Quad.xor (a b : Quad) : Quad := ⟨a.r3 ^^^ b.r3, a.r2 ^^^ b.r2, a.r1 ^^^ b.r1, a.r0 ^^^ b.r0⟩

/-- In mode 1 the DES engine chains its block operation over input words in the byte order of the chip. -/
def DesChains (crypt : DesCrypt) (rev14 : Bool) (E D : BitVec 3 → List Pair → Pair → Pair) : Prop :=
  ∀ m decrypt keys iv data,
    crypt m 1 decrypt keys iv ⟨endianSwap rev14 data.hr, endianSwap rev14 data.lr⟩ =
      cbcStep Pair.xor (E m keys) (D m keys) decrypt iv data

def AesChains (crypt : Crypt) (rev14 : Bool) (E D : List U32 → Quad → Quad) : Prop :=
  ∀ decrypt key iv data,
    crypt 1 decrypt key iv ⟨endianSwap rev14 data.r3, endianSwap rev14 data.r2, endianSwap rev14 data.r1,
      endianSwap rev14 data.r0⟩ =
      cbcStep Quad.xor (E key) (D key) decrypt iv data

def desCbc (E D : Pair → Pair) (decrypt : Bool) (iv text : List U8) : List U8 :=
  (cbc Pair.xor E D decrypt (pairAt iv 0) ((blocks 8 text).map (pairAt · 0))).flatMap Pair.bytes

def aesCbc (E D : Quad → Quad) (decrypt : Bool) (iv text : List U8) : List U8 :=
  (cbc Quad.xor E D decrypt (quad iv) ((blocks 16 text).map quad)).flatMap Quad.bytes

/-- An error leaves the buffer as it was, and a success leaves the transform of all of it. -/
def Outcome (blockSize : Nat) (transform : List U8) (before : List U8) (rc : Int) (after : List U8) : Prop :=
  (rc < 0 → after = before) ∧ (0 ≤ rc → blockSize ∣ before.length ∧ after = transform)

end TwinpassGateway.Crypto
